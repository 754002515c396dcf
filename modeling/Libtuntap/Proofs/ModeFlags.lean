import Libtuntap.Effect.Trace
import Libtuntap.Unix.Core

/-!
# The mode in Darwin's flags

`tuntap_sys_start` on Darwin sets or clears `IFF_LINK0` in a request structure,
and later hands a request structure back to the kernel under the comment "Set
our modifications". Between the two the structure is cleared, named, and filled
with the flags the kernel reports. So the word written is the word read, the
mode has no part in it, and what the memory held before the start has none
either.

The interface has the bit its mode wants exactly when it had it before.
-/

namespace Libtuntap

open Effect CMem

/-- The flag word a call writes to the interface. -/
def writtenFlag : Event Call Resp → Option (BitVec 16)
  | ⟨.ioctl _ .siocsifflags arg, _⟩ => some (ifrFlags arg)
  | _ => none

def writtenFlags (tr : List (Event Call Resp)) : List (BitVec 16) := tr.filterMap writtenFlag

/-- A call that writes no flags, whatever the reply. -/
def Call.KeepsFlags (c : Call) : Prop := ∀ r, writtenFlag ⟨c, r⟩ = none

/-- The kernel reports the flag word `f`. -/
def ReportsFlags (f : BitVec 16) : Event Call Resp → Prop
  | ⟨.ioctlGet _ .siocgifflags arg, r⟩ => r.ret ≠ -1 → r.arg = setIfrFlags arg f
  | _ => True

/-- The flag word of an interface that has had `f`, in the given mode. -/
def Mode.link0 (mode : Mode) (f : BitVec 16) : BitVec 16 :=
  if mode = tuntapModeEthernet then f ||| iffLink0 else f &&& ~~~iffLink0

/-- The mode is in the one flag word written and in the one saved. -/
def AppliesMode (mode : Mode) (f : BitVec 16) (tr : List (Event Call Resp)) (dev : Device) :
    Prop :=
  writtenFlags tr = [mode.link0 f] ∧ dev.flags = (mode.link0 f).signExtend 32

theorem writtenFlags_append {tr₁ : List (Event Call Resp)} (h : ∀ e ∈ tr₁, e.1.KeepsFlags)
    (tr₂ : List (Event Call Resp)) : writtenFlags (tr₁ ++ tr₂) = writtenFlags tr₂ := by
  have hnil : tr₁.filterMap writtenFlag = [] :=
    List.filterMap_eq_nil_iff.mpr fun e he => h e he e.2
  show (tr₁ ++ tr₂).filterMap writtenFlag = _
  rw [List.filterMap_append, hnil, List.nil_append]
  rfl

/-! ## The start -/

section Start

variable {dev : Device} {mode : Mode} {tun : Int} {f : BitVec 16}

/-- A start that answers with a descriptor has written the flags it was told,
and saved them. -/
def WritesBack (f : BitVec 16) (tr : List (Event Call Resp)) (r : Int × Device) : Prop :=
  r.1 ≠ -1 → (∀ e ∈ tr, ReportsFlags f e) →
    writtenFlags tr = [f] ∧ r.2.flags = f.signExtend 32

/-- What a program does first, as long as it writes no flags, is not in the
way. -/
theorem writesBack_bind {α : Type} {p : Sys α} {q : α → Sys (Int × Device)}
    (hp : p.AllCalls Call.KeepsFlags) (hq : ∀ a, (q a).Ensures (WritesBack f)) :
    (p >>= q).Ensures (WritesBack f) := by
  have hpre : p.Ensures fun tr _ => ∀ e ∈ tr, e.1.KeepsFlags :=
    (Prog.ensures_iff p).mpr fun _ _ hr => hp.of_runs hr
  refine hpre.bind fun tr₁ a htr₁ => (hq a).mono fun tr₂ r hr hne hreports => ?_
  rw [writtenFlags_append htr₁]
  exact hr hne fun e he => hreports e (List.mem_append_right _ he)

theorem writesBack_failed (d : Device) :
    (Prog.ret (-1, d) : Sys (Int × Device)).Ensures (WritesBack f) := fun h => absurd rfl h

/-- A check that ends the start with a message. -/
theorem writesBack_check {p : Prop} [Decidable p] {level : Level} {msg : CString} {d : Device}
    {q : Sys (Int × Device)} (h : ¬ p → q.Ensures (WritesBack f)) :
    (if p then Prog.call (Call.log level msg) >>= fun _ => Prog.ret (-1, d) else q).Ensures
      (WritesBack f) :=
  (Prog.ensures_ite _ _ _).mpr ⟨fun _ _ hne => absurd rfl hne, h⟩

theorem Bsd.saveLladdr_keepsFlags : (Bsd.saveLladdr dev).Ensures fun tr d =>
    writtenFlags tr = [] ∧ d.flags = dev.flags := by
  refine (Prog.ensures_call_bind _ _).mpr fun ifa => ?_
  cases ifa with
  | none => exact ⟨rfl, rfl⟩
  | some ifa =>
      dsimp only
      split
      · exact ⟨rfl, rfl⟩
      · exact fun _ => ⟨rfl, rfl⟩

theorem Bsd.scanUnits_keepsFlags {type : CString} (n : Nat) (fd : Int) :
    (Bsd.scanUnits type n tun fd).AllCalls Call.KeepsFlags := by
  induction n generalizing tun fd with
  | zero => trivial
  | succ n ih => exact ⟨fun _ => rfl, fun fd => (Prog.allCalls_ite _ _ _).mpr
      ⟨fun _ => trivial, fun _ => ih fd⟩⟩

theorem Bsd.openUnit_keepsFlags {type : CString} :
    (Bsd.openUnit type tun).AllCalls Call.KeepsFlags := by
  unfold Bsd.openUnit
  refine (Prog.allCalls_ite _ _ _).mpr ⟨fun _ => ⟨fun _ => rfl, fun _ => trivial⟩, fun _ => ?_⟩
  refine (Prog.allCalls_ite _ _ _).mpr ⟨fun _ => ?_, fun _ => ⟨fun _ => rfl, fun _ => trivial⟩⟩
  exact (Bsd.scanUnits_keepsFlags _ _).bind fun _ => trivial

theorem Bsd.checkFd_keepsFlags (fd : Int) : (Bsd.checkFd fd).AllCalls Call.KeepsFlags := by
  unfold Bsd.checkFd
  refine (Prog.allCalls_ite _ _ _).mpr ⟨fun _ => ⟨fun _ => rfl, fun _ => trivial⟩, fun _ => ?_⟩
  exact (Prog.allCalls_ite _ _ _).mpr
    ⟨fun _ => ⟨fun _ => rfl, fun _ => trivial⟩, fun _ => trivial⟩

/-- What is left to do once the flags read in `arg` are written back. -/
theorem writesBack_written {n : Nat} (hn : 18 ≤ n) {sock sock' : Int} {arg : Buf n}
    {r : IoctlGetRet n} {r' : IoctlRet} (hr : r.ret ≠ -1) {tr : List (Event Call Resp)}
    (htr : writtenFlags tr = []) {fd : Int} {d : Device}
    (hd : d.flags = (ifrFlags r.arg).signExtend 32) :
    WritesBack f (⟨.ioctlGet sock .siocgifflags arg, r⟩ ::
      ⟨.ioctl sock' .siocsifflags r.arg, r'⟩ :: tr) (fd, d) := by
  intro _ hreports
  have harg : r.arg = setIfrFlags arg f := hreports _ (List.mem_cons_self ..) hr
  have hflags : ifrFlags r.arg = f := by rw [harg, ifrFlags_setIfrFlags _ _ hn]
  rw [hflags] at hd
  refine ⟨?_, hd⟩
  show ifrFlags r.arg :: writtenFlags tr = [f]
  rw [hflags, htr]

/-- The flags written are those read, and the structure they are read into was
cleared before. -/
theorem Darwin.configure_writesBack (type : CString) (fd : Int) (ifr : BsdIfreq) :
    (Darwin.configure dev mode type fd tun ifr).Ensures (WritesBack f) := by
  dsimp only [Darwin.configure]
  refine (Prog.ensures_call_bind _ _).mpr fun r => ?_
  refine (Prog.ensures_ite _ _ _).mpr ⟨fun _ _ hne => absurd rfl hne, fun hr => ?_⟩
  refine (Prog.ensures_call_bind _ _).mpr fun r' => ?_
  refine (Prog.ensures_ite _ _ _).mpr ⟨fun _ _ hne => absurd rfl hne, fun _ => ?_⟩
  refine (Prog.ensures_ite _ _ _).mpr ⟨fun _ => ?_, fun _ => ?_⟩
  · refine Bsd.saveLladdr_keepsFlags.bind fun tr d hd => ?_
    refine writesBack_written (by decide) hr ?_ hd.2
    rw [List.append_nil]
    exact hd.1
  · exact writesBack_written (by decide) hr rfl rfl

theorem Darwin.tuntapSysStart_writesBack :
    (Darwin.tuntapSysStart dev mode tun).Ensures (WritesBack f) := by
  dsimp only [Darwin.tuntapSysStart]
  refine writesBack_bind (p := uninit 32) ⟨fun _ => rfl, fun _ => trivial⟩ fun ifr => ?_
  refine writesBack_check fun _ => ?_
  refine writesBack_check fun _ => ?_
  refine writesBack_bind Bsd.openUnit_keepsFlags fun o => ?_
  cases o with
  | none => exact writesBack_failed dev
  | some found =>
      refine writesBack_bind (Bsd.checkFd_keepsFlags _) fun goesOn => ?_
      refine (Prog.ensures_ite _ _ _).mpr ⟨fun _ => writesBack_failed dev, fun _ => ?_⟩
      exact Darwin.configure_writesBack _ _ _

end Start

/-! ## The bit -/

section Bit

variable {mode : Mode} {f : BitVec 16}

theorem getLsbD_iffLink0 (i : Nat) : iffLink0.getLsbD i = decide (i = 12) := by
  have htwo : iffLink0 = BitVec.twoPow 16 12 := rfl
  rw [htwo, BitVec.getLsbD_twoPow]
  by_cases hi : i = 12
  · simp [hi]
  · simp [hi, Ne.symm hi]

theorem and_iffLink0_iff : f &&& iffLink0 = iffLink0 ↔ f.getLsbD 12 = true := by
  constructor
  · intro h
    have hbit := congrArg (fun w => w.getLsbD 12) h
    simpa [getLsbD_iffLink0] using hbit
  · intro h
    refine BitVec.eq_of_getLsbD_eq fun i _ => ?_
    rw [BitVec.getLsbD_and, getLsbD_iffLink0]
    by_cases hi : i = 12
    · simp [hi, h]
    · simp [hi]

/-- A mode changes nothing in a word that has its bit. -/
theorem Mode.link0_eq_iff :
    mode.link0 f = f ↔ (f &&& iffLink0 = iffLink0 ↔ mode = tuntapModeEthernet) := by
  rw [and_iffLink0_iff]
  unfold Mode.link0
  by_cases hmode : mode = tuntapModeEthernet
  · rw [if_pos hmode, iff_true_right hmode]
    constructor
    · intro h
      rw [← h]
      simp [getLsbD_iffLink0]
    · intro h
      refine BitVec.eq_of_getLsbD_eq fun i _ => ?_
      rw [BitVec.getLsbD_or, getLsbD_iffLink0]
      by_cases hi : i = 12
      · simp [hi, h]
      · simp [hi]
  · rw [if_neg hmode, iff_false_right hmode]
    constructor
    · intro h
      rw [← h]
      simp [getLsbD_iffLink0]
    · intro h
      refine BitVec.eq_of_getLsbD_eq fun i hlt => ?_
      rw [BitVec.getLsbD_and, BitVec.getLsbD_not, getLsbD_iffLink0]
      by_cases hi : i = 12
      · rw [hi, Bool.eq_false_iff.mpr h, Bool.false_and]
      · simp [hi, hlt]

end Bit

section Applied

variable {dev dev' : Device} {mode : Mode} {tun fd : Int} {f : BitVec 16}
  {tr : List (Event Call Resp)}

/-- A start on Darwin that succeeds leaves the interface and the record with the
flags of the mode exactly when the interface came with them. -/
theorem mode_applied_iff (hr : (Darwin.tuntapSysStart dev mode tun).Runs tr (fd, dev'))
    (hfd : fd ≠ -1) (hreports : ∀ e ∈ tr, ReportsFlags f e) :
    AppliesMode mode f tr dev' ↔ (f &&& iffLink0 = iffLink0 ↔ mode = tuntapModeEthernet) := by
  obtain ⟨hwritten, hsaved⟩ :=
    (Prog.ensures_iff _).mp Darwin.tuntapSysStart_writesBack tr _ hr hfd hreports
  rw [← Mode.link0_eq_iff]
  constructor
  · intro h
    have hlist : [f] = [mode.link0 f] := hwritten.symm.trans h.1
    exact (List.cons.inj hlist).1.symm
  · intro h
    unfold AppliesMode
    rw [h]
    exact ⟨hwritten, hsaved⟩

end Applied

/-! ## A start of `tap0` -/

/-- What a start of `tap0` asks for the flags with. -/
def tapZero : BsdIfreq :=
  Buf.zero.strlcpy 0 (CString.lit "tap" ++ CString.int 0) 16

/-- The record once the control socket is open. -/
def tapZeroInit : Device := { Device.init with ctrlSock := 3 }

/-- The record of the device, with the flags saved. -/
def tapZeroStarted (f : BitVec 16) : Device :=
  { tapZeroInit with
    flags := f.signExtend 32
    ifName := (Buf.zero : Buf 17).strlcpy 0 (ifrName tapZero).cstr 17 }

theorem tapZero_cleared (ifr : BsdIfreq) :
    (ifr.memset 0 0 32).strlcpy 0 (CString.lit "tap" ++ CString.int 0) 16 = tapZero := by
  have hclear : ifr.memset 0 0 32 = Buf.zero := by
    refine Buf.ext_byte fun i hi => ?_
    rw [Buf.byte_memset, if_pos (by omega), Buf.byte_zero]
  rw [hclear]
  rfl

/-- The calls from the opened node on. -/
def tapZeroConfigured (f : BitVec 16) : List (Event Call Resp) :=
  [⟨.ioctlGet 3 .siocgifflags tapZero, ⟨0, setIfrFlags tapZero f⟩⟩,
    ⟨.ioctl 3 .siocsifflags (setIfrFlags tapZero f), ⟨0, .other⟩⟩, ⟨.getifaddrs, none⟩]

/-- The calls of a start of `tap0`, on memory that was clear. -/
def tapZeroTrace (f : BitVec 16) : List (Event Call Resp) :=
  ⟨.uninit 32, (Buf.zero : Buf 32)⟩ :: ⟨.open (CString.lit "/dev/" ++ CString.lit "tap" ++
    CString.int 0), (4 : Int)⟩ :: tapZeroConfigured f

theorem tapZeroConfigured_runs (f : BitVec 16) (ifr : BsdIfreq) :
    (Darwin.configure tapZeroInit tuntapModeEthernet (CString.lit "tap") 4 0 ifr).Runs
      (tapZeroConfigured f) (4, tapZeroStarted f) := by
  unfold Darwin.configure
  rw [tapZero_cleared]
  refine (Prog.runs_call_bind _ _ _ _).mpr ⟨⟨0, setIfrFlags tapZero f⟩, _, rfl, ?_⟩
  refine (Prog.runs_call_bind _ _ _ _).mpr ⟨⟨0, .other⟩, _, rfl, ?_⟩
  refine ⟨none, [], rfl, rfl, ?_⟩
  dsimp only
  rw [ifrFlags_setIfrFlags _ _ (by decide)]
  rfl

theorem tapZero_runs (f : BitVec 16) :
    (Darwin.tuntapSysStart tapZeroInit tuntapModeEthernet 0).Runs (tapZeroTrace f)
      (4, tapZeroStarted f) := by
  dsimp only [Darwin.tuntapSysStart]
  refine (Prog.runs_call_bind _ _ _ _).mpr ⟨Buf.zero, _, rfl, ?_⟩
  rw [if_neg (by decide), if_neg (by decide)]
  refine (Prog.runs_bind _ _ _ _).mpr
    ⟨some (4, 0), [_], _, rfl, ⟨(4 : Int), [], rfl, rfl, rfl⟩, ?_⟩
  exact (Prog.runs_bind _ _ _ _).mpr
    ⟨true, [], _, rfl, ⟨rfl, rfl⟩, tapZeroConfigured_runs f _⟩

theorem tapZero_reports (f : BitVec 16) : ∀ e ∈ tapZeroTrace f, ReportsFlags f e := by
  simp [tapZeroTrace, tapZeroConfigured, ReportsFlags]

/-- A tap device that comes with the bit keeps it. -/
theorem mode_applied_tap : AppliesMode tuntapModeEthernet 0x9043 (tapZeroTrace 0x9043)
    (tapZeroStarted 0x9043) :=
  (mode_applied_iff (tapZero_runs _) (by decide) (tapZero_reports _)).mpr (by decide)

/-- One that comes without it does not get it. -/
theorem mode_not_applied : ¬ ∀ (dev dev' : Device) (mode : Mode) (tun fd : Int) (f : BitVec 16)
    (tr : List (Event Call Resp)), (Darwin.tuntapSysStart dev mode tun).Runs tr (fd, dev') →
      fd ≠ -1 → (∀ e ∈ tr, ReportsFlags f e) → AppliesMode mode f tr dev' := by
  intro hclaim
  obtain ⟨-, hsaved⟩ := hclaim _ _ _ _ _ _ _ (tapZero_runs 0x8043) (by decide) (tapZero_reports _)
  exact absurd hsaved (by decide)

end Libtuntap
