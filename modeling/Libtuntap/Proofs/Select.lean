import Libtuntap.Proofs.Started

/-!
# The descriptor set of a timed call

`FD_SET` writes bit `fd` of a block of `FD_SETSIZE` bits and looks at nothing.
Whether the bit is inside the block was decided when the device was started,
because no later call changes `tun_fd`. There the descriptor is compared with
`TUNTAP_ID_MAX` in the place of the unit, and only where a unit is given: on
that path it is at most 256. With `TUNTAP_ID_ANY` it is whatever number `open`
had left.
-/

namespace Libtuntap

open Effect CMem

/-- `FD_SETSIZE`. -/
def fdSetsize : Int := 1024

/-- The numbers `open` gave. -/
def opened : List (Event Call Resp) → List Int
  | [] => []
  | ⟨.open _, fd⟩ :: tr => fd :: opened tr
  | _ :: tr => opened tr

theorem mem_opened {tr : List (Event Call Resp)} {fd : Int} (h : fd ∈ opened tr) :
    ∃ path, (⟨.open path, fd⟩ : Event Call Resp) ∈ tr := by
  induction tr with
  | nil => cases h
  | cons e tr ih =>
      obtain ⟨c, r⟩ := e
      cases c with
      | «open» path =>
          rcases List.mem_cons.mp h with rfl | h
          · exact ⟨path, List.mem_cons_self ..⟩
          · obtain ⟨path', hmem⟩ := ih h
            exact ⟨path', List.mem_cons_of_mem _ hmem⟩
      | _ =>
          obtain ⟨path', hmem⟩ := ih h
          exact ⟨path', List.mem_cons_of_mem _ hmem⟩

/-- The timed calls. -/
def Op.IsTimed : Op → Prop
  | .readTm _ timeoutMs | .writeTm _ timeoutMs => 0 ≤ timeoutMs
  | _ => False

/-- Every descriptor a timed call puts into its set is in range. -/
def SetInRange (libc : Libc) (dev : Device) : Prop :=
  ∀ (op : Op) (tr : List (Event Call Resp)) (a : Ret × Option Device), op.IsTimed →
    (op.prog .linux libc dev).Runs tr a → ∀ (nfds fd : Int) (reading : Bool) (sec usec r : Int),
      (⟨.select nfds fd reading sec usec, r⟩ : Event Call Resp) ∈ tr → 0 ≤ fd ∧ fd < fdSetsize

/-! ## The timed calls -/

section Timed

variable {libc : Libc} {dev : Device}

/-- A call that selects on no descriptor but `tun_fd`, and on that only when
the device is started. -/
def Call.SelectsOn (dev : Device) : Call → Prop
  | .select _ fd .. => dev.tunFd ≠ -1 ∧ fd = dev.tunFd
  | _ => True

theorem waitReadyEventOrTimeout_selectsOn {reading : Bool} {timeoutMs : Int}
    (hdev : dev.tunFd ≠ -1) :
    (waitReadyEventOrTimeout dev.tunFd reading timeoutMs).AllCalls (Call.SelectsOn dev) := by
  simp [waitReadyEventOrTimeout, Call.SelectsOn, hdev]

theorem Op.selectsOn {op : Op} (hop : op.IsTimed) :
    (op.prog .linux libc dev).AllCalls (Call.SelectsOn dev) := by
  have hlog : ∀ level msg, (Call.log level msg).SelectsOn dev := fun _ _ => trivial
  cases op with
  | readTm size timeoutMs =>
      refine Prog.AllCalls.bind ?_ fun _ => trivial
      refine (Prog.allCalls_ite _ _ _).mpr ⟨fun _ => ⟨hlog _ _, fun _ => trivial⟩, fun hdev => ?_⟩
      refine (waitReadyEventOrTimeout_selectsOn hdev).bind fun ready => ?_
      simp [readPacket, Call.SelectsOn]
  | writeTm buf timeoutMs =>
      refine Prog.AllCalls.bind ?_ fun _ => trivial
      refine (Prog.allCalls_ite _ _ _).mpr ⟨fun _ => ⟨hlog _ _, fun _ => trivial⟩, fun hdev => ?_⟩
      refine (waitReadyEventOrTimeout_selectsOn hdev).bind fun ready => ?_
      simp [writePacket, Call.SelectsOn]
  | _ => exact hop.elim

/-- On a started device the set is written at `tun_fd`. -/
theorem setInRange_iff :
    SetInRange libc dev ↔ (dev.tunFd ≠ -1 → 0 ≤ dev.tunFd ∧ dev.tunFd < fdSetsize) := by
  constructor
  · intro h hdev
    -- a read of nothing that times out at once
    have hr : ((Op.readTm 0 0).prog .linux libc dev).Runs
        [⟨.select (dev.tunFd + 1) dev.tunFd true 0 0, (0 : Int)⟩]
        (keep dev (.bytes (-1) [])) := by
      simp only [Op.prog, tuntapReadTm, if_neg hdev]
      exact ⟨(0 : Int), _, rfl, rfl, rfl⟩
    exact h (.readTm 0 0) _ _ (Int.le_refl 0) hr _ _ _ _ _ _ (List.mem_cons_self ..)
  · intro h op tr a hop hr nfds fd reading sec usec r hmem
    obtain ⟨hdev, hfd⟩ : dev.tunFd ≠ -1 ∧ fd = dev.tunFd := (Op.selectsOn hop).of_runs hr _ hmem
    rw [hfd]
    exact h hdev

end Timed

/-! ## The start -/

section Start

variable {dev : Device} {mode : Mode} {tun : Int}

/-- A program that opens nothing and answers with a descriptor it was given, or
with a failure. -/
theorem ensures_opened {p : Sys (Int × Device)} (fd : Int)
    (hp : p.AllCalls fun c => ∀ path, c ≠ .open path)
    (ha : p.Answers fun r => r.1 = -1 ∨ r.1 = fd) :
    p.Ensures fun tr r => opened tr = [] ∧ (r.1 = -1 ∨ r.1 = fd) := by
  refine (Prog.ensures_iff p).mpr fun tr r hr => ⟨?_, ha.of_runs hr⟩
  refine List.eq_nil_iff_forall_not_mem.mpr fun n hn => ?_
  obtain ⟨path, hmem⟩ := mem_opened hn
  exact hp.of_runs hr _ hmem path rfl

/-- The one descriptor `tuntap_sys_start` opens is the one it answers with, and
it is not above `TUNTAP_ID_MAX` when a unit was given. -/
theorem Linux.tuntapSysStart_opened :
    (tuntapSysStart dev mode tun).Ensures fun tr r => r.1 ≠ -1 →
      opened tr = [r.1] ∧ (tun ≠ tuntapIdAny → r.1 ≤ tuntapIdMax) := by
  dsimp only [tuntapSysStart]
  refine (Prog.ensures_ite _ _ _).mpr ⟨fun _ _ h => absurd rfl h, fun _ => ?_⟩
  refine (Prog.ensures_ite _ _ _).mpr ⟨fun _ _ h => absurd rfl h, fun _ => ?_⟩
  refine (Prog.ensures_call_bind _ _).mpr fun fd => ?_
  refine (Prog.ensures_ite _ _ _).mpr ⟨fun _ _ h => absurd rfl h, fun _ => ?_⟩
  refine (Prog.ensures_ite _ _ _).mpr ⟨fun _ h => absurd rfl h, fun hmax => ?_⟩
  have hle : tun ≠ tuntapIdAny → fd ≤ tuntapIdMax := fun htun =>
    Int.not_lt.mp fun hlt => hmax ⟨htun, hlt⟩
  refine (ensures_opened fd ?_ ?_).mono fun tr r hr hne => ?_
  · simp [setPersistent]
  · simp [setPersistent]
  · obtain ⟨htr, hfd⟩ := hr
    rw [hfd.resolve_left hne]
    show fd :: opened tr = [fd] ∧ _
    rw [htr]
    exact ⟨rfl, hle⟩

theorem tuntapStart_opened (hdev : dev.tunFd = -1) :
    (tuntapStart .linux dev mode tun).Ensures fun tr r => r.1 = 0 →
      r.2.tunFd ≠ -1 ∧ opened tr = [r.2.tunFd] ∧
        (tun ≠ tuntapIdAny → r.2.tunFd ≤ tuntapIdMax) := by
  have hclean : ∀ sock d, (startClean (-1) sock d).Ensures fun _ r => r.1 = -1 := by
    intro sock d
    simp [startClean]
  have hfail : ∀ {P : Prop} {r : Int × Device}, r.1 = -1 → r.1 = 0 → P := by
    intro P r h h0
    omega
  unfold tuntapStart
  rw [if_neg (not_not.mpr hdev)]
  refine (Prog.ensures_call_bind _ _).mpr fun sock => ?_
  refine (Prog.ensures_ite _ _ _).mpr ⟨fun _ => (hclean _ _).mono fun _ _ => hfail, fun _ => ?_⟩
  refine (Prog.ensures_ite _ _ _).mpr ⟨fun _ => (hclean _ _).mono fun _ _ => hfail, fun _ => ?_⟩
  refine Prog.Ensures.bind Linux.tuntapSysStart_opened fun tr r hr => ?_
  obtain ⟨fd, d⟩ := r
  refine (Prog.ensures_ite _ _ _).mpr ⟨fun hfd => ?_, fun hfd _ => ?_⟩
  · subst hfd
    exact (hclean _ _).mono fun _ _ => hfail
  · obtain ⟨htr, hmax⟩ := hr hfd
    refine ⟨hfd, ?_, hmax⟩
    rw [List.append_nil]
    exact htr

end Start

/-! ## Sessions -/

section Session

variable {R : Rules} {libc : Libc} {rely : Rely} {s s' : Session}

/-- What `open` gives is a descriptor or a failure. -/
theorem opened_nonneg {k k' : Kern} {tr : List (Event Call Resp)}
    (hs : (kernel R).Steps k tr k') : ∀ fd ∈ opened tr, fd ≠ -1 → 0 ≤ fd := by
  induction tr generalizing k with
  | nil =>
      intro fd hfd
      cases hfd
  | cons e tr ih =>
      obtain ⟨m, hm, hs⟩ := hs
      obtain ⟨c, r⟩ := e
      cases c with
      | «open» path =>
          intro fd hfd hne
          rcases List.mem_cons.mp hfd with rfl | hfd
          · rcases hm with ⟨hno, -⟩ | ⟨hnonneg, -⟩
            · exact absurd hno hne
            · exact hnonneg
          · exact ih hs fd hfd hne
      | _ => exact ih hs

/-- Where a start that succeeds leaves the unit to the kernel, the number it is
given fits into a descriptor set. -/
def StartInRange : Act → Prop
  | .call (.start _ tun) tr (.int 0) => tun = tuntapIdAny → ∀ fd ∈ opened tr, fd < fdSetsize
  | _ => True

/-- A start on a device that is not started leaves it in range exactly when the
number it was given is. -/
theorem Session.Step.start_inRange (hos : R.os = .linux) {mode : Mode} {tun : Int}
    {tr : List (Event Call Resp)} {ret : Ret}
    (hs : Session.Step R libc rely s (.call (.start mode tun) tr ret) s')
    (hdev : s.dev.tunFd = -1) :
    SetInRange libc s'.dev ↔ StartInRange (.call (.start mode tun) tr ret) := by
  rw [setInRange_iff]
  obtain ⟨n, rfl, hstarted⟩ := hs.start hos hdev (A := fun _ => True) fun _ _ => trivial
  rcases hstarted with ⟨rfl, htun⟩ | ⟨rfl, htun, -⟩
  · exact iff_of_true (fun h => absurd htun h) trivial
  · cases hs with
    | call hr hk =>
        rw [hos] at hr
        obtain ⟨r, tr₁, tr₂, rfl, hr₁, rfl, hback⟩ := (Prog.runs_bind _ _ _ _).mp hr
        obtain ⟨hret, hd⟩ := Prod.mk.inj hback
        obtain ⟨-, hopened, hmax⟩ :=
          (Prog.ensures_iff _).mp (tuntapStart_opened hdev) tr₁ r hr₁ (Ret.int.inj hret).symm
        rw [← Option.some.inj hd] at hopened hmax
        rw [List.append_nil] at hk
        have hmem : s'.dev.tunFd ∈ opened tr₁ := by
          rw [hopened]
          exact List.mem_singleton_self _
        have hnonneg := opened_nonneg hk _ hmem htun
        show _ ↔ (tun = tuntapIdAny → ∀ fd ∈ opened (tr₁ ++ []), fd < fdSetsize)
        rw [List.append_nil, hopened]
        simp only [List.mem_singleton, forall_eq]
        constructor
        · intro h _
          exact (h htun).2
        · intro h _
          by_cases hany : tun = tuntapIdAny
          · exact ⟨hnonneg, h hany⟩
          · have hle := hmax hany
            unfold tuntapIdMax at hle
            unfold fdSetsize
            omega

theorem Session.Step.setInRange (hos : R.os = .linux) {a : Act}
    (hs : Session.Step R libc rely s a s') (h : SetInRange libc s.dev) :
    SetInRange libc s'.dev ↔ StartInRange a := by
  cases a with
  | others =>
      cases hs with
      | others _ => exact iff_of_true h trivial
  | call op tr ret =>
      by_cases hdev : s.dev.tunFd = -1
      · by_cases hop : ∃ mode tun, op = .start mode tun
        · obtain ⟨mode, tun, rfl⟩ := hop
          exact hs.start_inRange hos hdev
        · have htun := hs.not_started hdev fun mode tun heq => hop ⟨mode, tun, heq⟩
          refine iff_of_true (setInRange_iff.mpr fun hne => absurd htun hne) ?_
          cases op with
          | start mode tun => exact absurd ⟨mode, tun, rfl⟩ hop
          | _ => trivial
      · have htun := (hs.frame_of_started hdev).1.tunFd
        refine iff_of_true ?_ ?_
        · rw [setInRange_iff, htun]
          exact setInRange_iff.mp h
        · cases op with
          | start mode tun =>
              rw [hs.restart hdev]
              trivial
          | _ => trivial

end Session

/-- In every run of a Linux session, whatever others do, the timed calls of
every state reached stay inside the descriptor set exactly when no successful
start that left the unit to the kernel was given a number outside it. -/
theorem set_in_range_iff (R : Rules) (libc : Libc) (rely : Rely) (s s' : Session)
    (tr : List (Session × Act × Session)) (hos : R.os = .linux) (h0 : s.dev.tunFd = -1)
    (hr : Run (Session.Step R libc rely) s tr s') :
    (∀ x ∈ tr, SetInRange libc x.2.2.dev) ↔ ∀ x ∈ tr, StartInRange x.2.1 :=
  hr.inv_iff (I := fun s => SetInRange libc s.dev) (G := fun _ a _ => StartInRange a)
    (setInRange_iff.mpr fun hne => absurd h0 hne) fun hs => Session.Step.setInRange hos hs

/-- `tap0` on descriptor 4. -/
theorem set_in_range_tap0 : ∃ tr s',
    Run (Session.Step (Rules.plain .linux) Libc.refusing fun _ _ _ => True)
      ⟨Device.init, Kern.blank⟩ tr s' ∧ tr.length = 1 ∧
        ∀ x ∈ tr, SetInRange Libc.refusing x.2.2.dev := by
  have hr := Run.cons (startTap0_step Libc.refusing fun _ _ _ => True) (.nil _)
  refine ⟨_, _, hr, rfl, (set_in_range_iff _ _ _ _ _ _ rfl rfl hr).mpr fun x hx => ?_⟩
  rw [List.mem_singleton.mp hx]
  exact fun h => absurd h (by decide)

/-- The process has 1023 descriptors open, and of those a set has room for only
number 3 is free. -/
def Kern.crowded (k : Kern) : Kern :=
  { k with fds := fun fd => if 0 ≤ fd ∧ fd < 1024 ∧ fd ≠ 3 then some .host else none }

/-- `tap0` on the first number after those. -/
def Device.tap0High : Device := { Device.tap0 with tunFd := 1024 }

def Kern.attachedHigh : Kern :=
  ((Kern.single Iface.tap0 Iface.tap0_short).crowded.setFd 3 (some (.socket .inet))).setFd 1024
    (some (.tun (some 0)))

def startTap0High : List (Event Call Resp) :=
  [⟨.socket .inet, (3 : Int)⟩, ⟨.open (CString.lit "/dev/net/tun"), (1024 : Int)⟩,
    ⟨.ioctlGet 1024 .tunsetiff (setIfrFlags Buf.zero (iffTap ||| iffNoPi) : Ifreq),
      ⟨0, reqTap0⟩⟩,
    ⟨.ioctlGet 3 .siocgifflags reqTap0, ⟨0, setIfrFlags reqTap0 0⟩⟩,
    ⟨.uninit 40, (Buf.zero : Buf 40)⟩,
    ⟨.ioctlGet 1024 .siocgifhwaddr ((Buf.zero : Buf 40).memcpy 0 Device.tap0High.ifName 17),
      ⟨0, Buf.zero⟩⟩]

theorem startTap0High_runs :
    (tuntapStart .linux Device.init tuntapModeEthernet tuntapIdAny).Runs startTap0High
      (0, Device.tap0High) := by
  refine ⟨(3 : Int), _, rfl, (1024 : Int), _, rfl, ?_⟩
  change ∃ (r : IoctlGetRet 40) (tr' : _), _ = _ ∧ _
  refine ⟨⟨0, reqTap0⟩, _, rfl, ?_⟩
  change ∃ (r : IoctlGetRet 40) (tr' : _), _ = _ ∧ _
  refine ⟨⟨0, setIfrFlags reqTap0 0⟩, _, rfl, ?_⟩
  change ∃ (r : Buf 40) (tr' : _), _ = _ ∧ _
  refine ⟨Buf.zero, _, rfl, ?_⟩
  change ∃ (r : IoctlGetRet 40) (tr' : _), _ = _ ∧ _
  exact ⟨⟨0, Buf.zero⟩, _, rfl, rfl, rfl⟩

theorem startTap0High_steps :
    (kernel (Rules.plain .linux)).Steps Kern.blank.crowded startTap0High Kern.attachedHigh := by
  refine ⟨Kern.blank.crowded.setFd 3 (some (.socket .inet)), Or.inr ⟨by decide, rfl, rfl, rfl⟩,
    (Kern.blank.crowded.setFd 3 (some (.socket .inet))).setFd 1024 (some (.tun none)),
    Or.inr ⟨by decide, rfl, rfl, rfl⟩, Kern.attachedHigh,
    Or.inr ⟨rfl, rfl, rfl, 0, Iface.tap0, ?_, Or.inl ⟨rfl, rfl⟩, ?_, ?_, ?_, rfl⟩,
    _, Or.inr ⟨rfl, rfl, ⟨.inet, rfl⟩, 0, Iface.tap0, ⟨rfl, ?_⟩, rfl⟩,
    _, rfl, _, Or.inr ⟨rfl, rfl, 0, Iface.tap0, ⟨rfl, rfl⟩, ?_⟩, rfl⟩
  · decide
  · intro hname
    exact absurd (by decide) hname
  · decide
  · exact (Function.update_idem ..).symm
  · decide
  · decide

/-- In a process with that many descriptors, a start that leaves the unit to the
kernel is given number 1024. -/
theorem set_out_of_range :
    ¬ ∀ (R : Rules) (libc : Libc) (rely : Rely) (s s' : Session)
      (tr : List (Session × Act × Session)), R.os = .linux → s.dev.tunFd = -1 →
        Run (Session.Step R libc rely) s tr s' → ∀ x ∈ tr, SetInRange libc x.2.2.dev := by
  intro hclaim
  have hs : Session.Step (Rules.plain .linux) Libc.refusing (fun _ _ _ => True)
      ⟨Device.init, Kern.blank.crowded⟩
      (.call (.start tuntapModeEthernet tuntapIdAny) startTap0High (.int 0))
      ⟨Device.tap0High, Kern.attachedHigh⟩ :=
    .call ((Prog.runs_bind _ _ _ _).mpr ⟨_, startTap0High, [], rfl, startTap0High_runs, rfl, rfl⟩)
      startTap0High_steps
  have hrange := setInRange_iff.mp
    (hclaim _ _ _ _ _ _ rfl rfl (.cons hs (.nil _)) _ (List.mem_singleton_self _))
  have hlt : (1024 : Int) < fdSetsize := (hrange (by decide)).2
  exact absurd hlt (by decide)

end Libtuntap
