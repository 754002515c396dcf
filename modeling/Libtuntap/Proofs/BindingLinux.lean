import Libtuntap.Proofs.Binding
import Libtuntap.Proofs.Honesty
import Libtuntap.Proofs.Ownership

/-!
# The binding on Linux

Two weak places of the C library on Linux are a device that is not started: some
functions answer 0 there without having done anything, and others hand the
number of a socket that was closed to the kernel. Every object of the class
`tuntap` has a started device, so its methods meet neither. The two functions
that ask for something else than they were told do so from here as well.

What is left is the constructor. When `tuntap_start` fails after the control
socket was opened, the socket is closed but its number stays in the record, and
the deleter that runs on the way out closes it once more. `allowed_iff` says
that this is the only call of the binding that the discipline of the descriptors
does not allow.
-/

namespace Libtuntap.Cpp

open Effect CMem

variable {ι : Type} {R : Rules} {libc : Libc}

/-! ## A method that returns -/

/-- The function `op` ran on the record of object `i`, and the kernel went on by its
requests, which carry the change it is for. -/
def Effected (R : Rules) (libc : Libc) (s s' : State ι) (i : ι) (op : Op) : Prop :=
  ∃ l l' p r ret d tr, s.lib = some l ∧ s'.lib = some l' ∧ held s.objs i = some p ∧
    l.recs p = some r ∧ l'.recs p = some ⟨d, r.mode⟩ ∧
      (op.prog R.os libc r.dev).Runs tr (ret, some d) ∧
        (kernel R).Steps l.kern tr l'.kern ∧ op.Carried libc r.dev d tr

/-- What asks for something else does not carry the change. -/
theorem Effected.asks (hos : R.os = .linux) {s s' : State ι} {i : ι} {op : Op}
    (h : Effected R libc s s' i op) :
    ¬ op.Misasks libc := by
  obtain ⟨_, _, _, _, _, _, _, -, -, -, -, -, hruns, -, hcarried⟩ := h
  rw [hos] at hruns
  exact fun hask => hask.not_carried hruns hcarried

/-- On a started device a method that has its answer looked at returns only
after its change was made, if the change is what it asks for. -/
theorem Lib.Runs.carried (hos : R.os = .linux) {l l' : Lib} {p : Ptr} {r : Record} {m : Method}
    {ret : Ret} (h : l.Runs R libc p r m.op ret l') (hfd : r.dev.tunFd ≠ -1) (hm : m.Checks)
    (hret : Ret.code ret = 0) (hask : ¬ m.op.Misasks libc) :
    ∃ d tr, l'.recs p = some ⟨d, r.mode⟩ ∧ (m.op.prog R.os libc r.dev).Runs tr (ret, some d) ∧
      (kernel R).Steps l.kern tr l'.kern ∧ m.op.Carried libc r.dev d tr := by
  obtain ⟨tr, d, hruns, hsteps, hrecs⟩ := h
  rw [hos] at hruns ⊢
  have hmode : r.modeAfter m.op = r.mode := by
    cases m <;> rfl
  by_cases hsets : m.op.Sets
  · have hensures : (m.op.prog .linux libc r.dev).Ensures (Honest libc r.dev m.op) :=
      Op.honest_of_not_early hsets (fun hdev => absurd hdev hfd) hask
    have hhonest := (Prog.ensures_iff _).mp hensures tr _ hruns
    cases ret with
    | int n =>
        cases d with
        | none => exact hhonest.elim
        | some d =>
            have hn : n = 0 := hret
            have hcarried := (hhonest.resolve_right fun hneg => by omega).2
            refine ⟨d, tr, ?_, hruns, hsteps, hcarried⟩
            rw [hrecs, Function.update_self, hmode]
            rfl
    | _ => cases d <;> exact hhonest.elim
  · -- only a description is left, and Linux has none
    have hfail : (m.op.prog .linux libc r.dev).Answers fun a => Ret.code a.1 ≠ 0 := by
      cases m with
      | setDescr s =>
          simp [Method.op, Op.prog, tuntapSetDescr, tuntapSysSetDescr, Linux.tuntapSysSetDescr,
            keep, Ret.code]
      | name | hwaddr | descr | nativeHandle | mtu | read | write => exact hm.elim
      | _ => exact absurd trivial hsets
    exact absurd hret (hfail.of_runs hruns)

section Runs

variable [DecidableEq ι] {l : Lib} {s s' : State ι} {o : Owners ι Ptr}
  {tr : List (State ι × Act ι × State ι)}

theorem State.Step.effected (hos : R.os = .linux) {i : ι} {m : Method}
    {calls : List (Event Api Reply)}
    (hs : State.Step R libc s (.method i m calls (.ok .void)) s')
    (hproper : m.Rejects ∨ ∃ p, held s.objs i = some p) (ho : Owned s l o) (hm : m.Checks)
    (hask : ¬ m.op.Misasks libc) : Effected R libc s s' i m.op := by
  cases hs with
  | @method _ _ u _ _ _ s₁ hu hruns hsteps =>
      rw [ho.lib] at hsteps
      rcases m.prog_runs hruns with ⟨-, -, e, he⟩ | ⟨hnot, ret, rfl, hres⟩
      · cases he
      · obtain ⟨p, hp⟩ := hproper.resolve_left hnot
        have hdev : u.dev = some p := (held_of hu).symm.trans hp
        obtain ⟨r, mode, hrec, -, hfd, -⟩ := ho.inUse i u p hu hdev
        rw [hdev] at hsteps
        obtain ⟨l₁, hl₁, rfl⟩ := Lib.steps_call hrec (m.admits_op.mpr hfd) hsteps
        obtain ⟨d, str, hd, hstr, hkern, hcarried⟩ :=
          hl₁.carried hos hfd hm ((hres hm).mp rfl) hask
        exact ⟨l, l₁, p, r, ret, d, str, ho.lib, rfl, hp, hrec, hd, hstr, hkern, hcarried⟩

/-- In a program of proper statements, a method that has its answer looked at
returns only after the kernel made its change, unless it asks for something else:
the answers that mean nothing do not reach the binding. -/
theorem returns_effected (hos : R.os = .linux)
    (hr : Run (State.Step R libc) (begins ι l) tr s') (hproper : ∀ x ∈ tr, Proper x) :
    ∀ x ∈ tr, ∀ i m calls, x.2.1 = .method i m calls (.ok .void) → m.Checks →
      (Effected R libc x.1 x.2.2 i m.op ↔ ¬ m.op.Misasks libc) := by
  intro x hx i m calls hact hm
  obtain ⟨l, o, ho⟩ := (owned_in_runs hr hproper x hx).1
  have hs := hr.step_of_mem x hx
  have hprop := hproper x hx
  rw [Proper, hact] at hprop
  rw [hact] at hs
  exact ⟨Effected.asks hos, hs.effected hos hprop ho hm⟩

/-- `tap0` is made non-blocking. -/
theorem nonblocking_effected : ∃ tr s' x calls,
    Run (State.Step (Rules.plain .linux) Libc.refusing) (begins Unit .blank) tr s' ∧ x ∈ tr ∧
      x.2.1 = .method () (.nonblocking true) calls (.ok .void) ∧
        Effected (Rules.plain .linux) Libc.refusing x.1 x.2.2 () (.setNonblocking 1) := by
  have hruns : Lib.Runs (Rules.plain .linux) Libc.refusing .tap0 0
      ⟨Device.tap0, some tuntapModeEthernet⟩ (.setNonblocking 1) (.int 0) .tap0 :=
    ⟨[⟨.ioctl 4 .fionbio (Buf.store32 1), ⟨0, .other⟩⟩], some Device.tap0,
      ⟨⟨0, .other⟩, [], rfl, rfl, rfl⟩, ⟨_, Or.inr ⟨rfl, rfl⟩, rfl⟩,
      (Function.update_idem ..).symm⟩
  have hsteps : (lib (Rules.plain .linux) Libc.refusing).Steps (some .tap0)
      [⟨.call (some 0) (.setNonblocking 1), .int 0⟩] (some .tap0) :=
    ⟨_, Or.inl ⟨0, _, .tap0, rfl, rfl, show Device.tap0.tunFd ≠ -1 by decide, rfl, hruns⟩, rfl⟩
  obtain ⟨tr, s', x, hr, hx, hact, hproper⟩ : ∃ tr s' x,
      Run (State.Step (Rules.plain .linux) Libc.refusing) (begins Unit .blank) tr s' ∧ x ∈ tr ∧
        x.2.1 = .method () (.nonblocking true) _ (.ok .void) ∧ ∀ x ∈ tr, Proper x := by
    refine ⟨_, _, _,
      .cons (.construct (i := ()) rfl constructTap0_runs (constructTap0_steps Libc.refusing)) <|
      .cons (.method (i := ()) (m := .nonblocking true) rfl
        ⟨.int 0, [], rfl, rfl, rfl⟩ hsteps) <| .nil _,
      List.mem_cons_of_mem _ (List.mem_cons_self ..), rfl, ?_⟩
    simp only [List.mem_cons, List.not_mem_nil, or_false, forall_eq_or_imp, forall_eq]
    refine ⟨fun hmem => ?_, Or.inr ⟨0, rfl⟩⟩
    simp [NoMemory, constructTap0] at hmem
  exact ⟨tr, s', x, _, hr, hx, hact,
    (returns_effected rfl hr hproper x hx _ _ _ hact trivial).mpr id⟩

end Runs

/-! ## The calls and the discipline of the descriptors -/

/-- The calls made by a statement. -/
def Act.calls : Act ι → List (Event Api Reply)
  | .construct _ _ _ calls _ | .method _ _ calls _ | .destruct _ calls => calls
  | .moveConstruct .. | .release _ | .others => []

/-- In the course of a statement `op` is called on the record `r`. -/
def Makes (R : Rules) (libc : Libc) (x : State ι × Act ι × State ι) (r : Record) (op : Op) :
    Prop :=
  ∃ pre p ret post l, x.2.1.calls = pre ++ ⟨.call (some p) op, ret⟩ :: post ∧
    (lib R libc).Steps x.1.lib pre (some l) ∧ l.recs p = some r ∧
      (lib R libc).Steps (some l) (⟨.call (some p) op, ret⟩ :: post) x.2.2.lib

/-- The statement is a constructor that throws because `tuntap_start` failed. -/
def StartFails (a : Act ι) : Prop :=
  ∃ i mode id calls, a = .construct i mode id calls (.error (.runtimeError "tuntap_start failed"))

/-- A started device is allowed everything. -/
theorem allowed_of_started {r : Record} {op : Op} (hfd : r.dev.tunFd ≠ -1) :
    op.Allowed libc r.dev := fun h => absurd h hfd

/-- A device that has no socket number to misuse is allowed everything, too. -/
theorem allowed_init (op : Op) : op.Allowed libc Device.init :=
  fun _ h => absurd h (by decide)

/-- A failed start leaves the device not started. -/
theorem tuntapStart_not_started (dev : Device) (mode : Mode) (tun : Int) (hdev : dev.tunFd = -1) :
    (tuntapStart .linux dev mode tun).Answers fun a => a.1 ≠ 0 → a.2.tunFd = -1 := by
  have hclean : ∀ fd sock (d : Device), d.tunFd = -1 →
      (startClean fd sock d).Answers fun a => a.1 ≠ 0 → a.2.tunFd = -1 := by
    intro fd sock d hd
    simp [startClean, hd]
  have hsys : ∀ sock, (tuntapSysStart .linux { dev with ctrlSock := sock } mode tun).Answers
      fun a => a.2.tunFd = -1 := by
    intro sock
    simp [tuntapSysStart, Linux.tuntapSysStart, Linux.setPersistent, hdev]
  unfold tuntapStart
  simp only [Prog.answers_ite, Prog.answers_call_bind, Prog.pure_eq, Prog.answers_ret]
  refine ⟨fun hne => absurd hdev hne, fun _ sock => ⟨fun _ => hclean _ _ _ hdev, fun _ => ?_⟩⟩
  refine ⟨fun _ => hclean _ _ _ hdev, fun _ => (hsys sock).bind fun a ha => ?_⟩
  exact (Prog.answers_ite _ _ _).mpr ⟨fun _ => hclean _ _ _ ha, fun _ h => absurd rfl h⟩

theorem Lib.Runs.start_failed (hos : R.os = .linux) {l l' : Lib} {p : Ptr} {r : Record}
    {mode : Mode} {id : Int} {ret : Ret} (h : l.Runs R libc p r (.start mode id) ret l')
    (hdev : r.dev.tunFd = -1) (hret : Ret.code ret ≠ 0) :
    ∃ d, d.tunFd = -1 ∧ l'.recs p = some ⟨d, some mode⟩ := by
  obtain ⟨_, d, hruns, -, hrecs⟩ := h
  rw [hos] at hruns
  have hstart : ((Op.start mode id).prog .linux libc r.dev).Answers fun a =>
      ∃ d, a.2 = some d ∧ (Ret.code a.1 ≠ 0 → d.tunFd = -1) :=
    (tuntapStart_not_started r.dev mode id hdev).bind fun a ha => ⟨a.2, rfl, ha⟩
  obtain ⟨d', rfl, hd'⟩ := hstart.of_runs hruns
  refine ⟨d', hd' hret, ?_⟩
  rw [hrecs, Function.update_self]
  rfl

/-- The function that frees a device looks at its socket number. -/
theorem teardown_usesCtrlSock (destroyer : TunTapDestroyer) :
    destroyer.teardown.UsesCtrlSock libc := by
  unfold TunTapDestroyer.teardown
  split <;> trivial

section Calls

variable {l l' : Lib} {p : Ptr} {r : Record} {op : Op} {ret : Ret} {s₁ : Option Lib}
  {pre post tr : List (Event Api Reply)}

/-- The call of a trace that has only one. -/
theorem call_of_singleton {q : Option Ptr} {op' : Op} {ret' : Ret}
    (h : [⟨.call q op', ret'⟩] = pre ++ ⟨.call (some p) op, ret⟩ :: post)
    (hpre : (lib R libc).Steps (some l) pre (some l')) : q = some p ∧ op' = op ∧ l' = l := by
  cases pre with
  | nil =>
      obtain ⟨hcall, -⟩ := List.cons.inj h
      cases hcall
      exact ⟨rfl, rfl, Option.some.inj hpre⟩
  | cons e pre => simp at h

/-- Freeing a record is one call, on that record. -/
theorem call_of_destroy {u : UniquePtr} (hruns : u.destroy.Runs tr ())
    (h : tr = pre ++ ⟨.call (some p) op, ret⟩ :: post)
    (hpre : (lib R libc).Steps (some l) pre (some l')) :
    u.dev = some p ∧ op = u.destroyer.teardown ∧ l' = l := by
  rcases destroy_runs hruns with ⟨-, rfl⟩ | ⟨q, ret', hdev, rfl⟩
  · simp at h
  · obtain ⟨hq, rfl, hl⟩ := call_of_singleton h hpre
    exact ⟨hdev.trans hq, rfl, hl⟩

theorem teardown_ends (destroyer : TunTapDestroyer) :
    destroyer.teardown = .release ∨ destroyer.teardown = .destroy := by
  unfold TunTapDestroyer.teardown
  split
  · exact Or.inl rfl
  · exact Or.inr rfl

/-- The calls of a constructor. -/
theorem construct_allowed_iff (hos : R.os = .linux) {mode : Mode} {id : Int}
    {res : Except Exn UniquePtr} (hruns : (tuntap mode id).Runs tr res)
    (h : tr = pre ++ ⟨.call (some p) op, ret⟩ :: post)
    (hpre : (lib R libc).Steps (some l) pre (some l')) (hr : l'.recs p = some r) :
    ¬ op.Allowed libc r.dev ↔ res = .error (.runtimeError "tuntap_start failed") ∧
      (op = .release ∨ op = .destroy) ∧ 0 ≤ r.dev.ctrlSock := by
  have hinit : ∀ {l₁ : Lib} {q}, l.Inits R q l₁ → q = some p →
      l₁.recs p = some ⟨Device.init, none⟩ := by
    rintro l₁ q hinit rfl
    rw [hinit.recs_of_some.2, Function.update_self]
  have hfresh : l'.recs p = some ⟨Device.init, none⟩ → (¬ op.Allowed libc r.dev ↔
      res = .error (.runtimeError "tuntap_start failed") ∧
        (op = .release ∨ op = .destroy) ∧ 0 ≤ r.dev.ctrlSock) := by
    intro h'
    obtain rfl := Option.some.inj (hr.symm.trans h')
    constructor
    · exact fun hnot => absurd (allowed_init op) hnot
    · exact fun hbad => absurd hbad.2.2 (by decide)
  obtain ⟨q, tr', rfl, hrest⟩ := tuntap_runs hruns
  cases pre with
  | nil => simp at h
  | cons e pre =>
      obtain ⟨he, h₁⟩ := List.cons.inj h
      obtain rfl := he
      obtain ⟨l₁, hl₁, hpre₁⟩ := Lib.steps_init hpre
      rcases hrest with ⟨-, -, hdestroy⟩ | ⟨-, ret₁, tr'', rfl, hstart⟩
      · obtain ⟨hq, -, rfl⟩ := call_of_destroy hdestroy h₁ hpre₁
        exact hfresh (hinit hl₁ hq)
      · cases pre with
        | nil =>
            obtain ⟨hcall, -⟩ := List.cons.inj h₁
            cases hcall
            obtain rfl := Option.some.inj hpre₁
            exact hfresh (hinit hl₁ rfl)
        | cons e pre =>
            obtain ⟨he, h₂⟩ := List.cons.inj h₁
            obtain rfl := he
            rcases hstart with ⟨-, -, rfl⟩ | ⟨hret, rfl, hdestroy⟩
            · simp at h₂
            · cases q with
              | none => cases Lib.steps_call_null hpre₁
              | some q =>
                  have hq₁ : l₁.recs q = some ⟨Device.init, none⟩ := by
                    rw [hl₁.recs_of_some.2, Function.update_self]
                  obtain ⟨l₂, hl₂, hpre₂⟩ :=
                    Lib.steps_call hq₁ (show Record.Admits _ (.start mode id) from rfl) hpre₁
                  obtain ⟨hq, rfl, rfl⟩ := call_of_destroy hdestroy h₂ hpre₂
                  obtain rfl := Option.some.inj hq
                  obtain ⟨d, hd, hrec⟩ := hl₂.start_failed hos rfl hret
                  obtain rfl := Option.some.inj (hr.symm.trans hrec)
                  constructor
                  · intro hnot
                    refine ⟨rfl, teardown_ends _, ?_⟩
                    by_contra hneg
                    exact hnot fun _ h0 => absurd h0 hneg
                  · intro hbad hallowed
                    exact hallowed hd hbad.2.2 (teardown_usesCtrlSock _)

end Calls

/-! ## A constructor that cannot open `/dev/net/tun` -/

/-- The record after an attempt that opened the socket 3 and failed. -/
def Device.stale : Device := { Device.init with ctrlSock := 3 }

/-- The library after that attempt. -/
def Lib.stale : Lib :=
  ⟨Function.update (fun _ => none) 0 (some ⟨Device.stale, some tuntapModeEthernet⟩),
    (Kern.blank.setFd 3 (some (.socket .inet))).setFd 3 none⟩

/-- The library once the record is freed. -/
def Lib.cleared : Lib := ⟨fun _ => none, Lib.stale.kern.setFd 3 none⟩

theorem stale_start (libc : Libc) : (lib (Rules.plain .linux) libc).Steps (some .blank)
    [⟨.init, some 0⟩, ⟨.call (some 0) (.start tuntapModeEthernet 0), .int (-1)⟩]
    (some .stale) := by
  let l₀ : Lib := ⟨Function.update (fun _ => none) 0 (some ⟨Device.init, none⟩), Kern.blank⟩
  have hinit : Lib.Inits (Rules.plain .linux) .blank (some 0) l₀ :=
    ⟨[⟨.malloc, true⟩], some Device.init, ⟨true, [], rfl, rfl, rfl⟩, ⟨_, rfl, rfl⟩, rfl, rfl⟩
  have hstart : l₀.Runs (Rules.plain .linux) libc 0 ⟨Device.init, none⟩
      (.start tuntapModeEthernet 0) (.int (-1)) .stale := by
    refine ⟨[⟨.socket .inet, (3 : Int)⟩, ⟨.open (CString.lit "/dev/net/tun"), (-1 : Int)⟩,
      ⟨.log .err (CString.lit "Can't open /dev/net/tun"), ()⟩, ⟨.close 3, (0 : Int)⟩],
      some Device.stale, ?_, ?_, (Function.update_idem ..).symm⟩
    · refine ⟨(3 : Int), _, rfl, (-1 : Int), _, rfl, ?_⟩
      exact ⟨(), _, rfl, (0 : Int), _, rfl, rfl, rfl⟩
    · exact ⟨Kern.blank.setFd 3 (some (.socket .inet)), Or.inr ⟨by decide, rfl, rfl, rfl⟩, _,
        Or.inl ⟨rfl, rfl⟩, _, rfl, Lib.stale.kern, ⟨rfl, rfl⟩, rfl⟩
  exact ⟨_, ⟨_, rfl, hinit⟩, _, Or.inl ⟨0, _, _, rfl, rfl, rfl, rfl, hstart⟩, rfl⟩

theorem stale_destroy (libc : Libc) : (lib (Rules.plain .linux) libc).Steps (some .stale)
    [⟨.call (some 0) .destroy, .void⟩] (some .cleared) := by
  have hdestroy : Lib.stale.Runs (Rules.plain .linux) libc 0
      ⟨Device.stale, some tuntapModeEthernet⟩ .destroy .void .cleared := by
    refine ⟨[⟨.ioctlVal (-1) .tunsetpersist 0, ⟨-1, .other⟩⟩,
      ⟨.log .warn (CString.lit "Can't destroy the interface"), ()⟩, ⟨.close 3, (-1 : Int)⟩,
      ⟨.free, ()⟩], none, ?_, ?_, ?_⟩
    · exact ⟨⟨-1, .other⟩, _, rfl, (), _, rfl, (-1 : Int), _, rfl, (), [], rfl, rfl, rfl⟩
    · exact ⟨_, Or.inl ⟨rfl, rfl⟩, _, rfl, Lib.cleared.kern, ⟨rfl, rfl⟩, _, rfl, rfl⟩
    · exact (Function.update_idem ..).trans (Function.update_eq_self (0 : Ptr) fun _ => none)|>.symm
  refine ⟨_, Or.inl ⟨0, _, _, rfl, rfl, fun m hm => ?_, rfl, hdestroy⟩, rfl⟩
  rw [← Option.some.inj hm]
  decide

/-- The calls of that constructor. -/
def failedConstruct : List (Event Api Reply) :=
  [⟨.init, some 0⟩, ⟨.call (some 0) (.start tuntapModeEthernet 0), .int (-1)⟩] ++
    [⟨.call (some 0) .destroy, .void⟩]

section Runs

variable [DecidableEq ι] {l : Lib} {s s' : State ι} {o : Owners ι Ptr}
  {tr : List (State ι × Act ι × State ι)}

theorem State.Step.allowed_iff (hos : R.os = .linux) {a : Act ι}
    (hs : State.Step R libc s a s') (hproper : Proper (s, a, s')) (ho : Owned s l o) {r : Record}
    {op : Op} (hmakes : Makes R libc (s, a, s') r op) :
    ¬ op.Allowed libc r.dev ↔
      StartFails a ∧ (op = .release ∨ op = .destroy) ∧ 0 ≤ r.dev.ctrlSock := by
  obtain ⟨pre, p, ret, post, l₁, hcalls, hpre, hr, -⟩ := hmakes
  dsimp only at hcalls hpre
  rw [ho.lib] at hpre
  have hstarted : r.dev.tunFd ≠ -1 → ¬ StartFails a → (¬ op.Allowed libc r.dev ↔
      StartFails a ∧ (op = .release ∨ op = .destroy) ∧ 0 ≤ r.dev.ctrlSock) :=
    fun hfd hnot => ⟨fun h => absurd (allowed_of_started hfd) h, fun h => absurd h.1 hnot⟩
  cases hs with
  | @construct _ i mode id calls res s₁ hraw hruns hsteps =>
      rw [construct_allowed_iff hos hruns hcalls hpre hr]
      refine and_congr_left fun _ => ⟨fun h => ⟨i, mode, id, calls, by rw [h]⟩, fun h => ?_⟩
      obtain ⟨_, _, _, _, h⟩ := h
      cases h
      rfl
  | @method _ i u m calls res s₁ hu hruns hsteps =>
      rcases m.prog_runs hruns with ⟨-, rfl, -⟩ | ⟨-, ret', rfl, -⟩
      · simp [Act.calls] at hcalls
      · obtain ⟨hdev, rfl, rfl⟩ := call_of_singleton hcalls hpre
        obtain ⟨r', m', hr', -, hfd, -⟩ := ho.inUse i u p hu hdev
        obtain rfl := Option.some.inj (hr.symm.trans hr')
        refine hstarted hfd fun h => ?_
        obtain ⟨_, _, _, _, h⟩ := h
        cases h
  | @destruct _ i u calls s₁ hu hruns hsteps =>
      obtain ⟨hdev, rfl, rfl⟩ := call_of_destroy hruns hcalls hpre
      obtain ⟨r', m', hr', -, hfd, -⟩ := ho.inUse i u p hu hdev
      obtain rfl := Option.some.inj (hr.symm.trans hr')
      refine hstarted hfd fun h => ?_
      obtain ⟨_, _, _, _, h⟩ := h
      cases h
  | _ => simp [Act.calls] at hcalls

/-- The one call that the discipline of the descriptors does not allow is that
of the deleter in a constructor whose start failed with the control socket
open. -/
theorem calls_allowed_iff (hos : R.os = .linux)
    (hr : Run (State.Step R libc) (begins ι l) tr s') (hproper : ∀ x ∈ tr, Proper x) :
    ∀ x ∈ tr, ∀ r op, Makes R libc x r op → (¬ op.Allowed libc r.dev ↔
      StartFails x.2.1 ∧ (op = .release ∨ op = .destroy) ∧ 0 ≤ r.dev.ctrlSock) := by
  intro x hx r op hmakes
  obtain ⟨l, o, ho⟩ := (owned_in_runs hr hproper x hx).1
  exact (hr.step_of_mem x hx).allowed_iff hos (hproper x hx) ho hmakes

/-- The socket 3 is closed by the start that fails and by the deleter. -/
theorem socket_closed_twice : ∃ tr s' x,
    Run (State.Step (Rules.plain .linux) Libc.refusing) (begins Unit .blank) tr s' ∧ x ∈ tr ∧
      Makes (Rules.plain .linux) Libc.refusing x ⟨Device.stale, some tuntapModeEthernet⟩ .destroy ∧
        ¬ Op.destroy.Allowed Libc.refusing Device.stale := by
  have hruns : (tuntap tuntapModeEthernet 0).Runs failedConstruct
      (.error (.runtimeError "tuntap_start failed")) :=
    ⟨some 0, _, rfl, .int (-1), _, rfl, .void, [], rfl, rfl, rfl⟩
  have hsteps : (lib (Rules.plain .linux) Libc.refusing).Steps (some .blank) failedConstruct
      (some .cleared) :=
    (Kernel.steps_append ..).mpr ⟨_, stale_start Libc.refusing, stale_destroy Libc.refusing⟩
  let x : State Unit × Act Unit × State Unit :=
    (begins Unit .blank, .construct () tuntapModeEthernet 0 failedConstruct
      (.error (.runtimeError "tuntap_start failed")),
      ⟨Function.update (fun _ => none) () none, some .cleared⟩)
  have hr : Run (State.Step (Rules.plain .linux) Libc.refusing) (begins Unit .blank) [x] x.2.2 :=
    .cons (.construct (i := ()) rfl hruns hsteps) (.nil _)
  have hx : x ∈ [x] := List.mem_singleton_self x
  have hmakes : Makes (Rules.plain .linux) Libc.refusing x ⟨Device.stale, some tuntapModeEthernet⟩
      .destroy :=
    ⟨_, 0, .void, [], .stale, rfl, stale_start Libc.refusing, rfl, stale_destroy Libc.refusing⟩
  have hproper : ∀ y ∈ [x], Proper y := by
    intro y hy
    obtain rfl := List.mem_singleton.mp hy
    exact fun hmem => by simp [NoMemory, failedConstruct] at hmem
  refine ⟨[x], x.2.2, x, hr, hx, hmakes, ?_⟩
  exact (calls_allowed_iff rfl hr hproper x hx _ _ hmakes).mpr
    ⟨⟨(), _, _, _, rfl⟩, Or.inr rfl, by decide⟩

end Runs

end Libtuntap.Cpp
