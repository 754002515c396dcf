import Libtuntap.Cpp.Tuntap
import Libtuntap.Proofs.Record
import Libtuntap.Proofs.Started

/-!
# Who owns a record

An object of the class `tuntap` owns the record its pointer leads to. Objects
are built, moved, given up and destroyed in any order, and what has to be shown
is that the C API is only ever handed what it can take: a record that is alive,
started before it is used, started once, and freed by the function that suits
its mode.

The class cannot see to that alone. A method called on an object that was moved
from or given up passes the null pointer on, and so does a constructor that got
no memory. `contract_kept_iff` says that there is no third way, and it is exact:
a run keeps the contract precisely if it takes neither of the two.

Inside such a run the objects are sole owners, as `Effect.Owners` has them. Each
statement is one step of theirs or none: a constructor that throws has freed
what it allocated. So the records nobody owns are those whose object was told to
`release` them, and there are no others.
-/

namespace Libtuntap.Cpp

open Effect CMem

/-! ## What the programs of the binding do -/

/-- The arguments the constructor throws on. -/
def Rejected (mode : Mode) (id : Int) : Prop :=
  unknownMode mode = true ∨ id < 0 ∨ id > tuntapIdAny

theorem destroy_runs {u : UniquePtr} {tr : List (Event Api Reply)} (h : u.destroy.Runs tr ()) :
    u.dev = none ∧ tr = [] ∨
      ∃ p ret, u.dev = some p ∧ tr = [⟨.call (some p) u.destroyer.teardown, ret⟩] := by
  obtain ⟨dev, destroyer⟩ := u
  cases dev with
  | none => exact Or.inl ⟨rfl, h.1⟩
  | some p =>
      obtain ⟨ret, tr', rfl, rfl, -⟩ := h
      exact Or.inr ⟨p, ret, rfl, rfl⟩

theorem throwing_runs {α : Type} {u : UniquePtr} {e : Exn} {tr : List (Event Api Reply)}
    {res : Except Exn α} (h : (throwing u e : Cxx (Except Exn α)).Runs tr res) :
    res = .error e ∧ u.destroy.Runs tr () := by
  obtain ⟨a, tr₁, tr₂, rfl, h₁, rfl, rfl⟩ := (Prog.runs_bind ..).mp h
  rw [List.append_nil]
  exact ⟨rfl, h₁⟩

/-- The object a constructor is at work on. -/
def built (mode : Mode) (p : Option Ptr) : UniquePtr := ⟨p, ⟨decide mode.isPersist⟩⟩

/-- The three ways through the constructor. -/
theorem tuntap_runs {mode : Mode} {id : Int} {tr : List (Event Api Reply)}
    {res : Except Exn UniquePtr} (h : (tuntap mode id).Runs tr res) : ∃ p tr',
      tr = ⟨.init, p⟩ :: tr' ∧
        (Rejected mode id ∧ (∃ what, res = .error (.invalidArgument what)) ∧
            (built mode p).destroy.Runs tr' () ∨
          ¬ Rejected mode id ∧ ∃ ret tr'', tr' = ⟨.call p (.start mode id), ret⟩ :: tr'' ∧
            (Ret.code ret = 0 ∧ res = .ok (built mode p) ∧ tr'' = [] ∨
              Ret.code ret ≠ 0 ∧ res = .error (.runtimeError "tuntap_start failed") ∧
                (built mode p).destroy.Runs tr'' ())) := by
  obtain ⟨p, tr', rfl, h⟩ := h
  refine ⟨p, tr', rfl, ?_⟩
  by_cases hmode : unknownMode mode = true
  · simp only [if_pos hmode] at h
    obtain ⟨rfl, hd⟩ := throwing_runs h
    exact Or.inl ⟨Or.inl hmode, ⟨_, rfl⟩, hd⟩
  · simp only [if_neg hmode] at h
    by_cases hid : id < 0 ∨ id > tuntapIdAny
    · simp only [if_pos hid] at h
      obtain ⟨rfl, hd⟩ := throwing_runs h
      exact Or.inl ⟨Or.inr hid, ⟨_, rfl⟩, hd⟩
    · simp only [if_neg hid] at h
      refine Or.inr ⟨fun hr => hr.elim hmode hid, ?_⟩
      obtain ⟨ret, tr'', rfl, hrest⟩ := (Prog.runs_call_bind ..).mp h
      refine ⟨ret, tr'', rfl, ?_⟩
      by_cases hret : Ret.code ret ≠ 0
      · simp only [if_pos hret] at hrest
        obtain ⟨rfl, hd⟩ := throwing_runs hrest
        exact Or.inr ⟨hret, rfl, hd⟩
      · simp only [if_neg hret] at hrest
        obtain ⟨rfl, rfl⟩ := hrest
        exact Or.inl ⟨not_not.mp hret, rfl, rfl⟩

/-- The function of the C API behind a method. -/
def Method.op : Method → Op
  | .name => .getIfname
  | .setName s => .setIfname (some (cStr s))
  | .hwaddr => .getHwaddr
  | .setHwaddr s => .setHwaddr (cStr s)
  | .descr => .getDescr
  | .setDescr s => .setDescr (some (cStr s))
  | .nativeHandle => .getFd
  | .up => .up
  | .down => .down
  | .mtu => .getMtu
  | .setMtu m => .setMtu m
  | .ip s netmask => .setIp (some (cStr s)) netmask
  | .read len timeoutMs => .readTm len timeoutMs
  | .write buf timeoutMs => .writeTm buf timeoutMs
  | .nonblocking b => .setNonblocking (intOfBool b)
  | .debug b => .setDebug (intOfBool b)

/-- The arguments a method throws on by itself. -/
def Method.Rejects : Method → Prop
  | .setMtu m => m.toInt < 1 ∨ m.toInt > 65535
  | .ip _ netmask => netmask > 128
  | _ => False

/-- The methods that throw when the answer is not zero. -/
def Method.Checks : Method → Prop
  | .name | .hwaddr | .descr | .nativeHandle | .mtu | .read .. | .write .. => False
  | _ => True

theorem forward_runs {op : Op} {dev : Option Ptr} {tr : List (Event Api Reply)}
    {res : Except Exn Ret} (h : (forward op dev).Runs tr res) :
    ∃ ret, tr = [⟨.call dev op, ret⟩] ∧ res = .ok ret := by
  obtain ⟨ret, tr', rfl, rfl, rfl⟩ := h
  exact ⟨ret, rfl, rfl⟩

theorem throwUnless_runs {op : Op} {what : String} {dev : Option Ptr}
    {tr : List (Event Api Reply)} {res : Except Exn Ret}
    (h : (throwUnless op what dev).Runs tr res) :
    ∃ ret, tr = [⟨.call dev op, ret⟩] ∧ (res = .ok .void ↔ Ret.code ret = 0) := by
  obtain ⟨ret, tr', rfl, hrest⟩ := (Prog.runs_call_bind ..).mp h
  refine ⟨ret, ?_⟩
  by_cases hret : Ret.code ret ≠ 0
  · simp only [if_pos hret] at hrest
    obtain ⟨rfl, rfl⟩ := hrest
    exact ⟨rfl, by simp [hret]⟩
  · simp only [if_neg hret] at hrest
    obtain ⟨rfl, rfl⟩ := hrest
    exact ⟨rfl, by simpa using hret⟩

/-- A method throws on its argument and calls nothing, or makes the one call it
is for. -/
theorem Method.prog_runs {m : Method} {dev : Option Ptr} {tr : List (Event Api Reply)}
    {res : Except Exn Ret} (h : (m.prog dev).Runs tr res) :
    m.Rejects ∧ tr = [] ∧ (∃ e, res = .error e) ∨
      ¬ m.Rejects ∧ ∃ ret, tr = [⟨.call dev m.op, ret⟩] ∧
        (m.Checks → (res = .ok .void ↔ Ret.code ret = 0)) := by
  have hforward : ∀ {op}, (forward op dev).Runs tr res → ¬ m.Checks → op = m.op →
      ∃ ret, tr = [⟨.call dev m.op, ret⟩] ∧
        (m.Checks → (res = .ok .void ↔ Ret.code ret = 0)) := by
    intro op h hm hop
    obtain ⟨ret, htr, -⟩ := forward_runs h
    exact ⟨ret, hop ▸ htr, fun h => absurd h hm⟩
  have hcheck : ∀ {op what}, (throwUnless op what dev).Runs tr res → op = m.op →
      ∃ ret, tr = [⟨.call dev m.op, ret⟩] ∧
        (m.Checks → (res = .ok .void ↔ Ret.code ret = 0)) := by
    intro op what h hop
    obtain ⟨ret, htr, hres⟩ := throwUnless_runs h
    exact ⟨ret, hop ▸ htr, fun _ => hres⟩
  cases m with
  | setMtu m =>
      simp only [Method.prog, Cpp.setMtu] at h
      by_cases hm : m.toInt < 1 ∨ m.toInt > 65535
      · simp only [if_pos hm] at h
        exact Or.inl ⟨hm, h.1, _, h.2⟩
      · simp only [if_neg hm] at h
        exact Or.inr ⟨hm, hcheck h rfl⟩
  | ip s netmask =>
      simp only [Method.prog, Cpp.ip] at h
      by_cases hm : netmask > 128
      · simp only [if_pos hm] at h
        exact Or.inl ⟨hm, h.1, _, h.2⟩
      · simp only [if_neg hm] at h
        exact Or.inr ⟨hm, hcheck h rfl⟩
  | name | hwaddr | descr | nativeHandle | mtu | read | write =>
      exact Or.inr ⟨id, hforward h id rfl⟩
  | _ => exact Or.inr ⟨id, hcheck h rfl⟩

/-! ## What the library makes of it -/

section Lib

variable {R : Rules} {libc : Libc} {l l' : Lib} {s' : Option Lib} {tr : List (Event Api Reply)}

theorem Lib.steps_broken (h : (lib R libc).Steps none tr s') : s' = none := by
  refine h.preserves (J := fun s => s = none) rfl fun e _ m m' hstep hm => ?_
  rw [hm] at hstep
  exact hstep

theorem Lib.steps_init {p : Option Ptr} (h : (lib R libc).Steps (some l) (⟨.init, p⟩ :: tr) s') :
    ∃ l₁, l.Inits R p l₁ ∧ (lib R libc).Steps (some l₁) tr s' := by
  obtain ⟨_, ⟨l₁, rfl, hinit⟩, hsteps⟩ := h
  exact ⟨l₁, hinit, hsteps⟩

theorem Lib.Inits.recs_of_none (h : l.Inits R none l') : l'.recs = l.recs := by
  obtain ⟨_, dev, -, -, h⟩ := h
  cases dev with
  | none => exact h
  | some d => exact h.elim

theorem Lib.Inits.recs_of_some {p : Ptr} (h : l.Inits R (some p) l') :
    l.recs p = none ∧ l'.recs = Function.update l.recs p (some ⟨Device.init, none⟩) := by
  obtain ⟨_, dev, hruns, -, h⟩ := h
  have hdev : ∀ d, dev = some d → d = Device.init := by
    refine Prog.Answers.of_runs (Q := fun dev => ∀ d, dev = some d → d = Device.init) ?_ hruns
    simp [Libtuntap.tuntapInit, eq_comm]
  cases dev with
  | none => exact h.elim
  | some d =>
      obtain rfl := hdev d rfl
      exact h

theorem Lib.steps_call_null {op : Op} {ret : Ret}
    (h : (lib R libc).Steps (some l) (⟨.call none op, ret⟩ :: tr) s') : s' = none := by
  obtain ⟨_, ⟨p, r, _, hnull, -⟩ | ⟨-, rfl⟩, hsteps⟩ := h
  · cases hnull
  · exact steps_broken hsteps

theorem Lib.steps_call {p : Ptr} {r : Record} {op : Op} {ret : Ret} (hp : l.recs p = some r)
    (hop : r.Admits op)
    (h : (lib R libc).Steps (some l) (⟨.call (some p) op, ret⟩ :: tr) s') :
    ∃ l₁, l.Runs R libc p r op ret l₁ ∧ (lib R libc).Steps (some l₁) tr s' := by
  obtain ⟨_, ⟨q, r', l₁, hq, hr', -, rfl, hruns⟩ | ⟨hnot, -⟩, hsteps⟩ := h
  · obtain rfl := Option.some.inj hq
    obtain rfl := Option.some.inj (hp.symm.trans hr')
    exact ⟨l₁, hruns, hsteps⟩
  · exact absurd ⟨p, r, rfl, hp, hop⟩ hnot

section Runs

variable {p : Ptr} {r : Record} {ret : Ret}

/-- A function that frees the record leaves none at its address. -/
theorem Lib.Runs.teardown {destroyer : TunTapDestroyer}
    (h : l.Runs R libc p r destroyer.teardown ret l') :
    l'.recs = Function.update l.recs p none := by
  obtain ⟨_, d, hruns, -, hrecs⟩ := h
  have hfree : (destroyer.teardown.prog R.os libc r.dev).Answers fun a => a.2 = none := by
    unfold TunTapDestroyer.teardown
    split
    · exact (Prog.answers_of_forall (fun _ => trivial) (tuntapRelease r.dev)).bind fun _ _ => rfl
    · exact (Prog.answers_of_forall (fun _ => trivial) (tuntapDestroy R.os r.dev)).bind
        fun _ _ => rfl
  obtain rfl : d = none := hfree.of_runs hruns
  exact hrecs

/-- A start answers 0 only with a descriptor set. -/
theorem tuntapStart_answers (os : Os) (dev : Device) (mode : Mode) (tun : Int) :
    (tuntapStart os dev mode tun).Answers fun a => a.1 = 0 → a.2.tunFd ≠ -1 := by
  have hclean : ∀ fd sock dev', (startClean fd sock dev').Answers
      fun a => a.1 = 0 → a.2.tunFd ≠ -1 := by
    intro fd sock dev'
    simp [startClean]
  have hsys : ∀ dev', (tuntapSysStart os dev' mode tun).Answers fun _ => True :=
    fun _ => Prog.answers_of_forall (fun _ => trivial) _
  unfold tuntapStart
  simp only [Prog.answers_ite, Prog.answers_call_bind, Prog.pure_eq, Prog.answers_ret]
  refine ⟨fun _ _ h => absurd h (by decide), fun _ sock => ⟨fun _ => hclean .., fun _ => ?_⟩⟩
  refine ⟨fun _ => hclean .., fun _ => (hsys _).bind fun a _ => ?_⟩
  exact (Prog.answers_ite _ _ _).mpr ⟨fun _ => hclean .., fun hfd _ => hfd⟩

/-- A start keeps the record, and one that answers 0 has started it. -/
theorem Lib.Runs.start {mode : Mode} {id : Int}
    (h : l.Runs R libc p r (.start mode id) ret l') : ∃ d, (Ret.code ret = 0 → d.tunFd ≠ -1) ∧
      l'.recs = Function.update l.recs p (some ⟨d, some mode⟩) := by
  obtain ⟨_, d, hruns, -, hrecs⟩ := h
  have hstart : ((Op.start mode id).prog R.os libc r.dev).Answers fun a =>
      ∃ d, a.2 = some d ∧ (Ret.code a.1 = 0 → d.tunFd ≠ -1) :=
    (tuntapStart_answers R.os r.dev mode id).bind fun a ha => ⟨a.2, rfl, ha⟩
  obtain ⟨d', rfl, hd'⟩ := hstart.of_runs hruns
  exact ⟨d', hd', hrecs⟩

/-- Any other function keeps the record and its descriptors. -/
theorem Lib.Runs.keeps {m : Method} (h : l.Runs R libc p r m.op ret l') :
    ∃ d, d.tunFd = r.dev.tunFd ∧
      l'.recs = Function.update l.recs p (some ⟨d, r.mode⟩) := by
  obtain ⟨_, d, hruns, -, hrecs⟩ := h
  have hop : ¬ m.op.StartsOrEnds := by
    cases m <;> exact id
  have hmode : r.modeAfter m.op = r.mode := by
    cases m <;> rfl
  obtain ⟨d', rfl, hframe⟩ := (m.op.record hop).of_runs hruns
  rw [hmode] at hrecs
  exact ⟨d', hframe.tunFd, hrecs⟩

theorem Method.admits_op (m : Method) : r.Admits m.op ↔ r.dev.tunFd ≠ -1 := by
  cases m <;> exact Iff.rfl

/-- The deleter is the one of the mode. -/
theorem Record.admits_teardown {destroyer : TunTapDestroyer}
    (h : ∀ m, r.mode = some m → destroyer.persist = decide m.isPersist) :
    r.Admits destroyer.teardown := by
  unfold TunTapDestroyer.teardown
  by_cases hpersist : destroyer.persist = true
  · rw [if_pos hpersist]
    intro m hm
    exact of_decide_eq_true ((h m hm).symm.trans hpersist)
  · rw [if_neg hpersist]
    intro m hm hp
    exact hpersist ((h m hm).trans (decide_eq_true hp))

end Runs

/-- An object goes with the record it holds, which is freed. -/
theorem destroy_frees {u : UniquePtr} {p : Ptr} {r : Record} (hruns : u.destroy.Runs tr ())
    (hsteps : (lib R libc).Steps (some l) tr s') (hdev : u.dev = some p) (hp : l.recs p = some r)
    (hmode : ∀ m, r.mode = some m → u.destroyer.persist = decide m.isPersist) :
    ∃ l', s' = some l' ∧ l'.recs = Function.update l.recs p none := by
  rcases destroy_runs hruns with ⟨hnull, -⟩ | ⟨q, ret, hq, rfl⟩
  · rw [hdev] at hnull
    cases hnull
  · obtain rfl := Option.some.inj (hdev.symm.trans hq)
    obtain ⟨l₁, hl₁, rfl⟩ := Lib.steps_call hp (Record.admits_teardown hmode) hsteps
    exact ⟨l₁, rfl, hl₁.teardown⟩

theorem destroy_null {u : UniquePtr} (hruns : u.destroy.Runs tr ())
    (hsteps : (lib R libc).Steps (some l) tr s') (hdev : u.dev = none) : s' = some l := by
  rcases destroy_runs hruns with ⟨-, rfl⟩ | ⟨q, ret, hq, -⟩
  · exact hsteps
  · rw [hdev] at hq
    cases hq

/-- The constructor got no memory. -/
def NoMemory (tr : List (Event Api Reply)) : Prop := (⟨.init, none⟩ : Event Api Reply) ∈ tr

/-- A constructor that returns has started the record of its object, and one
that throws has left nothing. -/
theorem construct_spec {mode : Mode} {id : Int} {res : Except Exn UniquePtr}
    (hruns : (tuntap mode id).Runs tr res) (hsteps : (lib R libc).Steps (some l) tr s')
    (hmem : NoMemory tr → Rejected mode id) : ∃ l', s' = some l' ∧
      ((∃ p d, res = .ok (built mode (some p)) ∧ l.recs p = none ∧ d.tunFd ≠ -1 ∧
          l'.recs = Function.update l.recs p (some ⟨d, some mode⟩)) ∨
        (∃ e, res = .error e) ∧ l'.recs = l.recs) := by
  obtain ⟨p, tr', rfl, hrest⟩ := tuntap_runs hruns
  obtain ⟨l₁, hinit, hs₁⟩ := Lib.steps_init hsteps
  cases p with
  | none =>
      rcases hrest with ⟨-, ⟨what, rfl⟩, hdestroy⟩ | ⟨hnot, -⟩
      · exact ⟨l₁, destroy_null hdestroy hs₁ rfl, Or.inr ⟨⟨_, rfl⟩, hinit.recs_of_none⟩⟩
      · exact absurd (hmem (List.mem_cons_self ..)) hnot
  | some p =>
      obtain ⟨hfree, hl₁⟩ := hinit.recs_of_some
      have hp₁ : l₁.recs p = some ⟨Device.init, none⟩ := by
        rw [hl₁, Function.update_self]
      -- whatever is freed again was not there before
      have hgone : Function.update l.recs p none = l.recs := by
        rw [← hfree, Function.update_eq_self]
      rcases hrest with ⟨-, ⟨what, rfl⟩, hdestroy⟩ | ⟨-, ret, tr'', rfl, hstart⟩
      · obtain ⟨l', rfl, hl'⟩ := destroy_frees hdestroy hs₁ rfl hp₁ fun m hm => by cases hm
        rw [hl₁, Function.update_idem, hgone] at hl'
        exact ⟨l', rfl, Or.inr ⟨⟨_, rfl⟩, hl'⟩⟩
      · obtain ⟨l₂, hl₂, hs₂⟩ :=
          Lib.steps_call hp₁ (show Record.Admits _ (.start mode id) from rfl) hs₁
        obtain ⟨d, hd, hl₂⟩ := hl₂.start
        rw [hl₁, Function.update_idem] at hl₂
        rcases hstart with ⟨hret, rfl, rfl⟩ | ⟨-, rfl, hdestroy⟩
        · exact ⟨l₂, hs₂, Or.inl ⟨p, d, rfl, hfree, hd hret, hl₂⟩⟩
        · have hp₂ : l₂.recs p = some ⟨d, some mode⟩ := by
            rw [hl₂, Function.update_self]
          obtain ⟨l', rfl, hl'⟩ := destroy_frees hdestroy hs₂ rfl hp₂
            fun m hm => by rw [← Option.some.inj hm]; rfl
          rw [hl₂, Function.update_idem, hgone] at hl'
          exact ⟨l', rfl, Or.inr ⟨⟨_, rfl⟩, hl'⟩⟩

/-- Without memory a constructor hands the null pointer to `tuntap_start`. -/
theorem construct_noMemory {mode : Mode} {id : Int} {res : Except Exn UniquePtr}
    (hruns : (tuntap mode id).Runs tr res) (hsteps : (lib R libc).Steps (some l) tr s')
    (hmem : NoMemory tr) (hargs : ¬ Rejected mode id) : s' = none := by
  obtain ⟨p, tr', rfl, hrest⟩ := tuntap_runs hruns
  obtain ⟨l₁, -, hs₁⟩ := Lib.steps_init hsteps
  rcases hrest with ⟨hrej, -⟩ | ⟨-, ret, tr'', rfl, hstart⟩
  · exact absurd hrej hargs
  · cases p with
    | none => exact Lib.steps_call_null hs₁
    | some p =>
        -- a destructor asks for no memory
        exfalso
        have hdestroy : ¬ NoMemory tr'' := by
          rcases hstart with ⟨-, -, rfl⟩ | ⟨-, -, hdestroy⟩
          · exact List.not_mem_nil
          · rcases destroy_runs hdestroy with ⟨-, rfl⟩ | ⟨q, ret, -, rfl⟩ <;> simp [NoMemory]
        simp only [NoMemory, List.mem_cons, Sigma.mk.injEq, reduceCtorEq, false_and,
          false_or, heq_eq_eq, and_false] at hmem
        exact hdestroy hmem

end Lib

/-! ## Objects as owners -/

section Owners

variable {ι : Type} {objs : ι → Option UniquePtr} {s s' : State ι} {l l' : Lib}
  {o : Owners ι Ptr} {i : ι} {p : Ptr}

/-- The record each object holds. -/
def held (objs : ι → Option UniquePtr) (i : ι) : Option Ptr := (objs i).bind UniquePtr.dev

theorem held_of {u : UniquePtr} (hu : objs i = some u) : held objs i = u.dev := by
  rw [held, hu, Option.bind_some]

theorem held_of_none (hi : objs i = none) : held objs i = none := by
  rw [held, hi, Option.bind_none]

/-- A record in use: it was started, in a mode its deleter knows. -/
def InUse (l : Lib) (u : UniquePtr) (p : Ptr) : Prop :=
  ∃ r m, l.recs p = some r ∧ r.mode = some m ∧ r.dev.tunFd ≠ -1 ∧
    u.destroyer.persist = decide m.isPersist

theorem InUse.of_recs {u : UniquePtr} (h : InUse l u p) (hrecs : l'.recs p = l.recs p) :
    InUse l' u p := by
  obtain ⟨r, m, hr, hrest⟩ := h
  exact ⟨r, m, hrecs.trans hr, hrest⟩

/-- Every object that holds a record has it in use. -/
def AllInUse (objs : ι → Option UniquePtr) (l : Lib) : Prop :=
  ∀ i u p, objs i = some u → u.dev = some p → InUse l u p

/-- The objects and the records, as owners and what they own. -/
structure Owned (s : State ι) (l : Lib) (o : Owners ι Ptr) : Prop where
  lib : s.lib = some l
  hold : o.hold = held s.objs
  live : ∀ p, o.live p ↔ (l.recs p).isSome
  inUse : AllInUse s.objs l

/-- Another object holds another record. -/
theorem Owned.ne_of_held (ho : Owned s l o) {j : ι} {q : Ptr} (hji : j ≠ i)
    (hi : held s.objs i = some p) (hj : held s.objs j = some q) : q ≠ p := by
  rintro rfl
  rw [← ho.hold] at hi hj
  exact hji (o.sole j i q hj hi)

variable [DecidableEq ι]

theorem held_update {v : Option UniquePtr} :
    held (Function.update objs i v) = Function.update (held objs) i (v.bind UniquePtr.dev) :=
  Function.comp_update (fun v => Option.bind v UniquePtr.dev) objs i v

/-- One object and its record change, and all others are left alone. -/
theorem AllInUse.update (h : AllInUse objs l) {v : Option UniquePtr}
    (hv : ∀ u p, v = some u → u.dev = some p → InUse l' u p)
    (hrecs : ∀ j, j ≠ i → ∀ p, held objs j = some p → l'.recs p = l.recs p) :
    AllInUse (Function.update objs i v) l' := by
  intro j u p hu hp
  by_cases hji : j = i
  · rw [hji, Function.update_self] at hu
    exact hv u p hu hp
  · rw [Function.update_of_ne hji] at hu
    exact (h j u p hu hp).of_recs (hrecs j hji p ((held_of hu).trans hp))

/-- A statement that does not hand the C API what it cannot take: no method on
an object that holds nothing, and no constructor without memory. A method or a
constructor that throws on its arguments is harmless either way. -/
def Proper (x : State ι × Act ι × State ι) : Prop :=
  match x.2.1 with
  | .construct _ mode id tr _ => NoMemory tr → Rejected mode id
  | .method i m _ _ => m.Rejects ∨ ∃ p, held x.1.objs i = some p
  | _ => True

/-- What a statement is to the owners. -/
def observed (x : State ι × Act ι × State ι) : Owners.Act ι Ptr :=
  match x.2.1 with
  | .construct i _ _ _ (.ok u) => u.dev.elim .stay (.acquire i)
  | .moveConstruct i j => .transfer j i
  | .release i => .giveUp i (held x.1.objs i)
  | .destruct i _ => .dispose i
  | _ => .stay

/-! ### The statements one by one -/

section Statements

variable {R : Rules} {libc : Libc} {tr : List (Event Api Reply)} {s₁ : Option Lib}
  {u : UniquePtr}

/-- The record of a constructor that returned is a new one. -/
theorem Owned.constructed (ho : Owned s l o) {mode : Mode} {d : Device} (hraw : s.objs i = none)
    (hfree : l.recs p = none) (hfd : d.tunFd ≠ -1)
    (hrecs : l'.recs = Function.update l.recs p (some ⟨d, some mode⟩)) :
    ∃ o', Owners.Step o (.acquire i p) o' ∧
      Owned ⟨Function.update s.objs i (some (built mode (some p))), some l'⟩ l' o' := by
  have hdead : ¬ o.live p := by
    simp [ho.live, hfree]
  have hempty : o.hold i = none := by
    rw [ho.hold, held_of_none hraw]
  refine ⟨o.acquire i p hdead, .acquire hdead hempty, rfl, ?_, fun q => ?_, ?_⟩
  · rw [Owners.hold_acquire, ho.hold, held_update]
    rfl
  · rw [Owners.live_acquire, ho.live, hrecs]
    by_cases hqp : q = p
    · simp [hqp]
    · simp [hqp]
  · refine ho.inUse.update (fun u q hu hq => ?_) fun j _ q hq => ?_
    · obtain rfl := Option.some.inj hu
      obtain rfl := Option.some.inj hq
      exact ⟨⟨d, some mode⟩, mode, by rw [hrecs, Function.update_self], rfl, hfd, rfl⟩
    · have hqp : q ≠ p := by
        rintro rfl
        rw [← ho.hold] at hq
        exact hdead (o.alive j q hq)
      rw [hrecs, Function.update_of_ne hqp]

theorem Owned.moved (ho : Owned s l o) {j : ι} (hu : s.objs j = some u) :
    Owned ⟨Function.update (Function.update s.objs j (some .null)) i (some u), s.lib⟩ l
      (o.transfer j i) := by
  refine ⟨ho.lib, ?_, ho.live, ?_⟩
  · rw [Owners.hold_transfer, held_update, held_update, ho.hold, held_of hu]
    rfl
  · have hj : AllInUse (Function.update s.objs j (some .null)) l :=
      ho.inUse.update (fun v q hv hq => by obtain rfl := Option.some.inj hv; cases hq)
        fun _ _ _ _ => rfl
    refine hj.update (fun v q hv hq => ?_) fun _ _ _ _ => rfl
    obtain rfl := Option.some.inj hv
    exact ho.inUse j u q hu hq

/-- A method that gets a record in use leaves it in use, and all others
alone. -/
theorem Owned.method (ho : Owned s l o) {m : Method} {res : Except Exn Ret}
    (hu : s.objs i = some u) (hruns : (m.prog u.dev).Runs tr res)
    (hsteps : (Cpp.lib R libc).Steps s.lib tr s₁)
    (hproper : m.Rejects ∨ ∃ p, held s.objs i = some p) :
    ∃ l₁, Owned ⟨s.objs, s₁⟩ l₁ o := by
  rw [ho.lib] at hsteps
  rcases m.prog_runs hruns with ⟨-, rfl, -⟩ | ⟨hnot, ret, rfl, -⟩
  · exact ⟨l, hsteps, ho.hold, ho.live, ho.inUse⟩
  · obtain ⟨p, hp⟩ := hproper.resolve_left hnot
    have hdev : u.dev = some p := (held_of hu).symm.trans hp
    obtain ⟨r, mode, hr, hmode, hfd, hpersist⟩ := ho.inUse i u p hu hdev
    rw [hdev] at hsteps
    obtain ⟨l₁, hl₁, rfl⟩ := Lib.steps_call hr (m.admits_op.mpr hfd) hsteps
    obtain ⟨d, hd, hrecs⟩ := hl₁.keeps
    refine ⟨l₁, rfl, ho.hold, fun q => ?_, ?_⟩
    · rw [ho.live, hrecs]
      by_cases hqp : q = p
      · simp [hqp, hr]
      · simp [hqp]
    · have hall : AllInUse (Function.update s.objs i (some u)) l₁ := by
        refine ho.inUse.update (fun v q hv hq => ?_) fun j hji q hq => ?_
        · obtain rfl := Option.some.inj hv
          obtain rfl := Option.some.inj (hdev.symm.trans hq)
          exact ⟨⟨d, r.mode⟩, mode, by rw [hrecs, Function.update_self], hmode, hd ▸ hfd, hpersist⟩
        · rw [hrecs, Function.update_of_ne (ho.ne_of_held hji hp hq)]
      rwa [← hu, Function.update_eq_self] at hall

theorem Owned.released (ho : Owned s l o) :
    Owned ⟨Function.update s.objs i (some u.release), s.lib⟩ l (o.giveUp i) := by
  refine ⟨ho.lib, ?_, ho.live, ?_⟩
  · rw [Owners.hold_giveUp, held_update, ho.hold]
    rfl
  · refine ho.inUse.update (fun v q hv hq => ?_) fun _ _ _ _ => rfl
    obtain rfl := Option.some.inj hv
    cases hq

theorem Owned.destructed (ho : Owned s l o) (hu : s.objs i = some u)
    (hruns : u.destroy.Runs tr ()) (hsteps : (Cpp.lib R libc).Steps s.lib tr s₁) :
    ∃ l₁, Owned ⟨Function.update s.objs i none, s₁⟩ l₁ (o.dispose i) := by
  rw [ho.lib] at hsteps
  have hhold : (o.dispose i).hold = held (Function.update s.objs i none) := by
    rw [Owners.hold_dispose, held_update, ho.hold]
    rfl
  have hi : o.hold i = u.dev := by
    rw [ho.hold, held_of hu]
  cases hdev : u.dev with
  | none =>
      refine ⟨l, destroy_null hruns hsteps hdev, hhold, fun q => ?_, ?_⟩
      · simp [hi, hdev, ho.live]
      · exact ho.inUse.update (fun v q hv _ => by cases hv) fun _ _ _ _ => rfl
  | some p =>
      obtain ⟨r, m, hr, hm, -, hpersist⟩ := ho.inUse i u p hu hdev
      have hmode : ∀ m', r.mode = some m' → u.destroyer.persist = decide m'.isPersist := by
        intro m' hm'
        rw [← Option.some.inj (hm.symm.trans hm')]
        exact hpersist
      obtain ⟨l₁, rfl, hrecs⟩ := destroy_frees hruns hsteps hdev hr hmode
      refine ⟨l₁, rfl, hhold, fun q => ?_, ?_⟩
      · by_cases hqp : q = p
        · simp [hi, hdev, hrecs, hqp]
        · simp [hi, hdev, hrecs, hqp, Ne.symm hqp, ho.live]
      · refine ho.inUse.update (fun v q hv _ => by cases hv) fun j hji q hq => ?_
        have hp : held s.objs i = some p := (held_of hu).trans hdev
        rw [hrecs, Function.update_of_ne (ho.ne_of_held hji hp hq)]

end Statements

/-- A proper statement is a step of the owners. -/
theorem State.Step.owned {R : Rules} {libc : Libc} {a : Act ι}
    (hs : State.Step R libc s a s') (hproper : Proper (s, a, s')) (ho : Owned s l o) :
    ∃ o', Owners.Step o (observed (s, a, s')) o' ∧ ∃ l', Owned s' l' o' := by
  cases hs with
  | @construct _ i mode id tr res s₁ hraw hruns hsteps =>
      rw [ho.lib] at hsteps
      obtain ⟨l₁, rfl, ⟨p, d, rfl, hfree, hfd, hrecs⟩ | ⟨⟨e, rfl⟩, hrecs⟩⟩ :=
        construct_spec hruns hsteps hproper
      · obtain ⟨o', hstep, ho'⟩ := ho.constructed hraw hfree hfd hrecs
        exact ⟨o', hstep, l₁, ho'⟩
      · have hobjs : Function.update s.objs i none = s.objs :=
          Function.update_eq_self_iff.mpr hraw.symm
        refine ⟨o, .stay, l₁, rfl, ?_, fun q => ?_, ?_⟩
        · exact ho.hold.trans (congrArg held hobjs).symm
        · rw [ho.live, hrecs]
        · exact ho.inUse.update (fun v q hv _ => by cases hv) fun _ _ q _ => congrFun hrecs q
  | @moveConstruct _ i j u hraw hu =>
      have hempty : o.hold i = none := by
        rw [ho.hold, held_of_none hraw]
      exact ⟨o.transfer j i, .transfer hempty, l, ho.moved hu⟩
  | method hu hruns hsteps => exact ⟨o, .stay, ho.method hu hruns hsteps hproper⟩
  | @release _ i u hu =>
      refine ⟨o.giveUp i, ?_, l, ho.released⟩
      simp only [observed, ← ho.hold]
      exact .giveUp
  | @destruct _ i u tr s₁ hu hruns hsteps =>
      exact ⟨o.dispose i, .dispose, ho.destructed hu hruns hsteps⟩
  | @others objs l₀ k =>
      obtain rfl : l₀ = l := Option.some.inj ho.lib
      exact ⟨o, .stay, { l₀ with kern := k }, rfl, ho.hold, ho.live, ho.inUse⟩

/-- Any other statement breaks the library. -/
theorem State.Step.broken {R : Rules} {libc : Libc} {a : Act ι}
    (hs : State.Step R libc s a s') (hproper : ¬ Proper (s, a, s')) (ho : Owned s l o) :
    s'.lib = none := by
  cases hs with
  | construct hraw hruns hsteps =>
      rw [ho.lib] at hsteps
      obtain ⟨hmem, hargs⟩ := Classical.not_imp.mp hproper
      exact construct_noMemory hruns hsteps hmem hargs
  | @method _ i u m tr res s₁ hu hruns hsteps =>
      rw [ho.lib] at hsteps
      obtain ⟨hargs, hnull⟩ := not_or.mp hproper
      have hdev : u.dev = none := by
        rw [← held_of hu]
        exact Option.eq_none_iff_forall_ne_some.mpr fun p hp => hnull ⟨p, hp⟩
      rcases m.prog_runs hruns with ⟨hrej, -⟩ | ⟨-, ret, rfl, -⟩
      · exact absurd hrej hargs
      · rw [hdev] at hsteps
        exact Lib.steps_call_null hsteps
  | _ => exact absurd trivial hproper

/-! ## Runs of a program -/

/-- A program before its first object. The records that are there already are
none of its own. -/
def begins (ι : Type) (l : Lib) : State ι := ⟨fun _ => none, some l⟩

omit [DecidableEq ι] in
theorem begins_owned (l : Lib) :
    Owned (begins ι l) l (Owners.unheld fun p => (l.recs p).isSome) :=
  ⟨rfl, rfl, fun _ => Iff.rfl, fun _ _ _ h => by cases h⟩

/-- The library on a machine with nothing on it. -/
def Lib.blank : Lib := ⟨fun _ => none, Kern.blank⟩

/-- The library with `tap0`, its record at address 0. -/
def Lib.tap0 : Lib :=
  ⟨Function.update (fun _ => none) 0 (some ⟨Device.tap0, some tuntapModeEthernet⟩),
    Kern.attached Iface.tap0 Iface.tap0_short⟩

/-- The calls of a constructor that is granted everything. -/
def constructTap0 : List (Event Api Reply) :=
  [⟨.init, some 0⟩, ⟨.call (some 0) (.start tuntapModeEthernet 0), .int 0⟩]

theorem constructTap0_runs :
    (tuntap tuntapModeEthernet 0).Runs constructTap0 (.ok (built tuntapModeEthernet (some 0))) :=
  ⟨some 0, _, rfl, .int 0, _, rfl, rfl, rfl⟩

theorem constructTap0_steps (libc : Libc) :
    (lib (Rules.plain .linux) libc).Steps (some .blank) constructTap0 (some .tap0) := by
  have hinit : Lib.Inits (Rules.plain .linux) .blank (some 0)
      ⟨Function.update (fun _ => none) 0 (some ⟨Device.init, none⟩), Kern.blank⟩ :=
    ⟨[⟨.malloc, true⟩], some Device.init, ⟨true, [], rfl, rfl, rfl⟩, ⟨_, rfl, rfl⟩, rfl, rfl⟩
  refine ⟨_, ⟨_, rfl, hinit⟩, _, Or.inl ⟨0, ⟨Device.init, none⟩, .tap0, rfl, rfl, rfl, rfl,
    startTap0, some Device.tap0, ?_, startTap0_steps, ?_⟩, rfl⟩
  · exact (Prog.runs_bind _ _ _ _).mpr ⟨_, startTap0, [], rfl, startTap0_runs, rfl, rfl⟩
  · exact (Function.update_idem ..).symm

/-- An object is built, another one made from it and told to release the record,
and the first one destroyed. -/
theorem tap0_program (libc : Libc) : ∃ tr s', tr.length = 4 ∧
    Run (State.Step (Rules.plain .linux) libc) (begins Bool .blank) tr s' ∧
    (∀ x ∈ tr, Proper x) ∧
    ∃ x ∈ tr, ∃ i, x.2.1 = .release i ∧ held x.1.objs i = some 0 := by
  have hnull : UniquePtr.null.destroy.Runs [] () := ⟨rfl, rfl⟩
  refine ⟨_, _, rfl,
    .cons (.construct (i := true) rfl constructTap0_runs (constructTap0_steps libc)) <|
    .cons (.moveConstruct (i := false) (j := true) rfl rfl) <|
    .cons (.release (i := false) rfl) <|
    .cons (.destruct (i := true) rfl hnull rfl) <| .nil _, ?_, ?_⟩
  · simp only [List.mem_cons, List.not_mem_nil, or_false, forall_eq_or_imp, forall_eq]
    refine ⟨fun hmem => ?_, trivial, trivial, trivial⟩
    simp [NoMemory, constructTap0] at hmem
  · exact ⟨_, List.mem_cons_of_mem _ (List.mem_cons_of_mem _ (List.mem_cons_self ..)), false,
      rfl, rfl⟩

section Runs

variable {R : Rules} {libc : Libc} {tr : List (State ι × Act ι × State ι)}

/-- Proper statements keep the objects owners. -/
theorem owned_in_runs (hr : Run (State.Step R libc) (begins ι l) tr s')
    (h : ∀ x ∈ tr, Proper x) :
    ∀ x ∈ tr, (∃ l o, Owned x.1 l o) ∧ ∃ l o, Owned x.2.2 l o := by
  refine (hr.invariant (I := fun s => ∃ l o, Owned s l o) ⟨l, _, begins_owned l⟩ ?_).2
  intro x hx hs hI
  obtain ⟨l, o, ho⟩ := hI
  obtain ⟨o', -, l', ho'⟩ := hs.owned (h x hx) ho
  exact ⟨l', o', ho'⟩

/-- A program keeps the contract of the C API precisely if each of its
statements is proper: the null pointer is the only thing that can go wrong, and
it comes from a method on an object that holds nothing or from a constructor
without memory. -/
theorem contract_kept_iff (hr : Run (State.Step R libc) (begins ι l) tr s') :
    (∀ x ∈ tr, x.2.2.lib ≠ none) ↔ ∀ x ∈ tr, Proper x := by
  constructor
  · intro h
    have hproper : ∀ x ∈ tr, (∃ l o, Owned x.1 l o) → Proper x := by
      intro x hx hI
      obtain ⟨l, o, ho⟩ := hI
      by_contra hnot
      exact h x hx ((hr.step_of_mem x hx).broken hnot ho)
    have hinv := hr.invariant (I := fun s => ∃ l o, Owned s l o) ⟨l, _, begins_owned l⟩
      fun x hx hs hI => by
        obtain ⟨l, o, ho⟩ := hI
        obtain ⟨o', -, l', ho'⟩ := hs.owned (hproper x hx ⟨l, o, ho⟩) ho
        exact ⟨l', o', ho'⟩
    exact fun x hx => hproper x hx (hinv.2 x hx).1
  · intro h x hx
    obtain ⟨l, o, ho⟩ := (owned_in_runs hr h x hx).2
    rw [ho.lib]
    exact Option.some_ne_none l

theorem tap0_contract_kept : ∃ tr s', tr.length = 4 ∧
    Run (State.Step (Rules.plain .linux) Libc.refusing) (begins Bool .blank) tr s' ∧
    ∀ x ∈ tr, x.2.2.lib ≠ none := by
  obtain ⟨tr, s', hlen, hr, hproper, -⟩ := tap0_program Libc.refusing
  exact ⟨tr, s', hlen, hr, (contract_kept_iff hr).mpr hproper⟩

/-- Proper statements are steps of the owners. -/
theorem binding_simulates : Simulates
    (fun (s : State ι) a s' => State.Step R libc s a s' ∧ Proper (s, a, s'))
    (Owners.Step (N := Ptr)) observed fun s o => ∃ l, Owned s l o :=
  ⟨fun hs ho => by
    obtain ⟨l, ho⟩ := ho
    exact hs.1.owned hs.2 ho⟩

/-- In a program of proper statements no record has two objects, and the records
that no object holds are those from before and those that an object was told to
release. -/
theorem orphans_released (hr : Run (State.Step R libc) (begins ι l) tr s')
    (hproper : ∀ x ∈ tr, Proper x) : ∃ l', s'.lib = some l' ∧
      (∀ i j p, held s'.objs i = some p → held s'.objs j = some p → i = j) ∧
      ∀ p, ((l'.recs p).isSome ∧ ∀ i, held s'.objs i ≠ some p) ↔
        (l.recs p).isSome ∨
          ∃ x ∈ tr, ∃ i, x.2.1 = .release i ∧ held x.1.objs i = some p := by
  obtain ⟨tr', o', hr', hlabels, l', ho'⟩ :=
    binding_simulates.run (hr.restrict hproper) ⟨l, begins_owned l⟩
  refine ⟨l', ho'.lib, fun i j p => ?_, fun p => ?_⟩
  · rw [← ho'.hold]
    exact o'.sole i j p
  · have hrun := Owners.orphan_run hr' p
    rw [Owners.orphan_unheld, Owners.Orphan, ho'.hold, ho'.live, hlabels] at hrun
    rw [hrun]
    refine or_congr_right ?_
    simp only [List.mem_map]
    constructor
    · rintro ⟨i, x, hx, hobs⟩
      obtain ⟨s, a, t⟩ := x
      cases a with
      | release j =>
          simp only [observed, Owners.Act.giveUp.injEq] at hobs
          obtain ⟨rfl, hheld⟩ := hobs
          exact ⟨_, hx, j, rfl, hheld⟩
      | construct i mode id tr res =>
          cases res with
          | ok u => cases hdev : u.dev <;> simp [observed, hdev] at hobs
          | error e => simp [observed] at hobs
      | _ => simp [observed] at hobs
    · rintro ⟨x, hx, i, hact, hheld⟩
      exact ⟨i, x, hx, by simp only [observed, hact, hheld]⟩

/-- The record of `tap0` outlives its objects. -/
theorem tap0_orphaned : ∃ tr s', tr.length = 4 ∧
    Run (State.Step (Rules.plain .linux) Libc.refusing) (begins Bool .blank) tr s' ∧
    ∃ l', s'.lib = some l' ∧ (l'.recs 0).isSome ∧ ∀ i, held s'.objs i ≠ some 0 := by
  obtain ⟨tr, s', hlen, hr, hproper, hgiven⟩ := tap0_program Libc.refusing
  obtain ⟨l', hl', -, horphan⟩ := orphans_released hr hproper
  exact ⟨tr, s', hlen, hr, l', hl', (horphan 0).mpr (Or.inr hgiven)⟩

end Runs

end Owners

end Libtuntap.Cpp
