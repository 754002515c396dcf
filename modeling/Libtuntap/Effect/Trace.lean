import Libtuntap.Effect.Prog

/-!
# Traces and kernels

The trace of a run is the list of calls made, each with the reply it got.
`Prog.Runs` says which traces a program can leave and what it answers at their
end, with no word on which replies are possible: that is the kernel's half.

A kernel is a relation on its own state, one step for each call and reply.
Both halves meet in the trace. A theorem about a program under a kernel is
therefore proved in two independent steps, what the program does for the
replies it got and what the kernel did to give them, and the same inversion of
a program serves every kernel it is ever run on.
-/

universe u v w

namespace Effect

/-- A call and the reply it got. -/
abbrev Event (C : Type u) (R : C → Type v) : Type (max u v) := (c : C) × R c

namespace Prog

variable {C : Type u} {R : C → Type v} {α β : Type v}

/-- `p.Runs tr a`: with the replies of `tr`, the program makes exactly the
calls of `tr`, in that order, and answers `a`. -/
def Runs : Prog C R α → List (Event C R) → α → Prop
  | .ret x, tr, a => tr = [] ∧ a = x
  | .sys c k, tr, a => ∃ r tr', tr = ⟨c, r⟩ :: tr' ∧ (k r).Runs tr' a

@[simp] theorem runs_ret (x : α) (tr : List (Event C R)) (a : α) :
    (Prog.ret x).Runs tr a ↔ tr = [] ∧ a = x := Iff.rfl

theorem runs_sys (c : C) (k : R c → Prog C R α) (tr : List (Event C R)) (a : α) :
    (Prog.sys c k).Runs tr a ↔ ∃ r tr', tr = ⟨c, r⟩ :: tr' ∧ (k r).Runs tr' a := Iff.rfl

@[simp] theorem runs_call_bind (c : C) (f : R c → Prog C R α) (tr : List (Event C R))
    (a : α) :
    ((call c : Prog C R (R c)) >>= f).Runs tr a ↔
      ∃ r tr', tr = ⟨c, r⟩ :: tr' ∧ (f r).Runs tr' a := Iff.rfl

@[simp] theorem runs_call (c : C) (tr : List (Event C R)) (a : R c) :
    (call c : Prog C R (R c)).Runs tr a ↔ tr = [⟨c, a⟩] := by
  constructor
  · rintro ⟨r, tr', rfl, rfl, rfl⟩
    rfl
  · rintro rfl
    exact ⟨a, [], rfl, rfl, rfl⟩

/-- A sequence leaves the first program's trace, then the second's. -/
theorem runs_bind (p : Prog C R α) (f : α → Prog C R β) (tr : List (Event C R)) (b : β) :
    (p >>= f).Runs tr b ↔
      ∃ a tr₁ tr₂, tr = tr₁ ++ tr₂ ∧ p.Runs tr₁ a ∧ (f a).Runs tr₂ b := by
  induction p generalizing tr with
  | ret x =>
      constructor
      · intro h
        exact ⟨x, [], tr, rfl, ⟨rfl, rfl⟩, h⟩
      · rintro ⟨a, tr₁, tr₂, rfl, ⟨rfl, rfl⟩, h⟩
        exact h
  | sys c k ih =>
      simp only [sys_bind, runs_sys, ih]
      constructor
      · rintro ⟨r, _, rfl, a, tr₁, tr₂, rfl, hp, hf⟩
        exact ⟨a, ⟨c, r⟩ :: tr₁, tr₂, rfl, ⟨r, tr₁, rfl, hp⟩, hf⟩
      · rintro ⟨a, _, tr₂, rfl, ⟨r, tr₁, rfl, hp⟩, hf⟩
        exact ⟨r, tr₁ ++ tr₂, rfl, a, tr₁, tr₂, rfl, hp, hf⟩

@[simp] theorem runs_ite (c : Prop) [Decidable c] (p q : Prog C R α) (tr : List (Event C R))
    (a : α) : (if c then p else q).Runs tr a ↔ (c ∧ p.Runs tr a) ∨ (¬ c ∧ q.Runs tr a) := by
  by_cases h : c <;> simp [h]

/-- What holds of every answer of a program holds of the one it gave. -/
theorem Answers.of_runs {Q : α → Prop} {p : Prog C R α} (hp : p.Answers Q)
    {tr : List (Event C R)} {a : α} (h : p.Runs tr a) : Q a := by
  induction p generalizing tr with
  | ret x =>
      obtain ⟨-, rfl⟩ := h
      exact hp
  | sys c k ih =>
      obtain ⟨r, tr', -, h⟩ := h
      exact ih r (hp r) h

/-- What holds of every call of a program holds of the ones it made. -/
theorem AllCalls.of_runs {P : C → Prop} {p : Prog C R α} (hp : p.AllCalls P)
    {tr : List (Event C R)} {a : α} (h : p.Runs tr a) : ∀ e ∈ tr, P e.1 := by
  induction p generalizing tr with
  | ret x =>
      obtain ⟨rfl, -⟩ := h
      simp
  | sys c k ih =>
      obtain ⟨r, tr', rfl, h⟩ := h
      simp only [List.mem_cons, forall_eq_or_imp]
      exact ⟨hp.1, ih r (hp.2 r) h⟩

/-! ## What every trace satisfies

`Ensures` says of a program what holds of every trace it can leave and of the
answer at its end. It is one more recursion over the tree, so that a program
written with `do` and `if` unfolds into one statement for each of its exits. -/

/-- Every trace the program can leave, with its answer, satisfies `Q`. -/
def Ensures (Q : List (Event C R) → α → Prop) : Prog C R α → Prop
  | .ret a => Q [] a
  | .sys c k => ∀ r, (k r).Ensures fun tr a => Q (⟨c, r⟩ :: tr) a

section Ensures

variable {Q : List (Event C R) → α → Prop}

@[simp] theorem ensures_ret (a : α) : (Prog.ret a : Prog C R α).Ensures Q ↔ Q [] a := Iff.rfl

@[simp] theorem ensures_call_bind (c : C) (f : R c → Prog C R α) :
    ((call c : Prog C R (R c)) >>= f).Ensures Q ↔
      ∀ r, (f r).Ensures fun tr a => Q (⟨c, r⟩ :: tr) a := Iff.rfl

@[simp] theorem ensures_ite (c : Prop) [Decidable c] (p q : Prog C R α) :
    (if c then p else q).Ensures Q ↔ (c → p.Ensures Q) ∧ (¬ c → q.Ensures Q) := by
  by_cases h : c <;> simp [h]

theorem ensures_iff (p : Prog C R α) : p.Ensures Q ↔ ∀ tr a, p.Runs tr a → Q tr a := by
  induction p generalizing Q with
  | ret x =>
      constructor
      · rintro h tr a ⟨rfl, rfl⟩
        exact h
      · intro h
        exact h [] x ⟨rfl, rfl⟩
  | sys c k ih =>
      constructor
      · rintro h tr a ⟨r, tr', rfl, hr⟩
        exact (ih r).mp (h r) tr' a hr
      · intro h r
        exact (ih r).mpr fun tr a hr => h _ a ⟨r, tr, rfl, hr⟩

theorem Ensures.mono {S : List (Event C R) → α → Prop} {p : Prog C R α} (hp : p.Ensures Q)
    (hQS : ∀ tr a, Q tr a → S tr a) : p.Ensures S :=
  (ensures_iff p).mpr fun tr a h => hQS tr a ((ensures_iff p).mp hp tr a h)

theorem ensures_true (p : Prog C R α) : p.Ensures fun _ _ => True :=
  (ensures_iff p).mpr fun _ _ _ => trivial

/-- Where every call has a reply, a program has a run. -/
theorem Ensures.exists [∀ c, Nonempty (R c)] {p : Prog C R α} (hp : p.Ensures Q) :
    ∃ tr a, p.Runs tr a ∧ Q tr a := by
  induction p generalizing Q with
  | ret x => exact ⟨[], x, ⟨rfl, rfl⟩, hp⟩
  | sys c k ih =>
      obtain ⟨r⟩ : Nonempty (R c) := inferInstance
      obtain ⟨tr, a, hruns, hQ⟩ := ih r (hp r)
      exact ⟨⟨c, r⟩ :: tr, a, ⟨r, tr, rfl, hruns⟩, hQ⟩

/-- A sequence is judged by its second program, on the traces and answers the
first one ensures. -/
theorem Ensures.bind {S : List (Event C R) → β → Prop} {p : Prog C R α} {f : α → Prog C R β}
    (hp : p.Ensures Q)
    (hf : ∀ tr a, Q tr a → (f a).Ensures fun tr' b => S (tr ++ tr') b) :
    (p >>= f).Ensures S := by
  rw [ensures_iff] at hp ⊢
  intro tr b h
  obtain ⟨a, tr₁, tr₂, rfl, h₁, h₂⟩ := (runs_bind p f tr b).mp h
  exact (ensures_iff _).mp (hf tr₁ a (hp tr₁ a h₁)) tr₂ b h₂

end Ensures

/-! ## What every trace satisfies on some replies

`Given A P Q` restricts the replies: as long as every event so far satisfies
`A`, every event satisfies `P`, and an answer reached that way satisfies `Q`. A
kernel that refuses, or one that grants, is such a restriction. -/

/-- On replies in `A` the events satisfy `P` and the answer `Q`. -/
def Given (A P : Event C R → Prop) (Q : α → Prop) : Prog C R α → Prop
  | .ret a => Q a
  | .sys c k => ∀ r, A ⟨c, r⟩ → P ⟨c, r⟩ ∧ (k r).Given A P Q

section Given

variable {A P : Event C R → Prop} {Q : α → Prop}

@[simp] theorem given_ret (a : α) : (Prog.ret a : Prog C R α).Given A P Q ↔ Q a := Iff.rfl

@[simp] theorem given_call_bind (c : C) (f : R c → Prog C R α) :
    ((call c : Prog C R (R c)) >>= f).Given A P Q ↔
      ∀ r, A ⟨c, r⟩ → P ⟨c, r⟩ ∧ (f r).Given A P Q := Iff.rfl

@[simp] theorem given_ite (c : Prop) [Decidable c] (p q : Prog C R α) :
    (if c then p else q).Given A P Q ↔ (c → p.Given A P Q) ∧ (¬ c → q.Given A P Q) := by
  by_cases h : c <;> simp [h]

theorem Given.bind {S : β → Prop} {p : Prog C R α} {f : α → Prog C R β}
    (hp : p.Given A P Q) (hf : ∀ a, Q a → (f a).Given A P S) : (p >>= f).Given A P S := by
  induction p with
  | ret a => exact hf a hp
  | sys c k ih => exact fun r hr => ⟨(hp r hr).1, ih r (hp r hr).2⟩

theorem Given.of_runs {p : Prog C R α} (hp : p.Given A P Q) {tr : List (Event C R)} {a : α}
    (h : p.Runs tr a) (hA : ∀ e ∈ tr, A e) : (∀ e ∈ tr, P e) ∧ Q a := by
  induction p generalizing tr with
  | ret x =>
      obtain ⟨rfl, rfl⟩ := h
      exact ⟨by simp, hp⟩
  | sys c k ih =>
      obtain ⟨r, tr', rfl, h⟩ := h
      have hr := hp r (hA _ (List.mem_cons_self ..))
      obtain ⟨hP, hQ⟩ := ih r hr.2 h fun e he => hA e (List.mem_cons_of_mem _ he)
      simp only [List.mem_cons, forall_eq_or_imp]
      exact ⟨⟨hr.1, hP⟩, hQ⟩

end Given

end Prog

/-- A kernel over states `σ`: which replies a call can get, and the state it
leaves behind. -/
abbrev Kernel (C : Type u) (R : C → Type v) (σ : Type w) : Type (max u v w) :=
  σ → (c : C) → R c → σ → Prop

namespace Kernel

variable {C : Type u} {R : C → Type v} {σ : Type w} (K : Kernel C R σ)

/-- The kernel steps along a trace. -/
def Steps : σ → List (Event C R) → σ → Prop
  | s, [], s' => s' = s
  | s, e :: tr, s' => ∃ m, K s e.1 e.2 m ∧ Steps m tr s'

@[simp] theorem steps_nil (s s' : σ) : K.Steps s [] s' ↔ s' = s := Iff.rfl

@[simp] theorem steps_cons (s : σ) (e : Event C R) (tr : List (Event C R)) (s' : σ) :
    K.Steps s (e :: tr) s' ↔ ∃ m, K s e.1 e.2 m ∧ K.Steps m tr s' := Iff.rfl

theorem steps_append (s : σ) (tr₁ tr₂ : List (Event C R)) (s' : σ) :
    K.Steps s (tr₁ ++ tr₂) s' ↔ ∃ m, K.Steps s tr₁ m ∧ K.Steps m tr₂ s' := by
  induction tr₁ generalizing s with
  | nil => simp
  | cons e tr ih =>
      simp only [List.cons_append, steps_cons, ih]
      constructor
      · rintro ⟨m, hm, m', h₁, h₂⟩
        exact ⟨m', ⟨m, hm, h₁⟩, h₂⟩
      · rintro ⟨m', ⟨m, hm, h₁⟩, h₂⟩
        exact ⟨m, hm, m', h₁, h₂⟩

variable {K}

/-- An assertion that every event of the trace preserves survives the trace. -/
theorem Steps.preserves {J : σ → Prop} {tr : List (Event C R)} {s s' : σ}
    (h : K.Steps s tr s') (hJ : J s)
    (hstep : ∀ e ∈ tr, ∀ m m', K m e.1 e.2 m' → J m → J m') : J s' := by
  induction tr generalizing s with
  | nil =>
      obtain rfl := h
      exact hJ
  | cons e tr ih =>
      obtain ⟨m, hm, h⟩ := h
      exact ih h (hstep e (by simp) s m hm hJ)
        fun e' he' => hstep e' (List.mem_cons_of_mem _ he')

end Kernel

end Effect
