import Mathlib.Logic.Basic

/-!
# Programs over an interface of calls

A program that talks to its environment is a tree: it either has an answer, or
it makes one call and continues with whatever the environment replies. Nothing
is said here about what the replies are. A kernel, a trace or an ownership
discipline is a reading of the same tree, and each of them gets its own file.

The tree is finite in depth, so every reading below is a structural recursion,
and an equation about a program is an induction over it.
-/

universe u v

namespace Effect

/-- A program making calls from `C`, a call `c` being answered in `R c`. -/
inductive Prog (C : Type u) (R : C → Type v) (α : Type v) : Type (max u v) where
  | ret (a : α)
  | sys (c : C) (k : R c → Prog C R α)

namespace Prog

variable {C : Type u} {R : C → Type v} {α β γ : Type v}

/-- Sequencing grafts the continuation onto every leaf. -/
def bind : Prog C R α → (α → Prog C R β) → Prog C R β
  | .ret a, f => f a
  | .sys c k, f => .sys c fun r => (k r).bind f

/-- The program that makes one call and answers with its reply. -/
def call (c : C) : Prog C R (R c) := .sys c .ret

instance : Monad (Prog C R) where
  pure := .ret
  bind := .bind

@[simp] theorem pure_eq (a : α) : (pure a : Prog C R α) = .ret a := rfl

@[simp] theorem ret_bind (a : α) (f : α → Prog C R β) :
    (Prog.ret a : Prog C R α) >>= f = f a := rfl

@[simp] theorem sys_bind (c : C) (k : R c → Prog C R α) (f : α → Prog C R β) :
    Prog.sys c k >>= f = .sys c fun r => k r >>= f := rfl

@[simp] theorem bind_assoc (p : Prog C R α) (f : α → Prog C R β) (g : β → Prog C R γ) :
    p >>= f >>= g = p >>= fun a => f a >>= g := by
  induction p with
  | ret a => rfl
  | sys c k ih => simp only [sys_bind, ih]

@[simp] theorem ite_bind (c : Prop) [Decidable c] (p q : Prog C R α) (f : α → Prog C R β) :
    (if c then p else q) >>= f = if c then p >>= f else q >>= f := by
  split <;> rfl

/-- Every call the program can make, on whichever replies, satisfies `P`. -/
def AllCalls (P : C → Prop) : Prog C R α → Prop
  | .ret _ => True
  | .sys c k => P c ∧ ∀ r, (k r).AllCalls P

section AllCalls

variable {P : C → Prop}

@[simp] theorem allCalls_ret (a : α) : (Prog.ret a : Prog C R α).AllCalls P := trivial

@[simp] theorem allCalls_call_bind (c : C) (f : R c → Prog C R α) :
    ((call c : Prog C R (R c)) >>= f).AllCalls P ↔ P c ∧ ∀ r, (f r).AllCalls P := Iff.rfl

@[simp] theorem allCalls_call (c : C) : (call c : Prog C R (R c)).AllCalls P ↔ P c :=
  ⟨And.left, fun h => ⟨h, fun _ => trivial⟩⟩

@[simp] theorem allCalls_ite (c : Prop) [Decidable c] (p q : Prog C R α) :
    (if c then p else q).AllCalls P ↔ (c → p.AllCalls P) ∧ (¬ c → q.AllCalls P) := by
  by_cases h : c <;> simp [h]

theorem AllCalls.bind {p : Prog C R α} {f : α → Prog C R β} (hp : p.AllCalls P)
    (hf : ∀ a, (f a).AllCalls P) : (p >>= f).AllCalls P := by
  induction p with
  | ret a => exact hf a
  | sys c k ih => exact ⟨hp.1, fun r => ih r (hp.2 r)⟩

theorem AllCalls.mono {Q : C → Prop} {p : Prog C R α} (hPQ : ∀ c, P c → Q c)
    (hp : p.AllCalls P) : p.AllCalls Q := by
  induction p with
  | ret a => trivial
  | sys c k ih => exact ⟨hPQ c hp.1, fun r => ih r (hp.2 r)⟩

end AllCalls

/-- Every answer the program can give, on whichever replies, satisfies `Q`. -/
def Answers (Q : α → Prop) : Prog C R α → Prop
  | .ret a => Q a
  | .sys _ k => ∀ r, (k r).Answers Q

section Answers

variable {Q : α → Prop}

@[simp] theorem answers_ret (a : α) : (Prog.ret a : Prog C R α).Answers Q ↔ Q a := Iff.rfl

@[simp] theorem answers_call_bind (c : C) (f : R c → Prog C R α) :
    ((call c : Prog C R (R c)) >>= f).Answers Q ↔ ∀ r, (f r).Answers Q := Iff.rfl

@[simp] theorem answers_ite (c : Prop) [Decidable c] (p q : Prog C R α) :
    (if c then p else q).Answers Q ↔ (c → p.Answers Q) ∧ (¬ c → q.Answers Q) := by
  by_cases h : c <;> simp [h]

theorem Answers.bind {S : β → Prop} {p : Prog C R α} {f : α → Prog C R β}
    (hp : p.Answers Q) (hf : ∀ a, Q a → (f a).Answers S) : (p >>= f).Answers S := by
  induction p with
  | ret a => exact hf a hp
  | sys c k ih => exact fun r => ih r (hp r)

theorem answers_of_forall (hQ : ∀ a, Q a) (p : Prog C R α) : p.Answers Q := by
  induction p with
  | ret a => exact hQ a
  | sys c k ih => exact ih

theorem Answers.mono {S : α → Prop} {p : Prog C R α} (hQS : ∀ a, Q a → S a)
    (hp : p.Answers Q) : p.Answers S := by
  induction p with
  | ret a => exact hQS a hp
  | sys c k ih => exact fun r => ih r (hp r)

/-- What follows a program need only be judged on the answers it can give. -/
theorem AllCalls.bind_of_answers {P : C → Prop} {p : Prog C R α} {f : α → Prog C R β}
    (hp : p.AllCalls P) (hQ : p.Answers Q) (hf : ∀ a, Q a → (f a).AllCalls P) :
    (p >>= f).AllCalls P := by
  induction p with
  | ret a => exact hf a hQ
  | sys c k ih => exact ⟨hp.1, fun r => ih r (hp.2 r) (hQ r)⟩

end Answers

end Prog

end Effect
