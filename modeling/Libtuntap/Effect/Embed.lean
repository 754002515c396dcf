import Libtuntap.Effect.Handle
import Libtuntap.Effect.Wp

/-!
# Two interfaces side by side

A program written over one interface runs as well over that interface and
another one beside it. `Prog.lift` moves it there, and what was known of its
calls, its answers, its handles and what it does to a kernel is known after the
move.
-/

universe u v w

namespace Effect

variable {C C' : Type u} {R : C → Type v} {R' : C' → Type v} {α β : Type v}

/-- The replies of two interfaces. -/
@[reducible] def Both (R : C → Type v) (R' : C' → Type v) : C ⊕ C' → Type v
  | .inl c => R c
  | .inr c => R' c

instance [∀ c, Nonempty (R c)] [∀ c, Nonempty (R' c)] (c : C ⊕ C') :
    Nonempty (Both R R' c) := by
  cases c with
  | inl c => exact inferInstanceAs (Nonempty (R c))
  | inr c => exact inferInstanceAs (Nonempty (R' c))

namespace Prog

/-- The program, over two interfaces. -/
def lift : Prog C R α → Prog (C ⊕ C') (Both R R') α
  | .ret a => .ret a
  | .sys c k => .sys (.inl c) fun r => (k r).lift

@[simp] theorem lift_ret (a : α) : (lift (.ret a : Prog C R α) : Prog _ (Both R R') α) = .ret a :=
  rfl

@[simp] theorem lift_bind (p : Prog C R α) (f : α → Prog C R β) :
    (lift (p >>= f) : Prog _ (Both R R') β) = lift p >>= fun a => lift (f a) := by
  induction p with
  | ret a => rfl
  | sys c k ih => exact congrArg (Prog.sys (Sum.inl c)) (funext ih)

theorem allCalls_lift {P : C ⊕ C' → Prop} (p : Prog C R α) :
    (lift p : Prog _ (Both R R') α).AllCalls P ↔ p.AllCalls fun c => P (.inl c) := by
  induction p with
  | ret a => exact Iff.rfl
  | sys c k ih => exact and_congr Iff.rfl (forall_congr' ih)

theorem answers_lift {Q : α → Prop} (p : Prog C R α) :
    (lift p : Prog _ (Both R R') α).Answers Q ↔ p.Answers Q := by
  induction p with
  | ret a => exact Iff.rfl
  | sys c k ih => exact forall_congr' ih

end Prog

section Wp

variable {σ : Type w}

/-- A kernel of both interfaces, as the first one sees it. -/
def Kernel.left (K : Kernel (C ⊕ C') (Both R R') σ) : Kernel C R σ := fun s c r s' =>
  K s (.inl c) r s'

theorem Prog.wp_lift {K : Kernel (C ⊕ C') (Both R R') σ} {Q : α → σ → Prop} {p : Prog C R α}
    {s : σ} : (p.lift : Prog _ (Both R R') α).Wp K Q s ↔ p.Wp K.left Q s := by
  induction p generalizing s with
  | ret a => exact Iff.rfl
  | sys c k ih =>
      exact forall_congr' fun r => forall_congr' fun s' => imp_congr_right fun _ => ih r

end Wp

namespace HandleSig

variable {N : Type}

/-- The handles of two interfaces, out of one table. -/
def beside (H : HandleSig C R N) (H' : HandleSig C' R' N) :
    HandleSig (C ⊕ C') (Both R R') N where
  uses := Sum.elim H.uses H'.uses
  gives
    | .inl c, r => H.gives c r
    | .inr c, r => H'.gives c r
  drops := Sum.elim H.drops H'.drops

variable {H : HandleSig C R N} {H' : HandleSig C' R' N}

/-- A program is as safe beside another interface as alone. -/
theorem safe_lift {Q : α → (N → Prop) → Prop} {p : Prog C R α} {own : N → Prop} :
    (p.lift : Prog _ (Both R R') α).Safe (H.beside H') Q own ↔ p.Safe H Q own := by
  induction p generalizing own with
  | ret a => exact Iff.rfl
  | sys c k ih =>
      refine and_congr Iff.rfl (forall_congr' fun r => imp_congr_right fun _ => ?_)
      exact ih r

theorem uses_of_drops (h : ∀ c n, H.drops c = some n → H.uses c n)
    (h' : ∀ c n, H'.drops c = some n → H'.uses c n) (c : C ⊕ C') (n : N)
    (hc : (H.beside H').drops c = some n) : (H.beside H').uses c n := by
  cases c with
  | inl c => exact h c n hc
  | inr c => exact h' c n hc

end HandleSig

end Effect
