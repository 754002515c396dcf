import Libtuntap.Effect.Trace

/-!
# Programs on a kernel

`p.Wp K Q s` says where a program run from the kernel state `s` ends: with an
answer and a state that satisfy `Q`, whatever replies the kernel picks. It is
one more recursion over the tree, so a program is walked call by call with the
kernel state in hand, and the trace never has to be written down. `wp_iff` says
that nothing is lost: it is the statement about every trace the program leaves
and the kernel steps along.

`Kernel.Only` narrows a kernel to some of its replies. A kernel that grants what
it is asked is the same kernel with the refusals left out.
-/

universe u v w

namespace Effect

variable {C : Type u} {R : C → Type v} {σ : Type w} {α β : Type v}

namespace Prog

/-- From `s`, every run of the program on the kernel ends with `Q`. -/
def Wp (K : Kernel C R σ) (Q : α → σ → Prop) : Prog C R α → σ → Prop
  | .ret a, s => Q a s
  | .sys c k, s => ∀ r s', K s c r s' → (k r).Wp K Q s'

section Wp

variable {K : Kernel C R σ} {Q : α → σ → Prop} {s : σ}

@[simp] theorem wp_ret (a : α) : (Prog.ret a : Prog C R α).Wp K Q s ↔ Q a s := Iff.rfl

@[simp] theorem wp_call_bind (c : C) (f : R c → Prog C R α) :
    ((call c : Prog C R (R c)) >>= f).Wp K Q s ↔ ∀ r s', K s c r s' → (f r).Wp K Q s' :=
  Iff.rfl

@[simp] theorem wp_ite (c : Prop) [Decidable c] (p q : Prog C R α) :
    (if c then p else q).Wp K Q s ↔ (c → p.Wp K Q s) ∧ (¬ c → q.Wp K Q s) := by
  by_cases h : c <;> simp [h]

theorem wp_iff (p : Prog C R α) :
    p.Wp K Q s ↔ ∀ tr a s', p.Runs tr a → K.Steps s tr s' → Q a s' := by
  induction p generalizing s with
  | ret x =>
      constructor
      · rintro h tr a s' ⟨rfl, rfl⟩ rfl
        exact h
      · intro h
        exact h [] x s ⟨rfl, rfl⟩ rfl
  | sys c k ih =>
      constructor
      · rintro h tr a s' ⟨r, tr', rfl, hr⟩ ⟨m, hm, hs⟩
        exact (ih r).mp (h r m hm) tr' a s' hr hs
      · intro h r m hm
        exact (ih r).mpr fun tr a s' hr hs => h _ a s' ⟨r, tr, rfl, hr⟩ ⟨m, hm, hs⟩

theorem Wp.of_runs {p : Prog C R α} (hp : p.Wp K Q s) {tr : List (Event C R)} {a : α} {s' : σ}
    (hr : p.Runs tr a) (hs : K.Steps s tr s') : Q a s' :=
  (wp_iff p).mp hp tr a s' hr hs

theorem Wp.mono {S : α → σ → Prop} {p : Prog C R α} (hp : p.Wp K Q s)
    (hQS : ∀ a t, Q a t → S a t) : p.Wp K S s :=
  (wp_iff p).mpr fun _ a s' hr hs => hQS a s' (hp.of_runs hr hs)

/-- A sequence is run from where its first program ends. -/
theorem Wp.bind {S : β → σ → Prop} {p : Prog C R α} {f : α → Prog C R β} (hp : p.Wp K Q s)
    (hf : ∀ a t, Q a t → (f a).Wp K S t) : (p >>= f).Wp K S s := by
  induction p generalizing s with
  | ret a => exact hf a s hp
  | sys c k ih => exact fun r s' h => ih r (hp r s' h)

/-- An assertion that the calls of a program preserve survives the program. -/
theorem AllCalls.wp {P : C → Prop} {J : σ → Prop} {p : Prog C R α} (hp : p.AllCalls P)
    (hJ : J s) (hstep : ∀ c, P c → ∀ m r m', K m c r m' → J m → J m') :
    p.Wp K (fun _ t => J t) s := by
  induction p generalizing s with
  | ret a => exact hJ
  | sys c k ih => exact fun r s' h => ih r (hp.2 r) (hstep c hp.1 s r s' h hJ)

end Wp

/-! ## What a program may do

The same recursion with the kernel on the program's side. It is how a run is
shown to exist: call by call, one reply the kernel can give. -/

/-- From `s`, some run of the program on the kernel ends with `Q`. -/
def May (K : Kernel C R σ) (Q : α → σ → Prop) : Prog C R α → σ → Prop
  | .ret a, s => Q a s
  | .sys c k, s => ∃ r s', K s c r s' ∧ (k r).May K Q s'

section May

variable {K : Kernel C R σ} {Q : α → σ → Prop} {s : σ}

@[simp] theorem may_ret (a : α) : (Prog.ret a : Prog C R α).May K Q s ↔ Q a s := Iff.rfl

@[simp] theorem may_call_bind (c : C) (f : R c → Prog C R α) :
    ((call c : Prog C R (R c)) >>= f).May K Q s ↔ ∃ r s', K s c r s' ∧ (f r).May K Q s' :=
  Iff.rfl

@[simp] theorem may_ite (c : Prop) [Decidable c] (p q : Prog C R α) :
    (if c then p else q).May K Q s ↔ (c ∧ p.May K Q s) ∨ (¬ c ∧ q.May K Q s) := by
  by_cases h : c <;> simp [h]

/-- A sequence may go on from wherever its first program may end. -/
theorem May.bind {S : β → σ → Prop} {p : Prog C R α} {f : α → Prog C R β} (hp : p.May K Q s)
    (hf : ∀ a t, Q a t → (f a).May K S t) : (p >>= f).May K S s := by
  induction p generalizing s with
  | ret a => exact hf a s hp
  | sys c k ih =>
      obtain ⟨r, s', hs, hp⟩ := hp
      exact ⟨r, s', hs, ih r hp⟩

theorem may_iff (p : Prog C R α) :
    p.May K Q s ↔ ∃ tr a s', p.Runs tr a ∧ K.Steps s tr s' ∧ Q a s' := by
  induction p generalizing s with
  | ret x =>
      constructor
      · intro h
        exact ⟨[], x, s, ⟨rfl, rfl⟩, rfl, h⟩
      · rintro ⟨tr, a, s', ⟨rfl, rfl⟩, rfl, h⟩
        exact h
  | sys c k ih =>
      constructor
      · rintro ⟨r, m, hm, h⟩
        obtain ⟨tr, a, s', hr, hs, hQ⟩ := ih r |>.mp h
        exact ⟨⟨c, r⟩ :: tr, a, s', ⟨r, tr, rfl, hr⟩, ⟨m, hm, hs⟩, hQ⟩
      · rintro ⟨_, a, s', ⟨r, tr, rfl, hr⟩, ⟨m, hm, hs⟩, hQ⟩
        exact ⟨r, m, hm, (ih r).mpr ⟨tr, a, s', hr, hs, hQ⟩⟩

end May

end Prog

namespace Kernel

/-- The kernel, of which only the replies in `A` are looked at. -/
def Only (K : Kernel C R σ) (A : Event C R → Prop) : Kernel C R σ := fun s c r s' =>
  A ⟨c, r⟩ ∧ K s c r s'

theorem Steps.only {K : Kernel C R σ} {A : Event C R → Prop} {s s' : σ}
    {tr : List (Event C R)} (h : K.Steps s tr s') (hA : ∀ e ∈ tr, A e) :
    (K.Only A).Steps s tr s' := by
  induction tr generalizing s with
  | nil => exact h
  | cons e tr ih =>
      obtain ⟨m, hm, h⟩ := h
      exact ⟨m, ⟨hA e (List.mem_cons_self ..), hm⟩,
        ih h fun e' he' => hA e' (List.mem_cons_of_mem _ he')⟩

theorem Steps.of_only {K : Kernel C R σ} {A : Event C R → Prop} {s s' : σ}
    {tr : List (Event C R)} (h : (K.Only A).Steps s tr s') :
    K.Steps s tr s' ∧ ∀ e ∈ tr, A e := by
  induction tr generalizing s with
  | nil => exact ⟨h, by simp⟩
  | cons e tr ih =>
      obtain ⟨m, ⟨hA, hm⟩, h⟩ := h
      obtain ⟨hs, hall⟩ := ih h
      simp only [List.mem_cons, forall_eq_or_imp]
      exact ⟨⟨m, hm, hs⟩, hA, hall⟩

/-- The kernel, with what has happened kept beside its state. -/
def traced (K : Kernel C R σ) : Kernel C R (σ × List (Event C R)) := fun s c r s' =>
  K s.1 c r s'.1 ∧ s'.2 = s.2 ++ [⟨c, r⟩]

theorem traced_step {K : Kernel C R σ} {s s' : σ} {c : C} {r : R c} (h : K s c r s')
    (pre : List (Event C R)) : K.traced (s, pre) c r (s', pre ++ [⟨c, r⟩]) := ⟨h, rfl⟩

theorem steps_traced_iff {K : Kernel C R σ} {s : σ} {t : σ × List (Event C R)}
    {tr : List (Event C R)} (pre : List (Event C R)) :
    K.traced.Steps (s, pre) tr t ↔ K.Steps s tr t.1 ∧ t.2 = pre ++ tr := by
  induction tr generalizing s pre with
  | nil =>
      rw [List.append_nil]
      exact Prod.ext_iff
  | cons e tr ih =>
      constructor
      · rintro ⟨⟨m, tr₁⟩, ⟨hm, rfl⟩, h⟩
        obtain ⟨hs, htr⟩ := (ih (pre ++ [e])).mp h
        rw [List.append_assoc] at htr
        exact ⟨⟨m, hm, hs⟩, htr⟩
      · rintro ⟨⟨m, hm, hs⟩, htr⟩
        refine ⟨(m, pre ++ [e]), ⟨hm, rfl⟩, (ih (pre ++ [e])).mpr ⟨hs, ?_⟩⟩
        rw [List.append_assoc]
        exact htr

/-- A kernel that always has a reply, as long as its state is a good one, lets
every program run to its end. -/
theorem exists_steps_of {K : Kernel C R σ} {I : σ → Prop}
    (hK : ∀ s c, I s → ∃ r s', K s c r s' ∧ I s') (p : Prog C R α) {s : σ} (hs : I s) :
    ∃ tr a s', p.Runs tr a ∧ K.Steps s tr s' := by
  induction p generalizing s with
  | ret a => exact ⟨[], a, s, ⟨rfl, rfl⟩, rfl⟩
  | sys c k ih =>
      obtain ⟨r, m, hm, hI⟩ := hK s c hs
      obtain ⟨tr, a, s', hr, hsteps⟩ := ih r hI
      exact ⟨⟨c, r⟩ :: tr, a, s', ⟨r, tr, rfl, hr⟩, m, hm, hsteps⟩

theorem exists_steps {K : Kernel C R σ} (hK : ∀ s c, ∃ r s', K s c r s') (p : Prog C R α)
    (s : σ) : ∃ tr a s', p.Runs tr a ∧ K.Steps s tr s' := by
  have hgood : ∀ s c, True → ∃ r s', K s c r s' ∧ True := by
    intro s c _
    obtain ⟨r, s', h⟩ := hK s c
    exact ⟨r, s', h, trivial⟩
  exact exists_steps_of hgood p trivial

end Kernel

end Effect
