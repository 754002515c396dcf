import Libtuntap.Effect.Trace

/-!
# Programs that stop at the first refusal

A program that asks its environment for one thing after another may be refused
any of them. It fails stop if it asks for nothing more after a refusal, except
to put things away, and then answers that it failed; and if it answers that it
did not fail whenever nothing was refused. Both halves together make the answer
exact: it says whether there was a refusal, and a refusal is the last thing that
counts.

Only the replies in `A` are looked at, as in `Given`.
-/

universe u v

namespace Effect

variable {C : Type u} {R : C → Type v} {α β : Type v}

/-- A trace that goes on after its first refusal with calls of `after` only. -/
def Halted (bad : Event C R → Prop) (after : C → Prop) (tr : List (Event C R)) : Prop :=
  ∃ pre e post, tr = pre ++ e :: post ∧ (∀ e' ∈ pre, ¬ bad e') ∧ bad e ∧ ∀ e' ∈ post, after e'.1

theorem Halted.cons {bad : Event C R → Prop} {after : C → Prop} {tr : List (Event C R)}
    {e : Event C R} (he : ¬ bad e) (h : Halted bad after tr) : Halted bad after (e :: tr) := by
  obtain ⟨pre, e', post, rfl, hpre, hbad, hpost⟩ := h
  refine ⟨e :: pre, e', post, rfl, ?_, hbad, hpost⟩
  simp only [List.mem_cons, forall_eq_or_imp]
  exact ⟨he, hpre⟩

namespace Prog

/-- On replies in `A`, nothing but `after` follows a refusal and the answer is in
`F`, and the answer is in `Q` if there was none. -/
def FailStop (A bad : Event C R → Prop) (after : C → Prop) (Q F : α → Prop) :
    Prog C R α → Prop
  | .ret a => Q a
  | .sys c k => ∀ r, A ⟨c, r⟩ →
      (bad ⟨c, r⟩ → (k r).AllCalls after ∧ (k r).Answers F) ∧
        (¬ bad ⟨c, r⟩ → (k r).FailStop A bad after Q F)

section FailStop

variable {A bad : Event C R → Prop} {after : C → Prop} {Q F : α → Prop}

@[simp] theorem failStop_ret (a : α) :
    (Prog.ret a : Prog C R α).FailStop A bad after Q F ↔ Q a := Iff.rfl

@[simp] theorem failStop_call_bind (c : C) (f : R c → Prog C R α) :
    ((call c : Prog C R (R c)) >>= f).FailStop A bad after Q F ↔ ∀ r, A ⟨c, r⟩ →
      (bad ⟨c, r⟩ → (f r).AllCalls after ∧ (f r).Answers F) ∧
        (¬ bad ⟨c, r⟩ → (f r).FailStop A bad after Q F) := Iff.rfl

@[simp] theorem failStop_ite (c : Prop) [Decidable c] (p q : Prog C R α) :
    (if c then p else q).FailStop A bad after Q F ↔
      (c → p.FailStop A bad after Q F) ∧ (¬ c → q.FailStop A bad after Q F) := by
  by_cases h : c <;> simp [h]

/-- Calls that are never refused do not stop a program. -/
theorem AllCalls.failStop {p : Prog C R α} (hp : p.AllCalls fun c => ∀ r, ¬ bad ⟨c, r⟩)
    (hQ : p.Answers Q) : p.FailStop A bad after Q F := by
  induction p with
  | ret a => exact hQ
  | sys c k ih =>
      intro r _
      exact ⟨fun hbad => absurd hbad (hp.1 r), fun _ => ih r (hp.2 r) (hQ r)⟩

/-- After a first program that failed, the second puts things away. -/
theorem FailStop.bind {S G : β → Prop} {p : Prog C R β} {f : β → Prog C R α}
    (hp : p.FailStop A bad after S G) (hf : ∀ b, S b → (f b).FailStop A bad after Q F)
    (hg : ∀ b, G b → (f b).AllCalls after ∧ (f b).Answers F) :
    (p >>= f).FailStop A bad after Q F := by
  induction p with
  | ret b => exact hf b hp
  | sys c k ih =>
      intro r hA
      obtain ⟨hbad, hgood⟩ := hp r hA
      refine ⟨fun hr => ?_, fun hr => ih r (hgood hr)⟩
      obtain ⟨hcalls, hanswers⟩ := hbad hr
      exact ⟨hcalls.bind_of_answers hanswers fun b hb => (hg b hb).1,
        hanswers.bind fun b hb => (hg b hb).2⟩

theorem FailStop.mono {Q' F' : α → Prop} {p : Prog C R α} (hp : p.FailStop A bad after Q F)
    (hQ : ∀ a, Q a → Q' a) (hF : ∀ a, F a → F' a) : p.FailStop A bad after Q' F' := by
  induction p with
  | ret a => exact hQ a hp
  | sys c k ih =>
      intro r hA
      obtain ⟨hbad, hgood⟩ := hp r hA
      exact ⟨fun hr => ⟨(hbad hr).1, (hbad hr).2.mono hF⟩, fun hr => ih r (hgood hr)⟩

/-- A run of such a program either met no refusal, or stopped at the first. -/
theorem FailStop.of_runs {p : Prog C R α} (hp : p.FailStop A bad after Q F)
    {tr : List (Event C R)} {a : α} (hr : p.Runs tr a) (hA : ∀ e ∈ tr, A e) :
    (∀ e ∈ tr, ¬ bad e) ∧ Q a ∨ Halted bad after tr ∧ F a := by
  induction p generalizing tr with
  | ret x =>
      obtain ⟨rfl, rfl⟩ := hr
      exact Or.inl ⟨by simp, hp⟩
  | sys c k ih =>
      obtain ⟨r, tr', rfl, hr⟩ := hr
      simp only [List.mem_cons, forall_eq_or_imp] at hA
      obtain ⟨hbad, hgood⟩ := hp r hA.1
      by_cases hrefused : bad ⟨c, r⟩
      · obtain ⟨hcalls, hanswers⟩ := hbad hrefused
        refine Or.inr ⟨⟨[], _, tr', rfl, by simp, hrefused, hcalls.of_runs hr⟩, ?_⟩
        exact hanswers.of_runs hr
      · rcases ih r (hgood hrefused) hr hA.2 with ⟨hall, hQ⟩ | ⟨hstopped, hF⟩
        · refine Or.inl ⟨?_, hQ⟩
          simp only [List.mem_cons, forall_eq_or_imp]
          exact ⟨hrefused, hall⟩
        · exact Or.inr ⟨hstopped.cons hrefused, hF⟩

end FailStop

end Prog

end Effect
