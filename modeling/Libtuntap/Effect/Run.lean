import Mathlib.Data.List.Basic

/-!
# Runs of a labelled system

A run is kept as the list of its steps, so that "in every step" and "in every
state reached" are both statements about one list.

`Run.invariant` is the usual induction. `Run.inv_iff` is its exact form, for a
system in which an invariant can be lost: when every step from a state of the
invariant lands in it precisely if the step is good, a run stays inside the
invariant precisely if all its steps are good. One direction alone would leave
open whether the steps excluded had to be.
-/

universe u v

namespace Effect

variable {σ : Type u} {L : Type v}

/-- The steps of a run, each as the state before, the label and the state
after. -/
inductive Run (step : σ → L → σ → Prop) : σ → List (σ × L × σ) → σ → Prop where
  | nil (s : σ) : Run step s [] s
  | cons {s m s' : σ} {l : L} {tr : List (σ × L × σ)} :
      step s l m → Run step m tr s' → Run step s ((s, l, m) :: tr) s'

namespace Run

variable {step : σ → L → σ → Prop}

/-- Every recorded step is a step of the system. -/
theorem step_of_mem {s s' : σ} {tr : List (σ × L × σ)} (h : Run step s tr s') :
    ∀ x ∈ tr, step x.1 x.2.1 x.2.2 := by
  induction h with
  | nil s => simp
  | cons hs _ ih =>
      simp only [List.mem_cons, forall_eq_or_imp]
      exact ⟨hs, ih⟩

/-- What every step preserves holds before and after every step of a run, and
at its end. -/
theorem invariant {I : σ → Prop} {s s' : σ} {tr : List (σ × L × σ)}
    (h : Run step s tr s') (h0 : I s)
    (hstep : ∀ x ∈ tr, step x.1 x.2.1 x.2.2 → I x.1 → I x.2.2) :
    I s' ∧ ∀ x ∈ tr, I x.1 ∧ I x.2.2 := by
  induction h with
  | nil s => exact ⟨h0, by simp⟩
  | cons hs _ ih =>
      have hm := hstep (_, _, _) (List.mem_cons_self ..) hs h0
      obtain ⟨hend, hall⟩ := ih hm fun x hx => hstep x (List.mem_cons_of_mem _ hx)
      refine ⟨hend, ?_⟩
      simp only [List.mem_cons, forall_eq_or_imp]
      exact ⟨⟨h0, hm⟩, hall⟩

/-- The exact condition for a run to stay inside an invariant. -/
theorem inv_iff {I : σ → Prop} {G : σ → L → σ → Prop} {s s' : σ}
    {tr : List (σ × L × σ)} (h : Run step s tr s') (h0 : I s)
    (hstep : ∀ {s l m}, step s l m → I s → (I m ↔ G s l m)) :
    (∀ x ∈ tr, I x.2.2) ↔ ∀ x ∈ tr, G x.1 x.2.1 x.2.2 := by
  induction h with
  | nil s => simp
  | cons hs _ ih =>
      simp only [List.mem_cons, forall_eq_or_imp]
      constructor
      · rintro ⟨hm, hall⟩
        exact ⟨(hstep hs h0).mp hm, (ih hm).mp hall⟩
      · rintro ⟨hg, hall⟩
        have hm := (hstep hs h0).mpr hg
        exact ⟨hm, (ih hm).mpr hall⟩

end Run

/-- Some run from `s` meets a step of the given kind. -/
def Meets (step : σ → L → σ → Prop) (bad : σ × L × σ → Prop) (s : σ) : Prop :=
  ∃ tr s', Run step s tr s' ∧ ∃ x ∈ tr, bad x

section Meets

variable {step : σ → L → σ → Prop} {bad : σ × L × σ → Prop}

theorem Meets.now {s m : σ} {l : L} (hs : step s l m) (hbad : bad (s, l, m)) :
    Meets step bad s :=
  ⟨_, m, .cons hs (.nil m), _, List.mem_cons_self .., hbad⟩

theorem Meets.later {s m : σ} {l : L} (hs : step s l m) (hm : Meets step bad m) :
    Meets step bad s := by
  obtain ⟨tr, s', hr, x, hx, hbad⟩ := hm
  exact ⟨_, s', .cons hs hr, x, List.mem_cons_of_mem _ hx, hbad⟩

end Meets

end Effect
