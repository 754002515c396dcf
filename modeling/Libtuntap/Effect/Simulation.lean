import Libtuntap.Effect.Run

/-!
# Runs of one system seen as runs of another

A simulation relates the states of two systems so that every step of the first is
a step of the second between related states. What the second calls the step is
read off the first one's, with the states on both sides: a step that is one label
here may carry there what it did.

`Simulates.run` carries this over to runs. The labels of the two runs agree one
by one, so whatever is proved of the second system's labels holds of the first's.

`Run.register` is the theory of a value that some steps set and all others leave:
before every step it is what the last step that set it has set.
-/

universe u v w x y

namespace Effect

variable {σ : Type u} {L : Type v} {τ : Type w} {M : Type x}

/-- Every step of `step` is one of `abs`, under the label `lab` reads off it. -/
structure Simulates (step : σ → L → σ → Prop) (abs : τ → M → τ → Prop) (lab : σ × L × σ → M)
    (Rel : σ → τ → Prop) : Prop where
  step : ∀ {s l s' t}, step s l s' → Rel s t → ∃ t', abs t (lab (s, l, s')) t' ∧ Rel s' t'

/-- The labels of a run. -/
def labels (tr : List (τ × M × τ)) : List M := tr.map fun x => x.2.1

theorem Simulates.run {step : σ → L → σ → Prop} {abs : τ → M → τ → Prop} {lab : σ × L × σ → M}
    {Rel : σ → τ → Prop} (hsim : Simulates step abs lab Rel) {s s' : σ} {tr : List (σ × L × σ)}
    (hr : Run step s tr s') {t : τ} (hrel : Rel s t) :
    ∃ tr' t', Run abs t tr' t' ∧ labels tr' = tr.map lab ∧ Rel s' t' := by
  induction hr generalizing t with
  | nil s => exact ⟨[], t, .nil t, rfl, hrel⟩
  | cons hs _ ih =>
      obtain ⟨m, habs, hm⟩ := hsim.step hs hrel
      obtain ⟨tr', t', hr', hlabels, hend⟩ := ih hm
      exact ⟨_, t', .cons habs hr', congrArg (_ :: ·) hlabels, hend⟩

namespace Run

variable {abs : τ → M → τ → Prop} {t t' : τ} {tr : List (τ × M × τ)}

/-- A run of good steps is a run of the system that has no others. -/
theorem restrict {good : τ × M × τ → Prop} (hr : Run abs t tr t') (h : ∀ x ∈ tr, good x) :
    Run (fun s m s' => abs s m s' ∧ good (s, m, s')) t tr t' := by
  induction hr with
  | nil t => exact .nil t
  | cons hs _ ih =>
      simp only [List.mem_cons, forall_eq_or_imp] at h
      exact .cons ⟨hs, h.1⟩ (ih h.2)

theorem labels_cons {x : τ × M × τ} : labels (x :: tr) = x.2.1 :: labels tr := rfl

/-- A run up to one of its steps, that step, and the rest. -/
theorem split {pre post : List M} {m : M} (hr : Run abs t tr t')
    (h : labels tr = pre ++ m :: post) :
    ∃ tr₁ s s' tr₂, Run abs t tr₁ s ∧ abs s m s' ∧ Run abs s' tr₂ t' ∧ labels tr₁ = pre ∧
      labels tr₂ = post := by
  induction hr generalizing pre with
  | nil t => simp [labels] at h
  | @cons t s t' l tr hs hr ih =>
      rw [labels_cons] at h
      cases pre with
      | nil =>
          obtain ⟨rfl, hpost⟩ := List.cons.inj h
          exact ⟨[], t, s, tr, .nil t, hs, hr, rfl, hpost⟩
      | cons m' pre =>
          obtain ⟨rfl, hrest⟩ := List.cons.inj h
          obtain ⟨tr₁, a, b, tr₂, hr₁, hab, hr₂, hpre, hpost⟩ := ih hrest
          exact ⟨(t, l, s) :: tr₁, a, b, tr₂, .cons hs hr₁, hab, hr₂,
            congrArg (l :: ·) hpre, hpost⟩

variable {α : Type y}

/-- What a value is after steps that each may set it. -/
def last (sets : M → Option α) (a : α) (ms : List M) : α :=
  ms.foldl (fun a m => (sets m).getD a) a

/-- What each step sets or leaves fits the state as what the last one set. -/
theorem register_fits (fits : α → τ → Prop) {sets : M → Option α} (hr : Run abs t tr t') {a : α}
    (h0 : fits a t) (hstep : ∀ a s m s', abs s m s' → fits a s → fits ((sets m).getD a) s') :
    fits (last sets a (labels tr)) t' := by
  induction hr generalizing a with
  | nil t => exact h0
  | cons hs _ ih => exact ih (hstep a _ _ _ hs h0)

/-- A value that each step sets or leaves is what the last one set. -/
theorem register {value : τ → α} {sets : M → Option α} (hr : Run abs t tr t')
    (hstep : ∀ s m s', abs s m s' → value s' = (sets m).getD (value s)) :
    value t' = last sets (value t) (labels tr) := by
  induction hr with
  | nil t => rfl
  | cons hs _ ih => rw [ih, hstep _ _ _ hs, labels_cons, last, last, List.foldl_cons]

end Run

end Effect
