import Mathlib.Logic.Relation
import Libtuntap.Effect.Wp

/-!
# Kernels that move on their own

Between two calls of a program its environment may take steps of its own: a
device finishes a transfer, another process sends. `K.interleaved D` is the
kernel `K` with any number of steps of `D` before each call. The steps after the
last call, up to the return, are no part of a trace, so a run of a program ends
with a trace and a last stretch of `D`.

What `D` does not disturb holds across a stretch of it.
-/

universe u v w

namespace Effect

variable {C : Type u} {R : C → Type v} {σ : Type w} {α : Type v}

/-- The kernel, with steps of the environment before each call. -/
def Kernel.interleaved (D : σ → σ → Prop) (K : Kernel C R σ) : Kernel C R σ := fun s c r s' =>
  ∃ m, Relation.ReflTransGen D s m ∧ K m c r s'

/-- The program runs to its answer, and the environment moves on until it
returns. -/
def Prog.RunsAmid (D : σ → σ → Prop) (K : Kernel C R σ) (p : Prog C R α) (s : σ)
    (a : α) (s' : σ) : Prop :=
  ∃ tr m, p.Runs tr a ∧ (K.interleaved D).Steps s tr m ∧ Relation.ReflTransGen D m s'

section Interleaved

variable {D : σ → σ → Prop} {K : Kernel C R σ} {J : σ → Prop} {s s' : σ}

/-- What no step disturbs holds at the end of a stretch. -/
theorem stable_of_steps (hD : ∀ s s', D s s' → J s → J s')
    (h : Relation.ReflTransGen D s s') (hJ : J s) : J s' := by
  induction h with
  | refl => exact hJ
  | tail _ hstep ih => exact hD _ _ hstep ih

theorem Prog.RunsAmid.of_wp {Q : α → σ → Prop} {p : Prog C R α} {a : α}
    (h : p.RunsAmid D K s a s') (hp : p.Wp (K.interleaved D) Q s)
    (hQ : ∀ m, Q a m → ∀ m', D m m' → Q a m') : Q a s' := by
  obtain ⟨tr, m, hr, hs, hret⟩ := h
  exact stable_of_steps (fun m m' hstep hm => hQ m hm m' hstep) hret (hp.of_runs hr hs)

end Interleaved

end Effect
