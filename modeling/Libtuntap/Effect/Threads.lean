import Libtuntap.Effect.Trace
import Mathlib.Logic.Function.Basic

/-!
# Threads that share a kernel

A pool is a kernel with any number of threads on it. A thread is idle or inside
a call, and then what it still has to run is the rest of that call's program.
One step of the pool is one call to the kernel by one thread, or a thread
entering or leaving a call, or a step of the environment, so every order in
which the threads can overtake each other is a run.

What a thread holds of its own is a predicate on the rest of its program
(`Pool.Each`). It has to hold of a program that was not started yet and to
survive every reply, and nothing the other threads do can touch it.
-/

universe u v w x y

namespace Effect

/-- Threads, each with the call it is inside and the rest of its program, and
the kernel under them. -/
structure Pool (ι : Type x) (τ : Type y) (C : Type u) (R : C → Type v) (α : Type v)
    (σ : Type w) where
  thread : ι → Option (τ × Prog C R α)
  kern : σ

/-- What a step of a pool was. -/
inductive Move (ι : Type x) (τ : Type y) (C : Type u) (R : C → Type v) (α : Type v) where
  | enter (i : ι) (t : τ)
  | call (i : ι) (e : Event C R)
  | leave (i : ι) (a : α)
  | world

namespace Pool

variable {ι : Type x} {τ : Type y} {C : Type u} {R : C → Type v} {α : Type v} {σ : Type w}

/-- All threads idle. -/
def idle (k : σ) : Pool ι τ C R α σ := ⟨fun _ => none, k⟩

section Step

variable [DecidableEq ι]

/-- A thread is somewhere else. -/
def setThread (s : Pool ι τ C R α σ) (i : ι) (t : Option (τ × Prog C R α)) :
    Pool ι τ C R α σ :=
  { s with thread := Function.update s.thread i t }

@[simp] theorem thread_setThread (s : Pool ι τ C R α σ) (i : ι) (t : Option (τ × Prog C R α)) :
    (s.setThread i t).thread i = t := Function.update_self ..

theorem thread_setThread_of_ne {s : Pool ι τ C R α σ} {i j : ι} {t : Option (τ × Prog C R α)}
    (h : j ≠ i) : (s.setThread i t).thread j = s.thread j := Function.update_of_ne h ..

/-- One step of the threads, of which `prog t` is the program of the call `t`,
or of the environment. -/
inductive Step (prog : τ → Prog C R α) (K : Kernel C R σ) (D : σ → σ → Prop) :
    Pool ι τ C R α σ → Move ι τ C R α → Pool ι τ C R α σ → Prop where
  | enter {s : Pool ι τ C R α σ} {i : ι} {t : τ} : s.thread i = none →
      Step prog K D s (.enter i t) (s.setThread i (some (t, prog t)))
  | call {s : Pool ι τ C R α σ} {i : ι} {t : τ} {c : C} {r : R c} {p : R c → Prog C R α}
      {k : σ} : s.thread i = some (t, .sys c p) → K s.kern c r k →
      Step prog K D s (.call i ⟨c, r⟩) { s.setThread i (some (t, p r)) with kern := k }
  | leave {s : Pool ι τ C R α σ} {i : ι} {t : τ} {a : α} : s.thread i = some (t, .ret a) →
      Step prog K D s (.leave i a) (s.setThread i none)
  | world {s : Pool ι τ C R α σ} {k : σ} : D s.kern k →
      Step prog K D s .world { s with kern := k }

end Step

/-- The rest of every thread's program satisfies `P`. -/
def Each (P : τ → Prog C R α → Prop) (s : Pool ι τ C R α σ) : Prop :=
  ∀ i t p, s.thread i = some (t, p) → P t p

theorem each_idle (P : τ → Prog C R α → Prop) (k : σ) : (idle k : Pool ι τ C R α σ).Each P := by
  intro i t p h
  cases h

section Each

variable [DecidableEq ι] {P : τ → Prog C R α → Prop} {s s' : Pool ι τ C R α σ}

theorem Each.setThread {i : ι} {t : τ} {p : Prog C R α} (h : s.Each P) (hp : P t p) :
    (s.setThread i (some (t, p))).Each P := by
  intro j t' p' hj
  by_cases hji : j = i
  · subst hji
    rw [thread_setThread] at hj
    obtain ⟨rfl, rfl⟩ := Prod.mk.inj (Option.some.inj hj)
    exact hp
  · rw [thread_setThread_of_ne hji] at hj
    exact h j t' p' hj

theorem Each.setIdle {i : ι} (h : s.Each P) : (s.setThread i none).Each P := by
  intro j t p hj
  by_cases hji : j = i
  · subst hji
    rw [thread_setThread] at hj
    cases hj
  · rw [thread_setThread_of_ne hji] at hj
    exact h j t p hj

/-- What holds on entry and survives every reply holds of every thread. -/
theorem Each.step {prog : τ → Prog C R α} {K : Kernel C R σ} {D : σ → σ → Prop}
    {l : Move ι τ C R α} (hentry : ∀ t, P t (prog t))
    (hreply : ∀ t c k r, P t (.sys c k) → P t (k r)) (h : s.Each P)
    (hs : Step prog K D s l s') : s'.Each P := by
  cases hs with
  | enter _ => exact h.setThread (hentry _)
  | call hi _ => exact h.setThread (hreply _ _ _ _ (h _ _ _ hi))
  | leave _ => exact h.setIdle
  | world _ => exact h

end Each

end Pool

end Effect
