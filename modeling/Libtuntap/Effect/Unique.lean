import Libtuntap.Effect.Simulation
import Mathlib.Logic.Function.Basic

/-!
# Sole owners

Things that have to be disposed of once, and owners of which each holds at most
one. A thing is acquired, handed from one owner to another, disposed of by its
owner, or given up, and then nobody holds it any more although it lives on.

`Owners` carries as fields that no thing has two owners and that no owner holds
a thing that is gone, so an operation is a function that has to restore both.
What is left to say of a run is where the orphans come from, and `orphan_run`
says it: precisely from giving up.
-/

universe u v

namespace Effect

/-- Who holds what, and what is alive. -/
structure Owners (ι : Type u) (N : Type v) where
  hold : ι → Option N
  live : N → Prop
  sole : ∀ i j n, hold i = some n → hold j = some n → i = j
  alive : ∀ i n, hold i = some n → live n

namespace Owners

variable {ι : Type u} {N : Type v}

@[ext] theorem ext {o o' : Owners ι N} (hhold : o.hold = o'.hold) (hlive : o.live = o'.live) :
    o = o' := by
  cases o
  cases o'
  subst hhold
  subst hlive
  rfl

/-- Nobody holds anything. -/
def unheld (live : N → Prop) : Owners ι N where
  hold _ := none
  live := live
  sole _ _ _ h := by cases h
  alive _ _ h := by cases h

/-- Alive, and held by nobody. -/
def Orphan (o : Owners ι N) (n : N) : Prop := o.live n ∧ ∀ i, o.hold i ≠ some n

theorem orphan_unheld {live : N → Prop} {n : N} :
    (unheld live : Owners ι N).Orphan n ↔ live n := by
  simp [Orphan, unheld]

variable [DecidableEq ι]

/-- What an owner holds once one of them holds something else. -/
theorem update_eq_some {hold : ι → Option N} {i j : ι} {v : Option N} {n : N} :
    Function.update hold i v j = some n ↔ j = i ∧ v = some n ∨ j ≠ i ∧ hold j = some n := by
  by_cases hj : j = i
  · simp [hj]
  · simp [hj]

theorem update_none_eq_some {hold : ι → Option N} {i j : ι} {n : N} :
    Function.update hold i none j = some n ↔ j ≠ i ∧ hold j = some n := by
  simp [update_eq_some]

/-- A thing that was not alive gets its first owner. -/
def acquire (o : Owners ι N) (i : ι) (n : N) (hn : ¬ o.live n) : Owners ι N where
  hold := Function.update o.hold i (some n)
  live m := m = n ∨ o.live m
  sole a b m ha hb := by
    have hheld : ∀ {j m}, o.hold j = some m → n ≠ m :=
      fun h heq => hn (heq ▸ o.alive _ _ h)
    simp only [update_eq_some, Option.some.injEq] at ha hb
    rcases ha with ⟨hai, ha⟩ | ⟨-, ha⟩ <;> rcases hb with ⟨hbi, hb⟩ | ⟨-, hb⟩
    · rw [hai, hbi]
    · exact absurd ha (hheld hb)
    · exact absurd hb (hheld ha)
    · exact o.sole a b m ha hb
  alive a m ha := by
    simp only [update_eq_some, Option.some.injEq] at ha
    rcases ha with ⟨-, ha⟩ | ⟨-, ha⟩
    · exact Or.inl ha.symm
    · exact Or.inr (o.alive a m ha)

/-- An owner disposes of what it holds. -/
def dispose (o : Owners ι N) (i : ι) : Owners ι N where
  hold := Function.update o.hold i none
  live m := o.live m ∧ o.hold i ≠ some m
  sole a b m ha hb :=
    o.sole a b m (update_none_eq_some.mp ha).2 (update_none_eq_some.mp hb).2
  alive a m ha := by
    obtain ⟨hai, ha⟩ := update_none_eq_some.mp ha
    exact ⟨o.alive a m ha, fun hi => hai (o.sole a i m ha hi)⟩

/-- An owner lets go of what it holds. -/
def giveUp (o : Owners ι N) (i : ι) : Owners ι N where
  hold := Function.update o.hold i none
  live := o.live
  sole a b m ha hb :=
    o.sole a b m (update_none_eq_some.mp ha).2 (update_none_eq_some.mp hb).2
  alive a m ha := o.alive a m (update_none_eq_some.mp ha).2

theorem update_update_eq_some {hold : ι → Option N} {i j k : ι} {v : Option N} {n : N} :
    Function.update (Function.update hold i none) j v k = some n ↔
      k = j ∧ v = some n ∨ k ≠ j ∧ k ≠ i ∧ hold k = some n := by
  rw [update_eq_some, update_none_eq_some]

/-- What `i` holds goes to `j`, who held nothing. -/
def transfer (o : Owners ι N) (i j : ι) : Owners ι N where
  hold := Function.update (Function.update o.hold i none) j (o.hold i)
  live := o.live
  sole a b m ha hb := by
    simp only [update_update_eq_some] at ha hb
    rcases ha with ⟨haj, ha⟩ | ⟨-, hai, ha⟩ <;> rcases hb with ⟨hbj, hb⟩ | ⟨-, hbi, hb⟩
    · rw [haj, hbj]
    · exact absurd (o.sole b i m hb ha) hbi
    · exact absurd (o.sole a i m ha hb) hai
    · exact o.sole a b m ha hb
  alive a m ha := by
    simp only [update_update_eq_some] at ha
    rcases ha with ⟨-, ha⟩ | ⟨-, -, ha⟩
    · exact o.alive i m ha
    · exact o.alive a m ha

section Fields

variable {o : Owners ι N} {i j : ι} {n m : N}

@[simp] theorem hold_acquire (hn : ¬ o.live n) :
    (o.acquire i n hn).hold = Function.update o.hold i (some n) := rfl

@[simp] theorem live_acquire (hn : ¬ o.live n) :
    (o.acquire i n hn).live m ↔ m = n ∨ o.live m := Iff.rfl

@[simp] theorem hold_dispose : (o.dispose i).hold = Function.update o.hold i none := rfl

@[simp] theorem live_dispose : (o.dispose i).live m ↔ o.live m ∧ o.hold i ≠ some m := Iff.rfl

@[simp] theorem hold_giveUp : (o.giveUp i).hold = Function.update o.hold i none := rfl

@[simp] theorem live_giveUp : (o.giveUp i).live = o.live := rfl

@[simp] theorem hold_transfer : (o.transfer i j).hold =
    Function.update (Function.update o.hold i none) j (o.hold i) := rfl

@[simp] theorem live_transfer : (o.transfer i j).live = o.live := rfl

end Fields

/-! ## Orphans -/

section Orphan

variable {o : Owners ι N} {i j : ι} {n m : N}

theorem orphan_acquire (hi : o.hold i = none) (hn : ¬ o.live n) :
    (o.acquire i n hn).Orphan m ↔ o.Orphan m := by
  simp only [Orphan, live_acquire, hold_acquire, ne_eq, update_eq_some, Option.some.injEq]
  constructor
  · rintro ⟨hlive, hheld⟩
    have hmn : m ≠ n := fun h => hheld i (Or.inl ⟨rfl, h.symm⟩)
    refine ⟨hlive.resolve_left hmn, fun a ha => hheld a (Or.inr ⟨?_, ha⟩)⟩
    intro hai
    rw [hai, hi] at ha
    cases ha
  · rintro ⟨hlive, hheld⟩
    refine ⟨Or.inr hlive, fun a ha => ?_⟩
    rcases ha with ⟨-, rfl⟩ | ⟨-, ha⟩
    · exact hn hlive
    · exact hheld a ha

theorem orphan_dispose : (o.dispose i).Orphan m ↔ o.Orphan m := by
  simp only [Orphan, live_dispose, hold_dispose, ne_eq, update_none_eq_some]
  constructor
  · rintro ⟨⟨hlive, him⟩, hheld⟩
    exact ⟨hlive, fun a ha => hheld a ⟨fun hai => him (hai ▸ ha), ha⟩⟩
  · rintro ⟨hlive, hheld⟩
    exact ⟨⟨hlive, hheld i⟩, fun a ha => hheld a ha.2⟩

theorem orphan_giveUp : (o.giveUp i).Orphan m ↔ o.Orphan m ∨ o.hold i = some m := by
  simp only [Orphan, live_giveUp, hold_giveUp, ne_eq, update_none_eq_some]
  constructor
  · rintro ⟨hlive, hheld⟩
    by_cases him : o.hold i = some m
    · exact Or.inr him
    · exact Or.inl ⟨hlive, fun a ha => hheld a ⟨fun hai => him (hai ▸ ha), ha⟩⟩
  · rintro (⟨hlive, hheld⟩ | him)
    · exact ⟨hlive, fun a ha => hheld a ha.2⟩
    · exact ⟨o.alive i m him, fun a ha => ha.1 (o.sole a i m ha.2 him)⟩

theorem orphan_transfer (hj : o.hold j = none) :
    (o.transfer i j).Orphan m ↔ o.Orphan m := by
  have hne : ∀ {a}, o.hold a = some m → a ≠ j := by
    intro a ha haj
    rw [haj, hj] at ha
    cases ha
  simp only [Orphan, live_transfer, hold_transfer, ne_eq, update_update_eq_some]
  constructor
  · rintro ⟨hlive, hheld⟩
    refine ⟨hlive, fun a ha => ?_⟩
    by_cases hai : a = i
    · exact hheld j (Or.inl ⟨rfl, hai ▸ ha⟩)
    · exact hheld a (Or.inr ⟨hne ha, hai, ha⟩)
  · rintro ⟨hlive, hheld⟩
    refine ⟨hlive, fun a ha => ?_⟩
    rcases ha with ⟨-, ha⟩ | ⟨-, -, ha⟩
    · exact hheld i ha
    · exact hheld a ha

end Orphan

/-! ## Runs -/

/-- What an owner does. What is given up is part of the act. -/
inductive Act (ι : Type u) (N : Type v) where
  | acquire (i : ι) (n : N)
  | dispose (i : ι)
  | giveUp (i : ι) (n : Option N)
  | transfer (i j : ι)
  | stay

inductive Step : Owners ι N → Act ι N → Owners ι N → Prop where
  | acquire {o : Owners ι N} {i : ι} {n : N} (hn : ¬ o.live n) : o.hold i = none →
      Step o (.acquire i n) (o.acquire i n hn)
  | dispose {o : Owners ι N} {i : ι} : Step o (.dispose i) (o.dispose i)
  | giveUp {o : Owners ι N} {i : ι} : Step o (.giveUp i (o.hold i)) (o.giveUp i)
  | transfer {o : Owners ι N} {i j : ι} : o.hold j = none →
      Step o (.transfer i j) (o.transfer i j)
  | stay {o : Owners ι N} : Step o .stay o

theorem orphan_step {o o' : Owners ι N} {a : Act ι N} (h : Step o a o') (n : N) :
    o'.Orphan n ↔ o.Orphan n ∨ ∃ i, a = .giveUp i (some n) := by
  cases h with
  | acquire hn hi => simp [orphan_acquire hi hn]
  | dispose => simp [orphan_dispose]
  | giveUp => simp [orphan_giveUp]
  | transfer hj => simp [orphan_transfer hj]
  | stay => simp

/-- The orphans at the end of a run are those of its start and what was given
up on the way. -/
theorem orphan_run {o o' : Owners ι N} {tr : List (Owners ι N × Act ι N × Owners ι N)}
    (h : Run Step o tr o') (n : N) :
    o'.Orphan n ↔ o.Orphan n ∨ ∃ i, .giveUp i (some n) ∈ labels tr := by
  induction h with
  | nil s => simp [labels]
  | cons hs _ ih =>
      rw [ih, orphan_step hs, or_assoc]
      simp only [Run.labels_cons, List.mem_cons, exists_or, eq_comm]

end Owners

end Effect
