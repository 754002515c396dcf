import Mathlib.Algebra.Ring.Nat

/-!
# One's-complement sums

Numbers from 0 to `N` are added with the carry brought round to the low end.
What is `N + 1` elsewhere is 1 here, so the sum keeps its residue modulo `N`, and
it is never 0 once something has been added. These two facts fix it: the sum of
some words is the plain sum, brought back into the range from 1 to `N`. In that
range a residue has one representative, which is how a sum that was kept with
wider words, or with words of another sign, is compared with it.
-/

namespace OnesComplement

/-- Addition with the carry brought round. -/
def add (N x y : Nat) : Nat := if x + y ≤ N then x + y else x + y - N

/-- The sum of some words. -/
def sum (N : Nat) (words : List Nat) : Nat := words.foldl (add N) 0

/-- A plain sum, brought back into range. -/
def fold (N u : Nat) : Nat := if u = 0 then 0 else (u - 1) % N + 1

section

variable {N c k u x : Nat}

/-- The representative from 1 to `N`. -/
theorem fold_eq (hc : 0 < c) (hN : c ≤ N) (hu : u = k * N + c) : fold N u = c := by
  have hpos : u - 1 = c - 1 + k * N := by omega
  unfold fold
  rw [if_neg (by omega), hpos, Nat.add_mul_mod_self_right, Nat.mod_eq_of_lt (by omega)]
  omega

theorem fold_spec (hN : 0 < N) (hu : 0 < u) :
    0 < fold N u ∧ fold N u ≤ N ∧ u = (u - 1) / N * N + fold N u := by
  have hmod := Nat.mod_lt (u - 1) hN
  have hdiv := Nat.div_add_mod (u - 1) N
  rw [Nat.mul_comm] at hdiv
  unfold fold
  rw [if_neg (by omega)]
  omega

theorem fold_of_le (h : u ≤ N) : fold N u = u := by
  by_cases hu : u = 0
  · unfold fold
    rw [if_pos hu, hu]
  · exact fold_eq (k := 0) (by omega) h (by omega)

/-- What one addition does to the plain sum. -/
theorem add_fold (hN : 0 < N) (hx : x ≤ N) : add N (fold N u) x = fold N (u + x) := by
  by_cases hu : u = 0
  · rw [hu, Nat.zero_add, fold_of_le hx, fold_of_le (Nat.zero_le N)]
    unfold add
    rw [if_pos (by omega), Nat.zero_add]
  · obtain ⟨hpos, hle, heq⟩ := fold_spec hN (Nat.pos_of_ne_zero hu)
    unfold add
    by_cases hcarry : fold N u + x ≤ N
    · rw [if_pos hcarry]
      exact (fold_eq (k := (u - 1) / N) (by omega) hcarry (by omega)).symm
    · have hround : ((u - 1) / N + 1) * N = (u - 1) / N * N + N := Nat.succ_mul ..
      rw [if_neg hcarry]
      exact (fold_eq (k := (u - 1) / N + 1) (by omega) (by omega) (by omega)).symm

theorem foldl_add (hN : 0 < N) (words : List Nat) (h : ∀ w ∈ words, w ≤ N) (u : Nat) :
    words.foldl (add N) (fold N u) = fold N (u + words.sum) := by
  induction words generalizing u with
  | nil => rfl
  | cons w words ih =>
      rw [List.forall_mem_cons] at h
      rw [List.foldl_cons, add_fold hN h.1, ih h.2, List.sum_cons, Nat.add_assoc]

/-- The sum of some words is their plain sum, brought back into range. -/
theorem sum_eq_fold (hN : 0 < N) {words : List Nat} (h : ∀ w ∈ words, w ≤ N) :
    sum N words = fold N words.sum := by
  have hfold := foldl_add hN words h 0
  rw [fold_of_le (Nat.zero_le N), Nat.zero_add] at hfold
  exact hfold

theorem fold_le (hN : 0 < N) (u : Nat) : fold N u ≤ N := by
  by_cases hu : u = 0
  · rw [hu, fold_of_le (Nat.zero_le N)]
    omega
  · exact (fold_spec hN (Nat.pos_of_ne_zero hu)).2.1

end

end OnesComplement
