import Libtuntap.CMem.CString

/-!
# Numbers in strings

`%i` of a unit, as the names of interfaces and device nodes carry it. Two units
never give the same name, and the names of units stay short, which is what a
fixed-width field needs to hold one whole.
-/

namespace CMem.CString

theorem toNat_of_isDigit {c : Char} (h : c.isDigit) : 48 ≤ c.toNat ∧ c.toNat ≤ 57 := by
  simp only [Char.isDigit, Bool.and_eq_true, decide_eq_true_eq] at h
  exact ⟨h.1, h.2⟩

/-- A digit is one byte, and not the terminator. -/
theorem toNat_toUInt8_of_isDigit {c : Char} (h : c.isDigit) : c.toUInt8.toNat = c.toNat := by
  have hle := (toNat_of_isDigit h).2
  show c.val.toUInt8.toNat = c.toNat
  rw [UInt32.toNat_toUInt8]
  exact Nat.mod_eq_of_lt (show c.toNat < 2 ^ 8 by omega)

theorem toUInt8_ne_zero_of_isDigit {c : Char} (h : c.isDigit) : c.toUInt8 ≠ 0 := by
  intro h0
  have hn := toNat_toUInt8_of_isDigit h
  rw [h0] at hn
  have hge := (toNat_of_isDigit h).1
  rw [← hn] at hge
  exact absurd hge (by decide)

/-- Characters of one byte that are not the terminator are all in the string. -/
theorem bytes_ofChars {l : List Char} (h : ∀ c ∈ l, c.toUInt8 ≠ 0) :
    (ofChars l).bytes = l.map Char.toUInt8 := by
  show (l.map Char.toUInt8).takeWhile (· != 0) = _
  refine List.takeWhile_eq_self_iff.mpr fun b hb => ?_
  obtain ⟨c, hc, rfl⟩ := List.mem_map.mp hb
  simpa using h c hc

theorem isDigit_toDigits {n : Nat} {c : Char} (hc : c ∈ Nat.toDigits 10 n) : c.isDigit :=
  Nat.isDigit_of_mem_toDigits (by decide) (by decide) hc

theorem bytes_int (n : Nat) : (int n).bytes = (Nat.toDigits 10 n).map Char.toUInt8 := by
  unfold int
  rw [if_neg (by omega), Int.natAbs_natCast]
  exact bytes_ofChars fun c hc => toUInt8_ne_zero_of_isDigit (isDigit_toDigits hc)

/-- Digits are told apart by their bytes. -/
theorem map_toUInt8_inj {l l' : List Char} (hl : ∀ c ∈ l, c.isDigit) (hl' : ∀ c ∈ l', c.isDigit)
    (h : l.map Char.toUInt8 = l'.map Char.toUInt8) : l = l' := by
  induction l generalizing l' with
  | nil => exact (List.map_eq_nil_iff.mp h.symm).symm
  | cons c l ih =>
      cases l' with
      | nil => cases h
      | cons c' l' =>
          simp only [List.mem_cons, forall_eq_or_imp] at hl hl'
          obtain ⟨hhead, htail⟩ := List.cons.inj h
          have hnat := congrArg UInt8.toNat hhead
          rw [toNat_toUInt8_of_isDigit hl.1, toNat_toUInt8_of_isDigit hl'.1] at hnat
          rw [Char.toNat_inj.mp hnat, ih hl.2 hl'.2 htail]

theorem int_inj {m n : Nat} (h : int m = int n) : m = n := by
  have hbytes : (Nat.toDigits 10 m).map Char.toUInt8 = (Nat.toDigits 10 n).map Char.toUInt8 := by
    rw [← bytes_int, ← bytes_int, h]
  have hdigits := map_toUInt8_inj (fun _ => isDigit_toDigits) (fun _ => isDigit_toDigits) hbytes
  have hparsed := congrArg (fun l => Nat.ofDigitChars 10 l 0) hdigits
  simpa using hparsed

/-- A number below a power of ten has no more digits than the power. -/
theorem strlen_int_le {n k : Nat} (hk : 0 < k) (h : n < 10 ^ k) : (int n).strlen ≤ k := by
  unfold strlen
  rw [bytes_int, List.length_map]
  exact (Nat.length_toDigits_le_iff (by decide) hk).mpr h

/-- What follows a common start. -/
theorem append_left_cancel {s t u : CString} (h : s ++ t = s ++ u) : t = u :=
  ext (List.append_cancel_left (congrArg bytes h))

theorem strlen_append (s t : CString) : (s ++ t).strlen = s.strlen + t.strlen :=
  List.length_append ..

/-- A number is written with a digit at least. -/
theorem strlen_int_pos (n : Int) : 0 < (int n).strlen := by
  unfold strlen int
  split
  next =>
    have hsign : ('-'.toUInt8 != 0) = true := rfl
    simp only [ofChars, ofBytes, List.map_cons, List.takeWhile_cons, hsign]
    exact Nat.succ_pos _
  next hneg =>
    obtain ⟨m, rfl⟩ := Int.eq_ofNat_of_zero_le (Int.not_lt.mp hneg)
    have hbytes := bytes_int m
    unfold int at hbytes
    rw [if_neg hneg] at hbytes
    rw [hbytes, List.length_map]
    exact List.length_pos_iff.mpr Nat.toDigits_ne_nil

end CMem.CString
