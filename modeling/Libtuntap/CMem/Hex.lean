import Libtuntap.CMem.Decimal

/-!
# Hexadecimal text

`%x` and `%X` with a precision, and the reader that takes the digits back. What
is read from a text never comes to more than its digits allow, so a number whose
digits were cut is not the number that is read. That one bound serves a label, a
checksum and whatever else is printed through a width that is too small for it.
-/

namespace CMem

/-- The value of a hexadecimal digit. -/
def hexValue (b : UInt8) : Option Nat :=
  if 48 ≤ b ∧ b ≤ 57 then some (b.toNat - 48)
  else if 65 ≤ b ∧ b ≤ 70 then some (b.toNat - 55)
  else if 97 ≤ b ∧ b ≤ 102 then some (b.toNat - 87)
  else none

/-- The number a text of digits continues. -/
def readHexFrom : Nat → List UInt8 → Option Nat
  | acc, [] => some acc
  | acc, b :: rest =>
      (hexValue b).bind fun d => readHexFrom (16 * acc + d) rest

/-- The number a text is, when all of it are digits. -/
def readHex (text : List UInt8) : Option Nat := readHexFrom 0 text

/-- The digits of a number, at least `prec` of them. -/
def hexDigits (prec n : Nat) : List Char := List.leftpad prec '0' (Nat.toDigits 16 n)

namespace CString

/-- `%.{prec}x`, and `%0{prec}x`. -/
def hex (prec n : Nat) : CString := ofChars (hexDigits prec n)

/-- `%.{prec}X`, and `%0{prec}X`. -/
def hexUpper (prec n : Nat) : CString := ofChars ((hexDigits prec n).map Char.toUpper)

end CString

/-! ## One digit -/

section Digit

variable {d : Nat}

theorem hexValue_digitChar (h : d < 16) : hexValue d.digitChar.toUInt8 = some d := by
  have hall : ∀ d < 16, hexValue (Nat.digitChar d).toUInt8 = some d := by decide
  exact hall d h

theorem hexValue_digitChar_upper (h : d < 16) :
    hexValue d.digitChar.toUpper.toUInt8 = some d := by
  have hall : ∀ d < 16, hexValue (Nat.digitChar d).toUpper.toUInt8 = some d := by decide
  exact hall d h

theorem hexValue_lt {b : UInt8} (h : hexValue b = some d) : d < 16 := by
  unfold hexValue at h
  have hle : ∀ {m : UInt8}, b ≤ m → b.toNat ≤ m.toNat := fun h => h
  split at h
  · next hb =>
      have hd := Option.some.inj h
      have := hle hb.2
      have h57 : (57 : UInt8).toNat = 57 := rfl
      omega
  · split at h
    · next hb =>
        have hd := Option.some.inj h
        have := hle hb.2
        have h70 : (70 : UInt8).toNat = 70 := rfl
        omega
    · split at h
      · next hb =>
          have hd := Option.some.inj h
          have := hle hb.2
          have h102 : (102 : UInt8).toNat = 102 := rfl
          omega
      · cases h

/-- The zero byte is no digit, so digits are a string. -/
theorem ne_zero_of_hexValue {b : UInt8} (h : hexValue b ≠ none) : b ≠ 0 := by
  rintro rfl
  exact h rfl

end Digit

/-! ## Reading -/

section Read

variable {acc n v : Nat} {l l' : List UInt8}

theorem readHexFrom_append (acc : Nat) (l l' : List UInt8) :
    readHexFrom acc (l ++ l') = (readHexFrom acc l).bind fun v => readHexFrom v l' := by
  induction l generalizing acc with
  | nil => rfl
  | cons b l ih =>
      simp only [List.cons_append, readHexFrom, ih, Option.bind_assoc]

/-- A text of `k` digits comes to less than `16 ^ k`. -/
theorem readHexFrom_lt (h : readHexFrom acc l = some v) : v < (acc + 1) * 16 ^ l.length := by
  induction l generalizing acc with
  | nil =>
      have hv : acc = v := Option.some.inj h
      simp only [List.length_nil]
      omega
  | cons b l ih =>
      obtain ⟨d, hb, h⟩ := Option.bind_eq_some_iff.mp h
      have hd := hexValue_lt hb
      have hlt := ih h
      have hle : (16 * acc + d + 1) * 16 ^ l.length ≤ (acc + 1) * 16 * 16 ^ l.length :=
        Nat.mul_le_mul_right _ (by omega)
      rw [List.length_cons, Nat.pow_succ', ← Nat.mul_assoc]
      omega

theorem readHex_lt (h : readHex l = some v) : v < 16 ^ l.length := by
  have hlt := readHexFrom_lt h
  omega

/-- Zeros in front are no part of the number. -/
theorem readHexFrom_zeros (k : Nat) (l : List UInt8) :
    readHexFrom 0 (List.replicate k 48 ++ l) = readHexFrom 0 l := by
  induction k with
  | zero => rfl
  | succ k ih => exact ih

end Read

/-! ## Printing and reading back -/

section Digits

theorem toDigits_hex_ge {n : Nat} (h : 16 ≤ n) :
    Nat.toDigits 16 n = Nat.toDigits 16 (n / 16) ++ [(n % 16).digitChar] := by
  exact Nat.toDigits_of_base_le (by decide) h

/-- Every digit of a number is one. -/
theorem hexValue_of_mem_toDigits {n : Nat} {c : Char} (hc : c ∈ Nat.toDigits 16 n) :
    ∃ d < 16, c = d.digitChar := by
  induction n using Nat.strongRecOn with
  | ind n ih =>
      by_cases h : n < 16
      · rw [Nat.toDigits_of_lt_base h, List.mem_singleton] at hc
        exact ⟨n, h, hc⟩
      · rw [toDigits_hex_ge (by omega), List.mem_append, List.mem_singleton] at hc
        rcases hc with hc | rfl
        · exact ih (n / 16) (by omega) hc
        · exact ⟨n % 16, Nat.mod_lt _ (by decide), rfl⟩

theorem readHex_toDigits (n : Nat) :
    readHex ((Nat.toDigits 16 n).map Char.toUInt8) = some n := by
  induction n using Nat.strongRecOn with
  | ind n ih =>
      unfold readHex
      by_cases h : n < 16
      · rw [Nat.toDigits_of_lt_base h, List.map_singleton]
        simp [readHexFrom, hexValue_digitChar h]
      · have hmod : n % 16 < 16 := Nat.mod_lt _ (by decide)
        have hread := ih (n / 16) (by omega)
        unfold readHex at hread
        rw [toDigits_hex_ge (by omega), List.map_append, readHexFrom_append, hread]
        simp only [Option.bind_some, List.map_cons, List.map_nil, readHexFrom,
          hexValue_digitChar hmod, Option.some.injEq]
        omega

theorem mem_hexDigits {prec n : Nat} {c : Char} (hc : c ∈ hexDigits prec n) :
    ∃ d < 16, c = d.digitChar := by
  unfold hexDigits List.leftpad at hc
  rcases List.mem_append.mp hc with hc | hc
  · exact ⟨0, by decide, List.eq_of_mem_replicate hc⟩
  · exact hexValue_of_mem_toDigits hc

theorem bytes_hex (prec n : Nat) :
    (CString.hex prec n).bytes = (hexDigits prec n).map Char.toUInt8 := by
  refine CString.bytes_ofChars fun c hc => ?_
  obtain ⟨d, hd, rfl⟩ := mem_hexDigits hc
  refine ne_zero_of_hexValue ?_
  rw [hexValue_digitChar hd]
  exact Option.some_ne_none d

/-- What is printed is read back. -/
theorem readHex_hex (prec n : Nat) : readHex (CString.hex prec n).bytes = some n := by
  rw [bytes_hex]
  unfold hexDigits List.leftpad
  rw [List.map_append, List.map_replicate]
  exact (readHexFrom_zeros _ _).trans (readHex_toDigits n)

theorem length_toDigits_hex_le {k n : Nat} (hk : 0 < k) :
    (Nat.toDigits 16 n).length ≤ k ↔ n < 16 ^ k :=
  Nat.length_toDigits_le_iff (by decide) hk

theorem strlen_hex (prec n : Nat) :
    (CString.hex prec n).strlen = max prec (Nat.toDigits 16 n).length := by
  unfold CString.strlen
  rw [bytes_hex, List.length_map]
  unfold hexDigits
  exact List.length_leftpad ..

/-- A number is read back from its first digits only when these are all. -/
theorem readHex_take_hex_iff {prec n k : Nat} (hprec : prec ≤ k) (hk : 0 < k) :
    readHex ((CString.hex prec n).take k).bytes = some n ↔ n < 16 ^ k := by
  constructor
  · intro h
    have hlt := readHex_lt h
    have hlen : ((CString.hex prec n).take k).bytes.length ≤ k := CString.strlen_take_le _ _
    exact Nat.lt_of_lt_of_le hlt (Nat.pow_le_pow_right (by decide) hlen)
  · intro h
    have hlen := (length_toDigits_hex_le hk).mpr h
    have hfits : (CString.hex prec n).strlen ≤ k := by
      rw [strlen_hex]
      omega
    rw [CString.take_of_strlen_le hfits, readHex_hex]

end Digits

/-! ## Bytes -/

section Bytes

/-- The two digits of a byte. -/
theorem hexDigits_byte (b : UInt8) :
    hexDigits 2 b.toNat = [(b.toNat / 16).digitChar, (b.toNat % 16).digitChar] := by
  have hb := b.toNat_lt
  unfold hexDigits
  by_cases h : b.toNat < 16
  · rw [Nat.toDigits_of_lt_base h, Nat.div_eq_of_lt h, Nat.mod_eq_of_lt h]
    rfl
  · rw [toDigits_hex_ge (by omega), Nat.toDigits_of_lt_base (by omega)]
    rfl

theorem bytes_hexUpper_byte (b : UInt8) :
    (CString.hexUpper 2 b.toNat).bytes = [(b.toNat / 16).digitChar.toUpper.toUInt8,
      (b.toNat % 16).digitChar.toUpper.toUInt8] := by
  have hb := b.toNat_lt
  unfold CString.hexUpper
  rw [hexDigits_byte]
  refine CString.bytes_ofChars fun c hc => ne_zero_of_hexValue ?_
  simp only [List.map_cons, List.map_nil, List.mem_cons, List.not_mem_nil, or_false] at hc
  rcases hc with rfl | rfl
  · rw [hexValue_digitChar_upper (by omega)]
    exact Option.some_ne_none _
  · rw [hexValue_digitChar_upper (by omega)]
    exact Option.some_ne_none _

theorem readHex_hexUpper_byte (b : UInt8) :
    readHex (CString.hexUpper 2 b.toNat).bytes = some b.toNat := by
  have hb := b.toNat_lt
  rw [bytes_hexUpper_byte]
  simp only [readHex, readHexFrom, hexValue_digitChar_upper (show b.toNat / 16 < 16 by omega),
    hexValue_digitChar_upper (show b.toNat % 16 < 16 by omega), Option.bind_some,
    Option.some.injEq]
  omega

end Bytes

end CMem
