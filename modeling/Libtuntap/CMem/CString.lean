import Libtuntap.CMem.Buf
import Mathlib.Data.List.TakeWhile

/-!
# C strings

A string is the bytes before its terminator, so it contains no zero byte; the
structure carries that fact and nothing later has to prove it again. A block
of memory holds a string up to its first zero, or up to its end when it has
none, which is as far as any read of the block may go.

`Buf.cstr_eq` is the lemma everything else here rests on: a block holds `s`
when it starts with the bytes of `s` and, if there is room, a zero after them.
-/

namespace CMem

/-- The bytes of a string, without the terminator. -/
structure CString where
  bytes : List UInt8
  noNul : (0 : UInt8) ∉ bytes
deriving DecidableEq

namespace CString

@[ext] theorem ext {s t : CString} (h : s.bytes = t.bytes) : s = t := by
  cases s
  cases t
  subst h
  rfl

def strlen (s : CString) : Nat := s.bytes.length

/-- The string a list of bytes starts with. -/
def ofBytes (l : List UInt8) : CString :=
  ⟨l.takeWhile (· != 0), fun h => by simpa using List.mem_takeWhile_imp h⟩

/-- A string of ASCII characters. -/
def ofChars (l : List Char) : CString := ofBytes (l.map Char.toUInt8)

/-- An ASCII literal. -/
def lit (s : String) : CString := ofChars s.toList

/-- `%i`. -/
def int (n : Int) : CString :=
  ofChars (if n < 0 then '-' :: Nat.toDigits 10 n.natAbs else Nat.toDigits 10 n.natAbs)

instance : Append CString where
  append s t := ⟨s.bytes ++ t.bytes, by
    simp only [List.mem_append, not_or]
    exact ⟨s.noNul, t.noNul⟩⟩

/-- The first `k` bytes. -/
def take (s : CString) (k : Nat) : CString :=
  ⟨s.bytes.take k, fun h => s.noNul (List.mem_of_mem_take h)⟩

theorem take_of_strlen_le {s : CString} {k : Nat} (h : s.strlen ≤ k) : s.take k = s :=
  ext (List.take_of_length_le h)

theorem take_take (s : CString) (j k : Nat) : (s.take k).take j = s.take (min j k) :=
  ext (List.take_take ..)

theorem strlen_take (s : CString) (k : Nat) : (s.take k).strlen = min k s.strlen :=
  List.length_take ..

theorem strlen_take_le (s : CString) (k : Nat) : (s.take k).strlen ≤ k := by
  rw [strlen_take]
  exact Nat.min_le_left ..

/-- Past the end of a string `getD` reads the zeros that pad it. -/
theorem getD_bytes_of_le {s : CString} {i : Nat} (h : s.strlen ≤ i) :
    s.bytes.getD i 0 = 0 := by
  rw [List.getD_eq_getElem?_getD, List.getElem?_eq_none h, Option.getD_none]

theorem getD_bytes_of_lt {s : CString} {i : Nat} (h : i < s.strlen) :
    s.bytes.getD i 0 = s.bytes[i] := by
  rw [List.getD_eq_getElem?_getD, List.getElem?_eq_getElem h, Option.getD_some]

end CString

namespace Buf

variable {n m : Nat}

/-- The string a block holds. -/
def cstr (b : Buf n) : CString := CString.ofBytes (List.ofFn b)

/-- `strncpy(b + off, s, len)`: the bytes of `s`, then zeros up to `len`, and
no terminator when `s` fills `len`. -/
def strncpy (b : Buf n) (off : Nat) (s : CString) (len : Nat) : Buf n := fun i =>
  if off ≤ i ∧ i < off + len then s.bytes.getD (i - off) 0 else b i

/-- `strlcpy(b + off, s, size)`, and `snprintf(b + off, size, ..)` of a text
already formatted: at most `size - 1` bytes of `s`, then one terminator. -/
def strlcpy (b : Buf n) (off : Nat) (s : CString) (size : Nat) : Buf n := fun i =>
  if off ≤ i ∧ i < off + min (s.strlen + 1) size then
    (s.take (size - 1)).bytes.getD (i - off) 0
  else b i

theorem byte_strncpy (b : Buf n) (off : Nat) (s : CString) (len i : Nat) :
    (b.strncpy off s len).byte i =
      if i < n ∧ off ≤ i ∧ i < off + len then s.bytes.getD (i - off) 0 else b.byte i := by
  by_cases h : i < n
  · rw [byte_of_lt h, byte_of_lt h]
    simp only [strncpy, h, true_and]
  · rw [byte_of_le (Nat.not_lt.mp h), byte_of_le (Nat.not_lt.mp h),
      if_neg (fun hc => h hc.1)]

/-- A string copy leaves every disjoint place alone. -/
theorem slice_strncpy_disjoint (b : Buf n) (off : Nat) (s : CString) (len o k : Nat)
    (h : o + k ≤ off ∨ off + len ≤ o) :
    (b.strncpy off s len).slice o k = b.slice o k := by
  refine ext_byte fun i hi => ?_
  rw [byte_slice, if_pos hi, byte_strncpy, if_neg (by omega), byte_slice, if_pos hi]

theorem byte_strlcpy (b : Buf n) (off : Nat) (s : CString) (size i : Nat) :
    (b.strlcpy off s size).byte i =
      if i < n ∧ off ≤ i ∧ i < off + min (s.strlen + 1) size then
        (s.take (size - 1)).bytes.getD (i - off) 0
      else b.byte i := by
  by_cases h : i < n
  · rw [byte_of_lt h, byte_of_lt h]
    simp only [strlcpy, h, true_and]
  · rw [byte_of_le (Nat.not_lt.mp h), byte_of_le (Nat.not_lt.mp h),
      if_neg (fun hc => h hc.1)]

theorem slice_strlcpy_disjoint (b : Buf n) (off : Nat) (s : CString) (size o k : Nat)
    (h : o + k ≤ off ∨ off + size ≤ o) :
    (b.strlcpy off s size).slice o k = b.slice o k := by
  refine ext_byte fun i hi => ?_
  rw [byte_slice, if_pos hi, byte_strlcpy, if_neg (by omega), byte_slice, if_pos hi]

/-- A block holds `s` when it starts with the bytes of `s` and a zero follows
them, unless the block ends there. -/
theorem cstr_eq {b : Buf n} {s : CString} (hlen : s.strlen ≤ n)
    (hb : ∀ i (h : i < s.strlen), b.byte i = s.bytes[i])
    (hend : s.strlen < n → b.byte s.strlen = 0) : b.cstr = s := by
  refine CString.ext ?_
  show (List.ofFn b).takeWhile (· != 0) = s.bytes
  have htake : (List.ofFn b).take s.strlen = s.bytes := by
    refine List.ext_getElem (by simpa [CString.strlen] using hlen) fun i h₁ h₂ => ?_
    rw [List.getElem_take, List.getElem_ofFn, ← hb i h₂, byte_of_lt]
  have hdrop : ((List.ofFn b).drop s.strlen).takeWhile (· != 0) = [] := by
    by_cases h : s.strlen < n
    · rw [List.drop_eq_getElem_cons (by simpa using h), List.getElem_ofFn]
      have h0 := hend h
      rw [byte_of_lt h] at h0
      simp [h0]
    · rw [List.drop_eq_nil_of_le (by simpa using h), List.takeWhile_nil]
  have hall : ∀ a ∈ s.bytes, (a != 0) = true := by
    intro a ha
    simpa using fun h0 : a = 0 => s.noNul (h0 ▸ ha)
  rw [← List.take_append_drop s.strlen (List.ofFn b), htake,
    List.takeWhile_append_of_pos hall, hdrop, List.append_nil]

theorem byte_cstr {b : Buf n} {i : Nat} (h : i < b.cstr.strlen) :
    b.byte i = b.cstr.bytes[i] := by
  have hp : b.cstr.bytes <+: List.ofFn b := List.takeWhile_prefix _
  have hi := hp.getElem h
  rw [hi, List.getElem_ofFn, byte_of_lt]

theorem byte_strlen_cstr {b : Buf n} (h : b.cstr.strlen < n) : b.byte b.cstr.strlen = 0 := by
  by_contra hne
  have hlt : b.cstr.strlen < (List.ofFn b).length := by simpa using h
  have hsplit := List.take_append_drop b.cstr.strlen (List.ofFn b)
  have hp : b.cstr.bytes <+: List.ofFn b := List.takeWhile_prefix _
  have htake : (List.ofFn b).take b.cstr.strlen = b.cstr.bytes :=
    (List.prefix_iff_eq_take.mp hp).symm
  have hall : ∀ a ∈ b.cstr.bytes, (a != 0) = true := by
    intro a ha
    simpa using fun h0 : a = 0 => b.cstr.noNul (h0 ▸ ha)
  have hw : (List.ofFn b).takeWhile (· != 0) = b.cstr.bytes := rfl
  rw [← hsplit, htake, List.takeWhile_append_of_pos hall,
    List.drop_eq_getElem_cons hlt, List.getElem_ofFn] at hw
  rw [byte_of_lt h] at hne
  have hne' : (b ⟨b.cstr.strlen, h⟩ != 0) = true := by simpa using hne
  rw [List.takeWhile_cons, if_pos hne'] at hw
  exact absurd (congrArg List.length hw) (by simp)

/-- A block copied in with its terminator brings its string. -/
theorem cstr_memcpy_zero (b : Buf n) (src : Buf m) (hm : m ≤ n) (h : src.cstr.strlen < m) :
    (b.memcpy 0 src m).cstr = src.cstr := by
  refine cstr_eq (by omega) (fun i hi => ?_) fun _ => ?_
  · rw [byte_memcpy, if_pos (by omega), Nat.sub_zero, byte_cstr hi]
  · rw [byte_memcpy, if_pos (by omega), Nat.sub_zero]
    exact byte_strlen_cstr h

/-- The start of a block holds the start of its string. -/
theorem cstr_slice_zero (b : Buf n) (k : Nat) (hk : k ≤ n) :
    (b.slice 0 k).cstr = b.cstr.take k := by
  refine cstr_eq (CString.strlen_take_le ..) (fun i hi => ?_) fun h => ?_
  · rw [CString.strlen_take] at hi
    rw [byte_slice, if_pos (by omega), Nat.zero_add, byte_cstr (by omega)]
    exact (List.getElem_take ..).symm
  · rw [CString.strlen_take] at h ⊢
    rw [byte_slice, if_pos h, Nat.zero_add]
    have hs : min k b.cstr.strlen = b.cstr.strlen := by omega
    rw [hs]
    exact byte_strlen_cstr (by omega)

/-- A string copied into zeroed memory reads back, cut to the length copied. -/
theorem cstr_slice_strncpy {b : Buf n} {off len k : Nat} (s : CString)
    (hz : ∀ i, off + len ≤ i → i < off + k → b.byte i = 0) (hlk : len ≤ k)
    (hn : off + k ≤ n) : ((b.strncpy off s len).slice off k).cstr = s.take len := by
  refine cstr_eq (by have := CString.strlen_take_le s len; omega) (fun i hi => ?_) fun h => ?_
  · rw [CString.strlen_take] at hi
    rw [byte_slice, if_pos (by omega), byte_strncpy, if_pos (by omega),
      Nat.add_sub_cancel_left, CString.getD_bytes_of_lt (by omega)]
    exact (List.getElem_take ..).symm
  · rw [CString.strlen_take] at h ⊢
    rw [byte_slice, if_pos h, byte_strncpy]
    split
    · next hin =>
        rw [Nat.add_sub_cancel_left]
        exact CString.getD_bytes_of_le (by omega)
    · next hout => exact hz _ (by omega) (by omega)

/-- A string copied with `strlcpy` reads back, cut to leave room for the
terminator. -/
theorem cstr_slice_strlcpy {b : Buf n} {off size k : Nat} (s : CString) (h0 : 0 < size)
    (hk : size ≤ k + 1) (hn : off + k ≤ n) :
    ((b.strlcpy off s size).slice off k).cstr = s.take (size - 1) := by
  have hs := CString.strlen_take s (size - 1)
  refine cstr_eq (by omega) (fun i hi => ?_) fun h => ?_
  · rw [byte_slice, if_pos (by omega), byte_strlcpy, if_pos (by omega),
      Nat.add_sub_cancel_left, CString.getD_bytes_of_lt hi]
  · rw [byte_slice, if_pos h, byte_strlcpy, if_pos (by omega), Nat.add_sub_cancel_left]
    exact CString.getD_bytes_of_le (Nat.le_refl _)

end Buf

end CMem
