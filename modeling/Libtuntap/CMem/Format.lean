import Libtuntap.CMem.Hex

/-!
# Formatted text in bounded buffers

`snprintf` and `strncat` on buffers that hold strings, and the conversions with a
width. A buffer is the string in it: both functions leave a terminator behind
whatever they store, so there is nothing else to know of it. What is stored is
cut to the room there is, and `Write` keeps what was to be stored beside it.
-/

namespace CMem

namespace CString

/-- No character at all. -/
def empty : CString := ⟨[], by simp⟩

/-- `%c` of a character that is not the terminator, and nothing for that. -/
def char (b : UInt8) : CString := ofBytes [b]

theorem zero_notMem_spaces (k : Nat) : (0 : UInt8) ∉ List.replicate k 32 := by
  simp [List.mem_replicate]

/-- Blanks. -/
def spaces (k : Nat) : CString := ⟨List.replicate k 32, zero_notMem_spaces k⟩

/-- `%{width}s`. -/
def padLeft (width : Nat) (s : CString) : CString := spaces (width - s.strlen) ++ s

/-- `%-{width}s`. -/
def padRight (width : Nat) (s : CString) : CString := s ++ spaces (width - s.strlen)

/-- What is stored of a text in a buffer of `size` bytes. -/
def snprintf (size : Nat) (text : CString) : CString := text.take (size - 1)

/-- `strncat(dst, src, n)`. -/
def strncat (dst src : CString) (n : Nat) : CString := dst ++ src.take n

end CString

/-- A text to be stored, and the room there is for it. -/
structure Write (δ : Type) where
  dest : δ
  room : Nat
  text : CString

/-- Nothing is cut off. -/
def Write.Whole {δ : Type} (w : Write δ) : Prop := w.text.strlen ≤ w.room

namespace CString

variable {s t : CString} {n size : Nat}

@[simp] theorem bytes_append (s t : CString) : (s ++ t).bytes = s.bytes ++ t.bytes := rfl

@[simp] theorem bytes_empty : empty.bytes = [] := rfl

@[simp] theorem empty_append (s : CString) : empty ++ s = s := ext (List.nil_append _)

@[simp] theorem append_empty (s : CString) : s ++ empty = s := ext (List.append_nil _)

theorem append_assoc (s t u : CString) : s ++ t ++ u = s ++ (t ++ u) := ext (List.append_assoc ..)

theorem bytes_char {b : UInt8} (h : b ≠ 0) : (char b).bytes = [b] := by
  show [b].takeWhile (· != 0) = [b]
  simp [h]

@[simp] theorem strlen_spaces (k : Nat) : (spaces k).strlen = k := List.length_replicate

theorem snprintf_whole (h : s.strlen ≤ size - 1) : snprintf size s = s := take_of_strlen_le h

theorem strncat_whole (h : t.strlen ≤ n) : strncat s t n = s ++ t := by
  unfold strncat
  rw [take_of_strlen_le h]

/-- A text that fills the width is not padded. -/
theorem padLeft_of_le (h : n ≤ s.strlen) : padLeft n s = s := by
  unfold padLeft
  rw [Nat.sub_eq_zero_of_le h]
  exact ext (List.nil_append _)

theorem strlen_padRight (h : s.strlen ≤ n) : (padRight n s).strlen = n := by
  unfold padRight
  rw [strlen_append, strlen_spaces]
  omega

end CString

end CMem
