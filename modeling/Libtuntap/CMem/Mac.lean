import Libtuntap.CMem.Hex

/-!
# Link-layer addresses in text

Six bytes in hexadecimal with colons between them, as they are printed and as
they are read. The reader takes groups of one or two digits, so no text it takes
is shorter than eleven characters.
-/

namespace CMem

/-- The text of an address: `%.2x` six times, with colons between. -/
def CString.mac (a : Buf 6) : CString :=
  .ofBytes ([58].intercalate (List.ofFn fun i => (CString.hex 2 (a i).toNat).bytes))

/-- One or two digits. -/
def readGroup (group : List UInt8) : Option UInt8 :=
  if group.length = 1 ∨ group.length = 2 then (readHex group).map UInt8.ofNat else none

/-- The address a text is: six groups between colons. -/
def readMac (s : CString) : Option (Buf 6) :=
  let groups := s.bytes.splitOn 58
  if groups.length = 6 ∧ ∀ group ∈ groups, (readGroup group).isSome = true then
    some fun i => (readGroup (groups.getD i [])).getD 0
  else none

section Groups

variable {groups : List (List UInt8)} {x c : UInt8}

theorem mem_intercalate (h : x ∈ [c].intercalate groups) :
    x = c ∨ ∃ group ∈ groups, x ∈ group := by
  induction groups with
  | nil => cases h
  | cons group groups ih =>
      cases groups with
      | nil => exact Or.inr ⟨group, List.mem_singleton_self _, by simpa using h⟩
      | cons group' groups =>
          rw [List.intercalate_cons_cons, List.mem_append, List.mem_append] at h
          rcases h with (h | h) | h
          · exact Or.inr ⟨group, List.mem_cons_self .., h⟩
          · exact Or.inl (List.mem_singleton.mp h)
          · rcases ih h with h | ⟨g, hg, h⟩
            · exact Or.inl h
            · exact Or.inr ⟨g, List.mem_cons_of_mem _ hg, h⟩

/-- Groups that are not empty, and the separators between them. -/
theorem length_intercalate_ge (h : ∀ group ∈ groups, 1 ≤ group.length) :
    2 * groups.length ≤ ([c].intercalate groups).length + 1 := by
  induction groups with
  | nil => simp
  | cons group groups ih =>
      simp only [List.mem_cons, forall_eq_or_imp] at h
      have hrest := ih h.2
      cases groups with
      | nil =>
          rw [List.intercalate_singleton]
          simp only [List.length_cons, List.length_nil]
          omega
      | cons group' groups =>
          rw [List.intercalate_cons_cons, List.length_append, List.length_append]
          simp only [List.length_cons, List.length_nil] at hrest ⊢
          omega

end Groups

section Mac

variable {s : CString} {a : Buf 6}

theorem bytes_hex_byte (b : UInt8) : (CString.hex 2 b.toNat).bytes =
    [(b.toNat / 16).digitChar.toUInt8, (b.toNat % 16).digitChar.toUInt8] := by
  rw [bytes_hex, hexDigits_byte]
  rfl

theorem hexValue_of_mem_byte {b x : UInt8} (h : x ∈ (CString.hex 2 b.toNat).bytes) :
    hexValue x ≠ none := by
  have hb := b.toNat_lt
  rw [bytes_hex_byte] at h
  simp only [List.mem_cons, List.not_mem_nil, or_false] at h
  rcases h with rfl | rfl
  · rw [hexValue_digitChar (by omega)]
    exact Option.some_ne_none _
  · rw [hexValue_digitChar (by omega)]
    exact Option.some_ne_none _

theorem readGroup_hex_byte (b : UInt8) : readGroup (CString.hex 2 b.toNat).bytes = some b := by
  unfold readGroup
  rw [readHex_hex, if_pos (Or.inr (by rw [bytes_hex_byte]; rfl))]
  simp

theorem bytes_mac (a : Buf 6) : (CString.mac a).bytes =
    [58].intercalate (List.ofFn fun i => (CString.hex 2 (a i).toNat).bytes) := by
  refine List.takeWhile_eq_self_iff.mpr fun x hx => ?_
  have hne : x ≠ 0 := by
    rcases mem_intercalate hx with rfl | ⟨group, hgroup, hx⟩
    · decide
    · obtain ⟨i, rfl⟩ := (List.mem_ofFn' _ _).mp hgroup
      exact ne_zero_of_hexValue (hexValue_of_mem_byte hx)
  simpa using hne

theorem strlen_mac (a : Buf 6) : (CString.mac a).strlen = 17 := by
  show (CString.mac a).bytes.length = 17
  rw [bytes_mac]
  simp [List.ofFn_succ, bytes_hex_byte]

/-- What is printed is read back. -/
theorem readMac_mac (a : Buf 6) : readMac (CString.mac a) = some a := by
  have hsplit : (CString.mac a).bytes.splitOn 58 =
      List.ofFn fun i => (CString.hex 2 (a i).toNat).bytes := by
    rw [bytes_mac]
    refine List.splitOn_intercalate _ (fun group hgroup hcolon => ?_) (by simp)
    obtain ⟨i, rfl⟩ := (List.mem_ofFn' _ _).mp hgroup
    exact hexValue_of_mem_byte hcolon rfl
  have hread : ∀ group ∈ List.ofFn fun i => (CString.hex 2 (a i).toNat).bytes,
      (readGroup group).isSome = true := by
    intro group hgroup
    obtain ⟨i, rfl⟩ := (List.mem_ofFn' _ _).mp hgroup
    rw [readGroup_hex_byte]
    rfl
  dsimp only [readMac]
  rw [hsplit, if_pos ⟨List.length_ofFn, hread⟩]
  congr 1
  funext i
  rw [List.getD_eq_getElem?_getD, List.getElem?_ofFn, dif_pos i.isLt]
  simp [readGroup_hex_byte]

theorem length_of_readGroup {group : List UInt8} (h : (readGroup group).isSome = true) :
    1 ≤ group.length := by
  unfold readGroup at h
  split at h
  · omega
  · cases h

/-- A text that is an address has six groups and five colons. -/
theorem strlen_of_readMac (h : readMac s = some a) : 11 ≤ s.strlen := by
  dsimp only [readMac] at h
  split at h
  · next hgroups =>
      have hlen := length_intercalate_ge (c := 58) fun group hgroup =>
        length_of_readGroup (hgroups.2 group hgroup)
      rw [List.intercalate_splitOn, hgroups.1] at hlen
      show 11 ≤ s.bytes.length
      omega
  · cases h

end Mac

end CMem
