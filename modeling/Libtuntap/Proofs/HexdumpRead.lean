import Libtuntap.Proofs.Hexdump

/-!
# Reading a hex dump

A reader of the dump looks at three places of a message: the label between the
brackets, the fifty characters of the hex column, and what is behind. The
columns are whole, so the digit pairs of all messages in order are the block
again. The label is not: it is printed with at least four digits and shown with
at most four, and from offset 65536 on these are the first four of five or more.
-/

namespace Libtuntap

open Effect CMem

/-! ## The three places -/

/-- What is between the brackets. -/
def labelOf (msg : CString) : List UInt8 := (msg.bytes.drop 1).takeWhile (· != 93)

/-- The fifty characters of the hex column. -/
def hexColumnOf (msg : CString) : List UInt8 := (msg.bytes.drop 9).take 50

/-- What is behind the hex column. -/
def charColumnOf (msg : CString) : List UInt8 := msg.bytes.drop 61

section Places

variable {k : Nat} {row : List UInt8}

theorem shownLabel_ne_bracket (k : Nat) : ∀ b ∈ (shownLabel k).bytes, (b != 93) = true := by
  intro b hb
  have hmem : b ∈ (CString.hex 4 (16 * k)).bytes := List.mem_of_mem_take hb
  rw [bytes_hex] at hmem
  obtain ⟨c, hc, rfl⟩ := List.mem_map.mp hmem
  obtain ⟨d, hd, rfl⟩ := mem_hexDigits hc
  have hvalue := hexValue_digitChar hd
  rw [bne_iff_ne]
  intro h
  rw [h] at hvalue
  cases hvalue

theorem bytes_rowText (k : Nat) (row : List UInt8) : (rowText k row).bytes =
    91 :: (shownLabel k).bytes ++ ([93, 32, 32, 32] ++ ((hexColumn row).padRight 50).bytes ++
      [32, 32] ++ (charColumn row).bytes) := by
  unfold rowText
  simp only [CString.bytes_append, List.append_assoc]
  rfl

theorem labelOf_rowText (k : Nat) (row : List UInt8) :
    labelOf (rowText k row) = (shownLabel k).bytes := by
  unfold labelOf
  rw [bytes_rowText, List.cons_append, List.drop_one, List.tail_cons,
    List.takeWhile_append_of_pos (shownLabel_ne_bracket k)]
  simp

theorem bytes_rowText_head (k : Nat) (row : List UInt8) : ∃ head : List UInt8,
    head.length = 9 ∧ (rowText k row).bytes =
      head ++ (((hexColumn row).padRight 50).bytes ++ ([32, 32] ++ (charColumn row).bytes)) := by
  have hlabel : (shownLabel k).bytes.length = 4 := strlen_shownLabel k
  refine ⟨91 :: (shownLabel k).bytes ++ [93, 32, 32, 32], by simp [hlabel], ?_⟩
  rw [bytes_rowText]
  simp only [List.append_assoc]

theorem length_padded (h : row.length ≤ 16) :
    ((hexColumn row).padRight 50).bytes.length = 50 :=
  CString.strlen_padRight (strlen_hexColumn_le h)

theorem hexColumnOf_rowText (h : row.length ≤ 16) :
    hexColumnOf (rowText k row) = ((hexColumn row).padRight 50).bytes := by
  obtain ⟨head, hhead, hbytes⟩ := bytes_rowText_head k row
  unfold hexColumnOf
  rw [hbytes, List.drop_left' hhead, List.take_left' (length_padded h)]

theorem charColumnOf_rowText (h : row.length ≤ 16) :
    charColumnOf (rowText k row) = (charColumn row).bytes := by
  obtain ⟨head, hhead, hbytes⟩ := bytes_rowText_head k row
  have hlen : (head ++ ((hexColumn row).padRight 50).bytes ++ [32, 32]).length = 61 := by
    rw [List.length_append, List.length_append, hhead, length_padded h]
    rfl
  unfold charColumnOf
  rw [hbytes, ← List.append_assoc, ← List.append_assoc, List.drop_left' hlen]

end Places

/-! ## The digit pairs -/

/-- The bytes a text of digit pairs stands for, blanks aside. -/
def readPairs : List UInt8 → Option (List UInt8)
  | [] => some []
  | [b] => if b = 32 then some [] else none
  | b :: b' :: rest =>
      if b = 32 then readPairs (b' :: rest)
      else (readHex [b, b']).bind fun v => (readPairs rest).map (UInt8.ofNat v :: ·)

/-- The block a dump is of. -/
def readDump : List CString → Option (List UInt8)
  | [] => some []
  | msg :: msgs => (readPairs (hexColumnOf msg)).bind fun row => (readDump msgs).map (row ++ ·)

section Pairs

theorem readPairs_blank (l : List UInt8) : readPairs (32 :: l) = readPairs l := by
  cases l with
  | nil => rfl
  | cons b l =>
      rw [readPairs]
      exact if_pos rfl

theorem readPairs_blanks (k : Nat) (l : List UInt8) :
    readPairs (List.replicate k 32 ++ l) = readPairs l := by
  induction k with
  | zero => rfl
  | succ k ih =>
      rw [List.replicate_succ, List.cons_append, readPairs_blank, ih]

theorem readPairs_hexCell (b : UInt8) (l : List UInt8) :
    readPairs ((hexCell b).bytes ++ l) = (readPairs l).map (b :: ·) := by
  have hdigits := bytes_hexUpper_byte b
  have hread := readHex_hexUpper_byte b
  have hb := b.toNat_lt
  have hvalue := hexValue_digitChar_upper (show b.toNat / 16 < 16 by omega)
  have hblank : (b.toNat / 16).digitChar.toUpper.toUInt8 ≠ 32 := by
    intro h
    rw [h] at hvalue
    cases hvalue
  rw [hdigits] at hread
  have hbytes : (hexCell b).bytes ++ l = (b.toNat / 16).digitChar.toUpper.toUInt8 ::
      (b.toNat % 16).digitChar.toUpper.toUInt8 :: 32 :: l := by
    unfold hexCell
    rw [CString.bytes_append, hdigits]
    rfl
  rw [hbytes, readPairs, if_neg hblank, hread, readPairs_blank]
  simp

theorem readPairs_cells (row l : List UInt8) :
    readPairs ((cells hexCell row).bytes ++ l) = (readPairs l).map (row ++ ·) := by
  induction row with
  | nil => simp [cells]
  | cons b row ih =>
      rw [cells_cons, CString.bytes_append, List.append_assoc, readPairs_hexCell, ih]
      simp [Option.map_map, Function.comp_def]

/-- The hex column of a row stands for the row. -/
theorem readPairs_hexColumn (row : List UInt8) (n : Nat) :
    readPairs ((hexColumn row).padRight n).bytes = some row := by
  have hgap : ∀ l, readPairs ((if 8 ≤ row.length then CString.lit "  " else .empty).bytes ++ l) =
      readPairs l := by
    intro l
    split
    · exact readPairs_blanks 2 l
    · rfl
  have hpad : readPairs (CString.spaces (n - (hexColumn row).strlen)).bytes = some [] := by
    have h := readPairs_blanks (n - (hexColumn row).strlen) []
    rw [List.append_nil] at h
    exact h
  have hbytes : ((hexColumn row).padRight n).bytes = (cells hexCell (row.take 8)).bytes ++
      ((if 8 ≤ row.length then CString.lit "  " else .empty).bytes ++
        ((cells hexCell (row.drop 8)).bytes ++
          (CString.spaces (n - (hexColumn row).strlen)).bytes)) := by
    show (hexColumn row).bytes ++ _ = _
    unfold hexColumn column
    simp only [CString.bytes_append, List.append_assoc]
  rw [hbytes, readPairs_cells, hgap, readPairs_cells, hpad]
  simp

theorem readDump_cons {row : List UInt8} (k : Nat) (msgs : List CString) (h : row.length ≤ 16) :
    readDump (rowText k row :: msgs) = (readDump msgs).map (row ++ ·) := by
  show ((readPairs (hexColumnOf (rowText k row))).bind fun row =>
    (readDump msgs).map (row ++ ·)) = _
  rw [hexColumnOf_rowText h, readPairs_hexColumn]
  rfl

/-- A block is read back from the messages of its rows. -/
theorem readDump_rowTexts (k : Nat) (data : List UInt8) :
    readDump (rowTexts k data) = some data := by
  induction hn : data.length using Nat.strongRecOn generalizing k data with
  | ind n ih =>
      by_cases hnil : data = []
      · rw [hnil, rowTexts_nil]
        rfl
      · by_cases hshort : data.length ≤ 16
        · rw [rowTexts_short hnil hshort, readDump_cons k [] hshort]
          simp [readDump]
        · have hlen : (data.take 16).length = 16 := by
            rw [List.length_take]
            omega
          have hsplit : rowTexts k data = rowText k (data.take 16) ::
              rowTexts (k + 1) (data.drop 16) := by
            rw [← rowTexts_append hlen, List.take_append_drop]
          have hrest : (data.drop 16).length < n := by
            rw [List.length_drop]
            omega
          rw [hsplit, readDump_cons k _ (by omega), ih _ hrest (k + 1) _ rfl]
          simp

end Pairs

/-! ## The dump as a whole -/

/-- A message shows a row in its two columns. -/
structure Shows (row : List UInt8) (msg : CString) : Prop where
  hexColumn : hexColumnOf msg = ((hexColumn row).padRight 50).bytes
  width : (hexColumnOf msg).length = 50
  charColumn : charColumnOf msg = (charColumn row).bytes

section Dump

variable {data : List UInt8}

theorem length_rowTexts (k : Nat) (data : List UInt8) :
    (rowTexts k data).length = rowCount data := by
  unfold rowTexts
  rw [List.length_map, List.length_range]

theorem getElem_rowTexts {i k : Nat} (h : i < (rowTexts k data).length) :
    (rowTexts k data)[i] = rowText (k + i) (rowOf data i) := by
  simp only [rowTexts, List.getElem_map, List.getElem_range]

theorem length_rowOf_le (data : List UInt8) (k : Nat) : (rowOf data k).length ≤ 16 :=
  List.length_take_le ..

theorem shows_rowText (data : List UInt8) (i k : Nat) :
    Shows (rowOf data k) (rowText i (rowOf data k)) := by
  have hlen := length_rowOf_le data k
  refine ⟨hexColumnOf_rowText hlen, ?_, charColumnOf_rowText hlen⟩
  rw [hexColumnOf_rowText hlen, length_padded hlen]

theorem labelWrite_whole_iff (k : Nat) :
    (⟨LineBuf.addrstr, 9, CString.hex 4 (16 * k)⟩ : Write LineBuf).Whole ↔ 16 * k < 2 ^ 36 := by
  have hnine : (2 : Nat) ^ 36 = 16 ^ 9 := by decide
  rw [hnine, ← length_toDigits_hex_le (by decide)]
  show (CString.hex 4 (16 * k)).strlen ≤ 9 ↔ _
  rw [strlen_hex]
  omega

theorem labelWrites_whole_iff (n : Nat) :
    (∀ w ∈ labelWrites n, w.Whole) ↔ n ≤ 2 ^ 32 := by
  induction n with
  | zero => simp [labelWrites]
  | succ n ih =>
      show (∀ w ∈ (⟨LineBuf.addrstr, 9, CString.hex 4 (16 * n)⟩ : Write LineBuf) ::
        labelWrites n, w.Whole) ↔ _
      rw [List.forall_mem_cons, ih, labelWrite_whole_iff]
      omega

/-- All writes are whole when those of the labels are. -/
theorem Line.Fits.whole_iff {line : Line} (h : line.Fits) :
    (∀ w ∈ line.writes, w.Whole) ↔ ∀ w ∈ line.labels, w.Whole := by
  constructor
  · intro hall w hw
    exact hall w (List.mem_filter.mp hw).1
  · intro hlabels w hw
    by_cases hdest : w.dest = .addrstr
    · exact hlabels w (List.mem_filter.mpr ⟨hw, by simpa using hdest⟩)
    · exact h w hw hdest

theorem rowCount_le_iff (data : List UInt8) (n : Nat) :
    rowCount data ≤ n ↔ data.length ≤ 16 * n := by
  unfold rowCount
  omega

theorem writes_whole_iff {line : Line} (hlabels : line.labels = labelWrites (rowCount data))
    (hfits : line.Fits) : (∀ w ∈ line.writes, w.Whole) ↔ data.length ≤ 2 ^ 36 := by
  rw [hfits.whole_iff, hlabels, labelWrites_whole_iff, rowCount_le_iff]
  omega

/-- A dump shows its block row by row, and the block is read back from it. The
columns are never cut, the stored labels only in a dump of more than 64 GiB. -/
theorem tuntapLogHexdump_readable (data : List UInt8) :
    (tuntapLogHexdump data).Ensures fun tr line => ∃ msgs : List CString,
      tr = msgs.map logged ∧ msgs.length = (data.length + 15) / 16 ∧
        (∀ (k : Nat) (hk : k < msgs.length), Shows (rowOf data k) msgs[k]) ∧
          (∀ w ∈ line.writes, w.dest ≠ .addrstr → w.Whole) ∧
            ((∀ w ∈ line.writes, w.Whole) ↔ data.length ≤ 2 ^ 36) ∧
              readDump msgs = some data := by
  refine (tuntapLogHexdump_ensures data).mono fun tr line h => ?_
  obtain ⟨htr, hlabels, hfits⟩ := h
  refine ⟨rowTexts 0 data, htr, length_rowTexts 0 data, fun k hk => ?_, hfits,
    writes_whole_iff hlabels hfits, readDump_rowTexts 0 data⟩
  rw [getElem_rowTexts]
  exact shows_rowText data (0 + k) k

theorem cuts_label (h : 2 ^ 36 < data.length) :
    ¬ (tuntapLogHexdump data).Ensures fun _ line => ∀ w ∈ line.writes, w.Whole := by
  intro hall
  obtain ⟨tr, line, hruns, -, hlabels, hfits⟩ := (tuntapLogHexdump_ensures data).exists
  have hwhole := (writes_whole_iff hlabels hfits).mp ((Prog.ensures_iff _).mp hall tr line hruns)
  omega

/-- One byte more than nine digits number. -/
theorem tuntapLogHexdump_cuts_label :
    ¬ (tuntapLogHexdump (List.replicate (2 ^ 36 + 1) 0)).Ensures fun _ line =>
      ∀ w ∈ line.writes, w.Whole :=
  cuts_label (by rw [List.length_replicate]; exact Nat.lt_succ_self _)

end Dump

/-! ## The labels -/

/-- Each label is the offset of its row, and they increase. -/
structure LabelsIdentify (msgs : List CString) : Prop where
  offset : ∀ (k : Nat) (hk : k < msgs.length), readHex (labelOf msgs[k]) = some (16 * k)
  increase : msgs.Pairwise fun msg msg' => ∃ v v', readHex (labelOf msg) = some v ∧
    readHex (labelOf msg') = some v' ∧ v < v'

section Labels

variable {data : List UInt8}

theorem readHex_labelOf_iff (k : Nat) (row : List UInt8) :
    readHex (labelOf (rowText k row)) = some (16 * k) ↔ k < 4096 := by
  rw [labelOf_rowText]
  unfold shownLabel
  rw [readHex_take_hex_iff (Nat.le_refl 4) (by decide)]
  omega

theorem labelsIdentify_iff (data : List UInt8) :
    LabelsIdentify (rowTexts 0 data) ↔ data.length ≤ 65536 := by
  have hrows := rowCount_le_iff data 4096
  have hoffset : ∀ (k : Nat) (hk : k < (rowTexts 0 data).length),
      readHex (labelOf (rowTexts 0 data)[k]) = some (16 * k) ↔ k < 4096 := by
    intro k hk
    rw [getElem_rowTexts, Nat.zero_add, readHex_labelOf_iff]
  constructor
  · intro h
    by_contra hlong
    have hrow : 4096 < (rowTexts 0 data).length := by
      rw [length_rowTexts]
      omega
    have hlt := (hoffset 4096 hrow).mp (h.offset 4096 hrow)
    omega
  · intro h
    have hall : ∀ (k : Nat) (hk : k < (rowTexts 0 data).length),
        readHex (labelOf (rowTexts 0 data)[k]) = some (16 * k) := by
      intro k hk
      have hcount := length_rowTexts 0 data
      exact (hoffset k hk).mpr (by omega)
    refine ⟨hall, List.pairwise_iff_getElem.mpr fun i j hi hj hij => ?_⟩
    exact ⟨16 * i, 16 * j, hall i hi, hall j hj, by omega⟩

/-- The labels identify the lines of a dump of up to 64 KiB, and of no other. -/
theorem tuntapLogHexdump_labels_iff (data : List UInt8) :
    (tuntapLogHexdump data).Ensures fun tr _ => ∃ msgs : List CString,
      tr = msgs.map logged ∧ (LabelsIdentify msgs ↔ data.length ≤ 65536) := by
  refine (tuntapLogHexdump_ensures data).mono fun tr line h => ?_
  exact ⟨rowTexts 0 data, h.1, labelsIdentify_iff data⟩

theorem labels_not_identify (hlen : 65536 < data.length) :
    ¬ (tuntapLogHexdump data).Ensures fun tr _ => ∃ msgs : List CString,
      tr = msgs.map logged ∧ LabelsIdentify msgs := by
  intro hall
  obtain ⟨tr, line, hruns, htr, -⟩ := (tuntapLogHexdump_ensures data).exists
  obtain ⟨msgs, htr', hlabels⟩ := (Prog.ensures_iff _).mp hall tr line hruns
  have hmsgs : msgs = rowTexts 0 data := logged_injective.list_map (htr'.symm.trans htr)
  rw [hmsgs, labelsIdentify_iff] at hlabels
  omega

/-- Row 4096 has the label of row 256. -/
theorem tuntapLogHexdump_label_twice :
    ¬ (tuntapLogHexdump (List.replicate 65537 0)).Ensures fun tr _ => ∃ msgs : List CString,
      tr = msgs.map logged ∧ LabelsIdentify msgs :=
  labels_not_identify (by rw [List.length_replicate]; exact Nat.lt_succ_self _)

end Labels

end Libtuntap
