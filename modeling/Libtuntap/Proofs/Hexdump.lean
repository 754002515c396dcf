import Libtuntap.Unix.Log

/-!
# The lines of a hex dump

The loop counts its bytes from 1 and knows of a line only what the count tells
it modulo 16. Seen from outside it collects rows of sixteen. After `16 k + j`
bytes, with `j` less than 16, the buffers hold the columns of the `j` bytes that
belong to row `k`, and everything before has been logged row by row. That is the
invariant (`Line.Holds`); one byte either makes the row longer or completes it.

Every write to a column or a message is shorter than the room it has: a column
is at its longest after a full row, and `hexstr` then takes 50 of its 52. For the
labels there is room for nine digits, and each row writes one.
-/

namespace Libtuntap

open Effect CMem

/-! ## Columns -/

/-- The texts of some bytes, one behind the other. -/
def cells (cell : UInt8 → CString) : List UInt8 → CString
  | [] => .empty
  | b :: row => cell b ++ cells cell row

/-- The column of a row: its cells, with a gap behind the eighth. -/
def column (cell : UInt8 → CString) (gap : CString) (row : List UInt8) : CString :=
  cells cell (row.take 8) ++ (if 8 ≤ row.length then gap else .empty) ++ cells cell (row.drop 8)

/-- The two digits of a byte and a blank. -/
def hexCell (b : UInt8) : CString := CString.hexUpper 2 b.toNat ++ CString.lit " "

/-- The character of a byte, or a dot. -/
def charCell (b : UInt8) : CString := CString.char (if isalnum b then b else 46)

def hexColumn : List UInt8 → CString := column hexCell (CString.lit "  ")

def charColumn : List UInt8 → CString := column charCell (CString.lit " ")

section Column

variable {cell : UInt8 → CString} {gap : CString} {row : List UInt8} {b : UInt8} {w : Nat}

theorem cells_cons : cells cell (b :: row) = cell b ++ cells cell row := rfl

theorem cells_append (cell : UInt8 → CString) (l l' : List UInt8) :
    cells cell (l ++ l') = cells cell l ++ cells cell l' := by
  induction l with
  | nil => exact (CString.empty_append _).symm
  | cons b l ih =>
      rw [List.cons_append, cells_cons, cells_cons, ih, CString.append_assoc]

theorem strlen_cells (hw : ∀ b, (cell b).strlen = w) (l : List UInt8) :
    (cells cell l).strlen = w * l.length := by
  induction l with
  | nil => exact (Nat.mul_zero w).symm
  | cons b l ih =>
      rw [cells_cons, CString.strlen_append, hw, ih, List.length_cons, Nat.mul_succ, Nat.add_comm]

/-- A row that gets one byte longer. -/
theorem column_snoc (row : List UInt8) (b : UInt8) : column cell gap (row ++ [b]) =
    column cell gap row ++ cell b ++ (if row.length = 7 then gap else .empty) := by
  have hone : cells cell [b] = cell b := CString.append_empty _
  unfold column
  by_cases hlow : row.length < 8
  · have htake : (row ++ [b]).take 8 = row ++ [b] := List.take_of_length_le (by simp; omega)
    have hdrop : (row ++ [b]).drop 8 = [] := List.drop_of_length_le (by simp; omega)
    rw [htake, hdrop, List.take_of_length_le (by omega), List.drop_of_length_le (by omega),
      cells_append, hone, if_neg (show ¬ 8 ≤ row.length by omega)]
    simp only [cells, CString.append_empty, List.length_append, List.length_cons, List.length_nil]
    by_cases hseven : row.length = 7
    · rw [if_pos (by omega), if_pos hseven]
    · rw [if_neg (by omega), if_neg hseven]
  · rw [List.take_append_of_le_length (by omega), List.drop_append_of_le_length (by omega),
      cells_append, hone, if_pos (by simp; omega), if_pos (by omega), if_neg (by omega)]
    simp only [CString.append_empty, CString.append_assoc]

theorem strlen_column (hw : ∀ b, (cell b).strlen = w) (row : List UInt8) :
    (column cell gap row).strlen = w * row.length + if 8 ≤ row.length then gap.strlen else 0 := by
  have hsplit : w * (row.take 8).length + w * (row.drop 8).length = w * row.length := by
    rw [← Nat.mul_add, ← List.length_append, List.take_append_drop]
  unfold column
  rw [CString.strlen_append, CString.strlen_append, strlen_cells hw, strlen_cells hw]
  split
  · omega
  · show _ + 0 + _ = _
    omega

end Column

theorem strlen_hexCell (b : UInt8) : (hexCell b).strlen = 3 := by
  unfold hexCell
  rw [CString.strlen_append]
  show (CString.hexUpper 2 b.toNat).bytes.length + 1 = 3
  rw [bytes_hexUpper_byte]
  rfl

theorem char_ne_zero (b : UInt8) : (if isalnum b then b else 46) ≠ 0 := by
  split
  · next h =>
      rintro rfl
      exact absurd h (by decide)
  · decide

theorem bytes_charCell (b : UInt8) : (charCell b).bytes = [if isalnum b then b else 46] :=
  CString.bytes_char (char_ne_zero b)

theorem strlen_charCell (b : UInt8) : (charCell b).strlen = 1 := by
  show (charCell b).bytes.length = 1
  rw [bytes_charCell]
  rfl

theorem strlen_hexColumn (row : List UInt8) :
    (hexColumn row).strlen = 3 * row.length + if 8 ≤ row.length then 2 else 0 :=
  strlen_column strlen_hexCell row

theorem strlen_charColumn (row : List UInt8) :
    (charColumn row).strlen = row.length + if 8 ≤ row.length then 1 else 0 := by
  have h : (charColumn row).strlen = 1 * row.length + if 8 ≤ row.length then 1 else 0 :=
    strlen_column strlen_charCell row
  rw [Nat.one_mul] at h
  exact h

/-! ## Writes that lose nothing -/

/-- Nothing is cut off, labels aside. -/
def Line.Fits (line : Line) : Prop := ∀ w ∈ line.writes, w.dest ≠ .addrstr → w.Whole

/-- The writes to `addrstr`, the last one first. -/
def Line.labels (line : Line) : List (Write LineBuf) := line.writes.filter (·.dest = .addrstr)

section Fits

variable {line : Line} {text : CString} (h : line.Fits)
include h

theorem Line.Fits.wrote {dest : LineBuf} {room : Nat} (hroom : dest ≠ .addrstr →
    text.strlen ≤ room) : ∀ w ∈ (line.wrote dest room text).writes,
      w.dest ≠ .addrstr → w.Whole := by
  intro w hw
  rcases List.mem_cons.mp hw with rfl | hw
  · exact hroom
  · exact h w hw

theorem Line.Fits.printAddrstr : (line.printAddrstr text).Fits :=
  h.wrote fun hno => absurd rfl hno

theorem Line.Fits.printBytestr (htext : text.strlen ≤ 3) : (line.printBytestr text).Fits :=
  h.wrote fun _ => htext

theorem Line.Fits.printBuf (htext : text.strlen ≤ 1023) : (line.printBuf text).Fits :=
  h.wrote fun _ => htext

theorem Line.Fits.catHexstr (htext : line.hexstr.strlen + text.strlen ≤ 52) :
    (line.catHexstr text).Fits :=
  h.wrote fun _ => show _ ≤ 53 - line.hexstr.strlen - 1 by omega

theorem Line.Fits.catCharstr (htext : line.charstr.strlen + text.strlen ≤ 20) :
    (line.catCharstr text).Fits :=
  h.wrote fun _ => show _ ≤ 21 - line.charstr.strlen - 1 by omega

end Fits

section Contents

variable {line : Line} {text : CString}

/-! Each operation is about one buffer. -/

@[simp] theorem Line.addrstr_printBytestr : (line.printBytestr text).addrstr = line.addrstr := rfl
@[simp] theorem Line.hexstr_printBytestr : (line.printBytestr text).hexstr = line.hexstr := rfl
@[simp] theorem Line.charstr_printBytestr : (line.printBytestr text).charstr = line.charstr := rfl
@[simp] theorem Line.addrstr_catHexstr : (line.catHexstr text).addrstr = line.addrstr := rfl
@[simp] theorem Line.charstr_catHexstr : (line.catHexstr text).charstr = line.charstr := rfl
@[simp] theorem Line.addrstr_catCharstr : (line.catCharstr text).addrstr = line.addrstr := rfl
@[simp] theorem Line.hexstr_catCharstr : (line.catCharstr text).hexstr = line.hexstr := rfl

@[simp] theorem Line.labels_printAddrstr :
    (line.printAddrstr text).labels = ⟨.addrstr, 9, text⟩ :: line.labels := rfl
@[simp] theorem Line.labels_printBytestr : (line.printBytestr text).labels = line.labels := rfl
@[simp] theorem Line.labels_printBuf : (line.printBuf text).labels = line.labels := rfl
@[simp] theorem Line.labels_catHexstr : (line.catHexstr text).labels = line.labels := rfl
@[simp] theorem Line.labels_catCharstr : (line.catCharstr text).labels = line.labels := rfl

theorem Line.bytestr_printBytestr (htext : text.strlen ≤ 3) :
    (line.printBytestr text).bytestr = text := CString.snprintf_whole htext

theorem Line.buf_printBuf (htext : text.strlen ≤ 1023) : (line.printBuf text).buf = text :=
  CString.snprintf_whole htext

theorem Line.hexstr_catHexstr (htext : line.hexstr.strlen + text.strlen ≤ 52) :
    (line.catHexstr text).hexstr = line.hexstr ++ text :=
  CString.strncat_whole (show _ ≤ 53 - line.hexstr.strlen - 1 by omega)

theorem Line.charstr_catCharstr (htext : line.charstr.strlen + text.strlen ≤ 20) :
    (line.catCharstr text).charstr = line.charstr ++ text :=
  CString.strncat_whole (show _ ≤ 21 - line.charstr.strlen - 1 by omega)

end Contents

/-! ## One byte -/

/-- The label of a row, as it is stored. -/
def rowLabel (k : Nat) : CString := (CString.hex 4 (16 * k)).snprintf 10

/-- The labels of the first `k` rows, as they are written. -/
def labelWrites : Nat → List (Write LineBuf)
  | 0 => []
  | k + 1 => ⟨.addrstr, 9, CString.hex 4 (16 * k)⟩ :: labelWrites k

/-- The buffers hold the part of row `k` that has been read. -/
structure Line.Holds (line : Line) (k : Nat) (row : List UInt8) : Prop where
  hexstr : line.hexstr = hexColumn row
  charstr : line.charstr = charColumn row
  addrstr : row ≠ [] → line.addrstr = rowLabel k
  labels : line.labels = labelWrites ((16 * k + row.length + 15) / 16)
  fits : line.Fits

/-- The buffers inside row `k`, with these columns. -/
structure Line.InRow (line : Line) (k : Nat) (hex char : CString) : Prop where
  hexstr : line.hexstr = hex
  charstr : line.charstr = char
  addrstr : line.addrstr = rowLabel k
  labels : line.labels = labelWrites (k + 1)
  fits : line.Fits

section Byte

variable {line : Line} {k : Nat} {row : List UInt8} {b : UInt8}

theorem Line.holds_init : Line.init.Holds 0 [] := by
  refine ⟨?_, ?_, fun h => absurd rfl h, rfl, fun w hw => ?_⟩
  · decide
  · decide
  · cases hw

/-- `bytestr` hands a cell on as it is. -/
theorem storeByte_eq : storeByte line b = (((line.printBytestr (hexCell b)).catHexstr
    (hexCell b)).printBytestr (charCell b)).catCharstr (charCell b) := by
  have hcell : (line.printBytestr (hexCell b)).bytestr = hexCell b :=
    Line.bytestr_printBytestr (Nat.le_of_eq (strlen_hexCell b))
  have hcell' : ∀ l : Line, (l.printBytestr (charCell b)).bytestr = charCell b := fun l =>
    Line.bytestr_printBytestr (by rw [strlen_charCell]; decide)
  calc storeByte line b
      = (((line.printBytestr (hexCell b)).catHexstr
          (line.printBytestr (hexCell b)).bytestr).printBytestr (charCell b)).catCharstr
            (((line.printBytestr (hexCell b)).catHexstr
              (line.printBytestr (hexCell b)).bytestr).printBytestr (charCell b)).bytestr := rfl
    _ = _ := by rw [hcell', hcell]

theorem storeByte_inRow (h : line.InRow k (hexColumn row) (charColumn row))
    (hlen : row.length < 16) : (storeByte line b).InRow k (hexColumn row ++ hexCell b)
      (charColumn row ++ charCell b) := by
  have hhex := strlen_hexColumn row
  have hchar := strlen_charColumn row
  have hcell := strlen_hexCell b
  have hcell' := strlen_charCell b
  have hroom : line.hexstr.strlen + (hexCell b).strlen ≤ 52 := by
    rw [h.hexstr]
    split at hhex <;> omega
  have hroom' : line.charstr.strlen + (charCell b).strlen ≤ 20 := by
    rw [h.charstr]
    split at hchar <;> omega
  have hfits : (((line.printBytestr (hexCell b)).catHexstr (hexCell b)).printBytestr
      (charCell b)).Fits :=
    ((h.fits.printBytestr (by omega)).catHexstr (by simpa using hroom)).printBytestr (by omega)
  rw [storeByte_eq]
  refine ⟨?_, ?_, ?_, ?_, hfits.catCharstr (by simpa using hroom')⟩
  · rw [Line.hexstr_catCharstr, Line.hexstr_printBytestr,
      Line.hexstr_catHexstr (by simpa using hroom)]
    simp [h.hexstr]
  · rw [Line.charstr_catCharstr (by simpa using hroom')]
    simp [h.charstr]
  · simp [h.addrstr]
  · simp [h.labels]

theorem labelled_snoc (hlen : row.length < 16) :
    (16 * k + (row ++ [b]).length + 15) / 16 = k + 1 := by
  rw [List.length_append, List.length_singleton]
  omega

/-- A line that is not full goes on, with the gap in its place. -/
theorem Line.InRow.goes_on (h : line.InRow k (hexColumn row ++ hexCell b)
    (charColumn row ++ charCell b)) (hlen : row.length < 16) (hhalf : row.length ≠ 7) :
    line.Holds k (row ++ [b]) := by
  refine ⟨?_, ?_, fun _ => h.addrstr, ?_, h.fits⟩
  · rw [h.hexstr, hexColumn, column_snoc, if_neg hhalf, CString.append_empty]
  · rw [h.charstr, charColumn, column_snoc, if_neg hhalf, CString.append_empty]
  · rw [h.labels, labelled_snoc hlen]

theorem Line.InRow.half (h : line.InRow k (hexColumn row ++ hexCell b)
    (charColumn row ++ charCell b)) (hlen : row.length = 7) :
    ((line.catHexstr (CString.lit "  ")).catCharstr (CString.lit " ")).Holds k (row ++ [b]) := by
  have hhex : line.hexstr.strlen = 24 := by
    rw [h.hexstr, CString.strlen_append, strlen_hexColumn, strlen_hexCell, hlen]
    rfl
  have hchar : line.charstr.strlen = 8 := by
    rw [h.charstr, CString.strlen_append, strlen_charColumn, strlen_charCell, hlen]
    rfl
  have hgap : (CString.lit "  ").strlen = 2 := by decide
  have hgap' : (CString.lit " ").strlen = 1 := by decide
  have hroom : line.hexstr.strlen + (CString.lit "  ").strlen ≤ 52 := by omega
  have hroom' : line.charstr.strlen + (CString.lit " ").strlen ≤ 20 := by omega
  refine ⟨?_, ?_, fun _ => h.addrstr, ?_, (h.fits.catHexstr hroom).catCharstr hroom'⟩
  · rw [hexColumn, column_snoc, if_pos hlen]
    refine (Line.hexstr_catHexstr hroom).trans ?_
    rw [h.hexstr]
    rfl
  · rw [charColumn, column_snoc, if_pos hlen]
    refine (Line.charstr_catCharstr hroom').trans ?_
    rw [h.charstr]
    rfl
  · rw [labelled_snoc (by omega)]
    exact h.labels

end Byte

/-! ## One row -/

/-- The label of a row, as it is shown. -/
def shownLabel (k : Nat) : CString := (CString.hex 4 (16 * k)).take 4

/-- The message of a row. -/
def rowText (k : Nat) (row : List UInt8) : CString :=
  CString.lit "[" ++ shownLabel k ++ CString.lit "]   " ++ (hexColumn row).padRight 50 ++
    CString.lit "  " ++ charColumn row

section Row

variable {line : Line} {k : Nat} {row : List UInt8} {b : UInt8}

theorem strlen_shownLabel (k : Nat) : (shownLabel k).strlen = 4 := by
  unfold shownLabel
  rw [CString.strlen_take, strlen_hex]
  omega

theorem strlen_hexColumn_le (h : row.length ≤ 16) : (hexColumn row).strlen ≤ 50 := by
  have hlen := strlen_hexColumn row
  split at hlen <;> omega

theorem strlen_charColumn_le (h : row.length ≤ 16) : (charColumn row).strlen ≤ 17 := by
  have hlen := strlen_charColumn row
  split at hlen <;> omega

theorem strlen_rowText (h : row.length ≤ 16) :
    (rowText k row).strlen = 61 + (charColumn row).strlen := by
  unfold rowText
  simp only [CString.strlen_append, strlen_shownLabel,
    CString.strlen_padRight (strlen_hexColumn_le h)]
  rfl

theorem Line.Holds.text_eq (h : line.Holds k row) (hne : row ≠ []) (hlen : row.length ≤ 16) :
    line.text = rowText k row := by
  have hlabel : (line.addrstr.take 4).padLeft 4 = shownLabel k := by
    have hstored : line.addrstr.take 4 = shownLabel k := by
      rw [h.addrstr hne]
      exact CString.take_take ..
    rw [hstored]
    exact CString.padLeft_of_le (Nat.le_of_eq (strlen_shownLabel k).symm)
  unfold Line.text rowText
  rw [hlabel, h.hexstr, h.charstr, CString.take_of_strlen_le (strlen_hexColumn_le hlen)]

/-- The line goes out whole. -/
theorem Line.Holds.logs (h : line.Holds k row) (hne : row ≠ []) (hlen : row.length ≤ 16) :
    logLine line = .sys (.log .none (rowText k row)) (fun _ => .ret (line.printBuf line.text)) ∧
      (line.printBuf line.text).Fits := by
  have hroom : line.text.strlen ≤ 1023 := by
    have hchar := strlen_charColumn_le hlen
    rw [h.text_eq hne hlen, strlen_rowText hlen]
    omega
  refine ⟨?_, h.fits.printBuf hroom⟩
  rw [← h.text_eq hne hlen]
  unfold logLine
  dsimp only
  rw [Line.buf_printBuf hroom]
  rfl

/-- The label is stored with the first byte of a row. -/
theorem Line.Holds.label (h : line.Holds k row) (hlen : row.length < 16) :
    (if (16 * k + row.length + 1) % 16 = 1 then
      line.printAddrstr (CString.hex 4 (16 * k + row.length + 1 - 1)) else line).InRow k
        (hexColumn row) (charColumn row) := by
  have hlabels := h.labels
  by_cases hnil : row = []
  · subst hnil
    rw [List.length_nil, show (16 * k + 0 + 15) / 16 = k by omega] at hlabels
    rw [List.length_nil, if_pos (by omega)]
    refine ⟨h.hexstr, h.charstr, rfl, ?_, h.fits.printAddrstr⟩
    rw [Line.labels_printAddrstr, hlabels]
    rfl
  · have hpos : 0 < row.length := List.length_pos_of_ne_nil hnil
    rw [show (16 * k + row.length + 15) / 16 = k + 1 by omega] at hlabels
    rw [if_neg (by omega)]
    exact ⟨h.hexstr, h.charstr, h.addrstr hnil, hlabels, h.fits⟩

theorem hexdumpByte_more (h : line.Holds k row) (hlen : row.length < 15) : ∃ line',
    hexdumpByte (16 * k + row.length + 1) b line = .ret line' ∧ line'.Holds k (row ++ [b]) := by
  have hstored := storeByte_inRow (b := b) (h.label (by omega)) (by omega)
  unfold hexdumpByte
  dsimp only
  rw [if_neg (show ¬ (16 * k + row.length + 1) % 16 = 0 by omega)]
  by_cases hseven : row.length = 7
  · rw [if_pos (show (16 * k + row.length + 1) % 8 = 0 by omega)]
    exact ⟨_, rfl, hstored.half hseven⟩
  · rw [if_neg (show ¬ (16 * k + row.length + 1) % 8 = 0 by omega)]
    exact ⟨_, rfl, hstored.goes_on (by omega) hseven⟩

theorem hexdumpByte_full (h : line.Holds k row) (hlen : row.length = 15) : ∃ line',
    hexdumpByte (16 * k + row.length + 1) b line =
      .sys (.log .none (rowText k (row ++ [b]))) (fun _ => .ret line') ∧
        line'.Holds (k + 1) [] := by
  have hstored := storeByte_inRow (b := b) (h.label (by omega)) (by omega)
  have hlabels := hstored.labels
  obtain ⟨hlog, hfits⟩ := (hstored.goes_on (by omega) (by omega)).logs (by simp) (by simp; omega)
  unfold hexdumpByte
  dsimp only
  rw [if_pos (show (16 * k + row.length + 1) % 16 = 0 by omega), hlog]
  -- the buffers as they are from here on, whatever filled them
  generalize storeByte _ b = stored at hlabels hfits ⊢
  refine ⟨_, rfl, rfl, rfl, fun hno => absurd rfl hno, ?_, hfits⟩
  rw [List.length_nil, show (16 * (k + 1) + 0 + 15) / 16 = k + 1 by omega]
  exact hlabels

end Row

/-! ## The loop -/

/-- The bytes of row `k`. -/
def rowOf (data : List UInt8) (k : Nat) : List UInt8 := (data.drop (16 * k)).take 16

/-- How many rows there are, the last one perhaps not full. -/
def rowCount (data : List UInt8) : Nat := (data.length + 15) / 16

/-- The messages for some bytes, the first row of which is row `k`. -/
def rowTexts (k : Nat) (data : List UInt8) : List CString :=
  (List.range (rowCount data)).map fun i => rowText (k + i) (rowOf data i)

section Loop

variable {line : Line} {k : Nat} {row rest : List UInt8}

theorem rowTexts_nil (k : Nat) : rowTexts k [] = [] := rfl

theorem rowTexts_short (hne : row ≠ []) (hlen : row.length ≤ 16) :
    rowTexts k row = [rowText k row] := by
  have hpos := List.length_pos_of_ne_nil hne
  have hcount : rowCount row = 1 := by
    unfold rowCount
    omega
  unfold rowTexts rowOf
  rw [hcount]
  simp [List.take_of_length_le hlen]

theorem rowCount_append (hlen : row.length = 16) :
    rowCount (row ++ rest) = rowCount rest + 1 := by
  unfold rowCount
  rw [List.length_append]
  omega

/-- The first row is the first sixteen bytes. -/
theorem rowTexts_append (hlen : row.length = 16) :
    rowTexts k (row ++ rest) = rowText k row :: rowTexts (k + 1) rest := by
  have hfirst : rowOf (row ++ rest) 0 = row := by
    unfold rowOf
    simp [← hlen]
  have hnext : ∀ i, rowOf (row ++ rest) (i + 1) = rowOf rest i := by
    intro i
    unfold rowOf
    rw [List.drop_append, List.drop_of_length_le (by omega), List.nil_append,
      show 16 * (i + 1) - row.length = 16 * i by omega]
  unfold rowTexts
  rw [rowCount_append hlen, List.range_succ_eq_map, List.map_cons, List.map_map, hfirst,
    Nat.add_zero]
  congr 1
  refine List.map_congr_left fun i _ => ?_
  show rowText (k + (i + 1)) (rowOf (row ++ rest) (i + 1)) = _
  rw [hnext, show k + (i + 1) = k + 1 + i by omega]

/-- The end of the function: a row that is not full is logged too. -/
def flush (line : Line) : Sys Line :=
  if line.hexstr.strlen > 0 then logLine line else .ret line

theorem flush_ensures (h : line.Holds k row) (hlen : row.length < 16) :
    (flush line).Ensures fun tr line' => tr = (rowTexts k row).map logged ∧
      line'.labels = labelWrites (k + rowCount row) ∧ line'.Fits := by
  have hhex := strlen_hexColumn row
  have hlabels := h.labels
  have hrows : (16 * k + row.length + 15) / 16 = k + rowCount row := by
    unfold rowCount
    omega
  rw [hrows] at hlabels
  unfold flush
  rw [h.hexstr]
  by_cases hnil : row = []
  · subst hnil
    rw [if_neg (by rw [hhex]; simp)]
    exact ⟨rfl, hlabels, h.fits⟩
  · have hpos := List.length_pos_of_ne_nil hnil
    obtain ⟨hlog, hfits⟩ := h.logs hnil (by omega)
    rw [if_pos (by omega), hlog, rowTexts_short hnil (by omega)]
    exact fun _ => ⟨rfl, hlabels, hfits⟩

/-- From any byte on, the rows that are left are logged in order. -/
theorem hexdumpLoop_ensures (h : line.Holds k row) (hlen : row.length < 16) :
    (hexdumpLoop (16 * k + row.length + 1) rest line >>= flush).Ensures fun tr line' =>
      tr = (rowTexts k (row ++ rest)).map logged ∧
        line'.labels = labelWrites (k + rowCount (row ++ rest)) ∧ line'.Fits := by
  induction rest generalizing line k row with
  | nil =>
      rw [List.append_nil]
      exact flush_ensures h hlen
  | cons b rest ih =>
      unfold hexdumpLoop
      by_cases hfull : row.length = 15
      · obtain ⟨line', hbyte, hnext⟩ := hexdumpByte_full (b := b) h hfull
        rw [hbyte]
        have hrest := ih hnext (show ([] : List UInt8).length < 16 by decide)
        have hcount : 16 * (k + 1) + ([] : List UInt8).length + 1 =
            16 * k + row.length + 1 + 1 := by
          rw [List.length_nil]
          omega
        have hrow : (row ++ [b]).length = 16 := by
          rw [List.length_append, List.length_singleton, hfull]
        rw [hcount] at hrest
        rw [List.append_cons, rowTexts_append hrow, rowCount_append hrow]
        refine fun _ => hrest.mono fun tr line'' htr => ?_
        obtain ⟨rfl, hlabels, hfits⟩ := htr
        rw [List.nil_append, show k + 1 + rowCount rest = k + (rowCount rest + 1) by omega]
          at hlabels
        exact ⟨rfl, hlabels, hfits⟩
      · obtain ⟨line', hbyte, hnext⟩ := hexdumpByte_more (b := b) h (by omega)
        have hrest := ih hnext (by simp; omega)
        have hcount : 16 * k + (row ++ [b]).length + 1 = 16 * k + row.length + 1 + 1 := by
          rw [List.length_append, List.length_singleton]
          omega
        rw [hcount] at hrest
        rw [hbyte, List.append_cons]
        exact hrest

/-- The function logs the rows of its block and cuts nothing but labels. -/
theorem tuntapLogHexdump_ensures (data : List UInt8) :
    (tuntapLogHexdump data).Ensures fun tr line => tr = (rowTexts 0 data).map logged ∧
      line.labels = labelWrites (rowCount data) ∧ line.Fits := by
  have hloop : (hexdumpLoop (16 * 0 + ([] : List UInt8).length + 1) data Line.init >>=
      flush).Ensures fun tr line => tr = (rowTexts 0 ([] ++ data)).map logged ∧
        line.labels = labelWrites (0 + rowCount ([] ++ data)) ∧ line.Fits :=
    hexdumpLoop_ensures Line.holds_init (by decide)
  rw [List.nil_append, Nat.zero_add] at hloop
  exact hloop

end Loop

end Libtuntap
