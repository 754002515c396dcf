import Mathlib.Data.List.Basic

/-!
# Records of a line each

A text to which records are appended, each as a line of its own, can be read
back if the text of a record can and has no newline in it. `LineCodec` is that
much about one record.
-/

namespace CMem

/-- A record as a line and back, for the records in `Fits`. -/
structure LineCodec (α : Type) (Fits : α → Prop) where
  write : α → List UInt8
  read : List UInt8 → Option α
  read_write : ∀ a, Fits a → read (write a) = some a
  newline_notMem : ∀ a, Fits a → (10 : UInt8) ∉ write a

namespace LineCodec

variable {α : Type} {Fits : α → Prop} (codec : LineCodec α Fits)

/-- The records, one a line. -/
def writeAll (records : List α) : List UInt8 :=
  records.flatMap fun a => codec.write a ++ [10]

/-- The records of the lines, if every line is one and ends in a newline. -/
def readAll (text : List UInt8) : Option (List α) :=
  let lines := text.splitOn 10
  if lines.getLast? = some [] then lines.dropLast.mapM codec.read else none

theorem splitOn_writeAll {records : List α} (h : ∀ a ∈ records, Fits a) :
    (codec.writeAll records).splitOn 10 = records.map codec.write ++ [[]] := by
  induction records with
  | nil => rfl
  | cons a records ih =>
      simp only [List.mem_cons, forall_eq_or_imp] at h
      have hsplit := List.splitOn_append_cons_self_of_not_mem (codec.newline_notMem a h.1)
        (codec.writeAll records)
      have hcons : codec.writeAll (a :: records) =
          codec.write a ++ 10 :: codec.writeAll records := by
        simp [writeAll]
      rw [hcons, hsplit, ih h.2]
      rfl

theorem readAll_writeAll {records : List α} (h : ∀ a ∈ records, Fits a) :
    codec.readAll (codec.writeAll records) = some records := by
  have hread : (records.map codec.write).mapM codec.read = some records := by
    induction records with
    | nil => rfl
    | cons a records ih =>
        simp only [List.mem_cons, forall_eq_or_imp] at h
        rw [List.map_cons, List.mapM_cons, codec.read_write a h.1, ih h.2]
        rfl
  unfold readAll
  rw [codec.splitOn_writeAll h]
  simp [hread]

end LineCodec

end CMem
