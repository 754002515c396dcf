import Mathlib.Algebra.Order.Ring.Int
import Libtuntap.CMem.OnesComplement
import Libtuntap.Unix.Log

/-!
# The checksum of a block

The Internet checksum adds the words of a block without sign and brings every
carry round. `tuntap_log_chksum` adds them with their sign and keeps the sum in
an `int`. The low word of both is the plain sum of the words modulo 65536, so
what differs is what became of the carries: there is one for every 65536 in the
plain sum, each of them is owed to the low word, and the code drops them all.
The last byte of a block of odd length takes its sign with it as well, which is
off by 256.

The value is then printed behind 24 characters into a buffer of 32. There is
room for `0x` and five digits, which is enough for a sum between -2^20 and -1.
-/

namespace Libtuntap

open Effect CMem

/-! ## The sum in an `int` -/

def InInt (x : Int) : Prop := -2 ^ 31 ≤ x ∧ x < 2 ^ 31

/-- What the loop adds, one number after the other. -/
def loads : List UInt8 → List Int
  | lo :: hi :: rest => (hi.toBitVec ++ lo.toBitVec).toInt :: loads rest
  | [b] => [b.toBitVec.toInt]
  | [] => []

/-- Every sum on the way from `a` is an `int`. -/
def Stays (a : Int) (l : List Int) : Prop := ∀ p, p <+: l → InInt (a + p.sum)

section Sum

variable {sum : Sum} {x : Int}

theorem toInt_ofInt (h : InInt x) : (BitVec.ofInt 32 x).toInt = x := by
  obtain ⟨hlow, hhigh⟩ := h
  rw [BitVec.toInt_ofInt]
  exact Int.bmod_eq_of_le (by omega) (by omega)

theorem inInt_toInt (x : BitVec 32) : InInt x.toInt :=
  ⟨BitVec.le_toInt x, BitVec.toInt_lt⟩

theorem saddOverflow_eq_false_iff (x y : BitVec 32) :
    BitVec.saddOverflow x y = false ↔ InInt (x.toInt + y.toInt) := by
  unfold BitVec.saddOverflow InInt
  simp only [Bool.or_eq_false_iff, decide_eq_false_iff_not]
  omega

theorem Sum.overflowed_add (h : InInt x) : (sum.add (BitVec.ofInt 32 x)).overflowed = false ↔
    sum.overflowed = false ∧ InInt (sum.value.toInt + x) := by
  unfold Sum.add
  rw [Bool.or_eq_false_iff, saddOverflow_eq_false_iff, toInt_ofInt h]

theorem Sum.toInt_add (hsum : InInt (sum.value.toInt + x)) :
    (sum.add (BitVec.ofInt 32 x)).value.toInt = sum.value.toInt + x := by
  have hadd : (sum.add (BitVec.ofInt 32 x)).value = BitVec.ofInt 32 (sum.value.toInt + x) := by
    rw [BitVec.ofInt_add, BitVec.ofInt_toInt]
    rfl
  rw [hadd, toInt_ofInt hsum]

theorem inInt_loadShort (lo hi : UInt8) : InInt (hi.toBitVec ++ lo.toBitVec).toInt := by
  have hlow := BitVec.le_toInt (hi.toBitVec ++ lo.toBitVec)
  have hhigh := BitVec.toInt_lt (x := hi.toBitVec ++ lo.toBitVec)
  unfold InInt
  omega

theorem inInt_loadChar (b : UInt8) : InInt b.toBitVec.toInt := by
  have hlow := BitVec.le_toInt b.toBitVec
  have hhigh := BitVec.toInt_lt (x := b.toBitVec)
  unfold InInt
  omega

theorem stays_nil {a : Int} (ha : InInt a) : Stays a [] := by
  intro p hp
  rw [List.prefix_nil.mp hp, List.sum_nil, Int.add_zero]
  exact ha

/-- The sum stays in range when the next one does, and from there on. -/
theorem stays_cons_iff {a : Int} {l : List Int} (ha : InInt a) :
    Stays a (x :: l) ↔ InInt (a + x) ∧ Stays (a + x) l := by
  constructor
  · intro h
    have hcons : Stays (a + x) l := by
      intro p hp
      have hin := h (x :: p) (List.cons_prefix_cons.mpr ⟨rfl, hp⟩)
      rw [List.sum_cons, ← Int.add_assoc] at hin
      exact hin
    have hfirst := hcons [] List.nil_prefix
    rw [List.sum_nil, Int.add_zero] at hfirst
    exact ⟨hfirst, hcons⟩
  · rintro ⟨-, h⟩ p hp
    rcases List.prefix_cons_iff.mp hp with rfl | ⟨t, rfl, ht⟩
    · exact stays_nil ha [] List.nil_prefix
    · rw [List.sum_cons, ← Int.add_assoc]
      exact h t ht

theorem Sum.stays_add {l : List Int} (h : InInt x) :
    ((sum.add (BitVec.ofInt 32 x)).overflowed = false ∧
        Stays (sum.add (BitVec.ofInt 32 x)).value.toInt l) ↔
      sum.overflowed = false ∧ Stays sum.value.toInt (x :: l) := by
  rw [stays_cons_iff (inInt_toInt _), Sum.overflowed_add h, and_assoc]
  refine and_congr_right fun _ => and_congr_right fun hsum => ?_
  rw [Sum.toInt_add hsum]

/-- The flag stays down as long as every sum on the way is an `int`. -/
theorem sumBlock_overflowed (sum : Sum) (block : List UInt8) :
    (sumBlock sum block).overflowed = false ↔
      sum.overflowed = false ∧ Stays sum.value.toInt (loads block) := by
  have hnil : ∀ sum : Sum, sum.overflowed = false ↔
      sum.overflowed = false ∧ Stays sum.value.toInt [] := fun sum =>
    (and_iff_left (stays_nil (inInt_toInt _))).symm
  induction sum, block using sumBlock.induct with
  | case1 sum lo hi rest ih => exact ih.trans (Sum.stays_add (inInt_loadShort lo hi))
  | case2 sum b => exact (hnil _).trans (Sum.stays_add (inInt_loadChar b))
  | case3 sum => exact hnil sum

theorem sumBlock_value (sum : Sum) (block : List UInt8) :
    (sumBlock sum block).value = sum.value + BitVec.ofInt 32 (loads block).sum := by
  induction sum, block using sumBlock.induct with
  | case1 sum lo hi rest ih =>
      rw [sumBlock, ih, loads, List.sum_cons, BitVec.ofInt_add, ← BitVec.add_assoc]
      rfl
  | case2 sum b =>
      rw [loads, List.sum_cons, List.sum_nil, Int.add_zero]
      rfl
  | case3 sum => exact (BitVec.add_zero _).symm

/-- The value, from the sum in whole numbers. -/
theorem toNat_chksum (block : List UInt8) :
    (chksum block).toNat = 2 ^ 32 - 1 - ((loads block).sum % 2 ^ 32).toNat := by
  have hvalue : (sumBlock ⟨0, false⟩ block).value = BitVec.ofInt 32 (loads block).sum := by
    rw [sumBlock_value]
    exact BitVec.zero_add _
  unfold chksum
  rw [BitVec.toNat_not, hvalue, BitVec.toNat_ofInt]
  rfl

end Sum

/-! ## The Internet checksum -/

/-- The words of a block, the low byte first and the last one filled with zero. -/
def words : List UInt8 → List Nat
  | lo :: hi :: rest => (lo.toNat + 256 * hi.toNat) :: words rest
  | [b] => [b.toNat]
  | [] => []

def internetChecksum (block : List UInt8) : Nat := 65535 - OnesComplement.sum 65535 (words block)

/-- The block is of odd length, and its last byte a negative `char`. -/
def negativeTail : List UInt8 → Bool
  | _ :: _ :: rest => negativeTail rest
  | [b] => 128 ≤ b
  | [] => false

section Words

theorem words_le (block : List UInt8) : ∀ w ∈ words block, w ≤ 65535 := by
  induction block using words.induct with
  | case1 lo hi rest ih =>
      have hlo := lo.toNat_lt
      have hhi := hi.toNat_lt
      rw [words, List.forall_mem_cons]
      exact ⟨by omega, ih⟩
  | case2 b =>
      have hb := b.toNat_lt
      rw [words, List.forall_mem_singleton]
      omega
  | case3 => simp [words]

theorem internetChecksum_eq (block : List UInt8) :
    internetChecksum block = 65535 - OnesComplement.fold 65535 (words block).sum := by
  unfold internetChecksum
  rw [OnesComplement.sum_eq_fold (by decide) (words_le block)]

/-- The sign of a word is a multiple of 65536. -/
theorem loadShort_eq (lo hi : UInt8) : ∃ d : Int,
    (hi.toBitVec ++ lo.toBitVec).toInt = ((lo.toNat + 256 * hi.toNat : Nat) : Int) + 65536 * d := by
  have hlo := lo.toNat_lt
  have hnat : (hi.toBitVec ++ lo.toBitVec).toNat = lo.toNat + 256 * hi.toNat := by
    rw [BitVec.toNat_append]
    show hi.toNat <<< 8 ||| lo.toNat = _
    rw [← Nat.shiftLeft_add_eq_or_of_lt hlo, Nat.shiftLeft_eq]
    omega
  rw [BitVec.toInt_eq_toNat_cond, hnat]
  split
  · exact ⟨0, by omega⟩
  · exact ⟨-1, by omega⟩

theorem loadChar_eq (b : UInt8) :
    b.toBitVec.toInt = (b.toNat : Int) - if negativeTail [b] then 256 else 0 := by
  have hneg : negativeTail [b] = decide (128 ≤ b.toNat) := rfl
  have hb := b.toNat_lt
  rw [BitVec.toInt_eq_toNat_cond, hneg]
  show (if 2 * b.toNat < 2 ^ 8 then (b.toNat : Int) else (b.toNat : Int) - 2 ^ 8) = _
  by_cases h : 128 ≤ b.toNat
  · rw [if_neg (by omega), if_pos (by simpa using h)]
    rfl
  · rw [if_pos (by omega), if_neg (by simpa using h), Int.sub_zero]

/-- The sum of the code, in terms of the plain one. -/
theorem sum_loads (block : List UInt8) : ∃ d : Int, (loads block).sum =
    ((words block).sum : Int) + 65536 * d - if negativeTail block then 256 else 0 := by
  induction block using words.induct with
  | case1 lo hi rest ih =>
      obtain ⟨d, hd⟩ := ih
      obtain ⟨d', hd'⟩ := loadShort_eq lo hi
      refine ⟨d + d', ?_⟩
      rw [loads, words, negativeTail, List.sum_cons, List.sum_cons, hd, hd']
      omega
  | case2 b =>
      refine ⟨0, ?_⟩
      rw [loads, words, List.sum_cons, List.sum_cons, loadChar_eq, List.sum_nil, List.sum_nil,
        Int.add_zero, Nat.add_zero, Int.mul_zero, Int.add_zero]
  | case3 => exact ⟨0, rfl⟩

theorem sum_words_pos {block : List UInt8} (h : negativeTail block) : 128 ≤ (words block).sum := by
  induction block using words.induct with
  | case1 lo hi rest ih =>
      have hrest := ih h
      rw [words, List.sum_cons]
      omega
  | case2 b =>
      have hb : 128 ≤ b.toNat := of_decide_eq_true h
      rw [words, List.sum_cons, List.sum_nil]
      omega
  | case3 => cases h

end Words

/-! ## Where the two agree -/

/-- The carries come to nothing. There is one for every 65536 in the plain sum,
and what they have to make up for is the sign of the last byte. -/
def CarriesVanish (block : List UInt8) : Prop :=
  let low := (words block).sum % 65536
  let carries := (words block).sum / 65536
  if negativeTail block then
    256 < low ∧ 65535 ∣ carries + 256 ∨ low < 256 ∧ 65535 ∣ carries + 255
  else
    carries = 0 ∨ low ≠ 0 ∧ 65535 ∣ carries

section Agree

variable {u : Nat}

theorem low_eq_fold_iff (u : Nat) : u % 65536 = OnesComplement.fold 65535 u ↔
    u / 65536 = 0 ∨ u % 65536 ≠ 0 ∧ 65535 ∣ u / 65536 := by
  unfold OnesComplement.fold
  split
  · omega
  · omega

theorem low_eq_fold_iff_of_tail (hu : 0 < u) :
    (u + 65280) % 65536 = OnesComplement.fold 65535 u ↔
      256 < u % 65536 ∧ 65535 ∣ u / 65536 + 256 ∨ u % 65536 < 256 ∧ 65535 ∣ u / 65536 + 255 := by
  unfold OnesComplement.fold
  rw [if_neg (by omega)]
  omega

theorem toNat_chksum_low (block : List UInt8) :
    (chksum block).toNat % 2 ^ 16 = 65535 - ((loads block).sum % 65536).toNat := by
  rw [toNat_chksum]
  omega

theorem chksum_low_iff (block : List UInt8) :
    (chksum block).toNat % 2 ^ 16 = internetChecksum block ↔ CarriesVanish block := by
  have hfold := OnesComplement.fold_le (show 0 < 65535 by decide) (words block).sum
  obtain ⟨d, hd⟩ := sum_loads block
  rw [toNat_chksum_low, internetChecksum_eq, hd]
  unfold CarriesVanish
  by_cases htail : negativeTail block
  · rw [if_pos htail, if_pos htail,
      ← low_eq_fold_iff_of_tail (Nat.lt_of_lt_of_le (by decide) (sum_words_pos htail))]
    omega
  · rw [if_neg htail, if_neg htail, ← low_eq_fold_iff]
    omega

/-- The value is the Internet checksum, and the sum an `int` throughout, when
every sum on the way is one and the carries come to nothing. -/
theorem chksum_internet_iff (block : List UInt8) :
    ((chksum block).toNat % 2 ^ 16 = internetChecksum block ∧
        (sumBlock ⟨0, false⟩ block).overflowed = false) ↔
      CarriesVanish block ∧ Stays 0 (loads block) := by
  rw [chksum_low_iff, sumBlock_overflowed]
  exact and_congr_right fun _ => and_iff_right rfl

/-- `FFFF` and `0001`: the code drops the one carry there is. -/
theorem chksum_drops_carry :
    ¬ (chksum [255, 255, 1, 0]).toNat % 2 ^ 16 = internetChecksum [255, 255, 1, 0] := by
  decide

end Agree

/-! ## The message -/

def chksumText (addr : List UInt8) : CString :=
  (CString.lit "Checksum of this block: " ++ hexAlternate (chksum addr).toNat).snprintf 32

/-- The number behind the text of a message. -/
def numberOf (msg : CString) : Option Nat :=
  let number := msg.bytes.drop 24
  readHex (if number.take 2 = [48, 120] then number.drop 2 else number)

/-- The sum is a small negative number, or one in its place modulo 2^32. -/
def SumNearZero (block : List UInt8) : Prop := 2 ^ 32 - 2 ^ 20 ≤ (loads block).sum % 2 ^ 32

section Message

variable {block block' : List UInt8}

theorem sumNearZero_iff (block : List UInt8) :
    SumNearZero block ↔ (chksum block).toNat < 2 ^ 20 := by
  rw [toNat_chksum]
  unfold SumNearZero
  omega

theorem drop_chksumText (block : List UInt8) :
    (chksumText block).bytes.drop 24 = (hexAlternate (chksum block).toNat).bytes.take 7 := by
  have hlen : (CString.lit "Checksum of this block: ").bytes.length = 24 := by decide
  have hbytes : (chksumText block).bytes = (CString.lit "Checksum of this block: ").bytes ++
      (hexAlternate (chksum block).toNat).bytes.take 7 := by
    show ((CString.lit "Checksum of this block: ").bytes ++ _).take 31 = _
    rw [List.take_append, hlen, List.take_of_length_le (by omega)]
  rw [hbytes, List.drop_left' hlen]

theorem take_hexAlternate {n : Nat} (h : n ≠ 0) :
    (hexAlternate n).bytes.take 7 = 48 :: 120 :: ((CString.hex 2 n).take 5).bytes := by
  have hmark : (CString.lit "0x").bytes = [48, 120] := by decide
  unfold hexAlternate
  rw [if_neg h, CString.bytes_append, hmark]
  rfl

theorem numberOf_chksumText_iff (block : List UInt8) :
    numberOf (chksumText block) = some (chksum block).toNat ↔ SumNearZero block := by
  rw [sumNearZero_iff]
  unfold numberOf
  dsimp only
  rw [drop_chksumText]
  by_cases hzero : (chksum block).toNat = 0
  · have hread : readHex (hexAlternate 0).bytes = some 0 := readHex_hex 4 0
    have htake : (hexAlternate 0).bytes.take 7 = (hexAlternate 0).bytes := by decide
    have hplain : (hexAlternate 0).bytes.take 2 ≠ [48, 120] := by decide
    rw [hzero, htake, if_neg hplain, hread]
    simp
  · have hmark : ∀ l : List UInt8, (48 :: 120 :: l).take 2 = [48, 120] := fun _ => rfl
    rw [take_hexAlternate hzero, if_pos (hmark _)]
    show readHex ((CString.hex 2 (chksum block).toNat).take 5).bytes = _ ↔ _
    rw [readHex_take_hex_iff (by decide) (by decide)]
    omega

theorem tuntapLogChksum_ensures (block : List UInt8) :
    (tuntapLogChksum block).Ensures fun tr _ => tr = [logged (chksumText block)] :=
  fun _ => rfl

/-- The number of a message is the value for the sums it has room for, and for
these another value gives another message. -/
theorem tuntapLogChksum_number_iff (block : List UInt8) :
    (tuntapLogChksum block).Ensures fun tr _ => ∃ msg : CString, tr = [logged msg] ∧
      (numberOf msg = some (chksum block).toNat ↔ SumNearZero block) ∧
        (SumNearZero block → ∀ block' : List UInt8, SumNearZero block' →
          chksum block' ≠ chksum block →
            (tuntapLogChksum block').Ensures fun tr' _ => tr' ≠ tr) := by
  refine (tuntapLogChksum_ensures block).mono fun tr _ htr => ?_
  subst htr
  refine ⟨chksumText block, rfl, numberOf_chksumText_iff block, fun h block' h' hne => ?_⟩
  refine (tuntapLogChksum_ensures block').mono fun tr' _ htr' heq => hne ?_
  have htext : chksumText block' = chksumText block := by
    rw [htr', List.cons_eq_cons] at heq
    exact logged_injective heq.1
  have hnumber := (numberOf_chksumText_iff block').mpr h'
  rw [htext, (numberOf_chksumText_iff block).mpr h] at hnumber
  exact BitVec.eq_of_toNat_eq (Option.some.inj hnumber).symm

/-- The checksum of an empty block is not in its message, and a block of another
checksum gives the same one. -/
theorem tuntapLogChksum_cuts_number :
    numberOf (chksumText []) ≠ some (chksum []).toNat ∧
      chksum [1, 0] ≠ chksum [] ∧ chksumText [1, 0] = chksumText [] := by
  decide

end Message

end Libtuntap
