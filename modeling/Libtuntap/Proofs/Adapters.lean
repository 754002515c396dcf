import Libtuntap.Proofs.RegQuery

/-!
# The adapters selected

`%i` reads a number in the base its first characters ask for, and Windows pads
instance numbers to four digits. So a number of less than four digits is read as
an octal one, up to the first digit that is none: 0008 is 0 and 0010 is 8. Below
8 and from 1000 on the two readings agree, and everywhere in between they
differ.

What is selected is compared with what should be, adapter by adapter. The
comparison of the two lists says no more than that as long as no two adapters
share their `NetCfgInstanceId`.
-/

namespace Libtuntap.Windows

open Effect CMem

/-- An instance number: decimal, padded to four digits. -/
def instanceNumber (n : Nat) : CString :=
  CString.ofChars (List.leftpad 4 '0' (Nat.toDigits 10 n))

/-- The `DeviceInstanceId` of a network device under `ROOT`. -/
def instanceId (n : Nat) : CString := CString.lit "ROOT\\NET\\" ++ instanceNumber n

/-! ## The number read back -/

theorem startsWith_append (s t : CString) : startsWith (s ++ t) s = true := by
  show s.bytes.isPrefixOf (s.bytes ++ t.bytes) = true
  exact List.isPrefixOf_iff_prefix.mpr (List.prefix_append _ _)

theorem sscanfInt_instanceId (n : Nat) :
    sscanfInt (instanceId n) (CString.lit "ROOT\\NET\\") = scanInt (instanceNumber n).bytes := by
  unfold sscanfInt instanceId
  rw [startsWith_append]
  show scanInt (((CString.lit "ROOT\\NET\\").bytes ++ (instanceNumber n).bytes).drop
    (CString.lit "ROOT\\NET\\").bytes.length) = _
  rw [List.drop_left]

theorem digitVal_digit {c : Char} (h : c.isDigit) : digitVal c.toUInt8 = some (c.toNat - 48) := by
  have hnat := CString.toNat_toUInt8_of_isDigit h
  obtain ⟨h48, h57⟩ := CString.toNat_of_isDigit h
  have hrange : (48 : UInt8) ≤ c.toUInt8 ∧ c.toUInt8 ≤ 57 := by
    rw [UInt8.le_iff_toNat_le, UInt8.le_iff_toNat_le, hnat]
    exact ⟨h48, h57⟩
  unfold digitVal
  rw [if_pos hrange, hnat]

/-- One digit is read, or the reading ends. -/
theorem readDigits_digit {base acc : Nat} {c : Char} {l : List Char} (h : c.isDigit) :
    readDigits base acc ((c :: l).map Char.toUInt8) =
      if c.toNat - 48 < base then
        readDigits base (base * acc + (c.toNat - 48)) (l.map Char.toUInt8)
      else acc := by
  rw [List.map_cons, readDigits, digitVal_digit h]

theorem readDigits_ten {l : List Char} (h : ∀ c ∈ l, c.isDigit) (acc : Nat) :
    readDigits 10 acc (l.map Char.toUInt8) = Nat.ofDigitChars 10 l acc := by
  induction l generalizing acc with
  | nil => rfl
  | cons c l ih =>
      simp only [List.mem_cons, forall_eq_or_imp] at h
      have h57 := (CString.toNat_of_isDigit h.1).2
      rw [readDigits_digit h.1, if_pos (by omega), Nat.ofDigitChars_cons]
      exact ih h.2 _

/-! ## The octal reading -/

theorem le_ofDigitChars (l : List Char) (acc : Nat) : acc ≤ Nat.ofDigitChars 10 l acc := by
  induction l generalizing acc with
  | nil => exact Nat.le_refl acc
  | cons c l ih =>
      have hrest := ih (10 * acc + (c.toNat - '0'.toNat))
      rw [Nat.ofDigitChars_cons]
      omega

/-- Digits read in base eight come to no more than the number they are, and a
lead `k` of the number is kept. -/
theorem readDigits_eight_add_le {l : List Char} (h : ∀ c ∈ l, c.isDigit) (acc k : Nat) :
    readDigits 8 acc (l.map Char.toUInt8) + k ≤ Nat.ofDigitChars 10 l (acc + k) := by
  induction l generalizing acc k with
  | nil => exact Nat.le_refl _
  | cons c l ih =>
      simp only [List.mem_cons, forall_eq_or_imp] at h
      rw [readDigits_digit h.1, Nat.ofDigitChars_cons]
      show _ ≤ Nat.ofDigitChars 10 l (10 * (acc + k) + (c.toNat - 48))
      by_cases hoctal : c.toNat - 48 < 8
      · have hrest := ih h.2 (8 * acc + (c.toNat - 48)) (2 * acc + 10 * k)
        have hsum : 8 * acc + (c.toNat - 48) + (2 * acc + 10 * k) =
            10 * (acc + k) + (c.toNat - 48) := by omega
        rw [hsum] at hrest
        rw [if_pos hoctal]
        omega
      · have hrest := le_ofDigitChars l (10 * (acc + k) + (c.toNat - 48))
        rw [if_neg hoctal]
        omega

/-- Behind a digit other than 0, every further digit adds to the lead. -/
theorem readDigits_eight_lt {c : Char} {l : List Char} (h : ∀ d ∈ c :: l, d.isDigit) {acc : Nat}
    (hacc : 0 < acc) :
    readDigits 8 acc ((c :: l).map Char.toUInt8) < Nat.ofDigitChars 10 (c :: l) acc := by
  simp only [List.mem_cons, forall_eq_or_imp] at h
  rw [readDigits_digit h.1, Nat.ofDigitChars_cons]
  show _ < Nat.ofDigitChars 10 l (10 * acc + (c.toNat - 48))
  by_cases hoctal : c.toNat - 48 < 8
  · have hrest := readDigits_eight_add_le h.2 (8 * acc + (c.toNat - 48)) (2 * acc)
    have hsum : 8 * acc + (c.toNat - 48) + 2 * acc = 10 * acc + (c.toNat - 48) := by omega
    rw [hsum] at hrest
    rw [if_pos hoctal]
    omega
  · have hrest := le_ofDigitChars l (10 * acc + (c.toNat - 48))
    rw [if_neg hoctal]
    omega

/-- So the two readings agree on a single octal digit behind zeros, and on
nothing else. -/
theorem readDigits_eight_eq_iff {l : List Char} (h : ∀ c ∈ l, c.isDigit) :
    readDigits 8 0 (l.map Char.toUInt8) = Nat.ofDigitChars 10 l 0 ↔
      Nat.ofDigitChars 10 l 0 < 8 := by
  induction l with
  | nil => simp [readDigits]
  | cons c l ih =>
      simp only [List.mem_cons, forall_eq_or_imp] at h
      rw [readDigits_digit h.1, Nat.ofDigitChars_cons]
      simp only [Nat.mul_zero, Nat.zero_add]
      show (if c.toNat - 48 < 8 then _ else 0) = Nat.ofDigitChars 10 l (c.toNat - 48) ↔
        Nat.ofDigitChars 10 l (c.toNat - 48) < 8
      cases c.toNat - 48 with
      | zero => exact ih h.2
      | succ d =>
          cases l with
          | nil =>
              show (if d + 1 < 8 then d + 1 else 0) = d + 1 ↔ d + 1 < 8
              split <;> omega
          | cons c' l =>
              have hlarge : 8 ≤ Nat.ofDigitChars 10 (c' :: l) (d + 1) := by
                have hrest := le_ofDigitChars l (10 * (d + 1) + (c'.toNat - '0'.toNat))
                rw [Nat.ofDigitChars_cons]
                omega
              refine iff_of_false ?_ (Nat.not_lt.mpr hlarge)
              split
              · exact Nat.ne_of_lt (readDigits_eight_lt h.2 (Nat.succ_pos d))
              · omega

/-! ## The prefix -/

theorem isSpace_digit {c : Char} (h : c.isDigit) : isSpace c.toUInt8 = false := by
  have hnat := CString.toNat_toUInt8_of_isDigit h
  have h48 := (CString.toNat_of_isDigit h).1
  have h32 : c.toUInt8 ≠ 32 := by
    intro heq
    rw [heq] at hnat
    exact absurd (hnat ▸ h48) (by decide)
  have h13 : ¬ c.toUInt8 ≤ 13 := by
    rw [UInt8.le_iff_toNat_le, hnat]
    show ¬ c.toNat ≤ 13
    omega
  simp [isSpace, h32, h13]

/-- No space and no sign stands before a digit. -/
theorem scanInt_digit {c : Char} {rest : List UInt8} (h : c.isDigit) :
    scanInt (c.toUInt8 :: rest) =
      (scanMagnitude (c.toUInt8 :: rest)).map fun m : Nat => (m : Int).bmod (2 ^ 32) := by
  have hnat := CString.toNat_toUInt8_of_isDigit h
  have h48 := (CString.toNat_of_isDigit h).1
  have hne : ∀ b : UInt8, b.toNat < 48 → c.toUInt8 ≠ b := by
    intro b hb heq
    rw [heq] at hnat
    omega
  unfold scanInt
  rw [List.dropWhile_cons_of_neg (by rw [isSpace_digit h]; decide)]
  show (if c.toUInt8 = 45 then _ else if c.toUInt8 = 43 then _ else _ : Option Int) = _
  rw [if_neg (hne 45 (by decide)), if_neg (hne 43 (by decide))]

/-- A first digit other than 0 makes the number a decimal one. -/
theorem scanMagnitude_decimal {c : Char} {rest : List UInt8} (h : c.isDigit) (hc : c ≠ '0') :
    scanMagnitude (c.toUInt8 :: rest) = some (readDigits 10 0 (c.toUInt8 :: rest)) := by
  have hnat := CString.toNat_toUInt8_of_isDigit h
  have h57 := (CString.toNat_of_isDigit h).2
  have hzero : c.toUInt8 ≠ 48 := by
    intro heq
    rw [heq] at hnat
    exact hc (Char.toNat_inj.mp hnat.symm)
  have hstarts : startsWithDigit 10 (c.toUInt8 :: rest) = true := by
    show (digitVal c.toUInt8).any (· < 10) = true
    rw [digitVal_digit h]
    exact decide_eq_true (show c.toNat - 48 < 10 by omega)
  show (if c.toUInt8 = 48 then _ else if startsWithDigit 10 (c.toUInt8 :: rest) then
    some (readDigits 10 0 (c.toUInt8 :: rest)) else none : Option Nat) = _
  rw [if_neg hzero, if_pos hstarts]

/-- A 0 before other digits makes it an octal one. -/
theorem scanMagnitude_octal {l : List Char} (h : ∀ c ∈ l, c.isDigit) :
    scanMagnitude (('0' :: l).map Char.toUInt8) = some (readDigits 8 0 (l.map Char.toUInt8)) := by
  cases l with
  | nil => rfl
  | cons x l =>
      have hx := h x (List.mem_cons_self ..)
      have hnat := CString.toNat_toUInt8_of_isDigit hx
      have h57 := (CString.toNat_of_isDigit hx).2
      have hhex : ¬ (x.toUInt8 = 120 ∨ x.toUInt8 = 88) := by
        rintro (heq | heq)
        · rw [heq] at hnat
          exact absurd (hnat ▸ h57) (by decide)
        · rw [heq] at hnat
          exact absurd (hnat ▸ h57) (by decide)
      show (if x.toUInt8 = 120 ∨ x.toUInt8 = 88 then _ else _ : Option Nat) = _
      exact if_neg hhex

/-! ## The number in its padding -/

theorem digitChar_ne_zero : ∀ n < 10, 0 < n → n.digitChar ≠ '0' := by decide

/-- A number has no leading zero. -/
theorem head_toDigits {n : Nat} (hn : 0 < n) :
    ∃ c l, Nat.toDigits 10 n = c :: l ∧ c ≠ '0' := by
  induction n using Nat.base_induction 10 (by decide) with
  | single m hm => exact ⟨m.digitChar, [], Nat.toDigits_of_lt_base hm, digitChar_ne_zero m hm hn⟩
  | digit m k hk hm ih =>
      obtain ⟨c, l, hdigits, hc⟩ := ih hm
      refine ⟨c, l ++ Nat.toDigits 10 k, ?_, hc⟩
      rw [← Nat.toDigits_append_toDigits (by decide) hm hk, hdigits]
      rfl

theorem length_toDigits_le_iff {n : Nat} : (Nat.toDigits 10 n).length ≤ 3 ↔ n < 1000 :=
  Nat.length_toDigits_le_iff (by decide) (by decide)

theorem isDigit_padded {n : Nat} {c : Char} (hc : c ∈ List.leftpad 4 '0' (Nat.toDigits 10 n)) :
    c.isDigit := by
  rw [List.leftpad, List.mem_append] at hc
  rcases hc with hzero | hc
  · rw [List.eq_of_mem_replicate hzero]
    rfl
  · exact CString.isDigit_toDigits hc

theorem bytes_instanceNumber (n : Nat) : (instanceNumber n).bytes =
    (List.leftpad 4 '0' (Nat.toDigits 10 n)).map Char.toUInt8 :=
  CString.bytes_ofChars fun _ hc => CString.toUInt8_ne_zero_of_isDigit (isDigit_padded hc)

theorem ofDigitChars_padded (n : Nat) :
    Nat.ofDigitChars 10 (List.leftpad 4 '0' (Nat.toDigits 10 n)) 0 = n := by
  rw [List.leftpad, Nat.ofDigitChars_append, Nat.ofDigitChars_replicate_zero, Nat.mul_zero,
    Nat.ofDigitChars_ten_toDigits]

theorem instanceNumber_inj {m n : Nat} (h : instanceNumber m = instanceNumber n) : m = n := by
  have hchars := CString.map_toUInt8_inj (fun _ => isDigit_padded) (fun _ => isDigit_padded)
    ((bytes_instanceNumber m).symm.trans
      ((congrArg CString.bytes h).trans (bytes_instanceNumber n)))
  rw [← ofDigitChars_padded m, ← ofDigitChars_padded n, hchars]

theorem instanceId_inj {m n : Nat} (h : instanceId m = instanceId n) : m = n :=
  instanceNumber_inj (CString.append_left_cancel h)

/-- From 1000 on there is nothing to pad, and the base is ten. -/
theorem scanInt_of_ge {n : Nat} (h : 1000 ≤ n) :
    scanInt (instanceNumber n).bytes = some ((n : Int).bmod (2 ^ 32)) := by
  obtain ⟨c, l, hdigits, hc⟩ := head_toDigits (show 0 < n by omega)
  have hlen : 4 ≤ (Nat.toDigits 10 n).length := by
    have hshort := length_toDigits_le_iff (n := n)
    omega
  have hpadded : List.leftpad 4 '0' (Nat.toDigits 10 n) = c :: l := by
    rw [List.leftpad, Nat.sub_eq_zero_of_le hlen, hdigits]
    rfl
  have hall : ∀ d ∈ c :: l, d.isDigit := by
    rw [← hpadded]
    exact fun _ => isDigit_padded
  have hread := readDigits_ten hall 0
  rw [← hpadded, ofDigitChars_padded, hpadded, List.map_cons] at hread
  have hfirst := hall c (List.mem_cons_self ..)
  rw [bytes_instanceNumber, hpadded, List.map_cons, scanInt_digit hfirst,
    scanMagnitude_decimal hfirst hc, hread]
  rfl

/-- A number of up to three digits behind its padding is an octal one, and from 8
on it comes to less. -/
theorem scanInt_of_lt {n : Nat} (h : n < 1000) :
    ∃ m : Nat, scanInt (instanceNumber n).bytes = some (m : Int) ∧ (m = n ↔ n < 8) := by
  obtain ⟨k, hk⟩ : ∃ k, 4 - (Nat.toDigits 10 n).length = k + 1 := by
    have hshort := length_toDigits_le_iff.mpr h
    exact ⟨3 - (Nat.toDigits 10 n).length, by omega⟩
  have hpadded : List.leftpad 4 '0' (Nat.toDigits 10 n) =
      '0' :: (List.replicate k '0' ++ Nat.toDigits 10 n) := by
    rw [List.leftpad, hk]
    rfl
  generalize List.replicate k '0' ++ Nat.toDigits 10 n = l at hpadded
  have hall : ∀ c ∈ l, c.isDigit := fun c hc =>
    isDigit_padded (hpadded ▸ List.mem_cons_of_mem _ hc)
  have hnumber : Nat.ofDigitChars 10 l 0 = n := by
    have hn := ofDigitChars_padded n
    rw [hpadded] at hn
    exact hn
  have hle := readDigits_eight_add_le hall 0 0
  have heq := readDigits_eight_eq_iff hall
  rw [hnumber] at hle heq
  refine ⟨readDigits 8 0 (l.map Char.toUInt8), ?_, heq⟩
  rw [bytes_instanceNumber, hpadded, List.map_cons, scanInt_digit rfl, ← List.map_cons,
    scanMagnitude_octal hall]
  exact congrArg some (Int.bmod_eq_of_le (by omega) (by omega))

theorem scanInt_isSome (n : Nat) : (scanInt (instanceNumber n).bytes).isSome := by
  by_cases hlt : n < 1000
  · obtain ⟨m, hm, -⟩ := scanInt_of_lt hlt
    rw [hm]
    rfl
  · rw [scanInt_of_ge (by omega)]
    rfl

/-- The numbers that are read back as they are. -/
theorem scanInt_instanceNumber_iff {n : Nat} :
    scanInt (instanceNumber n).bytes = some (n : Int) ↔ n < 8 ∨ 1000 ≤ n ∧ n < 2 ^ 31 := by
  by_cases hlt : n < 1000
  · obtain ⟨m, hm, heq⟩ := scanInt_of_lt hlt
    rw [hm, Option.some.injEq, Int.natCast_inj, heq]
    omega
  · rw [scanInt_of_ge (by omega), Option.some.injEq]
    constructor
    · intro h
      have hbound := Int.bmod_lt (x := (n : Int)) (m := 2 ^ 32) (by decide)
      rw [h] at hbound
      omega
    · intro h
      exact Int.bmod_eq_of_le (by omega) (by omega)

/-! ## One adapter -/

/-- The adapter is one to select. -/
def Adapter.Wanted (id : Int) (adapter : Adapter) : Prop :=
  adapter.IsTap ∧ ∃ n : Nat, adapter.deviceInstanceId = some (instanceId n) ∧
    (tuntapIdAny = id ∨ (n : Int) = id)

open Classical in
/-- Its entry in the list there should be. -/
noncomputable def Adapter.wanted (id : Int) (adapter : Adapter) : Option CString :=
  if adapter.Wanted id then adapter.netCfgInstanceId else none

/-- Behind the prefix stands an instance number. -/
def Adapter.Numbered (adapter : Adapter) : Prop :=
  ∀ device, adapter.deviceInstanceId = some device →
    startsWith device (CString.lit "ROOT\\NET\\") → ∃ n, device = instanceId n

/-- The number is compared with the identifier as if it had been read back. -/
def ReadRight (id : Int) (n : Nat) : Prop :=
  tuntapIdAny = id ∨ n < 8 ∨ (1000 ≤ n ∧ n < 2 ^ 31) ∨
    (n : Int) ≠ id ∧ scanInt (instanceNumber n).bytes ≠ some id

section Adapter

variable {id : Int} {a : Adapter} {n : Nat}

theorem readRight_iff : ReadRight id n ↔
    ((tuntapIdAny = id ∨ scanInt (instanceNumber n).bytes = some id) ↔
      (tuntapIdAny = id ∨ (n : Int) = id)) := by
  unfold ReadRight
  have hsame := scanInt_instanceNumber_iff (n := n)
  constructor
  · rintro (hany | h8 | hthousand | ⟨hno, hread⟩)
    · exact iff_of_true (Or.inl hany) (Or.inl hany)
    · rw [hsame.mpr (Or.inl h8), Option.some.injEq]
    · rw [hsame.mpr (Or.inr hthousand), Option.some.injEq]
    · simp [hno, hread]
  · intro h
    by_cases hany : tuntapIdAny = id
    · exact Or.inl hany
    · simp only [hany, false_or] at h
      by_cases hid : (n : Int) = id
      · have hread := h.mpr hid
        rw [← hid] at hread
        rcases hsame.mp hread with h8 | hthousand
        · exact Or.inr (Or.inl h8)
        · exact Or.inr (Or.inr (Or.inl hthousand))
      · exact Or.inr (Or.inr (Or.inr ⟨hid, fun hread => hid (h.mp hread)⟩))

theorem index_of_number (h : a.deviceInstanceId = some (instanceId n)) :
    a.index = scanInt (instanceNumber n).bytes := by
  unfold Adapter.index
  rw [h]
  exact sscanfInt_instanceId n

/-- Without a number the code reads none either. -/
theorem index_of_not_number (hnumbered : a.Numbered)
    (h : ∀ n, a.deviceInstanceId ≠ some (instanceId n)) : a.index = none := by
  unfold Adapter.index
  cases hdevice : a.deviceInstanceId with
  | none => rfl
  | some device =>
      show sscanfInt device (CString.lit "ROOT\\NET\\") = none
      refine if_neg fun hstarts => ?_
      obtain ⟨n, rfl⟩ := hnumbered device hdevice hstarts
      exact h n hdevice

theorem found_of_number (htap : a.IsTap) (h : a.deviceInstanceId = some (instanceId n)) :
    a.found id = if tuntapIdAny = id ∨ scanInt (instanceNumber n).bytes = some id then
      a.netCfgInstanceId else none := by
  obtain ⟨idx, hread⟩ := Option.isSome_iff_exists.mp (scanInt_isSome n)
  unfold Adapter.found
  rw [index_of_number h, hread]
  simp [htap]

theorem wanted_of_number (htap : a.IsTap) (h : a.deviceInstanceId = some (instanceId n)) :
    a.wanted id = if tuntapIdAny = id ∨ (n : Int) = id then a.netCfgInstanceId else none := by
  have hiff : a.Wanted id ↔ tuntapIdAny = id ∨ (n : Int) = id := by
    constructor
    · rintro ⟨-, m, hm, hid⟩
      obtain rfl := instanceId_inj (Option.some.inj (h.symm.trans hm))
      exact hid
    · exact fun hid => ⟨htap, n, h, hid⟩
  unfold Adapter.wanted
  by_cases hid : tuntapIdAny = id ∨ (n : Int) = id
  · rw [if_pos (hiff.mpr hid), if_pos hid]
  · rw [if_neg fun hw => hid (hiff.mp hw), if_neg hid]

/-- An adapter gets the entry it should have exactly when its number is read
right, if it would have an entry at all. -/
theorem found_eq_wanted_iff (hnumbered : a.Numbered) : a.found id = a.wanted id ↔
    ∀ n, a.IsTap → a.deviceInstanceId = some (instanceId n) → a.netCfgInstanceId ≠ none →
      ReadRight id n := by
  by_cases hnumber : a.IsTap ∧ ∃ n, a.deviceInstanceId = some (instanceId n)
  · obtain ⟨htap, n, hn⟩ := hnumber
    have honly : (∀ m, a.IsTap → a.deviceInstanceId = some (instanceId m) →
        a.netCfgInstanceId ≠ none → ReadRight id m) ↔
        (a.netCfgInstanceId ≠ none → ReadRight id n) := by
      constructor
      · exact fun h => h n htap hn
      · intro h m _ hm hnet
        obtain rfl := instanceId_inj (Option.some.inj (hn.symm.trans hm))
        exact h hnet
    rw [found_of_number htap hn, wanted_of_number htap hn, honly, readRight_iff]
    cases hnet : a.netCfgInstanceId with
    | none => simp
    | some text =>
        by_cases hread : tuntapIdAny = id ∨ scanInt (instanceNumber n).bytes = some id
        · by_cases hid : tuntapIdAny = id ∨ (n : Int) = id
          · rw [if_pos hread, if_pos hid]
            exact iff_of_true rfl fun _ => iff_of_true hread hid
          · rw [if_pos hread, if_neg hid]
            exact iff_of_false (Option.some_ne_none _)
              fun h => hid ((h (Option.some_ne_none _)).mp hread)
        · by_cases hid : tuntapIdAny = id ∨ (n : Int) = id
          · rw [if_neg hread, if_pos hid]
            exact iff_of_false (Option.some_ne_none _).symm
              fun h => hread ((h (Option.some_ne_none _)).mpr hid)
          · rw [if_neg hread, if_neg hid]
            exact iff_of_true rfl fun _ => iff_of_false hread hid
  · have hfound : a.found id = none := by
      refine if_neg fun h => ?_
      obtain ⟨htap, idx, hidx, -⟩ := h
      have hnone := index_of_not_number hnumbered fun n hn => hnumber ⟨htap, n, hn⟩
      rw [hnone] at hidx
      cases hidx
    have hwanted : a.wanted id = none := by
      refine if_neg fun h => ?_
      obtain ⟨htap, n, hn, -⟩ := h
      exact hnumber ⟨htap, n, hn⟩
    rw [hfound, hwanted]
    exact iff_of_true rfl fun n htap hn => absurd ⟨htap, n, hn⟩ hnumber

end Adapter

/-! ## The list -/

/-- The list there should be, in the order of the subkeys. -/
noncomputable def Registry.wanted (reg : Registry) (id : Int) : List CString :=
  (reg.subKeys.getD []).filterMap fun name => (name.bind reg.adapter).bind (Adapter.wanted id)

/-- Windows writes instance numbers as it does. -/
def Registry.Numbered (reg : Registry) : Prop :=
  ∀ name a, reg.adapter name = some a → a.Numbered

/-- No two adapters have the same GUID. -/
def Registry.Distinct (reg : Registry) : Prop :=
  ∀ name name' a a' text, reg.adapter name = some a → reg.adapter name' = some a' →
    a.netCfgInstanceId = some text → a'.netCfgInstanceId = some text → a = a'

/-- Every listed TAP adapter that could be selected has its number read right. -/
def Registry.ReadsRight (reg : Registry) (id : Int) : Prop :=
  ∀ name ∈ reg.subKeys.getD [], ∀ a n, name.bind reg.adapter = some a → a.IsTap →
    a.deviceInstanceId = some (instanceId n) → a.netCfgInstanceId ≠ none → ReadRight id n

/-- The answer is the list there should be, with its sentinel. -/
def Exact (reg : Registry) (id : Int) (o : Outcome (Option Deviceids)) : Prop :=
  ∃ (deviceids : Deviceids) (cands : List Candidate), o = .returned (some deviceids) ∧
    deviceids.entries = cands.map some ++ [none] ∧ cands.map Candidate.text = reg.wanted id

section List

variable {reg : Registry} {id : Int}

/-- Two selections from a list agree entry by entry if the lists selected agree
and no two entries select the same. -/
theorem eq_of_filterMap_eq {α β : Type} {f g : α → Option β} {l : List α}
    (hsame : ∀ x y t, f x = some t ∨ g x = some t → f y = some t ∨ g y = some t →
      f x = f y ∧ g x = g y)
    (h : l.filterMap f = l.filterMap g) : ∀ x ∈ l, f x = g x := by
  intro x hx
  cases hf : f x with
  | some t =>
      have hmem : t ∈ l.filterMap g := by
        rw [← h]
        exact List.mem_filterMap.mpr ⟨x, hx, hf⟩
      obtain ⟨y, -, hy⟩ := List.mem_filterMap.mp hmem
      rw [(hsame x y t (Or.inl hf) (Or.inr hy)).2, hy]
  | none =>
      cases hg : g x with
      | none => rfl
      | some t =>
          have hmem : t ∈ l.filterMap f := by
            rw [h]
            exact List.mem_filterMap.mpr ⟨x, hx, hg⟩
          obtain ⟨y, -, hy⟩ := List.mem_filterMap.mp hmem
          rw [(hsame x y t (Or.inr hg) (Or.inl hy)).1, hy] at hf
          cases hf

/-- What an adapter selected or wanted selects is its own GUID. -/
theorem netCfg_of_selected {a : Adapter} {text : CString}
    (h : a.found id = some text ∨ a.wanted id = some text) : a.netCfgInstanceId = some text := by
  rcases h with hfound | hwanted
  · unfold Adapter.found at hfound
    split at hfound
    · exact hfound
    · cases hfound
  · unfold Adapter.wanted at hwanted
    split at hwanted
    · exact hwanted
    · cases hwanted

theorem candidates_eq_wanted (hnumbered : reg.Numbered) (h : reg.ReadsRight id) :
    reg.candidates id = reg.wanted id := by
  refine List.filterMap_congr fun name hname => ?_
  unfold Registry.entry
  cases ha : name.bind reg.adapter with
  | none => rfl
  | some a =>
      obtain ⟨key, -, hkey⟩ := Option.bind_eq_some_iff.mp ha
      exact (found_eq_wanted_iff (hnumbered key a hkey)).mpr fun n => h name hname a n ha

theorem readsRight_of_eq (hnumbered : reg.Numbered) (hdistinct : reg.Distinct)
    (h : reg.candidates id = reg.wanted id) : reg.ReadsRight id := by
  have hsame : ∀ x y : Option CString, ∀ text,
      reg.entry id x = some text ∨ (x.bind reg.adapter).bind (Adapter.wanted id) = some text →
      reg.entry id y = some text ∨ (y.bind reg.adapter).bind (Adapter.wanted id) = some text →
        reg.entry id x = reg.entry id y ∧ (x.bind reg.adapter).bind (Adapter.wanted id) =
          (y.bind reg.adapter).bind (Adapter.wanted id) := by
    intro x y text hx hy
    have hadapter : ∀ z : Option CString,
        reg.entry id z = some text ∨ (z.bind reg.adapter).bind (Adapter.wanted id) = some text →
          ∃ key a, reg.adapter key = some a ∧ z.bind reg.adapter = some a ∧
            a.netCfgInstanceId = some text := by
      intro z hz
      rcases hz with hz | hz
      · obtain ⟨a, ha, hfound⟩ := Option.bind_eq_some_iff.mp hz
        obtain ⟨key, -, hkey⟩ := Option.bind_eq_some_iff.mp ha
        exact ⟨key, a, hkey, ha, netCfg_of_selected (Or.inl hfound)⟩
      · obtain ⟨a, ha, hwanted⟩ := Option.bind_eq_some_iff.mp hz
        obtain ⟨key, -, hkey⟩ := Option.bind_eq_some_iff.mp ha
        exact ⟨key, a, hkey, ha, netCfg_of_selected (Or.inr hwanted)⟩
    obtain ⟨key, a, hkey, ha, hnet⟩ := hadapter x hx
    obtain ⟨key', a', hkey', ha', hnet'⟩ := hadapter y hy
    obtain rfl := hdistinct key key' a a' text hkey hkey' hnet hnet'
    unfold Registry.entry
    rw [ha, ha']
    exact ⟨rfl, rfl⟩
  intro name hname a n ha
  have hentry := eq_of_filterMap_eq hsame h name hname
  obtain ⟨key, -, hkey⟩ := Option.bind_eq_some_iff.mp ha
  unfold Registry.entry at hentry
  rw [ha] at hentry
  exact (found_eq_wanted_iff (hnumbered key a hkey)).mp hentry n

theorem Listed.exact_iff {o : Outcome (Option Deviceids)} {t : Machine} (hread : reg.Readable)
    (h : Listed reg id o t) :
    Exact reg id o ↔ reg.Fits ∧ reg.candidates id = reg.wanted id := by
  rcases h with ⟨-, hfits, ids, cands, rfl, hholds, htexts, -⟩ | ⟨-, hcut, rfl⟩ | ⟨hno, -⟩
  · constructor
    · rintro ⟨ids', cands', hids, hentries, hwanted⟩
      obtain rfl := Option.some.inj (Outcome.returned.inj hids)
      have heq := hholds.entries.symm.trans hentries
      have hcands : cands = cands' := by
        have hmap := List.append_cancel_right heq
        exact List.map_injective_iff.mpr (Option.some_injective _) hmap
      rw [← htexts, hcands, hwanted]
      exact ⟨hfits, rfl⟩
    · rintro ⟨-, heq⟩
      exact ⟨ids, cands, rfl, hholds.entries, htexts.trans heq⟩
  · refine iff_of_false (fun h => ?_) fun h => hcut h.1
    obtain ⟨ids, cands, hreturned, -⟩ := h
    cases hreturned
  · exact absurd hread hno

end List

section Selection

variable {reg : Registry} {devices : CString → Option Int} {id : Int}
  {tr : List (Event Call Resp)} {o : Outcome (Option Deviceids)} {s : Machine}

/-- For every registry that can be read and every identifier, the list is exact
when the paths of the subkeys fit the buffer and the number of every TAP adapter
is read right; and where no two adapters share their GUID, only then. -/
theorem selection_exact_iff (hread : reg.Readable) (hnumbered : reg.Numbered)
    (hr : (regQuery networkAdapters id).Runs tr o)
    (hs : (machine reg devices).Steps Machine.empty tr s) :
    (reg.Fits ∧ reg.ReadsRight id → Exact reg id o) ∧
      (reg.Distinct → (Exact reg id o ↔ reg.Fits ∧ reg.ReadsRight id)) := by
  have hexact := (regQuery_wp.of_runs hr hs).exact_iff hread
  have hsuffices : reg.Fits ∧ reg.ReadsRight id → Exact reg id o := fun h =>
    hexact.mpr ⟨h.1, candidates_eq_wanted hnumbered h.2⟩
  refine ⟨hsuffices, fun hdistinct => ⟨fun h => ?_, hsuffices⟩⟩
  obtain ⟨hfits, heq⟩ := hexact.mp h
  exact ⟨hfits, readsRight_of_eq hnumbered hdistinct heq⟩

theorem numbered_single (n : Nat) : (Registry.single (instanceId n)).Numbered := by
  intro name a ha device hdevice _
  rw [adapter_single ha] at hdevice
  exact ⟨n, (Option.some.inj hdevice).symm⟩

/-- Instance 0003, by its number. -/
theorem selection_exact_three : ∃ tr o s,
    (regQuery networkAdapters 3).Runs tr o ∧
      (machine (Registry.single (instanceId 3)) fun _ => none).Steps Machine.empty tr s ∧
      Exact (Registry.single (instanceId 3)) 3 o := by
  obtain ⟨tr, o, s, hr, hs⟩ := Kernel.exists_steps_of
    (machine_replies (Registry.single (instanceId 3)) fun _ => none)
    (regQuery networkAdapters 3) Machine.roomy_empty
  have hreads : (Registry.single (instanceId 3)).ReadsRight 3 := by
    intro name _ a n ha _ hdevice _
    obtain ⟨key, -, hkey⟩ := Option.bind_eq_some_iff.mp ha
    rw [adapter_single hkey] at hdevice
    obtain rfl := instanceId_inj (Option.some.inj hdevice)
    exact Or.inr (Or.inl (by decide))
  exact ⟨tr, o, s, hr, hs,
    (selection_exact_iff (readable_single _) (numbered_single 3) hr hs).1
      ⟨fits_single _, hreads⟩⟩

/-- Instance 0008 is not found by its number. -/
theorem selection_misses_eight : ¬ ∀ (reg : Registry) (devices : CString → Option Int) (id : Int)
    (tr : List (Event Call Resp)) (o : Outcome (Option Deviceids)) (s : Machine),
    reg.Readable → reg.Fits → reg.Numbered → (regQuery networkAdapters id).Runs tr o →
      (machine reg devices).Steps Machine.empty tr s → Exact reg id o := by
  intro hclaim
  obtain ⟨tr, o, s, hr, hs⟩ := Kernel.exists_steps_of
    (machine_replies (Registry.single (instanceId 8)) fun _ => none)
    (regQuery networkAdapters 8) Machine.roomy_empty
  have hexact := hclaim _ _ _ _ _ _ (readable_single _) (fits_single _) (numbered_single 8) hr hs
  obtain ⟨-, heq⟩ := ((regQuery_wp.of_runs hr hs).exact_iff (readable_single _)).mp hexact
  have hdistinct : (Registry.single (instanceId 8)).Distinct := by
    intro name name' a a' text ha ha' _ _
    rw [adapter_single ha, adapter_single ha']
  have hreads := readsRight_of_eq (numbered_single 8) hdistinct heq
  have htap : (Adapter.tap (instanceId 8)).IsTap :=
    ⟨CString.lit "tap0901", rfl, Or.inl (by decide)⟩
  have hadapter : (Registry.single (instanceId 8)).adapter (CString.lit "0001") =
      some (.tap (instanceId 8)) := by
    unfold Registry.single
    dsimp only
    rw [if_pos rfl]
  have hright := hreads (some (CString.lit "0001")) (List.mem_singleton_self _)
    (.tap (instanceId 8)) 8 hadapter htap rfl (Option.some_ne_none _)
  rcases hright with hany | h8 | hthousand | ⟨hno, -⟩
  · exact absurd hany (by decide)
  · omega
  · omega
  · exact hno rfl

end Selection

end Libtuntap.Windows
