import Mathlib.Data.List.Basic
import Mathlib.Data.List.Induction
import Mathlib.Tactic.NormNum
import ParcelCodec.Value.Json

/-!
# Integers as JSON

An integer of one to sixteen bytes is written in base ten and a longer one in base sixteen, both
without a mark that says which.  Each notation keeps different integers apart: decimal text spells
its number, and hexadecimal text its bytes.  The two notations meet where a longer integer happens
to have decimal digits only, as if it were packed decimal (`IsPackedDecimal`).  It is then written
like the shorter integer that these digits spell in base ten.

Main statements: `hexText_eq_decimal_iff`, `written_alike_iff`.
-/

namespace ParcelCodec

/-! ## §1. Decimal digits. -/

namespace Decimal

/-- The digits of a number start with a zero only if it is zero. -/
theorem eq_zero_of_head?_toDigits {n : Nat} (h : (Nat.toDigits 10 n).head? = some '0') : n = 0 := by
  induction n using Nat.strongRecOn with
  | ind n ih =>
    rw [Nat.toDigits_eq_if (by decide)] at h
    by_cases small : n < 10
    · rw [if_pos small] at h
      exact Nat.digitChar_eq_zero.mp (Option.some.inj h)
    · rw [if_neg small, List.head?_append_of_ne_nil _ Nat.toDigits_ne_nil] at h
      have := ih (n / 10) (by omega) h
      omega

/-- A decimal digit is the digit of its distance from `0`, which is below ten. -/
theorem eq_digitChar_of_isDigit {c : Char} (h : c.isDigit = true) :
    c.toNat - '0'.toNat < 10 ∧ c = (c.toNat - '0'.toNat).digitChar := by
  have within : 48 ≤ c.toNat ∧ c.toNat ≤ 57 := by
    simpa [Char.isDigit, UInt32.le_iff_toNat_le] using h
  have digit : c.toNat - '0'.toNat < 10 := by
    show c.toNat - 48 < 10
    omega
  refine ⟨digit, Char.toNat_inj.mp ?_⟩
  rw [Nat.toNat_digitChar_of_lt_ten digit]
  show c.toNat = 48 + (c.toNat - 48)
  omega

/-- Digits without a leading zero are the digits of the number that they spell. -/
theorem toDigits_ofDigitChars {cs : List Char} (digits : ∀ c ∈ cs, c.isDigit = true)
    (filled : cs ≠ []) (leading : cs.head? ≠ some '0') :
    Nat.toDigits 10 (Nat.ofDigitChars 10 cs 0) = cs := by
  induction cs using List.reverseRecOn with
  | nil => exact absurd rfl filled
  | append_singleton front c ih =>
    obtain ⟨front_digits, last⟩ := List.forall_mem_append.mp digits
    obtain ⟨small, same⟩ := eq_digitChar_of_isDigit (last c List.mem_cons_self)
    rw [Nat.ofDigitChars_append, Nat.ofDigitChars_cons, Nat.ofDigitChars_nil]
    by_cases single : front = []
    · subst single
      rw [Nat.ofDigitChars_nil, Nat.mul_zero, Nat.zero_add, Nat.toDigits_of_lt_base small, ← same]
      rfl
    · rw [List.head?_append_of_ne_nil _ single] at leading
      have before := ih front_digits single leading
      have pos : 0 < Nat.ofDigitChars 10 front 0 := by
        rw [Nat.pos_iff_ne_zero]
        intro zero
        rw [zero, Nat.toDigits_zero] at before
        exact leading (before ▸ rfl)
      rw [← Nat.toDigits_append_toDigits (by decide) pos small, before,
        Nat.toDigits_of_lt_base small, ← same]

/-- Different integers have different digits. -/
theorem intDigits_injective {m n : Int} (h : intDigits m = intDigits n) : m = n := by
  have unsigned : ∀ k, ∀ cs : List Char, natDigits k ≠ '-' :: cs := by
    intro k cs same
    have digit : '-'.isDigit = true :=
      Nat.isDigit_of_mem_toDigits (b := 10) (n := k) (by decide) (by decide)
        (show '-' ∈ natDigits k from same ▸ List.mem_cons_self)
    cases digit
  have digits : ∀ {j k : Nat}, natDigits j = natDigits k → j = k := by
    intro j k same
    rw [← Nat.ofDigitChars_ten_toDigits (n := j), ← Nat.ofDigitChars_ten_toDigits (n := k)]
    exact congrArg (Nat.ofDigitChars 10 · 0) same
  unfold intDigits at h
  by_cases negative : m < 0 <;> by_cases negative' : n < 0
  · rw [if_pos negative, if_pos negative'] at h
    have := digits (List.cons.inj h).2
    omega
  · rw [if_pos negative, if_neg negative'] at h
    exact absurd h.symm (unsigned _ _)
  · rw [if_neg negative, if_pos negative'] at h
    exact absurd h (unsigned _ _)
  · rw [if_neg negative, if_neg negative'] at h
    have := digits h
    omega

end Decimal

/-! ## §2. Hexadecimal digits. -/

namespace Text.Hex

/-- The first byte gives the first two digits: its upper half, then its lower half. -/
theorem ofBytes_cons (b : UInt8) (rest : List UInt8) :
    ofBytes (b :: rest) = digit (b.toNat / 16) :: digit (b.toNat % 16) :: ofBytes rest := by
  have low : b.toNat / 16 % 16 = b.toNat / 16 := Nat.mod_eq_of_lt (by have := b.toNat_lt; omega)
  simp [ofBytes, padded, List.range_succ, low]

/-- Two digits for every byte. -/
theorem length_ofBytes (bytes : List UInt8) : (ofBytes bytes).length = 2 * bytes.length := by
  induction bytes with
  | nil => rfl
  | cons b rest ih =>
    rw [ofBytes_cons, List.length_cons, List.length_cons, ih, List.length_cons]
    omega

/-- Bytes in hexadecimal read back. -/
theorem toBytes?_ofBytes (bytes : List UInt8) : toBytes? (ofBytes bytes) = some bytes := by
  induction bytes with
  | nil => rfl
  | cons b rest ih =>
    have high := digitValue_digit (b.toNat / 16) (by have := b.toNat_lt; omega)
    have low := digitValue_digit (b.toNat % 16) (Nat.mod_lt _ (by decide))
    have whole : UInt8.ofNat (16 * (b.toNat / 16) + b.toNat % 16) = b := by
      rw [Nat.div_add_mod, UInt8.ofNat_toNat]
    rw [ofBytes_cons]
    simp only [toBytes?, high, low, ih, Option.bind_eq_bind, Option.bind_some, whole]
    rfl

/-- Different bytes have different hexadecimal digits. -/
theorem ofBytes_injective {a b : List UInt8} (h : ofBytes a = ofBytes b) : a = b := by
  have same := toBytes?_ofBytes a
  rw [h, toBytes?_ofBytes] at same
  exact (Option.some.inj same).symm

/-- A digit is a decimal one if its value is below ten. -/
theorem isDigit_digit_iff : ∀ n < 16, (digit n).isDigit = true ↔ n < 10 := by decide

/-- Below ten, hexadecimal digits are the decimal ones. -/
theorem digit_of_lt_ten : ∀ n < 10, digit n = n.digitChar := by decide

/-- No hexadecimal digit is a sign. -/
theorem digit_ne_minus : ∀ n < 16, digit n ≠ '-' := by decide

end Text.Hex

/-! ## §3. Packed decimals. -/

namespace Value

open Text.Hex (ofBytes ofBytes_cons length_ofBytes)

/-- The number that bytes spell if each of them holds two decimal digits. -/
def packedDecimal (bytes : List UInt8) : Nat :=
  bytes.foldl (fun n b => 10 * (10 * n + b.toNat / 16) + b.toNat % 16) 0

/-- The halves of some bytes are the decimal digits of an integer. -/
structure IsPackedDecimal (bytes : List UInt8) (n : Int) : Prop where
  digits : ∀ b ∈ bytes, b.toNat / 16 < 10 ∧ b.toNat % 16 < 10
  /-- The first digit is not zero. -/
  leading : ∀ b ∈ bytes.head?, b.toNat / 16 ≠ 0
  value : (packedDecimal bytes : Int) = n

/-- The hexadecimal digits of bytes are all decimal just when every half of a byte is below ten. -/
theorem isDigit_of_mem_ofBytes_iff (bytes : List UInt8) :
    (∀ c ∈ ofBytes bytes, c.isDigit = true)
      ↔ ∀ b ∈ bytes, b.toNat / 16 < 10 ∧ b.toNat % 16 < 10 := by
  induction bytes with
  | nil => exact ⟨fun _ => nofun, fun _ => nofun⟩
  | cons b rest ih =>
    have high := Text.Hex.isDigit_digit_iff (b.toNat / 16) (by have := b.toNat_lt; omega)
    have low := Text.Hex.isDigit_digit_iff (b.toNat % 16) (Nat.mod_lt _ (by decide))
    rw [ofBytes_cons, List.forall_mem_cons, List.forall_mem_cons, List.forall_mem_cons, high, low,
      ih, and_assoc]

/-- Hexadecimal text of packed decimals spells, in base ten, what they spell. -/
theorem ofDigitChars_ofBytes {bytes : List UInt8}
    (digits : ∀ b ∈ bytes, b.toNat / 16 < 10 ∧ b.toNat % 16 < 10) :
    Nat.ofDigitChars 10 (ofBytes bytes) 0 = packedDecimal bytes := by
  have generally : ∀ init, Nat.ofDigitChars 10 (ofBytes bytes) init
      = bytes.foldl (fun n b => 10 * (10 * n + b.toNat / 16) + b.toNat % 16) init := by
    induction bytes with
    | nil => exact fun _ => Nat.ofDigitChars_nil
    | cons b rest ih =>
      intro init
      obtain ⟨⟨high, low⟩, others⟩ := List.forall_mem_cons.mp digits
      rw [ofBytes_cons, Text.Hex.digit_of_lt_ten _ high, Text.Hex.digit_of_lt_ten _ low,
        Nat.ofDigitChars_cons_digitChar_of_lt_ten high,
        Nat.ofDigitChars_cons_digitChar_of_lt_ten low, ih others]
      rfl
  exact generally 0

/-- The digits begin with a zero just when the upper half of the first byte is zero. -/
theorem head?_ofBytes_iff (b : UInt8) (rest : List UInt8) :
    (ofBytes (b :: rest)).head? = some '0' ↔ b.toNat / 16 = 0 := by
  have only : ∀ n < 16, Text.Hex.digit n = '0' ↔ n = 0 := by decide
  rw [ofBytes_cons, List.head?_cons, Option.some_inj,
    only _ (by have := b.toNat_lt; omega)]

/-- Hexadecimal text is decimal text exactly where it stands for packed decimals. -/
theorem hexText_eq_decimal_iff {bytes : List UInt8} (filled : bytes ≠ []) (n : Int) :
    hexText bytes = decimal n ↔ IsPackedDecimal bytes n := by
  obtain ⟨b, rest, rfl⟩ := List.exists_cons_of_ne_nil filled
  have texts : hexText (b :: rest) = decimal n ↔ ofBytes (b :: rest) = Decimal.intDigits n :=
    String.ofList_inj
  rw [texts]
  constructor
  · intro same
    -- A minus sign is no hexadecimal digit.
    have natural : ¬ n < 0 := by
      intro negative
      rw [Decimal.intDigits, if_pos negative, ofBytes_cons] at same
      have high : b.toNat / 16 < 16 := by have := b.toNat_lt; omega
      exact Text.Hex.digit_ne_minus _ high (List.cons.inj same).1
    rw [Decimal.intDigits, if_neg natural, Decimal.natDigits] at same
    have digits : ∀ d ∈ b :: rest, d.toNat / 16 < 10 ∧ d.toNat % 16 < 10 := by
      rw [← isDigit_of_mem_ofBytes_iff, same]
      exact fun _ => Nat.isDigit_of_mem_toDigits (by decide) (by decide)
    refine ⟨digits, ?_, ?_⟩
    · rintro _ ⟨⟩ zero
      rw [← head?_ofBytes_iff b rest, same] at zero
      have lengths := congrArg List.length same
      rw [length_ofBytes, Decimal.eq_zero_of_head?_toDigits zero, Nat.toDigits_zero,
        List.length_cons, List.length_singleton] at lengths
      omega
    · rw [← ofDigitChars_ofBytes digits, same, Nat.ofDigitChars_ten_toDigits]
      omega
  · rintro ⟨digits, leading, rfl⟩
    have text := Decimal.toDigits_ofDigitChars ((isDigit_of_mem_ofBytes_iff _).mpr digits)
      (ofBytes_cons b rest ▸ List.cons_ne_nil _ _) (mt (head?_ofBytes_iff b rest).mp (leading b rfl))
    rw [ofDigitChars_ofBytes digits] at text
    rw [Decimal.intDigits, if_neg (by omega), Int.natAbs_natCast]
    exact text.symm

/-! ## §4. Short and long integers. -/

/-- The magnitude of bytes stays below the next power of 256. -/
theorem bigEndian_lt (bytes : List UInt8) : bigEndian bytes < 256 ^ bytes.length := by
  induction bytes using List.reverseRecOn with
  | nil => exact Nat.one_pos
  | append_singleton front b ih =>
    unfold bigEndian at ih ⊢
    rw [List.foldl_append, List.length_append, List.length_singleton, Nat.pow_succ]
    show _ * 256 + b.toNat < _
    have := b.toNat_lt
    omega

/-- So does the signed number they stand for. -/
theorem twosComplement_lt (bytes : List UInt8) : twosComplement bytes < 256 ^ bytes.length := by
  have bound : (bigEndian bytes : Int) < 256 ^ bytes.length := by
    exact_mod_cast bigEndian_lt bytes
  unfold twosComplement
  split
  · exact Int.one_pos
  · next b rest =>
    split
    · have := Int.natCast_nonneg (Nat.pow 256 (b :: rest).length)
      omega
    · exact bound

/-- A short integer and a long one whose hexadecimal digits are the decimal digits of the short
one. -/
structure Mistaken (short long : List UInt8) : Prop where
  shortLength : 14 ≤ short.length ∧ short.length ≤ 16
  longLength : 17 ≤ long.length ∧ long.length ≤ 19
  packed : IsPackedDecimal long (twosComplement short)

/-- Up to sixteen bytes are shown as a signed decimal number. -/
theorem bigIntegerText_of_short {bytes : List UInt8} (filled : bytes ≠ [])
    (short : bytes.length ≤ 16) : bigIntegerText bytes = decimal (twosComplement bytes) := by
  have decimally : ¬ (bytes.isEmpty || decide (16 < bytes.length)) = true := by
    simp [filled, short]
  rw [bigIntegerText, if_neg decimally]

/-- Beyond sixteen bytes the text is the bytes in hexadecimal. -/
theorem bigIntegerText_of_long {bytes : List UInt8} (long : 16 < bytes.length) :
    bigIntegerText bytes = hexText bytes := by
  rw [bigIntegerText, if_pos (by simp [long])]

/-- A packed decimal has two digits for each byte. -/
theorem length_toDigits_of_packed {bytes : List UInt8} {n : Int} (filled : bytes ≠ [])
    (h : IsPackedDecimal bytes n) :
    (Nat.toDigits 10 n.natAbs).length = 2 * bytes.length := by
  have natural : ¬ n < 0 := by
    have := h.value
    omega
  have same : ofBytes bytes = Decimal.intDigits n :=
    String.ofList_inj.mp ((hexText_eq_decimal_iff filled n).mpr h)
  rw [← length_ofBytes, same, Decimal.intDigits, if_neg natural]
  rfl

/-- Only integers of certain lengths can be mistaken for each other. -/
theorem mistaken_of_packed {short long : List UInt8} (isShort : short.length ≤ 16)
    (isLong : 16 < long.length) (packed : IsPackedDecimal long (twosComplement short)) :
    Mistaken short long := by
  have digits := length_toDigits_of_packed (List.ne_nil_of_length_pos (by omega)) packed
  have below : (twosComplement short).natAbs < 256 ^ short.length := by
    have bound := twosComplement_lt short
    rw [← packed.value] at bound ⊢
    rw [Int.natAbs_natCast]
    exact_mod_cast bound
  have many : 14 ≤ short.length := by
    by_contra few
    have small : (twosComplement short).natAbs < 10 ^ 33 :=
      calc _ < 256 ^ short.length := below
        _ ≤ 256 ^ 13 := Nat.pow_le_pow_right (by decide) (by omega)
        _ < 10 ^ 33 := by decide
    have := (Nat.length_toDigits_le_iff (by decide) (by decide)).mpr small
    omega
  have within : long.length ≤ 19 := by
    have small : (twosComplement short).natAbs < 10 ^ 39 :=
      calc _ < 256 ^ short.length := below
        _ ≤ 256 ^ 16 := Nat.pow_le_pow_right (by decide) isShort
        _ < 10 ^ 39 := by decide
    have := (Nat.length_toDigits_le_iff (by decide) (by decide)).mpr small
    omega
  exact ⟨⟨many, isShort⟩, ⟨isLong, within⟩, packed⟩

/-- A short integer is written like a long one exactly if it is mistaken for it. -/
theorem bigIntegerText_eq_iff_mistaken {short long : List UInt8} (filled : short ≠ [])
    (isShort : short.length ≤ 16) (isLong : 16 < long.length) :
    bigIntegerText short = bigIntegerText long ↔ Mistaken short long := by
  rw [bigIntegerText_of_short filled isShort, bigIntegerText_of_long isLong, eq_comm,
    hexText_eq_decimal_iff (List.ne_nil_of_length_pos (by omega))]
  exact ⟨mistaken_of_packed isShort isLong, Mistaken.packed⟩

/-- Bytes that are mistaken for one another are written alike. -/
theorem Mistaken.bigIntegerText_eq {short long : List UInt8} (h : Mistaken short long) :
    bigIntegerText short = bigIntegerText long := by
  have := h.shortLength
  have := h.longLength
  exact (bigIntegerText_eq_iff_mistaken (List.ne_nil_of_length_pos (by omega)) (by omega)
    (by omega)).mpr h

/-- Only the integer without bytes is written as nothing. -/
theorem bigIntegerText_eq_empty_iff {bytes : List UInt8} : bigIntegerText bytes = "" ↔ bytes = [] := by
  constructor
  · intro nothing
    by_contra filled
    by_cases long : 16 < bytes.length
    · rw [bigIntegerText_of_long long] at nothing
      have lengths := congrArg (List.length ∘ String.toList) nothing
      simp only [hexText, Function.comp_apply, String.toList_ofList, length_ofBytes] at lengths
      simp at lengths
      exact filled lengths
    · rw [bigIntegerText_of_short filled (by omega)] at nothing
      have digits := congrArg String.toList nothing
      rw [decimal, String.toList_ofList, Decimal.intDigits] at digits
      split at digits
      · cases digits
      · exact Nat.toDigits_ne_nil digits
  · rintro rfl
    rfl

/-- Integers are written alike if they are of one kind and equal, or of two kinds and mistaken for
each other. -/
theorem bigIntegerText_eq_iff {a b : List UInt8} (different : twosComplement a ≠ twosComplement b) :
    bigIntegerText a = bigIntegerText b ↔ Mistaken a b ∨ Mistaken b a := by
  refine ⟨fun same => ?_, ?_⟩
  · have distinct : a ≠ b := fun equal => different (congrArg twosComplement equal)
    have filled : a ≠ [] := fun empty => distinct
      (empty.trans (bigIntegerText_eq_empty_iff.mp (same ▸ bigIntegerText_eq_empty_iff.mpr empty)).symm)
    have filled' : b ≠ [] := fun empty => distinct
      ((bigIntegerText_eq_empty_iff.mp (same ▸ bigIntegerText_eq_empty_iff.mpr empty)).trans empty.symm)
    by_cases long : 16 < a.length <;> by_cases long' : 16 < b.length
    · rw [bigIntegerText_of_long long, bigIntegerText_of_long long'] at same
      exact absurd (Text.Hex.ofBytes_injective (String.ofList_inj.mp same)) distinct
    · exact .inr ((bigIntegerText_eq_iff_mistaken filled' (by omega) long).mp same.symm)
    · exact .inl ((bigIntegerText_eq_iff_mistaken filled (by omega) long').mp same)
    · rw [bigIntegerText_of_short filled (by omega), bigIntegerText_of_short filled' (by omega)]
        at same
      exact absurd (Decimal.intDigits_injective (String.ofList_inj.mp same)) different
  · rintro (h | h)
    · exact h.bigIntegerText_eq
    · exact h.bigIntegerText_eq.symm

/-! ## §5. The JSON of integers and decimals. -/

/-- An integer is rendered as its text. -/
theorem toJson_bigInteger (bytes : List UInt8) :
    toJson (.bigInteger bytes) = .text (bigIntegerText bytes) := rfl

/-- A decimal is rendered as its scale beside its unscaled integer. -/
theorem toJson_bigDecimal (unscaled : List UInt8) (scale : Int32) :
    toJson (.bigDecimal unscaled scale)
      = .members [("scale", integerJson scale.toInt), ("unscaled", toJson (.bigInteger unscaled))] := by
  have apart : "unscaled" ≠ "scale" := by decide
  have order : "scale" < "unscaled" := by decide
  rw [toJson_bigInteger, toJson]
  simp only [Json.sorted, List.foldl_cons, List.foldl_nil, Json.setMember, apart.symm, order,
    if_true, if_false]

/-- Two integers are rendered alike only if they are equal. -/
theorem integerJson_inj {m n : Int} : integerJson m = integerJson n ↔ m = n := by
  refine ⟨fun same => ?_, congrArg integerJson⟩
  exact Decimal.intDigits_injective (String.ofList_inj.mp (Json.num.inj same))

/-- Different integers have different JSON, except that a short one and a long one that is the packed
decimal of the short one have the same; and so for the unscaled parts of decimals. -/
theorem written_alike_iff {a b : List UInt8} (different : twosComplement a ≠ twosComplement b) :
    (toJson (.bigInteger a) = toJson (.bigInteger b) ↔ Mistaken a b ∨ Mistaken b a)
      ∧ ∀ scale scale' : Int32,
        toJson (.bigDecimal a scale) = toJson (.bigDecimal b scale')
          ↔ scale = scale' ∧ (Mistaken a b ∨ Mistaken b a) := by
  have texts : toJson (.bigInteger a) = toJson (.bigInteger b) ↔ Mistaken a b ∨ Mistaken b a := by
    rw [← bigIntegerText_eq_iff different, toJson_bigInteger, toJson_bigInteger]
    exact ⟨fun same => Option.some.inj (Json.str.inj same), congrArg Json.text⟩
  refine ⟨texts, fun scale scale' => ?_⟩
  rw [← texts, toJson_bigDecimal, toJson_bigDecimal]
  simp only [Json.members, List.map_cons, List.map_nil, Json.obj.injEq, List.cons.injEq,
    Prod.mk.injEq, true_and, and_true, integerJson_inj, Int32.toInt_inj]

/-- The integer of thirty-four decimal ones, in fourteen bytes. -/
def decimalOnes : List UInt8 :=
  [0x36, 0xC8, 0x31, 0xA1, 0x80, 0xDC, 0x77, 0xF3, 0x48, 0xB5, 0xC7, 0x1C, 0x71, 0xC7]

/-- The integer of thirty-four hexadecimal ones, in seventeen bytes. -/
def hexOnes : List UInt8 := List.replicate 17 0x11

theorem packed_hexOnes : IsPackedDecimal hexOnes 1111111111111111111111111111111111 :=
  ⟨by decide +kernel, by decide +kernel, by decide +kernel⟩

/-- The integer behind thirty-four decimal ones is not mistaken for thirty-four hexadecimal ones. -/
theorem written_alike_iff_behindOnes :
    twosComplement (decimalOnes.dropLast ++ [0xC8]) ≠ twosComplement hexOnes
      ∧ toJson (.bigInteger (decimalOnes.dropLast ++ [0xC8])) ≠ toJson (.bigInteger hexOnes) := by
  have different : twosComplement (decimalOnes.dropLast ++ [0xC8]) ≠ twosComplement hexOnes := by
    decide
  refine ⟨different, fun same => ?_⟩
  rcases (written_alike_iff different).1.mp same with h | h
  · exact absurd (packed_hexOnes.value.symm.trans h.packed.value) (by decide)
  · exact absurd h.shortLength (by decide)

/-- Thirty-four ones in base ten and in base sixteen are different integers, and they have the same
JSON, as integers and as unscaled parts. -/
theorem ones_written_alike :
    twosComplement decimalOnes ≠ twosComplement hexOnes
      ∧ toJson (.bigInteger decimalOnes) = toJson (.bigInteger hexOnes)
      ∧ toJson (.bigDecimal decimalOnes 2) = toJson (.bigDecimal hexOnes 2) := by
  have value : twosComplement decimalOnes = 1111111111111111111111111111111111 := by decide
  have mistaken : Mistaken decimalOnes hexOnes :=
    ⟨by decide, by decide, value.symm ▸ packed_hexOnes⟩
  have same : toJson (.bigInteger decimalOnes) = toJson (.bigInteger hexOnes) :=
    congrArg Json.text mistaken.bigIntegerText_eq
  refine ⟨by decide, same, ?_⟩
  rw [toJson_bigDecimal, toJson_bigDecimal, same]

end Value

end ParcelCodec
