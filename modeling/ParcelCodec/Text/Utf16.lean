/-!
# UTF-16

A parcel stores text as UTF-16 code units.  `encode` writes a character above `U+FFFF` as a
surrogate pair, `decode` refuses units that form no text.  Main statements: every text is decoded
from its units (`decode_encode`), and whatever is decoded has these units (`encode_of_decode`).
-/

namespace ParcelCodec.Text.Utf16

/-- The units of one character. -/
def encodeChar (c : Char) : List UInt16 :=
  let n := c.toNat
  if n < 0x10000 then [UInt16.ofNat n]
  else
    let m := n - 0x10000
    [UInt16.ofNat (0xD800 + m / 0x400), UInt16.ofNat (0xDC00 + m % 0x400)]

/-- The units of a text. -/
def encode (cs : List Char) : List UInt16 :=
  cs.flatMap encodeChar

/-- A unit that opens a surrogate pair. -/
def isHigh (u : UInt16) : Bool := 0xD800 ≤ u.toNat && u.toNat < 0xDC00

/-- A unit that closes a surrogate pair. -/
def isLow (u : UInt16) : Bool := 0xDC00 ≤ u.toNat && u.toNat < 0xE000

/-- The text of the units; a surrogate without its partner is refused. -/
def decode : List UInt16 → Option (List Char)
  | [] => some []
  | [u] => if isHigh u || isLow u then none else some [Char.ofNat u.toNat]
  | u :: v :: rest =>
    if isHigh u then
      if isLow v then
        (decode rest).map
          (Char.ofNat (0x10000 + (u.toNat - 0xD800) * 0x400 + (v.toNat - 0xDC00)) :: ·)
      else none
    else if isLow u then none
    else (decode (v :: rest)).map (Char.ofNat u.toNat :: ·)

/-! ## Laws -/

/-- A character is no half of a surrogate pair. -/
theorem not_surrogate (c : Char) : c.toNat < 0xD800 ∨ 0xDFFF < c.toNat ∧ c.toNat < 0x110000 :=
  c.valid

/-- A character below `U+10000` is decoded from its one unit. -/
theorem decode_cons_of_lt {c : Char} (h : c.toNat < 0x10000) (units : List UInt16) :
    decode (UInt16.ofNat c.toNat :: units) = (decode units).map (c :: ·) := by
  have unit : (UInt16.ofNat c.toNat).toNat = c.toNat := by simpa using h
  have valid := not_surrogate c
  have high : isHigh (UInt16.ofNat c.toNat) = false := by
    simp only [isHigh, unit, Bool.and_eq_false_iff, decide_eq_false_iff_not]; omega
  have low : isLow (UInt16.ofNat c.toNat) = false := by
    simp only [isLow, unit, Bool.and_eq_false_iff, decide_eq_false_iff_not]; omega
  cases units <;> simp [decode, high, low, unit]

/-- A character from `U+10000` on is decoded from its pair of units. -/
theorem decode_pair_of_ge {c : Char} (h : 0x10000 ≤ c.toNat) (units : List UInt16) :
    decode (UInt16.ofNat (0xD800 + (c.toNat - 0x10000) / 0x400)
        :: UInt16.ofNat (0xDC00 + (c.toNat - 0x10000) % 0x400) :: units)
      = (decode units).map (c :: ·) := by
  have valid := not_surrogate c
  have first : (UInt16.ofNat (0xD800 + (c.toNat - 0x10000) / 0x400)).toNat
      = 0xD800 + (c.toNat - 0x10000) / 0x400 := by
    rw [UInt16.toNat_ofNat']; omega
  have second : (UInt16.ofNat (0xDC00 + (c.toNat - 0x10000) % 0x400)).toNat
      = 0xDC00 + (c.toNat - 0x10000) % 0x400 := by
    rw [UInt16.toNat_ofNat']; omega
  have high : isHigh (UInt16.ofNat (0xD800 + (c.toNat - 0x10000) / 0x400)) = true := by
    simp only [isHigh, first, Bool.and_eq_true, decide_eq_true_eq]; omega
  have low : isLow (UInt16.ofNat (0xDC00 + (c.toNat - 0x10000) % 0x400)) = true := by
    simp only [isLow, second, Bool.and_eq_true, decide_eq_true_eq]; omega
  have joined : 0x10000 + (0xD800 + (c.toNat - 0x10000) / 0x400 - 0xD800) * 0x400
      + (0xDC00 + (c.toNat - 0x10000) % 0x400 - 0xDC00) = c.toNat := by omega
  simp only [decode, high, low, if_true, first, second, joined, Char.ofNat_toNat]

/-- Decoding takes the first character off units that start with it. -/
theorem decode_encodeChar_append (c : Char) (units : List UInt16) :
    decode (encodeChar c ++ units) = (decode units).map (c :: ·) := by
  by_cases h : c.toNat < 0x10000
  · simpa [encodeChar, h] using decode_cons_of_lt h units
  · simpa [encodeChar, h] using decode_pair_of_ge (by omega) units

/-- Every text is decoded from its units. -/
theorem decode_encode (cs : List Char) : decode (encode cs) = some cs := by
  induction cs with
  | nil => rfl
  | cons c rest ih =>
    show decode (encodeChar c ++ encode rest) = _
    simp [decode_encodeChar_append, ih]

/-- A number below `U+110000` that is no surrogate is the number of its character. -/
theorem toNat_ofNat {n : Nat} (h : n < 0xD800 ∨ 0xDFFF < n ∧ n < 0x110000) :
    (Char.ofNat n).toNat = n := by
  have valid : n.isValidChar := h
  unfold Char.ofNat
  rw [dif_pos valid]
  rfl

/-- A unit outside of the surrogates encodes its character. -/
theorem encodeChar_unit {u : UInt16} (high : isHigh u = false) (low : isLow u = false) :
    encodeChar (Char.ofNat u.toNat) = [u] := by
  have small := u.toNat_lt
  have outside : u.toNat < 0xD800 ∨ 0xDFFF < u.toNat ∧ u.toNat < 0x110000 := by
    simp only [isHigh, isLow, Bool.and_eq_false_iff, decide_eq_false_iff_not] at high low
    omega
  have number := toNat_ofNat outside
  unfold encodeChar
  rw [number, if_pos (by omega), UInt16.ofNat_toNat]

/-- A surrogate pair encodes its character. -/
theorem encodeChar_pair {u v : UInt16} (high : isHigh u = true) (low : isLow v = true) :
    encodeChar (Char.ofNat (0x10000 + (u.toNat - 0xD800) * 0x400 + (v.toNat - 0xDC00)))
      = [u, v] := by
  simp only [isHigh, isLow, Bool.and_eq_true, decide_eq_true_eq] at high low
  generalize point : 0x10000 + (u.toNat - 0xD800) * 0x400 + (v.toNat - 0xDC00) = n
  have number := toNat_ofNat (n := n) (by omega)
  have first : 0xD800 + (n - 0x10000) / 0x400 = u.toNat := by omega
  have second : 0xDC00 + (n - 0x10000) % 0x400 = v.toNat := by omega
  unfold encodeChar
  rw [number, if_neg (by omega)]
  dsimp only
  rw [first, second, UInt16.ofNat_toNat, UInt16.ofNat_toNat]

/-- A decoded text has the units that it was decoded from. -/
theorem encode_of_decode : ∀ {units : List UInt16} {cs : List Char}, decode units = some cs →
    encode cs = units
  | [], _, h => by
    cases h
    rfl
  | [u], _, h => by
    unfold decode at h
    split at h
    · cases h
    · next outside =>
      rw [Bool.or_eq_true, not_or, Bool.not_eq_true, Bool.not_eq_true] at outside
      cases h
      show encodeChar _ ++ [] = _
      rw [List.append_nil, encodeChar_unit outside.1 outside.2]
  | u :: v :: rest, _, h => by
    unfold decode at h
    -- A low surrogate by itself is no text; anything else is a character of one unit.
    split at h
    · next high =>
      split at h
      · next low =>
        obtain ⟨cs, decoded, rfl⟩ := Option.map_eq_some_iff.mp h
        show encodeChar _ ++ encode cs = _
        -- Two surrogates are one character, which is encoded as the two again.
        rw [encodeChar_pair high low, encode_of_decode decoded]
        rfl
      · cases h
    · next high =>
      split at h
      · cases h
      · next low =>
        obtain ⟨cs, decoded, rfl⟩ := Option.map_eq_some_iff.mp h
        show encodeChar _ ++ encode cs = _
        rw [encodeChar_unit (Bool.eq_false_iff.mpr high) (Bool.eq_false_iff.mpr low),
          encode_of_decode decoded]
        rfl

end ParcelCodec.Text.Utf16
