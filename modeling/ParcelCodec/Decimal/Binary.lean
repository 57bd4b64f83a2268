/-!
# Binary floating-point numbers, as words

A floating-point slot is carried as its word, so that the payload of a NaN and the sign of a zero
survive.  This module says what a word denotes: a NaN, an infinity, or `± mantissa · 2 ^ exponent`.
-/

namespace ParcelCodec.Decimal

/-! ## §1. Formats. -/

/-- A binary interchange format. -/
structure Format where
  /-- Width of the fraction field. -/
  fractionBits : Nat
  /-- Width of the exponent field. -/
  exponentBits : Nat
  deriving Repr, DecidableEq

/-- Four-byte numbers. -/
def binary32 : Format := ⟨23, 8⟩

/-- Eight-byte numbers. -/
def binary64 : Format := ⟨52, 11⟩

/-- A finite magnitude `mantissa · 2 ^ exponent`. -/
structure Magnitude where
  /-- The significand, as an integer. -/
  mantissa : Nat
  /-- The weight of its last bit. -/
  exponent : Int
  /-- The next smaller number of the format is half as far away as the next larger one. -/
  tight : Bool
  deriving Repr, DecidableEq

/-- What a word denotes. -/
inductive Reading where
  /-- Not a number. -/
  | nan
  /-- An infinity; `true` is the negative one. -/
  | infinite (negative : Bool)
  /-- A finite number, zeros with their sign included. -/
  | finite (negative : Bool) (magnitude : Magnitude)
  deriving Repr, DecidableEq

namespace Format

/-- The sign bit of a word. -/
def negative (f : Format) (word : Nat) : Bool :=
  word.testBit (f.fractionBits + f.exponentBits)

/-- The fraction field of a word. -/
def fraction (f : Format) (word : Nat) : Nat :=
  word % Nat.pow 2 f.fractionBits

/-- The exponent field of a word. -/
def exponentField (f : Format) (word : Nat) : Nat :=
  word / Nat.pow 2 f.fractionBits % Nat.pow 2 f.exponentBits

/-- The weight of the last bit of a subnormal number. -/
def leastExponent (f : Format) : Int :=
  2 - Nat.pow 2 (f.exponentBits - 1) - f.fractionBits

/-- What a word denotes.  A zero exponent field holds the subnormal numbers, a full one the
infinities and NaNs, any other a number with a hidden leading bit. -/
def read (f : Format) (word : Nat) : Reading :=
  let fraction := f.fraction word
  let field := f.exponentField word
  if field = Nat.pow 2 f.exponentBits - 1 then
    if fraction = 0 then .infinite (f.negative word) else .nan
  else if field = 0 then
    .finite (f.negative word) ⟨fraction, f.leastExponent, false⟩
  else
    .finite (f.negative word)
      ⟨Nat.pow 2 f.fractionBits + fraction, f.leastExponent + field - 1,
        fraction == 0 && field != 1⟩

/-- Equality of numbers: a NaN equals nothing, and the two zeros are equal. -/
def same (f : Format) (a b : Nat) : Bool :=
  match f.read a, f.read b with
  | .nan, _ => false
  | _, .nan => false
  | .finite _ x, .finite _ y => a == b || (x.mantissa == 0 && y.mantissa == 0)
  | _, _ => a == b

end Format

/-! ## §2. Widening. -/

/-- The same four-byte magnitude among the eight-byte numbers, where each has the full width of
mantissa. -/
def Magnitude.widen (x : Magnitude) : Magnitude :=
  if x.mantissa = 0 then x
  else
    let shift := 52 - Nat.log2 x.mantissa
    let mantissa := x.mantissa * Nat.pow 2 shift
    ⟨mantissa, x.exponent - shift, mantissa == Nat.pow 2 52⟩

/-- A four-byte number among the eight-byte ones. -/
def Reading.widen : Reading → Reading
  | .finite negative x => .finite negative x.widen
  | other => other

end ParcelCodec.Decimal
