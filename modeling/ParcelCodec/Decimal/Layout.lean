import ParcelCodec.Decimal.Shortest

/-!
# Texts of floating-point numbers

Three printers share the shortest digits and differ in a handful of decisions, each written down
once as a `Layout`: where positional notation ends, whether a whole number keeps a fraction, how
an exponent is written, and where a tie between two equally near digits goes.
-/

namespace ParcelCodec.Decimal

/-! ## §1. Layouts. -/

/-- The decisions of one printer. -/
structure Layout where
  /-- The exponents (of the first digit) that are written positionally. -/
  positional : Int → Bool
  /-- A whole number is written with a fraction of zero. -/
  wholeFraction : Bool
  /-- A positive exponent is written with its sign. -/
  exponentPlus : Bool
  /-- Where a tie between two shortest decimals goes. -/
  tie : Tie

/-- Never an exponent, and no fraction on a whole number. -/
def Layout.plain : Layout := ⟨fun _ => true, false, false, .up⟩

/-- An exponent outside `1e-4 ≤ x < 1e16`, and a fraction on every positional number. -/
def Layout.scientific : Layout := ⟨fun e => -4 ≤ e && e < 16, true, false, .up⟩

/-- An exponent outside `1e-5 ≤ x < 1e16`, always signed. -/
def Layout.json : Layout := ⟨fun e => -5 ≤ e && e < 16, true, true, .even⟩

/-! ## §2. Printing. -/

/-- The digits of a natural number in base ten. -/
def natDigits (n : Nat) : List Char :=
  Nat.toDigits 10 n

/-- An integer with a minus sign if it is negative. -/
def intDigits (n : Int) : List Char :=
  if n < 0 then '-' :: natDigits n.natAbs else natDigits n.natAbs

namespace Layout

/-- Digits with the point where the exponent of the first digit puts it. -/
def point (l : Layout) (digits : List Char) (exponent : Int) : List Char :=
  if exponent < 0 then
    "0.".toList ++ List.replicate (-exponent - 1).toNat '0' ++ digits
  else
    let whole := exponent.toNat + 1
    if digits.length ≤ whole then
      digits ++ List.replicate (whole - digits.length) '0'
        ++ (if l.wholeFraction then ".0".toList else [])
    else digits.take whole ++ '.' :: digits.drop whole

/-- One digit before the point, the rest after it, and the exponent. -/
def power (l : Layout) (digits : List Char) (exponent : Int) : List Char :=
  let tail := digits.drop 1
  digits.take 1 ++ (if tail.isEmpty then [] else '.' :: tail) ++ ['e']
    ++ (if l.exponentPlus && 0 ≤ exponent then ['+'] else []) ++ intDigits exponent

/-- A magnitude. -/
def magnitude (l : Layout) (x : Magnitude) : List Char :=
  let short := x.shortest l.tie
  let digits := natDigits short.digits
  let exponent := short.scale + digits.length - 1
  if l.positional exponent then l.point digits exponent else l.power digits exponent

/-- What a word denotes, as text; `none` for NaN and the infinities. -/
def finite? (l : Layout) : Reading → Option (List Char)
  | .finite negative x => some ((if negative then ['-'] else []) ++ l.magnitude x)
  | _ => none

/-- What a word denotes, as text. -/
def text (l : Layout) (r : Reading) : String :=
  match r with
  | .nan => "NaN"
  | .infinite true => "-inf"
  | .infinite false => "inf"
  | .finite negative x => .ofList ((if negative then ['-'] else []) ++ l.magnitude x)

end Layout

end ParcelCodec.Decimal
