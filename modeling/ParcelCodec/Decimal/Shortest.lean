import ParcelCodec.Decimal.Binary

/-!
# The shortest decimal that reads back

A binary number stands for every real that rounds to it: an interval whose ends belong to it
exactly when the mantissa is even.  Its shortest decimal is the multiple of the *coarsest* power
of ten that meets this interval; if the grid meets it on both sides of the number, the nearer of
the two neighbours wins, and an exact tie is settled by the caller.

All comparisons are between integers: numbers are quarters of the last binary place, scaled so
that the grid is the integers times a common denominator.
-/

namespace ParcelCodec.Decimal

/-- Which neighbour an exact tie goes to. -/
inductive Tie where
  /-- The neighbour with the even last digit. -/
  | even
  /-- The larger neighbour. -/
  | up
  deriving Repr, DecidableEq

/-- A decimal number `digits · 10 ^ scale`. -/
structure Shortest where
  /-- The significant digits, as one integer. -/
  digits : Nat
  /-- The weight of the last digit. -/
  scale : Int
  deriving Repr, DecidableEq

namespace Magnitude

/-- Numerator of one quarter of the last binary place over the grid `10 ^ scale`. -/
def quarter (x : Magnitude) (scale : Int) : Nat :=
  Nat.pow 2 (x.exponent - 2).toNat * Nat.pow 10 (-scale).toNat

/-- Denominator that goes with `quarter`. -/
def gridStep (x : Magnitude) (scale : Int) : Nat :=
  Nat.pow 2 (2 - x.exponent).toNat * Nat.pow 10 scale.toNat

/-- Whether `c · 10 ^ scale` rounds to the number. -/
def holds (x : Magnitude) (scale : Int) (c : Nat) : Bool :=
  let unit := x.quarter scale
  let low := (4 * x.mantissa - if x.tight then 1 else 2) * unit
  let high := (4 * x.mantissa + 2) * unit
  let point := c * x.gridStep scale
  if x.mantissa % 2 = 0 then low ≤ point && point ≤ high else low < point && point < high

/-- The multiple of `10 ^ scale` that rounds to the number, if there is one. -/
def onGrid (x : Magnitude) (tie : Tie) (scale : Int) : Option Nat :=
  let step := x.gridStep scale
  let value := 4 * x.mantissa * x.quarter scale
  let below := value / step
  let above := below + 1
  match x.holds scale below, x.holds scale above with
  | false, false => none
  | true, false => some below
  | false, true => some above
  | true, true =>
    let down := value - below * step
    let up := above * step - value
    if down < up then some below
    else if up < down then some above
    else match tie with
      | .even => some (if below % 2 = 0 then below else above)
      | .up => some above

/-- A power of ten above the number. -/
def topScale (x : Magnitude) : Int :=
  let bits : Int := Nat.log2 (4 * x.mantissa + 2) + x.exponent - 1
  if 0 ≤ bits then bits / 3 + 1 else -(-bits / 4) + 1

/-- The finest grid that can be needed: the number itself is on it. -/
def bottomScale (x : Magnitude) : Int :=
  min 0 (x.exponent - 2)

/-- The shortest decimal that rounds to the number: grids from coarse to fine. -/
def shortest (x : Magnitude) (tie : Tie) : Shortest :=
  if x.mantissa = 0 then ⟨0, 0⟩
  else search (x.topScale - x.bottomScale).toNat x.topScale
where
  search : Nat → Int → Shortest
    | 0, scale => ⟨(x.onGrid tie scale).getD 0, scale⟩
    | n + 1, scale =>
      match x.onGrid tie scale with
      | some c => ⟨c, scale⟩
      | none => search n (scale - 1)

end Magnitude

end ParcelCodec.Decimal
