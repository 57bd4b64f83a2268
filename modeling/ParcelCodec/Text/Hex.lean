/-!
# Hexadecimal text

Digits of numbers and bytes in lowercase base sixteen.  Main statement: `digitValue_digit`, each
digit reads back as its value.
-/

namespace ParcelCodec.Text.Hex

/-- The digit of a value below sixteen. -/
def digit (n : Nat) : Char :=
  if n < 10 then Char.ofNat (48 + n) else Char.ofNat (87 + n)

/-- The value of a digit of either case. -/
def digitValue (c : Char) : Option Nat :=
  let n := c.toNat
  if 48 ≤ n && n ≤ 57 then some (n - 48)
  else if 97 ≤ n && n ≤ 102 then some (n - 87)
  else if 65 ≤ n && n ≤ 70 then some (n - 55)
  else none

theorem digitValue_digit : ∀ n < 16, digitValue (digit n) = some n := by decide

/-- Exactly `width` digits, most significant first. -/
def padded (width n : Nat) : List Char :=
  (List.range width).reverse.map fun i => digit (n / Nat.pow 16 i % 16)

/-- The fewest digits that spell a number. -/
def ofNat (n : Nat) : List Char :=
  padded (if n = 0 then 1 else Nat.log2 n / 4 + 1) n

/-- At least `width` digits, more if the number needs them. -/
def atLeast (width n : Nat) : List Char :=
  if n < Nat.pow 16 width then padded width n else ofNat n

/-- Two digits a byte. -/
def ofBytes (bytes : List UInt8) : List Char :=
  bytes.flatMap fun b => padded 2 b.toNat

/-- Reads pairs of digits; a lone digit or any other character is refused. -/
def toBytes? : List Char → Option (List UInt8)
  | [] => some []
  | [_] => none
  | high :: low :: rest => do
    let h ← digitValue high
    let l ← digitValue low
    let bytes ← toBytes? rest
    return UInt8.ofNat (16 * h + l) :: bytes

/-- Reads a number, most significant digit first. -/
def toNat? (cs : List Char) : Option Nat :=
  cs.foldlM (fun acc c => (digitValue c).map (16 * acc + ·)) 0

end ParcelCodec.Text.Hex
