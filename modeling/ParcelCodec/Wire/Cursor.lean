import ParcelCodec.Step
import ParcelCodec.Text.Utf16

/-!
# Reading slots

A parcel is a run of bytes cut into slots, each a multiple of four bytes wide.  A cursor stands
at a position and holds the bytes from there on; a read answers one slot's content and moves the
cursor behind it.  A read that fails leaves the cursor behind whatever it had consumed by then.

Main statements: bytes read back as the number they were cut from (`littleEndian_bytesOf`), a read
takes the content that stands ahead (`Read.bytes_append`), and a read past the end leaves the
cursor where it was (`Read.bytes_of_remaining_lt`).
-/

namespace ParcelCodec.Wire

/-- A reading position: how many bytes lie behind it, and the bytes ahead. -/
structure Cursor where
  /-- The number of bytes consumed so far. -/
  index : Nat
  /-- The bytes still to be read. -/
  rest : List UInt8
  deriving Repr, DecidableEq

/-- The cursor at the start of a parcel. -/
def Cursor.ofBytes (bytes : List UInt8) : Cursor := ⟨0, bytes⟩

/-- The number of bytes still to be read. -/
def Cursor.remaining (c : Cursor) : Nat := c.rest.length

/-- The one way in which a slot can be wrong. -/
inductive Malformed where
  /-- The bytes end too early or do not form the content that the slot should hold. -/
  | malformed
  deriving Repr, DecidableEq

/-- A read of one slot or of several. -/
abbrev Read (α : Type) := Step Cursor Malformed α

/-! ## §1. Little-endian integers. -/

/-- The number spelled by bytes, least significant first. -/
def littleEndian : List UInt8 → Nat
  | [] => 0
  | b :: rest => b.toNat + 256 * littleEndian rest

/-- The least significant `width` bytes of a number, least significant first. -/
def bytesOf : (width : Nat) → Nat → List UInt8
  | 0, _ => []
  | width + 1, n => UInt8.ofNat n :: bytesOf width (n / 256)

@[simp] theorem length_bytesOf (width n : Nat) : (bytesOf width n).length = width := by
  induction width generalizing n with
  | zero => rfl
  | succ width ih => simp [bytesOf, ih]

/-- Bytes read back as the number they were cut from, up to what they can hold. -/
theorem littleEndian_bytesOf (width n : Nat) :
    littleEndian (bytesOf width n) = n % Nat.pow 256 width := by
  induction width generalizing n with
  | zero => simp [bytesOf, littleEndian, Nat.mod_one]
  | succ width ih =>
    have low : (UInt8.ofNat n).toNat = n % 256 := by simp
    have wider : Nat.pow 256 (width + 1) = 256 * Nat.pow 256 width := Nat.pow_succ'
    rw [bytesOf, littleEndian, ih, low, wider, Nat.mod_mul]

/-! ## §2. Fixed slots. -/

/-- A slot is a multiple of four bytes wide: the width that a content of `n` bytes takes. -/
def slotWidth (n : Nat) : Nat := (n + 3) / 4 * 4

theorem le_slotWidth (n : Nat) : n ≤ slotWidth n := by unfold slotWidth; omega

theorem four_dvd_slotWidth (n : Nat) : 4 ∣ slotWidth n := Nat.dvd_mul_left 4 _

namespace Read

/-- The next `n` bytes. -/
def bytes (n : Nat) : Read (List UInt8) := fun c =>
  let taken := c.rest.take n
  if taken.length = n then (.ok taken, ⟨c.index + n, c.rest.drop n⟩)
  else (.error .malformed, c)

/-- A read takes the content that stands ahead and moves the cursor behind it. -/
theorem bytes_append (i : Nat) (content rest : List UInt8) :
    bytes content.length ⟨i, content ++ rest⟩ = (.ok content, ⟨i + content.length, rest⟩) := by
  simp [bytes]

/-- A read past the end leaves the cursor where it was. -/
theorem bytes_of_remaining_lt {n : Nat} {c : Cursor} (h : c.remaining < n) :
    bytes n c = (.error .malformed, c) := by
  unfold Cursor.remaining at h
  have short : min n c.rest.length ≠ n := by omega
  simp [bytes, short]

/-- Skips what fills the slot behind a content of `n` bytes. -/
def padding (n : Nat) : Read Unit := do
  let _ ← bytes (slotWidth n - n)

/-- A four-byte word. -/
def word : Read UInt32 := do
  return UInt32.ofNat (littleEndian (← bytes 4))

/-- An eight-byte word. -/
def doubleWord : Read UInt64 := do
  return UInt64.ofNat (littleEndian (← bytes 8))

/-- A four-byte integer. -/
def int : Read Int32 := do return (← word).toInt32

/-- An eight-byte integer. -/
def long : Read Int64 := do return (← doubleWord).toInt64

/-- A truth value: an integer slot that holds zero or one. -/
def bool : Read Bool := do
  let n ← int
  if n = 0 then return false
  else if n = 1 then return true
  else Step.fail .malformed

/-- A byte, in the low bits of an integer slot. -/
def byte : Read Int8 := do return (← int).toInt8

/-- A short, in the low bits of an integer slot. -/
def short : Read Int16 := do return (← int).toInt16

/-- A UTF-16 code unit, in the low bits of an integer slot. -/
def char : Read UInt16 := do return (← word).toUInt16

/-! ## §3. Slots of variable width. -/

/-- A length: minus one announces an absent content, and no other length is negative. -/
def length : Read (Option Nat) := do
  let n ← int
  if n = -1 then return none
  else if n < 0 then Step.fail .malformed
  else return some n.toInt.toNat

/-- Pairs of bytes as UTF-16 code units. -/
def units : List UInt8 → List UInt16
  | low :: high :: rest => UInt16.ofNat (low.toNat + 256 * high.toNat) :: units rest
  | _ => []

/-- A text or its absence: a count of code units, the units, a zero unit, and padding. -/
def string : Read (Option String) := do
  match ← length with
  | none => return none
  | some n =>
    let content := units (← bytes ((n + 1) * 2))
    -- The zero unit is looked at before the padding, and the units only behind it.
    if content[n]? = some 0 then
      padding ((n + 1) * 2)
      match Text.Utf16.decode (content.take n) with
      | some text => return some (.ofList text)
      | none => Step.fail .malformed
    else Step.fail .malformed

/-- Bytes or their absence: a count, the bytes, and padding. -/
def byteArray : Read (Option (List UInt8)) := do
  match ← length with
  | none => return none
  | some n =>
    let content ← bytes n
    padding n
    return some content

/-- A counted run of slots or its absence.  A count beyond the number of bytes left is refused at
once. -/
def array (element : Read α) : Read (Option (List α)) := do
  match ← length with
  | none => return none
  | some n =>
    if (← Step.get).remaining < n then Step.fail .malformed
    else return some (← Step.replicate n element)

end Read

end ParcelCodec.Wire
