import ParcelCodec.Wire.Slot

/-!
# Parcels on a machine

A cursor counts in natural numbers.  A machine keeps the whole parcel and its position in a word:
sums wrap around, the width of a slot is found by clearing bits, and an access out of range ends the
program.  The calls on a parcel stand here as such a machine makes them, with words of any width
`w`.

All contents of fixed width are read and written alike (`Scalar`).  Every read comes down to
`Parcel.bytes`, which looks at the end of a range before it takes the range.
-/

namespace ParcelCodec.Wire

variable {w : Nat} {α σ : Type}

/-! ## §1. Words. -/

/-- The width of the slot for a content of `n` bytes: the two low bits of `n + 3` are cleared. -/
def padded (n : BitVec w) : BitVec w := (n + 3#w) &&& ~~~3#w

/-- How many bytes fill the slot behind a content of `n` bytes. -/
def fill (n : BitVec w) : BitVec w := padded n - n

/-! ## §2. Contents of fixed width. -/

/-- A content of fixed width, by what it stands for. -/
inductive Scalar : Type → Type where
  | int : Scalar Int32
  | long : Scalar Int64
  | float : Scalar UInt32
  | double : Scalar UInt64
  | bool : Scalar Bool
  | byte : Scalar Int8
  | short : Scalar Int16
  | char : Scalar UInt16

namespace Scalar

/-- How many bytes it takes. -/
def width : Scalar α → Nat
  | .long | .double => 8
  | _ => 4

/-- What bytes of its width stand for; a truth value is zero or one. -/
def content? : Scalar α → List UInt8 → Option α
  | .int, bs => some (UInt32.ofNat (littleEndian bs)).toInt32
  | .long, bs => some (UInt64.ofNat (littleEndian bs)).toInt64
  | .float, bs => some (UInt32.ofNat (littleEndian bs))
  | .double, bs => some (UInt64.ofNat (littleEndian bs))
  | .bool, bs =>
    let n := (UInt32.ofNat (littleEndian bs)).toInt32
    if n = 0 then some false else if n = 1 then some true else none
  | .byte, bs => some (UInt32.ofNat (littleEndian bs)).toInt32.toInt8
  | .short, bs => some (UInt32.ofNat (littleEndian bs)).toInt32.toInt16
  | .char, bs => some (UInt32.ofNat (littleEndian bs)).toUInt16

/-- Its written form. -/
def written : Scalar α → α → List UInt8
  | .int => Slot.int
  | .long => Slot.long
  | .float => Slot.word
  | .double => Slot.doubleWord
  | .bool => Slot.bool
  | .byte => Slot.byte
  | .short => Slot.short
  | .char => Slot.char

end Scalar

/-! ## §3. Reading. -/

/-- A parcel that is being read: all its bytes, and the position in a word. -/
structure Parcel (w : Nat) where
  data : List UInt8
  index : BitVec w
  deriving Repr, DecidableEq

/-- Why a call on a parcel has no answer. -/
inductive Halt where
  /-- The call reports that the bytes do not form what it reads. -/
  | malformed
  /-- An access out of range: the program ends. -/
  | outOfRange
  deriving Repr, DecidableEq

/-- A call that reads from a parcel. -/
abbrev Call (w : Nat) (α : Type) := Step (Parcel w) Halt α

/-- The items from `start` up to `stop`, if these are a range of the list. -/
def slice? (items : List α) (start stop : Nat) : Option (List α) :=
  if start ≤ stop ∧ stop ≤ items.length then some ((items.drop start).take (stop - start)) else none

namespace Parcel

/-- A parcel before anything is read from it. -/
def ofBytes (data : List UInt8) : Parcel w := ⟨data, 0⟩

def size (p : Parcel w) : BitVec w := BitVec.ofNat w p.data.length

/-- The number of bytes still to be read. -/
def remaining (p : Parcel w) : BitVec w := p.size - p.index

/-- What an access finds. -/
def found : Option α → Call w α
  | some a => pure a
  | none => Step.fail .outOfRange

/-- The next `n` bytes as they are. -/
def bytes (n : BitVec w) : Call w (List UInt8) := do
  let p ← Step.get
  if p.size < p.index + n then Step.fail .malformed
  else
    let taken ← found (slice? p.data p.index.toNat (p.index + n).toNat)
    Step.set { p with index := p.index + n }
    return taken

/-- The next bytes, copied into a place of `n` bytes, which they have to fill. -/
def fixed (n : Nat) : Call w (List UInt8) := do
  let content ← bytes (BitVec.ofNat w n)
  if content.length = n then return content else Step.fail .outOfRange

/-- Skips what fills the slot behind a content of `n` bytes. -/
def padding (n : BitVec w) : Call w Unit := do
  let _ ← bytes (fill n)

def scalar (s : Scalar α) : Call w α := do
  match s.content? (← fixed s.width) with
  | some a => return a
  | none => Step.fail .malformed

/-- A length: minus one announces an absent content, and no other length is negative. -/
def length : Call w (Option Nat) := do
  let n ← scalar .int
  if n = -1 then return none
  else if n < 0 then Step.fail .malformed
  else return some n.toInt.toNat

/-- A text or its absence. -/
def string : Call w (Option String) := do
  match ← length with
  | none => return none
  | some n =>
    let width := (BitVec.ofNat w n + 1#w) * 2#w
    let units := Read.units (← bytes width)
    -- The unit behind the text is looked at where it should stand.
    if (← found units[n]?) = 0 then
      padding width
      match Text.Utf16.decode (← found (slice? units 0 n)) with
      | some text => return some (.ofList text)
      | none => Step.fail .malformed
    else Step.fail .malformed

/-- Bytes or their absence. -/
def byteArray : Call w (Option (List UInt8)) := do
  match ← length with
  | none => return none
  | some n =>
    let content ← bytes (BitVec.ofNat w n)
    padding (BitVec.ofNat w n)
    return some content

/-- Goes on after a call that reports a failure, from where it stopped. -/
def attempt (x : Call w α) : Call w (Option α) := fun p =>
  match x p with
  | (.ok a, p') => (.ok (some a), p')
  | (.error .malformed, p') => (.ok none, p')
  | (.error .outOfRange, p') => (.error .outOfRange, p')

end Parcel

/-- Makes an item so many times, each time with what the last one left to remember. -/
def collect {ρ ε : Type} (item : σ → Step ρ ε (α × σ)) : Nat → σ → Step ρ ε (List α)
  | 0, _ => pure []
  | n + 1, memory => do
    let (a, memory) ← item memory
    return a :: (← collect item n memory)

/-- A counted run of items or its absence.  A count beyond the number of bytes left is refused at
once. -/
def Parcel.array (item : σ → Call w (α × σ)) (memory : σ) : Call w (Option (List α)) := do
  match ← length with
  | none => return none
  | some n =>
    if (← Step.get).remaining < BitVec.ofNat w n then Step.fail .malformed
    else return some (← collect item n memory)

/-! ## §4. Writing. -/

namespace Parcel

/-- The zeros that fill the slot behind a content of `n` bytes. -/
def zeros (n : BitVec w) : List UInt8 := List.replicate (fill n).toNat 0

/-- The written form of a text or of its absence, with words of width `w`. -/
def writtenString (w : Nat) : Option String → List UInt8
  | none => Slot.absent
  | some s =>
    let units := Text.Utf16.encode s.toList
    Slot.length units.length ++ units.flatMap (fun u => bytesOf 2 u.toNat) ++ [0, 0]
      ++ zeros ((BitVec.ofNat w units.length + 1#w) * 2#w)

/-- The written form of bytes or of their absence, with words of width `w`. -/
def writtenBytes (w : Nat) : Option (List UInt8) → List UInt8
  | none => Slot.absent
  | some content =>
    Slot.length content.length ++ content ++ zeros (BitVec.ofNat w content.length)

end Parcel

end ParcelCodec.Wire
