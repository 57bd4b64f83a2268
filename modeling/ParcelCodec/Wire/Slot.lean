import ParcelCodec.Wire.Cursor

/-!
# Writing slots

Every slot has one written form, so a write of a slot is the list of its bytes.  Writes that can
fail are *emissions*: the bytes that were appended, and why the write stopped if it did.
-/

namespace ParcelCodec.Wire

/-! ## §1. The bytes of a slot. -/

namespace Slot

/-- A four-byte word. -/
def word (w : UInt32) : List UInt8 := bytesOf 4 w.toNat

/-- An eight-byte word. -/
def doubleWord (w : UInt64) : List UInt8 := bytesOf 8 w.toNat

/-- A four-byte integer. -/
def int (n : Int32) : List UInt8 := word n.toUInt32

/-- An eight-byte integer. -/
def long (n : Int64) : List UInt8 := doubleWord n.toUInt64

/-- A truth value, as one or zero. -/
def bool (b : Bool) : List UInt8 := int (if b then 1 else 0)

/-- A byte, widened to an integer slot. -/
def byte (n : Int8) : List UInt8 := int n.toInt32

/-- A short, widened to an integer slot. -/
def short (n : Int16) : List UInt8 := int n.toInt32

/-- A UTF-16 code unit, widened to an integer slot. -/
def char (u : UInt16) : List UInt8 := word u.toUInt32

/-- The length of an absent content. -/
def absent : List UInt8 := int (-1)

/-- The length of a content. -/
def length (n : Nat) : List UInt8 := word (UInt32.ofNat n)

/-- The zeros that fill the slot behind a content of `n` bytes. -/
def padding (n : Nat) : List UInt8 := List.replicate (slotWidth n - n) 0

/-- A text: a count of code units, the units, a zero unit, and padding. -/
def text (s : String) : List UInt8 :=
  let units := Text.Utf16.encode s.toList
  length units.length ++ units.flatMap (fun u => bytesOf 2 u.toNat) ++ [0, 0]
    ++ padding ((units.length + 1) * 2)

/-- A text or its absence. -/
def string : Option String → List UInt8
  | none => absent
  | some s => text s

/-- Bytes: a count, the bytes, and padding. -/
def bytes (content : List UInt8) : List UInt8 :=
  length content.length ++ content ++ padding content.length

/-- Bytes or their absence. -/
def byteArray : Option (List UInt8) → List UInt8
  | none => absent
  | some content => bytes content

/-- A counted run of slots. -/
def array (element : α → List UInt8) (items : List α) : List UInt8 :=
  length items.length ++ items.flatMap element

end Slot

/-! ## §2. Emissions. -/

/-- What a write leaves behind: the bytes it appended and, if it stopped early, why. -/
structure Emission (ε : Type) where
  /-- The appended bytes. -/
  bytes : List UInt8
  /-- Why the write stopped, if it did. -/
  failure : Option ε
  deriving Repr, DecidableEq

namespace Emission

variable {ε : Type}

/-- A write that appends bytes and succeeds. -/
def wrote (bytes : List UInt8) : Emission ε := ⟨bytes, none⟩

/-- A write that fails before it appends anything. -/
def failed (e : ε) : Emission ε := ⟨[], some e⟩

/-- One write after another; a failure of the first is the end of both. -/
def andThen (first second : Emission ε) : Emission ε :=
  match first.failure with
  | some _ => first
  | none => ⟨first.bytes ++ second.bytes, second.failure⟩

/-- The same bytes with the failure restated. -/
def mapError (f : ε → ε') (e : Emission ε) : Emission ε' := ⟨e.bytes, e.failure.map f⟩

/-- The bytes of a write that succeeded, or its failure. -/
def toExcept (e : Emission ε) : Except ε (List UInt8) :=
  match e.failure with
  | none => .ok e.bytes
  | some error => .error error

end Emission

end ParcelCodec.Wire
