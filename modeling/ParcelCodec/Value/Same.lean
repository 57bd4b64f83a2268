import ParcelCodec.Value
import ParcelCodec.Decimal.Binary

/-!
# Sameness of values

The equality by which a map finds its keys: structural, but floating-point numbers compare as
numbers, so a NaN is not the same as itself and the two zeros are the same.
-/

namespace ParcelCodec.Value

open Decimal (binary32 binary64)

/-- Equality of four-byte numbers. -/
def sameFloat (a b : UInt32) : Bool := binary32.same a.toNat b.toNat

/-- Equality of eight-byte numbers. -/
def sameDouble (a b : UInt64) : Bool := binary64.same a.toNat b.toNat

mutual

/-- Whether two values are the same. -/
def same : Value → Value → Bool
  | .null, .null => true
  | .bool a, .bool b => a == b
  | .byte a, .byte b => a == b
  | .short a, .short b => a == b
  | .char a, .char b => a == b
  | .int a, .int b => a == b
  | .long a, .long b => a == b
  | .float a, .float b => sameFloat a b
  | .double a, .double b => sameDouble a b
  | .string a, .string b => a == b
  | .enumConstant a, .enumConstant b => a == b
  | .bigInteger a, .bigInteger b => a == b
  | .bigDecimal a s, .bigDecimal b t => a == b && s == t
  | .size w h, .size v g => w == v && h == g
  | .sizeF w h, .sizeF v g => sameFloat w v && sameFloat h g
  | .blob a, .blob b => a == b
  | .array a, .array b => sameItems a b
  | .list a, .list b => sameItems a b
  | .set a, .set b => sameItems a b
  | .map a, .map b => sameEntries a b
  | .sparseArray a, .sparseArray b => sameSparse a b
  | .sparseBooleanArray a, .sparseBooleanArray b => a == b
  | .object c a, .object d b => c == d && sameFields a b
  | .singleton c, .singleton d => c == d
  | _, _ => false

/-- Sameness of sequences, position by position. -/
def sameItems : List Value → List Value → Bool
  | [], [] => true
  | a :: as, b :: bs => same a b && sameItems as bs
  | _, _ => false

/-- Sameness of map entries, position by position. -/
def sameEntries : List (Value × Value) → List (Value × Value) → Bool
  | [], [] => true
  | (k, a) :: as, (l, b) :: bs => same k l && same a b && sameEntries as bs
  | _, _ => false

/-- Sameness of sparse entries, position by position. -/
def sameSparse : List (Int32 × Value) → List (Int32 × Value) → Bool
  | [], [] => true
  | (k, a) :: as, (l, b) :: bs => k == l && same a b && sameSparse as bs
  | _, _ => false

/-- Sameness of fields, position by position. -/
def sameFields : List (String × Value) → List (String × Value) → Bool
  | [], [] => true
  | (k, a) :: as, (l, b) :: bs => k == l && same a b && sameFields as bs
  | _, _ => false

end

end ParcelCodec.Value
