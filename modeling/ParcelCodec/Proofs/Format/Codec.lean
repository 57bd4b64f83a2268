import ParcelCodec.DataClass.Descriptor
import ParcelCodec.Machine.Evaluation
import ParcelCodec.Proofs.Wire.Payload

/-!
# The format that a codec describes

What the bytes of a value mean, read off its codec and nothing else: no procedures, no local
variables, no shared codecs.  This is the yardstick for what companions do.

A slot that may be null starts with a marker; a container starts with the number of its elements;
an instance is its properties one after another.  `decodeWith` and `encodeWith` follow a codec and
are handed what they need for the instances of other classes; `decodeWithin` and `encodeWithin`
close the knot over a list of descriptors, down to a depth of instances inside each other.

A decoding that fails for a reason in the bytes says so; one that runs out of depth says that, and
`Format.decode` has a depth at which no more answers can be had.
-/

namespace ParcelCodec

open DataClass (Descriptor Property)

/-! ## §1. What a leaf is laid out as. -/

/-- The layout of a leaf. -/
inductive Layout where
  /-- One buffer operation. -/
  | op (op : Wire.Op)
  /-- The name of an enum's constant. -/
  | constant
  /-- The properties of an instance. -/
  | instanceOf (className : String)

/-- The layout of a leaf for a type. -/
def Leaf.layout (ty : JavaType) : Leaf → Layout
  | .primitive p => .op p.op
  | .boxed p => .op p.op
  | .string => .op .string
  | .platform op => .op op
  | .primitiveArray p => .op p.arrayOp
  | .sparseBooleanArray => .op .sparseBooleanArray
  | .enum => .constant
  | .nested _ => .instanceOf (Calls.nameOf ty)
  | .parcelable => .op .parcelable
  | .serializable => .op .serializable
  | .tagged => .op .value

/-- The qualified name of the class that a descriptor describes. -/
def DataClass.Descriptor.typeName (d : Descriptor) : String := Calls.nameOf d.type

namespace Format

/-- A slot of a codec starts with a marker. -/
def marked (c : Codec) (nullable : Bool) : Bool := nullable && !c.isNullSafe

/-- The container of elements. -/
def collect : Java.SequenceKind → List Value → Value
  | .set, items => .set items
  | .list, items => .list items
  | .queue, items => .list items

/-- The entries of a map, from pairs that were read one after another: a key that comes again
keeps its place and takes the later value. -/
def mapOf (pairs : List (Value × Value)) : List (Value × Value) :=
  pairs.foldl (fun entries p => Calls.setEntry (Value.same · p.1) p.1 p.2 entries) []

/-- The entries of a sparse array, likewise. -/
def sparseOf (pairs : List (Int32 × Value)) : List (Int32 × Value) :=
  pairs.foldl (fun entries p => Calls.setEntry (· == p.1) p.1 p.2 entries) []

/-! ## §2. Decoding along a codec. -/

/-- How the instances of each class are read. -/
abbrev Readers := String → Reading Value

/-- An integer slot. -/
def readInt : Reading Int32 := Reading.ofOp .int Wire.Read.int

/-- An integer as a number of elements. -/
def toCount (n : Int32) : Reading Nat :=
  if 0 ≤ n then return n.toInt.toNat else Step.fail (.decode (.invalidLength (.int n)))

/-- The number of elements of a container. -/
def readCount : Reading Nat := do toCount (← readInt)

/-- An instance behind the name of its class, or null. -/
def readNamed (readers : Readers) : Reading Value := do
  match ← Reading.ofOp .parcelable Wire.Read.string with
  | some name => readers name
  | none => return .null

/-- A tagged value.  What goes wrong inside of it is a failure of the whole. -/
def readTagged (readers : Readers) : Reading Value := fun c =>
  let bad := RunError.decode (.unreadable .value c.index)
  Wire.Read.tagged bad (Step.mapError (Calls.restated bad) (readNamed readers)) c

/-- The slot of a layout. -/
def readLayout (readers : Readers) : Layout → Reading Value
  | .op .parcelable => readNamed readers
  | .op .value => readTagged readers
  | .op op => .ofOp op op.read
  | .constant => do
    match ← Reading.ofOp .string Wire.Read.string with
    | some name => return .enumConstant name
    | none => return .null
  | .instanceOf name => readers name

/-- A slot, behind its marker if it has one.  Any other marker than zero stands for null. -/
def readSlot (c : Codec) (nullable : Bool) (direct : Reading Value) : Reading Value :=
  if marked c nullable then do
    if (← readInt) = 0 then direct else return .null
  else direct

/-- Two reads, one after the other. -/
def readPair (first : Reading α) (second : Reading β) : Reading (α × β) := do
  let a ← first
  let b ← second
  return (a, b)

/-- The elements of a container behind their number. -/
def readElements (count : Reading Nat) (element : Reading α) : Reading (List α) := do
  let n ← count
  Step.replicate n element

/-- A value of a codec, where `arrayCount` reads the length of an array. -/
def decodeWith (arrayCount : Reading Nat) (readers : Readers) : Codec → Reading Value
  | .leaf ty l => readLayout readers (l.layout ty)
  | .array _ e => do
    return .array (← readElements arrayCount (readSlot e true (decodeWith arrayCount readers e)))
  | .sequence _ kind box e => do
    return collect kind
      (← readElements readCount (readSlot e box.nulls (decodeWith arrayCount readers e)))
  | .map _ box k v => do
    return .map (mapOf (← readElements readCount
      (readPair (readSlot k box.nulls (decodeWith arrayCount readers k))
        (readSlot v true (decodeWith arrayCount readers v)))))
  | .sparseArray _ e => do
    return .sparseArray (sparseOf (← readElements readCount
      (readPair readInt (readSlot e true (decodeWith arrayCount readers e)))))
  | .adapter _ use _ => Step.fail (.missingAdapter use.adapter)

attribute [simp] decodeWith

/-- The properties of an instance in their order, where `read` reads one of them. -/
def readFields (read : Property → Reading Value) : List Property →
    Reading (List (String × Value))
  | [] => return []
  | p :: rest => do
    let v ← readSlot p.codec p.nullable (read p)
    return (p.name, v) :: (← readFields read rest)

/-- An instance of a class. -/
def decodeInstance (read : Property → Reading Value) (d : Descriptor) : Reading Value :=
  if d.singleton then return .singleton d.typeName
  else do return .object d.typeName (Value.fieldsOf (← readFields read d.properties))

theorem readFields_congr {read read' : Property → Reading Value} : ∀ {ps : List Property},
    (∀ p ∈ ps, read p = read' p) → readFields read ps = readFields read' ps
  | [], _ => rfl
  | p :: rest, h => by
    rw [readFields, readFields, h p List.mem_cons_self,
      readFields_congr fun q hq => h q (List.mem_cons_of_mem p hq)]

/-- The properties in front are read before the others. -/
theorem readFields_append (read : Property → Reading Value) (back : List Property) :
    ∀ front : List Property, readFields read (front ++ back) = do
      let pairs ← readFields read front
      let others ← readFields read back
      return pairs ++ others
  | [] => by
    rw [List.nil_append, readFields, pure_bind]
    exact (bind_pure _).symm
  | p :: front => by
    rw [List.cons_append, readFields, readFields, readFields_append read back front]
    simp only [bind_assoc, pure_bind, List.cons_append]

/-- Only how the properties of a class are read matters. -/
theorem decodeInstance_congr {read read' : Property → Reading Value} {d : Descriptor}
    (h : ∀ p ∈ d.properties, read p = read' p) : decodeInstance read d = decodeInstance read' d := by
  unfold decodeInstance
  rw [readFields_congr h]

/-! ## §3. Encoding along a codec. -/

/-- How the instances of each class are written. -/
abbrev Writers := String → Value → Option (List UInt8)

/-- The elements of a container, each behind the one before it. -/
def encodeAll (encode : α → Option (List UInt8)) : List α → Option (List UInt8)
  | [] => some []
  | a :: rest => do
    let head ← encode a
    let tail ← encodeAll encode rest
    return head ++ tail

/-- The bytes of several elements are those of the first and those of the others. -/
theorem encodeAll_cons {encode : α → Option (List UInt8)} {a : α} {rest : List α}
    {bytes : List UInt8} (h : encodeAll encode (a :: rest) = some bytes) :
    ∃ head tail, encode a = some head ∧ encodeAll encode rest = some tail
      ∧ bytes = head ++ tail := by
  unfold encodeAll at h
  rcases hh : encode a with _ | head
  · rw [hh] at h
    cases h
  · rcases ht : encodeAll encode rest with _ | tail
    · rw [hh, ht] at h
      cases h
    · rw [hh, ht] at h
      cases h
      exact ⟨head, tail, rfl, rfl, rfl⟩

/-- The elements of a container behind their number, if a length slot holds it. -/
def encodeCounted (encode : α → Option (List UInt8)) (items : List α) : Option (List UInt8) :=
  if Wire.Fitting items.length then
    (encodeAll encode items).map (Wire.Slot.length items.length ++ ·)
  else none

/-- An instance behind the name of its class, or null. -/
def writeNamed (writers : Writers) (v : Value) : Option (List UInt8) :=
  match v.className? with
  | some name => (writers name v).map (Wire.Slot.text name ++ ·)
  | none => if v.isNull then some Wire.Slot.absent else none

/-- What is left of a write that may not be possible. -/
def emission : Option (List UInt8) → Wire.Emission Unit
  | some bytes => .wrote bytes
  | none => .failed ()

/-- A tagged value. -/
def writeTagged (writers : Writers) (v : Value) : Option (List UInt8) :=
  (Wire.Slot.tagged () (fun v => emission (writeNamed writers v)) v).toExcept.toOption

/-- The slot of a layout. -/
def writeLayout (writers : Writers) : Layout → Value → Option (List UInt8)
  | .op .parcelable, v => writeNamed writers v
  | .op .value, v => writeTagged writers v
  | .op op, v => op.bytes? v
  | .constant, .enumConstant name => some (Wire.Slot.text name)
  | .constant, _ => none
  | .instanceOf name, v => writers name v

/-- A slot, behind its marker if it has one. -/
def writeSlot (c : Codec) (nullable : Bool) (direct : Value → Option (List UInt8)) (v : Value) :
    Option (List UInt8) :=
  if marked c nullable then
    if v.isNull then some (Wire.Slot.int 1) else (direct v).map (Wire.Slot.int 0 ++ ·)
  else direct v

/-- The elements of a container of a kind. -/
def elements? : Java.SequenceKind → Value → Option (List Value)
  | .set, .set items => some items
  | .list, .list items => some items
  | .queue, .list items => some items
  | _, _ => none

/-- Two writes, one after the other. -/
def writePair (first : α → Option (List UInt8)) (second : β → Option (List UInt8))
    (p : α × β) : Option (List UInt8) := do
  let head ← first p.1
  let tail ← second p.2
  return head ++ tail

/-- A value of a codec. -/
def encodeWith (writers : Writers) : Codec → Value → Option (List UInt8)
  | .leaf ty l, v => writeLayout writers (l.layout ty) v
  | .array _ e, .array items =>
    encodeCounted (writeSlot e true (encodeWith writers e)) items
  | .sequence _ kind box e, v => do
    encodeCounted (writeSlot e box.nulls (encodeWith writers e)) (← elements? kind v)
  | .map _ box k v, .map entries =>
    encodeCounted (writePair (writeSlot k box.nulls (encodeWith writers k))
      (writeSlot v true (encodeWith writers v))) entries
  | .sparseArray _ e, .sparseArray entries =>
    encodeCounted (writePair (fun key => some (Wire.Slot.int key))
      (writeSlot e true (encodeWith writers e))) entries
  | _, _ => none

attribute [simp] encodeWith

/-- The properties of an instance in their order. -/
def encodeFields (writers : Writers) (v : Value) : List Property → Option (List UInt8) :=
  encodeAll fun p => writeSlot p.codec p.nullable (encodeWith writers p.codec)
    ((v.get? p.name).getD .null)

/-- An instance of a class. -/
def encodeInstance (writers : Writers) (d : Descriptor) (v : Value) : Option (List UInt8) :=
  if d.singleton then some [] else encodeFields writers v d.properties

/-! ## §4. Classes that refer to each other. -/

/-- The descriptor of a class. -/
def descriptor? (ds : List Descriptor) (name : String) : Option Descriptor :=
  ds.find? (·.typeName == name)

/-- An instance of a class, with a number of instances inside each other. -/
def decodeWithin (ds : List Descriptor) : (depth : Nat) → Readers
  | 0, name =>
    match descriptor? ds name with
    | some _ => Step.fail .outOfDepth
    | none => Step.fail (.missingCompanion name)
  | depth + 1, name =>
    match descriptor? ds name with
    | some d => decodeInstance (fun p => decodeWith readCount (decodeWithin ds depth) p.codec) d
    | none => Step.fail (.missingCompanion name)

/-- The bytes of an instance, with a number of instances inside each other. -/
def encodeWithin (ds : List Descriptor) : (depth : Nat) → Writers
  | 0, _, _ => none
  | depth + 1, name, v => do encodeInstance (encodeWithin ds depth) (← descriptor? ds name) v

/-- The depth beyond which a decoding gives no more answers: an instance that starts twice at one
position, inside itself, never ends. -/
def depthFor (ds : List Descriptor) (remaining : Nat) : Nat := ds.length * (remaining + 1)

/-- An instance of a class. -/
def decode (ds : List Descriptor) : Readers := fun name c =>
  decodeWithin ds (depthFor ds c.remaining) name c

/-- The bytes of an instance. -/
def encode (ds : List Descriptor) (v : Value) : Option (List UInt8) := do
  encodeWithin ds v.weight (← v.className?) v

end Format

end ParcelCodec
