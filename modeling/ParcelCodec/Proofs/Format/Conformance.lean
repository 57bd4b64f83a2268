import ParcelCodec.Proofs.Format.Codec

/-!
# Conforming values

Which values a class can be written with.  Every slot holds the shape that its codec prescribes;
null stands only in a slot that starts with a marker; the keys of a map are pairwise unequal, and
so are those of a sparse array; every length fits its slot.  A tagged slot holds what a tag can
announce.  Wherever an instance stands, also behind the name of its class or behind a tag, it is a
conforming instance of a described class.

An instance has exactly the fields that its class has as properties, in ascending order of their
names.
-/

namespace ParcelCodec.Format

open DataClass (Descriptor Property)
open Wire (Fitting FittingText)

/-- What a value is measured against. -/
inductive Role where
  /-- The slot of a codec, which may be null. -/
  | slot (c : Codec) (nullable : Bool)
  /-- A codec, where a value is present. -/
  | codec (c : Codec)
  | instanceOf (d : Descriptor)
  | tagged

/-- A value that stands behind a tag and holds no others. -/
inductive Plain : Value → Prop
  | null : Plain .null
  | string {s : String} (fits : FittingText s) : Plain (.string s)
  | int (n : Int32) : Plain (.int n)
  | short (n : Int16) : Plain (.short n)
  | long (n : Int64) : Plain (.long n)
  | float (w : UInt32) : Plain (.float w)
  | double (w : UInt64) : Plain (.double w)
  | bool (b : Bool) : Plain (.bool b)
  | byte (n : Int8) : Plain (.byte n)
  | bytes {content : List UInt8} (fits : Fitting content.length) :
    Plain (.array (Wire.Read.byteItems content))

/-- A value conforms to what it is measured against, where some classes are described. -/
inductive Fits (ds : List Descriptor) : Role → Value → Prop
  -- A slot.
  | absent {c : Codec} {nullable : Bool} (hm : marked c nullable = true) :
    Fits ds (.slot c nullable) .null
  | present {c : Codec} {nullable : Bool} {v : Value}
    (hm : marked c nullable = true → v.isNull = false) (h : Fits ds (.codec c) v) :
    Fits ds (.slot c nullable) v
  -- A leaf.
  | op {ty : JavaType} {l : Leaf} {op : Wire.Op} {v : Value} (hl : l.layout ty = .op op)
    (h : op.Holds v) : Fits ds (.codec (.leaf ty l)) v
  | constant {ty : JavaType} {l : Leaf} {name : String} (hl : l.layout ty = .constant)
    (fits : FittingText name) : Fits ds (.codec (.leaf ty l)) (.enumConstant name)
  | nested {ty : JavaType} {l : Leaf} {d : Descriptor} {v : Value}
    (hl : l.layout ty = .instanceOf d.typeName) (hd : d ∈ ds) (h : Fits ds (.instanceOf d) v) :
    Fits ds (.codec (.leaf ty l)) v
  | named {ty : JavaType} {l : Leaf} {d : Descriptor} {v : Value}
    (hl : l.layout ty = .op .parcelable) (hd : d ∈ ds) (fits : FittingText d.typeName)
    (h : Fits ds (.instanceOf d) v) : Fits ds (.codec (.leaf ty l)) v
  | tagged {ty : JavaType} {l : Leaf} {v : Value} (hl : l.layout ty = .op .value)
    (h : Fits ds .tagged v) : Fits ds (.codec (.leaf ty l)) v
  -- A container.
  | array {ty : JavaType} {e : Codec} {items : List Value} (fits : Fitting items.length)
    (h : ∀ v ∈ items, Fits ds (.slot e true) v) : Fits ds (.codec (.array ty e)) (.array items)
  | sequence {ty : JavaType} {kind : Java.SequenceKind} {box : Container} {e : Codec}
    {items : List Value} (fits : Fitting items.length)
    (h : ∀ v ∈ items, Fits ds (.slot e box.nulls) v) :
    Fits ds (.codec (.sequence ty kind box e)) (collect kind items)
  | map {ty : JavaType} {box : Container} {k v : Codec} {entries : List (Value × Value)}
    (fits : Fitting entries.length)
    (distinct : entries.Pairwise fun a b => Value.same a.1 b.1 = false)
    (hk : ∀ p ∈ entries, Fits ds (.slot k box.nulls) p.1)
    (hv : ∀ p ∈ entries, Fits ds (.slot v true) p.2) :
    Fits ds (.codec (.map ty box k v)) (.map entries)
  | sparseArray {ty : JavaType} {e : Codec} {entries : List (Int32 × Value)}
    (fits : Fitting entries.length) (distinct : entries.Pairwise fun a b => a.1 ≠ b.1)
    (h : ∀ p ∈ entries, Fits ds (.slot e true) p.2) :
    Fits ds (.codec (.sparseArray ty e)) (.sparseArray entries)
  -- An instance.
  | object {d : Descriptor} {fields : List (String × Value)} (hs : d.singleton = false)
    (sorted : (fields.map (·.1)).Pairwise (· < ·))
    (names : ∀ n, n ∈ fields.map (·.1) ↔ n ∈ d.properties.map (·.name))
    (h : ∀ p ∈ d.properties,
      Fits ds (.slot p.codec p.nullable) ((fields.lookup p.name).getD .null)) :
    Fits ds (.instanceOf d) (.object d.typeName fields)
  | singleton {d : Descriptor} (hs : d.singleton = true) :
    Fits ds (.instanceOf d) (.singleton d.typeName)
  -- A tagged value.
  | plain {v : Value} (h : Plain v) : Fits ds .tagged v
  | taggedList {items : List Value} (fits : Fitting items.length)
    (h : ∀ v ∈ items, Fits ds .tagged v) : Fits ds .tagged (.list items)
  | taggedMap {entries : List (Value × Value)} (fits : Fitting entries.length)
    (hk : ∀ p ∈ entries, Fits ds .tagged p.1) (hv : ∀ p ∈ entries, Fits ds .tagged p.2) :
    Fits ds .tagged (.map entries)
  | taggedInstance {d : Descriptor} {v : Value} (hd : d ∈ ds) (fits : FittingText d.typeName)
    (h : Fits ds (.instanceOf d) v) : Fits ds .tagged v

/-- A conforming instance of a described class. -/
def Conforms (ds : List Descriptor) (d : Descriptor) (v : Value) : Prop :=
  Fits ds (.instanceOf d) v

end ParcelCodec.Format
