import ParcelCodec.Proofs.Format.Conformance
import ParcelCodec.Proofs.Wire.Answers

/-!
# Shaped values

What the values look like that come out of a decoding, whatever the bytes are.  They are laid out
like conforming values, but null also stands in slots without a marker, wherever a layout admits
it; so every slot holds null or the shape that its codec prescribes, and a primitive is never null.

Which layouts admit null is a parameter: more of them read null than write it.
-/

namespace ParcelCodec

open DataClass (Descriptor Property)
open Wire (Fitting FittingText)

/-! ## §1. Layouts that admit null. -/

/-- The slot of a layout can read null. -/
def Layout.readsNull : Layout → Bool
  | .op slot => slot.readsNull
  | .constant => true
  | .instanceOf _ => false

/-- The slot of a layout can write null and reads it back. -/
def Layout.writesNull : Layout → Bool
  | .op slot => slot.writesNull
  | .constant => false
  | .instanceOf _ => false

/-- Properties of one name are encoded alike. -/
def DataClass.Uniform (ps : List Property) : Prop :=
  ∀ p ∈ ps, ∀ q ∈ ps, p.name = q.name → p.codec = q.codec ∧ p.nullable = q.nullable

namespace Format

/-! ## §2. Shapes. -/

/-- A value has the shape of what it is measured against, where some layouts admit null. -/
inductive Shaped (ds : List Descriptor) (void : Layout → Bool) : Role → Value → Prop
  -- A slot.
  | absent {c : Codec} {nullable : Bool} (hm : marked c nullable = true) :
    Shaped ds void (.slot c nullable) .null
  | present {c : Codec} {nullable : Bool} {v : Value}
    (hm : marked c nullable = true → v.isNull = false) (h : Shaped ds void (.codec c) v) :
    Shaped ds void (.slot c nullable) v
  -- A leaf.
  | void {ty : JavaType} {l : Leaf} (hl : void (l.layout ty) = true) :
    Shaped ds void (.codec (.leaf ty l)) .null
  | op {ty : JavaType} {l : Leaf} {op : Wire.Op} {v : Value} (hl : l.layout ty = .op op)
    (h : op.Holds v) : Shaped ds void (.codec (.leaf ty l)) v
  | constant {ty : JavaType} {l : Leaf} {name : String} (hl : l.layout ty = .constant)
    (fits : FittingText name) : Shaped ds void (.codec (.leaf ty l)) (.enumConstant name)
  | nested {ty : JavaType} {l : Leaf} {d : Descriptor} {v : Value}
    (hl : l.layout ty = .instanceOf d.typeName) (hd : d ∈ ds)
    (h : Shaped ds void (.instanceOf d) v) : Shaped ds void (.codec (.leaf ty l)) v
  | named {ty : JavaType} {l : Leaf} {d : Descriptor} {v : Value}
    (hl : l.layout ty = .op .parcelable) (hd : d ∈ ds) (fits : FittingText d.typeName)
    (h : Shaped ds void (.instanceOf d) v) : Shaped ds void (.codec (.leaf ty l)) v
  | tagged {ty : JavaType} {l : Leaf} {v : Value} (hl : l.layout ty = .op .value)
    (h : Shaped ds void .tagged v) : Shaped ds void (.codec (.leaf ty l)) v
  -- A container.
  | array {ty : JavaType} {e : Codec} {items : List Value} (fits : Fitting items.length)
    (h : ∀ v ∈ items, Shaped ds void (.slot e true) v) :
    Shaped ds void (.codec (.array ty e)) (.array items)
  | sequence {ty : JavaType} {kind : Java.SequenceKind} {box : Container} {e : Codec}
    {items : List Value} (fits : Fitting items.length)
    (h : ∀ v ∈ items, Shaped ds void (.slot e box.nulls) v) :
    Shaped ds void (.codec (.sequence ty kind box e)) (collect kind items)
  | map {ty : JavaType} {box : Container} {k v : Codec} {entries : List (Value × Value)}
    (fits : Fitting entries.length)
    (distinct : entries.Pairwise fun a b => Value.same a.1 b.1 = false)
    (hk : ∀ p ∈ entries, Shaped ds void (.slot k box.nulls) p.1)
    (hv : ∀ p ∈ entries, Shaped ds void (.slot v true) p.2) :
    Shaped ds void (.codec (.map ty box k v)) (.map entries)
  | sparseArray {ty : JavaType} {e : Codec} {entries : List (Int32 × Value)}
    (fits : Fitting entries.length) (distinct : entries.Pairwise fun a b => a.1 ≠ b.1)
    (h : ∀ p ∈ entries, Shaped ds void (.slot e true) p.2) :
    Shaped ds void (.codec (.sparseArray ty e)) (.sparseArray entries)
  -- An instance.
  | object {d : Descriptor} {fields : List (String × Value)} (hs : d.singleton = false)
    (sorted : (fields.map (·.1)).Pairwise (· < ·))
    (names : ∀ n, n ∈ fields.map (·.1) ↔ n ∈ d.properties.map (·.name))
    (h : ∀ p ∈ d.properties,
      Shaped ds void (.slot p.codec p.nullable) ((fields.lookup p.name).getD .null)) :
    Shaped ds void (.instanceOf d) (.object d.typeName fields)
  | singleton {d : Descriptor} (hs : d.singleton = true) :
    Shaped ds void (.instanceOf d) (.singleton d.typeName)
  -- A tagged value.
  | plain {v : Value} (h : Plain v) : Shaped ds void .tagged v
  | taggedList {items : List Value} (fits : Fitting items.length)
    (h : ∀ v ∈ items, Shaped ds void .tagged v) : Shaped ds void .tagged (.list items)
  | taggedMap {entries : List (Value × Value)} (fits : Fitting entries.length)
    (hk : ∀ p ∈ entries, Shaped ds void .tagged p.1)
    (hv : ∀ p ∈ entries, Shaped ds void .tagged p.2) : Shaped ds void .tagged (.map entries)
  | taggedInstance {d : Descriptor} {v : Value} (hd : d ∈ ds) (fits : FittingText d.typeName)
    (h : Shaped ds void (.instanceOf d) v) : Shaped ds void .tagged v

variable {ds : List Descriptor} {void : Layout → Bool}

/-- An instance says which class it is one of. -/
theorem Shaped.className {d : Descriptor} {v : Value} (h : Shaped ds void (.instanceOf d) v) :
    v.className? = some d.typeName := by
  cases h <;> rfl

/-- A conforming value is shaped, whichever layouts admit null. -/
theorem Fits.shaped {role : Role} {v : Value} (h : Fits ds role v) : Shaped ds void role v := by
  induction h with
  | absent hm => exact .absent hm
  | present hm _ ih => exact .present hm ih
  | op hl h => exact .op hl h
  | constant hl fits => exact .constant hl fits
  | nested hl hd _ ih => exact .nested hl hd ih
  | named hl hd fits _ ih => exact .named hl hd fits ih
  | tagged hl _ ih => exact .tagged hl ih
  | array fits _ ih => exact .array fits ih
  | sequence fits _ ih => exact .sequence fits ih
  | map fits distinct _ _ ihk ihv => exact .map fits distinct ihk ihv
  | sparseArray fits distinct _ ih => exact .sparseArray fits distinct ih
  | object hs sorted names _ ih => exact .object hs sorted names ih
  | singleton hs => exact .singleton hs
  | plain h => exact .plain h
  | taggedList fits _ ih => exact .taggedList fits ih
  | taggedMap fits _ _ ihk ihv => exact .taggedMap fits ihk ihv
  | taggedInstance hd fits _ ih => exact .taggedInstance hd fits ih

end Format

/-! ## §3. Slots that write the null that they read. -/

/-- Wherever a codec reads null, in a slot that may be null or not, it can write it. -/
def Codec.restores : Codec → (nullable : Bool) → Bool
  | .leaf ty l, nullable =>
    Format.marked (.leaf ty l) nullable || !(l.layout ty).readsNull || (l.layout ty).writesNull
  | .array _ e, _ | .sparseArray _ e, _ => e.restores true
  | .sequence _ _ box e, _ => e.restores box.nulls
  | .map _ box k v, _ => k.restores box.nulls && v.restores true
  | .adapter _ _ _, _ => true

/-- The properties of a class write the null that they read. -/
def DataClass.Descriptor.restores (d : Descriptor) : Bool :=
  d.properties.all fun p => p.codec.restores p.nullable

namespace Format

/-- What is to be shown of a value: null stands in it only where it can be written. -/
def Restored (ds : List Descriptor) : Role → Value → Prop
  | .slot c nullable, v => c.restores nullable = true →
    Shaped ds Layout.writesNull (.slot c nullable) v
  | .codec c, v => ∀ nullable, c.restores nullable = true →
    (marked c nullable = true → v.isNull = false) → Shaped ds Layout.writesNull (.codec c) v
  | .instanceOf d, v => d.restores = true → Shaped ds Layout.writesNull (.instanceOf d) v
  | .tagged, v => Shaped ds Layout.writesNull .tagged v

/-- Null that is read can be written, if every described class can. -/
theorem Shaped.restored (all : ∀ d ∈ ds, d.restores = true) {role : Role} {v : Value}
    (h : Shaped ds Layout.readsNull role v) : Restored ds role v := by
  induction h with
  | absent hm => exact fun _ => .absent hm
  | present hm _ ih => exact fun restores => .present hm (ih _ restores hm)
  | void hl =>
    intro nullable restores present
    -- A null that the marker would have announced does not stand here.
    have unmarked : marked (.leaf _ _) nullable = false :=
      Bool.eq_false_iff.mpr fun hm => absurd (present hm) nofun
    simp only [Codec.restores, unmarked, hl, Bool.not_true, Bool.or_self, Bool.false_or] at restores
    exact .void restores
  | op hl h => exact fun _ _ _ => .op hl h
  | constant hl fits => exact fun _ _ _ => .constant hl fits
  | nested hl hd _ ih => exact fun _ _ _ => .nested hl hd (ih (all _ hd))
  | named hl hd fits _ ih => exact fun _ _ _ => .named hl hd fits (ih (all _ hd))
  | tagged hl _ ih => exact fun _ _ _ => .tagged hl ih
  | array fits _ ih => exact fun _ restores _ => .array fits fun v hv => ih v hv restores
  | sequence fits _ ih => exact fun _ restores _ => .sequence fits fun v hv => ih v hv restores
  | map fits distinct _ _ ihk ihv =>
    intro _ restores _
    have both := Bool.and_eq_true_iff.mp restores
    exact .map fits distinct (fun p hp => ihk p hp both.1) fun p hp => ihv p hp both.2
  | sparseArray fits distinct _ ih =>
    exact fun _ restores _ => .sparseArray fits distinct fun p hp => ih p hp restores
  | object hs sorted names _ ih =>
    intro restores
    exact .object hs sorted names fun p hp => ih p hp (List.all_eq_true.mp restores p hp)
  | singleton hs => exact fun _ => .singleton hs
  | plain h => exact .plain h
  | taggedList fits _ ih => exact .taggedList fits ih
  | taggedMap fits _ _ ihk ihv => exact .taggedMap fits ihk ihv
  | taggedInstance hd fits _ ih => exact .taggedInstance hd fits (ih (all _ hd))

end Format

end ParcelCodec
