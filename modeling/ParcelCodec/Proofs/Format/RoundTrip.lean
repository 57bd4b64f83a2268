import ParcelCodec.Proofs.Format.Shape
import ParcelCodec.Proofs.Keyed
import ParcelCodec.Proofs.Value.Fields
import ParcelCodec.Proofs.Value.Weight

/-!
# The format reads back

A value whose every null stands where its layout can write one is encoded, and wherever its bytes
stand ahead they decode to the value and to nothing else, whatever follows them.  So does a
conforming value, which has no null in a slot without a marker.  The induction is on what gives the
value its shape: each case reads what the same case wrote.

A value nests no deeper than its weight, so that is depth enough for both sides.  Main statements:
`Shaped.roundTrips` and, for whole instances, `encode_of_shaped` and `encode_of_conforms`.
-/

namespace ParcelCodec

open DataClass (Descriptor Property)
open Wire (Cursor Emission Takes Fitting FittingText)

namespace Format

/-! ## §1. Slots and containers. -/

/-- An operation of the wire takes what its read takes. -/
theorem takes_ofOp {α : Type} {op : Wire.Op} {read : Wire.Read α} {bytes : List UInt8} {a : α}
    (h : Takes read bytes a) : Takes (Reading.ofOp op read) bytes a := by
  intro i rest
  unfold Reading.ofOp
  exact (h.mapError _) i rest

theorem takes_readInt (n : Int32) : Takes readInt (Wire.Slot.int n) n :=
  takes_ofOp (Wire.takes_int n)

/-- A count that fits its slot reads back. -/
theorem takes_readCount {n : Nat} (fits : Fitting n) : Takes readCount (Wire.Slot.length n) n := by
  intro i rest
  have value := Wire.toInt_ofNat_of_fitting fits
  have nonneg : 0 ≤ Int32.ofNat n := by
    rw [Int32.le_iff_toInt_le, value]
    exact Int.natCast_nonneg n
  unfold readCount toCount
  rw [Wire.length_eq_int, Step.bind_ok (takes_readInt (Int32.ofNat n) i rest), if_pos nonneg, value]
  rfl

/-- A pair is read from the bytes of its parts. -/
theorem takes_readPair {α β : Type} {first : Reading α} {second : Reading β}
    {bytes bytes' : List UInt8} {a : α} {b : β} (hf : Takes first bytes a)
    (hs : Takes second bytes' b) : Takes (readPair first second) (bytes ++ bytes') (a, b) :=
  hf.bind (hs.map fun b => (a, b))

/-- Elements that are all encoded stand one behind the other. -/
theorem encodeAll_of_forall {α : Type} {encode : α → Option (List UInt8)} {bytes : α → List UInt8}
    {items : List α} (h : ∀ a ∈ items, encode a = some (bytes a)) :
    encodeAll encode items = some (items.flatMap bytes) := by
  induction items with
  | nil => rfl
  | cons a rest ih =>
    unfold encodeAll
    rw [h a List.mem_cons_self, ih fun b hb => h b (List.mem_cons_of_mem a hb)]
    rfl

/-- Items that can be written each are written behind their count. -/
theorem encodeCounted_of_forall {α : Type} {encode : α → Option (List UInt8)}
    {bytes : α → List UInt8} {items : List α} (fits : Fitting items.length)
    (h : ∀ a ∈ items, encode a = some (bytes a)) :
    encodeCounted encode items
      = some (Wire.Slot.length items.length ++ items.flatMap bytes) := by
  unfold encodeCounted
  rw [if_pos fits, encodeAll_of_forall h]
  rfl

/-- A counted run of elements is read back element by element. -/
theorem takes_readElements {α : Type} {element : Reading α} {bytes : α → List UInt8}
    {items : List α} (fits : Fitting items.length)
    (h : ∀ a ∈ items, Takes element (bytes a) a) :
    Takes (readElements readCount element)
      (Wire.Slot.length items.length ++ items.flatMap bytes) items := by
  exact (takes_readCount fits).bind (Takes.replicate items h)

/-! ## §2. Instances by their class. -/

variable {ds : List Descriptor}

/-- A class that is described once is found under its name. -/
theorem descriptor?_of_mem (distinct : (ds.map (·.typeName)).Nodup) {d : Descriptor}
    (hd : d ∈ ds) : descriptor? ds d.typeName = some d :=
  Keyed.find?_of_mem Descriptor.typeName distinct hd

/-- A class that is described once is decoded by its descriptor. -/
theorem decodeWithin_of_mem (distinct : (ds.map (·.typeName)).Nodup) {d : Descriptor}
    (hd : d ∈ ds) (n : Nat) :
    decodeWithin ds (n + 1) d.typeName
      = decodeInstance (fun p => decodeWith readCount (decodeWithin ds n) p.codec) d := by
  rw [decodeWithin, descriptor?_of_mem distinct hd]

/-- It is encoded by its descriptor as well. -/
theorem encodeWithin_of_mem (distinct : (ds.map (·.typeName)).Nodup) {d : Descriptor}
    (hd : d ∈ ds) (n : Nat) (v : Value) :
    encodeWithin ds (n + 1) d.typeName v = encodeInstance (encodeWithin ds n) d v := by
  rw [encodeWithin, descriptor?_of_mem distinct hd]
  rfl

/-! ## §3. What is to be shown. -/

theorem weight_collect (kind : Java.SequenceKind) (items : List Value) :
    (collect kind items).weight = Value.weightOfItems items + 1 := by
  cases kind <;> rfl

/-- The tagged slot of a value, in the encoding with a number of instances inside each other. -/
def taggedEmission (ds : List Descriptor) (n : Nat) (v : Value) : Emission Unit :=
  Wire.Slot.tagged () (fun v => emission (writeNamed (encodeWithin ds n) v)) v

/-- What reads a tagged slot back, with a number of tags inside each other. -/
def readTagWithin (ds : List Descriptor) (n : Nat) (bad : RunError) (depth : Nat) :
    Reading Value :=
  Wire.Read.taggedWithin bad
    (Step.mapError (Calls.restated bad) (readNamed (decodeWithin ds n))) depth

/-- A value has bytes that are its encoding and that decode to it, at every depth from the value's
weight on.  A tag takes at least a byte, so a tagged value nests less deep than it has bytes. -/
def RoundTrips (ds : List Descriptor) : Role → Value → Prop
  | .slot c nullable, v => ∃ bytes, ∀ n, v.weight ≤ n →
    writeSlot c nullable (encodeWith (encodeWithin ds n) c) v = some bytes
      ∧ Takes (readSlot c nullable (decodeWith readCount (decodeWithin ds n) c)) bytes v
  | .codec c, v => ∃ bytes, ∀ n, v.weight ≤ n →
    encodeWith (encodeWithin ds n) c v = some bytes
      ∧ Takes (decodeWith readCount (decodeWithin ds n) c) bytes v
  | .instanceOf d, v => ∃ bytes, ∀ n, v.weight ≤ n + 1 →
    encodeInstance (encodeWithin ds n) d v = some bytes
      ∧ Takes (decodeInstance (fun p => decodeWith readCount (decodeWithin ds n) p.codec) d)
          bytes v
  | .tagged, v => ∃ bytes, ∀ n, v.weight ≤ n →
    taggedEmission ds n v = .wrote bytes
      ∧ ∀ bad depth, bytes.length < depth → Takes (readTagWithin ds n bad depth) bytes v

/-! ## §4. Slots and leaves. -/

/-- The marker 1 is all that is read of an absent value. -/
theorem takes_readSlot_absent {c : Codec} {nullable : Bool} (hm : marked c nullable = true)
    (direct : Reading Value) : Takes (readSlot c nullable direct) (Wire.Slot.int 1) .null := by
  intro i rest
  unfold readSlot
  rw [if_pos hm, Step.bind_ok (takes_readInt 1 i rest)]
  rfl

/-- Where a slot has a marker, null is written and read back. -/
theorem roundTrips_absent {c : Codec} {nullable : Bool} (hm : marked c nullable = true) :
    RoundTrips ds (.slot c nullable) .null := by
  refine ⟨Wire.Slot.int 1, fun n _ => ⟨?_, takes_readSlot_absent hm _⟩⟩
  unfold writeSlot
  rw [if_pos hm]
  rfl

/-- The marker in front of a value, if its slot has one. -/
def presentMarker (c : Codec) (nullable : Bool) : List UInt8 :=
  if marked c nullable then Wire.Slot.int 0 else []

/-- A value that is present is written behind its marker, if there is one. -/
theorem writeSlot_present {c : Codec} {nullable : Bool} {direct : Value → Option (List UInt8)}
    {v : Value} {bytes : List UInt8} (present : marked c nullable = true → v.isNull = false)
    (h : direct v = some bytes) :
    writeSlot c nullable direct v = some (presentMarker c nullable ++ bytes) := by
  unfold writeSlot presentMarker
  by_cases marker : marked c nullable = true
  · simp [marker, present marker, h]
  · simp [marker, h]

/-- Behind its marker, a value is read directly. -/
theorem readSlot_present (c : Codec) (nullable : Bool) (direct : Reading Value) (i : Nat)
    (bytes : List UInt8) :
    readSlot c nullable direct ⟨i, presentMarker c nullable ++ bytes⟩
      = direct ⟨i + (presentMarker c nullable).length, bytes⟩ := by
  unfold readSlot presentMarker
  by_cases marker : marked c nullable = true
  · rw [if_pos marker, if_pos marker, Step.bind_ok (takes_readInt 0 i bytes), if_pos rfl]
  · rw [if_neg marker, if_neg marker]
    rfl

/-- It is read behind its marker. -/
theorem takes_readSlot_present {c : Codec} {nullable : Bool} {direct : Reading Value}
    {bytes : List UInt8} {v : Value} (h : Takes direct bytes v) :
    Takes (readSlot c nullable direct) (presentMarker c nullable ++ bytes) v := by
  intro i rest
  rw [List.append_assoc, readSlot_present, h, List.length_append, Nat.add_assoc]

/-- A slot brings back the values that its codec brings back. -/
theorem roundTrips_present {c : Codec} {nullable : Bool} {v : Value}
    (hm : marked c nullable = true → v.isNull = false) (h : RoundTrips ds (.codec c) v) :
    RoundTrips ds (.slot c nullable) v := by
  obtain ⟨bytes, hb⟩ := h
  refine ⟨presentMarker c nullable ++ bytes, fun n hn => ?_⟩
  obtain ⟨written, read⟩ := hb n hn
  exact ⟨writeSlot_present hm written, takes_readSlot_present read⟩

/-- A leaf with an operation brings back the values that the operation holds. -/
theorem roundTrips_op {ty : JavaType} {l : Leaf} {op : Wire.Op} {v : Value}
    (hl : l.layout ty = .op op) (h : op.Holds v) : RoundTrips ds (.codec (.leaf ty l)) v := by
  obtain ⟨bytes, written, read⟩ := Wire.Op.takes_of_holds h
  refine ⟨bytes, fun n _ => ?_⟩
  have fixed := h.not_polymorphic
  rw [encodeWith, decodeWith, hl]
  -- The two operations that need other classes hold nothing by themselves.
  cases op with
  | parcelable => cases fixed
  | value => cases fixed
  | _ => exact ⟨written, takes_ofOp read⟩

/-- The constant of an enum is written and read back by its name. -/
theorem roundTrips_constant {ty : JavaType} {l : Leaf} {name : String}
    (hl : l.layout ty = .constant) (fits : FittingText name) :
    RoundTrips ds (.codec (.leaf ty l)) (.enumConstant name) := by
  refine ⟨Wire.Slot.text name, fun n _ => ?_⟩
  rw [encodeWith, decodeWith, hl]
  refine ⟨rfl, fun i rest => ?_⟩
  exact (Step.bind_ok (takes_ofOp (Wire.takes_text fits) i rest)).trans rfl

/-- Null is written and read where a layout can do both. -/
theorem roundTrips_void {ty : JavaType} {l : Leaf} (hl : (l.layout ty).writesNull = true) :
    RoundTrips ds (.codec (.leaf ty l)) .null := by
  refine ⟨Wire.Slot.absent, fun n _ => ?_⟩
  rw [encodeWith, decodeWith]
  generalize l.layout ty = layout at hl ⊢
  cases layout with
  | op slot =>
    cases slot with
    | parcelable =>
      have absent : Takes Wire.Read.string Wire.Slot.absent none := Wire.Op.takes_absent rfl
      exact ⟨rfl, fun i rest => Step.bind_ok (takes_ofOp absent i rest)⟩
    | value => cases hl
    | _ =>
      obtain ⟨written, read⟩ := Wire.Op.takes_null rfl hl
      exact ⟨written, takes_ofOp read⟩
  | constant => cases hl
  | instanceOf name => cases hl

/-- An instance is written and read at one level more than its parts. -/
theorem roundTrips_class (distinct : (ds.map (·.typeName)).Nodup) {d : Descriptor} {v : Value}
    (hd : d ∈ ds) (h : RoundTrips ds (.instanceOf d) v) :
    ∃ bytes, ∀ n, v.weight ≤ n →
      encodeWithin ds n d.typeName v = some bytes
        ∧ Takes (decodeWithin ds n d.typeName) bytes v := by
  obtain ⟨bytes, hb⟩ := h
  refine ⟨bytes, fun n hn => ?_⟩
  -- Every value weighs something, so there is a level to spend on the instance itself.
  have positive := v.one_le_weight
  obtain ⟨m, rfl⟩ : ∃ m, n = m + 1 := ⟨n - 1, by omega⟩
  rw [encodeWithin_of_mem distinct hd, decodeWithin_of_mem distinct hd]
  exact hb m hn

/-- An instance stands behind the name of its class. -/
theorem roundTrips_named (distinct : (ds.map (·.typeName)).Nodup) {d : Descriptor} {v : Value}
    (hd : d ∈ ds) (fits : FittingText d.typeName) (hv : v.className? = some d.typeName)
    (h : RoundTrips ds (.instanceOf d) v) :
    ∃ bytes, ∀ n, v.weight ≤ n →
      writeNamed (encodeWithin ds n) v = some bytes
        ∧ Takes (readNamed (decodeWithin ds n)) bytes v := by
  obtain ⟨bytes, hb⟩ := roundTrips_class distinct hd h
  refine ⟨Wire.Slot.text d.typeName ++ bytes, fun n hn => ?_⟩
  obtain ⟨written, read⟩ := hb n hn
  constructor
  · unfold writeNamed
    simp only [hv, written]
    rfl
  · exact (takes_ofOp (Wire.takes_text fits)).bind read

/-! ## §5. Containers. -/

/-- An array comes back if each of its elements does. -/
theorem roundTrips_array {ty : JavaType} {e : Codec} {items : List Value}
    (fits : Fitting items.length) (h : ∀ v ∈ items, RoundTrips ds (.slot e true) v) :
    RoundTrips ds (.codec (.array ty e)) (.array items) := by
  choose! bytes hb using h
  refine ⟨Wire.Slot.length items.length ++ items.flatMap bytes, fun n hn => ?_⟩
  have within : ∀ v ∈ items, v.weight ≤ n := Value.forall_weight_le hn
  rw [encodeWith, decodeWith]
  exact ⟨encodeCounted_of_forall fits fun v hv => (hb v hv n (within v hv)).1,
    (takes_readElements fits fun v hv => (hb v hv n (within v hv)).2).map _⟩

/-- So does a list, a set or a queue, whose elements may have no markers. -/
theorem roundTrips_sequence {ty : JavaType} {kind : Java.SequenceKind} {box : Container}
    {e : Codec} {items : List Value} (fits : Fitting items.length)
    (h : ∀ v ∈ items, RoundTrips ds (.slot e box.nulls) v) :
    RoundTrips ds (.codec (.sequence ty kind box e)) (collect kind items) := by
  choose! bytes hb using h
  refine ⟨Wire.Slot.length items.length ++ items.flatMap bytes, fun n hn => ?_⟩
  rw [weight_collect] at hn
  have within : ∀ v ∈ items, v.weight ≤ n := Value.forall_weight_le hn
  have elements : elements? kind (collect kind items) = some items := by cases kind <;> rfl
  rw [encodeWith, decodeWith, elements]
  exact ⟨encodeCounted_of_forall fits fun v hv => (hb v hv n (within v hv)).1,
    (takes_readElements fits fun v hv => (hb v hv n (within v hv)).2).map _⟩

/-- A pair is written as its parts, one behind the other. -/
theorem writePair_eq {α β : Type} {first : α → Option (List UInt8)}
    {second : β → Option (List UInt8)} {p : α × β} {head tail : List UInt8}
    (hf : first p.1 = some head) (hs : second p.2 = some tail) :
    writePair first second p = some (head ++ tail) := by
  unfold writePair
  rw [hf, hs]
  rfl

/-- A map comes back if its keys and values do and no two keys are the same. -/
theorem roundTrips_map {ty : JavaType} {box : Container} {k v : Codec}
    {entries : List (Value × Value)} (fits : Fitting entries.length)
    (different : entries.Pairwise fun a b => Value.same a.1 b.1 = false)
    (hk : ∀ p ∈ entries, RoundTrips ds (.slot k box.nulls) p.1)
    (hv : ∀ p ∈ entries, RoundTrips ds (.slot v true) p.2) :
    RoundTrips ds (.codec (.map ty box k v)) (.map entries) := by
  choose! keyBytes hkb using hk
  choose! valueBytes hvb using hv
  refine ⟨Wire.Slot.length entries.length
    ++ entries.flatMap fun p => keyBytes p ++ valueBytes p, fun n hn => ?_⟩
  have within : ∀ p ∈ entries, p.1.weight ≤ n ∧ p.2.weight ≤ n :=
    Value.forall_weight_le_entries hn
  rw [encodeWith, decodeWith]
  constructor
  · exact encodeCounted_of_forall fits fun p hp =>
      writePair_eq (hkb p hp n (within p hp).1).1 (hvb p hp n (within p hp).2).1
  · have run := (takes_readElements fits fun p hp => takes_readPair (hkb p hp n (within p hp).1).2
      (hvb p hp n (within p hp).2).2).map fun pairs => Value.map (mapOf pairs)
    -- No key comes again, so putting the entries one after another rebuilds the map as it was.
    have kept : mapOf entries = entries := setEntries_of_pairwise Value.same different
    rwa [kept] at run

/-- A sparse array comes back if its values do and its keys differ. -/
theorem roundTrips_sparseArray {ty : JavaType} {e : Codec} {entries : List (Int32 × Value)}
    (fits : Fitting entries.length) (different : entries.Pairwise fun a b => a.1 ≠ b.1)
    (h : ∀ p ∈ entries, RoundTrips ds (.slot e true) p.2) :
    RoundTrips ds (.codec (.sparseArray ty e)) (.sparseArray entries) := by
  choose! bytes hb using h
  refine ⟨Wire.Slot.length entries.length
    ++ entries.flatMap fun p => Wire.Slot.int p.1 ++ bytes p, fun n hn => ?_⟩
  have within : ∀ p ∈ entries, p.2.weight ≤ n := fun p hp => by
    have := Value.weight_le_of_mem_sparse hp
    unfold Value.weight at hn
    omega
  rw [encodeWith, decodeWith]
  constructor
  · exact encodeCounted_of_forall fits fun p hp =>
      writePair_eq rfl (hb p hp n (within p hp)).1
  · have run := (takes_readElements fits fun p hp => takes_readPair (takes_readInt p.1)
      (hb p hp n (within p hp)).2).map fun pairs => Value.sparseArray (sparseOf pairs)
    have kept : sparseOf entries = entries :=
      setEntries_of_pairwise (fun a b : Int32 => a == b)
        (different.imp fun {a b} h => by simpa using h)
    rwa [kept] at run

/-! ## §6. Instances. -/

/-- The properties of an instance are read in their order. -/
theorem takes_readFields (read : Property → Reading Value) {bytes : Property → List UInt8}
    {value : Property → Value} : ∀ (ps : List Property),
    (∀ p ∈ ps, Takes (readSlot p.codec p.nullable (read p)) (bytes p) (value p)) →
      Takes (readFields read ps) (ps.flatMap bytes) (ps.map fun p => (p.name, value p))
  | [], _ => Takes.pure []
  | p :: rest, h => by
    have head := h p List.mem_cons_self
    have tail := takes_readFields read rest fun q hq => h q (List.mem_cons_of_mem p hq)
    exact head.bind (tail.map ((p.name, value p) :: ·))

/-- An instance comes back if its properties do, in the order in which objects list their fields. -/
theorem roundTrips_object {d : Descriptor} {fields : List (String × Value)}
    (hs : d.singleton = false) (sorted : (fields.map (·.1)).Pairwise (· < ·))
    (names : ∀ n, n ∈ fields.map (·.1) ↔ n ∈ d.properties.map (·.name))
    (h : ∀ p ∈ d.properties,
      RoundTrips ds (.slot p.codec p.nullable) ((fields.lookup p.name).getD .null)) :
    RoundTrips ds (.instanceOf d) (.object d.typeName fields) := by
  choose! bytes hb using h
  refine ⟨d.properties.flatMap bytes, fun n hn => ?_⟩
  have within : ∀ p ∈ d.properties, ((fields.lookup p.name).getD .null).weight ≤ n := by
    intro p hp
    have there := (names p.name).mpr (List.mem_map_of_mem hp)
    obtain ⟨v, hv⟩ := Option.isSome_iff_exists.mp (Value.lookup_isSome_of_mem there)
    have := Value.weight_le_of_lookup hv
    rw [hv, Option.getD_some]
    unfold Value.weight at hn
    omega
  constructor
  · unfold encodeInstance
    rw [hs]
    exact encodeAll_of_forall fun p hp => (hb p hp n (within p hp)).1
  · have run := takes_readFields (fun p => decodeWith readCount (decodeWithin ds n) p.codec)
      d.properties fun p hp => (hb p hp n (within p hp)).2
    -- Properties come in their own order, fields in that of their names.
    have rebuilt : Value.fieldsOf (d.properties.map fun p =>
        (p.name, (fields.lookup p.name).getD .null)) = fields := by
      have kept := Value.fieldsOf_eq_of_sorted sorted names
      rw [List.map_map] at kept
      exact kept
    unfold decodeInstance
    rw [hs]
    have whole := run.map fun pairs => Value.object d.typeName (Value.fieldsOf pairs)
    rwa [rebuilt] at whole

/-- A singleton comes back from no bytes. -/
theorem roundTrips_singleton {d : Descriptor} (hs : d.singleton = true) :
    RoundTrips ds (.instanceOf d) (.singleton d.typeName) := by
  refine ⟨[], fun n _ => ?_⟩
  unfold encodeInstance decodeInstance
  rw [hs]
  exact ⟨rfl, Takes.pure _⟩

/-! ## §7. Tagged values. -/

/-- How the instances inside a tagged value are read. -/
def taggedHook (ds : List Descriptor) (n : Nat) (bad : RunError) : Reading Value :=
  Step.mapError (Calls.restated bad) (readNamed (decodeWithin ds n))

/-- A tag is read before what it announces. -/
theorem takes_tag {n : Nat} {bad : RunError} {depth : Nat} {tag : Int32} {content : List UInt8}
    {v : Value}
    (h : Takes (Wire.Read.payload bad (taggedHook ds n bad) (readTagWithin ds n bad depth) tag)
      content v) :
    Takes (readTagWithin ds n bad (depth + 1)) (Wire.Slot.int tag ++ content) v :=
  (Wire.takes_slot (Wire.takes_int tag)).bind h

/-- A value that holds no others stands behind its tag. -/
theorem roundTrips_scalar {v : Value} (tag : Int32) {content : List UInt8}
    (written : ∀ n, taggedEmission ds n v = .wrote (Wire.Slot.int tag ++ content))
    (read : ∀ (bad : RunError) (hook item : Reading Value),
      Takes (Wire.Read.payload bad hook item tag) content v) :
    RoundTrips ds .tagged v := by
  refine ⟨Wire.Slot.int tag ++ content, fun n _ => ⟨written n, fun bad depth hd => ?_⟩⟩
  obtain ⟨depth, rfl⟩ : ∃ m, depth = m + 1 := ⟨depth - 1, by omega⟩
  exact takes_tag (read bad _ _)

/-- A plain value comes back from its tagged form. -/
theorem roundTrips_plain {v : Value} (h : Plain v) : RoundTrips ds .tagged v := by
  cases h with
  | null =>
    have written : ∀ n, taggedEmission ds n .null = .wrote (Wire.Slot.int Wire.Tag.null ++ []) :=
      fun _ => rfl
    exact roundTrips_scalar Wire.Tag.null written fun _ _ _ => Takes.pure _
  | string fits =>
    refine roundTrips_scalar Wire.Tag.string (fun _ => rfl) fun _ _ _ => ?_
    exact (Wire.takes_slot (Wire.takes_text fits)).map
      fun s : Option String => (s.map Value.string).getD .null
  | int k =>
    exact roundTrips_scalar Wire.Tag.int (fun _ => rfl)
      fun _ _ _ => (Wire.takes_slot (Wire.takes_int k)).map Value.int
  | short k =>
    exact roundTrips_scalar Wire.Tag.short (fun _ => rfl)
      fun _ _ _ => (Wire.takes_slot (Wire.takes_short k)).map Value.short
  | long k =>
    exact roundTrips_scalar Wire.Tag.long (fun _ => rfl)
      fun _ _ _ => (Wire.takes_slot (Wire.takes_long k)).map Value.long
  | float w =>
    exact roundTrips_scalar Wire.Tag.float (fun _ => rfl)
      fun _ _ _ => (Wire.takes_slot (Wire.takes_word w)).map Value.float
  | double w =>
    exact roundTrips_scalar Wire.Tag.double (fun _ => rfl)
      fun _ _ _ => (Wire.takes_slot (Wire.takes_doubleWord w)).map Value.double
  | bool b =>
    exact roundTrips_scalar Wire.Tag.boolean (fun _ => rfl)
      fun _ _ _ => (Wire.takes_slot (Wire.takes_bool b)).map Value.bool
  | byte k =>
    exact roundTrips_scalar Wire.Tag.byte (fun _ => rfl)
      fun _ _ _ => (Wire.takes_slot (Wire.takes_byte k)).map Value.byte
  | @bytes content fits =>
    have written : ∀ n, taggedEmission ds n (.array (Wire.Read.byteItems content))
        = .wrote (Wire.Slot.int Wire.Tag.byteArray ++ Wire.Slot.bytes content) := by
      intro n
      unfold taggedEmission Wire.Slot.tagged
      rw [Wire.bytesOfItems_byteItems]
    refine roundTrips_scalar Wire.Tag.byteArray written fun _ _ _ => ?_
    exact (Wire.takes_slot (Wire.takes_bytes fits)).map
      fun b : Option (List UInt8) => (b.map fun b => Value.array (Wire.Read.byteItems b)).getD .null

/-- The bytes of an element are no more than those of all elements. -/
theorem length_le_flatMap {α : Type} (bytes : α → List UInt8) {a : α} {items : List α}
    (h : a ∈ items) : (bytes a).length ≤ (items.flatMap bytes).length := by
  rw [List.flatMap_def]
  exact (List.sublist_flatten_of_mem (List.mem_map_of_mem h)).length_le

/-- Items that can be written each are written one behind the other. -/
theorem taggedItems_of_forall {ε : Type} {bad : ε} {hook : Value → Emission ε}
    {bytes : Value → List UInt8} {items : List Value}
    (h : ∀ v ∈ items, Wire.Slot.tagged bad hook v = .wrote (bytes v)) :
    Wire.Slot.taggedItems bad hook items = .wrote (items.flatMap bytes) := by
  induction items with
  | nil => rfl
  | cons v rest ih =>
    rw [Wire.Slot.taggedItems, h v List.mem_cons_self,
      ih fun w hw => h w (List.mem_cons_of_mem v hw)]
    rfl

/-- So are entries, with each value behind its key. -/
theorem taggedEntries_of_forall {ε : Type} {bad : ε} {hook : Value → Emission ε}
    {keyBytes valueBytes : Value × Value → List UInt8} {entries : List (Value × Value)}
    (hk : ∀ p ∈ entries, Wire.Slot.tagged bad hook p.1 = .wrote (keyBytes p))
    (hv : ∀ p ∈ entries, Wire.Slot.tagged bad hook p.2 = .wrote (valueBytes p)) :
    Wire.Slot.taggedEntries bad hook entries
      = .wrote (entries.flatMap fun p => keyBytes p ++ valueBytes p) := by
  induction entries with
  | nil => rfl
  | cons p rest ih =>
    obtain ⟨k, v⟩ := p
    rw [Wire.Slot.taggedEntries, hk (k, v) List.mem_cons_self, hv (k, v) List.mem_cons_self,
      ih (fun q hq => hk q (List.mem_cons_of_mem (k, v) hq))
        fun q hq => hv q (List.mem_cons_of_mem (k, v) hq)]
    rfl

/-- A tagged list comes back if its items do. -/
theorem roundTrips_taggedList {items : List Value} (fits : Fitting items.length)
    (h : ∀ v ∈ items, RoundTrips ds .tagged v) : RoundTrips ds .tagged (.list items) := by
  choose! bytes hb using h
  refine ⟨Wire.Slot.int Wire.Tag.list
    ++ (Wire.Slot.length items.length ++ items.flatMap bytes), fun n hn => ?_⟩
  have within : ∀ v ∈ items, v.weight ≤ n := Value.forall_weight_le hn
  constructor
  · unfold taggedEmission
    rw [Wire.Slot.tagged, taggedItems_of_forall fun v hv => (hb v hv n (within v hv)).1]
    rw [← List.append_assoc]
    rfl
  · intro bad depth hd
    obtain ⟨depth, rfl⟩ : ∃ m, depth = m + 1 := ⟨depth - 1, by omega⟩
    refine takes_tag ?_
    exact Wire.takes_counted fits fun v hv => (hb v hv n (within v hv)).2 bad depth (by
      have := length_le_flatMap bytes hv
      simp only [List.length_append, Wire.length_int] at hd
      omega)

/-- A tagged map comes back if its keys and values do. -/
theorem roundTrips_taggedMap {entries : List (Value × Value)} (fits : Fitting entries.length)
    (hk : ∀ p ∈ entries, RoundTrips ds .tagged p.1)
    (hv : ∀ p ∈ entries, RoundTrips ds .tagged p.2) :
    RoundTrips ds .tagged (.map entries) := by
  choose! keyBytes hkb using hk
  choose! valueBytes hvb using hv
  refine ⟨Wire.Slot.int Wire.Tag.map ++ (Wire.Slot.length entries.length
    ++ entries.flatMap fun p => keyBytes p ++ valueBytes p), fun n hn => ?_⟩
  have within : ∀ p ∈ entries, p.1.weight ≤ n ∧ p.2.weight ≤ n :=
    Value.forall_weight_le_entries hn
  constructor
  · unfold taggedEmission
    rw [Wire.Slot.tagged, taggedEntries_of_forall
      (fun p hp => (hkb p hp n (within p hp).1).1) fun p hp => (hvb p hp n (within p hp).2).1]
    rw [← List.append_assoc]
    rfl
  · intro bad depth hd
    obtain ⟨depth, rfl⟩ : ∃ m, depth = m + 1 := ⟨depth - 1, by omega⟩
    have deep : ∀ p ∈ entries, (keyBytes p).length < depth ∧ (valueBytes p).length < depth := by
      intro p hp
      have := length_le_flatMap (fun p => keyBytes p ++ valueBytes p) hp
      simp only [List.length_append, Wire.length_int] at hd this
      omega
    refine takes_tag ?_
    exact Wire.takes_counted fits fun p hp =>
      Wire.takes_pair ((hkb p hp n (within p hp).1).2 bad depth (deep p hp).1)
        ((hvb p hp n (within p hp).2).2 bad depth (deep p hp).2)

/-- A tagged instance comes back by the name of its class, which has to be described. -/
theorem roundTrips_taggedInstance (distinct : (ds.map (·.typeName)).Nodup) {d : Descriptor}
    {v : Value} (hd : d ∈ ds) (fits : FittingText d.typeName)
    (hv : v.className? = some d.typeName) (h : RoundTrips ds (.instanceOf d) v) :
    RoundTrips ds .tagged v := by
  obtain ⟨bytes, hb⟩ := roundTrips_named distinct hd fits hv h
  refine ⟨Wire.Slot.int Wire.Tag.instanceOf ++ bytes, fun n hn => ?_⟩
  obtain ⟨written, read⟩ := hb n hn
  constructor
  · have content : emission (writeNamed (encodeWithin ds n) v) = .wrote bytes := by
      rw [written]
      rfl
    unfold taggedEmission
    -- Only these two say which class they belong to.
    cases v with
    | object className fields => rw [Wire.Slot.tagged, content]; rfl
    | singleton className => rw [Wire.Slot.tagged, content]; rfl
    | _ => cases hv
  · intro bad depth hd
    obtain ⟨depth, rfl⟩ : ∃ m, depth = m + 1 := ⟨depth - 1, by omega⟩
    exact takes_tag (read.mapError _)

/-- A leaf for any value brings back what its tagged form brings back. -/
theorem roundTrips_tagged {ty : JavaType} {l : Leaf} {v : Value} (hl : l.layout ty = .op .value)
    (h : RoundTrips ds .tagged v) : RoundTrips ds (.codec (.leaf ty l)) v := by
  obtain ⟨bytes, hb⟩ := h
  refine ⟨bytes, fun n hn => ?_⟩
  obtain ⟨written, read⟩ := hb n hn
  rw [encodeWith, decodeWith, hl]
  constructor
  · show (taggedEmission ds n v).toExcept.toOption = _
    rw [written]
    rfl
  · intro i rest
    refine read _ _ ?_ i rest
    show bytes.length < (bytes ++ rest).length + 1
    rw [List.length_append]
    omega

/-! ## §8. Every shaped value. -/

/-- Whatever has its shape, with null only where it can be written, is encoded, and its encoding
decodes to it. -/
theorem Shaped.roundTrips (distinct : (ds.map (·.typeName)).Nodup) {role : Role} {v : Value}
    (h : Shaped ds Layout.writesNull role v) : RoundTrips ds role v := by
  -- On what gives the value its shape; what is to be shown goes along with its role.
  induction h with
  | absent hm => exact roundTrips_absent hm
  | present hm _ ih => exact roundTrips_present hm ih
  | void hl => exact roundTrips_void hl
  | op hl h => exact roundTrips_op hl h
  | constant hl fits => exact roundTrips_constant hl fits
  | nested hl hd _ ih =>
    obtain ⟨bytes, hb⟩ := roundTrips_class distinct hd ih
    refine ⟨bytes, fun n hn => ?_⟩
    rw [encodeWith, decodeWith, hl]
    exact hb n hn
  | named hl hd fits h ih =>
    obtain ⟨bytes, hb⟩ := roundTrips_named distinct hd fits h.className ih
    refine ⟨bytes, fun n hn => ?_⟩
    rw [encodeWith, decodeWith, hl]
    exact hb n hn
  | tagged hl _ ih => exact roundTrips_tagged hl ih
  | array fits _ ih => exact roundTrips_array fits ih
  | sequence fits _ ih => exact roundTrips_sequence fits ih
  | map fits different _ _ ihk ihv => exact roundTrips_map fits different ihk ihv
  | sparseArray fits different _ ih => exact roundTrips_sparseArray fits different ih
  | object hs sorted names _ ih => exact roundTrips_object hs sorted names ih
  | singleton hs => exact roundTrips_singleton hs
  | plain h => exact roundTrips_plain h
  | taggedList fits _ ih => exact roundTrips_taggedList fits ih
  | taggedMap fits _ _ ihk ihv => exact roundTrips_taggedMap fits ihk ihv
  | taggedInstance hd fits h ih => exact roundTrips_taggedInstance distinct hd fits h.className ih

/-- An instance whose every null can be written has an encoding, which decodes to it at every depth
from its weight on. -/
theorem encode_of_shaped (distinct : (ds.map (·.typeName)).Nodup) {d : Descriptor} {v : Value}
    (hd : d ∈ ds) (h : Shaped ds Layout.writesNull (.instanceOf d) v) :
    ∃ bytes, encode ds v = some bytes
      ∧ ∀ n, v.weight ≤ n → Takes (decodeWithin ds n d.typeName) bytes v := by
  obtain ⟨bytes, hb⟩ := roundTrips_class distinct hd (h.roundTrips distinct)
  refine ⟨bytes, ?_, fun n hn => (hb n hn).2⟩
  unfold encode
  rw [h.className]
  exact (hb v.weight (Nat.le_refl _)).1

/-- A conforming instance has an encoding, which decodes to it at every depth from its weight on. -/
theorem encode_of_conforms (distinct : (ds.map (·.typeName)).Nodup) {d : Descriptor} {v : Value}
    (hd : d ∈ ds) (h : Conforms ds d v) :
    ∃ bytes, encode ds v = some bytes
      ∧ ∀ n, v.weight ≤ n → Takes (decodeWithin ds n d.typeName) bytes v :=
  encode_of_shaped distinct hd h.shaped

end Format

end ParcelCodec
