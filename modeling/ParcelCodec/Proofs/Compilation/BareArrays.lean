import ParcelCodec.Proofs.Compilation.Ending

/-!
# Arrays whose elements have no markers

An adapter that writes null by itself is called for the elements of an array without a marker in
front of them, so an element may take less than four bytes, or none at all.  A companion refuses
the length of an array that leaves less than four bytes for each element, however the elements are
written.  So the array is read back exactly if there are four bytes for each element behind its
length, where all bytes count: those of the elements and whatever else follows.

Main statement: `readFrom_write_array`.
-/

namespace ParcelCodec

open DataClass (Descriptor Property)
open Format (guardedCount readElements readFields readSlot writeSlot marked)
open Wire (Cursor Fitting Takes TakesBefore)

/-! ## §1. Slots and arrays where they stand. -/

namespace Format

/-- A codec that writes null by itself is never given a marker. -/
theorem marked_of_isNullSafe {c : Codec} {nullable : Bool} (safe : c.isNullSafe = true) :
    marked c nullable = false := by
  simp [marked, safe]

section Arrays

variable {α : Type} {element : Reading α} {bytes : α → List UInt8} {items : List α}
  (fits : Fitting items.length) (takes : ∀ a ∈ items, Takes element (bytes a) a)

include fits

/-- Once the length of an array is read, it is compared with the bytes that are left. -/
theorem readElements_guardedCount_apply (i : Nat) (left : List UInt8) :
    readElements guardedCount element ⟨i, Wire.Slot.length items.length ++ left⟩
      = (if left.length / 4 < items.length then
          Step.fail (.decode (.arrayTooLong items.length left.length))
        else Step.replicate items.length element)
          ⟨i + (Wire.Slot.length items.length).length, left⟩ := by
  rw [readElements_guardedCount, Step.bind_ok (takes_readCount fits i left)]
  rfl

include takes

/-- An array is read back if its length leaves four bytes for each element. -/
theorem takesBefore_readElements {behind : List UInt8}
    (roomy : items.length ≤ (items.flatMap bytes ++ behind).length / 4) :
    TakesBefore behind (readElements guardedCount element)
      (Wire.Slot.length items.length ++ items.flatMap bytes) items := by
  intro i
  rw [List.append_assoc, readElements_guardedCount_apply fits, if_neg (Nat.not_lt.mpr roomy),
    Takes.replicate items takes, List.length_append, Nat.add_assoc]

end Arrays

section Fields

variable {read : Property → Reading Value} {behind first second : List UInt8}
  {pairs : List (String × Value)}

/-- Properties are read one after the other, the first in front of what the others take. -/
theorem takesBefore_readFields_cons {p : Property} {ps : List Property} {v : Value}
    (here : TakesBefore (second ++ behind) (readSlot p.codec p.nullable (read p)) first v)
    (others : TakesBefore behind (readFields read ps) second pairs) :
    TakesBefore behind (readFields read (p :: ps)) (first ++ second) ((p.name, v) :: pairs) := by
  have rest : TakesBefore behind (do return (p.name, v) :: (← readFields read ps)) second
      ((p.name, v) :: pairs) := others.map _
  exact here.bind rest

/-- The same for a front part and a back part of the properties. -/
theorem takesBefore_readFields_append {front back : List Property} {pairs' : List (String × Value)}
    (ahead : TakesBefore (second ++ behind) (readFields read front) first pairs)
    (others : TakesBefore behind (readFields read back) second pairs') :
    TakesBefore behind (readFields read (front ++ back)) (first ++ second) (pairs ++ pairs') := by
  rw [readFields_append]
  have rest : TakesBefore behind (do return pairs ++ (← readFields read back)) second
      (pairs ++ pairs') := others.map _
  exact ahead.bind rest

end Fields

end Format

/-! ## §2. What compiled companions do with an instance. -/

namespace Compilation

variable {m : Model} {o : Options} {d : Descriptor}

/-- A compiled class with properties does not have a single instance. -/
theorem singleton_of_mem (hd : d ∈ descriptors m o) {p : Property} (hp : p ∈ d.properties) :
    d.singleton = false := by
  obtain ⟨_, _, -, described⟩ := exists_describe (descriptorOf?_of_mem hd)
  exact DataClass.singleton_of_describe described hp

/-- A machine writes an instance property by property. -/
theorem write_of_instanceWriting (adapters : List (String × AdapterBehaviour))
    (hd : d ∈ descriptors m o) {v : Value} {bytes : List UInt8}
    (own : v.className? = some d.typeName)
    (h : Companion.instanceWriting ((machine m o adapters).callsWithin
      ((machine m o adapters).writeDepth v) (Companion.ofDescriptor d)) d v = some bytes) :
    (machine m o adapters).write v = .ok bytes := by
  unfold Machine.write
  rw [Wire.Emission.toExcept_eq_ok]
  unfold Machine.writeTo Machine.writeClass
  simp only [own, companion?_of_mem adapters hd]
  exact Companion.write_ofDescriptor h

/-- A machine reads an instance property by property. -/
theorem readFrom_eq_decodeInstance (adapters : List (String × AdapterBehaviour))
    (hd : d ∈ descriptors m o) (c : Cursor) :
    (machine m o adapters).readFrom d.typeName c
      = Format.decodeInstance (Companion.propertyReading ((machine m o adapters).callsWithin
          ((machine m o adapters).readDepth c.remaining) (Companion.ofDescriptor d))
        (Statics.ofDescriptor d)) d c := by
  obtain ⟨_, _, -, describes⟩ := describes_of_mem hd
  unfold Machine.readFrom Machine.readClass
  simp only [companion?_of_mem adapters hd]
  unfold Machine.readThrough
  rw [Companion.read_ofDescriptor _ describes.first]

end Compilation

/-! ## §3. An instance on its way through a machine. -/

/-- An adapter reads back whatever it writes, whatever stands behind that and whatever the adapter
is given. -/
def AdapterBehaviour.Lawful (behaviour : AdapterBehaviour) : Prop :=
  ∀ given given' v bytes, behaviour.write given v = .wrote bytes →
    Takes (behaviour.read given') bytes v

/-- An instance that a machine writes and reads: what its properties are written as, and what
stands behind it when it is read. -/
structure Passage where
  machine : Machine
  descriptor : Descriptor
  value : Value
  part : Property → List UInt8
  rest : List UInt8

namespace Passage

variable (x : Passage)

/-- The bytes of the instance. -/
def bytes : List UInt8 := x.descriptor.properties.flatMap x.part

/-- The static declarations of its companion. -/
def statics : Statics := Statics.ofDescriptor x.descriptor

/-- What its companion can call while it is written, some calls further in.  A shared codec is one
call further in than the companion. -/
def writing (inside : Nat) : Calls :=
  x.machine.callsWithin (x.machine.writeDepth x.value - inside) (Companion.ofDescriptor x.descriptor)

/-- What its companion can call while it is read. -/
def reading (inside : Nat) : Calls :=
  x.machine.callsWithin (x.machine.readDepth (x.bytes ++ x.rest).length - inside)
    (Companion.ofDescriptor x.descriptor)

/-- The value of a property. -/
def held (p : Property) : Value := (x.value.get? p.name).getD .null

/-- The value is an instance of the class, with one field for each property. -/
def IsInstance : Prop :=
  ∃ fields, x.value = .object x.descriptor.typeName fields
    ∧ (fields.map (·.1)).Pairwise (· < ·)
    ∧ ∀ n, n ∈ fields.map (·.1) ↔ n ∈ x.descriptor.properties.map (·.name)

/-- Properties are written as their parts, and read back from them where they stand. -/
structure Passes (ps : List Property) (behind : List UInt8) : Prop where
  written : ∀ p ∈ ps,
    Companion.slotWriting (x.writing 0) x.statics x.value p = some (x.part p)
  read : TakesBefore behind
    (readFields (Companion.propertyReading (x.reading 0) x.statics) ps) (ps.flatMap x.part)
    (ps.map fun p => (p.name, x.held p))

/-- A property holds an array, and an adapter that writes null by itself writes its elements. -/
structure HoldsBare (p : Property) (use : AdapterUse) (items : List Value)
    (element : Value → List UInt8) : Prop where
  codec : ∃ ty elementType deps, p.codec = .array ty (.adapter elementType use deps)
  nullSafe : use.nullSafe = true
  held : x.value.get? p.name = some (.array items)
  fits : Fitting items.length
  written : ∀ a ∈ items,
    (x.writing 1).writeAdapter (x.statics.refTo use) a = .wrote (element a)
  part : x.part p = Format.presentMarker p.codec p.nullable
    ++ (Wire.Slot.length items.length ++ items.flatMap element)

/-- The number of bytes behind the length of an array: its content, the properties behind it and
what stands behind the instance. -/
def left (content : List UInt8) (back : List Property) : Nat :=
  (content ++ (back.flatMap x.part ++ x.rest)).length

/-- An adapter reads back whatever it writes, whatever stands behind that. -/
def Lawful (use : AdapterUse) : Prop :=
  ∀ a bytes, (x.writing 1).writeAdapter (x.statics.refTo use) a = .wrote bytes →
    Takes ((x.reading 1).readAdapter (x.statics.refTo use)) bytes a

/-- The budget of a write leaves room for a shared codec and for an adapter in it. -/
theorem exists_writing : ∃ depth,
    x.writing 0 = x.machine.callsWithin (depth + 2) (Companion.ofDescriptor x.descriptor)
      ∧ x.writing 1 = x.machine.callsWithin (depth + 1) (Companion.ofDescriptor x.descriptor) := by
  obtain ⟨depth, budget⟩ : ∃ depth, x.machine.writeDepth x.value = depth + 2 :=
    Nat.exists_eq_add_of_le' (Nat.le_add_left_of_le (by decide))
  unfold writing
  rw [budget]
  exact ⟨depth, rfl, rfl⟩

/-- So does the budget of a read. -/
theorem exists_reading : ∃ depth,
    x.reading 0 = x.machine.callsWithin (depth + 2) (Companion.ofDescriptor x.descriptor)
      ∧ x.reading 1 = x.machine.callsWithin (depth + 1) (Companion.ofDescriptor x.descriptor) := by
  obtain ⟨depth, budget⟩ : ∃ depth,
      x.machine.readDepth (x.bytes ++ x.rest).length = depth + 2 :=
    Nat.exists_eq_add_of_le' (Nat.le_add_left_of_le (by decide))
  unfold reading
  rw [budget]
  exact ⟨depth, rfl, rfl⟩

variable {x}

/-- An adapter that reads back what it writes whatever it is given does so here. -/
theorem lawful_of_behaviour {use : AdapterUse} {behaviour : AdapterBehaviour}
    {args : List DependencyArg} (lawful : behaviour.Lawful)
    (found : x.machine.adapterOf (Companion.ofDescriptor x.descriptor) (x.statics.refTo use)
      = .ok (behaviour, args)) : x.Lawful use := by
  intro a bytes written
  obtain ⟨depth, -, inside⟩ := x.exists_writing
  obtain ⟨depth', -, inside'⟩ := x.exists_reading
  simp only [inside, Machine.callsWithin, found] at written
  simp only [inside', Machine.callsWithin, found]
  exact lawful _ _ a bytes written

/-! ### The array. -/

namespace HoldsBare

variable {p : Property} {use : AdapterUse} {items : List Value} {element : Value → List UInt8}
  (h : x.HoldsBare p use items element) (shared : HasShared x.descriptor p)

include h

theorem held_eq : x.held p = .array items := by
  unfold Passage.held
  rw [h.held]
  rfl

theorem isComposite : p.codec.isComposite = true := by
  obtain ⟨ty, elementType, deps, codec⟩ := h.codec
  rw [codec]
  rfl

/-- The shared codec writes the number of elements and the elements, without markers. -/
theorem encode_eq : (x.writing 1).encode x.statics.refTo p.codec (.array items)
    = some (Wire.Slot.length items.length ++ items.flatMap element) := by
  obtain ⟨ty, elementType, deps, codec⟩ := h.codec
  rw [codec, Calls.encode]
  refine Format.encodeCounted_of_forall h.fits fun a ha => ?_
  have bare : marked (.adapter elementType use deps) true = false :=
    Format.marked_of_isNullSafe h.nullSafe
  -- Without a marker the slot of an element is what the adapter writes, be it nothing.
  rw [writeSlot, bare, if_neg Bool.false_ne_true, Calls.encode, Wire.Emission.written?_eq_some]
  exact h.written a ha

include shared

/-- The slot of the array is written as its part. -/
theorem slotWriting_eq :
    Companion.slotWriting (x.writing 0) x.statics x.value p = some (x.part p) := by
  have encoded := h.encode_eq
  obtain ⟨depth, outside, inside⟩ := x.exists_writing
  rw [inside] at encoded
  have value : (x.value.get? p.name).getD .null = .array items := h.held_eq
  unfold Companion.slotWriting
  rw [value, outside, h.part]
  exact Format.writeSlot_present (fun _ => rfl)
    (Machine.propertyWriting_of_composite shared h.isComposite encoded)

/-- The shared codec reads a guarded length and then what the adapter reads. -/
theorem propertyReading_eq : Companion.propertyReading (x.reading 0) x.statics p = do
    return .array (← readElements guardedCount
      ((x.reading 1).readAdapter (x.statics.refTo use))) := by
  obtain ⟨ty, elementType, deps, codec⟩ := h.codec
  obtain ⟨depth, outside, inside⟩ := x.exists_reading
  have bare : marked (.adapter elementType use deps) true = false :=
    Format.marked_of_isNullSafe h.nullSafe
  have along : Companion.propertyReading (x.reading 0) x.statics p
      = (x.reading 1).decode x.statics.refTo p.codec := by
    rw [outside, inside]
    exact Machine.propertyReading_of_composite shared h.isComposite
  rw [along, codec, Calls.decode, readSlot, bare, if_neg Bool.false_ne_true, Calls.decode]

/-- The array is read back where four bytes are left for each element. -/
theorem takesBefore (lawful : x.Lawful use) {behind : List UInt8}
    (roomy : items.length ≤ (items.flatMap element ++ behind).length / 4) :
    TakesBefore behind
      (readSlot p.codec p.nullable (Companion.propertyReading (x.reading 0) x.statics p))
      (x.part p) (.array items) := by
  have elements := Format.takesBefore_readElements h.fits
    (fun a ha => lawful a (element a) (h.written a ha)) roomy
  intro i
  rw [h.part, List.append_assoc, Format.readSlot_present, h.propertyReading_eq shared,
    elements.map Value.array]
  simp only [List.length_append, Nat.add_assoc]

/-- Elsewhere its length is refused. -/
theorem refused {behind : List UInt8}
    (crowded : (items.flatMap element ++ behind).length / 4 < items.length) (i : Nat) :
    (readSlot p.codec p.nullable (Companion.propertyReading (x.reading 0) x.statics p)
      ⟨i, x.part p ++ behind⟩).1
      = .error (.decode (.arrayTooLong items.length (items.flatMap element ++ behind).length)) := by
  rw [h.part, List.append_assoc, Format.readSlot_present, h.propertyReading_eq shared,
    List.append_assoc, Step.bind_apply,
    Format.readElements_guardedCount_apply h.fits, if_pos crowded]
  rfl

end HoldsBare

/-! ### The instance. -/

section Instance

variable {front back : List Property} {p : Property} {use : AdapterUse} {items : List Value}
  {element : Value → List UInt8} (split : x.descriptor.properties = front ++ p :: back)
  (array : x.HoldsBare p use items element) (shared : HasShared x.descriptor p)
  (ahead : x.Passes front (x.part p ++ back.flatMap x.part ++ x.rest))

include split array shared ahead

/-- Every property is written, and so is the instance. -/
theorem instanceWriting_eq (single : x.descriptor.singleton = false)
    (behind : x.Passes back x.rest) :
    Companion.instanceWriting (x.writing 0) x.descriptor x.value = some x.bytes := by
  unfold Companion.instanceWriting
  rw [single, if_neg Bool.false_ne_true]
  refine Format.encodeAll_of_forall fun q hq => ?_
  rw [split] at hq
  rcases List.mem_append.mp hq with hq | hq
  · exact ahead.written q hq
  rcases List.mem_cons.mp hq with rfl | hq
  · exact array.slotWriting_eq shared
  · exact behind.written q hq

/-- All properties are read back if the array is. -/
theorem takesBefore_properties (lawful : x.Lawful use) (behind : x.Passes back x.rest)
    (roomy : items.length ≤ x.left (items.flatMap element) back / 4) :
    TakesBefore x.rest
      (readFields (Companion.propertyReading (x.reading 0) x.statics) x.descriptor.properties)
      x.bytes (x.descriptor.properties.map fun q => (q.name, x.held q)) := by
  -- From the array on, the properties stand in front of the rest; those in front of it stand in
  -- front of all that.
  have here := array.takesBefore shared lawful roomy
  rw [← array.held_eq] at here
  have fromHere := Format.takesBefore_readFields_cons here behind.read
  have all := Format.takesBefore_readFields_append ahead.read fromHere
  unfold bytes
  rw [split]
  simpa only [List.flatMap_append, List.flatMap_cons, List.map_append, List.map_cons] using all

/-- None is read behind an array whose length is refused. -/
theorem properties_refused (crowded : x.left (items.flatMap element) back / 4 < items.length) :
    (readFields (Companion.propertyReading (x.reading 0) x.statics) x.descriptor.properties
        ⟨0, x.bytes ++ x.rest⟩).1
      = .error (.decode (.arrayTooLong items.length (x.left (items.flatMap element) back))) := by
  have stops := array.refused shared crowded (0 + (front.flatMap x.part).length)
  rw [← List.append_assoc] at stops
  unfold bytes
  rw [split, List.flatMap_append, List.flatMap_cons, List.append_assoc,
    Format.readFields_append, Step.bind_ok (ahead.read 0), readFields]
  -- The properties in front are read, so the array is the first to fail.
  rcases run : readSlot p.codec p.nullable (Companion.propertyReading (x.reading 0) x.statics p)
      ⟨0 + (front.flatMap x.part).length, x.part p ++ back.flatMap x.part ++ x.rest⟩
    with ⟨e | v, c⟩
  · rw [run] at stops
    cases stops
    rw [Step.bind_error (Step.bind_error run)]
    rfl
  · rw [run] at stops
    cases stops

end Instance

/-- The values of the properties make the instance. -/
theorem IsInstance.rebuilt (h : x.IsInstance) :
    x.value.className? = some x.descriptor.typeName
      ∧ .object x.descriptor.typeName
          (Value.fieldsOf (x.descriptor.properties.map fun q => (q.name, x.held q))) = x.value := by
  obtain ⟨fields, same, sorted, names⟩ := h
  -- Properties come in their own order, fields in that of their names.
  have kept := Value.fieldsOf_eq_of_sorted sorted names
  rw [List.map_map] at kept
  unfold held
  rw [same]
  exact ⟨rfl, congrArg (Value.object x.descriptor.typeName) kept⟩

end Passage

/-! ## §4. Arrays come back unless they are refused. -/

namespace Compilation

section Arrays

variable {m : Model} {o : Options} {adapters : List (String × AdapterBehaviour)} {x : Passage}
  (compiled : x.machine = machine m o adapters) (hd : x.descriptor ∈ descriptors m o)
  (whole : x.IsInstance) {front back : List Property} {p : Property}
  (split : x.descriptor.properties = front ++ p :: back) {use : AdapterUse} {items : List Value}
  {element : Value → List UInt8} (array : x.HoldsBare p use items element)
  (ahead : x.Passes front (x.part p ++ back.flatMap x.part ++ x.rest))

include hd split

theorem singleton_of_split : x.descriptor.singleton = false :=
  singleton_of_mem hd (split ▸ List.mem_append_right front List.mem_cons_self)

theorem hasShared_of_split (composite : p.codec.isComposite = true) : HasShared x.descriptor p :=
  hasShared_of_mem hd (split ▸ List.mem_append_right front List.mem_cons_self) composite

include compiled

/-- The instance is read property by property. -/
theorem readFrom_passage :
    x.machine.readFrom x.descriptor.typeName (.ofBytes (x.bytes ++ x.rest))
      = (do return .object x.descriptor.typeName (Value.fieldsOf
          (← readFields (Companion.propertyReading (x.reading 0) x.statics)
            x.descriptor.properties)) : Reading Value) ⟨0, x.bytes ++ x.rest⟩ := by
  unfold Passage.reading
  rw [compiled, readFrom_eq_decodeInstance adapters hd]
  unfold Format.decodeInstance
  rw [singleton_of_split hd split, if_neg Bool.false_ne_true]
  rfl

include array ahead

/-- The instance is not read back where less than four bytes are left for each element of the
array. -/
theorem readFrom_of_crowded
    (crowded : x.left (items.flatMap element) back / 4 < items.length) :
    (x.machine.readFrom x.descriptor.typeName (.ofBytes (x.bytes ++ x.rest))).1
      = .error (.decode (.arrayTooLong items.length (x.left (items.flatMap element) back))) := by
  have shared := hasShared_of_split hd split array.isComposite
  have stops := x.properties_refused split array shared ahead crowded
  rw [readFrom_passage compiled hd split]
  rcases run : readFields (Companion.propertyReading (x.reading 0) x.statics)
      x.descriptor.properties ⟨0, x.bytes ++ x.rest⟩ with ⟨e | pairs, c⟩
  · rw [run] at stops
    cases stops
    rw [Step.bind_error run]
  · rw [run] at stops
    cases stops

include whole

/-- It is read back elsewhere. -/
theorem readFrom_of_roomy (lawful : x.Lawful use) (behind : x.Passes back x.rest)
    (roomy : items.length ≤ x.left (items.flatMap element) back / 4) :
    x.machine.readFrom x.descriptor.typeName (.ofBytes (x.bytes ++ x.rest))
      = (.ok x.value, ⟨x.bytes.length, x.rest⟩) := by
  have shared := hasShared_of_split hd split array.isComposite
  have fields := x.takesBefore_properties split array shared ahead lawful behind roomy
  have built := fields.map fun pairs =>
    Value.object x.descriptor.typeName (Value.fieldsOf pairs)
  rw [readFrom_passage compiled hd split, built 0, whole.rebuilt.2, Nat.zero_add]

/-- It is written in either case. -/
theorem write_passage (behind : x.Passes back x.rest) : x.machine.write x.value = .ok x.bytes := by
  have shared := hasShared_of_split hd split array.isComposite
  have single := singleton_of_split hd split
  have written := x.instanceWriting_eq split array shared ahead single behind
  unfold Passage.writing at written
  rw [compiled] at written ⊢
  exact write_of_instanceWriting adapters hd whole.rebuilt.1 written

end Arrays

/-- Elements of four bytes each make room for themselves. -/
theorem roomy_of_wide (x : Passage) {items : List Value} {element : Value → List UInt8}
    (back : List Property) (wide : ∀ a ∈ items, 4 ≤ (element a).length) :
    items.length ≤ x.left (items.flatMap element) back / 4 := by
  have own : 4 * items.length ≤ (items.flatMap element).length := by
    induction items with
    | nil => exact Nat.zero_le _
    | cons a rest ih =>
      have first := wide a List.mem_cons_self
      have others := ih fun b hb => wide b (List.mem_cons_of_mem a hb)
      rw [List.flatMap_cons, List.length_append, List.length_cons]
      omega
  unfold Passage.left
  rw [List.length_append]
  omega

/-- **Arrays of elements without markers come back unless their length is refused.**  An instance
with such an array is written, whatever bytes the elements take.  It is read back if four bytes for
each element are left behind the length of the array, be they the elements' own or not; otherwise
the length that was written is refused.  Elements of four bytes each make room for themselves. -/
theorem readFrom_write_array (m : Model) (o : Options)
    (adapters : List (String × AdapterBehaviour)) {x : Passage}
    (compiled : x.machine = machine m o adapters) (hd : x.descriptor ∈ descriptors m o)
    (whole : x.IsInstance) {front back : List Property} {p : Property}
    (split : x.descriptor.properties = front ++ p :: back) {use : AdapterUse} {items : List Value}
    {element : Value → List UInt8} (array : x.HoldsBare p use items element)
    (lawful : x.Lawful use)
    (ahead : x.Passes front (x.part p ++ back.flatMap x.part ++ x.rest))
    (behind : x.Passes back x.rest) :
    x.machine.write x.value = .ok x.bytes
    ∧ (items.length ≤ x.left (items.flatMap element) back / 4 →
      x.machine.readFrom x.descriptor.typeName (.ofBytes (x.bytes ++ x.rest))
        = (.ok x.value, ⟨x.bytes.length, x.rest⟩))
    ∧ (x.left (items.flatMap element) back / 4 < items.length →
      (x.machine.readFrom x.descriptor.typeName (.ofBytes (x.bytes ++ x.rest))).1
        = .error (.decode (.arrayTooLong items.length (x.left (items.flatMap element) back))))
    ∧ ((∀ a ∈ items, 4 ≤ (element a).length) →
      items.length ≤ x.left (items.flatMap element) back / 4) := by
  refine ⟨write_passage compiled hd whole split array ahead behind, fun roomy => ?_,
    fun crowded => ?_, roomy_of_wide x back⟩
  · exact readFrom_of_roomy compiled hd whole split array ahead lawful behind roomy
  · exact readFrom_of_crowded compiled hd split array ahead crowded

/-! ## §5. A purse. -/

/-- A class with an array of currencies and a number behind it; the adapter of the currencies
writes null by itself. -/
def purse : Model where
  types := [plainClass "Purse" [("coins", "java.util.Currency[]"), ("size", "int")]]
  adapters := [{
    package := "app"
    name := "CurrencyAdapter"
    kind := .classType
    modifiers := [.isPublic]
    typeParams := []
    handles := "java.util.Currency"
    priority := .default
    nullSafe := true
    singleton := true
    constructor := [] }]

def currencyUse : AdapterUse := ⟨"app.CurrencyAdapter", [], "CURRENCY_ADAPTER", true, true⟩

def coins : Property := plainProperty "coins" (.array (.array (.named "java.util.Currency"))
  (.adapter (.named "java.util.Currency") currencyUse []))

def size : Property := ⟨"size", false, .field, .field, .leaf (.primitive .int) (.primitive .int)⟩

def purseClass : Descriptor := plainDescriptor "Purse" [coins, size]

/-- The purse is compiled without a finding. -/
theorem compiled_purse : (ofModel purse .default).diagnostics = []
    ∧ descriptors purse .default = [purseClass] := by
  decide +kernel

/-- An adapter that has only null to write, and writes it in no bytes at all. -/
def silent : AdapterBehaviour where
  read _ := pure .null
  write _ v := if v.isNull then .wrote [] else .failed (.encode (.unwritable v .value))

theorem lawful_silent : silent.Lawful := by
  intro given given' v bytes written
  cases v with
  | null =>
    cases congrArg Wire.Emission.bytes written
    exact Takes.pure Value.null
  | _ => exact absurd written (Wire.Emission.failed_ne_wrote _ bytes)

/-- A purse with so many coins, all of them null, behind which nothing stands. -/
def pocket (n : Nat) : Passage where
  machine := machine purse .default [("app.CurrencyAdapter", silent)]
  descriptor := purseClass
  value := .object "app.Purse"
    [("coins", .array (List.replicate n .null)), ("size", .int (Int32.ofNat n))]
  part q := if q.name = "coins" then Wire.Slot.int 0 ++ Wire.Slot.length n
    else Wire.Slot.int (Int32.ofNat n)
  rest := []

theorem lawful_pocket (n : Nat) : (pocket n).Lawful currencyUse :=
  Passage.lawful_of_behaviour lawful_silent rfl

theorem isInstance_pocket (n : Nat) : (pocket n).IsInstance := by
  refine ⟨_, rfl, ?_, fun m => .rfl⟩
  show ["coins", "size"].Pairwise (· < ·)
  decide

theorem holdsBare_pocket {n : Nat} (fits : Fitting n) :
    (pocket n).HoldsBare coins currencyUse (List.replicate n .null) fun _ => [] := by
  refine ⟨⟨_, _, _, rfl⟩, rfl, rfl, by simpa using fits, fun a ha => ?_, ?_⟩
  · obtain ⟨depth, -, inside⟩ := (pocket n).exists_writing
    rw [inside, List.eq_of_mem_replicate ha]
    rfl
  · show Wire.Slot.int 0 ++ Wire.Slot.length n = Wire.Slot.int 0 ++ _
    simp

/-- The number behind the coins is written and read back. -/
theorem passes_size (n : Nat) : (pocket n).Passes [size] [] := by
  refine ⟨fun q hq => ?_, ?_⟩
  · rw [List.mem_singleton.mp hq]
    rfl
  · refine TakesBefore.of_takes (Format.takes_readFields _ [size] fun q hq => ?_)
    rw [List.mem_singleton.mp hq]
    exact Format.takes_ofOp ((Wire.takes_int (Int32.ofNat n)).map Value.int)

theorem passes_nothing (x : Passage) (behind : List UInt8) : x.Passes [] behind :=
  ⟨nofun, TakesBefore.of_takes (Takes.pure [])⟩

theorem compiled_pocket (n : Nat) :
    (pocket n).machine = machine purse .default [("app.CurrencyAdapter", silent)] := rfl

theorem split_pocket (n : Nat) : (pocket n).descriptor.properties = [] ++ coins :: [size] := rfl

theorem mem_pocket (n : Nat) : (pocket n).descriptor ∈ descriptors purse .default := by
  rw [compiled_purse.2]
  exact List.mem_singleton_self purseClass

/-- One coin that is null has the four bytes of the number behind it for itself. -/
theorem readFrom_write_array_purse :
    (pocket 1).machine.write (pocket 1).value = .ok (pocket 1).bytes
    ∧ (pocket 1).machine.readFrom "app.Purse" (.ofBytes ((pocket 1).bytes ++ []))
      = (.ok (pocket 1).value, ⟨12, []⟩) := by
  obtain ⟨written, read, -⟩ := readFrom_write_array purse .default
    [("app.CurrencyAdapter", silent)] (compiled_pocket 1) (mem_pocket 1) (isInstance_pocket 1)
    (split_pocket 1) (holdsBare_pocket (by decide)) (lawful_pocket 1) (passes_nothing _ _)
    (passes_size 1)
  exact ⟨written, read (by decide)⟩

/-- Two coins that are null are written by an adapter that reads back whatever it writes, and the
length that was written is refused. -/
theorem null_coins_refused :
    (ofModel purse .default).diagnostics = [] ∧ descriptors purse .default = [purseClass]
    ∧ silent.Lawful
    ∧ (pocket 2).machine.write (pocket 2).value = .ok [0, 0, 0, 0, 2, 0, 0, 0, 2, 0, 0, 0]
    ∧ (pocket 2).machine.read "app.Purse" [0, 0, 0, 0, 2, 0, 0, 0, 2, 0, 0, 0]
      = .error (.decode (.arrayTooLong 2 4)) := by
  have array := @holdsBare_pocket 2 (by decide)
  refine ⟨compiled_purse.1, compiled_purse.2, lawful_silent, ?_, ?_⟩
  · exact write_passage (compiled_pocket 2) (mem_pocket 2) (isInstance_pocket 2) (split_pocket 2)
      array (passes_nothing _ _) (passes_size 2)
  · exact readFrom_of_crowded (compiled_pocket 2) (mem_pocket 2) (split_pocket 2) array
      (passes_nothing _ _) (by decide)

end Compilation

end ParcelCodec
