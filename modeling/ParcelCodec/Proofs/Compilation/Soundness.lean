import ParcelCodec.Proofs.Compilation.AdapterFree
import ParcelCodec.Proofs.Machine.Soundness

/-!
# What compiled classes read from any bytes

Whatever the bytes are, a compiled class reads an instance of its own with values of the shapes
that its codecs prescribe, or it finds a fault in the bytes.  No procedure turns out not to make
sense: every variable is set when it is used, and every value has the shape that a statement needs.

What was read can be written and is read again, if every null in it stands where one can be
written.  That is not so everywhere: an enum and a char sequence read null in a slot without a
marker, and cannot write it there.

Main statements: `read_sound` and `write_of_read`.
-/

namespace ParcelCodec.Compilation

open DataClass (Descriptor Property)
open Format (Shaped Misses Fault)

variable {m : Model} {o : Options} (adapters : List (String × AdapterBehaviour))
  (distinct : ((ofModel m o).companions.map Companion.qualifiedName).Nodup)
  (plain : ∀ d ∈ descriptors m o, ∀ p ∈ d.properties, p.codec.adapterFree = true)

/-! ## §1. Any bytes. -/

/-- How a read of a class ends, from some bytes on. -/
structure ReadsSoundly (k : Machine) (ds : List Descriptor) (d : Descriptor) (bytes : List UInt8) :
    Prop where
  /-- With an instance of the class. -/
  shaped : ∀ v, k.read d.typeName bytes = .ok v → Shaped ds Layout.readsNull (.instanceOf d) v
  /-- With a fault of the bytes, or with a class that is missing and that they name in a slot for
  instances.  A read that is stopped for want of depth never ends. -/
  fails : ∀ e, k.read d.typeName bytes = .error e →
    (∃ fault, e = .decode fault)
    ∨ (∃ name, e = .missingCompanion name ∧ Misses ds (.instanceOf d) (.ofBytes bytes) name)
    ∨ (e = .outOfDepth ∧ ∀ depth,
      (k.readClass (k.callsWithin depth) d.typeName (.ofBytes bytes)).1 = .error .outOfDepth)

include distinct plain

theorem ends_readFrom {d : Descriptor} (hd : d ∈ descriptors m o) (cur : Wire.Cursor) :
    Ends ((machine m o adapters).readFrom d.typeName) cur
      (fun v _ => Shaped (descriptors m o) Layout.readsNull (.instanceOf d) v)
      (Fault (descriptors m o) (.instanceOf d) cur) := by
  have linked := linked_descriptors distinct plain
  have uniform : ∀ d ∈ descriptors m o, DataClass.Uniform d.properties := by
    intro d hd
    obtain ⟨_, _, -, describes⟩ := describes_of_mem hd
    exact describes.uniform
  unfold Ends
  rw [Machine.readFrom_eq_readersAt]
  have sound := Machine.soundReaders_readersAt (companions_machine adapters) linked uniform
  exact (sound _).known d hd cur

omit distinct plain

/-- From any bytes, a compiled class without adapters reads an instance of its own, whose every slot
holds null or the shape that its codec prescribes, and never null for a primitive; or it finds a
fault in the bytes, or a slot for instances that names a class without a companion. -/
theorem read_sound (m : Model) (o : Options) (adapters : List (String × AdapterBehaviour))
    (distinct : ((ofModel m o).companions.map Companion.qualifiedName).Nodup)
    (plain : ∀ d ∈ descriptors m o, ∀ p ∈ d.properties, p.codec.adapterFree = true)
    {d : Descriptor} (hd : d ∈ descriptors m o) (bytes : List UInt8) :
    ReadsSoundly (machine m o adapters) (descriptors m o) d bytes := by
  have ends := ends_readFrom adapters distinct plain hd (.ofBytes bytes)
  constructor
  · intro v read
    have shape := Ends.answer read ends
    exact shape
  · intro e read
    cases Ends.error read ends with
    | decode fault => exact .inl ⟨fault, rfl⟩
    | missing miss => exact .inr (.inl ⟨_, rfl, miss⟩)
    | outOfDepth =>
      refine .inr (.inr ⟨rfl, fun depth => ?_⟩)
      by_contra ended
      have free := readsAdapterFree_machine adapters plain
      rw [← Machine.readFrom_eq_of_depth free ended] at ended
      exact ended read

/-- A node without a label and with one edge that is null, announced by markers that nothing
writes. -/
def strayMarkers : List UInt8 := [2, 0, 0, 0, 0, 0, 0, 0, 1, 0, 0, 0, 9, 0, 0, 0]

/-- The node that they announce. -/
def bareNode : Value := .object "app.Node" [("edges", .list [.null]), ("label", .null)]

theorem read_strayMarkers :
    (machine family .default []).read node.typeName strayMarkers = .ok bareNode := by
  have decoded : Format.decode [node, edge] node.typeName (.ofBytes strayMarkers)
      = (.ok bareNode, ⟨16, []⟩) := rfl
  rw [← descriptors_family] at decoded
  exact congrArg Prod.fst (readFrom_of_decode [] distinct_family adapterFree_family decoded)

/-- A node is read from markers that nothing writes, and it has the shape of a node. -/
theorem read_sound_family :
    (machine family .default []).read node.typeName strayMarkers = .ok bareNode
      ∧ Shaped (descriptors family .default) Layout.readsNull (.instanceOf node) bareNode := by
  have there : node ∈ descriptors family .default := by simp [descriptors_family]
  have sound := read_sound family .default [] distinct_family adapterFree_family there strayMarkers
  exact ⟨read_strayMarkers, sound.shaped _ read_strayMarkers⟩

/-! ## §2. What was read is written again. -/

/-- What a compiled class without adapters reads from any bytes is written, and the bytes read back
as the same instance, if every null in it stands where it can be written; and this is so of every
instance if no class has an enum or a char sequence in a slot without a marker. -/
theorem write_of_read (m : Model) (o : Options) (adapters : List (String × AdapterBehaviour))
    (distinct : ((ofModel m o).companions.map Companion.qualifiedName).Nodup)
    (plain : ∀ d ∈ descriptors m o, ∀ p ∈ d.properties, p.codec.adapterFree = true)
    {d : Descriptor} (hd : d ∈ descriptors m o) {bytes : List UInt8} {v : Value}
    (decoded : (machine m o adapters).read d.typeName bytes = .ok v)
    (writable : Shaped (descriptors m o) Layout.writesNull (.instanceOf d) v
      ∨ ∀ d' ∈ descriptors m o, d'.restores = true) :
    ∃ content, (machine m o adapters).write v = .ok content
      ∧ (machine m o adapters).read d.typeName content = .ok v := by
  have shape : Shaped (descriptors m o) Layout.writesNull (.instanceOf d) v := by
    rcases writable with shape | all
    · exact shape
    · have read := (ends_readFrom adapters distinct plain hd (.ofBytes bytes)).answer decoded
      exact Shaped.restored all read (all d hd)
  obtain ⟨content, written, read⟩ := exists_write_of_shaped adapters distinct plain hd shape
  refine ⟨content, written, ?_⟩
  have whole := read []
  rw [List.append_nil] at whole
  unfold Machine.read
  rw [whole]

/-- A node that was read from markers that nothing writes is written with markers of its own. -/
theorem write_of_read_family : ∃ content,
    (machine family .default []).write bareNode = .ok content
      ∧ (machine family .default []).read node.typeName content = .ok bareNode := by
  have there : node ∈ descriptors family .default := by simp [descriptors_family]
  have restores : ∀ d ∈ descriptors family .default, d.restores = true := by
    rw [descriptors_family]
    decide
  exact write_of_read family .default [] distinct_family adapterFree_family there
    read_strayMarkers (.inr restores)

/-! ## §3. Null that cannot be written. -/

/-- A class with a field of a type that is never null. -/
def classOf (name field type : String) : TypeDecl :=
  { plainClass name [] with fields := [{ plainField field type with nullable := false }] }

/-- An enum, a class with a constant of it, and a class with a char sequence. -/
def palette : Model := ⟨[
  { plainClass "Color" [] with
    kind := .enumType, modifiers := [], interfaces := [], dataClass := false },
  classOf "Paint" "color" "Color",
  classOf "Note" "text" "CharSequence"], []⟩

/-- The descriptor of a class with a single field that is never null. -/
def descriptorOf (name field : String) (codec : Codec) : Descriptor where
  package := "app"
  className := name
  companionName := name ++ "Codec"
  type := .named ("app." ++ name)
  properties := [⟨field, false, .field, .field, codec⟩]
  singleton := false

def paint : Descriptor := descriptorOf "Paint" "color" (.leaf (.named "app.Color") .enum)

def note : Descriptor :=
  descriptorOf "Note" "text" (.leaf (.named "java.lang.CharSequence") (.platform .charSequence))

theorem descriptors_palette : descriptors palette .default = [paint, note] := by decide +kernel

/-- An enum and a char sequence read null in a slot without a marker, from the length of an absent
text, but neither writes it. -/
theorem read_not_written :
    ((ofModel palette .default).companions.map Companion.qualifiedName).Nodup
      ∧ (∀ d ∈ descriptors palette .default, ∀ p ∈ d.properties, p.codec.adapterFree = true)
      ∧ (machine palette .default []).read "app.Paint" [255, 255, 255, 255]
        = .ok (.object "app.Paint" [("color", .null)])
      ∧ (machine palette .default []).write (.object "app.Paint" [("color", .null)])
        = .error (.procedure (.unexpected "an enum constant" .null))
      ∧ (machine palette .default []).read "app.Note" [1, 0, 0, 0, 255, 255, 255, 255]
        = .ok (.object "app.Note" [("text", .null)])
      ∧ (machine palette .default []).write (.object "app.Note" [("text", .null)])
        = .error (.encode (.unwritable .null .charSequence)) := by
  have distinct : ((ofModel palette .default).companions.map Companion.qualifiedName).Nodup := by
    rw [companions_ofModel, descriptors_palette]
    decide
  have plain : ∀ d ∈ descriptors palette .default, ∀ p ∈ d.properties,
      p.codec.adapterFree = true := by
    rw [descriptors_palette]
    decide
  have machine_eq : machine palette .default []
      = ⟨[paint, note].map Companion.ofDescriptor, []⟩ := by
    unfold machine
    rw [companions_ofModel, descriptors_palette]
  -- The format has both nulls, and the companions read what the format has.
  have color : Format.decode [paint, note] "app.Paint" (.ofBytes [255, 255, 255, 255])
      = (.ok (.object "app.Paint" [("color", .null)]), ⟨4, []⟩) := rfl
  have text : Format.decode [paint, note] "app.Note" (.ofBytes [1, 0, 0, 0, 255, 255, 255, 255])
      = (.ok (.object "app.Note" [("text", .null)]), ⟨8, []⟩) := rfl
  rw [← descriptors_palette] at color text
  refine ⟨distinct, plain, congrArg Prod.fst (readFrom_of_decode [] distinct plain color), ?_,
    congrArg Prod.fst (readFrom_of_decode [] distinct plain text), ?_⟩
  · rw [machine_eq]
    rfl
  · rw [machine_eq]
    rfl

end ParcelCodec.Compilation
