import ParcelCodec.Proofs.Compilation.Links
import ParcelCodec.Proofs.Machine.Format

/-!
# Compiled classes read back what they write

The descriptors of a compilation refer to each other as a machine needs it, if no adapter stands in
their codecs and their companions are told apart by their names.  So a machine with the companions
of a compilation does what the format says, and what it writes it reads back.

Main statements: `readFrom_write` and `machine_refines_format`.
-/

namespace ParcelCodec

open DataClass (Descriptor Property Describes)
open Codec (Part)
open Wire (Cursor)

/-! ## §1. Codecs without adapters. -/

/-- No adapter stands in a codec. -/
def Codec.adapterFree : Codec → Bool
  | .leaf _ _ => true
  | .array _ e | .sequence _ _ _ e | .sparseArray _ e => e.adapterFree
  | .map _ _ k v => k.adapterFree && v.adapterFree
  | .adapter _ _ _ => false

/-- A codec without adapters is linked as far as the nested classes in it are. -/
theorem Codec.links_of_part {p : JavaType → String → Prop} : ∀ {c : Codec}, c.adapterFree = true →
    (∀ ty companion, Part (.leaf ty (.nested companion)) c → p ty companion) → c.Links p
  | .leaf ty _, _, h => fun companion nested => h ty companion (nested ▸ .refl _)
  | .array _ e, plain, h =>
    links_of_part (c := e) plain fun ty companion part => h ty companion (.array part)
  | .sequence _ _ _ e, plain, h =>
    links_of_part (c := e) plain fun ty companion part => h ty companion (.sequence part)
  | .sparseArray _ e, plain, h =>
    links_of_part (c := e) plain fun ty companion part => h ty companion (.sparseArray part)
  | .map _ _ k v, plain, h =>
    have both : k.adapterFree = true ∧ v.adapterFree = true := by
      simpa [Codec.adapterFree] using plain
    ⟨links_of_part both.1 fun ty companion part => h ty companion (.key part),
      links_of_part both.2 fun ty companion part => h ty companion (.value part)⟩
  | .adapter _ _ _, plain, _ => by cases plain

namespace Compilation

variable {m : Model} {o : Options}

/-! ## §2. Compilations are linked. -/

/-- Where a list of results has no repetitions, each result comes from one item. -/
theorem eq_of_filterMap {α β γ : Type} {f : α → Option β} {g : β → γ} {l : List α} {a a' : α}
    {b : β} (distinct : ((l.filterMap f).map g).Nodup) (ha : a ∈ l) (ha' : a' ∈ l)
    (hf : f a = some b) (hf' : f a' = some b) : a = a' := by
  induction l with
  | nil => exact absurd ha List.not_mem_nil
  | cons c rest ih =>
    have apart : ∀ c', c' ∈ rest → f c' = some b → f c ≠ some b := by
      intro c' hc' found found'
      rw [List.filterMap_cons_some found', List.map_cons, List.nodup_cons] at distinct
      exact distinct.1 (List.mem_map_of_mem (List.mem_filterMap.mpr ⟨c', hc', found⟩))
    have later : ((rest.filterMap f).map g).Nodup := by
      rcases hc : f c with _ | b'
      · rwa [List.filterMap_cons_none hc] at distinct
      · rw [List.filterMap_cons_some hc, List.map_cons, List.nodup_cons] at distinct
        exact distinct.2
    rcases List.mem_cons.mp ha with rfl | ha
    · rcases List.mem_cons.mp ha' with rfl | ha'
      · rfl
      · exact absurd hf (apart a' ha' hf')
    · rcases List.mem_cons.mp ha' with same | ha'
      · exact absurd (same ▸ hf') (apart a ha hf)
      · exact ih later ha ha'

/-- The companion of a compiled class declares its composite codecs for sharing. -/
theorem hasShared_of_mem {d : Descriptor} (hd : d ∈ descriptors m o) {p : Property}
    (hp : p ∈ d.properties) (composite : p.codec.isComposite = true) : HasShared d p := by
  obtain ⟨_, _, -, describes⟩ := describes_of_mem hd
  exact Statics.exists_shared describes.made hp composite

section Distinct

variable (distinct : ((ofModel m o).companions.map Companion.qualifiedName).Nodup)

include distinct

theorem nodup_qualifiedName :
    ((descriptors m o).map fun x => (Companion.ofDescriptor x).qualifiedName).Nodup := by
  rwa [companions_ofModel, List.map_map] at distinct

/-- Companions that are told apart by their names are those of one class each. -/
theorem oneClassEach_of_nodup : OneClassEach m o := by
  rintro d hd d' hd' named ⟨x, hx, found⟩
  have names := nodup_qualifiedName distinct
  unfold descriptors at names hx
  split at names
  · next hidden =>
    rw [if_pos hidden] at hx
    exact absurd hx List.not_mem_nil
  · exact eq_of_filterMap names hd hd' found (named ▸ found)

/-- The classes of companions that are told apart by their names are told apart, too. -/
theorem nodup_typeName : ((descriptors m o).map (·.typeName)).Nodup := by
  have names := nodup_qualifiedName distinct
  rw [List.Nodup, List.pairwise_map] at names ⊢
  refine names.imp_of_mem fun {x y} hx hy other same => other ?_
  have found := descriptorOf?_of_mem hx
  rw [same, descriptorOf?_of_mem hy] at found
  cases found
  rfl

/-- The descriptors of a compilation are linked if no adapter stands in their codecs. -/
theorem linked_descriptors
    (plain : ∀ d ∈ descriptors m o, ∀ p ∈ d.properties, p.codec.adapterFree = true) :
    Format.Linked (descriptors m o) := by
  refine ⟨nodup_typeName distinct, nodup_qualifiedName distinct, ?_, ?_,
    fun d hd p hp => hasShared_of_mem hd hp⟩
  · intro d hd
    obtain ⟨_, _, -, describes⟩ := describes_of_mem hd
    exact describes.first
  · intro d hd p hp
    exact Codec.links_of_part (plain d hd p hp) fun ty companion part =>
      exists_linked (oneClassEach_of_nodup distinct) hd ⟨p, hp, .refl _⟩ part

end Distinct

/-! ## §3. Nodes and edges. -/

/-- Two classes that refer to each other, one of them through a list. -/
def family : Model := ⟨[
  plainClass "Node" [("label", "String"), ("edges", "java.util.List<Edge>")],
  plainClass "Edge" [("target", "Node")]], []⟩

/-- The property of a public field that may be null. -/
def plainProperty (name : String) (codec : Codec) : Property := ⟨name, true, .field, .field, codec⟩

def edgeType : JavaType := .named "app.Edge"

def node : Descriptor where
  package := "app"
  className := "Node"
  companionName := "NodeCodec"
  type := .named "app.Node"
  properties := [
    plainProperty "label" (.leaf (.named "java.lang.String") .string),
    plainProperty "edges" (.sequence (.declared "java.util.List" [edgeType]) .list
      ⟨true, .declared "java.util.ArrayList" [edgeType], true, true⟩
      (.leaf edgeType (.nested "app.EdgeCodec")))]
  singleton := false

def edge : Descriptor where
  package := "app"
  className := "Edge"
  companionName := "EdgeCodec"
  type := edgeType
  properties := [plainProperty "target" (.leaf (.named "app.Node") (.nested "app.NodeCodec"))]
  singleton := false

theorem descriptors_family : descriptors family .default = [node, edge] := by decide +kernel

theorem distinct_family :
    ((ofModel family .default).companions.map Companion.qualifiedName).Nodup := by
  rw [companions_ofModel, descriptors_family]
  decide

theorem adapterFree_family :
    ∀ d ∈ descriptors family .default, ∀ p ∈ d.properties, p.codec.adapterFree = true := by
  rw [descriptors_family]
  decide

/-- A node with null in every property. -/
def emptyNode : Value := .object "app.Node" [("edges", .null), ("label", .null)]

theorem mem_nodeNames (n : String) : n ∈ ["edges", "label"] ↔ n ∈ ["label", "edges"] := by
  simp [or_comm]

theorem conforms_emptyNode : Format.Conforms (descriptors family .default) node emptyNode := by
  refine .object rfl (by decide) mem_nodeNames (List.forall_mem_cons.mpr ⟨?_, ?_⟩)
  · exact .absent rfl
  · exact List.forall_mem_cons.mpr ⟨.absent rfl, nofun⟩

/-- A node with an edge to another node, and with null instead of a second edge. -/
def twoNodes : Value :=
  .object "app.Node" [
    ("edges", .list [
      .object "app.Edge" [("target", .object "app.Node" [("edges", .null), ("label", .null)])],
      .null]),
    ("label", .string "a")]

theorem conforms_twoNodes : Format.Conforms (descriptors family .default) node twoNodes := by
  have last := conforms_emptyNode
  rw [descriptors_family] at last ⊢
  have link : Format.Fits [node, edge] (.instanceOf edge)
      (.object "app.Edge" [("target", emptyNode)]) :=
    .object rfl (by decide) (fun _ => .rfl) (List.forall_mem_cons.mpr
      ⟨.present (fun _ => rfl) (.nested (d := node) rfl (by simp) last), nofun⟩)
  refine .object rfl (by decide) mem_nodeNames (List.forall_mem_cons.mpr
    ⟨?_, List.forall_mem_cons.mpr ⟨?_, nofun⟩⟩)
  · exact .present (fun _ => rfl) (.op rfl (.string (by decide)))
  · refine .present (fun _ => rfl) (@Format.Fits.sequence _ _ .list _ _ _ (by decide) ?_)
    exact List.forall_mem_cons.mpr
      ⟨.present (fun _ => rfl) (.nested (d := edge) rfl (by simp) link),
        List.forall_mem_cons.mpr ⟨.absent rfl, nofun⟩⟩

/-! ## §4. What compiled companions do. -/

/-- A machine with the companions of a compilation and some adapters. -/
def machine (m : Model) (o : Options) (adapters : List (String × AdapterBehaviour)) : Machine :=
  ⟨(ofModel m o).companions, adapters⟩

theorem companions_machine (adapters : List (String × AdapterBehaviour)) :
    (machine m o adapters).companions = (descriptors m o).map Companion.ofDescriptor :=
  companions_ofModel m o

/-- What the format decodes is read. -/
theorem readFrom_of_decode (adapters : List (String × AdapterBehaviour))
    (distinct : ((ofModel m o).companions.map Companion.qualifiedName).Nodup)
    (plain : ∀ d ∈ descriptors m o, ∀ p ∈ d.properties, p.codec.adapterFree = true)
    {name : String} {c c' : Cursor} {v : Value}
    (h : Format.decode (descriptors m o) name c = (.ok v, c')) :
    (machine m o adapters).readFrom name c = (.ok v, c') :=
  (Machine.readFrom_eq_ok_iff (companions_ofModel m o) (linked_descriptors distinct plain)).mpr h

/-- An instance whose every null can be written is written, and read back as the same instance,
whatever stands behind it. -/
theorem exists_write_of_shaped (adapters : List (String × AdapterBehaviour))
    (distinct : ((ofModel m o).companions.map Companion.qualifiedName).Nodup)
    (plain : ∀ d ∈ descriptors m o, ∀ p ∈ d.properties, p.codec.adapterFree = true)
    {d : Descriptor} (hd : d ∈ descriptors m o) {v : Value}
    (shape : Format.Shaped (descriptors m o) Layout.writesNull (.instanceOf d) v) :
    ∃ bytes, (machine m o adapters).write v = .ok bytes
      ∧ ∀ rest, (machine m o adapters).readFrom d.typeName (.ofBytes (bytes ++ rest))
        = (.ok v, ⟨bytes.length, rest⟩) := by
  have linked := linked_descriptors distinct plain
  obtain ⟨bytes, encoded, takes⟩ := Format.encode_of_shaped linked.classes hd shape
  refine ⟨bytes, Machine.write_of_encode (companions_machine adapters) linked encoded,
    fun rest => ?_⟩
  refine readFrom_of_decode adapters distinct plain ?_
  have decoded : Format.decodeWithin (descriptors m o) v.weight d.typeName
      (.ofBytes (bytes ++ rest)) = (.ok v, ⟨0 + bytes.length, rest⟩) :=
    takes v.weight (Nat.le_refl _) 0 rest
  rw [Nat.zero_add] at decoded
  rw [Format.decode_eq_of_decodeWithin (by rw [decoded]; nofun), decoded]

/-- What is written of a conforming instance is read back as the same instance, whatever stands
behind it, and nothing of that is touched. -/
theorem readFrom_write (m : Model) (o : Options) (adapters : List (String × AdapterBehaviour))
    (distinct : ((ofModel m o).companions.map Companion.qualifiedName).Nodup)
    (plain : ∀ d ∈ descriptors m o, ∀ p ∈ d.properties, p.codec.adapterFree = true)
    {d : Descriptor} (hd : d ∈ descriptors m o) {v : Value}
    (conforms : Format.Conforms (descriptors m o) d v) (rest : List UInt8) :
    ∃ bytes, (machine m o adapters).write v = .ok bytes
      ∧ (machine m o adapters).readFrom d.typeName (.ofBytes (bytes ++ rest))
        = (.ok v, ⟨bytes.length, rest⟩) := by
  obtain ⟨bytes, written, read⟩ :=
    exists_write_of_shaped adapters distinct plain hd conforms.shaped
  exact ⟨bytes, written, read rest⟩

/-- A node with an edge comes back, and the byte behind it is left. -/
theorem readFrom_write_family : ∃ bytes,
    (machine family .default []).write twoNodes = .ok bytes
      ∧ (machine family .default []).readFrom "app.Node" (.ofBytes (bytes ++ [7]))
        = (.ok twoNodes, ⟨bytes.length, [7]⟩) := by
  have there : node ∈ descriptors family .default := by simp [descriptors_family]
  exact readFrom_write family .default [] distinct_family adapterFree_family there
    conforms_twoNodes [7]

/-- A machine with the companions of a compilation refines the format: it writes a conforming
instance with the bytes that the format has for it; and from any bytes it reads an instance exactly
if the format decodes one, the same one from the same bytes, and fails where the format finds a
fault. -/
theorem machine_refines_format (m : Model) (o : Options)
    (adapters : List (String × AdapterBehaviour))
    (distinct : ((ofModel m o).companions.map Companion.qualifiedName).Nodup)
    (plain : ∀ d ∈ descriptors m o, ∀ p ∈ d.properties, p.codec.adapterFree = true)
    {d : Descriptor} (hd : d ∈ descriptors m o) :
    (∀ v, Format.Conforms (descriptors m o) d v → ∃ bytes,
      Format.encode (descriptors m o) v = some bytes
        ∧ (machine m o adapters).write v = .ok bytes)
    ∧ ∀ c : Cursor,
      (∀ v c', (machine m o adapters).readFrom d.typeName c = (.ok v, c')
        ↔ Format.decode (descriptors m o) d.typeName c = (.ok v, c'))
      ∧ ∀ e, (Format.decode (descriptors m o) d.typeName c).1 = .error e → e ≠ .outOfDepth →
        ∃ e', ((machine m o adapters).readFrom d.typeName c).1 = .error e' ∧ e' ≠ .outOfDepth := by
  have linked := linked_descriptors distinct plain
  have program : (machine m o adapters).companions
      = (descriptors m o).map Companion.ofDescriptor := companions_ofModel m o
  refine ⟨fun v conforms => ?_, fun c => ⟨fun v c' => ?_, fun e failed fault => ?_⟩⟩
  · obtain ⟨bytes, encoded, -⟩ := Format.encode_of_conforms linked.classes hd conforms
    exact ⟨bytes, encoded, Machine.write_of_encode program linked encoded⟩
  · exact Machine.readFrom_eq_ok_iff program linked
  · exact Machine.readFrom_fails program linked failed fault

/-- A node with an edge gets the bytes of the format, and no bytes at all are refused. -/
theorem machine_refines_format_family :
    (∃ bytes, Format.encode (descriptors family .default) twoNodes = some bytes
      ∧ (machine family .default []).write twoNodes = .ok bytes)
    ∧ ∃ e, ((machine family .default []).readFrom "app.Node" (.ofBytes [])).1 = .error e
      ∧ e ≠ .outOfDepth := by
  have there : node ∈ descriptors family .default := by simp [descriptors_family]
  obtain ⟨written, read⟩ :=
    machine_refines_format family .default [] distinct_family adapterFree_family there
  refine ⟨written twoNodes conforms_twoNodes, ?_⟩
  have refused : (Format.decode (descriptors family .default) "app.Node" (.ofBytes [])).1
      = .error (.decode (.unreadable .int 0)) := by
    rw [descriptors_family]
    rfl
  exact (read (.ofBytes [])).2 _ refused nofun

end Compilation

end ParcelCodec
