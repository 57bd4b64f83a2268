import ParcelCodec.Proofs.Compilation.AdapterFree
import ParcelCodec.Proofs.Machine.Ending

/-!
# Which compiled classes are read to the end

Nothing stops a compilation whose classes hold each other in a circle without a marker in between,
and reading an instance of such a class never ends, whatever the bytes are.  Without such a circle
every class is read to the end from any bytes, however the classes refer to each other otherwise.

Main statement: `finishes_unless_circular`.
-/

namespace ParcelCodec.Compilation

open DataClass (Descriptor Property)
open Format (Refers Circular)

variable {m : Model} {o : Options}

/-! ## §1. Compiled classes. -/

/-- The companions of a compilation read property by property, if no adapter stands in their
codecs. -/
theorem readable_descriptors
    (plain : ∀ d ∈ descriptors m o, ∀ p ∈ d.properties, p.codec.adapterFree = true) :
    Format.Readable (descriptors m o) := by
  refine ⟨fun d hd => ?_, fun d hd p hp => hasShared_of_mem hd hp, fun d hd p hp => ?_⟩
  · obtain ⟨_, _, -, describes⟩ := describes_of_mem hd
    exact describes.first
  · exact Codec.links_of_part (plain d hd p hp) fun _ _ _ => trivial

/-- Compiled classes of one name are one class, so a machine reads each through its own
companion. -/
theorem companion?_of_mem (adapters : List (String × AdapterBehaviour)) {d : Descriptor}
    (hd : d ∈ descriptors m o) :
    (machine m o adapters).companion? d.typeName = some (Companion.ofDescriptor d) := by
  unfold Machine.companion?
  rw [companions_machine]
  rcases found : ((descriptors m o).map Companion.ofDescriptor).reverse.find?
      (·.className == d.typeName) with _ | c
  · have none := List.find?_eq_none.mp found (Companion.ofDescriptor d)
      (List.mem_reverse.mpr (List.mem_map_of_mem hd))
    exact absurd (beq_self_eq_true d.typeName) none
  · obtain ⟨hc, named⟩ := Keyed.of_find? found
    obtain ⟨e, he, rfl⟩ := List.mem_map.mp (List.mem_reverse.mp hc)
    -- Of several companions of one name the machine takes the last, but all have one descriptor.
    have own := descriptorOf?_of_mem he
    rw [show e.typeName = d.typeName from named, descriptorOf?_of_mem hd] at own
    obtain rfl := Option.some.inj own
    exact found

/-! ## §2. Reads that end. -/

/-- From any bytes, reading a compiled class comes to an end if the class refers to no circular
class, however indirectly: to none that starts, before it has taken a byte, an instance which leads
back to the same class.  Reading a circular class comes to no end from any bytes. -/
theorem finishes_unless_circular (m : Model) (o : Options)
    (adapters : List (String × AdapterBehaviour))
    (plain : ∀ d ∈ descriptors m o, ∀ p ∈ d.properties, p.codec.adapterFree = true)
    {d : Descriptor} (hd : d ∈ descriptors m o) :
    ((∀ e, Relation.ReflTransGen (Refers (descriptors m o)) d e →
        ¬ Circular (descriptors m o) e) →
      ∀ bytes, (machine m o adapters).Finishes d.typeName bytes
        ∧ (machine m o adapters).read d.typeName bytes ≠ .error .outOfDepth)
    ∧ (Circular (descriptors m o) d →
      ∀ bytes, ¬ (machine m o adapters).Finishes d.typeName bytes) := by
  have program : (machine m o adapters).companions
      = (descriptors m o).map Companion.ofDescriptor := companions_machine adapters
  have readable := readable_descriptors plain
  have own := companion?_of_mem adapters hd
  refine ⟨fun straight bytes => ?_, fun circular bytes => ?_⟩
  · have finishes := Machine.finishes_of_straight program readable hd own straight bytes
    have free := readsAdapterFree_machine adapters plain
    exact ⟨finishes, (Machine.finishes_iff free).mp finishes⟩
  · exact Machine.not_finishes_of_circular program readable hd own circular bytes

/-- A public field that is never null. -/
def bareField (name type : String) : FieldDecl := { plainField name type with nullable := false }

/-- A tree starts with a root, which takes no bytes, and with a crown behind it; a crown holds
trees, the first of them behind a marker. -/
def orchard : Model := ⟨[
  { plainClass "Tree" [] with fields := [bareField "root" "Root", bareField "crown" "Crown"] },
  plainClass "Root" [],
  { plainClass "Crown" [] with
    fields := [plainField "left" "Tree", bareField "right" "Tree"] }], []⟩

/-- A property that is never null, of a class in the package `app`. -/
def bareProperty (name className : String) : Property :=
  ⟨name, false, .field, .field,
    .leaf (.named ("app." ++ className)) (.nested ("app." ++ className ++ "Codec"))⟩

/-- The descriptor of a class in the package `app`. -/
def plainDescriptor (name : String) (properties : List Property) : Descriptor where
  package := "app"
  className := name
  companionName := name ++ "Codec"
  type := .named ("app." ++ name)
  properties := properties
  singleton := false

def tree : Descriptor :=
  plainDescriptor "Tree" [bareProperty "root" "Root", bareProperty "crown" "Crown"]

def root : Descriptor := plainDescriptor "Root" []

def crown : Descriptor :=
  plainDescriptor "Crown" [{ bareProperty "left" "Tree" with nullable := true },
    bareProperty "right" "Tree"]

theorem descriptors_orchard : descriptors orchard .default = [tree, root, crown] := by
  decide +kernel

/-- A tree starts a root and a crown, and these start nothing. -/
theorem straight_orchard :
    ∀ d ∈ descriptors orchard .default, ¬ Circular (descriptors orchard .default) d := by
  rw [descriptors_orchard]
  have atRoot : Format.opened? [tree, root, crown] (bareProperty "root" "Root") = some root := by
    decide
  have atCrown : Format.opened? [tree, root, crown] (bareProperty "crown" "Crown")
      = some crown := by decide
  have atLeft : Format.opened? [tree, root, crown]
      { bareProperty "left" "Tree" with nullable := true } = none := by decide
  refine Format.straight_of_rank (fun d => if d = tree then 1 else 0) fun d hd e ⟨_, leads⟩ => ?_
  rcases List.mem_cons.mp hd with rfl | hd
  · -- A root is hollow, so the crown is started as well.
    cases leads with
    | first h =>
      obtain rfl := Option.some.inj (atRoot.symm.trans h)
      decide
    | behind _ _ later =>
      cases later with
      | first h =>
        obtain rfl := Option.some.inj (atCrown.symm.trans h)
        decide
      | behind _ _ later => cases later
  · rcases List.mem_cons.mp hd with rfl | hd
    · cases leads
    · obtain rfl := List.mem_singleton.mp hd
      cases leads with
      | first h => cases atLeft.symm.trans h
      | behind h => cases atLeft.symm.trans h

/-- Trees are read to the end from any bytes. -/
theorem finishes_unless_circular_orchard :
    tree ∈ descriptors orchard .default
    ∧ (∀ e, Relation.ReflTransGen (Refers (descriptors orchard .default)) tree e →
      ¬ Circular (descriptors orchard .default) e)
    ∧ ∀ bytes, (machine orchard .default []).read "app.Tree" bytes ≠ .error .outOfDepth := by
  have plain : ∀ d ∈ descriptors orchard .default, ∀ p ∈ d.properties,
      p.codec.adapterFree = true := by
    rw [descriptors_orchard]
    decide
  have there : tree ∈ descriptors orchard .default := by simp [descriptors_orchard]
  have straight : ∀ e, Relation.ReflTransGen (Refers (descriptors orchard .default)) tree e →
      ¬ Circular (descriptors orchard .default) e := fun e reached =>
    straight_orchard e (Format.mem_of_reached there reached)
  have ends := (finishes_unless_circular orchard .default [] plain there).1 straight
  exact ⟨there, straight, fun bytes => (ends bytes).2⟩

/-! ## §3. A class that is not read to the end. -/

/-- A class that holds an instance of itself which is never null. -/
def coil : Model := ⟨[{ plainClass "Node" [] with fields := [bareField "next" "Node"] }], []⟩

def coilNode : Descriptor := plainDescriptor "Node" [bareProperty "next" "Node"]

theorem descriptors_coil : descriptors coil .default = [coilNode] := by decide +kernel

/-- A class that holds an instance of itself which is never null is compiled without a finding, and
reading it comes to no end from any bytes: no number of calls is enough. -/
theorem coil_never_finishes :
    (ofModel coil .default).diagnostics = [] ∧ coil.adapters = []
    ∧ "app.Node" ∈ (ofModel coil .default).companions.map Companion.className
    ∧ ∀ bytes, ¬ (machine coil .default []).Finishes "app.Node" bytes := by
  have there : coilNode ∈ descriptors coil .default := by simp [descriptors_coil]
  have plain : ∀ d ∈ descriptors coil .default, ∀ p ∈ d.properties,
      p.codec.adapterFree = true := by
    rw [descriptors_coil]
    decide
  have again : Format.opened? [coilNode] (bareProperty "next" "Node") = some coilNode := by decide
  have circular : Circular (descriptors coil .default) coilNode := by
    rw [descriptors_coil]
    exact .single ⟨rfl, .first again⟩
  refine ⟨by decide +kernel, rfl, ?_, fun bytes => ?_⟩
  · rw [companions_ofModel, descriptors_coil]
    decide
  · exact Machine.not_finishes_of_circular (companions_machine []) (readable_descriptors plain)
      there (companion?_of_mem [] there) circular bytes

end ParcelCodec.Compilation
