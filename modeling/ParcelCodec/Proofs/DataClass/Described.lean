import ParcelCodec.Proofs.Alongside
import ParcelCodec.Proofs.Codec.Makes
import ParcelCodec.Proofs.Companion.OfDescriptor
import ParcelCodec.Proofs.Format.Shape

/-!
# What a descriptor says about its class

A class that is described has a descriptor of its own name, whose properties come in the order in
which they are set and are encoded by what the codebook makes of their types.

Main statement: `describes_of_describe`.
-/

namespace ParcelCodec.DataClass

open Codebook (Makes)

/-- A descriptor is one of a class. -/
structure Describes (b : Codebook) (d : TypeDecl) (x : Descriptor) : Prop where
  package : x.package = d.package
  type : x.type = .named d.qualifiedName
  companionName : x.companionName = b.catalog.companionSimpleName d
  first : Companion.ConstructorFirst x.properties
  made : ∀ p ∈ x.properties, Makes b p.codec.type p.codec
  uniform : Uniform x.properties

variable {b : Codebook} {d : TypeDecl} {x : Descriptor}

/-- A descriptor is named like its class. -/
theorem Describes.typeName (h : Describes b d x) : x.typeName = d.qualifiedName := by
  unfold Descriptor.typeName
  rw [h.type]
  rfl

/-- The companion is named like the catalog says. -/
theorem Describes.qualifiedName (h : Describes b d x) :
    (Companion.ofDescriptor x).qualifiedName = b.catalog.companionName d := by
  unfold Companion.qualifiedName Catalog.companionName
  rw [← h.package, ← h.companionName]
  rfl

/-! ## Fields. -/

/-- The fields of a class that the options do not leave out. -/
def included (o : Options) (d : TypeDecl) : List FieldDecl :=
  d.fields.filter fun f => !o.excludes f.modifiers f.annotations

/-- What access to the fields of a class is decided from. -/
def membersOf (b : Codebook) (o : Options) (d : TypeDecl) : Members :=
  ⟨.ofDecl b.catalog d, d.methods, o⟩

/-- The fields of a class that are there with types: the first one of each name that the options
do not leave out, if its type makes sense. -/
def fieldsOf (b : Codebook) (o : Options) (d : TypeDecl) : List TypedField :=
  (typedFields (.ofDecl b.catalog d) d [] (included o d)).1

/-- The first field of a name keeps the others of that name out. -/
theorem nodup_typedFields {r : Resolver} : ∀ (fs : List FieldDecl) (seen : List String),
    ((typedFields r d seen fs).1.map (·.field.name)).Nodup
      ∧ ∀ f ∈ (typedFields r d seen fs).1, f.field.name ∉ seen
  | [], _ => ⟨List.nodup_nil, nofun⟩
  | f :: rest, seen => by
    unfold typedFields
    by_cases again : seen.contains f.name = true
    · rw [if_pos again]
      exact nodup_typedFields rest seen
    · rw [if_neg again]
      have first : f.name ∉ seen := fun h => again (List.contains_iff_mem.mpr h)
      obtain ⟨distinct, others⟩ := nodup_typedFields (r := r) rest (f.name :: seen)
      have unseen : ∀ g ∈ (typedFields r d (f.name :: seen) rest).1, g.field.name ∉ seen :=
        fun g hg hs => others g hg (List.mem_cons_of_mem _ hs)
      dsimp only
      cases r.resolveText f.type with
      | ok ty =>
        refine ⟨List.nodup_cons.mpr ⟨fun again => ?_, distinct⟩, List.forall_mem_cons.mpr
          ⟨first, unseen⟩⟩
        obtain ⟨g, hg, same⟩ := List.mem_map.mp again
        exact others g hg (same ▸ List.mem_cons_self)
      | error u => exact ⟨distinct, unseen⟩

/-- Every parameter of a usable constructor sets one of the fields. -/
theorem mem_of_chosen? {m : Members} {fields matched : List TypedField}
    {cs : List ConstructorDecl} (h : chosen? m fields cs = some matched) :
    ∀ f ∈ matched, f ∈ fields := by
  unfold chosen? at h
  obtain ⟨c, -, h⟩ := List.exists_of_findSome?_eq_some h
  split at h
  · cases h
  · next found sets =>
    split at h
    · cases h
      intro f hf
      obtain ⟨p, -, hp⟩ := Alongside.exists_left (Alongside.of_mapM sets) f hf
      unfold fieldFor? at hp
      split at hp
      · cases hp
      · exact List.mem_of_find?_eq_some hp
    · cases h

/-! ## Properties. -/

/-- A property is made from its field. -/
theorem property_ok {m : Members} {write : WriteAccess} {f : TypedField} {p : Property}
    (h : property b m d write f = .ok p) :
    p.name = f.field.name ∧ p.nullable = (f.field.nullable && !f.type.isPrimitive)
      ∧ p.write = write ∧ Shelf.buildAlone b f.type = .ok p.codec := by
  unfold property at h
  split at h
  · cases h
  · split at h
    · cases h
    · next codec built =>
      cases h
      exact ⟨rfl, rfl, rfl, built⟩

theorem property_makes {m : Members} {write : WriteAccess} {f : TypedField} {p : Property}
    (h : property b m d write f = .ok p) : p.write = write ∧ Makes b p.codec.type p.codec := by
  obtain ⟨-, -, same, built⟩ := property_ok h
  have made := Shelf.makes_of_buildAlone built
  exact ⟨same, made.type_eq.symm ▸ made⟩

/-- Where nothing is reported, every result is there. -/
theorem eq_map_ok_of_gather : ∀ {rs : List (Except Diagnostic Property)},
    (gather rs).2 = [] → rs = (gather rs).1.map .ok
  | [], _ => rfl
  | .ok p :: rest, h => by
    have others : rest = (gather rest).1.map .ok := eq_map_ok_of_gather h
    exact congrArg (.ok p :: ·) others
  | .error e :: rest, h => by cases h

/-- A field that is set on an instance is not set by the constructor. -/
theorem write?_ne_constructor (m : Members) (f : FieldDecl) (ty : JavaType) :
    m.write? f ty ≠ some .constructor := by
  intro h
  unfold Members.write? at h
  split at h
  · split at h
    · cases h
    · split at h <;> cases h
  · cases h

/-- The fields of a class in the order of its properties, each with how it is set. -/
def settings (m : Members) (fields matched : List TypedField) : List (WriteAccess × TypedField) :=
  matched.map (.constructor, ·)
    ++ (others fields matched).filterMap fun f => (m.write? f.field f.type).map (·, f)

/-- Whatever is set is one of the fields. -/
theorem mem_of_setting {m : Members} {fields matched : List TypedField}
    (within : ∀ f ∈ matched, f ∈ fields) {s : WriteAccess × TypedField}
    (hs : s ∈ settings m fields matched) : s.2 ∈ fields := by
  rcases List.mem_append.mp hs with hs | hs
  · obtain ⟨f, hf, rfl⟩ := List.mem_map.mp hs
    exact within f hf
  · obtain ⟨f, hf, set⟩ := List.mem_filterMap.mp hs
    obtain ⟨_, -, rfl⟩ := Option.map_eq_some_iff.mp set
    exact List.mem_of_mem_filter hf

theorem properties_eq_map (m : Members) (fields matched : List TypedField) :
    properties b m d fields matched
      = (settings m fields matched).map fun s => property b m d s.1 s.2 := by
  unfold properties settings
  simp only [List.map_append, List.map_map, List.map_filterMap, Option.map_map]
  rfl

/-- The properties that the constructor takes come first, and every codec is made by the
codebook. -/
theorem properties_ok {m : Members} {fields matched : List TypedField} {ps : List Property}
    (h : properties b m d fields matched = ps.map .ok) :
    Companion.ConstructorFirst ps ∧ ∀ p ∈ ps, Makes b p.codec.type p.codec := by
  unfold properties at h
  obtain ⟨front, back, rfl, hf, hb⟩ := List.map_eq_append_iff.mp h.symm
  have taken : ∀ p ∈ front, p.write = .constructor ∧ Makes b p.codec.type p.codec := by
    intro p hp
    have result : .ok p ∈ matched.map (property b m d .constructor) :=
      hf ▸ List.mem_map_of_mem hp
    obtain ⟨f, -, built⟩ := List.mem_map.mp result
    exact property_makes built
  have set : ∀ p ∈ back, p.write ≠ .constructor ∧ Makes b p.codec.type p.codec := by
    intro p hp
    have result : .ok p ∈ (others fields matched).filterMap fun f =>
        (m.write? f.field f.type).map fun write => property b m d write f :=
      hb ▸ List.mem_map_of_mem hp
    obtain ⟨f, -, result⟩ := List.mem_filterMap.mp result
    obtain ⟨write, hw, built⟩ := Option.map_eq_some_iff.mp result
    obtain ⟨same, made⟩ := property_makes built
    refine ⟨fun constructor => ?_, made⟩
    rw [same] at constructor
    exact write?_ne_constructor m f.field f.type (constructor ▸ hw)
  refine ⟨⟨front, back, rfl, fun p hp => (taken p hp).1, fun p hp => (set p hp).1⟩, ?_⟩
  intro p hp
  rcases List.mem_append.mp hp with hp | hp
  · exact (taken p hp).2
  · exact (set p hp).2

/-- The field of a property. -/
theorem exists_field {m : Members} {fields matched : List TypedField} {ps : List Property}
    (within : ∀ f ∈ matched, f ∈ fields) (h : properties b m d fields matched = ps.map .ok)
    {p : Property} (hp : p ∈ ps) : ∃ write, ∃ f ∈ fields, property b m d write f = .ok p := by
  rw [properties_eq_map] at h
  have result : .ok p ∈ ps.map (Except.ok (ε := Diagnostic)) := List.mem_map_of_mem hp
  rw [← h] at result
  obtain ⟨⟨write, f⟩, hs, built⟩ := List.mem_map.mp result
  exact ⟨write, f, mem_of_setting within hs, built⟩

/-- Properties of one name come from one field. -/
theorem uniform_properties {m : Members} {fields matched : List TypedField} {ps : List Property}
    (distinct : (fields.map (·.field.name)).Nodup) (within : ∀ f ∈ matched, f ∈ fields)
    (h : properties b m d fields matched = ps.map .ok) : Uniform ps := by
  intro p hp q hq same
  obtain ⟨_, f, hf, builtP⟩ := exists_field within h hp
  obtain ⟨_, g, hg, builtQ⟩ := exists_field within h hq
  obtain ⟨nameP, nullableP, -, madeP⟩ := property_ok builtP
  obtain ⟨nameQ, nullableQ, -, madeQ⟩ := property_ok builtQ
  have one : f = g := List.inj_on_of_nodup_map distinct hf hg (nameP ▸ nameQ ▸ same)
  subst one
  rw [madeP] at madeQ
  exact ⟨Except.ok.inj madeQ, nullableP.trans nullableQ.symm⟩

/-- A class that is described has a descriptor of its own. -/
theorem describes_of_describe {o : Options} (h : describe b o d = .ok x) : Describes b d x := by
  unfold describe at h
  dsimp only at h
  split at h
  · split at h
    · cases h
      exact ⟨rfl, rfl, rfl, ⟨[], [], rfl, nofun, nofun⟩, nofun, nofun⟩
    · cases h
  · split at h
    · cases h
    · next matched found =>
      split at h
      · next none =>
        cases h
        have complete :=
          eq_map_ok_of_gather (List.append_eq_nil_iff.mp (List.isEmpty_iff.mp none)).2
        obtain ⟨first, made⟩ := properties_ok complete
        have uniform :=
          uniform_properties (nodup_typedFields _ []).1 (mem_of_chosen? found) complete
        exact ⟨rfl, rfl, rfl, first, made, uniform⟩
      · cases h

/-- Only a class without properties has a single instance. -/
theorem singleton_of_describe {o : Options} {p : Property} (h : describe b o d = .ok x)
    (hp : p ∈ x.properties) : x.singleton = false := by
  unfold describe at h
  dsimp only at h
  split at h
  · split at h
    · cases h
      exact absurd hp List.not_mem_nil
    · cases h
  · split at h
    · cases h
    · split at h
      · cases h
        rfl
      · cases h

end ParcelCodec.DataClass
