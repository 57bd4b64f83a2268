import ParcelCodec.DataClass.Eligibility
import ParcelCodec.Proofs.DataClass.Described

/-!
# What is found about a class

Whatever keeps a class from having a companion is reported at the class, at one of its fields or at
a parameter of one of its constructors.  And something is reported: a class whose constructors are
all unusable has one with the most parameters, and either a parameter of that one sets no field or
some field is left over that nothing sets.

Main statements: `concerns_of_objections` and `explains_of_describe`.
-/

namespace ParcelCodec.DataClass

variable {b : Codebook} {o : Options} {d : TypeDecl} {m : Members}

/-! ## §1. Elements of a class. -/

/-- An element of reports is a class, one of its fields or a parameter of one of its
constructors. -/
inductive Concerns (d : TypeDecl) : String → Prop
  | itself : Concerns d d.qualifiedName
  | field {f : FieldDecl} (mem : f ∈ d.fields) : Concerns d (fieldElement d f.name)
  | parameter {c : ConstructorDecl} (mem : c ∈ d.constructors) {p : ParamDecl}
    (param : p ∈ c.params) : Concerns d (parameterElement d p.name)

/-- What is found about a class explains something, and stays with the class. -/
structure Explains (d : TypeDecl) (ds : List Diagnostic) : Prop where
  ne_nil : ds ≠ []
  concerns : ∀ x ∈ ds, Concerns d x.element

/-- Whatever speaks against a class is reported at the class. -/
theorem concerns_of_objections {c : Catalog} {x : Diagnostic} (hx : x ∈ objections c d) :
    Concerns d x.element := by
  unfold objections at hx
  obtain ⟨u, -, rfl⟩ := List.mem_map.mp hx
  exact .itself

/-! ## §2. Fields. -/

/-- A field with a type is a field, and a field without one is reported. -/
theorem concerns_typedFields (r : Resolver) : ∀ (seen : List String) {fs : List FieldDecl},
    (∀ f ∈ fs, f ∈ d.fields) →
      (∀ f ∈ (typedFields r d seen fs).1, f.field ∈ d.fields)
        ∧ ∀ x ∈ (typedFields r d seen fs).2, Concerns d x.element
  | _, [], _ => ⟨nofun, nofun⟩
  | seen, f :: rest, within => by
    obtain ⟨first, within⟩ := List.forall_mem_cons.mp within
    unfold typedFields
    split
    · obtain ⟨fields, findings⟩ := concerns_typedFields r seen within
      exact ⟨fields, List.forall_mem_cons.mpr ⟨.field first, findings⟩⟩
    · obtain ⟨fields, findings⟩ := concerns_typedFields r (f.name :: seen) within
      dsimp only
      split
      · exact ⟨List.forall_mem_cons.mpr ⟨first, fields⟩, findings⟩
      · exact ⟨fields, List.forall_mem_cons.mpr ⟨.field first, findings⟩⟩

/-! ## §3. Constructors. -/

/-- A visible constructor is declared, or takes nothing. -/
theorem mem_of_visible {c : ConstructorDecl} (hc : c ∈ visibleConstructors d) :
    c ∈ d.constructors ∨ c.params = [] := by
  unfold visibleConstructors at hc
  split at hc
  · rw [List.mem_singleton.mp hc]
    exact .inr rfl
  · exact .inl (List.mem_of_mem_filter hc)

theorem concerns_constructorFindings {fields : List TypedField} {largest : ConstructorDecl}
    (within : ∀ f ∈ fields, f.field ∈ d.fields) (hc : largest ∈ visibleConstructors d) :
    ∀ x ∈ constructorFindings m d fields largest, Concerns d x.element := by
  intro x hx
  unfold constructorFindings at hx
  dsimp only at hx
  split at hx
  · obtain ⟨f, hf, rfl⟩ := List.mem_map.mp hx
    exact .field (within f (List.mem_of_mem_filter hf))
  · obtain ⟨p, hp, rfl⟩ := List.mem_map.mp hx
    have param := List.mem_of_mem_filter hp
    rcases mem_of_visible hc with declared | none
    · exact .parameter declared param
    · rw [none] at param
      cases param

/-- A parameter sets a field of its name. -/
theorem name_of_fieldFor? {r : Resolver} {fields : List TypedField} {p : ParamDecl}
    {f : TypedField} (h : fieldFor? r fields p = some f) : f.field.name = p.name := by
  unfold fieldFor? at h
  split at h
  · cases h
  · have found := List.find?_some h
    rw [Bool.and_eq_true] at found
    exact eq_of_beq found.1

/-- A parameter that sets no field is found. -/
theorem constructorFindings_ne_nil_of_unmatched {fields : List TypedField}
    {largest : ConstructorDecl} (missing : fieldsFor? m.resolver fields largest = none) :
    constructorFindings m d fields largest ≠ [] := by
  obtain ⟨p, hp, none⟩ := Alongside.exists_none_of_mapM missing
  have unmatched : p ∈ largest.params.filter fun p => (fieldFor? m.resolver fields p).isNone :=
    List.mem_filter.mpr ⟨hp, by rw [none]; rfl⟩
  unfold constructorFindings
  dsimp only
  rw [if_neg (by rw [List.isEmpty_iff]; exact List.ne_nil_of_mem unmatched)]
  exact List.ne_nil_of_mem (List.mem_map_of_mem unmatched)

/-- Where every parameter sets a field, a field that is left over and cannot be written is found. -/
theorem constructorFindings_ne_nil_of_unwritable {fields matched : List TypedField}
    {largest : ConstructorDecl} (sets : fieldsFor? m.resolver fields largest = some matched)
    {f : TypedField} (left : f ∈ others fields matched)
    (unwritable : (m.write? f.field f.type).isNone = true) :
    constructorFindings m d fields largest ≠ [] := by
  obtain ⟨member, apart⟩ := List.mem_filter.mp left
  have every := Alongside.exists_right (Alongside.of_mapM sets)
  have none : (largest.params.filter fun p => (fieldFor? m.resolver fields p).isNone) = [] := by
    refine List.filter_eq_nil_iff.mpr fun p hp => ?_
    obtain ⟨g, -, found⟩ := every p hp
    rw [found]
    exact Bool.false_ne_true
  -- A parameter of the field's name would set that field, which is left over.
  have unset : largest.params.any (·.name == f.field.name) = false := by
    refine List.any_eq_false.mpr fun p hp same => ?_
    obtain ⟨g, hg, found⟩ := every p hp
    have taken : matched.any (·.field.name == f.field.name) = true :=
      List.any_eq_true.mpr ⟨g, hg, by rwa [name_of_fieldFor? found]⟩
    rw [taken] at apart
    cases apart
  unfold constructorFindings
  dsimp only
  rw [if_pos (List.isEmpty_iff.mpr none)]
  refine List.ne_nil_of_mem (List.mem_map_of_mem (List.mem_filter.mpr ⟨member, ?_⟩))
  rw [unset, unwritable]
  rfl

/-- Where no constructor is usable, it is found out why not even the largest one is. -/
theorem constructorFindings_ne_nil {fields : List TypedField} {largest : ConstructorDecl}
    {smaller : List ConstructorDecl} (h : chosen? m fields (largest :: smaller) = none) :
    constructorFindings m d fields largest ≠ [] := by
  have unusable := List.findSome?_eq_none_iff.mp h largest List.mem_cons_self
  split at unusable
  · next missing => exact constructorFindings_ne_nil_of_unmatched missing
  · next matched sets =>
    split at unusable
    · cases unusable
    · next left =>
      rw [Bool.not_eq_true, List.all_eq_false] at left
      obtain ⟨f, hf, unwritable⟩ := left
      refine constructorFindings_ne_nil_of_unwritable sets hf ?_
      rwa [Bool.not_eq_true, Option.isSome_eq_false_iff] at unwritable

/-! ## §4. Properties. -/

/-- The failures among gathered results are those of the results. -/
theorem mem_gather_iff {x : Diagnostic} {rs : List (Except Diagnostic Property)} :
    x ∈ (gather rs).2 ↔ .error x ∈ rs := by
  induction rs with
  | nil => simp [gather]
  | cons result rest ih => cases result <;> simp [gather, ih]

/-- A property that cannot be made is reported at its field. -/
theorem element_of_property {write : WriteAccess} {f : TypedField} {x : Diagnostic}
    (h : property b m d write f = .error x) : x.element = fieldElement d f.field.name := by
  unfold property at h
  split at h
  · cases h
    rfl
  · split at h
    · cases h
      rfl
    · cases h

theorem concerns_properties {fields matched : List TypedField}
    (within : ∀ f ∈ fields, f.field ∈ d.fields) (chosen : ∀ f ∈ matched, f ∈ fields)
    {x : Diagnostic} (hx : .error x ∈ properties b m d fields matched) :
    Concerns d x.element := by
  rw [properties_eq_map] at hx
  obtain ⟨⟨write, f⟩, hs, failed⟩ := List.mem_map.mp hx
  rw [element_of_property failed]
  exact .field (within f (mem_of_setting chosen hs))

/-! ## §5. Classes. -/

theorem largestFirst_perm (cs : List ConstructorDecl) : (largestFirst cs).Perm cs :=
  List.mergeSort_perm cs _

/-- A class that cannot be described has that explained. -/
theorem explains_of_describe {ds : List Diagnostic} (h : describe b o d = .error ds) :
    Explains d ds := by
  unfold describe at h
  dsimp only at h
  split at h
  · split at h
    · cases h
    · cases h
      exact ⟨List.cons_ne_nil _ _, List.forall_mem_cons.mpr ⟨.itself, nofun⟩⟩
  · next largest smaller sorted =>
    have visible : largest ∈ visibleConstructors d :=
      (largestFirst_perm _).mem_iff.mp (sorted ▸ List.mem_cons_self)
    obtain ⟨within, untyped⟩ := concerns_typedFields (Resolver.ofDecl b.catalog d) []
      fun f hf => (List.mem_filter.mp hf).1
    split at h
    · next unusable =>
      cases h
      refine ⟨fun none => ?_, ?_⟩
      · exact constructorFindings_ne_nil unusable (List.append_eq_nil_iff.mp none).2
      · exact List.forall_mem_append.mpr ⟨untyped, concerns_constructorFindings within visible⟩
    · next matched found =>
      split at h
      · cases h
      · next some =>
        cases h
        refine ⟨fun none => some (List.isEmpty_iff.mpr none), ?_⟩
        refine List.forall_mem_append.mpr ⟨untyped, fun x hx => ?_⟩
        exact concerns_properties within (mem_of_chosen? found) (mem_gather_iff.mp hx)

end ParcelCodec.DataClass
