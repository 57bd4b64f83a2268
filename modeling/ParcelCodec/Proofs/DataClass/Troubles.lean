import ParcelCodec.Proofs.Codec.Nesting
import ParcelCodec.Proofs.DataClass.Arrangement

/-!
# What is found about one field

Whether anything is found at a field of a class, and why: another field has its name, no constructor
can be used and it is the field that is left over, it cannot be read, or its type has no codec.  The
last two are looked for only in a class that has a usable constructor, and the codec hangs on which
classes are rejected: a field may lack one only because its type nests a rejected class.

Main statement: `foundAt_iff`.
-/

namespace ParcelCodec.DataClass

open Catalog (Nests)

/-! ## §1. Elements. -/

@[simp] theorem fieldElement_inj {d : TypeDecl} {a b : String} :
    fieldElement d a = fieldElement d b ↔ a = b := by
  unfold fieldElement
  simp

/-- A class is no field of its own. -/
theorem qualifiedName_ne_fieldElement (d : TypeDecl) (field : String) :
    d.qualifiedName ≠ fieldElement d field := by
  unfold fieldElement
  intro same
  simpa using congrArg String.toList same

/-- A parameter is written differently from every field. -/
theorem parameterElement_ne_fieldElement (d : TypeDecl) (param field : String) :
    parameterElement d param ≠ fieldElement d field := by
  unfold parameterElement fieldElement
  intro same
  simpa using congrArg String.toList same

/-- Some finding is at a field. -/
def FoundAt (d : TypeDecl) (field : String) (ds : List Diagnostic) : Prop :=
  ∃ x ∈ ds, x.element = fieldElement d field

variable {d : TypeDecl} {field : String}

@[simp] theorem not_foundAt_nil : ¬ FoundAt d field [] := by
  unfold FoundAt
  simp

@[simp] theorem foundAt_cons {x : Diagnostic} {ds : List Diagnostic} :
    FoundAt d field (x :: ds) ↔ x.element = fieldElement d field ∨ FoundAt d field ds := by
  unfold FoundAt
  simp

@[simp] theorem foundAt_append {ds ds' : List Diagnostic} :
    FoundAt d field (ds ++ ds') ↔ FoundAt d field ds ∨ FoundAt d field ds' := by
  unfold FoundAt
  simp [or_and_right, exists_or]

/-! ## §2. Names and types. -/

variable {r : Resolver} {f : FieldDecl} {ty : JavaType}

/-- At a field something is found before any constructor is looked at exactly if its name was seen
before, is repeated, or goes with a type that makes no sense. -/
theorem foundAt_typedFields : ∀ (fs : List FieldDecl) (seen : List String),
    FoundAt d field (typedFields r d seen fs).2 ↔
      (field ∈ seen ∧ field ∈ fs.map (·.name)) ∨ 1 < (fs.map (·.name)).count field
        ∨ ∃ g ∈ fs, g.name = field ∧ ∃ u, r.resolveText g.type = .error u
  | [], _ => by simp [typedFields]
  | g :: rest, seen => by
    have again := foundAt_typedFields rest seen
    have later := foundAt_typedFields rest (g.name :: seen)
    have counted : 0 < (rest.map (·.name)).count field ↔ field ∈ rest.map (·.name) :=
      List.count_pos_iff
    unfold typedFields
    by_cases here : g.name = field
    · subst here
      by_cases before : g.name ∈ seen
      · simp [before, Unresolved.on]
      · rcases resolved : r.resolveText g.type with u | ty
        · simp [before, resolved, Unresolved.on]
        · -- From here on the name counts as seen, so it is enough if it comes once more.
          have repeated : 1 < (rest.map (·.name)).count g.name → g.name ∈ rest.map (·.name) :=
            fun more => counted.mp (Nat.lt_of_succ_lt more)
          grind
    · by_cases before : g.name ∈ seen
      · simp [before, Unresolved.on, here, again, Ne.symm here]
      · rcases resolved : r.resolveText g.type with u | ty
        · simp [before, resolved, Unresolved.on, here, Ne.symm here, later]
        · simp [before, resolved, here, Ne.symm here, later]

/-- Two fields have one name only if it is repeated. -/
theorem eq_of_count_le_one {g : FieldDecl} {fs : List FieldDecl}
    (once : (fs.map (·.name)).count f.name ≤ 1) (hf : f ∈ fs) (hg : g ∈ fs)
    (same : f.name = g.name) : f = g := by
  have few : (fs.filter (·.name == f.name)).length ≤ 1 := by
    rwa [List.count, List.countP_map, List.countP_eq_length_filter] at once
  have hf' : f ∈ fs.filter (·.name == f.name) := List.mem_filter.mpr ⟨hf, by simp⟩
  have hg' : g ∈ fs.filter (·.name == f.name) := List.mem_filter.mpr ⟨hg, by simp [same]⟩
  obtain ⟨x, only⟩ := List.length_eq_one_iff.mp (Nat.le_antisymm few (List.length_pos_of_mem hf'))
  rw [only, List.mem_singleton] at hf' hg'
  exact hf'.trans hg'.symm

/-- Fields with types have the types that their texts stand for. -/
theorem typed_typedFields : ∀ (fs : List FieldDecl) (seen : List String),
    Typed r (typedFields r d seen fs).1
  | [], _ => nofun
  | g :: rest, seen => by
    unfold typedFields
    by_cases before : seen.contains g.name = true
    · rw [if_pos before]
      exact typed_typedFields rest seen
    · rw [if_neg before]
      rcases resolved : r.resolveText g.type with u | ty
      · exact typed_typedFields rest _
      · exact List.forall_mem_cons.mpr ⟨resolved, typed_typedFields rest _⟩

/-- A field whose name is not repeated is there with its type. -/
theorem mem_typedFields : ∀ {fs : List FieldDecl} {seen : List String}, f ∈ fs →
    r.resolveText f.type = .ok ty → f.name ∉ seen → (fs.map (·.name)).count f.name ≤ 1 →
      ⟨f, ty⟩ ∈ (typedFields r d seen fs).1
  | g :: rest, seen, hf, resolved, new, once => by
    rw [List.map_cons, List.count_cons] at once
    unfold typedFields
    rcases List.mem_cons.mp hf with rfl | hf
    · rw [if_neg fun before => new (List.contains_iff_mem.mp before)]
      simp only [resolved]
      exact List.mem_cons_self
    · -- The name comes later, so it cannot be the name of this field.
      have later : 0 < (rest.map (·.name)).count f.name :=
        List.count_pos_iff.mpr (List.mem_map_of_mem hf)
      have other : g.name ≠ f.name := by
        intro same
        simp only [same, beq_self_eq_true, if_true] at once
        omega
      have once' : (rest.map (·.name)).count f.name ≤ 1 := Nat.le_of_add_right_le once
      have new' : f.name ∉ g.name :: seen := by
        simp [new, Ne.symm other]
      split
      · exact mem_typedFields hf resolved new once'
      · dsimp only
        split
        · exact List.mem_cons_of_mem _ (mem_typedFields hf resolved new' once')
        · exact mem_typedFields hf resolved new' once'

/-! ## §3. Constructors. -/

variable {m : Members} {fields matched : List TypedField} {cs : List ConstructorDecl}

/-- A constructor is chosen exactly if one can be used. -/
theorem isSome_chosen?_iff (typed : Typed m.resolver fields) :
    (chosen? m fields cs).isSome = true ↔ ∃ c ∈ cs, Usable m (fields.map (·.field)) c := by
  constructor
  · intro found
    obtain ⟨matched, found⟩ := Option.isSome_iff_exists.mp found
    obtain ⟨front, c, back, rfl, fits, -⟩ := exists_chosen typed found
    exact ⟨c, by simp, usable_of_fit? typed fits⟩
  · rintro ⟨c, hc, usable⟩
    change (cs.findSome? (fit? m fields)).isSome = true
    rw [List.findSome?_isSome_iff]
    exact ⟨c, hc, isSome_fit? typed usable⟩

/-- Among the fields that a chosen constructor sets or leaves to be set is every field. -/
theorem exists_setting (found : chosen? m fields cs = some matched) {g : TypedField}
    (hg : g ∈ fields) (distinct : (fields.map (·.field.name)).Nodup) :
    ∃ write, (write, g) ∈ settings m fields matched := by
  have found' : cs.findSome? (fit? m fields) = some matched := found
  obtain ⟨c, -, fits⟩ := List.exists_of_findSome?_eq_some found'
  have writable := (fit?_eq_some fits).2
  unfold settings
  by_cases taken : matched.any (·.field.name == g.field.name) = true
  · obtain ⟨g', hg', same⟩ := List.any_eq_true.mp taken
    have one : g' = g :=
      List.inj_on_of_nodup_map distinct (mem_of_chosen? found g' hg') hg (eq_of_beq same)
    subst one
    exact ⟨.constructor, List.mem_append_left _ (List.mem_map_of_mem hg')⟩
  · have left : g ∈ others fields matched :=
      List.mem_filter.mpr ⟨hg, by rw [Bool.not_eq_true] at taken; rw [taken]; rfl⟩
    obtain ⟨write, hw⟩ := Option.isSome_iff_exists.mp (writable g left)
    refine ⟨write, List.mem_append_right _ (List.mem_filterMap.mpr ⟨g, left, ?_⟩)⟩
    rw [hw]
    rfl

/-- A parameter sets a field exactly if it agrees with one. -/
theorem isSome_fieldFor?_iff (typed : Typed m.resolver fields) {p : ParamDecl} :
    (fieldFor? m.resolver fields p).isSome = true ↔
      ∃ h ∈ fields.map (·.field), Agree m.resolver p h := by
  constructor
  · intro found
    obtain ⟨h, found⟩ := Option.isSome_iff_exists.mp found
    obtain ⟨mem, same, resolved⟩ := agree_of_fieldFor? found
    exact ⟨h.field, List.mem_map_of_mem mem, same, h.type, resolved, typed h mem⟩
  · rintro ⟨_, mem, agree⟩
    obtain ⟨h, hh, rfl⟩ := List.mem_map.mp mem
    exact isSome_fieldFor? typed hh agree

/-- Of a class without a usable constructor, a field is found exactly if the parameters of the
largest constructor set all fields that they name, none names this one, and nothing else sets
it. -/
theorem foundAt_constructorFindings (typed : Typed m.resolver fields) {largest : ConstructorDecl}
    {g : TypedField} (hg : g ∈ fields) (distinct : (fields.map (·.field.name)).Nodup) :
    FoundAt d g.field.name (constructorFindings m d fields largest) ↔
      (∀ p ∈ largest.params, ∃ h ∈ fields.map (·.field), Agree m.resolver p h)
        ∧ (∀ p ∈ largest.params, p.name ≠ g.field.name) ∧ ∀ w, ¬ SetBy m g.field g.type w := by
  unfold constructorFindings
  dsimp only
  split
  · next all =>
    -- All parameters have fields, so the fields that nothing sets are reported.
    have every : ∀ p ∈ largest.params, ∃ h ∈ fields.map (·.field), Agree m.resolver p h := by
      intro p hp
      by_contra missing
      rw [← isSome_fieldFor?_iff typed, Option.not_isSome_iff_eq_none] at missing
      exact List.filter_eq_nil_iff.mp (List.isEmpty_iff.mp all) p hp
        (Option.isNone_iff_eq_none.mpr missing)
    constructor
    · rintro ⟨x, hx, at_⟩
      obtain ⟨h, hh, rfl⟩ := List.mem_map.mp hx
      obtain ⟨mem, unset⟩ := List.mem_filter.mp hh
      have one : h = g := List.inj_on_of_nodup_map distinct mem hg (fieldElement_inj.mp at_)
      subst one
      rw [Bool.and_eq_true, Bool.not_eq_true', List.any_eq_false] at unset
      refine ⟨every, fun p hp same => unset.1 p hp (beq_iff_eq.mpr same), fun w set => ?_⟩
      have some := isSome_write? set
      rw [Option.isNone_iff_eq_none.mp unset.2] at some
      cases some
    · rintro ⟨-, unnamed, none⟩
      refine ⟨_, List.mem_map_of_mem (List.mem_filter.mpr ⟨hg, ?_⟩), rfl⟩
      rw [Bool.and_eq_true, Bool.not_eq_true', List.any_eq_false]
      refine ⟨fun p hp same => unnamed p hp (eq_of_beq same), ?_⟩
      rcases written : m.write? g.field g.type with _ | w
      · rfl
      · exact absurd (setBy_of_write? written) (none w)
  · next some =>
    -- Some parameter has none, so the parameters are reported, and no field.
    constructor
    · rintro ⟨x, hx, at_⟩
      obtain ⟨p, -, rfl⟩ := List.mem_map.mp hx
      exact absurd at_ (parameterElement_ne_fieldElement d p.name g.field.name)
    · rintro ⟨every, -⟩
      refine absurd (List.isEmpty_iff.mpr (List.filter_eq_nil_iff.mpr fun p hp => ?_)) some
      have sets := (isSome_fieldFor?_iff typed).mpr (every p hp)
      rw [Option.isSome_iff_ne_none] at sets
      rwa [Option.isNone_iff_eq_none]

/-! ## §4. Properties. -/

variable {b : Codebook} {o : Options}

/-- A property fails exactly if its field cannot be read or its type has no codec. -/
theorem exists_property_error_iff {write : WriteAccess} {g : TypedField} :
    (∃ x, property b m d write g = .error x) ↔
      m.read? g.field g.type = none ∨ ¬ ∃ c, Shelf.buildAlone b g.type = .ok c := by
  unfold property
  rcases m.read? g.field g.type with _ | access
  · simp
  · rcases Shelf.buildAlone b g.type with u | c <;> simp

/-- Of a class with a usable constructor, a field is found exactly if it cannot be read or its type
has no codec. -/
theorem foundAt_properties (found : chosen? m fields cs = some matched) {g : TypedField}
    (hg : g ∈ fields) (distinct : (fields.map (·.field.name)).Nodup) :
    FoundAt d g.field.name (gather (properties b m d fields matched)).2 ↔
      m.read? g.field g.type = none ∨ ¬ ∃ c, Shelf.buildAlone b g.type = .ok c := by
  constructor
  · rintro ⟨x, hx, at_⟩
    rw [mem_gather_iff, properties_eq_map] at hx
    obtain ⟨⟨write, h⟩, hs, failed⟩ := List.mem_map.mp hx
    rw [element_of_property failed] at at_
    have one : h = g :=
      List.inj_on_of_nodup_map distinct (mem_of_setting (mem_of_chosen? found) hs) hg
        (fieldElement_inj.mp at_)
    subst one
    exact exists_property_error_iff.mp ⟨x, failed⟩
  · intro trouble
    obtain ⟨write, hs⟩ := exists_setting found hg distinct
    obtain ⟨x, failed⟩ : ∃ x, property b m d write g = .error x :=
      exists_property_error_iff.mpr trouble
    refine ⟨x, mem_gather_iff.mpr ?_, element_of_property failed⟩
    rw [properties_eq_map]
    exact List.mem_map.mpr ⟨(write, g), hs, failed⟩

/-! ## §5. Troubles. -/

/-- A constructor of a class can be used. -/
def UsableIn (b : Codebook) (o : Options) (d : TypeDecl) (c : ConstructorDecl) : Prop :=
  c ∈ visibleConstructors d ∧ Usable (membersOf b o d) ((fieldsOf b o d).map (·.field)) c

/-- What keeps a field of a type from becoming a property while some classes are rejected. -/
inductive Troubled (b : Codebook) (o : Options) (d : TypeDecl) (f : FieldDecl) (ty : JavaType) :
    Prop
  /-- Another field has the name. -/
  | repeated (visible : visibleConstructors d ≠ [])
    (more : 1 < ((included o d).map (·.name)).count f.name)
  /-- No constructor can be used.  Every parameter of the largest one sets a field, but none sets
  this one, and nothing else does. -/
  | unset {largest : ConstructorDecl} {smaller : List ConstructorDecl}
    (sorted : largestFirst (visibleConstructors d) = largest :: smaller)
    (unusable : ∀ c, ¬ UsableIn b o d c)
    (matched : ∀ p ∈ largest.params,
      ∃ g ∈ (fieldsOf b o d).map (·.field), Agree (.ofDecl b.catalog d) p g)
    (unnamed : ∀ p ∈ largest.params, p.name ≠ f.name)
    (unwritable : ∀ w, ¬ SetBy (membersOf b o d) f ty w)
  /-- It cannot be read. -/
  | unreadable {c : ConstructorDecl} (usable : UsableIn b o d c)
    (hidden : (membersOf b o d).read? f ty = none)
  /-- Its type would not even have a codec if nothing were rejected. -/
  | uncodable {c : ConstructorDecl} (usable : UsableIn b o d c)
    (none : ¬ (b.rejecting []).HasCodec ty)
  /-- Its type nests a rejected class. -/
  | nesting {c : ConstructorDecl} (usable : UsableIn b o d c) {name : String}
    (rejected : name ∈ b.rejected) (nests : b.catalog.Nests name ty)

namespace Troubled

variable {f : FieldDecl} {ty : JavaType}

/-- Only a class with visible constructors has troubled fields. -/
theorem visible (h : Troubled b o d f ty) : visibleConstructors d ≠ [] := by
  cases h with
  | repeated visible _ => exact visible
  | unset sorted =>
    intro invisible
    have perm := largestFirst_perm (visibleConstructors d)
    rw [sorted, invisible] at perm
    exact List.cons_ne_nil _ _ (List.perm_nil.mp perm)
  | unreadable usable _ | uncodable usable _ | nesting usable _ _ =>
    exact List.ne_nil_of_mem usable.1

end Troubled

section Once

variable {f : FieldDecl} {ty : JavaType} (once : ¬ 1 < ((included o d).map (·.name)).count f.name)

include once

/-- In a class with a usable constructor, a field whose name is not repeated is troubled exactly if
it cannot be read or its type has no codec. -/
theorem troubled_iff_of_usable (noAdapters : b.registry.entries = []) {c : ConstructorDecl}
    (usable : UsableIn b o d c) :
    Troubled b o d f ty ↔ (membersOf b o d).read? f ty = none ∨ ¬ b.HasCodec ty := by
  rw [Codebook.hasCodec_iff noAdapters]
  constructor
  · intro trouble
    cases trouble with
    | repeated _ more => exact absurd more once
    | unset _ unusable => exact absurd usable (unusable c)
    | unreadable _ hidden => exact .inl hidden
    | uncodable _ none => exact .inr fun both => none both.1
    | nesting _ rejected nests => exact .inr fun both => both.2 _ rejected nests
  · rintro (hidden | none)
    · exact .unreadable usable hidden
    · rcases not_and_or.mp none with none | nested
      · exact .uncodable usable none
      · push Not at nested
        obtain ⟨name, rejected, nests⟩ := nested
        exact .nesting usable rejected nests

/-- In a class without a usable constructor, a field whose name is not repeated is troubled exactly
if it is left over. -/
theorem troubled_iff_of_unusable {largest : ConstructorDecl} {smaller : List ConstructorDecl}
    (sorted : largestFirst (visibleConstructors d) = largest :: smaller)
    (unusable : ∀ c, ¬ UsableIn b o d c) : Troubled b o d f ty ↔
      (∀ p ∈ largest.params,
        ∃ g ∈ (fieldsOf b o d).map (·.field), Agree (.ofDecl b.catalog d) p g)
      ∧ (∀ p ∈ largest.params, p.name ≠ f.name) ∧ ∀ w, ¬ SetBy (membersOf b o d) f ty w := by
  constructor
  · intro trouble
    cases trouble with
    | repeated _ more => exact absurd more once
    | unset sorted' _ matched unnamed unwritable =>
      cases sorted.symm.trans sorted'
      exact ⟨matched, unnamed, unwritable⟩
    | unreadable usable _ | uncodable usable _ | nesting usable _ _ =>
      exact absurd usable (unusable _)
  · rintro ⟨matched, unnamed, unwritable⟩
    exact .unset sorted unusable matched unnamed unwritable

end Once

/-! ## §6. Classes. -/

/-- What is found about a class that cannot be described. -/
def findingsAbout (b : Codebook) (o : Options) (d : TypeDecl) : List Diagnostic :=
  match describe b o d with
  | .ok _ => []
  | .error ds => ds

/-- Of a class without visible constructors, no field is found. -/
theorem not_foundAt_of_invisible (invisible : visibleConstructors d = []) :
    ¬ FoundAt d field (findingsAbout b o d) := by
  have none : largestFirst (visibleConstructors d) = [] :=
    (List.perm_nil.mp (invisible ▸ largestFirst_perm (visibleConstructors d)))
  unfold findingsAbout describe
  simp only [none]
  cases hasInstance (Resolver.ofDecl b.catalog d) d
  · simp [Unresolved.on, qualifiedName_ne_fieldElement]
  · simp

/-- What is found about a class with visible constructors: what is found about its fields, and then
why no constructor can be used or else why fields are no properties. -/
theorem findingsAbout_eq {largest : ConstructorDecl} {smaller : List ConstructorDecl}
    (sorted : largestFirst (visibleConstructors d) = largest :: smaller) :
    findingsAbout b o d = (typedFields (.ofDecl b.catalog d) d [] (included o d)).2
      ++ match chosen? (membersOf b o d) (fieldsOf b o d) (largest :: smaller) with
        | none => constructorFindings (membersOf b o d) d (fieldsOf b o d) largest
        | some matched =>
          (gather (properties b (membersOf b o d) d (fieldsOf b o d) matched)).2 := by
  unfold findingsAbout describe fieldsOf membersOf included
  simp only [sorted]
  generalize typedFields _ d [] _ = typed
  rcases chosen? _ typed.1 (largest :: smaller) with _ | matched
  · rfl
  · dsimp only
    split
    · next described =>
      split at described
      · next nothing => exact (List.isEmpty_iff.mp nothing).symm
      · cases described
    · next failed =>
      split at failed
      · cases failed
      · cases failed
        rfl

/-- A class with visible constructors has a largest one. -/
theorem exists_largest (visible : visibleConstructors d ≠ []) :
    ∃ largest smaller, largestFirst (visibleConstructors d) = largest :: smaller := by
  refine List.exists_cons_of_ne_nil fun none => visible ?_
  exact List.perm_nil.mp (none ▸ (largestFirst_perm (visibleConstructors d)).symm)

/-- The largest constructor comes first and is one that can be chosen, if any can be used. -/
theorem isSome_chosen?_sorted {largest : ConstructorDecl} {smaller : List ConstructorDecl}
    (sorted : largestFirst (visibleConstructors d) = largest :: smaller) :
    (chosen? (membersOf b o d) (fieldsOf b o d) (largest :: smaller)).isSome = true ↔
      ∃ c, UsableIn b o d c := by
  have typed : Typed (membersOf b o d).resolver (fieldsOf b o d) := typed_typedFields _ _
  rw [isSome_chosen?_iff typed, ← sorted]
  simp only [(largestFirst_perm (visibleConstructors d)).mem_iff]
  rfl

/-- A class with visible constructors that can be described has one that can be used. -/
theorem exists_usableIn_of_describe (visible : visibleConstructors d ≠ []) {x : Descriptor}
    (h : describe b o d = .ok x) : ∃ c, UsableIn b o d c := by
  obtain ⟨largest, smaller, sorted⟩ := exists_largest visible
  by_contra unusable
  rw [← isSome_chosen?_sorted sorted, Option.not_isSome_iff_eq_none] at unusable
  have silent : findingsAbout b o d = [] := by
    unfold findingsAbout
    rw [h]
  rw [findingsAbout_eq sorted, unusable] at silent
  exact constructorFindings_ne_nil unusable (List.append_eq_nil_iff.mp silent).2

section Field

variable {f : FieldDecl} {ty : JavaType} (hf : f ∈ included o d)
  (resolved : (Resolver.ofDecl b.catalog d).resolveText f.type = .ok ty)

include hf resolved

/-- Before any constructor is looked at, the field is found only for its name. -/
theorem foundAt_fields :
    FoundAt d f.name (typedFields (.ofDecl b.catalog d) d [] (included o d)).2 ↔
      1 < ((included o d).map (·.name)).count f.name := by
  rw [foundAt_typedFields]
  refine ⟨?_, fun more => .inr (.inl more)⟩
  rintro (⟨seen, -⟩ | more | ⟨g, hg, same, u, unresolved⟩)
  · cases seen
  · exact more
  · -- A field of that name whose type makes no sense is another one.
    by_contra once
    have one : f = g := eq_of_count_le_one (Nat.le_of_not_lt once) hf hg same.symm
    rw [← one, resolved] at unresolved
    cases unresolved

variable (once : ¬ 1 < ((included o d).map (·.name)).count f.name)

include once

/-- A field whose name is not repeated is among the fields with types. -/
theorem mem_fieldsOf : ⟨f, ty⟩ ∈ fieldsOf b o d :=
  mem_typedFields hf resolved List.not_mem_nil (Nat.le_of_not_lt once)

/-- Where no constructor can be used, the field is found exactly if it is left over. -/
theorem foundAt_of_unusable {largest : ConstructorDecl} {smaller : List ConstructorDecl}
    (sorted : largestFirst (visibleConstructors d) = largest :: smaller)
    (unusable : ∀ c, ¬ UsableIn b o d c) :
    FoundAt d f.name (findingsAbout b o d) ↔
      (∀ p ∈ largest.params,
        ∃ g ∈ (fieldsOf b o d).map (·.field), Agree (.ofDecl b.catalog d) p g)
      ∧ (∀ p ∈ largest.params, p.name ≠ f.name) ∧ ∀ w, ¬ SetBy (membersOf b o d) f ty w := by
  have none : chosen? (membersOf b o d) (fieldsOf b o d) (largest :: smaller) = none := by
    rw [← Option.not_isSome_iff_eq_none, isSome_chosen?_sorted sorted]
    exact not_exists.mpr unusable
  rw [findingsAbout_eq sorted, none, foundAt_append, foundAt_fields hf resolved,
    or_iff_right once]
  exact foundAt_constructorFindings (m := membersOf b o d) (typed_typedFields _ _)
    (mem_fieldsOf hf resolved once) (nodup_typedFields _ []).1

/-- Where a constructor can be used, the field is found exactly if it cannot be read or its type
has no codec. -/
theorem foundAt_of_usable (noAdapters : b.registry.entries = []) {c : ConstructorDecl}
    (usable : UsableIn b o d c) : FoundAt d f.name (findingsAbout b o d) ↔
      (membersOf b o d).read? f ty = none ∨ ¬ b.HasCodec ty := by
  obtain ⟨largest, smaller, sorted⟩ := exists_largest (List.ne_nil_of_mem usable.1)
  obtain ⟨matched, found⟩ :=
    Option.isSome_iff_exists.mp ((isSome_chosen?_sorted sorted).mpr ⟨c, usable⟩)
  rw [findingsAbout_eq sorted, found, foundAt_append, foundAt_fields hf resolved,
    or_iff_right once, ← Codebook.exists_buildAlone_iff noAdapters]
  exact foundAt_properties found (mem_fieldsOf hf resolved once) (nodup_typedFields _ []).1

omit once

/-- **Something is found at a field exactly if the field is troubled.**  Without adapters, a field
that the options leave in and whose type makes sense is reported for its name, for being left over
by the constructors, for its access or for its codec, and the codec is missing because of its type
or because of a rejected class that the type nests. -/
theorem foundAt_iff (noAdapters : b.registry.entries = []) :
    FoundAt d f.name (findingsAbout b o d) ↔ Troubled b o d f ty := by
  by_cases visible : visibleConstructors d = []
  · exact iff_of_false (not_foundAt_of_invisible visible) fun trouble => trouble.visible visible
  · obtain ⟨largest, smaller, sorted⟩ := exists_largest visible
    by_cases more : 1 < ((included o d).map (·.name)).count f.name
    · refine iff_of_true ?_ (.repeated visible more)
      rw [findingsAbout_eq sorted, foundAt_append]
      exact .inl ((foundAt_fields hf resolved).mpr more)
    · by_cases some : ∃ c, UsableIn b o d c
      · obtain ⟨c, usable⟩ := some
        rw [foundAt_of_usable hf resolved more noAdapters usable,
          troubled_iff_of_usable more noAdapters usable]
      · have unusable := not_exists.mp some
        rw [foundAt_of_unusable hf resolved more sorted unusable,
          troubled_iff_of_unusable more sorted unusable]

end Field

end ParcelCodec.DataClass
