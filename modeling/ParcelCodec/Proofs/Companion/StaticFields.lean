import ParcelCodec.Companion.OfDescriptor
import ParcelCodec.Java.Source
import ParcelCodec.Proofs.Companion.Statics

/-!
# The order of the static fields

A class initialises its static fields in the order in which they stand in the source text, so a
field whose initialiser names another one has to stand behind it.  The source text of a companion
has the adapters first, each behind the adapters that it is given, and the shared codecs behind all
of them.  So an adapter finds every adapter that it is given, and no shared codec.

The order of the adapters is an invariant of their declaration: when a field is added, whatever it
is given has been declared.  Main statements: `declaredBefore_of_adapter`,
`declaredBefore_of_codec` and `declarations_sublist`.
-/

namespace ParcelCodec

open DataClass (Descriptor)

/-! ## §1. Fields in their order. -/

deriving instance DecidableEq for DependencyArg

/-- The fields that the constructor of an adapter is given: other adapters and shared codecs. -/
def AdapterField.given (f : AdapterField) : List String :=
  f.deps.filterMap fun
    | .adapter (.field name) => some name
    | .codec name => some name
    | _ => none

/-- What an adapter is given is another adapter's field or a shared codec. -/
theorem AdapterField.mem_given {f : AdapterField} {name : String} :
    name ∈ f.given ↔ .adapter (.field name) ∈ f.deps ∨ .codec name ∈ f.deps := by
  unfold given
  rw [List.mem_filterMap]
  constructor
  · rintro ⟨arg, ha, found⟩
    split at found
    · cases found
      exact .inl ha
    · cases found
      exact .inr ha
    · cases found
  · rintro (ha | ha)
    · exact ⟨_, ha, rfl⟩
    · exact ⟨_, ha, rfl⟩

namespace Companion

/-- The line with which a shared codec starts. -/
def codecHead (codec : CodecDecl) : Java.SourceLine :=
  let type := Java.typeAdapterName ++ "<" ++ codec.type.display ++ ">"
  ⟨1, "static final " ++ type ++ " " ++ codec.name ++ " = new " ++ type ++ "()" ++ " \x7b"⟩

/-- The static fields of a companion, each with the line that declares it, in the order of the
source text: the adapters, and behind them the shared codecs. -/
def declarations (c : Companion) : List (String × Java.SourceLine) :=
  c.adapters.map (fun f => (f.name, ⟨1, Java.adapterFieldSource f⟩))
    ++ c.codecs.map fun codec => (codec.name, codecHead codec)

/-- The names of the static fields in the order of the source text. -/
def staticNames (c : Companion) : List String := c.declarations.map (·.1)

/-- One static field is declared in front of another one. -/
def DeclaredBefore (c : Companion) (first second : String) : Prop :=
  [first, second].Sublist c.staticNames

instance {c : Companion} {first second : String} : Decidable (c.DeclaredBefore first second) :=
  inferInstanceAs (Decidable ([first, second].Sublist c.staticNames))

/-- The names of the adapters, and behind them those of the shared codecs. -/
theorem staticNames_eq (c : Companion) :
    c.staticNames = c.adapters.map (·.name) ++ c.codecs.map (·.name) := by
  unfold staticNames declarations
  rw [List.map_append, List.map_map, List.map_map]
  rfl

/-- The heads of shared codecs stand in their source text in order. -/
theorem codecHeads_sublist (codecs : List CodecDecl) :
    (codecs.map codecHead).Sublist
      (Java.inner (codecs.flatMap fun codec => Java.codecSource codec ++ Java.blankLine)) := by
  induction codecs with
  | nil => exact .slnil
  | cons codec rest ih =>
    have first : [codecHead codec].Sublist
        (Java.inner (Java.codecSource codec ++ Java.blankLine)) :=
      List.singleton_sublist.mpr List.mem_cons_self
    rw [List.flatMap_cons, Java.inner, List.map_append]
    exact first.append ih

/-- The declarations stand in the source text in their order. -/
theorem declarations_sublist (c : Companion) :
    (c.declarations.map (·.2)).Sublist (Java.companionLines c) := by
  have adapters : c.adapters.map (fun f => Java.SourceLine.mk 1 (Java.adapterFieldSource f))
      = Java.inner (Java.flat (c.adapters.map Java.adapterFieldSource)) := by
    unfold Java.inner Java.flat
    rw [List.map_map, List.map_map]
    rfl
  have fields : (c.declarations.map (·.2)).Sublist (Java.inner
      (Java.flat (c.adapters.map Java.adapterFieldSource)
        ++ (if c.adapters.isEmpty then [] else Java.blankLine)
        ++ c.codecs.flatMap fun codec => Java.codecSource codec ++ Java.blankLine)) := by
    unfold declarations
    rw [List.map_append, List.map_map, List.map_map, Java.inner, List.map_append, List.map_append]
    refine List.Sublist.append ?_ (codecHeads_sublist c.codecs)
    show (c.adapters.map fun f => Java.SourceLine.mk 1 (Java.adapterFieldSource f)).Sublist _
    rw [adapters]
    exact List.sublist_append_left _ _
  unfold Java.companionLines Java.block
  refine List.Sublist.trans ?_ (List.sublist_append_right _ _)
  refine ((fields.trans (List.Sublist.map _ ?_)).cons _).trans (List.sublist_append_left _ _)
  -- The other members stand behind the fields.
  exact ((((List.sublist_append_left _ _).trans (List.sublist_append_left _ _)).trans
    (List.sublist_append_left _ _)).trans (List.sublist_append_left _ _)).trans
      (List.sublist_append_left _ _)

end Companion

/-! ## §2. The order of the adapters. -/

/-- Each adapter is given only adapters whose fields stand in front of its own. -/
inductive FieldOrder : List AdapterField → Prop
  | nil : FieldOrder []
  | snoc {l : List AdapterField} {f : AdapterField} (h : FieldOrder l)
    (given : ∀ name, .adapter (.field name) ∈ f.deps → ∃ g ∈ l, g.name = name) :
    FieldOrder (l ++ [f])

/-- An adapter's field stands behind every field that it is given. -/
theorem FieldOrder.sublist {l : List AdapterField} (h : FieldOrder l) {f : AdapterField}
    (hf : f ∈ l) {name : String} (given : .adapter (.field name) ∈ f.deps) :
    [name, f.name].Sublist (l.map (·.name)) := by
  induction h with
  | nil => cases hf
  | @snoc l g _ before ih =>
    rw [List.map_append, List.map_singleton]
    rcases List.mem_append.mp hf with hf | hf
    · exact (ih hf).trans (List.sublist_append_left _ _)
    · obtain rfl := List.mem_singleton.mp hf
      obtain ⟨other, there, rfl⟩ := before name given
      exact (List.singleton_sublist.mpr (List.mem_map_of_mem there)).append (.refl _)

namespace Statics

variable {s : Statics}

/-- The field of an adapter is added behind those of the adapters that it is given. -/
theorem fieldOrder_addAdapter {it : AdapterInstance} (h : FieldOrder s.adapters)
    (covers : ∀ use, it.Needs use → s.Covers use) : FieldOrder (s.addAdapter it).adapters := by
  unfold addAdapter
  split
  · exact h
  · have unchanged := adapters_foldl adapters_shareDependency s it.deps
    have supplied : ∀ d ∈ it.deps, (it.deps.foldl shareDependency s).Supplied
        ((it.deps.foldl shareDependency s).argFor d) := fun d hd =>
      supplied_argFor hd fun c same use hu => covers use ⟨c, same ▸ hd, hu⟩
    generalize it.deps.foldl shareDependency s = t at *
    show FieldOrder (t.adapters ++ [_])
    refine .snoc (unchanged ▸ h) fun name given => ?_
    obtain ⟨d, hd, arg⟩ := List.mem_map.mp given
    have reached := supplied d hd
    rw [arg] at reached
    exact reached

/-- Adapters that are declared in the order of their dependencies stand in it. -/
theorem fieldOrder_foldl (own : String → Bool) {l : List AdapterInstance} (h : DependencyOrder l)
    (uniform : ∀ it ∈ l, it.use.viaInstance = own it.use.adapter)
    (uses : ∀ it ∈ l, ∀ use, it.Needs use → use.viaInstance = own use.adapter) :
    FieldOrder (l.foldl addAdapter empty).adapters := by
  induction h with
  | nil => exact .nil
  | @snoc l it order deps ih =>
    have sub : ∀ it' ∈ l, it' ∈ l ++ [it] := fun _ hi => List.mem_append_left _ hi
    have uniform' := fun it' hi => uniform it' (sub it' hi)
    have uses' := fun it' hi => uses it' (sub it' hi)
    have before := adapted_foldl own order uniform' uses'
    rw [List.foldl_append, List.foldl_cons, List.foldl_nil]
    refine fieldOrder_addAdapter (ih uniform' uses') fun use hu => ?_
    exact covers_of_lists own before uniform'
      (uses it (List.mem_append_right _ (List.mem_singleton.mpr rfl)) use hu) (deps use hu)

/-- The adapters of a class stand in the order of what they are given. -/
theorem fieldOrder_ofDescriptor {d : Descriptor} (own : String → Bool)
    (uniform : ∀ ty use deps, d.Holds (.adapter ty use deps) → use.viaInstance = own use.adapter) :
    FieldOrder (ofDescriptor d).adapters := by
  have same : (ofDescriptor d).adapters = _ := adapters_foldl adapters_shareComposite _ _
  rw [same]
  exact fieldOrder_foldl own (gathers_requiredAdapters d).order
    (fun it hi => viaInstance_of_required uniform hi)
    fun it hi use hu => viaInstance_of_needs uniform hi hu

/-! ## §3. Names of their own. -/

/-- The names of everything that is declared. -/
def names (s : Statics) : List String := s.adapters.map (·.name) ++ s.codecs.map (·.name)

/-- Everything that is declared has a name of its own, which is not drawn again. -/
structure Named (s : Statics) : Prop where
  taken : ∀ n ∈ s.names, n ∈ s.constants.taken
  distinct : s.names.Nodup

/-- Nothing is declared at first. -/
theorem named_empty : Named empty := ⟨nofun, List.nodup_nil⟩

/-- A declaration that draws its name keeps the names apart. -/
theorem Named.declare {s' : Statics} (h : Named s) {name : String}
    (draws : s.constants.Draws name s'.constants) (more : s'.names.Perm (name :: s.names)) :
    Named s' := by
  refine ⟨fun n hn => ?_, ?_⟩
  · rcases List.mem_cons.mp (more.mem_iff.mp hn) with rfl | old
    · exact draws.self_mem
    · exact draws.subset n (h.taken n old)
  · exact more.nodup_iff.mpr
      (List.nodup_cons.mpr ⟨fun old => draws.new (h.taken name old), h.distinct⟩)

/-- A shared codec is declared under a name of its own. -/
theorem named_share (h : Named s) (c : Codec) : Named (s.share c) := by
  unfold share
  split
  · exact h
  · obtain ⟨name, constants, allocated, draws⟩ := s.constants.exists_allocate c.type.constantName
    simp only [allocated]
    refine h.declare draws ?_
    unfold names
    rw [List.map_append, List.map_singleton, ← List.append_assoc]
    exact List.perm_append_singleton name _

/-- What is shared for an adapter is declared under a name of its own. -/
theorem named_shareDependency (h : Named s) (d : Dependency) : Named (s.shareDependency d) := by
  unfold shareDependency
  split
  · exact h
  · exact h
  · exact named_share h _

/-- An adapter is declared under a name of its own. -/
theorem named_addAdapter (h : Named s) (it : AdapterInstance) : Named (s.addAdapter it) := by
  unfold addAdapter
  split
  · exact h
  · have shared : Named (it.deps.foldl shareDependency s) :=
      List.foldlRecOn it.deps shareDependency h fun _ hs d _ => named_shareDependency hs d
    obtain ⟨name, constants, allocated, draws⟩ :=
      (it.deps.foldl shareDependency s).constants.exists_allocate it.use.ident
    simp only [allocated]
    refine shared.declare draws ?_
    unfold names
    rw [List.map_append, List.map_singleton, List.append_assoc]
    exact List.perm_middle

/-- The static fields of a class have names of their own. -/
theorem named_ofDescriptor (d : Descriptor) : Named (ofDescriptor d) := by
  have adapters : Named (d.requiredAdapters.foldl addAdapter empty) :=
    List.foldlRecOn _ addAdapter named_empty fun _ hs it _ => named_addAdapter hs it
  refine List.foldlRecOn _ _ adapters fun s hs c _ => ?_
  split
  · exact named_share hs c
  · exact hs

end Statics

/-! ## §4. The order of all fields. -/

namespace Companion

variable {d : Descriptor} {f : AdapterField} {name : String}

/-- The static fields of a companion bear the names its statics declare. -/
theorem staticNames_ofDescriptor (d : Descriptor) :
    (ofDescriptor d).staticNames = (Statics.ofDescriptor d).names := by
  rw [staticNames_eq]
  unfold ofDescriptor Statics.names
  dsimp only
  rw [List.map_map]
  rfl

/-- An adapter that is given another one is declared behind it. -/
theorem declaredBefore_of_adapter (own : String → Bool)
    (uniform : ∀ ty use deps, d.Holds (.adapter ty use deps) → use.viaInstance = own use.adapter)
    (hf : f ∈ (ofDescriptor d).adapters) (given : .adapter (.field name) ∈ f.deps) :
    (ofDescriptor d).DeclaredBefore name f.name := by
  unfold DeclaredBefore
  rw [staticNames_ofDescriptor]
  exact ((Statics.fieldOrder_ofDescriptor own uniform).sublist hf given).trans
    (List.sublist_append_left _ _)

/-- An adapter that is given a shared codec is declared in front of it. -/
theorem declaredBefore_of_codec (own : String → Bool)
    (uniform : ∀ ty use deps, d.Holds (.adapter ty use deps) → use.viaInstance = own use.adapter)
    (hf : f ∈ (ofDescriptor d).adapters) (given : .codec name ∈ f.deps) :
    (ofDescriptor d).DeclaredBefore f.name name := by
  obtain ⟨shared, hs, rfl⟩ := (Statics.adapted_ofDescriptor own uniform).supplied f hf _ given
  unfold DeclaredBefore
  rw [staticNames_ofDescriptor]
  exact (List.singleton_sublist.mpr (List.mem_map_of_mem hf)).append
    (List.singleton_sublist.mpr (List.mem_map_of_mem hs))

/-- Of two static fields with names of their own, only one is in front. -/
theorem DeclaredBefore.asymm {c : Companion} {a b : String} (h : c.DeclaredBefore a b)
    (distinct : c.staticNames.Nodup) : ¬ c.DeclaredBefore b a := by
  intro h'
  unfold DeclaredBefore at h h'
  generalize c.staticNames = l at h h' distinct
  induction distinct with
  | nil => cases h
  | cons fresh _ ih =>
    cases h with
    | cons _ h =>
      cases h' with
      | cons _ h' => exact ih h h'
      | cons_cons _ h' => exact fresh _ (h.subset (by simp)) rfl
    | cons_cons _ h =>
      cases h' with
      | cons _ h' => exact fresh _ (h'.subset (by simp)) rfl
      | cons_cons _ h' => exact fresh _ (h.subset (by simp)) rfl

end Companion

end ParcelCodec
