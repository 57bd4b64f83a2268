import ParcelCodec.Companion.Desk
import ParcelCodec.Proofs.Alongside
import ParcelCodec.Proofs.Companion.StaticFields

/-!
# Declarations one after another

The static declarations of a companion are made one after another.  Each draws a name that nothing
else has, and a codec is only declared where its type has none.  That is all there is to know of
how they come about: types and names stay apart by induction on the declarations.

The adapters that a class needs are listed once each, behind everything that they depend on, if one
name with the same type arguments is always one instance.  The fields are declared along this list
and stand beside it.

Main statements: `Declared.types`, `arranged_requiredAdapters` and `fields_foldl`.
-/

namespace ParcelCodec

open DataClass (Descriptor Property)
open Codec (Part)

namespace Statics

/-! ## §1. What any declarations satisfy. -/

/-- Declarations that were made one after another, each under a name that was drawn for it. -/
inductive Declared : Statics → Prop
  | empty : Declared empty
  | codec {s : Statics} {name : String} {constants : NameScope} {c : Codec} (h : Declared s)
    (new : s.codec? c.type = none) (draws : s.constants.Draws name constants) :
    Declared ⟨constants, s.adapters, s.codecs ++ [⟨name, c⟩]⟩
  | adapter {s : Statics} {f : AdapterField} {constants : NameScope} (h : Declared s)
    (draws : s.constants.Draws f.name constants) :
    Declared ⟨constants, s.adapters ++ [f], s.codecs⟩

variable {s final : Statics}

/-- Sharing a codec keeps names and types apart: the name is drawn, and the type is new. -/
theorem declared_share (h : Declared s) (c : Codec) : Declared (s.share c) := by
  unfold share
  split
  · exact h
  · next missing =>
    obtain ⟨name, constants, allocated, draws⟩ := s.constants.exists_allocate c.type.constantName
    simp only [allocated]
    rw [Bool.not_eq_true, Option.isSome_eq_false_iff, Option.isNone_iff_eq_none] at missing
    exact .codec h missing draws

/-- So does sharing what an adapter is given. -/
theorem declared_shareDependency (h : Declared s) (d : Dependency) :
    Declared (s.shareDependency d) := by
  unfold shareDependency
  split
  · exact h
  · exact h
  · exact declared_share h _

/-- So do all dependencies of an adapter. -/
theorem declared_dependencies (h : Declared s) (deps : List Dependency) :
    Declared (deps.foldl shareDependency s) :=
  List.foldlRecOn deps shareDependency h fun _ hs d _ => declared_shareDependency hs d

/-- A field draws its name from the same scope. -/
theorem declared_addAdapter (h : Declared s) (it : AdapterInstance) :
    Declared (s.addAdapter it) := by
  unfold addAdapter
  split
  · exact h
  · obtain ⟨name, constants, allocated, draws⟩ :=
      (it.deps.foldl shareDependency s).constants.exists_allocate it.use.ident
    simp only [allocated]
    exact .adapter (declared_dependencies h it.deps) draws

/-- Whatever adapters are added, names and types stay apart. -/
theorem declared_adapters (l : List AdapterInstance) : Declared (l.foldl addAdapter empty) :=
  List.foldlRecOn l addAdapter .empty fun _ hs it _ => declared_addAdapter hs it

/-- Sharing a codec if it is composite declares it or changes nothing. -/
theorem declared_shareComposite (h : Declared s) (c : Codec) :
    Declared (if c.isComposite then s.share c else s) := by
  split
  · exact declared_share h c
  · exact h

/-- The declarations of a class keep names and types apart. -/
theorem declared_ofDescriptor (d : Descriptor) : Declared (ofDescriptor d) := by
  unfold ofDescriptor
  exact List.foldlRecOn _ _ (declared_adapters d.requiredAdapters)
    fun _ hs c _ => declared_shareComposite hs c

/-- The shared codecs are for different types. -/
theorem Declared.types (h : Declared s) : (s.codecs.map (·.codec.type)).Nodup := by
  induction h with
  | empty => exact List.nodup_nil
  | adapter _ _ ih => exact ih
  | @codec s name _ c _ new _ ih =>
    dsimp only
    rw [List.map_append, List.map_singleton]
    refine ih.append (List.nodup_singleton _) (List.disjoint_singleton.mpr fun again => ?_)
    obtain ⟨x, hx, same⟩ := List.mem_map.mp again
    unfold codec? at new
    rw [Option.map_eq_none_iff, List.find?_eq_none] at new
    exact new x hx (beq_iff_eq.mpr same)

/-- The names that no declaration may have. -/
def reserved : List String := NameScope.constants.taken

/-- The names of public constants are taken from the start. -/
theorem Declared.reserved_taken (h : Declared s) : ∀ n ∈ reserved, n ∈ s.constants.taken := by
  induction h with
  | empty => exact fun _ hn => hn
  | codec _ _ draws ih => exact fun n hn => draws.subset n (ih n hn)
  | adapter _ draws ih => exact fun n hn => draws.subset n (ih n hn)

/-- No declaration has a reserved name. -/
theorem Declared.not_reserved (h : Declared s) : ∀ n ∈ s.names, n ∉ reserved := by
  unfold names
  induction h with
  | empty => exact nofun
  | @codec s name constants c h _ draws ih =>
    intro n hn held
    rw [List.map_append, ← List.append_assoc] at hn
    rcases List.mem_append.mp hn with old | new
    · exact ih n old held
    · rw [List.mem_singleton.mp new] at held
      exact draws.new (h.reserved_taken name held)
  | @adapter s f constants h draws ih =>
    intro n hn held
    rw [List.map_append, List.append_assoc] at hn
    rcases List.mem_append.mp hn with old | more
    · exact ih n (List.mem_append_left _ old) held
    · rcases List.mem_append.mp more with new | old
      · rw [List.mem_singleton.mp new] at held
        exact draws.new (h.reserved_taken f.name held)
      · exact ih n (List.mem_append_right _ old) held

/-! ## §2. What is declared later changes nothing. -/

/-- An adapter that is covered is referred to in the same way later on. -/
theorem Grows.refTo (grows : Grows s final) {use : AdapterUse} (covers : s.Covers use) :
    s.refTo use = final.refTo use := by
  unfold Statics.refTo
  split
  · rfl
  · next field =>
    obtain ⟨f, found⟩ := Option.isSome_iff_exists.mp (covers.resolve_left field)
    rw [found, grows.adapter? found]

/-- A shared codec that is there keeps its name. -/
theorem Grows.codecName (grows : Grows s final) {ty : JavaType} (there : (s.codec? ty).isSome) :
    s.codecName ty = final.codecName ty := by
  obtain ⟨name, found⟩ := Option.isSome_iff_exists.mp there
  unfold Statics.codecName
  rw [found, grows.codec? found]

/-- An adapter keeps what it is given when it is declared. -/
theorem Grows.argFor {deps : List Dependency}
    (grows : Grows (deps.foldl shareDependency s) final)
    (covers : ∀ ty use ds, .codec (.adapter ty use ds) ∈ deps → s.Covers use) :
    deps.map (deps.foldl shareDependency s).argFor = deps.map final.argFor := by
  refine List.map_congr_left fun d hd => ?_
  unfold Statics.argFor
  split
  · rfl
  · next ty use ds =>
    have there := (grows_foldl grows_shareDependency s deps).covers (covers ty use ds hd)
    rw [grows.refTo there]
  · next c plain =>
    have there := isSome_codec?_dependencies hd
      (fun ty use ds same => plain ty use ds same) s
    rw [grows.codecName there]

end Statics

/-! ## §3. The adapters that a class needs. -/

/-- An instance of an adapter is given another one, or something that needs it. -/
def AdapterInstance.DependsOn (it other : AdapterInstance) : Prop :=
  ∃ ty, PartOfDependency it.deps (.adapter ty other.use other.deps)

/-- What an adapter depends on stands in a codec that it is given. -/
theorem AdapterInstance.DependsOn.needs {it other : AdapterInstance} (h : it.DependsOn other) :
    it.Needs other.use := by
  obtain ⟨ty, c, hc, part⟩ := h
  exact ⟨c, hc, ty, other.deps, part⟩

/-- Instances that stand behind everything that they depend on, once each. -/
inductive Arranged : List AdapterInstance → Prop
  | nil : Arranged []
  | snoc {l : List AdapterInstance} {it : AdapterInstance} (h : Arranged l)
    (new : it.use.key ∉ l.map (·.use.key)) (deps : ∀ other, it.DependsOn other → other ∈ l) :
    Arranged (l ++ [it])

namespace Arranged

variable {l : List AdapterInstance}

/-- Arranged adapters have keys of their own. -/
theorem nodup (h : Arranged l) : (l.map (·.use.key)).Nodup := by
  induction h with
  | nil => exact List.nodup_nil
  | snoc _ new _ ih =>
    rw [List.map_append, List.map_singleton]
    exact ih.append (List.nodup_singleton _) (List.disjoint_singleton.mpr new)

/-- Everything that an instance depends on stands in front of it. -/
theorem mem_front (h : Arranged l) : ∀ front it back, l = front ++ it :: back →
    ∀ other, it.DependsOn other → other ∈ front := by
  induction h with
  | nil =>
    intro front it back split
    cases front <;> cases split
  | @snoc l last _ _ deps ih =>
    intro front it back split other depends
    rcases List.eq_nil_or_concat back with rfl | ⟨back, end', rfl⟩
    · obtain ⟨rfl, same⟩ := List.append_inj' split rfl
      cases same
      exact deps other depends
    · -- The instance is not the last one.
      have shorter : l ++ [last] = (front ++ it :: back) ++ [end'] := by
        rw [split, List.append_assoc, List.cons_append, List.concat_eq_append]
      exact ih front it back (List.append_inj' shorter rfl).1 other depends

end Arranged

/-- The key of a use is the name of its adapter with the type arguments. -/
theorem AdapterUse.key_eq_iff {use other : AdapterUse} :
    use.key = other.key ↔ use.adapter = other.adapter ∧ use.args = other.args :=
  Prod.mk.injEq .. ▸ Iff.rfl

/-- Instances in the order of their dependencies are arranged, if each key is one instance. -/
theorem DependencyOrder.arranged {l : List AdapterInstance} (h : DependencyOrder l)
    (nodup : (l.map (·.use.key)).Nodup)
    (exact' : ∀ it ∈ l, ∀ other, it.DependsOn other → ∀ it' ∈ l, it'.use.key = other.use.key →
      it' = other) : Arranged l := by
  induction h with
  | nil => exact .nil
  | @snoc l it _ deps ih =>
    rw [List.map_append, List.map_singleton, List.nodup_append] at nodup
    obtain ⟨distinct, -, apart⟩ := nodup
    have last : it ∈ l ++ [it] := List.mem_append_right l List.mem_cons_self
    refine .snoc (ih distinct fun a ha other depends b hb same => ?_) (fun again => ?_) ?_
    · exact exact' a (List.mem_append_left _ ha) other depends b (List.mem_append_left _ hb) same
    · exact apart _ again _ List.mem_cons_self rfl
    · intro other depends
      obtain ⟨it', there, adapter, args⟩ := deps other.use depends.needs
      have same := exact' it last other depends it' (List.mem_append_left _ there)
        (AdapterUse.key_eq_iff.mpr ⟨adapter, args⟩)
      exact same ▸ there

/-- An instance that is the same as none has a key that none has. -/
theorem not_mem_keys_of_same {use : AdapterUse} {deps : List Dependency}
    {seen : List AdapterInstance}
    (new : ¬ seen.any (AdapterInstance.same ⟨use, deps⟩) = true) :
    use.key ∉ seen.map (·.use.key) := by
  intro again
  obtain ⟨it, hi, key⟩ := List.mem_map.mp again
  obtain ⟨adapter, args⟩ := AdapterUse.key_eq_iff.mp key
  refine new (List.any_eq_true.mpr ⟨it, hi, ?_⟩)
  unfold AdapterInstance.same
  rw [Bool.and_eq_true, beq_iff_eq, beq_iff_eq]
  exact ⟨adapter.symm, args.symm⟩

mutual

/-- Collecting adapters lists none twice. -/
theorem nodup_addAdapters : ∀ (c : Codec) {seen : List AdapterInstance},
    (seen.map (·.use.key)).Nodup → ((c.addAdapters seen).map (·.use.key)).Nodup
  | .leaf _ _, _, h => h
  | .array _ e, _, h => nodup_addAdapters e h
  | .sequence _ _ _ e, _, h => nodup_addAdapters e h
  | .sparseArray _ e, _, h => nodup_addAdapters e h
  | .map _ _ k v, _, h => nodup_addAdapters v (nodup_addAdapters k h)
  | .adapter _ use deps, _, h => by
    have before := nodup_addAdaptersOf deps h
    rw [Codec.addAdapters]
    split
    · exact before
    · next new =>
      rw [List.map_append, List.map_singleton]
      exact before.append (List.nodup_singleton _)
        (List.disjoint_singleton.mpr (not_mem_keys_of_same new))

/-- Gathering what an adapter is given keeps the keys apart. -/
theorem nodup_addAdaptersOf : ∀ (deps : List Dependency) {seen : List AdapterInstance},
    (seen.map (·.use.key)).Nodup → ((Codec.addAdaptersOf deps seen).map (·.use.key)).Nodup
  | [], _, h => h
  | .codec c :: rest, _, h => nodup_addAdaptersOf rest (nodup_addAdapters c h)
  | .token _ :: rest, _, h => nodup_addAdaptersOf rest h

end

variable {d : Descriptor}

/-- Every adapter that a class requires is required once. -/
theorem nodup_requiredAdapters (d : Descriptor) : (d.requiredAdapters.map (·.use.key)).Nodup := by
  have run : ∀ (ps : List Property) {seen : List AdapterInstance}, (seen.map (·.use.key)).Nodup →
      ((ps.foldl (fun seen p => p.codec.addAdapters seen) seen).map (·.use.key)).Nodup := by
    intro ps
    induction ps with
    | nil => exact id
    | cons p rest ih => exact fun h => ih (nodup_addAdapters p.codec h)
  exact run d.properties List.nodup_nil

/-- Adapters of one key stand in the codecs of a class as one instance. -/
def OneInstanceEach (d : Descriptor) : Prop :=
  ∀ ty ty' (it it' : AdapterInstance), d.Holds (.adapter ty it.use it.deps) →
    d.Holds (.adapter ty' it'.use it'.deps) → it.use.key = it'.use.key → it = it'

/-- A class needs the instances of adapters that stand in its codecs, and no others. -/
theorem mem_requiredAdapters (one : OneInstanceEach d) {it : AdapterInstance} :
    it ∈ d.requiredAdapters ↔ ∃ ty, d.Holds (.adapter ty it.use it.deps) := by
  have gathers := gathers_requiredAdapters d
  constructor
  · intro hi
    exact (gathers.origin it hi).resolve_left List.not_mem_nil
  · rintro ⟨ty, holds⟩
    obtain ⟨it', there, adapter, args⟩ := gathers.lists ty it.use it.deps holds
    obtain ⟨ty', holds'⟩ := (gathers.origin it' there).resolve_left List.not_mem_nil
    have same := one ty' ty it' it holds' holds (AdapterUse.key_eq_iff.mpr ⟨adapter, args⟩)
    exact same ▸ there

/-- The adapters that a class requires are arranged, if each name with its type arguments stands for
one instance. -/
theorem arranged_requiredAdapters (one : OneInstanceEach d) : Arranged d.requiredAdapters := by
  refine (gathers_requiredAdapters d).order.arranged (nodup_requiredAdapters d) ?_
  intro it hi other ⟨ty, c, hc, part⟩ it' hi' same
  obtain ⟨_, p, hp, inside⟩ := (mem_requiredAdapters one).mp hi
  obtain ⟨ty', holds'⟩ := (mem_requiredAdapters one).mp hi'
  exact one ty' ty it' other holds' ⟨p, hp, part.trans (.trans (.dependency hc (.refl c)) inside)⟩
    same

/-! ## §4. The fields of the adapters. -/

/-- A field is for an instance of an adapter. -/
structure AdapterField.IsFor (final : Statics) (it : AdapterInstance) (f : AdapterField) :
    Prop where
  adapter : f.adapter = it.use.adapter
  args : f.args = it.use.args
  deps : f.deps = it.deps.map final.argFor

namespace Statics

variable {s final : Statics} {l : List AdapterInstance}

/-- The fields that were declared for adapters so far. -/
def Fields (final : Statics) (l : List AdapterInstance) (s : Statics) : Prop :=
  List.Forall₂ (AdapterField.IsFor final) (l.filter (!·.use.viaInstance)) s.adapters

/-- An adapter with a field, or with an instance of its own, is covered. -/
theorem Fields.covers (h : Fields final l s) {it : AdapterInstance} (hi : it ∈ l) :
    s.Covers it.use := by
  by_cases via : it.use.viaInstance = true
  · exact .inl via
  · right
    rw [Bool.not_eq_true] at via
    obtain ⟨f, hf, isFor⟩ := Alongside.exists_right h it
      (List.mem_filter.mpr ⟨hi, by rw [via]; rfl⟩)
    unfold adapter?
    rw [List.find?_isSome]
    exact ⟨f, hf, by rw [isFor.adapter, isFor.args, beq_self_eq_true, beq_self_eq_true]; rfl⟩

/-- An adapter that was not added has no field. -/
theorem Fields.adapter?_eq_none (h : Fields final l s) {use : AdapterUse}
    (new : use.key ∉ l.map (·.use.key)) : s.adapter? use = none := by
  unfold adapter?
  rw [List.find?_eq_none]
  intro f hf same
  rw [Bool.and_eq_true, beq_iff_eq, beq_iff_eq] at same
  obtain ⟨it, hi, isFor⟩ := Alongside.exists_left h f hf
  refine new (List.mem_map.mpr ⟨it, (List.mem_filter.mp hi).1, ?_⟩)
  exact AdapterUse.key_eq_iff.mpr ⟨isFor.adapter.symm.trans same.1, isFor.args.symm.trans same.2⟩

/-- The declarations with the field of one more adapter, which was given what it depends on. -/
def withField (t : Statics) (it : AdapterInstance) : Statics :=
  ⟨t.constants.drawn it.use.ident,
    t.adapters ++ [⟨t.constants.fresh it.use.ident, it.use.adapter, it.use.args,
      it.deps.map t.argFor⟩],
    t.codecs⟩

/-- A field is one declaration more. -/
theorem grows_withField (t : Statics) (it : AdapterInstance) : Grows t (t.withField it) :=
  ⟨⟨_, rfl⟩, ⟨[], (List.append_nil _).symm⟩, fun _ hn => NameScope.mem_drawn _ _ hn⟩

/-- An adapter that is new has its field added, with a name behind those of what it is given. -/
theorem addAdapter_of_new {it : AdapterInstance} (via : it.use.viaInstance = false)
    (new : s.adapter? it.use = none) :
    s.addAdapter it = (it.deps.foldl shareDependency s).withField it := by
  unfold addAdapter
  rw [via, new]
  rfl

/-- An adapter that is new is reached through the field that was added. -/
theorem refTo_of_new {it : AdapterInstance} (via : it.use.viaInstance = false)
    (new : s.adapter? it.use = none)
    (grows : Grows ((it.deps.foldl shareDependency s).withField it) final) :
    final.refTo it.use
      = .field ((it.deps.foldl shareDependency s).constants.fresh it.use.ident) := by
  have unchanged := adapters_foldl adapters_shareDependency s it.deps
  have found : ((it.deps.foldl shareDependency s).withField it).adapter? it.use
      = some ⟨(it.deps.foldl shareDependency s).constants.fresh it.use.ident, it.use.adapter,
        it.use.args, it.deps.map (it.deps.foldl shareDependency s).argFor⟩ := by
    unfold adapter? at new
    unfold adapter? withField
    rw [List.find?_append, unchanged, new, List.find?_singleton, beq_self_eq_true,
      beq_self_eq_true]
    rfl
  unfold refTo
  rw [via, grows.adapter? found]
  rfl

/-- An adapter with an instance of its own adds nothing. -/
theorem addAdapter_of_via {it : AdapterInstance} (via : it.use.viaInstance = true) :
    s.addAdapter it = s := by
  unfold addAdapter
  rw [via, Bool.true_or, if_pos rfl]

/-- Arranged adapters have their fields declared in their order, except those that are used through
their own instances. -/
theorem fields_foldl (h : Arranged l) (grows : Grows (l.foldl addAdapter empty) final) :
    Fields final l (l.foldl addAdapter empty) := by
  induction h with
  | nil => exact .nil
  | @snoc l it h new deps ih =>
    rw [List.foldl_append, List.foldl_cons, List.foldl_nil] at grows ⊢
    generalize l.foldl addAdapter empty = s at grows ih ⊢
    have before := ih ((grows_addAdapter s it).trans grows)
    unfold Fields
    rw [List.filter_append]
    by_cases via : it.use.viaInstance = true
    · rw [addAdapter_of_via via, List.filter_singleton, via]
      exact (List.append_nil (l.filter _)).symm ▸ before
    · rw [Bool.not_eq_true] at via
      have unchanged := adapters_foldl adapters_shareDependency s it.deps
      rw [addAdapter_of_new via (before.adapter?_eq_none new)] at grows ⊢
      have covers : ∀ ty use ds, .codec (.adapter ty use ds) ∈ it.deps → s.Covers use := by
        intro ty use ds hd
        exact before.covers (deps ⟨use, ds⟩ ⟨ty, _, hd, .refl _⟩)
      have args := ((grows_withField _ it).trans grows).argFor covers
      unfold withField
      rw [List.filter_singleton, via, unchanged]
      exact List.rel_append before (.cons ⟨rfl, rfl, args⟩ .nil)

end Statics

end ParcelCodec
