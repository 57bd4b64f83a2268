import Mathlib.Data.List.Nodup
import ParcelCodec.Companion.Statics
import ParcelCodec.Proofs.Codec.Makes
import ParcelCodec.Proofs.Keyed
import ParcelCodec.Proofs.NameScope

/-!
# What a companion declares

The shared codecs of a companion have names of their own, every composite property finds its
codec, and whatever is shared stands somewhere in the codecs of the properties.

An adapter is declared after everything that it depends on.  So each of its arguments refers to
something that is there, and whoever uses the adapter finds its field.  The invariant is carried
along the list of required adapters, which is in that order.

Main statements: `exists_shared`, `reaches_refTo` and `supplied_of_mem_adapters`.
-/

namespace ParcelCodec

open DataClass (Descriptor Property)

namespace Statics

/-! ## §1. Declarations are only ever added. -/

/-- Everything that was declared is declared still, and what was found is found still. -/
structure Grows (s s' : Statics) : Prop where
  adapters : ∃ more, s'.adapters = s.adapters ++ more
  codecs : ∃ more, s'.codecs = s.codecs ++ more
  constants : ∀ n ∈ s.constants.taken, n ∈ s'.constants.taken

namespace Grows

theorem refl (s : Statics) : Grows s s :=
  ⟨⟨[], by simp⟩, ⟨[], by simp⟩, fun _ hn => hn⟩

theorem trans {a b c : Statics} (hab : Grows a b) (hbc : Grows b c) : Grows a c := by
  obtain ⟨fields, hf⟩ := hab.adapters
  obtain ⟨fields', hf'⟩ := hbc.adapters
  obtain ⟨codecs, hc⟩ := hab.codecs
  obtain ⟨codecs', hc'⟩ := hbc.codecs
  refine ⟨⟨fields ++ fields', ?_⟩, ⟨codecs ++ codecs', ?_⟩, fun n hn => ?_⟩
  · rw [hf', hf, List.append_assoc]
  · rw [hc', hc, List.append_assoc]
  · exact hbc.constants n (hab.constants n hn)

variable {s s' : Statics}

/-- A shared codec that was found is found later on, by the same name. -/
theorem codec? (h : Grows s s') {ty : JavaType} {name : String} (found : s.codec? ty = some name) :
    s'.codec? ty = some name := by
  obtain ⟨more, hm⟩ := h.codecs
  unfold Statics.codec? at found ⊢
  obtain ⟨x, hx, rfl⟩ := Option.map_eq_some_iff.mp found
  rw [hm, List.find?_append, hx]
  rfl

/-- An adapter that was found is found later on, in the same field. -/
theorem adapter? (h : Grows s s') {use : AdapterUse} {f : AdapterField}
    (found : s.adapter? use = some f) : s'.adapter? use = some f := by
  obtain ⟨more, hm⟩ := h.adapters
  unfold Statics.adapter? at found ⊢
  rw [hm, List.find?_append, found]
  rfl

theorem mem_codecs (h : Grows s s') {x : SharedCodec} (hx : x ∈ s.codecs) : x ∈ s'.codecs := by
  obtain ⟨more, hm⟩ := h.codecs
  rw [hm]
  exact List.mem_append_left more hx

theorem mem_adapters (h : Grows s s') {f : AdapterField} (hf : f ∈ s.adapters) :
    f ∈ s'.adapters := by
  obtain ⟨more, hm⟩ := h.adapters
  rw [hm]
  exact List.mem_append_left more hf

end Grows

/-- Sharing a codec adds a declaration or nothing. -/
theorem grows_share (s : Statics) (c : Codec) : Grows s (s.share c) := by
  unfold share
  split
  · exact Grows.refl s
  · obtain ⟨name, constants, allocated, draws⟩ := s.constants.exists_allocate c.type.constantName
    simp only [allocated]
    exact ⟨⟨[], by simp⟩, ⟨_, rfl⟩, draws.subset⟩

/-- So does sharing what an adapter is given. -/
theorem grows_shareDependency (s : Statics) (d : Dependency) : Grows s (s.shareDependency d) := by
  unfold shareDependency
  split
  · exact Grows.refl s
  · exact Grows.refl s
  · exact grows_share s _

/-- Declaring several things one after another. -/
theorem grows_foldl {α : Type} {declare : Statics → α → Statics}
    (h : ∀ s a, Grows s (declare s a)) (s : Statics) (l : List α) :
    Grows s (l.foldl declare s) := by
  induction l generalizing s with
  | nil => exact Grows.refl s
  | cons a rest ih => exact (h s a).trans (ih (declare s a))

/-- Adding an adapter adds the codecs that it is given, and its field unless it has an instance. -/
theorem grows_addAdapter (s : Statics) (it : AdapterInstance) : Grows s (s.addAdapter it) := by
  unfold addAdapter
  split
  · exact Grows.refl s
  · have shared := grows_foldl grows_shareDependency s it.deps
    obtain ⟨name, constants, allocated, draws⟩ :=
      (it.deps.foldl shareDependency s).constants.exists_allocate it.use.ident
    simp only [allocated]
    exact shared.trans ⟨⟨_, rfl⟩, ⟨[], by simp⟩, draws.subset⟩

/-! ## §2. Shared codecs. -/

/-- The shared codecs have names of their own, and they satisfy a condition. -/
structure Shares (p : Codec → Prop) (s : Statics) : Prop where
  taken : ∀ x ∈ s.codecs, x.name ∈ s.constants.taken
  distinct : (s.codecs.map (·.name)).Nodup
  holds : ∀ x ∈ s.codecs, p x.codec

variable {p : Codec → Prop} {s : Statics}

theorem shares_empty : Shares p empty :=
  ⟨fun _ hx => absurd hx List.not_mem_nil, List.nodup_nil, fun _ hx => absurd hx List.not_mem_nil⟩

/-- A codec that is shared is the only one that can be new. -/
theorem shares_share (h : Shares p s) {c : Codec} (hc : p c) : Shares p (s.share c) := by
  unfold share
  split
  · exact h
  · obtain ⟨name, constants, allocated, draws⟩ := s.constants.exists_allocate c.type.constantName
    simp only [allocated]
    refine ⟨?_, ?_, ?_⟩
    · intro x hx
      rcases List.mem_append.mp hx with hx | hx
      · exact draws.subset _ (h.taken x hx)
      · rw [List.mem_singleton.mp hx]
        exact draws.self_mem
    · rw [List.map_append, List.map_singleton]
      refine List.Nodup.append h.distinct (List.nodup_singleton name) ?_
      rw [List.disjoint_singleton]
      intro hn
      obtain ⟨x, hx, rfl⟩ := List.mem_map.mp hn
      exact draws.new (h.taken x hx)
    · intro x hx
      rcases List.mem_append.mp hx with hx | hx
      · exact h.holds x hx
      · rw [List.mem_singleton.mp hx]
        exact hc

/-- A dependency shares its codec; a token shares nothing. -/
theorem shares_shareDependency (h : Shares p s) {d : Dependency} (hd : ∀ c, d = .codec c → p c) :
    Shares p (s.shareDependency d) := by
  unfold shareDependency
  split
  · exact h
  · exact h
  · exact shares_share h (hd _ rfl)

/-- An adapter shares the codecs that it is given. -/
theorem shares_addAdapter (h : Shares p s) {it : AdapterInstance}
    (hd : ∀ c, .codec c ∈ it.deps → p c) : Shares p (s.addAdapter it) := by
  unfold addAdapter
  split
  · exact h
  · have shared : Shares p (it.deps.foldl shareDependency s) :=
      List.foldlRecOn it.deps shareDependency h fun s hs d mem =>
        shares_shareDependency hs fun c same => hd c (same ▸ mem)
    obtain ⟨name, constants, allocated, draws⟩ :=
      (it.deps.foldl shareDependency s).constants.exists_allocate it.use.ident
    simp only [allocated]
    exact ⟨fun x hx => draws.subset _ (shared.taken x hx), shared.distinct, shared.holds⟩

/-- Sharing a codec declares no adapter. -/
theorem adapters_share (s : Statics) (c : Codec) : (s.share c).adapters = s.adapters := by
  unfold share
  split <;> rfl

theorem adapters_shareDependency (s : Statics) (d : Dependency) :
    (s.shareDependency d).adapters = s.adapters := by
  unfold shareDependency
  split
  · rfl
  · rfl
  · exact adapters_share s _

/-- Declarations that touch no adapters leave the adapters as they were. -/
theorem adapters_foldl {α : Type} {declare : Statics → α → Statics}
    (h : ∀ s a, (declare s a).adapters = s.adapters) (s : Statics) (l : List α) :
    (l.foldl declare s).adapters = s.adapters := by
  induction l generalizing s with
  | nil => rfl
  | cons a rest ih => exact (ih (declare s a)).trans (h s a)

/-- A codec that was shared is found by its type. -/
theorem isSome_codec?_share (s : Statics) (c : Codec) : ((s.share c).codec? c.type).isSome := by
  unfold share
  split
  · next there => exact there
  · obtain ⟨name, constants, allocated, -⟩ := s.constants.exists_allocate c.type.constantName
    simp only [allocated, codec?, Option.isSome_map]
    rw [List.find?_append, List.find?_singleton]
    simp

/-- A codec that is shared among others is found in the end. -/
theorem isSome_codec?_foldl {α : Type} {declare : Statics → α → Statics}
    (grows : ∀ s a, Grows s (declare s a)) {ty : JavaType} {a : α}
    (ha : ∀ s, ((declare s a).codec? ty).isSome) :
    ∀ {l : List α} (s : Statics), a ∈ l → ((l.foldl declare s).codec? ty).isSome
  | b :: rest, s, mem => by
    rw [List.foldl_cons]
    rcases List.mem_cons.mp mem with rfl | mem
    · obtain ⟨name, found⟩ := Option.isSome_iff_exists.mp (ha s)
      rw [(grows_foldl grows _ rest).codec? found]
      rfl
    · exact isSome_codec?_foldl grows ha (declare s b) mem

/-- The shared codec of a type that has one is declared under the name that it is reached by. -/
theorem exists_codecName {ty : JavaType} (h : (s.codec? ty).isSome) :
    ∃ x ∈ s.codecs, x.codec.type = ty ∧ x.name = s.codecName ty := by
  obtain ⟨name, found⟩ := Option.isSome_iff_exists.mp h
  unfold codecName
  rw [found]
  obtain ⟨x, hx, rfl⟩ := Option.map_eq_some_iff.mp found
  obtain ⟨mem, type⟩ := Keyed.of_find? hx
  exact ⟨x, mem, type, rfl⟩

end Statics

/-! ## §3. The adapters that codecs need. -/

open Codec (Part)

/-- An instance of an adapter is listed for a use of it. -/
def Lists (l : List AdapterInstance) (use : AdapterUse) : Prop :=
  ∃ it ∈ l, it.use.adapter = use.adapter ∧ it.use.args = use.args

/-- What is listed stays listed in a longer list. -/
theorem Lists.mono {l l' : List AdapterInstance} {use : AdapterUse} (h : Lists l use)
    (sub : ∀ it ∈ l, it ∈ l') : Lists l' use := by
  obtain ⟨it, hi, same⟩ := h
  exact ⟨it, sub it hi, same⟩

/-- A codec with adapters that stand in it. -/
def Codec.Uses (c : Codec) (use : AdapterUse) : Prop := ∃ ty deps, Part (.adapter ty use deps) c

/-- What an adapter is given needs another adapter. -/
def AdapterInstance.Needs (it : AdapterInstance) (use : AdapterUse) : Prop :=
  ∃ c, .codec c ∈ it.deps ∧ c.Uses use

/-- Each instance stands behind everything that it depends on. -/
inductive DependencyOrder : List AdapterInstance → Prop
  | nil : DependencyOrder []
  | snoc {l : List AdapterInstance} {it : AdapterInstance} (h : DependencyOrder l)
    (deps : ∀ use, it.Needs use → Lists l use) : DependencyOrder (l ++ [it])

/-- The instances for the adapters that stand somewhere were listed besides others. -/
structure Gathers (seen out : List AdapterInstance) (stands : Codec → Prop) : Prop where
  order : DependencyOrder out
  keeps : ∀ it ∈ seen, it ∈ out
  lists : ∀ ty use deps, stands (.adapter ty use deps) → Lists out use
  origin : ∀ it ∈ out, it ∈ seen ∨ ∃ ty, stands (.adapter ty it.use it.deps)

namespace Gathers

variable {seen mid out : List AdapterInstance} {stands stands' : Codec → Prop}

/-- Where no adapters stand, nothing has to be added. -/
theorem refl (h : DependencyOrder seen) (hs : ∀ ty use deps, ¬ stands (.adapter ty use deps)) :
    Gathers seen seen stands :=
  ⟨h, fun _ hi => hi, fun ty use deps hp => absurd hp (hs ty use deps), fun _ hi => .inl hi⟩

/-- What two parts need is gathered one part after the other. -/
theorem trans (h : Gathers seen mid stands) (h' : Gathers mid out stands') :
    Gathers seen out fun c => stands c ∨ stands' c := by
  refine ⟨h'.order, fun it hi => h'.keeps it (h.keeps it hi), fun ty use deps hu => ?_, ?_⟩
  · rcases hu with hu | hu
    · exact (h.lists ty use deps hu).mono h'.keeps
    · exact h'.lists ty use deps hu
  · intro it hi
    rcases h'.origin it hi with hi | ⟨ty, new⟩
    · rcases h.origin it hi with old | ⟨ty, new⟩
      · exact .inl old
      · exact .inr ⟨ty, .inl new⟩
    · exact .inr ⟨ty, .inr new⟩

/-- The same adapters may stand somewhere else. -/
theorem congr (h : Gathers seen out stands)
    (hs : ∀ ty use deps, stands' (.adapter ty use deps) ↔ stands (.adapter ty use deps)) :
    Gathers seen out stands' := by
  refine ⟨h.order, h.keeps, fun ty use deps hu => h.lists ty use deps ((hs ..).mp hu), ?_⟩
  intro it hi
  rcases h.origin it hi with old | ⟨ty, new⟩
  · exact .inl old
  · exact .inr ⟨ty, (hs ..).mpr new⟩

end Gathers

/-- A codec stands in one that an adapter is given. -/
def PartOfDependency (deps : List Dependency) (part : Codec) : Prop :=
  ∃ c, .codec c ∈ deps ∧ Part part c

/-- A part of several dependencies is a part of the first or of one of the others. -/
theorem partOfDependency_cons {deps : List Dependency} {c part : Codec} :
    PartOfDependency (.codec c :: deps) part ↔ Part part c ∨ PartOfDependency deps part := by
  constructor
  · rintro ⟨d, hd, hp⟩
    rcases List.mem_cons.mp hd with same | hd
    · cases same
      exact .inl hp
    · exact .inr ⟨d, hd, hp⟩
  · rintro (hp | ⟨d, hd, hp⟩)
    · exact ⟨c, List.mem_cons_self, hp⟩
    · exact ⟨d, List.mem_cons_of_mem _ hd, hp⟩

mutual

/-- The adapters that a codec needs are listed in the order of their dependencies. -/
theorem gathers_addAdapters : ∀ (c : Codec) {seen : List AdapterInstance}, DependencyOrder seen →
    Gathers seen (c.addAdapters seen) (Part · c)
  | .leaf _ _, _, h => Gathers.refl h fun _ _ _ hp => by cases hp
  | .array _ e, _, h => (gathers_addAdapters e h).congr fun _ _ _ =>
    ⟨fun hp => by cases hp; assumption, .array⟩
  | .sequence _ _ _ e, _, h => (gathers_addAdapters e h).congr fun _ _ _ =>
    ⟨fun hp => by cases hp; assumption, .sequence⟩
  | .sparseArray _ e, _, h => (gathers_addAdapters e h).congr fun _ _ _ =>
    ⟨fun hp => by cases hp; assumption, .sparseArray⟩
  | .map _ _ k v, _, h => by
    have keys := gathers_addAdapters k h
    refine (keys.trans (gathers_addAdapters v keys.order)).congr fun ty use deps => ⟨?_, ?_⟩
    · intro hp
      cases hp with
      | key hp => exact .inl hp
      | value hp => exact .inr hp
    · rintro (hp | hp)
      · exact .key hp
      · exact .value hp
  | .adapter ty use deps, seen, h => by
    have before := gathers_addAdaptersOf deps h
    rw [Codec.addAdapters]
    split
    · next there =>
      -- It is listed already, and so is everything that it depends on.
      obtain ⟨it, hi, same⟩ := List.any_eq_true.mp there
      unfold AdapterInstance.same at same
      simp only [Bool.and_eq_true, beq_iff_eq] at same
      refine ⟨before.order, before.keeps, ?_, fun it' hi' => ?_⟩
      · intro ty' use' deps' hp
        cases hp with
        | refl => exact ⟨it, hi, same.1.symm, same.2.symm⟩
        | dependency hd hp => exact before.lists ty' use' deps' ⟨_, hd, hp⟩
      · rcases before.origin it' hi' with old | ⟨ty', c, hd, hp⟩
        · exact .inl old
        · exact .inr ⟨ty', .dependency hd hp⟩
    · -- It is listed behind its dependencies, which the walk has gathered first.
      refine ⟨before.order.snoc ?_, ?_, ?_, ?_⟩
      · rintro u ⟨c, hd, ty', deps', hp⟩
        exact before.lists ty' u deps' ⟨c, hd, hp⟩
      · exact fun it hi => List.mem_append_left _ (before.keeps it hi)
      · intro ty' use' deps' hp
        cases hp with
        | refl =>
          exact ⟨⟨use, deps⟩, List.mem_append_right _ (List.mem_singleton.mpr rfl), rfl, rfl⟩
        | dependency hd hp =>
          exact (before.lists ty' use' deps' ⟨_, hd, hp⟩).mono fun _ => List.mem_append_left _
      · intro it hi
        rcases List.mem_append.mp hi with hi | hi
        · rcases before.origin it hi with old | ⟨ty', c, hd, hp⟩
          · exact .inl old
          · exact .inr ⟨ty', .dependency hd hp⟩
        · rw [List.mem_singleton.mp hi]
          exact .inr ⟨ty, .refl _⟩

/-- The instances for the codecs that an adapter is given are gathered one codec after another. -/
theorem gathers_addAdaptersOf : ∀ (deps : List Dependency) {seen : List AdapterInstance},
    DependencyOrder seen → Gathers seen (Codec.addAdaptersOf deps seen) (PartOfDependency deps)
  | [], _, h => Gathers.refl h fun _ _ _ ⟨_, hd, _⟩ => absurd hd List.not_mem_nil
  | .codec c :: rest, _, h => by
    have first := gathers_addAdapters c h
    rw [Codec.addAdaptersOf]
    exact (first.trans (gathers_addAdaptersOf rest first.order)).congr fun _ _ _ =>
      partOfDependency_cons
  | .token _ :: rest, _, h => by
    rw [Codec.addAdaptersOf]
    refine (gathers_addAdaptersOf rest h).congr fun _ _ _ => ⟨?_, ?_⟩
    · rintro ⟨c, hd, hp⟩
      rcases List.mem_cons.mp hd with same | hd
      · cases same
      · exact ⟨c, hd, hp⟩
    · rintro ⟨c, hd, hp⟩
      exact ⟨c, List.mem_cons_of_mem _ hd, hp⟩

end

/-- A codec stands in the codec of a property of a class. -/
def DataClass.Descriptor.Holds (d : Descriptor) (c : Codec) : Prop :=
  ∃ p ∈ d.properties, Part c p.codec

/-- The adapters that the properties of a class need are listed in the order of their
dependencies. -/
theorem gathers_requiredAdapters (d : Descriptor) : Gathers [] d.requiredAdapters d.Holds := by
  have run : ∀ (ps : List Property) {seen : List AdapterInstance}, DependencyOrder seen →
      Gathers seen (ps.foldl (fun seen p => p.codec.addAdapters seen) seen)
        fun c => ∃ p ∈ ps, Part c p.codec := by
    intro ps
    induction ps with
    | nil => exact fun h => Gathers.refl h fun _ _ _ ⟨_, hp, _⟩ => absurd hp List.not_mem_nil
    | cons p rest ih =>
      intro seen h
      have first := gathers_addAdapters p.codec h
      rw [List.foldl_cons]
      refine (first.trans (ih first.order)).congr fun ty use deps => ⟨?_, ?_⟩
      · rintro ⟨q, hq, hp⟩
        rcases List.mem_cons.mp hq with rfl | hq
        · exact .inl hp
        · exact .inr ⟨q, hq, hp⟩
      · rintro (hp | ⟨q, hq, hp⟩)
        · exact ⟨p, List.mem_cons_self, hp⟩
        · exact ⟨q, List.mem_cons_of_mem p hq, hp⟩
  exact run d.properties .nil

/-! ## §4. What refers to what. -/

namespace Statics

/-- A reference leads to an adapter that is declared, or to one that needs no declaration. -/
def Reaches (s : Statics) : AdapterRef → Prop
  | .field name => ∃ f ∈ s.adapters, f.name = name
  | .ownInstance _ => True

/-- What an adapter is given is there. -/
def Supplied (s : Statics) : DependencyArg → Prop
  | .adapter ref => s.Reaches ref
  | .codec name => ∃ x ∈ s.codecs, x.name = name
  | .token _ => True

/-- An adapter can be reached. -/
def Covers (s : Statics) (use : AdapterUse) : Prop :=
  use.viaInstance = true ∨ (s.adapter? use).isSome

variable {s s' : Statics}

/-- A reference that reaches its adapter does so later on. -/
theorem Grows.reaches (h : Grows s s') {ref : AdapterRef} (hr : s.Reaches ref) :
    s'.Reaches ref := by
  cases ref with
  | ownInstance => trivial
  | field name =>
    obtain ⟨f, hf, same⟩ := hr
    exact ⟨f, h.mem_adapters hf, same⟩

/-- What an argument refers to stays declared. -/
theorem Grows.supplied (h : Grows s s') {arg : DependencyArg} (ha : s.Supplied arg) :
    s'.Supplied arg := by
  cases arg with
  | adapter ref => exact h.reaches ha
  | token => trivial
  | codec name =>
    obtain ⟨x, hx, same⟩ := ha
    exact ⟨x, h.mem_codecs hx, same⟩

/-- An adapter that is covered stays covered. -/
theorem Grows.covers (h : Grows s s') {use : AdapterUse} (hc : s.Covers use) : s'.Covers use := by
  rcases hc with own | there
  · exact .inl own
  · obtain ⟨f, found⟩ := Option.isSome_iff_exists.mp there
    exact .inr (by rw [h.adapter? found]; rfl)

/-- The reference to an adapter that can be reached leads to it. -/
theorem reaches_refTo {use : AdapterUse} (h : s.Covers use) : s.Reaches (s.refTo use) := by
  unfold refTo
  split
  · trivial
  · next field =>
    obtain ⟨f, found⟩ := Option.isSome_iff_exists.mp (h.resolve_left field)
    exact ⟨f, List.mem_of_find?_eq_some found, by rw [found]; rfl⟩

/-- The shared codec that an adapter is given is there when the adapter is declared. -/
theorem isSome_codec?_dependencies {deps : List Dependency} {c : Codec} (hd : .codec c ∈ deps)
    (plain : ∀ ty use ds, c ≠ .adapter ty use ds) (s : Statics) :
    ((deps.foldl shareDependency s).codec? c.type).isSome := by
  refine isSome_codec?_foldl grows_shareDependency (a := .codec c) (fun s => ?_) s hd
  cases c with
  | adapter ty use ds => exact absurd rfl (plain ty use ds)
  | _ => exact isSome_codec?_share s _

/-- The codecs that an adapter is given are shared before its field is declared. -/
theorem supplied_argFor {deps : List Dependency} {d : Dependency} (hd : d ∈ deps)
    (covers : ∀ c, d = .codec c → ∀ use, c.Uses use → s.Covers use) :
    (deps.foldl shareDependency s).Supplied ((deps.foldl shareDependency s).argFor d) := by
  have grows := grows_foldl grows_shareDependency s deps
  unfold argFor
  split
  · trivial
  · exact reaches_refTo (grows.covers (covers _ rfl _ ⟨_, _, .refl _⟩))
  · next c plain =>
    obtain ⟨x, hx, -, name⟩ := exists_codecName (isSome_codec?_dependencies hd plain s)
    exact ⟨x, hx, name⟩

/-- The adapters that were declared so far can be reached, and what they are given is there. -/
structure Adapted (s : Statics) (done : List AdapterInstance) : Prop where
  covers : ∀ it ∈ done, s.Covers it.use
  supplied : ∀ f ∈ s.adapters, ∀ arg ∈ f.deps, s.Supplied arg

/-- Declaring an adapter behind everything that it depends on. -/
theorem adapted_addAdapter {done : List AdapterInstance} {it : AdapterInstance}
    (h : Adapted s done) (deps : ∀ use, it.Needs use → s.Covers use) :
    Adapted (s.addAdapter it) (done ++ [it]) := by
  have old : ∀ it' ∈ done, (s.addAdapter it).Covers it'.use := fun it' hi =>
    (grows_addAdapter s it).covers (h.covers it' hi)
  unfold addAdapter at old ⊢
  split
  · next there =>
    refine ⟨fun it' hi => ?_, h.supplied⟩
    rcases List.mem_append.mp hi with hi | hi
    · exact h.covers it' hi
    · rw [List.mem_singleton.mp hi]
      simpa [Covers] using there
  · next new =>
    rw [if_neg new] at old
    -- First its composite dependencies are shared, then the field is added behind all others.
    have before := grows_foldl grows_shareDependency s it.deps
    have unchanged := adapters_foldl adapters_shareDependency s it.deps
    have args : ∀ d ∈ it.deps, (it.deps.foldl shareDependency s).Supplied
        ((it.deps.foldl shareDependency s).argFor d) := fun d hd =>
      supplied_argFor hd fun c same use hu => deps use ⟨c, same ▸ hd, hu⟩
    generalize it.deps.foldl shareDependency s = t at *
    obtain ⟨name, constants, allocated, draws⟩ := t.constants.exists_allocate it.use.ident
    simp only [allocated] at old ⊢
    have after : Grows t ⟨constants, t.adapters ++ [⟨name, it.use.adapter, it.use.args,
        it.deps.map t.argFor⟩], t.codecs⟩ :=
      ⟨⟨_, rfl⟩, ⟨[], (List.append_nil _).symm⟩, draws.subset⟩
    refine ⟨fun it' hi => ?_, fun f hf arg ha => ?_⟩
    · rcases List.mem_append.mp hi with hi | hi
      · exact old it' hi
      · rw [List.mem_singleton.mp hi]
        right
        unfold adapter?
        rw [List.find?_isSome]
        exact ⟨_, List.mem_append_right _ (List.mem_singleton.mpr rfl), by simp⟩
    · rcases List.mem_append.mp hf with hf | hf
      · exact (before.trans after).supplied (h.supplied f (unchanged ▸ hf) arg ha)
      · rw [List.mem_singleton.mp hf] at ha
        obtain ⟨d, hd, rfl⟩ := List.mem_map.mp ha
        exact after.supplied (args d hd)

/-- An adapter that is listed for a use can be reached for that use, if adapters either have own
instances or do not. -/
theorem covers_of_lists (own : String → Bool) {done : List AdapterInstance} (h : Adapted s done)
    (uniform : ∀ it ∈ done, it.use.viaInstance = own it.use.adapter) {use : AdapterUse}
    (hu : use.viaInstance = own use.adapter) (listed : Lists done use) : s.Covers use := by
  obtain ⟨it, hi, adapter, args⟩ := listed
  rcases h.covers it hi with via | there
  · exact .inl (by rw [hu, ← adapter, ← uniform it hi, via])
  · refine .inr ?_
    unfold adapter? at there ⊢
    rwa [← adapter, ← args]

/-- Declaring adapters in the order of their dependencies. -/
theorem adapted_foldl (own : String → Bool) {l : List AdapterInstance} (h : DependencyOrder l)
    (uniform : ∀ it ∈ l, it.use.viaInstance = own it.use.adapter)
    (uses : ∀ it ∈ l, ∀ use, it.Needs use → use.viaInstance = own use.adapter) :
    Adapted (l.foldl addAdapter empty) l := by
  induction h with
  | nil => exact ⟨fun _ hi => absurd hi List.not_mem_nil, fun _ hf => absurd hf List.not_mem_nil⟩
  | @snoc l it _ deps ih =>
    have sub : ∀ it' ∈ l, it' ∈ l ++ [it] := fun _ hi => List.mem_append_left _ hi
    have before := ih (fun it' hi => uniform it' (sub it' hi)) fun it' hi => uses it' (sub it' hi)
    rw [List.foldl_append, List.foldl_cons, List.foldl_nil]
    refine adapted_addAdapter before fun use hu => ?_
    exact covers_of_lists own before (fun it' hi => uniform it' (sub it' hi))
      (uses it (List.mem_append_right _ (List.mem_singleton.mpr rfl)) use hu) (deps use hu)

/-! ## §5. The declarations of a class. -/

variable {d : Descriptor}

/-- Shares a codec if it is composite. -/
theorem grows_shareComposite (s : Statics) (c : Codec) :
    Grows s (if c.isComposite then s.share c else s) := by
  split
  · exact grows_share s c
  · exact Grows.refl s

/-- Sharing a property's codec declares no adapter. -/
theorem adapters_shareComposite (s : Statics) (c : Codec) :
    (if c.isComposite then s.share c else s).adapters = s.adapters := by
  split
  · exact adapters_share s c
  · rfl

/-- The shared codecs of a class have names of their own and stand in its properties. -/
theorem shares_ofDescriptor (d : Descriptor) : Shares d.Holds (ofDescriptor d) := by
  have adapters : Shares d.Holds (d.requiredAdapters.foldl addAdapter empty) := by
    refine List.foldlRecOn _ addAdapter shares_empty fun s hs it mem => ?_
    refine shares_addAdapter hs fun c hc => ?_
    rcases (gathers_requiredAdapters d).origin it mem with old | ⟨ty, p, hp, part⟩
    · exact absurd old List.not_mem_nil
    · exact ⟨p, hp, Part.trans (.dependency hc (.refl c)) part⟩
  refine List.foldlRecOn _ _ adapters fun s hs c mem => ?_
  obtain ⟨p, hp, rfl⟩ := List.mem_map.mp mem
  split
  · exact shares_share hs ⟨p, hp, .refl _⟩
  · exact hs

/-- The codec of a composite property is shared. -/
theorem isSome_codec?_ofDescriptor {p : Property} (hp : p ∈ d.properties)
    (composite : p.codec.isComposite = true) : ((ofDescriptor d).codec? p.codec.type).isSome := by
  refine isSome_codec?_foldl grows_shareComposite (a := p.codec) (fun s => ?_) _
    (List.mem_map_of_mem hp)
  rw [if_pos composite]
  exact isSome_codec?_share s p.codec

/-- A composite property finds its shared codec. -/
theorem exists_shared {b : Codebook} (made : ∀ p ∈ d.properties, b.Makes p.codec.type p.codec)
    {p : Property} (hp : p ∈ d.properties) (composite : p.codec.isComposite = true) :
    ∃ x ∈ (ofDescriptor d).codecs, x.name = (ofDescriptor d).codecName p.type
      ∧ x.codec = p.codec := by
  obtain ⟨x, hx, type, name⟩ := exists_codecName (isSome_codec?_ofDescriptor hp composite)
  obtain ⟨q, hq, part⟩ := (shares_ofDescriptor d).holds x hx
  -- Both codecs are made of one type, so they are one codec.
  have here := (made q hq).part part
  rw [type] at here
  exact ⟨x, hx, name, here.unique (made p hp)⟩

section Uniform

variable {own : String → Bool}
  (uniform : ∀ ty use deps, d.Holds (.adapter ty use deps) → use.viaInstance = own use.adapter)

include uniform

/-- Whether an adapter that is required is used through its instance hangs on its name only. -/
theorem viaInstance_of_required {it : AdapterInstance} (hi : it ∈ d.requiredAdapters) :
    it.use.viaInstance = own it.use.adapter := by
  obtain ⟨ty, holds⟩ := ((gathers_requiredAdapters d).origin it hi).resolve_left List.not_mem_nil
  exact uniform ty it.use it.deps holds

/-- So it does for an adapter that another one is given. -/
theorem viaInstance_of_needs {it : AdapterInstance} (hi : it ∈ d.requiredAdapters)
    {use : AdapterUse} (hu : it.Needs use) : use.viaInstance = own use.adapter := by
  obtain ⟨ty, p, hp, part⟩ :=
    ((gathers_requiredAdapters d).origin it hi).resolve_left List.not_mem_nil
  obtain ⟨c, hc, ty', deps, inside⟩ := hu
  exact uniform ty' use deps ⟨p, hp, Part.trans (.dependency hc inside) part⟩

end Uniform

/-- The adapters of a class can be reached, and what they are given is there. -/
theorem adapted_ofDescriptor (own : String → Bool)
    (uniform : ∀ ty use deps, d.Holds (.adapter ty use deps) → use.viaInstance = own use.adapter) :
    Adapted (ofDescriptor d) d.requiredAdapters := by
  have adapters : Adapted (d.requiredAdapters.foldl addAdapter empty) d.requiredAdapters :=
    adapted_foldl own (gathers_requiredAdapters d).order
      (fun it hi => viaInstance_of_required uniform hi)
      fun it hi use hu => viaInstance_of_needs uniform hi hu
  have grows := grows_foldl grows_shareComposite (d.requiredAdapters.foldl addAdapter empty)
    (d.properties.map (·.codec))
  refine ⟨fun it hi => grows.covers (adapters.covers it hi), fun f hf arg ha => ?_⟩
  have same : (ofDescriptor d).adapters = _ := adapters_foldl adapters_shareComposite _ _
  exact grows.supplied (adapters.supplied f (same ▸ hf) arg ha)

/-- Every adapter that stands in a property can be reached. -/
theorem covers_of_holds (own : String → Bool)
    (uniform : ∀ ty use deps, d.Holds (.adapter ty use deps) → use.viaInstance = own use.adapter)
    {ty : JavaType} {use : AdapterUse} {deps : List Dependency}
    (h : d.Holds (.adapter ty use deps)) : (ofDescriptor d).Covers use :=
  covers_of_lists own (adapted_ofDescriptor own uniform)
    (fun _ hi => viaInstance_of_required uniform hi) (uniform ty use deps h)
    ((gathers_requiredAdapters d).lists ty use deps h)

end Statics

end ParcelCodec
