import ParcelCodec.Proofs.Companion.Declared

/-!
# Writing on demand comes to what was planned

A companion that is written on demand is the one whose static declarations are settled first.  At
every moment the desk holds the declarations made so far, and each step leads to the desk that holds
the next ones.  What is on the desk already refers to its adapters as they are reached in the end,
since declarations are only ever added.

The invariant is that the adapters of whatever is written lie on the desk.  They do, because the
adapters are registered in the order of their dependencies; so coming upon a shared codec never
registers an adapter.

Main statement: `companion_eq`.
-/

namespace ParcelCodec.Desk

open DataClass (Descriptor Property)
open Codec (Part)
open Statics (Declared Grows Fields)

/-! ## §1. Steps that change nothing. -/

/-- After a step the work goes on with its answer, at the desk that it left. -/
theorem bind_eq {α β : Type} {step : StateM Desk α} {next : α → StateM Desk β} {desk desk' : Desk}
    {a : α} (h : step desk = (a, desk')) : (step >>= next) desk = next a desk' := by
  show (match step desk with | (a, desk) => next a desk) = _
  rw [h]

/-- Looking at the desk leaves it as it is. -/
theorem get_bind {α : Type} (next : Desk → StateM Desk α) (desk : Desk) :
    (get >>= next) desk = next desk desk := rfl

theorem modify_bind {α : Type} (f : Desk → Desk) (next : PUnit → StateM Desk α) (desk : Desk) :
    (modify f >>= next) desk = next ⟨⟩ (f desk) := rfl

/-- A name that is drawn is free, and taken from then on. -/
theorem draw_bind {α : Type} (base : String) (next : String → StateM Desk α) (desk : Desk) :
    (draw base >>= next) desk = next (desk.constants.fresh base)
      { desk with constants := desk.constants.drawn base } := rfl

section Fixed

variable {desk : Desk}

/-- A container is read as it was planned, if its elements are and leave the desk alone. -/
theorem readContainer_eq {kind : ContainerKind} {concrete : JavaType} {sized : Bool}
    {scope : NameScope} {element : String → NameScope → StateM Desk (List Stmt)}
    {planned : String → NameScope → List Stmt}
    (h : ∀ target scope, element target scope desk = (planned target scope, desk)) :
    readContainer kind concrete sized scope element desk
      = (Surroundings.readContainer kind concrete sized scope planned, desk) := by
  unfold readContainer
  dsimp only
  rw [bind_eq (h _ _)]
  rfl

/-- So is an array. -/
theorem readArray_eq {ty : JavaType} {e : Codec} {scope : NameScope}
    {element : String → NameScope → StateM Desk (List Stmt)}
    {planned : String → NameScope → List Stmt}
    (h : ∀ item scope, element item scope desk = (planned item scope, desk)) :
    readArray ty e scope element desk = (Surroundings.readArray ty e scope planned, desk) := by
  unfold readArray
  dsimp only
  rw [bind_eq (h _ _)]
  rfl

/-- A procedure starts as it was planned. -/
theorem opening_eq (final : Statics) (needs : Bool) :
    opening .locals needs desk
      = (((Companion.opening final desk.owner needs).1,
          (Companion.opening final desk.owner needs).2.2),
        { desk with loader := (Companion.opening final desk.owner needs).2.1.loader }) := by
  cases needs <;> rfl

/-- The adapters of a codec lie on the desk, to be reached as in the end. -/
def Knows (final : Statics) (desk : Desk) (c : Codec) : Prop :=
  ∀ ty use deps, Part (.adapter ty use deps) c →
    desk.refs.lookup use.key = some (final.refTo use)

variable {final : Statics}

/-- An adapter that is known is reached as it is known, and its dependencies are not looked at. -/
theorem reach_of_known {use : AdapterUse} {given : StateM Desk (List DependencyArg)}
    {ref : AdapterRef} (known : desk.refs.lookup use.key = some ref) :
    reach use given desk = (ref, desk) := by
  unfold reach
  rw [get_bind, known]
  rfl

/-- An adapter that is known is not registered again. -/
theorem register_of_known {use : AdapterUse} {given : StateM Desk (List DependencyArg)}
    {ref : AdapterRef} (known : desk.refs.lookup use.key = some ref) :
    register use given desk = ((), desk) := by
  unfold register
  rw [get_bind, known]
  rfl

/-- Where its adapters are known, reading a codec registers nothing. -/
theorem read_of_knows : ∀ (c : Codec) (scope : NameScope), Knows final desk c →
    read c scope desk = (Surroundings.readPresent ⟨final, desk.loader⟩ c scope, desk)
  | .leaf _ l, _, _ => by cases l <;> rfl
  | .adapter ty use deps, _, h => by
    unfold read
    rw [bind_eq (reach_of_known (h ty use deps (.refl _)))]
    rfl
  | .array ty e, scope, h => by
    unfold read
    refine readArray_eq fun item scope => ?_
    rw [bind_eq (read_of_knows e scope fun ty use deps part => h ty use deps (.array part))]
    rfl
  | .sequence _ kind box e, scope, h => by
    unfold read
    refine readContainer_eq fun target scope => ?_
    dsimp only
    rw [bind_eq (read_of_knows e _ fun ty use deps part => h ty use deps (.sequence part))]
    rfl
  | .map _ box k v, scope, h => by
    unfold read
    refine readContainer_eq fun target scope => ?_
    dsimp only
    rw [bind_eq (read_of_knows k _ fun ty use deps part => h ty use deps (.key part)),
      bind_eq (read_of_knows v _ fun ty use deps part => h ty use deps (.value part))]
    rfl
  | .sparseArray ty e, scope, h => by
    unfold read
    refine readContainer_eq fun target scope => ?_
    dsimp only
    rw [bind_eq (read_of_knows e _ fun ty use deps part => h ty use deps (.sparseArray part))]
    rfl

/-- Nor does writing it. -/
theorem write_of_knows : ∀ (c : Codec) (value : Expr) (scope : NameScope), Knows final desk c →
    write c value scope desk = (final.writePresent c value scope, desk)
  | .leaf _ l, _, _, _ => rfl
  | .adapter ty use deps, _, _, h => by
    unfold write
    rw [bind_eq (reach_of_known (h ty use deps (.refl _)))]
    rfl
  | .array ty e, _, scope, h => by
    unfold write
    dsimp only
    rw [bind_eq (write_of_knows e _ _ fun ty use deps part => h ty use deps (.array part))]
    rfl
  | .sequence _ kind box e, _, scope, h => by
    unfold write
    dsimp only
    rw [bind_eq (write_of_knows e _ _ fun ty use deps part => h ty use deps (.sequence part))]
    rfl
  | .map _ box k v, _, scope, h => by
    unfold write
    dsimp only
    rw [bind_eq (write_of_knows k _ _ fun ty use deps part => h ty use deps (.key part)),
      bind_eq (write_of_knows v _ _ fun ty use deps part => h ty use deps (.value part))]
    rfl
  | .sparseArray ty e, _, scope, h => by
    unfold write
    dsimp only
    rw [bind_eq (write_of_knows e _ _ fun ty use deps part => h ty use deps (.sparseArray part))]
    rfl

/-- A shared codec that is missing is declared as it was planned. -/
theorem sharedCodec_of_missing {c : Codec} (missing : desk.codecNames.lookup c.type = none)
    (knows : Knows final desk c) :
    sharedCodec c desk = (desk.constants.fresh c.type.constantName,
      { desk with
        constants := desk.constants.drawn c.type.constantName
        codecNames := (c.type, desk.constants.fresh c.type.constantName) :: desk.codecNames
        codecs := desk.codecs ++ [Companion.codecDecl final desk.owner
          ⟨desk.constants.fresh c.type.constantName, c⟩] }) := by
  -- The new name and the class loader leave the adapters where they are.
  have known : ∀ constants codecNames loader, Knows final
      { desk with constants := constants, codecNames := codecNames, loader := loader } c :=
    fun _ _ _ => knows
  unfold sharedCodec share
  rw [get_bind, missing]
  dsimp only
  rw [draw_bind, modify_bind, get_bind, bind_eq (opening_eq final _)]
  dsimp only
  rw [bind_eq (read_of_knows c _ (known _ _ _)), modify_bind,
    bind_eq (write_of_knows c _ _ (known _ _ _)), modify_bind]
  unfold Companion.codecDecl
  dsimp only
  cases c.requiresClassLoader <;> rfl

/-- A type that has a shared codec keeps it. -/
theorem sharedCodec_of_there {c : Codec} {name : String}
    (there : desk.codecNames.lookup c.type = some name) : sharedCodec c desk = (name, desk) := by
  unfold sharedCodec share
  rw [get_bind, there]
  rfl

end Fixed

/-! ## §2. The desk that holds declarations. -/

/-- The desk with the declarations made so far and the adapters registered so far, while a procedure
with some class loader is written. -/
def holding (final : Statics) (owner : JavaType) (done : List AdapterInstance)
    (loader : Option String) (s : Statics) : Desk where
  owner := owner
  constants := s.constants
  refs := (done.map fun it => (it.use.key, final.refTo it.use)).reverse
  adapters := s.adapters
  codecs := s.codecs.map (Companion.codecDecl final owner)
  codecNames := (s.codecs.map fun x => (x.codec.type, x.name)).reverse
  loader := loader

/-- The adapters of a codec were registered. -/
def Listed (done : List AdapterInstance) (c : Codec) : Prop :=
  ∀ ty use deps, Part (.adapter ty use deps) c → ⟨use, deps⟩ ∈ done

section Holding

variable {final s : Statics} {owner : JavaType} {done : List AdapterInstance}
  {loader : Option String} (nodup : (done.map (·.use.key)).Nodup)

include nodup in
/-- The adapters that are done are found by the references that were planned for them. -/
theorem lookup_refs {it : AdapterInstance} (hi : it ∈ done) :
    (holding final owner done loader s).refs.lookup it.use.key = some (final.refTo it.use) := by
  unfold holding
  refine Keyed.lookup_of_mem ?_ (List.mem_reverse.mpr (List.mem_map_of_mem hi))
  rw [List.map_reverse, List.map_map]
  exact List.nodup_reverse.mpr nodup

/-- An adapter that is not done is not found. -/
theorem lookup_refs_of_new {use : AdapterUse} (new : use.key ∉ done.map (·.use.key)) :
    (holding final owner done loader s).refs.lookup use.key = none := by
  unfold holding
  rw [List.lookup_eq_none_iff]
  intro entry he
  obtain ⟨it, hi, rfl⟩ := List.mem_map.mp (List.mem_reverse.mp he)
  rw [bne_iff_ne]
  exact fun same => new (same ▸ List.mem_map_of_mem hi)

/-- The shared codec of a type is found exactly if it was declared. -/
theorem lookup_codecNames (declared : Declared s) (ty : JavaType) :
    (holding final owner done loader s).codecNames.lookup ty = s.codec? ty := by
  unfold holding
  dsimp only
  rcases found : s.codec? ty with _ | name
  · unfold Statics.codec? at found
    rw [Option.map_eq_none_iff, List.find?_eq_none] at found
    rw [List.lookup_eq_none_iff]
    intro entry he
    obtain ⟨x, hx, rfl⟩ := List.mem_map.mp (List.mem_reverse.mp he)
    rw [bne_iff_ne]
    exact fun same => found x hx (beq_iff_eq.mpr same.symm)
  · unfold Statics.codec? at found
    obtain ⟨x, first, rfl⟩ := Option.map_eq_some_iff.mp found
    obtain ⟨hx, rfl⟩ := Keyed.of_find? first
    refine Keyed.lookup_of_mem ?_ (List.mem_reverse.mpr (List.mem_map_of_mem hx))
    rw [List.map_reverse, List.map_map]
    exact List.nodup_reverse.mpr declared.types

include nodup in
/-- If the adapters in a codec are done, the desk knows all of them. -/
theorem knows_of_listed {c : Codec} (listed : Listed done c) :
    Knows final (holding final owner done loader s) c :=
  fun ty use deps part => lookup_refs nodup (listed ty use deps part)

/-! ## §3. What a step comes to. -/

/-- A type that is new gets a codec behind the others, under a name that is free. -/
theorem share_of_new {c : Codec} (new : s.codec? c.type = none) :
    s.share c = ⟨s.constants.drawn c.type.constantName, s.adapters,
      s.codecs ++ [⟨s.constants.fresh c.type.constantName, c⟩]⟩ := by
  unfold Statics.share
  rw [new]
  rfl

/-- That is the name by which the codec is found. -/
theorem codecName_share_of_new {c : Codec} (new : s.codec? c.type = none) :
    (s.share c).codecName c.type = s.constants.fresh c.type.constantName := by
  rw [share_of_new new]
  unfold Statics.codec? at new
  unfold Statics.codecName Statics.codec?
  rw [List.find?_append, Option.map_eq_none_iff.mp new, List.find?_singleton, beq_self_eq_true]
  rfl

include nodup in
/-- A codec whose adapters were registered is shared as it was planned. -/
theorem sharedCodec_eq (declared : Declared s) {c : Codec} (listed : Listed done c) :
    sharedCodec c (holding final owner done loader s)
      = ((s.share c).codecName c.type, holding final owner done loader (s.share c)) := by
  rcases found : s.codec? c.type with _ | name
  · rw [sharedCodec_of_missing ((lookup_codecNames declared _).trans found)
      (knows_of_listed nodup listed), codecName_share_of_new found, share_of_new found]
    unfold holding
    rw [List.map_append, List.map_append, List.reverse_append]
    rfl
  · have same : s.share c = s := by
      unfold Statics.share
      rw [found]
      rfl
    rw [sharedCodec_of_there ((lookup_codecNames declared _).trans found), same]
    unfold Statics.codecName
    rw [found]
    rfl

/-- What is given a codec that is no adapter is given a shared codec. -/
theorem argsFor_codec {c : Codec} (plain : ∀ ty use deps, c ≠ .adapter ty use deps)
    (rest : List Dependency) :
    argsFor (.codec c :: rest) = do
      let name ← sharedCodec c
      return .codec name :: (← argsFor rest) := by
  cases c with
  | adapter ty use deps => exact absurd rfl (plain ty use deps)
  | _ => rfl

/-- A codec that is no adapter is shared when an adapter is given it. -/
theorem shareDependency_codec {c : Codec} (plain : ∀ ty use deps, c ≠ .adapter ty use deps) :
    s.shareDependency (.codec c) = s.share c := by
  cases c with
  | adapter ty use deps => exact absurd rfl (plain ty use deps)
  | _ => rfl

/-- It is handed over by its name. -/
theorem argFor_codec {c : Codec} (plain : ∀ ty use deps, c ≠ .adapter ty use deps) :
    s.argFor (.codec c) = .codec (s.codecName c.type) := by
  cases c with
  | adapter ty use deps => exact absurd rfl (plain ty use deps)
  | _ => rfl

include nodup in
/-- What an adapter is given is registered as it was planned, if the adapters in it were. -/
theorem argsFor_eq (deps : List Dependency) : ∀ {s : Statics}, Declared s →
    (∀ c, .codec c ∈ deps → Listed done c) → Grows (deps.foldl Statics.shareDependency s) final →
    argsFor deps (holding final owner done loader s)
      = (deps.map final.argFor,
        holding final owner done loader (deps.foldl Statics.shareDependency s)) := by
  induction deps with
  | nil =>
    intro s _ _ _
    rfl
  | cons d rest ih =>
    intro s declared listed grows
    have others := ih (Statics.declared_shareDependency declared d)
      (fun c hc => listed c (List.mem_cons_of_mem d hc)) grows
    rw [List.map_cons, List.foldl_cons]
    cases d with
    | token ty =>
      unfold argsFor
      exact bind_eq others
    | codec c =>
      -- An adapter is given as it was registered; every other codec is shared first, which the rest
      -- keeps.
      by_cases adapter : ∃ ty use deps, c = .adapter ty use deps
      · obtain ⟨ty, use, deps, rfl⟩ := adapter
        have known : (holding final owner done loader s).refs.lookup use.key
            = some (final.refTo use) :=
          lookup_refs nodup (listed _ List.mem_cons_self ty use deps (.refl _))
        unfold argsFor
        rw [bind_eq (register_of_known known), bind_eq (reach_of_known known)]
        exact bind_eq others
      · have plain : ∀ ty use deps, c ≠ .adapter ty use deps :=
          fun ty use deps same => adapter ⟨ty, use, deps, same⟩
        rw [shareDependency_codec plain] at others ⊢
        rw [List.foldl_cons, shareDependency_codec plain] at grows
        have later : Grows (s.share c) final :=
          (Statics.grows_foldl Statics.grows_shareDependency _ rest).trans grows
        rw [argsFor_codec plain, bind_eq (sharedCodec_eq nodup declared
          (listed c List.mem_cons_self)), bind_eq others, argFor_codec plain,
          ← later.codecName (s.isSome_codec?_share c)]
        rfl

include nodup in
/-- An adapter that is new is registered as it was planned, if those that it depends on were. -/
theorem register_eq (declared : Declared s) (fields : Fields final done s) {it : AdapterInstance}
    (new : it.use.key ∉ done.map (·.use.key)) (deps : ∀ other, it.DependsOn other → other ∈ done)
    (grows : Grows (s.addAdapter it) final) :
    register it.use (argsFor it.deps) (holding final owner done loader s)
      = ((), holding final owner (done ++ [it]) loader (s.addAdapter it)) := by
  unfold register
  rw [get_bind, lookup_refs_of_new new]
  have listed : ∀ c, .codec c ∈ it.deps → Listed done c :=
    fun c hc ty use ds part => deps ⟨use, ds⟩ ⟨ty, c, hc, part⟩
  by_cases via : it.use.viaInstance = true
  · -- An instance that the class has itself needs no field, only the reference.
    rw [Statics.addAdapter_of_via via]
    have ref : final.refTo it.use = .ownInstance it.use.adapter := if_pos via
    unfold holding
    rw [List.map_append, List.reverse_append, List.map_singleton, ref]
    show (if it.use.viaInstance then modify _ else _ : StateM Desk PUnit) _ = _
    rw [if_pos via]
    rfl
  · rw [Bool.not_eq_true] at via
    have missing := fields.adapter?_eq_none new
    rw [Statics.addAdapter_of_new via missing] at grows ⊢
    have ref := Statics.refTo_of_new via missing grows
    have later := (Statics.grows_withField _ it).trans grows
    -- Its dependencies may be shared on the way; they are given as the finished statics refer to
    -- them.
    have given : argsFor it.deps (holding final owner done loader s) = _ :=
      argsFor_eq nodup it.deps declared listed later
    have args := later.argFor fun ty use ds hd => fields.covers (deps ⟨use, ds⟩ ⟨ty, _, hd, .refl _⟩)
    show (if it.use.viaInstance then modify _ else _ : StateM Desk PUnit) _ = _
    rw [via, if_neg Bool.false_ne_true, bind_eq given, draw_bind]
    unfold holding Statics.withField
    rw [List.map_append, List.reverse_append, List.map_singleton, ref, args]
    rfl

/-- The last adapter is registered on the desk that those in front of it leave behind. -/
theorem registerAll_snoc {l : List AdapterInstance} {it : AdapterInstance} : ∀ {desk desk' : Desk},
    registerAll l desk = ((), desk') →
    registerAll (l ++ [it]) desk = register it.use (argsFor it.deps) desk' := by
  induction l with
  | nil =>
    intro desk desk' h
    cases h
    rfl
  | cons first rest ih =>
    intro desk desk' h
    unfold registerAll at h
    rcases step : register first.use (argsFor first.deps) desk with ⟨_, between⟩
    rw [bind_eq step] at h
    rw [List.cons_append]
    unfold registerAll
    rw [bind_eq step]
    exact ih h

/-- Arranged adapters are registered as it was planned. -/
theorem registerAll_eq {l : List AdapterInstance} (arranged : Arranged l)
    (grows : Grows (l.foldl Statics.addAdapter .empty) final) :
    registerAll l (empty owner)
      = ((), holding final owner l none (l.foldl Statics.addAdapter .empty)) := by
  induction arranged with
  | nil => rfl
  | @snoc l it arranged new deps ih =>
    rw [List.foldl_append] at grows ⊢
    have before : Grows (l.foldl Statics.addAdapter .empty) final :=
      (Statics.grows_addAdapter _ it).trans grows
    rw [registerAll_snoc (ih before)]
    exact register_eq arranged.nodup (Statics.declared_adapters l)
      (Statics.fields_foldl arranged before) new deps grows

/-! ## §4. The properties. -/

/-- The declarations with the shared codec of a property, if it has one. -/
def shareComposite (s : Statics) (c : Codec) : Statics := if c.isComposite then s.share c else s

include nodup in
/-- A property is read as it was planned, and its codec is shared on the way. -/
theorem readProperty_eq (declared : Declared s) {p : Property} (listed : Listed done p.codec)
    (grows : Grows (shareComposite s p.codec) final) (name : String) (scope : NameScope) :
    readProperty p name scope (holding final owner done loader s)
      = (Companion.readProperty ⟨final, loader⟩ p name scope,
        holding final owner done loader (shareComposite s p.codec)) := by
  unfold readProperty Companion.readProperty
  unfold shareComposite at grows ⊢
  by_cases composite : p.codec.isComposite = true
  · rw [if_pos composite, if_pos composite, if_pos composite,
      bind_eq (sharedCodec_eq nodup declared listed)]
    rw [if_pos composite] at grows
    rw [grows.codecName (s.isSome_codec?_share p.codec)]
    rfl
  · rw [if_neg composite, if_neg composite, if_neg composite,
      bind_eq (read_of_knows p.codec scope (knows_of_listed nodup listed))]
    rfl

include nodup in
/-- The properties are read as it was planned, and their shared codecs are declared on the way. -/
theorem readProperties_eq (ps : List Property) : ∀ {s : Statics} (scope : NameScope), Declared s →
    (∀ p ∈ ps, Listed done p.codec) → Grows ((ps.map (·.codec)).foldl shareComposite s) final →
    readProperties scope ps (holding final owner done loader s)
      = (Companion.readProperties ⟨final, loader⟩ scope ps,
        holding final owner done loader ((ps.map (·.codec)).foldl shareComposite s)) := by
  induction ps with
  | nil =>
    intro s scope _ _ _
    rfl
  | cons p rest ih =>
    intro s scope declared listed grows
    rw [List.map_cons, List.foldl_cons] at grows ⊢
    have later := (Statics.grows_foldl Statics.grows_shareComposite _ _).trans grows
    have first : Declared (shareComposite s p.codec) :=
      Statics.declared_shareComposite declared p.codec
    unfold readProperties
    dsimp only
    rw [bind_eq (readProperty_eq nodup declared (listed p List.mem_cons_self) later _ _),
      bind_eq (ih _ first (fun q hq => listed q (List.mem_cons_of_mem p hq)) grows)]
    rfl

include nodup in
/-- Writing finds the shared codecs that reading has declared. -/
theorem writeProperty_eq (declared : Declared final) {p : Property}
    (listed : Listed done p.codec)
    (there : p.codec.isComposite = true → (final.codec? p.codec.type).isSome)
    (name : String) (scope : NameScope) :
    writeProperty p name scope (holding final owner done loader final)
      = (Companion.writeProperty final p name scope, holding final owner done loader final) := by
  unfold writeProperty Companion.writeProperty
  by_cases composite : p.codec.isComposite = true
  · obtain ⟨shared, found⟩ := Option.isSome_iff_exists.mp (there composite)
    have same : final.codecName p.type = shared := by
      unfold Statics.codecName Property.type
      rw [found]
      rfl
    rw [if_pos composite, if_pos composite, same,
      bind_eq (sharedCodec_of_there ((lookup_codecNames declared _).trans found))]
    rfl
  · rw [if_neg composite, if_neg composite,
      bind_eq (write_of_knows p.codec _ scope (knows_of_listed nodup listed))]
    rfl

include nodup in
/-- Instances are written as it was planned; all codecs are shared by then. -/
theorem writeBody_eq (declared : Declared final) (ps : List Property)
    (listed : ∀ p ∈ ps, Listed done p.codec)
    (there : ∀ p ∈ ps, p.codec.isComposite = true → (final.codec? p.codec.type).isSome) :
    ∀ scope, writeBody owner scope ps (holding final owner done loader final)
      = (Companion.writeBody final owner scope ps, holding final owner done loader final) := by
  induction ps with
  | nil =>
    intro scope
    rfl
  | cons p rest ih =>
    intro scope
    unfold writeBody
    dsimp only
    rw [bind_eq (writeProperty_eq nodup declared (listed p List.mem_cons_self)
        (there p List.mem_cons_self) _ _),
      bind_eq (ih (fun q hq => listed q (List.mem_cons_of_mem p hq))
        (fun q hq => there q (List.mem_cons_of_mem p hq)) _)]
    rfl

end Holding

/-! ## §5. The companion. -/

variable {d : Descriptor}

/-- The declarations of a class with the adapters alone. -/
def adaptersOf (d : Descriptor) : Statics := d.requiredAdapters.foldl Statics.addAdapter .empty

/-- The planned declarations are the adapters and then the codecs that properties share. -/
theorem ofDescriptor_eq (d : Descriptor) :
    Statics.ofDescriptor d = (d.properties.map (·.codec)).foldl shareComposite (adaptersOf d) := rfl

/-- So they carry on those of the adapters. -/
theorem grows_adaptersOf (d : Descriptor) : Grows (adaptersOf d) (.ofDescriptor d) :=
  Statics.grows_foldl Statics.grows_shareComposite _ _

/-- The adapters in the codecs of the properties are the required ones. -/
theorem listed_requiredAdapters (one : OneInstanceEach d) {p : Property} (hp : p ∈ d.properties) :
    Listed d.requiredAdapters p.codec :=
  fun ty _ _ part => (mem_requiredAdapters one).mpr ⟨ty, p, hp, part⟩

/-- The procedure that reads an instance is written as it was planned, and with it all the shared
codecs. -/
theorem readBody_eq (one : OneInstanceEach d) :
    readBody d (holding (.ofDescriptor d) d.type d.requiredAdapters none (adaptersOf d))
      = (Companion.readBody (.ofDescriptor d) d,
        holding (.ofDescriptor d) d.type d.requiredAdapters none (.ofDescriptor d)) := by
  have nodup := nodup_requiredAdapters d
  have listed : ∀ p ∈ d.properties, Listed d.requiredAdapters p.codec :=
    fun p hp => listed_requiredAdapters one hp
  have properties : ∀ loader scope, readProperties scope d.properties
      (holding (.ofDescriptor d) d.type d.requiredAdapters loader (adaptersOf d))
      = (Companion.readProperties ⟨.ofDescriptor d, loader⟩ scope d.properties,
        holding (.ofDescriptor d) d.type d.requiredAdapters loader (.ofDescriptor d)) :=
    fun _ scope => readProperties_eq nodup d.properties scope
      (Statics.declared_adapters d.requiredAdapters) listed (.refl _)
  unfold readBody Companion.readBody
  rw [bind_eq (opening_eq (.ofDescriptor d) _)]
  dsimp only
  refine (bind_eq (properties _ _)).trans ?_
  show (_, holding _ _ _ none _) = _
  cases d.requiresClassLoader <;> rfl

/-- With everything registered, instances are written as it was planned. -/
theorem writeBody_ofDescriptor (one : OneInstanceEach d) :
    writeBody d.type .locals d.properties
        (holding (.ofDescriptor d) d.type d.requiredAdapters none (.ofDescriptor d))
      = (Companion.writeBody (.ofDescriptor d) d.type .locals d.properties,
        holding (.ofDescriptor d) d.type d.requiredAdapters none (.ofDescriptor d)) := by
  apply writeBody_eq (nodup_requiredAdapters d) (Statics.declared_ofDescriptor d)
  · intro p hp
    exact listed_requiredAdapters one hp
  · intro p hp composite
    exact Statics.isSome_codec?_ofDescriptor hp composite

/-- On an empty desk, both procedures come out as planned, and so do the declarations. -/
theorem procedures_eq (one : OneInstanceEach d) (single : d.singleton = true → d.properties = []) :
    procedures d (empty d.type)
      = ((if d.singleton then [.ret (.singleton d.type)]
            else Companion.readBody (.ofDescriptor d) d,
          if d.singleton then []
            else Companion.writeBody (.ofDescriptor d) d.type .locals d.properties),
        holding (.ofDescriptor d) d.type d.requiredAdapters none (.ofDescriptor d)) := by
  have registered : registerAll d.requiredAdapters (empty d.type)
      = ((), holding (.ofDescriptor d) d.type d.requiredAdapters none (adaptersOf d)) :=
    registerAll_eq (arranged_requiredAdapters one) (grows_adaptersOf d)
  unfold procedures
  rw [bind_eq registered]
  by_cases alone : d.singleton = true
  · -- A singleton has no properties that could share codecs.
    have nothing : adaptersOf d = .ofDescriptor d := by
      rw [ofDescriptor_eq, single alone]
      rfl
    rw [alone, nothing]
    rfl
  · rw [Bool.not_eq_true] at alone
    rw [alone]
    show (readBody d >>= _) _ = _
    rw [bind_eq (readBody_eq one), bind_eq (writeBody_ofDescriptor one)]
    rfl

/-- The companion that is written on demand is the one that was planned, if adapters of one key are
one instance. -/
theorem companion_eq (one : OneInstanceEach d) (single : d.singleton = true → d.properties = []) :
    companion d = Companion.ofDescriptor d := by
  unfold companion
  rw [procedures_eq one single]
  rfl

end ParcelCodec.Desk
