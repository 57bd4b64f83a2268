import ParcelCodec.Proofs.Codec.Bench
import ParcelCodec.Proofs.Compilation.Rounds
import ParcelCodec.Proofs.DataClass.Fewer

/-!
# Rounds whose classes share one bench

All classes of a round can share their codecs and their adapters: what is built for one class stays
on the bench for those after it, whether or not that class can be described in the end.  Since it
makes no difference what a bench was used for, such rounds settle on the same descriptors and the
same findings, and what comes of a model is the same.

Main statement: `sharing_eq`.
-/

namespace ParcelCodec

/-- Steps that give one answer each give them in turn. -/
theorem Step.gives_inTurn {σ ι ε α : Type} {kind : σ → Prop} {step : ι → Step σ ε α}
    {answer : ι → Except ε α} : ∀ {is : List ι},
    (∀ i ∈ is, Step.Gives kind (step i) (answer i)) → ∀ s, kind s →
      ∃ s', Step.inTurn (is.map step) s = (is.map answer, s') ∧ kind s'
  | [], _, s, hs => ⟨s, rfl, hs⟩
  | i :: rest, each, s, hs => by
    obtain ⟨gives, each⟩ := List.forall_mem_cons.mp each
    obtain ⟨s', first, hs'⟩ := gives s hs
    obtain ⟨s'', others, hs''⟩ := gives_inTurn each s' hs'
    refine ⟨s'', ?_, hs''⟩
    rw [List.map_cons, List.map_cons, Step.inTurn, first]
    simp only [others]

/-! ## §1. Classes. -/

namespace DataClass

variable {σ : Type}

/-- The property of a field, with its codec from builds that share what they have finished. -/
def propertyOn (build : JavaType → Step σ Obstacle Codec) (m : Members) (d : TypeDecl)
    (write : WriteAccess) (f : TypedField) : Step σ Diagnostic Property := fun s =>
  match m.read? f.field f.type with
  | none => (.error ((notReadable f.field.name).on (fieldElement d f.field.name)), s)
  | some read =>
    match build f.type s with
    | (.error o, s') => (.error (o.toUnresolved.on (fieldElement d f.field.name)), s')
    | (.ok codec, s') =>
      (.ok ⟨f.field.name, f.field.nullable && !f.type.isPrimitive, read, write, codec⟩, s')

/-- The descriptor of a class, with its codecs from builds that share what they have finished. -/
def describeOn (b : Codebook) (build : JavaType → Step σ Obstacle Codec) (o : Options)
    (d : TypeDecl) : Step σ (List Diagnostic) Descriptor := fun s =>
  let resolver := Resolver.ofDecl b.catalog d
  let members : Members := ⟨resolver, d.methods, o⟩
  let whole (properties : List Property) (singleton : Bool) : Descriptor :=
    ⟨d.package, d.name, b.catalog.companionSimpleName d, .named d.qualifiedName, properties,
      singleton⟩
  match largestFirst (visibleConstructors d) with
  | [] =>
    if hasInstance resolver d then (.ok (whole [] true), s)
    else (.error [noVisibleConstructor.on d.qualifiedName], s)
  | largest :: smaller =>
    let included := d.fields.filter fun f => !o.excludes f.modifiers f.annotations
    let (fields, findings) := typedFields resolver d [] included
    match chosen? members fields (largest :: smaller) with
    | none => (.error (findings ++ constructorFindings members d fields largest), s)
    | some matched =>
      let (outcomes, s') := Step.inTurn
        ((settings members fields matched).map fun x => propertyOn build members d x.1 x.2) s
      let (ps, more) := gather outcomes
      (if (findings ++ more).isEmpty then .ok (whole ps false) else .error (findings ++ more), s')

variable {b : Codebook} {kind : σ → Prop} {build : JavaType → Step σ Obstacle Codec}

/-- A property comes out alike if the codec of its field does. -/
theorem gives_property (m : Members) (d : TypeDecl) (write : WriteAccess) {f : TypedField}
    (gives : Step.Gives kind (build f.type) (Shelf.buildAlone b f.type)) :
    Step.Gives kind (propertyOn build m d write f) (property b m d write f) := by
  intro s hs
  unfold propertyOn property
  rcases m.read? f.field f.type with _ | read
  · exact ⟨s, rfl, hs⟩
  · -- Here the state comes in: the codec built from it is the one that is built alone.
    obtain ⟨s', built, hs'⟩ := gives s hs
    refine ⟨s', ?_, hs'⟩
    dsimp only
    rw [built]
    cases Shelf.buildAlone b f.type <;> rfl

/-- A class is described as if each codec were built alone, where the codecs of its fields are. -/
theorem gives_describe (o : Options) (d : TypeDecl)
    (gives : ∀ f ∈ fieldsOf b o d, Step.Gives kind (build f.type) (Shelf.buildAlone b f.type)) :
    Step.Gives kind (describeOn b build o d) (describe b o d) := by
  intro s hs
  unfold describeOn describe
  dsimp only
  rcases largestFirst (visibleConstructors d) with _ | ⟨largest, smaller⟩
  · refine ⟨s, ?_, hs⟩
    cases hasInstance (Resolver.ofDecl b.catalog d) d <;> rfl
  · dsimp only
    unfold fieldsOf included at gives
    generalize typedFields _ d [] _ = typed at gives ⊢
    rcases chosen : chosen? _ typed.1 (largest :: smaller) with _ | matched
    · exact ⟨s, rfl, hs⟩
    · -- Only codecs of fields are built.
      have each := fun (x : WriteAccess × TypedField)
          (hx : x ∈ settings ⟨Resolver.ofDecl b.catalog d, d.methods, o⟩ typed.1 matched) =>
        gives_property ⟨Resolver.ofDecl b.catalog d, d.methods, o⟩ d x.1
          (gives x.2 (mem_of_setting (mem_of_chosen? chosen) hx))
      obtain ⟨s', outcomes, hs'⟩ := Step.gives_inTurn each s hs
      dsimp only
      rw [outcomes, properties_eq_map]
      exact ⟨s', rfl, hs'⟩

end DataClass

/-! ## §2. Rounds. -/

namespace Compilation

open DataClass (describeOn fieldsOf gives_describe)

namespace Workshop

/-- Describes classes against a codebook, one after another on one bench. -/
def describeAllOn (w : Workshop) (b : Codebook) : List TypeDecl → Bench →
    Descriptions × Rejections
  | [], _ => ([], [])
  | d :: rest, s =>
    let (outcome, s') := describeOn b (Bench.build b) w.options d s
    let (described, failed) := describeAllOn w b rest s'
    match outcome with
    | .ok descriptor => (described ++ [(d.qualifiedName, descriptor)], failed)
    | .error problems => (described, failed ++ [(d.qualifiedName, problems)])

/-- Describes the classes that are not rejected, on a bench for this round. -/
def roundOn (w : Workshop) (classes : List TypeDecl) (rejected : Rejections) :
    Descriptions × Rejections :=
  let names := rejected.map (·.1)
  w.describeAllOn (w.codebook names) (classes.filter fun d => !names.contains d.qualifiedName)
    Bench.empty

/-- Goes on until a round rejects nothing, for a number of rounds at most. -/
def settleOn (w : Workshop) (classes : List TypeDecl) : (rounds : Nat) → Rejections →
    Descriptions × Rejections
  | 0, rejected => ([], rejected)
  | rounds + 1, rejected =>
    match w.roundOn classes rejected with
    | (described, []) => (described, rejected)
    | (_, failed) => settleOn w classes rounds (failed ++ rejected)

variable {w : Workshop}

/-- The classes of a round are described on one bench as they are one by one. -/
theorem describeAllOn_eq {b : Codebook} (registered : b.registry.Registered) :
    ∀ {classes : List TypeDecl}, (∀ d ∈ classes, ∀ f ∈ fieldsOf b w.options d,
      Finished (b.build f.type)) → ∀ {s : Bench}, Bench.Ready b [] s →
      w.describeAllOn b classes s = w.describeAll b classes
  | [], _, _, _ => rfl
  | d :: rest, ended, s, ready => by
    obtain ⟨first, ended⟩ := List.forall_mem_cons.mp ended
    have gives := fun f hf =>
      Shelf.buildAlone_eq (first f hf) ▸ Bench.gives_build registered (first f hf)
    obtain ⟨s', described, ready'⟩ := gives_describe w.options d gives s ready
    unfold describeAllOn describeAll
    rw [described]
    cases DataClass.describe b w.options d with
    | error problems =>
      dsimp only
      rw [describeAllOn_eq registered ended ready']
    | ok descriptor =>
      dsimp only
      rw [describeAllOn_eq registered ended ready']

/-- As long as no class is rejected, the search for the codec of every field comes to an end. -/
def CodecsEnd (w : Workshop) (classes : List TypeDecl) : Prop :=
  ∀ d ∈ classes, ∀ f ∈ fieldsOf (w.codebook []) w.options d,
    Finished ((w.codebook []).build f.type)

variable {classes : List TypeDecl} (registered : w.registry.Registered)
  (ended : w.CodecsEnd classes)

include registered ended

/-- A round whose classes share a bench describes and rejects the same. -/
theorem roundOn_eq (rejected : Rejections) :
    w.roundOn classes rejected = w.round classes rejected := by
  refine describeAllOn_eq registered (fun d hd f hf => ?_) Bench.ready_empty
  -- Rejected classes do not keep a search from coming to an end.
  exact Codebook.finished_rejecting (List.nil_subset _) (ended d (List.mem_of_mem_filter hd) f hf)

/-- So are those of all rounds. -/
theorem settleOn_eq (rounds : Nat) (rejected : Rejections) :
    w.settleOn classes rounds rejected = w.settle classes rounds rejected := by
  induction rounds generalizing rejected with
  | zero => rfl
  | succ rounds ih =>
    unfold settleOn settle
    rw [roundOn_eq registered ended]
    rcases w.round classes rejected with ⟨described, _ | ⟨first, more⟩⟩
    · rfl
    · exact ih _

end Workshop

/-! ## §3. Compilations. -/

/-- Compiles a model in rounds whose classes share their codecs and adapters. -/
def sharing (m : Model) (o : Options) : Compilation :=
  if o.excludeNonExposed && o.exposeAnnotations.isEmpty then ⟨[], [nothingExposed]⟩
  else
    let catalog : Catalog := ⟨m, o.companionSuffix⟩
    let (registry, findings) := Registry.build catalog
    let workshop : Workshop := ⟨catalog, registry, o⟩
    let classes := m.dataClasses
    let (described, rejected) :=
      workshop.settleOn classes (classes.length + 1) (workshop.ineligible classes)
    let outcome := results described rejected [] classes
    ⟨outcome.companions, findings ++ outcome.diagnostics⟩

/-- The search for the codec of every field of a model comes to an end. -/
def CodecsEnd (m : Model) (o : Options) : Prop := (workshop m o).CodecsEnd m.dataClasses

/-- A model whose classes share their codecs and adapters is compiled to the same. -/
theorem sharing_eq {m : Model} {o : Options} (ended : CodecsEnd m o) :
    sharing m o = ofModel m o := by
  have settled := Workshop.settleOn_eq (Registry.registered_build _) ended
    (m.dataClasses.length + 1) ((workshop m o).ineligible m.dataClasses)
  unfold workshop at settled
  unfold sharing ofModel
  dsimp only at settled ⊢
  rw [settled]

end Compilation

end ParcelCodec
