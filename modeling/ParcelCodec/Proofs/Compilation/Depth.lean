import ParcelCodec.Proofs.Compilation.Sharing
import ParcelCodec.Proofs.DataClass.Alike

/-!
# The depth that codecs are searched to

Options say how much depth there is to spare.  A search that comes to an end gives the same however
much deeper it may go; so once the searches for the codecs of all fields come to an end, a model is
compiled to the same with more depth to spare.  And if each of these searches comes to an end at
some depth, one depth to spare is enough for all of them: what comes of the model then is what comes
of it when nothing limits the searches.

Main statements: `exists_codecsEnd` and `ofModel_sparing`.
-/

namespace ParcelCodec

/-- A codebook that differs in the depth to spare. -/
def Codebook.sparing (b : Codebook) (depth : Nat) : Codebook := { b with spareDepth := depth }

variable {b : Codebook} {depth : Nat}

/-! ## §1. Codecs. -/

/-- The rules do not ask for the depth to spare. -/
theorem Codebook.classify_sparing : (b.sparing depth).classify = b.classify := rfl

/-- A search that comes to an end gives the same with more depth to spare. -/
theorem Codebook.build_sparing (more : b.spareDepth ≤ depth) {ty : JavaType}
    (ended : Finished (b.build ty)) : (b.sparing depth).build ty = b.build ty := by
  have deeper : b.depthFor ty ≤ (b.sparing depth).depthFor ty :=
    Nat.succ_le_succ (Nat.add_le_add_left more _)
  unfold build at ended ⊢
  rw [buildBelow_congr classify_sparing, buildBelow_of_le ended deeper]

/-- So does a build. -/
theorem Shelf.buildAlone_sparing (more : b.spareDepth ≤ depth) {ty : JavaType}
    (ended : Finished (b.build ty)) : buildAlone (b.sparing depth) ty = buildAlone b ty := by
  have same := Codebook.build_sparing more ended
  rw [buildAlone_eq ended, buildAlone_eq (same.symm ▸ ended), same]

open DataClass (describe fieldsOf)

/-- A class is described alike with more depth to spare, if the searches for the codecs of its
fields come to an end. -/
theorem DataClass.describe_sparing (more : b.spareDepth ≤ depth) {o : Options} {d : TypeDecl}
    (ended : ∀ f ∈ fieldsOf b o d, Finished (b.build f.type)) :
    describe b o d = describe (b.sparing depth) (o.sparing depth) d := by
  have catalog : b.catalog.Alike (b.sparing depth).catalog := .refl b.catalog
  have excludes : o.excludes = (o.sparing depth).excludes := rfl
  exact describe_congr catalog excludes rfl fun f hf =>
    (Shelf.buildAlone_sparing more (ended f hf)).symm

/-! ## §2. Rounds. -/

namespace Compilation

namespace Workshop

variable {w w' : Workshop} {classes : List TypeDecl}
  (same : ∀ names, ∀ d ∈ classes,
    describe (w.codebook names) w.options d = describe (w'.codebook names) w'.options d)

include same

/-- Rounds that describe the same describe and reject the same. -/
theorem round_congr (rejected : Rejections) :
    w.round classes rejected = w'.round classes rejected := by
  have each : ∀ d ∈ pending classes rejected,
      describe (w.codebook (rejected.map (·.1))) w.options d
        = describe (w'.codebook (rejected.map (·.1))) w'.options d :=
    fun d hd => same _ d (mem_pending.mp hd).1
  have described := List.filterMap_congr fun d hd =>
    show w.described? _ d = w'.described? _ d by unfold described?; rw [each d hd]
  have failed := List.filterMap_congr fun d hd =>
    show w.failed? _ d = w'.failed? _ d by unfold failed?; rw [each d hd]
  show w.describeAll _ (pending classes rejected) = w'.describeAll _ (pending classes rejected)
  rw [describeAll_eq, describeAll_eq, described, failed]

/-- Round after round, they settle on the same. -/
theorem settle_congr (rounds : Nat) (rejected : Rejections) :
    w.settle classes rounds rejected = w'.settle classes rounds rejected := by
  induction rounds generalizing rejected with
  | zero => rfl
  | succ rounds ih =>
    unfold settle
    rw [round_congr same]
    rcases w'.round classes rejected with ⟨described, _ | ⟨first, more⟩⟩
    · rfl
    · exact ih _

end Workshop

/-! ## §3. Compilations. -/

variable {m : Model} {o : Options}

/-- The search for the codec of every field of a model comes to an end at some depth. -/
def CodecsEndDeep (m : Model) (o : Options) : Prop :=
  ∀ d ∈ m.dataClasses, ∀ f ∈ fieldsOf ((workshop m o).codebook []) o d,
    ∃ depth, Finished (((workshop m o).codebook []).buildBelow depth [] f.type)

/-- If each search comes to an end at some depth, one depth to spare is enough for all of them. -/
theorem exists_codecsEnd (deep : CodecsEndDeep m o) : ∃ depth, CodecsEnd m (o.sparing depth) := by
  have each : ∀ ty ∈ m.dataClasses.flatMap fun d =>
      (fieldsOf ((workshop m o).codebook []) o d).map (·.type),
      ∃ depth, Finished (((workshop m o).codebook []).buildBelow depth [] ty) := by
    intro ty there
    obtain ⟨d, hd, there⟩ := List.mem_flatMap.mp there
    obtain ⟨f, hf, rfl⟩ := List.mem_map.mp there
    exact deep d hd f hf
  obtain ⟨depth, ended⟩ := Codebook.exists_common_depth each
  refine ⟨depth, fun d hd f hf => ?_⟩
  have ended := ended f.type (List.mem_flatMap.mpr ⟨d, hd, List.mem_map_of_mem hf⟩)
  have enough : depth ≤ (((workshop m o).codebook []).sparing depth).depthFor f.type := by
    show depth ≤ _ + depth + 1
    omega
  show Finished ((((workshop m o).codebook []).sparing depth).build f.type)
  unfold Codebook.build
  rwa [Codebook.buildBelow_congr Codebook.classify_sparing, Codebook.buildBelow_of_le ended enough]

/-- Once the searches come to an end, a model is compiled to the same with more depth to spare. -/
theorem ofModel_sparing (ended : CodecsEnd m o) (more : o.spareDepth ≤ depth) :
    ofModel m o = ofModel m (o.sparing depth) := by
  have same : ∀ names, ∀ d ∈ m.dataClasses,
      describe ((workshop m o).codebook names) o d
        = describe ((workshop m (o.sparing depth)).codebook names) (o.sparing depth) d :=
    fun names d hd => DataClass.describe_sparing more fun f hf =>
      Codebook.finished_rejecting (List.nil_subset _) (ended d hd f hf)
  have ineligible : (workshop m o).ineligible m.dataClasses
      = (workshop m (o.sparing depth)).ineligible m.dataClasses := by
    rw [Workshop.ineligible_eq, Workshop.ineligible_eq]
    rfl
  have settled := Workshop.settle_congr same (m.dataClasses.length + 1)
    ((workshop m o).ineligible m.dataClasses)
  unfold workshop at settled ineligible
  unfold ofModel
  dsimp only at settled ineligible ⊢
  rw [settled, ineligible]
  rfl

end Compilation

end ParcelCodec
