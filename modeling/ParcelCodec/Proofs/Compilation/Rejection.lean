import ParcelCodec.Proofs.Compilation.Names
import ParcelCodec.Proofs.DataClass.Fewer

/-!
# Rejection leaves the greatest consistent set

The rounds of a compilation start with the classes that nothing speaks against and reject whatever
cannot be described beside what is left.  A class that can be described stays describable when
fewer classes are rejected, so a set of classes that can all be described beside each other is
never touched: no member of it is the first one to be rejected.  What is left in the end is such a
set, so it is the greatest one.

Options that leave out every field stop a compilation before it looks at any class; then nothing is
left, consistent or not.

Main statements: `compiled_greatest` and `compiled_not_greatest`.
-/

namespace ParcelCodec.Compilation

open DataClass (Descriptor describe describe_rejecting objections)

/-! ## §1. Consistent sets. -/

/-- The data classes that get a companion. -/
def compiled (m : Model) (o : Options) : List TypeDecl :=
  m.dataClasses.filter fun d => ((ofModel m o).companion? d.qualifiedName).isSome

/-- The names of the data classes outside a set of them. -/
def outside (m : Model) (S : List TypeDecl) : List String :=
  (m.dataClasses.filter fun d => !S.contains d).map TypeDecl.qualifiedName

/-- Data classes that can have companions beside each other: nothing speaks against any of them,
and each can be described while exactly the other data classes are rejected. -/
structure Consistent (m : Model) (o : Options) (S : List TypeDecl) : Prop where
  eligible : ∀ d ∈ S, objections (workshop m o).catalog d = []
  described : ∀ d ∈ S, ∃ x, describe ((workshop m o).codebook (outside m S)) o d = .ok x

variable {m : Model} {o : Options} {S : List TypeDecl}

theorem mem_outside {name : String} :
    name ∈ outside m S ↔ ∃ d ∈ m.dataClasses, d ∉ S ∧ d.qualifiedName = name := by
  unfold outside
  simp only [List.mem_map, List.mem_filter, Bool.not_eq_true', ← Bool.not_eq_true,
    List.contains_iff_mem, and_assoc]

/-- A compilation rejects nothing of a consistent set. -/
theorem rejected_subset_outside (h : Consistent m o S) :
    (codebook m o).rejected ⊆ outside m S := by
  obtain ⟨_, -, rounds⟩ := exists_rounds_settled m o
  refine rounds.names_subset ?_ ?_
  · intro name hn
    obtain ⟨d, hd, named, against⟩ := Workshop.objections_of_mem_ineligible hn
    exact mem_outside.mpr ⟨d, hd, fun inside => against (h.eligible d inside), named⟩
  · intro rejected few d hd problems failed
    refine mem_outside.mpr ⟨d, hd, fun inside => ?_, rfl⟩
    -- What is rejected so far stands outside of the set, so the class can be described beside it.
    obtain ⟨x, described⟩ := h.described d inside
    have still := describe_rejecting few described
    exact absurd (still.symm.trans failed) nofun

/-! ## §2. The classes with companions. -/

section Exposed

variable (exposed : ¬ (o.excludeNonExposed && o.exposeAnnotations.isEmpty) = true)

include exposed

/-- The classes with companions are those with descriptors. -/
theorem mem_compiled {d : TypeDecl} :
    d ∈ compiled m o ↔ d ∈ m.dataClasses ∧ ∃ x, descriptorOf? m o d.qualifiedName = some x := by
  unfold compiled companion?
  rw [List.mem_filter, List.find?_isSome, companions_ofModel]
  refine and_congr_right fun hd => ⟨?_, ?_⟩
  · rintro ⟨k, hk, named⟩
    obtain ⟨x, hx, rfl⟩ := List.mem_map.mp hk
    exact ⟨x, eq_of_beq named ▸ descriptorOf?_of_mem hx⟩
  · rintro ⟨x, found⟩
    obtain ⟨_, -, named, described⟩ := exists_describes found
    have there : x ∈ descriptors m o := by
      unfold descriptors
      rw [if_neg exposed]
      exact List.mem_filterMap.mpr ⟨d, hd, found⟩
    refine ⟨_, List.mem_map_of_mem there, beq_iff_eq.mpr ?_⟩
    exact described.typeName.trans named

variable (distinct : (m.types.map TypeDecl.qualifiedName).Nodup)

include distinct

/-- The classes with companions are consistent. -/
theorem consistent_compiled : Consistent m o (compiled m o) := by
  have fewer : outside m (compiled m o) ⊆ (codebook m o).rejected := by
    intro name hn
    obtain ⟨d, hd, other, rfl⟩ := mem_outside.mp hn
    by_contra kept
    exact other ((mem_compiled exposed).mpr ⟨hd, exists_descriptorOf? hd kept⟩)
  refine ⟨fun d hd => ?_, fun d hd => ?_⟩
  · obtain ⟨mem, x, found⟩ := (mem_compiled exposed).mp hd
    exact objections_eq_nil mem found
  · obtain ⟨mem, x, found⟩ := (mem_compiled exposed).mp hd
    obtain ⟨d', hd', named, described⟩ := exists_describe found
    obtain rfl := eq_of_qualifiedName distinct hd' mem named
    exact ⟨x, describe_rejecting fewer described⟩

/-- A consistent set has companions. -/
theorem subset_compiled (inside : S ⊆ m.dataClasses) (h : Consistent m o S) :
    S ⊆ compiled m o := by
  intro d hd
  refine (mem_compiled exposed).mpr ⟨inside hd, exists_descriptorOf? (inside hd) fun rejected => ?_⟩
  obtain ⟨d', hd', other, named⟩ := mem_outside.mp (rejected_subset_outside h rejected)
  obtain rfl := eq_of_qualifiedName distinct hd' (inside hd) named
  exact other hd

end Exposed

/-! ## §3. The greatest consistent set. -/

/-- Unless the options leave out every field, the classes with companions are the greatest
consistent set of data classes, and the rounds settle on it after at most one more round than there
are data classes. -/
theorem compiled_greatest (m : Model) (o : Options)
    (distinct : (m.types.map TypeDecl.qualifiedName).Nodup)
    (exposed : ¬ (o.excludeNonExposed && o.exposeAnnotations.isEmpty) = true) :
    Consistent m o (compiled m o)
    ∧ (∀ S ⊆ m.dataClasses, Consistent m o S → S ⊆ compiled m o)
    ∧ ∃ n ≤ m.dataClasses.length + 1,
      (workshop m o).Rounds m.dataClasses n ((workshop m o).ineligible m.dataClasses)
        (settled m o) :=
  ⟨consistent_compiled exposed distinct,
    fun _ inside h => subset_compiled exposed distinct inside h, exists_rounds_settled m o⟩

/-- Two classes that refer to each other stay when a chain of others is rejected. -/
theorem compiled_greatest_graph :
    (graph.types.map TypeDecl.qualifiedName).Nodup
    ∧ (compiled graph .default).map TypeDecl.name = ["Node", "Edge"]
    ∧ Consistent graph .default (compiled graph .default)
    ∧ ∀ S ⊆ graph.dataClasses, Consistent graph .default S → S ⊆ compiled graph .default := by
  have distinct : (graph.types.map TypeDecl.qualifiedName).Nodup := by decide
  obtain ⟨consistent, greatest, -⟩ := compiled_greatest graph .default distinct (by decide)
  exact ⟨distinct, by decide +kernel, consistent, greatest⟩

/-- A class without fields. -/
def lone : TypeDecl := plainClass "Lone" []

/-- Options that leave out every field, exposed or not. -/
def exposingNothing : Options := { Options.default with excludeNonExposed := true }

/-- Options that leave out every field stop a compilation before it gives a companion to a class
that could have one. -/
theorem compiled_not_greatest :
    (([lone] : List TypeDecl).map TypeDecl.qualifiedName).Nodup
    ∧ Consistent ⟨[lone], []⟩ exposingNothing [lone]
    ∧ ¬ [lone] ⊆ compiled ⟨[lone], []⟩ exposingNothing := by
  have described : describe ((workshop ⟨[lone], []⟩ exposingNothing).codebook
      (outside ⟨[lone], []⟩ [lone])) exposingNothing lone
        = .ok ⟨"app", "Lone", "LoneCodec", .named "app.Lone", [], false⟩ := by decide +kernel
  refine ⟨by decide, ⟨by decide +kernel, fun d hd => ?_⟩, by decide +kernel⟩
  obtain rfl := List.mem_singleton.mp hd
  exact ⟨_, described⟩

end ParcelCodec.Compilation
