import Mathlib.Data.List.Nodup
import ParcelCodec.Compilation
import ParcelCodec.Proofs.DataClass.Described
import ParcelCodec.Proofs.Keyed

/-!
# What the rounds of a compilation settle on

The companions of a compilation come from descriptors, and the descriptors come from one round, the
last one, in which nothing was rejected any more.  So all of them were made by one codebook: the
one that knows every rejected class.

Main statements: `companions_ofModel`, `describes_of_mem` and `exists_descriptor`.
-/

namespace ParcelCodec.Compilation

open DataClass (Descriptor Describes describe objections)

/-! ## §1. One round. -/

namespace Workshop

variable {w : Workshop} {b : Codebook} {classes : List TypeDecl} {rejected : Rejections}

/-- The description of a class under its name, if it has one. -/
def described? (w : Workshop) (b : Codebook) (d : TypeDecl) : Option (String × Descriptor) :=
  (describe b w.options d).toOption.map (d.qualifiedName, ·)

/-- What keeps a class from being described, under its name, if something does. -/
def failed? (w : Workshop) (b : Codebook) (d : TypeDecl) : Option (String × List Diagnostic) :=
  match describe b w.options d with
  | .ok _ => none
  | .error problems => some (d.qualifiedName, problems)

/-- Every class is described by itself. -/
theorem describeAll_eq (w : Workshop) (b : Codebook) (classes : List TypeDecl) :
    w.describeAll b classes
      = ((classes.filterMap (w.described? b)).reverse,
        (classes.filterMap (w.failed? b)).reverse) := by
  induction classes with
  | nil => rfl
  | cons d rest ih =>
    unfold describeAll
    rw [ih, List.filterMap_cons, List.filterMap_cons]
    unfold described? failed?
    cases describe b w.options d with
    | ok x => simp [Except.toOption]
    | error problems => simp [Except.toOption]

/-- Whatever is described is the description of a class. -/
theorem describe_of_mem {name : String} {x : Descriptor}
    (h : (name, x) ∈ (w.describeAll b classes).1) :
    ∃ d ∈ classes, d.qualifiedName = name ∧ describe b w.options d = .ok x := by
  rw [describeAll_eq, List.mem_reverse, List.mem_filterMap] at h
  obtain ⟨d, hd, found⟩ := h
  refine ⟨d, hd, ?_⟩
  unfold described? at found
  cases hx : describe b w.options d with
  | ok x =>
    rw [hx] at found
    cases found
    exact ⟨rfl, rfl⟩
  | error problems =>
    rw [hx] at found
    cases found

/-- Whatever fails is a class that cannot be described. -/
theorem failed_of_mem {name : String} {problems : List Diagnostic}
    (h : (name, problems) ∈ (w.describeAll b classes).2) :
    ∃ d ∈ classes, d.qualifiedName = name ∧ describe b w.options d = .error problems := by
  rw [describeAll_eq, List.mem_reverse, List.mem_filterMap] at h
  obtain ⟨d, hd, failed⟩ := h
  refine ⟨d, hd, ?_⟩
  unfold failed? at failed
  split at failed
  · cases failed
  · next found =>
    cases failed
    exact ⟨rfl, found⟩

/-- Where no class fails, every class is described. -/
theorem isSome_lookup_of_mem (unfailed : (w.describeAll b classes).2 = []) :
    ∀ d ∈ classes, ((w.describeAll b classes).1.lookup d.qualifiedName).isSome := by
  intro d hd
  rw [describeAll_eq] at unfailed ⊢
  have described := List.filterMap_eq_nil_iff.mp (List.reverse_eq_nil_iff.mp unfailed) d hd
  unfold failed? at described
  split at described
  · next x found =>
    rw [List.lookup_isSome_iff]
    refine ⟨(d.qualifiedName, x), ?_, beq_self_eq_true _⟩
    refine List.mem_reverse.mpr (List.mem_filterMap.mpr ⟨d, hd, ?_⟩)
    unfold described?
    rw [found]
    rfl
  · cases described

/-- The classes that are not rejected. -/
def pending (classes : List TypeDecl) (rejected : Rejections) : List TypeDecl :=
  classes.filter fun d => !(rejected.map (·.1)).contains d.qualifiedName

theorem mem_pending {d : TypeDecl} :
    d ∈ pending classes rejected ↔ d ∈ classes ∧ d.qualifiedName ∉ rejected.map (·.1) := by
  unfold pending
  rw [List.mem_filter, Bool.not_eq_true', ← Bool.not_eq_true, List.contains_iff_mem]

/-- What a round rejects was pending, and cannot be described. -/
theorem pending_of_round {described : Descriptions} {failed : Rejections}
    (h : w.round classes rejected = (described, failed)) {entry : String × List Diagnostic}
    (he : entry ∈ failed) :
    ∃ d ∈ pending classes rejected, d.qualifiedName = entry.1
      ∧ describe (w.codebook (rejected.map (·.1))) w.options d = .error entry.2 := by
  have there : entry ∈ (w.round classes rejected).2 := by rwa [h]
  exact failed_of_mem there

/-- A round that rejects something leaves fewer classes pending. -/
theorem pending_lt {described : Descriptions} {failed : Rejections}
    (h : w.round classes rejected = (described, failed)) (some : failed ≠ []) :
    (pending classes (failed ++ rejected)).length < (pending classes rejected).length := by
  obtain ⟨entry, he⟩ := List.exists_mem_of_ne_nil failed some
  obtain ⟨d, hd, named, -⟩ := pending_of_round h he
  have split : pending classes (failed ++ rejected)
      = (pending classes rejected).filter
        fun d => !(failed.map (·.1)).contains d.qualifiedName := by
    unfold pending
    rw [List.filter_filter]
    refine List.filter_congr fun d _ => ?_
    rw [List.map_append, List.contains_append, Bool.not_or]
  rw [split]
  refine List.length_filter_lt_length_iff_exists.mpr ⟨d, hd, ?_⟩
  rw [Bool.not_eq_true', Bool.not_eq_false, List.contains_iff_mem, named]
  exact List.mem_map_of_mem he

/-- What speaks against a class, under its name, if something does. -/
def objected? (w : Workshop) (d : TypeDecl) : Option (String × List Diagnostic) :=
  match objections w.catalog d with
  | [] => none
  | problems => some (d.qualifiedName, problems)

/-- Every class is judged by itself. -/
theorem ineligible_eq (w : Workshop) (classes : List TypeDecl) :
    w.ineligible classes = (classes.filterMap w.objected?).reverse := by
  induction classes with
  | nil => rfl
  | cons d rest ih =>
    unfold ineligible
    rw [ih, List.filterMap_cons]
    unfold objected?
    cases objections w.catalog d with
    | nil => rfl
    | cons first more => exact (List.reverse_cons ..).symm

/-- A class that something speaks against is ineligible. -/
theorem mem_ineligible {d : TypeDecl} (h : objections w.catalog d ≠ []) (hd : d ∈ classes) :
    d.qualifiedName ∈ (w.ineligible classes).map (·.1) := by
  rw [ineligible_eq]
  refine List.mem_map.mpr ⟨(d.qualifiedName, objections w.catalog d), ?_, rfl⟩
  refine List.mem_reverse.mpr (List.mem_filterMap.mpr ⟨d, hd, ?_⟩)
  unfold objected?
  split
  · next nothing => exact absurd nothing h
  · rfl

/-- What is found about an ineligible class is what speaks against it. -/
theorem exists_objections {entry : String × List Diagnostic} (h : entry ∈ w.ineligible classes) :
    ∃ d ∈ classes, d.qualifiedName = entry.1 ∧ objections w.catalog d = entry.2
      ∧ entry.2 ≠ [] := by
  rw [ineligible_eq, List.mem_reverse, List.mem_filterMap] at h
  obtain ⟨d, hd, found⟩ := h
  refine ⟨d, hd, ?_⟩
  unfold objected? at found
  split at found
  · cases found
  · next against =>
    cases found
    exact ⟨rfl, rfl, against⟩

/-- An ineligible class is one that something speaks against. -/
theorem objections_of_mem_ineligible {name : String}
    (h : name ∈ (w.ineligible classes).map (·.1)) :
    ∃ d ∈ classes, d.qualifiedName = name ∧ objections w.catalog d ≠ [] := by
  obtain ⟨entry, he, rfl⟩ := List.mem_map.mp h
  obtain ⟨d, hd, named, found, against⟩ := exists_objections he
  exact ⟨d, hd, named, found ▸ against⟩

/-! ## §2. Round after round. -/

/-- Rounds lead from what is rejected to what is settled on: every round but the last rejects
something. -/
inductive Rounds (w : Workshop) (classes : List TypeDecl) :
    Nat → Rejections → Descriptions × Rejections → Prop
  | last {rejected : Rejections} {described : Descriptions}
    (h : w.round classes rejected = (described, [])) :
    Rounds w classes 1 rejected (described, rejected)
  | again {n : Nat} {rejected failed : Rejections} {described : Descriptions}
    {out : Descriptions × Rejections} (h : w.round classes rejected = (described, failed))
    (some : failed ≠ []) (rest : Rounds w classes n (failed ++ rejected) out) :
    Rounds w classes (n + 1) rejected out

/-- The rounds come to an end within one more than there are pending classes. -/
theorem exists_rounds (w : Workshop) (classes : List TypeDecl) (bound : Nat) :
    ∀ rejected : Rejections, (pending classes rejected).length ≤ bound →
      ∃ n ≤ bound + 1, w.Rounds classes n rejected (w.settle classes (bound + 1) rejected) := by
  induction bound with
  | zero =>
    intro rejected few
    rcases hr : w.round classes rejected with ⟨described, _ | ⟨first, more⟩⟩
    · refine ⟨1, Nat.le_refl _, ?_⟩
      unfold settle
      rw [hr]
      exact .last hr
    · have fewer := pending_lt hr (List.cons_ne_nil _ _)
      omega
  | succ bound ih =>
    intro rejected few
    unfold settle
    rcases hr : w.round classes rejected with ⟨described, _ | ⟨first, more⟩⟩
    · exact ⟨1, by omega, .last hr⟩
    · have fewer := pending_lt hr (List.cons_ne_nil _ _)
      obtain ⟨n, hn, rounds⟩ := ih (first :: more ++ rejected) (by omega)
      exact ⟨n + 1, by omega, .again hr (List.cons_ne_nil _ _) rounds⟩

namespace Rounds

variable {n : Nat} {out : Descriptions × Rejections}

/-- What the rounds settle on is described by a round that rejects nothing. -/
theorem round_eq (h : w.Rounds classes n rejected out) : w.round classes out.2 = (out.1, []) := by
  induction h with
  | last h => exact h
  | again _ _ _ ih => exact ih

/-- The rounds never take back what was rejected. -/
theorem mem_of_mem (h : w.Rounds classes n rejected out) {entry : String × List Diagnostic}
    (he : entry ∈ rejected) : entry ∈ out.2 := by
  induction h with
  | last _ => exact he
  | again _ _ _ ih => exact ih (List.mem_append_right _ he)

/-- What holds of everything that is rejected at first, and of whatever fails beside such
rejections, holds of everything that is rejected in the end. -/
theorem forall_mem (h : w.Rounds classes n rejected out)
    {P : String × List Diagnostic → Prop} (start : ∀ entry ∈ rejected, P entry)
    (step : ∀ rejected : Rejections, (∀ entry ∈ rejected, P entry) → ∀ d ∈ classes, ∀ problems,
      describe (w.codebook (rejected.map (·.1))) w.options d = .error problems →
      P (d.qualifiedName, problems)) :
    ∀ entry ∈ out.2, P entry := by
  induction h with
  | last _ => exact start
  | again h _ _ ih =>
    refine ih (List.forall_mem_append.mpr ⟨fun entry he => ?_, start⟩)
    obtain ⟨d, hd, named, problems⟩ := pending_of_round h he
    have failed := step _ start d (mem_pending.mp hd).1 _ problems
    rwa [named] at failed

/-- The rounds reject only names that are given up anyway, if whatever fails beside some of them
is one of them. -/
theorem names_subset (h : w.Rounds classes n rejected out) {givenUp : List String}
    (start : rejected.map (·.1) ⊆ givenUp)
    (step : ∀ rejected : Rejections, rejected.map (·.1) ⊆ givenUp →
      ∀ d ∈ classes, ∀ problems,
        describe (w.codebook (rejected.map (·.1))) w.options d = .error problems →
        d.qualifiedName ∈ givenUp) :
    out.2.map (·.1) ⊆ givenUp := by
  have names : ∀ entry ∈ out.2, entry.1 ∈ givenUp :=
    h.forall_mem (fun entry he => start (List.mem_map_of_mem he))
      fun rejected few => step rejected fun _ hn => List.forall_mem_map.mpr few _ hn
  exact fun _ hn => List.forall_mem_map.mpr names _ hn

end Rounds

end Workshop

/-! ## §3. The last round. -/

/-- What the compilation of a model works on. -/
def workshop (m : Model) (o : Options) : Workshop :=
  let catalog : Catalog := ⟨m, o.companionSuffix⟩
  ⟨catalog, (Registry.build catalog).1, o⟩

/-- What the rounds of a compilation settle on. -/
def settled (m : Model) (o : Options) : Descriptions × Rejections :=
  (workshop m o).settle m.dataClasses (m.dataClasses.length + 1)
    ((workshop m o).ineligible m.dataClasses)

/-- The rounds of a compilation, and how many there are at most. -/
theorem exists_rounds_settled (m : Model) (o : Options) : ∃ n ≤ m.dataClasses.length + 1,
    (workshop m o).Rounds m.dataClasses n ((workshop m o).ineligible m.dataClasses)
      (settled m o) :=
  Workshop.exists_rounds _ _ _ _ (List.length_filter_le _ _)

/-- The last round describes what is settled on, and rejects nothing. -/
theorem round_settled (m : Model) (o : Options) :
    (workshop m o).round m.dataClasses (settled m o).2 = ((settled m o).1, []) := by
  obtain ⟨_, -, rounds⟩ := exists_rounds_settled m o
  exact rounds.round_eq

/-- The codebook of the last round. -/
def codebook (m : Model) (o : Options) : Codebook :=
  (workshop m o).codebook ((settled m o).2.map (·.1))

/-- The descriptor that the rounds settled on for a class. -/
def descriptorOf? (m : Model) (o : Options) (name : String) : Option Descriptor :=
  match (settled m o).2.lookup name with
  | some _ => none
  | none => (settled m o).1.lookup name

/-- The descriptors of the classes that get companions, in the order of the classes. -/
def descriptors (m : Model) (o : Options) : List Descriptor :=
  if o.excludeNonExposed && o.exposeAnnotations.isEmpty then []
  else m.dataClasses.filterMap fun d => descriptorOf? m o d.qualifiedName

theorem companions_results (described : Descriptions) (rejected : Rejections) :
    ∀ (reported : List String) (classes : List TypeDecl),
      (results described rejected reported classes).companions
        = (classes.filterMap fun d => match rejected.lookup d.qualifiedName with
            | some _ => none
            | none => described.lookup d.qualifiedName).map Companion.ofDescriptor
  | _, [] => rfl
  | reported, d :: rest => by
    unfold results
    rcases hr : rejected.lookup d.qualifiedName with _ | problems
    · rcases hd : described.lookup d.qualifiedName with _ | x
      · simp only [List.filterMap_cons, hr, hd]
        exact companions_results described rejected reported rest
      · simp only [List.filterMap_cons, hr, hd, List.map_cons]
        exact congrArg _ (companions_results described rejected reported rest)
    · simp only [List.filterMap_cons, hr]
      split
      · exact companions_results described rejected _ rest
      · exact companions_results described rejected _ rest

/-- The companions of a compilation are those of its descriptors. -/
theorem companions_ofModel (m : Model) (o : Options) :
    (ofModel m o).companions = (descriptors m o).map Companion.ofDescriptor := by
  unfold ofModel descriptors
  split
  · rfl
  · exact companions_results _ _ _ _

/-! ## §4. Descriptors. -/

variable {m : Model} {o : Options} {x : Descriptor}

/-- A class that is described is not rejected. -/
theorem not_mem_rejected {name : String} (h : descriptorOf? m o name = some x) :
    name ∉ (codebook m o).rejected := by
  unfold descriptorOf? at h
  intro rejected
  obtain ⟨entry, he, rfl⟩ := List.mem_map.mp rejected
  split at h
  · cases h
  · next none =>
    have other := List.lookup_eq_none_iff.mp none entry he
    simp at other

theorem exists_describe {name : String} (h : descriptorOf? m o name = some x) :
    ∃ d ∈ m.dataClasses, d.qualifiedName = name ∧ describe (codebook m o) o d = .ok x := by
  unfold descriptorOf? at h
  split at h
  · cases h
  · have mem : (name, x) ∈ (settled m o).1 := Keyed.mem_of_lookup h
    rw [← congrArg Prod.fst (round_settled m o)] at mem
    obtain ⟨d, hd, named, described⟩ := Workshop.describe_of_mem mem
    exact ⟨d, (List.mem_filter.mp hd).1, named, described⟩

theorem exists_describes {name : String} (h : descriptorOf? m o name = some x) :
    ∃ d ∈ m.dataClasses, d.qualifiedName = name ∧ Describes (codebook m o) d x := by
  obtain ⟨d, hd, named, described⟩ := exists_describe h
  exact ⟨d, hd, named, DataClass.describes_of_describe described⟩

/-- A descriptor of a compilation is found under the name of its class. -/
theorem descriptorOf?_of_mem (hx : x ∈ descriptors m o) :
    descriptorOf? m o x.typeName = some x := by
  unfold descriptors at hx
  split at hx
  · exact absurd hx List.not_mem_nil
  · obtain ⟨d, -, found⟩ := List.mem_filterMap.mp hx
    obtain ⟨d', -, named, describes⟩ := exists_describes found
    rwa [describes.typeName, named]

/-- A descriptor of a compilation describes a data class. -/
theorem describes_of_mem (hx : x ∈ descriptors m o) :
    ∃ d ∈ m.dataClasses, d.qualifiedName = x.typeName ∧ Describes (codebook m o) d x :=
  exists_describes (descriptorOf?_of_mem hx)

/-- Nothing speaks against a class that has a descriptor. -/
theorem objections_eq_nil {d : TypeDecl} (hd : d ∈ m.dataClasses)
    (h : descriptorOf? m o d.qualifiedName = some x) :
    objections (workshop m o).catalog d = [] := by
  by_contra against
  obtain ⟨entry, he, named⟩ := List.mem_map.mp (Workshop.mem_ineligible against hd)
  obtain ⟨_, -, rounds⟩ := exists_rounds_settled m o
  exact not_mem_rejected h (List.mem_map.mpr ⟨entry, rounds.mem_of_mem he, named⟩)

/-- A data class that is not rejected is described. -/
theorem exists_descriptorOf? {d : TypeDecl} (hd : d ∈ m.dataClasses)
    (kept : d.qualifiedName ∉ (codebook m o).rejected) :
    ∃ y, descriptorOf? m o d.qualifiedName = some y := by
  have free : (settled m o).2.lookup d.qualifiedName = none := by
    rw [List.lookup_eq_none_iff]
    intro entry he
    simp only [bne_iff_ne, ne_eq]
    intro same
    exact kept (same ▸ List.mem_map_of_mem he)
  have last := round_settled m o
  have described := Workshop.isSome_lookup_of_mem (congrArg Prod.snd last) d
    (Workshop.mem_pending.mpr ⟨hd, kept⟩)
  obtain ⟨y, found⟩ := Option.isSome_iff_exists.mp described
  refine ⟨y, ?_⟩
  unfold descriptorOf?
  rw [free, ← congrArg Prod.fst last]
  exact found

/-- Every data class that is not rejected has a descriptor, if any class has one. -/
theorem exists_descriptor (hx : x ∈ descriptors m o) {d : TypeDecl} (hd : d ∈ m.dataClasses)
    (kept : d.qualifiedName ∉ (codebook m o).rejected) :
    ∃ y ∈ descriptors m o, descriptorOf? m o d.qualifiedName = some y := by
  obtain ⟨y, found⟩ := exists_descriptorOf? hd kept
  refine ⟨y, ?_, found⟩
  unfold descriptors at hx ⊢
  split at hx
  · exact absurd hx List.not_mem_nil
  · next exposed =>
    rw [if_neg exposed, List.mem_filterMap]
    exact ⟨d, hd, found⟩

end ParcelCodec.Compilation
