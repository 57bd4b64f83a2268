import ParcelCodec.Proofs.Compilation.Accounts
import ParcelCodec.Proofs.DataClass.Troubles

/-!
# Which fields are reported

A class is described once more in every round until it fails, and what is found about it in that
round is what is reported.  So a field that nests a rejected class is reported if that class was
rejected in an earlier round, and if the class of the field gets so far that its codecs are looked
for.  A class that fails for another reason first is never asked again: its fields that nest a class
that fails in the same round or later are left unmentioned.

Main statements: `account_of_rejectedIn` and `reported_iff_troubled`.
-/

namespace ParcelCodec.Compilation

open DataClass (Descriptor describe objections FoundAt Troubled UsableIn findingsAbout included
  visibleConstructors)

/-! ## §1. Round after round. -/

namespace Workshop

variable {w : Workshop} {classes : List TypeDecl} {rejected : Rejections}

/-- What is rejected after a number of rounds. -/
def after (w : Workshop) (classes : List TypeDecl) (rejected : Rejections) : Nat → Rejections
  | 0 => rejected
  | k + 1 => (w.round classes (w.after classes rejected k)).2 ++ w.after classes rejected k

/-- The rounds after the first one. -/
theorem after_succ (k : Nat) : w.after classes rejected (k + 1)
    = w.after classes ((w.round classes rejected).2 ++ rejected) k := by
  induction k with
  | zero => rfl
  | succ k ih => rw [after, ih, after]

/-- Nothing that is rejected is taken back. -/
theorem after_subset {j k : Nat} (le : j ≤ k) :
    w.after classes rejected j ⊆ w.after classes rejected k := by
  induction le with
  | refl => exact List.Subset.refl _
  | step _ ih => exact List.Subset.trans ih (List.subset_append_right _ _)

namespace Rounds

variable {n : Nat} {out : Descriptions × Rejections}

/-- The rounds settle on nothing less than what is rejected after any number of them. -/
theorem after_subset (h : w.Rounds classes n rejected out) (k : Nat) :
    w.after classes rejected k ⊆ out.2 := by
  induction h generalizing k with
  | @last rejected described h =>
    have still : w.after classes rejected k = rejected := by
      induction k with
      | zero => rfl
      | succ k ih => rw [after, ih, h, List.nil_append]
    rw [still]
    exact List.Subset.refl _
  | @again n rejected failed described out h some rest ih =>
    cases k with
    | zero => exact fun _ he => rest.mem_of_mem (List.mem_append_right _ he)
    | succ k =>
      rw [after_succ, h]
      exact ih k

/-- What the rounds settle on is rejected at first or fails in some round. -/
theorem mem_round (h : w.Rounds classes n rejected out) {entry : String × List Diagnostic}
    (he : entry ∈ out.2) :
    entry ∈ rejected ∨ ∃ k, entry ∈ (w.round classes (w.after classes rejected k)).2 := by
  induction h with
  | last _ => exact .inl he
  | @again n rejected failed described out h some rest ih =>
    rcases ih he with there | ⟨k, later⟩
    · rcases List.mem_append.mp there with now | before
      · exact .inr ⟨0, by rw [after, h]; exact now⟩
      · exact .inl before
    · refine .inr ⟨k + 1, ?_⟩
      rw [after_succ, h]
      exact later

end Rounds

end Workshop

/-! ## §2. The round that rejects a class. -/

/-- What a compilation has rejected after a number of rounds. -/
def rejectedAfter (m : Model) (o : Options) (k : Nat) : Rejections :=
  (workshop m o).after m.dataClasses ((workshop m o).ineligible m.dataClasses) k

/-- The codebook of a round. -/
def codebookIn (m : Model) (o : Options) (k : Nat) : Codebook :=
  (workshop m o).codebook ((rejectedAfter m o k).map (·.1))

/-- A class is rejected in a round: not before it, but after it. -/
structure RejectedIn (m : Model) (o : Options) (d : TypeDecl) (k : Nat) : Prop where
  pending : d.qualifiedName ∉ (codebookIn m o k).rejected
  rejected : d.qualifiedName ∈ (codebookIn m o (k + 1)).rejected

variable {m : Model} {o : Options} {d : TypeDecl}

/-- A class is rejected in one round. -/
theorem RejectedIn.unique {j k : Nat} (hj : RejectedIn m o d j) (hk : RejectedIn m o d k) :
    j = k := by
  have never : ∀ {j k : Nat}, RejectedIn m o d j → RejectedIn m o d k → ¬ j < k :=
    fun hj hk less =>
      hk.pending (List.map_subset _ (Workshop.after_subset less) hj.rejected)
  exact Nat.le_antisymm (Nat.le_of_not_lt (never hk hj)) (Nat.le_of_not_lt (never hj hk))

section Distinct

variable (distinct : (m.types.map TypeDecl.qualifiedName).Nodup) (hd : d ∈ m.dataClasses)

include distinct hd

/-- What fails in a round under the name of a class is the class, and what is found about it is
found by the codebook of the round. -/
theorem eq_findingsAbout {k : Nat} {problems : List Diagnostic}
    (failed : (d.qualifiedName, problems)
      ∈ ((workshop m o).round m.dataClasses (rejectedAfter m o k)).2) :
    RejectedIn m o d k ∧ problems = findingsAbout (codebookIn m o k) o d := by
  obtain ⟨d', hd', named, described⟩ := Workshop.pending_of_round rfl failed
  obtain ⟨mem, new⟩ := Workshop.mem_pending.mp hd'
  obtain rfl := eq_of_qualifiedName distinct mem hd named
  refine ⟨⟨new, ?_⟩, ?_⟩
  · exact List.mem_map_of_mem (List.mem_append_left _ failed)
  · unfold findingsAbout
    rw [show describe (codebookIn m o k) o d' = .error problems from described]

/-- What the rounds settle on for a class that nothing speaks against is what the round that
rejects it finds. -/
theorem exists_rejectedIn_of_mem (eligible : objections (workshop m o).catalog d = [])
    {problems : List Diagnostic} (settled : (d.qualifiedName, problems) ∈ (settled m o).2) :
    ∃ k, RejectedIn m o d k ∧ problems = findingsAbout (codebookIn m o k) o d := by
  obtain ⟨_, -, rounds⟩ := exists_rounds_settled m o
  rcases rounds.mem_round settled with start | ⟨k, failed⟩
  · obtain ⟨d', hd', named, found, some⟩ := Workshop.exists_objections start
    obtain rfl := eq_of_qualifiedName distinct hd' hd named
    exact absurd (found.symm.trans eligible) some
  · exact ⟨k, eq_findingsAbout distinct hd failed⟩

/-- A class that nothing speaks against and that is rejected was so in some round. -/
theorem exists_rejectedIn (eligible : objections (workshop m o).catalog d = [])
    (rejected : d.qualifiedName ∈ (codebook m o).rejected) : ∃ k, RejectedIn m o d k := by
  obtain ⟨⟨name, problems⟩, there, named⟩ := List.mem_map.mp rejected
  change name = d.qualifiedName at named
  obtain ⟨k, hk, -⟩ := exists_rejectedIn_of_mem distinct hd eligible (named ▸ there)
  exact ⟨k, hk⟩

variable (exposed : ¬ (o.excludeNonExposed && o.exposeAnnotations.isEmpty) = true)

include exposed

/-- What is found about a class is what the round that rejects it finds. -/
theorem account_of_rejectedIn (eligible : objections (workshop m o).catalog d = []) {k : Nat}
    (h : RejectedIn m o d k) :
    account m o d = .error (findingsAbout (codebookIn m o k) o d) := by
  obtain ⟨_, -, rounds⟩ := exists_rounds_settled m o
  obtain ⟨entry, he, named⟩ := List.mem_map.mp h.rejected
  have there : entry ∈ (settled m o).2 := rounds.after_subset (k + 1) he
  have looked : ((settled m o).2.lookup d.qualifiedName).isSome = true :=
    List.lookup_isSome_iff.mpr ⟨entry, there, by rw [named]; exact beq_self_eq_true _⟩
  obtain ⟨problems, found⟩ := Option.isSome_iff_exists.mp looked
  obtain ⟨j, hj, rfl⟩ := exists_rejectedIn_of_mem distinct hd eligible (Keyed.mem_of_lookup found)
  obtain rfl := hj.unique h
  unfold account outcome
  rw [if_neg exposed, found]
  rfl

/-- A class whose account holds findings was rejected in some round. -/
theorem exists_rejectedIn_of_account (eligible : objections (workshop m o).catalog d = [])
    {problems : List Diagnostic} (h : account m o d = .error problems) :
    ∃ k, RejectedIn m o d k := by
  by_cases rejected : d.qualifiedName ∈ (codebook m o).rejected
  · exact exists_rejectedIn distinct hd eligible rejected
  · -- A class that is not rejected has a descriptor, so its account holds a companion.
    obtain ⟨x, found⟩ := exists_descriptorOf? hd rejected
    rw [← toOption_outcome] at found
    unfold account at h
    rw [if_neg exposed] at h
    rcases held : outcome (settled m o) d with problems' | x'
    · rw [held] at found
      cases found
    · rw [held] at h
      cases h

end Distinct

/-! ## §3. Fields. -/

/-- Where the options leave in a field, they do not leave out all of them. -/
theorem exposed_of_included {f : FieldDecl} (hf : f ∈ included o d) :
    ¬ (o.excludeNonExposed && o.exposeAnnotations.isEmpty) = true := by
  intro nothing
  rw [Bool.and_eq_true, List.isEmpty_iff] at nothing
  have kept := (List.mem_filter.mp hf).2
  simp [Options.excludes, nothing] at kept

/-- A compilation without adapters has none registered. -/
theorem entries_eq_nil (none : m.adapters = []) : (workshop m o).registry.entries = [] := by
  change (Registry.registerAll _ .empty m.adapters).1.entries = []
  rw [none]
  rfl

/-- A data class without a companion that a type nests is rejected. -/
theorem rejected_of_nests (exposed : ¬ (o.excludeNonExposed && o.exposeAnnotations.isEmpty) = true)
    {name : String} {ty : JavaType} (nests : (workshop m o).catalog.Nests name ty)
    (lacking : (ofModel m o).companion? name = none) : name ∈ (codebook m o).rejected := by
  obtain ⟨d, declared, data⟩ := nests.declared
  obtain ⟨mem, rfl⟩ := Keyed.of_find? declared
  have hd : d ∈ m.dataClasses := List.mem_filter.mpr ⟨mem, data⟩
  by_contra kept
  have there := (mem_compiled exposed).mpr ⟨hd, exists_descriptorOf? hd kept⟩
  have some := (List.mem_filter.mp there).2
  rw [lacking] at some
  cases some

/-- A class with a visible constructor and a field that nests a rejected class is rejected. -/
theorem rejected_of_nesting (distinct : (m.types.map TypeDecl.qualifiedName).Nodup)
    (noAdapters : m.adapters = []) (hd : d ∈ m.dataClasses) (visible : visibleConstructors d ≠ [])
    {f : FieldDecl} (hf : f ∈ included o d) {ty : JavaType}
    (resolved : (Resolver.ofDecl (workshop m o).catalog d).resolveText f.type = .ok ty)
    {name : String} (nests : (workshop m o).catalog.Nests name ty)
    (rejected : name ∈ (codebook m o).rejected) : d.qualifiedName ∈ (codebook m o).rejected := by
  by_contra kept
  obtain ⟨x, found⟩ := exists_descriptorOf? hd kept
  obtain ⟨d', hd', named, described⟩ := exists_describe found
  obtain rfl := eq_of_qualifiedName distinct hd' hd named
  obtain ⟨c, usable⟩ := DataClass.exists_usableIn_of_describe visible described
  have silent : findingsAbout (codebook m o) o d' = [] := by
    unfold findingsAbout
    rw [described]
  have found := (DataClass.foundAt_iff hf resolved (entries_eq_nil noAdapters)).mpr
    (.nesting usable rejected nests)
  rw [silent] at found
  exact DataClass.not_foundAt_nil found

/-- **A field is reported exactly if it is troubled in the round that rejects its class.**  Nested
classes count as far as they were rejected in earlier rounds.  And a class with a visible
constructor that has a field which nests a data class without a companion is rejected in some
round. -/
theorem reported_iff_troubled (m : Model) (o : Options)
    (distinct : (m.types.map TypeDecl.qualifiedName).Nodup) (noAdapters : m.adapters = [])
    {d : TypeDecl} (hd : d ∈ m.dataClasses)
    (eligible : objections (workshop m o).catalog d = [])
    {f : FieldDecl} (hf : f ∈ included o d) {ty : JavaType}
    (resolved : (Resolver.ofDecl (workshop m o).catalog d).resolveText f.type = .ok ty) :
    findings (account m o d) ⊆ (ofModel m o).diagnostics
    ∧ (FoundAt d f.name (findings (account m o d)) ↔
      ∃ k, RejectedIn m o d k ∧ Troubled (codebookIn m o k) o d f ty)
    ∧ ∀ name, (workshop m o).catalog.Nests name ty → (ofModel m o).companion? name = none →
      visibleConstructors d ≠ [] → ∃ k, RejectedIn m o d k := by
  have exposed := exposed_of_included hf
  refine ⟨?_, ⟨fun found => ?_, ?_⟩, fun name nests lacking visible => ?_⟩
  · rw [ofModel_eq_arranged o distinct]
    intro x hx
    exact List.mem_append_right _ (List.mem_flatMap.mpr ⟨d, hd, hx⟩)
  · rcases held : account m o d with problems | companion
    · obtain ⟨k, hk⟩ := exists_rejectedIn_of_account distinct hd exposed eligible held
      rw [account_of_rejectedIn distinct hd exposed eligible hk] at found
      exact ⟨k, hk, (DataClass.foundAt_iff hf resolved (entries_eq_nil noAdapters)).mp found⟩
    · rw [held] at found
      exact absurd found DataClass.not_foundAt_nil
  · rintro ⟨k, hk, trouble⟩
    rw [account_of_rejectedIn distinct hd exposed eligible hk]
    exact (DataClass.foundAt_iff hf resolved (entries_eq_nil noAdapters)).mpr trouble
  · refine exists_rejectedIn distinct hd eligible ?_
    exact rejected_of_nesting distinct noAdapters hd visible hf resolved nests
      (rejected_of_nests exposed nests lacking)

/-! ## §4. A wreck. -/

/-- A class with a broken class inside and one more field that makes no sense. -/
def holder : TypeDecl := plainClass "Holder" [("broken", "Broken"), ("other", "Lost")]

/-- A field of lists of arrays of a broken class. -/
def rows : FieldDecl := plainField "rows" "java.util.List<Broken[]>"

/-- A class with nothing but that field. -/
def crate : TypeDecl := { plainClass "Crate" [] with fields := [rows] }

/-- A class with a field of an unknown type, and two classes that refer to it. -/
def wreck : Model := ⟨[plainClass "Broken" [("cause", "Lost")], holder, crate], []⟩

/-- The type of the broken class. -/
def brokenType : JavaType := .named "app.Broken"

/-- The rounds of the wreck: the first one rejects two classes, the second one the third. -/
theorem compiled_wreck :
    (codebookIn wreck .default 1).rejected = ["app.Holder", "app.Broken"]
    ∧ (codebookIn wreck .default 2).rejected = ["app.Crate", "app.Holder", "app.Broken"]
    ∧ (ofModel wreck .default).companion? "app.Broken" = none
    ∧ (ofModel wreck .default).diagnostics.map (·.element)
      = ["app.Broken.cause", "app.Holder.other", "app.Crate.rows"] := by
  decide +kernel

/-- Nothing but their fields speaks against the two classes that refer to the broken one. -/
theorem resolved_wreck :
    objections (workshop wreck .default).catalog crate = []
    ∧ objections (workshop wreck .default).catalog holder = []
    ∧ (Resolver.ofDecl (workshop wreck .default).catalog crate).resolveText rows.type
      = .ok (.declared "java.util.List" [.array brokenType])
    ∧ (Resolver.ofDecl (workshop wreck .default).catalog holder).resolveText "Broken"
      = .ok brokenType
    ∧ (DataClass.fieldsOf (codebookIn wreck .default 1) .default crate).map (·.field) = [rows] := by
  decide +kernel

theorem nests_brokenType : (workshop wreck .default).catalog.Nests "app.Broken" brokenType :=
  .itself ⟨by decide, by decide⟩ (by decide) (by decide)
    (d := plainClass "Broken" [("cause", "Lost")]) (by decide) rfl

/-- A class that fails only for a class that was rejected one round before is reported at the field
that nests it. -/
theorem reported_iff_troubled_crate :
    (wreck.types.map TypeDecl.qualifiedName).Nodup ∧ wreck.adapters = []
    ∧ crate ∈ wreck.dataClasses ∧ objections (workshop wreck .default).catalog crate = []
    ∧ rows ∈ included .default crate
    ∧ (Resolver.ofDecl (workshop wreck .default).catalog crate).resolveText rows.type
      = .ok (.declared "java.util.List" [.array brokenType])
    ∧ RejectedIn wreck .default crate 1
    ∧ FoundAt crate "rows" (findings (account wreck .default crate)) := by
  have distinct : (wreck.types.map TypeDecl.qualifiedName).Nodup := by decide
  have mem : crate ∈ wreck.dataClasses := by decide
  have kept : rows ∈ included .default crate := by decide
  obtain ⟨eligible, -, resolved, -, only⟩ := resolved_wreck
  obtain ⟨first, second, -⟩ := compiled_wreck
  have rejected : RejectedIn wreck .default crate 1 :=
    ⟨by rw [first]; decide, by rw [second]; decide⟩
  have usable : UsableIn (codebookIn wreck .default 1) .default crate .implicit := by
    refine ⟨by decide, nofun, fun f hf => ?_⟩
    rw [only] at hf
    obtain rfl := List.mem_singleton.mp (List.mem_of_mem_filter hf)
    exact ⟨_, .field, resolved, .field rfl rfl⟩
  have nests : (workshop wreck .default).catalog.Nests "app.Broken"
      (.declared "java.util.List" [.array brokenType]) :=
    .argument ⟨by decide, by decide⟩ (List.mem_singleton_self _) (.component nests_brokenType)
  have known : "app.Broken" ∈ (codebookIn wreck .default 1).rejected := by rw [first]; decide
  obtain ⟨-, reported, -⟩ :=
    reported_iff_troubled wreck .default distinct rfl mem eligible kept resolved
  exact ⟨distinct, rfl, mem, eligible, kept, resolved, rejected,
    reported.mpr ⟨1, rejected, .nesting usable known nests⟩⟩

/-- A field of a broken class is not reported where its class fails for another field in the same
round as the broken class. -/
theorem broken_unreported :
    (wreck.types.map TypeDecl.qualifiedName).Nodup ∧ wreck.adapters = []
    ∧ holder ∈ wreck.dataClasses ∧ objections (workshop wreck .default).catalog holder = []
    ∧ plainField "broken" "Broken" ∈ included .default holder
    ∧ (Resolver.ofDecl (workshop wreck .default).catalog holder).resolveText "Broken"
      = .ok brokenType
    ∧ (workshop wreck .default).catalog.Nests "app.Broken" brokenType
    ∧ (ofModel wreck .default).companion? "app.Broken" = none
    ∧ (ofModel wreck .default).diagnostics.map (·.element)
      = ["app.Broken.cause", "app.Holder.other", "app.Crate.rows"] := by
  obtain ⟨-, eligible, -, resolved, -⟩ := resolved_wreck
  obtain ⟨-, -, lacking, elements⟩ := compiled_wreck
  exact ⟨by decide, rfl, by decide, eligible, by decide, resolved, nests_brokenType, lacking,
    elements⟩

end ParcelCodec.Compilation
