import ParcelCodec.Proofs.Adapter.Alike
import ParcelCodec.Proofs.Compilation.Accounts
import ParcelCodec.Proofs.Compilation.Depth

/-!
# The order of the declarations does not matter

Two models that declare the same types in different orders have catalogs that answer alike, so
their classes are described alike against the same rejections.  Every round then rejects the same
classes in both, and the rounds settle on the same descriptors and the same findings.  What is left
of the order is the order in which the results are listed.

Main statement: `ofModel_reordered`.
-/

namespace ParcelCodec.Compilation

open DataClass (describe describe_alike fieldsOf objections objections_alike typedFields_congr)

/-! ## §1. One round. -/

namespace Workshop

/-- Workshops that agree. -/
structure Alike (w w' : Workshop) : Prop where
  catalog : w.catalog.Alike w'.catalog
  registry : w.registry = w'.registry
  options : w.options = w'.options

variable {w w' : Workshop} {classes classes' : List TypeDecl} {rejected rejected' : Rejections}

/-- Classes and rejections in another order. -/
theorem codebook_alike (h : w.Alike w') (same : rejected.Perm rejected') :
    (w.codebook (rejected.map (·.1))).Alike (w'.codebook (rejected'.map (·.1))) where
  catalog := h.catalog
  registry := h.registry
  tieBreak := congrArg Options.tieBreak h.options
  rejected _ := (same.map (·.1)).mem_iff
  spareDepth := congrArg Options.spareDepth h.options

/-- What a round selects is the same up to its order. -/
theorem reverse_filterMap_perm {β : Type} (f : TypeDecl → Option β)
    (order : classes.Perm classes') :
    (classes.filterMap f).reverse.Perm (classes'.filterMap f).reverse :=
  List.reverse_perm'.mpr ((order.filterMap f).trans (List.reverse_perm _).symm)

/-- The classes that cannot be compiled at all are the same ones, whatever their order. -/
theorem ineligible_perm (h : w.Alike w') (order : classes.Perm classes') :
    (w.ineligible classes).Perm (w'.ineligible classes') := by
  have objected : w.objected? = w'.objected? := by
    funext d
    unfold objected?
    rw [objections_alike h.catalog]
  rw [ineligible_eq, ineligible_eq, objected]
  exact reverse_filterMap_perm _ order

/-- So are the classes that are still to be described. -/
theorem pending_perm (order : classes.Perm classes') (same : rejected.Perm rejected') :
    (pending classes rejected).Perm (pending classes' rejected') := by
  have names : ∀ name,
      (rejected.map (·.1)).contains name = (rejected'.map (·.1)).contains name := by
    intro name
    rw [Bool.eq_iff_iff, List.contains_iff_mem, List.contains_iff_mem]
    exact (same.map (·.1)).mem_iff
  unfold pending
  simp only [names]
  exact order.filter _

/-- A round describes and rejects the same, in another order. -/
theorem round_perm (h : w.Alike w') (order : classes.Perm classes')
    (same : rejected.Perm rejected') :
    (w.round classes rejected).1.Perm (w'.round classes' rejected').1
      ∧ (w.round classes rejected).2.Perm (w'.round classes' rejected').2 := by
  have each : describe (w.codebook (rejected.map (·.1))) w.options
      = describe (w'.codebook (rejected'.map (·.1))) w'.options := by
    funext d
    rw [h.options, describe_alike (codebook_alike h same)]
  have described : w.described? (w.codebook (rejected.map (·.1)))
      = w'.described? (w'.codebook (rejected'.map (·.1))) := by
    funext d
    unfold described?
    rw [each]
  have failed : w.failed? (w.codebook (rejected.map (·.1)))
      = w'.failed? (w'.codebook (rejected'.map (·.1))) := by
    funext d
    unfold failed?
    rw [each]
  have left : (pending classes rejected).Perm (pending classes' rejected') :=
    pending_perm order same
  unfold round
  rw [describeAll_eq, describeAll_eq, described, failed]
  exact ⟨reverse_filterMap_perm _ left, reverse_filterMap_perm _ left⟩

/-! ## §2. Round after round. -/

/-- The rounds settle on the same, in another order. -/
theorem settle_perm (h : w.Alike w') (order : classes.Perm classes') (rounds : Nat)
    (same : rejected.Perm rejected') :
    (w.settle classes rounds rejected).1.Perm (w'.settle classes' rounds rejected').1
      ∧ (w.settle classes rounds rejected).2.Perm (w'.settle classes' rounds rejected').2 := by
  induction rounds generalizing rejected rejected' with
  | zero => exact ⟨List.Perm.refl _, same⟩
  | succ rounds ih =>
    obtain ⟨described, failed⟩ := round_perm h order same
    unfold settle
    rcases one : w.round classes rejected with ⟨x, fs⟩
    rcases other : w'.round classes' rejected' with ⟨x', fs'⟩
    rw [one, other] at described failed
    -- Both rounds reject equally many classes, so both settle or both go on.
    rcases fs with _ | ⟨f, fs⟩ <;> rcases fs' with _ | ⟨f', fs'⟩
    · exact ⟨described, same⟩
    · cases failed.length_eq
    · cases failed.length_eq
    · exact ih (failed.append same)

/-- What is found for classes by name has their names. -/
theorem names_sublist {β : Type} {f : TypeDecl → Option (String × β)}
    (named : ∀ d e, f d = some e → e.1 = d.qualifiedName) (classes : List TypeDecl) :
    ((classes.filterMap f).map (·.1)).Sublist (classes.map TypeDecl.qualifiedName) := by
  induction classes with
  | nil => exact List.Sublist.refl []
  | cons d rest ih =>
    rw [List.filterMap_cons]
    split
    · exact ih.cons _
    · next e found =>
      rw [List.map_cons, List.map_cons, named d e found]
      exact ih.cons_cons _

/-- A descriptor is listed under the name of its class. -/
theorem name_of_described? {b : Codebook} (d : TypeDecl) (e : String × DataClass.Descriptor)
    (h : w.described? b d = some e) : e.1 = d.qualifiedName := by
  unfold described? at h
  obtain ⟨x, -, rfl⟩ := Option.map_eq_some_iff.mp h
  rfl

/-- A failed class is listed under its own name. -/
theorem name_of_failed? {b : Codebook} (d : TypeDecl) (e : String × List Diagnostic)
    (h : w.failed? b d = some e) : e.1 = d.qualifiedName := by
  unfold failed? at h
  split at h
  · cases h
  · cases h
    rfl

/-- A class that is objected to is listed under its own name. -/
theorem name_of_objected? (d : TypeDecl) (e : String × List Diagnostic)
    (h : w.objected? d = some e) : e.1 = d.qualifiedName := by
  unfold objected? at h
  split at h
  · cases h
  · cases h
    rfl

section Distinct

variable (distinct : (classes.map TypeDecl.qualifiedName).Nodup)

include distinct

/-- No class is objected to twice. -/
theorem nodup_ineligible : ((w.ineligible classes).map (·.1)).Nodup := by
  rw [ineligible_eq, List.map_reverse, List.nodup_reverse]
  exact distinct.sublist (names_sublist name_of_objected? classes)

/-- A round describes every class once, rejects every class once, and rejects none that was
rejected before. -/
theorem nodup_round (fresh : (rejected.map (·.1)).Nodup) :
    ((w.round classes rejected).1.map (·.1)).Nodup
      ∧ (((w.round classes rejected).2 ++ rejected).map (·.1)).Nodup := by
  have left : ((pending classes rejected).map TypeDecl.qualifiedName).Nodup :=
    distinct.sublist (List.filter_sublist.map _)
  have failed : ((w.round classes rejected).2.map (·.1)).Sublist
      ((pending classes rejected).map TypeDecl.qualifiedName).reverse := by
    unfold round
    rw [describeAll_eq, List.map_reverse]
    exact (names_sublist name_of_failed? _).reverse
  constructor
  · unfold round
    rw [describeAll_eq, List.map_reverse, List.nodup_reverse]
    exact left.sublist (names_sublist name_of_described? _)
  · rw [List.map_append]
    refine ((List.nodup_reverse.mpr left).sublist failed).append fresh ?_
    intro name new old
    -- Only pending classes are rejected, and no pending class was rejected before.
    obtain ⟨d, hd, rfl⟩ := List.mem_map.mp (List.mem_reverse.mp (failed.subset new))
    exact (mem_pending.mp hd).2 old

/-- The rounds settle on one descriptor or one list of findings for a name. -/
theorem Rounds.nodup {n : Nat} {out : Descriptions × Rejections}
    (h : w.Rounds classes n rejected out) (fresh : (rejected.map (·.1)).Nodup) :
    (out.1.map (·.1)).Nodup ∧ (out.2.map (·.1)).Nodup := by
  induction h with
  | last h =>
    have once := (nodup_round (w := w) distinct fresh).1
    rw [h] at once
    exact ⟨once, fresh⟩
  | again h _ _ ih =>
    have once := (nodup_round (w := w) distinct fresh).2
    rw [h] at once
    exact ih once

end Distinct

end Workshop

/-! ## §3. Compilations. -/

section Reordered

variable {m m' : Model} (distinct : (m.types.map TypeDecl.qualifiedName).Nodup)
  (order : m.types.Perm m'.types) (adapters : m.adapters = m'.adapters) (o : Options)

include distinct order adapters

/-- The workshops of two orders of one model are alike. -/
theorem workshop_alike : (workshop m o).Alike (workshop m' o) where
  catalog := Catalog.alike_of_perm distinct order adapters o.companionSuffix
  registry := congrArg Prod.fst
    (Registry.build_alike (Catalog.alike_of_perm distinct order adapters o.companionSuffix))
  options := rfl

/-- What is settled on for a class is the same. -/
theorem outcome_reordered (d : TypeDecl) :
    outcome (settled m o) d = outcome (settled m' o) d := by
  have classes : (m.dataClasses.map TypeDecl.qualifiedName).Nodup :=
    distinct.sublist (List.filter_sublist.map _)
  have alike := workshop_alike distinct order adapters o
  have moved : m.dataClasses.Perm m'.dataClasses := order.filter _
  have same := Workshop.settle_perm alike moved (m.dataClasses.length + 1)
    (Workshop.ineligible_perm alike moved)
  obtain ⟨_, -, rounds⟩ := exists_rounds_settled m o
  obtain ⟨described, rejected⟩ := rounds.nodup classes (Workshop.nodup_ineligible classes)
  have there : (workshop m' o).settle m'.dataClasses (m.dataClasses.length + 1)
      ((workshop m' o).ineligible m'.dataClasses) = settled m' o := by
    unfold settled
    rw [moved.length_eq]
  rw [there] at same
  -- Every name is listed once, so a lookup does not depend on the order.
  unfold outcome
  rw [Keyed.lookup_perm rejected same.2, Keyed.lookup_perm described same.1]

/-- The account of a class is the same. -/
theorem account_reordered : account m o = account m' o := by
  funext d
  unfold account
  rw [outcome_reordered distinct order adapters]

/-- The same is found before any class is looked at. -/
theorem front_reordered : front m o = front m' o := by
  have found := congrArg Prod.snd
    (Registry.build_alike (Catalog.alike_of_perm distinct order adapters o.companionSuffix))
  unfold Registry.build at found
  rw [Registry.findings_registerAll, Registry.findings_registerAll] at found
  unfold front rejectedAdapters
  split
  · rfl
  · exact found

/-- The searches for the codecs of all fields come to an end in every order. -/
theorem codecsEnd_reordered (ended : CodecsEnd m o) : CodecsEnd m' o := by
  intro d hd f hf
  have alike : ((workshop m o).codebook []).Alike ((workshop m' o).codebook []) :=
    Workshop.codebook_alike (workshop_alike distinct order adapters o) (List.Perm.refl [])
  have texts := Resolver.resolveText_alike alike.catalog d.package d.typeParams
  have fields : fieldsOf ((workshop m' o).codebook []) o d
      = fieldsOf ((workshop m o).codebook []) o d := by
    unfold fieldsOf Resolver.ofDecl
    rw [typedFields_congr texts]
  rw [← Codebook.build_alike alike]
  exact ended d ((order.filter _).mem_iff.mpr hd) f (fields ▸ hf)

/-- The companion of a class is found in every order. -/
theorem companion?_reordered (name : String) :
    (ofModel m o).companion? name = (ofModel m' o).companion? name := by
  refine Keyed.find?_perm Companion.className (nodup_className distinct) ?_ name
  have distinct' := (order.map TypeDecl.qualifiedName).nodup_iff.mp distinct
  rw [ofModel_eq_arranged o distinct, ofModel_eq_arranged o distinct',
    account_reordered distinct order adapters]
  exact (order.filter _).filterMap _

end Reordered

/-- Two models that differ in the order of their types, whose names are their own, are compiled to
the same accounts of their classes: the same companion or the same findings for each, listed in the
order of the model's own declarations after the same findings about adapters.  If the searches for
codecs come to an end, that stays so when the classes of a round share their codecs and adapters,
and however much deeper the searches may go; and if each of them comes to an end at some depth, one
depth to spare is enough for all. -/
theorem ofModel_reordered (m m' : Model) (o : Options)
    (distinct : (m.types.map TypeDecl.qualifiedName).Nodup) (order : m.types.Perm m'.types)
    (adapters : m.adapters = m'.adapters) :
    ofModel m o = arranged (front m o) (account m o) m.dataClasses
    ∧ ofModel m' o = arranged (front m o) (account m o) m'.dataClasses
    ∧ (∀ d ∈ m.dataClasses, account m' o d = account m o d
      ∧ (ofModel m' o).companion? d.qualifiedName = (ofModel m o).companion? d.qualifiedName
      ∧ ∀ k, account m o d = .ok k → k.className = d.qualifiedName)
    ∧ (CodecsEnd m o → sharing m o = ofModel m o ∧ sharing m' o = ofModel m' o
      ∧ ∀ depth, o.spareDepth ≤ depth →
        ofModel m o = ofModel m (o.sparing depth) ∧ ofModel m' o = ofModel m' (o.sparing depth))
    ∧ (CodecsEndDeep m o → ∃ depth, CodecsEnd m (o.sparing depth)) := by
  have distinct' := (order.map TypeDecl.qualifiedName).nodup_iff.mp distinct
  refine ⟨ofModel_eq_arranged o distinct, ?_, fun d hd => ⟨?_, ?_, fun k found => ?_⟩,
    fun ended => ?_, exists_codecsEnd⟩
  · rw [front_reordered distinct order adapters, account_reordered distinct order adapters]
    exact ofModel_eq_arranged o distinct'
  · rw [account_reordered distinct order adapters]
  · exact (companion?_reordered distinct order adapters o d.qualifiedName).symm
  · exact (names_of_account distinct hd found).1
  · have ended' := codecsEnd_reordered distinct order adapters o ended
    exact ⟨sharing_eq ended, sharing_eq ended', fun depth more =>
      ⟨ofModel_sparing ended more, ofModel_sparing ended' more⟩⟩

/-- Two classes that refer to each other, one that cannot have a companion, and one that needs
that. -/
def mixed : Model :=
  ⟨[plainClass "Node" [("edges", "java.util.List<Edge>")], plainClass "Edge" [("target", "Node")],
    plainClass "Broken" [("cause", "Lost")], plainClass "Chain" [("link", "Broken")]], []⟩

/-- Read backwards, a model is compiled to its companions and its findings backwards. -/
theorem ofModel_reordered_mixed :
    (mixed.types.map TypeDecl.qualifiedName).Nodup
    ∧ mixed.types.Perm mixed.types.reverse
    ∧ (ofModel ⟨mixed.types.reverse, []⟩ .default).companions.map Companion.className
      = ["app.Edge", "app.Node"]
    ∧ (ofModel ⟨mixed.types.reverse, []⟩ .default).diagnostics.map Diagnostic.element
      = ["app.Chain.link", "app.Broken.cause"]
    ∧ sharing ⟨mixed.types.reverse, []⟩ .default = ofModel ⟨mixed.types.reverse, []⟩ .default
    ∧ ∃ depth, CodecsEnd mixed (Options.default.sparing depth) := by
  have distinct : (mixed.types.map TypeDecl.qualifiedName).Nodup := by decide
  have order : mixed.types.Perm mixed.types.reverse := (List.reverse_perm _).symm
  have ended : CodecsEnd mixed .default :=
    fun _ _ f _ => Codebook.finished_build_of_no_adapters rfl f.type
  obtain ⟨-, backwards, -, shared, deep⟩ :=
    ofModel_reordered mixed ⟨mixed.types.reverse, []⟩ .default distinct order rfl
  refine ⟨distinct, order, ?_, ?_, (shared ended).2.1, deep fun d hd f hf => ⟨_, ended d hd f hf⟩⟩
  · rw [backwards]
    decide +kernel
  · rw [backwards]
    decide +kernel

end ParcelCodec.Compilation
