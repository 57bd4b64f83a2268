import ParcelCodec.Proofs.Catalog
import ParcelCodec.Proofs.Compilation.Links

/-!
# When compiled companions have names of their own

No companion is named like a declared type: a class whose companion would be is rejected.  But two
companions are not compared with each other, and they share a name if their classes share a package
and a flattened name.

Main statement: `nodup_companionNames_iff`.
-/

namespace ParcelCodec.Compilation

open DataClass (Descriptor Describes objections findingIf)

variable {m : Model} {o : Options}

/-! ## §1. Companions and their classes. -/

/-- A companion was made for a class. -/
def HasCompanion (m : Model) (o : Options) (d : TypeDecl) : Prop :=
  ∃ k ∈ (ofModel m o).companions, k.className = d.qualifiedName

/-- A compiled companion is one of a data class that nothing speaks against, and is named after
it. -/
theorem exists_dataClass {k : Companion} (hk : k ∈ (ofModel m o).companions) :
    ∃ d ∈ m.dataClasses, k.className = d.qualifiedName
      ∧ k.qualifiedName = (workshop m o).catalog.companionName d
      ∧ objections (workshop m o).catalog d = [] := by
  rw [companions_ofModel] at hk
  obtain ⟨x, hx, rfl⟩ := List.mem_map.mp hk
  obtain ⟨d, hd, named, describes⟩ := describes_of_mem hx
  refine ⟨d, hd, named.symm, describes.qualifiedName, objections_eq_nil hd (x := x) ?_⟩
  rw [named]
  exact descriptorOf?_of_mem hx

section Distinct

variable (distinct : (m.types.map TypeDecl.qualifiedName).Nodup)

include distinct

/-- Types that are told apart by their names are data classes that are. -/
theorem eq_of_qualifiedName {d d' : TypeDecl} (hd : d ∈ m.dataClasses) (hd' : d' ∈ m.dataClasses)
    (same : d.qualifiedName = d'.qualifiedName) : d = d' :=
  List.inj_on_of_nodup_map distinct (List.mem_of_mem_filter hd) (List.mem_of_mem_filter hd') same

/-- A companion is made for a class once. -/
theorem nodup_className : ((ofModel m o).companions.map Companion.className).Nodup := by
  rw [companions_ofModel, List.map_map, List.Nodup, List.pairwise_map]
  unfold descriptors
  split
  · exact List.Pairwise.nil
  · rw [List.pairwise_filterMap]
    have classes : (m.dataClasses.map TypeDecl.qualifiedName).Nodup :=
      distinct.sublist (List.filter_sublist.map _)
    rw [List.Nodup, List.pairwise_map] at classes
    refine classes.imp fun other x hx y hy same => other ?_
    obtain ⟨_, -, hx, describes⟩ := exists_describes hx
    obtain ⟨_, -, hy, describes'⟩ := exists_describes hy
    rw [← hx, ← hy, ← describes.typeName, ← describes'.typeName]
    exact same

/-! ## §2. Names. -/

/-- The companion for a class is named after the class. -/
theorem qualifiedName_eq {k : Companion} (hk : k ∈ (ofModel m o).companions) {d : TypeDecl}
    (hd : d ∈ m.dataClasses) (h : k.className = d.qualifiedName) :
    k.qualifiedName = (workshop m o).catalog.companionName d := by
  obtain ⟨d', hd', class', name, -⟩ := exists_dataClass hk
  rw [name, eq_of_qualifiedName distinct hd hd' (h.symm.trans class')]

end Distinct

/-- No companion is named like a declared type. -/
theorem qualifiedName_ne {k : Companion} (hk : k ∈ (ofModel m o).companions) {t : TypeDecl}
    (ht : t ∈ m.types) : k.qualifiedName ≠ t.qualifiedName := by
  intro same
  obtain ⟨d, -, -, name, nothing⟩ := exists_dataClass hk
  have declared : ((workshop m o).catalog.decl?
      ((workshop m o).catalog.companionName d)).isSome := by
    rw [← name, same]
    exact List.find?_isSome.mpr ⟨t, ht, beq_self_eq_true _⟩
  unfold objections at nothing
  simp [findingIf, declared] at nothing

/-! ## §3. Nested classes. -/

/-- A class inside another one, a class with a field of it, and further classes. -/
def nesting (more : List TypeDecl) : Model :=
  ⟨[plainClass "Outer.Inner" [("size", "int")], plainClass "Holder" [("inner", "Outer.Inner")]]
    ++ more, []⟩

/-- The companions of types that are told apart by their names are told apart by theirs if no two
classes with companions share a package and a flattened name, and only then; and no companion is
named like a declared type. -/
theorem nodup_companionNames_iff (m : Model) (o : Options)
    (distinct : (m.types.map TypeDecl.qualifiedName).Nodup) :
    (((ofModel m o).companions.map Companion.qualifiedName).Nodup
      ↔ ∀ d ∈ m.dataClasses, ∀ d' ∈ m.dataClasses, HasCompanion m o d → HasCompanion m o d' →
        d.package = d'.package → flattened d.name = flattened d'.name → d = d')
    ∧ ∀ k ∈ (ofModel m o).companions, ∀ t ∈ m.types, k.qualifiedName ≠ t.qualifiedName := by
  refine ⟨⟨?_, ?_⟩, fun k hk t ht => qualifiedName_ne hk ht⟩
  · rintro names d hd d' hd' ⟨k, hk, hc⟩ ⟨k', hk', hc'⟩ package flat
    have same : k.qualifiedName = k'.qualifiedName := by
      rw [qualifiedName_eq distinct hk hd hc, qualifiedName_eq distinct hk' hd' hc',
        Catalog.companionName_eq_iff]
      exact ⟨package, flat⟩
    obtain rfl := List.inj_on_of_nodup_map names hk hk' same
    exact eq_of_qualifiedName distinct hd hd' (hc.symm.trans hc')
  · intro apart
    have classes := nodup_className (o := o) distinct
    refine List.Nodup.map_on (fun k hk k' hk' same => ?_) classes.of_map
    obtain ⟨d, hd, hc, name, -⟩ := exists_dataClass hk
    obtain ⟨d', hd', hc', name', -⟩ := exists_dataClass hk'
    obtain ⟨package, flat⟩ :=
      (Catalog.companionName_eq_iff _ d d').mp (name.symm.trans (same.trans name'))
    obtain rfl := apart d hd d' hd' ⟨k, hk, hc⟩ ⟨k', hk', hc'⟩ package flat
    exact List.inj_on_of_nodup_map classes hk hk' (hc.trans hc'.symm)

/-- An underscore that stands somewhere else does no harm. -/
theorem nodup_companionNames_nesting :
    ((ofModel (nesting [plainClass "Inner_Outer" []]) .default).companions.map
      Companion.qualifiedName).Nodup := by
  have distinct : ((nesting [plainClass "Inner_Outer" []]).types.map
      TypeDecl.qualifiedName).Nodup := by decide
  have apart : ∀ d ∈ (nesting [plainClass "Inner_Outer" []]).dataClasses,
      ∀ d' ∈ (nesting [plainClass "Inner_Outer" []]).dataClasses,
        d.package = d'.package → flattened d.name = flattened d'.name → d = d' := by decide
  exact (nodup_companionNames_iff _ .default distinct).1.mpr fun d hd d' hd' _ _ =>
    apart d hd d' hd'

/-- A class that is named like a flattened nested class takes the name of its companion, although
all types have names of their own and nothing is reported. -/
theorem companionNames_clash :
    ((nesting [plainClass "Outer_Inner" [("text", "String")]]).types.map
        TypeDecl.qualifiedName).Nodup
      ∧ (ofModel (nesting [plainClass "Outer_Inner" [("text", "String")]]) .default).isOk = true
      ∧ ¬ ((ofModel (nesting [plainClass "Outer_Inner" [("text", "String")]])
        .default).companions.map Companion.qualifiedName).Nodup := by
  decide +kernel

end ParcelCodec.Compilation
