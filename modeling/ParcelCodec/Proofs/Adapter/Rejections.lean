import ParcelCodec.Proofs.Adapter.Registry

/-!
# Rejected adapters

An adapter that breaks a rule is left out of the registry, and the rules it breaks are reported at
it.  So the findings of a registration come in groups, one for each rejected declaration and in the
order of the declarations, and every declaration is either rejected or registered.

Main statements: `findings_registerAll` and `rejected_or_registered`.
-/

namespace ParcelCodec.Registry

variable {c : Catalog}

/-- The declarations that a registration rejects, each with what is found about it. -/
def rejections (c : Catalog) : Registry → List AdapterDecl → List (AdapterDecl × List Diagnostic)
  | _, [] => []
  | r, d :: rest =>
    match r.register c d with
    | .ok r' => rejections c r' rest
    | .error ds => (d, ds) :: rejections c r rest

/-- The findings of a registration are those of the rejected declarations. -/
theorem findings_registerAll (r : Registry) (ds : List AdapterDecl) :
    (registerAll c r ds).2 = (rejections c r ds).flatMap (·.2) := by
  induction ds generalizing r with
  | nil => rfl
  | cons d rest ih =>
    unfold registerAll rejections
    rcases r.register c d with ds | r'
    · exact congrArg (ds ++ ·) (ih r)
    · exact ih r'

/-- The rejected declarations come in their order. -/
theorem sublist_rejections (r : Registry) (ds : List AdapterDecl) :
    ((rejections c r ds).map (·.1)).Sublist ds := by
  induction ds generalizing r with
  | nil => exact List.Sublist.refl []
  | cons d rest ih =>
    unfold rejections
    split
    · next r' _ => exact (ih r').cons d
    · exact (ih r).cons_cons d

/-! ## One declaration. -/

/-- A declaration that makes no entry breaks a rule. -/
theorem entry_ne_nil {entries : List AdapterEntry} {d : AdapterDecl} {us : List Unresolved}
    (h : entry entries c d = .error us) : us ≠ [] := by
  unfold entry at h
  dsimp only at h
  split at h
  · cases h
  · next handles mismatch =>
    cases h
    intro none
    obtain ⟨ruled, -⟩ := List.append_eq_nil_iff.mp none
    -- A handled type that is none is a broken rule itself.
    rcases unhandled : (AdapterScope.ofDecl c d).handled d.handles with u | p
    · rw [unhandled] at ruled
      cases (List.append_eq_nil_iff.mp ruled).2
    · exact mismatch p none unhandled

/-- A rejected declaration breaks a rule, and every broken rule is reported at it. -/
theorem explained_of_register {r : Registry} {d : AdapterDecl} {ds : List Diagnostic}
    (h : r.register c d = .error ds) : ds ≠ [] ∧ ∀ x ∈ ds, x.element = d.qualifiedName := by
  unfold register at h
  split at h
  · cases h
  · split at h
    · cases h
    · next us broken =>
      cases h
      refine ⟨fun none => entry_ne_nil broken (List.map_eq_nil_iff.mp none), fun x hx => ?_⟩
      obtain ⟨u, -, rfl⟩ := List.mem_map.mp hx
      rfl

theorem explained_of_mem_rejections {r : Registry} {ds : List AdapterDecl}
    {g : AdapterDecl × List Diagnostic} (hg : g ∈ rejections c r ds) :
    g.2 ≠ [] ∧ ∀ x ∈ g.2, x.element = g.1.qualifiedName := by
  induction ds generalizing r with
  | nil => cases hg
  | cons d rest ih =>
    unfold rejections at hg
    split at hg
    · exact ih hg
    · next broken =>
      rcases List.mem_cons.mp hg with rfl | hg
      · exact explained_of_register broken
      · exact ih hg

/-! ## All declarations. -/

/-- A declaration that is registered is in the registry. -/
theorem registered_of_register {r r' : Registry} {d : AdapterDecl}
    (h : r.register c d = .ok r') :
    (∃ e ∈ r'.entries, e.adapter = d.qualifiedName) ∧ r.entries ⊆ r'.entries := by
  unfold register at h
  split at h
  · next before =>
    cases h
    obtain ⟨e, he, same⟩ := List.any_eq_true.mp before
    exact ⟨⟨e, he, eq_of_beq same⟩, List.Subset.refl _⟩
  · split at h
    · next e made =>
      cases h
      refine ⟨⟨e, List.mem_append_right _ List.mem_cons_self, adapter_of_entry made⟩, ?_⟩
      exact List.subset_append_left _ _
    · cases h

theorem entries_subset_registerAll (r : Registry) (ds : List AdapterDecl) :
    r.entries ⊆ (registerAll c r ds).1.entries := by
  induction ds generalizing r with
  | nil => exact List.Subset.refl _
  | cons d rest ih =>
    unfold registerAll
    split
    · next r' registered =>
      exact List.Subset.trans (registered_of_register registered).2 (ih r')
    · exact ih r

/-- Every declaration is rejected or registered. -/
theorem rejected_or_registered (r : Registry) {ds : List AdapterDecl} :
    ∀ d ∈ ds, (∃ g ∈ rejections c r ds, g.1 = d)
      ∨ ∃ e ∈ (registerAll c r ds).1.entries, e.adapter = d.qualifiedName := by
  induction ds generalizing r with
  | nil => exact nofun
  | cons d rest ih =>
    unfold rejections registerAll
    rcases outcome : r.register c d with findings | r'
    · refine List.forall_mem_cons.mpr ⟨.inl ⟨(d, findings), List.mem_cons_self, rfl⟩, ?_⟩
      intro d' hd'
      rcases ih r d' hd' with ⟨g, hg, same⟩ | registered
      · exact .inl ⟨g, List.mem_cons_of_mem _ hg, same⟩
      · exact .inr registered
    · refine List.forall_mem_cons.mpr ⟨?_, ih r'⟩
      obtain ⟨⟨e, he, named⟩, -⟩ := registered_of_register outcome
      exact .inr ⟨e, entries_subset_registerAll r' rest he, named⟩

end ParcelCodec.Registry
