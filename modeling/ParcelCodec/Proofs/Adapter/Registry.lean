import Mathlib.Data.List.Nodup
import ParcelCodec.Proofs.Adapter.Pattern
import ParcelCodec.Proofs.Keyed

/-!
# Registered adapters

A registry has one entry for each adapter: a declaration whose adapter was registered before is
passed over.  So the name of an adapter says whether its own instance is used.

A registered adapter handles a type in which no variables stand but its own type parameters.  So
with the name of an adapter and its type arguments it is said, too, which type it handles.

Main statements: `distinct_build`, `usesInstanceOf_of_mem` and `eq_of_key`.
-/

namespace ParcelCodec.Registry

variable {r r' : Registry} {c : Catalog}

/-! ## §1. Lookup. -/

/-- An adapter that handles a type is registered, and its pattern matches the type. -/
theorem match_of_handlerAt? {ty : JavaType} {priority : Priority} {found : AdapterMatch}
    (h : r.handlerAt? ty priority = some found) :
    found.entry ∈ r.entries ∧ found.entry.handles.match? ty [] = some found.bindings := by
  unfold handlerAt? at h
  obtain ⟨e, he, h⟩ := List.exists_of_findSome?_eq_some h
  split at h
  · obtain ⟨bound, matched, rfl⟩ := Option.map_eq_some_iff.mp h
    exact ⟨he, matched⟩
  · cases h

/-! ## §2. Names. -/

/-- The entry of a declaration is named like it. -/
theorem adapter_of_entry {entries : List AdapterEntry} {d : AdapterDecl} {e : AdapterEntry}
    (h : entry entries c d = .ok e) : e.adapter = d.qualifiedName := by
  unfold entry at h
  dsimp only at h
  split at h <;> cases h
  rfl

/-- The entries of a registry are told apart by their names. -/
def Distinct (r : Registry) : Prop := (r.entries.map (·.adapter)).Nodup

/-- Registering one more declaration keeps the entries apart. -/
theorem distinct_register {d : AdapterDecl} (h : r.Distinct) (hr : r.register c d = .ok r') :
    r'.Distinct := by
  unfold register at hr
  split at hr
  · cases hr
    exact h
  · next new =>
    split at hr
    · next e built =>
      cases hr
      unfold Distinct
      rw [List.map_append, List.map_singleton]
      refine List.Nodup.append h (List.nodup_singleton e.adapter) ?_
      rw [List.disjoint_singleton, adapter_of_entry built]
      intro there
      obtain ⟨e', he', same⟩ := List.mem_map.mp there
      exact new (List.any_eq_true.mpr ⟨e', he', beq_iff_eq.mpr same⟩)
    · cases hr

theorem distinct_registerAll (h : r.Distinct) (ds : List AdapterDecl) :
    (registerAll c r ds).1.Distinct := by
  induction ds generalizing r with
  | nil => exact h
  | cons d rest ih =>
    unfold registerAll
    split
    · next r' registered => exact ih (distinct_register h registered)
    · exact ih h

/-- The registry of a model has one entry for each adapter. -/
theorem distinct_build (c : Catalog) : (build c).1.Distinct :=
  distinct_registerAll (r := empty) List.nodup_nil c.model.adapters

/-- Whether the own instance of an adapter is used, by its name. -/
def usesInstanceOf (r : Registry) (name : String) : Bool :=
  (r.entries.find? (·.adapter == name)).any (·.usesInstance)

/-- The name of a registered adapter says whether its own instance is used. -/
theorem usesInstanceOf_of_mem (h : r.Distinct) {e : AdapterEntry} (he : e ∈ r.entries) :
    r.usesInstanceOf e.adapter = e.usesInstance := by
  unfold usesInstanceOf
  rw [Keyed.find?_of_mem AdapterEntry.adapter h he]
  rfl

/-! ## §3. What a registered adapter handles. -/

mutual

/-- No variables stand in a pattern but the type parameters of the adapter that it was read for. -/
theorem mem_params_of_pattern {s : AdapterScope} {v : String} : ∀ {t : TypeSyntax} {p : Pattern},
    s.pattern t = .ok p → p.mentions v = true → v ∈ s.params
  | .primitive _, p, h, hv => by
    rw [AdapterScope.pattern] at h
    cases h
    cases hv
  | .array component, p, h, hv => by
    obtain ⟨q, inner, rfl⟩ := AdapterScope.pattern_array h
    exact mem_params_of_pattern inner hv
  | .wildcard _ _, p, h, _ => by
    rw [AdapterScope.pattern] at h
    cases h
  | .named name args, p, h, hv => by
    rcases AdapterScope.pattern_named h with ⟨free, rfl⟩ | ⟨-, full, ps, -, -, inner, rfl⟩
    · rw [Bool.and_eq_true] at free
      rw [← eq_of_beq hv]
      exact List.contains_iff_mem.mp free.2
    · exact mem_params_of_patterns inner hv

theorem mem_params_of_patterns {s : AdapterScope} {v : String} :
    ∀ {ts : List TypeSyntax} {ps : List Pattern},
      s.patterns ts = .ok ps → Pattern.anyMentions v ps = true → v ∈ s.params
  | [], ps, h, hv => by
    rw [AdapterScope.patterns] at h
    cases h
    cases hv
  | t :: rest, ps, h, hv => by
    obtain ⟨p, qs, first, others, rfl⟩ := AdapterScope.patterns_cons h
    rw [Pattern.anyMentions, Bool.or_eq_true] at hv
    rcases hv with hv | hv
    · exact mem_params_of_pattern first hv
    · exact mem_params_of_patterns others hv

end

theorem mem_params_of_handled {s : AdapterScope} {text v : String} {p : Pattern}
    (h : s.handled text = .ok p) (hv : p.mentions v = true) : v ∈ s.params := by
  unfold AdapterScope.handled at h
  rcases parsed : AdapterScope.parse text with e | syn
  · rw [parsed] at h
    cases h
  · rw [parsed] at h
    change (if syn.hasWildcard then _ else _) = _ at h
    split at h
    · cases h
    · rcases read : s.pattern syn with e | q
      · rw [read] at h
        cases h
      · rw [read] at h
        cases h
        exact mem_params_of_pattern read hv

/-- The entry of a declaration has its type parameters and the pattern that it was read for. -/
theorem handled_of_entry {entries : List AdapterEntry} {d : AdapterDecl} {e : AdapterEntry}
    (h : entry entries c d = .ok e) : e.params = (AdapterScope.ofDecl c d).params
      ∧ (AdapterScope.ofDecl c d).handled d.handles = .ok e.handles := by
  unfold entry at h
  dsimp only at h
  split at h
  · next pattern _ handled =>
    cases h
    exact ⟨rfl, handled⟩
  · cases h

/-- A registry to which adapters have been registered one after another, whatever declarations and
catalogs they came from. -/
inductive Registered : Registry → Prop
  | empty : Registered empty
  | register {r r' : Registry} {c : Catalog} {d : AdapterDecl} (h : Registered r)
    (hr : r.register c d = .ok r') : Registered r'

theorem registered_registerAll (h : r.Registered) (ds : List AdapterDecl) :
    (registerAll c r ds).1.Registered := by
  induction ds generalizing r with
  | nil => exact h
  | cons d rest ih =>
    unfold registerAll
    split
    · next r' registered => exact ih (.register h registered)
    · exact ih h

theorem registered_build (c : Catalog) : (build c).1.Registered :=
  registered_registerAll .empty c.model.adapters

theorem Registered.distinct (h : r.Registered) : r.Distinct := by
  induction h with
  | empty => exact List.nodup_nil
  | register _ hr ih => exact distinct_register ih hr

/-- No variables stand in what a registered adapter handles but its type parameters. -/
theorem Registered.mem_params (h : r.Registered) {e : AdapterEntry} (he : e ∈ r.entries)
    {v : String} (hv : e.handles.mentions v = true) : v ∈ e.params := by
  induction h with
  | empty => cases he
  | register _ hr ih =>
    unfold Registry.register at hr
    split at hr
    · cases hr
      exact ih he
    · split at hr
      · next entry built =>
        cases hr
        rcases List.mem_append.mp he with he | he
        · exact ih he
        · cases List.mem_singleton.mp he
          obtain ⟨params, handled⟩ := handled_of_entry built
          rw [params]
          exact mem_params_of_handled handled hv
      · cases hr

/-- With the name of a registered adapter and its type arguments it is said which type it
handles. -/
theorem Registered.eq_of_key (h : r.Registered) {ty ty' : JavaType} {priority priority' : Priority}
    {found found' : AdapterMatch} (hf : r.handlerAt? ty priority = some found)
    (hf' : r.handlerAt? ty' priority' = some found')
    (name : found.entry.adapter = found'.entry.adapter) (args : found.args = found'.args) :
    ty = ty' := by
  obtain ⟨he, matched⟩ := match_of_handlerAt? hf
  obtain ⟨he', matched'⟩ := match_of_handlerAt? hf'
  obtain ⟨e, bound⟩ := found
  obtain ⟨e', bound'⟩ := found'
  have same : e = e' := by
    have first := Keyed.find?_of_mem AdapterEntry.adapter h.distinct he
    have second := Keyed.find?_of_mem AdapterEntry.adapter h.distinct he'
    dsimp only at name first second
    rw [name, second] at first
    exact (Option.some.inj first).symm
  subst same
  have agree : ∀ v ∈ e.params, bound.typeOf v = bound'.typeOf v := List.map_inj_left.mp args
  calc ty = e.handles.substitute bound :=
        ((Pattern.substitute_of_match? matched).2 bound (.refl bound)).symm
    _ = e.handles.substitute bound' :=
        Pattern.substitute_congr fun v hv => agree v (h.mem_params he hv)
    _ = ty' := (Pattern.substitute_of_match? matched').2 bound' (.refl bound')

end ParcelCodec.Registry
