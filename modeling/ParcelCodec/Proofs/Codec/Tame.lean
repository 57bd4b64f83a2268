import Mathlib.Algebra.Order.BigOperators.Group.List
import Mathlib.Algebra.Order.Group.Nat
import Mathlib.Data.Set.Finite.Lattice
import Mathlib.Data.Set.Finite.List
import ParcelCodec.Proofs.Codec.Ending
import ParcelCodec.Proofs.Keyed

/-!
# Adapters whose types do not grow

A chain of types is endless only if its types grow, since few names make few types of a bounded
weight.  An adapter lets types grow if what it depends on can be heavier than what it handles.  If
names can be given weights under which none of the adapters of a registry does that, no chain is
endless.  What an adapter depends on whatever its variables stand for may be heavy all the same: a
registry has only so many such dependencies.

Main statement: `not_endless_of_tame`.
-/

namespace ParcelCodec

/-! ## §1. Names. -/

mutual

/-- The names in a type. -/
def JavaType.names : JavaType → List String
  | .primitive _ => []
  | .declared name args => name :: JavaType.namesOfArgs args
  | .array component => component.names

/-- The names in several types. -/
def JavaType.namesOfArgs : List JavaType → List String
  | [] => []
  | t :: rest => t.names ++ JavaType.namesOfArgs rest

end

mutual

/-- The names in a pattern. -/
def Pattern.names : Pattern → List String
  | .var _ => []
  | .primitive _ => []
  | .declared name args => name :: Pattern.namesOfArgs args
  | .array component => component.names

/-- The names in several patterns. -/
def Pattern.namesOfArgs : List Pattern → List String
  | [] => []
  | p :: rest => p.names ++ Pattern.namesOfArgs rest

end

theorem JavaType.names_subset_of_mem {args : List JavaType} {t : JavaType} (h : t ∈ args) :
    t.names ⊆ JavaType.namesOfArgs args := by
  induction args with
  | nil => cases h
  | cons first rest ih =>
    rw [JavaType.namesOfArgs]
    rcases List.mem_cons.mp h with rfl | h
    · exact List.subset_append_left _ _
    · exact List.Subset.trans (ih h) (List.subset_append_right _ _)

/-- Whatever stands in a type has only names of the type. -/
theorem hereditary_names (known : List String) :
    Pattern.Hereditary fun t => t.names ⊆ known where
  args name tys h t ht := by
    rw [JavaType.names, List.cons_subset] at h
    exact List.Subset.trans (JavaType.names_subset_of_mem ht) h.2
  component t h := by rwa [JavaType.names] at h

mutual

/-- A pattern under bindings has its own names and those of what is bound. -/
theorem Pattern.names_substitute {known : List String} {bound : Bindings}
    (values : ∀ v, (bound.typeOf v).names ⊆ known) : ∀ p : Pattern,
      p.names ⊆ known → (p.substitute bound).names ⊆ known
  | .var v, _ => values v
  | .primitive _, h => h
  | .declared name args, h => by
    rw [Pattern.names, List.cons_subset] at h
    rw [substitute, JavaType.names, List.cons_subset]
    exact ⟨h.1, Pattern.names_substituteArgs values args h.2⟩
  | .array component, h => by
    rw [Pattern.names] at h
    rw [substitute, JavaType.names]
    exact Pattern.names_substitute values component h

theorem Pattern.names_substituteArgs {known : List String} {bound : Bindings}
    (values : ∀ v, (bound.typeOf v).names ⊆ known) : ∀ ps : List Pattern,
      Pattern.namesOfArgs ps ⊆ known →
        JavaType.namesOfArgs (substituteArgs bound ps) ⊆ known
  | [], h => h
  | p :: rest, h => by
    rw [Pattern.namesOfArgs, List.append_subset] at h
    rw [substituteArgs, JavaType.namesOfArgs, List.append_subset]
    exact ⟨Pattern.names_substitute values p h.1, Pattern.names_substituteArgs values rest h.2⟩

end

/-- What a variable stands for has known names if all bound types do. -/
theorem Bindings.names_typeOf {known : List String} {bound : Bindings}
    (values : ∀ e ∈ bound, e.2.names ⊆ known) (object : JavaType.objectName ∈ known) (v : String) :
    (bound.typeOf v).names ⊆ known := by
  unfold Bindings.typeOf
  rcases found : bound.lookup v with _ | ty
  · exact List.cons_subset.mpr ⟨object, List.nil_subset _⟩
  · exact values _ (Keyed.mem_of_lookup found)

/-! ## §2. Few types are light. -/

theorem JavaType.mass_le_of_mem {w : String → Nat} {args : List JavaType} {t : JavaType}
    (h : t ∈ args) : t.mass w ≤ JavaType.massOfArgs w args := by
  induction args with
  | nil => cases h
  | cons first rest ih =>
    rw [JavaType.massOfArgs]
    rcases List.mem_cons.mp h with rfl | h
    · omega
    · have := ih h
      omega

/-- What stands in a type is no heavier than the type. -/
theorem hereditary_light (w : String → Nat) (bound : Nat) :
    Pattern.Hereditary fun t => t.mass w ≤ bound where
  args name tys h t ht := by
    have part := JavaType.mass_le_of_mem (w := w) ht
    rw [JavaType.mass] at h
    omega
  component t h := by
    rw [JavaType.mass] at h
    omega

section Light

variable {w : String → Nat} (positive : ∀ name, 0 < w name)

include positive

theorem JavaType.mass_pos (t : JavaType) : 0 < t.mass w := by
  cases t with
  | primitive p => exact Nat.one_pos
  | declared name args =>
    have := positive name
    rw [JavaType.mass]
    omega
  | array component => exact Nat.succ_pos _

theorem JavaType.length_le_mass (args : List JavaType) :
    args.length ≤ JavaType.massOfArgs w args := by
  induction args with
  | nil => exact Nat.le_refl 0
  | cons first rest ih =>
    have := first.mass_pos positive
    rw [JavaType.massOfArgs, List.length_cons]
    omega

/-- Few names make few types of a bounded weight. -/
theorem finite_light (known : List String) (bound : Nat) :
    {t : JavaType | t.names ⊆ known ∧ t.mass w ≤ bound}.Finite := by
  induction bound with
  | zero =>
    refine Set.finite_empty.subset fun t h => ?_
    have heavy := t.mass_pos positive
    have light := h.2
    omega
  | succ bound ih =>
    have primitives := (List.finite_toSet Java.Primitive.all).image JavaType.primitive
    have arrays := ih.image JavaType.array
    have few : Finite {t : JavaType // t.names ⊆ known ∧ t.mass w ≤ bound} := ih.to_subtype
    -- The arguments of a class are few and lighter than the class.
    have args := (List.finite_length_le
      {t : JavaType // t.names ⊆ known ∧ t.mass w ≤ bound} bound).image (List.map Subtype.val)
    have classes := (List.finite_toSet known).biUnion fun name _ =>
      args.image (JavaType.declared name)
    refine (primitives.union (arrays.union classes)).subset fun t ⟨names, light⟩ => ?_
    cases t with
    | primitive p => exact .inl ⟨p, by cases p <;> decide, rfl⟩
    | array component =>
      rw [JavaType.names] at names
      rw [JavaType.mass] at light
      exact .inr (.inl ⟨component, ⟨names, by omega⟩, rfl⟩)
    | declared name tys =>
      rw [JavaType.names, List.cons_subset] at names
      rw [JavaType.mass] at light
      have heavy := positive name
      have short := JavaType.length_le_mass positive tys
      have inside : ∀ t ∈ tys, t.names ⊆ known ∧ t.mass w ≤ bound := by
        intro t ht
        have part := JavaType.mass_le_of_mem (w := w) ht
        exact ⟨List.Subset.trans (JavaType.names_subset_of_mem ht) names.2, by omega⟩
      -- So they are a short list over the lighter types, of which there are finitely many.
      lift tys to List {t : JavaType // t.names ⊆ known ∧ t.mass w ≤ bound} using inside
      rw [List.length_map] at short
      refine .inr (.inr (Set.mem_biUnion names.1 ⟨_, ⟨tys, ?_, rfl⟩, rfl⟩))
      show tys.length ≤ bound
      omega

end Light

/-! ## §3. Tame registries. -/

/-- No adapter of a registry lets types grow: under some weights, whatever it depends on is no
heavier than what it handles, whatever its variables weigh, or has no variables. -/
def Registry.Tame (r : Registry) : Prop :=
  ∃ w : String → Nat, (∀ name, 0 < w name) ∧
    ∀ e ∈ r.entries, ∀ p, .adapter p ∈ e.deps →
      (∀ v, p.mentions v = false)
        ∨ ∀ v : String → Nat, (∀ name, 0 < v name) → p.mass w v ≤ e.handles.mass w v

namespace Codebook

variable {b : Codebook}

/-- What stands right inside of a type has what is hereditary if the type does. -/
theorem Inside.of_hereditary {P : JavaType → Prop} (h : Pattern.Hereditary P) {part ty : JavaType}
    (inside : Inside part ty) (holds : P ty) : P part := by
  cases inside with
  | arg there => exact h.args _ _ holds _ there
  | component => exact h.component _ holds

/-- What the adapter of a type asks for is one of its dependencies, under what its pattern binds in
the type. -/
theorem exists_dependency {ty part : JavaType} {priority : Priority} {found : AdapterMatch}
    (handles : b.registry.handlerAt? ty priority = some found)
    (h : part ∈ (Rule.adapter found).parts) :
    ∃ e ∈ b.registry.entries, ∃ p, .adapter p ∈ e.deps ∧ ∃ bound : Bindings,
      e.handles.match? ty [] = some bound ∧ p.substitute bound = part := by
  obtain ⟨he, matched⟩ := Registry.match_of_handlerAt? handles
  obtain ⟨dep, hdep, asks⟩ := List.mem_filterMap.mp h
  cases dep with
  | token p => cases asks
  | adapter p => exact ⟨_, he, p, hdep, _, matched, Option.some.inj asks⟩

/-- Where a dependency is no heavier than what is handled, whatever the variables weigh, it is no
heavier than any type that is handled. -/
theorem mass_dependency_le {w : String → Nat} (positive : ∀ name, 0 < w name)
    {handles p : Pattern} {ty : JavaType} {bound : Bindings}
    (matched : handles.match? ty [] = some bound)
    (lighter : ∀ v : String → Nat, (∀ name, 0 < v name) → p.mass w v ≤ handles.mass w v) :
    (p.substitute bound).mass w ≤ ty.mass w := by
  have whole := (Pattern.substitute_of_match? matched).2 bound (.refl bound)
  calc (p.substitute bound).mass w
      = p.mass w fun v => (bound.typeOf v).mass w := Pattern.mass_substitute w bound p
    _ ≤ handles.mass w fun v => (bound.typeOf v).mass w :=
        lighter _ fun v => JavaType.mass_pos positive _
    _ = (handles.substitute bound).mass w := (Pattern.mass_substitute w bound handles).symm
    _ = ty.mass w := by rw [whole]

/-- The patterns of all types whose adapters the registered adapters depend on. -/
def asked (b : Codebook) : List Pattern :=
  (b.registry.entries.flatMap (·.deps)).filterMap fun
    | .adapter p => some p
    | .token _ => none

theorem mem_asked {e : AdapterEntry} (he : e ∈ b.registry.entries) {p : Pattern}
    (hp : .adapter p ∈ e.deps) : p ∈ b.asked :=
  List.mem_filterMap.mpr ⟨.adapter p, List.mem_flatMap.mpr ⟨e, he, hp⟩, rfl⟩

/-- Under a tame registry, no chain of types is endless: it stays among few names, and never gets
heavier than it starts out or than what some adapter always depends on. -/
theorem not_endless_of_tame (tame : b.registry.Tame) (ty : JavaType) : ¬ b.Endless ty := by
  obtain ⟨w, positive, light⟩ := tame
  rintro ⟨f, rfl, needs, distinct⟩
  let known := (f 0).names ++ (b.asked.flatMap Pattern.names ++ [JavaType.objectName])
  let bound := (f 0).mass w + (b.asked.map fun p => (p.substitute []).mass w).sum
  have names : ∀ p ∈ b.asked, p.names ⊆ known := fun p hp name hn =>
    List.mem_append_right _ (List.mem_append_left _ (List.mem_flatMap.mpr ⟨p, hp, hn⟩))
  have object : JavaType.objectName ∈ known :=
    List.mem_append_right _ (List.mem_append_right _ List.mem_cons_self)
  have weights : ∀ p ∈ b.asked, (p.substitute []).mass w ≤ bound := by
    intro p hp
    have summand := List.le_sum_of_mem
      (List.mem_map_of_mem (f := fun p : Pattern => (p.substitute []).mass w) hp)
    omega
  have stays : ∀ i, (f i).names ⊆ known ∧ (f i).mass w ≤ bound := by
    intro i
    induction i with
    | zero => exact ⟨List.subset_append_left _ _, Nat.le_add_right _ _⟩
    | succ i ih =>
      obtain ⟨named, within⟩ := ih
      rcases needs_cases (needs i) with ⟨found, priority, handles, part⟩ | inside
      · obtain ⟨e, he, p, hp, values, matched, same⟩ := exists_dependency handles part
        have known_values := Bindings.names_typeOf
          (Pattern.forall_match? (hereditary_names known) matched named nofun) object
        rw [← same]
        refine ⟨Pattern.names_substitute known_values p (names p (mem_asked he hp)), ?_⟩
        rcases light e he p hp with closed | lighter
        · -- Without variables, the dependency is one of finitely many types.
          have fixed : p.substitute values = p.substitute [] :=
            Pattern.substitute_congr fun v hv => by simp [closed v] at hv
          rw [fixed]
          exact weights p (mem_asked he hp)
        · exact (mass_dependency_le positive matched lighter).trans within
      · exact ⟨inside.of_hereditary (hereditary_names known) named,
          inside.of_hereditary (hereditary_light w bound) within⟩
  -- Infinitely many different types would stand among the finitely many light ones.
  exact Set.infinite_of_injective_forall_mem distinct stays (finite_light positive known bound)

end Codebook

end ParcelCodec
