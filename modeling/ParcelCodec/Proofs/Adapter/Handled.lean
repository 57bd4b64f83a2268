import ParcelCodec.Proofs.Adapter.Matching
import ParcelCodec.Proofs.Adapter.Registry
import ParcelCodec.Proofs.Resolution.Runs

/-!
# Handled types are read like the types of fields

The type that an adapter handles is read as a pattern, and the type of a field is resolved; nothing
but a shared catalog ties the two readings to each other.  An adapter is found for the fields that
it is meant for only if both understand a type alike.

So they do.  If types are put in place of the type parameters of the adapter, what results resolves
to what the pattern is with their images bound, and the pattern matches it.  An adapter without type
parameters has its type refused exactly if a field would have it refused, and for the same reason.

Wildcards are left out: in a handled type they are refused, and in the type of a field they stand
for their bounds.

Main statement: `handled_resolves_alike`.
-/

namespace ParcelCodec

/-! ## §1. Types in place of type parameters. -/

namespace TypeSyntax

mutual

/-- The type with others in place of its bare type parameters. -/
def instantiate (params : List String) (s : String → TypeSyntax) : TypeSyntax → TypeSyntax
  | .primitive p => .primitive p
  | .named name args =>
    if args.isEmpty && params.contains name then s name
    else .named name (instantiateArgs params s args)
  | .array component => .array (component.instantiate params s)
  | .wildcard upper lower =>
    .wildcard (instantiateBound params s upper) (instantiateBound params s lower)

/-- Several types with others in place of their bare type parameters. -/
def instantiateArgs (params : List String) (s : String → TypeSyntax) :
    List TypeSyntax → List TypeSyntax
  | [] => []
  | t :: rest => t.instantiate params s :: instantiateArgs params s rest

/-- A bound with others in place of its bare type parameters. -/
def instantiateBound (params : List String) (s : String → TypeSyntax) :
    Option TypeSyntax → Option TypeSyntax
  | none => none
  | some t => some (t.instantiate params s)

end

theorem length_instantiateArgs {params : List String} {s : String → TypeSyntax}
    (ts : List TypeSyntax) : (instantiateArgs params s ts).length = ts.length := by
  induction ts with
  | nil => rfl
  | cons t rest ih => rw [instantiateArgs, List.length_cons, List.length_cons, ih]

end TypeSyntax

namespace AdapterScope

variable {scope : AdapterScope}

/-- The surroundings of a field in the package of the adapter, with no type parameters around
it. -/
def plain (scope : AdapterScope) : Resolver := ⟨scope.catalog, scope.package, []⟩

/-- What the types that are put in place of the type parameters resolve to. -/
def images (scope : AdapterScope) (s : String → TypeSyntax) : Bindings :=
  scope.params.filterMap fun v => (scope.plain.resolve (s v)).toOption.map (v, ·)

/-- Every type that is put in place of a type parameter resolves, to a type that is not
primitive. -/
def Fills (scope : AdapterScope) (s : String → TypeSyntax) : Prop :=
  ∀ v ∈ scope.params, ∃ ty, scope.plain.resolve (s v) = .ok ty ∧ ty.isPrimitive = false

/-- What is bound to a type parameter is what was put in its place. -/
theorem resolve_of_lookup_images {s : String → TypeSyntax} {v : String} {ty : JavaType}
    (h : (scope.images s).lookup v = some ty) :
    v ∈ scope.params ∧ scope.plain.resolve (s v) = .ok ty := by
  obtain ⟨w, there, image⟩ := List.mem_filterMap.mp (Keyed.mem_of_lookup h)
  rcases resolved : scope.plain.resolve (s w) with e | other
  · rw [resolved] at image
    cases image
  · rw [resolved] at image
    cases image
    exact ⟨there, resolved⟩

/-- A type parameter is bound if what was put in its place resolves. -/
theorem isSome_lookup_images {s : String → TypeSyntax} {v : String} {ty : JavaType}
    (there : v ∈ scope.params) (resolved : scope.plain.resolve (s v) = .ok ty) :
    ((scope.images s).lookup v).isSome = true := by
  have bound : (v, ty) ∈ scope.images s := by
    refine List.mem_filterMap.mpr ⟨v, there, ?_⟩
    rw [resolved]
    rfl
  exact List.lookup_isSome_iff.mpr ⟨_, bound, beq_self_eq_true v⟩

/-- What is put in place of a type parameter resolves to what is bound to it. -/
theorem resolve_eq_typeOf {s : String → TypeSyntax} {v : String} (fills : scope.Fills s)
    (there : v ∈ scope.params) :
    scope.plain.resolve (s v) = .ok ((scope.images s).typeOf v) := by
  obtain ⟨ty, resolved, -⟩ := fills v there
  obtain ⟨ty', bound⟩ := Option.isSome_iff_exists.mp (isSome_lookup_images there resolved)
  unfold Bindings.typeOf
  rw [bound]
  exact (resolve_of_lookup_images bound).2

/-! ## §2. What is read as a pattern resolves. -/

/-- Around a field without type parameters, no name is hidden by one. -/
theorem resolveWith_plain (lookUp : String → Except Unresolved JavaType) (name : String)
    (args : List TypeSyntax) :
    scope.plain.resolveWith lookUp (.named name args) =
      match scope.plain.qualify name args.length with
      | .error e => .error e
      | .ok full => (scope.plain.resolveArgs lookUp args).map (.declared full) := by
  rw [Resolver.resolveWith]
  exact if_neg Bool.false_ne_true

/-- A class takes the number of type arguments that a pattern of it has. -/
theorem qualify_plain {name full : String} {arguments : Nat}
    (qualified : scope.catalog.qualify? name scope.package = some full)
    (arity : (scope.catalog.arity? full).all (· == arguments) = true) :
    scope.plain.qualify name arguments = .ok full := by
  refine Resolver.qualify_eq_ok_iff.mpr ⟨qualified, fun n known => ?_⟩
  have known : scope.catalog.arity? full = some n := known
  rw [known] at arity
  exact (eq_of_beq arity).symm

mutual

/-- If types are put in place of the type parameters, what is read as a pattern resolves to what the
pattern is with their images bound. -/
theorem resolveWith_instantiate {lookUp : String → Except Unresolved JavaType}
    {s : String → TypeSyntax} {b : Bindings}
    (given : ∀ v ∈ scope.params, scope.plain.resolveWith lookUp (s v) = .ok (b.typeOf v)) :
    ∀ {t : TypeSyntax} {p : Pattern}, scope.pattern t = .ok p →
      scope.plain.resolveWith lookUp (t.instantiate scope.params s) = .ok (p.substitute b)
  | .primitive q, p, h => by
    rw [pattern] at h
    cases h
    rfl
  | .array component, p, h => by
    obtain ⟨q, inner, rfl⟩ := pattern_array h
    rw [TypeSyntax.instantiate, Resolver.resolveWith, resolveWith_instantiate given inner]
    rfl
  | .wildcard _ _, p, h => by
    rw [pattern] at h
    cases h
  | .named name args, p, h => by
    rw [TypeSyntax.instantiate]
    rcases pattern_named h with ⟨bare, rfl⟩ | ⟨other, full, ps, qualified, arity, inner, rfl⟩
    · rw [if_pos bare]
      rw [Bool.and_eq_true] at bare
      exact given name (List.contains_iff_mem.mp bare.2)
    · rw [other, if_neg Bool.false_ne_true, resolveWith_plain, TypeSyntax.length_instantiateArgs,
        qualify_plain qualified arity, resolveArgs_instantiate given inner]
      rfl

theorem resolveArgs_instantiate {lookUp : String → Except Unresolved JavaType}
    {s : String → TypeSyntax} {b : Bindings}
    (given : ∀ v ∈ scope.params, scope.plain.resolveWith lookUp (s v) = .ok (b.typeOf v)) :
    ∀ {ts : List TypeSyntax} {ps : List Pattern}, scope.patterns ts = .ok ps →
      scope.plain.resolveArgs lookUp (TypeSyntax.instantiateArgs scope.params s ts)
        = .ok (Pattern.substituteArgs b ps)
  | [], ps, h => by
    rw [patterns] at h
    cases h
    rfl
  | t :: rest, ps, h => by
    obtain ⟨q, qs, first, others, rfl⟩ := patterns_cons h
    rw [TypeSyntax.instantiateArgs, Resolver.resolveArgs, resolveWith_instantiate given first]
    show (scope.plain.resolveArgs lookUp _).map _ = _
    rw [resolveArgs_instantiate given others]
    rfl

end

/-- The whole type resolves, too. -/
theorem resolve_instantiate {s : String → TypeSyntax} {t : TypeSyntax} {p : Pattern}
    (fills : scope.Fills s) (h : scope.pattern t = .ok p) :
    scope.plain.resolve (t.instantiate scope.params s) = .ok (p.substitute (scope.images s)) := by
  have resolved := resolveWith_instantiate
    (fun v there => Resolver.resolveWith_of_resolve (resolve_eq_typeOf fills there)) h
  cases t with
  | wildcard upper lower =>
    rw [pattern] at h
    cases h
  | named name args =>
    rw [TypeSyntax.instantiate] at resolved ⊢
    rcases pattern_named h with ⟨bare, rfl⟩ | ⟨other, -⟩
    · -- The type as a whole is what was put in place of a type parameter.
      rw [if_pos bare]
      rw [Bool.and_eq_true] at bare
      exact resolve_eq_typeOf fills (List.contains_iff_mem.mp bare.2)
    · rw [other, if_neg Bool.false_ne_true] at resolved ⊢
      exact resolved
  | _ => exact resolved

/-! ## §3. What is refused. -/

/-- Two outcomes concur: both give something, or both are refused with the same finding. -/
inductive Concur {α β : Type} : Except Unresolved α → Except Unresolved β → Prop
  | ok {a b} : Concur (.ok a) (.ok b)
  | error {e e'} (same : e.finding = e'.finding) : Concur (.error e) (.error e')

theorem Concur.map {α β α' β' : Type} {x : Except Unresolved α} {y : Except Unresolved β}
    {f : α → α'} {g : β → β'} (h : Concur x y) : Concur (x.map f) (y.map g) := by
  cases h with
  | ok => exact .ok
  | error same => exact .error same

/-- An unknown name is unknown around a field, too. -/
theorem qualify_plain_of_unknown {name : String} (arguments : Nat)
    (unknown : scope.catalog.qualify? name scope.package = none) :
    scope.plain.qualify name arguments = .error (Resolver.unknownName name) := by
  simp only [Resolver.qualify, plain, unknown]

/-- A class that does not take the number of type arguments is refused around a field, too. -/
theorem qualify_plain_of_misfit {name full : String} {arguments : Nat}
    (qualified : scope.catalog.qualify? name scope.package = some full)
    (misfit : ¬ (scope.catalog.arity? full).all (· == arguments) = true) :
    ∃ e, scope.plain.qualify name arguments = .error e ∧ e.finding = .rawTypeError := by
  rcases known : scope.catalog.arity? full with _ | arity
  · -- Only a number that is known can be missed.
    rw [known] at misfit
    exact absurd rfl misfit
  · refine ⟨Resolver.wrongArity full arity arguments, ?_, rfl⟩
    have other : arguments ≠ arity := by
      rintro rfl
      rw [known] at misfit
      exact misfit (beq_self_eq_true _)
    simp only [Resolver.qualify, plain, qualified, known, if_neg other]

mutual

/-- Without type parameters and wildcards, a type is read as a pattern or refused like it is
resolved or refused. -/
theorem concur_resolveWith (bare : scope.params = [])
    {lookUp : String → Except Unresolved JavaType} : ∀ {t : TypeSyntax}, t.hasWildcard = false →
      Concur (scope.pattern t) (scope.plain.resolveWith lookUp t)
  | .primitive _, _ => by
    rw [pattern, Resolver.resolveWith]
    exact .ok
  | .array component, h => by
    rw [pattern, Resolver.resolveWith]
    exact (concur_resolveWith bare (t := component) h).map
  | .named name args, h => by
    have inner : Concur (scope.patterns args) (scope.plain.resolveArgs lookUp args) :=
      concur_resolveArgs bare h
    have free : (args.isEmpty && scope.params.contains name) = false := by
      rw [bare]
      exact Bool.and_false _
    rw [pattern, resolveWith_plain, free, if_neg Bool.false_ne_true]
    rcases qualified : scope.catalog.qualify? name scope.package with _ | full
    · rw [qualify_plain_of_unknown args.length qualified]
      exact .error rfl
    · by_cases arity : (scope.catalog.arity? full).all (· == args.length) = true
      · rw [qualify_plain qualified arity]
        show Concur (if _ then _ else _) _
        rw [if_pos arity]
        exact inner.map
      · obtain ⟨e, refused, raw⟩ := qualify_plain_of_misfit qualified arity
        rw [refused]
        show Concur (if _ then _ else _) _
        rw [if_neg arity]
        exact .error raw.symm

theorem concur_resolveArgs (bare : scope.params = [])
    {lookUp : String → Except Unresolved JavaType} : ∀ {ts : List TypeSyntax},
      TypeSyntax.anyHasWildcard ts = false →
        Concur (scope.patterns ts) (scope.plain.resolveArgs lookUp ts)
  | [], _ => by
    rw [patterns, Resolver.resolveArgs]
    exact .ok
  | t :: rest, h => by
    rw [TypeSyntax.anyHasWildcard, Bool.or_eq_false_iff] at h
    rw [patterns, Resolver.resolveArgs]
    have first : Concur (scope.pattern t) (scope.plain.resolveWith lookUp t) :=
      concur_resolveWith bare h.1
    have others : Concur (scope.patterns rest) (scope.plain.resolveArgs lookUp rest) :=
      concur_resolveArgs bare h.2
    generalize scope.pattern t = read at first
    generalize scope.plain.resolveWith lookUp t = resolved at first
    cases first with
    | ok => exact others.map
    | error same => exact .error same

end

/-! ## §4. Both together. -/

/-- A pattern that was read matches what it is with the images of the type parameters bound, and
binds no more than those. -/
theorem exists_match?_images {s : String → TypeSyntax} {t : TypeSyntax} {p : Pattern}
    (fills : scope.Fills s) (h : scope.pattern t = .ok p) :
    ∃ b, p.match? (p.substitute (scope.images s)) [] = some b ∧ (scope.images s).Extends b := by
  refine Pattern.exists_match?_substitute ?_ ?_
  · intro v ty bound
    obtain ⟨there, resolved⟩ := resolve_of_lookup_images bound
    obtain ⟨ty', resolved', reference⟩ := fills v there
    cases resolved.symm.trans resolved'
    exact reference
  · intro v mentioned
    have there := Registry.mem_params_of_pattern h mentioned
    obtain ⟨ty, resolved, -⟩ := fills v there
    exact isSome_lookup_images there resolved

/-- **Handled types and the types of fields are read alike.**  Let a type be read as a pattern, and
let types be put in place of the type parameters, each of which resolves to a type that is not
primitive.  Then what results resolves to what the pattern is with their images bound; and the
pattern matches that, with these bindings.  Without type parameters and wildcards, a type is refused
as a pattern exactly if it is refused as the type of a field, with the same finding. -/
theorem handled_resolves_alike (scope : AdapterScope) (t : TypeSyntax) (s : String → TypeSyntax)
    (fills : scope.Fills s) :
    (∀ p, scope.pattern t = .ok p →
      scope.plain.resolve (t.instantiate scope.params s) = .ok (p.substitute (scope.images s)) ∧
      ∃ b, p.match? (p.substitute (scope.images s)) [] = some b ∧
        (scope.images s).Extends b) ∧
    (scope.params = [] → t.hasWildcard = false →
      Concur (scope.pattern t) (scope.plain.resolve t)) := by
  refine ⟨fun p read => ⟨resolve_instantiate fills read, exists_match?_images fills read⟩, ?_⟩
  intro bare free
  have plain : ∀ upper lower, t ≠ .wildcard upper lower := by
    rintro upper lower rfl
    cases free
  rw [Resolver.resolve_of_plain plain]
  exact concur_resolveWith bare free

/-- The surroundings of an adapter with these type parameters. -/
def boxing (params : List String) : AdapterScope := ⟨⟨⟨[], []⟩, "Codec"⟩, "app", params⟩

/-- A map from a type parameter to arrays of it. -/
def arraysOfT : TypeSyntax := .named "java.util.Map" [.named "T" [], .array (.named "T" [])]

/-- With strings put in place of the type parameter, the map resolves and is matched.  Without the
type parameter, the map is refused around a field since it is refused around an adapter. -/
theorem handled_resolves_alike_arrays :
    (∃ p, (boxing ["T"]).pattern arraysOfT = .ok p ∧
      (boxing ["T"]).plain.resolve (arraysOfT.instantiate ["T"] fun _ => .named "String" [])
        = .ok (p.substitute ((boxing ["T"]).images fun _ => .named "String" [])) ∧
      ∃ b, p.match? (p.substitute ((boxing ["T"]).images fun _ => .named "String" [])) []
        = some b) ∧
    ∃ e, (boxing []).plain.resolve arraysOfT = .error e ∧ e.finding = .unknownTypeVariable := by
  have ⟨read, resolved, refused⟩ :
      (boxing ["T"]).pattern arraysOfT
          = .ok (.declared "java.util.Map" [.var "T", .array (.var "T")]) ∧
        (boxing ["T"]).plain.resolve (.named "String" []) = .ok (.named JavaType.stringName) ∧
        (boxing []).pattern arraysOfT = .error (unknownType "T") := by
    decide +kernel
  have fills : (boxing ["T"]).Fills fun _ => .named "String" [] := fun _ _ => ⟨_, resolved, rfl⟩
  constructor
  · obtain ⟨alike, -⟩ := handled_resolves_alike (boxing ["T"]) arraysOfT _ fills
    obtain ⟨whole, b, matched, -⟩ := alike _ read
    exact ⟨_, read, whole, b, matched⟩
  · obtain ⟨-, alike⟩ := handled_resolves_alike (boxing []) arraysOfT (.named · []) nofun
    have concur := alike rfl rfl
    rw [refused] at concur
    generalize (boxing []).plain.resolve arraysOfT = outcome at concur
    cases concur with
    | error same => exact ⟨_, rfl, same.symm⟩

end AdapterScope

end ParcelCodec
