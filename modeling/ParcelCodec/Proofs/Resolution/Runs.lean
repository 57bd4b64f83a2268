import ParcelCodec.Proofs.Keyed
import ParcelCodec.Resolution

/-!
# Resolving a type comes to an end

A type variable stands for its bound, which may mention further variables, so resolving a type may
go on from variable to variable.  The rules below say how that goes, step by step, for types that
resolve and for types that do not: what they derive has come to an end, for a derivation is finite.
They know nothing of a bound on the depth.

Every type has exactly one outcome by these rules, and `resolve` finds it.  A variable that is
being visited is not entered again, so on each path there is one type parameter fewer to enter, and
that is what bounds the depth.

Main statements: `resolvesField_resolve` and `eq_resolve_of_resolvesField`.
-/

namespace ParcelCodec.Resolver

/-! ## §1. The rules. -/

mutual

/-- Resolving a type, while some type variables are being visited, ends with this outcome. -/
inductive Resolves (r : Resolver) : List String → TypeSyntax → Except Unresolved JavaType → Prop
  | primitive {visiting p} : Resolves r visiting (.primitive p) (.ok (.primitive p))
  | array {visiting component ty} (inner : Resolves r visiting component (.ok ty)) :
      Resolves r visiting (.array component) (.ok (.array ty))
  | arrayFails {visiting component e} (inner : Resolves r visiting component (.error e)) :
      Resolves r visiting (.array component) (.error e)
  | lower {visiting upper bound} :
      Resolves r visiting (.wildcard upper (some bound)) (.error (lowerBounded bound))
  | upper {visiting bound outcome} (inner : Resolves r visiting bound outcome) :
      Resolves r visiting (.wildcard (some bound) none) outcome
  | unbounded {visiting} : Resolves r visiting (.wildcard none none) (.ok .object)
  | parameter {visiting name outcome} (known : (r.param? name).isSome = true)
      (inner : ResolvesVariable r visiting name outcome) :
      Resolves r visiting (.named name []) outcome
  | applied {visiting name args} (known : (r.param? name).isSome = true) (filled : args ≠ []) :
      Resolves r visiting (.named name args) (.error (variableWithArguments name))
  | unqualified {visiting name args e} (unknown : (r.param? name).isSome = false)
      (failed : r.qualify name args.length = .error e) :
      Resolves r visiting (.named name args) (.error e)
  | declared {visiting name args full tys} (unknown : (r.param? name).isSome = false)
      (qualified : r.qualify name args.length = .ok full)
      (inner : ResolvesArgs r visiting args (.ok tys)) :
      Resolves r visiting (.named name args) (.ok (.declared full tys))
  | argumentFails {visiting name args full e} (unknown : (r.param? name).isSome = false)
      (qualified : r.qualify name args.length = .ok full)
      (inner : ResolvesArgs r visiting args (.error e)) :
      Resolves r visiting (.named name args) (.error e)

/-- Resolving several type arguments ends with this outcome. -/
inductive ResolvesArgs (r : Resolver) :
    List String → List TypeSyntax → Except Unresolved (List JavaType) → Prop
  | nil {visiting} : ResolvesArgs r visiting [] (.ok [])
  | cons {visiting t rest ty tys} (first : Resolves r visiting t (.ok ty))
      (others : ResolvesArgs r visiting rest (.ok tys)) :
      ResolvesArgs r visiting (t :: rest) (.ok (ty :: tys))
  | headFails {visiting t rest e} (first : Resolves r visiting t (.error e)) :
      ResolvesArgs r visiting (t :: rest) (.error e)
  | tailFails {visiting t rest ty e} (first : Resolves r visiting t (.ok ty))
      (others : ResolvesArgs r visiting rest (.error e)) :
      ResolvesArgs r visiting (t :: rest) (.error e)

/-- Resolving a type variable ends with this outcome; its bound is resolved while the variable is
being visited. -/
inductive ResolvesVariable (r : Resolver) :
    List String → String → Except Unresolved JavaType → Prop
  | visited {visiting name} (again : name ∈ visiting) :
      ResolvesVariable r visiting name (.error (boundedByItself name))
  | unclear {visiting name e} (new : name ∉ visiting) (failed : r.boundOf name = .error e) :
      ResolvesVariable r visiting name (.error e)
  | free {visiting name} (new : name ∉ visiting) (absent : r.boundOf name = .ok none) :
      ResolvesVariable r visiting name (.ok .object)
  | bounded {visiting name bound outcome} (new : name ∉ visiting)
      (only : r.boundOf name = .ok (some bound))
      (inner : Resolves r (name :: visiting) bound outcome) :
      ResolvesVariable r visiting name outcome

end

/-- Resolving the type of a field ends with this outcome. -/
inductive ResolvesField (r : Resolver) : TypeSyntax → Except Unresolved JavaType → Prop
  | wildcard {upper lower} : ResolvesField r (.wildcard upper lower) (.error wildcardAsField)
  | type {t outcome} (plain : ∀ upper lower, t ≠ .wildcard upper lower)
      (run : r.Resolves [] t outcome) : ResolvesField r t outcome

variable {r : Resolver}

/-- A name is qualified with a number of type arguments if it is known and takes as many, or if it
is not known how many it takes. -/
theorem qualify_eq_ok_iff {name full : String} {arguments : Nat} :
    r.qualify name arguments = .ok full ↔ r.catalog.qualify? name r.package = some full ∧
      ∀ arity, r.catalog.arity? full = some arity → arguments = arity := by
  unfold qualify
  rcases r.catalog.qualify? name r.package with _ | found
  · exact ⟨nofun, nofun⟩
  · dsimp only
    -- A name whose parameters are not known takes any number of arguments.
    rcases known : r.catalog.arity? found with _ | arity
    · constructor
      · intro h
        cases h
        refine ⟨rfl, fun arity known' => ?_⟩
        cases known.symm.trans known'
      · rintro ⟨same, -⟩
        cases same
        rfl
    · dsimp only
      constructor
      · intro h
        split at h
        · next same =>
          cases h
          refine ⟨rfl, fun arity' known' => ?_⟩
          cases known.symm.trans known'
          exact same
        · cases h
      · rintro ⟨same, fits⟩
        cases same
        exact if_pos (fits arity known)

/-! ## §2. How many parameters are left to visit. -/

/-- The number of type parameters that are not being visited. -/
def unvisited (r : Resolver) (visiting : List String) : Nat :=
  (r.params.filter fun p => !visiting.contains p.name).length

theorem unvisited_nil : r.unvisited [] = r.params.length := by
  unfold unvisited
  rw [List.filter_eq_self.mpr]
  intro p _
  rfl

/-- Only a type parameter has a bound. -/
theorem isSome_param?_of_boundOf {name : String} {bound : Option TypeSyntax}
    (h : r.boundOf name = .ok bound) : (r.param? name).isSome = true := by
  unfold boundOf at h
  split at h
  · cases h
  · next param found =>
    rw [found]
    rfl

/-- Entering a type parameter leaves fewer of them to visit. -/
theorem unvisited_cons_lt {visiting : List String} {name : String}
    (known : (r.param? name).isSome = true) (new : name ∉ visiting) :
    r.unvisited (name :: visiting) < r.unvisited visiting := by
  obtain ⟨param, found⟩ := Option.isSome_iff_exists.mp known
  obtain ⟨there, named⟩ := Keyed.of_find? found
  have mem : param ∈ r.params.filter fun p => !visiting.contains p.name := by
    refine List.mem_filter.mpr ⟨there, ?_⟩
    rw [named]
    simpa using new
  have twice : (r.params.filter fun p => !(name :: visiting).contains p.name)
      = (r.params.filter fun p => !visiting.contains p.name).filter fun p => p.name != name := by
    rw [List.filter_filter]
    refine List.filter_congr fun p _ => ?_
    rw [List.contains_cons, Bool.not_or]
    rfl
  unfold unvisited
  rw [twice]
  refine List.length_filter_lt_length_iff_exists.mpr ⟨param, mem, ?_⟩
  simp [named]

/-! ## §3. Every type has an outcome. -/

mutual

/-- A type has an outcome if all type variables have theirs. -/
theorem resolves_resolveWith {visiting : List String}
    {lookUp : String → Except Unresolved JavaType}
    (found : ∀ name, r.ResolvesVariable visiting name (lookUp name)) :
    ∀ t : TypeSyntax, r.Resolves visiting t (r.resolveWith lookUp t)
  | .primitive _ => .primitive
  | .array component => by
    have inner := resolves_resolveWith found component
    rw [resolveWith]
    cases outcome : r.resolveWith lookUp component with
    | ok ty => exact .array (outcome ▸ inner)
    | error e => exact .arrayFails (outcome ▸ inner)
  | .wildcard _ (some _) => .lower
  | .wildcard (some bound) none => by
    rw [resolveWith]
    exact .upper (resolves_resolveWith found bound)
  | .wildcard none none => .unbounded
  | .named name args => by
    have inner := resolvesArgs_resolveArgs found args
    rw [resolveWith]
    -- A name in scope is a parameter, whatever types are called.
    by_cases known : (r.param? name).isSome = true
    · rw [if_pos known]
      cases args with
      | nil => exact .parameter known (found name)
      | cons t rest => exact .applied known (List.cons_ne_nil t rest)
    · rw [if_neg known]
      have unknown := Bool.eq_false_iff.mpr known
      cases qualified : r.qualify name args.length with
      | error e => exact .unqualified unknown qualified
      | ok full =>
        show r.Resolves visiting _ ((r.resolveArgs lookUp args).map (JavaType.declared full))
        cases outcome : r.resolveArgs lookUp args with
        | ok tys => exact .declared unknown qualified (outcome ▸ inner)
        | error e => exact .argumentFails unknown qualified (outcome ▸ inner)

theorem resolvesArgs_resolveArgs {visiting : List String}
    {lookUp : String → Except Unresolved JavaType}
    (found : ∀ name, r.ResolvesVariable visiting name (lookUp name)) :
    ∀ ts : List TypeSyntax, r.ResolvesArgs visiting ts (r.resolveArgs lookUp ts)
  | [] => .nil
  | t :: rest => by
    have first := resolves_resolveWith found t
    have others := resolvesArgs_resolveArgs found rest
    rw [resolveArgs]
    cases outcome : r.resolveWith lookUp t with
    | error e => exact .headFails (outcome ▸ first)
    | ok ty =>
      show r.ResolvesArgs visiting _ ((r.resolveArgs lookUp rest).map (ty :: ·))
      cases outcomes : r.resolveArgs lookUp rest with
      | ok tys => exact .cons (outcome ▸ first) (outcomes ▸ others)
      | error e => exact .tailFails (outcome ▸ first) (outcomes ▸ others)

end

/-- A type variable has an outcome, and it is found at a depth of more than the number of
parameters that are left to visit. -/
theorem resolvesVariable_typeVariable {depth : Nat} : ∀ {visiting : List String},
    r.unvisited visiting < depth → ∀ name : String,
      r.ResolvesVariable visiting name (r.typeVariable depth visiting name) := by
  induction depth with
  | zero =>
    intro visiting room
    omega
  | succ depth ih =>
    intro visiting room name
    rw [typeVariable]
    by_cases again : name ∈ visiting
    · rw [if_pos (List.contains_iff_mem.mpr again)]
      exact .visited again
    · rw [if_neg (mt List.contains_iff_mem.mp again)]
      cases outcome : r.boundOf name with
      | error e => exact .unclear again outcome
      | ok bound =>
        cases bound with
        | none => exact .free again outcome
        | some bound =>
          have fewer := unvisited_cons_lt (isSome_param?_of_boundOf outcome) again
          have room' : r.unvisited (name :: visiting) < depth := by omega
          exact .bounded again outcome (resolves_resolveWith (ih room') bound)

/-! ## §4. And it has no other. -/

mutual

/-- The outcome of a type is the one that is found at a sufficient depth. -/
theorem resolveWith_of_resolves : ∀ {visiting : List String} {t : TypeSyntax}
    {outcome : Except Unresolved JavaType}, r.Resolves visiting t outcome →
    ∀ {depth : Nat}, r.unvisited visiting < depth →
      r.resolveWith (r.typeVariable depth visiting) t = outcome
  | _, _, _, .primitive, _, _ => rfl
  | _, _, _, .array inner, _, room => by
    rw [resolveWith, resolveWith_of_resolves inner room]
    rfl
  | _, _, _, .arrayFails inner, _, room => by
    rw [resolveWith, resolveWith_of_resolves inner room]
    rfl
  | _, _, _, .lower, _, _ => by rw [resolveWith]
  | _, _, _, .upper inner, _, room => by
    rw [resolveWith, resolveWith_of_resolves inner room]
  | _, _, _, .unbounded, _, _ => by rw [resolveWith]
  | _, _, _, .parameter known inner, _, room => by
    rw [resolveWith, if_pos known]
    exact typeVariable_of_resolves inner room
  | _, _, _, .applied known filled, _, _ => by
    rw [resolveWith, if_pos known, if_neg (mt List.isEmpty_iff.mp filled)]
  | _, _, _, .unqualified unknown failed, _, _ => by
    rw [resolveWith, if_neg (Bool.eq_false_iff.mp unknown), failed]
  | _, _, _, .declared unknown qualified inner, _, room => by
    rw [resolveWith, if_neg (Bool.eq_false_iff.mp unknown), qualified]
    show (r.resolveArgs _ _).map _ = _
    rw [resolveArgs_of_resolves inner room]
    rfl
  | _, _, _, .argumentFails unknown qualified inner, _, room => by
    rw [resolveWith, if_neg (Bool.eq_false_iff.mp unknown), qualified]
    show (r.resolveArgs _ _).map _ = _
    rw [resolveArgs_of_resolves inner room]
    rfl

theorem resolveArgs_of_resolves : ∀ {visiting : List String} {ts : List TypeSyntax}
    {outcome : Except Unresolved (List JavaType)}, r.ResolvesArgs visiting ts outcome →
    ∀ {depth : Nat}, r.unvisited visiting < depth →
      r.resolveArgs (r.typeVariable depth visiting) ts = outcome
  | _, _, _, .nil, _, _ => rfl
  | _, _, _, .cons first others, _, room => by
    rw [resolveArgs, resolveWith_of_resolves first room]
    show (r.resolveArgs _ _).map _ = _
    rw [resolveArgs_of_resolves others room]
    rfl
  | _, _, _, .headFails first, _, room => by
    rw [resolveArgs, resolveWith_of_resolves first room]
  | _, _, _, .tailFails first others, _, room => by
    rw [resolveArgs, resolveWith_of_resolves first room]
    show (r.resolveArgs _ _).map _ = _
    rw [resolveArgs_of_resolves others room]
    rfl

theorem typeVariable_of_resolves : ∀ {visiting : List String} {name : String}
    {outcome : Except Unresolved JavaType}, r.ResolvesVariable visiting name outcome →
    ∀ {depth : Nat}, r.unvisited visiting < depth →
      r.typeVariable depth visiting name = outcome
  | _, _, _, _, 0, room => absurd room (Nat.not_lt_zero _)
  | _, _, _, .visited again, _ + 1, _ => by
    rw [typeVariable, if_pos (List.contains_iff_mem.mpr again)]
  | _, _, _, .unclear new failed, _ + 1, _ => by
    rw [typeVariable, if_neg (mt List.contains_iff_mem.mp new), failed]
  | _, _, _, .free new absent, _ + 1, _ => by
    rw [typeVariable, if_neg (mt List.contains_iff_mem.mp new), absent]
  | _, _, _, .bounded new only inner, depth + 1, room => by
    have fewer := unvisited_cons_lt (isSome_param?_of_boundOf only) new
    have room' : r.unvisited _ < depth := Nat.lt_of_lt_of_le fewer (Nat.le_of_lt_succ room)
    rw [typeVariable, if_neg (mt List.contains_iff_mem.mp new), only]
    exact resolveWith_of_resolves inner room'

end

/-! ## §5. The type of a field. -/

/-- With no variable being visited, `resolve` goes deep enough. -/
theorem unvisited_nil_lt : r.unvisited [] < r.params.length + 1 := by
  rw [unvisited_nil]
  exact Nat.lt_succ_self _

/-- What is no wildcard is resolved with no variable being visited. -/
theorem resolve_of_plain {t : TypeSyntax} (plain : ∀ upper lower, t ≠ .wildcard upper lower) :
    r.resolve t = r.resolveWith (r.typeVariable (r.params.length + 1) []) t := by
  cases t with
  | wildcard upper lower => exact absurd rfl (plain upper lower)
  | _ => rfl

/-- A type that resolves is no wildcard, so it is resolved like a type inside of another one. -/
theorem resolveWith_of_resolve {t : TypeSyntax} {ty : JavaType} (h : r.resolve t = .ok ty) :
    r.resolveWith (r.typeVariable (r.params.length + 1) []) t = .ok ty := by
  cases t with
  | wildcard upper lower => cases h
  | _ => exact h

/-- **Resolving the type of a field comes to an end**, with the outcome of `resolve`. -/
theorem resolvesField_resolve (r : Resolver) (t : TypeSyntax) :
    r.ResolvesField t (r.resolve t) := by
  by_cases plain : ∀ upper lower, t ≠ .wildcard upper lower
  · rw [resolve_of_plain plain]
    exact .type plain
      (resolves_resolveWith (resolvesVariable_typeVariable unvisited_nil_lt) t)
  · push Not at plain
    obtain ⟨upper, lower, rfl⟩ := plain
    exact .wildcard

/-- It ends with no other outcome. -/
theorem eq_resolve_of_resolvesField {t : TypeSyntax} {outcome : Except Unresolved JavaType}
    (h : r.ResolvesField t outcome) : outcome = r.resolve t := by
  cases h with
  | wildcard => rfl
  | type plain run =>
    rw [resolve_of_plain plain]
    exact (resolveWith_of_resolves run unvisited_nil_lt).symm

/-- A type that resolves is derived by the rules. -/
theorem resolves_of_resolve {t : TypeSyntax} {outcome : Except Unresolved JavaType}
    (h : r.resolve t = outcome) (other : outcome ≠ .error wildcardAsField) :
    r.Resolves [] t outcome := by
  have run := resolvesField_resolve r t
  rw [h] at run
  cases run with
  | wildcard => exact absurd rfl other
  | type _ run => exact run

end ParcelCodec.Resolver
