import Mathlib.Logic.Relation
import ParcelCodec.Proofs.Alongside
import ParcelCodec.Proofs.Resolution.Runs

/-!
# Type variables that are bounded by themselves

A type parameter leads to another one if it has a single bound and that bound mentions the other
one.  A type resolves only if no parameter in it leads to a circle, and it is refused as recursive
only if one does.

Both halves follow the rules of resolution.  A type that resolves has a finite derivation, in which
the parameters that are led to have derivations of their own, inside of it; on a circle that would
go on for ever.  A type is refused as recursive at a variable that is being visited or that stands
in its own bound, and the variables that are being visited lead to whatever is resolved.

Main statement: `resolve_ends_and_tells_circles`.
-/

namespace ParcelCodec.Resolver

variable {r : Resolver}

/-! ## §1. Parameters in a type. -/

/-- A type parameter is mentioned in a type: its bare name stands somewhere in the type. -/
def Mentions (r : Resolver) (t : TypeSyntax) (a : String) : Prop :=
  (r.param? a).isSome = true ∧ t.mentions a = true

/-- A type parameter is mentioned in one of several types. -/
def ArgsMention (r : Resolver) (ts : List TypeSyntax) (a : String) : Prop :=
  (r.param? a).isSome = true ∧ TypeSyntax.anyMentions a ts = true

/-- A primitive type mentions no parameter. -/
theorem not_mentions_primitive {p : Java.Primitive} {a : String} : ¬ r.Mentions (.primitive p) a :=
  fun ⟨_, mentioned⟩ => nomatch mentioned

/-- An unbounded wildcard mentions no parameter. -/
theorem not_mentions_unbounded {a : String} : ¬ r.Mentions (.wildcard none none) a :=
  fun ⟨_, mentioned⟩ => nomatch mentioned

/-- Where there are no arguments, no parameter is mentioned. -/
theorem not_argsMention_nil {a : String} : ¬ r.ArgsMention [] a :=
  fun ⟨_, mentioned⟩ => nomatch mentioned

/-- A bounded wildcard mentions what its bound mentions. -/
theorem mentions_upper_iff {bound : TypeSyntax} {a : String} :
    r.Mentions (.wildcard (some bound) none) a ↔ r.Mentions bound a := by
  unfold Mentions
  rw [TypeSyntax.mentions, TypeSyntax.boundMentions, TypeSyntax.boundMentions, Bool.or_false]

/-- A parameter without type arguments mentions itself. -/
theorem mentions_parameter_iff {name a : String} (known : (r.param? name).isSome = true) :
    r.Mentions (.named name []) a ↔ a = name := by
  unfold Mentions
  rw [TypeSyntax.mentions, TypeSyntax.anyMentions, Bool.or_false, beq_iff_eq]
  constructor
  · rintro ⟨-, rfl⟩
    rfl
  · rintro rfl
    exact ⟨known, rfl⟩

/-- The name of a declared type is no parameter. -/
theorem mentions_declared_iff {name a : String} {args : List TypeSyntax}
    (unknown : (r.param? name).isSome = false) :
    r.Mentions (.named name args) a ↔ r.ArgsMention args a := by
  unfold Mentions ArgsMention
  rw [TypeSyntax.mentions, Bool.or_eq_true, beq_iff_eq]
  constructor
  · rintro ⟨known, rfl | mentioned⟩
    · rw [known] at unknown
      cases unknown
    · exact ⟨known, mentioned⟩
  · rintro ⟨known, mentioned⟩
    exact ⟨known, .inr mentioned⟩

/-- Arguments mention what one of them mentions. -/
theorem argsMention_cons_iff {t : TypeSyntax} {rest : List TypeSyntax} {a : String} :
    r.ArgsMention (t :: rest) a ↔ r.Mentions t a ∨ r.ArgsMention rest a := by
  unfold Mentions ArgsMention
  rw [TypeSyntax.anyMentions, Bool.or_eq_true, and_or_left]

/-! ## §2. From a parameter to those in its bound. -/

/-- A type parameter has a single bound in all, and that bound mentions another parameter. -/
def BoundedBy (r : Resolver) (a b : String) : Prop :=
  ∃ param bound, r.param? a = some param ∧ boundsOf param = .ok [bound] ∧ r.Mentions bound b

/-- From a parameter one gets to one that is bounded by itself, directly or through others. -/
def LeadsToCircle (r : Resolver) (a : String) : Prop :=
  ∃ b, Relation.ReflTransGen r.BoundedBy a b ∧ Relation.TransGen r.BoundedBy b b

/-- Whatever leads to a parameter that leads to a circle leads to it, too. -/
theorem LeadsToCircle.head {a b : String} (edge : r.BoundedBy a b) (h : r.LeadsToCircle b) :
    r.LeadsToCircle a := by
  obtain ⟨c, path, circle⟩ := h
  exact ⟨c, path.head edge, circle⟩

/-- A parameter that leads to a circle has a next one that leads there. -/
theorem LeadsToCircle.exists_next {a : String} (h : r.LeadsToCircle a) :
    ∃ b, r.BoundedBy a b ∧ r.LeadsToCircle b := by
  obtain ⟨c, path, circle⟩ := h
  rcases path.cases_head with rfl | ⟨b, edge, path⟩
  · -- The parameter is on the circle itself, and so is the next one.
    obtain ⟨b, edge, back⟩ := Relation.TransGen.head'_iff.mp circle
    exact ⟨b, edge, a, back, circle⟩
  · exact ⟨b, edge, c, path, circle⟩

/-- A parameter without a bound leads nowhere. -/
theorem not_boundedBy_of_free {a b : String} (h : r.boundOf a = .ok none) : ¬ r.BoundedBy a b := by
  rintro ⟨param, bound, found, only, -⟩
  rw [boundOf, found] at h
  simp only [only] at h
  split at h <;> cases h

/-- A parameter leads to those that its bound mentions. -/
theorem boundedBy_iff {a b : String} {bound : TypeSyntax} (h : r.boundOf a = .ok (some bound)) :
    r.BoundedBy a b ↔ r.Mentions bound b := by
  unfold boundOf at h
  split at h
  · cases h
  · next param found =>
    split at h
    · cases h
    · cases h
    · next only =>
      split at h
      · cases h
      · cases h
        refine ⟨?_, fun mentioned => ⟨param, bound, found, only, mentioned⟩⟩
        rintro ⟨param', bound', found', only', mentioned⟩
        cases found.symm.trans found'
        cases only.symm.trans only'
        exact mentioned
    · cases h

/-- Bounds that cannot be read are ill-formed text. -/
theorem finding_of_boundsOf {param : TypeParam} {e : Unresolved}
    (h : boundsOf param = .error e) : e.finding = .typeSyntaxError := by
  unfold boundsOf at h
  cases read : param.bounds.mapM fun text =>
      (TypeSyntax.parseBounds text).mapError fun e =>
        Unresolved.mk .typeSyntaxError (e.message ++ " in bound " ++ displayed text) with
  | ok bounds =>
    rw [read] at h
    cases h
  | error e' =>
    rw [read] at h
    cases h
    obtain ⟨text, -, failed⟩ := Alongside.exists_error_of_mapM read
    cases parsed : TypeSyntax.parseBounds text with
    | ok bounds =>
      rw [parsed] at failed
      cases failed
    | error problem =>
      rw [parsed] at failed
      cases failed
      rfl

/-- A parameter whose bound is refused as recursive leads to itself. -/
theorem boundedBy_self {a : String} {e : Unresolved} (h : r.boundOf a = .error e)
    (recursive : e.finding = .fieldTypeIsRecursive) : r.BoundedBy a a := by
  unfold boundOf at h
  split at h
  · cases h
    cases recursive
  · next param found =>
    split at h
    · next failed =>
      cases h
      rw [finding_of_boundsOf failed] at recursive
      cases recursive
    · cases h
    · next bound only =>
      split at h
      · next mentioned =>
        cases h
        have known : (r.param? a).isSome = true := by rw [found, Option.isSome_some]
        exact ⟨param, bound, found, only, known, mentioned⟩
      · cases h
    · cases h
      cases recursive

/-- A name that cannot be qualified is not refused as recursive. -/
theorem finding_of_qualify {name : String} {arguments : Nat} {e : Unresolved}
    (h : r.qualify name arguments = .error e) : e.finding ≠ .fieldTypeIsRecursive := by
  intro recursive
  unfold qualify at h
  split at h
  · cases h
    cases recursive
  · split at h
    · split at h
      · cases h
      · cases h
        cases recursive
    · cases h

/-! ## §3. What an outcome tells. -/

/-- A parameter leads to a circle or to one that is being visited. -/
def LeadsBack (r : Resolver) (visiting : List String) (a : String) : Prop :=
  r.LeadsToCircle a ∨ ∃ b ∈ visiting, Relation.ReflTransGen r.BoundedBy a b

/-- What an outcome tells about the parameters that are mentioned in whatever was resolved: if it
is a type, none of them leads to a circle, and if it is the refusal of a recursive type, one of them
leads to a circle or back to where resolving came from. -/
def Tells {α : Type} (r : Resolver) (visiting : List String) (mentioned : String → Prop) :
    Except Unresolved α → Prop
  | .ok _ => ∀ a, mentioned a → ¬ r.LeadsToCircle a
  | .error e => e.finding = .fieldTypeIsRecursive → ∃ a, mentioned a ∧ r.LeadsBack visiting a

/-- An outcome tells the same of types that mention the same parameters. -/
theorem Tells.congr {α : Type} {visiting : List String} {mentioned mentioned' : String → Prop}
    {outcome : Except Unresolved α} (same : ∀ a, mentioned' a ↔ mentioned a)
    (h : r.Tells visiting mentioned outcome) : r.Tells visiting mentioned' outcome := by
  rwa [funext fun a => propext (same a)]

mutual

/-- What resolving a type comes to tells whether it leads to a circle. -/
theorem tells_of_resolves : ∀ {visiting : List String} {t : TypeSyntax}
    {outcome : Except Unresolved JavaType}, r.Resolves visiting t outcome →
      r.Tells visiting (r.Mentions t) outcome
  | _, _, _, .primitive => fun _ mentioned => absurd mentioned not_mentions_primitive
  | _, _, _, .array inner => fun a mentioned => tells_of_resolves inner a mentioned
  | _, _, _, .arrayFails inner => fun recursive => tells_of_resolves inner recursive
  | _, _, _, .lower => nofun
  | _, _, _, .upper inner => (tells_of_resolves inner).congr fun _ => mentions_upper_iff
  | _, _, _, .unbounded => fun _ mentioned => absurd mentioned not_mentions_unbounded
  | _, _, _, .parameter known inner =>
    (tells_of_resolvesVariable inner).congr fun _ => mentions_parameter_iff known
  | _, _, _, .applied _ _ => nofun
  | _, _, _, .unqualified _ failed => fun recursive => absurd recursive (finding_of_qualify failed)
  | _, _, _, .declared unknown _ inner =>
    (tells_of_resolvesArgs inner).congr fun _ => mentions_declared_iff unknown
  | _, _, _, .argumentFails unknown _ inner =>
    (tells_of_resolvesArgs inner).congr fun _ => mentions_declared_iff unknown

/-- Likewise for arguments, of which the first that fails decides. -/
theorem tells_of_resolvesArgs : ∀ {visiting : List String} {ts : List TypeSyntax}
    {outcome : Except Unresolved (List JavaType)}, r.ResolvesArgs visiting ts outcome →
      r.Tells visiting (r.ArgsMention ts) outcome
  | _, _, _, .nil => fun _ mentioned => absurd mentioned not_argsMention_nil
  | _, _, _, .cons first others => by
    intro a mentioned
    rcases argsMention_cons_iff.mp mentioned with mentioned | mentioned
    · exact tells_of_resolves first a mentioned
    · exact tells_of_resolvesArgs others a mentioned
  | _, _, _, .headFails first => by
    intro recursive
    obtain ⟨a, mentioned, back⟩ := tells_of_resolves first recursive
    exact ⟨a, argsMention_cons_iff.mpr (.inl mentioned), back⟩
  | _, _, _, .tailFails _ others => by
    intro recursive
    obtain ⟨a, mentioned, back⟩ := tells_of_resolvesArgs others recursive
    exact ⟨a, argsMention_cons_iff.mpr (.inr mentioned), back⟩

/-- Likewise for a parameter, which is refused if it was visited before. -/
theorem tells_of_resolvesVariable : ∀ {visiting : List String} {name : String}
    {outcome : Except Unresolved JavaType}, r.ResolvesVariable visiting name outcome →
      r.Tells visiting (· = name) outcome
  | _, name, _, .visited again => fun _ => ⟨name, rfl, .inr ⟨name, again, .refl⟩⟩
  | _, name, _, .unclear _ failed => fun recursive =>
    ⟨name, rfl, .inl ⟨name, .refl, .single (boundedBy_self failed recursive)⟩⟩
  | _, name, _, .free _ absent => by
    rintro a rfl circle
    obtain ⟨b, edge, -⟩ := circle.exists_next
    exact not_boundedBy_of_free absent edge
  | _, name, outcome, .bounded _ only inner => by
    have told := tells_of_resolves inner
    cases outcome with
    | ok ty =>
      rintro a rfl circle
      obtain ⟨next, edge, circle⟩ := circle.exists_next
      exact told next ((boundedBy_iff only).mp edge) circle
    | error e =>
      intro recursive
      obtain ⟨next, mentioned, back⟩ := told recursive
      have edge : r.BoundedBy name next := (boundedBy_iff only).mpr mentioned
      refine ⟨name, rfl, ?_⟩
      rcases back with circle | ⟨b, there, path⟩
      · exact .inl (circle.head edge)
      · rcases List.mem_cons.mp there with rfl | there
        · -- The path comes back to the parameter that has just been entered.
          exact .inl ⟨b, .refl, Relation.TransGen.head' edge path⟩
        · exact .inr ⟨b, there, path.head edge⟩

end

/-! ## §4. Fields. -/

/-- **Resolving a type comes to an end and tells circles.**  Whatever the catalog, the package, the
type parameters and their bounds, the type of a field has exactly one outcome by the rules of
resolution, and `resolve` finds it.  If it resolves, no parameter that it mentions leads to a
circle; if it is refused as recursive, one of them does. -/
theorem resolve_ends_and_tells_circles (r : Resolver) (t : TypeSyntax) :
    (r.ResolvesField t (r.resolve t) ∧
      ∀ outcome, r.ResolvesField t outcome → outcome = r.resolve t) ∧
    (∀ ty, r.resolve t = .ok ty → ∀ a, r.Mentions t a → ¬ r.LeadsToCircle a) ∧
    (∀ e, r.resolve t = .error e → e.finding = .fieldTypeIsRecursive →
      ∃ a, r.Mentions t a ∧ r.LeadsToCircle a) := by
  refine ⟨⟨resolvesField_resolve r t, fun outcome => eq_resolve_of_resolvesField⟩, ?_, ?_⟩
  · intro ty resolved
    exact tells_of_resolves (resolves_of_resolve resolved nofun)
  · intro e refused recursive
    have other : (.error e : Except Unresolved JavaType) ≠ .error wildcardAsField := by
      intro same
      cases same
      cases recursive
    have run := resolves_of_resolve refused other
    obtain ⟨a, mentioned, circle | ⟨b, nowhere, -⟩⟩ := tells_of_resolves run recursive
    · exact ⟨a, mentioned, circle⟩
    · cases nowhere

/-- Two type parameters that are bounded by each other, once behind a wildcard and in an array, and
one that is not. -/
def entangled : Resolver :=
  ⟨⟨⟨[], []⟩, "Codec"⟩, "app",
    [⟨"N", ["Number"]⟩, ⟨"A", ["B"]⟩, ⟨"B", ["java.util.List<? extends A[]>"]⟩]⟩

/-- One parameter resolves to its bound; what mentions the others leads to a circle. -/
theorem resolve_ends_and_tells_circles_entangled :
    (entangled.resolve (.named "N" []) = .ok (.named "java.lang.Number") ∧
      ¬ entangled.LeadsToCircle "N") ∧
    (entangled.resolve (.array (.named "A" [])) = .error (boundedByItself "A") ∧
      ∃ a, entangled.Mentions (.array (.named "A" [])) a ∧ entangled.LeadsToCircle a) := by
  have ⟨resolved, refused⟩ :
      entangled.resolve (.named "N" []) = .ok (.named "java.lang.Number") ∧
        entangled.resolve (.array (.named "A" [])) = .error (boundedByItself "A") := by
    decide +kernel
  have mentioned : entangled.Mentions (.named "N" []) "N" := ⟨by decide, by decide⟩
  obtain ⟨-, straight, -⟩ := resolve_ends_and_tells_circles entangled (.named "N" [])
  obtain ⟨-, -, recursive⟩ := resolve_ends_and_tells_circles entangled (.array (.named "A" []))
  exact ⟨⟨resolved, straight _ resolved "N" mentioned⟩, refused, recursive _ refused rfl⟩

end ParcelCodec.Resolver
