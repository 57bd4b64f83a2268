import Mathlib.Logic.Relation
import ParcelCodec.Proofs.Alongside
import ParcelCodec.Proofs.Codec.Parts
import ParcelCodec.Proofs.Resolution.Runs

/-!
# Resolved types take the arguments they should

A resolved type is copied into source text, so it should be a type there.  Every class in it has as
many type arguments as it has type parameters, whichever way it came in: as it was written, as the
bound of a wildcard, or as the bound of a type variable.

That its type arguments are no primitive types is asked nowhere.  So a resolved type has a primitive
type argument exactly if one was written, where a wildcard and a type variable count as what they
are bounded by.

Main statement: `resolved_fits_and_takes_what_is_written`.
-/

namespace ParcelCodec

/-! ## §1. What stands in a type. -/

/-- A type stands in another one, at any depth, or is that type. -/
def JavaType.StandsIn (part ty : JavaType) : Prop := Relation.ReflTransGen Codebook.Inside part ty

/-- A class or interface has as many type arguments as it is known to take; nothing is asked of the
type of everything. -/
def JavaType.FitsArity (c : Catalog) : JavaType → Prop
  | .declared name args =>
    name ≠ JavaType.objectName → ∀ arity, c.arity? name = some arity → args.length = arity
  | _ => True

/-- One of the type arguments is a primitive type. -/
def JavaType.TakesPrimitive (ty : JavaType) : Prop := ∃ arg ∈ ty.args, arg.isPrimitive = true

namespace JavaType

variable {part ty : JavaType}

/-- What stands in a type is the type, or stands in a part of it. -/
theorem standsIn_iff : part.StandsIn ty ↔ part = ty ∨ ∃ t, part.StandsIn t ∧ Codebook.Inside t ty :=
  (Relation.ReflTransGen.cases_tail_iff _ _ _).trans (or_congr_left eq_comm)

/-- Nothing stands in a primitive type but itself. -/
theorem standsIn_primitive_iff {p : Java.Primitive} :
    part.StandsIn (.primitive p) ↔ part = .primitive p := by
  rw [standsIn_iff]
  constructor
  · rintro (same | ⟨t, -, inside⟩)
    · exact same
    · cases inside
  · exact .inl

/-- What stands in an array type stands in its component, if it is not the array type. -/
theorem standsIn_array_iff : part.StandsIn (.array ty) ↔ part = .array ty ∨ part.StandsIn ty := by
  rw [standsIn_iff]
  refine or_congr_right ⟨?_, fun deeper => ⟨ty, deeper, .component⟩⟩
  rintro ⟨t, deeper, inside⟩
  cases inside
  exact deeper

/-- What stands in a class stands in one of its arguments, if it is not the class. -/
theorem standsIn_declared_iff {name : String} {args : List JavaType} :
    part.StandsIn (.declared name args)
      ↔ part = .declared name args ∨ ∃ arg ∈ args, part.StandsIn arg := by
  rw [standsIn_iff]
  refine or_congr_right ⟨?_, ?_⟩
  · rintro ⟨t, deeper, inside⟩
    cases inside with
    | arg there => exact ⟨t, there, deeper⟩
  · rintro ⟨arg, there, deeper⟩
    exact ⟨arg, deeper, .arg there⟩

/-- Every class in a type has as many type arguments as it is known to take. -/
def Fits (c : Catalog) (ty : JavaType) : Prop :=
  ∀ part : JavaType, part.StandsIn ty → part.FitsArity c

/-- A type argument somewhere in a type is a primitive type. -/
def HasPrimitiveArgument (ty : JavaType) : Prop :=
  ∃ part : JavaType, part.StandsIn ty ∧ part.TakesPrimitive

/-- A primitive type takes no arguments. -/
theorem not_hasPrimitiveArgument_primitive {p : Java.Primitive} :
    ¬ (JavaType.primitive p).HasPrimitiveArgument := by
  rintro ⟨part, stands, arg, there, -⟩
  rw [standsIn_primitive_iff.mp stands] at there
  cases there

/-- An array type has the arguments of its component. -/
theorem hasPrimitiveArgument_array_iff :
    (JavaType.array ty).HasPrimitiveArgument ↔ ty.HasPrimitiveArgument := by
  constructor
  · rintro ⟨part, stands, takes⟩
    rcases standsIn_array_iff.mp stands with rfl | deeper
    · obtain ⟨arg, there, -⟩ := takes
      cases there
    · exact ⟨part, deeper, takes⟩
  · rintro ⟨part, deeper, takes⟩
    exact ⟨part, standsIn_array_iff.mpr (.inr deeper), takes⟩

/-- A class has a primitive argument at the top or further down. -/
theorem hasPrimitiveArgument_declared_iff {name : String} {args : List JavaType} :
    (JavaType.declared name args).HasPrimitiveArgument
      ↔ ∃ arg ∈ args, arg.isPrimitive = true ∨ arg.HasPrimitiveArgument := by
  constructor
  · rintro ⟨part, stands, takes⟩
    rcases standsIn_declared_iff.mp stands with rfl | ⟨arg, there, deeper⟩
    · obtain ⟨arg, there, primitive⟩ := takes
      exact ⟨arg, there, .inl primitive⟩
    · exact ⟨arg, there, .inr ⟨part, deeper, takes⟩⟩
  · rintro ⟨arg, there, primitive | ⟨part, deeper, takes⟩⟩
    · exact ⟨_, .refl, arg, there, primitive⟩
    · exact ⟨part, standsIn_declared_iff.mpr (.inr ⟨arg, there, deeper⟩), takes⟩

/-- The type of everything takes no arguments. -/
theorem not_hasPrimitiveArgument_object : ¬ JavaType.object.HasPrimitiveArgument := by
  intro h
  obtain ⟨arg, there, -⟩ := hasPrimitiveArgument_declared_iff.mp h
  cases there

variable {c : Catalog}

/-- A primitive type has no arguments to count. -/
theorem fits_primitive {p : Java.Primitive} : (JavaType.primitive p).Fits c := by
  intro part stands
  rw [standsIn_primitive_iff.mp stands]
  trivial

/-- Nothing is asked of the type of everything. -/
theorem fits_object : JavaType.object.Fits c := by
  intro part stands
  rcases standsIn_declared_iff.mp stands with rfl | ⟨arg, there, -⟩
  · exact fun other => absurd rfl other
  · cases there

/-- An array type fits if its component does. -/
theorem Fits.array (h : ty.Fits c) : (JavaType.array ty).Fits c := by
  intro part stands
  rcases standsIn_array_iff.mp stands with rfl | deeper
  · trivial
  · exact h part deeper

/-- A class fits if it takes as many arguments as it has and each of them fits. -/
theorem Fits.declared {name : String} {args : List JavaType}
    (here : (JavaType.declared name args).FitsArity c) (inner : ∀ arg ∈ args, arg.Fits c) :
    (JavaType.declared name args).Fits c := by
  intro part stands
  rcases standsIn_declared_iff.mp stands with rfl | ⟨arg, there, deeper⟩
  · exact here
  · exact inner arg there part deeper

end JavaType

namespace Resolver

variable {r : Resolver}

/-! ## §2. What is written. -/

/-- A written type stands for a primitive type: it is one, or it is bounded by one. -/
inductive StandsForPrimitive (r : Resolver) : TypeSyntax → Prop
  | primitive {p} : StandsForPrimitive r (.primitive p)
  | upper {bound} (h : StandsForPrimitive r bound) :
      StandsForPrimitive r (.wildcard (some bound) none)
  | bound {name bound} (only : r.boundOf name = .ok (some bound))
      (h : StandsForPrimitive r bound) : StandsForPrimitive r (.named name [])

/-- A type argument that stands for a primitive type is written in a type, or in what a wildcard or
a type variable in it is bounded by. -/
inductive WritesPrimitive (r : Resolver) : TypeSyntax → Prop
  | here {name args t} (there : t ∈ args) (h : r.StandsForPrimitive t) :
      WritesPrimitive r (.named name args)
  | argument {name args t} (there : t ∈ args) (h : WritesPrimitive r t) :
      WritesPrimitive r (.named name args)
  | component {t} (h : WritesPrimitive r t) : WritesPrimitive r (.array t)
  | upper {bound} (h : WritesPrimitive r bound) : WritesPrimitive r (.wildcard (some bound) none)
  | bound {name bound} (only : r.boundOf name = .ok (some bound)) (h : WritesPrimitive r bound) :
      WritesPrimitive r (.named name [])

/-- A type variable stands for what it is bounded by. -/
theorem standsForPrimitive_variable_iff {name : String} {bound : TypeSyntax}
    (only : r.boundOf name = .ok (some bound)) :
    r.StandsForPrimitive (.named name []) ↔ r.StandsForPrimitive bound := by
  refine ⟨?_, .bound only⟩
  intro h
  cases h with
  | bound only' h =>
    cases only.symm.trans only'
    exact h

/-- What is written in a bound counts where its type variable stands. -/
theorem writesPrimitive_variable_iff {name : String} {bound : TypeSyntax}
    (only : r.boundOf name = .ok (some bound)) :
    r.WritesPrimitive (.named name []) ↔ r.WritesPrimitive bound := by
  refine ⟨?_, .bound only⟩
  intro h
  cases h with
  | here there _ => cases there
  | argument there _ => cases there
  | bound only' h =>
    cases only.symm.trans only'
    exact h

/-- What is no type parameter has no bound. -/
theorem boundOf_ne_of_unknown {name : String} (unknown : (r.param? name).isSome = false)
    (bound : Option TypeSyntax) : r.boundOf name ≠ .ok bound := by
  intro h
  rw [isSome_param?_of_boundOf h] at unknown
  cases unknown

/-- A name that is no type parameter does not stand for a primitive type. -/
theorem not_standsForPrimitive_declared {name : String} {args : List TypeSyntax}
    (unknown : (r.param? name).isSome = false) : ¬ r.StandsForPrimitive (.named name args) := by
  intro h
  cases h with
  | bound only _ => exact boundOf_ne_of_unknown unknown _ only

/-- In a class, a primitive argument is written at the top or further down. -/
theorem writesPrimitive_declared_iff {name : String} {args : List TypeSyntax}
    (unknown : (r.param? name).isSome = false) :
    r.WritesPrimitive (.named name args)
      ↔ ∃ t ∈ args, r.StandsForPrimitive t ∨ r.WritesPrimitive t := by
  constructor
  · intro h
    cases h with
    | here there h => exact ⟨_, there, .inl h⟩
    | argument there h => exact ⟨_, there, .inr h⟩
    | bound only _ => exact absurd only (boundOf_ne_of_unknown unknown _)
  · rintro ⟨t, there, h | h⟩
    · exact .here there h
    · exact .argument there h

theorem writesPrimitive_array_iff {t : TypeSyntax} :
    r.WritesPrimitive (.array t) ↔ r.WritesPrimitive t :=
  ⟨fun | .component h => h, .component⟩

/-- A wildcard stands for what bounds it from above. -/
theorem standsForPrimitive_upper_iff {bound : TypeSyntax} :
    r.StandsForPrimitive (.wildcard (some bound) none) ↔ r.StandsForPrimitive bound :=
  ⟨fun | .upper h => h, .upper⟩

/-- What is written in an upper bound counts where the wildcard stands. -/
theorem writesPrimitive_upper_iff {bound : TypeSyntax} :
    r.WritesPrimitive (.wildcard (some bound) none) ↔ r.WritesPrimitive bound :=
  ⟨fun | .upper h => h, .upper⟩

/-! ## §3. What becomes of it. -/

/-- A resolved type reflects what is written: its classes fit, and its primitive types are those
that are written. -/
structure Reflects (r : Resolver) (t : TypeSyntax) (ty : JavaType) : Prop where
  fits : ty.Fits r.catalog
  primitive : ty.isPrimitive = true ↔ r.StandsForPrimitive t
  argument : ty.HasPrimitiveArgument ↔ r.WritesPrimitive t

namespace Reflects

variable {t : TypeSyntax} {ty : JavaType}

theorem primitiveType {p : Java.Primitive} : r.Reflects (.primitive p) (.primitive p) where
  fits := JavaType.fits_primitive
  primitive := ⟨fun _ => .primitive, fun _ => rfl⟩
  argument := ⟨fun h => absurd h JavaType.not_hasPrimitiveArgument_primitive, nofun⟩

/-- An array type reflects what is written of its component. -/
theorem array (h : r.Reflects t ty) : r.Reflects (.array t) (.array ty) where
  fits := h.fits.array
  primitive := ⟨nofun, nofun⟩
  argument := by
    rw [JavaType.hasPrimitiveArgument_array_iff, writesPrimitive_array_iff]
    exact h.argument

/-- A wildcard becomes what bounds it from above. -/
theorem upper (h : r.Reflects t ty) : r.Reflects (.wildcard (some t) none) ty where
  fits := h.fits
  primitive := h.primitive.trans standsForPrimitive_upper_iff.symm
  argument := h.argument.trans writesPrimitive_upper_iff.symm

/-- A wildcard without bounds becomes the type of everything. -/
theorem unbounded : r.Reflects (.wildcard none none) .object where
  fits := JavaType.fits_object
  primitive := ⟨nofun, nofun⟩
  argument := ⟨fun h => absurd h JavaType.not_hasPrimitiveArgument_object, nofun⟩

/-- So does a type variable without a bound. -/
theorem free {name : String} (absent : r.boundOf name = .ok none) :
    r.Reflects (.named name []) .object where
  fits := JavaType.fits_object
  primitive := by
    refine ⟨nofun, fun h => ?_⟩
    cases h with
    | bound only _ => cases absent.symm.trans only
  argument := by
    refine ⟨fun h => absurd h JavaType.not_hasPrimitiveArgument_object, fun h => ?_⟩
    cases h with
    | here there _ => cases there
    | argument there _ => cases there
    | bound only _ => cases absent.symm.trans only

/-- A type variable becomes what it is bounded by. -/
theorem bounded {name : String} (only : r.boundOf name = .ok (some t)) (h : r.Reflects t ty) :
    r.Reflects (.named name []) ty where
  fits := h.fits
  primitive := h.primitive.trans (standsForPrimitive_variable_iff only).symm
  argument := h.argument.trans (writesPrimitive_variable_iff only).symm

/-- A class reflects what is written if its arguments do: their number was looked at when its name
was resolved. -/
theorem declared {name full : String} {args : List TypeSyntax} {tys : List JavaType}
    (unknown : (r.param? name).isSome = false) (qualified : r.qualify name args.length = .ok full)
    (each : List.Forall₂ r.Reflects args tys) :
    r.Reflects (.named name args) (.declared full tys) where
  fits := by
    refine JavaType.Fits.declared ?_ fun ty there => ?_
    · intro _ arity known
      -- The arguments were counted as they are written, and each of them became one type.
      rw [← each.length_eq]
      exact (qualify_eq_ok_iff.mp qualified).2 arity known
    · obtain ⟨t, -, reflects⟩ := Alongside.exists_left each ty there
      exact reflects.fits
  primitive := ⟨nofun, fun h => absurd h (not_standsForPrimitive_declared unknown)⟩
  argument := by
    rw [JavaType.hasPrimitiveArgument_declared_iff, writesPrimitive_declared_iff unknown]
    constructor
    · rintro ⟨ty, there, h⟩
      obtain ⟨t, written, reflects⟩ := Alongside.exists_left each ty there
      exact ⟨t, written, h.imp reflects.primitive.mp reflects.argument.mp⟩
    · rintro ⟨t, written, h⟩
      obtain ⟨ty, there, reflects⟩ := Alongside.exists_right each t written
      exact ⟨ty, there, h.imp reflects.primitive.mpr reflects.argument.mpr⟩

end Reflects

mutual

/-- Whatever a written type resolves to reflects it, by induction on how it was resolved. -/
theorem reflects_of_resolves : ∀ {visiting : List String} {t : TypeSyntax}
    {outcome : Except Unresolved JavaType}, r.Resolves visiting t outcome →
      ∀ {ty : JavaType}, outcome = .ok ty → r.Reflects t ty
  | _, _, _, .primitive, _, same => by
    cases same
    exact .primitiveType
  | _, _, _, .array inner, _, same => by
    cases same
    exact (reflects_of_resolves inner rfl).array
  | _, _, _, .arrayFails _, _, same => nomatch same
  | _, _, _, .lower, _, same => nomatch same
  | _, _, _, .upper inner, _, same => (reflects_of_resolves inner same).upper
  | _, _, _, .unbounded, _, same => by
    cases same
    exact .unbounded
  | _, _, _, .parameter _ inner, _, same => reflects_of_resolvesVariable inner same
  | _, _, _, .applied _ _, _, same => nomatch same
  | _, _, _, .unqualified _ _, _, same => nomatch same
  | _, _, _, .declared unknown qualified inner, _, same => by
    cases same
    exact .declared unknown qualified (reflects_of_resolvesArgs inner rfl)
  | _, _, _, .argumentFails _ _ _, _, same => nomatch same

/-- So it is for arguments, one by one. -/
theorem reflects_of_resolvesArgs : ∀ {visiting : List String} {ts : List TypeSyntax}
    {outcome : Except Unresolved (List JavaType)}, r.ResolvesArgs visiting ts outcome →
      ∀ {tys : List JavaType}, outcome = .ok tys → List.Forall₂ r.Reflects ts tys
  | _, _, _, .nil, _, same => by
    cases same
    exact .nil
  | _, _, _, .cons first others, _, same => by
    cases same
    exact .cons (reflects_of_resolves first rfl) (reflects_of_resolvesArgs others rfl)
  | _, _, _, .headFails _, _, same => nomatch same
  | _, _, _, .tailFails _ _, _, same => nomatch same

/-- So it is for a type variable, which resolves to what its bound resolves to. -/
theorem reflects_of_resolvesVariable : ∀ {visiting : List String} {name : String}
    {outcome : Except Unresolved JavaType}, r.ResolvesVariable visiting name outcome →
      ∀ {ty : JavaType}, outcome = .ok ty → r.Reflects (.named name []) ty
  | _, _, _, .visited _, _, same => nomatch same
  | _, _, _, .unclear _ _, _, same => nomatch same
  | _, _, _, .free _ absent, _, same => by
    cases same
    exact .free absent
  | _, _, _, .bounded _ only inner, _, same => (reflects_of_resolves inner same).bounded only

end

/-! ## §4. Texts. -/

/-- **A resolved type fits, and takes the primitive types that are written.**  If a text resolves,
every class in the resulting type has as many type arguments as it is known to take.  A type
argument in it is a primitive type exactly if one is written, in the text or in what its wildcards
and type variables are bounded by. -/
theorem resolved_fits_and_takes_what_is_written {text : String} {ty : JavaType}
    (h : r.resolveText text = .ok ty) :
    ty.Fits r.catalog ∧
      ∃ t, parse text = .ok t ∧ (ty.HasPrimitiveArgument ↔ r.WritesPrimitive t) := by
  unfold resolveText at h
  rcases parsed : parse text with e | t
  · rw [parsed] at h
    cases h
  · rw [parsed] at h
    have resolved : r.resolve t = .ok ty := h
    have reflects := reflects_of_resolves (resolves_of_resolve resolved nofun) rfl
    exact ⟨reflects.fits, t, rfl, reflects.argument⟩

/-- A type parameter that is bounded by a primitive type. -/
def narrow : Resolver := ⟨⟨⟨[], []⟩, "Codec"⟩, "app", [⟨"P", ["int"]⟩]⟩

/-- The list of a primitive type. -/
def intList : JavaType := .declared "java.util.List" [.int]

theorem hasPrimitiveArgument_intList : intList.HasPrimitiveArgument :=
  JavaType.hasPrimitiveArgument_declared_iff.mpr ⟨.int, List.mem_singleton_self _, .inl rfl⟩

/-- Three ways to write a list of integers, none of which is a type in source text. -/
theorem resolveText_intList :
    narrow.resolveText "java.util.List<int>" = .ok intList ∧
      narrow.resolveText "java.util.List<? extends int>" = .ok intList ∧
      narrow.resolveText "java.util.List<P>" = .ok intList := by
  decide +kernel

/-- The list of a type variable fits, and has a primitive type argument since its bound writes
one. -/
theorem resolved_fits_and_takes_what_is_written_variable :
    narrow.resolveText "java.util.List<P>" = .ok intList ∧ intList.Fits narrow.catalog ∧
      ∃ t, parse "java.util.List<P>" = .ok t ∧ narrow.WritesPrimitive t := by
  obtain ⟨-, -, resolved⟩ := resolveText_intList
  obtain ⟨fits, t, parsed, written⟩ := resolved_fits_and_takes_what_is_written resolved
  exact ⟨resolved, fits, t, parsed, written.mp hasPrimitiveArgument_intList⟩

/-- So a resolved type is not always one that may stand in source text: a primitive type becomes a
type argument where it is written, where it bounds a wildcard and where it bounds a type
variable. -/
theorem primitive_arguments_accepted :
    narrow.resolveText "java.util.List<int>" = .ok intList ∧
      narrow.resolveText "java.util.List<? extends int>" = .ok intList ∧
      narrow.resolveText "java.util.List<P>" = .ok intList ∧ intList.HasPrimitiveArgument := by
  obtain ⟨written, wildcard, bounded⟩ := resolveText_intList
  exact ⟨written, wildcard, bounded, hasPrimitiveArgument_intList⟩

end Resolver

end ParcelCodec
