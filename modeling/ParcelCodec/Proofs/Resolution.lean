import ParcelCodec.Proofs.Catalog.Alike
import ParcelCodec.Resolution

/-!
# Types resolve alike in catalogs that answer alike

Resolving a type asks the catalog what names stand for and how many type arguments they take, and
nothing else.

Main statement: `resolveText_alike`.
-/

namespace ParcelCodec.Resolver

variable {c c' : Catalog}

theorem qualify_alike (h : c.Alike c') (package : String) (params : List TypeParam)
    (name : String) (arguments : Nat) :
    (Resolver.mk c package params).qualify name arguments
      = (Resolver.mk c' package params).qualify name arguments := by
  unfold qualify
  simp only [h.qualify?, h.arity?]

mutual

theorem resolveWith_alike (h : c.Alike c') (package : String) (params : List TypeParam)
    (lookUp : String → Except Unresolved JavaType) :
    ∀ t : TypeSyntax, (Resolver.mk c package params).resolveWith lookUp t
      = (Resolver.mk c' package params).resolveWith lookUp t
  | .primitive _ => rfl
  | .array component => by
    unfold resolveWith
    rw [resolveWith_alike h package params lookUp component]
  | .wildcard _ (some _) => rfl
  | .wildcard (some upper) none => by
    unfold resolveWith
    rw [resolveWith_alike h package params lookUp upper]
  | .wildcard none none => rfl
  | .named name args => by
    unfold resolveWith
    rw [qualify_alike h, resolveArgs_alike h package params lookUp args]
    rfl

theorem resolveArgs_alike (h : c.Alike c') (package : String) (params : List TypeParam)
    (lookUp : String → Except Unresolved JavaType) :
    ∀ ts : List TypeSyntax, (Resolver.mk c package params).resolveArgs lookUp ts
      = (Resolver.mk c' package params).resolveArgs lookUp ts
  | [] => rfl
  | t :: rest => by
    unfold resolveArgs
    rw [resolveWith_alike h package params lookUp t,
      resolveArgs_alike h package params lookUp rest]

end

section

variable (h : c.Alike c') (package : String) (params : List TypeParam)

include h

/-- A type variable stands for the same type: its bounds are part of the declaration. -/
theorem typeVariable_alike (unvisited : Nat) (visiting : List String) (name : String) :
    (Resolver.mk c package params).typeVariable unvisited visiting name
      = (Resolver.mk c' package params).typeVariable unvisited visiting name := by
  induction unvisited generalizing visiting name with
  | zero => rfl
  | succ unvisited ih =>
    have below : (Resolver.mk c package params).typeVariable unvisited (name :: visiting)
        = (Resolver.mk c' package params).typeVariable unvisited (name :: visiting) :=
      funext (ih (name :: visiting))
    unfold typeVariable
    rw [below]
    simp only [resolveWith_alike h package params]
    rfl

theorem resolve_alike (t : TypeSyntax) :
    (Resolver.mk c package params).resolve t = (Resolver.mk c' package params).resolve t := by
  have lookUp : (Resolver.mk c package params).typeVariable (params.length + 1) []
      = (Resolver.mk c' package params).typeVariable (params.length + 1) [] :=
    funext (typeVariable_alike h package params _ _)
  unfold resolve
  rw [lookUp]
  simp only [resolveWith_alike h package params]

/-- A text stands for the same type. -/
theorem resolveText_alike :
    (Resolver.mk c package params).resolveText = (Resolver.mk c' package params).resolveText := by
  funext text
  unfold resolveText
  rw [funext (resolve_alike h package params)]

end

end ParcelCodec.Resolver
