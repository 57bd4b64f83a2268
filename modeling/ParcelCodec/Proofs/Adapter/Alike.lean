import ParcelCodec.Adapter.Registry
import ParcelCodec.Proofs.Catalog.Alike

/-!
# Adapters are registered alike in catalogs that answer alike

What an adapter declaration says depends on the catalog only through the names it uses.

Main statement: `build_alike`.
-/

namespace ParcelCodec

variable {c c' : Catalog}

/-! ## §1. Patterns. -/

namespace AdapterScope

mutual

theorem pattern_alike (h : c.Alike c') (package : String) (params : List String) :
    ∀ t : TypeSyntax,
      (AdapterScope.mk c package params).pattern t = (AdapterScope.mk c' package params).pattern t
  | .primitive _ => rfl
  | .array component => by
    unfold pattern
    rw [pattern_alike h package params component]
  | .wildcard _ _ => rfl
  | .named name args => by
    unfold pattern
    simp only [h.qualify?, h.arity?, patterns_alike h package params args]

theorem patterns_alike (h : c.Alike c') (package : String) (params : List String) :
    ∀ ts : List TypeSyntax,
      (AdapterScope.mk c package params).patterns ts
        = (AdapterScope.mk c' package params).patterns ts
  | [] => rfl
  | t :: rest => by
    unfold patterns
    rw [pattern_alike h package params t, patterns_alike h package params rest]

end

variable (h : c.Alike c') (package : String) (params : List String)

include h

theorem handled_alike (text : String) :
    (AdapterScope.mk c package params).handled text
      = (AdapterScope.mk c' package params).handled text := by
  unfold handled
  simp only [pattern_alike h package params]

theorem dependency_alike (text : String) :
    (AdapterScope.mk c package params).dependency text
      = (AdapterScope.mk c' package params).dependency text := by
  unfold dependency
  simp only [h.qualify?, pattern_alike h package params]

end AdapterScope

/-! ## §2. Registration. -/

namespace Registry

theorem entry_alike (h : c.Alike c') (entries : List AdapterEntry) (d : AdapterDecl) :
    entry entries c d = entry entries c' d := by
  have asked :
      dependencyOf (AdapterScope.ofDecl c d) = dependencyOf (AdapterScope.ofDecl c' d) := by
    funext p
    unfold dependencyOf AdapterScope.ofDecl
    rw [AdapterScope.dependency_alike h]
  have handled : (AdapterScope.ofDecl c d).handled d.handles
      = (AdapterScope.ofDecl c' d).handled d.handles :=
    AdapterScope.handled_alike h d.package _ d.handles
  unfold entry
  simp only [asked, handled]
  rfl

theorem registerAll_alike (h : c.Alike c') (r : Registry) (ds : List AdapterDecl) :
    registerAll c r ds = registerAll c' r ds := by
  induction ds generalizing r with
  | nil => rfl
  | cons d rest ih =>
    unfold registerAll register
    simp only [entry_alike h, ih]

/-- The same adapters are registered, and the same rules are broken. -/
theorem build_alike (h : c.Alike c') : build c = build c' := by
  unfold build
  rw [h.adapters, registerAll_alike h]

end Registry

end ParcelCodec
