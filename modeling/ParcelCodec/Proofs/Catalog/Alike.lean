import ParcelCodec.DataClass.Eligibility
import ParcelCodec.Proofs.Keyed

/-!
# Catalogs that answer alike

The order in which a model declares its types shows in a catalog only where two declarations share
a qualified name.  Where none do, a catalog of the same declarations in another order finds the
same declaration under every name, qualifies every name alike, and therefore agrees on subtypes and
on whatever speaks against a class.

Main statements: `alike_of_perm` and `objections_alike`.
-/

namespace ParcelCodec

namespace Catalog

/-- Catalogs that answer alike. -/
structure Alike (c c' : Catalog) : Prop where
  decl? : ∀ name, c.decl? name = c'.decl? name
  qualify? : ∀ name package, c.qualify? name package = c'.qualify? name package
  size : c.model.types.length = c'.model.types.length
  adapters : c.model.adapters = c'.model.adapters
  suffix : c.suffix = c'.suffix
  companions : ∀ name, name ∈ DataClass.companionNames c ↔ name ∈ DataClass.companionNames c'

/-- Every catalog is like itself. -/
@[refl] theorem Alike.refl (c : Catalog) : c.Alike c :=
  ⟨fun _ => rfl, fun _ _ => rfl, rfl, rfl, rfl, fun _ => Iff.rfl⟩

/-! ## §1. Declarations in another order. -/

variable {c c' : Catalog} {m m' : Model}

/-- A type with a name of its own is found wherever it is declared. -/
theorem find?_of_perm (distinct : (m.types.map TypeDecl.qualifiedName).Nodup)
    (h : m.types.Perm m'.types) (name : String) : m.find? name = m'.find? name :=
  Keyed.find?_perm TypeDecl.qualifiedName distinct h name

/-- A name that is the simple name of a single declaration is so in every order. -/
theorem qualify?_of_perm (declared : ∀ name, c.decl? name = c'.decl? name)
    (h : c.model.types.Perm c'.model.types) (name package : String) :
    c.qualify? name package = c'.qualify? name package := by
  unfold Catalog.qualify?
  dsimp only
  rw [declared]
  split
  · rfl
  · split
    · rfl
    · split
      · rfl
      · have same := h.filter fun d => d.name == name || d.simpleName == name
        generalize c.model.types.filter _ = here at same ⊢
        generalize c'.model.types.filter _ = there at same ⊢
        -- Two orders of a single declaration are the same list.
        match here, there, same with
        | [], _, same => rw [List.nil_perm.mp same]
        | [_], _, same => rw [List.singleton_perm.mp same]
        | _ :: _ :: _, [], same => cases same.length_eq
        | _ :: _ :: _, [_], same => cases same.length_eq
        | _ :: _ :: _, _ :: _ :: _, _ => rfl

/-- Catalogs of the same declarations in different orders answer alike, if the declarations have
names of their own. -/
theorem alike_of_perm (distinct : (m.types.map TypeDecl.qualifiedName).Nodup)
    (h : m.types.Perm m'.types) (adapters : m.adapters = m'.adapters) (suffix : String) :
    Alike ⟨m, suffix⟩ ⟨m', suffix⟩ where
  decl? := find?_of_perm distinct h
  qualify? := qualify?_of_perm (find?_of_perm distinct h) h
  size := h.length_eq
  adapters := adapters
  suffix := rfl
  companions _ := ((h.filter (·.dataClass)).map _).mem_iff

/-! ## §2. Names. -/

namespace Alike

/-- Like catalogs give a name the same number of parameters. -/
theorem arity? (h : Alike c c') (name : String) : c.arity? name = c'.arity? name := by
  unfold Catalog.arity?
  rw [h.decl?]

/-- Like catalogs agree on what is an enum. -/
theorem isEnum (h : Alike c c') (name : String) : c.isEnum name = c'.isEnum name := by
  unfold Catalog.isEnum
  rw [h.decl?]

/-- Like catalogs give a class the same companion. -/
theorem companionSimpleName (h : Alike c c') (d : TypeDecl) :
    c.companionSimpleName d = c'.companionSimpleName d := by
  unfold Catalog.companionSimpleName
  rw [h.suffix]

theorem companionName (h : Alike c c') (d : TypeDecl) :
    c.companionName d = c'.companionName d := by
  unfold Catalog.companionName
  rw [h.companionSimpleName]

/-! ## §3. Subtypes. -/

/-- In like catalogs a name has the same parents. -/
theorem parents (h : Alike c c') (name : String) : c.parents name = c'.parents name := by
  unfold Catalog.parents Catalog.supertypes
  simp only [h.decl?, h.qualify?]

/-- In like catalogs a search settles at the same names. -/
theorem settles (h : Alike c c') (target name : String) :
    c.settles target name = c'.settles target name := by
  unfold Catalog.settles
  rw [h.decl?]

/-- A search takes the same steps. -/
theorem reach (h : Alike c c') (rounds : Nat) (reached frontier : List String) :
    c.reach rounds reached frontier = c'.reach rounds reached frontier := by
  induction rounds generalizing reached frontier with
  | zero => rfl
  | succ rounds ih =>
    have steps : c.parents = c'.parents := funext h.parents
    unfold Catalog.reach
    simp only [steps, ih]

/-- In like catalogs a name has the same types above it. -/
theorem isSubtype (h : Alike c c') (name target : String) :
    c.isSubtype name target = c'.isSubtype name target := by
  have shown : c.settles target = c'.settles target := funext (h.settles target)
  unfold Catalog.isSubtype Catalog.ancestors
  rw [h.size, h.reach, shown]

theorem isParcelable (h : Alike c c') (name : String) :
    c.isParcelable name = c'.isParcelable name :=
  h.isSubtype name _

theorem isSerializable (h : Alike c c') (name : String) :
    c.isSerializable name = c'.isSerializable name :=
  h.isSubtype name _

end Alike

end Catalog

/-! ## §4. Objections. -/

namespace DataClass

variable {c c' : Catalog}

theorem superclassFindings_alike (h : c.Alike c') (d : TypeDecl) :
    superclassFindings c d = superclassFindings c' d := by
  unfold superclassFindings
  split
  · rfl
  · next text _ =>
    have same : (companionNames c).contains (superclassName d.package text)
        = (companionNames c').contains (superclassName d.package text) := by
      rw [Bool.eq_iff_iff, List.contains_iff_mem, List.contains_iff_mem]
      exact h.companions _
    simp only [same]

/-- The same speaks against a class. -/
theorem objections_alike (h : c.Alike c') (d : TypeDecl) : objections c d = objections c' d := by
  unfold objections
  simp only [h.isParcelable, h.companionName, h.decl?, superclassFindings_alike h]

end DataClass

end ParcelCodec
