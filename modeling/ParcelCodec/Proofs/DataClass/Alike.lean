import ParcelCodec.Proofs.DataClass.Described
import ParcelCodec.Proofs.Resolution

/-!
# Classes are described alike by codebooks that agree

A codebook is asked for the rules of types, and its catalog for what the texts of a class stand
for.  Codebooks whose catalogs answer alike, whose registries are the same and that reject the same
classes describe every class alike, in whatever order the declarations and the rejections come.
And no more of a codebook than the codecs of its fields makes a difference to a single class.

Main statements: `describe_congr` and `describe_alike`.
-/

namespace ParcelCodec

/-- Codebooks that agree. -/
structure Codebook.Alike (b b' : Codebook) : Prop where
  catalog : b.catalog.Alike b'.catalog
  registry : b.registry = b'.registry
  tieBreak : b.tieBreak = b'.tieBreak
  rejected : ∀ name, name ∈ b.rejected ↔ name ∈ b'.rejected
  spareDepth : b.spareDepth = b'.spareDepth

variable {b b' : Codebook}

/-! ## §1. Codecs. -/

namespace Codebook

theorem structural_alike (h : b.Alike b') (name : String) (args : List JavaType) :
    b.structural name args = b'.structural name args := by
  have rejected : b.rejected.contains name = b'.rejected.contains name := by
    rw [Bool.eq_iff_iff, List.contains_iff_mem, List.contains_iff_mem]
    exact h.rejected name
  have fallback : structural.fallback b name args = structural.fallback b' name args := by
    unfold structural.fallback
    rw [h.catalog.isParcelable, h.catalog.isSerializable]
  unfold structural
  simp only [h.catalog.isEnum, h.catalog.decl?, h.catalog.companionName, rejected, fallback]

/-- Every type falls under the same rule. -/
theorem classify_alike (h : b.Alike b') : b.classify = b'.classify := by
  funext ty
  have shape : b.shape ty = b'.shape ty := by
    cases ty with
    | primitive p => rfl
    | array component => rfl
    | declared name args => exact structural_alike h name args
  unfold classify
  rw [shape, h.registry, h.tieBreak]

/-- Searching asks for rules and for nothing else. -/
theorem buildBelow_congr (rules : b.classify = b'.classify) (depth : Nat)
    (above : List (Nat × JavaType)) (ty : JavaType) :
    b.buildBelow depth above ty = b'.buildBelow depth above ty := by
  induction depth generalizing above ty with
  | zero => rfl
  | succ depth ih =>
    have parts : b.buildBelow depth (ty.weighed :: above)
        = b'.buildBelow depth (ty.weighed :: above) := funext (ih _)
    rw [buildBelow, buildBelow, rules, parts]

/-- Every type is searched for alike. -/
theorem build_alike (h : b.Alike b') : b.build = b'.build := by
  funext ty
  unfold build depthFor
  rw [buildBelow_congr (classify_alike h), h.registry, h.spareDepth]

end Codebook

namespace Shelf

/-- Building asks for rules and for nothing else. -/
theorem buildBelow_congr (rules : b.classify = b'.classify) (depth : Nat)
    (above : List (Nat × JavaType)) (ty : JavaType) :
    buildBelow b depth above ty = buildBelow b' depth above ty := by
  induction depth generalizing above ty with
  | zero => rfl
  | succ depth ih =>
    have parts : buildBelow b depth (ty.weighed :: above)
        = buildBelow b' depth (ty.weighed :: above) := funext (ih _)
    unfold buildBelow
    rw [rules, parts]

/-- Every type has the same codec. -/
theorem buildAlone_alike (h : b.Alike b') : buildAlone b = buildAlone b' := by
  funext ty
  unfold buildAlone build Codebook.depthFor
  rw [buildBelow_congr (Codebook.classify_alike h), h.registry, h.spareDepth]

end Shelf

namespace DataClass

/-! ## §2. Members. -/

/-- Members that agree: texts stand for the same types, the methods are the same, and reflection is
allowed for the same fields. -/
structure Members.Alike (m m' : Members) : Prop where
  texts : m.resolver.resolveText = m'.resolver.resolveText
  methods : m.methods = m'.methods
  reflects : m.options.reflects = m'.options.reflects

namespace Members.Alike

variable {m m' : Members} (h : m.Alike m')

include h

/-- The same methods have a name, parameters and a result. -/
theorem hasMethod (name : String) (params : List JavaType) (returns : Option JavaType) :
    m.hasMethod name params returns = m'.hasMethod name params returns := by
  have fit : ∀ (ps : List ParamDecl) (tys : List JavaType),
      m.paramsFit ps tys = m'.paramsFit ps tys := by
    intro ps
    induction ps with
    | nil =>
      intro tys
      cases tys <;> rfl
    | cons p ps ih =>
      intro tys
      cases tys with
      | nil => rfl
      | cons ty tys =>
        unfold Members.paramsFit Resolver.resolvesTo
        simp only [h.texts, ih tys]
  unfold Members.hasMethod Members.returnsFit Resolver.resolvesTo
  simp only [h.texts, h.methods, fit]

/-- Every field is read in the same way. -/
theorem read? (f : FieldDecl) (ty : JavaType) : m.read? f ty = m'.read? f ty := by
  have getters : m.isGetter ty = m'.isGetter ty := by
    funext name
    exact h.hasMethod name [] (some ty)
  unfold Members.read?
  rw [getters, h.reflects]

/-- Every field is set in the same way. -/
theorem write? (f : FieldDecl) (ty : JavaType) : m.write? f ty = m'.write? f ty := by
  have setters : m.isSetter ty = m'.isSetter ty := by
    funext name
    exact h.hasMethod name [ty] none
  unfold Members.write?
  rw [setters, h.reflects]

end Members.Alike

/-! ## §3. Fields and constructors. -/

section Texts

variable {r r' : Resolver} (texts : r.resolveText = r'.resolveText)

include texts

/-- The same fields are there with types, and the same keeps the others from it. -/
theorem typedFields_congr (d : TypeDecl) (seen : List String) (fs : List FieldDecl) :
    typedFields r d seen fs = typedFields r' d seen fs := by
  induction fs generalizing seen with
  | nil => rfl
  | cons f rest ih =>
    unfold typedFields
    rw [ih, ih, texts]

theorem fieldFor?_congr (fields : List TypedField) : fieldFor? r fields = fieldFor? r' fields := by
  funext p
  unfold fieldFor?
  rw [texts]

theorem hasInstance_congr (d : TypeDecl) : hasInstance r d = hasInstance r' d := by
  unfold hasInstance
  rw [texts]

end Texts

section Members

variable {m m' : Members} (h : m.Alike m') (fields : List TypedField)

include h

/-- The same constructor is chosen. -/
theorem chosen?_congr (cs : List ConstructorDecl) : chosen? m fields cs = chosen? m' fields cs := by
  unfold chosen? fieldsFor?
  simp only [fieldFor?_congr h.texts, h.write?]

theorem constructorFindings_congr (d : TypeDecl) (largest : ConstructorDecl) :
    constructorFindings m d fields largest = constructorFindings m' d fields largest := by
  unfold constructorFindings
  simp only [fieldFor?_congr h.texts, h.write?]

/-- The properties are the same, if the codecs of the fields are. -/
theorem properties_congr {matched : List TypedField} (within : ∀ f ∈ matched, f ∈ fields)
    (codecs : ∀ f ∈ fields, Shelf.buildAlone b f.type = Shelf.buildAlone b' f.type)
    (d : TypeDecl) : properties b m d fields matched = properties b' m' d fields matched := by
  have same : settings m fields matched = settings m' fields matched := by
    unfold settings
    simp only [h.write?]
  rw [properties_eq_map, properties_eq_map, ← same]
  refine List.map_congr_left fun s hs => ?_
  unfold property
  rw [h.read?, codecs s.2 (mem_of_setting within hs)]

end Members

/-! ## §4. Classes. -/

/-- A class is described alike, or the same keeps it from being described, by codebooks whose
catalogs answer alike and that make the same codecs for its fields. -/
theorem describe_congr (catalog : b.catalog.Alike b'.catalog) {o o' : Options}
    (excludes : o.excludes = o'.excludes) (reflects : o.reflects = o'.reflects) {d : TypeDecl}
    (codecs : ∀ f ∈ fieldsOf b o d, Shelf.buildAlone b f.type = Shelf.buildAlone b' f.type) :
    describe b o d = describe b' o' d := by
  have texts : (Resolver.ofDecl b.catalog d).resolveText
      = (Resolver.ofDecl b'.catalog d).resolveText :=
    Resolver.resolveText_alike catalog d.package d.typeParams
  have members : Members.Alike ⟨.ofDecl b.catalog d, d.methods, o⟩
      ⟨.ofDecl b'.catalog d, d.methods, o'⟩ := ⟨texts, rfl, reflects⟩
  unfold fieldsOf included at codecs
  unfold describe
  simp only [hasInstance_congr texts, excludes, typedFields_congr texts, chosen?_congr members,
    constructorFindings_congr members, catalog.companionSimpleName] at codecs ⊢
  split
  · rfl
  · split
    · rfl
    · next matched chosen =>
      rw [properties_congr members _ (mem_of_chosen? chosen) codecs]

/-- Every class is described alike, or the same keeps it from being described. -/
theorem describe_alike (h : b.Alike b') (o : Options) (d : TypeDecl) :
    describe b o d = describe b' o d :=
  describe_congr h.catalog rfl rfl fun f _ => congrFun (Shelf.buildAlone_alike h) f.type

end DataClass

end ParcelCodec
