import Mathlib.Logic.Relation
import ParcelCodec.Proofs.Alongside
import ParcelCodec.Proofs.Codec.Makes
import ParcelCodec.Proofs.Codec.Rule

/-!
# The parts of a type

A rule says which types it needs codecs of, its parts, and how their codecs make up the codec of a
type.  Composing a codec is nothing more than building the parts in order, so whatever holds of
several builds in a row holds of a composition.

Main statements: `compose_eq`, `Makes.assembled`, `Makes.leads` and `needs_cases`.
-/

namespace ParcelCodec

/-! ## §1. Parts. -/

/-- The type whose codec an adapter depends on, if it depends on one. -/
def DependencyPattern.part? (bound : Bindings) : DependencyPattern → Option JavaType
  | .adapter p => some (p.substitute bound)
  | .token _ => none

/-- The types whose codecs a rule composes, in the order in which they are built. -/
def Rule.parts : Rule → List JavaType
  | .leaf _ => []
  | .array component => [component]
  | .sequence _ _ element => [element]
  | .map _ key value => [key, value]
  | .sparseArray element => [element]
  | .adapter found => found.entry.deps.filterMap (·.part? found.bindings)

namespace Codebook

/-- What an adapter is given, from the codecs that it depends on. -/
def supplied (bound : Bindings) : List DependencyPattern → List Codec → List Dependency
  | .adapter _ :: ps, c :: cs => .codec c :: supplied bound ps cs
  | .token p :: ps, cs => .token (p.substitute bound).erasure :: supplied bound ps cs
  | _, _ => []

/-- The codec of a type under a rule, from the codecs of the parts. -/
def assemble (ty : JavaType) : Rule → List Codec → Codec
  | .leaf l, _ => .leaf ty l
  | .array _, e :: _ => .array ty e
  | .sequence kind box _, e :: _ => .sequence ty kind box e
  | .map box _ _, k :: v :: _ => .map ty box k v
  | .sparseArray _, e :: _ => .sparseArray ty e
  | .adapter found, cs => .adapter ty (useOf found) (supplied found.bindings found.entry.deps cs)
  -- Every part has a codec, so there is always one to take.
  | _, [] | .map _ _ _, [_] => .leaf ty .tagged

section Monad

variable {M : Type → Type} [Monad M] [LawfulMonad M] (part : JavaType → M Codec)

theorem dependencies_eq (bound : Bindings) (ps : List DependencyPattern) :
    dependencies part bound ps
      = supplied bound ps <$> (ps.filterMap (·.part? bound)).mapM part := by
  induction ps with
  | nil => simp [dependencies, supplied]
  | cons p rest ih =>
    cases p with
    | adapter p =>
      simp [dependencies, ih, DependencyPattern.part?, supplied]
    | token p =>
      simp [dependencies, ih, DependencyPattern.part?, supplied]

/-- A rule composes the codec of a type from those of its parts, built in order. -/
theorem compose_eq (ty : JavaType) (rule : Rule) :
    compose part ty rule = assemble ty rule <$> rule.parts.mapM part := by
  cases rule with
  | adapter found =>
    simp [compose, Rule.parts, dependencies_eq]
    rfl
  | _ => simp [compose, assemble, Rule.parts]

end Monad

/-! ## §2. What a codebook makes of the parts. -/

variable {b : Codebook}

/-- A type needs a codec of another one. -/
def Needs (b : Codebook) (ty part : JavaType) : Prop :=
  ∃ rule, b.classify ty = .ok rule ∧ part ∈ rule.parts

theorem Supplies.supplied_eq {bound : Bindings} {ps : List DependencyPattern}
    {ds : List Dependency} (h : Supplies b bound ps ds) :
    ∃ cs, List.Forall₂ (Makes b) (ps.filterMap (·.part? bound)) cs ∧ ds = supplied bound ps cs
      ∧ ∀ c ∈ cs, .codec c ∈ ds := by
  induction ps generalizing ds with
  | nil =>
    cases h
    exact ⟨[], .nil, rfl, nofun⟩
  | cons p rest ih =>
    cases h with
    | codec made others =>
      obtain ⟨cs, each, same, there⟩ := ih others
      refine ⟨_ :: cs, .cons made each, congrArg _ same, ?_⟩
      exact List.forall_mem_cons.mpr
        ⟨List.mem_cons_self, fun c hc => List.mem_cons_of_mem _ (there c hc)⟩
    | token others =>
      obtain ⟨cs, each, same, there⟩ := ih others
      exact ⟨cs, each, congrArg _ same, fun c hc => List.mem_cons_of_mem _ (there c hc)⟩

/-- What a codebook makes is assembled from what it makes of the parts, and these are smaller. -/
theorem Makes.assembled {ty : JavaType} {c : Codec} (h : Makes b ty c) :
    ∃ rule cs, b.classify ty = .ok rule ∧ List.Forall₂ (Makes b) rule.parts cs
      ∧ c = assemble ty rule cs ∧ ∀ e ∈ cs, Codec.Part e c ∧ sizeOf e < sizeOf c := by
  cases h with
  | leaf rule => exact ⟨_, [], rule, .nil, rfl, nofun⟩
  | array rule he =>
    refine ⟨_, [_], rule, .cons he .nil, rfl, List.forall_mem_singleton.mpr ⟨.array (.refl _), ?_⟩⟩
    rw [Codec.array.sizeOf_spec]
    omega
  | sequence rule he =>
    refine ⟨_, [_], rule, .cons he .nil, rfl,
      List.forall_mem_singleton.mpr ⟨.sequence (.refl _), ?_⟩⟩
    rw [Codec.sequence.sizeOf_spec]
    omega
  | map rule hk hv =>
    refine ⟨_, [_, _], rule, .cons hk (.cons hv .nil), rfl, List.forall_mem_cons.mpr
      ⟨⟨.key (.refl _), ?_⟩, List.forall_mem_singleton.mpr ⟨.value (.refl _), ?_⟩⟩⟩
    · rw [Codec.map.sizeOf_spec]
      omega
    · rw [Codec.map.sizeOf_spec]
      omega
  | sparseArray rule he =>
    refine ⟨_, [_], rule, .cons he .nil, rfl,
      List.forall_mem_singleton.mpr ⟨.sparseArray (.refl _), ?_⟩⟩
    rw [Codec.sparseArray.sizeOf_spec]
    omega
  | adapter rule supplies =>
    obtain ⟨cs, each, same, there⟩ := supplies.supplied_eq
    refine ⟨_, cs, rule, each, congrArg _ same, fun e he =>
      ⟨.dependency (there e he) (.refl _), ?_⟩⟩
    -- A dependency is a codec inside a list inside the adapter.
    have inside := List.sizeOf_lt_of_mem (there e he)
    rw [Dependency.codec.sizeOf_spec] at inside
    rw [Codec.adapter.sizeOf_spec]
    omega

/-- What a codebook makes of a needed type is smaller than what it makes of the type itself. -/
theorem Makes.smaller_of_needs {ty part : JavaType} {c : Codec} (hc : Makes b ty c)
    (needs : Needs b ty part) : ∃ e, Makes b part e ∧ sizeOf e < sizeOf c := by
  obtain ⟨rule, cs, classified, each, rfl, smaller⟩ := hc.assembled
  obtain ⟨rule', classified', there⟩ := needs
  -- A type has one rule, so the part that is needed is one of those it was assembled from.
  cases classified.symm.trans classified'
  obtain ⟨e, he, made⟩ := Alongside.exists_right each part there
  exact ⟨e, made, (smaller e he).2⟩

/-- Along the types that need each other, what a codebook makes gets smaller. -/
theorem Makes.leads {ty part : JavaType} {c e : Codec} (leads : Relation.TransGen (Needs b) ty part)
    (hc : Makes b ty c) (he : Makes b part e) : sizeOf e < sizeOf c := by
  induction leads using Relation.TransGen.head_induction_on generalizing c with
  | single needs =>
    obtain ⟨e', made, less⟩ := hc.smaller_of_needs needs
    obtain rfl := made.unique he
    exact less
  | head needs _ ih =>
    obtain ⟨e', made, less⟩ := hc.smaller_of_needs needs
    exact Nat.lt_trans (ih made) less

/-- A part is no larger than the whole. -/
theorem sizeOf_le_of_part {c e : Codec} (h : Codec.Part e c) : sizeOf e ≤ sizeOf c := by
  induction h with
  | refl => exact Nat.le_refl _
  | dependency hd _ ih =>
    have inside := List.sizeOf_lt_of_mem hd
    rw [Dependency.codec.sizeOf_spec] at inside
    rw [Codec.adapter.sizeOf_spec]
    omega
  | array | sequence | key | value | sparseArray =>
    simp only [Codec.array.sizeOf_spec, Codec.sequence.sizeOf_spec, Codec.map.sizeOf_spec,
      Codec.sparseArray.sizeOf_spec]
    omega

/-! ## §3. Where parts come from. -/

/-- A type stands in another one, right below its top. -/
inductive Inside : JavaType → JavaType → Prop
  | arg {name : String} {args : List JavaType} {ty : JavaType} (h : ty ∈ args) :
    Inside ty (.declared name args)
  | component {ty : JavaType} : Inside ty (.array ty)

theorem weightOfArgs_le {args : List JavaType} {ty : JavaType} (h : ty ∈ args) :
    ty.weight ≤ JavaType.weightOfArgs args := by
  induction args with
  | nil => cases h
  | cons t rest ih =>
    rw [JavaType.weightOfArgs]
    rcases List.mem_cons.mp h with rfl | h
    · omega
    · have := ih h
      omega

theorem Inside.weight_lt {part ty : JavaType} (h : Inside part ty) : part.weight < ty.weight := by
  cases h with
  | arg h =>
    have := weightOfArgs_le h
    rw [JavaType.weight]
    omega
  | component =>
    rw [JavaType.weight]
    omega

/-- The rules that ask only what a class extends need no parts. -/
theorem parts_of_fallback {name : String} {args : List JavaType} {rule : Rule}
    (h : structural.fallback b name args = .ok rule) : rule.parts = [] := by
  unfold structural.fallback at h
  split at h
  · cases h
    rfl
  · split at h
    · cases h
      rfl
    · split at h
      · cases h
        rfl
      · cases h

/-- What a class of a name holds, as far as the built-ins know: every type argument of a container,
and the first one of a sparse array. -/
def contents (name : String) (args : List JavaType) : List JavaType :=
  match Java.collection? name with
  | some _ => args
  | none => if name == Java.sparseArrayName then args.take 1 else []

theorem contents_subset (name : String) (args : List JavaType) : contents name args ⊆ args := by
  unfold contents
  split
  · exact List.Subset.refl _
  · split
    · exact List.take_subset _ _
    · exact List.nil_subset _

/-- Under the rule of a class that is encoded by its shape, the parts are what it holds. -/
theorem parts_eq_contents {name : String} {args : List JavaType} {rule : Rule}
    (noEnum : b.catalog.isEnum name = false) (h : b.structural name args = .ok rule) :
    rule.parts = contents name args := by
  unfold structural at h
  unfold contents
  rw [noEnum, if_neg Bool.false_ne_true] at h
  -- Collections first, then sparse arrays, then data classes, as the rules are tried.
  rcases box : Java.collection? name with _ | info
  · simp only [box] at h
    dsimp only
    by_cases sparse : (name == Java.sparseArrayName) = true
    · rw [if_pos sparse] at h ⊢
      rcases args with _ | ⟨element, rest⟩
      · cases h
      · cases h
        rfl
    · rw [if_neg sparse] at h ⊢
      split at h
      · split at h
        · split at h
          · cases h
          · cases h
            rfl
        · exact parts_of_fallback h
      · exact parts_of_fallback h
  · simp only [box] at h
    unfold collection at h
    split at h
    · cases h
      rfl
    · cases h
      rfl
    · cases h

/-- The parts of the shape of a class are type arguments. -/
theorem parts_of_structural {name : String} {args : List JavaType} {rule : Rule}
    (h : b.structural name args = .ok rule) : rule.parts ⊆ args := by
  by_cases enum : b.catalog.isEnum name = true
  · unfold structural at h
    rw [if_pos enum] at h
    cases h
    exact List.nil_subset _
  · rw [parts_eq_contents (Bool.eq_false_iff.mpr enum) h]
    exact contents_subset name args

/-- A type needs what the adapter depends on that handles it, or what stands right inside of it. -/
theorem needs_cases {ty part : JavaType} (h : b.Needs ty part) :
    (∃ found priority, b.registry.handlerAt? ty priority = some found
        ∧ part ∈ (Rule.adapter found).parts) ∨ Inside part ty := by
  obtain ⟨rule, classified, there⟩ := h
  rcases rule_of_classify classified with ⟨found, priority, handles, rfl⟩ | ⟨l, -, rfl⟩ | shape
  · exact .inl ⟨found, priority, handles, there⟩
  · cases there
  · cases ty with
    | primitive p =>
      cases shape
      cases there
    | array component =>
      cases shape
      cases List.mem_singleton.mp there
      exact .inr .component
    | declared name args => exact .inr (.arg (parts_of_structural shape there))

end Codebook

end ParcelCodec
