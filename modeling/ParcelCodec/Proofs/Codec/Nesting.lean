import ParcelCodec.Proofs.Codec.Sharing
import ParcelCodec.Proofs.DataClass.Fewer

/-!
# Types that nest a rejected class

Where there are no adapters, a rejected class takes the codec from exactly those types that nest
it: the class itself, and arrays and containers of such types, at any depth.  All other types keep
the codec that they have when nothing is rejected.

Main statements: `hasCodec_iff` and `exists_buildAlone_iff`.
-/

namespace ParcelCodec

/-! ## §1. Nesting. -/

/-- Neither an exact built-in nor an enum has the name, so the type is encoded by its shape. -/
structure Catalog.Shaped (c : Catalog) (name : String) (args : List JavaType) : Prop where
  inexact : Codebook.exactLeaf? (.declared name args) = none
  noEnum : c.isEnum name = false

/-- A type nests a data class: it is the class, or an array or a container of types one of which
nests it. -/
inductive Catalog.Nests (c : Catalog) (name : String) : JavaType → Prop
  | itself {args : List JavaType} {d : TypeDecl} (shaped : c.Shaped name args)
    (noContainer : Java.collection? name = none) (noSparse : name ≠ Java.sparseArrayName)
    (declared : c.decl? name = some d) (data : d.dataClass = true) :
    Nests c name (.declared name args)
  | component {ty : JavaType} (inner : Nests c name ty) : Nests c name (.array ty)
  | argument {box : String} {args : List JavaType} {ty : JavaType} (shaped : c.Shaped box args)
    (held : ty ∈ Codebook.contents box args) (inner : Nests c name ty) :
    Nests c name (.declared box args)

/-- What a type nests is declared as a data class. -/
theorem Catalog.Nests.declared {c : Catalog} {name : String} {ty : JavaType}
    (h : c.Nests name ty) : ∃ d, c.decl? name = some d ∧ d.dataClass = true := by
  induction h with
  | itself _ _ _ declared data => exact ⟨_, declared, data⟩
  | component _ ih => exact ih
  | argument _ _ _ ih => exact ih

namespace Codebook

variable {b : Codebook} {ty : JavaType} {name : String} {args : List JavaType} {rule : Rule}

section NoAdapters

variable (noAdapters : b.registry.entries = [])

include noAdapters

/-- Without adapters, the rule comes from the exact built-ins or else from the shape. -/
theorem classify_of_no_adapters (ty : JavaType) : b.classify ty =
    match exactLeaf? ty with
    | some l => .ok (.leaf l)
    | none => b.shape ty := by
  have unhandled : ∀ priority, b.registry.handlerAt? ty priority = none := by
    intro priority
    unfold Registry.handlerAt?
    rw [noAdapters]
    rfl
  unfold classify
  simp only [unhandled]
  cases b.tieBreak <;> cases exactLeaf? ty <;> rfl

/-- Without adapters, a class that is encoded by its shape falls under the rule for that. -/
theorem classify_of_shaped (shaped : b.catalog.Shaped name args) :
    b.classify (.declared name args) = b.structural name args := by
  rw [classify_of_no_adapters noAdapters, shaped.inexact]
  rfl

/-- An array whose component nests a class falls under the rule for arrays. -/
theorem classify_array (inner : b.catalog.Nests name ty) :
    b.classify (.array ty) = .ok (.array ty) := by
  rw [classify_of_no_adapters noAdapters]
  cases inner <;> rfl

/-- A type that nests a part that nests a class nests the class. -/
theorem nests_of_part (classified : b.classify ty = .ok rule) {part : JavaType}
    (there : part ∈ rule.parts) (inner : b.catalog.Nests name part) : b.catalog.Nests name ty := by
  rw [classify_of_no_adapters noAdapters] at classified
  rcases exact : exactLeaf? ty with _ | l
  · rw [exact] at classified
    cases ty with
    | primitive p =>
      cases classified
      cases there
    | array component =>
      cases classified
      obtain rfl := List.mem_singleton.mp there
      exact .component inner
    | declared box args =>
      have shape : b.structural box args = .ok rule := classified
      by_cases enum : b.catalog.isEnum box = true
      · -- An enum has no parts.
        unfold structural at shape
        rw [if_pos enum] at shape
        cases shape
        cases there
      · have noEnum := Bool.eq_false_iff.mpr enum
        rw [parts_eq_contents noEnum shape] at there
        exact .argument ⟨exact, noEnum⟩ there inner
  · rw [exact] at classified
    cases classified
    cases there

/-- A type with a rule that nests a class has a part that nests it, or is the class itself, which
is not rejected then. -/
theorem kept_or_part_of_nests (classified : b.classify ty = .ok rule)
    (nests : b.catalog.Nests name ty) :
    name ∉ b.rejected ∨ ∃ part ∈ rule.parts, b.catalog.Nests name part := by
  cases nests with
  | @itself args d shaped noContainer noSparse declared data =>
    left
    rw [classify_of_shaped noAdapters shaped] at classified
    unfold structural at classified
    simp only [shaped.noEnum, noContainer, beq_false_of_ne noSparse, declared, data] at classified
    intro rejected
    simp [rejected] at classified
  | @component component inner =>
    rw [classify_array noAdapters inner] at classified
    cases classified
    exact .inr ⟨component, List.mem_singleton_self component, inner⟩
  | @argument box args part shaped held inner =>
    rw [classify_of_shaped noAdapters shaped] at classified
    rw [← parts_eq_contents shaped.noEnum classified] at held
    exact .inr ⟨part, held, inner⟩

/-- A type that nests no rejected class falls under the rule that it falls under when nothing is
rejected. -/
theorem classify_of_apart (apart : ∀ name ∈ b.rejected, ¬ b.catalog.Nests name ty)
    (classified : (b.rejecting []).classify ty = .ok rule) : b.classify ty = .ok rule := by
  rw [classify_of_no_adapters noAdapters]
  rw [classify_of_no_adapters (b := b.rejecting []) noAdapters] at classified
  rcases exact : exactLeaf? ty with _ | l
  · rw [exact] at classified
    cases ty with
    | primitive p => exact classified
    | array component => exact classified
    | declared name args =>
      change (b.rejecting []).structural name args = .ok rule at classified
      change b.structural name args = .ok rule
      refine structural_of_kept [] b.rejected classified
        fun d noEnum box sparse declared data _ rejected => ?_
      exact apart name rejected (.itself ⟨exact, noEnum⟩ box sparse declared data)
  · rw [exact] at classified
    exact classified

end NoAdapters

/-! ## §2. Codecs. -/

/-- A codebook makes a codec of a type. -/
def HasCodec (b : Codebook) (ty : JavaType) : Prop := ∃ c, b.Makes ty c

/-- The parts of a type with a codec have codecs. -/
theorem HasCodec.part (h : b.HasCodec ty) :
    ∃ rule, b.classify ty = .ok rule ∧ ∀ part ∈ rule.parts, b.HasCodec part := by
  obtain ⟨c, made⟩ := h
  obtain ⟨rule, cs, classified, each, -⟩ := made.assembled
  refine ⟨rule, classified, fun part there => ?_⟩
  obtain ⟨e, -, madePart⟩ := Alongside.exists_right each part there
  exact ⟨e, madePart⟩

section NoAdapters

variable (noAdapters : b.registry.entries = [])

include noAdapters

/-- Without adapters, a type whose parts have codecs has one. -/
theorem hasCodec_of_parts (classified : b.classify ty = .ok rule)
    (parts : ∀ part ∈ rule.parts, b.HasCodec part) : b.HasCodec ty := by
  cases rule with
  | leaf l => exact ⟨_, .leaf classified⟩
  | array component =>
    obtain ⟨e, he⟩ := parts component List.mem_cons_self
    exact ⟨_, .array classified he⟩
  | sequence kind box element =>
    obtain ⟨e, he⟩ := parts element List.mem_cons_self
    exact ⟨_, .sequence classified he⟩
  | map box key value =>
    obtain ⟨k, hk⟩ := parts key List.mem_cons_self
    obtain ⟨v, hv⟩ := parts value (List.mem_cons_of_mem _ List.mem_cons_self)
    exact ⟨_, .map classified hk hv⟩
  | sparseArray element =>
    obtain ⟨e, he⟩ := parts element List.mem_cons_self
    exact ⟨_, .sparseArray classified he⟩
  | adapter found =>
    have registered := mem_entries_of_classify classified
    rw [noAdapters] at registered
    cases registered

/-- Without adapters, a type has a codec exactly if it has one when nothing is rejected and it
nests no rejected class. -/
theorem hasCodec_iff : b.HasCodec ty ↔
    (b.rejecting []).HasCodec ty ∧ ∀ name ∈ b.rejected, ¬ b.catalog.Nests name ty := by
  -- By induction on the weight: parts are lighter.
  induction size : ty.weight using Nat.strongRecOn generalizing ty with
  | ind n ih =>
    constructor
    · intro h
      obtain ⟨rule, classified, parts⟩ := h.part
      have each : ∀ part ∈ rule.parts, (b.rejecting []).HasCodec part
          ∧ ∀ name ∈ b.rejected, ¬ b.catalog.Nests name part := fun part there =>
        (ih _ (size ▸ weight_lt_of_needs noAdapters ⟨rule, classified, there⟩) rfl).mp
          (parts part there)
      have still := classify_rejecting (List.nil_subset _) classified
      refine ⟨hasCodec_of_parts noAdapters still fun part there => (each part there).1, ?_⟩
      intro name rejected nests
      rcases kept_or_part_of_nests noAdapters classified nests with kept | ⟨part, there, inner⟩
      · exact kept rejected
      · exact (each part there).2 name rejected inner
    · rintro ⟨h, apart⟩
      obtain ⟨rule, classified, parts⟩ := h.part
      have still := classify_of_apart noAdapters apart classified
      refine hasCodec_of_parts noAdapters still fun part there => ?_
      have less := weight_lt_of_needs noAdapters ⟨rule, still, there⟩
      refine (ih _ (size ▸ less) rfl).mpr ⟨parts part there, fun name rejected inner => ?_⟩
      exact apart name rejected (nests_of_part noAdapters still there inner)

/-- Without adapters, building finds a codec exactly if there is one. -/
theorem exists_buildAlone_iff : (∃ c, Shelf.buildAlone b ty = .ok c) ↔ b.HasCodec ty := by
  constructor
  · rintro ⟨c, built⟩
    exact ⟨c, Shelf.makes_of_buildAlone built⟩
  · rintro ⟨c, made⟩
    have ended := finished_build_of_no_adapters noAdapters ty
    have apart : Apart [] c := fun _ _ => List.not_mem_nil
    rw [Shelf.buildAlone_eq ended]
    exact ⟨c, buildBelow_of_makes made apart ended⟩

end NoAdapters

end Codebook

end ParcelCodec
