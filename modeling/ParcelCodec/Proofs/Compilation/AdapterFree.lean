import ParcelCodec.Proofs.Compilation.RoundTrip
import ParcelCodec.Proofs.Machine.Depth

/-!
# Compiled procedures that call no adapters

The procedures that read a class call no adapter if no adapter stands in the codecs of its
properties: the statements for a codec call nothing but buffer operations and nested companions,
and what is around them only deals with local variables.

Main statement: `readsAdapterFree_machine`.
-/

namespace ParcelCodec

open DataClass (Descriptor Property)
open Codec (Part)

/-! ## §1. Codecs. -/

/-- No adapter stands in a part of a codec without adapters. -/
theorem Codec.adapterFree_of_part {part c : Codec} (h : Part part c)
    (plain : c.adapterFree = true) : part.adapterFree = true := by
  induction h with
  | refl => exact plain
  | array _ ih | sequence _ ih | sparseArray _ ih => exact ih plain
  | key _ ih => exact ih (Bool.and_eq_true_iff.mp plain).1
  | value _ ih => exact ih (Bool.and_eq_true_iff.mp plain).2
  | dependency _ _ _ => cases plain

/-- The statements and the value of a draft call no adapter. -/
def Draft.adapterFree (d : Draft) : Bool := Stmt.adapterFreeAll d.stmts && d.value.adapterFree

theorem adapterFree_readSlot (c : Codec) (nullable : Bool) (name : String) {d : Draft}
    (h : d.adapterFree = true) :
    Stmt.adapterFreeAll (Surroundings.readSlot c nullable name d) = true := by
  unfold Draft.adapterFree at h
  unfold Surroundings.readSlot
  split <;> simpa using h

theorem adapterFree_readLeaf (around : Surroundings) (ty : JavaType) (l : Leaf) :
    (around.readLeaf ty l).adapterFree = true := by
  cases l <;> rfl

theorem adapterFree_readContainer {kind : ContainerKind} {concrete : JavaType} {sized : Bool}
    {scope : NameScope} {element : String → NameScope → List Stmt}
    (h : ∀ target inner, Stmt.adapterFreeAll (element target inner) = true) :
    (Surroundings.readContainer kind concrete sized scope element).adapterFree = true := by
  unfold Surroundings.readContainer Draft.adapterFree
  cases sized <;> simp [h]

theorem adapterFree_readArray {ty : JavaType} {e : Codec} {scope : NameScope}
    {element : String → NameScope → List Stmt}
    (h : ∀ item inner, Stmt.adapterFreeAll (element item inner) = true) :
    (Surroundings.readArray ty e scope element).adapterFree = true := by
  unfold Surroundings.readArray Draft.adapterFree
  by_cases tagged : e.isTagged = true <;> simp [tagged, h]

/-- Reading a codec without adapters calls none. -/
theorem adapterFree_readPresent (around : Surroundings) : ∀ c : Codec, c.adapterFree = true →
    ∀ scope, (around.readPresent c scope).adapterFree = true
  | .leaf ty l, _, _ => by
    unfold Surroundings.readPresent Draft.adapterFree
    simp [adapterFree_readLeaf]
  | .array ty e, plain, scope => by
    rw [Surroundings.readPresent]
    refine adapterFree_readArray fun item inner => ?_
    exact adapterFree_readSlot e _ item (adapterFree_readPresent around e plain inner)
  | .sequence ty kind box e, plain, scope => by
    rw [Surroundings.readPresent]
    refine adapterFree_readContainer fun target inner => ?_
    have element := fun scope name =>
      adapterFree_readSlot e box.nulls name (adapterFree_readPresent around e plain scope)
    simp [element]
  | .map ty box k v, plain, scope => by
    have both := Bool.and_eq_true_iff.mp plain
    rw [Surroundings.readPresent]
    refine adapterFree_readContainer fun target inner => ?_
    have key := fun scope name =>
      adapterFree_readSlot k box.nulls name (adapterFree_readPresent around k both.1 scope)
    have value := fun scope name =>
      adapterFree_readSlot v true name (adapterFree_readPresent around v both.2 scope)
    simp [key, value]
  | .sparseArray ty e, plain, scope => by
    rw [Surroundings.readPresent]
    refine adapterFree_readContainer fun target inner => ?_
    have value := fun scope name =>
      adapterFree_readSlot e true name (adapterFree_readPresent around e plain scope)
    simp [value]
  | .adapter _ _ _, plain, _ => by cases plain

/-! ## §2. Companions. -/

namespace Companion

theorem adapterFree_opening (s : Statics) (owner : JavaType) (needsLoader : Bool) :
    Stmt.adapterFreeAll (opening s owner needsLoader).1 = true := by
  unfold opening
  split <;> rfl

theorem adapterFree_readProperties (around : Surroundings) : ∀ (ps : List Property),
    (∀ p ∈ ps, p.codec.adapterFree = true) → ∀ scope,
      Stmt.adapterFreeAll (readProperties around scope ps).2 = true
  | [], _, _ => rfl
  | p :: rest, plain, scope => by
    obtain ⟨first, others⟩ := List.forall_mem_cons.mp plain
    have here : ∀ name scope, Stmt.adapterFreeAll (readProperty around p name scope) = true := by
      intro name scope
      refine adapterFree_readSlot p.codec p.nullable name ?_
      split
      · rfl
      · exact adapterFree_readPresent around p.codec first scope
    simp [readProperties, here, adapterFree_readProperties around rest others]

/-- The constructor and the setters deal with local variables only. -/
theorem adapterFree_building (owner : JavaType) (held : List (Property × String)) :
    Expr.adapterFreeArgs (held.filterMap argument?) = true
      ∧ Stmt.adapterFreeAll (held.filterMap (setter? owner)) = true := by
  induction held with
  | nil => exact ⟨rfl, rfl⟩
  | cons h rest ih =>
    obtain ⟨args, setters⟩ := ih
    constructor
    · rcases ha : argument? h with _ | ⟨name, e⟩
      · rwa [List.filterMap_cons_none ha]
      · unfold argument? at ha
        rw [List.filterMap_cons_some (by unfold argument?; exact ha), Expr.adapterFreeArgs, args]
        split at ha <;> cases ha
        rfl
    · rcases hs : setter? owner h with _ | s
      · rwa [List.filterMap_cons_none hs]
      · rw [List.filterMap_cons_some hs, Stmt.adapterFreeAll, setters]
        unfold setter? at hs
        dsimp only at hs
        split at hs <;> cases hs <;> rfl

/-- The companion of a class without adapters calls none where it reads. -/
theorem readsAdapterFree_ofDescriptor {d : Descriptor}
    (plain : ∀ p ∈ d.properties, p.codec.adapterFree = true) :
    (ofDescriptor d).readsAdapterFree = true := by
  refine Bool.and_eq_true_iff.mpr ⟨?_, List.all_eq_true.mpr fun x hx => ?_⟩
  · unfold Procedure.adapterFree ofDescriptor
    dsimp only
    split
    · rfl
    · unfold readBody
      obtain ⟨arguments, setters⟩ := adapterFree_building d.type
        (readProperties (opening (Statics.ofDescriptor d) d.type d.requiresClassLoader).2.1
          (opening (Statics.ofDescriptor d) d.type d.requiresClassLoader).2.2 d.properties).1
      simp [adapterFree_opening, adapterFree_readProperties _ d.properties plain, arguments,
        setters]
  · obtain ⟨shared, hs, rfl⟩ := List.mem_map.mp hx
    obtain ⟨p, hp, part⟩ := (Statics.shares_ofDescriptor d).holds shared hs
    have free := Codec.adapterFree_of_part part (plain p hp)
    have draft := Bool.and_eq_true_iff.mp (adapterFree_readPresent
      (opening (Statics.ofDescriptor d) d.type shared.codec.requiresClassLoader).2.1 shared.codec
      free (opening (Statics.ofDescriptor d) d.type shared.codec.requiresClassLoader).2.2)
    unfold Procedure.adapterFree codecDecl
    simp [adapterFree_opening, draft]

end Companion

/-! ## §3. Compilations. -/

namespace Compilation

variable {m : Model} {o : Options}

/-- The companions of a compilation call no adapters where they read, if none stands in their
codecs. -/
theorem readsAdapterFree_machine (adapters : List (String × AdapterBehaviour))
    (plain : ∀ d ∈ descriptors m o, ∀ p ∈ d.properties, p.codec.adapterFree = true) :
    ∀ c ∈ (machine m o adapters).companions, c.readsAdapterFree = true := by
  intro c hc
  rw [companions_machine] at hc
  obtain ⟨d, hd, rfl⟩ := List.mem_map.mp hc
  exact Companion.readsAdapterFree_ofDescriptor (plain d hd)

end Compilation

end ParcelCodec
