import ParcelCodec.Proofs.Format.Codec
import ParcelCodec.Proofs.Value.Fields

/-!
# How broad a value is

The breadth of a value is the largest number of elements that any container in it has.  It is what
a length slot can blow up: depth and texts are paid for by the bytes that spell them.

A value is no broader than `n` if its container has no more than `n` elements and none of them is
broader.  Setting fields and entries makes nothing broader.
-/

namespace ParcelCodec

namespace Value

/-! ## §1. Breadth. -/

mutual

/-- The largest number of elements or entries that a container in a value has, at any depth. -/
def breadth : Value → Nat
  | .array items | .list items | .set items => max items.length (breadthOfItems items)
  | .map entries => max entries.length (breadthOfEntries entries)
  | .sparseArray entries => max entries.length (breadthOfSparse entries)
  | .sparseBooleanArray entries => entries.length
  | .object _ fields => breadthOfFields fields
  | _ => 0

/-- The breadth of the broadest element of a sequence. -/
def breadthOfItems : List Value → Nat
  | [] => 0
  | v :: rest => max v.breadth (breadthOfItems rest)

/-- The breadth of the broadest key or value of a map. -/
def breadthOfEntries : List (Value × Value) → Nat
  | [] => 0
  | (k, v) :: rest => max (max k.breadth v.breadth) (breadthOfEntries rest)

/-- The breadth of the broadest value of a sparse array. -/
def breadthOfSparse : List (Int32 × Value) → Nat
  | [] => 0
  | (_, v) :: rest => max v.breadth (breadthOfSparse rest)

/-- The breadth of the broadest field of an instance. -/
def breadthOfFields : List (String × Value) → Nat
  | [] => 0
  | (_, v) :: rest => max v.breadth (breadthOfFields rest)

end

variable {n : Nat}

theorem breadthOfItems_le_iff {items : List Value} :
    breadthOfItems items ≤ n ↔ ∀ v ∈ items, v.breadth ≤ n := by
  induction items with
  | nil => simp [breadthOfItems]
  | cons v rest ih => rw [breadthOfItems, Nat.max_le, ih, List.forall_mem_cons]

theorem breadthOfEntries_le_iff {entries : List (Value × Value)} :
    breadthOfEntries entries ≤ n ↔ ∀ p ∈ entries, p.1.breadth ≤ n ∧ p.2.breadth ≤ n := by
  induction entries with
  | nil => simp [breadthOfEntries]
  | cons p rest ih => rw [breadthOfEntries, Nat.max_le, Nat.max_le, ih, List.forall_mem_cons]

theorem breadthOfSparse_le_iff {entries : List (Int32 × Value)} :
    breadthOfSparse entries ≤ n ↔ ∀ p ∈ entries, p.2.breadth ≤ n := by
  induction entries with
  | nil => simp [breadthOfSparse]
  | cons p rest ih => rw [breadthOfSparse, Nat.max_le, ih, List.forall_mem_cons]

theorem breadthOfFields_le_iff {fields : List (String × Value)} :
    breadthOfFields fields ≤ n ↔ ∀ p ∈ fields, p.2.breadth ≤ n := by
  induction fields with
  | nil => simp [breadthOfFields]
  | cons p rest ih => rw [breadthOfFields, Nat.max_le, ih, List.forall_mem_cons]

/-! ## §2. Fields and entries. -/

/-- What holds of all values that are set holds of the fields. -/
theorem forall_setField {P : Value → Prop} {name : String} {v : Value}
    {fields : List (String × Value)} (hv : P v) (h : ∀ p ∈ fields, P p.2) :
    ∀ p ∈ setField name v fields, P p.2 := by
  induction fields with
  | nil => exact fun p hp => List.mem_singleton.mp hp ▸ hv
  | cons q rest ih =>
    obtain ⟨first, others⟩ := List.forall_mem_cons.mp h
    unfold setField
    split
    · exact List.forall_mem_cons.mpr ⟨hv, others⟩
    · split
      · exact List.forall_mem_cons.mpr ⟨hv, h⟩
      · exact List.forall_mem_cons.mpr ⟨first, ih others⟩

/-- No field of an instance is broader than what was set. -/
theorem breadthOfFields_fieldsOf_le (pairs : List (String × Value)) :
    breadthOfFields (fieldsOf pairs) ≤ breadthOfFields pairs := by
  suffices h : ∀ fields : List (String × Value),
      (∀ p ∈ fields, p.2.breadth ≤ breadthOfFields pairs) →
        ∀ p ∈ pairs.foldl (fun fields p => setField p.1 p.2 fields) fields,
          p.2.breadth ≤ breadthOfFields pairs from
    breadthOfFields_le_iff.mpr (h [] nofun)
  have each := breadthOfFields_le_iff.mp (Nat.le_refl (breadthOfFields pairs))
  generalize breadthOfFields pairs = n at each
  induction pairs with
  | nil => exact fun _ h => h
  | cons q rest ih =>
    intro fields h
    obtain ⟨first, others⟩ := List.forall_mem_cons.mp each
    exact ih others _ (forall_setField (P := fun v => v.breadth ≤ n) first h)

end Value

namespace Format

open Value (breadthOfEntries breadthOfSparse breadthOfEntries_le_iff breadthOfSparse_le_iff)

theorem breadth_collect (kind : Java.SequenceKind) (items : List Value) :
    (collect kind items).breadth = max items.length (Value.breadthOfItems items) := by
  cases kind <;> rfl

/-- A map is no broader than the pairs that it was made of. -/
theorem breadth_mapOf_le (pairs : List (Value × Value)) :
    (Value.map (mapOf pairs)).breadth ≤ max pairs.length (breadthOfEntries pairs) := by
  have fewer : (mapOf pairs).length ≤ pairs.length := length_setEntries_le _ pairs []
  have each : ∀ p ∈ mapOf pairs,
      p.1.breadth ≤ breadthOfEntries pairs ∧ p.2.breadth ≤ breadthOfEntries pairs :=
    forall_setEntries (K := fun k : Value => k.breadth ≤ breadthOfEntries pairs)
      (V := fun v => v.breadth ≤ breadthOfEntries pairs) _
      (breadthOfEntries_le_iff.mp (Nat.le_refl _)) [] nofun
  exact max_le_max fewer (breadthOfEntries_le_iff.mpr each)

/-- A sparse array is no broader than the pairs that it was made of. -/
theorem breadth_sparseOf_le (pairs : List (Int32 × Value)) :
    (Value.sparseArray (sparseOf pairs)).breadth ≤ max pairs.length (breadthOfSparse pairs) := by
  have fewer : (sparseOf pairs).length ≤ pairs.length :=
    length_setEntries_le (fun a b => a == b) pairs []
  have each : ∀ p ∈ sparseOf pairs, True ∧ p.2.breadth ≤ breadthOfSparse pairs :=
    forall_setEntries (K := fun _ => True) (V := fun v => v.breadth ≤ breadthOfSparse pairs) _
      (fun p hp => ⟨trivial, breadthOfSparse_le_iff.mp (Nat.le_refl _) p hp⟩) [] nofun
  exact max_le_max fewer (breadthOfSparse_le_iff.mpr fun p hp => (each p hp).2)

end Format

end ParcelCodec
