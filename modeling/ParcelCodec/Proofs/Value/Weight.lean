import ParcelCodec.Value

/-!
# Parts weigh less than the whole

The weight of a value counts the values that it is made of, so whatever stands inside a container
or an instance weighs less than the container or the instance.  Depths are measured by it.
-/

namespace ParcelCodec.Value

theorem one_le_weight (v : Value) : 1 ≤ v.weight := by
  cases v <;> simp [weight]

theorem weight_le_of_mem {v : Value} {items : List Value} (h : v ∈ items) :
    v.weight ≤ weightOfItems items := by
  induction items with
  | nil => cases h
  | cons w rest ih =>
    unfold weightOfItems
    rcases List.mem_cons.mp h with rfl | h
    · omega
    · have := ih h
      omega

/-- A depth that is enough for a container is enough for each of its items. -/
theorem forall_weight_le {items : List Value} {n : Nat} (h : weightOfItems items + 1 ≤ n) :
    ∀ v ∈ items, v.weight ≤ n := by
  intro v hv
  have := weight_le_of_mem hv
  omega

theorem weight_le_of_mem_entries {p : Value × Value} {entries : List (Value × Value)}
    (h : p ∈ entries) : p.1.weight + p.2.weight ≤ weightOfEntries entries := by
  induction entries with
  | nil => cases h
  | cons q rest ih =>
    obtain ⟨k, w⟩ := q
    unfold weightOfEntries
    rcases List.mem_cons.mp h with rfl | h
    · exact Nat.le_add_right _ _
    · have := ih h
      omega

theorem forall_weight_le_entries {entries : List (Value × Value)} {n : Nat}
    (h : weightOfEntries entries + 1 ≤ n) :
    ∀ p ∈ entries, p.1.weight ≤ n ∧ p.2.weight ≤ n := by
  intro p hp
  have := weight_le_of_mem_entries hp
  omega

theorem weight_le_of_mem_sparse {p : Int32 × Value} {entries : List (Int32 × Value)}
    (h : p ∈ entries) : p.2.weight ≤ weightOfSparse entries := by
  induction entries with
  | nil => cases h
  | cons q rest ih =>
    obtain ⟨k, w⟩ := q
    unfold weightOfSparse
    rcases List.mem_cons.mp h with rfl | h
    · exact Nat.le_add_right _ _
    · have := ih h
      omega

theorem weight_le_of_lookup {name : String} {v : Value} {fields : List (String × Value)}
    (h : fields.lookup name = some v) : v.weight ≤ weightOfFields fields := by
  induction fields with
  | nil => simp at h
  | cons q rest ih =>
    obtain ⟨n, w⟩ := q
    unfold weightOfFields
    simp only [List.lookup_cons] at h
    split at h
    · cases h
      exact Nat.le_add_right _ _
    · have := ih h
      omega

end ParcelCodec.Value
