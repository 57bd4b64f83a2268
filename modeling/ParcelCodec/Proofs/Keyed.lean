import Mathlib.Data.List.Nodup

/-!
# Lists that are searched by a key

Companions, descriptors and codecs are kept in lists and found by a name.  Where the names are
pairwise different, the order of the list does not matter: whoever is in the list is found under
its own name.
-/

namespace ParcelCodec.Keyed

variable {α κ : Type} [BEq κ] [LawfulBEq κ] (key : α → κ) {items : List α}

/-- An item is found under its own key. -/
theorem find?_of_mem (distinct : (items.map key).Nodup) {a : α} (ha : a ∈ items) :
    items.find? (fun x => key x == key a) = some a := by
  induction items with
  | nil => cases ha
  | cons b rest ih =>
    obtain ⟨new, distinct⟩ := List.nodup_cons.mp distinct
    rcases List.mem_cons.mp ha with rfl | ha
    · exact List.find?_cons_of_pos (beq_self_eq_true _)
    · have other : (key b == key a) = false := by
        rw [beq_eq_false_iff_ne]
        intro same
        exact new (same ▸ List.mem_map_of_mem ha)
      rw [List.find?_cons, other]
      exact ih distinct ha

/-- The order of the items does not matter. -/
theorem find?_reverse_of_mem (distinct : (items.map key).Nodup) {a : α} (ha : a ∈ items) :
    items.reverse.find? (fun x => key x == key a) = some a := by
  refine find?_of_mem key ?_ (List.mem_reverse.mpr ha)
  rw [List.map_reverse]
  exact List.nodup_reverse.mpr distinct

variable {key} in
/-- Whatever is found under a key is an item with that key. -/
theorem of_find? {k : κ} {a : α} (h : items.find? (fun x => key x == k) = some a) :
    a ∈ items ∧ key a = k := by
  have found := List.find?_some (p := fun x => key x == k) h
  exact ⟨List.mem_of_find?_eq_some h, eq_of_beq found⟩

/-- Two orders of the same items are searched alike. -/
theorem find?_perm (distinct : (items.map key).Nodup) {items' : List α} (h : items.Perm items')
    (k : κ) : items.find? (fun x => key x == k) = items'.find? (fun x => key x == k) := by
  rcases found : items.find? (fun x => key x == k) with _ | a
  · refine (List.find?_eq_none.mpr fun x hx => ?_).symm
    exact List.find?_eq_none.mp found x (h.mem_iff.mpr hx)
  · obtain ⟨ha, rfl⟩ := of_find? found
    exact (find?_of_mem key ((h.map key).nodup_iff.mp distinct) (h.mem_iff.mp ha)).symm

/-! ## Tables. -/

variable {β : Type} {table table' : List (κ × β)}

/-- Whatever is found under a key stands there. -/
theorem mem_of_lookup {k : κ} {b : β} (h : table.lookup k = some b) : (k, b) ∈ table := by
  obtain ⟨front, back, rfl, -⟩ := List.lookup_eq_some_iff.mp h
  exact List.mem_append_right front List.mem_cons_self

/-- What stands in a table is found under its key. -/
theorem lookup_of_mem (distinct : (table.map (·.1)).Nodup) {k : κ} {b : β}
    (h : (k, b) ∈ table) : table.lookup k = some b := by
  obtain ⟨front, back, rfl⟩ := List.append_of_mem h
  refine List.lookup_eq_some_iff.mpr ⟨front, back, rfl, fun p hp => ?_⟩
  rw [List.map_append] at distinct
  have apart := List.disjoint_of_nodup_append distinct
  rw [bne_iff_ne]
  rintro rfl
  exact apart (List.mem_map_of_mem hp) List.mem_cons_self

/-- Two orders of the same entries are the same table. -/
theorem lookup_perm (distinct : (table.map (·.1)).Nodup) (h : table.Perm table') (k : κ) :
    table.lookup k = table'.lookup k := by
  have distinct' := (h.map (·.1)).nodup_iff.mp distinct
  refine Option.ext fun b => ⟨fun found => ?_, fun found => ?_⟩
  · exact lookup_of_mem distinct' (h.mem_iff.mp (mem_of_lookup found))
  · exact lookup_of_mem distinct (h.mem_iff.mpr (mem_of_lookup found))

end ParcelCodec.Keyed
