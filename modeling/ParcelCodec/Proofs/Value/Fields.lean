import Mathlib.Data.String.Basic
import ParcelCodec.Machine.Evaluation

/-!
# Fields and entries that are set one after another

An instance is rebuilt by setting its fields, a map by setting its entries.  Fields are kept in
ascending order of their names, so what an instance looks like depends only on what each name was
last set to.  Entries are kept in the order in which their keys first came.

Main statements: setting every field of a sorted list of fields yields the list
(`Value.fieldsOf_eq_of_sorted`), and setting entries with pairwise different keys yields the
entries as they came (`setEntries_of_pairwise`).
-/

namespace ParcelCodec

namespace Value

/-! ## §1. Fields in the order of their names. -/

/-- Fields in strictly ascending order of their names. -/
def SortedFields (fields : List (String × Value)) : Prop :=
  (fields.map (·.1)).Pairwise (· < ·)

theorem mem_names_setField {name m : String} {v : Value} {fields : List (String × Value)} :
    m ∈ (setField name v fields).map (·.1) ↔ m = name ∨ m ∈ fields.map (·.1) := by
  induction fields with
  | nil => simp [setField]
  | cons p rest ih =>
    obtain ⟨n, w⟩ := p
    unfold setField
    split
    · next h => subst h; simp
    · split
      · simp
      · simp only [List.map_cons, List.mem_cons, ih]
        exact or_left_comm

/-- A field finds its place. -/
theorem sorted_setField {name : String} {v : Value} {fields : List (String × Value)}
    (hs : SortedFields fields) : SortedFields (setField name v fields) := by
  induction fields with
  | nil => exact List.pairwise_singleton _ _
  | cons p rest ih =>
    obtain ⟨n, w⟩ := p
    obtain ⟨first, others⟩ := List.pairwise_cons.mp hs
    unfold setField
    split
    · next h => subst h; exact hs
    · next hne =>
      split
      · next hlt =>
        refine List.pairwise_cons.mpr ⟨fun m hm => ?_, hs⟩
        rcases List.mem_cons.mp hm with rfl | hm
        · exact hlt
        · exact hlt.trans (first m hm)
      · next hge =>
        refine List.pairwise_cons.mpr ⟨fun m hm => ?_, ih others⟩
        rcases mem_names_setField.mp hm with rfl | hm
        · exact lt_of_le_of_ne (not_lt.mp hge) (Ne.symm hne)
        · exact first m hm

/-- A field that was set is what it was set to, and no other field changes. -/
theorem lookup_setField (name m : String) (v : Value) (fields : List (String × Value)) :
    (setField name v fields).lookup m = if m = name then some v else fields.lookup m := by
  induction fields with
  | nil => simp only [setField, List.lookup_cons, List.lookup_nil]; split <;> simp_all
  | cons p rest ih =>
    obtain ⟨n, w⟩ := p
    unfold setField
    split
    · next h =>
      subst h
      simp only [List.lookup_cons]
      split <;> simp_all
    · next hne =>
      split
      · simp only [List.lookup_cons]
        split <;> simp_all
      · simp only [List.lookup_cons, ih]
        split
        · next h =>
          have : m = n := by simpa using h
          subst this
          rw [if_neg (Ne.symm hne)]
        · rfl

/-- A field below all others is not there. -/
theorem lookup_of_lt {m : String} {fields : List (String × Value)}
    (h : ∀ n ∈ fields.map (·.1), m < n) : fields.lookup m = none := by
  rw [List.lookup_eq_none_iff]
  intro p hp
  have := h p.1 (List.mem_map_of_mem hp)
  simpa using this.ne'.symm

/-- Sorted fields are determined by what each name stands for. -/
theorem eq_of_sorted : ∀ {as bs : List (String × Value)}, SortedFields as → SortedFields bs →
    (∀ m, as.lookup m = bs.lookup m) → as = bs
  | [], [], _, _, _ => rfl
  | [], (n, w) :: bs, _, _, same => by
    have := same n
    simp at this
  | (n, w) :: as, [], _, _, same => by
    have := same n
    simp at this
  | (n, v) :: as, (m, w) :: bs, ha, hb, same => by
    obtain ⟨firstA, restA⟩ := List.pairwise_cons.mp ha
    obtain ⟨firstB, restB⟩ := List.pairwise_cons.mp hb
    -- The smaller of two different first names would be missing on the other side.
    have names : n = m := by
      rcases lt_trichotomy n m with hlt | heq | hgt
      · have absent : List.lookup n ((m, w) :: bs) = none := by
          refine lookup_of_lt fun k hk => ?_
          rcases List.mem_cons.mp hk with rfl | hk
          · exact hlt
          · exact hlt.trans (firstB k hk)
        have := same n
        rw [absent] at this
        simp at this
      · exact heq
      · have absent : List.lookup m ((n, v) :: as) = none := by
          refine lookup_of_lt fun k hk => ?_
          rcases List.mem_cons.mp hk with rfl | hk
          · exact hgt
          · exact hgt.trans (firstA k hk)
        have := same m
        rw [absent] at this
        simp at this
    subst names
    have values : v = w := by simpa [List.lookup_cons] using same n
    subst values
    have rest : as = bs := by
      refine eq_of_sorted restA restB fun k => ?_
      by_cases hk : k = n
      · subst hk
        rw [lookup_of_lt firstA, lookup_of_lt firstB]
      · have := same k
        simpa [List.lookup_cons, show (k == n) = false by simpa using hk] using this
    rw [rest]

/-! ## §2. Setting all fields. -/

theorem sorted_foldl_setField (pairs : List (String × Value)) :
    ∀ {fields : List (String × Value)}, SortedFields fields →
      SortedFields (pairs.foldl (fun fs p => setField p.1 p.2 fs) fields) := by
  induction pairs with
  | nil => exact fun h => h
  | cons p rest ih => exact fun h => ih (sorted_setField h)

/-- Where every field of a name is set to the same value, that is the value that it has. -/
theorem lookup_foldl_setField {f : String → Value} {pairs : List (String × Value)}
    (hf : ∀ p ∈ pairs, p.2 = f p.1) (m : String) (fields : List (String × Value)) :
    (pairs.foldl (fun fs p => setField p.1 p.2 fs) fields).lookup m
      = if m ∈ pairs.map (·.1) then some (f m) else fields.lookup m := by
  induction pairs generalizing fields with
  | nil => simp
  | cons p rest ih =>
    rw [List.foldl_cons, ih (fun q hq => hf q (List.mem_cons_of_mem p hq)), lookup_setField,
      hf p List.mem_cons_self]
    rw [List.map_cons]
    by_cases hm : m = p.1
    · subst hm; simp
    · simp only [List.mem_cons, hm, false_or, if_false]

theorem lookup_isSome_of_mem {m : String} {fields : List (String × Value)}
    (h : m ∈ fields.map (·.1)) : (fields.lookup m).isSome := by
  rw [Option.isSome_iff_ne_none]
  intro none
  obtain ⟨p, hp, rfl⟩ := List.mem_map.mp h
  have := (List.lookup_eq_none_iff.mp none) p hp
  simp at this

theorem lookup_eq_none_of_not_mem {m : String} {fields : List (String × Value)}
    (h : m ∉ fields.map (·.1)) : fields.lookup m = none := by
  rw [List.lookup_eq_none_iff]
  intro p hp
  have : m ≠ p.1 := fun e => h (e ▸ List.mem_map_of_mem hp)
  simpa using this

/-- Setting each field of sorted fields to what it is, in any order and any number of times, yields
the fields. -/
theorem fieldsOf_eq_of_sorted {fields : List (String × Value)} (hs : SortedFields fields)
    {names : List String} (hn : ∀ n, n ∈ fields.map (·.1) ↔ n ∈ names) :
    fieldsOf (names.map fun n => (n, (fields.lookup n).getD .null)) = fields := by
  refine eq_of_sorted (sorted_foldl_setField _ List.Pairwise.nil) hs fun m => ?_
  unfold fieldsOf
  rw [lookup_foldl_setField (f := fun n => (fields.lookup n).getD .null)
    (by simp +contextual), List.map_map]
  have same : names.map ((·.1) ∘ fun n => (n, (fields.lookup n).getD Value.null)) = names :=
    List.map_id _
  rw [same]
  by_cases hm : m ∈ names
  · rw [if_pos hm]
    obtain ⟨v, hv⟩ := Option.isSome_iff_exists.mp (lookup_isSome_of_mem ((hn m).mpr hm))
    rw [hv]
    rfl
  · rw [if_neg hm, lookup_eq_none_of_not_mem fun h => hm ((hn m).mp h)]
    rfl

/-- Fields that were set one after another are in the order of their names. -/
theorem sorted_fieldsOf (pairs : List (String × Value)) : SortedFields (fieldsOf pairs) :=
  sorted_foldl_setField pairs List.Pairwise.nil

theorem mem_names_foldl_setField {m : String} {pairs : List (String × Value)} :
    ∀ {fields : List (String × Value)},
      m ∈ (pairs.foldl (fun fs p => setField p.1 p.2 fs) fields).map (·.1)
        ↔ m ∈ pairs.map (·.1) ∨ m ∈ fields.map (·.1) := by
  induction pairs with
  | nil => simp
  | cons p rest ih =>
    intro fields
    rw [List.foldl_cons, ih, mem_names_setField, List.map_cons, List.mem_cons]
    exact or_left_comm.trans or_assoc.symm

/-- The names are those of the fields that were set. -/
theorem mem_names_fieldsOf {m : String} {pairs : List (String × Value)} :
    m ∈ (fieldsOf pairs).map (·.1) ↔ m ∈ pairs.map (·.1) := by
  unfold fieldsOf
  rw [mem_names_foldl_setField]
  simp

theorem mem_of_lookup_foldl {m : String} {v : Value} {pairs : List (String × Value)} :
    ∀ {fields : List (String × Value)},
      (pairs.foldl (fun fs p => setField p.1 p.2 fs) fields).lookup m = some v →
        (m, v) ∈ pairs ∨ fields.lookup m = some v := by
  induction pairs with
  | nil => exact fun h => .inr h
  | cons p rest ih =>
    intro fields h
    rcases ih h with later | before
    · exact .inl (List.mem_cons_of_mem p later)
    · rw [lookup_setField] at before
      split at before
      · next same =>
        cases before
        exact .inl (same ▸ List.mem_cons_self)
      · exact .inr before

/-- A field has one of the values that it was set to. -/
theorem mem_of_lookup_fieldsOf {m : String} {v : Value} {pairs : List (String × Value)}
    (h : (fieldsOf pairs).lookup m = some v) : (m, v) ∈ pairs := by
  rcases mem_of_lookup_foldl h with there | nowhere
  · exact there
  · cases nowhere

end Value

/-! ## §3. Entries. -/

/-- An entry with a new key goes behind the others. -/
theorem Calls.setEntry_of_new {κ : Type} {same : κ → Bool} {key : κ} {v : Value}
    {entries : List (κ × Value)} (h : ∀ p ∈ entries, same p.1 = false) :
    Calls.setEntry same key v entries = entries ++ [(key, v)] := by
  induction entries with
  | nil => rfl
  | cons p rest ih =>
    rw [Calls.setEntry, h p List.mem_cons_self, ih fun q hq => h q (List.mem_cons_of_mem p hq)]
    rfl

/-- Entries with pairwise different keys stand in the order in which they came. -/
theorem setEntries_of_pairwise {κ : Type} (same : κ → κ → Bool) {entries : List (κ × Value)}
    (distinct : entries.Pairwise fun a b => same a.1 b.1 = false) :
    entries.foldl (fun es p => Calls.setEntry (same · p.1) p.1 p.2 es) [] = entries := by
  suffices h : ∀ rest done : List (κ × Value),
      (done ++ rest).Pairwise (fun a b => same a.1 b.1 = false) →
        rest.foldl (fun es p => Calls.setEntry (same · p.1) p.1 p.2 es) done = done ++ rest from
    h entries [] distinct
  intro rest
  induction rest with
  | nil => simp
  | cons p rest ih =>
    intro done hp
    have new : ∀ q ∈ done, same q.1 p.1 = false := fun q hq =>
      (List.pairwise_append.mp hp).2.2 q hq p List.mem_cons_self
    rw [List.foldl_cons, Calls.setEntry_of_new new, ih (done ++ [p]) (by simpa using hp)]
    simp

section Entries

variable {κ : Type} {same : κ → κ → Bool}

/-- What holds of all keys and values holds of them when a key is set. -/
theorem forall_setEntry {K : κ → Prop} {V : Value → Prop} {key : κ} {v : Value}
    {entries : List (κ × Value)} (hk : K key) (hv : V v) (h : ∀ p ∈ entries, K p.1 ∧ V p.2) :
    ∀ p ∈ Calls.setEntry (same · key) key v entries, K p.1 ∧ V p.2 := by
  induction entries with
  | nil => exact fun p hp => List.mem_singleton.mp hp ▸ ⟨hk, hv⟩
  | cons q rest ih =>
    obtain ⟨first, others⟩ := List.forall_mem_cons.mp h
    unfold Calls.setEntry
    split
    · exact List.forall_mem_cons.mpr ⟨⟨first.1, hv⟩, others⟩
    · exact List.forall_mem_cons.mpr ⟨first, ih others⟩

/-- Entries with pairwise different keys stay so. -/
theorem pairwise_setEntry (key : κ) (v : Value) {entries : List (κ × Value)}
    (distinct : entries.Pairwise fun a b => same a.1 b.1 = false) :
    (Calls.setEntry (same · key) key v entries).Pairwise fun a b => same a.1 b.1 = false := by
  induction entries with
  | nil => exact List.pairwise_singleton _ _
  | cons q rest ih =>
    obtain ⟨first, others⟩ := List.pairwise_cons.mp distinct
    unfold Calls.setEntry
    split
    · exact List.pairwise_cons.mpr ⟨first, others⟩
    · next new =>
      refine List.pairwise_cons.mpr ⟨fun p hp => ?_, ih others⟩
      exact (forall_setEntry (K := fun k => same q.1 k = false) (V := fun _ => True)
        (Bool.eq_false_iff.mpr new) trivial (fun r hr => ⟨first r hr, trivial⟩) p hp).1

variable (same)

theorem length_setEntry_le (key : κ) (v : Value) (entries : List (κ × Value)) :
    (Calls.setEntry (same · key) key v entries).length ≤ entries.length + 1 := by
  induction entries with
  | nil => exact Nat.le_refl 1
  | cons q rest ih =>
    unfold Calls.setEntry
    split
    · exact Nat.le_succ _
    · exact Nat.succ_le_succ ih

/-- The entries that are set one after another, starting with some. -/
def setEntries (same : κ → κ → Bool) (pairs entries : List (κ × Value)) : List (κ × Value) :=
  pairs.foldl (fun es p => Calls.setEntry (same · p.1) p.1 p.2 es) entries

/-- What holds of all keys and values that are set holds of the entries. -/
theorem forall_setEntries {K : κ → Prop} {V : Value → Prop} {pairs : List (κ × Value)}
    (hp : ∀ p ∈ pairs, K p.1 ∧ V p.2) : ∀ entries : List (κ × Value),
    (∀ p ∈ entries, K p.1 ∧ V p.2) → ∀ p ∈ setEntries same pairs entries, K p.1 ∧ V p.2 := by
  induction pairs with
  | nil => exact fun _ h => h
  | cons q rest ih =>
    intro entries h
    obtain ⟨first, others⟩ := List.forall_mem_cons.mp hp
    exact ih others _ (forall_setEntry first.1 first.2 h)

/-- Setting entries keeps their keys pairwise different. -/
theorem pairwise_setEntries (pairs : List (κ × Value)) : ∀ entries : List (κ × Value),
    entries.Pairwise (fun a b => same a.1 b.1 = false) →
      (setEntries same pairs entries).Pairwise fun a b => same a.1 b.1 = false := by
  induction pairs with
  | nil => exact fun _ h => h
  | cons q rest ih => exact fun _ h => ih _ (pairwise_setEntry q.1 q.2 h)

/-- There are no more entries than were set. -/
theorem length_setEntries_le (pairs : List (κ × Value)) : ∀ entries : List (κ × Value),
    (setEntries same pairs entries).length ≤ pairs.length + entries.length := by
  induction pairs with
  | nil => exact fun entries => Nat.le_add_left entries.length 0
  | cons q rest ih =>
    intro entries
    have one := length_setEntry_le same q.1 q.2 entries
    have others := ih (Calls.setEntry (same · q.1) q.1 q.2 entries)
    unfold setEntries at others ⊢
    rw [List.foldl_cons, List.length_cons]
    omega

end Entries

end ParcelCodec
