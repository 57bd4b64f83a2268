import ParcelCodec.Proofs.NameScope

/-!
# What allocating a name comes to

Allocating tries the candidates of a base in order, with no bound on their number (`Search`).  The
search is over at the first candidate that can be used, and there always is one.  Which one it is
depends on the names in use and on the separator only, so it does not matter in which order the
names were put into the scope.

A scope only grows, whatever is done to it, and a name is new when it is allocated (`Move.grows`,
`Move.new`).  So no name is allocated twice along a run of moves.

Main statement: `allocates`.
-/

namespace ParcelCodec.NameScope

variable (s : NameScope) (base : String)

/-! ## §1. The search without a bound. -/

/-- The search for a name: candidate after candidate from the `n`-th on, up to one that can be
used. -/
inductive Search : (n : Nat) → (name : String) → Prop
  | free {n : Nat} (unused : s.contains (s.candidate base n) = false) :
    Search n (s.candidate base n)
  | next {n : Nat} {name : String} (used : s.contains (s.candidate base n) = true)
    (more : Search (n + 1) name) : Search n name

variable {s base}

/-- A search that passes some candidates goes on as it would behind them. -/
theorem Search.skip {name : String} {n m : Nat}
    (used : ∀ i < m, s.contains (s.candidate base (n + i)) = true)
    (more : Search s base (n + m) name) : Search s base n name := by
  induction m generalizing n with
  | zero => exact more
  | succ m ih =>
    refine .next (used 0 (Nat.succ_pos m)) (ih (fun i hi => ?_) ?_)
    · rw [Nat.add_assoc, Nat.add_comm 1 i]
      exact used (i + 1) (Nat.succ_lt_succ hi)
    · rw [Nat.add_assoc, Nat.add_comm 1 m]
      exact more

/-- The search has one outcome at most. -/
theorem Search.unique {name name' : String} {n : Nat} (h : Search s base n name)
    (h' : Search s base n name') : name = name' := by
  induction h with
  | free unused =>
    cases h' with
    | free _ => rfl
    | next used _ => exact absurd used (by rw [unused]; nofun)
  | next used _ ih =>
    cases h' with
    | free unused => exact absurd used (by rw [unused]; nofun)
    | next _ more => exact ih more

variable (s base)

/-- The search ends with the name that is allocated, and with no other. -/
theorem search_iff (name : String) : Search s base 0 name ↔ name = s.fresh base := by
  obtain ⟨m, -, found, before⟩ := s.exists_fresh base
  have ends : Search s base 0 (s.fresh base) := by
    refine Search.skip (m := m) (fun i hi => ?_) ?_
    · rw [Nat.zero_add]
      exact before i hi
    · rw [Nat.zero_add, found]
      exact .free (found ▸ s.contains_fresh base)
  exact ⟨fun h => h.unique ends, fun same => same ▸ ends⟩

/-! ## §2. Scopes that hold the same names. -/

/-- Two scopes with one separator that hold the same names. -/
structure Alike (s s' : NameScope) : Prop where
  separator : s.separator = s'.separator
  mem_iff : ∀ name, name ∈ s.taken ↔ name ∈ s'.taken

variable {s} {s' : NameScope}

theorem Alike.contains (h : s.Alike s') (name : String) : s.contains name = s'.contains name := by
  unfold NameScope.contains
  rw [Bool.eq_iff_iff, Bool.or_eq_true, Bool.or_eq_true, List.contains_iff_mem,
    List.contains_iff_mem, List.contains_iff_mem, h.mem_iff]

theorem Alike.fresh (h : s.Alike s') : s.fresh base = s'.fresh base :=
  fresh_eq_of_contains h.separator fun n => h.contains (s.candidate base n)

/-! ## §3. Runs of moves. -/

/-- What can be done with a scope. -/
inductive Move where
  /-- A name is marked as used. -/
  | use (name : String)
  /-- A block is entered, which sees every name around it. -/
  | enter
  /-- A name for a base is allocated. -/
  | allocate (base : String)

/-- The scope behind a move. -/
def Move.scope (s : NameScope) : Move → NameScope
  | .use name => s.withName name
  | .enter => s
  | .allocate base => (s.allocate base).2

/-- The name that a move allocates, if it allocates one. -/
def Move.name? (s : NameScope) : Move → Option String
  | .use _ => none
  | .enter => none
  | .allocate base => some (s.allocate base).1

/-- The names that a run of moves allocates. -/
def allocated (s : NameScope) : List Move → List String
  | [] => []
  | m :: rest => (m.name? s).toList ++ allocated (m.scope s) rest

/-- No move takes a name out of use. -/
theorem Move.grows (m : Move) (s : NameScope) : s.taken ⊆ (m.scope s).taken := by
  cases m with
  | use name => exact List.subset_cons_self ..
  | enter => exact List.Subset.refl _
  | allocate base => exact List.subset_cons_self ..

/-- A name was not in use before it is allocated, and it is in use from then on. -/
theorem Move.new {m : Move} {s : NameScope} {name : String} (h : name ∈ (m.name? s).toList) :
    name ∉ s.taken ∧ name ∈ (m.scope s).taken := by
  cases m with
  | use _ => cases h
  | enter => cases h
  | allocate base =>
    obtain rfl := List.mem_singleton.mp h
    exact ⟨fresh_not_mem s base, fresh_mem_drawn s base⟩

theorem not_mem_of_mem_allocated {moves : List Move} {s : NameScope} {name : String}
    (h : name ∈ s.allocated moves) : name ∉ s.taken := by
  induction moves generalizing s with
  | nil => cases h
  | cons m rest ih =>
    rcases List.mem_append.mp h with now | later
    · exact (Move.new now).1
    · exact fun there => ih later (m.grows s there)

/-- No name is allocated twice. -/
theorem nodup_allocated (moves : List Move) (s : NameScope) : (s.allocated moves).Nodup := by
  induction moves generalizing s with
  | nil => exact List.nodup_nil
  | cons m rest ih =>
    refine List.nodup_append'.mpr ⟨?_, ih _, fun name now later => ?_⟩
    · cases m with
      | use _ => exact List.nodup_nil
      | enter => exact List.nodup_nil
      | allocate _ => exact List.nodup_singleton _
    · exact not_mem_of_mem_allocated later (Move.new now).2

/-! ## §4. Allocation. -/

/-- The name that is allocated for a base, and the scope that is returned with it. -/
structure Allocates (s : NameScope) (base name : String) (s' : NameScope) : Prop where
  /-- The name is the first candidate that is neither a reserved word nor in use.  Its number is no
  larger than the number of names that cannot be used. -/
  first : ∃ n ≤ Java.reservedWords.length + s.taken.length, name = s.candidate base n
    ∧ (name ∉ Java.reservedWords ∧ name ∉ s.taken)
    ∧ ∀ i < n, s.candidate base i ∈ Java.reservedWords ∨ s.candidate base i ∈ s.taken
  /-- The search through all candidates ends, and it ends with this name. -/
  outcome : ∀ other, Search s base 0 other ↔ other = name
  /-- The returned scope holds the names of the old one and this one. -/
  held : s'.separator = s.separator ∧ ∀ other, other ∈ s'.taken ↔ other = name ∨ other ∈ s.taken
  /-- The order in which names came into the scope plays no part. -/
  anyOrder : ∀ twin, s.Alike twin → (twin.allocate base).1 = name
  /-- The name is not allocated again, and neither is any other, whatever is done with the returned
  scope. -/
  once : ∀ moves, (name :: s'.allocated moves).Nodup

theorem contains_iff (s : NameScope) (name : String) :
    s.contains name = true ↔ name ∈ Java.reservedWords ∨ name ∈ s.taken := by
  unfold NameScope.contains
  rw [Bool.or_eq_true, List.contains_iff_mem, List.contains_iff_mem]

/-- Every scope allocates a name for every base: the first candidate that can be used. -/
theorem allocates (s : NameScope) (base : String) :
    Allocates s base (s.allocate base).1 (s.allocate base).2 where
  first := by
    obtain ⟨n, within, found, before⟩ := s.exists_fresh base
    have free := s.contains_fresh base
    rw [Bool.eq_false_iff, Ne, contains_iff, not_or] at free
    exact ⟨n, within, found, free, fun i hi => (s.contains_iff _).mp (before i hi)⟩
  outcome := s.search_iff base
  held := ⟨rfl, fun _ => List.mem_cons⟩
  anyOrder := fun _ alike => (alike.fresh base).symm
  once := fun moves => s.nodup_allocated (.allocate base :: moves)

/-- A reserved word and a name in use are numbered, past numbers that are in use as well. -/
example : (locals.allocate "class").1 = "class1"
    ∧ ((locals.withName "data1").allocate "data").1 = "data2" := by decide

end ParcelCodec.NameScope
