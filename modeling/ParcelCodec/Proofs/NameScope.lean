import Mathlib.Data.List.DropRight
import Mathlib.Data.List.Perm.Subperm
import Mathlib.Data.List.Range
import Mathlib.Data.List.Nodup
import ParcelCodec.NameScope

/-!
# Fresh names are fresh

The candidates for a base are pairwise different, and the search tries one more of them than there
are names that cannot be used.  So the name that it settles on can be used, in every scope and for
every base.

Main statement: `NameScope.contains_fresh`.
-/

namespace ParcelCodec.NameScope

variable (s : NameScope) (base : String)

/-! ## §1. Candidates. -/

/-- Different numbers have different digits. -/
theorem repr_injective {m n : Nat} (h : m.repr = n.repr) : m = n := by
  have digits : Nat.toDigits 10 m = Nat.toDigits 10 n := by
    rw [← Nat.toList_repr, ← Nat.toList_repr, h]
  rw [← Nat.ofDigitChars_ten_toDigits (n := m), digits, Nat.ofDigitChars_ten_toDigits]

/-- Different numbers make different candidates. -/
theorem candidate_injective {m n : Nat} (h : s.candidate base m = s.candidate base n) : m = n := by
  have numbered : ∀ k, base ≠ base ++ s.separator ++ toString (k + 1) := by
    intro k same
    have lengths := congrArg String.length same
    have := Nat.length_repr_pos (n := k + 1)
    rw [String.length_append, String.length_append, Nat.toString_eq_repr] at lengths
    omega
  cases m with
  | zero =>
    cases n with
    | zero => rfl
    | succ n => exact absurd h (numbered n)
  | succ m =>
    cases n with
    | zero => exact absurd h.symm (numbered m)
    | succ n =>
      have same : toString (m + 1) = toString (n + 1) := String.append_right_inj _ |>.mp h
      exact repr_injective same

/-! ## §2. The search. -/

/-- If the search settles on a name that cannot be used, none of the candidates can be. -/
theorem contains_candidate_of_firstFree {tries n : Nat}
    (h : s.contains (s.firstFree base tries n) = true) :
    ∀ i ≤ tries, s.contains (s.candidate base (n + i)) = true := by
  induction tries generalizing n with
  | zero =>
    intro i hi
    have : i = 0 := by omega
    subst this
    exact h
  | succ tries ih =>
    unfold firstFree at h
    by_cases used : s.contains (s.candidate base n) = true
    · rw [if_pos used] at h
      intro i hi
      cases i with
      | zero => exact used
      | succ i =>
        have := ih h i (by omega)
        rwa [Nat.add_right_comm] at this
    · rw [if_neg used] at h
      exact absurd h used

/-- A scope holds the reserved words and what was taken. -/
theorem mem_of_contains {name : String} (h : s.contains name = true) :
    name ∈ Java.reservedWords ++ s.taken := by
  unfold contains at h
  simpa using h

/-- The name for a base can be used. -/
theorem contains_fresh : s.contains (s.fresh base) = false := by
  rw [Bool.eq_false_iff]
  intro used
  have all := contains_candidate_of_firstFree s base used
  let names := (List.range (Java.reservedWords.length + s.taken.length + 1)).map (s.candidate base)
  have distinct : names.Nodup :=
    List.nodup_range.map fun m n h => candidate_injective s base h
  have unusable : names ⊆ Java.reservedWords ++ s.taken := by
    intro name hn
    obtain ⟨i, hi, rfl⟩ := List.mem_map.mp hn
    have := all i (by have := List.mem_range.mp hi; omega)
    rw [Nat.zero_add] at this
    exact mem_of_contains s this
  have tooMany := (List.subperm_of_subset distinct unusable).length_le
  rw [List.length_map, List.length_range, List.length_append] at tooMany
  omega

/-- A fresh name was not taken before. -/
theorem fresh_not_mem : s.fresh base ∉ s.taken := by
  intro h
  have := contains_fresh s base
  simp [contains, h] at this

/-! ## §3. Allocation. -/

/-- A name that was not in use is in use as well, and nothing else. -/
structure Draws (s : NameScope) (name : String) (s' : NameScope) : Prop where
  new : name ∉ s.taken
  mem_iff : ∀ n, n ∈ s'.taken ↔ n = name ∨ n ∈ s.taken

/-- A name that is drawn is taken from then on. -/
theorem Draws.self_mem {s s' : NameScope} {name : String} (h : s.Draws name s') :
    name ∈ s'.taken := (h.mem_iff name).mpr (.inl rfl)

/-- Drawing a name gives none back. -/
theorem Draws.subset {s s' : NameScope} {name : String} (h : s.Draws name s') :
    ∀ n ∈ s.taken, n ∈ s'.taken := fun n hn => (h.mem_iff n).mpr (.inr hn)

/-- Allocating a name draws it. -/
theorem exists_allocate : ∃ name s', s.allocate base = (name, s') ∧ s.Draws name s' :=
  ⟨s.fresh base, s.withName (s.fresh base), rfl, fresh_not_mem s base, fun _ => List.mem_cons⟩

/-- The scope that holds a name for a base as well. -/
def drawn (s : NameScope) (base : String) : NameScope := s.withName (s.fresh base)

/-- Allocating answers with the fresh name and the scope in which it is taken. -/
theorem allocate_eq : s.allocate base = (s.fresh base, s.drawn base) := rfl

/-- The fresh name is taken once it is drawn. -/
theorem fresh_mem_drawn : s.fresh base ∈ (s.drawn base).taken := List.mem_cons_self

/-- What was taken stays taken. -/
theorem mem_drawn {name : String} (h : name ∈ s.taken) : name ∈ (s.drawn base).taken :=
  List.mem_cons_of_mem _ h

/-! ## §4. The first candidate. -/

/-- The search stops at a candidate behind those that are held. -/
theorem exists_firstFree (tries n : Nat) : ∃ m ≤ tries,
    s.firstFree base tries n = s.candidate base (n + m)
      ∧ ∀ i < m, s.contains (s.candidate base (n + i)) = true := by
  induction tries generalizing n with
  | zero => exact ⟨0, Nat.le_refl 0, rfl, nofun⟩
  | succ tries ih =>
    unfold firstFree
    by_cases used : s.contains (s.candidate base n) = true
    · obtain ⟨m, within, found, before⟩ := ih (n + 1)
      refine ⟨m + 1, Nat.succ_le_succ within, ?_, fun i hi => ?_⟩
      · rw [if_pos used, found, Nat.add_right_comm, Nat.add_assoc]
      · cases i with
        | zero => exact used
        | succ i =>
          have := before i (by omega)
          rwa [Nat.add_right_comm] at this
    · exact ⟨0, Nat.zero_le _, if_neg used, nofun⟩

/-- The name for a base is the first candidate that can be used. -/
theorem exists_fresh : ∃ m ≤ Java.reservedWords.length + s.taken.length,
    s.fresh base = s.candidate base m
      ∧ ∀ i < m, s.contains (s.candidate base i) = true := by
  obtain ⟨m, within, found, before⟩ :=
    s.exists_firstFree base (Java.reservedWords.length + s.taken.length) 0
  rw [Nat.zero_add] at found
  exact ⟨m, within, found, fun i hi => by simpa using before i hi⟩

/-- Scopes that hold the same candidates for a base settle on the same name. -/
theorem fresh_eq_of_contains {s s' : NameScope} {base : String}
    (same : s.separator = s'.separator)
    (used : ∀ n, s.contains (s.candidate base n) = s'.contains (s.candidate base n)) :
    s.fresh base = s'.fresh base := by
  have candidates : s'.candidate base = s.candidate base := by
    funext n
    cases n with
    | zero => rfl
    | succ n =>
      unfold candidate
      rw [same]
  obtain ⟨m, -, found, before⟩ := s.exists_fresh base
  obtain ⟨m', -, found', before'⟩ := s'.exists_fresh base
  rw [candidates] at found' before'
  have free := s.contains_fresh base
  have free' := s'.contains_fresh base
  rw [found] at free
  rw [found'] at free'
  rw [found, found']
  rcases Nat.lt_trichotomy m m' with less | equal | more
  · exact absurd (before' m less) (by rw [← used, free]; nofun)
  · rw [equal]
  · exact absurd (before m' more) (by rw [used, free']; nofun)

/-! ## §5. What stands in front of the number. -/

/-- A name without the digits at its end. -/
def stem (name : String) : List Char := name.toList.rdropWhile Char.isDigit

variable {s base} {name : String}

/-- Without a separator, all candidates have the stem of their base. -/
theorem stem_candidate (plain : s.separator = "") (n : Nat) :
    stem (s.candidate base n) = stem base := by
  cases n with
  | zero => rfl
  | succ n =>
    have digits : ∀ c ∈ (toString (n + 1)).toList.reverse, c.isDigit = true := by
      intro c hc
      rw [Nat.toString_eq_repr, Nat.toList_repr] at hc
      exact Nat.isDigit_of_mem_toDigits (by omega) (by omega) (List.mem_reverse.mp hc)
    unfold stem candidate List.rdropWhile
    rw [plain, String.append_empty, String.toList_append, List.reverse_append,
      List.dropWhile_append_of_pos digits]

/-- Without a separator, the fresh name has the stem of its base. -/
theorem stem_fresh (plain : s.separator = "") : stem (s.fresh base) = stem base := by
  obtain ⟨m, -, found, -⟩ := s.exists_fresh base
  rw [found, stem_candidate plain]

/-- A name with another stem does not get into the way. -/
theorem fresh_withName_of_stem (plain : s.separator = "") (other : stem name ≠ stem base) :
    (s.withName name).fresh base = s.fresh base := by
  refine fresh_eq_of_contains rfl fun n => ?_
  have apart : s.candidate base n ≠ name := by
    rintro rfl
    exact other (stem_candidate plain n)
  show (_ || (name :: s.taken).contains (s.candidate base n))
    = (_ || s.taken.contains (s.candidate base n))
  rw [List.contains_cons, beq_false_of_ne apart, Bool.false_or]

/-- The names for two bases do not depend on each other if the bases have different stems. -/
theorem fresh_drawn_of_stem {first : String} (plain : s.separator = "")
    (other : stem first ≠ stem base) : (s.drawn first).fresh base = s.fresh base :=
  fresh_withName_of_stem plain (by rwa [stem_fresh plain])

end ParcelCodec.NameScope
