import Mathlib.Data.Finset.Card
import Mathlib.Data.Finset.Prod
import ParcelCodec.Proofs.Format.Agreement

/-!
# How deep a run has to go

A run that does not run out of depth does the same at every greater depth.  Whether it runs out
hangs on which things, read at which positions, run out at one depth less; so the things and
positions that do not run out become more with every depth until they stay the same for good.
There are as many of them as things times positions, and that is depth enough.

Main statements: `Deepens.eq_of_le` and `Deepens.eq_of_room`.
-/

namespace ParcelCodec

open Format (Tolerance Agree failure?)
open Wire (Cursor Onward)

/-! ## §1. Chains of sets that settle. -/

/-- A growing chain of sets that stays the same for good once it stays the same has settled after
as many steps as it has room for. -/
theorem subset_of_chain {α : Type} {room : Finset α} {s : Nat → Finset α}
    (sub : ∀ n, s n ⊆ room) (mono : ∀ n, s n ⊆ s (n + 1))
    (stay : ∀ n, s n = s (n + 1) → s (n + 1) = s (n + 2)) (n : Nat) : s n ⊆ s room.card := by
  -- Until it settles, the chain has as many elements as it made steps, and the room bounds them.
  have grows : Monotone s := monotone_nat_of_le_succ mono
  have counted : ∀ k, (∃ m < k, s m = s (m + 1)) ∨ k ≤ (s k).card := by
    intro k
    induction k with
    | zero => exact .inr (Nat.zero_le _)
    | succ k ih =>
      rcases ih with ⟨m, hm, settled⟩ | many
      · exact .inl ⟨m, Nat.lt_succ_of_lt hm, settled⟩
      · by_cases settled : s k = s (k + 1)
        · exact .inl ⟨k, Nat.lt_succ_self k, settled⟩
        · have more := Finset.card_lt_card (lt_of_le_of_ne (mono k) settled)
          exact .inr (by omega)
  obtain ⟨m, hm, settled⟩ : ∃ m < room.card + 1, s m = s (m + 1) := by
    rcases counted (room.card + 1) with found | many
    · exact found
    · have := Finset.card_le_card (sub (room.card + 1))
      omega
  have constant : ∀ k, s (m + k) = s m ∧ s (m + k) = s (m + k + 1) := by
    intro k
    induction k with
    | zero => exact ⟨rfl, settled⟩
    | succ k ih =>
      obtain ⟨same, next⟩ := ih
      exact ⟨next.symm.trans same, stay _ next⟩
  intro a ha
  have later : a ∈ s (m + n) := grows (Nat.le_add_left n m) ha
  rw [(constant n).1] at later
  exact grows (Nat.le_of_lt_succ hm) later

/-! ## §2. Runs that go deeper. -/

/-- One side may run out of depth where the other side goes on. -/
def shallow : Tolerance where
  Stops e _ := e = .outOfDepth
  restated := by
    rintro e o fault rfl
    rfl
  any_of_success h _ := h

/-- Both sides may run out of depth. -/
def exhausted : Tolerance where
  Stops e o := e = .outOfDepth ∧ o = some .outOfDepth
  restated := by
    rintro e o fault ⟨rfl, rfl⟩
    exact ⟨rfl, rfl⟩
  any_of_success := by
    rintro e ⟨_, h⟩
    cases h

variable {κ : Type}

/-- Runs of some things that go deeper and deeper: a run only stops for want of depth where the next
one goes on, and where a depth and the next one do the same, so do the ones after them. -/
structure Deepens (run : Nat → κ → Reading Value) (keys : List κ) : Prop where
  deeper : ∀ c₀ n, ∀ k ∈ keys, Agree shallow c₀ (run n k) (run (n + 1) k)
  stays : ∀ c₀ n, (∀ k ∈ keys, Agree exhausted c₀ (run n k) (run (n + 1) k)) →
    ∀ k ∈ keys, Agree exhausted c₀ (run (n + 1) k) (run (n + 2) k)

namespace Deepens

variable {run : Nat → κ → Reading Value} {keys : List κ} (deepens : Deepens run keys)

include deepens

/-- A run that ends at some depth ends the same way at every greater depth. -/
theorem eq_of_le {m n : Nat} (hmn : m ≤ n) {k : κ} (hk : k ∈ keys) {c : Cursor}
    (h : (run m k c).1 ≠ .error .outOfDepth) : run n k c = run m k c := by
  induction hmn with
  | refl => rfl
  | @step n _ ih =>
    rcases deepens.deeper c n k hk c (Onward.refl c) with same | ⟨e, stopped, rfl⟩
    · rw [← same, ih]
    · rw [ih] at stopped
      exact absurd stopped h

/-! ## §3. Depth enough. -/

omit deepens

/-- The cursor that stands at a distance from another one. -/
def ahead (c : Cursor) (k : Nat) : Cursor := ⟨c.index + k, c.rest.drop k⟩

/-- A run of something at a distance from a start ends within a depth. -/
def EndsAt (run : Nat → κ → Reading Value) (c : Cursor) (n : Nat) (s : κ × Nat) : Prop :=
  (run n s.1 (ahead c s.2)).1 ≠ .error .outOfDepth

open Classical in
/-- Everything at every position from a cursor on. -/
noncomputable def spots (keys : List κ) (c : Cursor) : Finset (κ × Nat) :=
  keys.toFinset ×ˢ Finset.range (c.remaining + 1)

theorem mem_spots {c : Cursor} {k : κ} {i : Nat} :
    (k, i) ∈ spots keys c ↔ k ∈ keys ∧ i ≤ c.remaining := by
  classical
  unfold spots
  rw [Finset.mem_product, List.mem_toFinset, Finset.mem_range, Nat.lt_succ_iff]

theorem card_spots_le (keys : List κ) (c : Cursor) :
    (spots keys c).card ≤ keys.length * (c.remaining + 1) := by
  classical
  unfold spots
  rw [Finset.card_product, Finset.card_range]
  exact Nat.mul_le_mul_right _ (List.toFinset_card_le keys)

open Classical in
/-- The spots at which a run ends within a depth. -/
noncomputable def ended (run : Nat → κ → Reading Value) (keys : List κ) (c : Cursor) (n : Nat) :
    Finset (κ × Nat) :=
  (spots keys c).filter (EndsAt run c n)

theorem mem_ended {c : Cursor} {n : Nat} {s : κ × Nat} :
    s ∈ ended run keys c n ↔ s ∈ spots keys c ∧ EndsAt run c n s := by
  classical
  exact Finset.mem_filter

include deepens

theorem ended_mono (c : Cursor) (n : Nat) : ended run keys c n ⊆ ended run keys c (n + 1) := by
  intro s hs
  obtain ⟨there, ends⟩ := mem_ended.mp hs
  refine mem_ended.mpr ⟨there, ?_⟩
  unfold EndsAt at *
  rwa [deepens.eq_of_le (Nat.le_succ n) (mem_spots.mp there).1 ends]

/-- Where a depth and the next one end at the same spots, they do the same from there on, as far as
they end at all. -/
theorem agree_of_ended_eq {c : Cursor} {n : Nat}
    (h : ended run keys c n = ended run keys c (n + 1)) :
    ∀ k ∈ keys, Agree exhausted c (run n k) (run (n + 1) k) := by
  rintro k hk _ ⟨i, hi, rfl⟩
  have there : (k, i) ∈ spots keys c := mem_spots.mpr ⟨hk, hi⟩
  by_cases ends : EndsAt run c n (k, i)
  · exact .inl (deepens.eq_of_le (Nat.le_succ n) hk ends).symm
  · have never : ¬ EndsAt run c (n + 1) (k, i) := fun ends' =>
      ends (mem_ended.mp (h ▸ mem_ended.mpr ⟨there, ends'⟩)).2
    unfold EndsAt at ends never
    rw [not_not] at ends never
    refine .inr ⟨_, ends, rfl, ?_⟩
    show failure? (run (n + 1) k (ahead c i)).1 = some .outOfDepth
    rw [never]
    rfl

theorem ended_stay (c : Cursor) (n : Nat) (h : ended run keys c n = ended run keys c (n + 1)) :
    ended run keys c (n + 1) = ended run keys c (n + 2) := by
  refine Finset.Subset.antisymm (deepens.ended_mono c (n + 1)) fun s hs => ?_
  obtain ⟨there, ends⟩ := mem_ended.mp hs
  obtain ⟨hk, position⟩ := mem_spots.mp there
  refine mem_ended.mpr ⟨there, fun out => ?_⟩
  have step := deepens.stays c n (deepens.agree_of_ended_eq h) s.1 hk (ahead c s.2)
    ⟨s.2, position, rfl⟩
  rcases step with same | ⟨e, _, _, late⟩
  · exact ends (same ▸ out)
  · unfold EndsAt at ends
    rcases h' : (run (n + 2) s.1 (ahead c s.2)).1 with e' | a
    · rw [h'] at late ends
      cases late
      exact ends rfl
    · rw [h'] at late
      cases late

/-- A run that ends at some depth ends the same way at a depth of one for each thing at each
position. -/
theorem eq_of_room {n room : Nat} {k : κ} (hk : k ∈ keys) {c : Cursor}
    (enough : keys.length * (c.remaining + 1) ≤ room) (h : (run n k c).1 ≠ .error .outOfDepth) :
    run room k c = run n k c := by
  have there : (k, 0) ∈ spots keys c := mem_spots.mpr ⟨hk, Nat.zero_le _⟩
  have settled := subset_of_chain (s := ended run keys c) (fun _ _ hs => (mem_ended.mp hs).1)
    (deepens.ended_mono c) (deepens.ended_stay c) n (mem_ended.mpr ⟨there, h⟩)
  have ends : (run (spots keys c).card k c).1 ≠ .error .outOfDepth := (mem_ended.mp settled).2
  rw [deepens.eq_of_le ((card_spots_le keys c).trans enough) hk ends]
  rcases Nat.le_total n (spots keys c).card with hle | hle
  · exact deepens.eq_of_le hle hk h
  · exact (deepens.eq_of_le hle hk ends).symm

end Deepens

end ParcelCodec
