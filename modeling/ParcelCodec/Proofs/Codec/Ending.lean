import ParcelCodec.Proofs.Codec.Parts

/-!
# When building comes to an end

A search for a codec that has come to an end gives the same answer however much deeper it may go.
One that never comes to an end goes down for ever: below every type stands a part whose search does
not end either, and no type is met twice, since the search refuses that.  So where no such endless
chain of types leaves a type, its codec is built or refused after finitely many steps.

Main statements: `buildBelow_of_le` and `exists_finished`.
-/

namespace ParcelCodec

variable {α β : Type}

/-- A search came to an end: it did not run into its depth. -/
def Finished (r : Except Obstacle α) : Prop := ∀ ty, r ≠ .error (.unbounded ty)

theorem finished_ok (a : α) : Finished (.ok a) := fun _ h => nomatch h

theorem finished_unresolved (u : Unresolved) : Finished (α := α) (.error (.unresolved u)) :=
  fun _ h => nomatch h

theorem finished_map {f : α → β} {r : Except Obstacle α} : Finished (f <$> r) ↔ Finished r := by
  rcases r with (u | ty) | a
  · exact ⟨fun _ => finished_unresolved u, fun _ => finished_unresolved u⟩
  · exact ⟨fun h => absurd rfl (h ty), fun h => absurd rfl (h ty)⟩
  · exact ⟨fun _ => finished_ok a, fun _ => finished_ok (f a)⟩

namespace Codebook

variable {b : Codebook}

/-! ## §1. Several searches in a row. -/

variable {f g : JavaType → Except Obstacle Codec}

/-- A search in a row goes on behind a codec that is found. -/
theorem mapM_cons_of_ok {ty : JavaType} {c : Codec} (h : f ty = .ok c) (rest : List JavaType) :
    (ty :: rest).mapM f = List.cons c <$> rest.mapM f := by
  rw [List.mapM_cons, h, map_eq_pure_bind]
  rfl

/-- A search in a row ends at the first codec that is not found. -/
theorem mapM_cons_of_error {ty : JavaType} {o : Obstacle} (h : f ty = .error o)
    (rest : List JavaType) : (ty :: rest).mapM f = .error o := by
  rw [List.mapM_cons, h]
  rfl

/-- Where searches in a row come to an end, those that end in the same way make no difference. -/
theorem mapM_eq_of_finished : ∀ {tys : List JavaType}, Finished (tys.mapM f) →
    (∀ ty ∈ tys, Finished (f ty) → g ty = f ty) → tys.mapM g = tys.mapM f
  | [], _, _ => rfl
  | ty :: rest, ended, same => by
    obtain ⟨first, same⟩ := List.forall_mem_cons.mp same
    rcases hf : f ty with (u | ty') | c
    · have hg : g ty = .error (.unresolved u) := (first (hf ▸ finished_unresolved u)).trans hf
      rw [mapM_cons_of_error hf, mapM_cons_of_error hg]
    · exact absurd (mapM_cons_of_error hf rest) (ended ty')
    · have hg : g ty = .ok c := (first (hf ▸ finished_ok c)).trans hf
      rw [mapM_cons_of_ok hf] at ended ⊢
      rw [mapM_cons_of_ok hg, mapM_eq_of_finished (finished_map.mp ended) same]

/-- Searches in a row come to an end if each of them does. -/
theorem finished_mapM : ∀ {tys : List JavaType}, (∀ ty ∈ tys, Finished (f ty)) →
    Finished (tys.mapM f)
  | [], _ => finished_ok []
  | ty :: rest, each => by
    obtain ⟨first, each⟩ := List.forall_mem_cons.mp each
    rcases hf : f ty with (u | ty') | c
    · rw [mapM_cons_of_error hf]
      exact finished_unresolved u
    · exact absurd hf (first ty')
    · rw [mapM_cons_of_ok hf]
      exact finished_map.mpr (finished_mapM each)

/-! ## §2. Deeper searches. -/

/-- A search that came to an end gives the same answer with one more level. -/
theorem buildBelow_succ_of_finished {depth : Nat} {above : List (Nat × JavaType)} {ty : JavaType}
    (ended : Finished (b.buildBelow depth above ty)) :
    b.buildBelow (depth + 1) above ty = b.buildBelow depth above ty := by
  induction depth generalizing above ty with
  | zero => exact absurd rfl (ended ty)
  | succ depth ih =>
    rw [buildBelow, buildBelow]
    rw [buildBelow] at ended
    split
    · rfl
    · next new =>
      rw [if_neg new] at ended
      cases hr : b.classify ty with
      | error u => rfl
      | ok rule =>
        simp only [hr] at ended ⊢
        -- A composition that ended has built every part up to the first obstacle, and no further.
        rw [compose_eq] at ended ⊢
        rw [compose_eq, mapM_eq_of_finished (finished_map.mp ended) fun part _ => ih]

/-- A search that came to an end gives the same answer at every greater depth. -/
theorem buildBelow_of_le {depth depth' : Nat} {above : List (Nat × JavaType)} {ty : JavaType}
    (ended : Finished (b.buildBelow depth above ty)) (le : depth ≤ depth') :
    b.buildBelow depth' above ty = b.buildBelow depth above ty := by
  induction le with
  | refl => rfl
  | step _ ih => rw [buildBelow_succ_of_finished (ih.symm ▸ ended), ih]

/-- Several searches that come to an end, each at some depth, do so at a common one. -/
theorem exists_common_depth {above : List (Nat × JavaType)} : ∀ {tys : List JavaType},
    (∀ ty ∈ tys, ∃ depth, Finished (b.buildBelow depth above ty)) →
      ∃ depth, ∀ ty ∈ tys, Finished (b.buildBelow depth above ty)
  | [], _ => ⟨0, nofun⟩
  | ty :: rest, each => by
    obtain ⟨⟨depth, first⟩, each⟩ := List.forall_mem_cons.mp each
    obtain ⟨depth', others⟩ := exists_common_depth each
    refine ⟨max depth depth', List.forall_mem_cons.mpr ⟨?_, fun part there => ?_⟩⟩
    · rwa [buildBelow_of_le first (Nat.le_max_left _ _)]
    · rw [buildBelow_of_le (others part there) (Nat.le_max_right _ _)]
      exact others part there

/-- A search comes to an end where every part is of a smaller rank. -/
theorem finished_of_rank {rank : JavaType → Nat}
    (less : ∀ ty part, b.Needs ty part → rank part < rank ty) {depth : Nat}
    {above : List (Nat × JavaType)} {ty : JavaType} (deep : rank ty < depth) :
    Finished (b.buildBelow depth above ty) := by
  induction depth generalizing above ty with
  | zero => omega
  | succ depth ih =>
    rw [buildBelow]
    split
    · exact finished_unresolved _
    · cases hr : b.classify ty with
      | error u => exact finished_unresolved u
      | ok rule =>
        simp only
        rw [compose_eq]
        refine finished_map.mpr (finished_mapM fun part there => ih ?_)
        have smaller := less ty part ⟨rule, hr, there⟩
        omega

/-- Without adapters, a type needs only what stands inside of it, which is lighter. -/
theorem weight_lt_of_needs (none : b.registry.entries = []) {ty part : JavaType}
    (needs : b.Needs ty part) : part.weight < ty.weight := by
  rcases needs_cases needs with ⟨found, priority, handles, -⟩ | inside
  · have registered := (Registry.match_of_handlerAt? handles).1
    rw [none] at registered
    cases registered
  · exact inside.weight_lt

/-- Without adapters, building comes to an end. -/
theorem finished_build_of_no_adapters (none : b.registry.entries = []) (ty : JavaType) :
    Finished (b.build ty) := by
  refine finished_of_rank (fun _ _ needs => weight_lt_of_needs none needs) ?_
  unfold depthFor
  omega

/-! ## §3. Searches without end. -/

/-- From a type, types can be reached one from the other without end, all of them different. -/
def Endless (b : Codebook) (ty : JavaType) : Prop :=
  ∃ f : Nat → JavaType, f 0 = ty ∧ (∀ i, b.Needs (f i) (f (i + 1))) ∧ Function.Injective f

/-- A search for a type below others comes to an end at no depth. -/
def Stuck (b : Codebook) (above : List (Nat × JavaType)) (ty : JavaType) : Prop :=
  ∀ depth, ¬ Finished (b.buildBelow depth above ty)

/-- A search that comes to no end has not met its type before, and is not the first one on its way
down that comes to none. -/
theorem exists_stuck {above : List (Nat × JavaType)} {ty : JavaType} (h : b.Stuck above ty) :
    ty.weighed ∉ above ∧ ∃ part, b.Needs ty part ∧ b.Stuck (ty.weighed :: above) part := by
  have new : ¬ above.contains ty.weighed = true := by
    intro again
    refine h 1 ?_
    rw [buildBelow, if_pos again]
    exact finished_unresolved _
  refine ⟨fun there => new (List.contains_iff_mem.mpr there), ?_⟩
  cases hr : b.classify ty with
  | error u =>
    refine absurd ?_ (h 1)
    rw [buildBelow, if_neg new, hr]
    exact finished_unresolved u
  | ok rule =>
    by_contra none
    -- If the search for every part came to an end, one depth would do for all of them.
    have parts : ∀ part ∈ rule.parts,
        ∃ depth, Finished (b.buildBelow depth (ty.weighed :: above) part) := by
      intro part there
      by_contra endless
      exact none ⟨part, ⟨rule, hr, there⟩, not_exists.mp endless⟩
    obtain ⟨depth, ended⟩ := exists_common_depth parts
    refine h (depth + 1) ?_
    rw [buildBelow, if_neg new, hr]
    simp only
    rw [compose_eq]
    exact finished_map.mpr (finished_mapM ended)

/-- A search that comes to no end goes down an endless chain of different types. -/
theorem endless_of_stuck {ty : JavaType} (h : b.Stuck [] ty) : b.Endless ty := by
  -- The chain remembers what stands above each of its types.
  let State := { s : List (Nat × JavaType) × JavaType // b.Stuck s.1 s.2 }
  have step : ∀ s : State, ∃ t : State,
      b.Needs s.1.2 t.1.2 ∧ t.1.1 = s.1.2.weighed :: s.1.1 := by
    rintro ⟨⟨above, ty⟩, stuck⟩
    obtain ⟨-, part, needs, stuck'⟩ := exists_stuck stuck
    exact ⟨⟨(ty.weighed :: above, part), stuck'⟩, needs, rfl⟩
  choose next needs below using step
  let chain : Nat → State := fun i => Nat.rec ⟨([], ty), h⟩ (fun _ s => next s) i
  have before : ∀ i j, i < j → (chain i).1.2.weighed ∈ (chain j).1.1 := by
    intro i j lt
    induction lt with
    | refl =>
      show _ ∈ (next (chain i)).1.1
      rw [below]
      exact List.mem_cons_self
    | @step j _ ih =>
      show _ ∈ (next (chain j)).1.1
      rw [below]
      exact List.mem_cons_of_mem _ ih
  -- A search that is stuck has not met its type above.
  have apart : ∀ i j, i < j → (chain i).1.2 ≠ (chain j).1.2 := by
    intro i j lt same
    have there := before i j lt
    rw [same] at there
    exact (exists_stuck (chain j).2).1 there
  refine ⟨fun i => (chain i).1.2, rfl, fun i => needs (chain i), fun i j same => ?_⟩
  rcases Nat.lt_trichotomy i j with lt | eq | gt
  · exact absurd same (apart i j lt)
  · exact eq
  · exact absurd same.symm (apart j i gt)

/-- Where no endless chain of types leaves a type, the search for its codec comes to an end. -/
theorem exists_finished {ty : JavaType} (h : ¬ b.Endless ty) :
    ∃ depth, Finished (b.buildBelow depth [] ty) := by
  by_contra none
  exact h (endless_of_stuck (not_exists.mp none))

end Codebook

end ParcelCodec
