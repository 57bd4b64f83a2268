import ParcelCodec.Proofs.Codec.Ending

/-!
# What stands on a shelf makes no difference

Building on a shelf skips every search whose codec is finished.  The search that is skipped would
have found the same codec: it cannot have run into a type above, because every type above needs the
type at hand, and no finished codec is a part of itself.  So as long as building comes to an end,
it gives the same codec or the same obstacle on whatever shelf earlier builds have left behind,
those that failed included.

A depth is used up more slowly on a shelf that is full than on an empty one.  But a build that comes
to an end on one shelf comes to the same end on every other, if it may go deep enough there.

Main statements: `shares_buildBelow`, `buildBelow_agree`, `exists_build` and `buildAlone_eq`.
-/

namespace ParcelCodec

open Codebook (Makes Needs)

/-! ## §1. Finished codecs. -/

namespace Codebook

variable {b : Codebook}

/-- The searches for what a codebook makes of several types find it, where the search for each
does. -/
theorem mapM_eq_of_makes {f : JavaType → Except Obstacle Codec} {tys : List JavaType}
    {cs : List Codec} (each : List.Forall₂ (Makes b) tys cs)
    (found : ∀ c ∈ cs, ∀ ty, Makes b ty c → Finished (f ty) → f ty = .ok c)
    (ended : Finished (tys.mapM f)) : tys.mapM f = .ok cs := by
  induction each with
  | nil => rfl
  | @cons ty c rest cs made _ ih =>
    obtain ⟨first, found⟩ := List.forall_mem_cons.mp found
    have finds : f ty = .ok c := by
      refine first ty made ?_
      rcases hf : f ty with (u | ty') | c'
      · exact finished_unresolved u
      · exact absurd (mapM_cons_of_error hf rest) (ended ty')
      · exact finished_ok c'
    rw [mapM_cons_of_ok finds] at ended ⊢
    rw [ih found (finished_map.mp ended)]
    rfl

/-- No type above is the type of a part of a codec. -/
def Apart (above : List (Nat × JavaType)) (c : Codec) : Prop :=
  ∀ part, Codec.Part part c → part.type.weighed ∉ above

/-- A type whose codec is apart from the types above is none of them. -/
theorem Apart.new {above : List (Nat × JavaType)} {ty : JavaType} {c : Codec}
    (apart : Apart above c) (made : Makes b ty c) : ¬ above.contains ty.weighed = true := by
  intro again
  refine apart c (.refl c) ?_
  rw [made.type_eq]
  exact List.contains_iff_mem.mp again

/-- A smaller part is apart from the types above and from the type at hand. -/
theorem Apart.part {above : List (Nat × JavaType)} {ty part : JavaType} {c e : Codec}
    (apart : Apart above c) (made : Makes b ty c) (madePart : Makes b part e)
    (inside : Codec.Part e c) (less : sizeOf e < sizeOf c) : Apart (ty.weighed :: above) e := by
  intro part' inside' again
  rcases List.mem_cons.mp again with same | again
  · -- A part of the type at hand would be the whole codec again.
    have whole := madePart.part inside'
    rw [JavaType.weighed_inj.mp same] at whole
    have size := sizeOf_le_of_part inside'
    rw [whole.unique made] at size
    omega
  · exact apart part' (inside'.trans inside) again

/-- A search that comes to an end finds what the codebook makes, if that is apart from the types
above. -/
theorem buildBelow_of_makes {depth : Nat} {above : List (Nat × JavaType)} {ty : JavaType}
    {c : Codec} (made : Makes b ty c) (apart : Apart above c)
    (ended : Finished (b.buildBelow depth above ty)) : b.buildBelow depth above ty = .ok c := by
  induction depth generalizing above ty c with
  | zero => exact absurd rfl (ended ty)
  | succ depth ih =>
    obtain ⟨rule, cs, classified, each, rfl, smaller⟩ := made.assembled
    rw [buildBelow, if_neg (apart.new made), classified] at ended ⊢
    simp only at ended ⊢
    rw [compose_eq] at ended ⊢
    rw [mapM_eq_of_makes each _ (finished_map.mp ended)]
    · rfl
    · intro e he part madePart endedPart
      obtain ⟨inside, less⟩ := smaller e he
      exact ih madePart (apart.part made madePart inside less) endedPart

/-- The search for what the codebook makes comes to an end at some depth, if that is apart from the
types above. -/
theorem exists_finished_of_makes {above : List (Nat × JavaType)} {ty : JavaType} {c : Codec}
    (made : Makes b ty c) (apart : Apart above c) :
    ∃ depth, Finished (b.buildBelow depth above ty) := by
  -- By induction on the size of the codec: its parts are smaller.
  induction size : sizeOf c using Nat.strongRecOn generalizing above ty c with
  | ind n ih =>
    obtain ⟨rule, cs, classified, each, assembled, smaller⟩ := made.assembled
    obtain ⟨depth, ended⟩ := exists_common_depth fun part there => by
      obtain ⟨e, he, madePart⟩ := Alongside.exists_right each part there
      obtain ⟨inside, less⟩ := smaller e he
      exact ih (sizeOf e) (size ▸ less) madePart (apart.part made madePart inside less) rfl
    refine ⟨depth + 1, ?_⟩
    rw [buildBelow, if_neg (apart.new made), classified]
    simp only
    rw [compose_eq]
    exact finished_map.mpr (finished_mapM ended)

end Codebook

/-! ## §2. Shelves. -/

/-- In every state of a kind, a step gives one answer, and it leaves a state of that kind. -/
def Step.Gives {σ ε α : Type} (kind : σ → Prop) (step : Step σ ε α) (answer : Except ε α) : Prop :=
  ∀ s, kind s → ∃ s', step s = (answer, s') ∧ kind s'

namespace Shelf

variable {b : Codebook}

/-- A step gives one answer on all sound shelves, and leaves them sound. -/
abbrev Shares {ε : Type} (b : Codebook) (step : Step Shelf ε α) (answer : Except ε α) : Prop :=
  Step.Gives (Sound b) step answer

/-- Builds in a row give the answers that the searches give which they share. -/
theorem shares_mapM {build : JavaType → Step Shelf Obstacle Codec}
    {f : JavaType → Except Obstacle Codec} : ∀ {tys : List JavaType},
    (∀ ty ∈ tys, Finished (f ty) → Shares b (build ty) (f ty)) → Finished (tys.mapM f) →
      Shares b (tys.mapM build) (tys.mapM f)
  | [], _, _ => fun s hs => ⟨s, rfl, hs⟩
  | ty :: rest, each, ended => by
    obtain ⟨first, each⟩ := List.forall_mem_cons.mp each
    intro s hs
    rw [List.mapM_cons]
    rcases hf : f ty with (u | ty') | c
    · obtain ⟨s', built, sound⟩ := first (hf ▸ finished_unresolved u) s hs
      rw [hf] at built
      rw [Codebook.mapM_cons_of_error hf]
      exact ⟨s', Step.bind_error built, sound⟩
    · exact absurd (Codebook.mapM_cons_of_error hf rest) (ended ty')
    · obtain ⟨s', built, sound⟩ := first (hf ▸ finished_ok c) s hs
      rw [hf] at built
      rw [Codebook.mapM_cons_of_ok hf] at ended ⊢
      obtain ⟨s'', later, sound'⟩ := shares_mapM each (finished_map.mp ended) s' sound
      refine ⟨s'', ?_, sound'⟩
      rw [Step.bind_ok built]
      exact Step.map_eq (List.cons c) later

/-- A build whose answer is put together from another one gives what is put together from its
answer. -/
theorem Shares.map {f : α → β} {build : Step Shelf Obstacle α} {answer : Except Obstacle α}
    (h : Shares b build answer) : Shares b (f <$> build) (f <$> answer) := by
  intro s hs
  obtain ⟨s', built, sound⟩ := h s hs
  exact ⟨s', Step.map_eq f built, sound⟩

/-- A composition whose parts are built as they are searched for gives what the search gives. -/
theorem shares_compose {build : JavaType → Step Shelf Obstacle Codec}
    {f : JavaType → Except Obstacle Codec} {ty : JavaType} {rule : Rule}
    (each : ∀ part ∈ rule.parts, Finished (f part) → Shares b (build part) (f part))
    (ended : Finished (Codebook.compose f ty rule)) :
    Shares b (Codebook.compose build ty rule) (Codebook.compose f ty rule) := by
  rw [Codebook.compose_eq] at ended ⊢
  rw [Codebook.compose_eq]
  exact (shares_mapM each (finished_map.mp ended)).map

/-- No types stand above the first one. -/
theorem leads_nil {ty : JavaType} :
    ∀ t : JavaType, t.weighed ∈ [] → Relation.TransGen (Needs b) t ty :=
  fun _ none => absurd none List.not_mem_nil

/-- The types above a part, those above its owner and the owner itself, all need the part. -/
theorem needs_of_above {above : List (Nat × JavaType)} {ty part : JavaType}
    (leads : ∀ t : JavaType, t.weighed ∈ above → Relation.TransGen (Needs b) t ty)
    (needs : Needs b ty part) :
    ∀ t : JavaType, t.weighed ∈ ty.weighed :: above → Relation.TransGen (Needs b) t part := by
  intro t ht
  rcases List.mem_cons.mp ht with same | ht
  · rw [JavaType.weighed_inj.mp same]
    exact .single needs
  · exact (leads t ht).tail needs

/-- A finished codec is apart from types that need it: one of them would be a part of itself. -/
theorem apart_of_leads {above : List (Nat × JavaType)} {ty : JavaType} {c : Codec}
    (made : Makes b ty c)
    (leads : ∀ t : JavaType, t.weighed ∈ above → Relation.TransGen (Needs b) t ty) :
    Codebook.Apart above c := by
  intro part inside again
  have less := Makes.leads (leads part.type again) (made.part inside) made
  have size := Codebook.sizeOf_le_of_part inside
  omega

/-- The search for a type finds the codec that stands on a sound shelf: it runs into no type
above. -/
theorem buildBelow_of_get? {depth : Nat} {above : List (Nat × JavaType)} {ty : JavaType}
    {s : Shelf} {c : Codec} (hs : Sound b s) (finished : s.get? ty = some c)
    (leads : ∀ t : JavaType, t.weighed ∈ above → Relation.TransGen (Needs b) t ty)
    (ended : Finished (b.buildBelow depth above ty)) : b.buildBelow depth above ty = .ok c := by
  have made := hs ty c finished
  exact Codebook.buildBelow_of_makes made (apart_of_leads made leads) ended

/-- A search that comes to an end gives the same on every sound shelf, if every type above needs
the type at hand. -/
theorem shares_buildBelow {depth : Nat} {above : List (Nat × JavaType)} {ty : JavaType}
    (leads : ∀ t : JavaType, t.weighed ∈ above → Relation.TransGen (Needs b) t ty)
    (ended : Finished (b.buildBelow depth above ty)) :
    Shares b (buildBelow b depth above ty) (b.buildBelow depth above ty) := by
  induction depth generalizing above ty with
  | zero => exact absurd rfl (ended ty)
  | succ depth ih =>
    intro s hs
    unfold buildBelow
    rw [Step.get_bind]
    rcases finished : s.get? ty with _ | c
    · rw [Codebook.buildBelow] at ended ⊢
      by_cases again : above.contains ty.weighed = true
      · simp only [again, if_true]
        exact ⟨s, rfl, hs⟩
      · simp only [again] at ended ⊢
        rcases classified : b.classify ty with u | rule
        · exact ⟨s, rfl, hs⟩
        · simp only [classified] at ended ⊢
          -- Parts are built on whatever shelf the parts before them leave, so this is for all
          -- shelves.
          have each : ∀ part ∈ rule.parts,
              Finished (b.buildBelow depth (ty.weighed :: above) part) →
                Shares b (buildBelow b depth (ty.weighed :: above) part)
                  (b.buildBelow depth (ty.weighed :: above) part) :=
            fun part there => ih (needs_of_above leads ⟨rule, classified, there⟩)
          obtain ⟨s', composed, sound⟩ := shares_compose each ended s hs
          rcases answer : Codebook.compose (b.buildBelow depth (ty.weighed :: above)) ty rule
            with o | c
          · rw [answer] at composed
            exact ⟨s', Step.bind_error composed, sound⟩
          · rw [answer] at composed
            have made := (makes_compose (yields_buildBelow _ _) classified hs composed).1
            exact ⟨s'.put ty c, Step.bind_ok composed, sound_put sound made⟩
    · -- The search that is skipped would have found what stands on the shelf.
      rw [buildBelow_of_get? hs finished leads ended]
      exact ⟨s, rfl, hs⟩

/-! ## §3. Builds that come to an end. -/

/-- Builds in a row that come to an end give what the searches give, at some depth. -/
theorem exists_mapM {build : JavaType → Step Shelf Obstacle Codec}
    {f : Nat → JavaType → Except Obstacle Codec} (yields : Yields b build)
    (deeper : ∀ {ty depth depth'}, Finished (f depth ty) → depth ≤ depth' →
      f depth' ty = f depth ty) :
    ∀ {tys : List JavaType} {s s' : Shelf} {r : Except Obstacle (List Codec)}, Sound b s →
      (∀ ty ∈ tys, ∀ {s s' : Shelf} {r}, Sound b s → build ty s = (r, s') → Finished r →
        ∃ depth, f depth ty = r) →
      tys.mapM build s = (r, s') → Finished r → ∃ depth, tys.mapM (f depth) = r
  | [], s, s', r, _, _, run, _ => by
    cases run
    exact ⟨0, rfl⟩
  | ty :: rest, s, s', r, hs, each, run, ended => by
    obtain ⟨first, each⟩ := List.forall_mem_cons.mp each
    rw [List.mapM_cons] at run
    rcases built : build ty s with ⟨o | c, between⟩
    · rw [Step.bind_error built] at run
      cases run
      obtain ⟨depth, searched⟩ := first hs built fun ty' h => ended ty' (by cases h; rfl)
      exact ⟨depth, Codebook.mapM_cons_of_error searched rest⟩
    · rw [Step.bind_ok built] at run
      obtain ⟨depth, searched⟩ := first hs built (finished_ok c)
      rcases others : rest.mapM build between with ⟨answer, last⟩
      have whole : r = List.cons c <$> answer :=
        congrArg Prod.fst (run.symm.trans (Step.map_eq (List.cons c) others))
      rw [whole] at ended ⊢
      obtain ⟨depth', searched'⟩ :=
        exists_mapM (f := f) yields deeper (yields ty hs built).2 each others (finished_map.mp ended)
      have first : f (max depth depth') ty = .ok c := by
        rw [deeper (searched ▸ finished_ok c) (Nat.le_max_left _ _), searched]
      -- Both searches have ended at the greater of the two depths, and neither changes its answer
      -- there.
      refine ⟨max depth depth', ?_⟩
      rw [Codebook.mapM_cons_of_ok first, ← searched']
      refine congrArg _ (Codebook.mapM_eq_of_finished ?_ fun part _ ended => ?_)
      · exact searched' ▸ finished_map.mp ended
      · exact deeper ended (Nat.le_max_right _ _)

/-- A build on a sound shelf that comes to an end gives what the search for the type gives, at some
depth: what was taken from the shelf may have to be searched for further down. -/
theorem exists_search {depth : Nat} {above : List (Nat × JavaType)} {ty : JavaType} {s s' : Shelf}
    {r : Except Obstacle Codec}
    (leads : ∀ t : JavaType, t.weighed ∈ above → Relation.TransGen (Needs b) t ty)
    (hs : Sound b s) (run : buildBelow b depth above ty s = (r, s')) (ended : Finished r) :
    ∃ depth', b.buildBelow depth' above ty = r := by
  induction depth generalizing above ty s s' r with
  | zero =>
    cases run
    exact absurd rfl (ended ty)
  | succ depth ih =>
    unfold buildBelow at run
    rw [Step.get_bind] at run
    rcases finished : s.get? ty with _ | c
    · simp only [finished] at run
      by_cases again : above.contains ty.weighed = true
      · -- The type is in progress further up: both stop here.
        rw [if_pos again] at run
        cases run
        exact ⟨1, by rw [Codebook.buildBelow, if_pos again]⟩
      · rw [if_neg again] at run
        rcases classified : b.classify ty with u | rule
        · simp only [classified] at run
          cases run
          exact ⟨1, by rw [Codebook.buildBelow, if_neg again, classified]⟩
        · simp only [classified, Codebook.compose_eq] at run
          rcases parts : rule.parts.mapM (buildBelow b depth (ty.weighed :: above)) s
            with ⟨answer, between⟩
          have composed := Step.map_eq (Codebook.assemble ty rule) parts
          -- Putting the codec on the shelf changes nothing about the answer.
          have whole : r = Codebook.assemble ty rule <$> answer := by
            rcases answer with o | cs
            · rw [Step.bind_error composed] at run
              exact (congrArg Prod.fst run).symm
            · rw [Step.bind_ok composed] at run
              exact (congrArg Prod.fst run).symm
          rw [whole] at ended ⊢
          obtain ⟨depth', searched⟩ := exists_mapM
            (f := fun depth => b.buildBelow depth (ty.weighed :: above)) (yields_buildBelow depth _)
            Codebook.buildBelow_of_le hs
            (fun part there => ih (needs_of_above leads ⟨rule, classified, there⟩)) parts
            (finished_map.mp ended)
          refine ⟨depth' + 1, ?_⟩
          rw [Codebook.buildBelow, if_neg again, classified]
          simp only
          rw [Codebook.compose_eq, searched]
    · simp only [finished] at run
      cases run
      -- The shelf answers at once. Its codec was made of the type, so a search finds it too.
      have made := hs ty c finished
      obtain ⟨depth', ended'⟩ := Codebook.exists_finished_of_makes made (apart_of_leads made leads)
      exact ⟨depth', buildBelow_of_get? hs finished leads ended'⟩

/-- Two builds that come to an end, on any sound shelves and at any depths, have one answer. -/
theorem buildBelow_agree {depth depth' : Nat} {ty : JavaType} {s t : Shelf} (hs : Sound b s)
    (ht : Sound b t) (ended : Finished (buildBelow b depth [] ty s).1)
    (ended' : Finished (buildBelow b depth' [] ty t).1) :
    (buildBelow b depth' [] ty t).1 = (buildBelow b depth [] ty s).1 := by
  obtain ⟨n, first⟩ := exists_search leads_nil hs rfl ended
  obtain ⟨m, second⟩ := exists_search leads_nil ht rfl ended'
  calc (buildBelow b depth' [] ty t).1
      = b.buildBelow (max n m) [] ty := by
        rw [← second, Codebook.buildBelow_of_le (second ▸ ended') (Nat.le_max_right n m)]
    _ = (buildBelow b depth [] ty s).1 := by
        rw [← first, Codebook.buildBelow_of_le (first ▸ ended) (Nat.le_max_left n m)]

/-- A build that comes to an end on one sound shelf does so on every other, and with the same
answer. -/
theorem exists_build {depth : Nat} {ty : JavaType} {s t : Shelf} (hs : Sound b s) (ht : Sound b t)
    (ended : Finished (buildBelow b depth [] ty s).1) :
    ∃ depth', (buildBelow b depth' [] ty t).1 = (buildBelow b depth [] ty s).1 := by
  obtain ⟨n, searched⟩ := exists_search leads_nil hs rfl ended
  obtain ⟨t', built, -⟩ := shares_buildBelow leads_nil (searched ▸ ended) t ht
  exact ⟨n, (congrArg Prod.fst built).trans searched⟩

/-- The codec of a type does not depend on the shelf it is built on. -/
theorem shares_build {ty : JavaType} (ended : Finished (b.build ty)) :
    Shares b (build b ty) (b.build ty) :=
  shares_buildBelow leads_nil ended

/-- A codec that is built alone is the one that the search finds. -/
theorem buildAlone_eq {ty : JavaType} (ended : Finished (b.build ty)) :
    buildAlone b ty = b.build ty := by
  obtain ⟨s', built, -⟩ := shares_build ended empty sound_empty
  exact congrArg Prod.fst built

end Shelf

end ParcelCodec
