import ParcelCodec.Proofs.Format.Agreement

/-!
# Array lengths that are refused early

A companion refuses the length of an array that leaves less than four bytes for each element.
Each element takes four bytes at least, so whoever does not refuse it fails later on.

Main statements: `arraysAgree_guarded` and its converse `arraysAgree_unguarded`.
-/

namespace ParcelCodec.Format

open Wire (Cursor Onward Advances)

/-- The number of bytes that are left. -/
def readRemaining : Reading Nat := fun c => (.ok c.remaining, c)

/-- An integer as the length of an array, refused if too few bytes are left for it. -/
def guardCount (n : Int32) : Reading Nat := do
  let k ← toCount n
  let left ← readRemaining
  if left / 4 < k then Step.fail (.decode (.arrayTooLong k left)) else return k

/-- The length of an array, refused if too few bytes are left for it. -/
def guardedCount : Reading Nat := do guardCount (← readInt)

theorem advances_readRemaining : Advances 0 readRemaining :=
  fun c => ⟨Onward.refl c, fun _ _ => Nat.le_refl _⟩

/-- So does the length of an array. -/
theorem wide_guardedCount : Advances 4 guardedCount :=
  advances_readInt.andThen fun n => (advances_toCount n).andThen fun _ =>
    advances_readRemaining.andThen fun _ => .ite (.fail 0 _) (.pure _)

theorem advances_guardedCount : Advances 0 guardedCount :=
  wide_guardedCount.weaken (Nat.zero_le _)

/-- The elements of an array whose length is refused do not read. -/
theorem replicate_fails {α : Type} {element : Reading α} (wide : Advances 4 element) {n : Nat}
    {c : Cursor} (refused : c.remaining / 4 < n) :
    ∃ e, (Step.replicate n element c).1 = .error e := by
  obtain ⟨_, consumed⟩ := Advances.replicate wide n c
  rcases h : (Step.replicate n element c).1 with e | as
  · exact ⟨e, rfl⟩
  · have := consumed as h
    omega

/-- What a companion does with an array, once its length is read. -/
theorem readElements_guardedCount {α : Type} (element : Reading α) :
    readElements guardedCount element = readCount >>= fun n =>
      readRemaining >>= fun left =>
        if left / 4 < n then Step.fail (.decode (.arrayTooLong n left))
        else Step.replicate n element := by
  unfold readElements guardedCount guardCount readCount
  simp only [bind_assoc]
  congr 1
  funext n
  congr 1
  funext k
  congr 1
  funext left
  split <;> rfl

variable {t : Tolerance} {c₀ : Cursor}

/-- Arrays agree where one side refuses a length and the other fails in whatever way. -/
theorem arraysAgree_guarded
    (stops : ∀ n left e, t.Stops (.decode (.arrayTooLong n left)) (some e)) :
    ArraysAgree t c₀ guardedCount readCount := by
  intro element element' h wide wide'
  rw [readElements_guardedCount]
  refine (Agree.refl readCount).bind advances_readCount fun n => ?_
  intro c hc
  by_cases refused : c.remaining / 4 < n
  · obtain ⟨e, he⟩ := replicate_fails wide' refused
    have stopped : (readRemaining >>= fun left =>
        if left / 4 < n then Step.fail (.decode (.arrayTooLong n left))
        else Step.replicate n element) c = (.error (.decode (.arrayTooLong n c.remaining)), c) := by
      rw [Step.bind_ok (show readRemaining c = (.ok c.remaining, c) from rfl), if_pos refused]
      rfl
    refine .inr ⟨_, by rw [stopped], ?_⟩
    rw [he]
    exact stops n c.remaining e
  · rw [Step.bind_ok (show readRemaining c = (.ok c.remaining, c) from rfl), if_neg refused]
    exact h.replicate (wide.weaken (Nat.zero_le _)) n c hc

/-- Arrays agree where one side fails in whatever way and the other refuses a length. -/
theorem arraysAgree_unguarded
    (stops : ∀ e n left, t.Stops e (some (.decode (.arrayTooLong n left)))) :
    ArraysAgree t c₀ readCount guardedCount := by
  intro element element' h wide wide'
  rw [readElements_guardedCount]
  refine (Agree.refl readCount).bind advances_readCount fun n => ?_
  intro c hc
  by_cases refused : c.remaining / 4 < n
  · obtain ⟨e, he⟩ := replicate_fails wide refused
    refine .inr ⟨e, he, ?_⟩
    rw [Step.bind_ok (show readRemaining c = (.ok c.remaining, c) from rfl), if_pos refused]
    exact stops e n c.remaining
  · rw [Step.bind_ok (show readRemaining c = (.ok c.remaining, c) from rfl), if_neg refused]
    exact h.replicate (wide.weaken (Nat.zero_le _)) n c hc

end ParcelCodec.Format
