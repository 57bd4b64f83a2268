import ParcelCodec.Wire.Payload

/-!
# Writes that succeed

A write succeeds with some bytes exactly if its parts do, one after another.  A tagged value hands
the instances in it to a hook; a hook that writes whatever another one writes makes a tagged value
the same bytes.

Main statement: `tagged_of_covers`.
-/

namespace ParcelCodec.Wire

variable {ε ε' : Type}

namespace Emission

/-- Two writes, one after the other, succeed if both do. -/
theorem andThen_eq_wrote {x y : Emission ε} {bytes : List UInt8} :
    x.andThen y = .wrote bytes
      ↔ ∃ head tail, x = .wrote head ∧ y = .wrote tail ∧ bytes = head ++ tail := by
  constructor
  · intro h
    obtain ⟨head, _ | e⟩ := x
    · obtain ⟨tail, _ | e⟩ := y
      · exact ⟨head, tail, rfl, rfl, (congrArg Emission.bytes h).symm⟩
      · cases congrArg Emission.failure h
    · cases congrArg Emission.failure h
  · rintro ⟨head, tail, rfl, rfl, rfl⟩
    rfl

/-- A write behind bytes that are already there succeeds if it does alone. -/
theorem wrote_andThen_eq_wrote {head bytes : List UInt8} {x : Emission ε} :
    (wrote head).andThen x = .wrote bytes ↔ ∃ tail, x = .wrote tail ∧ bytes = head ++ tail := by
  constructor
  · intro h
    obtain ⟨front, tail, start, rest, rfl⟩ := andThen_eq_wrote.mp h
    obtain rfl : head = front := congrArg Emission.bytes start
    exact ⟨tail, rest, rfl⟩
  · rintro ⟨tail, rest, rfl⟩
    exact andThen_eq_wrote.mpr ⟨head, tail, rfl, rest, rfl⟩

theorem failed_ne_wrote (e : ε) (bytes : List UInt8) : failed e ≠ wrote bytes := by
  intro h
  cases congrArg Emission.failure h

/-- Restating the failure of a write says nothing about one that succeeds. -/
theorem mapError_eq_wrote {f : ε → ε'} {x : Emission ε} {bytes : List UInt8} :
    x.mapError f = .wrote bytes ↔ x = .wrote bytes := by
  obtain ⟨head, _ | e⟩ := x
  · constructor
    · intro h
      cases congrArg Emission.bytes h
      rfl
    · intro h
      cases congrArg Emission.bytes h
      rfl
  · constructor
    · intro h
      cases congrArg Emission.failure h
    · intro h
      cases congrArg Emission.failure h

theorem toExcept_eq_ok {x : Emission ε} {bytes : List UInt8} :
    x.toExcept = .ok bytes ↔ x = .wrote bytes := by
  obtain ⟨head, _ | e⟩ := x
  · constructor
    · intro h
      cases h
      rfl
    · intro h
      cases congrArg Emission.bytes h
      rfl
  · constructor
    · intro h
      cases h
    · intro h
      cases congrArg Emission.failure h

/-- The bytes of a write that succeeds. -/
def written? (x : Emission ε) : Option (List UInt8) := x.toExcept.toOption

theorem written?_eq_some {x : Emission ε} {bytes : List UInt8} :
    x.written? = some bytes ↔ x = .wrote bytes := by
  rw [← toExcept_eq_ok]
  unfold written?
  rcases x.toExcept with e | content <;> simp [Except.toOption]

end Emission

/-! ## Tagged values. -/

/-- A hook writes whatever another one writes. -/
def Covers (hook : Value → Emission ε) (hook' : Value → Emission ε') : Prop :=
  ∀ v bytes, hook v = .wrote bytes → hook' v = .wrote bytes

namespace Slot

open Emission (andThen_eq_wrote failed_ne_wrote)

variable {bad : ε} {bad' : ε'} {hook : Value → Emission ε} {hook' : Value → Emission ε'}

mutual

/-- A tagged value has the same bytes through any hook that writes its instances alike. -/
theorem tagged_of_covers (covers : Covers hook hook') : ∀ (v : Value) {bytes : List UInt8},
    tagged bad hook v = .wrote bytes → tagged bad' hook' v = .wrote bytes
  | .list items, bytes, h => by
    -- Hooks are asked for instances only; everything else is written without them.
    rw [tagged] at h ⊢
    obtain ⟨head, tail, start, rest, rfl⟩ := andThen_eq_wrote.mp h
    cases congrArg Emission.bytes start
    exact andThen_eq_wrote.mpr ⟨_, tail, rfl, taggedItems_of_covers covers items rest, rfl⟩
  | .map entries, bytes, h => by
    rw [tagged] at h ⊢
    obtain ⟨head, tail, start, rest, rfl⟩ := andThen_eq_wrote.mp h
    cases congrArg Emission.bytes start
    exact andThen_eq_wrote.mpr ⟨_, tail, rfl, taggedEntries_of_covers covers entries rest, rfl⟩
  | .object className fields, bytes, h => by
    rw [tagged] at h ⊢
    obtain ⟨head, tail, start, rest, rfl⟩ := andThen_eq_wrote.mp h
    cases congrArg Emission.bytes start
    exact andThen_eq_wrote.mpr ⟨_, tail, rfl, covers _ tail rest, rfl⟩
  | .singleton className, bytes, h => by
    rw [tagged] at h ⊢
    obtain ⟨head, tail, start, rest, rfl⟩ := andThen_eq_wrote.mp h
    cases congrArg Emission.bytes start
    exact andThen_eq_wrote.mpr ⟨_, tail, rfl, covers _ tail rest, rfl⟩
  | .array items, bytes, h => by
    rw [tagged] at h ⊢
    rcases hc : bytesOfItems? items with _ | content
    · rw [hc] at h
      exact absurd h (failed_ne_wrote bad bytes)
    · rw [hc] at h
      cases congrArg Emission.bytes h
      rfl
  | .null, _, h | .string _, _, h | .int _, _, h | .short _, _, h | .long _, _, h
  | .float _, _, h | .double _, _, h | .bool _, _, h | .byte _, _, h => by
    rw [tagged] at h ⊢
    cases congrArg Emission.bytes h
    rfl
  | .char _, bytes, h | .enumConstant _, bytes, h | .bigInteger _, bytes, h
  | .bigDecimal _ _, bytes, h | .size _ _, bytes, h | .sizeF _ _, bytes, h | .blob _, bytes, h
  | .set _, bytes, h | .sparseArray _, bytes, h | .sparseBooleanArray _, bytes, h => by
    simp only [tagged] at h
    exact absurd h (failed_ne_wrote bad bytes)

theorem taggedItems_of_covers (covers : Covers hook hook') :
    ∀ (items : List Value) {bytes : List UInt8},
    taggedItems bad hook items = .wrote bytes → taggedItems bad' hook' items = .wrote bytes
  | [], _, h => by
    rw [taggedItems] at h ⊢
    cases congrArg Emission.bytes h
    rfl
  | v :: rest, _, h => by
    rw [taggedItems] at h ⊢
    obtain ⟨head, tail, first, others, rfl⟩ := andThen_eq_wrote.mp h
    exact andThen_eq_wrote.mpr
      ⟨head, tail, tagged_of_covers covers v first, taggedItems_of_covers covers rest others, rfl⟩

theorem taggedEntries_of_covers (covers : Covers hook hook') :
    ∀ (entries : List (Value × Value)) {bytes : List UInt8},
    taggedEntries bad hook entries = .wrote bytes → taggedEntries bad' hook' entries = .wrote bytes
  | [], _, h => by
    rw [taggedEntries] at h ⊢
    cases congrArg Emission.bytes h
    rfl
  | (k, v) :: rest, _, h => by
    rw [taggedEntries] at h ⊢
    obtain ⟨head, tail, first, others, rfl⟩ := andThen_eq_wrote.mp h
    obtain ⟨front, back, key, value, rfl⟩ := andThen_eq_wrote.mp first
    have entry := andThen_eq_wrote.mpr
      ⟨front, back, tagged_of_covers covers k key, tagged_of_covers covers v value, rfl⟩
    exact andThen_eq_wrote.mpr
      ⟨_, tail, entry, taggedEntries_of_covers covers rest others, rfl⟩

end

end Slot

end ParcelCodec.Wire
