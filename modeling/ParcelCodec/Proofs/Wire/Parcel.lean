import Mathlib.Algebra.Group.Nat.Defs
import ParcelCodec.Proofs.Wire.Answers
import ParcelCodec.Proofs.Wire.Progress
import ParcelCodec.Wire.Parcel

/-!
# What a machine makes of a parcel

Words of limited width do no harm as long as no sum wraps around: a call on a parcel does what the
read of the same name does at a cursor, and it accesses nothing out of range.  The lengths that are
read from a parcel are too small to matter.  Only where a caller asks for more bytes than a word can
count behind the position does the sum wrap around, and then the range that is accessed ends in
front of its start.

Main statements: `Parcel.mirrors_scalar`, `mirrors_string`, `mirrors_byteArray`,
`bytes_of_overrun`, `writtenString_eq` and `writtenBytes_eq`.
-/

namespace ParcelCodec.Wire

variable {w : Nat} {α β σ : Type}

/-! ## §1. Words. -/

/-- Clearing the two low bits takes a number down to a multiple of four. -/
theorem toNat_cleared (n : BitVec w) : (n &&& ~~~3#w).toNat = n.toNat / 4 * 4 := by
  refine Nat.eq_of_testBit_eq fun i => ?_
  have low : Nat.testBit 3 i = decide (i < 2) := Nat.testBit_two_pow_sub_one 2 i
  rw [show 4 = 2 ^ 2 from rfl, Nat.testBit_mul_two_pow, Nat.testBit_div_two_pow,
    BitVec.testBit_toNat, BitVec.testBit_toNat, BitVec.getLsbD_and, BitVec.getLsbD_not,
    BitVec.getLsbD_ofNat, low]
  -- Both sides lack the low bits, and the bits that a word has no place for.
  by_cases inside : i < w
  · by_cases high : 2 ≤ i
    · simp [inside, high, Nat.not_lt.mpr high, Nat.sub_add_cancel high]
    · simp [inside, high, Nat.lt_of_not_le high]
  · rcases i with _ | _ | i
    · simp
    · simp
    · simp [BitVec.getLsbD_of_ge n _ (Nat.not_lt.mp inside)]

/-- As long as no sum wraps around, clearing bits gives the width of the slot. -/
theorem toNat_padded {n : BitVec w} (room : n.toNat + 3 < 2 ^ w) :
    (padded n).toNat = slotWidth n.toNat := by
  have three : (3#w).toNat = 3 := by
    rw [BitVec.toNat_ofNat, Nat.mod_eq_of_lt (by omega)]
  unfold padded slotWidth
  rw [toNat_cleared, BitVec.toNat_add, three, Nat.mod_eq_of_lt room]

/-- What fills a slot is the rest of its width. -/
theorem toNat_fill {n : BitVec w} (room : n.toNat + 3 < 2 ^ w) :
    (fill n).toNat = slotWidth n.toNat - n.toNat := by
  have wide := le_slotWidth n.toNat
  have padded := toNat_padded room
  unfold fill
  rw [BitVec.toNat_sub_of_le (by rw [BitVec.le_def, padded]; exact wide), padded]

/-- A content and what fills its slot make up slots, also where sums wrap around. -/
theorem four_dvd_add_fill (wide : 2 ≤ w) {n : BitVec w} {length : Nat}
    (same : length % 4 = n.toNat % 4) : 4 ∣ length + (fill n).toNat := by
  have whole : 4 ∣ 2 ^ w := Nat.pow_dvd_pow 2 wide
  have small := n.isLt
  -- Four divides what a wrapped sum lacks, so a remainder by four does not see it.
  have wrapped := Nat.mod_mod_of_dvd (2 ^ w - n.toNat + (n + 3#w).toNat / 4 * 4) whole
  unfold fill padded
  rw [BitVec.toNat_sub, toNat_cleared]
  omega

/-- The width of a text of `n` units with the unit behind it, as a word. -/
theorem unitsWidth_eq (n : Nat) :
    (BitVec.ofNat w n + 1#w) * 2#w = BitVec.ofNat w ((n + 1) * 2) := by
  rw [BitVec.ofNat_mul, BitVec.ofNat_add]

theorem toNat_ofNat_of_lt {n : Nat} (h : n < 2 ^ w) : (BitVec.ofNat w n).toNat = n := by
  rw [BitVec.toNat_ofNat, Nat.mod_eq_of_lt h]

/-! ## §2. Parcels and cursors. -/

namespace Parcel

/-- The cursor at the position of a parcel. -/
def cursor (p : Parcel w) : Cursor := ⟨p.index.toNat, p.data.drop p.index.toNat⟩

/-- A parcel at the position of a cursor. -/
def moved (p : Parcel w) (c : Cursor) : Parcel w := { p with index := BitVec.ofNat w c.index }

/-- The position lies within the bytes.  Their number is at most half of what a word can count, as
it is for whatever is held in memory. -/
structure InRange (p : Parcel w) : Prop where
  within : p.index.toNat ≤ p.data.length
  fits : p.data.length < 2 ^ (w - 1)

variable {p : Parcel w} {c : Cursor}

theorem remaining_cursor (p : Parcel w) :
    p.cursor.remaining = p.data.length - p.index.toNat := List.length_drop

@[simp] theorem moved_cursor (p : Parcel w) : p.moved p.cursor = p := by
  simp [moved, cursor]

@[simp] theorem moved_moved (p : Parcel w) (c c' : Cursor) :
    (p.moved c).moved c' = p.moved c' := rfl

theorem pow_pred_le : 2 ^ (w - 1) ≤ 2 ^ w := Nat.pow_le_pow_right (by decide) (Nat.sub_le w 1)

/-- The words are twice as many as those without the highest bit. -/
theorem two_pow_eq (wide : 0 < w) : 2 ^ w = 2 ^ (w - 1) + 2 ^ (w - 1) := by
  rw [← Nat.two_mul, ← Nat.pow_succ', Nat.succ_eq_add_one, Nat.sub_add_cancel wide]

/-- A word can hold the number of bytes. -/
theorem InRange.toNat_size (h : p.InRange) : p.size.toNat = p.data.length :=
  toNat_ofNat_of_lt (Nat.lt_of_lt_of_le h.fits pow_pred_le)

/-- What is left of a parcel in range is what is left at its cursor. -/
theorem InRange.toNat_remaining (h : p.InRange) : p.remaining.toNat = p.cursor.remaining := by
  have size := h.toNat_size
  unfold remaining
  rw [BitVec.toNat_sub_of_le (by rw [BitVec.le_def, size]; exact h.within), size, remaining_cursor]

/-- Moving forward keeps a parcel in range. -/
theorem InRange.moved (h : p.InRange) (onward : Onward p.cursor c) :
    (p.moved c).InRange ∧ (p.moved c).cursor = c := by
  obtain ⟨k, hk, rfl⟩ := onward
  rw [remaining_cursor] at hk
  have within := h.within
  have fits := h.fits
  have index : (p.moved ⟨p.cursor.index + k, p.cursor.rest.drop k⟩).index.toNat
      = p.index.toNat + k :=
    toNat_ofNat_of_lt (Nat.lt_of_lt_of_le (show p.index.toNat + k < _ by omega) pow_pred_le)
  refine ⟨⟨?_, fits⟩, ?_⟩
  · rw [index]
    show p.index.toNat + k ≤ p.data.length
    omega
  · unfold cursor at index ⊢
    rw [index, List.drop_drop]
    rfl

end Parcel

/-! ## §3. Calls that do what a read does. -/

/-- The outcome of a read, as a call reports it. -/
def reported : Except Malformed α → Except Halt α := Except.mapError fun _ => .malformed

/-- A read reports its failures. -/
theorem reported_ne_outOfRange (o : Except Malformed α) : reported o ≠ .error .outOfRange := by
  cases o <;> exact nofun

theorem eq_ok_of_reported {o : Except Malformed α} {a : α} (h : reported o = .ok a) :
    o = .ok a := by
  cases o with
  | error e => cases h
  | ok b =>
    cases h
    rfl

/-- A call does what a read does at the same place if there is room; otherwise it ends the program
somewhere ahead. -/
inductive Faithful (x : Call w α) (r : Read α) (roomy : Prop) (p : Parcel w) : Prop
  | mirrors (room : roomy) (onward : Onward p.cursor (r p.cursor).2)
      (same : x p = (reported (r p.cursor).1, p.moved (r p.cursor).2))
  | overruns (short : ¬ roomy) (c : Cursor) (onward : Onward p.cursor c)
      (ends : x p = (.error .outOfRange, p.moved c))

/-- A call does what a read does, in any case. -/
abbrev Mirrors (x : Call w α) (r : Read α) (p : Parcel w) : Prop := Faithful x r True p

namespace Faithful

variable {p : Parcel w}

theorem of_iff {x : Call w α} {r : Read α} {roomy roomy' : Prop} (iff : roomy ↔ roomy')
    (h : Faithful x r roomy p) : Faithful x r roomy' p := propext iff ▸ h

/-- What a call does that has room. -/
theorem same_of_room {x : Call w α} {r : Read α} {roomy : Prop} (h : Faithful x r roomy p)
    (room : roomy) : x p = (reported (r p.cursor).1, p.moved (r p.cursor).2) := by
  cases h with
  | mirrors _ _ same => exact same
  | overruns short => exact absurd room short

/-- Without room, the program ends. -/
theorem ends_of_short {x : Call w α} {r : Read α} {roomy : Prop} (h : Faithful x r roomy p)
    (short : ¬ roomy) : (x p).1 = .error .outOfRange := by
  cases h with
  | mirrors room => exact absurd room short
  | overruns _ _ _ ends => exact congrArg Prod.fst ends

/-- With room, what stands at the cursor behind the read stands in the parcel as well. -/
theorem moved_of_room {x : Call w α} {r : Read α} {roomy : Prop} (h : Faithful x r roomy p)
    (inRange : p.InRange) (room : roomy) {o : Except Malformed α} {c : Cursor}
    (run : r p.cursor = (o, c)) : (p.moved c).InRange ∧ (p.moved c).cursor = c := by
  cases h with
  | mirrors _ onward _ =>
    rw [run] at onward
    exact inRange.moved onward
  | overruns short => exact absurd room short

/-- An answer is the one that is read at the cursor. -/
theorem read_of_ok {x : Call w α} {r : Read α} {roomy : Prop} (h : Faithful x r roomy p)
    (inRange : p.InRange) {a : α} {p' : Parcel w} (run : x p = (.ok a, p')) :
    r p.cursor = (.ok a, p'.cursor) := by
  cases h with
  | overruns _ _ _ ends =>
    rw [ends] at run
    cases run
  | mirrors _ onward same =>
    obtain ⟨answer, place⟩ := Prod.mk.inj (same.symm.trans run)
    refine Prod.ext (eq_ok_of_reported answer) ?_
    rw [← place, (inRange.moved onward).2]

/-- An answer without a read mirrors itself. -/
theorem pure (a : α) : Mirrors (Pure.pure a : Call w α) (Pure.pure a) p := by
  refine .mirrors trivial (Onward.refl _) ?_
  show (Except.ok a, p) = (Except.ok a, p.moved p.cursor)
  rw [Parcel.moved_cursor]

/-- So does a failure. -/
theorem fail : Mirrors (Step.fail .malformed : Call w α) (Step.fail .malformed) p := by
  refine .mirrors trivial (Onward.refl _) ?_
  show (Except.error Halt.malformed, p) = (Except.error Halt.malformed, p.moved p.cursor)
  rw [Parcel.moved_cursor]

/-- One call after another has room if the first has, and so has what follows upon its answer from
where it stopped. -/
theorem bind {x : Call w α} {r : Read α} {f : α → Call w β} {g : α → Read β} {roomy : Prop}
    (roomy' : α → Cursor → Prop) (inRange : p.InRange) (hx : Faithful x r roomy p)
    (hf : ∀ a (p' : Parcel w), p'.InRange → r p.cursor = (.ok a, p'.cursor) →
      Faithful (f a) (g a) (roomy' a p'.cursor) p') :
    Faithful (x >>= f) (r >>= g)
      (roomy ∧ ∀ a c, r p.cursor = (.ok a, c) → roomy' a c) p := by
  cases hx with
  | overruns short c onward ends =>
    exact .overruns (fun room => short room.1) c onward (Step.bind_error ends)
  | mirrors room onward same =>
    rcases run : r p.cursor with ⟨e | a, c⟩
    · rw [run] at onward same
      refine .mirrors ⟨room, nofun⟩ ?_ ?_
      · rw [Step.bind_error run]
        exact onward
      · rw [Step.bind_error run]
        exact Step.bind_error same
    · rw [run] at onward same
      obtain ⟨inRange', place⟩ := inRange.moved onward
      have next : (x >>= f) p = f a (p.moved c) := Step.bind_ok same
      have next' : (r >>= g) p.cursor = g a c := Step.bind_ok run
      -- The second call is made at the position that the first one came to.
      have second := hf a (p.moved c) inRange' (run.trans (by rw [place]))
      rw [place] at second
      cases second with
      | overruns short c' onward' ends =>
        rw [place] at onward'
        refine .overruns (fun both => short (both.2 a c rfl)) c' (onward.trans onward') ?_
        rw [next, ends, Parcel.moved_moved]
      | mirrors room' onward' same' =>
        rw [place] at onward' same'
        refine .mirrors ⟨room, fun b d h => ?_⟩ ?_ ?_
        · cases h
          exact room'
        · rw [next']
          exact onward.trans onward'
        · rw [next, next', same', Parcel.moved_moved]

end Faithful

namespace Mirrors

variable {p : Parcel w}

/-- One call after another, where the second one is told what the first one answered. -/
theorem bind {x : Call w α} {r : Read α} {f : α → Call w β} {g : α → Read β}
    (inRange : p.InRange) (hx : Mirrors x r p)
    (hf : ∀ a (p' : Parcel w), p'.InRange → r p.cursor = (.ok a, p'.cursor) →
      Mirrors (f a) (g a) p') : Mirrors (x >>= f) (r >>= g) p :=
  (Faithful.bind (fun _ _ => True) inRange hx hf).of_iff (by simp)

theorem map {x : Call w α} {r : Read α} (f : α → β) (inRange : p.InRange) (hx : Mirrors x r p) :
    Mirrors (do return f (← x)) (do return f (← r)) p :=
  bind inRange hx fun a _ _ _ => Faithful.pure (f a)

/-- A choice mirrors a choice if both calls do. -/
theorem ite {q : Prop} [Decidable q] {x y : Call w α} {r s : Read α} (hx : q → Mirrors x r p)
    (hy : ¬ q → Mirrors y s p) : Mirrors (if q then x else y) (if q then r else s) p := by
  by_cases h : q
  · rw [if_pos h, if_pos h]
    exact hx h
  · rw [if_neg h, if_neg h]
    exact hy h

end Mirrors

/-! ## §4. Bytes. -/

namespace Parcel

variable {p : Parcel w}

/-- Bytes whose range ends at a position that a word can hold. -/
theorem mirrors_bytes (inRange : p.InRange) {n : BitVec w}
    (room : p.index.toNat + n.toNat < 2 ^ w) : Mirrors (bytes n) (Read.bytes n.toNat) p := by
  have stop : (p.index + n).toNat = p.index.toNat + n.toNat := by
    rw [BitVec.toNat_add, Nat.mod_eq_of_lt room]
  have size := inRange.toNat_size
  have within := inRange.within
  refine .mirrors trivial (Read.advances_bytes n.toNat p.cursor).1 ?_
  by_cases enough : p.index.toNat + n.toNat ≤ p.data.length
  · -- The range lies inside the data: both take the same slice and move behind it.
    have inside : ¬ p.size < p.index + n := by
      rw [BitVec.lt_def, stop, size]
      omega
    have range : slice? p.data p.index.toNat (p.index + n).toNat
        = some (p.cursor.rest.take n.toNat) := by
      unfold slice?
      rw [stop, if_pos ⟨Nat.le_add_right _ _, enough⟩, Nat.add_sub_cancel_left]
      rfl
    have taken : Read.bytes n.toNat p.cursor
        = (.ok (p.cursor.rest.take n.toNat),
          ⟨p.cursor.index + n.toNat, p.cursor.rest.drop n.toNat⟩) :=
      if_pos (List.length_take_of_le (by unfold cursor; rw [List.length_drop]; omega))
    have index : BitVec.ofNat w (p.cursor.index + n.toNat) = p.index + n :=
      BitVec.eq_of_toNat_eq ((toNat_ofNat_of_lt room).trans stop.symm)
    unfold bytes
    rw [taken, Step.get_bind, if_neg inside, range]
    show (Except.ok _, { p with index := p.index + n }) = _
    unfold moved
    rw [index]
    rfl
  · -- It does not, and without an overflow the guard notices.
    have beyond : p.size < p.index + n := by
      rw [BitVec.lt_def, stop, size]
      omega
    have short : p.cursor.remaining < n.toNat := by
      rw [remaining_cursor]
      omega
    unfold bytes
    rw [Read.bytes_of_remaining_lt short, Step.get_bind, if_pos beyond, moved_cursor]
    rfl

/-- Where the end of a range is more than a word can hold, the sum wraps around, and the range ends
in front of its start. -/
theorem bytes_of_overrun (inRange : p.InRange) {n : BitVec w}
    (overrun : 2 ^ w ≤ p.index.toNat + n.toNat) : bytes n p = (.error .outOfRange, p) := by
  have small := n.isLt
  have small' := p.index.isLt
  have stop : (p.index + n).toNat = p.index.toNat + n.toNat - 2 ^ w := by
    rw [BitVec.toNat_add, Nat.mod_eq_sub_mod overrun, Nat.mod_eq_of_lt (by omega)]
  -- The wrapped end stands in front of the position, which is within the bytes: nothing stops it.
  have inside : ¬ p.size < p.index + n := by
    have within := inRange.within
    rw [BitVec.lt_def, stop, inRange.toNat_size]
    omega
  have range : slice? p.data p.index.toNat (p.index + n).toNat = none :=
    if_neg (by rw [stop]; omega)
  unfold bytes
  rw [Step.get_bind, if_neg inside, range]
  rfl

/-- The bytes that a caller asks for, in any number. -/
theorem faithful_bytes (inRange : p.InRange) (n : BitVec w) :
    Faithful (bytes n) (Read.bytes n.toNat) (p.cursor.index + n.toNat < 2 ^ w) p := by
  by_cases room : p.index.toNat + n.toNat < 2 ^ w
  · exact (mirrors_bytes inRange room).of_iff ⟨fun _ => room, fun _ => trivial⟩
  · refine .overruns room p.cursor (Onward.refl _) ?_
    rw [bytes_of_overrun inRange (Nat.not_lt.mp room), moved_cursor]

end Parcel

/-! ## §5. Slots. -/

namespace Scalar

/-- The read of the same content at a cursor. -/
def read : Scalar α → Read α
  | .int => Read.int
  | .long => Read.long
  | .float => Read.word
  | .double => Read.doubleWord
  | .bool => Read.bool
  | .byte => Read.byte
  | .short => Read.short
  | .char => Read.char

/-- A content of fixed width is what its bytes stand for. -/
theorem read_eq (s : Scalar α) :
    s.read = Read.bytes s.width >>= fun bs =>
      match s.content? bs with
      | some a => pure a
      | none => Step.fail .malformed := by
  cases s with
  | int | long | float | double | byte | short | char =>
    simp only [read, Read.int, Read.long, Read.byte, Read.short, Read.char, Read.word,
      Read.doubleWord, bind_assoc, pure_bind]
    rfl
  | bool =>
    simp only [read, Read.bool, Read.int, Read.word, bind_assoc, pure_bind]
    refine bind_congr fun bs => ?_
    simp only [content?]
    split
    · rfl
    · split <;> rfl

end Scalar

/-- The units that bytes make up. -/
theorem length_units : ∀ bs : List UInt8, (Read.units bs).length = bs.length / 2
  | [] => rfl
  | [_] => by simp [Read.units]
  | _ :: _ :: rest => by
    rw [Read.units, List.length_cons, length_units rest, List.length_cons, List.length_cons]
    omega

namespace Parcel

section Slots

variable {p : Parcel w} (wide : 64 ≤ w) (inRange : p.InRange)
include wide

/-- What lies in memory, and a length from a parcel behind it, is no more than a word can hold. -/
theorem InRange.room {n : Nat} (h : p.InRange) (small : n < 2 ^ 63) :
    p.index.toNat + n < 2 ^ w := by
  have half : 2 ^ w = 2 ^ (w - 1) + 2 ^ (w - 1) := two_pow_eq (by omega)
  have large : 2 ^ 63 ≤ 2 ^ (w - 1) := Nat.pow_le_pow_right (by decide) (by omega)
  have within := h.within
  have fits := h.fits
  omega

include inRange

/-- Bytes in a number that comes from a parcel. -/
theorem mirrors_bytes_ofNat {n : Nat} (small : n < 2 ^ 63) :
    Mirrors (bytes (BitVec.ofNat w n)) (Read.bytes n) p := by
  have room := inRange.room wide small
  have value : (BitVec.ofNat w n).toNat = n := toNat_ofNat_of_lt (by omega)
  have mirrors := mirrors_bytes (n := BitVec.ofNat w n) inRange (by rw [value]; exact room)
  rwa [value] at mirrors

/-- A copy fills its place. -/
theorem mirrors_fixed {n : Nat} (small : n < 2 ^ 63) : Mirrors (fixed n) (Read.bytes n) p := by
  rw [← Step.bind_pure_eq (Read.bytes n)]
  refine Mirrors.bind inRange (mirrors_bytes_ofNat wide inRange small) fun content _ _ run => ?_
  have full := (Read.answers_bytes n p.cursor).ok run
  rw [if_pos full]
  exact Faithful.pure content

/-- Contents of fixed width. -/
theorem mirrors_scalar (s : Scalar α) : Mirrors (scalar s) s.read p := by
  have small : s.width < 2 ^ 63 := by cases s <;> decide
  rw [s.read_eq]
  refine Mirrors.bind inRange (mirrors_fixed wide inRange small) fun content _ _ _ => ?_
  cases s.content? content with
  | none => exact Faithful.fail
  | some a => exact Faithful.pure a

/-- A length, with the same ones refused. -/
theorem mirrors_length : Mirrors length Read.length p :=
  Mirrors.bind inRange (mirrors_scalar wide inRange .int) fun _ _ _ _ =>
    Mirrors.ite (fun _ => Faithful.pure _) fun _ =>
      Mirrors.ite (fun _ => Faithful.fail) fun _ => Faithful.pure _

/-- What fills the slot behind a content whose width comes from a parcel. -/
theorem mirrors_padding {n : Nat} (small : n < 2 ^ 62) :
    Mirrors (padding (BitVec.ofNat w n)) (Read.padding n) p := by
  have large : 2 ^ 64 ≤ 2 ^ w := Nat.pow_le_pow_right (by decide) wide
  have value : (BitVec.ofNat w n).toNat = n := toNat_ofNat_of_lt (by omega)
  have filled : (fill (BitVec.ofNat w n)).toNat = slotWidth n - n := by
    rw [toNat_fill (by omega), value]
  have few : slotWidth n - n < 2 ^ 63 := by
    unfold slotWidth
    omega
  have mirrors := mirrors_bytes (n := fill (BitVec.ofNat w n)) inRange
    (by rw [filled]; exact inRange.room wide few)
  rw [filled] at mirrors
  exact Mirrors.map _ inRange mirrors

/-- Bytes behind their length. -/
theorem mirrors_byteArray : Mirrors byteArray Read.byteArray p := by
  refine Mirrors.bind inRange (mirrors_length wide inRange) fun n p inRange run => ?_
  cases n with
  | none => exact Faithful.pure none
  | some n =>
    have fits : Fitting n := (Read.answers_length _).ok run n rfl
    unfold Fitting at fits
    refine Mirrors.bind inRange (mirrors_bytes_ofNat wide inRange (by omega))
      fun content _ inRange _ => ?_
    exact Mirrors.map _ inRange (mirrors_padding wide inRange (by omega))

/-- The unit behind a text is there to be looked at, and so are the units of the text. -/
theorem mirrors_string : Mirrors string Read.string p := by
  refine Mirrors.bind inRange (mirrors_length wide inRange) fun n p inRange run => ?_
  cases n with
  | none => exact Faithful.pure none
  | some n =>
    have fits : Fitting n := (Read.answers_length _).ok run n rfl
    unfold Fitting at fits
    dsimp only
    rw [unitsWidth_eq]
    refine Mirrors.bind inRange (mirrors_bytes_ofNat wide inRange (by omega))
      fun content _ inRange run => ?_
    have full := (Read.answers_bytes _ _).ok run
    -- There are as many units as were asked for, so the last one stands where it is looked for.
    have count : (Read.units content).length = n + 1 := by
      rw [length_units, full]
      omega
    obtain ⟨last, behind⟩ : ∃ last, (Read.units content)[n]? = some last :=
      ⟨_, List.getElem?_eq_getElem (by omega)⟩
    have kept : slice? (Read.units content) 0 n = some ((Read.units content).take n) :=
      if_pos ⟨Nat.zero_le n, by omega⟩
    simp only [behind, kept, found, pure_bind, Option.some.injEq]
    refine Mirrors.ite (fun _ => ?_) fun _ => Faithful.fail
    refine Mirrors.bind inRange (mirrors_padding wide inRange (by omega)) fun _ _ _ _ => ?_
    cases Text.Utf16.decode ((Read.units content).take n) with
    | none => exact Faithful.fail
    | some text => exact Faithful.pure _

end Slots

end Parcel

/-! ## §6. Writing. -/

namespace Parcel

/-- As long as no sum wraps around, the zeros are the padding of the slot. -/
theorem zeros_eq {n : Nat} (room : n + 3 < 2 ^ w) :
    zeros (BitVec.ofNat w n) = Slot.padding n := by
  have value : (BitVec.ofNat w n).toNat = n := toNat_ofNat_of_lt (by omega)
  unfold zeros Slot.padding
  rw [toNat_fill (by rw [value]; exact room), value]

/-- Then bytes are written as their slot says. -/
theorem writtenBytes_eq {content : List UInt8} (room : content.length + 3 < 2 ^ w) :
    writtenBytes w (some content) = Slot.bytes content := by
  unfold writtenBytes Slot.bytes
  dsimp only
  rw [zeros_eq room]

/-- Then a text is written as its slot says. -/
theorem writtenString_eq {s : String}
    (room : ((Text.Utf16.encode s.toList).length + 1) * 2 + 3 < 2 ^ w) :
    writtenString w (some s) = Slot.text s := by
  unfold writtenString Slot.text
  dsimp only
  rw [unitsWidth_eq, zeros_eq room]

end Parcel

end ParcelCodec.Wire
