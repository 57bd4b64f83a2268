import ParcelCodec.Proofs.Ends
import ParcelCodec.Proofs.Wire.Payload

/-!
# What reads answer

Whatever bytes an operation reads, its answer is a value that the operation holds, or null.  A
length slot never answers a number that does not fit it, and a text is decoded only from units that
encode it, so whatever was read can be laid out again.

Null is read in more slots than it is written in.  Main statements: `Op.answers_read` and
`Op.takes_null`.
-/

namespace ParcelCodec.Wire

/-- A read answers only as `P` tells, wherever it starts. -/
abbrev Answers {ε α : Type} (x : Step Cursor ε α) (P : α → Prop) : Prop :=
  ∀ c, Ends x c (fun a _ => P a) fun _ => True

variable {ε α β : Type}

namespace Answers

/-- Every reader answers something. -/
theorem any (x : Step Cursor ε α) : Answers x fun _ => True :=
  fun _ => Ends.intro (fun _ _ _ => trivial) fun _ _ _ => trivial

/-- A reader that only returns answers what it returns. -/
theorem pure {P : α → Prop} {a : α} (h : P a) : Answers (Pure.pure a : Step Cursor ε α) P :=
  fun _ => Ends.pure h

/-- A reader that fails answers nothing at all. -/
theorem fail {P : α → Prop} (e : ε) : Answers (Step.fail e : Step Cursor ε α) P :=
  fun _ => Ends.fail trivial

/-- In a row, the second reader may count on what the first one answered. -/
theorem bind {P : α → Prop} {Q : β → Prop} {x : Step Cursor ε α} {f : α → Step Cursor ε β}
    (hx : Answers x P) (hf : ∀ a, P a → Answers (f a) Q) : Answers (x >>= f) Q :=
  fun c => Ends.bind ((hx c).mono (fun a c' _ ha => hf a ha c') fun _ h => h)

/-- What holds of an answer's image holds of the reader's. -/
theorem map {P : α → Prop} {Q : β → Prop} {x : Step Cursor ε α} (f : α → β) (hx : Answers x P)
    (hf : ∀ a, P a → Q (f a)) : Answers (do return f (← x)) Q :=
  hx.bind fun a ha => pure (hf a ha)

/-- A choice answers what either branch answers, each under its own condition. -/
theorem ite {P : α → Prop} {p : Prop} [Decidable p] {x y : Step Cursor ε α}
    (hx : p → Answers x P) (hy : ¬ p → Answers y P) : Answers (if p then x else y) P :=
  fun c => Ends.ite (fun h => hx h c) fun h => hy h c

/-- The word that says whether a slot is filled takes nothing away from what its content answers. -/
theorem slot {P : α → Prop} {bad : ε} {read : Read α} (h : Answers read P) :
    Answers (Read.slot bad read) P := fun c => Ends.mapError (h c)

/-- A reader repeated answers as many items as it is repeated, each as it answers one. -/
theorem replicate {P : α → Prop} {x : Step Cursor ε α} (hx : Answers x P) (n : Nat) :
    Answers (Step.replicate n x) fun items => items.length = n ∧ ∀ a ∈ items, P a :=
  fun _ => Ends.replicate fun _ _ _ c' _ => hx c'

end Answers

/-! ## §1. Slots. -/

namespace Read

/-- An integer that is not negative fits a length slot. -/
theorem fitting_of_nonneg {n : Int32} (h : 0 ≤ n) : Fitting n.toInt.toNat := by
  have small := n.toInt_lt
  have nonneg := Int32.le_iff_toInt_le.mp h
  unfold Fitting
  have zero : (0 : Int32).toInt = 0 := rfl
  omega

/-- A length that is read is absent or one that a word can hold. -/
theorem answers_length : Answers length fun n => ∀ k ∈ n, Fitting k := by
  refine (Answers.any int).bind fun n _ => ?_
  refine .ite (fun _ => .pure nofun) fun _ => .ite (fun _ => .fail _) fun positive => ?_
  refine .pure fun k hk => ?_
  cases hk
  exact fitting_of_nonneg (Int32.not_lt.mp positive)

/-- A number of bytes is read in full or not at all. -/
theorem answers_bytes (n : Nat) : Answers (bytes n) fun content => content.length = n := by
  intro c
  unfold Ends bytes
  dsimp only
  by_cases full : (c.rest.take n).length = n
  · rw [if_pos full]
    exact full
  · rw [if_neg full]
    trivial

/-- A byte array that is read has a length that fits its prefix. -/
theorem answers_byteArray : Answers byteArray fun content => ∀ b ∈ content, Fitting b.length := by
  refine answers_length.bind fun n fits => ?_
  cases n with
  | none => exact .pure nofun
  | some n =>
    refine (answers_bytes n).bind fun content length => ?_
    refine (Answers.any (padding n)).map _ fun _ _ b hb => ?_
    cases hb
    exact length ▸ fits n rfl

/-- A string that is read has a text that fits its prefix. -/
theorem answers_string : Answers string fun text => ∀ s ∈ text, FittingText s := by
  refine answers_length.bind fun n fits => ?_
  cases n with
  | none => exact .pure nofun
  | some n =>
    refine (Answers.any _).bind fun content _ => .ite (fun _ => ?_) fun _ => .fail _
    refine (Answers.any _).bind fun _ _ => ?_
    split
    · next text decoded =>
      refine .pure fun s hs => ?_
      cases hs
      -- The text has the units that were read, and no more of them than were announced.
      unfold FittingText
      rw [String.toList_ofList, Text.Utf16.encode_of_decode decoded]
      have bound := fits n rfl
      have taken := List.length_take_le n (units content)
      unfold Fitting at *
      omega
    · exact .fail _

/-- An array that is read has a length that fits its prefix, whatever its elements. -/
theorem answers_array {element : Read α} :
    Answers (array element) fun values => ∀ items ∈ values, Fitting items.length := by
  refine answers_length.bind fun n fits => ?_
  cases n with
  | none => exact .pure nofun
  | some n =>
    refine (Answers.any _).bind fun _ _ => .ite (fun _ => .fail _) fun _ => ?_
    refine ((Answers.any element).replicate n).map some fun items h values hv => ?_
    cases hv
    exact h.1 ▸ fits n rfl

end Read

/-! ## §2. Operations. -/

namespace Op

/-- An operation can read null.  The polymorphic operations leave that to what they read. -/
def readsNull : Op → Bool
  | .boolean | .byte | .short | .char | .int | .long | .float | .double | .size | .sizeF
  | .value => false
  | _ => true

/-- An operation can write null, too. -/
def writesNull (op : Op) : Bool := op.readsNull && op != .charSequence

/-- Either the operation holds a value, or the value is null and the operation can read that. -/
def Reads (op : Op) (v : Value) : Prop := op.Holds v ∨ (v = .null ∧ op.readsNull = true)

/-- A content that is there is held, and one that is absent is null. -/
theorem answers_orNull {op : Op} {r : Read (Option α)} {wrap : α → Value} {P : α → Prop}
    (h : Answers r fun a => ∀ b ∈ a, P b) (holds : ∀ {a}, P a → op.Holds (wrap a))
    (null : op.readsNull = true) : Answers (orNull wrap r) op.Reads := by
  refine h.map _ fun a ha => ?_
  cases a with
  | none => exact .inr ⟨rfl, null⟩
  | some a => exact .inl (holds (ha a rfl))

theorem answers_scalar {op : Op} {read : Read α} {wrap : α → Value}
    (holds : ∀ a, op.Holds (wrap a)) : Answers (do return wrap (← read)) op.Reads :=
  (Answers.any read).map wrap fun a _ => .inl (holds a)

/-- What an operation reads is a value that it holds, or null. -/
theorem answers_read (op : Op) (fixed : op.isPolymorphic = false) : Answers op.read op.Reads := by
  cases op with
  | boolean => exact answers_scalar .boolean
  | byte => exact answers_scalar .byte
  | short => exact answers_scalar .short
  | char => exact answers_scalar .char
  | int => exact answers_scalar .int
  | long => exact answers_scalar .long
  | float => exact answers_scalar .float
  | double => exact answers_scalar .double
  | string => exact answers_orNull Read.answers_string .string rfl
  | charSequence =>
    refine (Answers.any _).bind fun _ _ => .ite (fun _ => ?_) fun _ => .fail _
    exact answers_orNull Read.answers_string .charSequence rfl
  | booleanArray => exact answers_orNull Read.answers_array .booleanArray rfl
  | byteArray => exact answers_orNull Read.answers_byteArray .byteArray rfl
  | charArray => exact answers_orNull Read.answers_array .charArray rfl
  | shortArray => exact answers_orNull Read.answers_array .shortArray rfl
  | intArray => exact answers_orNull Read.answers_array .intArray rfl
  | longArray => exact answers_orNull Read.answers_array .longArray rfl
  | floatArray => exact answers_orNull Read.answers_array .floatArray rfl
  | doubleArray => exact answers_orNull Read.answers_array .doubleArray rfl
  | bigInteger => exact answers_orNull Read.answers_byteArray .bigInteger rfl
  | bigDecimal =>
    refine Read.answers_byteArray.bind fun content fits => ?_
    cases content with
    | none => exact .pure (.inr ⟨rfl, rfl⟩)
    | some unscaled =>
      exact (Answers.any _).map _ fun scale _ => .inl (.bigDecimal scale (fits unscaled rfl))
  | size => exact (Answers.any _).bind fun width _ => answers_scalar (.size width)
  | sizeF => exact (Answers.any _).bind fun width _ => answers_scalar (.sizeF width)
  | sparseBooleanArray =>
    refine Read.answers_length.slot.bind fun n fits => ?_
    cases n with
    | none => exact .pure (.inr ⟨rfl, rfl⟩)
    | some n =>
      refine ((Answers.any _).replicate n).map _ fun entries h => .inl (.sparseBooleanArray ?_)
      exact h.1 ▸ fits n rfl
  | bundle => exact answers_orNull Read.answers_byteArray .bundle rfl
  | persistableBundle => exact answers_orNull Read.answers_byteArray .persistableBundle rfl
  | strongBinder => exact answers_orNull Read.answers_byteArray .strongBinder rfl
  | serializable => exact answers_orNull Read.answers_byteArray .serializable rfl
  | parcelable => cases fixed
  | value => cases fixed

/-! ## §3. Null. -/

/-- The absent slot is read as no length. -/
theorem takes_length_absent : Takes Read.length Slot.absent none :=
  fun i rest => Step.bind_ok (takes_int (-1) i rest)

/-- A content that is absent is read behind its length. -/
theorem takes_absent {f : Option Nat → Read (Option α)} (none : f none = pure none) :
    Takes (Read.length >>= f) Slot.absent Option.none := by
  have empty : Takes (f Option.none) [] Option.none := by
    rw [none]
    exact Takes.pure _
  exact (takes_length_absent.bind empty).of_eq (List.append_nil _) rfl

/-- A reader that finds the absent slot hands it on as null. -/
theorem takes_orNull_absent {r : Read (Option α)} {wrap : α → Value}
    (h : Takes r Slot.absent none) : Takes (orNull wrap r) Slot.absent .null :=
  h.map fun content : Option α => (content.map wrap).getD Value.null

/-- Where an operation writes null, it reads null back. -/
theorem takes_null {op : Op} (fixed : op.isPolymorphic = false) (h : op.writesNull = true) :
    op.bytes? .null = some Slot.absent ∧ Takes op.read Slot.absent .null := by
  cases op with
  | string => exact ⟨rfl, takes_orNull_absent (takes_absent rfl)⟩
  | booleanArray => exact ⟨rfl, takes_orNull_absent (takes_absent rfl)⟩
  | byteArray => exact ⟨rfl, takes_orNull_absent (takes_absent rfl)⟩
  | charArray => exact ⟨rfl, takes_orNull_absent (takes_absent rfl)⟩
  | shortArray => exact ⟨rfl, takes_orNull_absent (takes_absent rfl)⟩
  | intArray => exact ⟨rfl, takes_orNull_absent (takes_absent rfl)⟩
  | longArray => exact ⟨rfl, takes_orNull_absent (takes_absent rfl)⟩
  | floatArray => exact ⟨rfl, takes_orNull_absent (takes_absent rfl)⟩
  | doubleArray => exact ⟨rfl, takes_orNull_absent (takes_absent rfl)⟩
  | bigInteger => exact ⟨rfl, takes_orNull_absent (takes_absent rfl)⟩
  | bigDecimal =>
    have absent : Takes Read.byteArray Slot.absent none := takes_absent rfl
    exact ⟨rfl, fun i rest => Step.bind_ok (absent i rest)⟩
  | sparseBooleanArray =>
    exact ⟨rfl, fun i rest => Step.bind_ok (takes_slot takes_length_absent i rest)⟩
  | bundle => exact ⟨rfl, takes_orNull_absent (takes_absent rfl)⟩
  | persistableBundle => exact ⟨rfl, takes_orNull_absent (takes_absent rfl)⟩
  | strongBinder => exact ⟨rfl, takes_orNull_absent (takes_absent rfl)⟩
  | serializable => exact ⟨rfl, takes_orNull_absent (takes_absent rfl)⟩
  | parcelable => cases fixed
  | value => cases fixed
  | _ => cases h

/-- An operation that can read null but not write it refuses it. -/
theorem bytes?_null (op : Op) (fixed : op.isPolymorphic = false) :
    (op.bytes? .null).isSome = op.writesNull := by
  cases op with
  | parcelable => cases fixed
  | value => cases fixed
  | _ => rfl

end Op

end ParcelCodec.Wire
