import ParcelCodec.Proofs.Wire.Progress

/-!
# Reads that what follows does not change

A read that answers gives the same answer, and stops at the same place, whatever bytes are put
behind the parcel.  A read that fails may have failed for want of bytes, so nothing is said of it.

Main statement: `Op.steady_read`.
-/

namespace ParcelCodec.Wire

/-- The cursor with more bytes behind those that are ahead. -/
def Cursor.extend (c : Cursor) (more : List UInt8) : Cursor := ⟨c.index, c.rest ++ more⟩

/-- More bytes behind a cursor are more bytes left. -/
theorem Cursor.remaining_extend (c : Cursor) (more : List UInt8) :
    (c.extend more).remaining = c.remaining + more.length := List.length_append

@[simp] theorem Cursor.extend_nil (c : Cursor) : c.extend [] = c := by
  unfold extend
  rw [List.append_nil]

variable {ε ε' α β : Type}

/-- A read that answers does so whatever follows. -/
def Steady (x : Step Cursor ε α) : Prop :=
  ∀ c a c' more, x c = (.ok a, c') → x (c.extend more) = (.ok a, c'.extend more)

/-! ## §1. Rules. -/

namespace Steady

theorem pure (a : α) : Steady (Pure.pure a : Step Cursor ε α) := by
  intro c b c' more run
  cases run
  rfl

/-- A read that fails promises nothing. -/
theorem fail (e : ε) : Steady (Step.fail e : Step Cursor ε α) := by
  intro c b c' more run
  cases run

/-- Reads in a row keep their answers if each does. -/
theorem bind {x : Step Cursor ε α} {f : α → Step Cursor ε β} (hx : Steady x)
    (hf : ∀ a, Steady (f a)) : Steady (x >>= f) := by
  intro c b c' more run
  rcases h : x c with ⟨e | a, between⟩
  · rw [Step.bind_error h] at run
    cases run
  · rw [Step.bind_ok h] at run
    rw [Step.bind_ok (hx c a between more h)]
    exact hf a between b c' more run

theorem map {x : Step Cursor ε α} (f : α → β) (hx : Steady x) :
    Steady (do return f (← x)) := hx.bind fun a => pure (f a)

/-- A choice keeps its answer if both of its reads do. -/
theorem ite {p : Prop} [Decidable p] {x y : Step Cursor ε α} (hx : Steady x) (hy : Steady y) :
    Steady (if p then x else y) := by
  split
  · exact hx
  · exact hy

theorem mapError {x : Step Cursor ε α} (f : ε → ε') (hx : Steady x) :
    Steady (Step.mapError f x) := by
  intro c a c' more run
  rw [Step.mapError_apply] at run ⊢
  rcases h : x c with ⟨e | b, between⟩
  · rw [h] at run
    cases run
  · rw [h] at run
    cases run
    rw [hx c a c' more h]

/-- A read that is repeated keeps all of its answers. -/
theorem replicate {x : Step Cursor ε α} (hx : Steady x) : ∀ n, Steady (Step.replicate n x)
  | 0 => pure []
  | n + 1 => hx.bind fun a => (replicate hx n).map (a :: ·)

end Steady

/-! ## §2. Slots. -/

namespace Read

/-- Bytes that were there are the same ones with more behind them. -/
theorem steady_bytes (n : Nat) : Steady (bytes n) := by
  intro c a c' more run
  have enough : n ≤ c.remaining := by
    by_cases short : c.remaining < n
    · rw [bytes_of_remaining_lt short] at run
      cases run
    · exact Nat.le_of_not_lt short
  unfold Cursor.remaining at enough
  unfold bytes Cursor.extend at *
  dsimp only at *
  rw [List.take_append_of_le_length enough, List.drop_append_of_le_length enough]
  split at run
  · next full =>
    cases run
    rw [if_pos full]
  · cases run

/-- Contents of fixed width are bytes of that number. -/
theorem steady_word : Steady word := (steady_bytes 4).map _

theorem steady_doubleWord : Steady doubleWord := (steady_bytes 8).map _

theorem steady_int : Steady int := steady_word.map _

theorem steady_long : Steady long := steady_doubleWord.map _

theorem steady_byte : Steady byte := steady_int.map _

theorem steady_short : Steady short := steady_int.map _

theorem steady_char : Steady char := steady_word.map _

theorem steady_bool : Steady bool :=
  steady_int.bind fun _ => .ite (.pure _) (.ite (.pure _) (.fail _))

/-- A length is looked at after it has been read, so what follows does not matter. -/
theorem steady_length : Steady length :=
  steady_int.bind fun _ => .ite (.pure _) (.ite (.fail _) (.pure _))

theorem steady_padding (n : Nat) : Steady (padding n) := (steady_bytes _).map _

theorem steady_byteArray : Steady byteArray := by
  refine steady_length.bind fun n => ?_
  cases n with
  | none => exact .pure _
  | some n => exact (steady_bytes n).bind fun _ => (steady_padding n).map _

/-- A text ends where its length says, not where the bytes end. -/
theorem steady_string : Steady string := by
  refine steady_length.bind fun n => ?_
  cases n with
  | none => exact .pure _
  | some n =>
    refine (steady_bytes _).bind fun content => ?_
    refine .ite ((steady_padding _).bind fun _ => ?_) (.fail _)
    split
    · exact .pure _
    · exact .fail _

/-- A number of elements that is let pass is let pass with more bytes behind. -/
theorem steady_guard {x : Read α} (h : Steady x) (n : Nat) :
    Steady (do if (← Step.get).remaining < n then Step.fail .malformed else x) := by
  intro c a c' more run
  rw [Step.get_bind] at run ⊢
  have longer := c.remaining_extend more
  by_cases refused : c.remaining < n
  · rw [if_pos refused] at run
    cases run
  · rw [if_neg refused] at run
    rw [if_neg (by omega)]
    exact h c a c' more run

/-- A count that was small enough for the bytes left is so with more of them. -/
theorem steady_array {element : Read α} (h : Steady element) : Steady (array element) := by
  refine steady_length.bind fun n => ?_
  cases n with
  | none => exact .pure _
  | some n => exact steady_guard ((h.replicate n).map some) n

theorem steady_pair {first : Step Cursor ε α} {second : Step Cursor ε β} (hf : Steady first)
    (hs : Steady second) : Steady (pair first second) :=
  hf.bind fun a => hs.map fun b => (a, b)

/-- Counted items keep their answers if each of them does. -/
theorem steady_counted {bad : ε} {item : Step Cursor ε α} {wrap : List α → Value}
    (h : Steady item) : Steady (counted bad item wrap) := by
  refine (steady_length.mapError _).bind fun n => ?_
  cases n with
  | none => exact .pure _
  | some n => exact (h.replicate n).map _

end Read

/-! ## §3. Operations. -/

namespace Op

theorem steady_orNull {wrap : α → Value} {r : Read (Option α)} (h : Steady r) :
    Steady (orNull wrap r) := h.map _

/-- What an operation reads does not change with what follows. -/
theorem steady_read (op : Op) (fixed : op.isPolymorphic = false) : Steady op.read := by
  cases op with
  | boolean => exact Read.steady_bool.map _
  | byte => exact Read.steady_byte.map _
  | short => exact Read.steady_short.map _
  | char => exact Read.steady_char.map _
  | int => exact Read.steady_int.map _
  | long => exact Read.steady_long.map _
  | float => exact Read.steady_word.map _
  | double => exact Read.steady_doubleWord.map _
  | string => exact steady_orNull Read.steady_string
  | charSequence =>
    exact Read.steady_int.bind fun _ => .ite (steady_orNull Read.steady_string) (.fail _)
  | booleanArray => exact steady_orNull (Read.steady_array Read.steady_bool)
  | byteArray => exact steady_orNull Read.steady_byteArray
  | charArray => exact steady_orNull (Read.steady_array Read.steady_char)
  | shortArray => exact steady_orNull (Read.steady_array Read.steady_short)
  | intArray => exact steady_orNull (Read.steady_array Read.steady_int)
  | longArray => exact steady_orNull (Read.steady_array Read.steady_long)
  | floatArray => exact steady_orNull (Read.steady_array Read.steady_word)
  | doubleArray => exact steady_orNull (Read.steady_array Read.steady_doubleWord)
  | bigInteger => exact steady_orNull Read.steady_byteArray
  | bigDecimal =>
    refine Read.steady_byteArray.bind fun content => ?_
    cases content with
    | none => exact .pure _
    | some unscaled => exact Read.steady_int.map _
  | size => exact Read.steady_int.bind fun _ => Read.steady_int.map _
  | sizeF => exact Read.steady_word.bind fun _ => Read.steady_word.map _
  | sparseBooleanArray =>
    exact Read.steady_counted (Read.steady_pair Read.steady_int Read.steady_bool)
  | bundle => exact steady_orNull Read.steady_byteArray
  | persistableBundle => exact steady_orNull Read.steady_byteArray
  | strongBinder => exact steady_orNull Read.steady_byteArray
  | serializable => exact steady_orNull Read.steady_byteArray
  | parcelable => cases fixed
  | value => cases fixed

end Op

end ParcelCodec.Wire
