import ParcelCodec.Wire.Payload

/-!
# Reads move forward

A read never moves the cursor back, and if it succeeds it has consumed as many bytes as its slots
are wide at least.  `Advances k` says both at once.  A read that fails for certain advances by
anything.

Main statement: every operation's slot takes four bytes at least (`Op.advances_read`), and so does
a tagged value (`advances_tagged`).
-/

namespace ParcelCodec.Wire

variable {ε ε' α β : Type}

/-! ## §1. Positions. -/

/-- A cursor that stands ahead of another one, in the same bytes. -/
def Onward (c c' : Cursor) : Prop :=
  ∃ k, k ≤ c.remaining ∧ c' = ⟨c.index + k, c.rest.drop k⟩

/-- A cursor stands no bytes ahead of itself. -/
theorem Onward.refl (c : Cursor) : Onward c c := ⟨0, Nat.zero_le _, rfl⟩

/-- The bytes between cursors add up. -/
theorem Onward.trans {a b c : Cursor} (hab : Onward a b) (hbc : Onward b c) : Onward a c := by
  obtain ⟨j, hj, rfl⟩ := hab
  obtain ⟨k, hk, rfl⟩ := hbc
  unfold Cursor.remaining at hj hk
  rw [List.length_drop] at hk
  refine ⟨j + k, ?_, ?_⟩
  · unfold Cursor.remaining
    omega
  · rw [List.drop_drop, Nat.add_assoc]

/-! ## §2. Reads that advance. -/

/-- A read moves forward, and by `k` bytes at least if it succeeds. -/
def Advances (k : Nat) (x : Step Cursor ε α) : Prop :=
  ∀ c, Onward c (x c).2 ∧ ∀ a, (x c).1 = .ok a → (x c).2.remaining + k ≤ c.remaining

namespace Advances

/-- A read that takes so many bytes takes fewer. -/
theorem weaken {j k : Nat} {x : Step Cursor ε α} (h : Advances k x) (hjk : j ≤ k) :
    Advances j x := by
  intro c
  obtain ⟨onward, consumed⟩ := h c
  refine ⟨onward, fun a ha => ?_⟩
  have := consumed a ha
  omega

theorem pure (a : α) : Advances 0 (Pure.pure a : Step Cursor ε α) :=
  fun c => ⟨Onward.refl c, fun _ _ => Nat.le_refl _⟩

/-- A read that fails advances by anything, since it never answers. -/
theorem fail (k : Nat) (e : ε) : Advances k (Step.fail e : Step Cursor ε α) :=
  fun c => ⟨Onward.refl c, fun _ h => by cases h⟩

theorem get : Advances 0 (Step.get : Step Cursor ε Cursor) :=
  fun c => ⟨Onward.refl c, fun _ _ => Nat.le_refl _⟩

/-- Reads in a row take the bytes of both. -/
theorem bind {j k : Nat} {x : Step Cursor ε α} {f : α → Step Cursor ε β} (hx : Advances j x)
    (hf : ∀ a, Advances k (f a)) : Advances (j + k) (x >>= f) := by
  intro c
  obtain ⟨onward, consumed⟩ := hx c
  rcases h : x c with ⟨e | a, c'⟩
  · rw [h] at onward
    rw [Step.bind_error h]
    exact ⟨onward, fun _ he => by cases he⟩
  · rw [h] at onward consumed
    rw [Step.bind_ok h]
    obtain ⟨onward', consumed'⟩ := hf a c'
    refine ⟨onward.trans onward', fun b hb => ?_⟩
    have first := consumed a rfl
    have second := consumed' b hb
    simp only at first
    omega

/-- A read advances by what its first part does, if the rest moves forward at all. -/
theorem andThen {k : Nat} {x : Step Cursor ε α} {f : α → Step Cursor ε β} (hx : Advances k x)
    (hf : ∀ a, Advances 0 (f a)) : Advances k (x >>= f) := hx.bind hf

/-- What is made of an answer takes no bytes. -/
theorem map {k : Nat} {x : Step Cursor ε α} (f : α → β) (hx : Advances k x) :
    Advances k (do return f (← x)) := hx.bind fun a => pure (f a)

/-- Restating a failure takes no bytes. -/
theorem mapError {k : Nat} {x : Step Cursor ε α} (f : ε → ε') (hx : Advances k x) :
    Advances k (Step.mapError f x) := by
  intro c
  obtain ⟨onward, consumed⟩ := hx c
  rw [Step.mapError_apply]
  rcases h : x c with ⟨e | a, c'⟩
  · rw [h] at onward
    exact ⟨onward, fun _ he => by cases he⟩
  · rw [h] at onward consumed
    exact ⟨onward, fun b _ => consumed a rfl⟩

/-- A choice takes what both of its reads take. -/
theorem ite {k : Nat} {p : Prop} [Decidable p] {x y : Step Cursor ε α} (hx : Advances k x)
    (hy : Advances k y) : Advances k (if p then x else y) := by
  split
  · exact hx
  · exact hy

/-- A read that is repeated takes its bytes every time. -/
theorem replicate {k : Nat} {x : Step Cursor ε α} (hx : Advances k x) :
    ∀ n, Advances (n * k) (Step.replicate n x)
  | 0 => by
    rw [Nat.zero_mul]
    exact pure []
  | n + 1 => by
    have both := hx.bind fun a => (replicate hx n).map (a :: ·)
    exact both.weaken (by rw [Nat.succ_mul]; omega)

/-- A run of reads moves forward, whatever its length is. -/
theorem replicate_zero {x : Step Cursor ε α} (hx : Advances 0 x) (n : Nat) :
    Advances 0 (Step.replicate n x) := (replicate hx n).weaken (Nat.zero_le _)

end Advances

/-! ## §3. Slots. -/

namespace Read

/-- Bytes are taken as they are, or not at all. -/
theorem advances_bytes (n : Nat) : Advances n (bytes n) := by
  intro c
  by_cases enough : n ≤ c.remaining
  · have taken : (c.rest.take n).length = n := List.length_take_of_le enough
    have answer : bytes n c = (.ok (c.rest.take n), ⟨c.index + n, c.rest.drop n⟩) := if_pos taken
    rw [answer]
    refine ⟨⟨n, enough, rfl⟩, fun _ _ => ?_⟩
    unfold Cursor.remaining at *
    simp only [List.length_drop]
    omega
  · rw [bytes_of_remaining_lt (Nat.lt_of_not_le enough)]
    exact ⟨Onward.refl c, fun _ h => by cases h⟩

theorem advances_word : Advances 4 word := (advances_bytes 4).map _

theorem advances_doubleWord : Advances 8 doubleWord := (advances_bytes 8).map _

theorem advances_int : Advances 4 int := advances_word.map _

theorem advances_long : Advances 8 long := advances_doubleWord.map _

theorem advances_byte : Advances 4 byte := advances_int.map _

theorem advances_short : Advances 4 short := advances_int.map _

theorem advances_char : Advances 4 char := advances_word.map _

theorem advances_bool : Advances 4 bool :=
  advances_int.bind fun _ =>
    Advances.ite (Advances.pure _) (Advances.ite (Advances.pure _) (Advances.fail 0 _))

/-- A length takes a slot, also where it announces an absent content. -/
theorem advances_length : Advances 4 length :=
  advances_int.bind fun _ =>
    Advances.ite (Advances.pure _) (Advances.ite (Advances.fail 0 _) (Advances.pure _))

/-- Padding may be empty. -/
theorem advances_padding (n : Nat) : Advances 0 (padding n) :=
  ((advances_bytes _).map _).weaken (Nat.zero_le _)

theorem advances_byteArray : Advances 4 byteArray := by
  refine advances_length.andThen fun n => ?_
  cases n with
  | none => exact Advances.pure _
  | some n =>
    exact ((advances_bytes n).weaken (Nat.zero_le _)).bind fun _ => (advances_padding n).map _

/-- A text takes the slot of its length, and what may follow. -/
theorem advances_string : Advances 4 string := by
  refine advances_length.andThen fun n => ?_
  cases n with
  | none => exact Advances.pure _
  | some n =>
    refine ((advances_bytes _).weaken (Nat.zero_le _)).andThen fun content => ?_
    refine Advances.ite ((advances_padding _).andThen fun _ => ?_) (Advances.fail 0 _)
    split
    · exact Advances.pure _
    · exact Advances.fail 0 _

/-- A counted run takes the slot of its count, even if its items take nothing. -/
theorem advances_array {element : Read α} (h : Advances 0 element) : Advances 4 (array element) := by
  refine advances_length.andThen fun n => ?_
  cases n with
  | none => exact Advances.pure _
  | some n =>
    refine Advances.get.andThen fun c => ?_
    exact Advances.ite (Advances.fail 0 _) ((Advances.replicate_zero h n).map _)

/-! ## §4. Tagged values. -/

/-- Restating what is malformed does not matter. -/
theorem advances_slot {k : Nat} {bad : ε} {read : Read α} (h : Advances k read) :
    Advances k (slot bad read) := h.mapError _

theorem advances_pair {first : Step Cursor ε α} {second : Step Cursor ε β}
    (hf : Advances 0 first) (hs : Advances 0 second) : Advances 0 (pair first second) :=
  hf.bind fun a => hs.map fun b => (a, b)

/-- Counted items take the slot of their count. -/
theorem advances_counted {bad : ε} {item : Step Cursor ε α} {wrap : List α → Value}
    (h : Advances 0 item) : Advances 4 (counted bad item wrap) := by
  refine (advances_slot advances_length).andThen fun n => ?_
  cases n with
  | none => exact Advances.pure _
  | some n => exact (Advances.replicate_zero h n).map _

/-- What stands behind a tag only moves forward, since a null or a unit takes no bytes. -/
theorem advances_payload {bad : ε} {hook item : Step Cursor ε Value} (hh : Advances 0 hook)
    (hi : Advances 0 item) (tag : Int32) : Advances 0 (payload bad hook item tag) := by
  have scalar : ∀ {α : Type} {k : Nat} {read : Read α} (f : α → Value), Advances k read →
      Advances 0 (do return f (← slot bad read)) :=
    fun f h => ((advances_slot h).map f).weaken (Nat.zero_le _)
  unfold payload
  refine .ite (.pure _) ?_
  refine .ite (scalar _ advances_string) ?_
  refine .ite (scalar _ advances_int) ?_
  refine .ite (scalar _ advances_short) ?_
  refine .ite (scalar _ advances_long) ?_
  refine .ite (scalar _ advances_word) ?_
  refine .ite (scalar _ advances_doubleWord) ?_
  refine .ite (scalar _ advances_bool) ?_
  refine .ite (scalar _ advances_byte) ?_
  refine .ite (scalar _ advances_byteArray) ?_
  refine .ite ((advances_counted hi).weaken (Nat.zero_le _)) ?_
  refine .ite ((advances_counted (advances_pair hi hi)).weaken (Nat.zero_le _)) ?_
  exact .ite hh (.fail 0 _)

/-- A tagged value takes the slot of its tag. -/
theorem advances_taggedWithin {bad : ε} {hook : Step Cursor ε Value} (h : Advances 0 hook) :
    ∀ depth, Advances 4 (taggedWithin bad hook depth)
  | 0 => .fail 4 _
  | depth + 1 =>
    (advances_slot advances_int).bind fun tag =>
      advances_payload h ((advances_taggedWithin h depth).weaken (Nat.zero_le _)) tag

/-- A tagged value takes its tag at least. -/
theorem advances_tagged {bad : ε} {hook : Step Cursor ε Value} (h : Advances 0 hook) :
    Advances 4 (tagged bad hook) :=
  fun c => advances_taggedWithin h (c.remaining + 1) c

end Read

/-! ## §5. Operations. -/

namespace Op

/-- An absent content takes the bytes that say so. -/
theorem advances_orNull {k : Nat} {wrap : α → Value} {r : Read (Option α)} (h : Advances k r) :
    Advances k (orNull wrap r) := h.map _

/-- Every operation's slot takes four bytes at least. -/
theorem advances_read (op : Op) : Advances 4 op.read := by
  have zero : ∀ {α : Type} {k : Nat} {x : Read α}, Advances k x → Advances 0 x :=
    fun h => h.weaken (Nat.zero_le _)
  cases op with
  | boolean => exact Read.advances_bool.map _
  | byte => exact Read.advances_byte.map _
  | short => exact Read.advances_short.map _
  | char => exact Read.advances_char.map _
  | int => exact Read.advances_int.map _
  | long => exact (Read.advances_long.map _).weaken (by decide)
  | float => exact Read.advances_word.map _
  | double => exact (Read.advances_doubleWord.map _).weaken (by decide)
  | string => exact advances_orNull Read.advances_string
  | charSequence =>
    exact Read.advances_int.bind fun _ =>
      .ite (zero (advances_orNull Read.advances_string)) (.fail 0 _)
  | booleanArray => exact advances_orNull (Read.advances_array (zero Read.advances_bool))
  | byteArray => exact advances_orNull Read.advances_byteArray
  | charArray => exact advances_orNull (Read.advances_array (zero Read.advances_char))
  | shortArray => exact advances_orNull (Read.advances_array (zero Read.advances_short))
  | intArray => exact advances_orNull (Read.advances_array (zero Read.advances_int))
  | longArray => exact advances_orNull (Read.advances_array (zero Read.advances_long))
  | floatArray => exact advances_orNull (Read.advances_array (zero Read.advances_word))
  | doubleArray => exact advances_orNull (Read.advances_array (zero Read.advances_doubleWord))
  | bigInteger => exact advances_orNull Read.advances_byteArray
  | bigDecimal =>
    refine Read.advances_byteArray.andThen fun content => ?_
    cases content with
    | none => exact .pure _
    | some unscaled => exact zero (Read.advances_int.map _)
  | size => exact (Read.advances_int.bind fun _ => zero (Read.advances_int.map _))
  | sizeF => exact (Read.advances_word.bind fun _ => zero (Read.advances_word.map _))
  | sparseBooleanArray =>
    exact Read.advances_counted
      (Read.advances_pair (zero Read.advances_int) (zero Read.advances_bool))
  | bundle => exact advances_orNull Read.advances_byteArray
  | persistableBundle => exact advances_orNull Read.advances_byteArray
  | strongBinder => exact advances_orNull Read.advances_byteArray
  | serializable => exact advances_orNull Read.advances_byteArray
  | parcelable => exact .fail 4 _
  | value => exact Read.advances_tagged (.fail 0 _)

end Op

end ParcelCodec.Wire
