import ParcelCodec.Proofs.Value.Breadth
import ParcelCodec.Proofs.Wire.Progress

/-!
# Reads that pay for their answers

A length slot announces any number of elements in four bytes.  What keeps an answer from being
broader than the bytes are many is that the elements take bytes themselves.  `Pays μ x` says that
the bytes which a read takes are as many as the measure `μ` of its answer at least.

A run of reads pays for the number of its items and for each of them, if every item takes a byte.
Main statements: `Pays.replicate`, `Read.pays_tagged` and `Op.pays_read`.
-/

namespace ParcelCodec.Wire

variable {ε ε' α β : Type}

/-! ## §1. Measures that are paid for. -/

/-- The measure of what a read answers is no more than the number of bytes that it takes. -/
def Pays (μ : α → Nat) (x : Step Cursor ε α) : Prop :=
  ∀ c a, (x c).1 = .ok a → μ a + (x c).2.remaining ≤ c.remaining

/-- The number of some items, or the measure of one of them if that is more. -/
def widest (μ : α → Nat) : List α → Nat
  | [] => 0
  | a :: rest => max (μ a) (max (rest.length + 1) (widest μ rest))

/-- Neither the number of the items nor the measure of any goes beyond a bound. -/
theorem widest_le_iff {μ : α → Nat} {items : List α} {n : Nat} :
    widest μ items ≤ n ↔ items.length ≤ n ∧ ∀ a ∈ items, μ a ≤ n := by
  induction items with
  | nil => simp [widest]
  | cons a rest ih =>
    rw [widest, Nat.max_le, Nat.max_le, ih, List.length_cons, List.forall_mem_cons]
    constructor
    · rintro ⟨first, more, -, others⟩
      exact ⟨more, first, others⟩
    · rintro ⟨more, first, others⟩
      exact ⟨first, more, by omega, others⟩

namespace Pays

variable {μ : α → Nat} {ν : β → Nat}

/-- An answer without bytes has to measure nothing. -/
theorem pure {a : α} (h : μ a = 0) : Pays μ (Pure.pure a : Step Cursor ε α) := by
  intro c b hb
  cases hb
  rw [h]
  exact Nat.le_of_eq (Nat.zero_add _)

/-- A failure costs nothing. -/
theorem fail (e : ε) : Pays μ (Step.fail e : Step Cursor ε α) := fun _ _ => nofun

/-- Nothing is paid for by any read. -/
theorem nothing {k : Nat} {x : Step Cursor ε α} (h : Advances k x) : Pays (fun _ => 0) x := by
  intro c a ha
  have taken := (h c).2 a ha
  rw [Nat.zero_add]
  omega

/-- What was paid for one after the other is paid for together. -/
theorem bind {x : Step Cursor ε α} {f : α → Step Cursor ε β} (hx : Pays μ x)
    (hf : ∀ a, Pays (fun b => ν b - μ a) (f a)) : Pays ν (x >>= f) := by
  intro c b hb
  rcases h : x c with ⟨e | a, c'⟩
  · rw [Step.bind_error h] at hb
    cases hb
  · rw [Step.bind_ok h] at hb ⊢
    have first := hx c a (by rw [h])
    have second := hf a c' b hb
    rw [h] at first
    dsimp only at first second
    omega

/-- What comes behind other bytes pays for the whole. -/
theorem behind {k : Nat} {x : Step Cursor ε α} {f : α → Step Cursor ε β} (hx : Advances k x)
    (hf : ∀ a, Pays ν (f a)) : Pays ν (x >>= f) :=
  (nothing hx).bind hf

/-- What measures no more is paid for by the same bytes. -/
theorem map {x : Step Cursor ε α} (f : α → β) (hx : Pays μ x) (le : ∀ a, ν (f a) ≤ μ a) :
    Pays ν (do return f (← x)) :=
  hx.bind fun a => pure (Nat.sub_eq_zero_of_le (le a))

theorem mapError {x : Step Cursor ε α} (f : ε → ε') (hx : Pays μ x) :
    Pays μ (Step.mapError f x) := by
  intro c a ha
  have paid := hx c
  rw [Step.mapError_apply] at ha ⊢
  rcases h : x c with ⟨e | b, c'⟩
  · rw [h] at ha
    cases ha
  · rw [h] at ha paid
    cases ha
    exact paid a rfl

/-- A choice is paid for if both of its reads are. -/
theorem ite {p : Prop} [Decidable p] {x y : Step Cursor ε α} (hx : Pays μ x) (hy : Pays μ y) :
    Pays μ (if p then x else y) := by
  split
  · exact hx
  · exact hy

/-- A run of reads that each take a byte pays for the number of its items, and for each item. -/
theorem replicate {x : Step Cursor ε α} (hx : Pays μ x) (wide : Advances 1 x) :
    ∀ n, Pays (widest μ) (Step.replicate n x)
  | 0 => pure rfl
  | n + 1 => by
    intro c items hi
    rcases h : x c with ⟨e | a, c'⟩
    · rw [Step.replicate, Step.bind_error h] at hi
      cases hi
    · rcases hr : Step.replicate n x c' with ⟨e | rest, c''⟩
      · rw [Step.replicate, Step.bind_ok h, Step.bind_error hr] at hi
        cases hi
      · rw [Step.replicate, Step.bind_ok h, Step.bind_ok hr] at hi ⊢
        cases hi
        -- The bytes of one item are paid only once: they cover it or count for it.
        have first := hx c a (by rw [h])
        have one := (wide c).2 a (by rw [h])
        have others := replicate hx wide n c' rest (by rw [hr])
        rw [h] at first one
        rw [hr] at others
        have counted := (widest_le_iff.mp (Nat.le_refl (widest μ rest))).1
        show max (μ a) (max (rest.length + 1) (widest μ rest)) + c''.remaining ≤ c.remaining
        dsimp only at first one others
        omega

end Pays

/-! ## §2. Slots. -/

namespace Read

theorem pays_slot {μ : α → Nat} {bad : ε} {read : Read α} (h : Pays μ read) :
    Pays μ (slot bad read) := h.mapError _

theorem pays_pair {μ : α → Nat} {ν : β → Nat} {first : Step Cursor ε α}
    {second : Step Cursor ε β} (hf : Pays μ first) (hs : Pays ν second) :
    Pays (fun p => max (μ p.1) (ν p.2)) (pair first second) :=
  hf.bind fun a => hs.map _ fun b => by dsimp only; omega

/-- The size of a content, if it is there. -/
def sizeOf? (content : Option (List α)) : Nat := (content.map List.length).getD 0

/-- Bytes pay for themselves. -/
theorem pays_bytes (n : Nat) : Pays List.length (bytes n) := by
  intro c content h
  have taken := (advances_bytes n c).2 content h
  unfold bytes at h
  dsimp only at h
  split at h
  · next full =>
    cases h
    omega
  · cases h

theorem pays_byteArray : Pays sizeOf? byteArray := by
  refine .behind advances_length fun n => ?_
  cases n with
  | none => exact .pure rfl
  | some n =>
    refine (pays_bytes n).bind fun content => ?_
    exact (Pays.nothing (advances_padding n)).map _
      fun _ => Nat.le_of_eq (Nat.sub_self content.length)

/-- Items that take a slot each pay for their number. -/
theorem pays_array {element : Read α} (wide : Advances 4 element) :
    Pays sizeOf? (array element) := by
  refine .behind advances_length fun n => ?_
  cases n with
  | none => exact .pure rfl
  | some n =>
    refine .behind Advances.get fun _ => .ite (.fail _) ?_
    exact ((Pays.nothing wide).replicate (wide.weaken (by decide)) n).map some
      fun items => (widest_le_iff.mp (Nat.le_refl _)).1

/-- A counted container of items that each take a byte pays for its number of items and for each of
them. -/
theorem pays_counted {μ : α → Nat} {bad : ε} {item : Step Cursor ε α} {wrap : List α → Value}
    (h : Pays μ item) (wide : Advances 1 item)
    (le : ∀ items, (wrap items).breadth ≤ widest μ items) :
    Pays Value.breadth (counted bad item wrap) := by
  refine .behind (advances_slot advances_length) fun n => ?_
  cases n with
  | none => exact .pure rfl
  | some n => exact (h.replicate wide n).map wrap le

/-- A value that holds no others is paid for by any read. -/
theorem pays_scalar {k : Nat} {read : Step Cursor ε α} (f : α → Value) (h : Advances k read)
    (narrow : ∀ a, (f a).breadth = 0) : Pays Value.breadth (do return f (← read)) :=
  (Pays.nothing h).map f fun a => Nat.le_of_eq (narrow a)

/-- An array of bytes is as broad as its content is long. -/
theorem breadth_byteItems (content : List UInt8) :
    (Value.array (byteItems content)).breadth = content.length := by
  have narrow : Value.breadthOfItems (byteItems content) = 0 := by
    refine Nat.eq_zero_of_le_zero (Value.breadthOfItems_le_iff.mpr fun v hv => ?_)
    obtain ⟨b, -, rfl⟩ := List.mem_map.mp hv
    exact Nat.le_refl 0
  rw [Value.breadth, narrow, byteItems, List.length_map, Nat.max_zero]

/-! ### Containers. -/

/-- A list is as broad as its number of items, or as one of them. -/
theorem breadth_list_le (items : List Value) :
    (Value.list items).breadth ≤ widest Value.breadth items := by
  obtain ⟨counted, each⟩ := widest_le_iff.mp (Nat.le_refl (widest Value.breadth items))
  exact Nat.max_le.mpr ⟨counted, Value.breadthOfItems_le_iff.mpr each⟩

/-- A map is as broad as its number of entries, or as one key or value. -/
theorem breadth_map_le (entries : List (Value × Value)) :
    (Value.map entries).breadth ≤ widest (fun p => max p.1.breadth p.2.breadth) entries := by
  obtain ⟨counted, each⟩ := widest_le_iff.mp
    (Nat.le_refl (widest (fun p : Value × Value => max p.1.breadth p.2.breadth) entries))
  exact Nat.max_le.mpr
    ⟨counted, Value.breadthOfEntries_le_iff.mpr fun p hp => Nat.max_le.mp (each p hp)⟩

theorem breadth_sparseArray_le (entries : List (Int32 × Value)) :
    (Value.sparseArray entries).breadth ≤ widest (fun p => max 0 p.2.breadth) entries := by
  obtain ⟨counted, each⟩ := widest_le_iff.mp
    (Nat.le_refl (widest (fun p : Int32 × Value => max 0 p.2.breadth) entries))
  exact Nat.max_le.mpr
    ⟨counted, Value.breadthOfSparse_le_iff.mpr fun p hp => (Nat.max_le.mp (each p hp)).2⟩

/-! ## §3. Tagged values. -/

section Tagged

variable {bad : ε} {hook item : Step Cursor ε Value}

/-- What stands behind a tag is paid for, if the hook's values and the items are and no item is for
free. -/
theorem pays_payload (hh : Pays Value.breadth hook) (hi : Pays Value.breadth item)
    (wide : Advances 1 item) (tag : Int32) : Pays Value.breadth (payload bad hook item tag) := by
  have pair : Pays (fun p => max p.1.breadth p.2.breadth) (pair item item) := pays_pair hi hi
  have widePair : Advances 1 (Read.pair item item) :=
    wide.andThen fun a => (wide.weaken (Nat.zero_le 1)).map fun b => (a, b)
  unfold payload
  refine .ite (.pure rfl) ?_
  refine .ite (pays_scalar _ (advances_slot advances_string) fun s => by cases s <;> rfl) ?_
  refine .ite (pays_scalar _ (advances_slot advances_int) fun _ => rfl) ?_
  refine .ite (pays_scalar _ (advances_slot advances_short) fun _ => rfl) ?_
  refine .ite (pays_scalar _ (advances_slot advances_long) fun _ => rfl) ?_
  refine .ite (pays_scalar _ (advances_slot advances_word) fun _ => rfl) ?_
  refine .ite (pays_scalar _ (advances_slot advances_doubleWord) fun _ => rfl) ?_
  refine .ite (pays_scalar _ (advances_slot advances_bool) fun _ => rfl) ?_
  refine .ite (pays_scalar _ (advances_slot advances_byte) fun _ => rfl) ?_
  refine .ite ((pays_slot pays_byteArray).map _ fun content => ?_) ?_
  · cases content with
    | none => exact Nat.le_refl 0
    | some content => exact Nat.le_of_eq (breadth_byteItems content)
  refine .ite (pays_counted hi wide breadth_list_le) ?_
  exact .ite (pays_counted pair widePair breadth_map_le) (.ite hh (.fail _))

/-- A tagged value is paid for at any depth: the tag of each item is its price. -/
theorem pays_taggedWithin (forward : Advances 0 hook) (h : Pays Value.breadth hook) :
    ∀ depth, Pays Value.breadth (taggedWithin bad hook depth)
  | 0 => .fail _
  | depth + 1 => .behind (advances_slot advances_int) fun tag =>
      pays_payload h (pays_taggedWithin forward h depth)
        ((advances_taggedWithin forward depth).weaken (by decide)) tag

/-- A tagged value is no broader than it has bytes, if its instances are not. -/
theorem pays_tagged (forward : Advances 0 hook) (h : Pays Value.breadth hook) :
    Pays Value.breadth (tagged bad hook) :=
  fun c => pays_taggedWithin forward h (c.remaining + 1) c

end Tagged

end Read

/-! ## §4. Operations. -/

namespace Op

/-- The items of an array of scalars are paid for by the slots that they take. -/
theorem pays_items {wrap : α → Value} {element : Read α} (wide : Advances 4 element)
    (narrow : ∀ a, (wrap a).breadth = 0) : Pays Value.breadth (items wrap element) := by
  refine (Read.pays_array wide).map _ fun content => ?_
  cases content with
  | none => exact Nat.le_refl 0
  | some values =>
    have scalars : Value.breadthOfItems (values.map wrap) ≤ 0 := by
      refine Value.breadthOfItems_le_iff.mpr fun v hv => ?_
      obtain ⟨a, -, rfl⟩ := List.mem_map.mp hv
      exact Nat.le_of_eq (narrow a)
    refine Nat.max_le.mpr ⟨Nat.le_of_eq (List.length_map _), scalars.trans (Nat.zero_le _)⟩

/-- A content that is not broad costs nothing beyond its slot. -/
theorem pays_orNull {wrap : α → Value} {r : Read (Option α)} {k : Nat} (h : Advances k r)
    (narrow : ∀ a, (wrap a).breadth = 0) : Pays Value.breadth (orNull wrap r) :=
  Read.pays_scalar _ h fun content => by
    cases content with
    | none => rfl
    | some a => exact narrow a

/-- What an operation reads is no broader than it has bytes. -/
theorem pays_read (op : Op) : Pays Value.breadth op.read := by
  open Read in
  cases op with
  | boolean => exact pays_scalar _ advances_bool fun _ => rfl
  | byte => exact pays_scalar _ advances_byte fun _ => rfl
  | short => exact pays_scalar _ advances_short fun _ => rfl
  | char => exact pays_scalar _ advances_char fun _ => rfl
  | int => exact pays_scalar _ advances_int fun _ => rfl
  | long => exact pays_scalar _ advances_long fun _ => rfl
  | float => exact pays_scalar _ advances_word fun _ => rfl
  | double => exact pays_scalar _ advances_doubleWord fun _ => rfl
  | string => exact pays_orNull advances_string fun _ => rfl
  | charSequence =>
    exact .behind advances_int fun _ => .ite (pays_orNull advances_string fun _ => rfl) (.fail _)
  | booleanArray => exact pays_items advances_bool fun _ => rfl
  | byteArray =>
    refine pays_byteArray.map _ fun content => ?_
    cases content with
    | none => exact Nat.le_refl 0
    | some content => exact Nat.le_of_eq (breadth_byteItems content)
  | charArray => exact pays_items advances_char fun _ => rfl
  | shortArray => exact pays_items advances_short fun _ => rfl
  | intArray => exact pays_items advances_int fun _ => rfl
  | longArray => exact pays_items (advances_long.weaken (by decide)) fun _ => rfl
  | floatArray => exact pays_items advances_word fun _ => rfl
  | doubleArray => exact pays_items (advances_doubleWord.weaken (by decide)) fun _ => rfl
  | bigInteger => exact pays_orNull advances_byteArray fun _ => rfl
  | bigDecimal =>
    -- An absent integer ends the read; a present one is followed by its scale.
    refine .behind advances_byteArray fun content => ?_
    cases content with
    | none => exact .pure rfl
    | some unscaled => exact pays_scalar _ advances_int fun _ => rfl
  | size => exact .behind advances_int fun _ => pays_scalar _ advances_int fun _ => rfl
  | sizeF => exact .behind advances_word fun _ => pays_scalar _ advances_word fun _ => rfl
  | sparseBooleanArray =>
    have entry : Advances 1 (pair Read.int Read.bool) :=
      (advances_int.weaken (by decide)).andThen fun a =>
        (advances_bool.weaken (Nat.zero_le 4)).map fun b => (a, b)
    exact pays_counted (.nothing entry) entry
      fun entries => (widest_le_iff.mp (Nat.le_refl _)).1
  | bundle => exact pays_orNull advances_byteArray fun _ => rfl
  | persistableBundle => exact pays_orNull advances_byteArray fun _ => rfl
  | strongBinder => exact pays_orNull advances_byteArray fun _ => rfl
  | serializable => exact pays_orNull advances_byteArray fun _ => rfl
  | parcelable => exact .fail _
  | value => exact pays_tagged (.fail 0 _) (.fail _)

end Op

end ParcelCodec.Wire
