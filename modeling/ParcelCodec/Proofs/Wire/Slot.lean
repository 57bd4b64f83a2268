import ParcelCodec.Wire.Slot

/-!
# Slots read back

A read *takes* bytes for an answer if it answers so wherever these bytes stand ahead, whatever
stands behind them, and stops right behind them.  Reads that take bytes compose: what one read
after another takes are the bytes of the first and then those of the second.

Main statements: every slot's read takes what the slot writes, for fixed slots (`takes_word`,
`takes_int`, `takes_bool` and their like) and for slots of variable width (`takes_text`,
`takes_bytes`, `takes_array`), as long as a length fits its slot.
-/

namespace ParcelCodec.Wire

/-! ## §1. Reads that take bytes. -/

/-- A read answers `a` for these bytes, whatever stands behind them, and stops behind them. -/
def Takes {ε α : Type} (r : Step Cursor ε α) (bytes : List UInt8) (a : α) : Prop :=
  ∀ (i : Nat) (rest : List UInt8), r ⟨i, bytes ++ rest⟩ = (.ok a, ⟨i + bytes.length, rest⟩)

namespace Takes

variable {ε ε' α β : Type}

/-- An answer takes no bytes. -/
theorem pure (a : α) : Takes (Pure.pure a : Step Cursor ε α) [] a := by
  intro i rest
  simp

/-- One read after another takes the bytes of both. -/
theorem bind {x : Step Cursor ε α} {f : α → Step Cursor ε β} {first second : List UInt8} {a : α}
    {b : β} (hx : Takes x first a) (hf : Takes (f a) second b) :
    Takes (x >>= f) (first ++ second) b := by
  intro i rest
  rw [List.append_assoc, Step.bind_ok (hx i (second ++ rest)), hf]
  simp [Nat.add_assoc]

/-- What is made of an answer takes the same bytes. -/
theorem map {x : Step Cursor ε α} {bytes : List UInt8} {a : α} (f : α → β) (hx : Takes x bytes a) :
    Takes (do return f (← x)) bytes (f a) := by
  intro i rest
  rw [Step.bind_ok (hx i rest)]
  rfl

/-- Restating failures does not matter where nothing fails. -/
theorem mapError {x : Step Cursor ε α} {bytes : List UInt8} {a : α} (f : ε → ε')
    (hx : Takes x bytes a) : Takes (Step.mapError f x) bytes a := by
  intro i rest
  rw [Step.mapError_apply, hx]

theorem of_eq {x : Step Cursor ε α} {bytes bytes' : List UInt8} {a a' : α}
    (hx : Takes x bytes a) (hb : bytes = bytes') (ha : a = a') : Takes x bytes' a' := by
  subst hb ha
  exact hx

/-- A run of reads takes the bytes of its items, one after another. -/
theorem replicate {x : Step Cursor ε α} {bytes : α → List UInt8} :
    ∀ (items : List α), (∀ a ∈ items, Takes x (bytes a) a) →
      Takes (Step.replicate items.length x) (items.flatMap bytes) items
  | [], _ => pure []
  | a :: rest, h => by
    have head := h a List.mem_cons_self
    have tail := replicate rest fun b hb => h b (List.mem_cons_of_mem a hb)
    exact head.bind (tail.map (a :: ·))

end Takes

/-- A read answers `a` for these bytes where they stand, in front of given others, and stops behind
them. -/
def TakesBefore {ε α : Type} (behind : List UInt8) (r : Step Cursor ε α) (bytes : List UInt8)
    (a : α) : Prop :=
  ∀ i : Nat, r ⟨i, bytes ++ behind⟩ = (.ok a, ⟨i + bytes.length, behind⟩)

namespace TakesBefore

variable {ε α β : Type} {behind : List UInt8}

/-- What is read with anything behind it is read with this behind it. -/
theorem of_takes {r : Step Cursor ε α} {bytes : List UInt8} {a : α} (h : Takes r bytes a) :
    TakesBefore behind r bytes a :=
  fun i => h i behind

/-- One read after another takes the bytes of both; the first of them stands in front of more. -/
theorem bind {x : Step Cursor ε α} {f : α → Step Cursor ε β} {first second : List UInt8} {a : α}
    {b : β} (hx : TakesBefore (second ++ behind) x first a) (hf : TakesBefore behind (f a) second b) :
    TakesBefore behind (x >>= f) (first ++ second) b := by
  intro i
  rw [List.append_assoc, Step.bind_ok (hx i), hf, List.length_append, Nat.add_assoc]

theorem map {x : Step Cursor ε α} {bytes : List UInt8} {a : α} (f : α → β)
    (hx : TakesBefore behind x bytes a) : TakesBefore behind (do return f (← x)) bytes (f a) := by
  intro i
  rw [Step.bind_ok (hx i)]
  rfl

end TakesBefore

/-! ## §2. Fixed slots. -/

/-- As many bytes as there are in a content are that content. -/
theorem Read.takes_bytes_of_length {content : List UInt8} {n : Nat} (h : content.length = n) :
    Takes (Read.bytes n) content content := by
  intro i rest
  subst h
  exact Read.bytes_append i content rest

/-- The contents of fixed width are read back from their slots. -/
theorem takes_word (w : UInt32) : Takes Read.word (Slot.word w) w := by
  have small : w.toNat < Nat.pow 256 4 := w.toNat_lt
  have back : UInt32.ofNat (littleEndian (bytesOf 4 w.toNat)) = w := by
    rw [littleEndian_bytesOf, Nat.mod_eq_of_lt small, UInt32.ofNat_toNat]
  exact ((Read.takes_bytes_of_length (length_bytesOf 4 w.toNat)).map
    fun bs => UInt32.ofNat (littleEndian bs)).of_eq rfl back

theorem takes_doubleWord (w : UInt64) : Takes Read.doubleWord (Slot.doubleWord w) w := by
  have small : w.toNat < Nat.pow 256 8 := w.toNat_lt
  have back : UInt64.ofNat (littleEndian (bytesOf 8 w.toNat)) = w := by
    rw [littleEndian_bytesOf, Nat.mod_eq_of_lt small, UInt64.ofNat_toNat]
  exact ((Read.takes_bytes_of_length (length_bytesOf 8 w.toNat)).map
    fun bs => UInt64.ofNat (littleEndian bs)).of_eq rfl back

theorem takes_int (n : Int32) : Takes Read.int (Slot.int n) n :=
  ((takes_word n.toUInt32).map UInt32.toInt32).of_eq rfl (by simp)

theorem takes_long (n : Int64) : Takes Read.long (Slot.long n) n :=
  ((takes_doubleWord n.toUInt64).map UInt64.toInt64).of_eq rfl (by simp)

theorem takes_byte (n : Int8) : Takes Read.byte (Slot.byte n) n :=
  ((takes_int n.toInt32).map Int32.toInt8).of_eq rfl (by simp)

theorem takes_short (n : Int16) : Takes Read.short (Slot.short n) n :=
  ((takes_int n.toInt32).map Int32.toInt16).of_eq rfl (by simp)

theorem takes_char (u : UInt16) : Takes Read.char (Slot.char u) u :=
  ((takes_word u.toUInt32).map UInt32.toUInt16).of_eq rfl (by simp)

theorem takes_bool (b : Bool) : Takes Read.bool (Slot.bool b) b := by
  intro i rest
  cases b
  · exact Step.bind_ok (takes_int 0 i rest)
  · exact Step.bind_ok (takes_int 1 i rest)

/-! ## §3. Slots of variable width. -/

/-- A length that fits its slot: the lengths from `2 ^ 31` on would read as negative numbers. -/
def Fitting (n : Nat) : Prop := n < 0x80000000

instance (n : Nat) : Decidable (Fitting n) := inferInstanceAs (Decidable (n < 0x80000000))

/-- A smaller number fits as well. -/
theorem Fitting.of_le {m n : Nat} (fits : Fitting n) (h : m ≤ n) : Fitting m :=
  Nat.lt_of_le_of_lt h fits

/-- What a length slot holds, as an integer. -/
theorem toInt_ofNat_of_fitting {n : Nat} (h : Fitting n) : (Int32.ofNat n).toInt = n := by
  unfold Fitting at h
  exact Int32.toInt_ofNat_of_lt (by omega)

/-- A length is written like an integer. -/
theorem length_eq_int {n : Nat} : Slot.length n = Slot.int (Int32.ofNat n) := by
  unfold Slot.length Slot.int
  congr 1

/-- A length that fits is read back as present. -/
theorem takes_length {n : Nat} (h : Fitting n) : Takes Read.length (Slot.length n) (some n) := by
  intro i rest
  have value := toInt_ofNat_of_fitting h
  have nonneg : ¬ Int32.ofNat n < 0 := by
    rw [Int32.lt_iff_toInt_lt, value]
    exact Int.not_lt.mpr (Int.natCast_nonneg n)
  have present : Int32.ofNat n ≠ -1 := by
    intro e
    rw [e] at value
    have : (-1 : Int32).toInt = -1 := rfl
    omega
  rw [length_eq_int]
  unfold Read.length
  rw [Step.bind_ok (takes_int (Int32.ofNat n) i rest), if_neg present, if_neg nonneg, value]
  simp

/-- Padding is skipped. -/
theorem takes_padding (n : Nat) : Takes (Read.padding n) (Slot.padding n) () := by
  have h : (Slot.padding n).length = slotWidth n - n := by simp [Slot.padding]
  exact (Read.takes_bytes_of_length h).map fun _ => ()

/-- Bytes are read back, if their number fits. -/
theorem takes_bytes {content : List UInt8} (h : Fitting content.length) :
    Takes Read.byteArray (Slot.bytes content) (some content) := by
  unfold Slot.bytes
  rw [List.append_assoc]
  refine (takes_length h).bind ?_
  refine (Read.takes_bytes_of_length rfl).bind ?_
  exact (takes_padding content.length).map fun _ => some content

/-- The bytes of units, two bytes each. -/
def unitBytes (us : List UInt16) : List UInt8 := us.flatMap fun u => bytesOf 2 u.toNat

theorem unitBytes_cons (u : UInt16) (us : List UInt16) :
    unitBytes (u :: us) = UInt8.ofNat u.toNat :: UInt8.ofNat (u.toNat / 256) :: unitBytes us := rfl

/-- Units written two bytes each read back. -/
theorem units_unitBytes_append (us : List UInt16) (rest : List UInt8) :
    Read.units (unitBytes us ++ rest) = us ++ Read.units rest := by
  induction us with
  | nil => rfl
  | cons u us ih =>
    have low : (UInt8.ofNat u.toNat).toNat = u.toNat % 256 := by simp
    have high : (UInt8.ofNat (u.toNat / 256)).toNat = u.toNat / 256 := by
      have := u.toNat_lt
      rw [UInt8.toNat_ofNat']
      omega
    rw [unitBytes_cons, List.cons_append, List.cons_append, Read.units, ih, low, high,
      Nat.mod_add_div, UInt16.ofNat_toNat, List.cons_append]

/-- Each unit takes two bytes. -/
theorem length_unitBytes (us : List UInt16) : (unitBytes us).length = us.length * 2 := by
  induction us with
  | nil => rfl
  | cons u us ih =>
    rw [unitBytes_cons, List.length_cons, List.length_cons, ih, List.length_cons]
    omega

/-- A text reads back: its units, the zero unit behind them, and the padding. -/
theorem takes_text {s : String} (h : Fitting (Text.Utf16.encode s.toList).length) :
    Takes Read.string (Slot.text s) (some s) := by
  obtain ⟨us, encoded⟩ : ∃ us, us = Text.Utf16.encode s.toList := ⟨_, rfl⟩
  have width : (unitBytes us ++ [0, 0]).length = (us.length + 1) * 2 := by
    rw [List.length_append, length_unitBytes]
    simp only [List.length_cons, List.length_nil]
    omega
  have units : Read.units (unitBytes us ++ [0, 0]) = us ++ [0] := units_unitBytes_append us [0, 0]
  have last : (us ++ [0])[us.length]? = some 0 := by simp
  have decoded : Text.Utf16.decode ((us ++ [0]).take us.length) = some s.toList := by
    rw [List.take_left, encoded, Text.Utf16.decode_encode]
  have shape : Slot.text s
      = Slot.length us.length
        ++ ((unitBytes us ++ [0, 0]) ++ (Slot.padding ((us.length + 1) * 2) ++ [])) := by
    simp [Slot.text, unitBytes, encoded]
  rw [shape]
  rw [← encoded] at h
  refine (takes_length h).bind ((Read.takes_bytes_of_length width).bind ?_)
  simp only [units, last, if_true]
  refine (takes_padding ((us.length + 1) * 2)).bind ?_
  simp only [decoded, String.ofList_toList]
  exact Takes.pure (some s)

/-- A read of a counted run goes on to its slots if enough bytes are left. -/
theorem takes_array {α : Type} {read : Read α} {element : α → List UInt8} {items : List α}
    (each : ∀ a, Takes read (element a) a) (wide : ∀ a, 0 < (element a).length)
    (h : Fitting items.length) :
    Takes (Read.array read) (Slot.array element items) (some items) := by
  have enough : ∀ items : List α, items.length ≤ (items.flatMap element).length := by
    intro items
    induction items with
    | nil => exact Nat.le_refl 0
    | cons a rest ih =>
      have := wide a
      rw [List.flatMap_cons, List.length_append, List.length_cons]
      omega
  refine (takes_length h).bind ?_
  intro i rest
  have left : ¬ (Cursor.mk i (items.flatMap element ++ rest)).remaining < items.length := by
    have := enough items
    unfold Cursor.remaining
    rw [List.length_append]
    omega
  show (Step.get >>= _) _ = _
  rw [Step.get_bind, if_neg left]
  exact ((Takes.replicate items fun a _ => each a).map some) i rest

end ParcelCodec.Wire
