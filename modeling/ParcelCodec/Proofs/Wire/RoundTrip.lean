import ParcelCodec.Proofs.Wire.Tagged

/-!
# What an operation writes, it reads back

A written slot does not say where it stands: the same bytes are read back behind anything that was
written before and in front of anything that follows.  So the round trip is one statement about
bytes that a read takes (`Takes`), and a place in a parcel is put around it at the end.

One limit is real: a length slot holds no more than `2 ^ 31 - 1`, so every length in the value has
to fit.

Main statements:
  * `Op.holds_of_bytes?`: whatever an operation lays out is null or a value that it holds;
  * `Op.takes_of_write`: what an operation writes, it reads back;
  * `Op.read_of_write`: the same at any place in a parcel.
-/

namespace ParcelCodec

namespace Wire

/-! ## §1. Operations. -/

namespace Op

/-- An operation that does not tag its value writes the layout that it has for it. -/
theorem bytes?_of_write {op : Op} (untagged : op ≠ .value) {v : Value} {bytes : List UInt8}
    (h : op.write v = .wrote bytes) : op.bytes? v = some bytes := by
  rw [write_of_untagged untagged] at h
  rcases hb : op.bytes? v with _ | layout
  · rw [hb] at h
    exact absurd h (Emission.failed_ne_wrote _ bytes)
  · rw [hb] at h
    exact congrArg some (congrArg Emission.bytes h)

/-- An array that was laid out as scalars holds the scalars. -/
theorem holds_array {α : Type} {op : Op} {pick : Value → Option α} {wrap : α → Value}
    {element : α → List UInt8} {items : List Value} {bytes : List UInt8}
    (picks : ∀ v a, pick v = some a → v = wrap a)
    (holds : ∀ {values : List α}, Fitting values.length → op.Holds (.array (values.map wrap)))
    (fits : AllFitting (Value.array items).lengths)
    (h : arrayBytes? pick element items = some bytes) : op.Holds (.array items) := by
  obtain ⟨values, picked, -⟩ := Option.map_eq_some_iff.mp h
  rw [Value.lengths] at fits
  cases map_of_mapM_pick wrap picks picked
  exact holds (by simpa using fits.head)

/-- Whatever an operation lays out is null or a value that it holds. -/
theorem holds_of_bytes? {op : Op} {v : Value} {bytes : List UInt8} (fits : AllFitting v.lengths)
    (h : op.bytes? v = some bytes) : v = .null ∨ op.Holds v := by
  cases op with
  -- A scalar has no layout for null, so its own values are the only ones laid out.
  | boolean => cases v with | bool b => exact .inr (.boolean b) | _ => cases h
  | byte => cases v with | byte n => exact .inr (.byte n) | _ => cases h
  | short => cases v with | short n => exact .inr (.short n) | _ => cases h
  | char => cases v with | char u => exact .inr (.char u) | _ => cases h
  | int => cases v with | int n => exact .inr (.int n) | _ => cases h
  | long => cases v with | long n => exact .inr (.long n) | _ => cases h
  | float => cases v with | float w => exact .inr (.float w) | _ => cases h
  | double => cases v with | double w => exact .inr (.double w) | _ => cases h
  | size => cases v with | size width height => exact .inr (.size width height) | _ => cases h
  | sizeF => cases v with | sizeF width height => exact .inr (.sizeF width height) | _ => cases h
  | charSequence =>
    cases v with | string s => exact .inr (.charSequence fits.head) | _ => cases h
  | string =>
    cases v with
    | null => exact .inl rfl
    | string s => exact .inr (.string fits.head)
    | _ => cases h
  | bigInteger =>
    cases v with
    | null => exact .inl rfl
    | bigInteger content => exact .inr (.bigInteger fits.head)
    | _ => cases h
  | bigDecimal =>
    cases v with
    | null => exact .inl rfl
    | bigDecimal unscaled scale => exact .inr (.bigDecimal scale fits.head)
    | _ => cases h
  | sparseBooleanArray =>
    cases v with
    | null => exact .inl rfl
    | sparseBooleanArray entries => exact .inr (.sparseBooleanArray fits.head)
    | _ => cases h
  | bundle | persistableBundle | strongBinder | serializable =>
    cases v with
    | null => exact .inl rfl
    | blob content => exact .inr (by constructor; exact fits.head)
    | _ => cases h
  | byteArray =>
    cases v with
    | null => exact .inl rfl
    | array items =>
      obtain ⟨content, picked, -⟩ := Option.map_eq_some_iff.mp h
      cases byteItems_of_bytesOfItems picked
      exact .inr (.byteArray (by simpa [Read.byteItems] using fits.head))
    | _ => cases h
  | booleanArray =>
    cases v with
    | null => exact .inl rfl
    | array items =>
      exact .inr (holds_array (fun v _ hv => by cases v <;> cases hv; rfl) .booleanArray fits h)
    | _ => cases h
  | charArray =>
    cases v with
    | null => exact .inl rfl
    | array items =>
      exact .inr (holds_array (fun v _ hv => by cases v <;> cases hv; rfl) .charArray fits h)
    | _ => cases h
  | shortArray =>
    cases v with
    | null => exact .inl rfl
    | array items =>
      exact .inr (holds_array (fun v _ hv => by cases v <;> cases hv; rfl) .shortArray fits h)
    | _ => cases h
  | intArray =>
    cases v with
    | null => exact .inl rfl
    | array items =>
      exact .inr (holds_array (fun v _ hv => by cases v <;> cases hv; rfl) .intArray fits h)
    | _ => cases h
  | longArray =>
    cases v with
    | null => exact .inl rfl
    | array items =>
      exact .inr (holds_array (fun v _ hv => by cases v <;> cases hv; rfl) .longArray fits h)
    | _ => cases h
  | floatArray =>
    cases v with
    | null => exact .inl rfl
    | array items =>
      exact .inr (holds_array (fun v _ hv => by cases v <;> cases hv; rfl) .floatArray fits h)
    | _ => cases h
  | doubleArray =>
    cases v with
    | null => exact .inl rfl
    | array items =>
      exact .inr (holds_array (fun v _ hv => by cases v <;> cases hv; rfl) .doubleArray fits h)
    | _ => cases h
  | parcelable => cases h
  | value => cases h

/-- What an operation writes, it reads back: null where it writes null, and otherwise what it
holds or tags. -/
theorem takes_of_write {op : Op} {v : Value} {bytes : List UInt8} (fits : AllFitting v.lengths)
    (h : op.write v = .wrote bytes) : Takes op.read bytes v := by
  by_cases tagged : op = .value
  · subst tagged
    -- Both hooks fail, so there is nothing for the one to take from the other.
    exact takes_tagged (fun _ bytes _ written => absurd written (Emission.failed_ne_wrote _ bytes))
      fits h
  · have written : op.bytes? v = some bytes := bytes?_of_write tagged h
    have fixed : op.isPolymorphic = false := by
      cases op with
      | value => contradiction
      | parcelable => cases written
      | _ => rfl
    rcases holds_of_bytes? fits written with rfl | holds
    · have null : op.writesNull = true := by
        rw [← bytes?_null op fixed, written]
        rfl
      obtain ⟨absent, takes⟩ := takes_null fixed null
      rw [written] at absent
      cases absent
      exact takes
    · obtain ⟨bytes', laidOut, takes⟩ := takes_of_holds holds
      rw [written] at laidOut
      cases laidOut
      exact takes

end Op

/-! ## §2. At any place in a parcel. -/

/-- The cursor at an index of a parcel. -/
def Cursor.atIndex (data : List UInt8) (index : Nat) : Cursor := ⟨index, data.drop index⟩

/-- Bytes that a read takes are taken wherever they stand in a parcel. -/
theorem Takes.atIndex {ε α : Type} {r : Step Cursor ε α} {bytes : List UInt8} {a : α}
    (h : Takes r bytes a) (before after : List UInt8) :
    r (.atIndex (before ++ bytes ++ after) before.length)
      = (.ok a, .atIndex (before ++ bytes ++ after) (before.length + bytes.length)) := by
  have behind : (before ++ bytes ++ after).drop (before.length + bytes.length) = after := by
    rw [← List.length_append, List.drop_left]
  unfold Cursor.atIndex
  rw [behind, List.append_assoc, List.drop_left]
  exact h before.length after

/-- An operation reads back what it wrote, at the place where it was written: behind any bytes
that were in the parcel already and in front of any that follow.  It answers the same value, with
floating-point numbers compared as words, and moves by exactly the bytes that were written. -/
theorem Op.read_of_write {op : Op} {v : Value} {bytes : List UInt8}
    (fits : ∀ n ∈ v.lengths, n < 2 ^ 31) (written : op.write v = .wrote bytes)
    (before after : List UInt8) :
    op.read (.atIndex (before ++ bytes ++ after) before.length)
      = (.ok v, .atIndex (before ++ bytes ++ after) (before.length + bytes.length)) :=
  (takes_of_write fits written).atIndex before after

/-- A map whose key repeats, a text with a zero unit and a pair of surrogates in it; the first of
the two values lists a signalling not-a-number and minus one in every width of integer. -/
def mixedEntries : Value :=
  .map [
    (.string "a\x00𝄞",
      .list [.float 0x7fa00001, .byte (-1), .short (-1), .int (-1), .long (-1)]),
    (.string "a\x00𝄞", .list [])]

/-- Tagged values nest and stand at odd places. -/
theorem Op.read_of_write_mixedEntries :
    (∀ n ∈ mixedEntries.lengths, n < 2 ^ 31)
      ∧ Op.value.write mixedEntries = .wrote (Op.value.write mixedEntries).bytes
      ∧ Op.value.read (.atIndex ([1, 2, 3] ++ (Op.value.write mixedEntries).bytes ++ [4]) 3)
        = (.ok mixedEntries, .atIndex ([1, 2, 3] ++ (Op.value.write mixedEntries).bytes ++ [4])
            (3 + (Op.value.write mixedEntries).bytes.length)) := by
  have fits : ∀ n ∈ mixedEntries.lengths, n < 2 ^ 31 := by decide
  have written : Op.value.write mixedEntries = .wrote (Op.value.write mixedEntries).bytes := by rfl
  exact ⟨fits, written, read_of_write fits written [1, 2, 3] [4]⟩

end Wire

end ParcelCodec
