import ParcelCodec.Proofs.Wire.Tagged

/-!
# Writes that fail

A write only ever appends, so what was in a parcel before stays at its front.  Most writes look at
the whole value before they append anything, and leave nothing behind if they fail.  Not so a
tagged value that holds others: its tag is there before its first item is looked at, so whatever
fails below it leaves at least the tag behind.

Main statements: `Into.appends_tagged` and `failed_write_iff`.
-/

namespace ParcelCodec.Wire

variable {σ ε α β : Type}

/-! ## §1. Writes append. -/

namespace Into

/-- A write keeps what is in the parcel and appends to it, whether it succeeds or fails. -/
def Appends (x : Into σ ε α) : Prop := ∀ s, ∃ bytes, (x s).2.1 = s.1 ++ bytes

theorem Appends.pure (a : α) : Appends (Pure.pure a : Into σ ε α) :=
  fun _ => ⟨[], (List.append_nil _).symm⟩

theorem Appends.bind {x : Into σ ε α} {f : α → Into σ ε β} (hx : Appends x)
    (hf : ∀ a, Appends (f a)) : Appends (x >>= f) := by
  intro s
  obtain ⟨head, first⟩ := hx s
  rcases run : x s with ⟨e | a, between⟩
  · rw [run] at first
    exact ⟨head, by rw [Step.bind_error run, first]⟩
  · rw [run] at first
    obtain ⟨tail, second⟩ := hf a between
    exact ⟨head ++ tail, by rw [Step.bind_ok run, second, first, List.append_assoc]⟩

theorem appends_emit (x : Emission ε) : Appends (emit x : Into σ ε Unit) :=
  fun _ => ⟨x.bytes, rfl⟩

variable {bad : ε} {hook : Value → Into σ ε Unit}

mutual

/-- A tagged value is appended, as far as it gets. -/
theorem appends_tagged (hooks : ∀ v, Appends (hook v)) : ∀ v, Appends (tagged bad hook v)
  | .list items => by
    rw [tagged]
    exact (appends_emit _).bind fun _ => appends_taggedItems hooks items
  | .map entries => by
    rw [tagged]
    exact (appends_emit _).bind fun _ => appends_taggedEntries hooks entries
  | .object className fields => by
    rw [tagged]
    exact (appends_emit _).bind fun _ => hooks _
  | .singleton className => by
    rw [tagged]
    exact (appends_emit _).bind fun _ => hooks _
  | .null | .bool _ | .byte _ | .short _ | .char _ | .int _ | .long _ | .float _ | .double _
  | .string _ | .enumConstant _ | .bigInteger _ | .bigDecimal _ _ | .size _ _ | .sizeF _ _
  | .blob _ | .array _ | .set _ | .sparseArray _ | .sparseBooleanArray _ => by
    rw [tagged_of_flat rfl]
    exact appends_emit _

theorem appends_taggedItems (hooks : ∀ v, Appends (hook v)) :
    ∀ items, Appends (taggedItems bad hook items)
  | [] => .pure ()
  | v :: rest => by
    rw [taggedItems]
    exact (appends_tagged hooks v).bind fun _ => appends_taggedItems hooks rest

theorem appends_taggedEntries (hooks : ∀ v, Appends (hook v)) :
    ∀ entries, Appends (taggedEntries bad hook entries)
  | [] => .pure ()
  | (k, v) :: rest => by
    rw [taggedEntries]
    exact (appends_tagged hooks k).bind fun _ =>
      (appends_tagged hooks v).bind fun _ => appends_taggedEntries hooks rest

end

/-! ## §2. What a failure leaves behind. -/

/-- A hook appends what it writes, and leaves the parcel as it was if it fails. -/
structure Careful (hook : Value → Into σ ε Unit) : Prop where
  ok : ∀ {v s s'}, hook v s = (.ok (), s') → ∃ bytes, s'.1 = s.1 ++ bytes
  error : ∀ {v s e s'}, hook v s = (.error e, s') → s'.1 = s.1

theorem Careful.appends (careful : Careful hook) (v : Value) : Appends (hook v) := by
  intro s
  rcases run : hook v s with ⟨e | ⟨⟩, s'⟩
  · exact ⟨[], by rw [careful.error run, List.append_nil]⟩
  · exact careful.ok run

theorem careful_failing (e : ε) : Careful (fun _ => emit (.failed e) : Value → Into σ ε Unit) where
  ok run := by cases run
  error run := by
    rw [emit_failed] at run
    cases run
    rfl

/-- A write behind a head that is not empty changes the parcel. -/
theorem ne_of_emit_wrote {head : List UInt8} (something : head ≠ []) {x : Into σ ε Unit}
    (appends : Appends x) {s s' : List UInt8 × σ} {r : Except ε Unit}
    (run : (do emit (.wrote head); x) s = (r, s')) : s'.1 ≠ s.1 := by
  rw [Step.bind_ok (emit_wrote head s)] at run
  obtain ⟨tail, appended⟩ := appends (s.1 ++ head, s.2)
  rw [run, List.append_assoc] at appended
  intro same
  rw [same, List.self_eq_append_right, List.append_eq_nil_iff] at appended
  exact something appended.1

/-- A tag is not empty. -/
theorem int_append_ne_nil (tag : Int32) (rest : List UInt8) : Slot.int tag ++ rest ≠ [] := by
  intro empty
  have wide := congrArg List.length empty
  rw [List.length_append, length_int, List.length_nil] at wide
  omega

/-- A tagged value that holds others has appended its tag, whether it succeeds or fails. -/
theorem ne_of_holdsOthers (hooks : ∀ v, Appends (hook v)) {v : Value}
    (holds : v.holdsOthers = true) {s s' : List UInt8 × σ} {r : Except ε Unit}
    (run : tagged bad hook v s = (r, s')) : s'.1 ≠ s.1 := by
  cases v with
  | list items =>
    rw [tagged] at run
    exact ne_of_emit_wrote (int_append_ne_nil _ _) (appends_taggedItems hooks items) run
  | map entries =>
    rw [tagged] at run
    exact ne_of_emit_wrote (int_append_ne_nil _ _) (appends_taggedEntries hooks entries) run
  | object className fields =>
    rw [tagged] at run
    exact ne_of_emit_wrote (int_append_ne_nil Tag.instanceOf []) (hooks _) run
  | singleton className =>
    rw [tagged] at run
    exact ne_of_emit_wrote (int_append_ne_nil Tag.instanceOf []) (hooks _) run
  | _ => cases holds

/-- A value that holds no others is looked at before anything is appended. -/
theorem wrote_or_failed_of_flat (bad : ε) (hook : Value → Emission ε) {v : Value}
    (flat : v.holdsOthers = false) :
    (∃ bytes, Slot.tagged bad hook v = .wrote bytes) ∨ Slot.tagged bad hook v = .failed bad := by
  cases v with
  | list | map | object | singleton => cases flat
  | array items =>
    rw [Slot.tagged]
    cases Slot.bytesOfItems? items with
    | none => exact .inr rfl
    | some content => exact .inl ⟨_, rfl⟩
  | char | enumConstant | bigInteger | bigDecimal | size | sizeF | blob | set | sparseArray
  | sparseBooleanArray => exact .inr (by simp only [Slot.tagged])
  | _ => exact .inl ⟨_, by rw [Slot.tagged]⟩

/-- What is either appended whole or not at all leaves nothing behind when it fails. -/
theorem eq_of_emit_error {x : Emission ε} {e' : ε}
    (whole : (∃ bytes, x = .wrote bytes) ∨ x = .failed e') {s s' : List UInt8 × σ} {e : ε}
    (run : emit x s = (.error e, s')) : s'.1 = s.1 := by
  obtain ⟨bytes, rfl⟩ | rfl := whole
  · rw [emit_wrote] at run
    cases run
  · rw [emit_failed] at run
    cases run
    rfl

/-- A failing write of a tagged value leaves something behind exactly if the value holds others. -/
theorem eq_iff_of_tagged_error (careful : Careful hook) {v : Value} {s s' : List UInt8 × σ} {e : ε}
    (run : tagged bad hook v s = (.error e, s')) : s'.1 = s.1 ↔ v.holdsOthers = false := by
  constructor
  · intro same
    rw [← Bool.not_eq_true]
    exact fun holds => ne_of_holdsOthers careful.appends holds run same
  · intro flat
    rw [tagged_of_flat flat] at run
    exact eq_of_emit_error (wrote_or_failed_of_flat bad _ flat) run

end Into

/-- An operation that does not tag its value writes all of it or nothing. -/
theorem Op.wrote_or_failed {op : Op} (untagged : op ≠ .value) (v : Value) :
    (∃ bytes, op.write v = .wrote bytes) ∨ op.write v = .failed .malformed := by
  rw [Op.write_of_untagged untagged]
  cases op.bytes? v with
  | none => exact .inr rfl
  | some bytes => exact .inl ⟨bytes, rfl⟩

/-- What a failing write leaves in a parcel.  An operation leaves the parcel as it was, unless it
tags a value that holds others; and a tagged value, through any hook that leaves the parcel as it
was when it fails, does so exactly if it holds no others. -/
theorem failed_write_iff {before after : List UInt8} :
    (∀ (op : Op) (v : Value) (e : Malformed),
      Into.emit (op.write v) (before, ()) = (.error e, (after, ())) →
        (after = before ↔ ¬ (op = .value ∧ v.holdsOthers = true)))
      ∧ ∀ {σ ε : Type} (bad : ε) (hook : Value → Into σ ε Unit), Into.Careful hook →
        ∀ (v : Value) (m m' : σ) (e : ε),
          Into.tagged bad hook v (before, m) = (.error e, (after, m')) →
            (after = before ↔ v.holdsOthers = false) := by
  refine ⟨fun op v e failed => ?_, fun bad hook careful v m m' e failed =>
    Into.eq_iff_of_tagged_error careful failed⟩
  by_cases tags : op = .value
  · subst tags
    have written : Op.value.write v = Slot.tagged .malformed (fun _ => .failed .malformed) v := rfl
    rw [written, ← Into.tagged_emit] at failed
    rw [Into.eq_iff_of_tagged_error (Into.careful_failing _) failed]
    simp
  · have same : after = before := Into.eq_of_emit_error (Op.wrote_or_failed tags v) failed
    simp [same, tags]

theorem careful_writePoint : Into.Careful writePoint where
  ok {v s s'} run := by
    unfold writePoint at run
    cases place : placeOf? v with
    | none =>
      rw [place] at run
      cases run
    | some x =>
      rw [place] at run
      dsimp only at run
      split at run <;> cases run <;> exact ⟨_, rfl⟩
  error {v s e s'} run := by
    unfold writePoint at run
    cases place : placeOf? v with
    | none =>
      rw [place] at run
      cases run
      rfl
    | some x =>
      rw [place] at run
      dsimp only at run
      split at run <;> cases run

/-- A long number is no array of integers, and nothing is left of it; of a list of a point and a
character, the list's tag and number and the point are left. -/
theorem failed_write_iff_point :
    (Into.emit (Op.intArray.write (.array [.int 1, .long 1])) ([7], ())
        = (.error .malformed, ([7], ()))
      ∧ (([7] : List UInt8) = [7]
        ↔ ¬ (Op.intArray = .value ∧ (Value.array [.int 1, .long 1]).holdsOthers = true)))
    ∧ Into.Careful writePoint
    ∧ Into.tagged .malformed writePoint (.list [point 8, .char 65]) ([7], none)
      = (.error .malformed, ([7, 11, 0, 0, 0, 2, 0, 0, 0, 4, 0, 0, 0, 1, 0, 0, 0, 8, 0, 0, 0],
          some 8))
    ∧ (([7, 11, 0, 0, 0, 2, 0, 0, 0, 4, 0, 0, 0, 1, 0, 0, 0, 8, 0, 0, 0] : List UInt8) = [7]
      ↔ (Value.list [point 8, .char 65]).holdsOthers = false) := by
  have number : Into.emit (Op.intArray.write (.array [.int 1, .long 1])) ([7], ())
      = (.error .malformed, ([7], ())) := rfl
  have list : Into.tagged .malformed writePoint (.list [point 8, .char 65]) ([7], none)
      = (.error .malformed, ([7, 11, 0, 0, 0, 2, 0, 0, 0, 4, 0, 0, 0, 1, 0, 0, 0, 8, 0, 0, 0],
          some 8)) := rfl
  exact ⟨⟨number, failed_write_iff.1 _ _ _ number⟩, careful_writePoint, list,
    failed_write_iff.2 _ _ careful_writePoint _ _ _ _ list⟩

/-- A failing write of a list leaves its tag and its number of items behind the bytes that were
there. -/
theorem failed_list_left :
    Into.emit (Op.value.write (.list [.char 65])) ([7, 0, 0, 0], ())
      = (.error .malformed, ([7, 0, 0, 0, 11, 0, 0, 0, 1, 0, 0, 0], ())) := rfl

end ParcelCodec.Wire
