import ParcelCodec.Proofs.Wire.RoundTrip

/-!
# What an operation reads, it writes

Reading accepts more than one form of a slot: padding that is not zero, integers that are too wide
for what they stand for, lengths of absent contents behind a tag.  So the bytes that a value was
read from need not be those that it is written in; but there are such bytes, and they are read to
the same value.

Behind a tag this holds because every value there is laid out again (`Read.answers_plainTagged`),
and in any other slot because an operation reads what it holds, or null.  Null is where the two
sides part: one operation reads it and does not write it.

Main statements: `Read.answers_plainTagged` and `Op.rewritten_iff`.
-/

namespace ParcelCodec.Wire

variable {ε α : Type}

/-! ## §1. Values that can be tagged. -/

/-- A value without instances can be written behind its tag, and every length in it fits. -/
def Taggable (v : Value) : Prop :=
  AllFitting v.lengths ∧ ∃ bytes, Slot.plainTagged v = .wrote bytes

namespace AllFitting

theorem nil : AllFitting [] := nofun

theorem cons {n : Nat} {lengths : List Nat} (head : Fitting n) (tail : AllFitting lengths) :
    AllFitting (n :: lengths) := List.forall_mem_cons.mpr ⟨head, tail⟩

theorem append {lengths others : List Nat} (left : AllFitting lengths)
    (right : AllFitting others) : AllFitting (lengths ++ others) :=
  List.forall_mem_append.mpr ⟨left, right⟩

/-- No lengths stand in the items of a byte array. -/
theorem of_byteItems : ∀ content : List UInt8,
    AllFitting (Value.lengthsOfItems (Read.byteItems content))
  | [] => nil
  | _ :: rest => append nil (of_byteItems rest)

end AllFitting

namespace Taggable

/-- A value of fixed width. -/
theorem of_wide {v : Value} {bytes : List UInt8} (short : v.lengths = [])
    (wrote : Slot.plainTagged v = .wrote bytes) : Taggable v :=
  ⟨short ▸ .nil, bytes, wrote⟩

theorem string {s : String} (fits : FittingText s) : Taggable (.string s) :=
  ⟨.cons fits .nil, _, rfl⟩

theorem bytes {content : List UInt8} (fits : Fitting content.length) :
    Taggable (.array (Read.byteItems content)) := by
  refine ⟨.cons (by simpa [Read.byteItems] using fits) (.of_byteItems content), ?_⟩
  unfold Slot.plainTagged
  rw [Slot.tagged, bytesOfItems_byteItems]
  exact ⟨_, rfl⟩

/-- The items of a list are written one after another. -/
theorem items : ∀ {items : List Value}, (∀ v ∈ items, Taggable v) →
    AllFitting (Value.lengthsOfItems items)
      ∧ ∃ bytes, Slot.taggedItems Malformed.malformed (fun _ => .failed .malformed) items
        = .wrote bytes
  | [], _ => ⟨.nil, [], rfl⟩
  | v :: rest, h => by
    obtain ⟨fits, head, first⟩ := h v List.mem_cons_self
    obtain ⟨fits', tail, others⟩ := items fun w hw => h w (List.mem_cons_of_mem v hw)
    refine ⟨.append fits fits', head ++ tail, ?_⟩
    rw [Slot.taggedItems]
    exact Emission.andThen_eq_wrote.mpr ⟨head, tail, first, others, rfl⟩

/-- The entries of a map are written one after another. -/
theorem entries : ∀ {entries : List (Value × Value)},
    (∀ e ∈ entries, Taggable e.1 ∧ Taggable e.2) →
    AllFitting (Value.lengthsOfEntries entries)
      ∧ ∃ bytes, Slot.taggedEntries Malformed.malformed (fun _ => .failed .malformed) entries
        = .wrote bytes
  | [], _ => ⟨.nil, [], rfl⟩
  | (k, v) :: rest, h => by
    obtain ⟨⟨keyFits, front, key⟩, ⟨valueFits, back, value⟩⟩ := h (k, v) List.mem_cons_self
    obtain ⟨fits', tail, others⟩ := entries fun e he => h e (List.mem_cons_of_mem (k, v) he)
    refine ⟨.append (.append keyFits valueFits) fits', (front ++ back) ++ tail, ?_⟩
    rw [Slot.taggedEntries]
    have entry := Emission.andThen_eq_wrote.mpr ⟨front, back, key, value, rfl⟩
    exact Emission.andThen_eq_wrote.mpr ⟨front ++ back, tail, entry, others, rfl⟩

theorem list {values : List Value} (fits : Fitting values.length)
    (each : ∀ v ∈ values, Taggable v) : Taggable (.list values) := by
  obtain ⟨fits', tail, wrote⟩ := items each
  refine ⟨.cons fits fits', Slot.int Tag.list ++ Slot.length values.length ++ tail, ?_⟩
  unfold Slot.plainTagged
  rw [Slot.tagged]
  exact Emission.wrote_andThen_eq_wrote.mpr ⟨tail, wrote, rfl⟩

theorem map {pairs : List (Value × Value)} (fits : Fitting pairs.length)
    (each : ∀ e ∈ pairs, Taggable e.1 ∧ Taggable e.2) : Taggable (.map pairs) := by
  obtain ⟨fits', tail, wrote⟩ := entries each
  refine ⟨.cons fits fits', Slot.int Tag.map ++ Slot.length pairs.length ++ tail, ?_⟩
  unfold Slot.plainTagged
  rw [Slot.tagged]
  exact Emission.wrote_andThen_eq_wrote.mpr ⟨tail, wrote, rfl⟩

end Taggable

/-! ## §2. What stands behind a tag. -/

namespace Read

/-- A counted container answers null or what its items make up. -/
theorem answers_counted {bad : ε} {item : Step Cursor ε α} {wrap : List α → Value}
    {P : α → Prop} {Q : Value → Prop} (each : Answers item P) (null : Q .null)
    (wraps : ∀ items, Fitting items.length → (∀ a ∈ items, P a) → Q (wrap items)) :
    Answers (counted bad item wrap) Q := by
  refine answers_length.slot.bind fun n fits => ?_
  cases n with
  | none => exact .pure null
  | some n =>
    exact (each.replicate n).map wrap fun items h => wraps items (h.1 ▸ fits n rfl) h.2

theorem answers_pair {β : Type} {first : Step Cursor ε α} {second : Step Cursor ε β}
    {P : α → Prop} {Q : β → Prop} (hf : Answers first P) (hs : Answers second Q) :
    Answers (pair first second) fun p => P p.1 ∧ Q p.2 :=
  hf.bind fun a ha => hs.map (fun b => (a, b)) fun _ hb => ⟨ha, hb⟩

/-- What a tag announces can be tagged if the items and the instances can. -/
theorem answers_payload {bad : ε} {hook item : Step Cursor ε Value}
    (hh : Answers hook Taggable) (hi : Answers item Taggable) (tag : Int32) :
    Answers (payload bad hook item tag) Taggable := by
  have null : Taggable .null := .of_wide rfl rfl
  have text : ∀ {content : Option String}, (∀ s ∈ content, FittingText s) →
      Taggable ((content.map Value.string).getD .null) := by
    intro content fits
    cases content with
    | none => exact null
    | some s => exact .string (fits s rfl)
  have bytes : ∀ {content : Option (List UInt8)}, (∀ b ∈ content, Fitting b.length) →
      Taggable ((content.map fun b => Value.array (byteItems b)).getD .null) := by
    intro content fits
    cases content with
    | none => exact null
    | some b => exact .bytes (fits b rfl)
  unfold payload
  refine .ite (fun _ => .pure null) fun _ => ?_
  refine .ite (fun _ => answers_string.slot.map _ fun _ fits => text fits) fun _ => ?_
  refine .ite (fun _ => (Answers.any _).map _ fun _ _ => .of_wide rfl rfl) fun _ => ?_
  refine .ite (fun _ => (Answers.any _).map _ fun _ _ => .of_wide rfl rfl) fun _ => ?_
  refine .ite (fun _ => (Answers.any _).map _ fun _ _ => .of_wide rfl rfl) fun _ => ?_
  refine .ite (fun _ => (Answers.any _).map _ fun _ _ => .of_wide rfl rfl) fun _ => ?_
  refine .ite (fun _ => (Answers.any _).map _ fun _ _ => .of_wide rfl rfl) fun _ => ?_
  refine .ite (fun _ => (Answers.any _).map _ fun _ _ => .of_wide rfl rfl) fun _ => ?_
  refine .ite (fun _ => (Answers.any _).map _ fun _ _ => .of_wide rfl rfl) fun _ => ?_
  refine .ite (fun _ => answers_byteArray.slot.map _ fun _ fits => bytes fits) fun _ => ?_
  refine .ite (fun _ => answers_counted hi null fun _ => .list) fun _ => ?_
  refine .ite (fun _ => answers_counted (answers_pair hi hi) null fun _ => .map) fun _ => ?_
  exact .ite (fun _ => hh) fun _ => .fail bad

theorem answers_taggedWithin {bad : ε} {hook : Step Cursor ε Value} (hh : Answers hook Taggable) :
    ∀ depth, Answers (taggedWithin bad hook depth) Taggable
  | 0 => .fail bad
  | depth + 1 =>
    (Answers.any _).bind fun tag _ => answers_payload hh (answers_taggedWithin hh depth) tag

/-- Whatever is read behind a tag can be written behind one. -/
theorem answers_plainTagged : Answers plainTagged Taggable :=
  fun c => answers_taggedWithin (.fail _) _ c

end Read

/-! ## §3. Operations. -/

namespace Op

/-- The bytes that an operation takes are read to their end. -/
theorem read_ofBytes {op : Op} {v : Value} {bytes : List UInt8} (h : Takes op.read bytes v) :
    op.read (.ofBytes bytes) = (.ok v, ⟨bytes.length, []⟩) := by
  have whole := h 0 []
  rwa [List.append_nil, Nat.zero_add] at whole

/-- What an operation reads, it also writes, and reads again from what it wrote: all but a null
that stands for a text behind a marker. -/
theorem takes_of_read {op : Op} {c c' : Cursor} {v : Value} (read : op.read c = (.ok v, c'))
    (present : ¬ (op = .charSequence ∧ v = .null)) :
    ∃ bytes, op.write v = .wrote bytes ∧ Takes op.read bytes v := by
  by_cases fixed : op.isPolymorphic = false
  · have untagged : op ≠ .value := by
      rintro rfl
      cases fixed
    rcases (answers_read op fixed c).ok read with holds | ⟨rfl, null⟩
    · obtain ⟨bytes, laidOut, takes⟩ := takes_of_holds holds
      exact ⟨bytes, by rw [write_of_untagged untagged, laidOut], takes⟩
    · have null : op.writesNull = true := by
        unfold writesNull
        rw [null, Bool.true_and, bne_iff_ne]
        exact fun text => present ⟨text, rfl⟩
      obtain ⟨laidOut, takes⟩ := takes_null fixed null
      exact ⟨Slot.absent, by rw [write_of_untagged untagged, laidOut], takes⟩
  · cases op with
    | value =>
      obtain ⟨fits, bytes, wrote⟩ := (Read.answers_plainTagged c).ok read
      exact ⟨bytes, wrote, takes_of_write fits wrote⟩
    | parcelable => cases read
    | _ => exact absurd rfl fixed

/-- What an operation reads, at any place in any parcel, is a value that it writes into an empty
parcel, and reads again from there to the end; except for one: a text behind a marker may be read
as null and is not written as null. -/
theorem rewritten_iff {op : Op} {c c' : Cursor} {v : Value} (read : op.read c = (.ok v, c')) :
    (∃ bytes, op.write v = .wrote bytes
      ∧ op.read (.ofBytes bytes) = (.ok v, ⟨bytes.length, []⟩))
      ↔ ¬ (op = .charSequence ∧ v = .null) := by
  constructor
  · rintro ⟨bytes, wrote, -⟩ ⟨rfl, rfl⟩
    exact Emission.failed_ne_wrote _ bytes wrote
  · intro present
    obtain ⟨bytes, wrote, takes⟩ := takes_of_read read present
    exact ⟨bytes, wrote, read_ofBytes takes⟩

/-- A text of absent length behind the tag of a text is read as null, which is written behind the
tag of null. -/
theorem rewritten_iff_taggedText :
    Op.value.read ⟨3, [0, 0, 0, 0, 255, 255, 255, 255, 7]⟩ = (.ok .null, ⟨11, [7]⟩)
      ∧ ∃ bytes, Op.value.write .null = .wrote bytes
        ∧ Op.value.read (.ofBytes bytes) = (.ok .null, ⟨bytes.length, []⟩) := by
  have read : Op.value.read ⟨3, [0, 0, 0, 0, 255, 255, 255, 255, 7]⟩ = (.ok .null, ⟨11, [7]⟩) := by
    rfl
  exact ⟨read, (rewritten_iff read).mpr nofun⟩

/-- A text behind its marker is read as null where its length says so, and null is not written. -/
theorem charSequence_not_rewritten :
    Op.charSequence.read (.ofBytes [1, 0, 0, 0, 255, 255, 255, 255]) = (.ok .null, ⟨8, []⟩)
      ∧ Op.charSequence.write .null = .failed .malformed := by
  constructor <;> rfl

end Op

end ParcelCodec.Wire
