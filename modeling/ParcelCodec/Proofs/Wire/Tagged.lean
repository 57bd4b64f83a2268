import Mathlib.Algebra.Group.Nat.Defs
import ParcelCodec.Proofs.Wire.Answers
import ParcelCodec.Proofs.Wire.Emission
import ParcelCodec.Proofs.Wire.Hook

/-!
# Tagged values read back

A tagged value reads back as far as the hooks do to which its instances are handed: where one hook
reads back whatever the other one appends, a tagged value is read back through the first from what
was written through the second.  Both hooks may remember what they like from one instance to the
next.  A relation says which memories are in step, and the hooks have to agree only in step: so a
hook may leave out what the other one can tell from the instances before.

Two limits are real.  A length slot holds no more than `2 ^ 31 - 1`, so every length in the value
has to fit; and the hooks have to agree (`Inverts`).  Nesting is no limit: a tagged value spends
its tag before its first item, so it nests less deep than it has bytes.

Main statements: `Into.takes_of_tagged`, `takes_tagged` and `tagged_of_inverts`.
-/

namespace ParcelCodec

/-! ## §1. The lengths in a value. -/

namespace Value

mutual

/-- Every length in a value, at any depth: the code units of its texts, the bytes of its payloads,
and the elements of its containers. -/
def lengths : Value → List Nat
  | .string s | .enumConstant s | .singleton s => [(Text.Utf16.encode s.toList).length]
  | .bigInteger bytes | .bigDecimal bytes _ | .blob bytes => [bytes.length]
  | .array items | .list items | .set items => items.length :: lengthsOfItems items
  | .map entries => entries.length :: lengthsOfEntries entries
  | .sparseArray entries => entries.length :: lengthsOfSparse entries
  | .sparseBooleanArray entries => [entries.length]
  | .object className fields =>
    (Text.Utf16.encode className.toList).length :: lengthsOfFields fields
  | _ => []

/-- The lengths in the elements of a sequence. -/
def lengthsOfItems : List Value → List Nat
  | [] => []
  | v :: rest => v.lengths ++ lengthsOfItems rest

/-- The lengths in the entries of a map. -/
def lengthsOfEntries : List (Value × Value) → List Nat
  | [] => []
  | (k, v) :: rest => k.lengths ++ v.lengths ++ lengthsOfEntries rest

/-- The lengths in the entries of a sparse array. -/
def lengthsOfSparse : List (Int32 × Value) → List Nat
  | [] => []
  | (_, v) :: rest => v.lengths ++ lengthsOfSparse rest

/-- The lengths in the fields of an instance. -/
def lengthsOfFields : List (String × Value) → List Nat
  | [] => []
  | (_, v) :: rest => v.lengths ++ lengthsOfFields rest

end

end Value

namespace Wire

/-- All of some lengths fit their slots. -/
def AllFitting (lengths : List Nat) : Prop := ∀ n ∈ lengths, Fitting n

instance (lengths : List Nat) : Decidable (AllFitting lengths) :=
  inferInstanceAs (Decidable (∀ n ∈ lengths, Fitting n))

namespace AllFitting

variable {n : Nat} {lengths others : List Nat}

theorem head (h : AllFitting (n :: lengths)) : Fitting n := h n List.mem_cons_self

theorem tail (h : AllFitting (n :: lengths)) : AllFitting lengths :=
  fun m hm => h m (List.mem_cons_of_mem n hm)

theorem left (h : AllFitting (lengths ++ others)) : AllFitting lengths :=
  fun m hm => h m (List.mem_append_left others hm)

theorem right (h : AllFitting (lengths ++ others)) : AllFitting others :=
  fun m hm => h m (List.mem_append_right lengths hm)

end AllFitting

variable {σ τ ε ε' α β : Type}

/-! ## §2. Reads beside a memory. -/

namespace Beside

/-- Whatever is remembered in step with a writer that remembers `m`, a read answers `a` for these
bytes, whatever follows them, stops behind them, and goes on in step with a writer that remembers
`m'`.  `R` says which memories are in step. -/
def Takes (R : σ → τ → Prop) (m m' : σ) (r : Beside τ ε α) (bytes : List UInt8) (a : α) : Prop :=
  ∀ (i : Nat) (rest : List UInt8) (t : τ), R m t →
    ∃ t', R m' t' ∧ r (⟨i, bytes ++ rest⟩, t) = (.ok a, (⟨i + bytes.length, rest⟩, t'))

variable {R : σ → τ → Prop} {m m' m'' : σ}

namespace Takes

theorem pure (a : α) : Takes R m m (Pure.pure a : Beside τ ε α) [] a :=
  fun _ _ t instep => ⟨t, instep, rfl⟩

/-- One read after another takes the bytes of both. -/
theorem bind {x : Beside τ ε α} {f : α → Beside τ ε β} {first second : List UInt8} {a : α} {b : β}
    (hx : Takes R m m' x first a) (hf : Takes R m' m'' (f a) second b) :
    Takes R m m'' (x >>= f) (first ++ second) b := by
  intro i rest t instep
  obtain ⟨between, instep, taken⟩ := hx i (second ++ rest) t instep
  obtain ⟨t', instep, taken'⟩ := hf (i + first.length) rest between instep
  refine ⟨t', instep, ?_⟩
  rw [List.append_assoc, Step.bind_ok taken, taken', List.length_append, Nat.add_assoc]

theorem map {x : Beside τ ε α} {bytes : List UInt8} {a : α} (f : α → β)
    (hx : Takes R m m' x bytes a) : Takes R m m' (do return f (← x)) bytes (f a) := by
  intro i rest t instep
  obtain ⟨t', instep, taken⟩ := hx i rest t instep
  refine ⟨t', instep, ?_⟩
  rw [Step.bind_ok taken]
  rfl

/-- What is read without a memory is read beside any. -/
theorem lift {x : Step Cursor ε α} {bytes : List UInt8} {a : α} (hx : Wire.Takes x bytes a) :
    Takes R m m (Beside.lift x : Beside τ ε α) bytes a := by
  intro i rest t instep
  refine ⟨t, instep, ?_⟩
  rw [lift_apply, hx]

end Takes

/-- What a lifted read answers, it answers without the memory. -/
theorem eq_of_lift {x : Step Cursor ε α} {c c' : Cursor} {t t' : τ} {r : Except ε α}
    (h : lift x (c, t) = (r, (c', t'))) : x c = (r, c') := by
  cases h
  rfl

variable {bad : ε} {hook : Beside τ ε Value}

/-- A tag is read before what it announces.  Its own bytes make up for the level that the items
behind it stand deeper. -/
theorem takes_taggedWithin {tag : Int32} {content : List UInt8} {v : Value}
    (h : ∀ depth, content.length < depth →
      Takes R m m' (payload bad hook (taggedWithin bad hook depth) tag) content v)
    (depth : Nat) (deep : (Slot.int tag ++ content).length < depth) :
    Takes R m m' (taggedWithin bad hook depth) (Slot.int tag ++ content) v := by
  obtain ⟨depth, rfl⟩ : ∃ n, depth = n + 1 := ⟨depth - 1, by omega⟩
  have shallower : content.length < depth := by
    rw [List.length_append, length_int] at deep
    omega
  exact (Takes.lift (takes_slot (takes_int tag))).bind (h depth shallower)

/-- A read of a counted container goes on to its items. -/
theorem takes_counted {item : Beside τ ε α} {wrap : List α → Value} {items : List α}
    {content : List UInt8} (fits : Fitting items.length)
    (h : Takes R m m' (Step.replicate items.length item) content items) :
    Takes R m m' (counted bad item wrap) (Slot.length items.length ++ content) (wrap items) :=
  (Takes.lift (takes_slot (takes_length fits))).bind (h.map wrap)

theorem takes_pair {first : Beside τ ε α} {second : Beside τ ε β} {bytes bytes' : List UInt8}
    {a : α} {b : β} (hf : Takes R m m' first bytes a) (hs : Takes R m' m'' second bytes' b) :
    Takes R m m'' (pair first second) (bytes ++ bytes') (a, b) :=
  hf.bind (hs.map fun b => (a, b))

/-- The bytes ahead bound the depth. -/
theorem takes_tagged_of_deep {bytes : List UInt8} {v : Value}
    (h : ∀ depth, bytes.length < depth → Takes R m m' (taggedWithin bad hook depth) bytes v) :
    Takes R m m' (tagged bad hook) bytes v := by
  intro i rest t instep
  refine h ((bytes ++ rest).length + 1) ?_ i rest t instep
  rw [List.length_append]
  omega

end Beside

/-! ## §3. Values that hold no others. -/

/-- Items that were all picked out are the wrapped results. -/
theorem map_of_mapM_pick {pick : Value → Option α} (wrap : α → Value)
    (picks : ∀ v a, pick v = some a → v = wrap a) {items : List Value} {picked : List α}
    (h : items.mapM pick = some picked) : items = picked.map wrap := by
  induction items generalizing picked with
  | nil =>
    cases h
    rfl
  | cons v rest ih =>
    rw [List.mapM_cons, Option.bind_eq_bind, Option.bind_eq_some_iff] at h
    obtain ⟨a, first, h⟩ := h
    rw [Option.bind_eq_bind, Option.bind_eq_some_iff] at h
    obtain ⟨others, found, h⟩ := h
    cases h
    rw [List.map_cons, ← ih found, ← picks v a first]

/-- The items of an array of bytes are its bytes. -/
theorem byteItems_of_bytesOfItems {items : List Value} {content : List UInt8}
    (h : Slot.bytesOfItems? items = some content) : items = Read.byteItems content := by
  refine map_of_mapM_pick (fun b => .byte b.toInt8) (fun v b hb => ?_) h
  cases v with
  | byte n =>
    cases hb
    simp
  | _ => cases hb

/-- A tag that announces no other tagged values. -/
def Tag.isPlain (tag : Int32) : Bool := tag != list && tag != map && tag != instanceOf

/-- Behind a tag that announces no other tagged values, no hook is asked. -/
theorem Beside.payload_of_isPlain {bad : ε} {hook item : Beside τ ε Value} {tag : Int32}
    (plain : Tag.isPlain tag = true) :
    payload bad hook item tag = lift (Read.payload bad (Step.fail bad) (Step.fail bad) tag) := by
  simp only [Tag.isPlain, Bool.and_eq_true, bne_iff_ne, ne_eq] at plain
  obtain ⟨⟨list, map⟩, instanceOf⟩ := plain
  rw [payload, if_neg list, if_neg map, if_neg instanceOf]

/-- What an emission appended, if it succeeded. -/
theorem Into.eq_wrote_of_emit {e : Emission ε} {s s' : List UInt8 × σ}
    (h : emit e s = (.ok (), s')) : ∃ bytes, e = .wrote bytes ∧ s' = (s.1 ++ bytes, s.2) := by
  obtain ⟨bytes, _ | failure⟩ := e
  · cases h
    exact ⟨bytes, rfl, rfl⟩
  · cases h

/-- A value that holds no others stands behind a tag that announces none. -/
theorem exists_payload_of_tagged {bad : ε} (bad' : ε') {v : Value} (flat : v.holdsOthers = false)
    {bytes : List UInt8} (fits : AllFitting v.lengths)
    (h : Slot.tagged bad (fun _ => .failed bad) v = .wrote bytes) :
    ∃ tag content, bytes = Slot.int tag ++ content ∧ Tag.isPlain tag = true
      ∧ Takes (Read.payload bad' (Step.fail bad') (Step.fail bad') tag) content v := by
  cases v with
  | null =>
    have layout := (congrArg Emission.bytes h).symm.trans (List.append_nil _).symm
    exact ⟨Tag.null, [], layout, rfl, Takes.pure _⟩
  | string s =>
    refine ⟨Tag.string, _, (congrArg Emission.bytes h).symm, rfl, ?_⟩
    exact (takes_slot (takes_text fits.head)).map
      fun s : Option String => (s.map Value.string).getD .null
  | int n =>
    exact ⟨Tag.int, _, (congrArg Emission.bytes h).symm, rfl,
      (takes_slot (takes_int n)).map Value.int⟩
  | short n =>
    exact ⟨Tag.short, _, (congrArg Emission.bytes h).symm, rfl,
      (takes_slot (takes_short n)).map Value.short⟩
  | long n =>
    exact ⟨Tag.long, _, (congrArg Emission.bytes h).symm, rfl,
      (takes_slot (takes_long n)).map Value.long⟩
  | float w =>
    exact ⟨Tag.float, _, (congrArg Emission.bytes h).symm, rfl,
      (takes_slot (takes_word w)).map Value.float⟩
  | double w =>
    exact ⟨Tag.double, _, (congrArg Emission.bytes h).symm, rfl,
      (takes_slot (takes_doubleWord w)).map Value.double⟩
  | bool b =>
    exact ⟨Tag.boolean, _, (congrArg Emission.bytes h).symm, rfl,
      (takes_slot (takes_bool b)).map Value.bool⟩
  | byte n =>
    exact ⟨Tag.byte, _, (congrArg Emission.bytes h).symm, rfl,
      (takes_slot (takes_byte n)).map Value.byte⟩
  | array items =>
    rw [Slot.tagged] at h
    -- An array can only be tagged as bytes.
    rcases hc : Slot.bytesOfItems? items with _ | content
    · rw [hc] at h
      exact absurd h (Emission.failed_ne_wrote bad bytes)
    · rw [hc] at h
      cases byteItems_of_bytesOfItems hc
      have fitting : Fitting content.length := by simpa [Read.byteItems] using fits.head
      refine ⟨Tag.byteArray, _, (congrArg Emission.bytes h).symm, rfl, ?_⟩
      exact (takes_slot (takes_bytes fitting)).map
        fun b : Option (List UInt8) => (b.map fun b => Value.array (Read.byteItems b)).getD .null
  | list | map | object | singleton => cases flat
  | _ => exact absurd h (Emission.failed_ne_wrote bad bytes)

/-! ## §4. Values that hold others. -/

/-- A hook reads back whatever instance the other one appends: while their memories are in step,
and the two stay in step. -/
def Inverts (R : σ → τ → Prop) (reader : Beside τ ε' Value) (writer : Value → Into σ ε Unit) :
    Prop :=
  ∀ v s s', v.className?.isSome → writer v s = (.ok (), s') →
    ∃ bytes, s'.1 = s.1 ++ bytes ∧ Beside.Takes R s.2 s'.2 reader bytes v

namespace Into

variable {R : σ → τ → Prop} {bad : ε} {bad' : ε'} {writer : Value → Into σ ε Unit}
  {reader : Beside τ ε' Value}

/-- A write behind a head appends the head first. -/
theorem emit_wrote_then {head : List UInt8} {x : Into σ ε Unit} {s s' : List UInt8 × σ}
    (h : (do emit (.wrote head); x) s = (.ok (), s')) : x (s.1 ++ head, s.2) = (.ok (), s') := by
  rwa [Step.bind_ok (emit_wrote head s)] at h

/-- What an instance wrote reads back as the instance. -/
theorem takes_of_instance (inverts : Inverts R reader writer) {v : Value}
    (instanceOf : v.className?.isSome) {s s' : List UInt8 × σ}
    (h : (do emit (.wrote (Slot.int Tag.instanceOf)); writer v) s = (.ok (), s')) :
    ∃ bytes, s'.1 = s.1 ++ bytes ∧ ∀ depth, bytes.length < depth →
      Beside.Takes R s.2 s'.2 (Beside.taggedWithin bad' reader depth) bytes v := by
  obtain ⟨tail, appended, takes⟩ := inverts v _ s' instanceOf (emit_wrote_then h)
  refine ⟨Slot.int Tag.instanceOf ++ tail, ?_, Beside.takes_taggedWithin fun _ _ => takes⟩
  rw [appended, List.append_assoc]

/-- What a value wrote that holds no others reads back as that value. -/
theorem takes_of_flat {v : Value} (flat : v.holdsOthers = false) (fits : AllFitting v.lengths)
    {s s' : List UInt8 × σ} (h : tagged bad writer v s = (.ok (), s')) :
    ∃ bytes, s'.1 = s.1 ++ bytes ∧ ∀ depth, bytes.length < depth →
      Beside.Takes R s.2 s'.2 (Beside.taggedWithin bad' reader depth) bytes v := by
  rw [tagged_of_flat flat] at h
  obtain ⟨bytes, written, rfl⟩ := eq_wrote_of_emit h
  obtain ⟨tag, content, rfl, plain, takes⟩ := exists_payload_of_tagged bad' flat fits written
  refine ⟨_, rfl, Beside.takes_taggedWithin fun _ _ => ?_⟩
  rw [Beside.payload_of_isPlain plain]
  exact .lift takes

mutual

/-- What a tagged value wrote reads back as that value, at every depth beyond the number of
bytes. -/
theorem takes_of_tagged (inverts : Inverts R reader writer) : ∀ (v : Value)
    {s s' : List UInt8 × σ}, AllFitting v.lengths → tagged bad writer v s = (.ok (), s') →
    ∃ bytes, s'.1 = s.1 ++ bytes ∧ ∀ depth, bytes.length < depth →
      Beside.Takes R s.2 s'.2 (Beside.taggedWithin bad' reader depth) bytes v
  | .list items, s, s', fits, h => by
    rw [tagged] at h
    rw [Value.lengths] at fits
    obtain ⟨tail, appended, takes⟩ :=
      -- The tag and the length stand in front of the items, so each item lies one level deeper and
      -- has fewer bytes than the whole.
      takes_of_taggedItems inverts items fits.tail (emit_wrote_then h)
    refine ⟨Slot.int Tag.list ++ (Slot.length items.length ++ tail), ?_,
      Beside.takes_taggedWithin fun depth deep => Beside.takes_counted fits.head (takes depth ?_)⟩
    · simp only [appended, List.append_assoc]
    · rw [List.length_append] at deep
      omega
  | .map entries, s, s', fits, h => by
    rw [tagged] at h
    rw [Value.lengths] at fits
    obtain ⟨tail, appended, takes⟩ :=
      takes_of_taggedEntries inverts entries fits.tail (emit_wrote_then h)
    refine ⟨Slot.int Tag.map ++ (Slot.length entries.length ++ tail), ?_,
      Beside.takes_taggedWithin fun depth deep => Beside.takes_counted fits.head (takes depth ?_)⟩
    · simp only [appended, List.append_assoc]
    · rw [List.length_append] at deep
      omega
  | .object className fields, s, s', _, h => by
    rw [tagged] at h
    exact takes_of_instance inverts rfl h
  | .singleton className, s, s', _, h => by
    rw [tagged] at h
    exact takes_of_instance inverts rfl h
  | .null, _, _, fits, h | .bool _, _, _, fits, h | .byte _, _, _, fits, h
  | .short _, _, _, fits, h | .char _, _, _, fits, h | .int _, _, _, fits, h
  | .long _, _, _, fits, h | .float _, _, _, fits, h | .double _, _, _, fits, h
  | .string _, _, _, fits, h | .enumConstant _, _, _, fits, h | .bigInteger _, _, _, fits, h
  | .bigDecimal _ _, _, _, fits, h | .size _ _, _, _, fits, h | .sizeF _ _, _, _, fits, h
  | .blob _, _, _, fits, h | .array _, _, _, fits, h | .set _, _, _, fits, h
  | .sparseArray _, _, _, fits, h | .sparseBooleanArray _, _, _, fits, h =>
    takes_of_flat rfl fits h

/-- What the items of a list wrote reads back as those items, in their order. -/
theorem takes_of_taggedItems (inverts : Inverts R reader writer) : ∀ (items : List Value)
    {s s' : List UInt8 × σ}, AllFitting (Value.lengthsOfItems items) →
    taggedItems bad writer items s = (.ok (), s') →
    ∃ bytes, s'.1 = s.1 ++ bytes ∧ ∀ depth, bytes.length < depth →
      Beside.Takes R s.2 s'.2
        (Step.replicate items.length (Beside.taggedWithin bad' reader depth)) bytes items
  | [], s, s', _, h => by
    cases h
    exact ⟨[], (List.append_nil _).symm, fun _ _ => .pure []⟩
  | v :: rest, s, s', fits, h => by
    rw [taggedItems] at h
    rw [Value.lengthsOfItems] at fits
    obtain ⟨_, between, first, others⟩ := Step.bind_eq_ok h
    obtain ⟨head, appended, item⟩ := takes_of_tagged inverts v fits.left first
    obtain ⟨tail, appended', items⟩ := takes_of_taggedItems inverts rest fits.right others
    refine ⟨head ++ tail, ?_, fun depth deep => ?_⟩
    · rw [appended', appended, List.append_assoc]
    · rw [List.length_append] at deep
      exact (item depth (by omega)).bind ((items depth (by omega)).map (v :: ·))

/-- What the entries of a map wrote reads back as those entries, in their order and with every
repeated key. -/
theorem takes_of_taggedEntries (inverts : Inverts R reader writer) :
    ∀ (entries : List (Value × Value)) {s s' : List UInt8 × σ},
    AllFitting (Value.lengthsOfEntries entries) →
    taggedEntries bad writer entries s = (.ok (), s') →
    ∃ bytes, s'.1 = s.1 ++ bytes ∧ ∀ depth, bytes.length < depth →
      Beside.Takes R s.2 s'.2 (Step.replicate entries.length (Beside.pair
        (Beside.taggedWithin bad' reader depth) (Beside.taggedWithin bad' reader depth)))
        bytes entries
  | [], s, s', _, h => by
    cases h
    exact ⟨[], (List.append_nil _).symm, fun _ _ => .pure []⟩
  | (k, v) :: rest, s, s', fits, h => by
    rw [taggedEntries] at h
    rw [Value.lengthsOfEntries] at fits
    obtain ⟨_, behindKey, key, h⟩ := Step.bind_eq_ok h
    obtain ⟨_, between, value, others⟩ := Step.bind_eq_ok h
    obtain ⟨front, appended, keyRead⟩ := takes_of_tagged inverts k fits.left.left key
    obtain ⟨back, appended', valueRead⟩ := takes_of_tagged inverts v fits.left.right value
    obtain ⟨tail, appended'', entries⟩ := takes_of_taggedEntries inverts rest fits.right others
    refine ⟨(front ++ back) ++ tail, ?_, fun depth deep => ?_⟩
    · simp only [appended'', appended', appended, List.append_assoc]
    · rw [List.length_append, List.length_append] at deep
      have entry := Beside.takes_pair (keyRead depth (by omega)) (valueRead depth (by omega))
      exact entry.bind ((entries depth (by omega)).map ((k, v) :: ·))

end

end Into

/-- A tagged value reads back through hooks that remember nothing, if the one takes whatever the
other writes. -/
theorem takes_tagged {bad : ε} {bad' : ε'} {hook : Value → Emission ε}
    {hook' : Step Cursor ε' Value}
    (inverts : ∀ v bytes, v.className?.isSome → hook v = .wrote bytes → Takes hook' bytes v)
    {v : Value} {bytes : List UInt8} (fits : AllFitting v.lengths)
    (h : Slot.tagged bad hook v = .wrote bytes) : Takes (Read.tagged bad' hook') bytes v := by
  -- There is nothing to remember, so the hooks are always in step.
  let idle : Unit → Unit → Prop := fun _ _ => True
  have inverts' : Inverts idle (Beside.lift hook') fun o => Into.emit (hook o) := by
    intro o s s' instanceOf emitted
    obtain ⟨content, wrote, rfl⟩ := Into.eq_wrote_of_emit emitted
    exact ⟨content, rfl, .lift (inverts o content instanceOf wrote)⟩
  have written : Into.tagged bad (fun o => Into.emit (hook o)) v ([], ())
      = (.ok (), (bytes, ())) := by
    rw [Into.tagged_emit, h]
    rfl
  obtain ⟨content, rfl, takes⟩ := Into.takes_of_tagged inverts' v fits written
  have takes : Beside.Takes idle () () (Beside.tagged bad' (.lift hook')) bytes v :=
    Beside.takes_tagged_of_deep takes
  intro i rest
  obtain ⟨_, -, taken⟩ := takes i rest () trivial
  rw [Beside.tagged_lift] at taken
  exact Beside.eq_of_lift taken

/-! ## §5. In a parcel that holds something already. -/

/-- Through hooks that invert each other a tagged value reads back: whatever was in the parcel, the
writing appended bytes to it, and wherever these bytes stand and whatever follows them, the reading
answers exactly that value and consumes exactly those bytes.  Elements and entries keep their
order, repeated keys stay apart, and so do the integers of different widths, since it is the same
value.  For hooks that remember nothing, this is the way tagged values are written and read
anywhere else (`Into.tagged_emit`, `Beside.tagged_lift`). -/
theorem tagged_of_inverts {R : σ → τ → Prop} {bad : ε} {bad' : ε'}
    {writer : Value → Into σ ε Unit} {reader : Beside τ ε' Value}
    (inverts : Inverts R reader writer) {v : Value} (fits : ∀ n ∈ v.lengths, n < 2 ^ 31)
    {before after : List UInt8} {m m' : σ}
    (written : Into.tagged bad writer v (before, m) = (.ok (), (after, m'))) :
    ∃ bytes, after = before ++ bytes
      ∧ Beside.Takes R m m' (Beside.tagged bad' reader) bytes v := by
  obtain ⟨bytes, appended, takes⟩ := Into.takes_of_tagged inverts v fits written
  exact ⟨bytes, appended, Beside.takes_tagged_of_deep takes⟩

/-! Hooks for points on a line that need their memories: where the same point comes twice in a
row, the second one is only a mark. -/

/-- A point on a line. -/
def point (x : Int32) : Value := .object "app.Point" [("x", .int x)]

/-- The place of a point. -/
def placeOf? : Value → Option Int32
  | .object "app.Point" [("x", .int x)] => some x
  | _ => none

/-- Appends a point behind the mark that it is a new one, or only the mark that it is not. -/
def writePoint (v : Value) : Into (Option Int32) Malformed Unit := fun (bytes, last) =>
  match placeOf? v with
  | none => (.error .malformed, (bytes, last))
  | some x =>
    if last = some x then (.ok (), (bytes ++ Slot.bool false, last))
    else (.ok (), (bytes ++ (Slot.bool true ++ Slot.int x), some x))

/-- A new point is remembered. -/
def newPoint (x : Int32) : Beside (Option Int32) Malformed Value := fun (c, _) =>
  (.ok (point x), (c, some x))

/-- The point before comes again. -/
def samePoint : Beside (Option Int32) Malformed Value := fun (c, last) =>
  match last with
  | some x => (.ok (point x), (c, last))
  | none => (.error .malformed, (c, last))

/-- Reads a point, as its mark says. -/
def readPoint : Beside (Option Int32) Malformed Value := do
  match ← Beside.lift Read.bool with
  | true => newPoint (← Beside.lift Read.int)
  | false => samePoint

theorem eq_point_of_placeOf? {v : Value} {x : Int32} (h : placeOf? v = some x) : v = point x := by
  unfold placeOf? at h
  split at h
  · cases h
    rfl
  · cases h

/-- The hooks are in step while they remember the same point. -/
theorem inverts_readPoint : Inverts Eq readPoint writePoint := by
  rintro v ⟨before, last⟩ s' - written
  unfold writePoint at written
  rcases place : placeOf? v with _ | x
  · rw [place] at written
    cases written
  · cases eq_point_of_placeOf? place
    rw [place] at written
    dsimp only at written
    have new : Beside.Takes Eq last (some x) (newPoint x) [] (point x) :=
      fun _ _ _ _ => ⟨some x, rfl, rfl⟩
    have same : Beside.Takes Eq (some x) (some x) samePoint [] (point x) := by
      rintro i rest _ rfl
      exact ⟨some x, rfl, rfl⟩
    by_cases again : last = some x
    · rw [if_pos again] at written
      cases written
      cases again
      refine ⟨Slot.bool false ++ [], by rw [List.append_nil], ?_⟩
      exact (Beside.Takes.lift (takes_bool false)).bind same
    · rw [if_neg again] at written
      cases written
      refine ⟨Slot.bool true ++ (Slot.int x ++ []), by rw [List.append_nil], ?_⟩
      exact (Beside.Takes.lift (takes_bool true)).bind ((Beside.Takes.lift (takes_int x)).bind new)

/-- Two points in a row, a repeated key, and one in every width of integer. -/
def points : Value :=
  .list [point 7, point 7,
    .map [(.string "a", point 8), (.string "a", .list [.byte 1, .short 1, .int 1, .long 1])],
    point 8, .array [.byte 1], .list [.byte 1]]

/-- The points read back, although only their places were written, and each in a row once. -/
theorem tagged_of_inverts_points :
    Inverts Eq readPoint writePoint ∧ (∀ n ∈ points.lengths, n < 2 ^ 31)
      ∧ ∃ bytes, Into.tagged .malformed writePoint points ([1, 2, 3], none)
          = (.ok (), ([1, 2, 3] ++ bytes, some 8))
        ∧ Beside.Takes Eq none (some 8) (Beside.tagged .malformed readPoint) bytes points := by
  have fits : ∀ n ∈ points.lengths, n < 2 ^ 31 := by decide
  have written : Into.tagged .malformed writePoint points ([1, 2, 3], none)
      = (.ok (), ((Into.tagged .malformed writePoint points ([1, 2, 3], none)).2.1, some 8)) := by
    rfl
  obtain ⟨bytes, appended, takes⟩ := tagged_of_inverts inverts_readPoint fits written
  exact ⟨inverts_readPoint, fits, bytes, by rw [← appended]; exact written, takes⟩

end Wire

end ParcelCodec
