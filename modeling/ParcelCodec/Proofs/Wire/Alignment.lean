import ParcelCodec.Proofs.Wire.Parcel
import ParcelCodec.Wire.Program

/-!
# Positions in a parcel

Whatever is read from a parcel, its position goes forward and stays within the bytes, also where a
read fails halfway.  A program does on a machine what it does at a cursor, where positions are
natural numbers (`ReadProgram.read`), as long as no end of a range is more than a word can hold
(`ReadProgram.Roomy`); where one is, the program ends.  Only a caller that asks for bytes by their
number can bring this about.

What is read successfully takes whole slots, and so does everything that is written: the length is
looked at modulo four, part by part, and padding makes up for what a content lacks.  Where a word
can hold the widths of all contents, what is written is what the slots say.

Main statements: `ReadProgram.faithful_run`, `ReadProgram.shifts_read`, `WriteProgram.slots_run`,
`WriteProgram.run_eq_write` and `orderly_unless_overrun`.
-/

namespace ParcelCodec.Wire

variable {w : Nat} {α β σ : Type} {ε : Type}

/-! ## §1. Programs at a cursor. -/

/-- Goes on after a read that fails, from where it stopped. -/
def attempted (r : Read α) : Read (Option α) := fun c =>
  match r c with
  | (.ok a, c') => (.ok (some a), c')
  | (.error _, c') => (.ok none, c')

/-- A counted run of items, each told what the last one left to remember, or its absence. -/
def Read.arrayWith (item : σ → Read (α × σ)) (memory : σ) : Read (Option (List α)) := do
  match ← Read.length with
  | none => return none
  | some n =>
    if (← Step.get).remaining < n then Step.fail .malformed
    else return some (← collect item n memory)

/-- A run of items has room if each item has where the run gets to it. -/
def RoomyRun (item : σ → Read (α × σ)) (roomy : σ → Cursor → Prop) : Nat → σ → Cursor → Prop
  | 0, _, _ => True
  | n + 1, memory, c =>
    roomy memory c ∧ ∀ next c', item memory c = (.ok next, c') → RoomyRun item roomy n next.2 c'

namespace ReadProgram

/-- What a program reads at a cursor. -/
def read : {α : Type} → ReadProgram w α → Read α
  | _, .give a => pure a
  | _, .refuse => Step.fail .malformed
  | _, .look => do
    let c ← Step.get
    return (c.index, c.remaining)
  | _, .andThen first next => do (next (← first.read)).read
  | _, .attempt program => attempted program.read
  | _, .bytes n => Read.bytes n.toNat
  | _, .scalar s => s.read
  | _, .length => Read.length
  | _, .string => Read.string
  | _, .byteArray => Read.byteArray
  | _, .array item memory => Read.arrayWith (fun m => (item m).read) memory

/-- Wherever a program asks for a number of bytes on its way from a cursor, they end at a position
that a word can hold. -/
def Roomy : {α : Type} → ReadProgram w α → Cursor → Prop
  | _, .andThen first next, c =>
    first.Roomy c ∧ ∀ a c', first.read c = (.ok a, c') → (next a).Roomy c'
  | _, .attempt program, c => program.Roomy c
  | _, .bytes n, c => c.index + n.toNat < 2 ^ w
  | _, .array item memory, c =>
    ∀ n c', Read.length c = (.ok (some n), c') → n ≤ c'.remaining →
      RoomyRun (fun m => (item m).read) (fun m => (item m).Roomy) n memory c'
  | _, .give _, _ | _, .refuse, _ | _, .look, _ | _, .scalar _, _ | _, .length, _ | _, .string, _
  | _, .byteArray, _ => True

/-- Every number of bytes that a program may ask for is as told, and it goes on after a failure only
if that is allowed. -/
def Asks (number : BitVec w → Prop) (goesOn : Prop) : {α : Type} → ReadProgram w α → Prop
  | _, .andThen first next => first.Asks number goesOn ∧ ∀ a, (next a).Asks number goesOn
  | _, .attempt program => goesOn ∧ program.Asks number goesOn
  | _, .bytes n => number n
  | _, .array item _ => ∀ m, (item m).Asks number goesOn
  | _, .give _ | _, .refuse | _, .look | _, .scalar _ | _, .length | _, .string
  | _, .byteArray => True

end ReadProgram

/-! ## §2. A program does on a machine what it does at a cursor. -/

namespace Faithful

variable {p : Parcel w}

theorem map {x : Call w α} {r : Read α} {roomy : Prop} (f : α → β) (inRange : p.InRange)
    (h : Faithful x r roomy p) : Faithful (do return f (← x)) (do return f (← r)) roomy p :=
  (h.bind (fun _ _ => True) inRange fun a _ _ _ => pure (f a)).of_iff (by simp)

/-- Asking for the parcel, or for the cursor at its position. -/
theorem get {f : Parcel w → Call w α} {g : Cursor → Read α} {roomy : Prop}
    (h : Faithful (f p) (g p.cursor) roomy p) :
    Faithful (Step.get >>= f) (Step.get >>= g) roomy p := by
  cases h with
  | mirrors room onward same => exact .mirrors room onward same
  | overruns short c onward ends => exact .overruns short c onward ends

/-- Going on after a failure keeps a call faithful: it does not go on after the program has ended.
-/
theorem attempt {x : Call w α} {r : Read α} {roomy : Prop} (h : Faithful x r roomy p) :
    Faithful (Parcel.attempt x) (attempted r) roomy p := by
  cases h with
  | mirrors room onward same =>
    refine .mirrors room ?_ ?_
    · unfold attempted
      rcases run : r p.cursor with ⟨e | a, c⟩ <;> rw [run] at onward <;> exact onward
    · unfold Parcel.attempt attempted
      rw [same]
      rcases r p.cursor with ⟨e | a, c⟩ <;> rfl
  | overruns short c onward ends =>
    refine .overruns short c onward ?_
    unfold Parcel.attempt
    rw [ends]

/-- A run of items, if each item is faithful wherever it is read. -/
theorem collect {x : σ → Call w (α × σ)} {r : σ → Read (α × σ)} {roomy : σ → Cursor → Prop}
    (each : ∀ m (p : Parcel w), p.InRange → Faithful (x m) (r m) (roomy m p.cursor) p) :
    ∀ n m {p : Parcel w}, p.InRange →
      Faithful (collect x n m) (collect r n m) (RoomyRun r roomy n m p.cursor) p
  | 0, _, _, _ => pure []
  | n + 1, m, p, inRange => by
    refine Faithful.bind _ inRange (each m p inRange) fun next p' inRange' _ => ?_
    exact (collect each n next.2 inRange').map (next.1 :: ·) inRange'

/-- A counted run of items: its count comes from the parcel, and is looked at before the items. -/
theorem array (wide : 64 ≤ w) (inRange : p.InRange) {x : σ → Call w (α × σ)}
    {r : σ → Read (α × σ)} (roomy : σ → Cursor → Prop)
    (each : ∀ m (p : Parcel w), p.InRange → Faithful (x m) (r m) (roomy m p.cursor) p) (m : σ) :
    Faithful (Parcel.array x m) (Read.arrayWith r m)
      (∀ n c, Read.length p.cursor = (.ok (some n), c) → n ≤ c.remaining → RoomyRun r roomy n m c)
      p := by
  have room_iff : (True ∧ ∀ count c, Read.length p.cursor = (.ok count, c) →
      ∀ n, count = some n → n ≤ c.remaining → RoomyRun r roomy n m c)
      ↔ ∀ n c, Read.length p.cursor = (.ok (some n), c) → n ≤ c.remaining →
        RoomyRun r roomy n m c :=
    ⟨fun h n c run => h.2 _ c run n rfl,
      fun h => ⟨trivial, fun _ c run n counted => h n c (counted ▸ run)⟩⟩
  refine of_iff room_iff (Faithful.bind _ inRange (Parcel.mirrors_length wide inRange)
    fun count p' inRange' run => ?_)
  cases count with
  | none => exact (pure none).of_iff (by simp)
  | some n =>
    have fits : Fitting n := (Read.answers_length p.cursor).ok run n rfl
    unfold Fitting at fits
    have large : 2 ^ 64 ≤ 2 ^ w := Nat.pow_le_pow_right (by decide) wide
    -- The count and what is left compare as words like they do as numbers.
    have guard : p'.remaining < BitVec.ofNat w n ↔ p'.cursor.remaining < n := by
      rw [BitVec.lt_def, inRange'.toNat_remaining, toNat_ofNat_of_lt (by omega)]
    refine Faithful.get ?_
    by_cases few : p'.cursor.remaining < n
    · rw [if_pos few, if_pos (guard.mpr few)]
      refine fail.of_iff ⟨fun _ k same enough => ?_, fun _ => trivial⟩
      cases same
      omega
    · rw [if_neg few, if_neg (mt guard.mp few)]
      have items := (collect each n m inRange').map some inRange'
      refine items.of_iff ⟨fun room k same _ => ?_, fun room => room n rfl (by omega)⟩
      cases same
      exact room

end Faithful

/-- A program does on a machine what it does at a cursor as long as there is room; otherwise it
ends the program. -/
theorem ReadProgram.faithful_run (wide : 64 ≤ w) : ∀ {α : Type} (program : ReadProgram w α)
    (p : Parcel w), p.InRange → Faithful program.run program.read (program.Roomy p.cursor) p := by
  intro α program
  -- Each way to build a program has its rule, and the parts hold wherever they are run.
  induction program with
  | give a => exact fun _ _ => Faithful.pure a
  | refuse => exact fun _ _ => Faithful.fail
  | look =>
    intro p inRange
    refine Faithful.get ?_
    rw [inRange.toNat_remaining]
    exact Faithful.pure _
  | andThen first next ihf ihn =>
    intro p inRange
    exact Faithful.bind _ inRange (ihf p inRange) fun a p' inRange' _ => ihn a p' inRange'
  | attempt program ih => exact fun p inRange => (ih p inRange).attempt
  | bytes n => exact fun p inRange => Parcel.faithful_bytes inRange n
  | scalar s => exact fun p inRange => Parcel.mirrors_scalar wide inRange s
  | length => exact fun p inRange => Parcel.mirrors_length wide inRange
  | string => exact fun p inRange => Parcel.mirrors_string wide inRange
  | byteArray => exact fun p inRange => Parcel.mirrors_byteArray wide inRange
  | array item memory ih => exact fun p inRange => Faithful.array wide inRange _ ih memory

/-! ## §3. Whole slots. -/

/-- If a read succeeds, its position has moved by `k` bytes, up to a number of slots. -/
def Shifts (k : Nat) (x : Step Cursor ε α) : Prop :=
  ∀ c a c', x c = (.ok a, c') → c'.index % 4 = (c.index + k) % 4

namespace Shifts

theorem pure (a : α) : Shifts 0 (Pure.pure a : Step Cursor ε α) := by
  intro c b c' run
  cases run
  rfl

theorem fail (k : Nat) (e : ε) : Shifts k (Step.fail e : Step Cursor ε α) := by
  intro c b c' run
  cases run

theorem get : Shifts 0 (Step.get : Step Cursor ε Cursor) := by
  intro c b c' run
  cases run
  rfl

/-- Reads in a row shift by what both do. -/
theorem bind {j k : Nat} {x : Step Cursor ε α} {f : α → Step Cursor ε β} (hx : Shifts j x)
    (hf : ∀ a, Shifts k (f a)) : Shifts (j + k) (x >>= f) := by
  intro c b c' run
  obtain ⟨a, between, first, second⟩ := Step.bind_eq_ok run
  have shift := hx c a between first
  have shift' := hf a between b c' second
  omega

/-- A read shifts by what its first part does, if the rest takes whole slots. -/
theorem andThen {k : Nat} {x : Step Cursor ε α} {f : α → Step Cursor ε β} (hx : Shifts k x)
    (hf : ∀ a, Shifts 0 (f a)) : Shifts k (x >>= f) := hx.bind hf

theorem map {k : Nat} {x : Step Cursor ε α} (f : α → β) (hx : Shifts k x) :
    Shifts k (do return f (← x)) := hx.bind fun a => pure (f a)

/-- A choice shifts by what both of its reads do. -/
theorem ite {k : Nat} {q : Prop} [Decidable q] {x y : Step Cursor ε α} (hx : Shifts k x)
    (hy : Shifts k y) : Shifts k (if q then x else y) := by
  split
  · exact hx
  · exact hy

/-- Slots do not count. -/
theorem of_slots {k : Nat} {x : Step Cursor ε α} (h : Shifts k x) (slots : 4 ∣ k) :
    Shifts 0 x := by
  intro c a c' run
  have shift := h c a c' run
  omega

/-- A run of items takes whole slots if each item does. -/
theorem collect {x : σ → Step Cursor ε (α × σ)} (each : ∀ m, Shifts 0 (x m)) :
    ∀ n m, Shifts 0 (collect x n m)
  | 0, _ => pure []
  | n + 1, m => (each m).andThen fun next => (collect each n next.2).map (next.1 :: ·)

end Shifts

namespace Read

/-- Bytes shift by their number. -/
theorem shifts_bytes (n : Nat) : Shifts n (bytes n) := by
  intro c content c' run
  unfold bytes at run
  dsimp only at run
  split at run
  · cases run
    rfl
  · cases run

/-- A content and its padding make up slots. -/
theorem shifts_padded (n : Nat) {f : List UInt8 → Read α}
    (hf : ∀ content, Shifts (slotWidth n - n) (f content)) : Shifts 0 (bytes n >>= f) := by
  refine ((shifts_bytes n).bind hf).of_slots ?_
  rw [Nat.add_sub_cancel' (le_slotWidth n)]
  exact four_dvd_slotWidth n

theorem shifts_padding (n : Nat) : Shifts (slotWidth n - n) (padding n) := (shifts_bytes _).map _

/-- The contents of fixed width take one slot or two. -/
theorem shifts_scalar (s : Scalar α) : Shifts 0 s.read := by
  have slots : 4 ∣ s.width := by cases s <;> decide
  rw [s.read_eq]
  refine ((shifts_bytes s.width).andThen fun bs => ?_).of_slots slots
  cases s.content? bs with
  | none => exact .fail 0 _
  | some a => exact .pure a

/-- A length takes its slot. -/
theorem shifts_length : Shifts 0 length :=
  (shifts_scalar .int).andThen fun _ => .ite (.pure _) (.ite (.fail 0 _) (.pure _))

theorem shifts_byteArray : Shifts 0 byteArray := by
  refine shifts_length.andThen fun n => ?_
  cases n with
  | none => exact .pure _
  | some n => exact shifts_padded n fun content => (shifts_padding n).map _

/-- A text takes whole slots, with the unit behind it and the padding. -/
theorem shifts_string : Shifts 0 string := by
  refine shifts_length.andThen fun n => ?_
  cases n with
  | none => exact .pure _
  | some n =>
    refine shifts_padded ((n + 1) * 2) fun content => .ite ?_ (.fail _ _)
    refine (shifts_padding _).andThen fun _ => ?_
    split
    · exact .pure _
    · exact .fail 0 _

/-- A counted run takes whole slots if each item does. -/
theorem shifts_arrayWith {item : σ → Read (α × σ)} (each : ∀ m, Shifts 0 (item m)) (memory : σ) :
    Shifts 0 (arrayWith item memory) := by
  refine shifts_length.andThen fun n => ?_
  cases n with
  | none => exact .pure _
  | some n =>
    exact Shifts.get.andThen fun c => .ite (.fail 0 _) ((Shifts.collect each n memory).map _)

end Read

/-- A program that asks for whole slots takes whole slots if it succeeds. -/
theorem ReadProgram.shifts_read : ∀ {α : Type} (program : ReadProgram w α),
    program.Asks (fun n => 4 ∣ n.toNat) False → Shifts 0 program.read := by
  intro α program
  induction program with
  | give a => exact fun _ => .pure a
  | refuse => exact fun _ => .fail 0 _
  | look => exact fun _ => Shifts.get.map _
  | andThen first next ihf ihn => exact fun asks => (ihf asks.1).andThen fun a => ihn a (asks.2 a)
  | attempt program ih => exact fun asks => asks.1.elim
  | bytes n => exact fun slots => (Read.shifts_bytes n.toNat).of_slots slots
  | scalar s => exact fun _ => Read.shifts_scalar s
  | length => exact fun _ => Read.shifts_length
  | string => exact fun _ => Read.shifts_string
  | byteArray => exact fun _ => Read.shifts_byteArray
  | array item memory ih => exact fun asks => Read.shifts_arrayWith (fun m => ih m (asks m)) memory

/-! ## §4. Room. -/

/-- A run of items has room if each item has wherever it is read. -/
theorem roomyRun_of_each {x : σ → Call w (α × σ)} {r : σ → Read (α × σ)}
    {roomy : σ → Cursor → Prop}
    (each : ∀ m (p : Parcel w), p.InRange → Faithful (x m) (r m) (roomy m p.cursor) p)
    (room : ∀ m (p : Parcel w), p.InRange → roomy m p.cursor) :
    ∀ n m {p : Parcel w}, p.InRange → RoomyRun r roomy n m p.cursor
  | 0, _, _, _ => trivial
  | n + 1, m, p, inRange => by
    refine ⟨room m p inRange, fun next c run => ?_⟩
    obtain ⟨inRange', place⟩ := (each m p inRange).moved_of_room inRange (room m p inRange) run
    rw [← place]
    exact roomyRun_of_each each room n next.2 inRange'

/-- A program that never asks for more bytes than memory can hold has room wherever it is run. -/
theorem ReadProgram.roomy_of_asks (wide : 64 ≤ w) : ∀ {α : Type} (program : ReadProgram w α),
    program.Asks (fun n => n.toNat ≤ 2 ^ (w - 1)) True → ∀ p : Parcel w, p.InRange →
      program.Roomy p.cursor := by
  intro α program
  induction program with
  | give | refuse | look | scalar | length | string | byteArray => exact fun _ _ _ => trivial
  | andThen first next ihf ihn =>
    intro asks p inRange
    have room := ihf asks.1 p inRange
    refine ⟨room, fun a c run => ?_⟩
    obtain ⟨inRange', place⟩ := (first.faithful_run wide p inRange).moved_of_room inRange room run
    rw [← place]
    exact ihn a (asks.2 a) (p.moved c) inRange'
  | attempt program ih => exact fun asks p inRange => ih asks.2 p inRange
  | bytes n =>
    intro few p inRange
    -- The position and the number are each at most half of what a word can count.
    have half : 2 ^ w = 2 ^ (w - 1) + 2 ^ (w - 1) := Parcel.two_pow_eq (by omega)
    have within := inRange.within
    have fits := inRange.fits
    show p.index.toNat + n.toNat < 2 ^ w
    have few : n.toNat ≤ 2 ^ (w - 1) := few
    omega
  | array item memory ih =>
    intro asks p inRange n c run _
    obtain ⟨inRange', place⟩ :=
      (Parcel.mirrors_length wide inRange).moved_of_room inRange trivial run
    rw [← place]
    exact roomyRun_of_each (fun m => (item m).faithful_run wide) (fun m => ih m (asks m)) n memory
      inRange'

/-! ## §5. Writing. -/

/-- Bytes that make up whole slots. -/
abbrev Slots (bytes : List UInt8) : Prop := 4 ∣ bytes.length

theorem Slots.append {bytes bytes' : List UInt8} (h : Slots bytes) (h' : Slots bytes') :
    Slots (bytes ++ bytes') := by
  unfold Slots
  rw [List.length_append]
  exact Nat.dvd_add h h'

theorem slots_word (n : UInt32) : Slots (Slot.word n) := ⟨1, length_word n⟩

/-- Contents of fixed width are written as one slot or two. -/
theorem Scalar.slots_written (s : Scalar α) (a : α) : Slots (s.written a) := by
  cases s with
  | long | double => exact ⟨2, length_doubleWord _⟩
  | _ => exact slots_word _

/-- A content and the zeros behind it make up slots, also where its width is more than a word can
hold. -/
theorem slots_append_zeros (wide : 2 ≤ w) {content : List UInt8} {n : Nat}
    (length : content.length = n) : Slots (content ++ Parcel.zeros (BitVec.ofNat w n)) := by
  unfold Slots Parcel.zeros
  rw [List.length_append, List.length_replicate]
  refine four_dvd_add_fill wide ?_
  rw [BitVec.toNat_ofNat, Nat.mod_mod_of_dvd _ (Nat.pow_dvd_pow 2 wide), length]

/-- Bytes are written as whole slots. -/
theorem slots_writtenBytes (wide : 2 ≤ w) (content : Option (List UInt8)) :
    Slots (Parcel.writtenBytes w content) := by
  cases content with
  | none => exact slots_word _
  | some content =>
    unfold Parcel.writtenBytes
    dsimp only
    rw [List.append_assoc]
    exact (slots_word _).append (slots_append_zeros wide rfl)

/-- A text is written as whole slots, with the unit behind it. -/
theorem slots_writtenString (wide : 2 ≤ w) (s : Option String) :
    Slots (Parcel.writtenString w s) := by
  cases s with
  | none => exact slots_word _
  | some s =>
    unfold Parcel.writtenString
    dsimp only
    rw [unitsWidth_eq, List.append_assoc, List.append_assoc, ← List.append_assoc _ [0, 0]]
    -- The unit behind the text belongs to the content that is filled up.
    refine (slots_word _).append (slots_append_zeros wide ?_)
    have units := length_unitBytes (Text.Utf16.encode s.toList)
    unfold unitBytes at units
    rw [List.length_append, units, Nat.add_mul]
    rfl

namespace WriteProgram

/-- What a program writes where widths are natural numbers. -/
def write : {α : Type} → WriteProgram α → StateM (List UInt8) α
  | _, .give a => pure a
  | _, .look => get
  | _, .andThen first next => do (next (← first.write)).write
  | _, .scalar s a => appendBytes (s.written a)
  | _, .string s => appendBytes (Slot.string s)
  | _, .byteArray content => appendBytes (Slot.byteArray content)
  | _, .array none _ memory => do
    appendBytes Slot.absent
    return memory
  | _, .array (some items) item memory => do
    appendBytes (Slot.length items.length)
    items.foldlM (fun m a => (item m a).write) memory

/-- Every text and every run of bytes that a program may write has a slot whose width a word can
hold. -/
def Holds (w : Nat) : {α : Type} → WriteProgram α → Prop
  | _, .andThen first next => first.Holds w ∧ ∀ a, (next a).Holds w
  | _, .string s => ∀ text, s = some text →
    ((Text.Utf16.encode text.toList).length + 1) * 2 + 3 < 2 ^ w
  | _, .byteArray content => ∀ bytes, content = some bytes → bytes.length + 3 < 2 ^ w
  | _, .array _ item _ => ∀ m a, (item m a).Holds w
  | _, .give _ | _, .look | _, .scalar _ _ => True

/-- A program whose contents have such slots writes what it does where widths are numbers. -/
theorem run_eq_write : ∀ {α : Type} (program : WriteProgram α), program.Holds w →
    program.run w = program.write := by
  intro α program
  induction program with
  | give | look | scalar => exact fun _ => rfl
  | andThen first next ihf ihn =>
    intro holds
    unfold run write
    rw [ihf holds.1]
    exact congrArg _ (funext fun a => ihn a (holds.2 a))
  | string s =>
    intro holds
    cases s with
    | none => rfl
    | some text => exact congrArg appendBytes (Parcel.writtenString_eq (holds text rfl))
  | byteArray content =>
    intro holds
    cases content with
    | none => rfl
    | some bytes => exact congrArg appendBytes (Parcel.writtenBytes_eq (holds bytes rfl))
  | array items item memory ih =>
    intro holds
    have each : (fun m a => (item m a).run w) = fun m a => (item m a).write :=
      funext fun m => funext fun a => ih m a (holds m a)
    cases items with
    | none => rfl
    | some items =>
      unfold run write
      rw [each]

/-- Items keep to whole slots if each does. -/
theorem slots_foldlM {item : σ → α → StateM (List UInt8) σ}
    (each : ∀ m a bytes, Slots bytes → Slots (item m a bytes).2) (items : List α) (m : σ)
    {bytes : List UInt8} (slots : Slots bytes) : Slots (items.foldlM item m bytes).2 := by
  induction items generalizing m bytes with
  | nil => exact slots
  | cons a rest ih =>
    rw [List.foldlM_cons]
    exact ih _ (each m a bytes slots)

/-- A program that writes keeps to whole slots. -/
theorem slots_run (wide : 2 ≤ w) : ∀ {α : Type} (program : WriteProgram α) {bytes : List UInt8},
    Slots bytes → Slots (program.run w bytes).2 := by
  intro α program
  induction program with
  | give a => exact fun slots => slots
  | look => exact fun slots => slots
  | andThen first next ihf ihn => exact fun slots => ihn _ (ihf slots)
  | scalar s a => exact fun slots => slots.append (s.slots_written a)
  | string s => exact fun slots => slots.append (slots_writtenString wide s)
  | byteArray content => exact fun slots => slots.append (slots_writtenBytes wide content)
  | array items item memory ih =>
    intro bytes slots
    have counted : Slots (bytes ++ Slot.length (items.getD []).length) :=
      slots.append (slots_word _)
    cases items with
    | none => exact slots.append (slots_word _)
    | some items => exact slots_foldlM (fun m a bytes => ih m a) items memory counted

end WriteProgram

/-! ## §6. Positions. -/

/-- Wherever a program leaves a parcel, it has moved forward. -/
theorem ReadProgram.run_moved (wide : 64 ≤ w) (program : ReadProgram w α) {p : Parcel w}
    (inRange : p.InRange) : ∃ c, Onward p.cursor c ∧ (program.run p).2 = p.moved c := by
  cases program.faithful_run wide p inRange with
  | mirrors _ onward same => exact ⟨_, onward, congrArg Prod.snd same⟩
  | overruns _ c onward ends => exact ⟨c, onward, congrArg Prod.snd ends⟩

/-- Programs keep a parcel in range, one after another. -/
theorem Parcel.after_inRange (wide : 64 ≤ w) (programs : List (Σ α : Type, ReadProgram w α)) :
    ∀ {p : Parcel w}, p.InRange →
      (p.after programs).InRange ∧ (p.after programs).data = p.data := by
  induction programs with
  | nil => exact fun inRange => ⟨inRange, rfl⟩
  | cons program rest ih =>
    intro p inRange
    obtain ⟨c, onward, moved⟩ := program.2.run_moved wide inRange
    have inRange' := (inRange.moved onward).1
    unfold after at ih ⊢
    rw [List.foldl_cons, moved]
    exact ih inRange'

/-- What a program does to a parcel of these bytes. -/
structure Orderly (data : List UInt8) (p : Parcel w) (program : ReadProgram w α) : Prop where
  /-- The bytes stay as they are. -/
  data_eq : (program.run p).2.data = data
  /-- The position does not go back, whether the program answers, reports a failure or ends. -/
  forward : p.index.toNat ≤ (program.run p).2.index.toNat
  /-- It does not go beyond the bytes: what is behind it and what is left are all of them. -/
  within : (program.run p).2.index.toNat + (program.run p).2.remaining.toNat = data.length
  /-- With room, it answers what is read at the cursor, and comes to the same position. -/
  same : program.Roomy p.cursor → (program.run p).1 = reported (program.read p.cursor).1 ∧
    (program.run p).2.cursor = (program.read p.cursor).2
  /-- Something is accessed out of range exactly if bytes are asked for that end at a position which
  is more than a word can hold. -/
  outOfRange_iff : (program.run p).1 = .error .outOfRange ↔ ¬ program.Roomy p.cursor
  /-- So nothing is if no more bytes are asked for than memory can hold. -/
  inRange : program.Asks (fun n => n.toNat ≤ 2 ^ (w - 1)) True →
    (program.run p).1 ≠ .error .outOfRange
  /-- An answer takes whole slots, if bytes are asked for in whole slots only. -/
  slots : program.Asks (fun n => 4 ∣ n.toNat) False → ∀ a, (program.run p).1 = .ok a →
    4 ∣ (program.run p).2.index.toNat - p.index.toNat

/-- Every program does to a parcel in range what it should. -/
theorem orderly_run (wide : 64 ≤ w) (program : ReadProgram w α) {p : Parcel w}
    (inRange : p.InRange) : Orderly p.data p program := by
  have faithful := program.faithful_run wide p inRange
  obtain ⟨c, onward, moved⟩ := program.run_moved wide inRange
  obtain ⟨inRange', place⟩ := inRange.moved onward
  have forward : p.index.toNat ≤ (program.run p).2.index.toNat := by
    obtain ⟨k, -, rfl⟩ := onward
    have index : (p.moved _).index.toNat = p.index.toNat + k := congrArg Cursor.index place
    rw [moved, index]
    exact Nat.le_add_right _ k
  have same : program.Roomy p.cursor → (program.run p).1 = reported (program.read p.cursor).1 ∧
      (program.run p).2.cursor = (program.read p.cursor).2 := by
    intro room
    rw [faithful.same_of_room room]
    exact ⟨rfl, (faithful.moved_of_room inRange room rfl).2⟩
  have outOfRange_iff : (program.run p).1 = .error .outOfRange ↔ ¬ program.Roomy p.cursor := by
    refine ⟨fun ends room => ?_, faithful.ends_of_short⟩
    exact reported_ne_outOfRange _ ((same room).1.symm.trans ends)
  refine ⟨?_, forward, ?_, same, outOfRange_iff, fun few ends => ?_, fun whole a answer => ?_⟩
  · rw [moved]
    rfl
  · rw [moved, inRange'.toNat_remaining, Parcel.remaining_cursor]
    exact Nat.add_sub_cancel' inRange'.within
  · exact outOfRange_iff.mp ends (program.roomy_of_asks wide few p inRange)
  · -- An answer is one that is read at the cursor, where every part takes whole slots.
    have read := faithful.read_of_ok inRange (Prod.ext answer rfl)
    have shift : (program.run p).2.index.toNat % 4 = p.index.toNat % 4 :=
      program.shifts_read whole _ _ _ read
    omega

/-- Whatever is read from a parcel, its position goes forward within the bytes, and it moves by
whole slots where an answer was read slot by slot.  Something is accessed out of range only for a
caller that asks for more bytes than a word can count behind the position.  Whatever is written
makes up whole slots, and it is written as if widths were natural numbers, as long as a word can
hold them. -/
theorem orderly_unless_overrun (wide : 64 ≤ w) :
    (∀ data : List UInt8, data.length < 2 ^ (w - 1) →
      ∀ (before : List (Σ α : Type, ReadProgram w α)) {α : Type} (program : ReadProgram w α),
        Orderly data ((Parcel.ofBytes data).after before) program)
      ∧ ∀ {α : Type} (program : WriteProgram α), 4 ∣ (program.run w []).2.length
        ∧ (program.Holds w → program.run w = program.write) := by
  refine ⟨fun data fits before α program => ?_, fun program => ⟨?_, program.run_eq_write⟩⟩
  · have start : (Parcel.ofBytes data : Parcel w).InRange := ⟨by simp [Parcel.ofBytes], fits⟩
    obtain ⟨inRange, same⟩ := Parcel.after_inRange wide before start
    have orderly := orderly_run wide program inRange
    rwa [same] at orderly
  · exact program.slots_run (by omega) (Nat.dvd_zero 4)

/-- An integer and a text, in turn. -/
def inTurn : Bool → ReadProgram 64 ((Int32 ⊕ Option String) × Bool)
  | true => (ReadProgram.scalar .int).andThen fun n => .give (.inl n, false)
  | false => ReadProgram.string.andThen fun s => .give (.inr s, true)

/-- A text without the unit behind it, two items, and a last byte. -/
def jumble : List UInt8 :=
  [1, 0, 0, 0, 65, 0, 1, 0, 2, 0, 0, 0, 7, 0, 0, 0, 1, 0, 0, 0, 66, 0, 0, 0, 9]

/-- After a text that could not be read, an integer and a text are read in turn. -/
theorem orderly_unless_overrun_jumble :
    (64 ≤ 64 ∧ jumble.length < 2 ^ (64 - 1))
    ∧ (ReadProgram.array inTurn true).run ((Parcel.ofBytes jumble).after [⟨_, .string⟩])
      = (.ok (some [.inl 7, .inr (some "B")]), ⟨jumble, 24⟩)
    ∧ Orderly jumble ((Parcel.ofBytes jumble).after [⟨_, .string⟩]) (ReadProgram.array inTurn true)
    ∧ 4 ∣ ((WriteProgram.string (some "A")).run 64 []).2.length
    ∧ (WriteProgram.string (some "A")).run 64 [] = ((), Slot.text "A") := by
  have wide : 64 ≤ 64 := by decide
  have fits : jumble.length < 2 ^ (64 - 1) := by decide
  have short : ((Text.Utf16.encode "A".toList).length + 1) * 2 + 3 < 2 ^ 64 := by decide
  obtain ⟨slots, plain⟩ := (orderly_unless_overrun wide).2 (.string (some "A"))
  refine ⟨⟨wide, fits⟩, by rfl, (orderly_unless_overrun wide).1 jumble fits _ _, slots, ?_⟩
  rw [plain (by rintro _ ⟨⟩; exact short)]
  rfl

/-- Behind an integer, a word cannot hold the end of as many bytes as it can count. -/
theorem greedy_read_overruns :
    (ReadProgram.bytes (BitVec.allOnes 64)).run
        ((Parcel.ofBytes [7, 0, 0, 0]).after [⟨_, .scalar .int⟩])
      = (.error .outOfRange, ⟨[7, 0, 0, 0], 4⟩) := by rfl

/-- Bytes as they are need not make up slots, also as the items of an array. -/
example :
    let item (_ : Unit) := (ReadProgram.bytes 1#64).andThen fun content => .give (content, ())
    (ReadProgram.array item ()).run (Parcel.ofBytes [1, 0, 0, 0, 9])
      = (.ok (some [[9]]), ⟨[1, 0, 0, 0, 9], 5⟩) := by rfl

end ParcelCodec.Wire
