import ParcelCodec.Proofs.Wire.Slot
import ParcelCodec.Wire.Payload

/-!
# Layouts read back

`Op.Holds` says which values an operation carries: the shape that its slot prescribes, with every
length small enough for a length slot.  Null is not among them, and neither is an instance of a
class, which only a machine can write.

Main statement: whatever an operation holds is laid out in bytes that the operation reads back
(`Op.takes_of_holds`).
-/

namespace ParcelCodec.Wire

/-! ## §1. What an operation holds. -/

/-- A text whose number of code units fits its slot. -/
def FittingText (s : String) : Prop := Fitting (Text.Utf16.encode s.toList).length

instance (s : String) : Decidable (FittingText s) :=
  inferInstanceAs (Decidable (Fitting _))

/-- An operation carries a value that is not null.  The polymorphic operations carry nothing by
themselves. -/
inductive Op.Holds : Op → Value → Prop
  | boolean (b : Bool) : Holds .boolean (.bool b)
  | byte (n : Int8) : Holds .byte (.byte n)
  | short (n : Int16) : Holds .short (.short n)
  | char (u : UInt16) : Holds .char (.char u)
  | int (n : Int32) : Holds .int (.int n)
  | long (n : Int64) : Holds .long (.long n)
  | float (w : UInt32) : Holds .float (.float w)
  | double (w : UInt64) : Holds .double (.double w)
  | string {s : String} (fits : FittingText s) : Holds .string (.string s)
  | charSequence {s : String} (fits : FittingText s) : Holds .charSequence (.string s)
  | booleanArray {items : List Bool} (fits : Fitting items.length) :
    Holds .booleanArray (.array (items.map .bool))
  | byteArray {content : List UInt8} (fits : Fitting content.length) :
    Holds .byteArray (.array (Read.byteItems content))
  | charArray {items : List UInt16} (fits : Fitting items.length) :
    Holds .charArray (.array (items.map .char))
  | shortArray {items : List Int16} (fits : Fitting items.length) :
    Holds .shortArray (.array (items.map .short))
  | intArray {items : List Int32} (fits : Fitting items.length) :
    Holds .intArray (.array (items.map .int))
  | longArray {items : List Int64} (fits : Fitting items.length) :
    Holds .longArray (.array (items.map .long))
  | floatArray {items : List UInt32} (fits : Fitting items.length) :
    Holds .floatArray (.array (items.map .float))
  | doubleArray {items : List UInt64} (fits : Fitting items.length) :
    Holds .doubleArray (.array (items.map .double))
  | bigInteger {content : List UInt8} (fits : Fitting content.length) :
    Holds .bigInteger (.bigInteger content)
  | bigDecimal {unscaled : List UInt8} (scale : Int32) (fits : Fitting unscaled.length) :
    Holds .bigDecimal (.bigDecimal unscaled scale)
  | size (width height : Int32) : Holds .size (.size width height)
  | sizeF (width height : UInt32) : Holds .sizeF (.sizeF width height)
  | sparseBooleanArray {entries : List (Int32 × Bool)} (fits : Fitting entries.length) :
    Holds .sparseBooleanArray (.sparseBooleanArray entries)
  | bundle {content : List UInt8} (fits : Fitting content.length) : Holds .bundle (.blob content)
  | persistableBundle {content : List UInt8} (fits : Fitting content.length) :
    Holds .persistableBundle (.blob content)
  | strongBinder {content : List UInt8} (fits : Fitting content.length) :
    Holds .strongBinder (.blob content)
  | serializable {content : List UInt8} (fits : Fitting content.length) :
    Holds .serializable (.blob content)

theorem Op.Holds.not_polymorphic {op : Op} {v : Value} (h : op.Holds v) :
    op.isPolymorphic = false := by
  cases h <;> rfl

/-! ## §2. Parts of layouts. -/

/-- A content that is there is read as it is. -/
theorem takes_orNull {α : Type} {r : Read (Option α)} {bytes : List UInt8} {a : α}
    (wrap : α → Value) (h : Takes r bytes (some a)) : Takes (Op.orNull wrap r) bytes (wrap a) :=
  h.map fun content : Option α => (content.map wrap).getD Value.null

/-- Items that are all of one scalar shape are picked out. -/
theorem mapM_pick {α : Type} {pick : Value → Option α} {wrap : α → Value}
    (picks : ∀ a, pick (wrap a) = some a) (items : List α) :
    (items.map wrap).mapM pick = some items := by
  induction items with
  | nil => rfl
  | cons a rest ih =>
    rw [List.map_cons, List.mapM_cons, picks, ih]
    rfl

/-- The bytes among the items of a byte array are the bytes that it was made of. -/
theorem bytesOfItems_byteItems (content : List UInt8) :
    Slot.bytesOfItems? (Read.byteItems content) = some content := by
  unfold Slot.bytesOfItems? Read.byteItems
  exact mapM_pick (fun b => by simp) content

/-- An array of scalars is laid out item by item and reads back. -/
theorem takes_items {α : Type} {pick : Value → Option α} {wrap : α → Value}
    {element : α → List UInt8} {read : Read α} {items : List α}
    (picks : ∀ a, pick (wrap a) = some a) (each : ∀ a, Takes read (element a) a)
    (wide : ∀ a, 0 < (element a).length) (fits : Fitting items.length) :
    ∃ bytes, Op.arrayBytes? pick element (items.map wrap) = some bytes
      ∧ Takes (Op.items wrap read) bytes (.array (items.map wrap)) := by
  refine ⟨Slot.array element items, ?_, ?_⟩
  · unfold Op.arrayBytes? Op.scalars?
    rw [mapM_pick picks]
    rfl
  · exact takes_orNull (fun values => .array (values.map wrap)) (takes_array each wide fits)

/-- A slot among other reads takes what it takes alone. -/
theorem takes_slot {ε α : Type} {bad : ε} {r : Read α} {bytes : List UInt8} {a : α}
    (h : Takes r bytes a) : Takes (Read.slot bad r) bytes a := h.mapError _

/-- A counted container reads its items after their number. -/
theorem takes_counted {ε α : Type} {bad : ε} {item : Step Cursor ε α} {wrap : List α → Value}
    {element : α → List UInt8} {items : List α} (fits : Fitting items.length)
    (each : ∀ a ∈ items, Takes item (element a) a) :
    Takes (Read.counted bad item wrap) (Slot.length items.length ++ items.flatMap element)
      (wrap items) := by
  unfold Read.counted
  refine (takes_slot (takes_length fits)).bind ?_
  exact (Takes.replicate items each).map wrap

/-- A pair of reads takes the bytes of both. -/
theorem takes_pair {ε α β : Type} {first : Step Cursor ε α} {second : Step Cursor ε β}
    {bytes bytes' : List UInt8} {a : α} {b : β} (hf : Takes first bytes a)
    (hs : Takes second bytes' b) : Takes (Read.pair first second) (bytes ++ bytes') (a, b) :=
  hf.bind (hs.map fun b => (a, b))

theorem length_word (w : UInt32) : (Slot.word w).length = 4 := length_bytesOf 4 _

theorem length_int (n : Int32) : (Slot.int n).length = 4 := length_word _

theorem length_doubleWord (w : UInt64) : (Slot.doubleWord w).length = 8 := length_bytesOf 8 _

/-! ## §3. Every operation. -/

/-- An operation that does not tag its value writes the layout that it has for it, or nothing. -/
theorem Op.write_of_untagged {op : Op} (untagged : op ≠ .value) (v : Value) :
    op.write v = match op.bytes? v with
      | some bytes => .wrote bytes
      | none => .failed .malformed := by
  unfold write
  split
  · contradiction
  · rfl

/-- Every value that an operation holds is laid out in bytes that the operation reads back. -/
theorem Op.takes_of_holds {op : Op} {v : Value} (h : op.Holds v) :
    ∃ bytes, op.bytes? v = some bytes ∧ Takes op.read bytes v := by
  cases h with
  | boolean b => exact ⟨_, rfl, (takes_bool b).map Value.bool⟩
  | byte n => exact ⟨_, rfl, (takes_byte n).map Value.byte⟩
  | short n => exact ⟨_, rfl, (takes_short n).map Value.short⟩
  | char u => exact ⟨_, rfl, (takes_char u).map Value.char⟩
  | int n => exact ⟨_, rfl, (takes_int n).map Value.int⟩
  | long n => exact ⟨_, rfl, (takes_long n).map Value.long⟩
  | float w => exact ⟨_, rfl, (takes_word w).map Value.float⟩
  | double w => exact ⟨_, rfl, (takes_doubleWord w).map Value.double⟩
  | string fits => exact ⟨_, rfl, takes_orNull .string (takes_text fits)⟩
  | charSequence fits =>
    exact ⟨_, rfl, (takes_int 1).bind (takes_orNull .string (takes_text fits))⟩
  | booleanArray fits =>
    exact takes_items (fun _ => rfl) takes_bool (fun b => by simp [Slot.bool, Slot.int, length_word])
      fits
  | byteArray fits =>
    refine ⟨_, ?_, takes_orNull (fun content => .array (Read.byteItems content)) (takes_bytes fits)⟩
    -- A byte array stands packed, so its items are first gathered into bytes again.
    show (Slot.bytesOfItems? _).map Slot.bytes = _
    rw [bytesOfItems_byteItems]
    rfl
  | charArray fits =>
    exact takes_items (fun _ => rfl) takes_char (fun u => by simp [Slot.char, length_word]) fits
  | shortArray fits =>
    exact takes_items (fun _ => rfl) takes_short
      (fun n => by simp [Slot.short, Slot.int, length_word]) fits
  | intArray fits =>
    exact takes_items (fun _ => rfl) takes_int (fun n => by simp [Slot.int, length_word]) fits
  | longArray fits =>
    exact takes_items (fun _ => rfl) takes_long
      (fun n => by simp [Slot.long, length_doubleWord]) fits
  | floatArray fits =>
    exact takes_items (fun _ => rfl) takes_word (fun w => by simp [length_word]) fits
  | doubleArray fits =>
    exact takes_items (fun _ => rfl) takes_doubleWord (fun w => by simp [length_doubleWord]) fits
  | bigInteger fits => exact ⟨_, rfl, takes_orNull .bigInteger (takes_bytes fits)⟩
  | bigDecimal scale fits =>
    exact ⟨_, rfl, (takes_bytes fits).bind ((takes_int scale).map (Value.bigDecimal _))⟩
  | size width height =>
    exact ⟨_, rfl, (takes_int width).bind ((takes_int height).map (Value.size width))⟩
  | sizeF width height =>
    exact ⟨_, rfl, (takes_word width).bind ((takes_word height).map (Value.sizeF width))⟩
  | sparseBooleanArray fits =>
    exact ⟨_, rfl, takes_counted fits fun e _ => takes_pair (takes_int e.1) (takes_bool e.2)⟩
  | bundle fits => exact ⟨_, rfl, takes_orNull .blob (takes_bytes fits)⟩
  | persistableBundle fits => exact ⟨_, rfl, takes_orNull .blob (takes_bytes fits)⟩
  | strongBinder fits => exact ⟨_, rfl, takes_orNull .blob (takes_bytes fits)⟩
  | serializable fits => exact ⟨_, rfl, takes_orNull .blob (takes_bytes fits)⟩

end ParcelCodec.Wire
