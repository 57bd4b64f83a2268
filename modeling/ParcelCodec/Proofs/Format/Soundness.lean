import ParcelCodec.Proofs.Companion.Reading
import ParcelCodec.Proofs.Format.Depth
import ParcelCodec.Proofs.Format.Shape
import ParcelCodec.Proofs.Value.Fields

/-!
# What a decoding can end in

Whatever the bytes are, a decoding that refuses array lengths early ends with a value of the shape
that its codec prescribes, or with a fault in the bytes, or it runs out of depth; or a slot for
instances names a class that nobody describes.  `Misses` says of the last that the bytes do lead to
such a slot: what stands before it decodes, as far as the codec has anything there.

Each part of a decoding is looked at where the parts before it end, so what is to be shown of a
whole run is shown of one slot after the other.  Main statements: `sound_decodeWith` and
`sound_decodeInstance`.
-/

namespace ParcelCodec.Format

open DataClass (Descriptor Property Uniform)
open Wire (Cursor Onward Advances Answers Fitting FittingText)

variable {ds : List Descriptor} {α : Type}

/-! ## §1. Classes that are missing. -/

/-- The slot of a codec, as the format reads it. -/
def decodeSlot (ds : List Descriptor) (c : Codec) (nullable : Bool) : Reading Value :=
  readSlot c nullable (decodeWith readCount (decode ds) c)

/-- A counted run of elements gets to one of its elements at a cursor. -/
def Reaches (element : Reading α) (cur cur' : Cursor) : Prop :=
  ∃ n start i done, readCount cur = (.ok n, start) ∧ i < n
    ∧ Step.replicate i element start = (.ok done, cur')

/-- The bytes at a cursor lead to a slot for instances that names a class nobody describes, on the
way of reading something. -/
inductive Misses (ds : List Descriptor) : Role → Cursor → String → Prop
  -- A slot.
  | marked {c : Codec} {nullable : Bool} {cur cur' : Cursor} {name : String}
    (hm : marked c nullable = true) (run : readInt cur = (.ok 0, cur'))
    (h : Misses ds (.codec c) cur' name) : Misses ds (.slot c nullable) cur name
  | unmarked {c : Codec} {nullable : Bool} {cur : Cursor} {name : String}
    (hm : ¬ marked c nullable = true) (h : Misses ds (.codec c) cur name) :
    Misses ds (.slot c nullable) cur name
  -- A leaf.
  | unknown {ty : JavaType} {l : Leaf} {cur cur' : Cursor} {name : String}
    (hl : l.layout ty = .op .parcelable)
    (run : Reading.ofOp .parcelable Wire.Read.string cur = (.ok (some name), cur'))
    (nobody : name ∉ ds.map (·.typeName)) : Misses ds (.codec (.leaf ty l)) cur name
  | named {ty : JavaType} {l : Leaf} {d : Descriptor} {cur cur' : Cursor} {name : String}
    (hl : l.layout ty = .op .parcelable)
    (run : Reading.ofOp .parcelable Wire.Read.string cur = (.ok (some d.typeName), cur'))
    (hd : d ∈ ds) (h : Misses ds (.instanceOf d) cur' name) :
    Misses ds (.codec (.leaf ty l)) cur name
  | nested {ty : JavaType} {l : Leaf} {d : Descriptor} {cur : Cursor} {name : String}
    (hl : l.layout ty = .instanceOf d.typeName) (hd : d ∈ ds)
    (h : Misses ds (.instanceOf d) cur name) : Misses ds (.codec (.leaf ty l)) cur name
  -- A container.
  | array {ty : JavaType} {e : Codec} {cur cur' : Cursor} {name : String}
    (run : Reaches (decodeSlot ds e true) cur cur') (h : Misses ds (.slot e true) cur' name) :
    Misses ds (.codec (.array ty e)) cur name
  | sequence {ty : JavaType} {kind : Java.SequenceKind} {box : Container} {e : Codec}
    {cur cur' : Cursor} {name : String} (run : Reaches (decodeSlot ds e box.nulls) cur cur')
    (h : Misses ds (.slot e box.nulls) cur' name) :
    Misses ds (.codec (.sequence ty kind box e)) cur name
  | key {ty : JavaType} {box : Container} {k v : Codec} {cur cur' : Cursor} {name : String}
    (run : Reaches (readPair (decodeSlot ds k box.nulls) (decodeSlot ds v true)) cur cur')
    (h : Misses ds (.slot k box.nulls) cur' name) : Misses ds (.codec (.map ty box k v)) cur name
  | value {ty : JavaType} {box : Container} {k v : Codec} {cur cur' cur'' : Cursor} {key : Value}
    {name : String}
    (run : Reaches (readPair (decodeSlot ds k box.nulls) (decodeSlot ds v true)) cur cur')
    (before : decodeSlot ds k box.nulls cur' = (.ok key, cur''))
    (h : Misses ds (.slot v true) cur'' name) : Misses ds (.codec (.map ty box k v)) cur name
  | sparse {ty : JavaType} {e : Codec} {cur cur' cur'' : Cursor} {key : Int32} {name : String}
    (run : Reaches (readPair readInt (decodeSlot ds e true)) cur cur')
    (before : readInt cur' = (.ok key, cur'')) (h : Misses ds (.slot e true) cur'' name) :
    Misses ds (.codec (.sparseArray ty e)) cur name
  -- An instance.
  | property {d : Descriptor} {front back : List Property} {p : Property} {cur cur' : Cursor}
    {fields : List (String × Value)} {name : String} (hs : d.singleton = false)
    (hp : d.properties = front ++ p :: back)
    (run : readFields (fun q => decodeWith readCount (decode ds) q.codec) front cur
      = (.ok fields, cur'))
    (h : Misses ds (.slot p.codec p.nullable) cur' name) : Misses ds (.instanceOf d) cur name

/-- What can go wrong when something is read at a cursor. -/
inductive Fault (ds : List Descriptor) (role : Role) (cur : Cursor) : RunError → Prop
  | decode (fault : DecodeFault) : Fault ds role cur (.decode fault)
  | outOfDepth : Fault ds role cur .outOfDepth
  | missing {name : String} (h : Misses ds role cur name) :
    Fault ds role cur (.missingCompanion name)

/-- What goes wrong on the way to a part goes wrong with the whole. -/
theorem Fault.of_part {role role' : Role} {cur cur' : Cursor} {e : RunError}
    (h : Fault ds role' cur' e)
    (part : ∀ name, Misses ds role' cur' name → Misses ds role cur name) :
    Fault ds role cur e := by
  cases h with
  | decode fault => exact .decode fault
  | outOfDepth => exact .outOfDepth
  | missing h => exact .missing (part _ h)

/-- A read answers with a value of the shape of what it reads, or goes wrong as it can. -/
def Sound (ds : List Descriptor) (role : Role) (x : Reading Value) : Prop :=
  ∀ cur, Ends x cur (fun v _ => Shaped ds Layout.readsNull role v) (Fault ds role cur)

/-! ## §2. Reads that the format follows. -/

/-- Readers whose answers have the shape of their classes, and are those of the format. -/
structure SoundReaders (ds : List Descriptor) (readers : Readers) : Prop where
  forward : ∀ name, Advances 0 (readers name)
  follows : ∀ name cur, Agree lenient cur (readers name) (decode ds name)
  known : ∀ d ∈ ds, Sound ds (.instanceOf d) (readers d.typeName)
  unknown : ∀ name, name ∉ ds.map (·.typeName) → ∀ cur,
    Ends (readers name) cur (fun _ _ => False) fun e =>
      e = .missingCompanion name ∨ e = .outOfDepth

/-- Reading an instance never goes backwards. -/
theorem advances_decode (name : String) : Advances 0 (decode ds name) :=
  fun c => advances_decodeWithin (depthFor ds c.remaining) name c

namespace SoundReaders

variable {readers : Readers} (sound : SoundReaders ds readers)

include sound

/-- Reading a slot never goes backwards. -/
theorem advances_slot (c : Codec) (nullable : Bool) :
    Advances 0 (readSlot c nullable (decodeWith guardedCount readers c)) :=
  advances_readSlot c nullable (advances_decodeWith sound.forward advances_guardedCount c)

/-- What is read along a codec is what the format reads. -/
theorem decodeWith_follows (c : Codec) (cur : Cursor) :
    Agree lenient cur (decodeWith guardedCount readers c) (decodeWith readCount (decode ds) c) :=
  decodeWith_agree sound.forward (fun name => sound.follows name cur) advances_guardedCount
    advances_readCount (arraysAgree_guarded fun _ _ _ => trivial) advances_decode c

/-- A slot is read as the format reads it. -/
theorem slot_follows (c : Codec) (nullable : Bool) (cur : Cursor) :
    Agree lenient cur (readSlot c nullable (decodeWith guardedCount readers c))
      (decodeSlot ds c nullable) :=
  agree_readSlot (sound.decodeWith_follows c cur)

end SoundReaders

/-! ## §3. Slots and counted runs. -/

/-- A read of a slot goes wrong only because of the bytes. -/
theorem ends_ofOp {op : Wire.Op} {read : Wire.Read α} {P : α → Prop} (h : Answers read P)
    {role : Role} {cur start : Cursor} :
    Ends (Reading.ofOp op read) cur (fun a _ => P a) (Fault ds role start) := by
  unfold Ends Reading.ofOp
  refine Ends.mapError ((h cur).mono (fun _ _ _ ha => ha) fun _ _ => ?_)
  exact .decode _

/-- A word is read, or the read ends with a fault. -/
theorem ends_readInt {role : Role} {cur start : Cursor} :
    Ends readInt cur (fun n cur' => readInt cur = (.ok n, cur')) (Fault ds role start) :=
  (ends_ofOp (Answers.any Wire.Read.int)).mono (fun _ _ run _ => run) fun _ h => h

/-- A number of elements is read as the format reads it, and it fits its slot. -/
def Counts (ds : List Descriptor) (count : Reading Nat) : Prop :=
  ∀ role start cur, Ends count cur (fun n cur' => readCount cur = (.ok n, cur') ∧ Fitting n)
    (Fault ds role start)

/-- A word that is taken for a number of elements is one that fits its slot. -/
theorem ends_toCount {n : Int32} {role : Role} {cur start : Cursor} :
    Ends (toCount n) cur (fun k cur' => toCount n cur = (.ok k, cur') ∧ Fitting k)
      (Fault ds role start) := by
  unfold toCount
  by_cases nonneg : 0 ≤ n
  · rw [if_pos nonneg]
    exact Ends.pure ⟨rfl, Wire.Read.fitting_of_nonneg nonneg⟩
  · rw [if_neg nonneg]
    exact Ends.fail (.decode _)

/-- The plain count is read as the format reads it. -/
theorem counts_readCount : Counts ds readCount := by
  intro role start cur
  refine Ends.bind (ends_readInt.mono (fun n cur' _ run => ?_) fun _ h => h)
  refine ends_toCount.mono (fun k cur'' _ counted => ?_) fun _ h => h
  exact ⟨(Step.bind_ok run).trans counted.1, counted.2⟩

/-- So is the guarded count, which only refuses more of them. -/
theorem counts_guardedCount : Counts ds guardedCount := by
  intro role start cur
  refine Ends.bind (ends_readInt.mono (fun n cur' _ run => ?_) fun _ h => h)
  refine Ends.bind (ends_toCount.mono (fun k cur'' _ counted => ?_) fun _ h => h)
  -- The guard only ever refuses: what it lets pass is the count, and no byte is consumed.
  refine Ends.bind (x := readRemaining) (s := cur'') ?_
  refine Ends.ite (fun _ => Ends.fail (.decode _)) fun _ => Ends.pure ?_
  exact ⟨(Step.bind_ok run).trans counted.1, counted.2⟩

/-- The elements of a container end as told if each of them does, wherever the run gets to one. -/
theorem ends_readElements {count : Reading Nat} (counts : Counts ds count)
    {element element' : Reading α} (forward : Advances 0 element)
    (follows : ∀ cur, Agree lenient cur element element') {role : Role} {cur : Cursor}
    {P : α → Prop} (h : ∀ cur', Reaches element' cur cur' →
      Ends element cur' (fun a _ => P a) (Fault ds role cur)) :
    Ends (readElements count element) cur
      (fun items _ => Fitting items.length ∧ ∀ a ∈ items, P a) (Fault ds role cur) := by
  refine Ends.bind ((counts role cur cur).mono (fun n start _ counted => ?_) fun _ he => he)
  obtain ⟨run, fits⟩ := counted
  have each : ∀ i < n, ∀ done cur', Step.replicate i element start = (.ok done, cur') →
      Ends element cur' (fun a _ => P a) (Fault ds role cur) := by
    intro i hi done cur' read
    have read' := Agree.ok (Agree.replicate (follows start) forward i) read
    exact h cur' ⟨n, start, i, done, run, hi, read'⟩
  refine (Ends.replicate each).mono (fun items _ _ all => ?_) fun _ he => he
  exact ⟨all.1 ▸ fits, all.2⟩

/-- A slot behind its marker is sound if what stands in it is. -/
theorem sound_readSlot {c : Codec} {nullable : Bool} {direct : Reading Value}
    (h : Sound ds (.codec c) direct) :
    Sound ds (.slot c nullable) (readSlot c nullable direct) := by
  intro cur
  -- Null that stands in a slot with a marker could as well be announced by the marker.
  have shape : ∀ {v : Value}, Shaped ds Layout.readsNull (.codec c) v →
      Shaped ds Layout.readsNull (.slot c nullable) v := by
    intro v hv
    by_cases absent : marked c nullable = true ∧ v.isNull = true
    · obtain ⟨hm, null⟩ := absent
      cases v with
      | null => exact .absent hm
      | _ => cases null
    · refine .present (fun hm => ?_) hv
      exact Bool.eq_false_iff.mpr fun null => absent ⟨hm, null⟩
  unfold readSlot
  by_cases hm : marked c nullable = true
  · rw [if_pos hm]
    refine Ends.bind (ends_readInt.mono (fun n cur' _ run => ?_) fun _ he => he)
    by_cases zero : n = 0
    · rw [if_pos zero]
      subst zero
      exact (h cur').mono (fun _ _ _ hv => shape hv)
        fun _ he => he.of_part fun _ miss => .marked hm run miss
    · rw [if_neg zero]
      exact Ends.pure (.absent hm)
  · rw [if_neg hm]
    exact (h cur).mono (fun _ _ _ hv => shape hv)
      fun _ he => he.of_part fun _ miss => .unmarked hm miss

/-! ## §4. Instances by their class. -/

section Named

variable {readers : Readers} (sound : SoundReaders ds readers)

include sound

/-- An instance behind the name of its class is one of a described class, or the class is
missing. -/
theorem ends_readNamed {ty : JavaType} {l : Leaf} (hl : l.layout ty = .op .parcelable)
    (cur : Cursor) :
    Ends (readNamed readers) cur
      (fun v _ => v = .null ∨ ∃ d ∈ ds, FittingText d.typeName
        ∧ Shaped ds Layout.readsNull (.instanceOf d) v)
      (Fault ds (.codec (.leaf ty l)) cur) := by
  refine Ends.bind ((ends_ofOp Wire.Read.answers_string).mono
    (fun name cur' run fits => ?_) fun _ he => he)
  cases name with
  | none => exact Ends.pure (.inl rfl)
  | some name =>
    by_cases described : name ∈ ds.map (·.typeName)
    · obtain ⟨d, hd, rfl⟩ := List.mem_map.mp described
      refine (sound.known d hd cur').mono (fun v _ _ hv => ?_) fun _ he => ?_
      · exact .inr ⟨d, hd, fits _ rfl, hv⟩
      · exact he.of_part fun _ miss => .named hl run hd miss
    · refine (sound.unknown name described cur').mono (fun _ _ _ never => never.elim) ?_
      rintro e (rfl | rfl)
      · exact .missing (.unknown hl run described)
      · exact .outOfDepth

/-! ## §5. Tagged values. -/

omit sound

/-- What goes wrong inside of a tagged value is the fault of the whole. -/
theorem fault_restated {fault : DecodeFault} (e : RunError) {role : Role} {cur : Cursor} :
    Fault ds role cur (Calls.restated (.decode fault) e) := by
  cases e with
  | outOfDepth => exact .outOfDepth
  | _ => exact .decode fault

/-- A value that holds no others is sound behind its tag. -/
theorem sound_scalar {fault : DecodeFault} {read : Wire.Read α} {P : α → Prop} {f : α → Value}
    (h : Answers read P) (plain : ∀ {a}, P a → Plain (f a)) :
    Sound ds .tagged (do return f (← Wire.Read.slot (.decode fault) read)) := by
  intro cur
  refine Ends.map (Ends.mapError ((h cur).mono (fun a _ _ ha => ?_) fun _ _ => ?_))
  · exact .plain (plain ha)
  · exact .decode fault

/-- A counted run of tagged items is sound if the items are. -/
theorem sound_counted {fault : DecodeFault} {item : Reading α} {P : α → Prop}
    {wrap : List α → Value}
    (h : ∀ cur start, Ends item cur (fun a _ => P a) (Fault ds .tagged start))
    (shape : ∀ {items}, Fitting items.length → (∀ a ∈ items, P a) →
      Shaped ds Layout.readsNull .tagged (wrap items)) :
    Sound ds .tagged (Wire.Read.counted (.decode fault) item wrap) := by
  intro cur
  have length : Ends (Wire.Read.slot (.decode fault) Wire.Read.length) cur
      (fun n _ => ∀ k ∈ n, Fitting k) (Fault ds .tagged cur) :=
    Ends.mapError ((Wire.Read.answers_length cur).mono (fun _ _ _ fits => fits)
      fun _ _ => .decode fault)
  refine Ends.bind (length.mono (fun n cur' _ fits => ?_) fun _ he => he)
  cases n with
  | none => exact Ends.pure (.plain .null)
  | some n =>
    refine Ends.map ((Ends.replicate fun _ _ _ s' _ => h s' cur).mono (fun items _ _ all => ?_)
      fun _ he => he)
    exact shape (all.1 ▸ fits n rfl) all.2

/-- What a tag announces is sound if instances and items are. -/
theorem sound_payload {fault : DecodeFault} {hook item : Reading Value}
    (hh : Sound ds .tagged hook) (hi : Sound ds .tagged item) (tag : Int32) :
    Sound ds .tagged (Wire.Read.payload (.decode fault) hook item tag) := by
  -- No class can be missing behind a tag, so it does not matter where the items start.
  have anywhere : ∀ cur start, Ends item cur
      (fun v _ => Shaped ds Layout.readsNull .tagged v) (Fault ds .tagged start) :=
    fun cur start => (hi cur).mono (fun _ _ _ hv => hv) fun _ he => he.of_part nofun
  have bytes : ∀ {content : Option (List UInt8)}, (∀ b ∈ content, Fitting b.length) →
      Plain ((content.map fun b => Value.array (Wire.Read.byteItems b)).getD .null) := by
    intro content fits
    cases content with
    | none => exact .null
    | some b => exact .bytes (fits b rfl)
  have text : ∀ {content : Option String}, (∀ s ∈ content, FittingText s) →
      Plain ((content.map Value.string).getD .null) := by
    intro content fits
    cases content with
    | none => exact .null
    | some s => exact .string (fits s rfl)
  intro cur
  unfold Wire.Read.payload
  refine .ite (fun _ => Ends.pure (.plain .null)) fun _ => ?_
  refine .ite (fun _ => sound_scalar Wire.Read.answers_string text cur) fun _ => ?_
  refine .ite (fun _ => sound_scalar (.any _) (fun _ => .int _) cur) fun _ => ?_
  refine .ite (fun _ => sound_scalar (.any _) (fun _ => .short _) cur) fun _ => ?_
  refine .ite (fun _ => sound_scalar (.any _) (fun _ => .long _) cur) fun _ => ?_
  refine .ite (fun _ => sound_scalar (.any _) (fun _ => .float _) cur) fun _ => ?_
  refine .ite (fun _ => sound_scalar (.any _) (fun _ => .double _) cur) fun _ => ?_
  refine .ite (fun _ => sound_scalar (.any _) (fun _ => .bool _) cur) fun _ => ?_
  refine .ite (fun _ => sound_scalar (.any _) (fun _ => .byte _) cur) fun _ => ?_
  refine .ite (fun _ => sound_scalar Wire.Read.answers_byteArray bytes cur) fun _ => ?_
  refine .ite (fun _ => sound_counted anywhere .taggedList cur) fun _ => ?_
  refine .ite (fun _ => ?_) fun _ => .ite (fun _ => hh cur) fun _ => Ends.fail (.decode fault)
  refine sound_counted (P := fun p => Shaped ds Layout.readsNull .tagged p.1
    ∧ Shaped ds Layout.readsNull .tagged p.2) (fun c start => ?_)
    (fun fits all => .taggedMap fits (fun p hp => (all p hp).1) fun p hp => (all p hp).2) cur
  refine Ends.bind ((anywhere c start).mono (fun k c' _ hk => ?_) fun _ he => he)
  exact Ends.map ((anywhere c' start).mono (fun v _ _ hv => ⟨hk, hv⟩) fun _ he => he)

/-- What stands behind tags has their shape, as far down as they go. -/
theorem sound_taggedWithin {fault : DecodeFault} {hook : Reading Value}
    (hh : Sound ds .tagged hook) : ∀ depth,
    Sound ds .tagged (Wire.Read.taggedWithin (.decode fault) hook depth)
  | 0 => fun _ => Ends.fail (.decode fault)
  | depth + 1 => fun cur => by
    have tag : Ends (Wire.Read.slot (.decode fault) Wire.Read.int) cur (fun _ _ => True)
        (Fault ds .tagged cur) :=
      Ends.mapError ((Answers.any _ cur).mono (fun _ _ _ _ => trivial) fun _ _ => .decode fault)
    refine Ends.bind (tag.mono (fun tag cur' _ _ => ?_) fun _ he => he)
    exact (sound_payload hh (sound_taggedWithin hh depth) tag cur').mono (fun _ _ _ hv => hv)
      fun _ he => he.of_part nofun

include sound

/-- A tagged slot is read with the shape of a tagged value. -/
theorem sound_readTagged : Sound ds .tagged (readTagged readers) := by
  intro cur
  refine sound_taggedWithin (fun cur' => Ends.mapError (Ends.intro ?_ ?_)) _ cur
  · intro v cur'' run
    -- The leaf only stands for some slot of instances here.
    have layout : Leaf.parcelable.layout (.named "") = .op .parcelable := rfl
    have named := ends_readNamed sound layout cur'
    rcases named.ok run with rfl | ⟨d, hd, fits, hv⟩
    · exact .plain .null
    · exact .taggedInstance hd fits hv
  · intro e _ _
    exact fault_restated e

/-! ## §6. Codecs. -/

/-- A leaf is sound if its class is described. -/
theorem sound_leaf {ty : JavaType} {l : Leaf}
    (described : ∀ name, l.layout ty = .instanceOf name → ∃ d ∈ ds, d.typeName = name) :
    Sound ds (.codec (.leaf ty l)) (readLayout readers (l.layout ty)) := by
  intro cur
  rcases hl : l.layout ty with op | - | name
  · -- Most operations read a value of their own; the two that depend on a class are taken apart.
    by_cases fixed : op.isPolymorphic = false
    · have read : Ends (Reading.ofOp op op.read) cur
          (fun v _ => Shaped ds Layout.readsNull (.codec (.leaf ty l)) v)
          (Fault ds (.codec (.leaf ty l)) cur) := by
        refine (ends_ofOp (Wire.Op.answers_read op fixed)).mono (fun v _ _ hv => ?_) fun _ he => he
        rcases hv with holds | ⟨rfl, null⟩
        · exact .op hl holds
        · exact .void (hl ▸ null)
      cases op with
      | parcelable => cases fixed
      | value => cases fixed
      | _ => exact read
    · cases op with
      | parcelable =>
        refine (ends_readNamed sound hl cur).mono (fun v _ _ hv => ?_) fun _ he => he
        rcases hv with rfl | ⟨d, hd, fits, hv⟩
        · exact .void (hl ▸ rfl)
        · exact .named hl hd fits hv
      | value =>
        exact (sound_readTagged sound cur).mono (fun _ _ _ hv => .tagged hl hv)
          fun _ he => he.of_part nofun
      | _ => exact absurd rfl fixed
  · refine Ends.bind ((ends_ofOp Wire.Read.answers_string).mono
      (fun name cur' _ fits => ?_) fun _ he => he)
    cases name with
    | none => exact Ends.pure (.void (hl ▸ rfl))
    | some name => exact Ends.pure (.constant hl (fits name rfl))
  · obtain ⟨d, hd, rfl⟩ := described name hl
    exact (sound.known d hd cur).mono (fun _ _ _ hv => .nested hl hd hv)
      fun _ he => he.of_part fun _ miss => .nested hl hd miss

/-- The elements of a container are sound if the slot of each is. -/
theorem ends_slots {count : Reading Nat} (counts : Counts ds count) {e : Codec} {nullable : Bool}
    (h : Sound ds (.codec e) (decodeWith guardedCount readers e)) {role : Role} {cur : Cursor}
    (part : ∀ {cur' name}, Reaches (decodeSlot ds e nullable) cur cur' →
      Misses ds (.slot e nullable) cur' name → Misses ds role cur name) :
    Ends (readElements count (readSlot e nullable (decodeWith guardedCount readers e))) cur
      (fun items _ => Fitting items.length
        ∧ ∀ v ∈ items, Shaped ds Layout.readsNull (.slot e nullable) v)
      (Fault ds role cur) :=
  ends_readElements counts (sound.advances_slot e nullable) (sound.slot_follows e nullable)
    fun cur' reached => (sound_readSlot h cur').mono (fun _ _ _ hv => hv)
      fun _ he => he.of_part fun _ miss => part reached miss

/-- The entries of a map are sound if their keys and values are. -/
theorem sound_map {ty : JavaType} {box : Container} {k v : Codec}
    (hk : Sound ds (.codec k) (decodeWith guardedCount readers k))
    (hv : Sound ds (.codec v) (decodeWith guardedCount readers v)) :
    Sound ds (.codec (.map ty box k v)) (decodeWith guardedCount readers (.map ty box k v)) := by
  intro cur
  have keyMoves := sound.advances_slot k box.nulls
  have valueMoves := sound.advances_slot v true
  have follows : ∀ cur, Agree lenient cur (readPair _ _) (readPair _ _) := fun cur =>
    agree_readPair (sound.slot_follows k box.nulls cur) keyMoves (sound.slot_follows v true cur)
      valueMoves
  have entry : ∀ cur',
      Reaches (readPair (decodeSlot ds k box.nulls) (decodeSlot ds v true)) cur cur' →
      Ends (readPair (readSlot k box.nulls (decodeWith guardedCount readers k))
        (readSlot v true (decodeWith guardedCount readers v))) cur'
        (fun p _ => Shaped ds Layout.readsNull (.slot k box.nulls) p.1
          ∧ Shaped ds Layout.readsNull (.slot v true) p.2)
        (Fault ds (.codec (.map ty box k v)) cur) := by
    intro cur' reached
    refine Ends.bind ((sound_readSlot hk cur').mono (fun a cur'' run ha => ?_) fun _ he => ?_)
    · have before := Agree.ok (sound.slot_follows k box.nulls cur') run
      exact Ends.map ((sound_readSlot hv cur'').mono (fun b _ _ hb => ⟨ha, hb⟩)
        fun _ he => he.of_part fun _ miss => .value reached before miss)
    · exact he.of_part fun _ miss => .key reached miss
  have entries :=
    ends_readElements counts_readCount (advances_readPair keyMoves valueMoves) follows entry
  refine Ends.map (entries.mono (fun pairs _ _ all => ?_) fun _ he => he)
  obtain ⟨fits, each⟩ := all
  -- Entries with equal keys replace each other, which keeps their shape and sets the keys apart.
  have kept := forall_setEntries Value.same each [] nofun
  have apart := pairwise_setEntries Value.same pairs [] .nil
  exact .map (fits.of_le (length_setEntries_le Value.same pairs [])) apart
    (fun p hp => (kept p hp).1) fun p hp => (kept p hp).2

/-- The entries of a sparse array are sound if their values are. -/
theorem sound_sparseArray {ty : JavaType} {e : Codec}
    (h : Sound ds (.codec e) (decodeWith guardedCount readers e)) :
    Sound ds (.codec (.sparseArray ty e))
      (decodeWith guardedCount readers (.sparseArray ty e)) := by
  intro cur
  have keyMoves := advances_readInt.weaken (Nat.zero_le 4)
  have valueMoves := sound.advances_slot e true
  have follows : ∀ cur, Agree lenient cur (readPair readInt _) (readPair readInt _) := fun cur =>
    agree_readPair (Agree.refl readInt) keyMoves (sound.slot_follows e true cur) valueMoves
  have entry : ∀ cur', Reaches (readPair readInt (decodeSlot ds e true)) cur cur' →
      Ends (readPair readInt (readSlot e true (decodeWith guardedCount readers e))) cur'
        (fun p _ => Shaped ds Layout.readsNull (.slot e true) p.2)
        (Fault ds (.codec (.sparseArray ty e)) cur) := by
    intro cur' reached
    refine Ends.bind (ends_readInt.mono (fun key cur'' _ before => ?_) fun _ he => he)
    exact Ends.map ((sound_readSlot h cur'').mono (fun _ _ _ hv => hv)
      fun _ he => he.of_part fun _ miss => .sparse reached before miss)
  have entries :=
    ends_readElements counts_readCount (advances_readPair keyMoves valueMoves) follows entry
  refine Ends.map (entries.mono (fun pairs _ _ all => ?_) fun _ he => he)
  obtain ⟨fits, each⟩ := all
  have kept := forall_setEntries (fun a b : Int32 => a == b) (K := fun _ => True)
    (fun p hp => ⟨trivial, each p hp⟩) [] nofun
  have apart := pairwise_setEntries (fun a b : Int32 => a == b) pairs [] .nil
  exact .sparseArray (fits.of_le (length_setEntries_le (fun a b : Int32 => a == b) pairs []))
    (apart.imp fun {a b} h => by simpa using h) fun p hp => (kept p hp).2

/-- A decoding along a codec is sound if the classes that are nested in it are described. -/
theorem sound_decodeWith : ∀ (c : Codec),
    c.Links (fun ty _ => ∃ d ∈ ds, d.typeName = Calls.nameOf ty) →
      Sound ds (.codec c) (decodeWith guardedCount readers c)
  | .leaf ty l, links => by
    refine sound_leaf sound fun name hl => ?_
    cases l with
    | nested companion =>
      cases hl
      exact links companion rfl
    | _ => cases hl
  | .array ty e, links => fun _ =>
    Ends.map ((ends_slots sound counts_guardedCount (sound_decodeWith e links) .array).mono
      (fun _ _ _ all => .array all.1 all.2) fun _ he => he)
  | .sequence ty kind box e, links => fun _ =>
    Ends.map ((ends_slots sound counts_readCount (sound_decodeWith e links) .sequence).mono
      (fun _ _ _ all => .sequence all.1 all.2) fun _ he => he)
  | .map ty box k v, links =>
    sound_map sound (sound_decodeWith k links.1) (sound_decodeWith v links.2)
  | .sparseArray ty e, links => sound_sparseArray sound (sound_decodeWith e links)
  | .adapter ty use deps, links => links.elim

end Named

/-! ## §7. Instances. -/

/-- One more property is read behind the others. -/
theorem readFields_concat {read : Property → Reading Value} {p : Property} {v : Value}
    {front : List Property} {fields : List (String × Value)} {cur cur' cur'' : Cursor}
    (last : readSlot p.codec p.nullable (read p) cur' = (.ok v, cur''))
    (run : readFields read front cur = (.ok fields, cur')) :
    readFields read (front ++ [p]) cur = (.ok (fields ++ [(p.name, v)]), cur'') := by
  have single : readFields read [p] cur' = (.ok [(p.name, v)], cur'') := Step.bind_ok last
  rw [readFields_append, Step.bind_ok run, Step.bind_ok single]
  rfl

section Instances

variable {d : Descriptor} {read : Property → Reading Value}
  (sound : ∀ p ∈ d.properties, Sound ds (.codec p.codec) (read p))
  (follows : ∀ p ∈ d.properties, ∀ cur,
    Agree lenient cur (read p) (decodeWith readCount (decode ds) p.codec))

include sound follows

/-- The properties of an instance are sound, each behind those in front of it. -/
theorem ends_readFields (hs : d.singleton = false) (cur : Cursor) :
    ∀ (back front : List Property) {fields : List (String × Value)} {cur' : Cursor},
      d.properties = front ++ back →
      readFields (fun p => decodeWith readCount (decode ds) p.codec) front cur
        = (.ok fields, cur') →
      Ends (readFields read back) cur'
        (fun pairs _ => pairs.map (·.1) = back.map (·.name) ∧ ∀ q ∈ pairs, ∃ p ∈ back,
          p.name = q.1 ∧ Shaped ds Layout.readsNull (.slot p.codec p.nullable) q.2)
        (Fault ds (.instanceOf d) cur)
  | [], _, _, _, _, _ => Ends.pure ⟨rfl, nofun⟩
  | p :: rest, front, fields, cur', split, before => by
    have hp : p ∈ d.properties := split ▸ List.mem_append_right front List.mem_cons_self
    refine Ends.bind ((sound_readSlot (sound p hp) cur').mono (fun v cur'' run hv => ?_)
      fun _ he => he.of_part fun _ miss => .property hs split before miss)
    have more : readFields (fun p => decodeWith readCount (decode ds) p.codec) (front ++ [p]) cur
        = (.ok (fields ++ [(p.name, v)]), cur'') :=
      readFields_concat (Agree.ok (agree_readSlot (follows p hp cur')) run) before
    have others := ends_readFields hs cur rest (front ++ [p])
      (by rw [split, List.append_assoc]; rfl) more
    refine Ends.map (others.mono (fun pairs _ _ all => ?_) fun _ he => he)
    refine ⟨congrArg (p.name :: ·) all.1, List.forall_mem_cons.mpr ⟨?_, fun q hq => ?_⟩⟩
    · exact ⟨p, List.mem_cons_self, rfl, hv⟩
    · obtain ⟨p', hp', same, shape⟩ := all.2 q hq
      exact ⟨p', List.mem_cons_of_mem p hp', same, shape⟩

/-- An instance is sound if its properties are. -/
theorem sound_decodeInstance (uniform : Uniform d.properties) :
    Sound ds (.instanceOf d) (decodeInstance read d) := by
  intro cur
  unfold decodeInstance
  by_cases hs : d.singleton = true
  · rw [if_pos hs]
    exact Ends.pure (.singleton hs)
  · rw [if_neg hs]
    have single : d.singleton = false := Bool.eq_false_iff.mpr hs
    have fields := ends_readFields sound follows single cur d.properties [] rfl rfl
    refine Ends.map (fields.mono (fun pairs _ _ all => ?_) fun _ he => he)
    obtain ⟨names, shapes⟩ := all
    have same : ∀ n, n ∈ (Value.fieldsOf pairs).map (·.1) ↔ n ∈ d.properties.map (·.name) := by
      intro n
      rw [Value.mem_names_fieldsOf, names]
    refine .object single (Value.sorted_fieldsOf pairs) same fun p hp => ?_
    -- A field has a value that was read for a property of its name, and these are all alike.
    have there := (same p.name).mpr (List.mem_map_of_mem hp)
    obtain ⟨v, hv⟩ := Option.isSome_iff_exists.mp (Value.lookup_isSome_of_mem there)
    obtain ⟨q, hq, name, shape⟩ := shapes _ (Value.mem_of_lookup_fieldsOf hv)
    obtain ⟨codec, nullable⟩ := uniform q hq p hp name
    rw [hv, Option.getD_some, ← codec, ← nullable]
    exact shape

end Instances

end ParcelCodec.Format
