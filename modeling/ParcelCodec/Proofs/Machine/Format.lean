import ParcelCodec.Machine
import ParcelCodec.Proofs.Companion.OfDescriptor
import ParcelCodec.Proofs.Companion.Statics
import ParcelCodec.Proofs.Format.Depth
import ParcelCodec.Proofs.Format.RoundTrip

/-!
# Machines do what the format says

A machine whose companions come from descriptors that refer to each other reads and writes the
instances of the described classes as the format lays them out.

The machine and the format nest in different ways: a shared codec is a call of its own for the
machine, and the format has none.  So two calls of the machine are compared with one instance of
the format, and the budgets leave room for both.

Main statements: `readFrom_eq_ok_iff`, `readFrom_fails` and `write_of_encode`.
-/

namespace ParcelCodec

open DataClass (Descriptor Property)
open Format (Readers Writers Tolerance Agree decode decodeWith decodeWithin encode encodeWithin
  guardedCount readCount)
open Wire (Cursor Advances)

/-- The companion of a class declares the codec of a property for sharing. -/
def HasShared (d : Descriptor) (p : Property) : Prop :=
  ∃ x ∈ (Statics.ofDescriptor d).codecs, x.name = (Statics.ofDescriptor d).codecName p.type
    ∧ x.codec = p.codec

/-- Descriptors whose companions find each other: classes and companions are told apart by their
names, and each nested class leads to the companion of a described class. -/
structure Format.Linked (ds : List Descriptor) : Prop where
  classes : (ds.map (·.typeName)).Nodup
  companions : (ds.map fun d => (Companion.ofDescriptor d).qualifiedName).Nodup
  first : ∀ d ∈ ds, Companion.ConstructorFirst d.properties
  links : ∀ d ∈ ds, ∀ p ∈ d.properties, p.codec.Links fun ty companion =>
    ∃ d' ∈ ds, (Companion.ofDescriptor d').qualifiedName = companion ∧ d'.typeName = Calls.nameOf ty
  shared : ∀ d ∈ ds, ∀ p ∈ d.properties, p.codec.isComposite = true → HasShared d p

/-- A relation that follows from another one holds in a codec if that one does. -/
theorem Codec.Links.mono {p q : JavaType → String → Prop} (h : ∀ ty companion, p ty companion →
    q ty companion) : ∀ {c : Codec}, c.Links p → c.Links q
  | .leaf _ _, hc => fun companion nested => h _ _ (hc companion nested)
  | .array _ e, hc | .sequence _ _ _ e, hc | .sparseArray _ e, hc => mono h (c := e) hc
  | .map _ _ _ _, hc => ⟨mono h hc.1, mono h hc.2⟩
  | .adapter _ _ _, hc => hc.elim

namespace Machine

variable {m : Machine} {ds : List Descriptor}
  (program : m.companions = ds.map Companion.ofDescriptor) (linked : Format.Linked ds)

/-! ## §1. Finding companions. -/

include program linked

/-- A machine has a companion for the described classes and for no others. -/
theorem companion?_eq (name : String) :
    m.companion? name = (Format.descriptor? ds name).map Companion.ofDescriptor := by
  unfold companion?
  rw [program]
  have names : ((ds.map Companion.ofDescriptor).map Companion.className)
      = ds.map (·.typeName) := by rw [List.map_map]; rfl
  rcases h : Format.descriptor? ds name with _ | d
  · rw [Option.map_none, List.find?_eq_none]
    intro c hc same
    obtain ⟨d, hd, rfl⟩ := List.mem_map.mp (List.mem_reverse.mp hc)
    have found := List.find?_eq_none.mp h d hd
    exact found same
  · obtain ⟨hd, rfl⟩ := Keyed.of_find? h
    exact Keyed.find?_reverse_of_mem Companion.className (names ▸ linked.classes)
      (List.mem_map_of_mem hd)

/-- A machine finds the companion of a described class under its name. -/
theorem named?_of_mem {d : Descriptor} (hd : d ∈ ds) :
    m.named? (Companion.ofDescriptor d).qualifiedName = some (Companion.ofDescriptor d) := by
  unfold named?
  rw [program]
  refine Keyed.find?_reverse_of_mem Companion.qualifiedName ?_ (List.mem_map_of_mem hd)
  rw [List.map_map]
  exact linked.companions

omit program linked

/-- A companion finds the shared codec of a composite property. -/
theorem codec?_of_shared {d : Descriptor} {p : Property} (shared : HasShared d p) :
    ∃ x : SharedCodec, x.codec = p.codec
      ∧ (Companion.ofDescriptor d).codec? ((Statics.ofDescriptor d).codecName p.type)
        = some (Companion.codecDecl (Statics.ofDescriptor d) d.type x) := by
  obtain ⟨x, hx, name, same⟩ := shared
  refine ⟨x, same, ?_⟩
  rw [← name]
  have distinct : ((Companion.ofDescriptor d).codecs.map (·.name)).Nodup := by
    unfold Companion.ofDescriptor
    rw [List.map_map]
    exact (Statics.shares_ofDescriptor d).distinct
  have mem : Companion.codecDecl (Statics.ofDescriptor d) d.type x
      ∈ (Companion.ofDescriptor d).codecs := List.mem_map_of_mem hx
  exact Keyed.find?_of_mem CodecDecl.name distinct mem

/-- The shared codec of a property is called one level further in. -/
theorem propertyReading_of_composite {d : Descriptor} {p : Property} (shared : HasShared d p)
    (composite : p.codec.isComposite = true) {depth : Nat} :
    Companion.propertyReading (m.callsWithin (depth + 1) (Companion.ofDescriptor d))
        (Statics.ofDescriptor d) p
      = (m.callsWithin depth (Companion.ofDescriptor d)).decode (Statics.ofDescriptor d).refTo
          p.codec := by
  obtain ⟨x, same, found⟩ := codec?_of_shared shared
  unfold Companion.propertyReading
  rw [if_pos composite, ← same]
  simp only [callsWithin, found]
  exact Companion.read_codecDecl _ _ x _

/-- So it is for writing. -/
theorem propertyWriting_of_composite {d : Descriptor} {p : Property} (shared : HasShared d p)
    (composite : p.codec.isComposite = true) {depth : Nat} {v : Value} {bytes : List UInt8}
    (hv : (m.callsWithin depth (Companion.ofDescriptor d)).encode (Statics.ofDescriptor d).refTo
      p.codec v = some bytes) :
    Companion.propertyWriting (m.callsWithin (depth + 1) (Companion.ofDescriptor d))
      (Statics.ofDescriptor d) p v = some bytes := by
  obtain ⟨x, same, found⟩ := codec?_of_shared shared
  unfold Companion.propertyWriting
  rw [if_pos composite, Wire.Emission.written?_eq_some]
  simp only [callsWithin, found]
  exact Companion.write_codecDecl _ _ x (same ▸ hv)

/-! ## §2. What a call reads. -/

/-- How the instances of each class are read with a number of calls inside each other. -/
def readersAt (m : Machine) : (depth : Nat) → Readers
  | 0 => fun _ => Step.fail .outOfDepth
  | depth + 1 => m.readClass (m.callsWithin depth)

/-- How a property is read there: a shared codec takes a call of its own. -/
def readPropertyAt (m : Machine) (depth : Nat) (p : Property) : Reading Value :=
  if p.codec.isComposite then
    match depth with
    | 0 => Step.fail .outOfDepth
    | depth + 1 => decodeWith guardedCount (m.readersAt depth) p.codec
  else decodeWith guardedCount (m.readersAt depth) p.codec

theorem readsAs_callsWithin (depth : Nat) (c : Companion) :
    (m.callsWithin depth c).ReadsAs (m.readersAt depth) := by
  cases depth with
  | zero => exact ⟨rfl⟩
  | succ depth => exact ⟨rfl⟩

include program linked

/-- Nested classes are reached at every depth. -/
theorem links_readsClass (depth : Nat) {d : Descriptor} (hd : d ∈ ds) {p : Property}
    (hp : p ∈ d.properties) (c : Companion) :
    p.codec.Links ((m.callsWithin depth c).ReadsClass (m.readersAt depth)) := by
  refine (linked.links d hd p hp).mono ?_
  rintro ty _ ⟨d', hd', rfl, name⟩
  unfold Calls.ReadsClass
  rw [← name]
  cases depth with
  | zero => rfl
  | succ depth =>
    have found : Format.descriptor? ds d'.typeName = some d' :=
      Format.descriptor?_of_mem linked.classes hd'
    simp only [callsWithin, readersAt, readClass, named?_of_mem program linked hd',
      companion?_eq program linked, found, Option.map_some]

/-- The companion of a described class reads its instances property by property. -/
theorem readThrough_ofDescriptor (depth : Nat) {d : Descriptor} (hd : d ∈ ds) :
    readThrough (m.callsWithin depth) (Companion.ofDescriptor d)
      = Format.decodeInstance (m.readPropertyAt depth) d := by
  unfold readThrough
  rw [Companion.read_ofDescriptor _ (linked.first d hd)]
  refine Format.decodeInstance_congr fun p hp => ?_
  unfold readPropertyAt
  by_cases composite : p.codec.isComposite = true
  · rw [if_pos composite]
    cases depth with
    | zero =>
      unfold Companion.propertyReading
      rw [if_pos composite]
      rfl
    | succ depth =>
      rw [propertyReading_of_composite (linked.shared d hd p hp composite) composite]
      exact decode_eq_decodeWith (readsAs_callsWithin depth _) _
        (links_readsClass program linked depth hd hp _)
  · unfold Companion.propertyReading
    rw [if_neg composite, if_neg composite]
    exact decode_eq_decodeWith (readsAs_callsWithin depth _) _
      (links_readsClass program linked depth hd hp _)

/-- The instances of the described classes are read property by property, and those of other
classes not at all. -/
theorem readersAt_succ (depth : Nat) (name : String) :
    m.readersAt (depth + 1) name = match Format.descriptor? ds name with
      | some d => Format.decodeInstance (m.readPropertyAt depth) d
      | none => Step.fail (.missingCompanion name) := by
  show m.readClass (m.callsWithin depth) name = _
  unfold readClass
  rw [companion?_eq program linked]
  rcases h : Format.descriptor? ds name with _ | d
  · rfl
  · exact readThrough_ofDescriptor program linked depth (Keyed.of_find? h).1

/-! ## §3. Depths that agree. -/

omit program linked

/-- The format may run out of depth, and the machine may fail as the format never does. -/
def refused : Tolerance where
  Stops e o := e = .outOfDepth ∨ ∃ e', o = some e' ∧ e' ≠ .outOfDepth
  restated := by
    rintro e o fault (rfl | ⟨e', rfl, other⟩)
    · exact .inl rfl
    · refine .inr ⟨_, rfl, ?_⟩
      cases e' <;> first | exact absurd rfl other | nofun
  any_of_success := by
    rintro e (rfl | ⟨e', h, _⟩) o
    · exact .inl rfl
    · cases h

/-- The machine may run out of depth, and both may fail in their own ways. -/
def early : Tolerance where
  Stops e o := e = .outOfDepth ∨ o ≠ none
  restated := by
    rintro e o fault (rfl | some)
    · exact .inl rfl
    · exact .inr (by simpa using some)
  any_of_success := by
    rintro e (rfl | none) o
    · exact .inl rfl
    · exact absurd rfl none

theorem arraysAgree_refused {c₀ : Cursor} : Format.ArraysAgree refused c₀ readCount guardedCount :=
  Format.arraysAgree_unguarded fun _ _ _ => .inr ⟨_, rfl, nofun⟩

theorem arraysAgree_early {c₀ : Cursor} : Format.ArraysAgree early c₀ guardedCount readCount :=
  Format.arraysAgree_guarded fun _ _ _ => .inr nofun

theorem advances_readPropertyAt {depth : Nat}
    (forward : ∀ depth' ≤ depth, ∀ name, Advances 0 (m.readersAt depth' name)) (p : Property) :
    Advances 0 (m.readPropertyAt depth p) := by
  unfold readPropertyAt
  split
  · cases depth with
    | zero => exact .fail 0 _
    | succ depth =>
      exact Format.advances_decodeWith (forward depth (Nat.le_succ depth))
        Format.advances_guardedCount p.codec
  · exact Format.advances_decodeWith (forward depth (Nat.le_refl depth))
      Format.advances_guardedCount p.codec

include program linked

theorem advances_readersAt : ∀ depth name, Advances 0 (m.readersAt depth name)
  | 0, _ => .fail 0 _
  | depth + 1, name => by
    rw [readersAt_succ program linked]
    split
    · exact Format.advances_decodeInstance
        (advances_readPropertyAt fun depth' _ => advances_readersAt depth') _
    · exact .fail 0 _

/-- The machine does what the format does, if it may go twice as deep. -/
theorem agree_decodeWithin (c₀ : Cursor) : ∀ n depth, 2 * n < depth → ∀ name,
    Agree refused c₀ (decodeWithin ds n name) (m.readersAt depth name)
  | n, 0, deep, _ => absurd deep (by omega)
  | 0, depth + 1, _, name => by
    intro c _
    rw [readersAt_succ program linked, decodeWithin]
    rcases Format.descriptor? ds name with _ | d
    · exact .inl rfl
    · exact .inr ⟨_, rfl, .inl rfl⟩
  | n + 1, depth + 1, deep, name => by
    rw [readersAt_succ program linked, decodeWithin]
    rcases Format.descriptor? ds name with _ | d
    · exact .refl _
    have along : ∀ depth', 2 * n < depth' → ∀ p : Property, Agree refused c₀
        (decodeWith readCount (decodeWithin ds n) p.codec)
        (decodeWith guardedCount (m.readersAt depth') p.codec) := fun depth' deep' p =>
      Format.decodeWith_agree (Format.advances_decodeWithin n)
        (agree_decodeWithin c₀ n depth' deep') Format.advances_readCount
        Format.advances_guardedCount arraysAgree_refused
        (advances_readersAt program linked depth') p.codec
    refine Format.decodeInstance_agree (fun p _ => ?_) fun p => ?_
    · unfold readPropertyAt
      -- A composite property is read through a shared codec, which is the second call of the level.
      split
      · cases depth with
        | zero => omega
        | succ depth => exact along depth (by omega) p
      · exact along depth (by omega) p
    · exact Format.advances_decodeWith (Format.advances_decodeWithin n) Format.advances_readCount
        p.codec

/-- The format does what the machine does, if it may go as deep. -/
theorem agree_readersAt (c₀ : Cursor) : ∀ depth n, depth ≤ n → ∀ name,
    Agree early c₀ (m.readersAt depth name) (decodeWithin ds n name)
  | 0, _, _, _ => fun _ _ => .inr ⟨_, rfl, .inl rfl⟩
  | depth + 1, 0, deep, _ => absurd deep (by omega)
  | depth + 1, n + 1, deep, name => by
    rw [readersAt_succ program linked, decodeWithin]
    rcases Format.descriptor? ds name with _ | d
    · exact .refl _
    have along : ∀ depth', depth' ≤ n → (∀ p : Property, Agree early c₀
        (decodeWith guardedCount (m.readersAt depth') p.codec)
        (decodeWith readCount (decodeWithin ds n) p.codec)) := fun depth' deep' p =>
      Format.decodeWith_agree (advances_readersAt program linked depth')
        (agree_readersAt c₀ depth' n deep') Format.advances_guardedCount
        Format.advances_readCount arraysAgree_early (Format.advances_decodeWithin n) p.codec
    refine Format.decodeInstance_agree (fun p _ => ?_) fun p => ?_
    · unfold readPropertyAt
      split
      · cases depth with
        | zero => exact fun _ _ => .inr ⟨_, rfl, .inl rfl⟩
        | succ depth => exact along depth (by omega) p
      · exact along depth (by omega) p
    · exact advances_readPropertyAt (fun depth' _ => advances_readersAt program linked depth') p

/-! ## §4. Reads. -/

omit linked in
/-- Each class has two procedures at least. -/
theorem two_mul_length_le_callees : 2 * ds.length ≤ m.callees := by
  unfold callees
  rw [program]
  clear program
  induction ds with
  | nil => exact Nat.zero_le _
  | cons d rest ih =>
    simp only [List.map_cons, List.foldr_cons, List.length_cons]
    omega

omit linked in
/-- The budget of a read is enough for two calls for each class at each position. -/
theorem depthFor_lt_readDepth (remaining : Nat) :
    2 * Format.depthFor ds remaining < m.readDepth remaining + 1 := by
  unfold readDepth Format.depthFor
  have product := Nat.mul_le_mul_right (remaining + 1) (two_mul_length_le_callees program)
  rw [Nat.mul_assoc] at product
  omega

omit program linked in
theorem readFrom_eq_readersAt (name : String) (c : Cursor) :
    m.readFrom name c = m.readersAt (m.readDepth c.remaining + 1) name c := rfl

/-- What the machine does, unless the format ran out of depth or an array was refused. -/
theorem related_decode (name : String) (c : Cursor) :
    refused.Related (decode ds name c) (m.readFrom name c) :=
  agree_decodeWithin program linked c _ _ (depthFor_lt_readDepth program c.remaining) name c
    (Wire.Onward.refl c)

/-- A machine reads an instance exactly if the format decodes it, and then the same instance from
the same bytes. -/
theorem readFrom_eq_ok_iff {name : String} {c c' : Cursor} {v : Value} :
    m.readFrom name c = (.ok v, c') ↔ decode ds name c = (.ok v, c') := by
  constructor
  · intro h
    rw [readFrom_eq_readersAt] at h
    rcases agree_readersAt program linked c _ _ (Nat.le_refl _) name c (Wire.Onward.refl c) with
      same | ⟨e, stopped, _⟩
    · have decoded := same.symm.trans h
      rw [Format.decode_eq_of_decodeWithin (by rw [decoded]; nofun), decoded]
    · rw [h] at stopped
      cases stopped
  · intro h
    rcases related_decode program linked name c with same | ⟨e, stopped, _⟩
    · rw [← same, h]
    · rw [h] at stopped
      cases stopped

/-- Where the format finds a fault, the machine fails, and not for want of depth. -/
theorem readFrom_fails {name : String} {c : Cursor} {e : RunError}
    (h : (decode ds name c).1 = .error e) (fault : e ≠ .outOfDepth) :
    ∃ e', (m.readFrom name c).1 = .error e' ∧ e' ≠ .outOfDepth := by
  rcases related_decode program linked name c with same | ⟨e', stopped, ends⟩
  · exact ⟨e, by rw [← same, h], fault⟩
  · rw [h] at stopped
    cases stopped
    rcases ends with out | ⟨e', failed, other⟩
    · exact absurd out fault
    · rcases hm : (m.readFrom name c).1 with e'' | v
      · rw [hm] at failed
        cases failed
        exact ⟨e', rfl, other⟩
      · rw [hm] at failed
        cases failed

/-! ## §5. Writes. -/

omit program in
/-- What a call writes, where nested calls write what the format has for a depth. -/
theorem writeThrough_ofDescriptor {n depth : Nat}
    (inner : ∀ depth', 2 * n < depth' → ∀ c,
      (m.callsWithin depth' c).WritesAs (encodeWithin ds n) ∧ ∀ d' ∈ ds, ∀ v bytes,
        encodeWithin ds n d'.typeName v = some bytes → (m.callsWithin depth' c).writeNested
          (Companion.ofDescriptor d').qualifiedName v = .wrote bytes)
    (deep : 2 * n + 1 < depth) {d : Descriptor} (hd : d ∈ ds) {v : Value} {bytes : List UInt8}
    (hv : Format.encodeInstance (encodeWithin ds n) d v = some bytes) :
    writeThrough (m.callsWithin depth) (Companion.ofDescriptor d) v = .wrote bytes := by
  have links : ∀ depth', 2 * n < depth' → ∀ p ∈ d.properties, ∀ c,
      p.codec.Links ((m.callsWithin depth' c).WritesClass (encodeWithin ds n)) := by
    intro depth' deep' p hp c
    refine (linked.links d hd p hp).mono ?_
    rintro ty _ ⟨d', hd', rfl, name⟩ w content hw
    exact (inner depth' deep' c).2 d' hd' w content (name ▸ hw)
  refine Companion.write_ofDescriptor
    (Companion.instanceWriting_of_encodeInstance (fun p hp w content hw => ?_) hv)
  have along : ∀ depth', 2 * n < depth' → (m.callsWithin depth' (Companion.ofDescriptor d)).encode
      (Statics.ofDescriptor d).refTo p.codec w = some content := fun depth' deep' =>
    encode_of_encodeWith (inner depth' deep' _).1 _ p.codec (links depth' deep' p hp _) w content hw
  by_cases composite : p.codec.isComposite = true
  · cases depth with
    | zero => omega
    | succ depth =>
      exact propertyWriting_of_composite (linked.shared d hd p hp composite) composite
        (along depth (by omega))
  · unfold Companion.propertyWriting
    rw [if_neg composite]
    exact along depth (by omega)

/-- Nested calls write what the format has, if they may go twice as deep. -/
theorem writes_callsWithin : ∀ n depth, 2 * n < depth → ∀ c,
    (m.callsWithin depth c).WritesAs (encodeWithin ds n) ∧ ∀ d ∈ ds, ∀ v bytes,
      encodeWithin ds n d.typeName v = some bytes → (m.callsWithin depth c).writeNested
        (Companion.ofDescriptor d).qualifiedName v = .wrote bytes
  | n, 0, deep, _ => absurd deep (by omega)
  | n, depth + 1, deep, c => by
    have below : ∀ {d : Descriptor} (_ : d ∈ ds) {v : Value} {bytes : List UInt8},
        encodeWithin ds n d.typeName v = some bytes →
        writeThrough (m.callsWithin depth) (Companion.ofDescriptor d) v = .wrote bytes := by
      intro d hd v bytes hv
      -- A level of nesting takes two calls, one for the instance and one for the codec that it
      -- shares.
      cases n with
      | zero => cases hv
      | succ n =>
        rw [Format.encodeWithin_of_mem linked.classes hd] at hv
        exact writeThrough_ofDescriptor linked (writes_callsWithin n) (by omega) hd hv
    refine ⟨⟨fun v bytes hv => ?_⟩, fun d hd v bytes hv => ?_⟩
    · unfold Format.writeNamed at hv
      simp only [callsWithin, writeInstance, writeClass]
      rcases hn : v.className? with _ | name
      · simp only [hn] at hv
        by_cases null : v.isNull = true
        · rw [if_pos null] at hv
          cases hv
          rw [if_pos null]
        · rw [if_neg null] at hv
          cases hv
      · simp only [hn] at hv
        obtain ⟨content, hc, rfl⟩ := Option.map_eq_some_iff.mp hv
        rcases found : Format.descriptor? ds name with _ | d
        · cases n <;> simp [encodeWithin, found] at hc
        · obtain ⟨hd, rfl⟩ := Keyed.of_find? found
          simp only [companion?_eq program linked, found, Option.map_some]
          rw [below hd hc]
          rfl
    · simp only [callsWithin, named?_of_mem program linked hd]
      exact below hd hv

/-- A machine writes an instance that the format has bytes for, and with these bytes. -/
theorem write_of_encode {v : Value} {bytes : List UInt8} (h : encode ds v = some bytes) :
    m.write v = .ok bytes := by
  unfold encode at h
  obtain ⟨name, hn, h⟩ := Option.bind_eq_some_iff.mp h
  obtain ⟨n, weight⟩ : ∃ n, v.weight = n + 1 :=
    ⟨v.weight - 1, by have := v.one_le_weight; omega⟩
  rw [weight] at h
  obtain ⟨d, found, -⟩ := Option.bind_eq_some_iff.mp h
  obtain ⟨hd, rfl⟩ := Keyed.of_find? found
  rw [Format.encodeWithin_of_mem linked.classes hd] at h
  have deep : 2 * n + 1 < m.writeDepth v := by
    have some := List.length_pos_of_mem hd
    have callees : 2 ≤ m.callees := by
      have := two_mul_length_le_callees program
      omega
    unfold writeDepth
    have product := Nat.mul_le_mul_right (v.weight + 1) (show 3 ≤ m.callees + 1 by omega)
    omega
  unfold write
  rw [Wire.Emission.toExcept_eq_ok]
  unfold writeTo writeClass
  simp only [hn, companion?_eq program linked, found, Option.map_some]
  exact writeThrough_ofDescriptor linked (writes_callsWithin program linked n) deep hd h

end Machine

end ParcelCodec
