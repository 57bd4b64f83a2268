import ParcelCodec.Proofs.Format.RoundTrip
import ParcelCodec.Proofs.Machine.Ending
import ParcelCodec.Proofs.Wire.Paying

/-!
# How broad the values are that a machine reads

The elements of a container take bytes: a marker, a slot, or an instance that holds something.  So
an answer is no broader than the bytes are many, with one exception.  A container that refuses null
has no markers, and where its elements are instances that take no bytes, its length slot alone says
how many there are.

The induction is on the depth of the calls, over classes that refer to no others.  Main statements:
`Calls.pays_decode`, `breadth_le_of_read`, and for the exception `Format.takes_swarm`.
-/

namespace ParcelCodec

open DataClass (Descriptor Property)
open Wire (Cursor Advances Pays widest widest_le_iff)
open Value (breadth)

variable {α β : Type}

/-! ## §1. Slots and elements. -/

theorem Reading.pays_ofOp {μ : α → Nat} {read : Wire.Read α} (op : Wire.Op) (h : Pays μ read) :
    Pays μ (Reading.ofOp op read) := by
  intro c
  unfold Reading.ofOp
  exact h.mapError _ c

namespace Format

theorem pays_readSlot (c : Codec) (nullable : Bool) {direct : Reading Value}
    (h : Pays breadth direct) : Pays breadth (readSlot c nullable direct) := by
  unfold readSlot
  exact .ite (.behind advances_readInt fun _ => .ite h (.pure rfl)) h

theorem pays_readElements {μ : α → Nat} {k : Nat} {count : Reading Nat} {element : Reading α}
    (hc : Advances k count) (he : Pays μ element) (wide : Advances 1 element) :
    Pays (widest μ) (readElements count element) :=
  .behind hc fun n => he.replicate wide n

/-- Properties pay for the broadest of them. -/
theorem pays_readFields {read : Property → Reading Value} {ps : List Property}
    (h : ∀ p ∈ ps, Pays breadth (readSlot p.codec p.nullable (read p))) :
    Pays Value.breadthOfFields (readFields read ps) := by
  induction ps with
  | nil => exact .pure rfl
  | cons p rest ih =>
    obtain ⟨first, others⟩ := List.forall_mem_cons.mp h
    refine first.bind fun v => (ih others).map _ fun fields => ?_
    show max v.breadth (Value.breadthOfFields fields) - v.breadth ≤ _
    omega

theorem breadth_collect_le (kind : Java.SequenceKind) (items : List Value) :
    (collect kind items).breadth ≤ widest breadth items := by
  rw [breadth_collect]
  exact Wire.Read.breadth_list_le items

end Format

/-! ## §2. Codecs. -/

namespace Calls

variable {calls : Calls} {p : JavaType → String → Prop} (refTo : AdapterUse → AdapterRef)
  (forward : calls.Forward)

include forward

theorem pays_readOp (op : Wire.Op)
    (named : op.isPolymorphic = true → Pays breadth calls.readInstance) :
    Pays breadth (calls.readOp op) := by
  cases op with
  | parcelable => exact named rfl
  | value =>
    intro c
    exact Wire.Read.pays_tagged ((forward.named.weaken (Nat.zero_le 4)).mapError _)
      ((named rfl).mapError _) c
  | _ => exact Reading.pays_ofOp _ (Wire.Op.pays_read _)

/-- A leaf pays for its breadth if the instances do that it can hold. -/
theorem pays_readLeaf (ty : JavaType) (l : Leaf)
    (nested : ∀ companion, l = .nested companion → Pays breadth (calls.readNested companion))
    (named : ∀ op, l.layout ty = .op op → op.isPolymorphic = true →
      Pays breadth calls.readInstance) : Pays breadth (calls.readLeaf l) := by
  cases l with
  | nested companion => exact nested companion rfl
  | enum =>
    refine .behind (Format.advances_ofOp Wire.Read.advances_string) fun name => ?_
    cases name with
    | none => exact .pure rfl
    | some name => exact .pure rfl
  | _ => exact pays_readOp forward _ (named _ rfl)

/-- A slot that can be null takes bytes, and so does one that does not start with an instance. -/
theorem wide_element {c : Codec} {nullable : Bool} (links : c.Links p)
    (h : nullable = true ∨ c.lead = 4) :
    Advances 1 (Format.readSlot c nullable (calls.decode refTo c)) := by
  have direct := advances_decode refTo forward links
  by_cases lead : c.lead = 4
  · rw [lead] at direct
    exact (Format.wide_readSlot c nullable direct).weaken (by decide)
  · obtain rfl : nullable = true := h.resolve_right lead
    have marked : Format.marked c true = true := by
      unfold Codec.lead at lead
      split at lead
      · rfl
      · contradiction
    unfold Format.readSlot
    rw [if_pos marked]
    exact (Format.advances_readInt.weaken (by decide)).andThen fun _ =>
      .ite (direct.weaken (Nat.zero_le _)) (.pure _)

/-- A value of a codec pays for its breadth if the leaves of the codec do, and if the instances take
bytes that are elements without markers. -/
theorem pays_decode : ∀ {c : Codec}, c.Links p →
    (∀ ty l, Codec.Part (.leaf ty l) c → Pays breadth (calls.readLeaf l)) →
    (∀ ty kind box ty' companion,
      Codec.Part (.sequence ty kind box (.leaf ty' (.nested companion))) c → box.nulls = false →
        Advances 1 (calls.readNested companion)) →
    Pays breadth (calls.decode refTo c)
  | .leaf ty l, _, leaf, _ => leaf ty l (.refl _)
  | .array _ e, links, leaf, solid => by
    have element := pays_decode (c := e) links (fun ty l part => leaf ty l (.array part))
      fun ty kind box ty' companion part => solid ty kind box ty' companion (.array part)
    have wide := wide_element refTo forward (c := e) links (.inl rfl)
    exact (Format.pays_readElements Format.wide_guardedCount
      (Format.pays_readSlot e true element) wide).map _ fun items =>
        Wire.Read.breadth_list_le items
  | .sequence ty kind box e, links, leaf, solid => by
    have element := pays_decode (c := e) links (fun ty l part => leaf ty l (.sequence part))
      fun ty kind box ty' companion part => solid ty kind box ty' companion (.sequence part)
    have wide : Advances 1 (Format.readSlot e box.nulls (calls.decode refTo e)) := by
      by_cases kept : box.nulls = true ∨ e.lead = 4
      · exact wide_element refTo forward (c := e) links kept
      · -- Only an instance without a marker is left.
        obtain ⟨bare, unled⟩ := not_or.mp kept
        have unmarked := Bool.eq_false_iff.mpr bare
        unfold Codec.lead at unled
        split at unled
        · next ty' companion =>
          rw [unmarked]
          exact solid ty kind box ty' companion (.refl _) unmarked
        · contradiction
    exact (Format.pays_readElements Format.wide_readCount
      (Format.pays_readSlot e box.nulls element) wide).map _ (Format.breadth_collect_le kind)
  | .map _ box key value, links, leaf, solid => by
    have first := pays_decode (c := key) links.1 (fun ty l part => leaf ty l (.key part))
      fun ty kind box ty' companion part => solid ty kind box ty' companion (.key part)
    have second := pays_decode (c := value) links.2 (fun ty l part => leaf ty l (.value part))
      fun ty kind box ty' companion part => solid ty kind box ty' companion (.value part)
    have keyMoves := advances_element refTo forward key box.nulls links.1
    -- A value can be null, whatever the keys can be.
    have valueWide := wide_element refTo forward (c := value) links.2 (.inl rfl)
    have wide := keyMoves.bind fun k => valueWide.map fun v => (k, v)
    exact (Format.pays_readElements Format.wide_readCount (Wire.Read.pays_pair
      (Format.pays_readSlot key box.nulls first) (Format.pays_readSlot value true second))
      wide).map _ fun pairs =>
        (Format.breadth_mapOf_le pairs).trans (Wire.Read.breadth_map_le pairs)
  | .sparseArray _ e, links, leaf, solid => by
    have element := pays_decode (c := e) links (fun ty l part => leaf ty l (.sparseArray part))
      fun ty kind box ty' companion part => solid ty kind box ty' companion (.sparseArray part)
    have wide := (Format.advances_readInt.weaken (by decide : 1 ≤ 4)).andThen fun k =>
      (advances_element refTo forward e true links).map fun v => (k, v)
    exact (Format.pays_readElements Format.wide_readCount (Wire.Read.pays_pair
      (.nothing Format.advances_readInt) (Format.pays_readSlot e true element)) wide).map _
      fun pairs => (Format.breadth_sparseOf_le pairs).trans
        (Wire.Read.breadth_sparseArray_le pairs)
  | .adapter _ _ _, links, _, _ => links.elim

end Calls

/-! ## §3. Instances. -/

namespace Format

/-- An instance of a class can hold a container that refuses null and whose elements are instances
that take no bytes. -/
inductive Swarms (ds : List Descriptor) (d : Descriptor) : Prop
  | intro {ty ty' : JavaType} {kind : Java.SequenceKind} {box : Container} {companion : String}
    {e : Descriptor} (held : d.Holds (.sequence ty kind box (.leaf ty' (.nested companion))))
    (unmarked : box.nulls = false) (owner : owner? ds companion = some e) (hollow : Hollow ds e) :
    Swarms ds d

end Format

open Format (Readable Refers Hollow Swarms owner?)

namespace Machine

variable {m : Machine} {ds : List Descriptor}

theorem pays_readNamed {classes : String → Reading Value}
    (h : ∀ name, Pays breadth (classes name)) : Pays breadth (readNamed classes) := by
  refine .behind (Format.advances_ofOp Wire.Read.advances_string) fun name => ?_
  cases name with
  | none => exact .pure rfl
  | some name => exact h name

section Instances

variable (program : m.companions = ds.map Companion.ofDescriptor) (readable : Readable ds)
  {S : Set Descriptor} (among : ∀ d ∈ S, d ∈ ds) (closed : ∀ d ∈ S, ∀ e, Refers ds d e → e ∈ S)

include program readable closed

/-- What a class of some holds pays for its breadth if the instances of these classes do, one level
further in. -/
theorem pays_readLeaf_callsWithin {depth : Nat}
    (inner : ∀ n < depth, ∀ d ∈ S, Pays breadth (m.instanceAt n d)) {d : Descriptor} (hd : d ∈ S)
    {ty : JavaType} {l : Leaf} (held : d.Holds (.leaf ty l)) (c : Companion) :
    Pays breadth ((m.callsWithin depth c).readLeaf l) := by
  refine Calls.pays_readLeaf (forward_callsWithin program readable _ c) ty l ?_ ?_
  · rintro companion rfl
    cases depth with
    | zero => exact .fail _
    | succ n =>
      rw [readNested_succ program]
      rcases found : owner? ds companion with _ | e
      · exact .fail _
      · exact inner n (Nat.lt_succ_self n) e (closed d hd e (.nested held found))
  · intro op slot any
    cases depth with
    | zero => exact pays_readNamed fun _ => .fail _
    | succ n =>
      refine pays_readNamed fun name => ?_
      rcases readClass_eq program (m.callsWithin n) name with missing | ⟨e, he, -, same⟩
      · rw [missing]
        exact .fail _
      · rw [same]
        exact inner n (Nat.lt_succ_self n) e (closed d hd e (.anything held slot any he))

omit closed in
/-- Elements without markers take bytes in a class that does not swarm. -/
theorem advances_readNested_of_tame {d : Descriptor} (tame : ¬ Swarms ds d) {ty ty' : JavaType}
    {kind : Java.SequenceKind} {box : Container} {companion : String}
    (held : d.Holds (.sequence ty kind box (.leaf ty' (.nested companion))))
    (unmarked : box.nulls = false) (depth : Nat) (c : Companion) :
    Advances 1 ((m.callsWithin depth c).readNested companion) := by
  cases depth with
  | zero => exact .fail 1 _
  | succ n =>
    rw [readNested_succ program]
    rcases found : owner? ds companion with _ | e
    · exact .fail 1 _
    · have solid : ¬ Hollow ds e := fun hollow => tame ⟨held, unmarked, found, hollow⟩
      exact (wide_instanceAt program readable n e (Format.mem_of_owner? found) solid).weaken
        (by decide)

include among

/-- No instance is broader than it has bytes, at any depth, where no class swarms. -/
theorem pays_instanceAt (tame : ∀ d ∈ S, ¬ Swarms ds d) :
    ∀ depth, ∀ d ∈ S, Pays breadth (m.instanceAt depth d) := by
  intro depth
  induction depth using Nat.strong_induction_on with
  | _ depth ih =>
    intro d hd
    have slots : ∀ p ∈ d.properties, Pays breadth (m.slotAt depth d p) := by
      intro p hp
      refine Format.pays_readSlot _ _ ?_
      rcases propertyAt_eq (m := m) readable depth (among d hd) hp with ⟨-, out⟩ | ⟨n, hn, -, along⟩
      · rw [out]
        exact .fail _
      · have inner : ∀ k < n, ∀ e ∈ S, Pays breadth (m.instanceAt k e) :=
          fun k hk => ih k (Nat.lt_of_lt_of_le hk hn)
        rw [along]
        refine Calls.pays_decode _ (forward_callsWithin program readable n _)
          (readable.plain d (among d hd) p hp) (fun ty l part => ?_) ?_
        · exact pays_readLeaf_callsWithin program readable closed inner hd ⟨p, hp, part⟩ _
        · intro ty kind box ty' companion part unmarked
          exact advances_readNested_of_tame program readable (tame d hd) ⟨p, hp, part⟩ unmarked n _
    rw [instanceAt_eq readable depth (among d hd)]
    unfold Format.decodeInstance
    refine .ite (.pure rfl) ?_
    exact (Format.pays_readFields slots).map _ Value.breadthOfFields_fieldsOf_le

end Instances

/-- What a class reads from some bytes has no container with more elements than there are bytes, if
neither the class nor any that it refers to swarms. -/
theorem breadth_le_of_read (program : m.companions = ds.map Companion.ofDescriptor)
    (readable : Readable ds) {d : Descriptor} (hd : d ∈ ds)
    (own : m.companion? d.typeName = some (Companion.ofDescriptor d))
    (tame : ∀ e, Relation.ReflTransGen (Refers ds) d e → ¬ Swarms ds e) {bytes : List UInt8}
    {v : Value} (h : m.read d.typeName bytes = .ok v) : v.breadth ≤ bytes.length := by
  let S : Set Descriptor := {e | Relation.ReflTransGen (Refers ds) d e}
  have among : ∀ e ∈ S, e ∈ ds := fun _ reached => Format.mem_of_reached hd reached
  have closed : ∀ e ∈ S, ∀ e', Refers ds e e' → e' ∈ S := fun _ reached _ refers =>
    reached.tail refers
  unfold read readFrom readClass at h
  rw [own] at h
  have paid := pays_instanceAt program readable among closed tame _ d .refl _ v h
  exact (Nat.le_add_right _ _).trans paid

end Machine

/-! ## §4. Elements that take no bytes. -/

/-- Instances that take no bytes are as many, in a container without markers, as its length slot
says: four bytes make any number of elements. -/
theorem Format.takes_swarm {readers : Format.Readers} {ty ty' : JavaType}
    {kind : Java.SequenceKind} {box : Container} {companion : String} {v : Value}
    (unmarked : box.nulls = false)
    (empty : Wire.Takes (readers (Calls.nameOf ty')) [] v) {n : Nat} (fits : Wire.Fitting n) :
    Wire.Takes
      (decodeWith readCount readers (.sequence ty kind box (.leaf ty' (.nested companion))))
      (Wire.Slot.length n) (collect kind (List.replicate n v)) := by
  have element : Wire.Takes (readSlot (.leaf ty' (.nested companion)) box.nulls
      (readers (Calls.nameOf ty'))) [] v := by
    unfold readSlot marked
    rw [unmarked, Bool.false_and, if_neg Bool.false_ne_true]
    exact empty
  have all : Wire.Takes (readElements readCount _) (Wire.Slot.length (List.replicate n v).length
      ++ (List.replicate n v).flatMap fun _ => []) (List.replicate n v) :=
    takes_readElements (by rwa [List.length_replicate]) fun a ha =>
      element.of_eq rfl (List.eq_of_mem_replicate ha).symm
  refine (all.map (collect kind)).of_eq ?_ rfl
  rw [List.length_replicate, List.flatMap_eq_nil_iff.mpr fun _ _ => rfl, List.append_nil]

end ParcelCodec
