import Mathlib.Data.Fintype.Card
import Mathlib.Data.Set.Finite.Basic
import Mathlib.Logic.Relation
import Mathlib.Order.Filter.AtTopBot.Basic
import Mathlib.Order.Filter.Finite
import ParcelCodec.Proofs.Machine.Depth
import ParcelCodec.Proofs.Machine.Format
import ParcelCodec.Proofs.Machine.Lasting

/-!
# Which reads come to an end

An instance in a slot without a marker starts where its owner starts, unless something in front of
it takes bytes.  Where instances start each other at one position in a circle, reading never ends,
whatever the bytes are.  Where no circle can be reached, every read ends: by induction on the number
of bytes ahead, and at one position along the classes that start each other.

Main statements: `finishes_of_straight` and `not_finishes_of_circular`.
-/

namespace ParcelCodec

open DataClass (Descriptor Property)
open Wire (Cursor Advances)

/-! ## §1. Classes that start each other. -/

namespace Format

/-- The class whose companion is found under a name: of several ones the last. -/
def owner? (ds : List Descriptor) (companion : String) : Option Descriptor :=
  ds.reverse.find? fun d => (Companion.ofDescriptor d).qualifiedName == companion

/-- The class of which a property holds an instance with nothing in front of it. -/
def opened? (ds : List Descriptor) (p : Property) : Option Descriptor :=
  match p.codec with
  | .leaf _ (.nested companion) => if p.nullable then none else owner? ds companion
  | _ => none

variable {ds : List Descriptor}

/-- An instance of a class can hold one of another class somewhere. -/
inductive Refers (ds : List Descriptor) (d e : Descriptor) : Prop
  | nested {ty : JavaType} {companion : String} (held : d.Holds (.leaf ty (.nested companion)))
    (owner : owner? ds companion = some e)
  | anything {ty : JavaType} {l : Leaf} {op : Wire.Op} (held : d.Holds (.leaf ty l))
    (slot : l.layout ty = .op op) (any : op.isPolymorphic = true) (there : e ∈ ds)

/-- The instances of a class take no bytes at all. -/
inductive Hollow (ds : List Descriptor) : Descriptor → Prop
  | singleton {d : Descriptor} (h : d.singleton = true) : Hollow ds d
  | properties {d : Descriptor} (bare : ∀ p ∈ d.properties, opened? ds p ≠ none)
    (each : ∀ p ∈ d.properties, ∀ e, opened? ds p = some e → Hollow ds e) : Hollow ds d

/-- Properties that are read in order start an instance of a class before they take a byte. -/
inductive Leads (ds : List Descriptor) : List Property → Descriptor → Prop
  | first {p : Property} {rest : List Property} {d : Descriptor} (h : opened? ds p = some d) :
    Leads ds (p :: rest) d
  | behind {p : Property} {rest : List Property} {d e : Descriptor} (h : opened? ds p = some e)
    (hollow : Hollow ds e) (later : Leads ds rest d) : Leads ds (p :: rest) d

/-- An instance of a class starts one of another class before it takes a byte. -/
def Opens (ds : List Descriptor) (d e : Descriptor) : Prop :=
  d.singleton = false ∧ Leads ds d.properties e

/-- An instance of a class starts one of the same class before it takes a byte. -/
def Circular (ds : List Descriptor) (d : Descriptor) : Prop := Relation.TransGen (Opens ds) d d

/-- A property that starts an instance is a leaf without a marker, and names the companion. -/
theorem leaf_of_opened {p : Property} {d : Descriptor} (h : opened? ds p = some d) :
    ∃ ty companion, p.codec = .leaf ty (.nested companion) ∧ marked p.codec p.nullable = false
      ∧ owner? ds companion = some d := by
  unfold opened? at h
  split at h
  · next ty companion leaf =>
    split at h
    · cases h
    · next nullable =>
      refine ⟨ty, companion, leaf, ?_, h⟩
      rw [marked, Bool.eq_false_iff.mpr nullable]
      rfl
  · cases h

/-- The owner of a companion is one of the classes. -/
theorem mem_of_owner? {companion : String} {d : Descriptor} (h : owner? ds companion = some d) :
    d ∈ ds := List.mem_reverse.mp (List.mem_of_find?_eq_some h)

theorem mem_of_opened? {p : Property} {d : Descriptor} (h : opened? ds p = some d) : d ∈ ds := by
  obtain ⟨_, _, -, -, owner⟩ := leaf_of_opened h
  exact mem_of_owner? owner

/-- What properties lead to is started by one of them. -/
theorem Leads.exists_opened {ps : List Property} {d : Descriptor} (h : Leads ds ps d) :
    ∃ p ∈ ps, opened? ds p = some d := by
  induction h with
  | first h => exact ⟨_, List.mem_cons_self, h⟩
  | behind _ _ _ ih =>
    obtain ⟨p, hp, start⟩ := ih
    exact ⟨p, List.mem_cons_of_mem _ hp, start⟩

/-- A class that is started is described. -/
theorem Opens.mem {d e : Descriptor} (h : Opens ds d e) : e ∈ ds := by
  obtain ⟨_, _, start⟩ := h.2.exists_opened
  exact mem_of_opened? start

/-- A class refers to what it starts. -/
theorem Opens.refers {d e : Descriptor} (h : Opens ds d e) : Refers ds d e := by
  obtain ⟨p, hp, start⟩ := h.2.exists_opened
  obtain ⟨ty, companion, leaf, -, owner⟩ := leaf_of_opened start
  have held : d.Holds (.leaf ty (.nested companion)) := ⟨p, hp, by rw [leaf]; exact .refl _⟩
  exact .nested held owner

/-- A class that is referred to is described. -/
theorem Refers.mem {d e : Descriptor} (h : Refers ds d e) : e ∈ ds := by
  cases h with
  | nested _ owner => exact mem_of_owner? owner
  | anything _ _ _ there => exact there

/-- Whatever can be reached from a described class is described. -/
theorem mem_of_reached {d e : Descriptor} (hd : d ∈ ds)
    (reached : Relation.ReflTransGen (Refers ds) d e) : e ∈ ds := by
  rcases Relation.ReflTransGen.cases_tail reached with rfl | ⟨_, _, refers⟩
  · exact hd
  · exact refers.mem

/-- A class whose instances are not hollow has a property that takes bytes, or one that starts
with such an instance. -/
theorem exists_of_not_hollow {d : Descriptor} (h : ¬ Hollow ds d) : d.singleton = false
    ∧ ∃ p ∈ d.properties, opened? ds p = none ∨ ∃ e, opened? ds p = some e ∧ ¬ Hollow ds e := by
  constructor
  · cases single : d.singleton with
    | false => rfl
    | true => exact absurd (.singleton single) h
  · by_contra none
    push Not at none
    exact h (.properties (fun p hp => (none p hp).1) fun p hp e he => (none p hp).2 e he)

/-- A property that starts with no instance has a marker or something else in front, or what it
starts with is missing. -/
theorem lead_of_not_opened {p : Property} (h : opened? ds p = none) :
    marked p.codec p.nullable = true ∨ p.codec.lead = 4
      ∨ ∃ ty companion, p.codec = .leaf ty (.nested companion) ∧ owner? ds companion = none := by
  unfold opened? at h
  split at h
  · next ty companion leaf =>
    split at h
    · next nullable =>
      refine .inl ?_
      rw [leaf, marked, nullable]
      rfl
    · exact .inr (.inr ⟨ty, companion, leaf, h⟩)
  · next other =>
    refine .inr (.inl ?_)
    unfold Codec.lead
    split
    · next ty companion leaf => exact absurd leaf (other ty companion)
    · rfl

/-- Where no class is circular, the classes that start each other come to an end. -/
theorem wellFounded_opens {S : Set Descriptor} (finite : S.Finite)
    (straight : ∀ d ∈ S, ¬ Circular ds d) : WellFounded fun e d : S => Opens ds d e := by
  have : Finite S := finite.to_subtype
  have trans : IsTrans S fun e d => Relation.TransGen (Opens ds) d.1 e.1 :=
    ⟨fun _ _ _ he hd => hd.trans he⟩
  have irrefl : Std.Irrefl fun e d : S => Relation.TransGen (Opens ds) d.1 e.1 :=
    ⟨fun d => straight d.1 d.2⟩
  have order := Finite.wellFounded_of_trans_of_irrefl
    fun e d : S => Relation.TransGen (Opens ds) d.1 e.1
  exact Subrelation.wf (fun opens => Relation.TransGen.single opens) order

/-- A numbering of the classes that goes down wherever one starts another rules out circles. -/
theorem straight_of_rank (rank : Descriptor → Nat)
    (down : ∀ d ∈ ds, ∀ e, Opens ds d e → rank e < rank d) : ∀ d ∈ ds, ¬ Circular ds d := by
  intro d hd circular
  have less : ∀ e, Relation.TransGen (Opens ds) d e → e ∈ ds ∧ rank e < rank d := by
    intro e chain
    induction chain with
    | single opens => exact ⟨opens.mem, down d hd _ opens⟩
    | tail _ opens ih => exact ⟨opens.mem, (down _ ih.1 _ opens).trans ih.2⟩
  exact Nat.lt_irrefl _ (less d circular).2

/-- Descriptors whose companions read property by property and call no adapters. -/
structure Readable (ds : List Descriptor) : Prop where
  first : ∀ d ∈ ds, Companion.ConstructorFirst d.properties
  shared : ∀ d ∈ ds, ∀ p ∈ d.properties, p.codec.isComposite = true → HasShared d p
  plain : ∀ d ∈ ds, ∀ p ∈ d.properties, p.codec.Links fun _ _ => True

/-! ## §2. Properties one after another. -/

section Fields

variable {read : Property → Reading Value} {ps : List Property} {k : Nat}

/-- A slot takes a marker, or what is in it. -/
theorem wide_readSlot (c : Codec) (nullable : Bool) {direct : Reading Value}
    (h : Advances 4 direct) : Advances 4 (readSlot c nullable direct) := by
  unfold readSlot
  exact .ite (advances_readInt.andThen fun _ =>
    .ite (h.weaken (Nat.zero_le _)) (.pure _)) h

/-- Properties move forward, one after another, if each of them does. -/
theorem forward_readFields
    (h : ∀ p ∈ ps, Advances 0 (readSlot p.codec p.nullable (read p))) :
    Advances 0 (readFields read ps) := by
  induction ps with
  | nil => exact .pure _
  | cons p rest ih =>
    obtain ⟨first, others⟩ := List.forall_mem_cons.mp h
    exact first.andThen fun v => (ih others).map ((p.name, v) :: ·)

/-- Properties take bytes if one of them does. -/
theorem wide_readFields {p : Property} (hp : p ∈ ps)
    (wide : Advances 4 (readSlot p.codec p.nullable (read p)))
    (h : ∀ p ∈ ps, Advances 0 (readSlot p.codec p.nullable (read p))) :
    Advances 4 (readFields read ps) := by
  induction ps with
  | nil => cases hp
  | cons q rest ih =>
    obtain ⟨first, others⟩ := List.forall_mem_cons.mp h
    rcases List.mem_cons.mp hp with rfl | hp
    · exact wide.andThen fun v => (forward_readFields others).map ((p.name, v) :: ·)
    · exact (first.bind fun v => (ih hp others).map ((q.name, v) :: ·)).weaken (Nat.le_refl 4)

/-- Depth for each property is depth for all of them, since they only move forward. -/
theorem lasts_readFields (lasts : ∀ p ∈ ps, Lasts k (readSlot p.codec p.nullable (read p)))
    (h : ∀ p ∈ ps, Advances 0 (readSlot p.codec p.nullable (read p))) :
    Lasts k (readFields read ps) := by
  induction ps with
  | nil => exact .pure _
  | cons p rest ih =>
    obtain ⟨first, others⟩ := List.forall_mem_cons.mp h
    obtain ⟨here, later⟩ := List.forall_mem_cons.mp lasts
    exact here.andThen first fun v => (ih later others).map ((p.name, v) :: ·)

end Fields

end Format

open Format (Readable owner? opened? Refers Hollow Leads Opens Circular)

namespace Machine

variable {m : Machine} {ds : List Descriptor} {k : Nat}

/-! ## §3. Instances at a depth. -/

/-- An instance of a class, with a number of calls inside each other. -/
def instanceAt (m : Machine) (depth : Nat) (d : Descriptor) : Reading Value :=
  readThrough (m.callsWithin depth) (Companion.ofDescriptor d)

/-- A property of it that is not null. -/
def propertyAt (m : Machine) (depth : Nat) (d : Descriptor) (p : Property) : Reading Value :=
  Companion.propertyReading (m.callsWithin depth (Companion.ofDescriptor d))
    (Statics.ofDescriptor d) p

/-- The slot of a property of it. -/
def slotAt (m : Machine) (depth : Nat) (d : Descriptor) (p : Property) : Reading Value :=
  Format.readSlot p.codec p.nullable (m.propertyAt depth d p)

variable (program : m.companions = ds.map Companion.ofDescriptor) (readable : Readable ds)

section Program

include program

/-- The companion of a name is the one of the last class that owns the name. -/
theorem named?_eq (name : String) :
    m.named? name = (owner? ds name).map Companion.ofDescriptor := by
  unfold named? owner?
  rw [program, ← List.map_reverse, List.find?_map]
  rfl

/-- A class is read through the companion of a described class, or not at all. -/
theorem readClass_eq (within : Companion → Calls) (name : String) :
    m.readClass within name = Step.fail (.missingCompanion name)
      ∨ ∃ d ∈ ds, d.typeName = name
        ∧ m.readClass within name = readThrough within (Companion.ofDescriptor d) := by
  unfold readClass companion?
  rw [program, ← List.map_reverse, List.find?_map]
  rcases found : ds.reverse.find? _ with _ | d
  · exact .inl rfl
  · have named := List.find?_some found
    exact .inr ⟨d, List.mem_reverse.mp (List.mem_of_find?_eq_some found), eq_of_beq named, rfl⟩

/-- A nested instance is read through the companion of its name, one level further in. -/
theorem readNested_succ (depth : Nat) (c : Companion) (name : String) :
    (m.callsWithin (depth + 1) c).readNested name = match owner? ds name with
      | some d => m.instanceAt depth d
      | none => Step.fail (.missingCompanion name) := by
  simp only [callsWithin, named?_eq program]
  cases owner? ds name <;> rfl

end Program

/-- A property that is an instance is read by a call. -/
theorem propertyAt_of_nested {depth : Nat} {d : Descriptor} {p : Property} {ty : JavaType}
    {companion : String} (leaf : p.codec = .leaf ty (.nested companion)) :
    m.propertyAt depth d p
      = (m.callsWithin depth (Companion.ofDescriptor d)).readNested companion := by
  unfold propertyAt Companion.propertyReading
  rw [leaf]
  rfl

include program in
/-- A property that starts with an instance is that instance, one level further in. -/
theorem slotAt_of_opened {d e : Descriptor} {p : Property} (h : opened? ds p = some e)
    (depth : Nat) : m.slotAt depth d p = match depth with
      | 0 => Step.fail .outOfDepth
      | depth + 1 => m.instanceAt depth e := by
  obtain ⟨ty, companion, leaf, unmarked, owner⟩ := Format.leaf_of_opened h
  unfold slotAt Format.readSlot
  rw [if_neg (by simp [unmarked]), propertyAt_of_nested leaf]
  cases depth with
  | zero => rfl
  | succ depth => rw [readNested_succ program, owner]

section Readable

include readable

/-- At any depth, an instance is read by the descriptor of its class. -/
theorem instanceAt_eq (depth : Nat) {d : Descriptor} (hd : d ∈ ds) :
    m.instanceAt depth d = Format.decodeInstance (m.propertyAt depth d) d :=
  Companion.read_ofDescriptor _ (readable.first d hd)

/-- A property is read along its codec, at its own depth or one level further in. -/
theorem propertyAt_eq (depth : Nat) {d : Descriptor} (hd : d ∈ ds) {p : Property}
    (hp : p ∈ d.properties) : (depth = 0 ∧ m.propertyAt depth d p = Step.fail .outOfDepth)
      ∨ ∃ n, n ≤ depth ∧ depth ≤ n + 1 ∧ m.propertyAt depth d p
        = (m.callsWithin n (Companion.ofDescriptor d)).decode (Statics.ofDescriptor d).refTo
          p.codec := by
  unfold propertyAt
  by_cases composite : p.codec.isComposite = true
  · cases depth with
    | zero =>
      refine .inl ⟨rfl, ?_⟩
      unfold Companion.propertyReading
      rw [if_pos composite]
      rfl
    | succ n =>
      have shared := readable.shared d hd p hp composite
      exact .inr ⟨n, Nat.le_succ n, Nat.le_refl _, propertyReading_of_composite shared composite⟩
  · refine .inr ⟨depth, Nat.le_refl _, Nat.le_succ _, ?_⟩
    unfold Companion.propertyReading
    rw [if_neg composite]

end Readable

/-! ## §4. Instances move forward. -/

section Named

variable {classes : String → Reading Value}

/-- An instance behind the name of its class takes the name at least. -/
theorem wide_readNamed (h : ∀ name, Advances 0 (classes name)) :
    Advances 4 (readNamed classes) := by
  refine (Format.advances_ofOp Wire.Read.advances_string).andThen fun name => ?_
  cases name with
  | none => exact .pure _
  | some name => exact h name

/-- An instance behind its name has the bytes of the name less ahead. -/
theorem lasts_readNamed (h : ∀ name, Lasts k (classes name)) :
    Lasts (k + 4) (readNamed classes) := by
  refine (Lasts.ofOp _ _).bind (Format.advances_ofOp Wire.Read.advances_string) fun name => ?_
  cases name with
  | none => exact .pure _
  | some name => exact h name

end Named

section Forward

include readable

/-- A property takes what its codec leads with. -/
theorem advances_propertyAt {depth : Nat}
    (forward : ∀ n ≤ depth, ∀ c, (m.callsWithin n c).Forward) {d : Descriptor} (hd : d ∈ ds)
    {p : Property} (hp : p ∈ d.properties) : Advances p.codec.lead (m.propertyAt depth d p) := by
  rcases propertyAt_eq (m := m) readable depth hd hp with ⟨-, out⟩ | ⟨n, hn, -, along⟩
  · rw [out]
    exact .fail _ _
  · rw [along]
    exact Calls.advances_decode _ (forward n hn _) (readable.plain d hd p hp)

/-- So its slot moves forward, with or without a marker. -/
theorem advances_slotAt {depth : Nat} (forward : ∀ n ≤ depth, ∀ c, (m.callsWithin n c).Forward)
    {d : Descriptor} (hd : d ∈ ds) {p : Property} (hp : p ∈ d.properties) :
    Advances 0 (m.slotAt depth d p) :=
  Format.advances_readSlot _ _
    ((advances_propertyAt readable forward hd hp).weaken (Nat.zero_le _))

/-- So does an instance, property by property. -/
theorem advances_instanceAt {depth : Nat}
    (forward : ∀ n ≤ depth, ∀ c, (m.callsWithin n c).Forward) {d : Descriptor} (hd : d ∈ ds) :
    Advances 0 (m.instanceAt depth d) := by
  rw [instanceAt_eq readable depth hd]
  unfold Format.decodeInstance
  exact .ite (.pure _) ((Format.forward_readFields fun p hp =>
    advances_slotAt readable forward hd hp).map _)

include program

/-- Whatever a companion calls moves forward. -/
theorem forward_callsWithin : ∀ (depth : Nat) (c : Companion), (m.callsWithin depth c).Forward := by
  intro depth
  -- The induction is strong, since an instance calls at its own depth and one level further in.
  induction depth using Nat.strong_induction_on with
  | _ depth ih =>
    intro c
    cases depth with
    | zero => exact ⟨fun _ => .fail 0 _, wide_readNamed fun _ => .fail 0 _⟩
    | succ depth =>
      have inner : ∀ d ∈ ds, Advances 0 (m.instanceAt depth d) := fun d hd =>
        advances_instanceAt readable (fun n hn => ih n (Nat.lt_succ_of_le hn)) hd
      refine ⟨fun companion => ?_, wide_readNamed fun name => ?_⟩
      · rw [readNested_succ program]
        rcases found : owner? ds companion with _ | d
        · exact .fail 0 _
        · exact inner d (Format.mem_of_owner? found)
      · rcases readClass_eq program (m.callsWithin depth) name with missing | ⟨d, hd, -, same⟩
        · rw [missing]
          exact .fail 0 _
        · rw [same]
          exact inner d hd

/-- The slot of a property that starts with no instance takes four bytes at least. -/
theorem wide_slotAt (depth : Nat) {d : Descriptor} (hd : d ∈ ds) {p : Property}
    (hp : p ∈ d.properties) (h : opened? ds p = none) : Advances 4 (m.slotAt depth d p) := by
  have forward : ∀ n ≤ depth, ∀ c, (m.callsWithin n c).Forward := fun n _ =>
    forward_callsWithin program readable n
  have direct := advances_propertyAt readable forward hd hp
  unfold slotAt
  rcases Format.lead_of_not_opened h with marked | lead | ⟨ty, companion, leaf, missing⟩
  · unfold Format.readSlot
    rw [if_pos marked]
    exact Format.advances_readInt.andThen fun _ =>
      .ite (direct.weaken (Nat.zero_le _)) (.pure _)
  · rw [lead] at direct
    exact Format.wide_readSlot _ _ direct
  · refine Format.wide_readSlot _ _ ?_
    rw [propertyAt_of_nested leaf]
    cases depth with
    | zero => exact .fail 4 _
    | succ depth =>
      rw [readNested_succ program, missing]
      exact .fail 4 _

/-- An instance that is not hollow takes four bytes at least. -/
theorem wide_instanceAt : ∀ depth, ∀ d ∈ ds, ¬ Hollow ds d → Advances 4 (m.instanceAt depth d) := by
  intro depth
  induction depth using Nat.strong_induction_on with
  | _ depth ih =>
    intro d hd solid
    -- Some property is wide, and whatever stands around it does not move back.
    obtain ⟨several, p, hp, starts⟩ := Format.exists_of_not_hollow solid
    have slot : Advances 4 (m.slotAt depth d p) := by
      rcases starts with none | ⟨e, opened, solid'⟩
      · exact wide_slotAt program readable depth hd hp none
      · rw [slotAt_of_opened program opened]
        cases depth with
        | zero => exact .fail 4 _
        | succ depth =>
          exact ih depth (Nat.lt_succ_self depth) e (Format.mem_of_opened? opened) solid'
    rw [instanceAt_eq readable depth hd]
    unfold Format.decodeInstance
    rw [if_neg (by simp [several])]
    refine (Format.wide_readFields hp slot fun q hq => ?_).map _
    exact advances_slotAt readable (fun n _ => forward_callsWithin program readable n) hd hq

end Forward

/-! ## §5. Instances that have depth enough. -/

section Lasting

variable {S : Set Descriptor} (among : ∀ d ∈ S, d ∈ ds)
  (closed : ∀ d ∈ S, ∀ e, Refers ds d e → e ∈ S)

section Step

variable {N : Nat} (enough : ∀ n, N ≤ n → ∀ d ∈ S, Lasts k (m.instanceAt n d))

include program readable closed enough

/-- Where the instances of some classes that refer to no others have depth enough, what these
classes hold has it one level further out. -/
theorem lasts_readLeaf_callsWithin {depth : Nat} (deep : N < depth) {d : Descriptor} (hd : d ∈ S)
    {ty : JavaType} {l : Leaf} (held : d.Holds (.leaf ty l)) (c : Companion) :
    Lasts (k + (Codec.leaf ty l).lead) ((m.callsWithin depth c).readLeaf l) := by
  obtain ⟨n, rfl⟩ : ∃ n, depth = n + 1 := ⟨depth - 1, by omega⟩
  have inner := enough n (Nat.le_of_lt_succ deep)
  refine Calls.lasts_readLeaf (forward_callsWithin program readable _ c) l ?_ ?_
  · rintro companion rfl
    rw [readNested_succ program]
    rcases found : owner? ds companion with _ | e
    · exact .fail nofun
    · exact inner e (closed d hd e (.nested held found))
  · intro op slot any
    refine lasts_readNamed fun name => ?_
    rcases readClass_eq program (m.callsWithin n) name with missing | ⟨e, he, -, same⟩
    · rw [missing]
      exact .fail nofun
    · rw [same]
      exact inner e (closed d hd e (.anything held slot any he))

include among

/-- A property has depth enough for the bytes that its codec leads with and those behind. -/
theorem lasts_propertyAt {depth : Nat} (deep : N + 1 < depth) {d : Descriptor} (hd : d ∈ S)
    {p : Property} (hp : p ∈ d.properties) :
    Lasts (k + p.codec.lead) (m.propertyAt depth d p) := by
  rcases propertyAt_eq (m := m) readable depth (among d hd) hp with ⟨zero, -⟩ | ⟨n, -, hn, along⟩
  · omega
  · rw [along]
    refine Calls.lasts_decode _ (forward_callsWithin program readable n _)
      (readable.plain d (among d hd) p hp) fun ty l part => ?_
    exact lasts_readLeaf_callsWithin program readable closed enough (by omega) hd
      ⟨p, hp, part⟩ _

/-- So has its slot: a marker takes no fewer bytes than such a codec leads with. -/
theorem lasts_slotAt {depth : Nat} (deep : N + 1 < depth) {d : Descriptor} (hd : d ∈ S)
    {p : Property} (hp : p ∈ d.properties) : Lasts k (m.slotAt depth d p) :=
  lasts_readSlot _ _ ((lasts_propertyAt program readable among closed enough deep hd hp).weaken
    (Nat.le_add_right k _))

/-- A property that starts with no instance needs depth only behind its first four bytes. -/
theorem lasts_slotAt_of_not_opened {depth : Nat} (deep : N + 1 < depth) {d : Descriptor}
    (hd : d ∈ S) {p : Property} (hp : p ∈ d.properties) (h : opened? ds p = none) :
    Lasts (k + 4) (m.slotAt depth d p) := by
  have direct := lasts_propertyAt program readable among closed enough deep hd hp
  unfold slotAt
  rcases Format.lead_of_not_opened h with marked | lead | ⟨ty, companion, leaf, missing⟩
  · unfold Format.readSlot
    rw [if_pos marked]
    exact (Lasts.ofOp _ _).bind Format.advances_readInt fun _ =>
      .ite (direct.weaken (Nat.le_add_right k _)) (.pure _)
  · rw [lead] at direct
    exact lasts_readSlot _ _ direct
  · refine lasts_readSlot _ _ ?_
    obtain ⟨n, rfl⟩ : ∃ n, depth = n + 1 := ⟨depth - 1, by omega⟩
    rw [propertyAt_of_nested leaf, readNested_succ program, missing]
    exact .fail nofun

/-- Properties have depth enough for one byte more if the instances have it that they start before
they take a byte. -/
theorem lasts_fieldsAt {depth : Nat} (deep : N < depth) {d : Descriptor} (hd : d ∈ S) :
    ∀ {ps : List Property}, (∀ p ∈ ps, p ∈ d.properties) →
      (∀ e, Leads ds ps e → Lasts (k + 1) (m.instanceAt depth e)) →
      Lasts (k + 1) (Format.readFields (m.propertyAt (depth + 1) d) ps)
  | [], _, _ => .pure _
  | p :: rest, own, opened => by
    obtain ⟨hp, own'⟩ := List.forall_mem_cons.mp own
    have forward : ∀ q ∈ d.properties, Advances 0 (m.slotAt (depth + 1) d q) := fun q hq =>
      advances_slotAt readable (fun n _ => forward_callsWithin program readable n) (among d hd) hq
    have slots : ∀ q ∈ d.properties, Lasts k (m.slotAt (depth + 1) d q) := fun q hq =>
      lasts_slotAt program readable among closed enough (Nat.succ_lt_succ deep) hd hq
    -- Behind a byte, every property has depth enough.
    have later : Lasts k (Format.readFields (m.propertyAt (depth + 1) d) rest) :=
      Format.lasts_readFields (fun q hq => slots q (own' q hq)) fun q hq => forward q (own' q hq)
    have solid : Lasts (k + 1) (m.slotAt (depth + 1) d p) → Advances 4 (m.slotAt (depth + 1) d p) →
        Lasts (k + 1) (Format.readFields (m.propertyAt (depth + 1) d) (p :: rest)) :=
      fun here wide => here.bind (wide.weaken (by decide)) fun v => later.map ((p.name, v) :: ·)
    rcases start : opened? ds p with _ | e
    · have here := lasts_slotAt_of_not_opened program readable among closed enough
        (Nat.succ_lt_succ deep) hd hp start
      have wide := wide_slotAt program readable (depth + 1) (among d hd) hp start
      exact solid (here.weaken (by omega)) wide
    · have same : m.slotAt (depth + 1) d p = m.instanceAt depth e :=
        slotAt_of_opened program start (depth + 1)
      have here : Lasts (k + 1) (m.slotAt (depth + 1) d p) := by
        rw [same]
        exact opened e (.first start)
      by_cases hollow : Hollow ds e
      · exact here.andThen (forward p hp) fun v =>
          (lasts_fieldsAt deep hd own' fun e' leads => opened e' (.behind start hollow leads)).map
            ((p.name, v) :: ·)
      · refine solid here ?_
        rw [same]
        exact wide_instanceAt program readable depth e (Format.mem_of_opened? start) hollow

/-- An instance has depth enough for one byte more if the instances have it that it starts before it
takes a byte. -/
theorem lasts_instanceAt_succ {depth : Nat} (deep : N < depth) {d : Descriptor} (hd : d ∈ S)
    (opened : ∀ e, Opens ds d e → Lasts (k + 1) (m.instanceAt depth e)) :
    Lasts (k + 1) (m.instanceAt (depth + 1) d) := by
  rw [instanceAt_eq readable _ (among d hd)]
  unfold Format.decodeInstance
  by_cases single : d.singleton = true
  · rw [if_pos single]
    exact .pure _
  · rw [if_neg single]
    refine (lasts_fieldsAt program readable among closed enough deep hd (fun _ hp => hp)
      fun e leads => ?_).map _
    exact opened e ⟨Bool.eq_false_iff.mpr single, leads⟩

end Step

include program readable among closed in
/-- Where no class is circular, there is a depth for every number of bytes. -/
theorem eventually_lasts (straight : ∀ d ∈ S, ¬ Circular ds d) : ∀ k,
    ∀ᶠ depth in Filter.atTop, ∀ d ∈ S, Lasts k (m.instanceAt depth d)
  | 0 => .of_forall fun _ _ _ _ few => absurd few (Nat.not_lt_zero _)
  | k + 1 => by
    have finite : S.Finite := (List.finite_toSet ds).subset among
    obtain ⟨N, enough⟩ := Filter.eventually_atTop.mp (eventually_lasts straight k)
    -- At one number of bytes, the induction goes along the classes that start each other.
    have each : ∀ d : S, ∀ᶠ depth in Filter.atTop, Lasts (k + 1) (m.instanceAt depth d) := by
      intro d
      induction d using (Format.wellFounded_opens finite straight).induction with
      | _ d ih =>
        have opened : ∀ᶠ depth in Filter.atTop, ∀ e ∈ S,
            Opens ds d e → Lasts (k + 1) (m.instanceAt depth e) := by
          rw [Filter.eventually_all_finite finite]
          intro e he
          by_cases opens : Opens ds d e
          · exact (ih ⟨e, he⟩ opens).mono fun _ lasts _ => lasts
          · exact .of_forall fun _ opens' => absurd opens' opens
        obtain ⟨N', opened⟩ := Filter.eventually_atTop.mp opened
        refine Filter.eventually_atTop.mpr ⟨max (N + 1) N' + 1, fun depth deep => ?_⟩
        obtain ⟨n, rfl⟩ : ∃ n, depth = n + 1 := ⟨depth - 1, by omega⟩
        exact lasts_instanceAt_succ program readable among closed enough (by omega) d.2
          fun e opens => opened n (by omega) e (closed d d.2 e opens.refers) opens
    exact (Filter.eventually_all_finite finite).mpr fun d hd => each ⟨d, hd⟩

end Lasting

/-! ## §6. Circles. -/

/-- A read that is stopped for want of depth stops whatever comes behind it. -/
theorem outOfDepth_bind {α β : Type} {x : Reading α} {f : α → Reading β} {c : Cursor}
    (h : (x c).1 = .error .outOfDepth) : ((x >>= f) c).1 = .error .outOfDepth := by
  rcases run : x c with ⟨r, c'⟩
  rw [run] at h
  obtain rfl : r = _ := h
  rw [Step.bind_error run]

/-- A read at a cursor stays there, unless it is stopped for want of depth. -/
def Rests {α : Type} (x : Reading α) (c : Cursor) : Prop :=
  (∃ a, x c = (.ok a, c)) ∨ (x c).1 = .error .outOfDepth

/-- Reads in a row stay where they are if each of them does there. -/
theorem Rests.bind {α β : Type} {x : Reading α} {f : α → Reading β} {c : Cursor} (h : Rests x c)
    (hf : ∀ a, Rests (f a) c) : Rests (x >>= f) c := by
  rcases h with ⟨a, run⟩ | out
  · unfold Rests
    rw [Step.bind_ok run]
    exact hf a
  · exact .inr (outOfDepth_bind out)

/-- An answer stays where it is. -/
theorem Rests.pure {α : Type} (a : α) (c : Cursor) : Rests (Pure.pure a) c := .inl ⟨a, rfl⟩

section Circles

include program readable

/-- A hollow instance takes no bytes, if there is depth enough for it. -/
theorem rests_instanceAt {d : Descriptor} (h : Hollow ds d) (hd : d ∈ ds) :
    ∀ depth c, Rests (m.instanceAt depth d) c := by
  induction h with
  | singleton single =>
    intro depth c
    rw [instanceAt_eq readable depth hd]
    unfold Format.decodeInstance
    rw [if_pos single]
    exact .pure _ c
  | @properties d bare _ ih =>
    intro depth c
    have slots : ∀ p ∈ d.properties, Rests (m.slotAt depth d p) c := by
      intro p hp
      obtain ⟨e, start⟩ := Option.ne_none_iff_exists'.mp (bare p hp)
      -- The slot has no marker, so it is read where it stands, by the companion it leads to.
      rw [slotAt_of_opened program start]
      cases depth with
      | zero => exact .inr rfl
      | succ depth => exact ih p hp e start (Format.mem_of_opened? start) depth c
    have fields : ∀ ps : List Property, (∀ p ∈ ps, p ∈ d.properties) →
        Rests (Format.readFields (m.propertyAt depth d) ps) c := by
      intro ps among
      induction ps with
      | nil => exact .pure _ c
      | cons p rest later =>
        obtain ⟨hp, among'⟩ := List.forall_mem_cons.mp among
        exact (slots p hp).bind fun v => (later among').bind fun _ => .pure _ c
    rw [instanceAt_eq readable depth hd]
    unfold Format.decodeInstance
    split
    · exact .pure _ c
    · exact (fields d.properties fun _ hp => hp).bind fun _ => .pure _ c

/-- Properties that lead to an instance which is never read to the end are not, either. -/
theorem fieldsAt_of_leads {depth : Nat} {d e : Descriptor} {ps : List Property}
    (leads : Leads ds ps e) (stuck : ∀ n < depth, ∀ c, (m.instanceAt n e c).1 = .error .outOfDepth)
    (c : Cursor) :
    (Format.readFields (m.propertyAt depth d) ps c).1 = .error .outOfDepth := by
  induction leads with
  | @first p rest e start =>
    refine outOfDepth_bind ?_
    show (m.slotAt depth d p c).1 = _
    rw [slotAt_of_opened program start]
    cases depth with
    | zero => rfl
    | succ n => exact stuck n (Nat.lt_succ_self n) c
  | @behind p rest e e' start hollow _ ih =>
    have slot : Rests (m.slotAt depth d p) c := by
      rw [slotAt_of_opened program start]
      cases depth with
      | zero => exact .inr rfl
      | succ n =>
        exact rests_instanceAt program readable hollow (Format.mem_of_opened? start) n c
    -- The slots in front rest where they are, so the instance is started after all.
    unfold slotAt at slot
    rw [Format.readFields]
    rcases slot with ⟨v, run⟩ | out
    · rw [Step.bind_ok run]
      exact outOfDepth_bind (ih stuck)
    · exact outOfDepth_bind out

/-- An instance of a circular class is never read to the end. -/
theorem outOfDepth_of_circular : ∀ depth, ∀ d ∈ ds, Circular ds d → ∀ c,
    (m.instanceAt depth d c).1 = .error .outOfDepth := by
  intro depth
  induction depth using Nat.strong_induction_on with
  | _ depth ih =>
    intro d hd circular c
    -- The next class of the circle is started one level further in, and is circular as well.
    obtain ⟨e, opens, back⟩ := Relation.TransGen.head'_iff.mp circular
    have onward : Circular ds e := .tail' back opens
    rw [instanceAt_eq readable depth hd]
    unfold Format.decodeInstance
    rw [if_neg (by simp [opens.1])]
    exact outOfDepth_bind (fieldsAt_of_leads program readable opens.2
      (fun n less => ih n less e opens.mem onward) c)

end Circles

/-! ## §7. Reads of a class. -/

/-- Reading an instance of a class from some bytes comes to an end: some number of calls inside each
other is enough for an answer or a fault. -/
def Finishes (m : Machine) (className : String) (bytes : List UInt8) : Prop :=
  ∃ depth, (m.readClass (m.callsWithin depth) className (.ofBytes bytes)).1 ≠ .error .outOfDepth

/-- A read that comes to an end does so within its budget, if no adapter is called. -/
theorem finishes_iff (free : ∀ c ∈ m.companions, c.readsAdapterFree = true) {className : String}
    {bytes : List UInt8} :
    m.Finishes className bytes ↔ m.read className bytes ≠ .error .outOfDepth := by
  constructor
  · rintro ⟨depth, ended⟩
    unfold read
    rwa [readFrom_eq_of_depth free ended]
  · exact fun ended => ⟨m.readDepth bytes.length, ended⟩

include program readable

/-- From any bytes, an instance of a class is read to the end if the class refers to no circular
one, however indirectly. -/
theorem finishes_of_straight {d : Descriptor} (hd : d ∈ ds)
    (own : m.companion? d.typeName = some (Companion.ofDescriptor d))
    (straight : ∀ e, Relation.ReflTransGen (Refers ds) d e → ¬ Circular ds e)
    (bytes : List UInt8) : m.Finishes d.typeName bytes := by
  let S : Set Descriptor := {e | Relation.ReflTransGen (Refers ds) d e}
  have among : ∀ e ∈ S, e ∈ ds := fun _ reached => Format.mem_of_reached hd reached
  have closed : ∀ e ∈ S, ∀ e', Refers ds e e' → e' ∈ S := fun _ reached _ refers =>
    reached.tail refers
  have enough := eventually_lasts program readable among closed straight (bytes.length + 1)
  obtain ⟨depth, lasts⟩ := enough.exists
  refine ⟨depth, ?_⟩
  unfold readClass
  rw [own]
  exact lasts d .refl _ (Nat.lt_succ_self bytes.length)

/-- An instance of a circular class is not read to the end from any bytes. -/
theorem not_finishes_of_circular {d : Descriptor} (hd : d ∈ ds)
    (own : m.companion? d.typeName = some (Companion.ofDescriptor d)) (circular : Circular ds d)
    (bytes : List UInt8) : ¬ m.Finishes d.typeName bytes := by
  rintro ⟨depth, ended⟩
  refine ended ?_
  unfold readClass
  rw [own]
  exact outOfDepth_of_circular program readable depth d hd circular _

end Machine

end ParcelCodec
