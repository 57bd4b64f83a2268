import ParcelCodec.Proofs.DataClass.Adapters

/-!
# The shared codecs of compiled classes

Adapters and shared codecs of a compiled companion draw their names from one scope, so all their
names differ, also where different types have one constant name.  A type has one shared codec.  The
procedures of the companion fall into parts, one for each property in their order, and the part of
a composite property reads or writes it through the shared codec of its type.

Main statement: `shared_of_mem_companions`.
-/

namespace ParcelCodec

open DataClass (Descriptor Property)

namespace Companion

/-! ## §1. The parts of the procedures. -/

section Parts

variable {R : Property → List Stmt → Prop}

/-- The properties are read one after another, and what holds of each read holds of its part. -/
theorem exists_reads (around : Surroundings) (ps : List Property)
    (each : ∀ p ∈ ps, ∀ name scope, R p (readProperty around p name scope)) :
    ∀ scope, ∃ parts, (readProperties around scope ps).2 = parts.flatten
      ∧ List.Forall₂ R ps parts := by
  induction ps with
  | nil =>
    intro scope
    exact ⟨[], rfl, .nil⟩
  | cons p rest ih =>
    intro scope
    obtain ⟨parts, same, all⟩ :=
      ih (fun q hq => each q (List.mem_cons_of_mem p hq)) (scope.allocate p.name).2
    refine ⟨_ :: parts, ?_, .cons (each p List.mem_cons_self (scope.allocate p.name).1
      (scope.allocate p.name).2) all⟩
    rw [List.flatten_cons, ← same]
    rfl

/-- The properties are written one after another. -/
theorem exists_writes (s : Statics) (owner : JavaType) (ps : List Property)
    (each : ∀ p ∈ ps, ∀ name scope, R p
      (.declare name p.type (propertyValue owner p) :: writeProperty s p name scope)) :
    ∀ scope, ∃ parts, writeBody s owner scope ps = parts.flatten
      ∧ List.Forall₂ R ps parts := by
  induction ps with
  | nil =>
    intro scope
    exact ⟨[], rfl, .nil⟩
  | cons p rest ih =>
    intro scope
    obtain ⟨parts, same, all⟩ :=
      ih (fun q hq => each q (List.mem_cons_of_mem p hq)) (scope.allocate p.name).2
    refine ⟨_ :: parts, ?_, .cons (each p List.mem_cons_self (scope.allocate p.name).1
      (scope.allocate p.name).2) all⟩
    rw [List.flatten_cons, ← same]
    rfl

end Parts

/-- The reads of the properties stand in one piece in the procedure that reads an instance. -/
theorem exists_readBody (s : Statics) (d : Descriptor) : ∃ start finish,
    readBody s d = start ++ (readProperties (opening s d.type d.requiresClassLoader).2.1
      (opening s d.type d.requiresClassLoader).2.2 d.properties).2 ++ finish := by
  unfold readBody
  exact ⟨_, _, (List.append_assoc _ _ _).trans (List.append_assoc _ _ _)⟩

/-! ## §2. Through shared codecs. -/

/-- What reads a property through a shared codec: into a local variable, and only behind a marker
that says that it is there, if it can be null. -/
inductive ReadThrough (shared : CodecDecl) (p : Property) : List Stmt → Prop
  | bare (name : String) (never : p.nullable = false) :
    ReadThrough shared p [.declare name p.type (.codecRead shared.name)]
  | marked (name : String) (may : p.nullable = true) :
    ReadThrough shared p
      [.declare name p.type .null, .ifPresent [.assign name (.codecRead shared.name)]]

/-- What obtains a property and writes it through a shared codec: behind the marker 0, if it can be
null, and null as the marker 1. -/
inductive WrittenThrough (shared : CodecDecl) (owner : JavaType) (p : Property) : List Stmt → Prop
  | bare (name : String) (never : p.nullable = false) :
    WrittenThrough shared owner p
      [.declare name p.type (propertyValue owner p), .codecWrite shared.name (.var name)]
  | marked (name : String) (may : p.nullable = true) :
    WrittenThrough shared owner p
      [.declare name p.type (propertyValue owner p),
        .ifNull (.var name) [.write .int (.int 1)]
          [.write .int (.int 0), .codecWrite shared.name (.var name)]]

/-- A shared codec takes no value that is null. -/
theorem isNullSafe_of_isComposite : ∀ {c : Codec}, c.isComposite = true → c.isNullSafe = false
  | .array _ _, _ => rfl
  | .sequence _ _ _ _, _ => rfl
  | .map _ _ _ _, _ => rfl
  | .sparseArray _ _, _ => rfl

theorem readThrough_readSlot (shared : CodecDecl) {p : Property}
    (composite : p.codec.isComposite = true) (name : String) :
    ReadThrough shared p
      (Surroundings.readSlot p.codec p.nullable name ⟨[], .codecRead shared.name⟩) := by
  unfold Surroundings.readSlot
  rw [isNullSafe_of_isComposite composite]
  cases null : p.nullable
  · exact .bare name null
  · exact .marked name null

theorem writtenThrough_writeSlot (shared : CodecDecl) (owner : JavaType) {p : Property}
    (composite : p.codec.isComposite = true) (name : String) :
    WrittenThrough shared owner p (.declare name p.type (propertyValue owner p)
      :: Statics.writeSlot p.codec p.nullable (.var name)
        [.codecWrite shared.name (.var name)]) := by
  unfold Statics.writeSlot
  rw [isNullSafe_of_isComposite composite]
  cases null : p.nullable
  · exact .bare name null
  · exact .marked name null

/-- A companion reads and writes the composite properties of a class through the codecs that it
shares for their types. -/
structure Shares (k : Companion) (d : Descriptor) (shared : JavaType → CodecDecl) : Prop where
  declared : ∀ p ∈ d.properties, p.codec.isComposite = true →
    shared p.type ∈ k.codecs ∧ (shared p.type).type = p.type
  reads : ∃ start parts finish, k.read.body = start ++ parts.flatten ++ finish ∧
    List.Forall₂ (fun p stmts => p.codec.isComposite = true →
      ReadThrough (shared p.type) p stmts) d.properties parts
  writes : ∃ parts, k.write.body = parts.flatten ∧
    List.Forall₂ (fun p stmts => p.codec.isComposite = true →
      WrittenThrough (shared p.type) d.type p stmts) d.properties parts

variable {d : Descriptor} {shared : JavaType → CodecDecl}

/-- The composite properties are read by the names that the shared codecs of their types have. -/
theorem exists_readThrough (single : d.singleton = true → d.properties = [])
    (named : ∀ p ∈ d.properties, p.codec.isComposite = true →
      (shared p.type).name = (Statics.ofDescriptor d).codecName p.type) :
    ∃ start parts finish, (ofDescriptor d).read.body = start ++ parts.flatten ++ finish ∧
      List.Forall₂ (fun p stmts => p.codec.isComposite = true →
        ReadThrough (shared p.type) p stmts) d.properties parts := by
  by_cases alone : d.singleton = true
  · -- The procedures of a singleton have no parts.
    rw [single alone]
    exact ⟨_, [], [], by rw [List.flatten_nil, List.append_nil, List.append_nil], .nil⟩
  · have parts : ∀ around scope, around.statics = .ofDescriptor d →
        ∃ parts, (readProperties around scope d.properties).2 = parts.flatten ∧
          List.Forall₂ (fun p stmts => p.codec.isComposite = true →
            ReadThrough (shared p.type) p stmts) d.properties parts := by
      intro around scope here
      refine exists_reads around d.properties (fun p hp name scope composite => ?_) scope
      unfold readProperty
      rw [if_pos composite, here, ← named p hp composite]
      exact readThrough_readSlot (shared p.type) composite name
    obtain ⟨parts, same, all⟩ := parts
      (opening (.ofDescriptor d) d.type d.requiresClassLoader).2.1
      (opening (.ofDescriptor d) d.type d.requiresClassLoader).2.2
      (by cases d.requiresClassLoader <;> rfl)
    obtain ⟨start, finish, body⟩ := exists_readBody (.ofDescriptor d) d
    refine ⟨start, parts, finish, ?_, all⟩
    show (if d.singleton then _ else readBody _ d) = _
    rw [if_neg alone, ← same, body]

/-- They are written by the same names. -/
theorem exists_writtenThrough (single : d.singleton = true → d.properties = [])
    (named : ∀ p ∈ d.properties, p.codec.isComposite = true →
      (shared p.type).name = (Statics.ofDescriptor d).codecName p.type) :
    ∃ parts, (ofDescriptor d).write.body = parts.flatten ∧
      List.Forall₂ (fun p stmts => p.codec.isComposite = true →
        WrittenThrough (shared p.type) d.type p stmts) d.properties parts := by
  by_cases alone : d.singleton = true
  · rw [single alone]
    refine ⟨[], ?_, .nil⟩
    show (if d.singleton then [] else writeBody _ _ _ _) = _
    rw [if_pos alone]
    rfl
  · have parts : ∃ parts,
        writeBody (.ofDescriptor d) d.type .locals d.properties = parts.flatten ∧
          List.Forall₂ (fun p stmts => p.codec.isComposite = true →
            WrittenThrough (shared p.type) d.type p stmts) d.properties parts := by
      refine exists_writes (.ofDescriptor d) d.type d.properties
        (fun p hp name scope composite => ?_) .locals
      unfold writeProperty
      rw [if_pos composite, ← named p hp composite]
      exact writtenThrough_writeSlot (shared p.type) d.type composite name
    obtain ⟨parts, same, all⟩ := parts
    refine ⟨parts, ?_, all⟩
    show (if d.singleton then [] else writeBody _ _ _ _) = _
    rw [if_neg alone, same]

/-- A companion shares codecs for the composite properties if it declares them under the names that
its statics have for their types. -/
theorem shares_ofDescriptor (single : d.singleton = true → d.properties = [])
    (declared : ∀ p ∈ d.properties, p.codec.isComposite = true →
      shared p.type ∈ (ofDescriptor d).codecs ∧ (shared p.type).type = p.type
        ∧ (shared p.type).name = (Statics.ofDescriptor d).codecName p.type) :
    (ofDescriptor d).Shares d shared := by
  have named : ∀ p ∈ d.properties, p.codec.isComposite = true →
      (shared p.type).name = (Statics.ofDescriptor d).codecName p.type :=
    fun p hp composite => (declared p hp composite).2.2
  refine ⟨fun p hp composite => ?_, exists_readThrough single named,
    exists_writtenThrough single named⟩
  obtain ⟨there, type, -⟩ := declared p hp composite
  exact ⟨there, type⟩

end Companion

namespace Compilation

/-! ## §3. Compiled classes. -/

variable {m : Model} {o : Options}

/-- The class of a compiled companion was described. -/
theorem exists_described {d : Descriptor} (hd : d ∈ descriptors m o) :
    ∃ decl, DataClass.Described (codebook m o) o decl d := by
  obtain ⟨decl, -, -, described⟩ := exists_describe (descriptorOf?_of_mem hd)
  exact ⟨decl, .alone described⟩

/-- The shared codec for a type that the composite properties of a class have. -/
theorem exists_shared_for {d : Descriptor} (hd : d ∈ descriptors m o) (ty : JavaType) :
    ∃ shared : CodecDecl, ∀ p ∈ d.properties, p.codec.isComposite = true → p.type = ty →
      shared = Companion.codecDecl (.ofDescriptor d) d.type
          ⟨(Statics.ofDescriptor d).codecName ty, p.codec⟩
        ∧ shared ∈ (Companion.ofDescriptor d).codecs := by
  obtain ⟨_, described⟩ := exists_described hd
  have made := (DataClass.made_of_described described).1
  by_cases some : ∃ p ∈ d.properties, p.codec.isComposite = true ∧ p.type = ty
  · obtain ⟨p, hp, composite, rfl⟩ := some
    obtain ⟨x, hx, name, codec⟩ := Statics.exists_shared made hp composite
    refine ⟨Companion.codecDecl (.ofDescriptor d) d.type x, fun q hq _ same => ?_⟩
    -- Properties of one type have one codec.
    have here : (codebook m o).Makes q.type q.codec := made q hq
    have one : q.codec = p.codec := (same ▸ here).unique (made p hp)
    rw [one, ← name, ← codec]
    exact ⟨rfl, List.mem_map_of_mem hx⟩
  · refine ⟨⟨"", ty, ⟨none, []⟩, ⟨none, []⟩⟩, fun p hp composite same => ?_⟩
    exact absurd ⟨p, hp, composite, same⟩ some

/-- The static fields of a compiled companion have names of their own, which are not those of its
public constants, and its shared codecs are for different types.  Every composite property is read
and written through the shared codec of its type, which is the same for all properties of that
type; and so it is if everything is registered on demand, since that comes to the same
companion. -/
theorem shared_of_mem_companions (m : Model) (o : Options) {k : Companion}
    (hk : k ∈ (ofModel m o).companions) :
    (k.adapters.map (·.name) ++ k.codecs.map (·.name) ++ ["CREATOR", "INSTANCE"]).Nodup ∧
    (k.codecs.map (·.type)).Nodup ∧
    ∃ d ∈ descriptors m o, k = Companion.ofDescriptor d ∧ Desk.companion d = k ∧
      ∃ shared, k.Shares d shared := by
  rw [companions_ofModel] at hk
  obtain ⟨d, hd, rfl⟩ := List.mem_map.mp hk
  have declared := Statics.declared_ofDescriptor d
  obtain ⟨_, described⟩ := exists_described hd
  obtain ⟨made, single⟩ := DataClass.made_of_described described
  refine ⟨?_, ?_, d, hd, rfl, ?_, ?_⟩
  · rw [← Companion.staticNames_eq, Companion.staticNames_ofDescriptor]
    refine (Statics.named_ofDescriptor d).distinct.append (by decide) fun n hn reserved => ?_
    exact declared.not_reserved n hn (List.mem_reverse.mp reserved)
  · have types : (Companion.ofDescriptor d).codecs.map (·.type)
        = (Statics.ofDescriptor d).codecs.map (·.codec.type) := List.map_map
    rw [types]
    exact declared.types
  · have registered : (codebook m o).registry.Registered :=
      Registry.registered_build (workshop m o).catalog
    exact Desk.companion_eq (DataClass.oneInstanceEach_of_made registered made) single
  · -- One shared codec is chosen for each type, so the properties of a type have the same.
    choose shared hs using exists_shared_for hd
    refine ⟨shared, Companion.shares_ofDescriptor single fun p hp composite => ?_⟩
    obtain ⟨same, there⟩ := hs p.type p hp composite rfl
    exact ⟨there, by rw [same]; rfl, by rw [same]; rfl⟩

/-- A class with lists of places and lists of languages, both of a class `Locale`. -/
def journey : Model :=
  ⟨[plainClass "Locale" [], plainClass "Journey" [("places", "java.util.List<Locale>"),
    ("languages", "java.util.List<java.util.Locale>"), ("ways", "java.util.List<Locale>")]], []⟩

theorem codecs_journey : ∃ k ∈ (ofModel journey .default).companions,
    k.codecs.map (·.name) = ["LOCALE_LIST", "LOCALE_LIST_1"] := by
  decide +kernel

/-- Two types have one constant name but codecs with names of their own, and two of the three lists
share one. -/
theorem shared_of_mem_companions_journey : ∃ k ∈ (ofModel journey .default).companions,
    k.codecs.map (·.name) = ["LOCALE_LIST", "LOCALE_LIST_1"] ∧ (k.codecs.map (·.type)).Nodup ∧
      ∃ d ∈ descriptors journey .default, ∃ shared, k.Shares d shared := by
  obtain ⟨k, hk, names⟩ := codecs_journey
  obtain ⟨-, types, d, hd, -, -, shares⟩ := shared_of_mem_companions journey .default hk
  exact ⟨k, hk, names, types, d, hd, shares⟩

end Compilation

end ParcelCodec
