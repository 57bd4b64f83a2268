import ParcelCodec.Proofs.Companion.Desk
import ParcelCodec.Proofs.Companion.Loaders

/-!
# Procedures that are written inside each other

While one procedure is written on demand, the shared codecs that it comes upon are written as well,
each with a class loader of its own, and so are those that their adapters are given.  There is one
place on the desk for the class loader of the procedure at hand.  Whoever writes another procedure
puts the old class loader back, so each step finds the class loader of its own procedure, and the
procedures that lie on the desk have theirs.

Main statement: `reads_have_loaders`.
-/

namespace ParcelCodec.Desk

open DataClass (Descriptor Property)

/-! ## §1. Steps. -/

/-- A desk for a class on which the class loader of the procedure at hand lies, and on which the
procedures of all shared codecs but some old ones have theirs. -/
structure At (owner : JavaType) (old : List CodecDecl) (loader : Option String) (desk : Desk) :
    Prop where
  ofOwner : desk.owner = owner
  atHand : desk.loader = loader
  codecs : ∀ c ∈ desk.codecs, c ∈ old ∨ c.read.HasLoader owner ∧ c.write.HasLoader owner

/-- A step leads from one class loader at hand to another one, and to an answer of some kind. -/
def Leads {α : Type} (owner : JavaType) (old : List CodecDecl) (before after : Option String)
    (step : StateM Desk α) (p : α → Prop) : Prop :=
  ∀ desk, At owner old before desk → At owner old after (step desk).2 ∧ p (step desk).1

section Steps

variable {α β : Type} {owner : JavaType} {old : List CodecDecl}
  {before between after : Option String} {p : α → Prop} {q : β → Prop}

/-- Returning leads from a desk to itself. -/
theorem Leads.pure {a : α} (h : p a) : Leads owner old before before (pure a : StateM Desk α) p :=
  fun _ desk => ⟨desk, h⟩

/-- Steps in a row lead from the first desk to the last. -/
theorem Leads.bind {step : StateM Desk α} {next : α → StateM Desk β}
    (first : Leads owner old before between step p)
    (rest : ∀ a, p a → Leads owner old between after (next a) q) :
    Leads owner old before after (step >>= next) q := by
  intro desk start
  obtain ⟨middle, holds⟩ := first desk start
  exact rest _ holds _ middle

/-- Looking at the desk leaves it where it was. -/
theorem Leads.get : Leads owner old before before get (At owner old before) :=
  fun _ desk => ⟨desk, desk⟩

/-- An update of the desk leads where the update does. -/
theorem leads_modify {f : Desk → Desk}
    (h : ∀ desk, At owner old before desk → At owner old after (f desk)) :
    Leads owner old before after (modify f) fun _ => True :=
  fun desk start => ⟨h desk start, trivial⟩

/-- The desk is changed, so that another class loader may be at hand. -/
theorem leads_modify_bind {f : Desk → Desk} {next : PUnit → StateM Desk β}
    (between : Option String) (h : ∀ desk, At owner old before desk → At owner old between (f desk))
    (rest : Leads owner old between after (next ⟨⟩) q) :
    Leads owner old before after (modify f >>= next) q :=
  Leads.bind (leads_modify h) fun _ _ => rest

/-- Drawing a name changes nothing about the loader. -/
theorem leads_draw (base : String) : Leads owner old before before (draw base) fun _ => True :=
  fun _ desk => ⟨⟨desk.ofOwner, desk.atHand, desk.codecs⟩, trivial⟩

/-- The opening of a procedure puts its class loader on the desk. -/
theorem leads_opening (s : Statics) (needs : Bool) :
    Leads owner old before (Companion.opening s owner needs).2.1.loader (opening .locals needs)
      (· = ((Companion.opening s owner needs).1, (Companion.opening s owner needs).2.2)) := by
  intro desk start
  have opened : opening .locals needs desk = _ := opening_eq s needs
  rw [start.ofOwner] at opened
  rw [opened]
  exact ⟨⟨rfl, rfl, start.codecs⟩, rfl⟩

end Steps

/-! ## §2. Registering and sharing. -/

section Sharing

variable {owner : JavaType} {old : List CodecDecl} {loader : Option String}

/-- Registering an adapter asks for no loader beyond what its arguments ask for. -/
theorem leads_register {use : AdapterUse} {given : StateM Desk (List DependencyArg)}
    (h : Leads owner old loader loader given fun _ => True) :
    Leads owner old loader loader (register use given) fun _ => True := by
  refine Leads.get.bind fun desk _ => ?_
  split
  · exact .pure trivial
  · split
    · exact leads_modify fun desk start => ⟨start.ofOwner, start.atHand, start.codecs⟩
    · refine h.bind fun deps _ => (leads_draw _).bind fun name _ => ?_
      exact leads_modify fun desk start => ⟨start.ofOwner, start.atHand, start.codecs⟩

/-- Nor does reaching an adapter, registered or shared. -/
theorem leads_reach {use : AdapterUse} {given : StateM Desk (List DependencyArg)}
    (h : Leads owner old loader loader given fun _ => True) :
    Leads owner old loader loader (reach use given) fun _ => True := by
  refine Leads.get.bind fun desk _ => ?_
  split
  · exact .pure trivial
  · exact (leads_register h).bind fun _ _ => Leads.get.bind fun _ _ => .pure trivial

/-- Sharing a codec leaves the class loader of the procedure at hand where it was, and the shared
codec has its own. -/
theorem leads_share {c : Codec} {read : NameScope → StateM Desk Draft}
    {write : NameScope → StateM Desk (List Stmt)}
    (reads : ∀ loader scope, Leads owner old loader loader (read scope)
      fun d => d.Handed loader scope.taken c.loaderReads)
    (writes : ∀ loader scope, Leads owner old loader loader (write scope)
      fun stmts => Stmt.loadersOfAll stmts = []) :
    Leads owner old loader loader (share c read write) fun _ => True := by
  unfold share
  refine Leads.get.bind fun desk _ => ?_
  split
  · exact .pure trivial
  · refine (leads_draw _).bind fun name _ => ?_
    refine leads_modify_bind loader
      (fun desk start => ⟨start.ofOwner, start.atHand, start.codecs⟩) ?_
    refine Leads.get.bind fun outer here => ?_
    refine (leads_opening .empty c.requiresClassLoader).bind fun start opened => ?_
    subst opened
    -- The shared codec has procedures of its own; the loader at hand is put aside for them.
    refine (reads _ _).bind fun draft handed => ?_
    refine leads_modify_bind none (fun desk start => ⟨start.ofOwner, rfl, start.codecs⟩) ?_
    refine (writes none _).bind fun stmts silent => ?_
    refine leads_modify_bind loader (fun desk start => ?_) (.pure trivial)
    refine ⟨start.ofOwner, here.atHand, fun codec hc => ?_⟩
    -- The new codec is behind all those that were shared before.
    rcases List.mem_append.mp hc with hc | hc
    · exact start.codecs codec hc
    · obtain rfl := List.mem_singleton.mp hc
      exact .inr ⟨Companion.hasLoader_shared handed, Companion.hasLoader_of_silent silent⟩

end Sharing

/-! ## §3. Codecs. -/

section Containers

variable {owner : JavaType} {old : List CodecDecl} {loader : Option String} {scope : NameScope}
  {n : Nat}

/-- The statements for the elements of a container go into its draft. -/
theorem leads_readContainer {kind : ContainerKind} {concrete : JavaType} {sized : Bool}
    {element : String → NameScope → StateM Desk (List Stmt)}
    (h : ∀ target inner, scope.taken ⊆ inner.taken →
      Leads owner old loader loader (element target inner) (Stmt.Handed loader scope.taken n)) :
    Leads owner old loader loader (readContainer kind concrete sized scope element)
      (Draft.Handed loader scope.taken n) := by
  intro desk start
  have wider := NameScope.subset_drawn (NameScope.subset_drawn (NameScope.subset_drawn
    (List.Subset.refl scope.taken) "size") (Surroundings.containerName kind)) "i"
  obtain ⟨finish, body⟩ := h _ _ wider desk start
  exact ⟨finish, Draft.Handed.container fun _ _ _ => body⟩

theorem leads_readArray {ty : JavaType} {e : Codec}
    {element : String → NameScope → StateM Desk (List Stmt)}
    (h : ∀ item inner, scope.taken ⊆ inner.taken → item ∉ scope.taken →
      Leads owner old loader loader (element item inner) (Stmt.Handed loader scope.taken n)) :
    Leads owner old loader loader (readArray ty e scope element)
      (Draft.Handed loader scope.taken n) := by
  intro desk start
  have index := NameScope.subset_drawn (NameScope.subset_drawn (NameScope.subset_drawn
    (List.Subset.refl scope.taken) "length") "array") "i"
  have new := NameScope.fresh_not_mem_of_subset index "element"
  obtain ⟨finish, body⟩ := h _ _ (NameScope.subset_drawn index "element") new desk start
  exact ⟨finish, Draft.Handed.array fun _ _ _ _ => body⟩

end Containers

section Codecs

variable {owner : JavaType} {old : List CodecDecl}

mutual

/-- Reading a codec hands on the class loader at hand, whatever has to be registered on the way. -/
theorem leads_read : ∀ (c : Codec) (loader : Option String) (scope : NameScope),
    Leads owner old loader loader (read c scope) (Draft.Handed loader scope.taken c.loaderReads)
  | .leaf ty l, loader, scope => by
    intro desk start
    refine ⟨start, ?_, nofun⟩
    rw [← start.atHand]
    exact loaders_readLeaf _ ty l
  | .adapter _ use deps, loader, scope => by
    unfold read
    exact (leads_reach (leads_argsFor deps loader)).bind fun ref _ => .pure ⟨rfl, nofun⟩
  | .array _ e, loader, scope => by
    unfold read
    refine leads_readArray fun item inner sub new => ?_
    exact (leads_read e loader inner).bind fun d element =>
      .pure ((element.mono sub).slot new e true)
  | .sequence _ kind box e, loader, scope => by
    unfold read
    refine leads_readContainer fun target inner sub => ?_
    exact (leads_read e loader _).bind fun d element => .pure (element.item sub e box.nulls target)
  | .map _ box k v, loader, scope => by
    unfold read
    refine leads_readContainer fun target inner sub => ?_
    refine (leads_read k loader _).bind fun d key => ?_
    exact (leads_read v loader _).bind fun d' value =>
      .pure (key.entry value sub k v box.nulls target)
  | .sparseArray _ e, loader, scope => by
    unfold read
    refine leads_readContainer fun target inner sub => ?_
    exact (leads_read e loader _).bind fun d element => .pure (element.sparseEntry sub e target)

/-- Writing a codec reads nothing. -/
theorem leads_write : ∀ (c : Codec) (loader : Option String) (name : String) (scope : NameScope),
    Leads owner old loader loader (write c (.var name) scope)
      fun stmts => Stmt.loadersOfAll stmts = []
  | .leaf _ l, loader, name, scope => by
    unfold write
    exact .pure (by simp [loaders_writeLeaf name l])
  | .adapter _ use deps, loader, name, scope => by
    unfold write
    exact (leads_reach (leads_argsFor deps loader)).bind fun ref _ => .pure rfl
  | .array _ e, loader, name, scope => by
    unfold write
    refine (leads_write e loader _ _).bind fun stmts element => .pure ?_
    simp [loaders_writeSlot e true _ element]
  | .sequence _ _ box e, loader, name, scope => by
    unfold write
    refine (leads_write e loader _ _).bind fun stmts element => .pure ?_
    simp [loaders_writeSlot e box.nulls _ element]
  | .map _ box k v, loader, name, scope => by
    unfold write
    refine (leads_write k loader _ _).bind fun keys key => ?_
    refine (leads_write v loader _ _).bind fun values value => .pure ?_
    simp [loaders_writeSlot k box.nulls _ key, loaders_writeSlot v true _ value]
  | .sparseArray _ e, loader, name, scope => by
    unfold write
    refine (leads_write e loader _ _).bind fun stmts element => .pure ?_
    simp [loaders_writeSlot e true _ element]

/-- What an adapter is given is registered with the class loader at hand where it was. -/
theorem leads_argsFor : ∀ (deps : List Dependency) (loader : Option String),
    Leads owner old loader loader (argsFor deps) fun _ => True
  | [], _ => by
    unfold argsFor
    exact .pure trivial
  | .token _ :: rest, loader => by
    unfold argsFor
    exact (leads_argsFor rest loader).bind fun _ _ => .pure trivial
  | .codec c :: rest, loader => by
    have others := leads_argsFor rest loader
    cases c with
    | adapter _ use deps =>
      unfold argsFor
      have given := leads_argsFor deps loader
      refine (leads_register given).bind fun _ _ => (leads_reach given).bind fun ref _ => ?_
      exact others.bind fun _ _ => .pure trivial
    | _ =>
      unfold argsFor
      refine (leads_share (leads_read _) fun loader => leads_write _ loader _).bind fun name _ => ?_
      exact others.bind fun _ _ => .pure trivial

end

/-- A shared codec has procedures of its own, so it leaves the loader at hand alone. -/
theorem leads_sharedCodec (c : Codec) (loader : Option String) :
    Leads owner old loader loader (sharedCodec c) fun _ => True :=
  leads_share (leads_read c) fun loader => leads_write c loader _

end Codecs

/-! ## §4. Properties. -/

section Properties

variable {owner : JavaType} {old : List CodecDecl}

/-- A property is handed the class loader at hand. -/
theorem leads_readProperty (p : Property) (loader : Option String) {name : String}
    {scope : NameScope} {taken : List String} (sub : taken ⊆ scope.taken) (new : name ∉ taken) :
    Leads owner old loader loader (readProperty p name scope)
      (Stmt.HandedIf p.codec.requiresClassLoader loader taken) := by
  unfold readProperty
  split
  · exact (leads_sharedCodec p.codec loader).bind fun shared _ =>
      .pure (Companion.handedIf_slot p (.inl ⟨rfl, nofun⟩) new)
  · exact (leads_read p.codec loader scope).bind fun d spot =>
      .pure (Companion.handedIf_slot p (.inr (spot.mono sub)) new)

theorem leads_readProperties (ps : List Property) (loader : Option String) : ∀ scope : NameScope,
    Leads owner old loader loader (readProperties scope ps) fun read =>
      Stmt.HandedIf (ps.any (·.codec.requiresClassLoader)) loader scope.taken read.2 := by
  induction ps with
  | nil =>
    intro scope
    exact .pure ⟨0, fun _ => rfl, .silent rfl rfl⟩
  | cons p rest ih =>
    intro scope
    have wider := NameScope.subset_drawn (List.Subset.refl scope.taken) p.name
    have new := scope.fresh_not_mem p.name
    refine (leads_readProperty p loader wider new).bind fun stmts first => ?_
    exact (ih (scope.drawn p.name)).bind fun read others => .pure (first.append (others.mono wider))

/-- The procedure that reads an instance has its class loader. -/
theorem leads_readBody (d : Descriptor) (loader : Option String) :
    Leads d.type old loader none (readBody d)
      fun body => Procedure.HasLoader d.type ⟨none, body⟩ := by
  unfold readBody
  refine (leads_opening .empty d.requiresClassLoader).bind fun start opened => ?_
  subst opened
  refine (leads_readProperties d.properties _ _).bind fun read properties => ?_
  refine leads_modify_bind none (fun desk start => ⟨start.ofOwner, rfl, start.codecs⟩) (.pure ?_)
  exact Companion.hasLoader_instance read.1 properties

/-- Writing a property hands no loader to anything. -/
theorem leads_writeProperty (p : Property) (loader : Option String) (name : String)
    (scope : NameScope) : Leads owner old loader loader (writeProperty p name scope)
      fun stmts => Stmt.loadersOfAll stmts = [] := by
  unfold writeProperty
  split
  · exact (leads_sharedCodec p.codec loader).bind fun shared _ =>
      .pure (loaders_writeSlot _ _ _ rfl)
  · exact (leads_write p.codec loader name scope).bind fun stmts silent =>
      .pure (loaders_writeSlot _ _ _ silent)

/-- Nor does writing them all. -/
theorem leads_writeBody (ps : List Property) (loader : Option String) : ∀ scope : NameScope,
    Leads owner old loader loader (writeBody owner scope ps)
      fun stmts => Stmt.loadersOfAll stmts = [] := by
  induction ps with
  | nil =>
    intro scope
    exact .pure rfl
  | cons p rest ih =>
    intro scope
    refine (leads_writeProperty p loader _ _).bind fun stmts first => ?_
    exact (ih _).bind fun more others => .pure (Companion.loaders_writing p _ first others)

end Properties

/-! ## §5. Companions. -/

variable {owner : JavaType} {old : List CodecDecl}

/-- Registering a class's adapters leaves the loader at hand alone. -/
theorem leads_registerAll (loader : Option String) (l : List AdapterInstance) :
    Leads owner old loader loader (registerAll l) fun _ => True := by
  induction l with
  | nil => exact .pure trivial
  | cons it rest ih => exact (leads_register (leads_argsFor it.deps loader)).bind fun _ _ => ih

theorem leads_procedures (d : Descriptor) :
    Leads d.type old none none (procedures d) fun both =>
      Procedure.HasLoader d.type ⟨none, both.1⟩ ∧ Stmt.loadersOfAll both.2 = [] := by
  unfold procedures
  refine (leads_registerAll none d.requiredAdapters).bind fun _ _ => ?_
  split
  · exact .pure ⟨Companion.hasLoader_of_silent rfl, rfl⟩
  · refine (leads_readBody d none).bind fun read hasLoader => ?_
    exact (leads_writeBody d.properties none _).bind fun write silent => .pure ⟨hasLoader, silent⟩

/-- The procedures of a companion that is written on demand have their class loaders. -/
theorem hasLoader_companion (d : Descriptor) {p : Procedure} (hp : p ∈ (companion d).procedures) :
    p.HasLoader d.type := by
  have start : At d.type [] none (empty d.type) := ⟨rfl, rfl, nofun⟩
  obtain ⟨finish, read, write⟩ := leads_procedures d _ start
  rcases List.mem_cons.mp hp with rfl | hp
  · exact read
  · rcases List.mem_cons.mp hp with rfl | hp
    · exact Companion.hasLoader_of_silent write
    · obtain ⟨codec, hc, hp⟩ := List.mem_flatMap.mp hp
      have both := (finish.codecs codec hc).resolve_left List.not_mem_nil
      simp only [List.mem_cons, List.not_mem_nil, or_false] at hp
      rcases hp with rfl | rfl
      · exact both.1
      · exact both.2

/-- In every procedure of a companion, planned or written on demand, each read that needs a class
loader names a variable that the procedure declares first of all as the class loader of its class
and never binds again.  And a codec requires a class loader if some read in the statements that read
its value needs one, and only then; an adapter and the companion of a nested class are called there
and read for themselves. -/
theorem reads_have_loaders :
    (∀ d : Descriptor, (∀ p ∈ (Companion.ofDescriptor d).procedures, p.HasLoader d.type)
      ∧ ∀ p ∈ (companion d).procedures, p.HasLoader d.type)
    ∧ ∀ (c : Codec) (scope : NameScope),
      (∀ s : Surroundings, c.requiresClassLoader = true ↔ (s.readPresent c scope).loaders ≠ [])
      ∧ ∀ desk : Desk, c.requiresClassLoader = true ↔ (read c scope desk).1.loaders ≠ [] := by
  refine ⟨fun d => ⟨fun p => Companion.hasLoader_ofDescriptor d, fun p => hasLoader_companion d⟩,
    fun c scope => ⟨fun s => Codec.requiresClassLoader_iff (s.handed_readPresent c scope),
      fun desk => ?_⟩⟩
  have start : At desk.owner desk.codecs desk.loader desk := ⟨rfl, rfl, fun _ => .inl⟩
  obtain ⟨-, handed⟩ := leads_read c desk.loader scope desk start
  exact Codec.requiresClassLoader_iff handed

end ParcelCodec.Desk
