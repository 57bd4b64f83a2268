import Mathlib.Data.List.Forall2
import ParcelCodec.Companion.OfDescriptor
import ParcelCodec.Proofs.Companion.Writing
import ParcelCodec.Proofs.Value.Fields

/-!
# Companions do what the format says

The procedures of the companion that a descriptor describes read and write an instance as the
format lays it out.  What they call is left open: the readers and the writers of other classes, and
what the shared codecs of the companion do.

A read holds the properties in local variables, hands the first of them to the constructor and
sets the others; the instance is the same as if all of them had been set in order.

Main statements: `read_ofDescriptor`, `write_ofDescriptor`, and for the shared codecs
`read_codecDecl` and `write_codecDecl`.
-/

namespace ParcelCodec

open DataClass (Descriptor Property WriteAccess)
open Locals (Keeps keeps_set)
open Format (Writers encodeWith)

/-! ## §1. Procedures. -/

namespace Procedure

variable {calls : Calls}

/-- A procedure whose body mirrors a reading is that reading. -/
theorem read_of_mirrors {p : Procedure} {r : Reading Value} (companion : String)
    (h : Mirrors (calls.execAll p.body) [] r fun o v _ => o = some v) :
    p.read calls companion = r := by
  funext c
  have hc := h c
  rcases hr : r c with ⟨e | v, c'⟩
  · rw [hr] at hc
    obtain ⟨after, run⟩ := hc
    simp [Procedure.read, run]
  · rw [hr] at hc
    obtain ⟨o, after, run, rfl⟩ := hc
    simp [Procedure.read, run]

/-- A procedure whose body emits bytes writes them. -/
theorem write_of_emits {name : String} {body : List Stmt} {v : Value} {bytes : List UInt8}
    {post : Option Value → Locals → Prop}
    (h : Emits (calls.execAll body) [(name, v)] bytes post) :
    (⟨some name, body⟩ : Procedure).write calls v = .wrote bytes := by
  obtain ⟨o, after, run, -⟩ := h #[]
  simp [Procedure.write, run, Wire.Emission.wrote]

end Procedure

namespace Companion

variable {calls : Calls}

/-! ## §2. Shared codecs. -/

/-- The start of a procedure that reads may declare the class loader and reads nothing. -/
theorem exists_opening (calls : Calls) (s : Statics) (owner : JavaType) (needsLoader : Bool) :
    ∃ start around scope, opening s owner needsLoader = (start, around, scope)
      ∧ around.statics = s ∧ (∀ n ∈ NameScope.locals.taken, n ∈ scope.taken)
      ∧ ∃ L, ∀ ch, calls.execAll start ⟨[], ch⟩ = (.ok none, ⟨L, ch⟩) := by
  unfold opening
  split
  · obtain ⟨loader, scope, allocated, draws⟩ := NameScope.locals.exists_allocate "loader"
    simp only [allocated]
    refine ⟨_, _, _, rfl, rfl, draws.subset, Locals.set loader .null [], fun ch => ?_⟩
    rw [Calls.execAll_singleton]
    exact exec_declare_apply (fun _ => rfl) ch
  · exact ⟨_, _, _, rfl, rfl, fun _ hn => hn, [], fun _ => rfl⟩

/-- Statements that read nothing may stand in front. -/
theorem mirrors_behind {start rest : List Stmt} {locals L : Locals} {r : Reading Value}
    {post : Option Value → Value → Locals → Prop}
    (hs : ∀ ch, calls.execAll start ⟨locals, ch⟩ = (.ok none, ⟨L, ch⟩))
    (hr : Mirrors (calls.execAll rest) L r post) :
    Mirrors (calls.execAll (start ++ rest)) locals r post := by
  rw [Calls.execAll_append]
  exact Mirrors.bind_local hs hr

/-- A shared codec reads what its codec says. -/
theorem read_codecDecl (s : Statics) (owner : JavaType) (shared : SharedCodec)
    (companion : String) :
    (codecDecl s owner shared).read.read calls companion = calls.decode s.refTo shared.codec := by
  obtain ⟨start, around, scope, opened, statics, -, L, run⟩ :=
    exists_opening calls s owner shared.codec.requiresClassLoader
  refine Procedure.read_of_mirrors companion ?_
  unfold codecDecl
  simp only [opened, List.append_assoc]
  rw [← statics]
  exact mirrors_behind run (yields_readPresent around shared.codec scope L).ret

/-- A shared codec writes what its codec says. -/
theorem write_codecDecl (s : Statics) (owner : JavaType) (shared : SharedCodec) {v : Value}
    {bytes : List UInt8} (hv : calls.encode s.refTo shared.codec v = some bytes) :
    (codecDecl s owner shared).write.write calls v = .wrote bytes :=
  Procedure.write_of_emits (appends_writePresent s shared.codec
    (NameScope.locals.withName sharedValue) sharedValue _ v bytes List.mem_cons_self (by simp) hv)

/-! ## §3. Reading an instance. -/

section Reading

variable {locals : Locals}

/-- Variables hold the values of properties. -/
def Hold (locals : Locals) (held : List (Property × String)) (pairs : List (String × Value)) :
    Prop :=
  List.Forall₂ (fun p x => p.1 = x.1.name ∧ locals.lookup x.2 = some p.2) pairs held

/-- Variables that are kept hold what they held. -/
theorem Hold.keeping {names : List String} {after : Locals} {held : List (Property × String)}
    {pairs : List (String × Value)} (h : Hold locals held pairs) (kept : Keeps names locals after)
    (among : ∀ x ∈ held, x.2 ∈ names) : Hold after held pairs := by
  induction h with
  | nil => exact .nil
  | cons here _ ih =>
    have first := kept _ (among _ List.mem_cons_self)
    exact .cons ⟨here.1, first.trans here.2⟩ (ih fun x hx => among x (List.mem_cons_of_mem _ hx))

/-- What is read for a property that is not null: through a shared codec, or in place. -/
def propertyReading (calls : Calls) (s : Statics) (p : Property) : Reading Value :=
  if p.codec.isComposite then calls.readCodec (s.codecName p.type)
  else calls.decode s.refTo p.codec

/-- A property is read into its variable. -/
theorem does_readProperty (around : Surroundings) (p : Property) {name : String}
    {names : List String} {scope : NameScope} (new : name ∉ names)
    (sub : ∀ n ∈ names, n ∈ scope.taken) (locals : Locals) :
    Does calls (readProperty around p name scope) locals
      (Format.readSlot p.codec p.nullable (propertyReading calls around.statics p))
      fun v after => after.lookup name = some v ∧ Keeps names locals after := by
  unfold readProperty propertyReading
  refine does_readSlot new (fun L => ?_) locals
  split
  · exact Yields.ofExpr (Mirrors.read _)
  · exact (yields_readPresent around p.codec scope L).keeping sub

/-- The properties are read in order into variables of their own. -/
theorem does_readProperties (around : Surroundings) : ∀ (ps : List Property) (scope : NameScope)
    (locals : Locals),
    Does calls (readProperties around scope ps).2 locals
      (Format.readFields (propertyReading calls around.statics) ps)
      fun pairs after => Hold after (readProperties around scope ps).1 pairs
        ∧ Keeps scope.taken locals after
  | [], scope, locals => Does.nil ⟨.nil, Keeps.refl _ _⟩
  | p :: rest, scope, locals => by
    obtain ⟨name, scope', allocated, draws⟩ := scope.exists_allocate p.name
    simp only [readProperties, allocated]
    unfold Format.readFields
    refine (does_readProperty around p draws.new draws.subset locals).append fun v between hv => ?_
    obtain ⟨held, kept⟩ := hv
    have others := does_readProperties around rest scope' between
    rw [← List.append_nil (readProperties around scope' rest).2]
    refine others.append fun pairs after ho => Does.nil ⟨?_, ?_⟩
    · exact .cons ⟨rfl, (ho.2 name draws.self_mem).trans held⟩ ho.1
    · exact kept.trans (ho.2.mono draws.subset)

/-- The variables of the properties are new, and they stand for the properties in order. -/
theorem readProperties_held (around : Surroundings) : ∀ (ps : List Property) (scope : NameScope),
    (readProperties around scope ps).1.map (·.1) = ps
      ∧ ∀ x ∈ (readProperties around scope ps).1, x.2 ∉ scope.taken
  | [], _ => ⟨rfl, fun _ hx => absurd hx List.not_mem_nil⟩
  | p :: rest, scope => by
    obtain ⟨name, scope', allocated, draws⟩ := scope.exists_allocate p.name
    obtain ⟨same, new⟩ := readProperties_held around rest scope'
    simp only [readProperties, allocated]
    refine ⟨by rw [List.map_cons, same], ?_⟩
    intro x hx
    rcases List.mem_cons.mp hx with rfl | hx
    · exact draws.new
    · exact fun taken => new x hx (draws.subset _ taken)

/-! ## §4. Building an instance. -/

/-- The properties that the constructor takes come before those that it does not. -/
def ConstructorFirst (ps : List Property) : Prop :=
  ∃ taken others, ps = taken ++ others ∧ (∀ p ∈ taken, p.write = .constructor)
    ∧ ∀ p ∈ others, p.write ≠ .constructor

section Building

variable {held : List (Property × String)} {pairs : List (String × Value)}

/-- The constructor is given the values that the variables hold. -/
theorem evalArgs_apply (h : Hold locals held pairs) (taken : ∀ x ∈ held, x.1.write = .constructor)
    (ch : Channel) :
    calls.evalArgs (held.filterMap argument?) ⟨locals, ch⟩ = (.ok pairs, ⟨locals, ch⟩) := by
  induction h with
  | nil => rfl
  | @cons p x pairs held here _ ih =>
    have argument : argument? x = some (x.1.name, .var x.2) := by
      unfold argument?
      rw [taken x List.mem_cons_self]
    rw [List.filterMap_cons_some argument, Calls.evalArgs, Step.bind_ok (eval_var_apply here.2 ch),
      Step.bind_ok (ih fun y hy => taken y (List.mem_cons_of_mem x hy)), ← here.1]
    rfl

variable (calls) in
/-- A setter sets its field of the instance at hand. -/
theorem exec_setter_apply (owner : JavaType) {x : Property × String}
    (others : x.1.write ≠ .constructor) {className : String} {fields : List (String × Value)}
    {v : Value} (held : locals.lookup x.2 = some v)
    (atHand : locals.lookup NameScope.data = some (.object className fields)) :
    ∃ s, setter? owner x = some s ∧ ∀ ch, calls.exec s ⟨locals, ch⟩
      = (.ok none, ⟨locals.set NameScope.data
          (.object className (Value.setField x.1.name v fields)), ch⟩) := by
  have stored (ch : Channel) :
      Run.update NameScope.data (fun object => .ok (object.put x.1.name v)) ⟨locals, ch⟩
        = (.ok (), ⟨locals.set NameScope.data
            (.object className (Value.setField x.1.name v fields)), ch⟩) :=
    Run.update_apply atHand (by rfl) ch
  unfold setter?
  cases hw : x.1.write with
  | constructor => exact absurd hw others
  | _ =>
    refine ⟨_, rfl, fun ch => ?_⟩
    rw [Calls.exec, Step.bind_ok (eval_var_apply held ch), Step.bind_ok (stored ch)]
    rfl

variable (calls) in
/-- The setters set their fields one after another. -/
theorem execAll_setters (owner : JavaType) {className : String} (h : Hold locals held pairs)
    (others : ∀ x ∈ held, x.1.write ≠ .constructor) (apart : ∀ x ∈ held, x.2 ≠ NameScope.data) :
    ∀ {locals' : Locals} {fields : List (String × Value)},
      Keeps (held.map (·.2)) locals locals' →
      locals'.lookup NameScope.data = some (.object className fields) →
      ∃ after, (∀ ch, calls.execAll (held.filterMap (setter? owner)) ⟨locals', ch⟩
          = (.ok none, ⟨after, ch⟩))
        ∧ after.lookup NameScope.data = some (.object className
            (pairs.foldl (fun fields p => Value.setField p.1 p.2 fields) fields)) := by
  induction h with
  | nil => exact fun _ atHand => ⟨_, fun _ => rfl, atHand⟩
  | @cons p x pairs held here _ ih =>
    intro locals' fields kept atHand
    have value := (kept x.2 List.mem_cons_self).trans here.2
    obtain ⟨s, hs, run⟩ := exec_setter_apply calls owner
      (others x List.mem_cons_self) value atHand
    have aside : NameScope.data ∉ held.map (·.2) := by
      intro hd
      obtain ⟨y, hy, same⟩ := List.mem_map.mp hd
      exact apart y (List.mem_cons_of_mem x hy) same
    have kept' := kept.mono fun n hn => List.mem_cons_of_mem x.2 hn
    obtain ⟨after, rest, result⟩ := ih (fun y hy => others y (List.mem_cons_of_mem x hy))
      (fun y hy => apart y (List.mem_cons_of_mem x hy)) (kept'.trans (keeps_set aside _ locals'))
      (Locals.lookup_set_self _ _ _)
    refine ⟨after, fun ch => ?_, ?_⟩
    · rw [List.filterMap_cons_some hs, Calls.execAll, Step.bind_ok (run ch)]
      exact rest ch
    · rw [List.foldl_cons, here.1]
      exact result

end Building

/-- Building the instance from the variables is the same as setting every property in order. -/
theorem mirrors_building {d : Descriptor} {held : List (Property × String)}
    {pairs : List (String × Value)} (first : ConstructorFirst d.properties)
    (same : held.map (·.1) = d.properties) (h : Hold locals held pairs)
    (apart : ∀ x ∈ held, x.2 ≠ NameScope.data) :
    Mirrors (calls.execAll ([.declare NameScope.data d.type
        (.construct d.type (held.filterMap argument?))]
      ++ (held.filterMap (setter? d.type) ++ [.ret (.var NameScope.data)]))) locals
      (pure (.object d.typeName (Value.fieldsOf pairs))) fun o v _ => o = some v := by
  obtain ⟨taken, others, split, constructed, set⟩ := first
  obtain ⟨front, back, rfl, frontIs, backIs⟩ := List.map_eq_append_iff.mp (same.trans split)
  have inFront : ∀ x ∈ front, x.1.write = .constructor := fun x hx =>
    constructed _ (frontIs ▸ List.mem_map_of_mem hx)
  have inBack : ∀ x ∈ back, x.1.write ≠ .constructor := fun x hx =>
    set _ (backIs ▸ List.mem_map_of_mem hx)
  have arguments : (front ++ back).filterMap argument? = front.filterMap argument? := by
    have none : back.filterMap argument? = [] := by
      rw [List.filterMap_eq_nil_iff]
      intro x hx
      unfold argument?
      split
      · next hw => exact absurd hw (inBack x hx)
      · rfl
    rw [List.filterMap_append, none, List.append_nil]
  have setters : (front ++ back).filterMap (setter? d.type) = back.filterMap (setter? d.type) := by
    have none : front.filterMap (setter? d.type) = [] := by
      rw [List.filterMap_eq_nil_iff]
      intro x hx
      unfold setter?
      rw [inFront x hx]
    rw [List.filterMap_append, none, List.nil_append]
  rw [arguments, setters]
  have heldFront := List.forall₂_take_append _ _ _ h
  have heldBack := List.forall₂_drop_append _ _ _ h
  obtain ⟨args, hargs⟩ : ∃ args, args = pairs.take front.length := ⟨_, rfl⟩
  obtain ⟨sets, hsets⟩ : ∃ sets, sets = pairs.drop front.length := ⟨_, rfl⟩
  have whole : pairs = args ++ sets := by rw [hargs, hsets, List.take_append_drop]
  rw [← hargs] at heldFront
  rw [← hsets] at heldBack
  -- The constructor makes the instance, and the setters complete it.
  have construct : ∀ ch, calls.eval (.construct d.type (front.filterMap argument?)) ⟨locals, ch⟩
      = (.ok (.object d.typeName (Value.fieldsOf args)), ⟨locals, ch⟩) := by
    intro ch
    rw [Calls.eval, Step.bind_ok (evalArgs_apply heldFront inFront ch)]
    rfl
  have aside : NameScope.data ∉ back.map (·.2) := by
    intro hd
    obtain ⟨y, hy, eq⟩ := List.mem_map.mp hd
    exact apart y (List.mem_append_right front hy) eq
  obtain ⟨after, run, result⟩ := execAll_setters calls d.type heldBack inBack
    (fun x hx => apart x (List.mem_append_right front hx))
    (keeps_set aside _ locals) (Locals.lookup_set_self _ _ _)
  refine mirrors_behind (fun ch => ?_) (mirrors_behind run ?_)
  · rw [Calls.execAll_singleton]
    exact exec_declare_apply construct ch
  · rw [Calls.execAll_singleton, Calls.exec, Calls.eval]
    refine Mirrors.bind_local (Run.valueOf_apply result) (Mirrors.pure ?_)
    rw [whole, Value.fieldsOf, Value.fieldsOf, List.foldl_append]

/-- A companion reads an instance as the format lays it out. -/
theorem read_ofDescriptor {d : Descriptor} (companion : String)
    (first : ConstructorFirst d.properties) :
    (ofDescriptor d).read.read calls companion
      = Format.decodeInstance (propertyReading calls (Statics.ofDescriptor d)) d := by
  refine Procedure.read_of_mirrors companion ?_
  unfold ofDescriptor Format.decodeInstance
  by_cases hs : d.singleton = true
  · simp only [if_pos hs]
    rw [Calls.execAll_singleton, Calls.exec, Calls.eval]
    exact Mirrors.bind_local (fun _ => rfl) (Mirrors.pure rfl)
  · simp only [if_neg hs]
    obtain ⟨start, around, scope, opened, statics, sub, L, run⟩ :=
      exists_opening calls (Statics.ofDescriptor d) d.type d.requiresClassLoader
    obtain ⟨same, new⟩ := readProperties_held around d.properties scope
    unfold readBody
    simp only [opened, List.append_assoc]
    refine mirrors_behind run ?_
    rw [Calls.execAll_append]
    rw [← statics]
    have reading : Does calls _ _ _ _ := does_readProperties around d.properties scope L
    refine reading.bind ?_
    rintro _ pairs after ⟨rfl, held, -⟩
    have data : NameScope.data ∈ scope.taken := sub _ List.mem_cons_self
    exact mirrors_building first same held fun x hx eq => new x hx (eq ▸ data)

end Reading

/-! ## §5. Writing an instance. -/

/-- What is written for a property that is not null: through a shared codec, or in place. -/
def propertyWriting (calls : Calls) (s : Statics) (p : Property) (v : Value) :
    Option (List UInt8) :=
  if p.codec.isComposite then (calls.writeCodec (s.codecName p.type) v).written?
  else calls.encode s.refTo p.codec v

/-- What is written for the slot of a property. -/
def slotWriting (calls : Calls) (s : Statics) (v : Value) (p : Property) : Option (List UInt8) :=
  Format.writeSlot p.codec p.nullable (propertyWriting calls s p) ((v.get? p.name).getD .null)

/-- What is written for an instance. -/
def instanceWriting (calls : Calls) (d : Descriptor) (v : Value) : Option (List UInt8) :=
  if d.singleton then some []
  else Format.encodeAll (slotWriting calls (Statics.ofDescriptor d) v) d.properties

section Writing

variable {locals : Locals}

/-- A property is written from the variable that holds it. -/
theorem appends_writeProperty (s : Statics) {p : Property} {name : String} {scope : NameScope}
    (there : name ∈ scope.taken) {v : Value} (held : locals.lookup name = some v)
    {bytes : List UInt8}
    (hv : Format.writeSlot p.codec p.nullable (propertyWriting calls s p) v = some bytes) :
    Appends calls (writeProperty s p name scope) locals bytes (Keeps scope.taken locals) := by
  unfold writeProperty
  refine appends_writeSlot held (fun content hd => ?_) hv
  unfold propertyWriting at hd
  split
  · next composite =>
    rw [if_pos composite] at hd
    have written := Wire.Emission.written?_eq_some.mp hd
    refine Appends.single ((emits_exec_codecWrite (eval_var_apply held) written).weaken ?_)
    rintro _ after ⟨none, rfl⟩
    exact ⟨none, Keeps.refl _ _⟩
  · next single =>
    rw [if_neg single] at hd
    exact appends_writePresent s p.codec scope name locals v content there held hd

/-- The properties are written in order, each from a variable of its own. -/
theorem appends_writeBody (s : Statics) (owner : JavaType) {v : Value} :
    ∀ (ps : List Property) (scope : NameScope) (locals : Locals) (bytes : List UInt8),
      NameScope.data ∈ scope.taken → locals.lookup NameScope.data = some v →
      Format.encodeAll (slotWriting calls s v) ps = some bytes →
      Appends calls (writeBody s owner scope ps) locals bytes (Keeps scope.taken locals)
  | [], scope, locals, bytes, _, _, hv => by
    cases hv
    exact Appends.nil (Keeps.refl _ _)
  | p :: rest, scope, locals, bytes, there, held, hv => by
    obtain ⟨name, scope', allocated, draws⟩ := scope.exists_allocate p.name
    obtain ⟨head, tail, hh, ht, rfl⟩ := Format.encodeAll_cons hv
    simp only [writeBody, allocated]
    -- The variable holds the value of the property, however it is obtained.
    have value : ∀ ch, calls.eval (propertyValue owner p) ⟨locals, ch⟩
        = (.ok ((v.get? p.name).getD .null), ⟨locals, ch⟩) := by
      intro ch
      unfold propertyValue
      cases p.read <;> rw [Calls.eval, Step.bind_ok (eval_var_apply held ch)] <;> rfl
    have stored := keeps_set draws.new ((v.get? p.name).getD .null) locals
    refine Appends.cons_local (exec_declare_apply value) ?_
    refine (appends_writeProperty s draws.self_mem
      (Locals.lookup_set_self _ _ _) hh).append fun between kept => ?_
    have kept' := stored.trans (kept.mono draws.subset)
    refine (appends_writeBody s owner rest scope' between tail (draws.subset _ there)
      ((kept' _ there).trans held) ht).weaken ?_
    exact fun after others => kept'.trans (others.mono draws.subset)

/-- A companion writes an instance property by property. -/
theorem write_ofDescriptor {d : Descriptor} {v : Value} {bytes : List UInt8}
    (hv : instanceWriting calls d v = some bytes) :
    (ofDescriptor d).write.write calls v = .wrote bytes := by
  unfold instanceWriting at hv
  unfold ofDescriptor
  split at hv
  · next single =>
    cases hv
    simp only [if_pos single]
    have run : Appends calls [] [(NameScope.data, v)] [] fun _ => True := Appends.nil trivial
    exact Procedure.write_of_emits run
  · next several =>
    simp only [if_neg several]
    have run := appends_writeBody (Statics.ofDescriptor d) d.type d.properties .locals
      [(NameScope.data, v)] bytes List.mem_cons_self (by simp) hv
    exact Procedure.write_of_emits run

/-- Where each property is written as the format says, so is the instance. -/
theorem instanceWriting_of_encodeInstance {writers : Writers} {d : Descriptor} {v : Value}
    {bytes : List UInt8}
    (h : ∀ p ∈ d.properties, ∀ w content, encodeWith writers p.codec w = some content →
      propertyWriting calls (Statics.ofDescriptor d) p w = some content)
    (hv : Format.encodeInstance writers d v = some bytes) :
    instanceWriting calls d v = some bytes := by
  unfold Format.encodeInstance at hv
  unfold instanceWriting
  split at hv
  · next single => rw [if_pos single, hv]
  · next several =>
    rw [if_neg several]
    exact Format.encodeAll_mono (fun p hp _ => Format.writeSlot_mono (h p hp _)) hv

end Writing

end Companion

end ParcelCodec
