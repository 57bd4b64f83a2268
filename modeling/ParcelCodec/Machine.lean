import ParcelCodec.Companion
import ParcelCodec.Machine.Evaluation

/-!
# The machine

A machine runs companions: it knows companions by their names and by their classes, and it has the
behaviour of adapters, which no model describes.

Procedures call each other, so a run has a budget of calls inside each other.  A read that calls
the same procedure twice without having consumed a byte in between would go on forever, so a
budget of one call for each procedure at each position is enough for every read that ends.  A
write hands on parts of the value, and its budget grows with the value.  A procedure can also make
a value of its own, larger than any that it was given, and hand that on; nothing in the input
bounds such a run, so every budget has a fixed number of calls to spare.
-/

namespace ParcelCodec

open Wire (Cursor Emission)

/-! ## §1. Adapters. -/

/-- What an adapter is given, in the order of its constructor. -/
structure Dependencies where
  count : Nat
  /-- Reads through the codec at a position. -/
  read : (position : Nat) → Reading Value
  write : (position : Nat) → Value → Writing
  /-- The class token at a position. -/
  token? : (position : Nat) → Option JavaType

/-- The behaviour of an adapter. -/
structure AdapterBehaviour where
  read : Dependencies → Reading Value
  write : Dependencies → Value → Writing

/-! ## §2. Machines. -/

/-- A machine.  Of several companions of one name, or for one class, the last counts, and so does
the last behaviour of an adapter. -/
structure Machine where
  companions : List Companion
  adapters : List (String × AdapterBehaviour)

namespace Machine

/-- The companion of a name. -/
def named? (m : Machine) (name : String) : Option Companion :=
  m.companions.reverse.find? (·.qualifiedName == name)

/-- The companion for a class. -/
def companion? (m : Machine) (className : String) : Option Companion :=
  m.companions.reverse.find? (·.className == className)

/-- The behaviour of an adapter. -/
def behaviour? (m : Machine) (adapter : String) : Option AdapterBehaviour :=
  m.adapters.reverse.lookup adapter

/-- The adapter that a companion refers to, and what it is given. -/
def adapterOf (m : Machine) (c : Companion) (ref : AdapterRef) :
    Except RunError (AdapterBehaviour × List DependencyArg) :=
  let supplied (name : String) (deps : List DependencyArg) :=
    match m.behaviour? name with
    | some behaviour => Except.ok (behaviour, deps)
    | none => .error (.missingAdapter name)
  match ref with
  | .ownInstance name => supplied name []
  | .field name =>
    match c.adapter? name with
    | some field => supplied field.adapter field.deps
    | none => .error (.procedure (.noAdapterField c.qualifiedName name))

/-! ## §3. Calls. -/

/-- What an adapter can do with what it is given, where `calls` is what its companion can call. -/
def dependencies (calls : Calls) (args : List DependencyArg) : Dependencies where
  count := args.length
  read position :=
    match args[position]? with
    | some (.adapter ref) => calls.readAdapter ref
    | some (.codec name) => calls.readCodec name
    | some (.token ty) => Step.fail (.procedure (.tokenDependency position ty))
    | none => Step.fail (.procedure (.noDependency position))
  write position value :=
    match args[position]? with
    | some (.adapter ref) => calls.writeAdapter ref value
    | some (.codec name) => calls.writeCodec name value
    | some (.token ty) => .failed (.procedure (.tokenDependency position ty))
    | none => .failed (.procedure (.noDependency position))
  token? position :=
    match args[position]? with
    | some (.token ty) => some ty
    | _ => none

/-- Reads an instance behind the name of its class, where `classes` reads the instances of each; an
absent name stands for null. -/
def readNamed (classes : String → Reading Value) : Reading Value := do
  match ← Reading.ofOp .parcelable Wire.Read.string with
  | some className => classes className
  | none => return .null

/-- Nothing can be called any more. -/
def noCalls : Calls where
  readNested _ := Step.fail .outOfDepth
  writeNested _ _ := .failed .outOfDepth
  readCodec _ := Step.fail .outOfDepth
  writeCodec _ _ := .failed .outOfDepth
  readAdapter _ := Step.fail .outOfDepth
  writeAdapter _ _ := .failed .outOfDepth
  readInstance := readNamed fun _ => Step.fail .outOfDepth
  writeInstance _ := .failed .outOfDepth

/-- Reads an instance through a companion, where `within` is what each companion can call. -/
def readThrough (within : Companion → Calls) (c : Companion) : Reading Value :=
  c.read.read (within c) c.qualifiedName

/-- Writes an instance through a companion. -/
def writeThrough (within : Companion → Calls) (c : Companion) (value : Value) : Writing :=
  c.write.write (within c) value

/-- Reads an instance of a class. -/
def readClass (m : Machine) (within : Companion → Calls) (className : String) : Reading Value :=
  match m.companion? className with
  | some c => readThrough within c
  | none => Step.fail (.missingCompanion className)

/-- Writes an instance through the companion for its class. -/
def writeClass (m : Machine) (within : Companion → Calls) (value : Value) : Writing :=
  match value.className? with
  | none => .failed (.encode (.notAnInstance value))
  | some className =>
    match m.companion? className with
    | some c => writeThrough within c value
    | none => .failed (.missingCompanion className)

/-- Reads an instance behind the name of its class. -/
def readInstance (m : Machine) (within : Companion → Calls) : Reading Value :=
  readNamed (m.readClass within)

/-- Writes an instance behind the name of its class. -/
def writeInstance (m : Machine) (within : Companion → Calls) (value : Value) : Writing :=
  match value.className? with
  | some className =>
    (Emission.wrote (Wire.Slot.text className)).andThen (m.writeClass within value)
  | none =>
    if value.isNull then .wrote Wire.Slot.absent else .failed (.encode (.notParcelable value))

/-- What the procedures of a companion can call, with a number of calls inside each other. -/
def callsWithin (m : Machine) : (depth : Nat) → Companion → Calls
  | 0, _ => noCalls
  -- Codecs and adapters belong to the companion at hand, so their calls stay with `c`.
  | depth + 1, c => {
      readNested := fun name =>
        match m.named? name with
        | some other => readThrough (m.callsWithin depth) other
        | none => Step.fail (.missingCompanion name)
      writeNested := fun name value =>
        match m.named? name with
        | some other => writeThrough (m.callsWithin depth) other value
        | none => .failed (.missingCompanion name)
      readCodec := fun name =>
        match c.codec? name with
        | some codec => codec.read.read (m.callsWithin depth c) c.qualifiedName
        | none => Step.fail (.procedure (.noCodec c.qualifiedName name))
      writeCodec := fun name value =>
        match c.codec? name with
        | some codec => codec.write.write (m.callsWithin depth c) value
        | none => .failed (.procedure (.noCodec c.qualifiedName name))
      readAdapter := fun ref =>
        match m.adapterOf c ref with
        | .ok (behaviour, deps) => behaviour.read (dependencies (m.callsWithin depth c) deps)
        | .error e => Step.fail e
      writeAdapter := fun ref value =>
        match m.adapterOf c ref with
        | .ok (behaviour, deps) => behaviour.write (dependencies (m.callsWithin depth c) deps) value
        | .error e => .failed e
      readInstance := fun cursor => m.readInstance (m.callsWithin depth) cursor
      writeInstance := fun value => m.writeInstance (m.callsWithin depth) value }

/-! ## §4. Runs. -/

/-- The number of procedures and adapters that a call can reach: the two procedures of each companion,
its codecs, and its adapters. -/
def callees (m : Machine) : Nat :=
  m.companions.foldr
    (fun c n => 2 + c.codecs.length + c.adapters.length + m.adapters.length + n) 0

/-- The calls that a budget has to spare. -/
def slack : Nat := 65536

/-- The budget of a read with a number of bytes ahead. -/
def readDepth (m : Machine) (remaining : Nat) : Nat := m.callees * (remaining + 1) + slack

/-- The budget of a write. -/
def writeDepth (m : Machine) (value : Value) : Nat := (m.callees + 1) * (value.weight + 1) + slack

/-- Reads an instance of a class. -/
def readFrom (m : Machine) (className : String) : Reading Value := fun c =>
  m.readClass (m.callsWithin (m.readDepth c.remaining)) className c

/-- The instance of a class at the start of some bytes. -/
def read (m : Machine) (className : String) (bytes : List UInt8) : Except RunError Value :=
  (m.readFrom className (.ofBytes bytes)).1

/-- Writes an instance. -/
def writeTo (m : Machine) (value : Value) : Writing :=
  m.writeClass (m.callsWithin (m.writeDepth value)) value

/-- The bytes of an instance. -/
def write (m : Machine) (value : Value) : Except RunError (List UInt8) :=
  (m.writeTo value).toExcept

end Machine

end ParcelCodec
