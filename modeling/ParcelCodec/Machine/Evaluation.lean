import ParcelCodec.Machine.Frame
import ParcelCodec.Procedure
import ParcelCodec.Value.Same

/-!
# Running procedures

Expressions are evaluated and statements are executed in a frame, following their structure.  What
a procedure calls is not looked up here: it is handed in, so that running a procedure body needs
no bound.  An instance in a slot of its own class or in a tagged value is such a call too.

A statement may end its procedure with a value; then nothing behind it runs.
-/

namespace ParcelCodec

open Wire (Emission Malformed)

/-- What the procedures of a companion can call. -/
structure Calls where
  /-- Reads an instance through a companion. -/
  readNested : (companion : String) → Reading Value
  writeNested : (companion : String) → Value → Writing
  /-- Reads a value through a shared codec. -/
  readCodec : (codec : String) → Reading Value
  writeCodec : (codec : String) → Value → Writing
  readAdapter : AdapterRef → Reading Value
  writeAdapter : AdapterRef → Value → Writing
  /-- Reads an instance whose class stands in front of it. -/
  readInstance : Reading Value
  writeInstance : Value → Writing

namespace Calls

/-! ## §1. Operations. -/

/-- A failure inside a tagged value, restated as one of the whole value.  A run that is out of depth
stays so. -/
def restated (whole : RunError) : RunError → RunError
  | .outOfDepth => .outOfDepth
  | _ => whole

/-- Reads one operation's slot. -/
def readOp (calls : Calls) : Wire.Op → Reading Value
  | .parcelable => calls.readInstance
  | .value => fun c =>
    let bad := RunError.decode (.unreadable .value c.index)
    Wire.Read.tagged bad (Step.mapError (restated bad) calls.readInstance) c
  | op => .ofOp op op.read

/-- Writes one operation's slot. -/
def writeOp (calls : Calls) (value : Value) : Wire.Op → Writing
  | .parcelable => calls.writeInstance value
  | .value =>
    let bad := RunError.encode (.unwritable value .value)
    Wire.Slot.tagged bad (fun v => (calls.writeInstance v).mapError (restated bad)) value
  | op => (op.write value).mapError fun _ => .encode (.unwritable value op)

/-! ## §2. Values. -/

/-- A new container. -/
def newContainer : ContainerKind → Value
  | .collection (.sequence .list) => .list []
  | .collection (.sequence .queue) => .list []
  | .collection (.sequence .set) => .set []
  | .collection .map => .map []
  | .sparseArray => .sparseArray []

/-- The element at a position. -/
def itemAt (position : Nat) (v : Value) : Run Value :=
  let item? := match v with
    | .array items => items[position]?
    | .list items => items[position]?
    | _ => none
  match item? with
  | some item => pure item
  | none => Step.fail (Run.unexpected "an array" v)

/-- The entry at a position of a sparse array. -/
def entryAt (position : Nat) (v : Value) : Run (Int32 × Value) :=
  let entry? := match v with
    | .sparseArray entries => entries[position]?
    | _ => none
  match entry? with
  | some entry => pure entry
  | none => Step.fail (Run.unexpected "a sparse array" v)

/-- A new array.  Each element takes a marker of four bytes at least, so a length that leaves too
few bytes is refused before the array is made. -/
def newArray (length : Nat) : Run Value := do
  match ← Run.remaining? with
  | some left =>
    if left / 4 < length then Step.fail (.decode (.arrayTooLong length left))
    else return .array (List.replicate length .null)
  | none => return .array (List.replicate length .null)

/-- The constant of an enum, by name. -/
def enumConstant : Value → Run Value
  | .string name => pure (.enumConstant name)
  | .null => pure .null
  | v => Step.fail (Run.unexpected "an enum constant name" v)

/-- The name of an enum's constant. -/
def enumName : Value → Run Value
  | .enumConstant name => pure (.string name)
  | .string name => pure (.string name)
  | v => Step.fail (Run.unexpected "an enum constant" v)

/-- A container with one more element. -/
def withItem (item : Value) : Value → Except RunError Value
  | .list items => .ok (.list (items ++ [item]))
  | .set items => .ok (.set (items ++ [item]))
  | v => .error (Run.unexpected "a collection" v)

/-- Entries with the value of a key set; a key that is there keeps its place. -/
def setEntry (same : κ → Bool) (key : κ) (value : Value) : List (κ × Value) → List (κ × Value)
  | [] => [(key, value)]
  | (k, v) :: rest => if same k then (k, value) :: rest else (k, v) :: setEntry same key value rest

/-- A map with the value of a key set. -/
def withEntry (key value : Value) : Value → Except RunError Value
  | .map entries => .ok (.map (setEntry (Value.same · key) key value entries))
  | .sparseArray entries =>
    .ok (.sparseArray (setEntry (· == key.asInt) key.asInt value entries))
  | v => .error (Run.unexpected "a map" v)

/-- An array with an element replaced. -/
def withElement (position : Nat) (item : Value) : Value → Except RunError Value
  | .array items =>
    if position < items.length then .ok (.array (items.set position item))
    else .error (Run.unexpected "an array" (.array items))
  | v => .error (Run.unexpected "an array" v)

/-- The elements of a collection. -/
def itemsOf : Value → Run (List Value)
  | .list items => pure items
  | .set items => pure items
  | .array items => pure items
  | v => Step.fail (Run.unexpected "a collection" v)

/-- The entries of a map. -/
def entriesOf : Value → Run (List (Value × Value))
  | .map entries => pure entries
  | v => Step.fail (Run.unexpected "a map" v)

/-- The name of a class. -/
def nameOf (ty : JavaType) : String := ty.name?.getD ""

/-! ## §3. Expressions. -/

mutual

/-- Evaluates an expression. -/
def eval (calls : Calls) : Expr → Run Value
  | .var name => Run.valueOf name
  | .null => pure .null
  | .int n => pure (.int n)
  | .read op _ => Run.read (calls.readOp op)
  | .size target => do return .int (Int32.ofNat (← eval calls target).length)
  | .length target => do return .int (Int32.ofNat (← eval calls target).length)
  -- Positions are evaluated before what they are positions in.
  | .index target position => do
    let i ← Run.count (← eval calls position)
    itemAt i (← eval calls target)
  | .keyAt target position => do
    let i ← Run.count (← eval calls position)
    return .int (← entryAt i (← eval calls target)).1
  | .valueAt target position => do
    let i ← Run.count (← eval calls position)
    return (← entryAt i (← eval calls target)).2
  | .newContainer kind _ _ => pure (newContainer kind)
  | .newArray _ length => do newArray (← Run.count (← eval calls length))
  | .cast _ value => eval calls value
  | .enumValueOf _ name => do enumConstant (← eval calls name)
  | .enumName value => do enumName (← eval calls value)
  | .readNested companion => Run.read (calls.readNested companion)
  | .adapterRead adapter => Run.read (calls.readAdapter adapter)
  | .codecRead codec => Run.read (calls.readCodec codec)
  | .field target name => do return ((← eval calls target).get? name).getD .null
  | .getter target _ name => do return ((← eval calls target).get? name).getD .null
  | .reflect target _ name _ => do return ((← eval calls target).get? name).getD .null
  | .construct ty args => do
    return .object (nameOf ty) (Value.fieldsOf (← evalArgs calls args))
  | .singleton ty => pure (.singleton (nameOf ty))
  | .classLoader _ => pure .null

/-- Evaluates the arguments of a constructor in their order. -/
def evalArgs (calls : Calls) : List (String × Expr) → Run (List (String × Value))
  | [] => pure []
  | (name, e) :: rest => do
    let v ← eval calls e
    return (name, v) :: (← evalArgs calls rest)

end

/-! ## §4. Statements. -/

/-- Reads the marker in front of a value. -/
def readMarker : Run Int32 := Run.read (.ofOp .int Wire.Read.int)

mutual

/-- Executes a statement. -/
def exec (calls : Calls) : Stmt → Run (Option Value)
  | .declare name _ init => do
    Run.assign name (← eval calls init)
    return none
  | .assign name value => do
    Run.assign name (← eval calls value)
    return none
  | .write op value => do
    let v ← eval calls value
    Run.write (calls.writeOp v op)
    return none
  | .ifPresent body => do
    -- Any other marker than zero means that nothing follows.
    if (← readMarker) = 0 then execAll calls body else return none
  | .ifNull value thens otherwise => do
    if (← eval calls value).isNull then execAll calls thens else execAll calls otherwise
  | .forCount index count body => do
    let n ← Run.count (← eval calls count)
    Run.times (fun i => do
      Run.assign index (.int (Int32.ofNat i))
      execAll calls body) n 0
  | .forEach var _ iterable body => do
    -- The items are those of the start; the body cannot change what is left to do.
    let items ← itemsOf (← eval calls iterable)
    Run.each (fun item => do
      Run.assign var item
      execAll calls body) items
  | .forEntries key _ value _ map body => do
    let entries ← entriesOf (← eval calls map)
    Run.each (fun entry => do
      Run.assign key entry.1
      Run.assign value entry.2
      execAll calls body) entries
  | .add target value => do
    let v ← eval calls value
    Run.update target (withItem v)
    return none
  | .put target key value => do
    let k ← eval calls key
    let v ← eval calls value
    Run.update target (withEntry k v)
    return none
  | .store array index value => do
    let i ← Run.count (← eval calls index)
    let v ← eval calls value
    Run.update array (withElement i v)
    return none
  | .writeNested companion value => do
    let v ← eval calls value
    Run.write (calls.writeNested companion v)
    return none
  | .adapterWrite adapter value => do
    let v ← eval calls value
    Run.write (calls.writeAdapter adapter v)
    return none
  | .codecWrite codec value => do
    let v ← eval calls value
    Run.write (calls.writeCodec codec v)
    return none
  | .setField target field value => do
    let v ← eval calls value
    Run.update target fun object => .ok (object.put field v)
    return none
  | .callSetter target _ field value => do
    let v ← eval calls value
    Run.update target fun object => .ok (object.put field v)
    return none
  | .reflectSet target _ field value => do
    let v ← eval calls value
    Run.update target fun object => .ok (object.put field v)
    return none
  | .ret value => do return some (← eval calls value)

/-- Executes statements one after another until one ends the procedure. -/
def execAll (calls : Calls) : List Stmt → Run (Option Value)
  | [] => pure none
  | s :: rest => do
    match ← exec calls s with
    | some v => return some v
    | none => execAll calls rest

end

end Calls

/-! ## §5. Procedures. -/

namespace Procedure

/-- Reads a value; `companion` is whose procedure it is. -/
def read (calls : Calls) (companion : String) (p : Procedure) : Reading Value := fun c =>
  let (result, frame) := calls.execAll p.body ⟨[], .input c⟩
  let c' := match frame.channel with
    | .input c' => c'
    | .output _ => c
  match result with
  | .ok (some v) => (.ok v, c')
  | .ok none => (.error (.procedure (.noValue companion)), c')
  | .error e => (.error e, c')

/-- Writes a value. -/
def write (calls : Calls) (p : Procedure) (value : Value) : Writing :=
  let locals := match p.value with
    | some name => [(name, value)]
    | none => []
  let (result, frame) := calls.execAll p.body ⟨locals, .output #[]⟩
  let bytes := match frame.channel with
    | .output bytes => bytes.toList
    | .input _ => []
  match result with
  | .ok _ => ⟨bytes, none⟩
  | .error e => ⟨bytes, some e⟩

end Procedure

end ParcelCodec
