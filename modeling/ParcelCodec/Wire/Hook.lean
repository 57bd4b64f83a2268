import ParcelCodec.Wire.Tagged

/-!
# Hooks that remember

A tagged value hands each instance in it to a hook, in the order in which they stand.  A hook may
keep a memory from one instance to the next, so that it treats the same instance differently when
it comes up again; and a hook that writes has the whole parcel at hand, not only the end of it.

Tagged values are written and read here beside such a memory.  A hook that remembers nothing and
appends what it writes is the case that `Slot.tagged` and `Read.tagged` are made for.
-/

namespace ParcelCodec

/-- Whether other tagged values may stand in a value: it is a list, a map or an instance. -/
def Value.holdsOthers : Value → Bool
  | .list _ | .map _ | .object _ _ | .singleton _ => true
  | _ => false

namespace Wire

variable {σ ε α β : Type}

/-- A write into a parcel that holds some bytes already, beside a memory. -/
abbrev Into (σ ε α : Type) := Step (List UInt8 × σ) ε α

/-- A read beside a memory. -/
abbrev Beside (σ ε α : Type) := Step (Cursor × σ) ε α

/-! ## §1. Writing. -/

namespace Into

/-- An emission at the end of the parcel. -/
def emit (e : Emission ε) : Into σ ε Unit := fun (bytes, memory) =>
  (match e.failure with
    | none => .ok ()
    | some error => .error error,
   (bytes ++ e.bytes, memory))

mutual

/-- A tagged value; instances are written by the hook, and `bad` is how anything else fails. -/
def tagged (bad : ε) (hook : Value → Into σ ε Unit) : Value → Into σ ε Unit
  | .list items => do
    emit (.wrote (Slot.int Tag.list ++ Slot.length items.length))
    taggedItems bad hook items
  | .map entries => do
    emit (.wrote (Slot.int Tag.map ++ Slot.length entries.length))
    taggedEntries bad hook entries
  | .object className fields => do
    emit (.wrote (Slot.int Tag.instanceOf))
    hook (.object className fields)
  | .singleton className => do
    emit (.wrote (Slot.int Tag.instanceOf))
    hook (.singleton className)
  -- No instance stands in any other value, so no hook is asked.
  | value => emit (Slot.tagged bad (fun _ => .failed bad) value)

/-- The items of a list, one after another. -/
def taggedItems (bad : ε) (hook : Value → Into σ ε Unit) : List Value → Into σ ε Unit
  | [] => pure ()
  | v :: rest => do
    tagged bad hook v
    taggedItems bad hook rest

/-- The entries of a map, each key before its value. -/
def taggedEntries (bad : ε) (hook : Value → Into σ ε Unit) : List (Value × Value) → Into σ ε Unit
  | [] => pure ()
  | (k, v) :: rest => do
    tagged bad hook k
    tagged bad hook v
    taggedEntries bad hook rest

end

end Into

/-! ## §2. Reading. -/

namespace Beside

/-- A read that leaves the memory alone. -/
def lift (x : Step Cursor ε α) : Beside σ ε α := fun (c, memory) =>
  let (outcome, c') := x c
  (outcome, (c', memory))

/-- A counted container of tagged items, or null in its place. -/
def counted (bad : ε) (item : Beside σ ε α) (wrap : List α → Value) : Beside σ ε Value := do
  match ← lift (Read.slot bad Read.length) with
  | none => return .null
  | some n => return wrap (← Step.replicate n item)

/-- A pair of reads. -/
def pair (first : Beside σ ε α) (second : Beside σ ε β) : Beside σ ε (α × β) := do
  let a ← first
  let b ← second
  return (a, b)

/-- The payload behind a tag, where `item` reads a tagged value one level further in. -/
def payload (bad : ε) (hook item : Beside σ ε Value) (tag : Int32) : Beside σ ε Value :=
  if tag = Tag.list then counted bad item .list
  else if tag = Tag.map then counted bad (pair item item) .map
  else if tag = Tag.instanceOf then hook
  -- No instance stands behind any other tag, so no hook is asked.
  else lift (Read.payload bad (Step.fail bad) (Step.fail bad) tag)

/-- A tagged value that nests no deeper than `depth`. -/
def taggedWithin (bad : ε) (hook : Beside σ ε Value) : (depth : Nat) → Beside σ ε Value
  | 0 => Step.fail bad
  | depth + 1 => do
    payload bad hook (taggedWithin bad hook depth) (← lift (Read.slot bad Read.int))

/-- A tagged value; instances are read by the hook, and `bad` is how anything else fails. -/
def tagged (bad : ε) (hook : Beside σ ε Value) : Beside σ ε Value := fun s =>
  taggedWithin bad hook (s.1.remaining + 1) s

end Beside

end Wire

end ParcelCodec
