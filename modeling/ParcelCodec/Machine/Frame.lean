import ParcelCodec.Machine.Fault
import ParcelCodec.Step
import ParcelCodec.Wire.Payload

/-!
# Frames

A running procedure has local variables and one end of a parcel: it either reads from a cursor or
appends to an output.  A step of a run changes the frame and answers or fails, and the frame that a
failure leaves behind shows how far the run had come.
-/

namespace ParcelCodec

open Wire (Cursor Emission Malformed)

/-! ## §1. Reads and writes of whole values. -/

/-- A computation that reads from a parcel. -/
abbrev Reading (α : Type) := Step Cursor RunError α

/-- What a write leaves behind. -/
abbrev Writing := Emission RunError

/-- Reads what an operation lays out; a failure names the operation and where it started. -/
def Reading.ofOp (op : Wire.Op) (read : Wire.Read α) : Reading α := fun c =>
  Step.mapError (fun _ => .decode (.unreadable op c.index)) read c

/-! ## §2. Local variables. -/

/-- The local variables of a procedure. -/
abbrev Locals := List (String × Value)

/-- The local variables with one of them set. -/
def Locals.set (name : String) (value : Value) : Locals → Locals
  | [] => [(name, value)]
  | (n, v) :: rest =>
    if n = name then (name, value) :: rest else (n, v) :: Locals.set name value rest

/-- A variable that was just set holds its value. -/
theorem Locals.lookup_set_self (name : String) (value : Value) (locals : Locals) :
    (Locals.set name value locals).lookup name = some value := by
  induction locals with
  | nil => simp [Locals.set]
  | cons p rest ih =>
    obtain ⟨n, v⟩ := p
    by_cases h : n = name
    · simp [Locals.set, h]
    · have h' : (name == n) = false := by simpa using fun e : name = n => h e.symm
      simp [Locals.set, h, List.lookup_cons, h', ih]

/-- Setting a variable leaves the others as they are. -/
theorem Locals.lookup_set_of_ne {name other : String} (h : other ≠ name) (value : Value)
    (locals : Locals) : (Locals.set name value locals).lookup other = locals.lookup other := by
  have h' : (other == name) = false := by simpa using h
  induction locals with
  | nil => simp [Locals.set, h]
  | cons p rest ih =>
    obtain ⟨n, v⟩ := p
    by_cases hn : n = name
    · subst hn; simp [Locals.set, List.lookup_cons, h']
    · simp only [Locals.set, hn, if_false, List.lookup_cons]
      split <;> simp_all

/-! ## §3. Frames. -/

/-- The end of a parcel that a procedure holds. -/
inductive Channel where
  | input (cursor : Cursor)
  | output (bytes : Array UInt8)

/-- The state of a running procedure. -/
structure Frame where
  locals : Locals
  channel : Channel

/-- A step of a running procedure. -/
abbrev Run (α : Type) := Step Frame RunError α

namespace Run

/-- The value of a local variable. -/
def valueOf (name : String) : Run Value := fun f =>
  match f.locals.lookup name with
  | some v => (.ok v, f)
  | none => (.error (.procedure (.unbound name)), f)

/-- Sets a local variable. -/
def assign (name : String) (value : Value) : Run Unit := fun f =>
  (.ok (), { f with locals := f.locals.set name value })

/-- Changes a local variable by something that may find it of the wrong shape. -/
def update (name : String) (change : Value → Except RunError Value) : Run Unit := do
  let v ← valueOf name
  match change v with
  | .ok v' => assign name v'
  | .error e => Step.fail e

/-- Reads from the parcel. -/
def read (r : Reading α) : Run α := fun f =>
  match f.channel with
  | .output _ => (.error (.procedure .readWhileWriting), f)
  | .input c =>
    let (answer, c') := r c
    (answer, { f with channel := .input c' })

/-- Appends what a write leaves behind. -/
def write (w : Writing) : Run Unit := fun f =>
  match f.channel with
  | .input _ => (.error (.procedure .writeWhileReading), f)
  | .output bytes =>
    let f' := { f with channel := .output (bytes ++ w.bytes) }
    match w.failure with
    | none => (.ok (), f')
    | some e => (.error e, f')

/-- The number of bytes that are left to read; none are known while writing. -/
def remaining? : Run (Option Nat) := fun f =>
  match f.channel with
  | .input c => (.ok (some c.remaining), f)
  | .output _ => (.ok none, f)

/-- A count: an integer that is not negative. -/
def count : Value → Run Nat
  | .int n => if 0 ≤ n then pure n.toInt.toNat else Step.fail (.decode (.invalidLength (.int n)))
  | v => Step.fail (.decode (.invalidLength v))

/-- A value is not of the shape that is wanted. -/
def unexpected (wanted : String) (found : Value) : RunError :=
  .procedure (.unexpected wanted found)

/-- Runs a body for numbers from `i` on, so many times, unless it ends with a value earlier. -/
def times (body : Nat → Run (Option Value)) : (count i : Nat) → Run (Option Value)
  | 0, _, f => (.ok none, f)
  | count + 1, i, f =>
    match body i f with
    | (.ok none, f') => times body count (i + 1) f'
    | done => done

/-- Runs a body for each item, unless it ends with a value earlier. -/
def each (body : α → Run (Option Value)) : List α → Run (Option Value)
  | [], f => (.ok none, f)
  | a :: rest, f =>
    match body a f with
    | (.ok none, f') => each body rest f'
    | done => done

end Run

end ParcelCodec
