import ParcelCodec.Wire.Parcel

/-!
# Programs of calls on a parcel

What a caller does with a parcel is one call after another, each chosen by what the earlier ones
answered.  A call for an array takes such a program for its items, which may remember something from
one item to the next.

A program ends with the first call that fails, unless it is made to go on.  What comes after a
failure otherwise is the next program on the same parcel (`Parcel.after`).
-/

namespace ParcelCodec.Wire

/-! ## §1. Reading. -/

/-- A program that reads from a parcel. -/
inductive ReadProgram (w : Nat) : Type → Type 1 where
  | give {α : Type} (a : α) : ReadProgram w α
  | refuse {α : Type} : ReadProgram w α
  /-- The position, and the number of bytes still to be read. -/
  | look : ReadProgram w (Nat × Nat)
  | andThen {α β : Type} (first : ReadProgram w α) (next : α → ReadProgram w β) : ReadProgram w β
  | attempt {α : Type} (program : ReadProgram w α) : ReadProgram w (Option α)
  | bytes (n : BitVec w) : ReadProgram w (List UInt8)
  | scalar {α : Type} (s : Scalar α) : ReadProgram w α
  | length : ReadProgram w (Option Nat)
  | string : ReadProgram w (Option String)
  | byteArray : ReadProgram w (Option (List UInt8))
  | array {α σ : Type} (item : σ → ReadProgram w (α × σ)) (memory : σ) :
      ReadProgram w (Option (List α))

variable {w : Nat}

/-- What a program does to a parcel. -/
def ReadProgram.run : {α : Type} → ReadProgram w α → Call w α
  | _, .give a => pure a
  | _, .refuse => Step.fail .malformed
  | _, .look => do
    let p ← Step.get
    return (p.index.toNat, p.remaining.toNat)
  | _, .andThen first next => do (next (← first.run)).run
  | _, .attempt program => Parcel.attempt program.run
  | _, .bytes n => Parcel.bytes n
  | _, .scalar s => Parcel.scalar s
  | _, .length => Parcel.length
  | _, .string => Parcel.string
  | _, .byteArray => Parcel.byteArray
  | _, .array item memory => Parcel.array (fun m => (item m).run) memory

/-- A parcel behind several programs, one after another, whether they answered or not. -/
def Parcel.after (p : Parcel w) (programs : List (Σ α : Type, ReadProgram w α)) : Parcel w :=
  programs.foldl (fun p program => (program.2.run p).2) p

/-! ## §2. Writing. -/

/-- A program that writes to the end of a parcel. -/
inductive WriteProgram : Type → Type 1 where
  | give {α : Type} (a : α) : WriteProgram α
  /-- The bytes that have been written. -/
  | look : WriteProgram (List UInt8)
  | andThen {α β : Type} (first : WriteProgram α) (next : α → WriteProgram β) : WriteProgram β
  | scalar {α : Type} (s : Scalar α) (a : α) : WriteProgram Unit
  | string (s : Option String) : WriteProgram Unit
  | byteArray (content : Option (List UInt8)) : WriteProgram Unit
  | array {α σ : Type} (items : Option (List α)) (item : σ → α → WriteProgram σ) (memory : σ) :
      WriteProgram σ

/-- Puts bytes behind those that have been written. -/
def appendBytes (bytes : List UInt8) : StateM (List UInt8) Unit := modify (· ++ bytes)

/-- What a program does to the bytes that have been written, with words of width `w`. -/
def WriteProgram.run (w : Nat) : {α : Type} → WriteProgram α → StateM (List UInt8) α
  | _, .give a => pure a
  | _, .look => get
  | _, .andThen first next => do (next (← first.run w)).run w
  | _, .scalar s a => appendBytes (s.written a)
  | _, .string s => appendBytes (Parcel.writtenString w s)
  | _, .byteArray content => appendBytes (Parcel.writtenBytes w content)
  | _, .array none _ memory => do
    appendBytes Slot.absent
    return memory
  | _, .array (some items) item memory => do
    appendBytes (Slot.length items.length)
    items.foldlM (fun m a => (item m a).run w) memory

end ParcelCodec.Wire
