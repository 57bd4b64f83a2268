import ParcelCodec.Machine
import ParcelCodec.Proofs.Machine.Mirrors
import ParcelCodec.Proofs.Simulation
import ParcelCodec.Proofs.Wire.Steady

/-!
# Runs that simulate each other

A procedure is run twice: from one cursor, and from the same place in a parcel that goes on behind
the end of the first one.  If what it calls does the same on both sides, it does so itself.  The
parcels may be the same; then what is compared is only what the procedure calls.  If they are not,
the shorter one may end where the longer one goes on, so every fault in the bytes has to be
tolerated.

What an adapter does is not known, so the procedures are ones that call none.

Main statement: `simulates_procedure`.
-/

namespace ParcelCodec

open Format (Tolerance failure?)
open Wire (Cursor Onward Advances Steady)

/-! ## §1. Procedures that call no adapters. -/

mutual

/-- An expression calls no adapter. -/
def Expr.adapterFree : Expr → Bool
  | .var _ | .null | .int _ | .read _ _ | .singleton _ | .classLoader _ | .readNested _
  | .codecRead _ => true
  | .newContainer _ _ none => true
  | .newContainer _ _ (some capacity) => capacity.adapterFree
  | .size e | .length e | .newArray _ e | .cast _ e | .enumValueOf _ e | .enumName e
  | .field e _ | .getter e _ _ | .reflect e _ _ _ => e.adapterFree
  | .index e position | .keyAt e position | .valueAt e position =>
    e.adapterFree && position.adapterFree
  | .adapterRead _ => false
  | .construct _ args => Expr.adapterFreeArgs args

/-- The arguments of a constructor call no adapter. -/
def Expr.adapterFreeArgs : List (String × Expr) → Bool
  | [] => true
  | (_, e) :: rest => e.adapterFree && Expr.adapterFreeArgs rest

end

mutual

/-- A statement calls no adapter. -/
def Stmt.adapterFree : Stmt → Bool
  | .declare _ _ e | .assign _ e | .write _ e | .add _ e | .setField _ _ e | .callSetter _ _ _ e
  | .reflectSet _ _ _ e | .ret e | .writeNested _ e | .codecWrite _ e => e.adapterFree
  | .put _ k v | .store _ k v => k.adapterFree && v.adapterFree
  | .ifPresent body => Stmt.adapterFreeAll body
  | .ifNull e thens otherwise =>
    e.adapterFree && (Stmt.adapterFreeAll thens && Stmt.adapterFreeAll otherwise)
  | .forCount _ e body | .forEach _ _ e body | .forEntries _ _ _ _ e body =>
    e.adapterFree && Stmt.adapterFreeAll body
  | .adapterWrite _ _ => false

/-- Several statements call no adapter. -/
def Stmt.adapterFreeAll : List Stmt → Bool
  | [] => true
  | s :: rest => s.adapterFree && Stmt.adapterFreeAll rest

end

attribute [simp] Expr.adapterFree Expr.adapterFreeArgs Stmt.adapterFree Stmt.adapterFreeAll

/-- Statements in a row call no adapters if neither part does. -/
@[simp] theorem Stmt.adapterFreeAll_append (stmts rest : List Stmt) :
    Stmt.adapterFreeAll (stmts ++ rest)
      = (Stmt.adapterFreeAll stmts && Stmt.adapterFreeAll rest) := by
  induction stmts with
  | nil => rfl
  | cons s tail ih => rw [List.cons_append, adapterFreeAll, adapterFreeAll, ih, Bool.and_assoc]

/-- A procedure calls no adapter. -/
def Procedure.adapterFree (p : Procedure) : Bool := Stmt.adapterFreeAll p.body

/-! ## §2. Reads. -/

variable {t : Tolerance} {c₀ : Cursor} {more : List UInt8} {α : Type}

/-- Cursors at one place, ahead of a start, where more bytes follow on the second side. -/
def Extended (c₀ : Cursor) (more : List UInt8) (c c' : Cursor) : Prop :=
  Onward c₀ c ∧ c' = c.extend more

/-- More bytes follow only where every fault in the bytes is tolerated. -/
def Lax (t : Tolerance) (more : List UInt8) : Prop :=
  more = [] ∨ ∀ fault o, t.Stops (.decode fault) o

variable (lax : Lax t more)

include lax

/-- A read that only fails because of the bytes simulates itself. -/
theorem simulates_steady {read : Wire.Read α} (bad : Cursor → DecodeFault) (steady : Steady read)
    (forward : Advances 0 read) (same : ∀ c, bad (c.extend more) = bad c) :
    Simulates t (Extended c₀ more)
      (fun c => Step.mapError (fun _ => .decode (bad c)) read c)
      (fun c => Step.mapError (fun _ => .decode (bad c)) read c) := by
  rintro c _ ⟨onward, rfl⟩
  rcases lax with rfl | tolerated
  · rw [Cursor.extend_nil]
    exact .inl ⟨rfl, onward.trans (forward.mapError _ c).1, (Cursor.extend_nil _).symm⟩
  · have moves := onward.trans (forward c).1
    dsimp only
    rw [same, Step.mapError_apply, Step.mapError_apply]
    rcases h : read c with ⟨e | a, c'⟩
    · exact .inr ⟨_, rfl, tolerated _ _⟩
    · rw [steady c a c' more h]
      rw [h] at moves
      exact .inl ⟨rfl, moves, rfl⟩

/-- A read that what follows does not change is simulated by itself in front of more bytes. -/
theorem simulates_ofOp {op : Wire.Op} {read : Wire.Read α} (steady : Steady read)
    (forward : Advances 0 read) :
    Simulates t (Extended c₀ more) (Reading.ofOp op read) (Reading.ofOp op read) :=
  simulates_steady lax (fun c => .unreadable op c.index) steady forward fun _ => rfl

theorem simulates_slot {fault : DecodeFault} {read : Wire.Read α} (steady : Steady read)
    (forward : Advances 0 read) :
    Simulates t (Extended c₀ more) (Wire.Read.slot (.decode fault) read)
      (Wire.Read.slot (.decode fault) read) :=
  simulates_steady lax (fun _ => fault) steady forward fun _ => rfl

/-! ### Tagged values. -/

section Tagged

variable {fault : DecodeFault} {hook hook' : Reading Value}

/-- Counted items are simulated if each item is. -/
theorem simulates_counted {item item' : Reading α} {wrap : List α → Value}
    (h : Simulates t (Extended c₀ more) item item') :
    Simulates t (Extended c₀ more) (Wire.Read.counted (.decode fault) item wrap)
      (Wire.Read.counted (.decode fault) item' wrap) := by
  have forward := Wire.Read.advances_length.weaken (Nat.zero_le _)
  refine (simulates_slot lax Wire.Read.steady_length forward).bind fun n => ?_
  cases n with
  | none => exact .pure _
  | some n => exact (h.replicate n).map wrap

omit lax in
theorem simulates_pair {item item' : Reading α} (h : Simulates t (Extended c₀ more) item item') :
    Simulates t (Extended c₀ more) (Wire.Read.pair item item) (Wire.Read.pair item' item') :=
  h.bind fun a => h.map fun b => (a, b)

/-- What stands behind a tag is simulated if the hook and the items are. -/
theorem simulates_payload {item item' : Reading Value}
    (hh : Simulates t (Extended c₀ more) hook hook')
    (hi : Simulates t (Extended c₀ more) item item') (tag : Int32) :
    Simulates t (Extended c₀ more) (Wire.Read.payload (.decode fault) hook item tag)
      (Wire.Read.payload (.decode fault) hook' item' tag) := by
  have scalar : ∀ {β : Type} {k : Nat} {read : Wire.Read β} (f : β → Value), Steady read →
      Advances k read → Simulates t (Extended c₀ more)
        (do return f (← Wire.Read.slot (.decode fault) read))
        (do return f (← Wire.Read.slot (.decode fault) read)) :=
    fun f steady forward => (simulates_slot lax steady (forward.weaken (Nat.zero_le _))).map f
  unfold Wire.Read.payload
  refine .ite (.pure _) ?_
  refine .ite (scalar _ Wire.Read.steady_string Wire.Read.advances_string) ?_
  refine .ite (scalar _ Wire.Read.steady_int Wire.Read.advances_int) ?_
  refine .ite (scalar _ Wire.Read.steady_short Wire.Read.advances_short) ?_
  refine .ite (scalar _ Wire.Read.steady_long Wire.Read.advances_long) ?_
  refine .ite (scalar _ Wire.Read.steady_word Wire.Read.advances_word) ?_
  refine .ite (scalar _ Wire.Read.steady_doubleWord Wire.Read.advances_doubleWord) ?_
  refine .ite (scalar _ Wire.Read.steady_bool Wire.Read.advances_bool) ?_
  refine .ite (scalar _ Wire.Read.steady_byte Wire.Read.advances_byte) ?_
  refine .ite (scalar _ Wire.Read.steady_byteArray Wire.Read.advances_byteArray) ?_
  refine .ite (simulates_counted lax hi) ?_
  refine .ite (simulates_counted lax (simulates_pair hi)) ?_
  exact .ite hh (.fail _)

/-- A tagged value may nest deeper where more bytes follow. -/
theorem simulates_taggedWithin (h : Simulates t (Extended c₀ more) hook hook') :
    ∀ depth, Simulates t (Extended c₀ more) (Wire.Read.taggedWithin (.decode fault) hook depth)
      (Wire.Read.taggedWithin (.decode fault) hook' (depth + more.length))
  | 0 => by
    rcases lax with rfl | tolerated
    · exact .fail _
    · exact .stops (tolerated fault) _
  | depth + 1 => by
    have forward := Wire.Read.advances_int.weaken (Nat.zero_le _)
    rw [Nat.succ_add]
    exact (simulates_slot lax Wire.Read.steady_int forward).bind fun tag =>
      simulates_payload lax h (simulates_taggedWithin h depth) tag

end Tagged

/-! ## §3. What a procedure calls. -/

/-- What one procedure calls does the same as what another one calls, as far as both read. -/
structure Calls.Alike (t : Tolerance) (c₀ : Cursor) (more : List UInt8) (calls calls' : Calls) :
    Prop where
  nested : ∀ companion,
    Simulates t (Extended c₀ more) (calls.readNested companion) (calls'.readNested companion)
  codec : ∀ codec, Simulates t (Extended c₀ more) (calls.readCodec codec) (calls'.readCodec codec)
  named : Simulates t (Extended c₀ more) calls.readInstance calls'.readInstance

variable {calls calls' : Calls} (alike : calls.Alike t c₀ more calls')

include alike

/-- Every operation is simulated, the parcelables among them by the named readers. -/
theorem simulates_readOp (op : Wire.Op) :
    Simulates t (Extended c₀ more) (calls.readOp op) (calls'.readOp op) := by
  by_cases fixed : op.isPolymorphic = false
  · have forward := (Wire.Op.advances_read op).weaken (Nat.zero_le _)
    have slot : Simulates t (Extended c₀ more) (Reading.ofOp op op.read)
        (Reading.ofOp op op.read) :=
      simulates_ofOp lax (Wire.Op.steady_read op fixed) forward
    cases op with
    | parcelable => cases fixed
    | value => cases fixed
    | _ => exact slot
  · cases op with
    | parcelable => exact alike.named
    | value =>
      rintro c _ ⟨onward, rfl⟩
      have deeper : (c.extend more).remaining + 1 = c.remaining + 1 + more.length := by
        rw [Cursor.remaining_extend]
        omega
      unfold Calls.readOp Wire.Read.tagged
      dsimp only
      rw [deeper]
      exact simulates_taggedWithin lax (alike.named.restated _) _ c _ ⟨onward, rfl⟩
    | _ => exact absurd rfl fixed

/-! ## §4. Frames. -/

omit lax alike

/-- Frames with the same local variables that stand at one place. -/
def Framed (c₀ : Cursor) (more : List UInt8) (f f' : Frame) : Prop :=
  ∃ locals c, Onward c₀ c ∧ f = ⟨locals, .input c⟩ ∧ f' = ⟨locals, .input (c.extend more)⟩

namespace Run

/-- Frames with the same local variables give the same values. -/
theorem simulates_valueOf (name : String) :
    Simulates t (Framed c₀ more) (valueOf name) (valueOf name) := by
  rintro _ _ ⟨locals, c, onward, rfl, rfl⟩
  unfold valueOf
  dsimp only
  split <;> exact .inl ⟨rfl, locals, c, onward, rfl, rfl⟩

/-- A local variable gets the same value on both sides. -/
theorem simulates_assign (name : String) (v : Value) :
    Simulates t (Framed c₀ more) (assign name v) (assign name v) := by
  rintro _ _ ⟨locals, c, onward, rfl, rfl⟩
  exact .inl ⟨rfl, locals.set name v, c, onward, rfl, rfl⟩

theorem simulates_update (name : String) (change : Value → Except RunError Value) :
    Simulates t (Framed c₀ more) (update name change) (update name change) := by
  refine (simulates_valueOf name).bind fun v => ?_
  split
  · exact simulates_assign name _
  · exact .fail _

/-- Reading in a frame is simulated as reading at its cursor is. -/
theorem simulates_read {r r' : Reading α} (h : Simulates t (Extended c₀ more) r r') :
    Simulates t (Framed c₀ more) (read r) (read r') := by
  rintro _ _ ⟨locals, c, onward, rfl, rfl⟩
  rcases h c _ ⟨onward, rfl⟩ with ⟨same, moves, after⟩ | stopped
  · exact .inl ⟨same, locals, (r c).2, moves, rfl, by rw [← after]; rfl⟩
  · exact .inr stopped

/-- Nothing is written where something is read. -/
theorem simulates_write (w w' : Writing) :
    Simulates t (Framed c₀ more) (write w) (write w') := by
  rintro _ _ ⟨locals, c, onward, rfl, rfl⟩
  exact .inl ⟨rfl, locals, c, onward, rfl, rfl⟩

theorem simulates_count (v : Value) : Simulates t (Framed c₀ more) (count v) (count v) := by
  unfold count
  split
  · exact .ite (.pure _) (.fail _)
  · exact .fail _

/-- A loop is simulated if each round is. -/
theorem simulates_times {body body' : Nat → Run (Option Value)}
    (h : ∀ i, Simulates t (Framed c₀ more) (body i) (body' i)) :
    ∀ n i, Simulates t (Framed c₀ more) (times body n i) (times body' n i)
  | 0, _ => .pure none
  | n + 1, i => by
    rw [times_succ, times_succ]
    refine (h i).bind fun o => ?_
    cases o with
    | none => exact simulates_times h n (i + 1)
    | some v => exact .pure _

/-- So is a loop over items. -/
theorem simulates_each {body body' : α → Run (Option Value)}
    (h : ∀ a, Simulates t (Framed c₀ more) (body a) (body' a)) :
    ∀ items, Simulates t (Framed c₀ more) (each body items) (each body' items)
  | [] => .pure none
  | a :: rest => by
    rw [each_cons, each_cons]
    refine (h a).bind fun o => ?_
    cases o with
    | none => exact simulates_each h rest
    | some v => exact .pure _

end Run

/-- What is done with a value that was evaluated does not look at the parcel. -/
theorem simulates_itemAt (i : Nat) (v : Value) :
    Simulates t (Framed c₀ more) (Calls.itemAt i v) (Calls.itemAt i v) := by
  unfold Calls.itemAt
  dsimp only
  split
  · exact .pure _
  · exact .fail _

theorem simulates_entryAt (i : Nat) (v : Value) :
    Simulates t (Framed c₀ more) (Calls.entryAt i v) (Calls.entryAt i v) := by
  unfold Calls.entryAt
  dsimp only
  split
  · exact .pure _
  · exact .fail _

theorem simulates_enumConstant (v : Value) :
    Simulates t (Framed c₀ more) (Calls.enumConstant v) (Calls.enumConstant v) := by
  unfold Calls.enumConstant
  split
  · exact .pure _
  · exact .pure _
  · exact .fail _

theorem simulates_enumName (v : Value) :
    Simulates t (Framed c₀ more) (Calls.enumName v) (Calls.enumName v) := by
  unfold Calls.enumName
  split
  · exact .pure _
  · exact .pure _
  · exact .fail _

theorem simulates_itemsOf (v : Value) :
    Simulates t (Framed c₀ more) (Calls.itemsOf v) (Calls.itemsOf v) := by
  unfold Calls.itemsOf
  split
  · exact .pure _
  · exact .pure _
  · exact .pure _
  · exact .fail _

theorem simulates_entriesOf (v : Value) :
    Simulates t (Framed c₀ more) (Calls.entriesOf v) (Calls.entriesOf v) := by
  unfold Calls.entriesOf
  split
  · exact .pure _
  · exact .fail _

include lax

/-- A length that is let pass is let pass where more bytes follow. -/
theorem simulates_newArray (n : Nat) :
    Simulates t (Framed c₀ more) (Calls.newArray n) (Calls.newArray n) := by
  rintro _ _ ⟨locals, c, onward, rfl, rfl⟩
  have longer := c.remaining_extend more
  have left : Run.remaining? ⟨locals, .input c⟩
      = (.ok (some c.remaining), ⟨locals, .input c⟩) := rfl
  have left' : Run.remaining? ⟨locals, .input (c.extend more)⟩
      = (.ok (some (c.extend more).remaining), ⟨locals, .input (c.extend more)⟩) := rfl
  unfold Calls.newArray
  rw [Step.bind_ok left, Step.bind_ok left']
  dsimp only
  by_cases refused : c.remaining / 4 < n
  · rw [if_pos refused]
    rcases lax with rfl | tolerated
    · rw [Cursor.extend_nil, if_pos refused]
      exact .inl ⟨rfl, locals, c, onward, rfl, by rw [Cursor.extend_nil]; rfl⟩
    · exact .inr ⟨_, rfl, tolerated _ _⟩
  · rw [if_neg refused, if_neg (by omega)]
    exact .inl ⟨rfl, locals, c, onward, rfl, rfl⟩

/-! ## §5. Expressions and statements. -/

omit lax

mutual

/-- An expression that calls no adapter does the same in frames at one place. -/
theorem simulates_eval (lax : Lax t more) (alike : calls.Alike t c₀ more calls') :
    ∀ e : Expr, e.adapterFree = true →
      Simulates t (Framed c₀ more) (calls.eval e) (calls'.eval e)
  | .var name, _ => Run.simulates_valueOf name
  | .null, _ | .int _, _ | .newContainer _ _ _, _ | .singleton _, _ | .classLoader _, _ => .pure _
  | .read op _, _ => Run.simulates_read (simulates_readOp lax alike op)
  | .size target, free | .length target, free | .field target _, free | .getter target _ _, free
  | .reflect target _ _ _, free => (simulates_eval lax alike target free).map _
  | .index target position, free => by
    have both := Bool.and_eq_true_iff.mp free
    refine (simulates_eval lax alike position both.2).bind fun i => ?_
    refine (Run.simulates_count i).bind fun i => ?_
    exact (simulates_eval lax alike target both.1).bind fun v => simulates_itemAt i v
  | .keyAt target position, free | .valueAt target position, free => by
    have both := Bool.and_eq_true_iff.mp free
    refine (simulates_eval lax alike position both.2).bind fun i => ?_
    refine (Run.simulates_count i).bind fun i => ?_
    refine (simulates_eval lax alike target both.1).bind fun v => ?_
    exact (simulates_entryAt i v).map _
  | .newArray _ length, free => by
    refine (simulates_eval lax alike length free).bind fun v => ?_
    exact (Run.simulates_count v).bind fun n => simulates_newArray lax n
  | .cast _ value, free => simulates_eval lax alike value free
  | .enumValueOf _ name, free =>
    (simulates_eval lax alike name free).bind simulates_enumConstant
  | .enumName value, free => (simulates_eval lax alike value free).bind simulates_enumName
  | .readNested companion, _ => Run.simulates_read (alike.nested companion)
  | .codecRead codec, _ => Run.simulates_read (alike.codec codec)
  | .construct ty args, free => (simulates_evalArgs lax alike args free).map _
  | .adapterRead _, free => by cases free

/-- Arguments are evaluated alike, one after another. -/
theorem simulates_evalArgs (lax : Lax t more) (alike : calls.Alike t c₀ more calls') :
    ∀ args : List (String × Expr), Expr.adapterFreeArgs args = true →
      Simulates t (Framed c₀ more) (calls.evalArgs args) (calls'.evalArgs args)
  | [], _ => .pure _
  | (name, e) :: rest, free => by
    have both := Bool.and_eq_true_iff.mp free
    refine (simulates_eval lax alike e both.1).bind fun v => ?_
    exact (simulates_evalArgs lax alike rest both.2).map _

end

/-- The marker in front of a value is the same in frames at one place. -/
theorem simulates_readMarker (lax : Lax t more) :
    Simulates t (Framed c₀ more) Calls.readMarker Calls.readMarker :=
  Run.simulates_read (simulates_ofOp lax Wire.Read.steady_int
    (Wire.Read.advances_int.weaken (Nat.zero_le _)))

mutual

/-- A statement that calls no adapter does the same in frames at one place. -/
theorem simulates_exec (lax : Lax t more) (alike : calls.Alike t c₀ more calls') :
    ∀ s : Stmt, s.adapterFree = true →
      Simulates t (Framed c₀ more) (calls.exec s) (calls'.exec s)
  | .declare name _ e, free | .assign name e, free => by
    refine (simulates_eval lax alike e free).bind fun v => ?_
    exact (Run.simulates_assign name v).bind fun _ => .pure _
  | .write op e, free | .writeNested _ e, free | .codecWrite _ e, free => by
    refine (simulates_eval lax alike e free).bind fun v => ?_
    exact (Run.simulates_write _ _).bind fun _ => .pure _
  | .ifPresent body, free =>
    (simulates_readMarker lax).bind fun _ => .ite (simulates_execAll lax alike body free) (.pure _)
  | .ifNull e thens otherwise, free => by
    have parts := Bool.and_eq_true_iff.mp free
    have branches := Bool.and_eq_true_iff.mp parts.2
    refine (simulates_eval lax alike e parts.1).bind fun v => ?_
    exact .ite (simulates_execAll lax alike thens branches.1)
      (simulates_execAll lax alike otherwise branches.2)
  | .forCount index e body, free => by
    have both := Bool.and_eq_true_iff.mp free
    refine (simulates_eval lax alike e both.1).bind fun v => ?_
    refine (Run.simulates_count v).bind fun n => ?_
    refine Run.simulates_times (fun i => ?_) n 0
    exact (Run.simulates_assign index _).bind fun _ => simulates_execAll lax alike body both.2
  | .forEach var _ e body, free => by
    have both := Bool.and_eq_true_iff.mp free
    refine (simulates_eval lax alike e both.1).bind fun v => ?_
    refine (simulates_itemsOf v).bind fun items => ?_
    refine Run.simulates_each (fun item => ?_) items
    exact (Run.simulates_assign var item).bind fun _ => simulates_execAll lax alike body both.2
  | .forEntries key _ value _ e body, free => by
    have both := Bool.and_eq_true_iff.mp free
    refine (simulates_eval lax alike e both.1).bind fun v => ?_
    refine (simulates_entriesOf v).bind fun entries => ?_
    refine Run.simulates_each (fun entry => ?_) entries
    refine (Run.simulates_assign key entry.1).bind fun _ => ?_
    exact (Run.simulates_assign value entry.2).bind fun _ => simulates_execAll lax alike body both.2
  | .add target e, free | .setField target _ e, free | .callSetter target _ _ e, free
  | .reflectSet target _ _ e, free => by
    refine (simulates_eval lax alike e free).bind fun v => ?_
    exact (Run.simulates_update target _).bind fun _ => .pure _
  | .put target k v, free => by
    have both := Bool.and_eq_true_iff.mp free
    refine (simulates_eval lax alike k both.1).bind fun k => ?_
    refine (simulates_eval lax alike v both.2).bind fun v => ?_
    exact (Run.simulates_update target _).bind fun _ => .pure _
  | .store array index v, free => by
    have both := Bool.and_eq_true_iff.mp free
    refine (simulates_eval lax alike index both.1).bind fun i => ?_
    refine (Run.simulates_count i).bind fun i => ?_
    refine (simulates_eval lax alike v both.2).bind fun v => ?_
    exact (Run.simulates_update array _).bind fun _ => .pure _
  | .ret e, free => (simulates_eval lax alike e free).map _
  | .adapterWrite _ _, free => by cases free

/-- Statements are executed alike, one after another. -/
theorem simulates_execAll (lax : Lax t more) (alike : calls.Alike t c₀ more calls') :
    ∀ stmts : List Stmt, Stmt.adapterFreeAll stmts = true →
      Simulates t (Framed c₀ more) (calls.execAll stmts) (calls'.execAll stmts)
  | [], _ => .pure _
  | s :: rest, free => by
    have both := Bool.and_eq_true_iff.mp free
    refine (simulates_exec lax alike s both.1).bind fun o => ?_
    cases o with
    | none => exact simulates_execAll lax alike rest both.2
    | some v => exact .pure _

end

/-! ## §6. Procedures. -/

/-- A procedure that calls no adapter reads the same where what it calls does so. -/
theorem simulates_procedure (lax : Lax t more) (alike : calls.Alike t c₀ more calls')
    {p : Procedure} (free : p.adapterFree = true) (name : String) :
    Simulates t (Extended c₀ more) (p.read calls name) (p.read calls' name) := by
  rintro c _ ⟨onward, rfl⟩
  unfold Procedure.read
  have body := simulates_execAll lax alike p.body free ⟨[], .input c⟩ _
    ⟨[], c, onward, rfl, rfl⟩
  rcases h : calls.execAll p.body ⟨[], .input c⟩ with ⟨result, f⟩
  rcases h' : calls'.execAll p.body ⟨[], .input (c.extend more)⟩ with ⟨result', f'⟩
  rw [h, h'] at body
  rcases body with ⟨same, locals, c', moves, here, there⟩ | ⟨e, stopped, ends⟩
  · dsimp only at same here there ⊢
    subst same here there
    cases result with
    | error e => exact .inl ⟨rfl, moves, rfl⟩
    | ok o => cases o <;> exact .inl ⟨rfl, moves, rfl⟩
  · dsimp only at stopped ends ⊢
    subst stopped
    refine .inr ⟨e, rfl, ?_⟩
    cases result' with
    | error e' => exact ends
    | ok o => exact t.any_of_success ends _

end ParcelCodec
