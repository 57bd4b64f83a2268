import ParcelCodec.Machine.Evaluation
import ParcelCodec.Proofs.Format.Codec

/-!
# Procedures that read as a reading does

A procedure that reads is compared with a plain reading of the same bytes.  A run *mirrors* a
reading if, wherever the cursor stands, it ends with the same success or the same failure and
leaves the cursor at the same place; what it answers and what it leaves in its local variables may
depend on what the reading answers.

Local variables are tracked by names: a run keeps the names that are in use around it and may do
as it likes with all others.  Main statements: the rules by which runs mirror readings, one for
each way in which statements are put together (`mirrors_times`, `Does.append`, `mirrors_declare`,
`mirrors_ifPresent`, `mirrors_forCount`).
-/

namespace ParcelCodec

open Wire (Cursor)

attribute [simp] Calls.eval Calls.evalArgs Calls.exec Calls.execAll

/-! ## §1. Local variables. -/

namespace Locals

/-- Local variables that hold the same under given names. -/
def Keeps (names : List String) (before after : Locals) : Prop :=
  ∀ n ∈ names, after.lookup n = before.lookup n

theorem Keeps.refl (names : List String) (locals : Locals) : Keeps names locals locals :=
  fun _ _ => rfl

/-- What is kept twice is kept. -/
theorem Keeps.trans {names : List String} {a b c : Locals} (hab : Keeps names a b)
    (hbc : Keeps names b c) : Keeps names a c :=
  fun n hn => (hbc n hn).trans (hab n hn)

/-- Fewer names are kept as well. -/
theorem Keeps.mono {names names' : List String} {a b : Locals} (h : Keeps names' a b)
    (sub : ∀ n ∈ names, n ∈ names') : Keeps names a b :=
  fun n hn => h n (sub n hn)

/-- Setting a variable keeps every other name. -/
theorem keeps_set {names : List String} {name : String} (h : name ∉ names) (v : Value)
    (locals : Locals) : Keeps names locals (locals.set name v) := by
  intro n hn
  have other : n ≠ name := fun same => h (same ▸ hn)
  exact lookup_set_of_ne other v locals

end Locals

open Locals (Keeps keeps_set)

/-! ## §2. Runs that mirror readings. -/

variable {α β γ δ : Type}

/-- A run that starts with given local variables ends as a reading does, whatever the bytes. -/
def Mirrors (x : Run α) (locals : Locals) (r : Reading β) (post : α → β → Locals → Prop) : Prop :=
  ∀ c, match r c with
    | (.ok b, c') => ∃ a after, x ⟨locals, .input c⟩ = (.ok a, ⟨after, .input c'⟩) ∧ post a b after
    | (.error e, c') => ∃ after, x ⟨locals, .input c⟩ = (.error e, ⟨after, .input c'⟩)

namespace Mirrors

variable {x : Run α} {locals : Locals} {r : Reading β} {post : α → β → Locals → Prop}

/-- An answer mirrors an answer, and touches nothing. -/
theorem pure {a : α} {b : β} (h : post a b locals) :
    Mirrors (Pure.pure a) locals (Pure.pure b) post :=
  fun _ => ⟨a, locals, rfl, h⟩

/-- A failure mirrors the same failure. -/
theorem fail (e : RunError) : Mirrors (Step.fail e) locals (Step.fail e) post :=
  fun _ => ⟨locals, rfl⟩

/-- Less may be said of how a run ends. -/
theorem weaken {post' : α → β → Locals → Prop} (h : Mirrors x locals r post)
    (hp : ∀ a b after, post a b after → post' a b after) : Mirrors x locals r post' := by
  intro c
  have hc := h c
  rcases hr : r c with ⟨e | b, c'⟩
  · rw [hr] at hc
    exact hc
  · rw [hr] at hc
    obtain ⟨a, after, run, ha⟩ := hc
    exact ⟨a, after, run, hp a b after ha⟩

/-- Runs in a row mirror readings in a row, with what is known after the first. -/
theorem bind {f : α → Run γ} {g : β → Reading δ} {post' : γ → δ → Locals → Prop}
    (hx : Mirrors x locals r post)
    (hf : ∀ a b after, post a b after → Mirrors (f a) after (g b) post') :
    Mirrors (x >>= f) locals (r >>= g) post' := by
  intro c
  have hc := hx c
  rcases hr : r c with ⟨e | b, c'⟩
  · rw [hr] at hc
    obtain ⟨after, run⟩ := hc
    rw [Step.bind_error hr]
    exact ⟨after, Step.bind_error run⟩
  · rw [hr] at hc
    obtain ⟨a, after, run, ha⟩ := hc
    rw [Step.bind_ok hr, Step.bind_ok run]
    exact hf a b after ha c'

/-- A step that reads nothing is no part of the reading. -/
theorem bind_local {f : α → Run γ} {a : α} {after : Locals} {post' : γ → β → Locals → Prop}
    (hx : ∀ ch, x ⟨locals, ch⟩ = (.ok a, ⟨after, ch⟩)) (hf : Mirrors (f a) after r post') :
    Mirrors (x >>= f) locals r post' := by
  intro c
  rw [Step.bind_ok (hx (.input c))]
  exact hf c

/-- A reading in a frame is mirrored by itself and leaves the local variables alone. -/
theorem read (r : Reading β) :
    Mirrors (Run.read r) locals r fun a b after => a = b ∧ after = locals := by
  intro c
  rcases hr : r c with ⟨e | b, c'⟩
  · refine ⟨locals, ?_⟩
    simp [Run.read, hr]
  · refine ⟨b, locals, ?_, rfl, rfl⟩
    simp [Run.read, hr]

end Mirrors

/-- A variable that is set has its value. -/
theorem Run.valueOf_apply {name : String} {v : Value} {locals : Locals}
    (h : locals.lookup name = some v) (ch : Channel) :
    Run.valueOf name ⟨locals, ch⟩ = (.ok v, ⟨locals, ch⟩) := by
  simp [Run.valueOf, h]

theorem Run.assign_apply (name : String) (v : Value) (locals : Locals) (ch : Channel) :
    Run.assign name v ⟨locals, ch⟩ = (.ok (), ⟨locals.set name v, ch⟩) := rfl

/-- A variable is changed if what it holds has the shape for it. -/
theorem Run.update_apply {name : String} {change : Value → Except RunError Value} {v v' : Value}
    {locals : Locals} (h : locals.lookup name = some v) (hv : change v = .ok v') (ch : Channel) :
    Run.update name change ⟨locals, ch⟩ = (.ok (), ⟨locals.set name v', ch⟩) := by
  unfold Run.update
  rw [Step.bind_ok (Run.valueOf_apply h ch), hv]
  rfl

/-- A round that returns nothing is followed by the next one. -/
theorem Run.times_succ (body : Nat → Run (Option Value)) (count i : Nat) :
    Run.times body (count + 1) i = body i >>= fun o => match o with
      | none => Run.times body count (i + 1)
      | some v => pure (some v) := by
  funext f
  rw [Step.bind_apply]
  unfold Run.times
  rcases body i f with ⟨e | o, f'⟩
  · rfl
  · cases o <;> rfl

/-- So is an item. -/
theorem Run.each_cons (body : α → Run (Option Value)) (a : α) (rest : List α) :
    Run.each body (a :: rest) = body a >>= fun o => match o with
      | none => Run.each body rest
      | some v => pure (some v) := by
  funext f
  rw [Step.bind_apply]
  unfold Run.each
  rcases body a f with ⟨e | o, f'⟩
  · rfl
  · cases o <;> rfl

/-- A loop mirrors a run of reads if its body mirrors each of them.  The invariant speaks of what
has been read so far. -/
theorem mirrors_times {body : Nat → Run (Option Value)} {element : Reading α}
    {inv : List α → Locals → Prop} (total : Nat)
    (step : ∀ done locals, done.length < total → inv done locals →
      Mirrors (body done.length) locals element
        fun o a after => o = none ∧ inv (done ++ [a]) after) :
    ∀ count done locals, done.length + count = total → inv done locals →
      Mirrors (Run.times body count done.length) locals (Step.replicate count element)
        fun o as after => o = none ∧ as.length = count ∧ inv (done ++ as) after
  | 0, done, locals, _, hi => by
    refine Mirrors.pure (a := none) ⟨rfl, rfl, ?_⟩
    rwa [List.append_nil]
  | count + 1, done, locals, hn, hi => by
    rw [Run.times_succ]
    refine (step done locals (by omega) hi).bind ?_
    rintro _ a after ⟨rfl, ha⟩
    have rest := mirrors_times total step count (done ++ [a]) after (by simp; omega) ha
    rw [List.length_append, List.length_singleton] at rest
    show Mirrors (Run.times body count (done.length + 1)) after _ _
    rw [← bind_pure (Run.times body count (done.length + 1))]
    refine rest.bind fun o as after ho => Mirrors.pure ⟨ho.1, ?_, ?_⟩
    · rw [List.length_cons, ho.2.1]
    · rw [List.append_cons]
      exact ho.2.2

/-! ## §3. Statements. -/

/-- Statements one after another; one that ends the procedure keeps those behind it from running. -/
theorem Calls.execAll_append (calls : Calls) (stmts rest : List Stmt) :
    calls.execAll (stmts ++ rest) = calls.execAll stmts >>= fun o => match o with
      | some v => pure (some v)
      | none => calls.execAll rest := by
  induction stmts with
  | nil =>
    funext f
    rfl
  | cons s tail ih =>
    rw [List.cons_append, Calls.execAll, Calls.execAll, ih, bind_assoc]
    congr 1
    funext o
    cases o <;> rfl

theorem Calls.execAll_singleton (calls : Calls) (s : Stmt) :
    calls.execAll [s] = calls.exec s := by
  rw [Calls.execAll]
  refine Eq.trans ?_ (bind_pure (calls.exec s))
  congr 1
  funext o
  cases o <;> rfl

/-- Statements that mirror a reading and do not end their procedure. -/
def Does (calls : Calls) (stmts : List Stmt) (locals : Locals) (r : Reading β)
    (post : β → Locals → Prop) : Prop :=
  Mirrors (calls.execAll stmts) locals r fun o b after => o = none ∧ post b after

namespace Does

variable {calls : Calls} {stmts rest : List Stmt} {s : Stmt} {locals after : Locals}
  {r : Reading β} {g : β → Reading γ} {post : β → Locals → Prop} {post' : γ → Locals → Prop}

/-- No statements answer nothing. -/
theorem nil {b : β} (h : post b locals) : Does calls [] locals (Pure.pure b) post :=
  Mirrors.pure ⟨rfl, h⟩

/-- Less may be said of how statements end. -/
theorem weaken {post' : β → Locals → Prop} (h : Does calls stmts locals r post)
    (hp : ∀ b after, post b after → post' b after) : Does calls stmts locals r post' :=
  Mirrors.weaken h fun _ b after ha => ⟨ha.1, hp b after ha.2⟩

/-- A statement that does not return is followed by the others. -/
theorem cons
    (hs : Mirrors (calls.exec s) locals r fun o b after => o = none ∧ post b after)
    (hr : ∀ b after, post b after → Does calls rest after (g b) post') :
    Does calls (s :: rest) locals (r >>= g) post' := by
  unfold Does
  rw [Calls.execAll]
  refine hs.bind ?_
  rintro _ b after ⟨rfl, hb⟩
  exact hr b after hb

/-- A statement that reads nothing is no part of the reading. -/
theorem cons_local {post : β → Locals → Prop}
    (hs : ∀ ch, calls.exec s ⟨locals, ch⟩ = (.ok none, ⟨after, ch⟩))
    (hr : Does calls rest after r post) : Does calls (s :: rest) locals r post := by
  unfold Does
  rw [Calls.execAll]
  exact Mirrors.bind_local hs hr

/-- One statement does what it mirrors. -/
theorem single
    (hs : Mirrors (calls.exec s) locals r fun o b after => o = none ∧ post b after) :
    Does calls [s] locals r post := by
  have run : Does calls [s] locals (r >>= Pure.pure) post := cons hs fun b after hb => nil hb
  rwa [bind_pure] at run

/-- Statements one after another mirror readings one after another. -/
theorem append (hs : Does calls stmts locals r post)
    (hr : ∀ b after, post b after → Does calls rest after (g b) post') :
    Does calls (stmts ++ rest) locals (r >>= g) post' := by
  unfold Does
  rw [Calls.execAll_append]
  refine hs.bind ?_
  rintro _ b after ⟨rfl, hb⟩
  exact hr b after hb

end Does

section Statements

variable {calls : Calls} {locals : Locals} {r : Reading β}

/-- A declaration sets a local variable to the value of its expression. -/
theorem exec_declare_apply {name : String} {ty : JavaType} {e : Expr} {v : Value}
    (he : ∀ ch, calls.eval e ⟨locals, ch⟩ = (.ok v, ⟨locals, ch⟩)) (ch : Channel) :
    calls.exec (.declare name ty e) ⟨locals, ch⟩ = (.ok none, ⟨locals.set name v, ch⟩) := by
  rw [Calls.exec, Step.bind_ok (he ch)]
  rfl

/-- A declaration mirrors what its expression does, and the variable holds the value. -/
theorem mirrors_declare {name : String} {ty : JavaType} {e : Expr}
    {post : Value → β → Locals → Prop} (he : Mirrors (calls.eval e) locals r post) :
    Mirrors (calls.exec (.declare name ty e)) locals r fun o b after =>
      o = none ∧ ∃ v before, post v b before ∧ after = before.set name v := by
  rw [Calls.exec, ← bind_pure r]
  refine he.bind fun v b before hb => ?_
  exact Mirrors.bind_local (fun ch => Run.assign_apply name v before ch)
    (Mirrors.pure ⟨rfl, v, before, hb, rfl⟩)

/-- So does an assignment. -/
theorem mirrors_assign {name : String} {e : Expr} {post : Value → β → Locals → Prop}
    (he : Mirrors (calls.eval e) locals r post) :
    Mirrors (calls.exec (.assign name e)) locals r fun o b after =>
      o = none ∧ ∃ v before, post v b before ∧ after = before.set name v := by
  rw [Calls.exec, ← bind_pure r]
  refine he.bind fun v b before hb => ?_
  exact Mirrors.bind_local (fun ch => Run.assign_apply name v before ch)
    (Mirrors.pure ⟨rfl, v, before, hb, rfl⟩)

/-- A return answers the value of its expression. -/
theorem mirrors_ret {e : Expr} {post : Value → β → Locals → Prop}
    (he : Mirrors (calls.eval e) locals r post) :
    Mirrors (calls.exec (.ret e)) locals r fun o b after => ∃ v, o = some v ∧ post v b after := by
  rw [Calls.exec, ← bind_pure r]
  exact he.bind fun v b before hb => Mirrors.pure ⟨v, rfl, hb⟩

/-- A marker decides whether the body runs. -/
theorem mirrors_ifPresent {body : List Stmt} {absent : β} {post : β → Locals → Prop}
    (present : Does calls body locals r post) (otherwise : post absent locals) :
    Mirrors (calls.exec (.ifPresent body)) locals
      (Format.readInt >>= fun n => if n = 0 then r else Pure.pure absent)
      fun o b after => o = none ∧ post b after := by
  rw [Calls.exec]
  refine (Mirrors.read Format.readInt).bind ?_
  rintro n _ _ ⟨rfl, rfl⟩
  split
  · exact present
  · exact Mirrors.pure ⟨rfl, otherwise⟩

/-- A loop over a count that is held by a variable mirrors a run of reads. -/
theorem mirrors_forCount {index : String} {count : Expr} {body : List Stmt} {n : Nat}
    {element : Reading α} {inv : List α → Locals → Prop}
    (hc : ∀ ch, (calls.eval count >>= Run.count) ⟨locals, ch⟩ = (.ok n, ⟨locals, ch⟩))
    (start : inv [] locals)
    (step : ∀ done locals, done.length < n → inv done locals →
      Does calls body (locals.set index (.int (Int32.ofNat done.length))) element
        fun a after => inv (done ++ [a]) after) :
    Mirrors (calls.exec (.forCount index count body)) locals (Step.replicate n element)
      fun o as after => o = none ∧ as.length = n ∧ inv as after := by
  rw [Calls.exec, ← bind_assoc]
  refine Mirrors.bind_local hc ?_
  refine mirrors_times n ?_ n [] locals (Nat.zero_add n) start
  intro done locals hd hi
  exact Mirrors.bind_local (fun ch => Run.assign_apply _ _ _ ch) (step done locals hd hi)

end Statements

end ParcelCodec
