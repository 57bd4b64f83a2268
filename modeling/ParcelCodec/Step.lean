/-!
# Steps: computations that may fail and leave their state behind

Reading a parcel moves a cursor, and running a procedure moves a cursor or grows a buffer.  Both
can stop early, and where they stopped is part of the answer: a failed read leaves the cursor
behind whatever it had already consumed.  `Step σ ε α` is that shape, and nothing more: a
function from a state to an outcome *and* a state.

The two laws everything else uses are `bind_ok` and `bind_error`: after a success the next step
goes on from the new state, after a failure the state stays as it is.
-/

namespace ParcelCodec

/-- A computation over a state `σ` that answers `α` or fails with `ε`, and in both cases says
what the state is afterwards. -/
def Step (σ ε α : Type) : Type := σ → Except ε α × σ

namespace Step

variable {σ ε α β γ : Type}

/-- Answer without touching the state. -/
def answer (a : α) : Step σ ε α := fun s => (.ok a, s)

/-- Fail without touching the state. -/
def fail (e : ε) : Step σ ε α := fun s => (.error e, s)

/-- Run `x`, then what its answer asks for; a failure of `x` ends the run where `x` stopped. -/
def andThen (x : Step σ ε α) (next : α → Step σ ε β) : Step σ ε β := fun s =>
  match x s with
  | (.ok a, s') => next a s'
  | (.error e, s') => (.error e, s')

instance : Monad (Step σ ε) where
  pure := answer
  bind := andThen

/-- The state as it is. -/
def get : Step σ ε σ := fun s => (.ok s, s)

/-- Replace the state. -/
def set (s : σ) : Step σ ε Unit := fun _ => (.ok (), s)

/-- The same run with its failure restated. -/
def mapError (f : ε → ε') (x : Step σ ε α) : Step σ ε' α := fun s =>
  match x s with
  | (.ok a, s') => (.ok a, s')
  | (.error e, s') => (.error (f e), s')

/-- Run `x` a given number of times and collect the answers in order. -/
def replicate : Nat → Step σ ε α → Step σ ε (List α)
  | 0, _ => pure []
  | n + 1, x => do
    let a ← x
    let rest ← replicate n x
    return a :: rest

/-- The outcomes of several steps one after another.  One that fails does not keep the others from
theirs. -/
def inTurn : List (Step σ ε α) → σ → List (Except ε α) × σ
  | [], s => ([], s)
  | x :: rest, s =>
    let (outcome, s') := x s
    let (others, s'') := inTurn rest s'
    (outcome :: others, s'')

/-! ## Laws -/

@[simp] theorem pure_apply (a : α) (s : σ) : (pure a : Step σ ε α) s = (.ok a, s) := rfl

@[simp] theorem fail_apply (e : ε) (s : σ) : (fail e : Step σ ε α) s = (.error e, s) := rfl

theorem bind_apply (x : Step σ ε α) (next : α → Step σ ε β) (s : σ) :
    (x >>= next) s = match x s with
      | (.ok a, s') => next a s'
      | (.error e, s') => (.error e, s') := rfl

theorem mapError_apply (f : ε → ε') (x : Step σ ε α) (s : σ) :
    mapError f x s = match x s with
      | (.ok a, s') => (.ok a, s')
      | (.error e, s') => (.error (f e), s') := rfl

theorem bind_pure_eq (x : Step σ ε α) : (x >>= pure) = x := by
  funext s
  rcases h : x s with ⟨e | a, s'⟩ <;> simp [bind_apply, h]

theorem bind_assoc_eq (x : Step σ ε α) (f : α → Step σ ε β) (g : β → Step σ ε γ) :
    x >>= f >>= g = x >>= fun a => f a >>= g := by
  funext s
  rcases h : x s with ⟨e | a, s'⟩ <;> simp [bind_apply, h]

instance : LawfulMonad (Step σ ε) :=
  LawfulMonad.mk' _ bind_pure_eq (fun _ _ => rfl) bind_assoc_eq

/-- After a success the next step goes on from the new state. -/
theorem bind_ok {x : Step σ ε α} {next : α → Step σ ε β} {s s' : σ} {a : α}
    (h : x s = (.ok a, s')) : (x >>= next) s = next a s' := by
  show andThen x next s = _
  simp [andThen, h]

/-- After a failure the state stays where the failing step left it. -/
theorem bind_error {x : Step σ ε α} {next : α → Step σ ε β} {s s' : σ} {e : ε}
    (h : x s = (.error e, s')) : (x >>= next) s = (.error e, s') := by
  show andThen x next s = _
  simp [andThen, h]

/-- A step whose answer is put into another shape runs as it did before. -/
theorem map_eq {x : Step σ ε α} {s s' : σ} {r : Except ε α} (g : α → β) (h : x s = (r, s')) :
    (g <$> x) s = (g <$> r, s') := by
  rw [map_eq_pure_bind]
  cases r with
  | error e => exact bind_error h
  | ok a => exact bind_ok h

/-- Asking for the state leaves it as it is. -/
theorem get_bind (next : σ → Step σ ε α) (s : σ) : (get >>= next) s = next s s := rfl

/-- Two steps that succeed, one after the other. -/
theorem bind_eq_ok {x : Step σ ε α} {next : α → Step σ ε β} {s s' : σ} {b : β}
    (h : (x >>= next) s = (.ok b, s')) :
    ∃ a between, x s = (.ok a, between) ∧ next a between = (.ok b, s') := by
  rcases hx : x s with ⟨e | a, between⟩
  · rw [bind_error hx] at h
    cases h
  · rw [bind_ok hx] at h
    exact ⟨a, between, rfl, h⟩

end Step

end ParcelCodec
