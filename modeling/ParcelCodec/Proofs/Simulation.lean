import ParcelCodec.Proofs.Format.Agreement

/-!
# Steps that simulate each other

Two steps are run from related states.  The second one does what the first one does, and the states
stay related, unless the first one stops early in a way that is tolerated.  Where the states are
cursors at the same place, this says that two reads agree.

Main statements: `Simulates.bind` and `Simulates.replicate`.
-/

namespace ParcelCodec

open Format (Tolerance failure?)

variable {σ α β : Type}

/-- Outcomes that are the same in related states, unless the first side stopped early. -/
def Step.Related (t : Tolerance) (R : σ → σ → Prop) (r r' : Except RunError α × σ) : Prop :=
  (r.1 = r'.1 ∧ R r.2 r'.2) ∨ ∃ e, r.1 = .error e ∧ t.Stops e (failure? r'.1)

/-- From related states, the second step does what the first one does. -/
def Simulates (t : Tolerance) (R : σ → σ → Prop) (x y : Step σ RunError α) : Prop :=
  ∀ s s', R s s' → Step.Related t R (x s) (y s')

namespace Simulates

variable {t : Tolerance} {R : σ → σ → Prop}

theorem pure (a : α) : Simulates t R (Pure.pure a) (Pure.pure a) := fun _ _ h => .inl ⟨rfl, h⟩

theorem fail (e : RunError) : Simulates t R (Step.fail e : Step σ RunError α) (Step.fail e) :=
  fun _ _ h => .inl ⟨rfl, h⟩

/-- A step that stops early in any case is simulated by any other. -/
theorem stops {e : RunError} (h : ∀ o, t.Stops e o) (y : Step σ RunError α) :
    Simulates t R (Step.fail e) y := fun _ _ _ => .inr ⟨e, rfl, h _⟩

theorem bind {x y : Step σ RunError α} {f g : α → Step σ RunError β} (hx : Simulates t R x y)
    (hf : ∀ a, Simulates t R (f a) (g a)) : Simulates t R (x >>= f) (y >>= g) := by
  intro s s' related
  rcases hx s s' related with ⟨same, after⟩ | ⟨e, stopped, ends⟩
  · rcases h : x s with ⟨e | a, r⟩ <;> rcases h' : y s' with ⟨e' | a', r'⟩ <;>
      rw [h, h'] at same after <;> cases same
    · rw [Step.bind_error h, Step.bind_error h']
      exact .inl ⟨rfl, after⟩
    · rw [Step.bind_ok h, Step.bind_ok h']
      exact hf a r r' after
  · rcases h : x s with ⟨e' | a, r⟩
    · rw [h] at stopped
      cases stopped
      refine .inr ⟨e, by rw [Step.bind_error h], ?_⟩
      -- The second side may have gone on and answered: then it may go on in any way.
      rcases h' : y s' with ⟨e' | a, r'⟩
      · rw [h'] at ends
        rw [Step.bind_error h']
        exact ends
      · rw [h'] at ends
        exact t.any_of_success ends _
    · rw [h] at stopped
      cases stopped

theorem map {x y : Step σ RunError α} (f : α → β) (hx : Simulates t R x y) :
    Simulates t R (do return f (← x)) (do return f (← y)) :=
  hx.bind fun a => pure (f a)

theorem ite {p : Prop} [Decidable p] {x y x' y' : Step σ RunError α} (hx : Simulates t R x x')
    (hy : Simulates t R y y') : Simulates t R (if p then x else y) (if p then x' else y') := by
  split
  · exact hx
  · exact hy

theorem restated {x y : Step σ RunError α} (fault : DecodeFault) (hx : Simulates t R x y) :
    Simulates t R (Step.mapError (Calls.restated (.decode fault)) x)
      (Step.mapError (Calls.restated (.decode fault)) y) := by
  intro s s' related
  rw [Step.mapError_apply, Step.mapError_apply]
  rcases hx s s' related with ⟨same, after⟩ | ⟨e, stopped, ends⟩
  · rcases h : x s with ⟨e | a, r⟩ <;> rcases h' : y s' with ⟨e' | a', r'⟩ <;>
      rw [h, h'] at same after <;> cases same <;> exact .inl ⟨rfl, after⟩
  · rcases h : x s with ⟨e' | a, r⟩
    · rw [h] at stopped
      cases stopped
      refine .inr ⟨_, rfl, ?_⟩
      have restated := t.restated fault ends
      rcases h' : y s' with ⟨e' | a, r'⟩ <;> rw [h'] at restated <;> exact restated
    · rw [h] at stopped
      cases stopped

theorem replicate {x y : Step σ RunError α} (hx : Simulates t R x y) :
    ∀ n, Simulates t R (Step.replicate n x) (Step.replicate n y)
  | 0 => pure []
  | n + 1 => hx.bind fun a => (replicate hx n).map (a :: ·)

end Simulates

end ParcelCodec
