import ParcelCodec.Step

/-!
# How a run ends

`Ends x s P E` says how a step ends that starts in a state: with an answer and a state as `P` tells,
or with a failure as `E` tells.  What is to be shown of a run of several steps is shown of one step
after the other, each from the state that the one before it left.

Main statements: `Ends.bind` and `Ends.replicate`.
-/

namespace ParcelCodec

variable {σ ε ε' α β : Type}

/-- A step that starts in a state answers as `P` tells, or fails as `E` tells. -/
def Ends (x : Step σ ε α) (s : σ) (P : α → σ → Prop) (E : ε → Prop) : Prop :=
  match x s with
  | (.ok a, s') => P a s'
  | (.error e, _) => E e

namespace Ends

variable {x : Step σ ε α} {s : σ} {P : α → σ → Prop} {E : ε → Prop}

/-- What a step answers, and where it leaves the state, is as promised. -/
theorem ok {a : α} {s' : σ} (h : x s = (.ok a, s')) (ends : Ends x s P E) : P a s' := by
  unfold Ends at ends
  rwa [h] at ends

/-- The same with the answer and the state taken apart. -/
theorem answer {a : α} (h : (x s).1 = .ok a) (ends : Ends x s P E) : P a (x s).2 :=
  ok (Prod.ext h rfl) ends

/-- What a step fails with is as promised. -/
theorem error {e : ε} (h : (x s).1 = .error e) (ends : Ends x s P E) : E e := by
  unfold Ends at ends
  rcases hx : x s with ⟨e' | a, s'⟩
  · rw [hx] at h ends
    cases h
    exact ends
  · rw [hx] at h
    cases h

/-- A promise holds if it does for every outcome. -/
theorem intro (ok : ∀ a s', x s = (.ok a, s') → P a s')
    (error : ∀ e s', x s = (.error e, s') → E e) : Ends x s P E := by
  unfold Ends
  rcases h : x s with ⟨e | a, s'⟩
  · exact error e s' h
  · exact ok a s' h

/-- A promise may be weakened on either side. -/
theorem mono {P' : α → σ → Prop} {E' : ε → Prop} (h : Ends x s P E)
    (ok : ∀ a s', x s = (.ok a, s') → P a s' → P' a s') (error : ∀ e, E e → E' e) :
    Ends x s P' E' :=
  intro (fun a s' hx => ok a s' hx (h.ok hx)) fun e s' hx => error e (h.error (by rw [hx]))

/-- Returning keeps any promise that holds of what is returned. -/
theorem pure {a : α} (h : P a s) : Ends (Pure.pure a) s P E := h

/-- Failing keeps any promise that holds of the failure. -/
theorem fail {e : ε} (h : E e) : Ends (Step.fail e) s P E := h

/-- A run ends as told if its first step answers so that the rest of it does. -/
theorem bind {f : α → Step σ ε β} {Q : β → σ → Prop}
    (h : Ends x s (fun a s' => Ends (f a) s' Q E) E) : Ends (x >>= f) s Q E := by
  unfold Ends at h ⊢
  rcases hx : x s with ⟨e | a, s'⟩
  · rw [hx] at h
    rw [Step.bind_error hx]
    exact h
  · rw [hx] at h
    rw [Step.bind_ok hx]
    exact h

/-- A promise about an image is one about what it is the image of. -/
theorem map {f : α → β} {Q : β → σ → Prop} (h : Ends x s (fun a s' => Q (f a) s') E) :
    Ends (do return f (← x)) s Q E := bind h

/-- A choice keeps what both of its branches keep, each under its own condition. -/
theorem ite {p : Prop} [Decidable p] {y : Step σ ε α} (hx : p → Ends x s P E)
    (hy : ¬ p → Ends y s P E) : Ends (if p then x else y) s P E := by
  by_cases h : p
  · rw [if_pos h]
    exact hx h
  · rw [if_neg h]
    exact hy h

/-- A promise about a renamed failure is one about the failure itself. -/
theorem mapError {f : ε → ε'} {E' : ε' → Prop} (h : Ends x s P fun e => E' (f e)) :
    Ends (Step.mapError f x) s P E' := by
  unfold Ends at h ⊢
  rw [Step.mapError_apply]
  rcases hx : x s with ⟨e | a, s'⟩ <;> rw [hx] at h <;> exact h

/-- A run of one step several times ends as told if the step does so wherever the run gets to. -/
theorem replicate {P : α → Prop} : ∀ {n : Nat} {s : σ},
    (∀ i < n, ∀ done s', Step.replicate i x s = (.ok done, s') → Ends x s' (fun a _ => P a) E) →
      Ends (Step.replicate n x) s (fun items _ => items.length = n ∧ ∀ a ∈ items, P a) E
  | 0, _, _ => ⟨rfl, nofun⟩
  | n + 1, s, h => by
    refine bind ((h 0 (Nat.succ_pos n) [] s rfl).mono (fun a s' hx ha => ?_) fun _ he => he)
    have rest : Ends (Step.replicate n x) s'
        (fun items _ => items.length = n ∧ ∀ a ∈ items, P a) E :=
      replicate fun i hi done s'' run => h (i + 1) (Nat.succ_lt_succ hi) (a :: done) s''
        ((Step.bind_ok hx).trans ((Step.bind_ok run).trans rfl))
    refine bind (rest.mono ?_ fun _ he => he)
    rintro items _ _ ⟨length, each⟩
    refine pure ⟨congrArg (· + 1) length, fun b hb => ?_⟩
    rcases List.mem_cons.mp hb with rfl | hb
    · exact ha
    · exact each b hb

end Ends

end ParcelCodec
