import Mathlib.Logic.Basic

/-!
# Reasoning about computations that can abort

Programs that stop on an error are modelled in `Except`.  This module
gives the inversion rules that peel a successful computation apart (a
bind, a map, a renamed error and a guard that throws),
the invariant rule for a monadic fold (a property that every successful
step keeps holds after every successful run of the fold) and its converse
for progress: a fold whose every step succeeds is the pure fold.
Programs whose behaviour can be undefined are modelled in `Option`; the
progress rule of a fold says that it succeeds when each step does from the
states reached at its position.
-/

namespace Except

variable {ε α β σ : Type}

/-- A bind on a success runs its continuation. -/
theorem ok_bind (a : α) (f : α → Except ε β) : (Except.ok a >>= f) = f a :=
  rfl

/-- A bind succeeds exactly when both of its parts do. -/
theorem bind_eq_ok {x : Except ε α} {f : α → Except ε β} {b : β} :
    (x >>= f) = .ok b ↔ ∃ a, x = .ok a ∧ f a = .ok b := by
  cases x with
  | error e =>
      simp only [reduceCtorEq, false_and, exists_false, iff_false]
      intro h
      cases h
  | ok a =>
      constructor
      · intro h
        exact ⟨a, rfl, h⟩
      · rintro ⟨a', found, result⟩
        cases found
        exact result

/-- A map succeeds exactly when the mapped computation does. -/
theorem map_eq_ok {x : Except ε α} {g : α → β} {b : β} :
    (g <$> x) = .ok b ↔ ∃ a, x = .ok a ∧ g a = b := by
  cases x with
  | error e =>
      simp only [reduceCtorEq, false_and, exists_false, iff_false]
      intro h
      cases h
  | ok a =>
      constructor
      · intro h
        cases h
        exact ⟨a, rfl, rfl⟩
      · rintro ⟨a', found, result⟩
        cases found
        rw [← result]
        rfl

/-- Renaming the error of a computation changes none of its successes. -/
theorem mapError_eq_ok {ε' : Type} {x : Except ε α} {g : ε → ε'} {a : α} :
    x.mapError g = .ok a ↔ x = .ok a := by
  cases x with
  | error e =>
      exact ⟨fun failed => (nomatch failed), fun failed => (nomatch failed)⟩
  | ok a' =>
      show (Except.ok a' : Except ε' α) = .ok a ↔ _
      simp only [Except.ok.injEq]

/-- A guard that throws lets a computation through exactly where its condition fails. -/
theorem ite_error_eq_ok {c : Prop} [Decidable c] {e : ε} {x : Except ε α} {a : α} :
    (if c then .error e else x) = .ok a ↔ ¬c ∧ x = .ok a := by
  by_cases holds : c
  · rw [if_pos holds]
    simp [holds]
  · rw [if_neg holds]
    simp [holds]

/-- The invariant rule of a monadic fold over a list. -/
theorem foldlM_invariant {f : σ → α → Except ε σ} (invariant : σ → Prop)
    (step : ∀ state item next, invariant state → f state item = .ok next →
      invariant next) :
    ∀ (items : List α) (state final : σ), invariant state →
      items.foldlM f state = .ok final → invariant final
  | [], state, final, holds, run => by
      cases run
      exact holds
  | item :: rest, state, final, holds, run => by
      rw [List.foldlM_cons, bind_eq_ok] at run
      obtain ⟨next, first, later⟩ := run
      exact foldlM_invariant invariant step rest next final
        (step state item next holds first) later

/--
A fold whose steps succeed is the pure fold: where `good` holds of a state
and the items still to come, the step returns what `g` does and `good`
holds of the new state and the rest.
-/
theorem foldlM_eq_ok_foldl {f : σ → α → Except ε σ} {g : σ → α → σ} (good : σ → List α → Prop)
    (step : ∀ state item rest, good state (item :: rest) →
      f state item = .ok (g state item) ∧ good (g state item) rest) :
    ∀ (items : List α) (state : σ), good state items →
      items.foldlM f state = .ok (items.foldl g state)
  | [], _, _ => rfl
  | item :: rest, state, holds => by
      obtain ⟨first, later⟩ := step state item rest holds
      rw [List.foldlM_cons, first, List.foldl_cons]
      exact foldlM_eq_ok_foldl good step rest (g state item) later

end Except

namespace Option

variable {α σ : Type}

/--
The progress rule of a fold in `Option`: if the step at each position `k`
succeeds from every state that satisfies the invariant at `start + k`, into
one that satisfies it at `start + k + 1`, the fold succeeds into a state that
satisfies it at the end.
-/
theorem foldlM_progress {f : σ → α → Option σ} (invariant : Nat → σ → Prop) :
    ∀ (items : List α) (start : Nat) (state : σ), invariant start state →
      (∀ (k : Nat) (inside : k < items.length) (current : σ), invariant (start + k) current →
        ∃ next, f current items[k] = some next ∧ invariant (start + k + 1) next) →
      ∃ final, items.foldlM f state = some final ∧ invariant (start + items.length) final
  | [], start, state, holds, _ => ⟨state, rfl, holds⟩
  | item :: rest, start, state, holds, step => by
      obtain ⟨next, first, nextHolds⟩ := step 0 (by simp) state holds
      have firstStep : f state item = some next := by simpa using first
      obtain ⟨final, later, finalHolds⟩ :=
        foldlM_progress invariant rest (start + 1) next nextHolds fun k inside current holdsAt => by
          have shifted := step (k + 1) (by simp [inside]) current
            (by rwa [show start + (k + 1) = start + 1 + k by omega])
          simpa [show start + (k + 1) + 1 = start + 1 + k + 1 by omega] using shifted
      refine ⟨final, ?_, ?_⟩
      · rw [List.foldlM_cons, firstStep]
        exact later
      · rwa [List.length_cons, show start + (rest.length + 1) = start + 1 + rest.length by omega]

end Option
