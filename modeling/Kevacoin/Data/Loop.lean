import Kevacoin.Data.Except

/-!
# Loops that run a failing step until they are done

A `while` loop whose body can fail is modelled with fuel: `loop done step
fuel state` runs `step` from `state` while `done` does not hold, at most
`fuel` times, and stops at the first error.  Fuel that runs out leaves the
state where it is.

The rules here are what a model built on `loop` needs: a finished state
is the result whatever the fuel (`loop_of_done`), and one iteration at a
time, forwards (`loop_step`, `loop_error`) and backwards from a run that
succeeded (`loop_succ_ok`).
-/

namespace Loop

variable {ε σ τ : Type}

/-- Run `step` from `state` until `done` holds, at most `fuel` times. -/
def loop (done : σ → Bool) (step : σ → Except ε σ) : Nat → σ → Except ε σ
  | 0, state => .ok state
  | fuel + 1, state => if done state then .ok state else step state >>= loop done step fuel

section Rules

variable {done : σ → Bool} {step : σ → Except ε σ}

/-- A finished state is the result, whatever the fuel. -/
theorem loop_of_done {state : σ} (finished : done state = true) :
    ∀ fuel, loop done step fuel state = .ok state
  | 0 => rfl
  | _ + 1 => by rw [loop, if_pos finished]

/-- One successful iteration. -/
theorem loop_step {state next : σ} (running : done state = false)
    (stepped : step state = .ok next) (fuel : Nat) :
    loop done step (fuel + 1) state = loop done step fuel next := by
  rw [loop, if_neg (by rw [running]; decide), stepped]
  rfl

/-- An iteration that fails ends the loop with its error. -/
theorem loop_error {state : σ} {failure : ε} (running : done state = false)
    (failed : step state = .error failure) (fuel : Nat) :
    loop done step (fuel + 1) state = .error failure := by
  rw [loop, if_neg (by rw [running]; decide), failed]
  rfl

/-- A successful run from a running state began with a successful iteration. -/
theorem loop_succ_ok {state final : σ} {fuel : Nat} (running : done state = false)
    (ran : loop done step (fuel + 1) state = .ok final) :
    ∃ next, step state = .ok next ∧ loop done step fuel next = .ok final := by
  rw [loop, if_neg (by rw [running]; decide)] at ran
  exact Except.bind_eq_ok.mp ran

end Rules

end Loop
