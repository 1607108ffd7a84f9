import Mathlib.Data.Nat.Bitwise

/-!
# Restoring division

Binary long division over the bit positions of the quotient, from the top
down: at each position the divisor, shifted there, is subtracted from what
remains of the dividend where it fits, and the quotient bit at the position
is set; then the shifted divisor is halved for the next position.

The loop is correct from any state that is `Lawful`: the shifted divisor is
the divisor at the current position, the quotient has no bit at or below
it, quotient times divisor plus what remains is the dividend, and what
remains is below the divisor one position up.  One round keeps the
invariant one position down (`Lawful.step`), and the last round leaves the
remainder below the divisor, so the loop ends with the quotient and the
remainder of Euclidean division (`shiftSubtract_eq`).
-/

namespace LongDivision

/-- Positions `shift` down to `0`: subtract `div` where it fits, set the quotient bit, halve `div`. -/
def shiftSubtract (shift num div quotient : Nat) : Nat × Nat :=
  let fits := div ≤ num
  let num := if fits then num - div else num
  let quotient := if fits then quotient ||| 1 <<< shift else quotient
  match shift with
  | 0 => (quotient, num)
  | shift + 1 => shiftSubtract shift num (div >>> 1) quotient

/-- The invariant of the loop at position `shift`, dividing `dividend` by `divisor`. -/
structure Lawful (dividend divisor shift num div quotient : Nat) : Prop where
  div_eq : div = divisor * 2 ^ shift
  aligned : 2 ^ (shift + 1) ∣ quotient
  equation : quotient * divisor + num = dividend
  bound : num < divisor * 2 ^ (shift + 1)

/-- Setting a bit that an aligned quotient does not have adds its weight. -/
theorem or_shiftLeft_eq_add {quotient shift : Nat} (aligned : 2 ^ (shift + 1) ∣ quotient) :
    quotient ||| 1 <<< shift = quotient + 2 ^ shift := by
  obtain ⟨high, rfl⟩ := aligned
  rw [Nat.one_shiftLeft, ← Nat.two_pow_add_eq_or_of_lt (Nat.pow_lt_pow_right (by decide)
    (Nat.lt_succ_self shift))]

variable {dividend divisor shift num div quotient : Nat}

/-- What one round leaves: the quotient and the remainder, at the current position. -/
theorem Lawful.round (lawful : Lawful dividend divisor shift num div quotient) :
    let fits := div ≤ num
    (if fits then quotient ||| 1 <<< shift else quotient) * divisor +
        (if fits then num - div else num) = dividend ∧
      (if fits then num - div else num) < divisor * 2 ^ shift ∧
      2 ^ shift ∣ (if fits then quotient ||| 1 <<< shift else quotient) := by
  obtain ⟨divEq, aligned, equation, bound⟩ := lawful
  have lower : 2 ^ shift ∣ quotient :=
    Nat.dvd_trans (Nat.pow_dvd_pow 2 (Nat.le_succ shift)) aligned
  have double : divisor * 2 ^ (shift + 1) = div + div := by
    rw [Nat.pow_succ, ← Nat.mul_assoc, ← divEq]
    omega
  dsimp only
  by_cases fits : div ≤ num
  · simp only [fits, if_true]
    rw [or_shiftLeft_eq_add aligned, Nat.add_mul, Nat.mul_comm (2 ^ shift), ← divEq]
    exact ⟨by omega, by omega, Nat.dvd_add lower (Nat.dvd_refl _)⟩
  · simp only [fits, if_false]
    exact ⟨equation, by omega, lower⟩

/-- One round keeps the invariant one position down. -/
theorem Lawful.step (lawful : Lawful dividend divisor (shift + 1) num div quotient) :
    let fits := div ≤ num
    Lawful dividend divisor shift (if fits then num - div else num) (div >>> 1)
      (if fits then quotient ||| 1 <<< (shift + 1) else quotient) := by
  have halved : div >>> 1 = divisor * 2 ^ shift := by
    rw [Nat.shiftRight_one, lawful.div_eq, Nat.pow_succ, ← Nat.mul_assoc, Nat.mul_div_cancel _
      (by decide)]
  obtain ⟨equation, bound, aligned⟩ := lawful.round
  exact ⟨halved, aligned, equation, bound⟩

/-- From a lawful state the loop ends with the quotient and the remainder. -/
theorem shiftSubtract_eq (positive : 0 < divisor) :
    ∀ {shift num div quotient : Nat}, Lawful dividend divisor shift num div quotient →
      shiftSubtract shift num div quotient = (dividend / divisor, dividend % divisor)
  | 0, num, div, quotient, lawful => by
      obtain ⟨equation, bound, _⟩ := lawful.round
      unfold shiftSubtract
      dsimp only
      rw [Nat.pow_zero, Nat.mul_one] at bound
      generalize (if div ≤ num then quotient ||| 1 <<< 0 else quotient) = last at equation ⊢
      generalize (if div ≤ num then num - div else num) = remainder at equation bound ⊢
      obtain ⟨quotientEq, remainderEq⟩ :=
        (Nat.div_mod_unique (a := dividend) (c := remainder) (d := last) positive).mpr
          ⟨by rw [Nat.mul_comm]; omega, bound⟩
      rw [quotientEq, remainderEq]
  | shift + 1, num, div, quotient, lawful => by
      unfold shiftSubtract
      exact shiftSubtract_eq positive lawful.step

end LongDivision
