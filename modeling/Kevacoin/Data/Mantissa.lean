import Mathlib.Order.Bounds.Defs
import Mathlib.Algebra.Group.Nat.Defs
import Mathlib.Algebra.Order.Monoid.Unbundled.Pow

/-!
# Numbers with a bounded mantissa

A number is `Representable` in base `base` with mantissas below `bound`
when it is such a mantissa times a power of the base: the numbers a
floating-point format without a sign holds exactly.

Cutting the last `shift` digits of a number, `value / base ^ shift * base ^ shift`,
rounds it down to the greatest representable number at or below it
(`isGreatest_truncate`), as long as what remains is a mantissa below the
bound and, if anything was cut, at least `bound / base`: cutting more
digits loses more, and keeping more cannot reach it with a mantissa below
the bound.
-/

namespace Mantissa

/-- `value` is a mantissa below `bound` times a power of `base`. -/
def Representable (base bound value : Nat) : Prop :=
  ∃ mantissa exponent, mantissa < bound ∧ value = mantissa * base ^ exponent

variable {base bound value shift : Nat}

theorem representable_truncate (below : value / base ^ shift < bound) :
    Representable base bound (value / base ^ shift * base ^ shift) :=
  ⟨value / base ^ shift, shift, below, rfl⟩

/-- A representable number with at least `shift` trailing digits stays below the truncation. -/
theorem le_truncate_of_le {mantissa exponent : Nat} (basePos : 0 < base)
    (coarser : shift ≤ exponent) (bounded : mantissa * base ^ exponent ≤ value) :
    mantissa * base ^ exponent ≤ value / base ^ shift * base ^ shift := by
  have split : mantissa * base ^ exponent = mantissa * base ^ (exponent - shift) * base ^ shift := by
    rw [Nat.mul_assoc, ← Nat.pow_add, Nat.sub_add_cancel coarser]
  rw [split] at bounded ⊢
  apply Nat.mul_le_mul_right
  exact (Nat.le_div_iff_mul_le (Nat.pow_pos basePos)).mpr bounded

/-- A representable number with fewer trailing digits stays below a full truncation. -/
theorem le_truncate_of_lt {mantissa exponent : Nat} (basePos : 0 < base)
    (finer : exponent < shift) (small : mantissa < bound)
    (full : bound ≤ base * (value / base ^ shift)) :
    mantissa * base ^ exponent ≤ value / base ^ shift * base ^ shift := by
  have lower : base ^ exponent ≤ base ^ (shift - 1) :=
    Nat.pow_le_pow_right basePos (by omega)
  calc mantissa * base ^ exponent ≤ bound * base ^ (shift - 1) :=
        Nat.mul_le_mul (Nat.le_of_lt small) lower
    _ ≤ base * (value / base ^ shift) * base ^ (shift - 1) := Nat.mul_le_mul_right _ full
    _ = value / base ^ shift * (base * base ^ (shift - 1)) := by
        rw [Nat.mul_comm base, Nat.mul_assoc]
    _ = value / base ^ shift * base ^ shift := by
        rw [← Nat.pow_succ', Nat.succ_eq_add_one, Nat.sub_add_cancel (by omega)]

/-- Truncation is the greatest representable number at or below the value. -/
theorem isGreatest_truncate (basePos : 0 < base) (below : value / base ^ shift < bound)
    (full : shift = 0 ∨ bound ≤ base * (value / base ^ shift)) :
    IsGreatest {z | Representable base bound z ∧ z ≤ value}
      (value / base ^ shift * base ^ shift) := by
  refine ⟨⟨representable_truncate below, Nat.div_mul_le_self _ _⟩, ?_⟩
  rintro z ⟨⟨mantissa, exponent, small, rfl⟩, bounded⟩
  by_cases coarser : shift ≤ exponent
  · exact le_truncate_of_le basePos coarser bounded
  · rcases full with none | full
    · exact absurd (none ▸ Nat.zero_le exponent) coarser
    · exact le_truncate_of_lt basePos (by omega) small full

end Mantissa
