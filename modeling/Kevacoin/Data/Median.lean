import Mathlib.Order.Basic
import Mathlib.Data.List.Basic
import Mathlib.Data.List.GetD
import Mathlib.Order.Lattice

/-!
# The middle of a sorted window

The median of a window of values, as a program takes it: sort the window,
then read the element at half its length.  Two counting facts pin it
down: at most half the window lies strictly below it
(`countP_lt_middle_le`), and any value with at most half the window
strictly below it is at most the median (`le_middle`).

From them, the median does not fall when the window loses at most one
value and gains one above the old median (`middle_le_middle`): the rule
under which the median of the last few timestamps grows along a chain in
which every timestamp exceeds the median before it.
-/

namespace Median

variable {α : Type} [LinearOrder α]

/-- Sort, then take the element at half the length. -/
def middle (xs : List α) (default : α) : α :=
  (xs.mergeSort fun a b => decide (a ≤ b)).getD (xs.length / 2) default

theorem pairwise_mergeSort (xs : List α) :
    (xs.mergeSort fun a b => decide (a ≤ b)).Pairwise (· ≤ ·) := by
  have sorted := @List.pairwise_mergeSort α (fun a b => decide (a ≤ b))
    (fun a b c first second => by
      rw [decide_eq_true_eq] at first second ⊢
      exact le_trans first second)
    (fun a b => by
      rcases le_total a b with below | above
      · rw [decide_eq_true below, Bool.true_or]
      · rw [decide_eq_true above, Bool.or_true])
    xs
  simpa using sorted

/-! ## Counting below an element of a sorted list -/

section Sorted

variable {s : List α} (sorted : s.Pairwise (· ≤ ·))
include sorted

/-- Everything from index `k` on is at least the element at `k`. -/
theorem getElem_le_of_mem_drop {k : Nat} (inside : k < s.length) {x : α} (member : x ∈ s.drop k) :
    s[k] ≤ x := by
  obtain ⟨i, within, rfl⟩ := List.getElem_of_mem member
  rw [List.getElem_drop]
  rcases Nat.eq_zero_or_pos i with first | later
  · subst first
    exact le_of_eq (by simp)
  · exact List.pairwise_iff_getElem.mp sorted k (k + i) inside (by simp at within; omega) (by omega)

/-- Everything before index `k`, and the element at `k` itself, is at most the element at `k`. -/
theorem le_getElem_of_mem_take {k : Nat} (inside : k < s.length) {x : α}
    (member : x ∈ s.take (k + 1)) : x ≤ s[k] := by
  obtain ⟨i, within, rfl⟩ := List.getElem_of_mem member
  rw [List.getElem_take]
  have below : i ≤ k := by
    rw [List.length_take] at within
    omega
  rcases Nat.lt_or_ge i k with earlier | same
  · exact List.pairwise_iff_getElem.mp sorted i k (by omega) inside earlier
  · have : i = k := by omega
    subst this
    exact le_refl _

/-- At most `k` elements lie strictly below the element at index `k`. -/
theorem countP_lt_getElem_le {k : Nat} (inside : k < s.length) :
    s.countP (fun x => decide (x < s[k])) ≤ k := by
  have whole : s.countP (fun x => decide (x < s[k])) =
      (s.take k).countP (fun x => decide (x < s[k])) +
        (s.drop k).countP (fun x => decide (x < s[k])) := by
    rw [← List.countP_append, List.take_append_drop]
  have above : (s.drop k).countP (fun x => decide (x < s[k])) = 0 := by
    rw [List.countP_eq_zero]
    intro x member
    rw [decide_eq_true_eq, not_lt]
    exact getElem_le_of_mem_drop sorted inside member
  have front : (s.take k).countP (fun x => decide (x < s[k])) ≤ k :=
    Nat.le_trans List.countP_le_length (List.length_take_le k s)
  omega

/-- A value with at most `k` elements strictly below it is at most the element at index `k`. -/
theorem le_getElem_of_countP {k : Nat} (inside : k < s.length) {m : α}
    (few : s.countP (fun x => decide (x < m)) ≤ k) : m ≤ s[k] := by
  by_contra above
  rw [not_le] at above
  have all : (s.take (k + 1)).countP (fun x => decide (x < m)) = k + 1 := by
    rw [List.countP_eq_length.mpr, List.length_take]
    · omega
    · intro x member
      rw [decide_eq_true_eq]
      exact lt_of_le_of_lt (le_getElem_of_mem_take sorted inside member) above
  have sub := (List.take_sublist (k + 1) s).countP_le (p := fun x => decide (x < m))
  omega

end Sorted

/-! ## The median -/

theorem half_lt_length_mergeSort (xs : List α) (nonempty : xs ≠ []) :
    xs.length / 2 < (xs.mergeSort fun a b => decide (a ≤ b)).length := by
  rw [List.length_mergeSort]
  exact Nat.div_lt_self (List.length_pos_iff.mpr nonempty) (by decide)

theorem middle_eq_getElem (xs : List α) (default : α)
    (inside : xs.length / 2 < (xs.mergeSort fun a b => decide (a ≤ b)).length) :
    middle xs default = (xs.mergeSort fun a b => decide (a ≤ b))[xs.length / 2] :=
  List.getD_eq_getElem _ _ inside

/-- At most half the window lies strictly below its median. -/
theorem countP_lt_middle_le (xs : List α) (nonempty : xs ≠ []) (default : α) :
    xs.countP (fun x => decide (x < middle xs default)) ≤ xs.length / 2 := by
  have inside := half_lt_length_mergeSort xs nonempty
  rw [← (List.mergeSort_perm xs _).countP_eq, middle_eq_getElem xs default inside]
  exact countP_lt_getElem_le (pairwise_mergeSort xs) inside

/-- A value with at most half the window strictly below it is at most the median. -/
theorem le_middle (xs : List α) (nonempty : xs ≠ []) (default : α) {m : α}
    (few : xs.countP (fun x => decide (x < m)) ≤ xs.length / 2) : m ≤ middle xs default := by
  have inside := half_lt_length_mergeSort xs nonempty
  rw [← (List.mergeSort_perm xs _).countP_eq] at few
  rw [middle_eq_getElem xs default inside]
  exact le_getElem_of_countP (pairwise_mergeSort xs) inside few

/-- A window with no more values below the old median, and a middle index no lower, has a median no lower. -/
theorem middle_le_middle {old new : List α} (default : α) (oldNonempty : old ≠ [])
    (newNonempty : new ≠ [])
    (fewer : new.countP (fun x => decide (x < middle old default)) ≤
      old.countP (fun x => decide (x < middle old default)))
    (longer : old.length / 2 ≤ new.length / 2) : middle old default ≤ middle new default :=
  le_middle new newNonempty default
    (Nat.le_trans fewer (Nat.le_trans (countP_lt_middle_le old oldNonempty default) longer))

end Median
