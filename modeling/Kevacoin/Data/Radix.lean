import Mathlib.Data.Nat.Digits.Lemmas

/-!
# Positional digit lists

Numbers written as lists of digits in a base: little-endian lists are read
by `Nat.ofDigits`, big-endian lists by `Nat.ofDigits` of their reverse.  A
little-endian list of digits below the base is the canonical digit list
`Nat.digits` of its value followed by zeros
(`eq_digits_append_replicate`), so a big-endian list with its leading
zeros dropped is the reverse of `Nat.digits` (`dropWhile_reverse`), and a
big-endian list that does not start with zero is that already
(`digits_ofDigits_reverse`).

A buffer of `n * p / q + 1` digits in base `b` holds every number of `n`
digits in base `a` when `a ^ q ≤ b ^ p` and the first `q` widths fit
(`pow_le_pow_div_succ`): the rational `p / q` bounds the ratio of the
logarithms of the two bases.
-/

namespace Radix

variable {base : Nat}

/-- The leading digits of a list all satisfying `p` can be dropped before `dropWhile p`. -/
theorem dropWhile_drop {α : Type} {p : α → Bool} :
    ∀ {list : List α} {count : Nat}, (∀ a ∈ list.take count, p a = true) →
      (list.drop count).dropWhile p = list.dropWhile p
  | [], _, _ => by simp
  | _ :: _, 0, _ => rfl
  | head :: tail, count + 1, leading => by
      have first : p head = true := leading head (by simp)
      rw [List.drop_succ_cons, List.dropWhile_cons_of_pos first]
      exact dropWhile_drop fun a member => leading a (by simp [member])

/-- Digits below the base are the canonical digits of their value, then zeros. -/
theorem eq_digits_append_replicate (two : 2 ≤ base) :
    ∀ digits : List Nat, (∀ d ∈ digits, d < base) →
      ∃ zeros, digits = Nat.digits base (Nat.ofDigits base digits) ++ List.replicate zeros 0
  | [], _ => ⟨0, by simp⟩
  | digit :: rest, small => by
      obtain ⟨zeros, restEq⟩ := eq_digits_append_replicate two rest fun d member =>
        small d (List.mem_cons_of_mem digit member)
      have digitSmall : digit < base := small digit List.mem_cons_self
      rw [Nat.ofDigits_cons]
      by_cases zero : digit = 0 ∧ Nat.ofDigits base rest = 0
      · obtain ⟨digitZero, restZero⟩ := zero
        refine ⟨zeros + 1, ?_⟩
        rw [restZero, Nat.digits_zero, List.nil_append] at restEq
        rw [digitZero, restZero, Nat.mul_zero, Nat.add_zero, Nat.digits_zero, List.nil_append,
          restEq, List.replicate_succ]
      · refine ⟨zeros, ?_⟩
        rw [Nat.digits_add base (by omega) digit _ digitSmall (by omega), List.cons_append,
          ← restEq]

/-- A big-endian list of digits below the base, leading zeros dropped, is the reverse of `Nat.digits`. -/
theorem dropWhile_reverse (two : 2 ≤ base) {digits : List Nat}
    (small : ∀ d ∈ digits, d < base) :
    digits.reverse.dropWhile (fun d => d = 0) =
      (Nat.digits base (Nat.ofDigits base digits)).reverse := by
  obtain ⟨zeros, split⟩ := eq_digits_append_replicate two digits small
  conv_lhs => rw [split]
  rw [List.reverse_append, List.reverse_replicate,
    List.dropWhile_append_of_pos (by simp [List.mem_replicate])]
  cases canonical : (Nat.digits base (Nat.ofDigits base digits)).reverse with
  | nil => rfl
  | cons first rest =>
      have last : first ≠ 0 := by
        have present : Nat.digits base (Nat.ofDigits base digits) ≠ [] := by
          intro empty
          rw [empty] at canonical
          cases canonical
        have lastEq : (Nat.digits base (Nat.ofDigits base digits)).getLast present = first := by
          rw [← List.head_reverse (by simp [present])]
          simp [canonical]
        rw [← lastEq]
        exact Nat.getLast_digit_ne_zero base (Nat.digits_ne_nil_iff_ne_zero.mp present)
      rw [List.dropWhile_cons_of_neg (by simp [last])]

/-- A big-endian list of digits below the base that does not start with zero is `Nat.digits` reversed. -/
theorem digits_ofDigits_reverse (two : 2 ≤ base) {digits : List Nat}
    (small : ∀ d ∈ digits, d < base) (leading : digits.head? ≠ some 0) :
    (Nat.digits base (Nat.ofDigits base digits.reverse)).reverse = digits := by
  rw [Nat.digits_ofDigits base (by omega) digits.reverse (by simpa using small)]
  · exact List.reverse_reverse digits
  · intro nonempty
    rw [List.getLast_reverse]
    intro zero
    apply leading
    rw [List.head?_eq_some_head (by simpa using nonempty), zero]

/-- The canonical digits read big-endian never start with zero. -/
theorem head?_reverse_digits_ne_zero (n : Nat) :
    (Nat.digits base n).reverse.head? ≠ some 0 := by
  rw [List.head?_reverse]
  intro last
  have present : Nat.digits base n ≠ [] := by
    intro empty
    rw [empty] at last
    cases last
  rw [List.getLast?_eq_some_getLast present, Option.some_inj] at last
  exact Nat.getLast_digit_ne_zero base (Nat.digits_ne_nil_iff_ne_zero.mp present) last

/--
`n` digits in base `a` fit in `n * p / q + 1` digits in base `b`, when `q`
digits of `a` fit in `p` of `b` and every width below `q` fits.
-/
theorem pow_le_pow_div_succ {a b p q : Nat} (positive : 0 < q) (period : a ^ q ≤ b ^ p)
    (first : ∀ r < q, a ^ r ≤ b ^ (r * p / q + 1)) (n : Nat) :
    a ^ n ≤ b ^ (n * p / q + 1) := by
  have split : n = q * (n / q) + n % q := (Nat.div_add_mod n q).symm
  have width : n * p / q = n / q * p + n % q * p / q := by
    conv_lhs => rw [split]
    rw [Nat.add_mul, Nat.mul_assoc, Nat.add_comm, Nat.add_mul_div_left _ _ positive,
      Nat.add_comm]
  calc a ^ n = (a ^ q) ^ (n / q) * a ^ (n % q) := by
        conv_lhs => rw [split]
        rw [Nat.pow_add, Nat.pow_mul]
    _ ≤ (b ^ p) ^ (n / q) * b ^ (n % q * p / q + 1) :=
        Nat.mul_le_mul (Nat.pow_le_pow_left period _) (first _ (Nat.mod_lt n positive))
    _ = b ^ (n * p / q + 1) := by
        rw [← Nat.pow_mul, ← Nat.pow_add, width, Nat.mul_comm p, Nat.add_assoc]

end Radix
