import Kevacoin.Chain.Retarget
import Kevacoin.Data.Mantissa

/-!
# The compact encoding rounds down

`arith_uint256::GetCompact` keeps the top bytes of a value in a 23-bit
mantissa and `SetCompact` shifts them back, so a compact word holds exactly
the values that are such a mantissa times a power of 256
(`CompactRepresentable`).  Decoding what `GetCompact` encodes gives the
greatest of those at or below the value (`SetCompact_GetCompact_greatest`):
the byte count `GetCompact` picks leaves a mantissa of at least 2^15, and
`Mantissa.isGreatest_truncate` does the rest.

The other way round, `GetCompact` restores the words it writes itself
(`GetCompact_SetCompact_of_normal`): zero, or a clear sign bit, a mantissa
whose top byte is set, and no bits in the mantissa bytes that a size below
three drops.  A clear sign bit and a top byte that is set do not suffice:
`0x01012345` decodes to `1`, which encodes as `0x01010000`
(`compact_low_mantissa_bytes_dropped`).
-/

namespace Kevacoin

/-- Values a compact word holds exactly: a 23-bit mantissa shifted by whole bytes. -/
def CompactRepresentable (value : Nat) : Prop :=
  Mantissa.Representable 256 (2 ^ 23) value

/--
The compact words `GetCompact` writes: zero, or a word with a clear sign
bit, a mantissa whose top byte is not zero, and no mantissa bits in the
bytes that a size below three drops.
-/
def CompactNormal (nCompact : UInt32) : Prop :=
  nCompact = 0 ∨
    (nCompact.toNat % 2 ^ 24 < 2 ^ 23 ∧ 2 ^ 16 ≤ nCompact.toNat % 2 ^ 24 ∧
      nCompact.toNat % 2 ^ 24 % 256 ^ (3 - nCompact.toNat / 2 ^ 24) = 0)

instance : DecidablePred CompactNormal := fun nCompact =>
  inferInstanceAs (Decidable (nCompact = 0 ∨ _))

/-! ## Decoding an encoded value -/

/-- The mantissa at `nSize` bytes, once anything is cut, is the value with its low bytes dropped. -/
theorem truncated_of_size {value nSize : Nat} (small : value < 2 ^ 256) :
    (if nSize ≤ 3 then value * 2 ^ 24 / 256 ^ nSize / 256 ^ (3 - nSize)
      else value * 2 ^ 24 / 256 ^ nSize * 256 ^ (nSize - 3) % 2 ^ 256) =
      value / 256 ^ (nSize - 3) * 256 ^ (nSize - 3) := by
  split
  · case isTrue within =>
      rw [scaled_of_le within, Nat.mul_div_cancel _ (Nat.pow_pos (by decide)),
        Nat.sub_eq_zero_of_le within, Nat.pow_zero, Nat.div_one, Nat.mul_one]
  · case isFalse above =>
      rw [scaled_of_gt (by omega),
        Nat.mod_eq_of_lt (Nat.lt_of_le_of_lt (Nat.div_mul_le_self _ _) small)]

/-- Decoding what `GetCompact` writes gives the greatest value at or below it that a word holds. -/
theorem SetCompact_GetCompact_greatest {value : Nat} (small : value < 2 ^ 256) :
    ∃ nBits target, GetCompact value false = some nBits ∧
      SetCompact nBits = (target, false, false) ∧
      IsGreatest {z | CompactRepresentable z ∧ z ≤ value} target := by
  obtain ⟨nSize, -, sizeFits, low, high, topSize, encoded⟩ := GetCompact_eq small
  refine ⟨_, _, encoded,
    by rw [SetCompact_ofNat low sizeFits topSize, truncated_of_size small], ?_⟩
  rcases Nat.eq_zero_or_pos value with zero | positive
  · rw [zero, Nat.zero_div, Nat.zero_mul]
    refine ⟨⟨⟨0, 0, by decide, rfl⟩, Nat.le_refl 0⟩, ?_⟩
    rintro z ⟨-, bounded⟩
    exact bounded
  · apply Mantissa.isGreatest_truncate (by decide)
    · by_cases within : nSize ≤ 3
      · rw [scaled_of_le within] at low
        have reaches : value ≤ value * 256 ^ (3 - nSize) :=
          Nat.le_mul_of_pos_right _ (Nat.pow_pos (by decide))
        rw [Nat.sub_eq_zero_of_le within, Nat.pow_zero, Nat.div_one]
        omega
      · rw [← scaled_of_gt (by omega)]
        exact low
    · by_cases within : nSize ≤ 3
      · exact .inl (Nat.sub_eq_zero_of_le within)
      · have kept := high positive
        rw [scaled_of_gt (by omega)] at kept
        exact .inr (by omega)

/-! ## Encoding a decoded word -/

/-- With the top byte of its mantissa set, a word of more than 32 bytes overflows. -/
theorem SetCompact_overflow_of_wide {mantissa nSize : Nat} (low : mantissa < 2 ^ 23)
    (topByte : 2 ^ 16 ≤ mantissa) (sizeSmall : nSize < 256) (wide : 32 < nSize) :
    (SetCompact (UInt32.ofNat (mantissa + nSize * 2 ^ 24))).2.2 = true := by
  obtain ⟨size, word, -⟩ := compactParts_ofNat low sizeSmall
  have wordNat : (UInt32.ofNat mantissa).toNat = mantissa :=
    UInt32.toNat_ofNat_of_lt' (by simp only [UInt32.size]; omega)
  have nonzero : (UInt32.ofNat mantissa != 0) = true := by
    rw [bne_iff_ne, ne_eq, ← UInt32.toNat_inj, wordNat, UInt32.toNat_zero]
    omega
  have above : UInt32.ofNat mantissa > 65535 := by
    rw [GT.gt, UInt32.lt_iff_toNat_lt, wordNat, show (65535 : UInt32).toNat = 65535 from rfl]
    omega
  unfold SetCompact
  simp only [size, word, if_neg (show ¬ nSize ≤ 3 by omega)]
  simp only [nonzero, decide_eq_true above, decide_eq_true wide, Bool.and_true, Bool.or_true]

/-- Below the byte count of a mantissa under 2^23, every mantissa is under 2^15. -/
theorem mantissa_lt_of_size_lt {value smaller larger : Nat} (below : smaller < larger)
    (low : value * 2 ^ 24 / 256 ^ smaller < 2 ^ 23) :
    value * 2 ^ 24 / 256 ^ larger < 2 ^ 15 := by
  calc value * 2 ^ 24 / 256 ^ larger ≤ value * 2 ^ 24 / 256 ^ (smaller + 1) :=
        Nat.div_le_div_left (Nat.pow_le_pow_right (by decide) below) (Nat.pow_pos (by decide))
    _ = value * 2 ^ 24 / 256 ^ smaller / 256 := by
        rw [Nat.div_div_eq_div_mul, ← Nat.pow_succ]
    _ < 2 ^ 15 := by omega

/-- One byte count at most gives a mantissa from 2^15 up to 2^23. -/
theorem compact_size_unique {value first second : Nat}
    (lowFirst : value * 2 ^ 24 / 256 ^ first < 2 ^ 23)
    (highFirst : 2 ^ 15 ≤ value * 2 ^ 24 / 256 ^ first)
    (lowSecond : value * 2 ^ 24 / 256 ^ second < 2 ^ 23)
    (highSecond : 2 ^ 15 ≤ value * 2 ^ 24 / 256 ^ second) : first = second := by
  rcases Nat.lt_trichotomy first second with below | same | above
  · have := mantissa_lt_of_size_lt below lowFirst
    omega
  · exact same
  · have := mantissa_lt_of_size_lt above lowSecond
    omega

/-- A normal word of at most 32 bytes decodes to a target whose mantissa at its size is its own. -/
theorem scaled_of_normal {word nSize target : Nat} (low : word < 2 ^ 23)
    (dropped : word % 256 ^ (3 - nSize) = 0) (sizeFits : nSize ≤ 32)
    (decoded : (if nSize ≤ 3 then word / 256 ^ (3 - nSize)
      else word * 256 ^ (nSize - 3) % 2 ^ 256) = target) :
    target * 2 ^ 24 / 256 ^ nSize = word ∧ target < 2 ^ 256 := by
  by_cases within : nSize ≤ 3
  · rw [if_pos within] at decoded
    have restored : target * 256 ^ (3 - nSize) = word := by
      rw [← decoded]
      exact Nat.div_mul_cancel (Nat.dvd_of_mod_eq_zero dropped)
    have reaches : target ≤ word := by
      rw [← decoded]
      exact Nat.div_le_self _ _
    rw [scaled_of_le within, restored]
    exact ⟨rfl, by omega⟩
  · rw [if_neg within] at decoded
    have fits : word * 256 ^ (nSize - 3) < 2 ^ 256 :=
      calc word * 256 ^ (nSize - 3) < 2 ^ 23 * 256 ^ 29 :=
            Nat.mul_lt_mul_of_lt_of_le low (Nat.pow_le_pow_right (by decide) (by omega))
              (Nat.pow_pos (by decide))
        _ < 2 ^ 256 := by decide
    rw [Nat.mod_eq_of_lt fits] at decoded
    rw [scaled_of_gt (by omega), ← decoded, Nat.mul_div_cancel _ (Nat.pow_pos (by decide))]
    exact ⟨rfl, decoded ▸ fits⟩

/-- `GetCompact` restores every normal word that decodes without a flag. -/
theorem GetCompact_SetCompact_of_normal {nCompact : UInt32} {target : Nat}
    (decoded : SetCompact nCompact = (target, false, false)) (normal : CompactNormal nCompact) :
    GetCompact target false = some nCompact := by
  rcases normal with zero | ⟨signClear, topByte, dropped⟩
  · subst zero
    have zeroTarget : target = 0 := by
      have decodesZero : SetCompact 0 = (0, false, false) := by decide
      rw [decodesZero] at decoded
      exact (Prod.mk.inj decoded).1.symm
    have noBits : bits 0 = 0 := bits_of_lt (Nat.two_pow_pos 0) (by decide)
    rw [zeroTarget]
    unfold GetCompact
    rw [noBits]
    decide
  · generalize wordDef : nCompact.toNat % 2 ^ 24 = word at signClear topByte dropped
    generalize sizeDef : nCompact.toNat / 2 ^ 24 = nSize at dropped
    have sizeSmall : nSize < 256 := by
      have := nCompact.toNat_lt
      omega
    have packed : nCompact = UInt32.ofNat (word + nSize * 2 ^ 24) := by
      apply UInt32.toNat_inj.mp
      have := nCompact.toNat_lt
      rw [UInt32.toNat_ofNat', ← wordDef, ← sizeDef, Nat.mod_eq_of_lt (by omega)]
      omega
    rw [packed] at decoded ⊢
    have sizeFits : nSize ≤ 32 := by
      apply Nat.le_of_not_lt
      intro wide
      have flagged := SetCompact_overflow_of_wide signClear topByte sizeSmall wide
      rw [decoded] at flagged
      cases flagged
    rw [SetCompact_ofNat signClear (by omega) (by omega)] at decoded
    obtain ⟨scaled, fits⟩ := scaled_of_normal signClear dropped sizeFits (Prod.mk.inj decoded).1
    have positive : 0 < target := by
      apply Nat.pos_of_ne_zero
      intro zero
      rw [zero, Nat.zero_mul, Nat.zero_div] at scaled
      omega
    obtain ⟨nSize', -, -, low', high', -, encoded⟩ := GetCompact_eq fits
    have same : nSize' = nSize :=
      compact_size_unique low' (high' positive) (by omega) (by omega)
    rw [encoded, same, scaled]

/--
The compact encoding is a floor: decoding the encoding of a 256-bit value
gives, without a flag, the greatest value at or below it that a 23-bit
mantissa shifted by whole bytes holds, which is the value itself when it is
one; and encoding a normal word that decodes without a flag gives the word.
-/
theorem compact_floor_encoding :
    (∀ value : Nat, value < 2 ^ 256 → ∃ nBits target, GetCompact value false = some nBits ∧
      SetCompact nBits = (target, false, false) ∧
      IsGreatest {z | CompactRepresentable z ∧ z ≤ value} target ∧
      (CompactRepresentable value → target = value)) ∧
    (∀ (nCompact : UInt32) (target : Nat), SetCompact nCompact = (target, false, false) →
      CompactNormal nCompact → GetCompact target false = some nCompact) := by
  refine ⟨?_, fun _ _ decoded normal => GetCompact_SetCompact_of_normal decoded normal⟩
  intro value small
  obtain ⟨nBits, target, encoded, decoded, greatest⟩ := SetCompact_GetCompact_greatest small
  refine ⟨nBits, target, encoded, decoded, greatest, fun representable => ?_⟩
  exact Nat.le_antisymm greatest.1.2 (greatest.2 ⟨representable, Nat.le_refl value⟩)

/-- The main chain's starting bits are normal and come back from their target. -/
theorem compact_floor_encoding_powLimitBits :
    SetCompact 0x1e0fffff = ((SetCompact 0x1e0fffff).1, false, false) ∧
      CompactNormal 0x1e0fffff ∧ GetCompact (SetCompact 0x1e0fffff).1 false = some 0x1e0fffff :=
  have decoded : SetCompact 0x1e0fffff = ((SetCompact 0x1e0fffff).1, false, false) := by decide
  have normal : CompactNormal 0x1e0fffff := by decide
  ⟨decoded, normal, compact_floor_encoding.2 _ _ decoded normal⟩

/--
A word with a clear sign bit and a set top byte whose size drops mantissa
bytes: it decodes to `1` without a flag, and `1` encodes otherwise.
-/
theorem compact_low_mantissa_bytes_dropped :
    SetCompact 0x01012345 = (1, false, false) ∧ (0x01012345 : UInt32) &&& 0x00800000 = 0 ∧
      ((0x01012345 : UInt32) >>> 16) &&& 0xff ≠ 0 ∧ GetCompact 1 false = some 0x01010000 := by
  have oneBit : bits 1 = 1 := bits_of_lt (show 1 < 2 ^ 1 by decide) (by decide)
  refine ⟨by decide, by decide, by decide, ?_⟩
  unfold GetCompact
  rw [oneBit]
  decide

end Kevacoin
