import Kevacoin.Chain.Retarget
import Kevacoin.Data.LongDivision

/-!
# Chain work

`GetBlockProof` (`chain.cpp`) turns the target of a block into the expected
number of hashes it took, `2^256 / (target + 1)`.  An `arith_uint256` cannot
hold `2^256`, so the code computes `~target / (target + 1) + 1`, with the
division of `base_uint::operator/=` (`arith_uint256.cpp`): restoring
division, one quotient bit per round from the top bit the quotient can
have down to bit zero.  `AddToBlockIndex` and `LoadBlockIndexDB` set
`nChainWork` to the parent's plus the block's own proof.

The division is exact wherever the divisor is not zero (`divide_eq`); a
decoded target is never `2^256 - 1`, so `target + 1` never wraps to zero
and `GetBlockProof` is `2^256 / (target + 1)` for every valid target
(`GetBlockProof_eq`).  The sum of `nChainWork` is an `arith_uint256` sum
and wraps at `2^256`: the work of a child exceeds its parent's exactly
while the sum stays below `2^256`.
-/

namespace Kevacoin

/-- `base_uint<256>::operator/=`; `none` where it throws "Division by zero". -/
def divide (num div : Nat) : Option Nat :=
  let num_bits := bits num
  let div_bits := bits div
  if div_bits = 0 then none
  -- the result is certainly 0
  else if div_bits > num_bits then some 0
  else
    let shift := num_bits - div_bits
    -- `div <<= shift` aligns the divisor with the dividend's top bit
    some (LongDivision.shiftSubtract shift num (div <<< shift % 2 ^ 256) 0).1

/-- `GetBlockProof`, of a block whose header has `nBits`. -/
def GetBlockProof (nBits : UInt32) : Option Nat :=
  let (bnTarget, fNegative, fOverflow) := SetCompact nBits
  if fNegative || fOverflow || bnTarget == 0 then some 0
  else
    -- `~bnTarget` flips the 256 bits; `+` wraps at 2^256
    (fun quotient => (quotient + 1) % 2 ^ 256) <$>
      divide (2 ^ 256 - 1 - bnTarget) ((bnTarget + 1) % 2 ^ 256)

/--
`nChainWork` as `AddToBlockIndex` sets it: the parent's, or `0` without a
parent, plus the block's proof, an `arith_uint256` sum.  `header` gives the
header each entry was built from.
-/
def nChainWork (header : CBlockIndex → CBlockHeader) : CBlockIndex → Option Nat
  | .null => some 0
  | entry@(.entry _ _ _ pprev _) => do
      let parentWork ← nChainWork header pprev
      let proof ← GetBlockProof (header entry).nBits
      pure ((parentWork + proof) % 2 ^ 256)

/-! ## The division -/

theorem bits_pos {value : Nat} (small : value < 2 ^ 256) (positive : 0 < value) :
    0 < bits value := by
  have below := (bits_spec small).1
  apply Nat.pos_of_ne_zero
  intro zero
  rw [zero] at below
  omega

/-- `operator/=` divides exactly, whenever the divisor is not zero. -/
theorem divide_eq {num div : Nat} (numSmall : num < 2 ^ 256) (divPos : 0 < div)
    (divSmall : div < 2 ^ 256) : divide num div = some (num / div) := by
  obtain ⟨numBelow, -, numAtMost⟩ := bits_spec numSmall
  obtain ⟨-, divReaches, -⟩ := bits_spec divSmall
  have divHalf := divReaches divPos
  have divBits := bits_pos divSmall divPos
  unfold divide
  dsimp only
  rw [if_neg (Nat.pos_iff_ne_zero.mp divBits)]
  split
  · case isTrue wider =>
      have smaller : num < div := by
        have lower : 2 ^ bits num ≤ 2 ^ (bits div - 1) :=
          Nat.pow_le_pow_right (by decide) (by omega)
        have halve : 2 ^ bits div = 2 * 2 ^ (bits div - 1) := by
          rw [← Nat.pow_succ']
          congr 1
          omega
        omega
      rw [Nat.div_eq_of_lt smaller]
  · case isFalse narrower =>
      have total : 2 ^ bits num = 2 ^ bits div * 2 ^ (bits num - bits div) := by
        rw [← Nat.pow_add, Nat.add_sub_cancel' (by omega)]
      have shifted : div <<< (bits num - bits div) % 2 ^ 256 = div * 2 ^ (bits num - bits div) := by
        have fits : div * 2 ^ (bits num - bits div) < 2 ^ 256 :=
          calc div * 2 ^ (bits num - bits div) < 2 ^ bits div * 2 ^ (bits num - bits div) :=
                Nat.mul_lt_mul_of_pos_right (bits_spec divSmall).1 (Nat.two_pow_pos _)
            _ = 2 ^ bits num := total.symm
            _ ≤ 2 ^ 256 := Nat.pow_le_pow_right (by decide) numAtMost
        rw [Nat.shiftLeft_eq, Nat.mod_eq_of_lt fits]
      have bound : num < div * 2 ^ (bits num - bits div + 1) :=
        calc num < 2 ^ bits num := numBelow
          _ = 2 ^ bits div * 2 ^ (bits num - bits div) := total
          _ ≤ 2 * div * 2 ^ (bits num - bits div) := Nat.mul_le_mul_right _ divHalf
          _ = div * 2 ^ (bits num - bits div + 1) := by
              rw [Nat.pow_succ, Nat.mul_comm 2 div, Nat.mul_assoc, Nat.mul_comm 2]
      rw [shifted, LongDivision.shiftSubtract_eq divPos
        ⟨rfl, Nat.dvd_zero _, by rw [Nat.zero_mul, Nat.zero_add], bound⟩]

/-! ## The proof of a block -/

/--
A decoded target is never `2^256 - 1`: shifted by at least a byte it is a
multiple of 256, and unshifted it fits a `uint32_t`.
-/
theorem SetCompact_target_succ_lt (nCompact : UInt32) : (SetCompact nCompact).1 + 1 < 2 ^ 256 := by
  unfold SetCompact
  dsimp only
  split
  · case isTrue within =>
      have word := UInt32.toNat_lt
        ((nCompact &&& 0x007fffff) >>> (8 * (3 - (nCompact >>> 24).toNat)).toUInt32)
      omega
  · case isFalse above =>
      generalize (nCompact &&& 0x007fffff).toNat = word
      have aligned : 256 ∣ (word <<< (8 * ((nCompact >>> 24).toNat - 3))) % 2 ^ 256 := by
        rw [Nat.dvd_mod_iff (by decide), Nat.shiftLeft_eq]
        apply Nat.dvd_mul_left_of_dvd
        rw [show 8 * ((nCompact >>> 24).toNat - 3) = 8 + 8 * ((nCompact >>> 24).toNat - 4) by omega,
          Nat.pow_add]
        exact Nat.dvd_mul_right _ _
      have below := Nat.mod_lt (word <<< (8 * ((nCompact >>> 24).toNat - 3))) (Nat.two_pow_pos 256)
      omega

/-- Two to the 256 over `target + 1`, less one, is the complement of `target` over `target + 1`. -/
theorem complement_div_succ {target : Nat} (small : target + 1 < 2 ^ 256) :
    (2 ^ 256 - 1 - target) / (target + 1) + 1 = 2 ^ 256 / (target + 1) := by
  rw [← Nat.add_div_right _ (Nat.succ_pos target)]
  congr 1
  omega

/--
`GetBlockProof` is `2^256 / (target + 1)` for a target that decodes without
a flag and is not zero, and `0` otherwise; it never divides by zero.
-/
theorem GetBlockProof_eq (nBits : UInt32) :
    GetBlockProof nBits =
      some (if (SetCompact nBits).2.1 = false ∧ (SetCompact nBits).2.2 = false ∧
          0 < (SetCompact nBits).1
        then 2 ^ 256 / ((SetCompact nBits).1 + 1) else 0) := by
  have small := SetCompact_target_succ_lt nBits
  unfold GetBlockProof
  generalize SetCompact nBits = decoded at small ⊢
  obtain ⟨target, fNegative, fOverflow⟩ := decoded
  dsimp only at small ⊢
  by_cases valid : fNegative = false ∧ fOverflow = false ∧ 0 < target
  · obtain ⟨rfl, rfl, positive⟩ := valid
    have nonzero : (target == 0) = false := by
      rw [beq_eq_false_iff_ne]
      omega
    have quotient : 2 ^ 256 / (target + 1) < 2 ^ 256 :=
      Nat.div_lt_self (Nat.two_pow_pos 256) (by omega)
    rw [if_pos (show false = false ∧ false = false ∧ 0 < target from ⟨rfl, rfl, positive⟩),
      Bool.false_or, Bool.false_or, nonzero,
      if_neg Bool.false_ne_true, Nat.mod_eq_of_lt small,
      divide_eq (by omega) (Nat.succ_pos target) small]
    show some (((2 ^ 256 - 1 - target) / (target + 1) + 1) % 2 ^ 256) = _
    rw [complement_div_succ small, Nat.mod_eq_of_lt quotient]
  · rw [if_neg valid]
    have rejected : (fNegative || fOverflow || target == 0) = true := by
      cases fNegative <;> cases fOverflow <;> simp_all
    rw [if_pos rejected]

/-- The work of an entry is its parent's plus its proof, wrapping at `2^256`. -/
theorem nChainWork_entry (header : CBlockIndex → CBlockHeader) {index : CBlockIndex}
    (entry : index.isNull = false) {parentWork : Nat}
    (parent : nChainWork header index.pprev = some parentWork) :
    nChainWork header index =
      some ((parentWork +
        if (SetCompact (header index).nBits).2.1 = false ∧
            (SetCompact (header index).nBits).2.2 = false ∧ 0 < (SetCompact (header index).nBits).1
          then 2 ^ 256 / ((SetCompact (header index).nBits).1 + 1) else 0) % 2 ^ 256) := by
  cases index with
  | null =>
      cases entry
  | entry hashBlock nHeight nStatus pprev pskip =>
      unfold nChainWork
      rw [show (CBlockIndex.entry hashBlock nHeight nStatus pprev pskip).pprev = pprev from rfl]
        at parent
      rw [parent, GetBlockProof_eq]
      rfl

/--
`GetBlockProof` is the floor of `2^256 / (T + 1)` for a valid target `T`,
computed without overflow, and `0` for any other `nBits`.  The work of an
entry whose header passes `CheckProofOfWork` exceeds its parent's whenever
their sum stays below `2^256`.
-/
theorem GetBlockProof_floor_and_work_below_wrap :
    (∀ nBits : UInt32, GetBlockProof nBits =
      some (if (SetCompact nBits).2.1 = false ∧ (SetCompact nBits).2.2 = false ∧
          0 < (SetCompact nBits).1
        then 2 ^ 256 / ((SetCompact nBits).1 + 1) else 0)) ∧
    (∀ (header : CBlockIndex → CBlockHeader) (params : ConsensusParams) (hash : uint256)
      (index : CBlockIndex) (parentWork : Nat), index.isNull = false →
      CheckProofOfWork hash (header index).nBits params = true →
      nChainWork header index.pprev = some parentWork →
      parentWork + 2 ^ 256 / ((SetCompact (header index).nBits).1 + 1) < 2 ^ 256 →
      ∃ work, nChainWork header index = some work ∧ parentWork < work) := by
  refine ⟨GetBlockProof_eq, ?_⟩
  intro header params hash index parentWork entry valid parent noWrap
  obtain ⟨positive, nonneg, noOverflow, -, -⟩ := CheckProofOfWork_eq_true.mp valid
  have proofPos : 0 < 2 ^ 256 / ((SetCompact (header index).nBits).1 + 1) :=
    Nat.div_pos (Nat.le_of_lt (SetCompact_target_succ_lt _)) (Nat.succ_pos _)
  refine ⟨_, nChainWork_entry header entry parent, ?_⟩
  rw [if_pos ⟨positive, noOverflow, Nat.pos_of_ne_zero nonneg⟩, Nat.mod_eq_of_lt noWrap]
  omega

/-- A genesis entry at the main chain's starting target has positive work. -/
theorem GetBlockProof_floor_and_work_below_wrap_genesis :
    let header : CBlockIndex → CBlockHeader :=
      fun _ => ⟨1, 0, 0, 1500000000, 0x1e0fffff, 0, ⟨10, 10, 0, 0, 0, 0, 1⟩⟩
    let genesis : CBlockIndex := .entry 0 0 0 .null .null
    CheckProofOfWork 0 (header genesis).nBits mainParams = true ∧
      ∃ work, nChainWork header genesis = some work ∧ 0 < work :=
  ⟨by decide, GetBlockProof_floor_and_work_below_wrap.2 _ mainParams 0 _ 0 rfl (by decide) rfl
    (by decide)⟩

/--
Two headers of target 1 with hash 0 pass `CheckProofOfWork`; the first
entry's work is `2^255` and the second's wraps to `0`.
-/
theorem nChainWork_wraps_at_target_one :
    let header : CBlockIndex → CBlockHeader :=
      fun _ => ⟨1, 0, 0, 1500000000, 0x01010000, 0, ⟨10, 10, 0, 0, 0, 0, 1⟩⟩
    let genesis : CBlockIndex := .entry 0 0 0 .null .null
    let child := genesis.extend 1 0
    CheckProofOfWork 0 (header genesis).nBits mainParams = true ∧
      CheckProofOfWork 0 (header child).nBits mainParams = true ∧
      nChainWork header genesis = some (2 ^ 255) ∧ nChainWork header child = some 0 := by
  intro header genesis child
  have decoded : SetCompact 0x01010000 = (1, false, false) := by decide
  have genesisWork : nChainWork header genesis = some (2 ^ 255) := by
    rw [nChainWork_entry header rfl (rfl : nChainWork header genesis.pprev = some 0)]
    show some ((0 + if (SetCompact 0x01010000).2.1 = false ∧ (SetCompact 0x01010000).2.2 = false ∧
      0 < (SetCompact 0x01010000).1 then 2 ^ 256 / ((SetCompact 0x01010000).1 + 1) else 0) %
        2 ^ 256) = _
    rw [decoded]
    decide
  have childWork : nChainWork header child = some 0 := by
    rw [@nChainWork_entry header child rfl _ genesisWork]
    show some ((2 ^ 255 + if (SetCompact 0x01010000).2.1 = false ∧
      (SetCompact 0x01010000).2.2 = false ∧ 0 < (SetCompact 0x01010000).1
        then 2 ^ 256 / ((SetCompact 0x01010000).1 + 1) else 0) % 2 ^ 256) = _
    rw [decoded]
    decide
  exact ⟨by decide, by decide, genesisWork, childWork⟩

end Kevacoin
