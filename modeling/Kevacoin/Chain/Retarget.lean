import Kevacoin.Chain.PoW

/-!
# Difficulty retargeting

`GetNextWorkRequired` and `CalculateDigishieldNextWorkRequired` in
`pow.cpp`, with `base_uint::bits` and `arith_uint256::GetCompact` from
`arith_uint256.cpp`.

Every block retargets: `DifficultyAdjustmentInterval` is 120 / 120 = 1, so
the walk back is one block, and none from the genesis block.  The time the
last block took is damped to an eighth of its distance from 120 seconds and
clamped to [90, 180] seconds; the last target is scaled by that over 120,
capped at `powLimit` and encoded as compact bits again.

`CBlockIndex` keeps the `nTime` and `nBits` of the header it was built
from; the model reads them through `header`, the header of each entry.

`GetCompact` keeps the top three bytes of a value of at most 256 bits, one
fewer when the top one would set the sign bit, so decoding the bits gives
the value with its low bytes cleared (`SetCompact_GetCompact`): never more,
and less by under 2^-15 of the result.  Retargeting therefore stays between
the damped bounds and `powLimit` (`GetNextWorkRequired_in_range`); the
scaled target is positive exactly when the old target times the timespan
reaches 120, which a target of 1 and a block under 120 seconds miss.
-/

namespace Kevacoin

/-! ## Compact encoding -/

/-- The loop of `base_uint::bits` over the bits below `pos`, from the top down. -/
def bitsBelow : Nat → Nat → Nat
  | 0, _ => 0
  | pos + 1, value => if value.testBit pos then pos + 1 else bitsBelow pos value

/-- `base_uint<256>::bits`: one more than the highest set bit, `0` for `0`. -/
def bits (value : Nat) : Nat := bitsBelow 256 value

/--
The first `nCompact` of `GetCompact`: the top three bytes of a value of
`nSize` bytes, as the low 64 bits shifted in a `uint64_t` (or the value
shifted in 256 bits) narrowed to `uint32_t`.
-/
def compactMantissa (value nSize : Nat) : UInt32 :=
  if nSize ≤ 3 then (UInt64.ofNat value <<< (8 * (3 - nSize)).toUInt64).toUInt32
  else (UInt64.ofNat (value >>> (8 * (nSize - 3)))).toUInt32

/--
The end of `GetCompact`: its two asserts, then the size and the sign packed
above the mantissa.
-/
def packCompact (nCompact : UInt32) (nSize : Nat) (fNegative : Bool) : Option UInt32 :=
  if nCompact &&& ~~~0x007fffff != 0 || 256 ≤ nSize then none
  else
    let nCompact := nCompact ||| nSize.toUInt32 <<< 24
    some (nCompact ||| if fNegative && nCompact &&& 0x007fffff != 0 then 0x00800000 else 0)

/-- `arith_uint256::GetCompact`; `none` where one of its asserts fails. -/
def GetCompact (value : Nat) (fNegative : Bool) : Option UInt32 :=
  let nSize := (bits value + 7) / 8
  let nCompact := compactMantissa value nSize
  -- `0x00800000` is the sign bit: a mantissa that reaches it loses its low byte
  if nCompact &&& 0x00800000 != 0 then packCompact (nCompact >>> 8) (nSize + 1) fNegative
  else packCompact nCompact nSize fNegative

/-! ### The bit length -/

theorem bitsBelow_le : ∀ pos value : Nat, bitsBelow pos value ≤ pos
  | 0, _ => Nat.le_refl 0
  | pos + 1, value => by
      unfold bitsBelow
      split
      · exact Nat.le_refl _
      · exact Nat.le_succ_of_le (bitsBelow_le pos value)

/-- A value below `2^(pos + 1)` with bit `pos` clear is below `2^pos`. -/
theorem lt_two_pow_of_testBit_eq_false {value pos : Nat} (small : value < 2 ^ (pos + 1))
    (clear : value.testBit pos = false) : value < 2 ^ pos := by
  apply Nat.lt_pow_two_of_testBit
  intro bit above
  rcases Nat.eq_or_lt_of_le above with same | higher
  · rw [← same]
    exact clear
  · exact Nat.testBit_lt_two_pow
      (Nat.lt_of_lt_of_le small (Nat.pow_le_pow_right (by decide) higher))

/-- Below `2^pos`, a value is below `2^bitsBelow`, and a positive one reaches half of it. -/
theorem bitsBelow_spec : ∀ pos value : Nat, value < 2 ^ pos →
    value < 2 ^ bitsBelow pos value ∧ (0 < value → 2 ^ bitsBelow pos value ≤ 2 * value)
  | 0, value, small => by
      refine ⟨small, fun positive => ?_⟩
      simp at small
      omega
  | pos + 1, value, small => by
      unfold bitsBelow
      split
      · case isTrue top =>
          have reaches := Nat.ge_two_pow_of_testBit top
          refine ⟨small, fun _ => ?_⟩
          rw [Nat.pow_succ]
          omega
      · case isFalse top =>
          exact bitsBelow_spec pos value
            (lt_two_pow_of_testBit_eq_false small (by simpa using top))

/-- The loop finds no set bit at or above the width of the value. -/
theorem bitsBelow_add_of_lt {pos value : Nat} (small : value < 2 ^ pos) :
    ∀ extra, bitsBelow (pos + extra) value = bitsBelow pos value
  | 0 => rfl
  | extra + 1 => by
      have clear : value.testBit (pos + extra) = false :=
        Nat.testBit_lt_two_pow (Nat.lt_of_lt_of_le small
          (Nat.pow_le_pow_right (by decide) (Nat.le_add_right pos extra)))
      rw [← Nat.add_assoc, bitsBelow, clear, if_neg Bool.false_ne_true]
      exact bitsBelow_add_of_lt small extra

/-- `bits` of a value below `2^pos` is the loop from bit `pos` down. -/
theorem bits_of_lt {value pos : Nat} (small : value < 2 ^ pos) (within : pos ≤ 256) :
    bits value = bitsBelow pos value := by
  rw [bits, show 256 = pos + (256 - pos) by omega]
  exact bitsBelow_add_of_lt small _

theorem bits_spec {value : Nat} (small : value < 2 ^ 256) :
    value < 2 ^ bits value ∧ (0 < value → 2 ^ bits value ≤ 2 * value) ∧ bits value ≤ 256 :=
  ⟨(bitsBelow_spec 256 value small).1, (bitsBelow_spec 256 value small).2,
    bitsBelow_le 256 value⟩

/-- The byte count `GetCompact` starts from: enough for the value, with a nonzero top byte. -/
theorem byteCount_spec {value : Nat} (small : value < 2 ^ 256) :
    value < 256 ^ ((bits value + 7) / 8) ∧
      (0 < value → 256 ^ ((bits value + 7) / 8) ≤ 256 * value) ∧
      (bits value + 7) / 8 ≤ 32 := by
  obtain ⟨below, reaches, atMost⟩ := bits_spec small
  have asPower : 256 ^ ((bits value + 7) / 8) = 2 ^ (8 * ((bits value + 7) / 8)) := by
    rw [Nat.pow_mul]
  refine ⟨?_, fun positive => ?_, by omega⟩
  · calc value < 2 ^ bits value := below
      _ ≤ 2 ^ (8 * ((bits value + 7) / 8)) := Nat.pow_le_pow_right (by decide) (by omega)
      _ = 256 ^ ((bits value + 7) / 8) := asPower.symm
  · have half := reaches positive
    calc 256 ^ ((bits value + 7) / 8) = 2 ^ (8 * ((bits value + 7) / 8)) := asPower
      _ ≤ 2 ^ (bits value + 7) := Nat.pow_le_pow_right (by decide) (by omega)
      _ = 2 ^ bits value * 128 := by rw [Nat.pow_add]
      _ ≤ 256 * value := by omega

/-! ### The mantissa -/

/-- A value of at most three bytes scales to three bytes exactly. -/
theorem scaled_of_le {value nSize : Nat} (within : nSize ≤ 3) :
    value * 2 ^ 24 / 256 ^ nSize = value * 256 ^ (3 - nSize) := by
  have scale : 256 ^ (3 - nSize) * 256 ^ nSize = 2 ^ 24 := by
    rw [← Nat.pow_add, Nat.sub_add_cancel within]
    rfl
  rw [← scale, ← Nat.mul_assoc, Nat.mul_div_cancel _ (Nat.pow_pos (by decide))]

/-- A longer value scales to three bytes by losing its low bytes. -/
theorem scaled_of_gt {value nSize : Nat} (above : 3 < nSize) :
    value * 2 ^ 24 / 256 ^ nSize = value / 256 ^ (nSize - 3) := by
  have scale : 256 ^ (nSize - 3) * 2 ^ 24 = 256 ^ nSize := by
    rw [show (2 : Nat) ^ 24 = 256 ^ 3 from rfl, ← Nat.pow_add, Nat.sub_add_cancel (by omega)]
  rw [← scale, Nat.mul_div_mul_right _ _ (Nat.two_pow_pos 24)]

/-- The first mantissa of `GetCompact` is the value scaled to three bytes. -/
theorem compactMantissa_toNat {value nSize : Nat} (fits : value < 256 ^ nSize) :
    (compactMantissa value nSize).toNat = value * 2 ^ 24 / 256 ^ nSize := by
  have below : value * 2 ^ 24 / 256 ^ nSize < 2 ^ 24 := by
    rw [Nat.div_lt_iff_lt_mul (Nat.pow_pos (by decide)), Nat.mul_comm (2 ^ 24)]
    exact Nat.mul_lt_mul_of_pos_right fits (by decide)
  unfold compactMantissa
  split
  · case isTrue within =>
      rw [scaled_of_le within] at below ⊢
      have unshifted : value < 2 ^ 24 :=
        Nat.lt_of_le_of_lt (Nat.le_mul_of_pos_right _ (Nat.pow_pos (by decide))) below
      have width : 8 * (3 - nSize) % 2 ^ 64 % 64 = 8 * (3 - nSize) := by omega
      have power : 2 ^ (8 * (3 - nSize)) = 256 ^ (3 - nSize) := by rw [Nat.pow_mul]
      simp only [UInt64.toNat_toUInt32, UInt64.toNat_shiftLeft, UInt64.toNat_ofNat',
        Nat.toUInt64_eq]
      rw [Nat.mod_eq_of_lt (by omega : value < 2 ^ 64), width, Nat.shiftLeft_eq, power,
        Nat.mod_eq_of_lt (by omega : value * 256 ^ (3 - nSize) < 2 ^ 64),
        Nat.mod_eq_of_lt (by omega : value * 256 ^ (3 - nSize) < 2 ^ 32)]
  · case isFalse above =>
      rw [scaled_of_gt (by omega)] at below ⊢
      have power : 2 ^ (8 * (nSize - 3)) = 256 ^ (nSize - 3) := by rw [Nat.pow_mul]
      simp only [UInt64.toNat_toUInt32, UInt64.toNat_ofNat']
      rw [Nat.shiftRight_eq_div_pow, power,
        Nat.mod_eq_of_lt (by omega : value / 256 ^ (nSize - 3) < 2 ^ 64),
        Nat.mod_eq_of_lt (by omega : value / 256 ^ (nSize - 3) < 2 ^ 32)]

/-! ### Packing and unpacking -/

theorem testBit_23 {mantissa : Nat} (low : mantissa < 2 ^ 24) :
    mantissa.testBit 23 = decide (2 ^ 23 ≤ mantissa) := by
  by_cases top : 2 ^ 23 ≤ mantissa
  · rw [Nat.testBit_eq_decide_div_mod_eq, decide_eq_decide]
    omega
  · rw [Nat.testBit_lt_two_pow (by omega), Bool.false_eq, decide_eq_false_iff_not]
    exact top
theorem signBit_eq_testBit (nCompact : UInt32) :
    (nCompact &&& 0x00800000 != 0) = nCompact.toNat.testBit 23 := by
  rw [Bool.eq_iff_iff, bne_iff_ne, ne_eq, ← UInt32.toNat_inj, UInt32.toNat_and,
    show (0x00800000 : UInt32).toNat = 2 ^ 23 from rfl, Nat.and_two_pow]
  cases nCompact.toNat.testBit 23 <;> simp

theorem mask_of_lt {nCompact : UInt32} (low : nCompact.toNat < 2 ^ 23) :
    nCompact &&& 0x007fffff = nCompact := by
  apply UInt32.ext
  rw [UInt32.toNat_and, show (0x007fffff : UInt32).toNat = 2 ^ 23 - 1 from rfl,
    Nat.and_two_pow_sub_one_of_lt_two_pow low]
theorem and_not_mask_eq_zero {nCompact : UInt32} (low : nCompact.toNat < 2 ^ 23) :
    nCompact &&& ~~~0x007fffff = 0 := by
  calc nCompact &&& ~~~0x007fffff = nCompact &&& 0x007fffff &&& ~~~0x007fffff := by
        rw [mask_of_lt low]
    _ = 0 := by rw [UInt32.and_assoc, UInt32.and_not_self, UInt32.and_zero]

/-- The size, the mantissa and the sign bit of a packed word with the sign bit clear. -/
theorem compactParts_ofNat {mantissa nSize : Nat} (low : mantissa < 2 ^ 23) (sizeFits : nSize < 256) :
    ((UInt32.ofNat (mantissa + nSize * 2 ^ 24)) >>> 24).toNat = nSize ∧
      UInt32.ofNat (mantissa + nSize * 2 ^ 24) &&& 0x007fffff = UInt32.ofNat mantissa ∧
      (UInt32.ofNat (mantissa + nSize * 2 ^ 24) &&& 0x00800000 != 0) = false := by
  have packed : (UInt32.ofNat (mantissa + nSize * 2 ^ 24)).toNat = mantissa + nSize * 2 ^ 24 := by
    rw [UInt32.toNat_ofNat']
    exact Nat.mod_eq_of_lt (by omega)
  refine ⟨?_, ?_, ?_⟩
  · rw [UInt32.toNat_shiftRight, packed, show (24 : UInt32).toNat % 32 = 24 from rfl,
      Nat.shiftRight_eq_div_pow]
    omega
  · apply UInt32.ext
    rw [UInt32.toNat_and, packed, show (0x007fffff : UInt32).toNat = 2 ^ 23 - 1 from rfl,
      Nat.and_two_pow_sub_one_eq_mod, UInt32.toNat_ofNat']
    omega
  · rw [signBit_eq_testBit, packed, Nat.testBit_eq_decide_div_mod_eq, decide_eq_false_iff_not]
    omega

theorem SetCompact_ofNat {mantissa nSize : Nat} (low : mantissa < 2 ^ 23) (sizeFits : nSize ≤ 33)
    (topSize : nSize = 33 → mantissa < 2 ^ 16) :
    SetCompact (UInt32.ofNat (mantissa + nSize * 2 ^ 24)) =
      (if nSize ≤ 3 then mantissa / 256 ^ (3 - nSize) else mantissa * 256 ^ (nSize - 3) % 2 ^ 256,
        false, false) := by
  obtain ⟨size, word, sign⟩ := compactParts_ofNat low (show nSize < 256 by omega)
  unfold SetCompact
  simp only [size, word, sign, Bool.and_false]
  have wordNat : (UInt32.ofNat mantissa).toNat = mantissa := by
    rw [UInt32.toNat_ofNat']
    exact Nat.mod_eq_of_lt (by omega)
  by_cases within : nSize ≤ 3
  · have shift : (UInt32.ofNat mantissa >>> (8 * (3 - nSize)).toUInt32).toNat =
        mantissa / 256 ^ (3 - nSize) := by
      have width : (8 * (3 - nSize)).toUInt32.toNat % 32 = 8 * (3 - nSize) := by
        rw [Nat.toUInt32_eq, UInt32.toNat_ofNat']
        omega
      rw [UInt32.toNat_shiftRight, wordNat, width, Nat.shiftRight_eq_div_pow, Nat.pow_mul]
    simp only [within, ite_true, shift]
    simp [show ¬ 32 < nSize by omega]
    exact fun _ => ⟨by omega, fun _ => by omega⟩
  · have power : 2 ^ (8 * (nSize - 3)) = 256 ^ (nSize - 3) := by rw [Nat.pow_mul]
    simp only [within, ite_false, wordNat, Nat.shiftLeft_eq, power]
    simp [UInt32.lt_iff_toNat_lt, wordNat]
    omega

theorem or_shiftLeft_eq_ofNat {nCompact : UInt32} {nSize : Nat} (low : nCompact.toNat < 2 ^ 23)
    (sizeFits : nSize < 256) :
    nCompact ||| nSize.toUInt32 <<< 24 = UInt32.ofNat (nCompact.toNat + nSize * 2 ^ 24) := by
  apply UInt32.ext
  have shifted : (nSize.toUInt32 <<< 24).toNat = 2 ^ 24 * nSize := by
    rw [UInt32.toNat_shiftLeft, Nat.toUInt32_eq, UInt32.toNat_ofNat', Nat.mod_eq_of_lt (show nSize < 2 ^ 32 by omega),
      show (24 : UInt32).toNat % 32 = 24 from rfl, Nat.shiftLeft_eq]
    omega
  rw [UInt32.toNat_or, shifted, UInt32.toNat_ofNat', Nat.mod_eq_of_lt (by omega), Nat.lor_comm,
    ← Nat.two_pow_add_eq_or_of_lt (by omega)]
  omega

/-- Below the sign bit and with a size that fits, the asserts pass and the parts are packed. -/
theorem packCompact_eq {nCompact : UInt32} {nSize : Nat} (low : nCompact.toNat < 2 ^ 23)
    (sizeFits : nSize < 256) :
    packCompact nCompact nSize false = some (UInt32.ofNat (nCompact.toNat + nSize * 2 ^ 24)) := by
  have passes : (nCompact &&& ~~~0x007fffff != 0 || decide (256 ≤ nSize)) = false := by
    rw [and_not_mask_eq_zero low]
    simp
    omega
  simp only [packCompact, passes, Bool.false_and, Bool.false_eq_true, ite_false, UInt32.or_zero]
  exact congrArg some (or_shiftLeft_eq_ofNat low sizeFits)

theorem GetCompact_eq {value : Nat} (small : value < 2 ^ 256) :
    ∃ nSize, value < 256 ^ nSize ∧ nSize ≤ 33 ∧
      value * 2 ^ 24 / 256 ^ nSize < 2 ^ 23 ∧
      (0 < value → 2 ^ 15 ≤ value * 2 ^ 24 / 256 ^ nSize) ∧
      (nSize = 33 → value * 2 ^ 24 / 256 ^ nSize < 2 ^ 16) ∧
      GetCompact value false =
        some (UInt32.ofNat (value * 2 ^ 24 / 256 ^ nSize + nSize * 2 ^ 24)) := by
  obtain ⟨fits, topByte, atMost⟩ := byteCount_spec small
  generalize sizeDef : (bits value + 7) / 8 = nSize at fits topByte atMost
  have first := compactMantissa_toNat fits
  have firstLow : value * 2 ^ 24 / 256 ^ nSize < 2 ^ 24 := by
    rw [Nat.div_lt_iff_lt_mul (Nat.pow_pos (by decide)), Nat.mul_comm (2 ^ 24)]
    exact Nat.mul_lt_mul_of_pos_right fits (by decide)
  have firstHigh : 0 < value → 2 ^ 16 ≤ value * 2 ^ 24 / 256 ^ nSize := fun positive => by
    rw [Nat.le_div_iff_mul_le (Nat.pow_pos (by decide))]
    have reaches := Nat.mul_le_mul_left (2 ^ 16) (topByte positive)
    omega
  have sign := signBit_eq_testBit (compactMantissa value nSize)
  rw [first, testBit_23 firstLow] at sign
  unfold GetCompact
  simp only [sizeDef, sign]
  by_cases top : 2 ^ 23 ≤ value * 2 ^ 24 / 256 ^ nSize
  · have divided : value * 2 ^ 24 / 256 ^ (nSize + 1) = value * 2 ^ 24 / 256 ^ nSize / 256 := by
      rw [Nat.div_div_eq_div_mul, ← Nat.pow_succ]
    have shifted :
        (compactMantissa value nSize >>> 8).toNat = value * 2 ^ 24 / 256 ^ (nSize + 1) := by
      rw [UInt32.toNat_shiftRight, first, show (8 : UInt32).toNat % 32 = 8 from rfl,
        Nat.shiftRight_eq_div_pow, divided]
    refine ⟨nSize + 1, ?_, by omega, by omega, fun _ => by omega, fun _ => by omega, ?_⟩
    · calc value < 256 ^ nSize := fits
        _ ≤ 256 ^ (nSize + 1) := Nat.pow_le_pow_right (by decide) (by omega)
    · rw [decide_eq_true top, if_pos rfl, packCompact_eq (by omega) (by omega), shifted]
  · refine ⟨nSize, fits, by omega, by omega, fun positive => ?_, fun _ => by omega, ?_⟩
    · have := firstHigh positive
      omega
    · rw [decide_eq_false top, if_neg Bool.false_ne_true, packCompact_eq (by omega) (by omega),
        first]

/-- Clearing the low digits below `unit` loses less than a `scale`-th of what remains,
when at least `scale` units remain. -/
theorem sub_div_mul_mul_le {value unit scale : Nat} (unitPos : 0 < unit)
    (large : scale ≤ value / unit) :
    (value - value / unit * unit) * scale ≤ value / unit * unit := by
  have remainder : value - value / unit * unit = value % unit := by
    rw [Nat.mod_eq_sub_div_mul]
  calc (value - value / unit * unit) * scale = value % unit * scale := by rw [remainder]
    _ ≤ unit * scale := Nat.mul_le_mul_right _ (Nat.mod_lt _ unitPos).le
    _ ≤ unit * (value / unit) := Nat.mul_le_mul_left _ large
    _ = value / unit * unit := Nat.mul_comm _ _

/--
Decoding what `GetCompact` encodes gives the value with its low bytes
cleared, and what is cleared is at most 2^-15 of what remains.
-/
theorem SetCompact_GetCompact {value : Nat} (small : value < 2 ^ 256) :
    ∃ nBits shift, GetCompact value false = some nBits ∧
      SetCompact nBits = (value / 256 ^ shift * 256 ^ shift, false, false) ∧
      (value - value / 256 ^ shift * 256 ^ shift) * 2 ^ 15 ≤ value / 256 ^ shift * 256 ^ shift := by
  obtain ⟨nSize, -, sizeFits, low, high, topSize, encoded⟩ := GetCompact_eq small
  refine ⟨_, nSize - 3, encoded, ?_, ?_⟩
  · rw [SetCompact_ofNat low sizeFits topSize]
    split
    · case isTrue within =>
        rw [scaled_of_le within, Nat.mul_div_cancel _ (Nat.pow_pos (by decide)),
          Nat.sub_eq_zero_of_le within]
        simp
    · case isFalse above =>
        rw [scaled_of_gt (by omega), Nat.mod_eq_of_lt
          (Nat.lt_of_le_of_lt (Nat.div_mul_le_self _ _) small)]
  · rcases Nat.eq_zero_or_pos value with zero | positive
    · simp [zero]
    · by_cases within : nSize ≤ 3
      · simp [Nat.sub_eq_zero_of_le within]
      · apply sub_div_mul_mul_le (Nat.pow_pos (by decide))
        rw [← scaled_of_gt (by omega)]
        exact high positive

/-! ## Parameters -/

/--
The fields of `Consensus::Params` that retargeting reads.  Both spacings are
positive, as on every chain, so neither division by them fails.
-/
structure RetargetParams extends ConsensusParams where
  nPowTargetSpacing : Int
  nPowTargetTimespan : Int
  fPowNoRetargeting : Bool
  spacing_pos : 0 < nPowTargetSpacing
  timespan_pos : 0 < nPowTargetTimespan

namespace RetargetParams

/-- `Params::DifficultyAdjustmentInterval`, an `int64_t` division. -/
def DifficultyAdjustmentInterval (params : RetargetParams) : Int :=
  params.nPowTargetTimespan.tdiv params.nPowTargetSpacing

end RetargetParams

/-- The retargeting parameters of `CMainParams`; `CTestNetParams` has the same. -/
def mainRetargetParams : RetargetParams where
  toConsensusParams := mainParams
  nPowTargetSpacing := 2 * 60
  nPowTargetTimespan := 2 * 60
  fPowNoRetargeting := false
  spacing_pos := by decide
  timespan_pos := by decide

/-! ## Retargeting -/

/-- `CBlockHeader::GetBlockTime`. -/
def CBlockHeader.GetBlockTime (header : CBlockHeader) : Int := header.nTime.toNat

/-- `CalculateDigishieldNextWorkRequired`, reading the entry's fields through `header`. -/
def CalculateDigishieldNextWorkRequired (header : CBlockIndex → CBlockHeader)
    (pindexLast : CBlockIndex) (nFirstBlockTime : Int) (params : RetargetParams) :
    Option UInt32 :=
  if params.fPowNoRetargeting then some (header pindexLast).nBits
  else
    let retargetTimespan := params.nPowTargetTimespan
    let nActualTimespan := (header pindexLast).GetBlockTime - nFirstBlockTime
    -- the amplitude filter; `int64_t` division truncates toward zero
    let nModulatedTimespan := retargetTimespan + (nActualTimespan - retargetTimespan).tdiv 8
    let nMinTimespan := retargetTimespan - retargetTimespan.tdiv 4
    let nMaxTimespan := retargetTimespan + retargetTimespan.tdiv 2
    let nModulatedTimespan :=
      if nModulatedTimespan < nMinTimespan then nMinTimespan
      else if nModulatedTimespan > nMaxTimespan then nMaxTimespan
      else nModulatedTimespan
    let bnPowLimit := params.powLimit.toNat
    let bnNew := (SetCompact (header pindexLast).nBits).1
    -- `operator*=(uint32_t)` wraps at 2^256; the divisor is the `uint64_t` timespan
    let bnNew := bnNew * (nModulatedTimespan % 2 ^ 32).toNat % 2 ^ 256
    let bnNew := bnNew / (retargetTimespan % 2 ^ 64).toNat
    let bnNew := if bnNew > bnPowLimit then bnPowLimit else bnNew
    GetCompact bnNew false

/-- `GetNextWorkRequired`; `none` where one of its asserts fails. -/
def GetNextWorkRequired (header : CBlockIndex → CBlockHeader) (pindexLast : CBlockIndex)
    (params : RetargetParams) : Option UInt32 :=
  if pindexLast.isNull then none
  else
    let interval := params.DifficultyAdjustmentInterval
    -- the first retarget after genesis goes back one block fewer
    let blockstogoback := if pindexLast.nHeight + 1 ≠ interval then interval else interval - 1
    -- `pprev` of `nullptr` stays `nullptr` in the model, which ends the loop as the source does
    let pindexFirst := pindexLast.prevN blockstogoback.toNat
    if pindexFirst.isNull then none
    else
      CalculateDigishieldNextWorkRequired header pindexLast (header pindexFirst).GetBlockTime
        params

/--
With retargeting on and a timespan of 120 seconds, the retarget scales the
target by a damped timespan in [90, 180] over 120, exactly (the product fits
the 256 bits), and caps it at `powLimit`.
-/
theorem CalculateDigishieldNextWorkRequired_eq (header : CBlockIndex → CBlockHeader)
    (pindexLast : CBlockIndex) (nFirstBlockTime : Int) {params : RetargetParams}
    (enabled : params.fPowNoRetargeting = false) (timespan : params.nPowTargetTimespan = 120)
    (fits : (SetCompact (header pindexLast).nBits).1 * 180 < 2 ^ 256) :
    ∃ modulated, 90 ≤ modulated ∧ modulated ≤ 180 ∧
      CalculateDigishieldNextWorkRequired header pindexLast nFirstBlockTime params =
        GetCompact (min params.powLimit.toNat
          ((SetCompact (header pindexLast).nBits).1 * modulated / 120)) false := by
  unfold CalculateDigishieldNextWorkRequired
  simp only [enabled, timespan, Bool.false_eq_true, ite_false]
  generalize (SetCompact (header pindexLast).nBits).1 = target at fits ⊢
  generalize 120 + ((header pindexLast).GetBlockTime - nFirstBlockTime - 120).tdiv 8 = raw
  rw [show Int.tdiv 120 4 = 30 from rfl, show Int.tdiv 120 2 = 60 from rfl]
  generalize clampDef :
    (if raw < 120 - 30 then 120 - 30 else if raw > 120 + 60 then 120 + 60 else raw) = clamped
  have bounds : 90 ≤ clamped ∧ clamped ≤ 180 := by
    rw [← clampDef]
    split_ifs <;> omega
  refine ⟨clamped.toNat, by omega, by omega, ?_⟩
  have factor : (clamped % 2 ^ 32).toNat = clamped.toNat := by
    rw [Int.emod_eq_of_lt (by omega) (by omega)]
  have product : target * clamped.toNat % 2 ^ 256 = target * clamped.toNat :=
    Nat.mod_eq_of_lt (Nat.lt_of_le_of_lt (Nat.mul_le_mul_left _ (by omega)) fits)
  rw [factor, product, show Int.toNat ((120 : Int) % 2 ^ 64) = 120 from rfl]
  congr 1
  rw [Nat.min_def]
  split_ifs <;> omega

/-- With one block per retarget, the walk goes back one block, none from genesis. -/
theorem GetNextWorkRequired_eq (header : CBlockIndex → CBlockHeader) {pindexLast : CBlockIndex}
    (wellFormed : pindexLast.WellFormed) {params : RetargetParams}
    (interval : params.DifficultyAdjustmentInterval = 1) :
    GetNextWorkRequired header pindexLast params =
      CalculateDigishieldNextWorkRequired header pindexLast
        (header (pindexLast.prevN (min 1 pindexLast.nHeight.toNat))).GetBlockTime params := by
  have nonneg := wellFormed.nHeight_nonneg
  have steps : (if pindexLast.nHeight + 1 ≠ 1 then (1 : Int) else 1 - 1).toNat =
      min 1 pindexLast.nHeight.toNat := by
    split_ifs <;> omega
  obtain ⟨walked, -⟩ := wellFormed.prevN (min 1 pindexLast.nHeight.toNat) (by omega)
  unfold GetNextWorkRequired
  simp only [wellFormed.isNull, interval, steps, walked.isNull, Bool.false_eq_true, ite_false]

/-- The arithmetic of one retarget, from the old target to the decoded new one. -/
theorem retarget_bounds {powLimit target modulated bnNew decoded : Nat}
    (limitPos : 0 < powLimit) (belowLimit : target ≤ powLimit)
    (atLeast : 90 ≤ modulated) (atMost : modulated ≤ 180)
    (scaled : min powLimit (target * modulated / 120) = bnNew)
    (cleared : decoded ≤ bnNew) (truncation : (bnNew - decoded) * 2 ^ 15 ≤ decoded) :
    target * 90 / 120 - (bnNew - decoded) ≤ decoded ∧
      decoded ≤ min powLimit (target * 180 / 120) ∧
      (bnNew - decoded) * 2 ^ 15 ≤ decoded ∧
      (0 < decoded ↔ 120 ≤ target * modulated) := by
  have slowest : target * 90 / 120 ≤ target * modulated / 120 :=
    Nat.div_le_div_right (Nat.mul_le_mul_left _ atLeast)
  have fastest : target * modulated / 120 ≤ target * 180 / 120 :=
    Nat.div_le_div_right (Nat.mul_le_mul_left _ atMost)
  refine ⟨by omega, by omega, truncation, ?_⟩
  constructor
  · intro positive
    omega
  · intro reaches
    omega

/--
On the chains' parameters, retargeting from a target of at most `powLimit`
passes its asserts at every height and decodes to between the damped
bounds, less what `GetCompact` clears, and `powLimit`; it is positive
exactly when the old target times the damped timespan reaches 120.
-/
theorem GetNextWorkRequired_in_range (header : CBlockIndex → CBlockHeader)
    {pindexLast : CBlockIndex} (wellFormed : pindexLast.WellFormed) {params : RetargetParams}
    (enabled : params.fPowNoRetargeting = false) (spacing : params.nPowTargetSpacing = 120)
    (timespan : params.nPowTargetTimespan = 120) (limit : params.powLimit = mainParams.powLimit)
    (belowLimit : (SetCompact (header pindexLast).nBits).1 ≤ params.powLimit.toNat) :
    ∃ nBits modulated, GetNextWorkRequired header pindexLast params = some nBits ∧
      90 ≤ modulated ∧ modulated ≤ 180 ∧ (SetCompact nBits).2 = (false, false) ∧
      let target := (SetCompact (header pindexLast).nBits).1
      let bnNew := min params.powLimit.toNat (target * modulated / 120)
      let decoded := (SetCompact nBits).1
      target * 90 / 120 - (bnNew - decoded) ≤ decoded ∧
        decoded ≤ min params.powLimit.toNat (target * 180 / 120) ∧
        (bnNew - decoded) * 2 ^ 15 ≤ decoded ∧
        (0 < decoded ↔ 120 ≤ target * modulated) := by
  have interval : params.DifficultyAdjustmentInterval = 1 := by
    rw [RetargetParams.DifficultyAdjustmentInterval, spacing, timespan]
    rfl
  have limitValue : params.powLimit.toNat = 2 ^ 244 - 1 := by
    rw [limit]
    rfl
  have limitPos : 0 < params.powLimit.toNat := by omega
  obtain ⟨modulated, atLeast, atMost, calculated⟩ :=
    CalculateDigishieldNextWorkRequired_eq header pindexLast
      (header (pindexLast.prevN (min 1 pindexLast.nHeight.toNat))).GetBlockTime enabled timespan
      (by omega)
  clear limitValue
  generalize targetDef : (SetCompact (header pindexLast).nBits).1 = target at belowLimit calculated ⊢
  generalize bnNewDef : min params.powLimit.toNat (target * modulated / 120) = bnNew at calculated
  obtain ⟨nBits, shift, encoded, decodedDef, truncation⟩ :=
    @SetCompact_GetCompact bnNew
      (Nat.lt_of_le_of_lt (bnNewDef ▸ Nat.min_le_left _ _) params.powLimit.isLt)
  refine ⟨nBits, modulated, ?_, atLeast, atMost, by rw [decodedDef], ?_⟩
  · rw [GetNextWorkRequired_eq header wellFormed interval, calculated, encoded]
  · simp only [decodedDef, bnNewDef]
    exact retarget_bounds limitPos belowLimit atLeast atMost bnNewDef (Nat.div_mul_le_self _ _)
      truncation

theorem GetNextWorkRequired_in_range_genesis :
    let hdr : CBlockHeader := ⟨1, 0, 0, 1500000000, 0x1e0fffff, 0, ⟨10, 10, 0, 0, 0, 0, 1⟩⟩
    let genesis : CBlockIndex := .entry 0 0 0 .null .null
    let header : CBlockIndex → CBlockHeader := fun _ => hdr
    (genesis.WellFormed ∧ mainRetargetParams.fPowNoRetargeting = false ∧
      mainRetargetParams.nPowTargetSpacing = 120 ∧ mainRetargetParams.nPowTargetTimespan = 120 ∧
      mainRetargetParams.powLimit = mainParams.powLimit ∧
      (SetCompact hdr.nBits).1 ≤ mainRetargetParams.powLimit.toNat) ∧
    ∃ nBits modulated, GetNextWorkRequired header genesis mainRetargetParams = some nBits ∧
      90 ≤ modulated ∧ modulated ≤ 180 ∧ (SetCompact nBits).2 = (false, false) ∧
      let target := (SetCompact (header genesis).nBits).1
      let bnNew := min mainRetargetParams.powLimit.toNat (target * modulated / 120)
      let decoded := (SetCompact nBits).1
      target * 90 / 120 - (bnNew - decoded) ≤ decoded ∧
        decoded ≤ min mainRetargetParams.powLimit.toNat (target * 180 / 120) ∧
        (bnNew - decoded) * 2 ^ 15 ≤ decoded ∧
        (0 < decoded ↔ 120 ≤ target * modulated) := by
  intro hdr genesis header
  have wellFormed : genesis.WellFormed := .genesis 0 0
  exact ⟨⟨wellFormed, rfl, rfl, rfl, rfl, by decide⟩,
    GetNextWorkRequired_in_range header wellFormed rfl rfl rfl rfl (by decide)⟩

set_option maxRecDepth 8000 in
/--
A target of 1 and a block no slower than the one before: the new target
rounds to zero, which no proof of work meets.
-/
theorem digishield_target_one_rounds_to_zero :
    let hdr : CBlockHeader := ⟨1, 0, 0, 1500000000, 0x03000001, 0, ⟨10, 10, 0, 0, 0, 0, 1⟩⟩
    let genesis : CBlockIndex := .entry 0 0 0 .null .null
    (SetCompact hdr.nBits).1 = 1 ∧
      GetNextWorkRequired (fun _ => hdr) genesis mainRetargetParams = some 0 ∧
      (SetCompact 0).1 = 0 ∧ ∀ hash, CheckProofOfWork hash 0 mainParams = false := by
  intro hdr genesis
  refine ⟨by decide, by decide, by decide, fun hash => ?_⟩
  rw [Bool.eq_false_iff]
  intro accepted
  exact (CheckProofOfWork_eq_true.mp accepted).2.1 (by decide)

end Kevacoin
