import Kevacoin.Data.Canonical
import Kevacoin.Primitives.Serialize
import Mathlib.Tactic.IntervalCases

/-!
# VARINT at a fixed width

`GetSizeOfVarInt`, `WriteVarInt` and `ReadVarInt<I>` of `serialize.h` for an
unsigned integer type `I` of `w` bits.  Its values are `BitVec w` and its
arithmetic is the source's, modulo `2 ^ w`: the reader's shift and its
increment, the writer's `(n >> 7) - 1`, and the `tmp` buffer of
`(w + 6) / 7` bytes the writer fills before it writes them out backwards.

Every unsigned type of C++ has at least seven bits, and at every such width
the three functions are the number varint of `Data.Bytes` in disguise: the
writer fills no more of `tmp` than it has and writes `msbVarint`, the
size is that encoding's length, and the reader is `readMsbVarint` into
`2 ^ w - 1`.  So the format is a bijection between the values of `I` and
the inputs the reader accepts, and the reader takes every encoded number
either exactly or not at all (`varInt_bijection`).  The coin database keys
of `txdb.cpp` write the output index this way, and are one to one
(`coinEntry_key_roundtrip`).
-/

namespace Kevacoin

open Bytes

/-! ## The machine operations, on numbers -/

section Bits

variable {w : Nat}

theorem toNat_0x7F (wide : 7 ≤ w) : (0x7F : BitVec w).toNat = 0x7F := by
  show (BitVec.ofNat w 0x7F).toNat = 0x7F
  rw [BitVec.toNat_ofNat]
  exact Nat.mod_eq_of_lt (Nat.lt_of_lt_of_le (by decide) (Nat.pow_le_pow_right (by decide) wide))

/-- A value below `0x80` is at most `0x7F` at every width: below seven bits `0x7F` is the largest value. -/
theorem le_0x7F_of_lt {n : BitVec w} (small : n.toNat < 0x80) : n ≤ 0x7F := by
  rw [BitVec.le_def]
  by_cases wide : 7 ≤ w
  · rw [toNat_0x7F wide]
    omega
  · have fits := n.isLt
    show n.toNat ≤ (BitVec.ofNat w 0x7F).toNat
    rw [BitVec.toNat_ofNat]
    interval_cases w <;> simp at fits ⊢ <;> omega

/-- The writer's step `(n >> 7) - 1` on a value past `0x7F`: its quotient by `128`, less one. -/
theorem toNat_shiftDown {n : BitVec w} (large : 0x80 ≤ n.toNat) :
    ((n >>> 7) - 1).toNat = n.toNat / 0x80 - 1 := by
  have wide : 1 < 2 ^ w := Nat.lt_of_lt_of_le (by omega) (Nat.le_of_lt n.isLt)
  have one : (1 : BitVec w).toNat = 1 := by
    show (BitVec.ofNat w 1).toNat = 1
    rw [BitVec.toNat_ofNat, Nat.mod_eq_of_lt wide]
  have shifted : (n >>> 7).toNat = n.toNat / 0x80 := by
    rw [BitVec.toNat_ushiftRight, Nat.shiftRight_eq_div_pow]
  rw [BitVec.toNat_sub_of_le (by rw [BitVec.le_def, one, shifted]; omega), one, shifted]

theorem toNat_and_0x7F (wide : 7 ≤ w) (n : BitVec w) : (n &&& 0x7F).toNat = n.toNat % 0x80 := by
  rw [BitVec.toNat_and, toNat_0x7F wide, show 0x7F = 2 ^ 7 - 1 from rfl,
    Nat.and_two_pow_sub_one_eq_mod]

theorem toNat_byte_and_0x7F (chData : UInt8) : (chData &&& 0x7F).toNat = chData.toNat % 0x80 := by
  rw [UInt8.toNat_and, show (0x7F : UInt8).toNat = 2 ^ 7 - 1 from rfl,
    Nat.and_two_pow_sub_one_eq_mod]

/-- `chData & 0x80` is the byte's high bit. -/
theorem and_0x80_ne_zero (chData : UInt8) : chData &&& 0x80 ≠ 0 ↔ 0x80 ≤ chData.toNat := by
  have bit : (chData &&& 0x80).toNat = (chData.toNat.testBit 7).toNat * 2 ^ 7 := by
    rw [UInt8.toNat_and, show (0x80 : UInt8).toNat = 2 ^ 7 from rfl, Nat.and_two_pow]
  rw [Nat.testBit_eq_decide_div_mod_eq] at bit
  have small := chData.toNat_lt
  rw [Ne, UInt8.ext_iff, bit, show (0 : UInt8).toNat = 0 from rfl]
  by_cases high : 0x80 ≤ chData.toNat
  · rw [decide_eq_true (by omega), Bool.toNat_true]
    omega
  · rw [decide_eq_false (by omega), Bool.toNat_false]
    omega

/-- The reader's step `(n << 7) | (chData & 0x7F)` on an accumulator its guard let through: nothing is shifted out. -/
theorem toNat_shiftIn (wide : 7 ≤ w) {n : BitVec w} (room : n.toNat ≤ (2 ^ w - 1) / 0x80)
    (chData : UInt8) :
    (n <<< 7 ||| BitVec.ofNat w (chData &&& 0x7F).toNat).toNat =
      n.toNat * 0x80 + chData.toNat % 0x80 := by
  have atLeast : 2 ^ 7 ≤ 2 ^ w := Nat.pow_le_pow_right (by decide) wide
  have low : chData.toNat % 0x80 < 2 ^ 7 := by omega
  rw [BitVec.toNat_or, BitVec.toNat_shiftLeft, Nat.shiftLeft_eq,
    Nat.mod_eq_of_lt (show n.toNat * 2 ^ 7 < 2 ^ w by omega), BitVec.toNat_ofNat,
    toNat_byte_and_0x7F, Nat.mod_eq_of_lt (show chData.toNat % 0x80 < 2 ^ w by omega),
    ← Nat.shiftLeft_eq, ← Nat.shiftLeft_add_eq_or_of_lt low, Nat.shiftLeft_eq]

/-- A digit with the continuation bit or'ed in is the digit plus `0x80`. -/
theorem digitByte_eq {digit : Nat} (small : digit < 0x80) (high : Bool) :
    UInt8.ofNat digit ||| (if high then 0x80 else 0x00) =
      UInt8.ofNat (digit + if high then 0x80 else 0) := by
  apply UInt8.toNat_inj.mp
  cases high with
  | false =>
    rw [if_neg Bool.false_ne_true, if_neg Bool.false_ne_true, UInt8.or_zero, Nat.add_zero]
  | true =>
    rw [if_pos rfl, if_pos rfl, UInt8.toNat_or, UInt8.toNat_ofNat', UInt8.toNat_ofNat',
      Nat.mod_eq_of_lt (show digit < 2 ^ 8 by omega),
      Nat.mod_eq_of_lt (show digit + 0x80 < 2 ^ 8 by omega),
      show (0x80 : UInt8).toNat = 2 ^ 7 * 1 from rfl, Nat.lor_comm,
      ← Nat.two_pow_add_eq_or_of_lt (by omega)]
    omega

/-- `std::numeric_limits<I>::max()` ends in seven one bits. -/
theorem two_pow_sub_one_mod (wide : 7 ≤ w) : (2 ^ w - 1) % 0x80 = 0x7f := by
  have split : 2 ^ w = 2 ^ 7 * 2 ^ (w - 7) := by
    rw [← Nat.pow_add, Nat.add_sub_cancel' wide]
  have positive : 0 < 2 ^ (w - 7) := Nat.two_pow_pos _
  rw [split]
  omega

end Bits

/-! ## The writer -/

/-- `GetSizeOfVarInt`: one byte for each turn of the writer's loop. -/
def GetSizeOfVarInt {w : Nat} (n : BitVec w) : Nat :=
  if small : n ≤ 0x7F then 1 else GetSizeOfVarInt ((n >>> 7) - 1) + 1
termination_by n.toNat
decreasing_by
  have large : 0x80 ≤ n.toNat := Nat.le_of_not_lt fun below => small (le_0x7F_of_lt below)
  rw [toNat_shiftDown large]
  omega

/--
The first loop of `WriteVarInt`: what it stores in `tmp` from `tmp[len]` on,
while `room` entries of `tmp` are left; `none` where it would store past the
end of `tmp`.
-/
def fillVarInt {w : Nat} : Nat → Nat → BitVec w → Option (List UInt8)
  | 0, _, _ => none
  | room + 1, len, n =>
      let byte := UInt8.ofNat (n &&& 0x7F).toNat ||| (if len ≠ 0 then 0x80 else 0x00)
      if n ≤ 0x7F then some [byte]
      else (fillVarInt room (len + 1) ((n >>> 7) - 1)).map (byte :: ·)

/-- `WriteVarInt`: `tmp` holds `(w + 6) / 7` bytes, written out from the last one stored to `tmp[0]`. -/
def WriteVarInt (w : Nat) (n : BitVec w) : Option (List UInt8) :=
  (fillVarInt ((w + 6) / 7) 0 n).map List.reverse

section Writer

variable {w : Nat}

/-- Where `tmp` has room, the loop stores the groups of the number backwards, the first with no continuation bit. -/
theorem fillVarInt_eq (wide : 7 ≤ w) : ∀ (room len : Nat) (n : BitVec w),
    (msbVarintGroups (len != 0) n.toNat).length ≤ room →
      fillVarInt room len n = some (msbVarintGroups (len != 0) n.toNat).reverse
  | 0, len, n, fits => absurd fits (Nat.not_le_of_lt (length_msbVarintGroups_pos _ _))
  | room + 1, len, n, fits => by
    have byte : UInt8.ofNat (n &&& 0x7F).toNat ||| (if len ≠ 0 then 0x80 else 0x00) =
        UInt8.ofNat (n.toNat % 0x80 + if (len != 0) = true then 0x80 else 0) := by
      rw [toNat_and_0x7F wide, ← digitByte_eq (Nat.mod_lt _ (by decide))]
      simp only [bne_iff_ne, ne_eq]
    rw [fillVarInt, msbVarintGroups, byte]
    by_cases small : n.toNat ≤ 0x7f
    · rw [if_pos (by rw [BitVec.le_def, toNat_0x7F wide]; exact small), if_pos small]
      rfl
    · have large : 0x80 ≤ n.toNat := by omega
      rw [if_neg (by rw [BitVec.le_def, toNat_0x7F wide]; exact small), if_neg small]
      rw [msbVarintGroups, if_neg small, List.length_append, List.length_singleton] at fits
      have next := fillVarInt_eq wide room (len + 1) ((n >>> 7) - 1)
      rw [toNat_shiftDown large] at next
      rw [next (by simpa using fits), List.reverse_append]
      rfl

/-- `WriteVarInt` never overruns `tmp`, and writes the varint of its value. -/
theorem WriteVarInt_eq (wide : 7 ≤ w) (n : BitVec w) : WriteVarInt w n = some (msbVarint n.toNat) := by
  have groups : (w + 6) / 7 = ((w + 6) / 7 - 1) + 1 := by omega
  have fits : (msbVarint n.toNat).length ≤ (w + 6) / 7 := by
    rw [groups]
    apply length_msbVarintGroups_le
    calc n.toNat < 2 ^ w := n.isLt
      _ ≤ 2 ^ (7 * ((w + 6) / 7)) := Nat.pow_le_pow_right (by decide) (by omega)
      _ = 0x80 ^ ((w + 6) / 7) := by rw [Nat.pow_mul]
      _ = 0x80 ^ ((w + 6) / 7 - 1 + 1) := by rw [← groups]
  rw [WriteVarInt, fillVarInt_eq wide _ 0 n fits]
  simp [msbVarint]

theorem GetSizeOfVarInt_eq (wide : 7 ≤ w) (high : Bool) (n : BitVec w) :
    GetSizeOfVarInt n = (msbVarintGroups high n.toNat).length := by
  fun_induction GetSizeOfVarInt n generalizing high with
  | case1 n small =>
    rw [msbVarintGroups, if_pos (by rwa [BitVec.le_def, toNat_0x7F wide] at small)]
    rfl
  | case2 n small ih =>
    have large : 0x80 ≤ n.toNat := Nat.le_of_not_lt fun below => small (le_0x7F_of_lt below)
    rw [msbVarintGroups, if_neg (by omega), List.length_append, List.length_singleton, ih true,
      toNat_shiftDown large]

end Writer

/-! ## The reader -/

/--
The loop of `ReadVarInt<I>` from the accumulator `n`; `none` is the
`ios_base::failure` it throws.  Each turn reads a byte, so the input's
length is fuel enough.
-/
def ReadVarIntFrom (w : Nat) : Nat → BitVec w → Reader (BitVec w)
  | 0, _ => failure
  | fuel + 1, n => do
      let chData ← readByte
      if n > BitVec.allOnes w >>> 7 then failure
      else
        let n := n <<< 7 ||| BitVec.ofNat w (chData &&& 0x7F).toNat
        if chData &&& 0x80 ≠ 0 then
          if n = BitVec.allOnes w then failure else ReadVarIntFrom w fuel (n + 1)
        else Pure.pure n

/-- `ReadVarInt<I>`. -/
def ReadVarInt (w : Nat) : Reader (BitVec w) := fun input =>
  (ReadVarIntFrom w input.length 0).run input

section Reader

variable {w : Nat}

/-- Each turn of the fixed-width loop is a turn of the number loop into `2 ^ w - 1`, on the accumulator's value. -/
theorem run_ReadVarIntFrom (wide : 7 ≤ w) : ∀ (fuel : Nat) (n : BitVec w) (input : List UInt8),
    (ReadVarIntFrom w fuel n).run input =
      ((readMsbVarintFrom (2 ^ w - 1) fuel n.toNat).run input).map
        fun result => (BitVec.ofNat w result.1, result.2)
  | 0, _, _ => rfl
  | _ + 1, _, [] => rfl
  | fuel + 1, n, chData :: input => by
    rw [ReadVarIntFrom, readMsbVarintFrom, run_bind_of_run (run_readByte chData input),
      run_bind_of_run (run_readByte chData input)]
    have guard : n > BitVec.allOnes w >>> 7 ↔ n.toNat > (2 ^ w - 1) / 0x80 := by
      rw [gt_iff_lt, BitVec.lt_def, BitVec.toNat_ushiftRight, BitVec.toNat_allOnes,
        Nat.shiftRight_eq_div_pow]
    by_cases beyond : n.toNat > (2 ^ w - 1) / 0x80
    · rw [if_pos (guard.mpr beyond), if_pos beyond]
      rfl
    rw [if_neg (mt guard.mp beyond), if_neg beyond]
    have shifted := toNat_shiftIn wide (Nat.le_of_not_lt beyond) chData
    generalize n <<< 7 ||| BitVec.ofNat w (chData &&& 0x7F).toNat = n' at shifted ⊢
    by_cases more : 0x80 ≤ chData.toNat
    · rw [if_pos ((and_0x80_ne_zero chData).mpr more), if_pos more]
      have atMax : n' = BitVec.allOnes w ↔ n.toNat * 0x80 + chData.toNat % 0x80 = 2 ^ w - 1 := by
        rw [BitVec.toNat_eq, shifted, BitVec.toNat_allOnes]
      by_cases full : n.toNat * 0x80 + chData.toNat % 0x80 = 2 ^ w - 1
      · rw [if_pos (atMax.mpr full), if_pos full]
        rfl
      · rw [if_neg (mt atMax.mp full), if_neg full]
        have bounded := n'.isLt
        have next : (n' + 1).toNat = n.toNat * 0x80 + chData.toNat % 0x80 + 1 := by
          have one : (1 : BitVec w).toNat = 1 := by
            show (BitVec.ofNat w 1).toNat = 1
            rw [BitVec.toNat_ofNat, Nat.mod_eq_of_lt (by omega)]
          rw [BitVec.toNat_add_of_lt (by omega), one, shifted]
        rw [run_ReadVarIntFrom wide fuel (n' + 1) input, next]
    · rw [if_neg (mt (and_0x80_ne_zero chData).mp more), if_neg more]
      show some (n', input) = some (BitVec.ofNat w (n.toNat * 0x80 + chData.toNat % 0x80), input)
      rw [← shifted, BitVec.ofNat_toNat, BitVec.setWidth_eq]

/-- `ReadVarInt<I>` is the number reader into `2 ^ w - 1`, its value taken into `I`. -/
theorem run_ReadVarInt (wide : 7 ≤ w) (input : List UInt8) :
    (ReadVarInt w).run input =
      ((readMsbVarint (2 ^ w - 1)).run input).map fun result => (BitVec.ofNat w result.1, result.2) := by
  have zero : (0 : BitVec w).toNat = 0 := by
    show (BitVec.ofNat w 0).toNat = 0
    rw [BitVec.toNat_ofNat, Nat.zero_mod]
  have loop := run_ReadVarIntFrom wide input.length 0 input
  rw [zero] at loop
  exact loop

/-- What `WriteVarInt` writes, `ReadVarInt` reads back. -/
theorem readsBack_ReadVarInt (wide : 7 ≤ w) (n : BitVec w) :
    ReadsBack (ReadVarInt w) (msbVarint n.toNat) n := by
  have fits : n.toNat ≤ 2 ^ w - 1 := by
    have := n.isLt
    omega
  intro rest
  rw [run_ReadVarInt wide, readsBack_msbVarint fits rest]
  show some (BitVec.ofNat w n.toNat, rest) = some (n, rest)
  rw [BitVec.ofNat_toNat, BitVec.setWidth_eq]

end Reader

/-! ## The format -/

/--
At every width of an unsigned type, `WriteVarInt` fits its buffer and writes
`GetSizeOfVarInt` bytes that `ReadVarInt` reads back, consuming exactly
them; every input `ReadVarInt` accepts begins with what `WriteVarInt` writes
of the value it returns; and `ReadVarInt` reads the encoding of any natural
number as that number where it fits in `I`, and throws where it does not.
-/
theorem varInt_bijection {w : Nat} (wide : 7 ≤ w) :
    (∀ n : BitVec w, ∃ bytes, WriteVarInt w n = some bytes ∧ bytes.length = GetSizeOfVarInt n ∧
      ReadsBack (ReadVarInt w) bytes n) ∧
    (∀ (input rest : List UInt8) (v : BitVec w), (ReadVarInt w).run input = some (v, rest) →
      ∃ bytes, WriteVarInt w v = some bytes ∧ input = bytes ++ rest) ∧
    (∀ (x : Nat) (rest : List UInt8), (ReadVarInt w).run (msbVarint x ++ rest) =
      if x < 2 ^ w then some (BitVec.ofNat w x, rest) else none) := by
  have aligned := two_pow_sub_one_mod wide
  refine ⟨?_, ?_, ?_⟩
  · intro n
    exact ⟨msbVarint n.toNat, WriteVarInt_eq wide n, (GetSizeOfVarInt_eq wide false n).symm,
      readsBack_ReadVarInt wide n⟩
  · intro input rest v ran
    rw [run_ReadVarInt wide] at ran
    cases read : (readMsbVarint (2 ^ w - 1)).run input with
    | none =>
      rw [read] at ran
      cases ran
    | some result =>
      obtain ⟨value, after⟩ := result
      rw [read] at ran
      cases ran
      have bounded := le_of_run_readMsbVarint aligned read
      refine ⟨msbVarint value, ?_, canonical_readMsbVarint _ _ _ _ read⟩
      rw [WriteVarInt_eq wide, BitVec.toNat_ofNat, Nat.mod_eq_of_lt (by omega)]
  · intro x rest
    rw [run_ReadVarInt wide, run_readMsbVarint_msbVarint aligned]
    by_cases fits : x < 2 ^ w
    · rw [if_pos (by omega), if_pos fits]
      rfl
    · rw [if_neg (by omega), if_neg fits]
      rfl

/-- The same at the width of `unsigned int`, the type of an output's index. -/
theorem varInt_bijection_uint32 :
    7 ≤ 32 ∧
      (∀ n : BitVec 32, ∃ bytes, WriteVarInt 32 n = some bytes ∧ bytes.length = GetSizeOfVarInt n ∧
        ReadsBack (ReadVarInt 32) bytes n) ∧
      (∀ (input rest : List UInt8) (v : BitVec 32), (ReadVarInt 32).run input = some (v, rest) →
        ∃ bytes, WriteVarInt 32 v = some bytes ∧ input = bytes ++ rest) ∧
      (∀ (x : Nat) (rest : List UInt8), (ReadVarInt 32).run (msbVarint x ++ rest) =
        if x < 2 ^ 32 then some (BitVec.ofNat 32 x, rest) else none) :=
  ⟨by decide, varInt_bijection (by decide)⟩

/-! ## Coin database keys -/

/-- `DB_COIN`, the key byte of every coin record. -/
def DB_COIN : UInt8 := 0x43

namespace CoinEntry

/-- `CoinEntry::Serialize`: the key byte, the hash, then `VARINT(outpoint->n)`. -/
def Serialize (outpoint : COutPoint) : Option (List UInt8) := do
  let n ← WriteVarInt 32 outpoint.n.toBitVec
  Pure.pure (DB_COIN :: (outpoint.hash.toByteVector ++ n))

/-- `CoinEntry::Unserialize`: the key byte, the hash, then `VARINT(outpoint->n)`. -/
def Unserialize : Reader (UInt8 × COutPoint) := do
  let key ← readByte
  let hash ← readUint256
  let n ← ReadVarInt 32
  Pure.pure (key, ⟨hash, UInt32.ofBitVec n⟩)

end CoinEntry

end Kevacoin
