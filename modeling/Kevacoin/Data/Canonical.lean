import Kevacoin.Data.Bytes

/-!
# Canonical readers

A reader is canonical for an encoding when every input it accepts begins
with the encoding of the value it returns: no value has a second spelling
that the reader takes.  Together with the round trip (`ReadsBack`) this
makes the encoding a bijection between the values and the inputs the
reader accepts.

Here for the little-endian integers of a fixed width (`run_readLE`), on
which the readers of marked forms build, and for the most-significant-first
varint (`canonical_readMsbVarint`).  The varint reader into a type whose
largest value `max` ends in seven one bits also never returns a value past
`max`, and refuses the encoding of every number past it
(`run_readMsbVarint_msbVarint`): it reads any encoded number exactly, or
not at all.
-/

namespace Bytes

/-- Every input `read` accepts begins with the encoding of the value it returns. -/
def Canonical {α : Type} (read : Reader α) (encode : α → List UInt8) : Prop :=
  ∀ input value rest, read.run input = some (value, rest) → input = encode value ++ rest

/-! ## Inverting a run -/

section Inversion

variable {α β : Type}

/-- A bound reader that succeeds ran its first reader to success. -/
theorem run_bind_eq_some {x : Reader α} {f : α → Reader β} {input rest : List UInt8} {b : β}
    (ran : (x >>= f).run input = some (b, rest)) :
    ∃ a after, x.run input = some (a, after) ∧ (f a).run after = some (b, rest) := by
  rw [StateT.run_bind] at ran
  cases first : x.run input with
  | none =>
    rw [first] at ran
    cases ran
  | some result =>
    rw [first] at ran
    exact ⟨result.1, result.2, rfl, ran⟩

theorem run_readByte_eq_some {input rest : List UInt8} {byte : UInt8}
    (ran : readByte.run input = some (byte, rest)) : input = byte :: rest := by
  cases input with
  | nil => cases ran
  | cons first after =>
    cases ran
    rfl

theorem run_pure_eq_some {a b : α} {input rest : List UInt8}
    (ran : (Pure.pure a : Reader α).run input = some (b, rest)) : a = b ∧ input = rest := by
  cases ran
  exact ⟨rfl, rfl⟩

end Inversion

/-! ## Little-endian integers -/

/-- An accepted little-endian integer is the bytes of its value, and fits its width. -/
theorem run_readLE : ∀ {width : Nat} {input rest : List UInt8} {value : Nat},
    (readLE width).run input = some (value, rest) →
      input = leBytes width value ++ rest ∧ value < 256 ^ width
  | 0, _, _, _, ran => by
    obtain ⟨rfl, rfl⟩ := run_pure_eq_some ran
    exact ⟨rfl, Nat.one_pos⟩
  | width + 1, input, rest, value, ran => by
    obtain ⟨low, after, readLow, ran⟩ := run_bind_eq_some ran
    obtain ⟨high, after', readHigh, ran⟩ := run_bind_eq_some ran
    obtain ⟨rfl, rfl⟩ := run_pure_eq_some ran
    obtain ⟨highBytes, highFits⟩ := run_readLE readHigh
    have lowFits := low.toNat_lt
    have digit : UInt8.ofNat (low.toNat + 256 * high) = low := by
      apply UInt8.toNat_inj.mp
      rw [UInt8.toNat_ofNat']
      omega
    have quotient : (low.toNat + 256 * high) / 256 = high := by omega
    refine ⟨?_, ?_⟩
    · rw [run_readByte_eq_some readLow, highBytes, leBytes, digit, quotient]
      rfl
    · rw [Nat.pow_succ]
      omega

/-! ## Varints, most significant group first -/

/-- The accumulator after the continuation groups `groups`, from `n`: each adds its seven bits, then one. -/
def msbContinue (n : Nat) (groups : List UInt8) : Nat :=
  groups.foldl (fun n group => n * 0x80 + group.toNat % 0x80 + 1) n

@[simp]
theorem msbContinue_nil (n : Nat) : msbContinue n [] = n := rfl

theorem msbContinue_cons (n : Nat) (group : UInt8) (groups : List UInt8) :
    msbContinue n (group :: groups) = msbContinue (n * 0x80 + group.toNat % 0x80 + 1) groups :=
  rfl

theorem msbContinue_append_singleton (n : Nat) (groups : List UInt8) (group : UInt8) :
    msbContinue n (groups ++ [group]) = msbContinue n groups * 0x80 + group.toNat % 0x80 + 1 := by
  rw [msbContinue, List.foldl_append]
  rfl

theorem msbVarint_of_gt {value : Nat} (large : 0x7f < value) :
    msbVarint value = msbVarintGroups true (value / 0x80 - 1) ++ [UInt8.ofNat (value % 0x80)] := by
  rw [msbVarint, msbVarintGroups, if_neg (by omega)]
  simp

/-- A number below `128 ^ (k + 1)` has at most `k + 1` groups. -/
theorem length_msbVarintGroups_le (high : Bool) (value : Nat) : ∀ k, value < 0x80 ^ (k + 1) →
    (msbVarintGroups high value).length ≤ k + 1 := by
  induction value using Nat.strongRecOn generalizing high with
  | ind value ih =>
  intro k fits
  rw [msbVarintGroups]
  by_cases small : value ≤ 0x7f
  · rw [if_pos small, List.length_singleton]
    omega
  · rw [if_neg small, List.length_append, List.length_singleton]
    cases k with
    | zero => omega
    | succ k =>
      have quotient : value / 0x80 - 1 < 0x80 ^ (k + 1) := by
        rw [Nat.pow_succ] at fits
        omega
      have earlier := ih (value / 0x80 - 1) (by omega) true k quotient
      omega

/--
What the reader's loop accepts: continuation groups, each with its high bit
set, then a last group without it, and the value they spell from the
accumulator.  Where `max` ends in seven one bits the value is at most `max`:
each turn refuses an accumulator the shift would carry past `max`.
-/
theorem run_readMsbVarintFrom {max : Nat} :
    ∀ {fuel n : Nat} {input rest : List UInt8} {value : Nat},
      (readMsbVarintFrom max fuel n).run input = some (value, rest) →
      ∃ groups last, input = groups ++ last :: rest ∧ (∀ group ∈ groups, 0x80 ≤ group.toNat) ∧
        last.toNat < 0x80 ∧ value = msbContinue n groups * 0x80 + last.toNat ∧
        (max % 0x80 = 0x7f → value ≤ max)
  | 0, _, _, _, _, ran => by cases ran
  | fuel + 1, n, input, rest, value, ran => by
    obtain ⟨chData, after, readOne, ran⟩ := run_bind_eq_some ran
    rw [run_readByte_eq_some readOne]
    by_cases beyond : n > max / 0x80
    · rw [if_pos beyond] at ran
      cases ran
    rw [if_neg beyond] at ran
    by_cases more : chData.toNat ≥ 0x80
    · rw [if_pos more] at ran
      by_cases atMax : n * 0x80 + chData.toNat % 0x80 = max
      · rw [if_pos atMax] at ran
        cases ran
      rw [if_neg atMax] at ran
      obtain ⟨groups, last, split, high, low, spelled, bounded⟩ := run_readMsbVarintFrom ran
      refine ⟨chData :: groups, last, by rw [split]; rfl, ?_, low, ?_, bounded⟩
      · intro group member
        rcases List.mem_cons.mp member with rfl | later
        · exact more
        · exact high group later
      · rw [spelled, msbContinue_cons]
    · rw [if_neg more] at ran
      obtain ⟨rfl, rfl⟩ := run_pure_eq_some ran
      refine ⟨[], chData, rfl, fun _ member => absurd member List.not_mem_nil, by omega, ?_, ?_⟩
      · rw [msbContinue_nil]
        omega
      · intro aligned
        omega

/-- Continuation groups are the groups of the value they spell, less one. -/
theorem msbVarintGroups_msbContinue (groups : List UInt8) (nonempty : groups ≠ [])
    (high : ∀ group ∈ groups, 0x80 ≤ group.toNat) :
    0 < msbContinue 0 groups ∧ msbVarintGroups true (msbContinue 0 groups - 1) = groups := by
  induction groups using List.reverseRecOn with
  | nil => exact absurd rfl nonempty
  | append_singleton front group ih =>
    have groupHigh := high group (List.mem_append_right front List.mem_cons_self)
    have groupLt := group.toNat_lt
    rw [msbContinue_append_singleton, Nat.add_sub_cancel]
    refine ⟨Nat.succ_pos _, ?_⟩
    have byte : UInt8.ofNat ((msbContinue 0 front * 0x80 + group.toNat % 0x80) % 0x80 + 0x80) =
        group := by
      apply UInt8.toNat_inj.mp
      rw [UInt8.toNat_ofNat']
      omega
    rw [msbVarintGroups]
    simp only [if_true]
    rw [byte]
    cases front with
    | nil =>
      rw [if_pos (by rw [msbContinue_nil]; omega)]
      rfl
    | cons first others =>
      obtain ⟨positive, frontGroups⟩ := ih (List.cons_ne_nil first others)
        (fun member inside => high member (List.mem_append_left [group] inside))
      rw [if_neg (by omega), show (msbContinue 0 (first :: others) * 0x80 + group.toNat % 0x80) /
          0x80 - 1 = msbContinue 0 (first :: others) - 1 by omega, frontGroups]

/-- Every input the varint reader accepts begins with the varint of its value. -/
theorem canonical_readMsbVarint (max : Nat) : Canonical (readMsbVarint max) msbVarint := by
  intro input value rest ran
  obtain ⟨groups, last, split, high, low, spelled, -⟩ := run_readMsbVarintFrom ran
  rw [split, spelled]
  cases groups with
  | nil =>
    rw [msbContinue_nil, Nat.zero_mul, Nat.zero_add, msbVarint_of_le (by omega), UInt8.ofNat_toNat]
    rfl
  | cons first others =>
    obtain ⟨positive, groupsEq⟩ := msbVarintGroups_msbContinue (first :: others)
      (List.cons_ne_nil first others) high
    have quotient : (msbContinue 0 (first :: others) * 0x80 + last.toNat) / 0x80 =
        msbContinue 0 (first :: others) := by omega
    have remainder : (msbContinue 0 (first :: others) * 0x80 + last.toNat) % 0x80 = last.toNat := by
      omega
    rw [msbVarint_of_gt (by omega), quotient, remainder, groupsEq, UInt8.ofNat_toNat,
      List.append_assoc]
    rfl

theorem le_of_run_readMsbVarint {max : Nat} (aligned : max % 0x80 = 0x7f) {input rest : List UInt8}
    {value : Nat} (ran : (readMsbVarint max).run input = some (value, rest)) : value ≤ max := by
  obtain ⟨-, -, -, -, -, -, bounded⟩ := run_readMsbVarintFrom ran
  exact bounded aligned

/-- Two numbers whose varints begin one input are the same number, read to the same rest. -/
theorem msbVarint_append_inj {x y : Nat} {rest rest' : List UInt8}
    (same : msbVarint x ++ rest = msbVarint y ++ rest') : x = y ∧ rest = rest' := by
  have readX := readsBack_msbVarint (Nat.le_max_left x y) rest
  have readY := readsBack_msbVarint (Nat.le_max_right x y) rest'
  rw [same, readY] at readX
  cases readX
  exact ⟨rfl, rfl⟩

/--
The varint reader into a type whose largest value `max` ends in seven one
bits reads every encoded number exactly, and refuses the encoding of a
number past `max`.
-/
theorem run_readMsbVarint_msbVarint {max : Nat} (aligned : max % 0x80 = 0x7f) (x : Nat)
    (rest : List UInt8) :
    (readMsbVarint max).run (msbVarint x ++ rest) = if x ≤ max then some (x, rest) else none := by
  by_cases fits : x ≤ max
  · rw [if_pos fits]
    exact readsBack_msbVarint fits rest
  · rw [if_neg fits]
    cases ran : (readMsbVarint max).run (msbVarint x ++ rest) with
    | none => rfl
    | some result =>
      have bounded := le_of_run_readMsbVarint aligned ran
      obtain ⟨same, -⟩ := msbVarint_append_inj (canonical_readMsbVarint max _ _ _ ran)
      omega

end Bytes
