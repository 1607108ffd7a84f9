import Kevacoin.Data.MerkleTree
import Kevacoin.Data.Except
import Kevacoin.Primitives.Block

/-!
# Merkle roots of blocks

`MerkleComputation` in `consensus/merkle.cpp`, as `ComputeMerkleRoot` and
`BlockMerkleRoot` call it: with no branch to collect, so that the
`matchh` and `matchlevel` bookkeeping has no effect.

The computation keeps, for a counter `count` of the leaves read, the root of
one perfect subtree per set bit of `count` in `inner[level]`.  A new leaf
carries up through the clear low bits of the incremented counter, hashed
behind each subtree it meets, and each such pair is compared (`mutated`).
A final sweep doubles the last entry of every odd level and hashes the
remaining subtrees in front of it; it compares nothing.

The counter is a `uint32_t` and the level an `int`: `count` wraps at
`2^32`, and at level 32 the shift `1 << level` is out of range and the read
of `inner[level]` past the array.  Both are undefined behaviour, and the
model returns `none` there.  The hash of two entries and the null entry
are parameters; `BlockMerkleRoot` takes the double SHA-256 of the 64 bytes
and `uint256()`.

The main result (`ComputeMerkleRoot_eq_levelRoot`): for at most `2^31`
leaves the computation is defined, returns the level-by-level root
`MerkleTree.levelRoot`, and sets `mutated` exactly when two siblings that
are both complete subtrees are equal.  A pair that the sweep hashes, whose
right side holds a doubled entry, is never compared.
-/

namespace Kevacoin

open MerkleTree

variable {α : Type} [DecidableEq α] (hash : α → α → α)

/-- The variables of the leaf loop: `count`, `inner` and `mutated`. -/
structure MerkleState (α : Type) where
  count : Nat
  inner : Nat → α
  mutated : Bool

/--
The loop `for (level = 0; !(count & (1 << level)); level++)`: while bit
`level` of `count` is clear, `inner[level]` is compared with `h` and hashed
in front of it.  `remaining` is `32 - level`: at level 32 the shift and the
read of `inner` are out of range.
-/
def combineLevels (count : Nat) (inner : Nat → α) :
    (remaining level : Nat) → α → Bool → Option (Nat × α × Bool)
  | 0, _, _, _ => none
  | remaining + 1, level, h, mutated =>
      if count &&& (1 <<< level) = 0 then
        combineLevels count inner remaining (level + 1) (hash (inner level) h)
          (mutated || inner level == h)
      else some (level, h, mutated)

/-- One round of the leaf loop: count the leaf, carry it up, store it at the level reached. -/
def addLeaf (state : MerkleState α) (leaf : α) : Option (MerkleState α) := do
  let count := (state.count + 1) % 2 ^ 32
  let (level, h, mutated) ← combineLevels hash count state.inner 32 0 leaf state.mutated
  pure { count, inner := Function.update state.inner level h, mutated }

/-- `while (!(count & (1 << level))) level++;`, the level the sweep starts from. -/
def lowestSetBit (count : Nat) : (remaining level : Nat) → Option Nat
  | 0, _ => none
  | remaining + 1, level =>
      if count &&& (1 <<< level) = 0 then lowestSetBit count remaining (level + 1) else some level

/--
The sweep from `level`: until `count` is `1 << level`, the entry `h` is
hashed with itself, `count` grows by `1 << level`, and the subtrees of the
next clear bits are hashed in front of it; that is the loop of
`combineLevels`, without the comparisons.  Each round raises `level`, so
32 rounds reach the level where the shift is out of range.
-/
def sweep (inner : Nat → α) : (rounds count level : Nat) → α → Option α
  | 0, _, _, _ => none
  | rounds + 1, count, level, h =>
      if count = 1 <<< level then some h
      else
        let count := (count + (1 <<< level)) % 2 ^ 32
        match combineLevels hash count inner (32 - (level + 1)) (level + 1) (hash h h) false with
        | some (level, h, _) => sweep inner rounds count level h
        | none => none

variable (null : α)

/-- `ComputeMerkleRoot`: the root and `mutated`; `none` where the C++ is undefined. -/
def ComputeMerkleRoot (leaves : List α) : Option (α × Bool) :=
  if leaves.length = 0 then some (null, false)
  else do
    let state ← leaves.foldlM (addLeaf hash) ⟨0, fun _ => null, false⟩
    let level ← lowestSetBit state.count 32 0
    let root ← sweep hash state.inner 32 state.count level (state.inner level)
    pure (root, state.mutated)

/-- `BlockMerkleRoot`: the root over the transaction hashes, each pair hashed as 64 bytes. -/
def BlockMerkleRoot (hashes : HashPrimitives) (block : CBlock) : Option (uint256 × Bool) :=
  ComputeMerkleRoot (fun left right => hashes.Hash (left.toByteVector ++ right.toByteVector)) 0
    (block.vtx.map CTransaction.GetHash)

/-! ## The leaf loop -/

section LeafLoop

variable {hash} {leaves : List α} {null : α}

/--
What the leaf loop keeps after `count` leaves: the counter itself, the
perfect subtree of each set bit of `count`, and whether two complete
siblings among the first `count` leaves were equal.
-/
structure LeafLoopInvariant (hash : α → α → α) (leaves : List α) (null : α) (count : Nat)
    (state : MerkleState α) : Prop where
  count_eq : state.count = count
  inner_eq : ∀ level, count / 2 ^ level % 2 = 1 →
    state.inner level = perfect hash leaves null level (count / 2 ^ level - 1)
  mutated_iff : state.mutated = true ↔ ∃ j i, (2 * i + 2) * 2 ^ j ≤ count ∧
    perfect hash leaves null j (2 * i) = perfect hash leaves null j (2 * i + 1)

omit [DecidableEq α] in
theorem leafLoopInvariant_zero :
    LeafLoopInvariant hash leaves null 0 ⟨0, fun _ => null, false⟩ where
  count_eq := rfl
  inner_eq level odd := by simp at odd
  mutated_iff := by
    simp only [Bool.false_eq_true, false_iff, not_exists, not_and]
    intro j i complete
    have pos : 0 < 2 ^ j := Nat.two_pow_pos j
    have : 0 < (2 * i + 2) * 2 ^ j := Nat.mul_pos (by omega) pos
    omega

omit [DecidableEq α] in
/--
At a clear bit of the new count, the stored subtree and the carried one are
the two halves of the subtree one level up.
-/
theorem carry_level {count level : Nat} {inner : Nat → α}
    (stored : ∀ level, count / 2 ^ level % 2 = 1 →
      inner level = perfect hash leaves null level (count / 2 ^ level - 1))
    (clear : (count + 1) % 2 ^ level = 0) (bitClear : (count + 1) / 2 ^ level % 2 = 0) :
    (count + 1) % 2 ^ (level + 1) = 0 ∧ 1 ≤ (count + 1) / 2 ^ (level + 1) ∧
      count / 2 ^ level - 1 = 2 * ((count + 1) / 2 ^ (level + 1) - 1) ∧
      (count + 1) / 2 ^ level - 1 = 2 * ((count + 1) / 2 ^ (level + 1) - 1) + 1 ∧
      inner level = perfect hash leaves null level (2 * ((count + 1) / 2 ^ (level + 1) - 1)) := by
  have clearAbove : (count + 1) % 2 ^ (level + 1) = 0 :=
    (mod_two_pow_succ_eq_zero_iff _ _).mpr ⟨clear, bitClear⟩
  have pos : 0 < 2 ^ (level + 1) := Nat.two_pow_pos (level + 1)
  have quotientPos : 1 ≤ (count + 1) / 2 ^ (level + 1) := by
    rw [Nat.one_le_div_iff pos]
    exact Nat.le_of_dvd (by omega) (Nat.dvd_of_mod_eq_zero clearAbove)
  have halves := div_two_pow_succ (count + 1) level
  have before := succ_div_two_pow count level
  rw [if_pos clear] at before
  have pairIndex : count / 2 ^ level - 1 = 2 * ((count + 1) / 2 ^ (level + 1) - 1) := by omega
  have storedHere := stored level (by omega)
  rw [pairIndex] at storedHere
  exact ⟨clearAbove, quotientPos, pairIndex, by omega, storedHere⟩

/--
The carry of leaf number `count`: from `level`, with the low `level` bits of
`count + 1` clear and `h` the perfect subtree that ends with the leaf, the
loop hashes in the stored subtree of each clear bit, compares the pair,
and stops at the lowest set bit of `count + 1`.
-/
theorem combineLevels_carry {count : Nat} {inner : Nat → α} (fits : count + 1 < 2 ^ 32)
    (stored : ∀ level, count / 2 ^ level % 2 = 1 →
      inner level = perfect hash leaves null level (count / 2 ^ level - 1)) :
    ∀ (remaining level : Nat) (h : α) (mutated : Bool), remaining + level = 32 →
      (count + 1) % 2 ^ level = 0 →
      h = perfect hash leaves null level ((count + 1) / 2 ^ level - 1) →
      ∃ top h' mutated', combineLevels hash (count + 1) inner remaining level h mutated =
          some (top, h', mutated') ∧
        (count + 1) % 2 ^ top = 0 ∧ (count + 1) / 2 ^ top % 2 = 1 ∧
        h' = perfect hash leaves null top ((count + 1) / 2 ^ top - 1) ∧
        (mutated' = true ↔ mutated = true ∨ ∃ j i, level ≤ j ∧ (2 * i + 2) * 2 ^ j = count + 1 ∧
          perfect hash leaves null j (2 * i) = perfect hash leaves null j (2 * i + 1))
  | 0, level, _, _, total, clear, _ => by
      rw [Nat.zero_add] at total
      subst total
      rw [Nat.mod_eq_of_lt fits] at clear
      omega
  | remaining + 1, level, h, mutated, total, clear, carried => by
      by_cases bitClear : (count + 1) / 2 ^ level % 2 = 0
      · obtain ⟨clearAbove, quotientPos, -, leafIndex, storedHere⟩ :=
          carry_level stored clear bitClear
        rw [leafIndex] at carried
        obtain ⟨top, h', mutated', run, topClear, topSet, topH, topMutated⟩ :=
          combineLevels_carry fits stored remaining (level + 1) (hash (inner level) h)
            (mutated || inner level == h) (by omega) clearAbove
            (by rw [storedHere, carried]; rfl)
        refine ⟨top, h', mutated', ?_, topClear, topSet, topH, ?_⟩
        · rw [combineLevels, if_pos ((and_shiftLeft_eq_zero_iff _ _).mpr bitClear)]
          exact run
        · rw [topMutated, Bool.or_eq_true, beq_iff_eq, storedHere, carried]
          constructor
          · rintro ((earlier | here) | ⟨j, i, above, complete, equal⟩)
            · exact Or.inl earlier
            · refine Or.inr ⟨level, (count + 1) / 2 ^ (level + 1) - 1, le_refl _, ?_, here⟩
              exact pair_complete_iff.mpr ⟨clearAbove, by omega⟩
            · exact Or.inr ⟨j, i, by omega, complete, equal⟩
          · rintro (earlier | ⟨j, i, atLeast, complete, equal⟩)
            · exact Or.inl (Or.inl earlier)
            · rcases Nat.eq_or_lt_of_le atLeast with here | above
              · subst here
                have index := (pair_complete_iff.mp complete).2
                have same : i = (count + 1) / 2 ^ (level + 1) - 1 := by omega
                subst same
                exact Or.inl (Or.inr equal)
              · exact Or.inr ⟨j, i, above, complete, equal⟩
      · have bitSet : (count + 1) / 2 ^ level % 2 = 1 := by omega
        refine ⟨level, h, mutated, ?_, clear, bitSet, carried, ?_⟩
        · rw [combineLevels, if_neg (fun zero => bitClear ((and_shiftLeft_eq_zero_iff _ _).mp zero))]
        · constructor
          · exact Or.inl
          · rintro (earlier | ⟨j, i, atLeast, complete, _⟩)
            · exact earlier
            · exact absurd (pair_complete_iff.mp complete).1
                (mod_two_pow_ne_zero_of_lt bitSet (by omega))

/-- One more leaf keeps the invariant while the counter stays below `2^32`. -/
theorem addLeaf_invariant {count : Nat} {state : MerkleState α} (inside : count < leaves.length)
    (fits : count + 1 < 2 ^ 32) (holds : LeafLoopInvariant hash leaves null count state) :
    ∃ next, addLeaf hash state leaves[count] = some next ∧
      LeafLoopInvariant hash leaves null (count + 1) next := by
  have counted : (state.count + 1) % 2 ^ 32 = count + 1 := by
    rw [holds.count_eq, Nat.mod_eq_of_lt fits]
  have leaf : leaves[count] = perfect hash leaves null 0 ((count + 1) / 2 ^ 0 - 1) := by
    simp [perfect, List.getD_eq_getElem?_getD, List.getElem?_eq_getElem inside]
  obtain ⟨top, h', mutated', run, topClear, topSet, topH, topMutated⟩ :=
    combineLevels_carry fits holds.inner_eq 32 0 leaves[count] state.mutated rfl
      (by rw [Nat.pow_zero, Nat.mod_one]) leaf
  refine ⟨⟨count + 1, Function.update state.inner top h', mutated'⟩, ?_, ?_⟩
  · simp only [addLeaf, counted, run]
    rfl
  · constructor
    · rfl
    · intro level odd
      dsimp only
      rcases lt_trichotomy level top with below | here | above
      · exact absurd (bit_eq_zero_of_lt topClear below) (by omega)
      · subst here
        rw [Function.update_self]
        exact topH
      · have carried := succ_div_two_pow count level
        rw [if_neg (mod_two_pow_ne_zero_of_lt topSet above), Nat.add_zero] at carried
        rw [Function.update_of_ne (Nat.ne_of_gt above), carried]
        rw [carried] at odd
        exact holds.inner_eq level odd
    · rw [topMutated, holds.mutated_iff]
      constructor
      · rintro (⟨j, i, complete, equal⟩ | ⟨j, i, -, complete, equal⟩)
        · exact ⟨j, i, by omega, equal⟩
        · exact ⟨j, i, by omega, equal⟩
      · rintro ⟨j, i, complete, equal⟩
        rcases Nat.lt_or_eq_of_le complete with earlier | last
        · exact Or.inl ⟨j, i, by omega, equal⟩
        · exact Or.inr ⟨j, i, Nat.zero_le j, last, equal⟩

/-- Below `2^32` leaves the leaf loop runs through and keeps the invariant. -/
theorem foldlM_addLeaf (small : leaves.length < 2 ^ 32) :
    ∃ state, leaves.foldlM (addLeaf hash) ⟨0, fun _ => null, false⟩ = some state ∧
      LeafLoopInvariant hash leaves null leaves.length state := by
  obtain ⟨state, run, holds⟩ := Option.foldlM_progress
    (fun count state => LeafLoopInvariant hash leaves null count state) leaves 0 _
    leafLoopInvariant_zero fun k inside current holdsAt => by
      rw [Nat.zero_add] at holdsAt ⊢
      exact addLeaf_invariant inside (by omega) holdsAt
  rw [Nat.zero_add] at holds
  exact ⟨state, run, holds⟩

end LeafLoop

/-! ## The sweep -/

omit [DecidableEq α] in
/-- The sweep starts at the lowest set bit of a nonzero 32-bit count. -/
theorem lowestSetBit_eq {count : Nat} (pos : 0 < count) (fits : count < 2 ^ 32) :
    ∀ remaining level, remaining + level = 32 → count % 2 ^ level = 0 →
      ∃ low, lowestSetBit count remaining level = some low ∧
        count % 2 ^ low = 0 ∧ count / 2 ^ low % 2 = 1
  | 0, level, total, clear => by
      rw [Nat.zero_add] at total
      subst total
      rw [Nat.mod_eq_of_lt fits] at clear
      omega
  | remaining + 1, level, total, clear => by
      by_cases bitClear : count / 2 ^ level % 2 = 0
      · rw [lowestSetBit, if_pos ((and_shiftLeft_eq_zero_iff _ _).mpr bitClear)]
        exact lowestSetBit_eq pos fits remaining (level + 1) (by omega)
          ((mod_two_pow_succ_eq_zero_iff _ _).mpr ⟨clear, bitClear⟩)
      · rw [lowestSetBit, if_neg (fun zero => bitClear ((and_shiftLeft_eq_zero_iff _ _).mp zero))]
        exact ⟨level, rfl, clear, by omega⟩

section Sweep

variable {hash} {leaves : List α} {null : α} {inner : Nat → α}

omit [DecidableEq α] in
/--
An even level above the lowest set bit of the number of leaves ends with
the stored subtree and one entry more, which make the last entry of the
level above; the padded count is whole there too.
-/
theorem sweep_level
    (stored : ∀ level, leaves.length / 2 ^ level % 2 = 1 →
      inner level = perfect hash leaves null level (leaves.length / 2 ^ level - 1))
    {low level count : Nat} (lowSet : leaves.length / 2 ^ low % 2 = 1) (above : low < level)
    (padded : count = levelSize leaves.length level * 2 ^ level)
    (even : levelSize leaves.length level % 2 = 0) :
    levelSize leaves.length level = leaves.length / 2 ^ level + 1 ∧
      inner level = node hash leaves null level (levelSize leaves.length level - 2) ∧
      (levelSize leaves.length level - 1) * 2 ^ level < leaves.length ∧
      hash (node hash leaves null level (levelSize leaves.length level - 2))
          (node hash leaves null level (levelSize leaves.length level - 1)) =
        node hash leaves null (level + 1) (levelSize leaves.length (level + 1) - 1) ∧
      levelSize leaves.length (level + 1) = levelSize leaves.length level / 2 ∧
      count = levelSize leaves.length (level + 1) * 2 ^ (level + 1) := by
  have pos : 0 < 2 ^ level := Nat.two_pow_pos level
  have uneven : leaves.length % 2 ^ level ≠ 0 := mod_two_pow_ne_zero_of_lt lowSet above
  have sizeEq : levelSize leaves.length level = leaves.length / 2 ^ level + 1 :=
    levelSize_of_mod_ne_zero uneven
  have sizeUp := levelSize_succ leaves.length level
  generalize levelSize leaves.length level = size at even padded sizeEq sizeUp ⊢
  have storedHere := stored level (by omega)
  have split : size - 2 + 1 = leaves.length / 2 ^ level := by
    generalize leaves.length / 2 ^ level = quotient at sizeEq ⊢
    omega
  have complete : (size - 2 + 1) * 2 ^ level ≤ leaves.length := by
    rw [split]
    exact Nat.div_mul_le_self _ _
  have storedNode : inner level = node hash leaves null level (size - 2) := by
    rw [storedHere, node_eq_perfect hash leaves null level (size - 2) complete]
    congr 1
    omega
  have sibling : (size - 1) * 2 ^ level < leaves.length := by
    rw [sizeEq, Nat.add_sub_cancel]
    exact Nat.lt_of_le_of_ne (Nat.div_mul_le_self _ _) fun same =>
      uneven (by rw [← same, Nat.mul_mod_left])
  replace sizeUp : levelSize leaves.length (level + 1) = size / 2 := by omega
  have nodeUp : hash (node hash leaves null level (size - 2)) (node hash leaves null level (size - 1)) =
      node hash leaves null (level + 1) (levelSize leaves.length (level + 1) - 1) := by
    rw [sizeUp, node, show 2 * (size / 2 - 1) = size - 2 by omega,
      show size - 2 + 1 = size - 1 by omega, if_pos sibling]
  have countUp : count = levelSize leaves.length (level + 1) * 2 ^ (level + 1) := by
    have halves : size / 2 * 2 = size := Nat.div_mul_cancel (Nat.dvd_of_mod_eq_zero even)
    calc count = size / 2 * 2 * 2 ^ level := by rw [halves, padded]
      _ = levelSize leaves.length (level + 1) * 2 ^ (level + 1) := by
        rw [sizeUp, Nat.pow_succ, Nat.mul_assoc, Nat.mul_comm 2]
  exact ⟨sizeEq, storedNode, sibling, nodeUp, sizeUp, countUp⟩

/--
The carry of the sweep, at a count padded to whole entries of `level`:
above the lowest set bit of the number of leaves, each clear bit of the
padded count is an even level, whose last two entries are the stored
subtree and `h`; the loop stops at the next odd level.
-/
theorem combineLevels_sweep
    (stored : ∀ level, leaves.length / 2 ^ level % 2 = 1 →
      inner level = perfect hash leaves null level (leaves.length / 2 ^ level - 1))
    {low : Nat} (lowSet : leaves.length / 2 ^ low % 2 = 1) {count : Nat}
    (countSmall : count < 2 ^ 32) :
    ∀ (remaining level : Nat) (h : α) (mutated : Bool), remaining + level = 32 → low < level →
      count = levelSize leaves.length level * 2 ^ level →
      h = node hash leaves null level (levelSize leaves.length level - 1) →
      ∃ top h' mutated', combineLevels hash count inner remaining level h mutated =
          some (top, h', mutated') ∧
        level ≤ top ∧ count = levelSize leaves.length top * 2 ^ top ∧
        levelSize leaves.length top % 2 = 1 ∧
        h' = node hash leaves null top (levelSize leaves.length top - 1) ∧
        levelRoot hash null (levelList hash leaves null level) =
          levelRoot hash null (levelList hash leaves null top)
  | 0, level, _, _, total, _, padded, _ => by
      rw [Nat.zero_add] at total
      subst total
      have nonempty := levelSize_pos 32 (show 0 < leaves.length by
        by_contra empty
        rw [Nat.eq_zero_of_not_pos empty, Nat.zero_div] at lowSet
        omega)
      have wide : 2 ^ 32 ≤ levelSize leaves.length 32 * 2 ^ 32 := Nat.le_mul_of_pos_left _ nonempty
      omega
  | remaining + 1, level, h, mutated, total, above, padded, last => by
      have pos : 0 < 2 ^ level := Nat.two_pow_pos level
      have digits : count / 2 ^ level = levelSize leaves.length level := by
        rw [padded, Nat.mul_div_cancel _ pos]
      have nonempty := levelSize_pos level (show 0 < leaves.length by
        by_contra empty
        rw [Nat.eq_zero_of_not_pos empty, Nat.zero_div] at lowSet
        omega)
      by_cases even : levelSize leaves.length level % 2 = 0
      · obtain ⟨-, storedNode, -, nodeUp, sizeUp, countUp⟩ :=
          sweep_level stored lowSet above padded even
        obtain ⟨top, h', mutated', run, atLeast, topPadded, topOdd, topH, topRoot⟩ :=
          combineLevels_sweep stored lowSet countSmall remaining (level + 1)
            (hash (inner level) h) (mutated || inner level == h) (by omega) (by omega) countUp
            (by rw [storedNode, last, nodeUp])
        refine ⟨top, h', mutated', ?_, by omega, topPadded, topOdd, topH, ?_⟩
        · rw [combineLevels, if_pos ((and_shiftLeft_eq_zero_iff _ _).mpr (by rw [digits]; exact even))]
          exact run
        · rw [levelRoot_levelList_succ hash leaves null (by omega), topRoot]
      · refine ⟨level, h, mutated, ?_, le_refl _, padded, by omega, last, rfl⟩
        rw [combineLevels, if_neg (fun zero => even (by
          rw [← digits]
          exact (and_shiftLeft_eq_zero_iff _ _).mp zero))]

omit [DecidableEq α] in
/-- Padding an odd level with one entry gives a whole count of the level above. -/
theorem sweep_pad {level count : Nat}
    (padded : count = levelSize leaves.length level * 2 ^ level)
    (odd : levelSize leaves.length level % 2 = 1) :
    count + (1 <<< level) = levelSize leaves.length (level + 1) * 2 ^ (level + 1) := by
  have sizeUp := levelSize_succ leaves.length level
  have halves : (levelSize leaves.length level + 1) / 2 * 2 = levelSize leaves.length level + 1 := by
    omega
  calc count + (1 <<< level) = (levelSize leaves.length level + 1) / 2 * 2 * 2 ^ level := by
        rw [halves, padded, Nat.shiftLeft_eq, Nat.one_mul, Nat.succ_mul]
    _ = levelSize leaves.length (level + 1) * 2 ^ (level + 1) := by
        rw [sizeUp, Nat.pow_succ, Nat.mul_assoc, Nat.mul_comm 2]

omit [DecidableEq α] in
/-- The last entry of an odd level has no sibling: hashed with itself it is the entry above. -/
theorem sweep_double (hash : α → α → α) (null : α) {level : Nat}
    (odd : levelSize leaves.length level % 2 = 1) :
    ¬ levelSize leaves.length level * 2 ^ level < leaves.length ∧
      hash (node hash leaves null level (levelSize leaves.length level - 1))
          (node hash leaves null level (levelSize leaves.length level - 1)) =
        node hash leaves null (level + 1) (levelSize leaves.length (level + 1) - 1) := by
  have sizeUp := levelSize_succ leaves.length level
  have alone : ¬ levelSize leaves.length level * 2 ^ level < leaves.length := fun below =>
    Nat.lt_irrefl _ (lt_levelSize_iff.mpr below)
  refine ⟨alone, ?_⟩
  rw [sizeUp, node, show 2 * ((levelSize leaves.length level + 1) / 2 - 1) =
      levelSize leaves.length level - 1 by omega,
    show levelSize leaves.length level - 1 + 1 = levelSize leaves.length level by omega,
    if_neg alone]

omit [DecidableEq α] in
/--
A round of the sweep at an odd level of three entries or more: the padded
count grows by one entry to a whole count of the level above, still at most
`2^31`, and the last entry, which has no sibling, hashed with itself is the
last entry of the level above.
-/
theorem sweep_round (hash : α → α → α) (null : α) (small : leaves.length ≤ 2 ^ 31)
    {level count : Nat}
    (padded : count = levelSize leaves.length level * 2 ^ level)
    (odd : levelSize leaves.length level % 2 = 1) (done : levelSize leaves.length level ≠ 1) :
    count ≠ 1 <<< level ∧ level + 1 < 31 ∧
      (count + (1 <<< level)) % 2 ^ 32 = levelSize leaves.length (level + 1) * 2 ^ (level + 1) ∧
      levelSize leaves.length (level + 1) * 2 ^ (level + 1) ≤ 2 ^ 31 ∧
      ¬ levelSize leaves.length level * 2 ^ level < leaves.length ∧
      hash (node hash leaves null level (levelSize leaves.length level - 1))
          (node hash leaves null level (levelSize leaves.length level - 1)) =
        node hash leaves null (level + 1) (levelSize leaves.length (level + 1) - 1) := by
  set size := levelSize leaves.length level with sizeDef
  have pos : 0 < 2 ^ level := Nat.two_pow_pos level
  have nonempty : 0 < size := by omega
  have notTop : count ≠ 1 <<< level := by
    rw [padded, Nat.shiftLeft_eq, Nat.one_mul]
    intro same
    exact done (Nat.eq_of_mul_eq_mul_right pos (by rw [same, Nat.one_mul]))
  have sibling : (size - 1) * 2 ^ level < leaves.length := lt_levelSize_iff.mp (by omega)
  have levelBound : level + 1 < 31 := by
    have twice : 2 ^ (level + 1) ≤ (size - 1) * 2 ^ level := by
      rw [Nat.pow_succ, Nat.mul_comm]
      exact Nat.mul_le_mul_right _ (by omega)
    have below : 2 ^ (level + 1) < 2 ^ 31 := by omega
    exact (Nat.pow_lt_pow_iff_right (show 1 < 2 by decide)).mp below
  have countUpSmall : levelSize leaves.length (level + 1) * 2 ^ (level + 1) ≤ 2 ^ 31 :=
    levelSize_mul_le small (by omega)
  have countUp : (count + (1 <<< level)) % 2 ^ 32 =
      levelSize leaves.length (level + 1) * 2 ^ (level + 1) := by
    rw [sweep_pad padded odd, Nat.mod_eq_of_lt (by omega)]
  exact ⟨notTop, levelBound, countUp, countUpSmall, sweep_double hash null odd⟩

/--
The sweep from an odd level of a padded count returns the level-by-level
root from that level on: a level of one entry is the root, and every other
odd level doubles its last entry before the carry.
-/
theorem sweep_eq
    (stored : ∀ level, leaves.length / 2 ^ level % 2 = 1 →
      inner level = perfect hash leaves null level (leaves.length / 2 ^ level - 1))
    (small : leaves.length ≤ 2 ^ 31) {low : Nat} (lowSet : leaves.length / 2 ^ low % 2 = 1) :
    ∀ (rounds count level : Nat) (h : α), low ≤ level → 32 ≤ level + rounds →
      count ≤ 2 ^ 31 → count = levelSize leaves.length level * 2 ^ level →
      levelSize leaves.length level % 2 = 1 →
      h = node hash leaves null level (levelSize leaves.length level - 1) →
      sweep hash inner rounds count level h =
        some (levelRoot hash null (levelList hash leaves null level))
  | 0, count, level, _, _, enough, countSmall, padded, odd, _ => by
      have whole : 2 ^ level ≤ count := by
        rw [padded]
        exact Nat.le_mul_of_pos_left _ (by omega)
      have wide : 2 ^ 32 ≤ 2 ^ level := Nat.pow_le_pow_right (by decide) (by omega)
      omega
  | rounds + 1, count, level, h, atLeast, enough, countSmall, padded, odd, last => by
      set size := levelSize leaves.length level with sizeDef
      have pos : 0 < 2 ^ level := Nat.two_pow_pos level
      by_cases done : size = 1
      · have top : count = 1 <<< level := by
          rw [padded, done, Nat.one_mul, Nat.shiftLeft_eq, Nat.one_mul]
        rw [sweep, if_pos top, last, done, levelRoot_levelList_of_size_one hash leaves null done]
      · obtain ⟨notTop, levelBound, countUp, countUpSmall, -, doubled⟩ :=
          sweep_round hash null small padded odd done
        obtain ⟨top, h', mutated', run, atLeastTop, topPadded, topOdd, topH, topRoot⟩ :=
          combineLevels_sweep stored lowSet (by omega) (32 - (level + 1)) (level + 1) (hash h h)
            false (by omega) (by omega) rfl (by rw [last, doubled])
        rw [sweep, if_neg notTop]
        dsimp only
        rw [countUp, run]
        dsimp only
        rw [sweep_eq stored small lowSet rounds _ top h' (by omega) (by omega) countUpSmall
            topPadded topOdd topH,
          levelRoot_levelList_succ hash leaves null (j := level) (by omega), topRoot]

omit [DecidableEq α] in
/--
The sweep starts at the lowest set bit of the number of leaves: a whole
count of an odd level, whose last entry is the stored subtree.
-/
theorem sweep_start {state : MerkleState α} {low : Nat}
    (holds : LeafLoopInvariant hash leaves null leaves.length state)
    (lowClear : leaves.length % 2 ^ low = 0) (lowSet : leaves.length / 2 ^ low % 2 = 1) :
    leaves.length = levelSize leaves.length low * 2 ^ low ∧
      levelSize leaves.length low % 2 = 1 ∧
      state.inner low = node hash leaves null low (levelSize leaves.length low - 1) := by
  have sizeLow : levelSize leaves.length low = leaves.length / 2 ^ low :=
    levelSize_of_mod_eq_zero lowClear
  have whole : leaves.length / 2 ^ low * 2 ^ low = leaves.length :=
    Nat.div_mul_cancel (Nat.dvd_of_mod_eq_zero lowClear)
  refine ⟨by rw [sizeLow, whole], by rw [sizeLow]; exact lowSet, ?_⟩
  rw [holds.inner_eq low lowSet, sizeLow, node_eq_perfect hash leaves null low _ (by
    rw [Nat.sub_add_cancel (by omega), whole])]

end Sweep

/-! ## The root -/

/--
`ComputeMerkleRoot` over at most `2^31` leaves is defined, returns the
level-by-level root, and sets `mutated` exactly when two siblings that are
both complete subtrees are equal.
-/
theorem ComputeMerkleRoot_eq_levelRoot (hash : α → α → α) (null : α) (leaves : List α)
    (small : leaves.length ≤ 2 ^ 31) :
    ∃ mutated, ComputeMerkleRoot hash null leaves = some (levelRoot hash null leaves, mutated) ∧
      (mutated = true ↔ ∃ j i, (2 * i + 2) * 2 ^ j ≤ leaves.length ∧
        node hash leaves null j (2 * i) = node hash leaves null j (2 * i + 1)) := by
  by_cases empty : leaves.length = 0
  · rw [List.length_eq_zero_iff.mp empty]
    refine ⟨false, by rw [ComputeMerkleRoot, if_pos List.length_nil, levelRoot], ?_⟩
    simp only [Bool.false_eq_true, List.length_nil, false_iff, not_exists, not_and]
    intro j i complete
    have : 0 < (2 * i + 2) * 2 ^ j := Nat.mul_pos (by omega) (Nat.two_pow_pos j)
    omega
  · obtain ⟨state, run, holds⟩ := @foldlM_addLeaf _ _ hash leaves null (by omega)
    obtain ⟨low, lowRun, lowClear, lowSet⟩ :=
      @lowestSetBit_eq leaves.length (by omega) (by omega) 32 0 rfl (Nat.mod_one _)
    obtain ⟨padded, odd, start⟩ := sweep_start holds lowClear lowSet
    have swept := sweep_eq holds.inner_eq small lowSet 32 leaves.length low (state.inner low)
      (le_refl _) (by omega) small padded odd start
    have lowLevels : levelRoot hash null leaves =
        levelRoot hash null (levelList hash leaves null low) := by
      have reach : 2 ^ low ≤ leaves.length := Nat.le_of_dvd (by omega) (Nat.dvd_of_mod_eq_zero lowClear)
      have levels := levelRoot_levelList_add hash leaves null (j := 0) low fun d below => by
        rw [Nat.zero_add]
        exact Nat.lt_of_lt_of_le (Nat.pow_lt_pow_right (by decide) below) reach
      rwa [Nat.zero_add, levelList_zero] at levels
    refine ⟨state.mutated, ?_, ?_⟩
    · rw [ComputeMerkleRoot, if_neg empty, lowLevels]
      simp [run, holds.count_eq, lowRun, swept]
    · rw [holds.mutated_iff]
      constructor
      · rintro ⟨j, i, complete, equal⟩
        obtain ⟨left, right⟩ := node_pair_eq_perfect hash leaves null complete
        exact ⟨j, i, complete, by rw [left, right, equal]⟩
      · rintro ⟨j, i, complete, equal⟩
        obtain ⟨left, right⟩ := node_pair_eq_perfect hash leaves null complete
        exact ⟨j, i, complete, by rw [← left, ← right, equal]⟩

theorem ComputeMerkleRoot_eq_levelRoot_three_leaves :
    [1, 2, 0].length ≤ 2 ^ 31 ∧
    ∃ mutated, ComputeMerkleRoot (fun x y => (x + y) % 3) 0 [1, 2, 0] =
        some (levelRoot (fun x y => (x + y) % 3) 0 [1, 2, 0], mutated) ∧
      (mutated = true ↔ ∃ j i, (2 * i + 2) * 2 ^ j ≤ [1, 2, 0].length ∧
        node (fun x y => (x + y) % 3) [1, 2, 0] 0 j (2 * i) =
          node (fun x y => (x + y) % 3) [1, 2, 0] 0 j (2 * i + 1)) :=
  ⟨by decide, ComputeMerkleRoot_eq_levelRoot _ 0 [1, 2, 0] (by decide)⟩

/--
Over the leaves `1, 2, 0` with the hash `(x + y) % 3`, level one is `0, 0`:
two real siblings, the second the doubled last leaf, that are equal.  The
sweep hashes them without comparing, so `mutated` stays false.
-/
theorem mutated_misses_sweep_pair :
    ComputeMerkleRoot (fun x y => (x + y) % 3) 0 [1, 2, 0] = some (0, false) ∧
      pairUp (fun x y => (x + y) % 3) [1, 2, 0] = [0, 0] ∧
      levelMutated (fun x y => (x + y) % 3) [1, 2, 0] = true := by
  refine ⟨by decide, by decide, ?_⟩
  simp [levelMutated, siblingsEqual, pairUp]

/-! ## Above `2^31` leaves -/

end Kevacoin
