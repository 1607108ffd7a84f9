import Mathlib.Data.Nat.Bitwise
import Mathlib.Order.Basic

/-!
# Merkle trees that double an odd last entry

The Merkle tree that hashes a list level by level: adjacent entries are
hashed in pairs, and a level of odd length pairs its last entry with
itself.  The hash is any function of two entries.

Three descriptions of one tree:
* `levelRoot`, the computation on lists, one level (`pairUp`) at a time;
* `node leaves j i`, entry `i` of level `j` by its position, with
  `levelSize` entries on level `j`;
* `perfect leaves j i`, the root of the perfect subtree over the leaves
  `i * 2^j` to `(i+1) * 2^j - 1`, which is `node j i` whenever those leaves
  all exist (`node_eq_perfect`).

`levelList` lists a level by position, and `pairUp_levelList` says that
pairing up one level gives the next, so `levelRoot` can be followed level
by level (`levelRoot_levelList_succ`, `levelRoot_levelList_of_size_one`).
A constant-space algorithm keeps the perfect subtrees of a binary counter;
the last section has the arithmetic of such a counter.
-/

namespace MerkleTree

variable {α : Type} (hash : α → α → α)

/-! ## Levels as lists -/

/-- The level above `level`: adjacent pairs hashed, an odd last entry with itself. -/
def pairUp : List α → List α
  | [] => []
  | [a] => [hash a a]
  | a :: b :: rest => hash a b :: pairUp rest

theorem length_pairUp : ∀ level : List α, (pairUp hash level).length = (level.length + 1) / 2
  | [] => by simp [pairUp]
  | [_] => by simp [pairUp]
  | _ :: _ :: rest => by
      simp only [pairUp, List.length_cons, length_pairUp rest]
      omega

/-- The root: `null` for no leaves, else the entry left once the levels are paired up to one. -/
def levelRoot (null : α) (level : List α) : α :=
  match level with
  | [] => null
  | [a] => a
  | a :: b :: rest => levelRoot null (pairUp hash (a :: b :: rest))
termination_by level.length
decreasing_by
  simp only [length_pairUp, List.length_cons]
  omega

theorem levelRoot_of_two_le {null : α} {level : List α} (two : 2 ≤ level.length) :
    levelRoot hash null level = levelRoot hash null (pairUp hash level) := by
  match level, two with
  | _ :: _ :: _, _ => rw [levelRoot]

section Mutation

variable [DecidableEq α]

/-- Two real siblings of `level` are equal; the doubled odd entry does not count. -/
def siblingsEqual : List α → Bool
  | a :: b :: rest => a == b || siblingsEqual rest
  | _ => false

/-- On some level, two real siblings are equal. -/
def levelMutated (level : List α) : Bool :=
  match level with
  | a :: b :: rest =>
      siblingsEqual (a :: b :: rest) || levelMutated (pairUp hash (a :: b :: rest))
  | _ => false
termination_by level.length
decreasing_by
  simp only [length_pairUp, List.length_cons]
  omega

end Mutation

/-- `pairUp` by position: entry `i` hashes entries `2i` and `2i+1`, or `2i` twice at an odd end. -/
theorem pairUp_map_range : ∀ (size : Nat) (f : Nat → α),
    pairUp hash ((List.range size).map f) =
      (List.range ((size + 1) / 2)).map fun i =>
        hash (f (2 * i)) (if 2 * i + 1 < size then f (2 * i + 1) else f (2 * i))
  | 0, _ => by simp [pairUp]
  | 1, _ => by simp [pairUp]
  | size + 2, f => by
      have front : (List.range (size + 2)).map f =
          f 0 :: f 1 :: (List.range size).map fun i => f (i + 2) := by
        simp [List.range_succ_eq_map, List.map_map, Function.comp_def]
      have halves : (size + 2 + 1) / 2 = (size + 1) / 2 + 1 := by omega
      rw [front, pairUp, pairUp_map_range size, halves, List.range_succ_eq_map, List.map_cons,
        List.map_map]
      simp only [List.cons.injEq]
      refine ⟨by simp, ?_⟩
      apply List.map_congr_left
      intro i _
      show hash (f (2 * i + 2)) _ = hash (f (2 * (i + 1))) _
      have shift : 2 * (i + 1) = 2 * i + 2 := by omega
      rw [shift]
      split_ifs <;> first | rfl | omega

/-! ## Levels by position -/

/-- The number of entries on level `j` over `count` leaves: `⌈count / 2^j⌉`. -/
def levelSize (count j : Nat) : Nat :=
  (count + 2 ^ j - 1) / 2 ^ j

theorem lt_levelSize_iff {count j k : Nat} : k < levelSize count j ↔ k * 2 ^ j < count := by
  have pos : 0 < 2 ^ j := Nat.two_pow_pos j
  rw [levelSize, ← Nat.succ_le_iff, Nat.le_div_iff_mul_le pos, Nat.succ_mul]
  omega

theorem levelSize_succ (count j : Nat) : levelSize count (j + 1) = (levelSize count j + 1) / 2 := by
  apply eq_of_forall_lt_iff
  intro k
  have double : k * 2 ^ (j + 1) = 2 * k * 2 ^ j := by
    rw [Nat.pow_succ, Nat.mul_comm 2 k, Nat.mul_assoc, Nat.mul_comm 2]
  rw [lt_levelSize_iff, double, ← lt_levelSize_iff]
  omega

theorem levelSize_zero (count : Nat) : levelSize count 0 = count := by
  simp [levelSize]

theorem levelSize_pos {count : Nat} (j : Nat) (pos : 0 < count) : 0 < levelSize count j := by
  rw [lt_levelSize_iff, Nat.zero_mul]
  exact pos

theorem two_le_levelSize_iff {count j : Nat} : 2 ≤ levelSize count j ↔ 2 ^ j < count := by
  rw [show 2 ≤ levelSize count j ↔ 1 < levelSize count j from Iff.rfl, lt_levelSize_iff,
    Nat.one_mul]

/-- A level whose leaves split evenly has no partial last entry. -/
theorem levelSize_of_mod_eq_zero {count j : Nat} (even : count % 2 ^ j = 0) :
    levelSize count j = count / 2 ^ j := by
  have pos : 0 < 2 ^ j := Nat.two_pow_pos j
  have whole : count = count / 2 ^ j * 2 ^ j := (Nat.div_mul_cancel (Nat.dvd_of_mod_eq_zero even)).symm
  apply eq_of_forall_lt_iff
  intro k
  rw [lt_levelSize_iff]
  nth_rewrite 1 [whole]
  exact Nat.mul_lt_mul_right pos

/-- A level whose leaves do not split evenly has one partial last entry. -/
theorem levelSize_of_mod_ne_zero {count j : Nat} (uneven : count % 2 ^ j ≠ 0) :
    levelSize count j = count / 2 ^ j + 1 := by
  have pos : 0 < 2 ^ j := Nat.two_pow_pos j
  have split := Nat.div_add_mod' count (2 ^ j)
  have rest := Nat.mod_lt count pos
  apply eq_of_forall_lt_iff
  intro k
  rw [lt_levelSize_iff, Nat.lt_succ_iff]
  constructor
  · intro below
    by_contra beyond
    have more : (count / 2 ^ j + 1) * 2 ^ j ≤ k * 2 ^ j :=
      Nat.mul_le_mul_right _ (by omega)
    rw [Nat.succ_mul] at more
    omega
  · intro atMost
    have less : k * 2 ^ j ≤ count / 2 ^ j * 2 ^ j := Nat.mul_le_mul_right _ atMost
    omega

/-- Rounded up to whole entries, a level of at most `2^m` leaves still holds at most `2^m`. -/
theorem levelSize_mul_le {count j m : Nat} (fits : count ≤ 2 ^ m) (within : j ≤ m) :
    levelSize count j * 2 ^ j ≤ 2 ^ m := by
  have split : 2 ^ m = 2 ^ (m - j) * 2 ^ j := by
    rw [← Nat.pow_add, Nat.sub_add_cancel within]
  rcases Nat.eq_zero_or_pos (levelSize count j) with empty | nonempty
  · rw [empty, Nat.zero_mul]
    exact Nat.zero_le _
  · have last : (levelSize count j - 1) * 2 ^ j < count := lt_levelSize_iff.mp (by omega)
    have bounded : levelSize count j - 1 < 2 ^ (m - j) :=
      Nat.lt_of_mul_lt_mul_right (a := 2 ^ j) (by omega)
    rw [split]
    exact Nat.mul_le_mul_right _ (by omega)

variable (leaves : List α) (null : α)

/-- Entry `i` of level `j` over `leaves`; a missing right sibling is the left one again. -/
def node : Nat → Nat → α
  | 0, i => leaves.getD i null
  | j + 1, i =>
      hash (node j (2 * i))
        (if (2 * i + 1) * 2 ^ j < leaves.length then node j (2 * i + 1) else node j (2 * i))

/-- The root of the perfect subtree of height `j` over the leaves from `i * 2^j` on. -/
def perfect : Nat → Nat → α
  | 0, i => leaves.getD i null
  | j + 1, i => hash (perfect j (2 * i)) (perfect j (2 * i + 1))

/-- Level `j`, entry by entry. -/
def levelList (j : Nat) : List α :=
  (List.range (levelSize leaves.length j)).map (node hash leaves null j)

/-- Where all its leaves exist, an entry is the root of its perfect subtree. -/
theorem node_eq_perfect : ∀ (j i : Nat), (i + 1) * 2 ^ j ≤ leaves.length →
    node hash leaves null j i = perfect hash leaves null j i
  | 0, _, _ => rfl
  | j + 1, i, complete => by
      have pos : 0 < 2 ^ j := Nat.two_pow_pos j
      have whole : (2 * i + 1 + 1) * 2 ^ j ≤ leaves.length := by
        rw [Nat.pow_succ] at complete
        have same : (2 * i + 1 + 1) * 2 ^ j = (i + 1) * (2 ^ j * 2) := by
          rw [show 2 * i + 1 + 1 = (i + 1) * 2 by omega, Nat.mul_assoc, Nat.mul_comm 2 (2 ^ j)]
        omega
      have left : (2 * i + 1) * 2 ^ j ≤ leaves.length := by
        rw [Nat.succ_mul] at whole
        omega
      have sibling : (2 * i + 1) * 2 ^ j < leaves.length := by
        rw [Nat.succ_mul] at whole
        omega
      rw [node, perfect, if_pos sibling, node_eq_perfect j (2 * i) left,
        node_eq_perfect j (2 * i + 1) whole]

/-- Both siblings of a complete pair are perfect subtrees. -/
theorem node_pair_eq_perfect {j i : Nat} (complete : (2 * i + 2) * 2 ^ j ≤ leaves.length) :
    node hash leaves null j (2 * i) = perfect hash leaves null j (2 * i) ∧
      node hash leaves null j (2 * i + 1) = perfect hash leaves null j (2 * i + 1) := by
  have split : (2 * i + 2) * 2 ^ j = (2 * i + 1) * 2 ^ j + 2 ^ j := Nat.succ_mul _ _
  have pos : 0 < 2 ^ j := Nat.two_pow_pos j
  exact ⟨node_eq_perfect hash leaves null j (2 * i) (by omega),
    node_eq_perfect hash leaves null j (2 * i + 1) complete⟩

theorem levelList_zero : levelList hash leaves null 0 = leaves := by
  apply List.ext_getElem
  · simp [levelList, levelSize_zero]
  · intro i _ present
    simp only [levelList, List.getElem_map, List.getElem_range, node]
    rw [List.getD_eq_getElem?_getD, List.getElem?_eq_getElem present, Option.getD_some]

/-- Pairing up a level gives the level above. -/
theorem pairUp_levelList (j : Nat) :
    pairUp hash (levelList hash leaves null j) = levelList hash leaves null (j + 1) := by
  rw [levelList, pairUp_map_range, ← levelSize_succ, levelList]
  apply List.map_congr_left
  intro i _
  simp only [node, lt_levelSize_iff]

theorem levelRoot_levelList_succ {j : Nat} (two : 2 ≤ levelSize leaves.length j) :
    levelRoot hash null (levelList hash leaves null j) =
      levelRoot hash null (levelList hash leaves null (j + 1)) := by
  rw [levelRoot_of_two_le hash (by simpa [levelList] using two), pairUp_levelList]

/-- Over levels that all hold two entries or more, the root is the root of the level above them. -/
theorem levelRoot_levelList_add {j : Nat} :
    ∀ m : Nat, (∀ d, d < m → 2 ^ (j + d) < leaves.length) →
      levelRoot hash null (levelList hash leaves null j) =
        levelRoot hash null (levelList hash leaves null (j + m))
  | 0, _ => rfl
  | m + 1, wide => by
      rw [levelRoot_levelList_add m fun d below => wide d (by omega),
        levelRoot_levelList_succ hash leaves null (two_le_levelSize_iff.mpr (wide m (by omega)))]
      rfl

theorem levelRoot_levelList_of_size_one {j : Nat} (one : levelSize leaves.length j = 1) :
    levelRoot hash null (levelList hash leaves null j) = node hash leaves null j 0 := by
  rw [levelList, one, List.range_one, List.map_cons, List.map_nil, levelRoot]

/-! ## Branches -/

/--
The entry paired with entry `i` of level `j`: the one before it at an odd
position, the one after it at an even position, or entry `i` itself where
that one is missing.
-/
def sibling (j i : Nat) : α :=
  if i % 2 = 1 then node hash leaves null j (i - 1)
  else if (i + 1) * 2 ^ j < leaves.length then node hash leaves null j (i + 1)
  else node hash leaves null j i

theorem and_shiftLeft_eq_zero_iff (count level : Nat) :
    count &&& (1 <<< level) = 0 ↔ count / 2 ^ level % 2 = 0 := by
  rw [Nat.shiftLeft_eq, Nat.one_mul, Nat.and_two_pow, Nat.testBit_eq_decide_div_mod_eq]
  have pos : 0 < 2 ^ level := Nat.two_pow_pos level
  by_cases odd : count / 2 ^ level % 2 = 1
  · simp [odd]
  · simp [odd]
    omega

/-- The low `level + 1` bits are clear when the low `level` are and so is bit `level`. -/
theorem mod_two_pow_succ_eq_zero_iff (count level : Nat) :
    count % 2 ^ (level + 1) = 0 ↔ count % 2 ^ level = 0 ∧ count / 2 ^ level % 2 = 0 := by
  have pos : 0 < 2 ^ level := Nat.two_pow_pos level
  rw [Nat.mod_pow_succ, Nat.add_eq_zero_iff, Nat.mul_eq_zero]
  constructor
  · rintro ⟨low, zero | bit⟩
    · omega
    · exact ⟨low, bit⟩
  · rintro ⟨low, bit⟩
    exact ⟨low, Or.inr bit⟩

theorem div_two_pow_succ (count level : Nat) :
    count / 2 ^ (level + 1) = count / 2 ^ level / 2 := by
  rw [Nat.pow_succ, Nat.div_div_eq_div_mul]

/-- Counting one more moves the digits above `level` only when the low `level` bits carry. -/
theorem succ_div_two_pow (count level : Nat) :
    (count + 1) / 2 ^ level =
      count / 2 ^ level + if (count + 1) % 2 ^ level = 0 then 1 else 0 := by
  rw [Nat.succ_div]
  simp only [Nat.dvd_iff_mod_eq_zero]

/-- Below a counter's lowest set bit, every bit is clear. -/
theorem bit_eq_zero_of_lt {count lowest level : Nat} (low : count % 2 ^ lowest = 0)
    (below : level < lowest) : count / 2 ^ level % 2 = 0 := by
  have divides : 2 ^ (level + 1) ∣ count :=
    Nat.dvd_trans (Nat.pow_dvd_pow 2 below) (Nat.dvd_of_mod_eq_zero low)
  exact ((mod_two_pow_succ_eq_zero_iff count level).mp (Nat.mod_eq_zero_of_dvd divides)).2

/-- Above a set bit, the low bits of a counter are never all clear. -/
theorem mod_two_pow_ne_zero_of_lt {count bit level : Nat} (set : count / 2 ^ bit % 2 = 1)
    (above : bit < level) : count % 2 ^ level ≠ 0 := by
  intro clear
  have divides : 2 ^ (bit + 1) ∣ count :=
    Nat.dvd_trans (Nat.pow_dvd_pow 2 above) (Nat.dvd_of_mod_eq_zero clear)
  have cleared := ((mod_two_pow_succ_eq_zero_iff count bit).mp (Nat.mod_eq_zero_of_dvd divides)).2
  omega

/-- A pair of siblings on level `level` is complete exactly at the count of its last leaf. -/
theorem pair_complete_iff {count level i : Nat} :
    (2 * i + 2) * 2 ^ level = count ↔
      count % 2 ^ (level + 1) = 0 ∧ i + 1 = count / 2 ^ (level + 1) := by
  have pos : 0 < 2 ^ (level + 1) := Nat.two_pow_pos (level + 1)
  have pair : (2 * i + 2) * 2 ^ level = (i + 1) * 2 ^ (level + 1) := by
    rw [Nat.pow_succ, show 2 * i + 2 = (i + 1) * 2 by omega, Nat.mul_assoc, Nat.mul_comm 2]
  rw [pair]
  constructor
  · rintro rfl
    exact ⟨Nat.mul_mod_left _ _, (Nat.mul_div_cancel _ pos).symm⟩
  · rintro ⟨clear, quotient⟩
    rw [quotient, Nat.div_mul_cancel (Nat.dvd_of_mod_eq_zero clear)]

end MerkleTree
