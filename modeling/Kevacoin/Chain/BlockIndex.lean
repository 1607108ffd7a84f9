import Kevacoin.Primitives.Block
import Mathlib.Data.Nat.Bitwise

/-!
# The block tree and the active chain

`chain.h` and `chain.cpp`.  A `CBlockIndex*` is `nullptr` or an entry with
its block hash, height, status, the pointer `pprev` to its parent and the
skip pointer `pskip` to an earlier ancestor, which `BuildSkip` sets to
`pprev->GetAncestor(GetSkipHeight(nHeight))`.  `GetAncestor` walks back
through `pskip` where that does not overshoot and through `pprev`
otherwise.  `CChain` is the vector of the active chain, indexed by height.

The model keeps pointers as the tree values they point to, so two
pointers are equal when the trees are; distinct blocks have distinct
hashes, so this is identity for the trees the node builds.  Those are the
`WellFormed` ones, built from a genesis entry by `extend`, which is
`AddToBlockIndex` on a known parent.  On them `GetAncestor` is the plain
walk back through `pprev` (`GetAncestor_eq_prevN`), whatever shortcuts the
skip pointers take, and the chain `SetTip` builds holds at each height the
tip's ancestor at that height (`atHeight_SetTip`).
-/

namespace Kevacoin

/-- A `CBlockIndex*`: `nullptr`, or an entry with hash, height, status, `pprev` and `pskip`. -/
inductive CBlockIndex where
  | null
  | entry (hashBlock : uint256) (nHeight : Int) (nStatus : UInt32)
      (pprev pskip : CBlockIndex)
deriving DecidableEq, Repr

namespace CBlockIndex

/-- The pointer is `nullptr`. -/
def isNull : CBlockIndex → Bool
  | .null => true
  | .entry .. => false

/-- `nHeight`; the source never reads it through `nullptr`. -/
def nHeight : CBlockIndex → Int
  | .null => 0
  | .entry _ nHeight _ _ _ => nHeight

/-- `GetBlockHash`, `none` where the source dereferences `nullptr`. -/
def GetBlockHash : CBlockIndex → Option uint256
  | .null => none
  | .entry hashBlock _ _ _ _ => some hashBlock

/-- `nStatus`. -/
def nStatus : CBlockIndex → UInt32
  | .null => 0
  | .entry _ _ nStatus _ _ => nStatus

/-- `pprev`. -/
def pprev : CBlockIndex → CBlockIndex
  | .null => .null
  | .entry _ _ _ pprev _ => pprev

/-- `pskip`. -/
def pskip : CBlockIndex → CBlockIndex
  | .null => .null
  | .entry _ _ _ _ pskip => pskip

end CBlockIndex

/-- `InvertLowestOne`: clear the lowest set bit. -/
def InvertLowestOne (n : Nat) : Nat := n &&& (n - 1)

/-- `GetSkipHeight`: the height `BuildSkip` points the skip pointer to. -/
def GetSkipHeight (height : Int) : Int :=
  if height < 2 then 0
  else
    let h := height.toNat
    if h % 2 = 1 then InvertLowestOne (InvertLowestOne (h - 1)) + 1
    else InvertLowestOne h

namespace CBlockIndex

/-- The loop of `CBlockIndex::GetAncestor`, at `pindexWalk` of height `heightWalk`. -/
def ancestorWalk (height : Int) : CBlockIndex → Int → CBlockIndex
  | .null, _ => .null
  | walk@(.entry _ _ _ pprev pskip), heightWalk =>
      if heightWalk > height then
        let heightSkip := GetSkipHeight heightWalk
        let heightSkipPrev := GetSkipHeight (heightWalk - 1)
        if !pskip.isNull ∧ (heightSkip = height ∨ (heightSkip > height ∧
            ¬ (heightSkipPrev < heightSkip - 2 ∧ heightSkipPrev ≥ height))) then
          ancestorWalk height pskip heightSkip
        else ancestorWalk height pprev (heightWalk - 1)
      else walk

/--
The same loop with its assertion: `none` where a step back through `pprev`
finds `nullptr`, as `assert(pindexWalk->pprev)` does.  The loop starts at
`this`, never at `nullptr`.
-/
def ancestorWalkChecked (height : Int) : CBlockIndex → Int → Option CBlockIndex
  | .null, _ => none
  | walk@(.entry _ _ _ pprev pskip), heightWalk =>
      if heightWalk > height then
        let heightSkip := GetSkipHeight heightWalk
        let heightSkipPrev := GetSkipHeight (heightWalk - 1)
        if !pskip.isNull ∧ (heightSkip = height ∨ (heightSkip > height ∧
            ¬ (heightSkipPrev < heightSkip - 2 ∧ heightSkipPrev ≥ height))) then
          ancestorWalkChecked height pskip heightSkip
        else if pprev.isNull then none
        else ancestorWalkChecked height pprev (heightWalk - 1)
      else some walk

/--
The assertion fails exactly where the unchecked walk steps onto `nullptr`:
the skip branch tests `pskip` first, and from `nullptr` the unchecked walk
stays there.
-/
theorem ancestorWalkChecked_eq (height : Int) (walk : CBlockIndex) (heightWalk : Int) :
    ancestorWalkChecked height walk heightWalk =
      if (ancestorWalk height walk heightWalk).isNull then none
      else some (ancestorWalk height walk heightWalk) := by
  induction walk generalizing heightWalk with
  | null =>
      rfl
  | entry hashBlock nHeight nStatus pprev pskip prevInduction skipInduction =>
      unfold ancestorWalkChecked ancestorWalk
      split
      · dsimp only
        split
        · exact skipInduction _
        · cases pprev with
          | null =>
              rfl
          | entry =>
              exact prevInduction _
      · rfl

/-- `CBlockIndex::GetAncestor`. -/
def GetAncestor (index : CBlockIndex) (height : Int) : CBlockIndex :=
  if height > index.nHeight ∨ height < 0 then .null
  else ancestorWalk height index index.nHeight

/--
The entry `AddToBlockIndex` makes for a block whose parent is known: one
above its parent, with the skip pointer that `BuildSkip` sets.
-/
def extend (pprev : CBlockIndex) (hashBlock : uint256) (nStatus : UInt32) : CBlockIndex :=
  .entry hashBlock (pprev.nHeight + 1) nStatus pprev
    (pprev.GetAncestor (GetSkipHeight (pprev.nHeight + 1)))

/-- The entries the node builds: a genesis entry, and `extend` of an entry it built. -/
inductive WellFormed : CBlockIndex → Prop
  | genesis (hashBlock : uint256) (nStatus : UInt32) :
      WellFormed (.entry hashBlock 0 nStatus .null .null)
  | extend {pprev : CBlockIndex} (hashBlock : uint256) (nStatus : UInt32) :
      WellFormed pprev → WellFormed (pprev.extend hashBlock nStatus)

/-- Follow `pprev` a number of times. -/
def prevN : Nat → CBlockIndex → CBlockIndex
  | 0, index => index
  | steps + 1, index => prevN steps index.pprev

@[simp]
theorem prevN_zero (index : CBlockIndex) : index.prevN 0 = index := rfl

theorem prevN_succ (steps : Nat) (index : CBlockIndex) :
    index.prevN (steps + 1) = index.pprev.prevN steps := rfl

theorem prevN_add (first second : Nat) (index : CBlockIndex) :
    index.prevN (first + second) = (index.prevN second).prevN first := by
  induction second generalizing index with
  | zero =>
      rfl
  | succ second induction =>
      rw [← Nat.add_assoc, prevN_succ, prevN_succ, induction]

/-! ## Well-formed entries -/

theorem WellFormed.nHeight_nonneg {index : CBlockIndex} (wellFormed : index.WellFormed) :
    0 ≤ index.nHeight := by
  induction wellFormed with
  | genesis hashBlock nStatus =>
      exact Int.le_refl 0
  | extend hashBlock nStatus _ induction =>
      show 0 ≤ _ + 1
      omega

theorem WellFormed.isNull {index : CBlockIndex} (wellFormed : index.WellFormed) :
    index.isNull = false := by
  cases wellFormed <;> rfl

theorem WellFormed.GetBlockHash_isSome {index : CBlockIndex} (wellFormed : index.WellFormed) :
    index.GetBlockHash.isSome = true := by
  cases wellFormed <;> rfl

/-- The parent of a well-formed entry above genesis is well formed, one below it. -/
theorem WellFormed.pprev {index : CBlockIndex} (wellFormed : index.WellFormed)
    (above : 0 < index.nHeight) :
    index.pprev.WellFormed ∧ index.pprev.nHeight = index.nHeight - 1 := by
  cases wellFormed with
  | genesis hashBlock nStatus =>
      exact absurd above (Int.lt_irrefl 0)
  | extend hashBlock nStatus parent =>
      rename_i pprev
      refine ⟨parent, ?_⟩
      show pprev.nHeight = pprev.nHeight + 1 - 1
      omega

/-- Walking back stays among well-formed entries, one height per step. -/
theorem WellFormed.prevN {index : CBlockIndex} (wellFormed : index.WellFormed) :
    ∀ steps : Nat, (steps : Int) ≤ index.nHeight →
      (index.prevN steps).WellFormed ∧ (index.prevN steps).nHeight = index.nHeight - steps
  | 0, _ => ⟨wellFormed, by simp⟩
  | steps + 1, within => by
      obtain ⟨parent, parentHeight⟩ := wellFormed.pprev (by omega)
      obtain ⟨walked, walkedHeight⟩ := parent.prevN steps (by omega)
      refine ⟨walked, ?_⟩
      rw [prevN_succ, walkedHeight, parentHeight]
      omega

/-! ## Skip heights -/

theorem InvertLowestOne_le (n : Nat) : InvertLowestOne n ≤ n :=
  Nat.and_le_left

theorem InvertLowestOne_lt {n : Nat} (positive : 0 < n) : InvertLowestOne n < n := by
  have cleared : InvertLowestOne n ≤ n - 1 := @Nat.and_le_right n (n - 1)
  omega

/-- The skip pointer of an entry above genesis points strictly below it. -/
theorem GetSkipHeight_bounds {height : Int} (positive : 0 < height) :
    0 ≤ GetSkipHeight height ∧ GetSkipHeight height < height := by
  unfold GetSkipHeight
  split
  · omega
  · case isFalse atLeastTwo =>
      have natural : (height.toNat : Int) = height := Int.toNat_of_nonneg (by omega)
      dsimp only
      split
      · have inner := InvertLowestOne_le (height.toNat - 1)
        have outer := InvertLowestOne_le (InvertLowestOne (height.toNat - 1))
        have strict : InvertLowestOne (InvertLowestOne (height.toNat - 1)) <
            InvertLowestOne (height.toNat - 1) ∨
            InvertLowestOne (height.toNat - 1) = 0 := by
          by_cases zero : InvertLowestOne (height.toNat - 1) = 0
          · exact .inr zero
          · exact .inl (InvertLowestOne_lt (Nat.pos_of_ne_zero zero))
        omega
      · have strict := InvertLowestOne_lt (n := height.toNat) (by omega)
        omega

/-! ## `GetAncestor` walks back through `pprev` -/

/-- The statement that `GetAncestor` is the walk back through `pprev` at every entry up to a height. -/
def AncestorsBelow (bound : Int) : Prop :=
  ∀ index : CBlockIndex, index.WellFormed → index.nHeight ≤ bound →
    ∀ height : Int, 0 ≤ height → height ≤ index.nHeight →
      index.GetAncestor height = index.prevN (index.nHeight - height).toNat

/-- Where `GetAncestor` is correct below an entry, its skip pointer points to its ancestor. -/
theorem WellFormed.pskip_eq {index : CBlockIndex} (wellFormed : index.WellFormed)
    (positive : 0 < index.nHeight) (below : AncestorsBelow (index.nHeight - 1)) :
    index.pskip = index.prevN (index.nHeight - GetSkipHeight index.nHeight).toNat := by
  cases wellFormed with
  | genesis hashBlock nStatus =>
      exact absurd positive (Int.lt_irrefl 0)
  | extend hashBlock nStatus parent =>
      rename_i pprev
      have bounds := GetSkipHeight_bounds positive
      have height : (pprev.extend hashBlock nStatus).nHeight = pprev.nHeight + 1 := rfl
      rw [height] at bounds ⊢
      have skip : (pprev.extend hashBlock nStatus).pskip =
          pprev.GetAncestor (GetSkipHeight (pprev.nHeight + 1)) := rfl
      rw [skip, below pprev parent (by rw [height]; omega) _ bounds.1 (by omega)]
      have steps : (pprev.nHeight + 1 - GetSkipHeight (pprev.nHeight + 1)).toNat =
          (pprev.nHeight - GetSkipHeight (pprev.nHeight + 1)).toNat + 1 := by
        omega
      rw [steps, prevN_succ]
      rfl

/--
The walk of `GetAncestor` from an entry of the tree ends at the ancestor
at the requested height, when the skip pointers of the entries it passes
point to ancestors.
-/
theorem ancestorWalk_eq {height bound : Int} (nonneg : 0 ≤ height)
    (skips : ∀ index : CBlockIndex, index.WellFormed → 0 < index.nHeight →
      index.nHeight ≤ bound →
      index.pskip = index.prevN (index.nHeight - GetSkipHeight index.nHeight).toNat) :
    ∀ walk : CBlockIndex, walk.WellFormed → walk.nHeight ≤ bound → height ≤ walk.nHeight →
      ancestorWalk height walk walk.nHeight = walk.prevN (walk.nHeight - height).toNat := by
  intro walk
  induction walk with
  | null =>
      intro wellFormed
      cases wellFormed
  | entry hashBlock nHeight nStatus pprev pskip prevInduction skipInduction =>
      intro wellFormed bounded reaches
      have heightEq : (CBlockIndex.entry hashBlock nHeight nStatus pprev pskip).nHeight =
          nHeight := rfl
      rw [heightEq] at bounded reaches ⊢
      unfold ancestorWalk
      split
      · case isTrue above =>
          have positive : 0 < nHeight := by omega
          dsimp only
          split
          · case isTrue takeSkip =>
              have skipBounds := GetSkipHeight_bounds positive
              have skipEq := skips _ wellFormed (by rw [heightEq]; exact positive)
                (by rw [heightEq]; exact bounded)
              rw [heightEq] at skipEq
              have pskipEq : pskip = (CBlockIndex.entry hashBlock nHeight nStatus pprev pskip).prevN
                  (nHeight - GetSkipHeight nHeight).toNat := skipEq
              have notOver : height ≤ GetSkipHeight nHeight := by omega
              obtain ⟨skipWell, skipHeight⟩ := wellFormed.prevN
                (nHeight - GetSkipHeight nHeight).toNat (by rw [heightEq]; omega)
              rw [← pskipEq] at skipWell skipHeight
              have skipHeight' : pskip.nHeight = GetSkipHeight nHeight := by
                rw [skipHeight, heightEq]
                omega
              have recursed := skipInduction skipWell (by omega) (by omega)
              rw [skipHeight'] at recursed
              rw [recursed]
              calc pskip.prevN (GetSkipHeight nHeight - height).toNat
                  = ((CBlockIndex.entry hashBlock nHeight nStatus pprev pskip).prevN
                        (nHeight - GetSkipHeight nHeight).toNat).prevN
                      (GetSkipHeight nHeight - height).toNat := by
                    rw [← pskipEq]
                _ = (CBlockIndex.entry hashBlock nHeight nStatus pprev pskip).prevN
                      ((GetSkipHeight nHeight - height).toNat +
                        (nHeight - GetSkipHeight nHeight).toNat) :=
                    (prevN_add _ _ _).symm
                _ = (CBlockIndex.entry hashBlock nHeight nStatus pprev pskip).prevN
                      (nHeight - height).toNat := by
                    congr 1
                    omega
          · case isFalse takePrev =>
              obtain ⟨parentWell, parentHeight⟩ := wellFormed.pprev (by rw [heightEq]; exact positive)
              have parentHeight' : pprev.nHeight = nHeight - 1 := parentHeight
              have recursed := prevInduction parentWell (by omega) (by omega)
              rw [parentHeight'] at recursed
              rw [recursed]
              have steps : (nHeight - height).toNat = (nHeight - 1 - height).toNat + 1 := by
                omega
              rw [steps, prevN_succ]
              rfl
      · case isFalse atHeight =>
          have same : (nHeight - height).toNat = 0 := by omega
          rw [same]
          rfl

/-- On the tree the node builds, `GetAncestor` is the walk back through `pprev`. -/
theorem GetAncestor_eq_prevN {index : CBlockIndex} (wellFormed : index.WellFormed)
    {height : Int} (nonneg : 0 ≤ height) (reaches : height ≤ index.nHeight) :
    index.GetAncestor height = index.prevN (index.nHeight - height).toNat := by
  have everywhere : ∀ bound : Nat, AncestorsBelow bound := by
    intro bound
    induction bound using Nat.strong_induction_on with
    | _ bound induction =>
        intro index wellFormed bounded height nonneg reaches
        have skips : ∀ entry : CBlockIndex, entry.WellFormed → 0 < entry.nHeight →
            entry.nHeight ≤ bound →
            entry.pskip = entry.prevN (entry.nHeight - GetSkipHeight entry.nHeight).toNat := by
          intro entry entryWell positive entryBounded
          apply entryWell.pskip_eq positive
          have smaller : (entry.nHeight - 1).toNat < bound := by omega
          have below := induction _ smaller
          intro other otherWell otherBounded
          exact below other otherWell (by omega)
        unfold GetAncestor
        rw [if_neg (by omega)]
        exact ancestorWalk_eq nonneg skips index wellFormed bounded reaches
  have bounded : index.nHeight ≤ (index.nHeight.toNat : Int) := by omega
  exact everywhere index.nHeight.toNat index wellFormed bounded height nonneg reaches

/-- The ancestor at a height is a well-formed entry of that height. -/
theorem GetAncestor_wellFormed {index : CBlockIndex} (wellFormed : index.WellFormed)
    {height : Int} (nonneg : 0 ≤ height) (reaches : height ≤ index.nHeight) :
    (index.GetAncestor height).WellFormed ∧ (index.GetAncestor height).nHeight = height := by
  rw [GetAncestor_eq_prevN wellFormed nonneg reaches]
  obtain ⟨walked, walkedHeight⟩ := wellFormed.prevN (index.nHeight - height).toNat (by omega)
  exact ⟨walked, by rw [walkedHeight]; omega⟩

/--
On the tree the node builds, `GetAncestor` at a height from genesis to the
entry is the entry that many steps back through `pprev`, reached by the
loop without its assertion failing; at any other height it is `nullptr`.
-/
theorem GetAncestor_follows_pprev {index : CBlockIndex} (wellFormed : index.WellFormed)
    (height : Int) :
    (0 ≤ height ∧ height ≤ index.nHeight →
      index.GetAncestor height = index.prevN (index.nHeight - height).toNat ∧
      ancestorWalkChecked height index index.nHeight = some (index.GetAncestor height)) ∧
    (height < 0 ∨ index.nHeight < height → index.GetAncestor height = .null) := by
  constructor
  · rintro ⟨nonneg, reaches⟩
    refine ⟨GetAncestor_eq_prevN wellFormed nonneg reaches, ?_⟩
    have loop : index.GetAncestor height = ancestorWalk height index index.nHeight := by
      unfold GetAncestor
      rw [if_neg (by omega)]
    have notNull := (GetAncestor_wellFormed wellFormed nonneg reaches).1.isNull
    rw [ancestorWalkChecked_eq, ← loop, notNull, if_neg Bool.false_ne_true]
  · intro outside
    unfold GetAncestor
    rw [if_pos (by omega)]

/-- Four entries from genesis: the ancestor at height one is two steps back from the tip. -/
theorem GetAncestor_follows_pprev_fourHigh :
    let tip := (((CBlockIndex.entry 0 0 0 .null .null).extend 1 0).extend 2 0).extend 3 0
    tip.WellFormed ∧
      (0 ≤ (1 : Int) ∧ 1 ≤ tip.nHeight →
        tip.GetAncestor 1 = tip.prevN (tip.nHeight - 1).toNat ∧
        ancestorWalkChecked 1 tip tip.nHeight = some (tip.GetAncestor 1)) ∧
      ((1 : Int) < 0 ∨ tip.nHeight < 1 → tip.GetAncestor 1 = .null) :=
  have wellFormed : ((((CBlockIndex.entry 0 0 0 .null .null).extend 1 0).extend 2 0).extend 3
      0).WellFormed := .extend _ _ (.extend _ _ (.extend _ _ (.genesis _ _)))
  ⟨wellFormed, GetAncestor_follows_pprev wellFormed 1⟩

/-- An ancestor's ancestor is the entry's own ancestor at that height. -/
theorem GetAncestor_GetAncestor {index : CBlockIndex} (wellFormed : index.WellFormed)
    {lower upper : Int} (nonneg : 0 ≤ lower) (ordered : lower ≤ upper)
    (reaches : upper ≤ index.nHeight) :
    (index.GetAncestor upper).GetAncestor lower = index.GetAncestor lower := by
  obtain ⟨upperWell, upperHeight⟩ := GetAncestor_wellFormed wellFormed (by omega) reaches
  rw [GetAncestor_eq_prevN upperWell nonneg (by omega), upperHeight,
    GetAncestor_eq_prevN wellFormed (by omega) reaches,
    GetAncestor_eq_prevN wellFormed nonneg (by omega), ← prevN_add]
  congr 1
  omega

/-- The genesis entry has no parent. -/
theorem WellFormed.pprev_of_genesis {index : CBlockIndex} (wellFormed : index.WellFormed)
    (atGenesis : index.nHeight = 0) : index.pprev = .null := by
  cases wellFormed with
  | genesis hashBlock nStatus =>
      rfl
  | extend hashBlock nStatus parent =>
      rename_i pprev
      have nonneg := parent.nHeight_nonneg
      have height : (pprev.extend hashBlock nStatus).nHeight = pprev.nHeight + 1 := rfl
      rw [height] at atGenesis
      omega

@[simp]
theorem prevN_null : ∀ steps : Nat, CBlockIndex.null.prevN steps = .null
  | 0 => rfl
  | steps + 1 => prevN_null steps

/-- One step past genesis is `nullptr`. -/
theorem WellFormed.prevN_nHeight_succ {index : CBlockIndex} (wellFormed : index.WellFormed) :
    index.prevN (index.nHeight.toNat + 1) = .null := by
  have nonneg := wellFormed.nHeight_nonneg
  obtain ⟨genesisWell, genesisHeight⟩ := wellFormed.prevN index.nHeight.toNat (by omega)
  rw [Nat.add_comm, prevN_add]
  exact genesisWell.pprev_of_genesis (by omega)

/-- Only the entries from the entry down to genesis are reached through `pprev`. -/
theorem WellFormed.le_nHeight_of_prevN {index : CBlockIndex} (wellFormed : index.WellFormed)
    {steps : Nat} (entry : (index.prevN steps).isNull = false) : (steps : Int) ≤ index.nHeight := by
  have nonneg := wellFormed.nHeight_nonneg
  by_contra beyond
  have past : steps = (steps - (index.nHeight.toNat + 1)) + (index.nHeight.toNat + 1) := by omega
  rw [past, prevN_add, wellFormed.prevN_nHeight_succ, prevN_null] at entry
  cases entry

/-- Steps back from a well-formed entry reach `nullptr` or a well-formed entry that many heights down. -/
theorem WellFormed.prevN_cases {index : CBlockIndex} (wellFormed : index.WellFormed) (steps : Nat) :
    index.prevN steps = .null ∨
      ((index.prevN steps).WellFormed ∧ (index.prevN steps).nHeight = index.nHeight - steps) := by
  cases found : index.prevN steps with
  | null => exact Or.inl rfl
  | entry hashBlock nHeight nStatus parent pskip =>
      have entry : (index.prevN steps).isNull = false := by rw [found]; rfl
      rw [← found]
      exact Or.inr (wellFormed.prevN steps (wellFormed.le_nHeight_of_prevN entry))

/-- `GetAncestor` a number of heights down, as far as one below genesis, is that many steps back. -/
theorem WellFormed.GetAncestor_sub {index : CBlockIndex} (wellFormed : index.WellFormed)
    {steps : Nat} (within : (steps : Int) ≤ index.nHeight + 1) :
    index.GetAncestor (index.nHeight - steps) = index.prevN steps := by
  have nonneg := wellFormed.nHeight_nonneg
  rcases Int.lt_or_le index.nHeight steps with belowGenesis | reaches
  · have past : steps = index.nHeight.toNat + 1 := by omega
    unfold GetAncestor
    rw [if_pos (Or.inr (by omega)), past, wellFormed.prevN_nHeight_succ]
  · rw [GetAncestor_eq_prevN wellFormed (by omega) (by omega)]
    congr 1
    omega

/-! ## Runs of blocks -/

/--
The entries `AddToBlockIndex` makes for `count` blocks in a row over `base`,
the `i`-th of them with hash `hashOf i`.
-/
def extendBy (base : CBlockIndex) (hashOf : Nat → uint256) (nStatus : UInt32) :
    Nat → CBlockIndex
  | 0 => base
  | count + 1 => (base.extendBy hashOf nStatus count).extend (hashOf (count + 1)) nStatus

variable {base : CBlockIndex} {hashOf : Nat → uint256} {nStatus : UInt32}

theorem WellFormed.extendBy (baseWell : base.WellFormed) :
    ∀ count, (base.extendBy hashOf nStatus count).WellFormed
  | 0 => baseWell
  | count + 1 => .extend _ _ (baseWell.extendBy count)

theorem nHeight_extendBy : ∀ count,
    (base.extendBy hashOf nStatus count).nHeight = base.nHeight + count
  | 0 => by simp [extendBy]
  | count + 1 => by
      show (base.extendBy hashOf nStatus count).nHeight + 1 = _
      rw [nHeight_extendBy count]
      omega

theorem GetBlockHash_extendBy (count : Nat) :
    (base.extendBy hashOf nStatus (count + 1)).GetBlockHash = some (hashOf (count + 1)) :=
  rfl

theorem pprev_extendBy (count : Nat) :
    (base.extendBy hashOf nStatus (count + 1)).pprev = base.extendBy hashOf nStatus count :=
  rfl

/-- Walking back from the end of a run stays in the run. -/
theorem prevN_extendBy : ∀ {count steps : Nat}, steps ≤ count →
    (base.extendBy hashOf nStatus count).prevN steps =
      base.extendBy hashOf nStatus (count - steps)
  | _, 0, _ => rfl
  | count + 1, steps + 1, within => by
      rw [prevN_succ, pprev_extendBy, Nat.add_sub_add_right]
      exact prevN_extendBy (Nat.le_of_succ_le_succ within)

/-- The ancestor of the end of a run at a height the run covers is the run's block there. -/
theorem GetAncestor_extendBy (baseWell : base.WellFormed) {count : Nat} {height : Int}
    (above : base.nHeight ≤ height) (reaches : height ≤ base.nHeight + count) :
    (base.extendBy hashOf nStatus count).GetAncestor height =
      base.extendBy hashOf nStatus (height - base.nHeight).toNat := by
  have heightEq : (base.extendBy hashOf nStatus count).nHeight = base.nHeight + count :=
    nHeight_extendBy count
  rw [GetAncestor_eq_prevN (baseWell.extendBy count) (by have := baseWell.nHeight_nonneg; omega)
      (by omega), heightEq, prevN_extendBy (by omega)]
  congr 1
  omega

end CBlockIndex

/-! ## The active chain -/

/-- `CChain`: the entries of the active chain by height. -/
structure CChain where
  vChain : List CBlockIndex
deriving DecidableEq, Repr

namespace CChain

/-- `CChain::operator[]`: the entry at a height, `nullptr` if there is none. -/
def atHeight (chain : CChain) (nHeight : Int) : CBlockIndex :=
  if nHeight < 0 ∨ nHeight ≥ chain.vChain.length then .null
  else chain.vChain.getD nHeight.toNat .null

/-- `CChain::Height`. -/
def Height (chain : CChain) : Int :=
  chain.vChain.length - 1

/-- `CChain::Contains`: the entry sits at its height in the chain. -/
def Contains (chain : CChain) (index : CBlockIndex) : Bool :=
  chain.atHeight index.nHeight == index

/-- `std::vector::resize` with null pointers. -/
def resize (vChain : List CBlockIndex) (size : Nat) : List CBlockIndex :=
  vChain.take size ++ List.replicate (size - vChain.length) .null

/-- The loop of `SetTip`: write the tip and its ancestors until one is in place. -/
def setTipWalk : List CBlockIndex → CBlockIndex → List CBlockIndex
  | vChain, .null => vChain
  | vChain, index@(.entry _ nHeight _ pprev _) =>
      if vChain.getD nHeight.toNat .null = index then vChain
      else setTipWalk (vChain.set nHeight.toNat index) pprev

/-- `CChain::SetTip`. -/
def SetTip (chain : CChain) (tip : CBlockIndex) : CChain :=
  match tip with
  | .null => ⟨[]⟩
  | .entry _ nHeight _ _ _ => ⟨setTipWalk (resize chain.vChain (nHeight + 1).toNat) tip⟩

/-- The vector of a chain with the given tip: its ancestors from genesis up. -/
def ancestorsOf (tip : CBlockIndex) : List CBlockIndex :=
  (List.range (tip.nHeight.toNat + 1)).map fun height =>
    tip.prevN (tip.nHeight.toNat - height)

/-- The vector `SetTip` has written when it reaches the ancestor `depth` steps below the tip. -/
def partialChain (tip : CBlockIndex) (depth : Nat) : List CBlockIndex :=
  (List.range (tip.nHeight.toNat + 1)).map fun height =>
    if height + depth ≤ tip.nHeight.toNat then .null
    else tip.prevN (tip.nHeight.toNat - height)

theorem partialChain_zero (tip : CBlockIndex) :
    partialChain tip 0 = List.replicate (tip.nHeight.toNat + 1) .null := by
  apply List.ext_getElem
  · simp [partialChain]
  · intro index inPartial inReplicate
    simp only [partialChain, List.length_map, List.length_range] at inPartial
    simp [partialChain, Nat.lt_succ_iff.mp inPartial]

theorem partialChain_full (tip : CBlockIndex) :
    partialChain tip (tip.nHeight.toNat + 1) = ancestorsOf tip := by
  unfold partialChain ancestorsOf
  congr 1
  funext height
  rw [if_neg (by omega)]

theorem partialChain_getD {tip : CBlockIndex} {depth : Nat}
    (within : depth ≤ tip.nHeight.toNat) :
    (partialChain tip depth).getD (tip.nHeight.toNat - depth) .null = .null := by
  simp only [partialChain, List.getD_eq_getElem?_getD, List.getElem?_map,
    List.getElem?_range (by omega : tip.nHeight.toNat - depth < tip.nHeight.toNat + 1),
    Option.map_some, Option.getD_some]
  rw [if_pos (by omega)]

theorem partialChain_set {tip : CBlockIndex} {depth : Nat}
    (within : depth ≤ tip.nHeight.toNat) :
    (partialChain tip depth).set (tip.nHeight.toNat - depth) (tip.prevN depth) =
      partialChain tip (depth + 1) := by
  apply List.ext_getElem
  · simp [partialChain]
  · intro index inSet inPartial
    simp only [List.length_set, partialChain, List.length_map, List.length_range] at inSet
    rw [List.getElem_set]
    split
    · case isTrue atDepth =>
        subst atDepth
        simp only [partialChain, List.getElem_map, List.getElem_range]
        rw [if_neg (by omega)]
        congr 1
        omega
    · case isFalse elsewhere =>
        simp only [partialChain, List.getElem_map, List.getElem_range]
        by_cases unset : index + depth ≤ tip.nHeight.toNat
        · rw [if_pos unset, if_pos (by omega)]
        · rw [if_neg unset, if_neg (by omega)]


/-- The walk of `SetTip` from a vector that is null below the entry it writes fills in the chain. -/
theorem setTipWalk_partial {tip : CBlockIndex} (tipWell : tip.WellFormed) :
    ∀ remaining depth : Nat, depth + remaining = tip.nHeight.toNat →
      setTipWalk (partialChain tip depth) (tip.prevN depth) = ancestorsOf tip := by
  have nonneg := tipWell.nHeight_nonneg
  intro remaining
  induction remaining with
  | zero =>
      intro depth atGenesis
      obtain ⟨walkWell, walkHeight⟩ := tipWell.prevN depth (by omega)
      have genesis := walkWell.pprev_of_genesis (by omega)
      cases walked : tip.prevN depth with
      | null =>
          rw [walked] at walkWell
          cases walkWell
      | entry hashBlock nHeight nStatus pprev pskip =>
          rw [walked] at walkHeight genesis
          have height : nHeight = tip.nHeight - depth := walkHeight
          have pprevNull : pprev = .null := genesis
          unfold setTipWalk
          have position : nHeight.toNat = tip.nHeight.toNat - depth := by omega
          rw [position, partialChain_getD (by omega), if_neg (by simp), ← walked,
            partialChain_set (by omega), pprevNull, setTipWalk,
            show depth + 1 = tip.nHeight.toNat + 1 by omega, partialChain_full]
  | succ remaining induction =>
      intro depth above
      obtain ⟨walkWell, walkHeight⟩ := tipWell.prevN depth (by omega)
      cases walked : tip.prevN depth with
      | null =>
          rw [walked] at walkWell
          cases walkWell
      | entry hashBlock nHeight nStatus pprev pskip =>
          have next : tip.prevN (depth + 1) = pprev := by
            rw [Nat.add_comm, CBlockIndex.prevN_add, walked]
            rfl
          rw [walked] at walkHeight
          have height : nHeight = tip.nHeight - depth := walkHeight
          unfold setTipWalk
          have position : nHeight.toNat = tip.nHeight.toNat - depth := by omega
          rw [position, partialChain_getD (by omega), if_neg (by simp), ← walked,
            partialChain_set (by omega), ← next]
          exact induction (depth + 1) (by omega)

/-- A chain set from scratch to a tip holds the tip's ancestors from genesis up. -/
theorem SetTip_empty {tip : CBlockIndex} (tipWell : tip.WellFormed) :
    ((⟨[]⟩ : CChain).SetTip tip).vChain = ancestorsOf tip := by
  cases tipWell with
  | genesis hashBlock nStatus =>
      rfl
  | extend hashBlock nStatus parent =>
      rename_i pprev
      have tipWell := CBlockIndex.WellFormed.extend hashBlock nStatus parent
      have walked := setTipWalk_partial tipWell (pprev.extend hashBlock nStatus).nHeight.toNat 0
        (by omega)
      rw [partialChain_zero, CBlockIndex.prevN_zero] at walked
      have resized : resize [] ((pprev.extend hashBlock nStatus).nHeight + 1).toNat =
          List.replicate ((pprev.extend hashBlock nStatus).nHeight.toNat + 1) .null := by
        have nonneg := tipWell.nHeight_nonneg
        simp only [resize, List.take_nil, List.length_nil, Nat.sub_zero, List.nil_append]
        congr 1
        omega
      rw [← walked, ← resized]
      rfl

/-- In a chain set to a tip, the entry at each height is the tip's ancestor there. -/
theorem atHeight_SetTip {tip : CBlockIndex} (tipWell : tip.WellFormed) {height : Int}
    (nonneg : 0 ≤ height) (reaches : height ≤ tip.nHeight) :
    ((⟨[]⟩ : CChain).SetTip tip).atHeight height = tip.GetAncestor height := by
  rw [CBlockIndex.GetAncestor_eq_prevN tipWell nonneg reaches]
  unfold atHeight
  rw [SetTip_empty tipWell]
  have inRange : height.toNat < tip.nHeight.toNat + 1 := by omega
  rw [if_neg (by simp only [ancestorsOf, List.length_map, List.length_range]; omega)]
  simp only [ancestorsOf, List.getD_eq_getElem?_getD, List.getElem?_map,
    List.getElem?_range inRange, Option.map_some, Option.getD_some]
  congr 1
  omega

/-- An entry the chain contains sits at its height. -/
theorem atHeight_of_Contains {chain : CChain} {index : CBlockIndex}
    (contains : chain.Contains index = true) : chain.atHeight index.nHeight = index := by
  simpa [Contains] using contains

/-- `operator[]` gives `nullptr` below height zero. -/
theorem atHeight_of_neg (chain : CChain) {height : Int} (negative : height < 0) :
    chain.atHeight height = .null := by
  rw [atHeight, if_pos (.inl negative)]

end CChain

end Kevacoin
