import Kevacoin.Validation.ConnectLoop
import Kevacoin.Chain.MedianTime
import Kevacoin.Script.Interpreter
import Mathlib.Data.List.Sort

/-!
# Relative lock times

`CalculateSequenceLocks`, `EvaluateSequenceLocks` and `SequenceLocks` of
`consensus/tx_verify.cpp`: the relative lock times of BIP 68, which
`ConnectBlock` checks for every transaction but the coinbase against the
heights of the coins it spends.  An input whose sequence number has the
disable bit clear locks its transaction for a number of blocks, or of 512
second units, after the block of the coin it spends; times are median
times past.  `CalculateSequenceLocks` folds the inputs into the last
invalid height and time, and `EvaluateSequenceLocks` compares them with
the block.  The heights are `int` in the source and never near its bounds,
so the model takes them as integers.  A dereference of `nullptr`, where
`GetAncestor` finds no block, and a failed assertion are `none`.

The main results:
- `SequenceLocks_eq_some_true_iff`: the check passes exactly when every
  input's own relative lock has passed, the fold of the lock pair being a
  maximum;
- `SequenceLocks_descendant`: a transaction that passes at a block passes
  at every later block of its chain, as the median time past does not fall
  along it;
- `ConnectBlock_relative_locks_passed`: in a block that `ConnectBlock`
  accepts, every input of every transaction but the coinbase has its
  relative lock passed, for the height of the coin the view gives it.
-/

namespace Kevacoin

open CCoinsViewCache

/-! ## The model -/

/-- `CTxIn::SEQUENCE_LOCKTIME_TYPE_FLAG`: the lock counts time, not blocks. -/
def SEQUENCE_LOCKTIME_TYPE_FLAG : Nat := 2 ^ 22

/-- `CTxIn::SEQUENCE_LOCKTIME_MASK`. -/
def SEQUENCE_LOCKTIME_MASK : Nat := 0x0000ffff

/-- `CTxIn::SEQUENCE_LOCKTIME_GRANULARITY`: a time lock counts units of 512 seconds. -/
def SEQUENCE_LOCKTIME_GRANULARITY : Nat := 9

/-- `LOCKTIME_VERIFY_SEQUENCE`. -/
def LOCKTIME_VERIFY_SEQUENCE : Nat := 1

/--
`fEnforceBIP68`: the version, cast to `uint32_t`, is at least two, and the
flags ask for sequence locks.
-/
def fEnforceBIP68 (tx : CTransaction) (flags : Nat) : Bool :=
  decide (tx.nVersion % 2 ^ 32 ≥ 2) && flags &&& LOCKTIME_VERIFY_SEQUENCE != 0

/--
The body of the loop of `CalculateSequenceLocks` for an input spending a
coin of height `nCoinHeight`: the new `(nMinHeight, nMinTime)`, and what
the input's slot of `prevHeights` holds afterwards.
-/
def sequenceLockStep (nTime : CBlockIndex → Int) (block : CBlockIndex) (lockPair : Int × Int)
    (txin : CTxIn) (nCoinHeight : Int) : Option ((Int × Int) × Int) :=
  if txin.nSequence.toNat &&& SEQUENCE_LOCKTIME_DISABLE_FLAG ≠ 0 then some (lockPair, 0)
  else
    let nValue := txin.nSequence.toNat &&& SEQUENCE_LOCKTIME_MASK
    if txin.nSequence.toNat &&& SEQUENCE_LOCKTIME_TYPE_FLAG ≠ 0 then
      let ancestor := block.GetAncestor (max (nCoinHeight - 1) 0)
      -- the source dereferences what `GetAncestor` returns
      if ancestor.isNull then none
      else
        let nCoinTime := CBlockIndex.GetMedianTimePast nTime ancestor
        some ((lockPair.1,
          max lockPair.2 (nCoinTime + ((nValue <<< SEQUENCE_LOCKTIME_GRANULARITY : Nat) : Int) - 1)),
          nCoinHeight)
    else some ((max lockPair.1 (nCoinHeight + nValue - 1), lockPair.2), nCoinHeight)

/-- The loop of `CalculateSequenceLocks`, over the inputs paired with their slots of `prevHeights`. -/
def sequenceLocksFrom (nTime : CBlockIndex → Int) (block : CBlockIndex) :
    List (CTxIn × Int) → Int × Int → Option ((Int × Int) × List Int)
  | [], lockPair => some (lockPair, [])
  | (txin, nCoinHeight) :: rest, lockPair => do
      let (lockPair, nCoinHeight) ← sequenceLockStep nTime block lockPair txin nCoinHeight
      let (lockPair, prevHeights) ← sequenceLocksFrom nTime block rest lockPair
      pure (lockPair, nCoinHeight :: prevHeights)

/--
`CalculateSequenceLocks`: the last invalid height and time that the
relative locks of the inputs put on the transaction, `(-1, -1)` where they
are not enforced, with `prevHeights` as the loop leaves it.
-/
def CalculateSequenceLocks (nTime : CBlockIndex → Int) (tx : CTransaction) (flags : Nat)
    (prevHeights : List Int) (block : CBlockIndex) : Option ((Int × Int) × List Int) :=
  -- `assert(prevHeights->size() == tx.vin.size())`
  if prevHeights.length ≠ tx.vin.length then none
  else if !fEnforceBIP68 tx flags then some ((-1, -1), prevHeights)
  else sequenceLocksFrom nTime block (tx.vin.zip prevHeights) (-1, -1)

/-- `EvaluateSequenceLocks`: the lock height is below the block's, the lock time below its parent's median time past. -/
def EvaluateSequenceLocks (nTime : CBlockIndex → Int) (block : CBlockIndex)
    (lockPair : Int × Int) : Option Bool :=
  -- `assert(block.pprev)`
  if block.pprev.isNull then none
  else
    let nBlockTime := CBlockIndex.GetMedianTimePast nTime block.pprev
    some !(decide (lockPair.1 ≥ block.nHeight) || decide (lockPair.2 ≥ nBlockTime))

/-- `SequenceLocks`. -/
def SequenceLocks (nTime : CBlockIndex → Int) (tx : CTransaction) (flags : Nat)
    (prevHeights : List Int) (block : CBlockIndex) : Option Bool := do
  let (lockPair, _) ← CalculateSequenceLocks nTime tx flags prevHeights block
  EvaluateSequenceLocks nTime block lockPair

/-! ## What the check means -/

/--
BIP 68 for an input spending a coin of height `nCoinHeight`, in `block`
whose parent has median time past `nBlockTime`: the input opts out; or it
locks time, and the parent's median time past is at least the lock's
number of 512 second units after that of the coin's parent; or it locks
blocks, and the block is at least the lock's number of blocks above the
coin.
-/
def RelativeLockPassed (nTime : CBlockIndex → Int) (block : CBlockIndex) (nBlockTime : Int)
    (txin : CTxIn) (nCoinHeight : Int) : Prop :=
  txin.nSequence.toNat &&& SEQUENCE_LOCKTIME_DISABLE_FLAG ≠ 0 ∨
    (txin.nSequence.toNat &&& SEQUENCE_LOCKTIME_TYPE_FLAG ≠ 0 ∧
      (block.GetAncestor (max (nCoinHeight - 1) 0)).isNull = false ∧
      CBlockIndex.GetMedianTimePast nTime (block.GetAncestor (max (nCoinHeight - 1) 0)) +
          (((txin.nSequence.toNat &&& SEQUENCE_LOCKTIME_MASK) * 512 : Nat) : Int) ≤ nBlockTime) ∨
    (txin.nSequence.toNat &&& SEQUENCE_LOCKTIME_TYPE_FLAG = 0 ∧
      nCoinHeight + ((txin.nSequence.toNat &&& SEQUENCE_LOCKTIME_MASK : Nat) : Int) ≤
        block.nHeight)

/--
BIP 68 for a transaction in `block`, given the heights of the coins it
spends: a height for every input, a parent whose median time past is read,
and every input's relative lock passed where the transaction enforces the
locks.  The lock pair starts at `(-1, -1)`, so the block's height and its
parent's median time past are not negative either.
-/
structure SequenceLocksHold (nTime : CBlockIndex → Int) (tx : CTransaction) (flags : Nat)
    (prevHeights : List Int) (block : CBlockIndex) : Prop where
  sized : prevHeights.length = tx.vin.length
  hasParent : block.pprev.isNull = false
  heightNonneg : 0 ≤ block.nHeight
  timeNonneg : 0 ≤ CBlockIndex.GetMedianTimePast nTime block.pprev
  inputs : fEnforceBIP68 tx flags = true →
    ∀ input ∈ tx.vin.zip prevHeights,
      RelativeLockPassed nTime block (CBlockIndex.GetMedianTimePast nTime block.pprev)
        input.1 input.2

section Spec

variable {nTime : CBlockIndex → Int} {block : CBlockIndex}

/-- The time a time lock adds is the lock's number of 512 second units. -/
theorem shift_granularity (nValue : Nat) :
    nValue <<< SEQUENCE_LOCKTIME_GRANULARITY = nValue * 512 := by
  rw [Nat.shiftLeft_eq]
  rfl

/-- The loop body, inverted: one input keeps the lock pair below a bound when the pair was below it and the input's lock has passed. -/
theorem sequenceLockStep_below {lockPair : Int × Int} {txin : CTxIn}
    {nCoinHeight nBlockTime : Int} :
    (∃ next height, sequenceLockStep nTime block lockPair txin nCoinHeight = some (next, height) ∧
        next.1 < block.nHeight ∧ next.2 < nBlockTime) ↔
      lockPair.1 < block.nHeight ∧ lockPair.2 < nBlockTime ∧
        RelativeLockPassed nTime block nBlockTime txin nCoinHeight := by
  unfold sequenceLockStep RelativeLockPassed
  by_cases disabled : txin.nSequence.toNat &&& SEQUENCE_LOCKTIME_DISABLE_FLAG ≠ 0
  · simp [disabled]
  rw [if_neg disabled]
  by_cases timed : txin.nSequence.toNat &&& SEQUENCE_LOCKTIME_TYPE_FLAG ≠ 0
  · rw [if_pos timed]
    cases found : (block.GetAncestor (max (nCoinHeight - 1) 0)).isNull
    · simp [found, disabled, timed, shift_granularity, Int.sub_one_lt_iff]
    · simp [found, disabled, timed]
  · rw [if_neg timed]
    simp [disabled, timed]
    omega

theorem sequenceLocksFrom_cons_eq_some {txin : CTxIn} {nCoinHeight : Int}
    {rest : List (CTxIn × Int)} {lockPair result : Int × Int} {prevHeights : List Int} :
    sequenceLocksFrom nTime block ((txin, nCoinHeight) :: rest) lockPair =
        some (result, prevHeights) ↔
      ∃ next height tail,
        sequenceLockStep nTime block lockPair txin nCoinHeight = some (next, height) ∧
          sequenceLocksFrom nTime block rest next = some (result, tail) ∧
          prevHeights = height :: tail := by
  simp only [sequenceLocksFrom, Option.pure_def, Option.bind_eq_bind, Option.bind_eq_some_iff,
    Option.some.injEq, Prod.exists, Prod.mk.injEq]
  constructor
  · rintro ⟨next, nextTime, height, stepped, _, _, tail, continued, rfl, rfl⟩
    exact ⟨next, nextTime, height, tail, stepped, continued, rfl⟩
  · rintro ⟨next, nextTime, height, tail, stepped, continued, rfl⟩
    exact ⟨next, nextTime, height, stepped, result.1, result.2, tail, continued, rfl, rfl⟩

/--
The loop keeps the lock pair below a bound exactly when it starts below it
and every input's lock has passed: the pair is a running maximum.
-/
theorem sequenceLocksFrom_below {nBlockTime : Int} :
    ∀ (inputs : List (CTxIn × Int)) (lockPair : Int × Int),
      (∃ result prevHeights,
          sequenceLocksFrom nTime block inputs lockPair = some (result, prevHeights) ∧
            result.1 < block.nHeight ∧ result.2 < nBlockTime) ↔
        lockPair.1 < block.nHeight ∧ lockPair.2 < nBlockTime ∧
          ∀ input ∈ inputs, RelativeLockPassed nTime block nBlockTime input.1 input.2
  | [], lockPair => by
      simp [sequenceLocksFrom]
  | (txin, nCoinHeight) :: rest, lockPair => by
      constructor
      · rintro ⟨result, prevHeights, ran, resultBelow⟩
        obtain ⟨next, height, tail, stepped, continued, -⟩ :=
          sequenceLocksFrom_cons_eq_some.mp ran
        obtain ⟨nextBelow, nextTimeBelow, restPassed⟩ :=
          (sequenceLocksFrom_below rest next).mp ⟨result, tail, continued, resultBelow⟩
        obtain ⟨lockBelow, timeBelow, passed⟩ :=
          sequenceLockStep_below.mp ⟨next, height, stepped, nextBelow, nextTimeBelow⟩
        refine ⟨lockBelow, timeBelow, ?_⟩
        intro input member
        rcases List.mem_cons.mp member with first | later
        · rw [first]
          exact passed
        · exact restPassed input later
      · rintro ⟨lockBelow, timeBelow, passed⟩
        obtain ⟨next, height, stepped, nextBelow, nextTimeBelow⟩ :=
          sequenceLockStep_below.mpr ⟨lockBelow, timeBelow, passed _ List.mem_cons_self⟩
        obtain ⟨result, tail, continued, resultBelow⟩ :=
          (sequenceLocksFrom_below rest next).mpr ⟨nextBelow, nextTimeBelow,
            fun input member => passed input (List.mem_cons_of_mem _ member)⟩
        exact ⟨result, height :: tail,
          sequenceLocksFrom_cons_eq_some.mpr ⟨next, height, tail, stepped, continued, rfl⟩,
          resultBelow⟩

theorem EvaluateSequenceLocks_eq_some_true_iff {lockPair : Int × Int} :
    EvaluateSequenceLocks nTime block lockPair = some true ↔
      block.pprev.isNull = false ∧ lockPair.1 < block.nHeight ∧
        lockPair.2 < CBlockIndex.GetMedianTimePast nTime block.pprev := by
  unfold EvaluateSequenceLocks
  cases block.pprev.isNull
  · simp only [Bool.false_eq_true, if_false, Option.some.injEq, Bool.not_eq_true',
      Bool.or_eq_false_iff, decide_eq_false_iff_not, true_and]
    omega
  · simp

/-- `SequenceLocks` is the evaluation of the lock pair that `CalculateSequenceLocks` gives. -/
theorem SequenceLocks_eq_some {tx : CTransaction} {flags : Nat} {prevHeights : List Int}
    {verdict : Bool} :
    SequenceLocks nTime tx flags prevHeights block = some verdict ↔
      ∃ lockPair heights,
        CalculateSequenceLocks nTime tx flags prevHeights block = some (lockPair, heights) ∧
          EvaluateSequenceLocks nTime block lockPair = some verdict := by
  simp only [SequenceLocks, Option.bind_eq_bind, Option.bind_eq_some_iff, Prod.exists]

variable {tx : CTransaction} {flags : Nat} {prevHeights : List Int}

/-- With a height for every input, the lock pair is below a bound exactly when the bound is above `-1` and the enforced locks have passed. -/
theorem CalculateSequenceLocks_below {nBlockTime : Int}
    (sized : prevHeights.length = tx.vin.length) :
    (∃ lockPair heights,
        CalculateSequenceLocks nTime tx flags prevHeights block = some (lockPair, heights) ∧
          lockPair.1 < block.nHeight ∧ lockPair.2 < nBlockTime) ↔
      -1 < block.nHeight ∧ -1 < nBlockTime ∧
        (fEnforceBIP68 tx flags = true →
          ∀ input ∈ tx.vin.zip prevHeights,
            RelativeLockPassed nTime block nBlockTime input.1 input.2) := by
  unfold CalculateSequenceLocks
  rw [if_neg (not_not.mpr sized)]
  cases fEnforceBIP68 tx flags
  · simp
  · simp only [Bool.not_true, Bool.false_eq_true, if_false, forall_const]
    exact sequenceLocksFrom_below _ _

theorem SequenceLocks_sound (passes : SequenceLocks nTime tx flags prevHeights block = some true) :
    SequenceLocksHold nTime tx flags prevHeights block := by
  obtain ⟨lockPair, heights, calculated, evaluated⟩ := SequenceLocks_eq_some.mp passes
  obtain ⟨hasParent, heightBelow, timeBelow⟩ :=
    EvaluateSequenceLocks_eq_some_true_iff.mp evaluated
  have sized : prevHeights.length = tx.vin.length := by
    by_contra unsized
    simp [CalculateSequenceLocks, unsized] at calculated
  obtain ⟨heightNonneg, timeNonneg, inputs⟩ :=
    (CalculateSequenceLocks_below sized).mp ⟨lockPair, heights, calculated, heightBelow, timeBelow⟩
  exact ⟨sized, hasParent, by omega, by omega, inputs⟩

theorem SequenceLocks_complete (holds : SequenceLocksHold nTime tx flags prevHeights block) :
    SequenceLocks nTime tx flags prevHeights block = some true := by
  have heightAbove : -1 < block.nHeight := by
    have := holds.heightNonneg
    omega
  have timeAbove : -1 < CBlockIndex.GetMedianTimePast nTime block.pprev := by
    have := holds.timeNonneg
    omega
  obtain ⟨lockPair, heights, calculated, heightBelow, timeBelow⟩ :=
    (CalculateSequenceLocks_below holds.sized).mpr ⟨heightAbove, timeAbove, holds.inputs⟩
  exact SequenceLocks_eq_some.mpr ⟨lockPair, heights, calculated,
    EvaluateSequenceLocks_eq_some_true_iff.mpr ⟨holds.hasParent, heightBelow, timeBelow⟩⟩

/--
`SequenceLocks` passes exactly when BIP 68 holds: every input has a coin
height, the block a parent, and every enforced relative lock has passed.
-/
theorem SequenceLocks_eq_some_true_iff :
    SequenceLocks nTime tx flags prevHeights block = some true ↔
      SequenceLocksHold nTime tx flags prevHeights block :=
  ⟨SequenceLocks_sound, SequenceLocks_complete⟩

end Spec

/-! ## Along a chain -/

section Chain

variable {nTime : CBlockIndex → Int} {block later : CBlockIndex}

/-- `GetAncestor` finds an entry only between genesis and the entry itself. -/
theorem GetAncestor_bounds {index : CBlockIndex} {height : Int}
    (found : (index.GetAncestor height).isNull = false) :
    0 ≤ height ∧ height ≤ index.nHeight := by
  unfold CBlockIndex.GetAncestor at found
  by_contra outside
  rw [if_pos (by omega)] at found
  cases found

/-- The loop body reads the block only through the ancestors it finds, which `later` shares. -/
theorem sequenceLockStep_agree
    (agree : ∀ height, (block.GetAncestor height).isNull = false →
      later.GetAncestor height = block.GetAncestor height)
    {lockPair : Int × Int} {txin : CTxIn} {nCoinHeight : Int} {result : (Int × Int) × Int}
    (stepped : sequenceLockStep nTime block lockPair txin nCoinHeight = some result) :
    sequenceLockStep nTime later lockPair txin nCoinHeight = some result := by
  unfold sequenceLockStep at stepped ⊢
  by_cases disabled : txin.nSequence.toNat &&& SEQUENCE_LOCKTIME_DISABLE_FLAG ≠ 0
  · rw [if_pos disabled] at stepped ⊢
    exact stepped
  rw [if_neg disabled] at stepped ⊢
  by_cases timed : txin.nSequence.toNat &&& SEQUENCE_LOCKTIME_TYPE_FLAG ≠ 0
  · rw [if_pos timed] at stepped ⊢
    cases found : (block.GetAncestor (max (nCoinHeight - 1) 0)).isNull
    · rw [agree _ found]
      exact stepped
    · simp only [found, if_true, reduceCtorEq] at stepped
  · rw [if_neg timed] at stepped ⊢
    exact stepped

theorem sequenceLocksFrom_agree
    (agree : ∀ height, (block.GetAncestor height).isNull = false →
      later.GetAncestor height = block.GetAncestor height) :
    ∀ (inputs : List (CTxIn × Int)) (lockPair : Int × Int) (result : (Int × Int) × List Int),
      sequenceLocksFrom nTime block inputs lockPair = some result →
        sequenceLocksFrom nTime later inputs lockPair = some result
  | [], _, _, ran => ran
  | (txin, nCoinHeight) :: rest, lockPair, (result, prevHeights), ran => by
      obtain ⟨next, height, tail, stepped, continued, rfl⟩ := sequenceLocksFrom_cons_eq_some.mp ran
      exact sequenceLocksFrom_cons_eq_some.mpr ⟨next, height, tail,
        sequenceLockStep_agree agree stepped,
        sequenceLocksFrom_agree agree rest next (result, tail) continued, rfl⟩

theorem CalculateSequenceLocks_agree
    (agree : ∀ height, (block.GetAncestor height).isNull = false →
      later.GetAncestor height = block.GetAncestor height)
    {tx : CTransaction} {flags : Nat} {prevHeights : List Int}
    {result : (Int × Int) × List Int}
    (calculated : CalculateSequenceLocks nTime tx flags prevHeights block = some result) :
    CalculateSequenceLocks nTime tx flags prevHeights later = some result := by
  unfold CalculateSequenceLocks at calculated ⊢
  by_cases unsized : prevHeights.length ≠ tx.vin.length
  · rw [if_pos unsized] at calculated
    cases calculated
  rw [if_neg unsized] at calculated ⊢
  by_cases unenforced : (!fEnforceBIP68 tx flags) = true
  · rw [if_pos unenforced] at calculated ⊢
    exact calculated
  · rw [if_neg unenforced] at calculated ⊢
    exact sequenceLocksFrom_agree agree _ _ _ calculated

/-- The median time past by insertion sort, which reduces on a concrete chain where `mergeSort` does not. -/
theorem GetMedianTimePast_eq_insertionSort (index : CBlockIndex) :
    CBlockIndex.GetMedianTimePast nTime index =
      ((CBlockIndex.medianTimes nTime nMedianTimeSpan index).reverse.insertionSort (· ≤ ·)).getD
        ((CBlockIndex.medianTimes nTime nMedianTimeSpan index).reverse.length / 2) 0 := by
  rw [CBlockIndex.GetMedianTimePast_eq, Median.middle,
    List.mergeSort_eq_insertionSort (· ≤ ·)]

/-- `pprev` after steps back is one step further back. -/
theorem pprev_prevN (steps : Nat) (index : CBlockIndex) :
    (index.prevN steps).pprev = index.prevN (steps + 1) := by
  rw [Nat.add_comm, CBlockIndex.prevN_add]
  rfl

/-- An ancestor of a well-formed entry finds the entry's own ancestors. -/
theorem GetAncestor_prevN_agree (wellFormed : later.WellFormed) {steps : Nat}
    (within : (steps : Int) ≤ later.nHeight) (height : Int)
    (found : ((later.prevN steps).GetAncestor height).isNull = false) :
    later.GetAncestor height = (later.prevN steps).GetAncestor height := by
  obtain ⟨nonneg, below⟩ := GetAncestor_bounds found
  obtain ⟨-, blockHeight⟩ := wellFormed.prevN steps within
  rw [← wellFormed.GetAncestor_sub (by omega),
    CBlockIndex.GetAncestor_GetAncestor wellFormed nonneg (by omega) (by omega)]

/--
A transaction whose relative locks pass at a block passes them at every
later block of its chain, where every block's time passed `time-too-old`:
the locks of the inputs read the same ancestors, the height grows, and
the median time past does not fall.
-/
theorem SequenceLocks_descendant (wellFormed : later.WellFormed)
    (valid : CBlockIndex.TimesValid nTime later = true) {steps : Nat}
    {tx : CTransaction} {flags : Nat} {prevHeights : List Int}
    (passes : SequenceLocks nTime tx flags prevHeights (later.prevN steps) = some true) :
    SequenceLocks nTime tx flags prevHeights later = some true := by
  obtain ⟨lockPair, heights, calculated, evaluated⟩ := SequenceLocks_eq_some.mp passes
  obtain ⟨hasParent, heightBelow, timeBelow⟩ :=
    EvaluateSequenceLocks_eq_some_true_iff.mp evaluated
  rw [pprev_prevN] at hasParent timeBelow
  have within : ((steps + 1 : Nat) : Int) ≤ later.nHeight :=
    wellFormed.le_nHeight_of_prevN hasParent
  obtain ⟨-, blockHeight⟩ := wellFormed.prevN steps (by omega)
  obtain ⟨parentWell, parentHeight⟩ := wellFormed.pprev (by omega)
  have parentValid : CBlockIndex.TimesValid nTime later.pprev = true :=
    CBlockIndex.TimesValid_prevN 1 valid
  have timesRise := CBlockIndex.GetMedianTimePast_prevN_le steps parentWell parentValid
    (by omega)
  refine SequenceLocks_eq_some.mpr ⟨lockPair, heights,
    CalculateSequenceLocks_agree (GetAncestor_prevN_agree wellFormed (by omega)) calculated,
    EvaluateSequenceLocks_eq_some_true_iff.mpr ⟨parentWell.isNull, by omega, ?_⟩⟩
  rw [CBlockIndex.prevN_succ] at timeBelow
  omega

/-- A version 2 spend of the coin at `⟨21, 0⟩` whose input waits one block. -/
def relativeLockedSpend : CTransaction where
  vin := [⟨⟨21, 0⟩, [], 1, ⟨[]⟩⟩]
  vout := []
  nVersion := 2
  nLockTime := 0
  hash := 13

/-- With block times equal to heights, the spend of a coin of height 1 passes at height 2, and so at height 3. -/
theorem SequenceLocks_descendant_relativeLockedSpend :
    let later := ((mainGenesisIndex.extend 1 0).extend 2 0).extend 3 0
    later.WellFormed ∧ CBlockIndex.TimesValid CBlockIndex.nHeight later = true ∧
      SequenceLocks CBlockIndex.nHeight relativeLockedSpend LOCKTIME_VERIFY_SEQUENCE [1]
          (later.prevN 1) = some true ∧
      SequenceLocks CBlockIndex.nHeight relativeLockedSpend LOCKTIME_VERIFY_SEQUENCE [1] later =
        some true :=
  have wellFormed : (((mainGenesisIndex.extend 1 0).extend 2 0).extend 3 0).WellFormed :=
    .extend _ _ (.extend _ _ (.extend _ _ (.genesis _ _)))
  have valid : CBlockIndex.TimesValid CBlockIndex.nHeight
      (((mainGenesisIndex.extend 1 0).extend 2 0).extend 3 0) = true := by
    simp only [CBlockIndex.extend, mainGenesisIndex, CBlockIndex.TimesValid,
      GetMedianTimePast_eq_insertionSort]
    decide
  have passes : SequenceLocks CBlockIndex.nHeight relativeLockedSpend LOCKTIME_VERIFY_SEQUENCE
      [1] ((((mainGenesisIndex.extend 1 0).extend 2 0).extend 3 0).prevN 1) = some true := by
    simp only [SequenceLocks, EvaluateSequenceLocks, GetMedianTimePast_eq_insertionSort]
    decide
  ⟨wellFormed, valid, passes, SequenceLocks_descendant wellFormed valid passes⟩

end Chain

/-! ## In `ConnectBlock` -/

/--
The `SequenceLocks` of the checks passes only where the source's does, for
the lock-time flags and the entry of the block connected.
-/
def ConnectChecks.ChecksSequenceLocks (checks : ConnectChecks) (nTime : CBlockIndex → Int)
    (nLockTimeFlags : Nat) (pindex : CBlockIndex) : Prop :=
  ∀ tx prevheights, checks.SequenceLocks tx prevheights = true →
    Kevacoin.SequenceLocks nTime tx nLockTimeFlags (prevheights.map Int.ofNat) pindex = some true

section Connect

variable {checks : ConnectChecks} {nHeight : Int}

/-- `ConnectBlock` reads a coin height for every input. -/
theorem length_prevHeights : ∀ (vin : List CTxIn) (base : CCoinsView) (cache : CCoinsViewCache),
    (prevHeights vin base cache).1.length = vin.length
  | [], _, _ => rfl
  | input :: rest, base, cache => by
      simp only [prevHeights, List.length_cons, length_prevHeights]

/-- A transaction that `checkSpends` lets through passed `CheckTxInputs`, then its sequence locks against the coin heights of the view that left. -/
theorem checkSpends_sequenceLocks {state checked : ConnectState} {tx : CTransaction}
    (accepted : checkSpends checks nHeight state tx = .ok checked) :
    ∃ txfee base cache,
      CheckTxInputs tx state.base state.cache nHeight = .ok (txfee, base, cache) ∧
        checks.SequenceLocks tx (prevHeights tx.vin base cache).1 = true := by
  unfold checkSpends at accepted
  obtain ⟨⟨txfee, base, cache⟩, inputsChecked, rest⟩ := Except.bind_eq_ok.mp accepted
  refine ⟨txfee, base, cache, inputsChecked, ?_⟩
  simp only at rest
  split at rest
  · cases rest
  split at rest
  · cases rest
  · rename_i locked
    simpa using locked

variable {hashes : HashPrimitives} {params : ConsensusParams} {block : CBlock}
  {pindex : CBlockIndex} {base : CCoinsView} {cache : CCoinsViewCache}
  {result : CBlockUndo × CCoinsView × CCoinsViewCache}

/--
In a block that `ConnectBlock` accepts with the source's sequence locks,
every transaction but the coinbase that enforces BIP 68 has the relative
lock of every input passed, for the height of the coin the input spends
in the view that the transactions before it left.
-/
theorem ConnectBlock_relative_locks_passed {nTime : CBlockIndex → Int} {nLockTimeFlags : Nat}
    (sound : checks.ChecksSequenceLocks nTime nLockTimeFlags pindex)
    (accepted : ConnectBlock hashes params checks block pindex base cache = .ok result)
    (notGenesis : block.header.GetHash hashes ≠ params.hashGenesisBlock)
    (position : Nat) (tx : CTransaction) (found : block.vtx[position]? = some tx)
    (spend : tx.IsCoinBase = false) (enforced : fEnforceBIP68 tx nLockTimeFlags = true) :
    ∃ reached txfee base' cache',
      connectTransactions checks pindex.nHeight 0 (block.vtx.take position)
          ⟨(GetBestBlock base cache).2.1, (GetBestBlock base cache).2.2, CBlockUndo.empty,
            0, 0⟩ = .ok reached ∧
        CheckTxInputs tx reached.base reached.cache pindex.nHeight = .ok (txfee, base', cache') ∧
        ∀ input ∈ tx.vin.zip ((prevHeights tx.vin base' cache').1.map Int.ofNat),
          RelativeLockPassed nTime pindex (CBlockIndex.GetMedianTimePast nTime pindex.pprev)
            input.1 input.2 := by
  obtain ⟨final, loop⟩ := ConnectBlock_ok_connectTransactions accepted notGenesis
  obtain ⟨reached, next, run, connected⟩ := connectTransactions_at loop position tx found
  obtain ⟨checked, spendsChecked⟩ := connectTransaction_checkSpends spend connected
  obtain ⟨txfee, base', cache', inputsChecked, locked⟩ := checkSpends_sequenceLocks spendsChecked
  exact ⟨reached, txfee, base', cache', run, inputsChecked,
    (SequenceLocks_sound (sound tx _ locked)).inputs enforced⟩

end Connect

/-! ## The source's sequence locks in `ConnectBlock` -/

/-- The checks of `acceptingChecks` with the source's `SequenceLocks`, for the flags and the entry of the block. -/
def sequenceChecks (nTime : CBlockIndex → Int) (nLockTimeFlags : Nat) (pindex : CBlockIndex) :
    ConnectChecks :=
  { acceptingChecks with
    SequenceLocks := fun tx prevheights =>
      (Kevacoin.SequenceLocks nTime tx nLockTimeFlags (prevheights.map Int.ofNat) pindex).getD
        false }

theorem sequenceChecks_checksSequenceLocks (nTime : CBlockIndex → Int) (nLockTimeFlags : Nat)
    (pindex : CBlockIndex) :
    (sequenceChecks nTime nLockTimeFlags pindex).ChecksSequenceLocks nTime nLockTimeFlags
      pindex := by
  intro tx prevheights locked
  cases verdict : SequenceLocks nTime tx nLockTimeFlags (prevheights.map Int.ofNat) pindex with
  | none =>
      simp only [sequenceChecks, verdict, Option.getD_none, Bool.false_eq_true] at locked
  | some outcome =>
      simp only [sequenceChecks, verdict, Option.getD_some] at locked
      rw [locked]

/-- The source's sequence locks at block 2, with every block time zero. -/
def registrationChecks : ConnectChecks :=
  sequenceChecks (fun _ => 0) LOCKTIME_VERIFY_SEQUENCE blockTwoIndex

/-- The registrations opt out of relative locks, so they pass at block 2. -/
theorem registrationChecks_registration (spent hash : uint256) (heights : List Nat)
    (sized : heights.length = (registration spent hash).vin.length) :
    registrationChecks.SequenceLocks (registration spent hash) heights = true := by
  have holds : SequenceLocksHold (fun _ => 0) (registration spent hash) LOCKTIME_VERIFY_SEQUENCE
      (heights.map Int.ofNat) blockTwoIndex := by
    refine ⟨by rw [List.length_map, sized], by decide, by decide, ?_, ?_⟩
    · rw [GetMedianTimePast_eq_insertionSort]
      decide
    · intro _ input member
      have spends := (List.of_mem_zip member).1
      simp only [registration, List.mem_singleton] at spends
      rw [spends]
      exact Or.inl (show (0xffffffff : UInt32).toNat &&& SEQUENCE_LOCKTIME_DISABLE_FLAG ≠ 0 by
        decide)
  show (SequenceLocks _ _ _ _ _).getD false = true
  rw [SequenceLocks_complete holds]
  rfl

/-- `ConnectBlock` with the source's sequence locks accepts the block of two registrations. -/
theorem registrations_connect_with_sequence_locks :
    ∃ result, ConnectBlock constantHashes mainParams registrationChecks doubleRegistrationBlock
      blockTwoIndex twoCoinsView .initial = .ok result := by
  have hashMatches :
      (1 : uint256) = doubleRegistrationBlock.header.GetHash constantHashes := by
    decide
  have heightMatches : doubleRegistrationBlock.header.nNonce.toInt32.toInt =
      (CBlockIndex.entry 5 1 0 mainGenesisIndex mainGenesisIndex).nHeight + 1 := by
    decide
  have scriptsValid : ∀ tx view, registrationChecks.CheckInputs tx view = .ok () :=
    fun _ _ => rfl
  have noSigops : ∀ tx view, registrationChecks.GetTransactionSigOpCost tx view = 0 :=
    fun _ _ => rfl
  have transactions : doubleRegistrationBlock.vtx =
      [plainCoinbase, registration 21 11, registration 22 12] := rfl
  rw [blockTwoIndex, CBlockIndex.extend,
    ConnectBlock_of_checked hashMatches heightMatches rfl rfl (by decide) rfl, transactions]
  simp only [connectTransactions, connectTransaction, checkSpends,
    registrationChecks_registration _ _ _ (length_prevHeights _ _ _), scriptsValid, noSigops]
  exact ⟨_, rfl⟩

theorem ConnectBlock_relative_locks_passed_registration :
    (∃ result, ConnectBlock constantHashes mainParams registrationChecks doubleRegistrationBlock
        blockTwoIndex twoCoinsView .initial = .ok result) ∧
      fEnforceBIP68 (registration 21 11) LOCKTIME_VERIFY_SEQUENCE = true ∧
      ∃ reached txfee base' cache',
        connectTransactions registrationChecks blockTwoIndex.nHeight 0
            (doubleRegistrationBlock.vtx.take 1)
            ⟨(GetBestBlock twoCoinsView .initial).2.1, (GetBestBlock twoCoinsView .initial).2.2,
              CBlockUndo.empty, 0, 0⟩ = .ok reached ∧
          CheckTxInputs (registration 21 11) reached.base reached.cache blockTwoIndex.nHeight =
            .ok (txfee, base', cache') ∧
          ∀ input ∈ (registration 21 11).vin.zip
              ((prevHeights (registration 21 11).vin base' cache').1.map Int.ofNat),
            RelativeLockPassed (fun _ => 0) blockTwoIndex
              (CBlockIndex.GetMedianTimePast (fun _ => 0) blockTwoIndex.pprev) input.1 input.2 := by
  obtain ⟨result, accepted⟩ := registrations_connect_with_sequence_locks
  exact ⟨⟨result, accepted⟩, by decide,
    ConnectBlock_relative_locks_passed (sequenceChecks_checksSequenceLocks _ _ _) accepted
      (by decide) 1 _ rfl rfl (by decide)⟩

end Kevacoin
