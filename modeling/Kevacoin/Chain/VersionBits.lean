import Kevacoin.Chain.MedianTime
import Kevacoin.Data.Memo
import Mathlib.Logic.Relation

/-!
# BIP9 deployment states

`AbstractThresholdConditionChecker::GetStateFor` of `versionbits.cpp`: the
state of a deployment for the block after `pindexPrev`.  States change only
at the end of a period of `nPeriod` blocks, by the `switch` of the function
(`nextState`): `DEFINED` becomes `STARTED` once the median time past reaches
the start time, `STARTED` becomes `LOCKED_IN` when at least `nThreshold`
blocks of the period signal, `LOCKED_IN` becomes `ACTIVE`, and the first two
fail at the timeout.  `GetStateFor` memoises the state of each period end in
a `ThresholdConditionCache` shared by all queries: it walks back a period at
a time to an entry the cache knows, stopping early at `nullptr` and where the
median time past is before the start time, and then walks forward.

What it computes is the state by definition (`stateByDefinition`):
`DEFINED` before the first period, then `nextState` at every period end of
the ancestry in turn.  On the tree the node builds, whose blocks passed
`time-too-old`, every answer of any sequence of queries sharing one cache is
that state, as long as the start time is not `ALWAYS_ACTIVE` and not after
the timeout.  The proof keeps one invariant of the cache, that it agrees
with the definition (`Memo.Agrees`): the walk back ends at an entry whose
state is known (`walkBack_spec`), the early stop is sound because the median
time past never falls along such an ancestry, and the walk forward applies
the recursion of the definition from one period end to the next
(`walkForward_spec`).  Along a chain the state only moves forward
(`stateByDefinition_prevN_advances`).
-/

namespace Kevacoin

/-- `ThresholdState`. -/
inductive ThresholdState where
  | THRESHOLD_DEFINED
  | THRESHOLD_STARTED
  | THRESHOLD_LOCKED_IN
  | THRESHOLD_ACTIVE
  | THRESHOLD_FAILED
deriving DecidableEq, Repr

open ThresholdState

/-- The moves of a deployment from one period to the next; `FAILED` and `ACTIVE` are terminal. -/
inductive ThresholdState.Advances : ThresholdState → ThresholdState → Prop
  | start : Advances THRESHOLD_DEFINED THRESHOLD_STARTED
  | lockIn : Advances THRESHOLD_STARTED THRESHOLD_LOCKED_IN
  | activate : Advances THRESHOLD_LOCKED_IN THRESHOLD_ACTIVE
  | timeoutDefined : Advances THRESHOLD_DEFINED THRESHOLD_FAILED
  | timeoutStarted : Advances THRESHOLD_STARTED THRESHOLD_FAILED

/-- `Consensus::BIP9Deployment::ALWAYS_ACTIVE`, the start time of a deployment that is always active. -/
def ALWAYS_ACTIVE : Int := -1

/--
An `AbstractThresholdConditionChecker` with its `Consensus::Params` read:
whether a block signals (`Condition`), the start time and the timeout, the
length of a period and the number of signalling blocks that locks the
deployment in.  The source divides heights by the period.
-/
structure AbstractThresholdConditionChecker where
  Condition : CBlockIndex → Bool
  BeginTime : Int
  EndTime : Int
  Period : Nat
  Threshold : Nat
  periodPositive : 0 < Period

/-- `ThresholdConditionCache`: the state known for the block after each period end, `nullptr` included. -/
abbrev ThresholdConditionCache : Type := CBlockIndex → Option ThresholdState

namespace CBlockIndex

/-- The entries of the ancestry, genesis first and the entry itself last. -/
def ancestry : CBlockIndex → List CBlockIndex
  | .null => []
  | index@(.entry _ _ _ parent _) => ancestry parent ++ [index]

/-- Every entry of the ancestry is reached through `pprev`. -/
theorem mem_ancestry : ∀ {index member : CBlockIndex}, member ∈ index.ancestry →
    ∃ steps, member = index.prevN steps ∧ member.isNull = false
  | .null, _, inAncestry => by
    rw [ancestry] at inAncestry
    cases inAncestry
  | .entry hashBlock nHeight nStatus parent pskip, member, inAncestry => by
    rw [ancestry, List.mem_append, List.mem_singleton] at inAncestry
    rcases inAncestry with earlier | last
    · obtain ⟨steps, rfl, entry⟩ := mem_ancestry earlier
      exact ⟨steps + 1, rfl, entry⟩
    · exact ⟨0, last, by rw [last]; rfl⟩

end CBlockIndex

open CBlockIndex

namespace AbstractThresholdConditionChecker

variable (checker : AbstractThresholdConditionChecker) (nTime : CBlockIndex → Int)

/-- The counting loop of the `STARTED` case: how many of `count` entries back from `pindexCount` signal. -/
def countCondition : Nat → CBlockIndex → Nat
  | 0, _ => 0
  | count + 1, pindexCount =>
      (if checker.Condition pindexCount then 1 else 0) + countCondition count pindexCount.pprev

/-- The `switch` of the walk forward: the state after the period `pindexPrev` ends, from the state during it. -/
def nextState (state : ThresholdState) (pindexPrev : CBlockIndex) : ThresholdState :=
  match state with
  | THRESHOLD_DEFINED =>
      if GetMedianTimePast nTime pindexPrev ≥ checker.EndTime then THRESHOLD_FAILED
      else if GetMedianTimePast nTime pindexPrev ≥ checker.BeginTime then THRESHOLD_STARTED
      else THRESHOLD_DEFINED
  | THRESHOLD_STARTED =>
      if GetMedianTimePast nTime pindexPrev ≥ checker.EndTime then THRESHOLD_FAILED
      else if checker.countCondition checker.Period pindexPrev ≥ checker.Threshold then
        THRESHOLD_LOCKED_IN
      else THRESHOLD_STARTED
  | THRESHOLD_LOCKED_IN => THRESHOLD_ACTIVE
  | THRESHOLD_FAILED => THRESHOLD_FAILED
  | THRESHOLD_ACTIVE => THRESHOLD_ACTIVE

/--
The first loop of `GetStateFor`: while the cache does not know `pindexPrev`,
push it on `vToCompute` and go back a period.  `nullptr` and an entry whose
median time past is before the start time are `DEFINED`, written to the
cache.  `vToCompute` is kept back first; `fuel` bounds the pushes.
-/
def walkBack (cache : ThresholdConditionCache) (fuel : Nat) (pindexPrev : CBlockIndex)
    (vToCompute : List CBlockIndex) :
    Option (CBlockIndex × List CBlockIndex × ThresholdConditionCache) :=
  if (cache pindexPrev).isSome then some (pindexPrev, vToCompute, cache)
  else if pindexPrev.isNull then
    some (pindexPrev, vToCompute, Function.update cache pindexPrev (some THRESHOLD_DEFINED))
  else if GetMedianTimePast nTime pindexPrev < checker.BeginTime then
    some (pindexPrev, vToCompute, Function.update cache pindexPrev (some THRESHOLD_DEFINED))
  else
    match fuel with
    | 0 => none
    | fuel + 1 =>
        walkBack cache fuel (pindexPrev.GetAncestor (pindexPrev.nHeight - checker.Period))
          (pindexPrev :: vToCompute)

/-- The second loop of `GetStateFor`: off `vToCompute` oldest first, each state from the one before, written to the cache. -/
def walkForward : ThresholdState → List CBlockIndex → ThresholdConditionCache →
    ThresholdState × ThresholdConditionCache
  | state, [], cache => (state, cache)
  | state, pindexPrev :: vToCompute, cache =>
      let stateNext := checker.nextState nTime state pindexPrev
      walkForward stateNext vToCompute (Function.update cache pindexPrev (some stateNext))

/-- The entry `GetStateFor` starts from: the last period end at or below `pindexPrev`. -/
def periodEndOf (pindexPrev : CBlockIndex) : CBlockIndex :=
  if pindexPrev.isNull then pindexPrev
  else pindexPrev.GetAncestor (pindexPrev.nHeight - (pindexPrev.nHeight + 1).tmod checker.Period)

/--
`GetStateFor`: the state for the block after `pindexPrev`, and the cache it
leaves; `none` where the assertion that the walk back ended at a known entry
fails, or the walk runs out of fuel.
-/
def GetStateFor (pindexPrev : CBlockIndex) (cache : ThresholdConditionCache) :
    Option (ThresholdState × ThresholdConditionCache) :=
  if checker.BeginTime = ALWAYS_ACTIVE then some (THRESHOLD_ACTIVE, cache)
  else
    let pindexPrev := checker.periodEndOf pindexPrev
    (checker.walkBack nTime cache (pindexPrev.nHeight.toNat + 1) pindexPrev []).bind
      fun (pindexPrev, vToCompute, cache) =>
        (cache pindexPrev).map fun state => checker.walkForward nTime state vToCompute cache

/-- Queries one after another, sharing one cache: the answers, and the cache they leave. -/
def GetStatesFor (queries : List CBlockIndex) (cache : ThresholdConditionCache) :
    Option (List ThresholdState × ThresholdConditionCache) :=
  Memo.answerAll (checker.GetStateFor nTime) queries cache

/-! ## The state by definition -/

/-- The entry ends a period: its height is one below a multiple of the period. -/
def EndsPeriod (index : CBlockIndex) : Bool :=
  decide ((index.nHeight + 1) % (checker.Period : Int) = 0)

/-- The period ends of the ancestry, genesis first. -/
def periodEnds (index : CBlockIndex) : List CBlockIndex :=
  index.ancestry.filter checker.EndsPeriod

/-- `DEFINED` before the first period, then the transition at every period end of the ancestry in turn. -/
def stateByDefinition (index : CBlockIndex) : ThresholdState :=
  (checker.periodEnds index).foldl (checker.nextState nTime) THRESHOLD_DEFINED

/-- What `GetStateFor` is asked about: `nullptr`, or an entry of the tree whose blocks passed `time-too-old`. -/
def ValidPrev (pindexPrev : CBlockIndex) : Prop :=
  pindexPrev = .null ∨ (pindexPrev.WellFormed ∧ TimesValid nTime pindexPrev = true)

/-- What the walk back visits: `nullptr`, or a period end of such a tree. -/
def Visitable (pindexPrev : CBlockIndex) : Prop :=
  pindexPrev = .null ∨
    (pindexPrev.WellFormed ∧ TimesValid nTime pindexPrev = true ∧ checker.EndsPeriod pindexPrev = true)

/-- `vToCompute`, back first, leads from `base` to `top`, each entry a period end whose previous one is the entry before it. -/
def ChainedTo (base : CBlockIndex) : List CBlockIndex → CBlockIndex → Prop
  | [], top => base = top
  | pindexPrev :: vToCompute, top =>
      pindexPrev.WellFormed ∧ checker.EndsPeriod pindexPrev = true ∧
        pindexPrev.GetAncestor (pindexPrev.nHeight - checker.Period) = base ∧
        ChainedTo pindexPrev vToCompute top

variable {checker nTime}

/-! ## The transition -/

theorem nextState_defined_of_lt {pindexPrev : CBlockIndex}
    (beforeStart : GetMedianTimePast nTime pindexPrev < checker.BeginTime)
    (beforeTimeout : GetMedianTimePast nTime pindexPrev < checker.EndTime) :
    checker.nextState nTime THRESHOLD_DEFINED pindexPrev = THRESHOLD_DEFINED := by
  rw [nextState, if_neg (Int.not_le.mpr beforeTimeout), if_neg (Int.not_le.mpr beforeStart)]

/-- Each period's state is the one before or a move on from it. -/
theorem nextState_advances (state : ThresholdState) (pindexPrev : CBlockIndex) :
    Relation.ReflTransGen ThresholdState.Advances state (checker.nextState nTime state pindexPrev) := by
  cases state with
  | THRESHOLD_DEFINED =>
      rw [nextState]
      split
      · exact .single .timeoutDefined
      · split
        · exact .single .start
        · exact .refl
  | THRESHOLD_STARTED =>
      rw [nextState]
      split
      · exact .single .timeoutStarted
      · split
        · exact .single .lockIn
        · exact .refl
  | THRESHOLD_LOCKED_IN => exact .single .activate
  | THRESHOLD_ACTIVE => exact .refl
  | THRESHOLD_FAILED => exact .refl

theorem foldl_nextState_advances : ∀ (periodEnds : List CBlockIndex) (state : ThresholdState),
    Relation.ReflTransGen ThresholdState.Advances state
      (periodEnds.foldl (checker.nextState nTime) state)
  | [], _ => .refl
  | pindexPrev :: rest, state =>
      (nextState_advances state pindexPrev).trans (foldl_nextState_advances rest _)

/-- Periods that all end before the start time and the timeout leave the state `DEFINED`. -/
theorem foldl_nextState_defined : ∀ {periodEnds : List CBlockIndex},
    (∀ member ∈ periodEnds, GetMedianTimePast nTime member < checker.BeginTime ∧
      GetMedianTimePast nTime member < checker.EndTime) →
    periodEnds.foldl (checker.nextState nTime) THRESHOLD_DEFINED = THRESHOLD_DEFINED
  | [], _ => rfl
  | member :: rest, early => by
    obtain ⟨beforeStart, beforeTimeout⟩ := early member (List.mem_cons_self ..)
    rw [List.foldl_cons, nextState_defined_of_lt beforeStart beforeTimeout]
    exact foldl_nextState_defined fun other inRest => early other (List.mem_cons_of_mem _ inRest)

/-! ## Period ends -/

/-- A value strictly between two neighbouring multiples of `P` is none. -/
theorem emod_ne_zero_of_between {x q P : Int} (positive : 0 < P) (lower : P * q < x)
    (upper : x < P * q + P) : x % P ≠ 0 := by
  intro divides
  obtain ⟨k, rfl⟩ := Int.dvd_of_emod_eq_zero divides
  have above : q < k := Int.lt_of_mul_lt_mul_left lower (Int.le_of_lt positive)
  have below : k < q + 1 :=
    Int.lt_of_mul_lt_mul_left (by rw [Int.mul_add, Int.mul_one]; exact upper)
      (Int.le_of_lt positive)
  omega

variable (checker) in
/-- A number of blocks splits into whole periods and a remainder below the period. -/
theorem period_split {count : Int} (nonneg : 0 ≤ count) :
    0 < (checker.Period : Int) ∧ 0 ≤ count % checker.Period ∧ count % checker.Period < checker.Period ∧
      0 ≤ checker.Period * (count / checker.Period) ∧
      checker.Period * (count / checker.Period) + count % checker.Period = count := by
  have positive : (0 : Int) < checker.Period := by exact_mod_cast checker.periodPositive
  exact ⟨positive, Int.emod_nonneg count (Int.ne_of_gt positive), Int.emod_lt_of_pos count positive,
    Int.mul_nonneg (Int.le_of_lt positive) (Int.ediv_nonneg nonneg (Int.le_of_lt positive)),
    Int.mul_ediv_add_emod count checker.Period⟩

/-- A period ends no lower than a period above genesis. -/
theorem Period_le_of_EndsPeriod {index : CBlockIndex} (wellFormed : index.WellFormed)
    (ends : checker.EndsPeriod index = true) : (checker.Period : Int) ≤ index.nHeight + 1 := by
  have nonneg := wellFormed.nHeight_nonneg
  rw [EndsPeriod, decide_eq_true_eq] at ends
  exact Int.le_of_dvd (by omega) (Int.dvd_of_emod_eq_zero ends)

theorem periodEnds_of_entry {index : CBlockIndex} (entry : index.isNull = false) :
    checker.periodEnds index =
      checker.periodEnds index.pprev ++ if checker.EndsPeriod index then [index] else [] := by
  cases index with
  | null => cases entry
  | entry hashBlock nHeight nStatus parent pskip =>
      rw [periodEnds, periodEnds, ancestry, List.filter_append, List.filter_singleton,
        Bool.cond_eq_ite]
      rfl

/-- The period ends of an ancestor are the first of the entry's. -/
theorem isPrefix_periodEnds_prevN : ∀ (steps : Nat) (index : CBlockIndex),
    checker.periodEnds (index.prevN steps) <+: checker.periodEnds index
  | 0, _ => List.prefix_refl _
  | steps + 1, index => by
    rw [prevN_succ]
    refine (isPrefix_periodEnds_prevN steps index.pprev).trans ?_
    cases index with
    | null => exact List.prefix_refl _
    | entry hashBlock nHeight nStatus parent pskip =>
        have entry : (CBlockIndex.entry hashBlock nHeight nStatus parent pskip).isNull = false := rfl
        rw [periodEnds_of_entry entry]
        exact List.prefix_append _ _

/-- Steps back that pass no period end keep the period ends. -/
theorem periodEnds_prevN_eq : ∀ (steps : Nat) {index : CBlockIndex}, index.WellFormed →
    (steps : Int) ≤ index.nHeight + 1 →
    (∀ j < steps, (index.nHeight - j + 1) % (checker.Period : Int) ≠ 0) →
    checker.periodEnds index = checker.periodEnds (index.prevN steps)
  | 0, _, _, _, _ => rfl
  | steps + 1, index, wellFormed, within, passes => by
    have notEnd : checker.EndsPeriod index = false := by
      rw [EndsPeriod, decide_eq_false_iff_not]
      simpa using passes 0 (Nat.succ_pos steps)
    rw [periodEnds_of_entry wellFormed.isNull, notEnd, if_neg Bool.false_ne_true, List.append_nil,
      prevN_succ]
    rcases Nat.eq_zero_or_pos steps with last | more
    · rw [last]
      rfl
    · obtain ⟨parentWell, parentHeight⟩ := wellFormed.pprev (by omega)
      apply periodEnds_prevN_eq steps parentWell (by omega)
      intro j below
      have passed := passes (j + 1) (by omega)
      rw [parentHeight]
      push_cast at passed
      rwa [show index.nHeight - 1 - j + 1 = index.nHeight - (j + 1) + 1 by omega]

/-- From a period end, the previous period end is `nPeriod` heights down. -/
theorem periodEnds_of_endsPeriod {index : CBlockIndex} (wellFormed : index.WellFormed)
    (ends : checker.EndsPeriod index = true) :
    checker.periodEnds index =
      checker.periodEnds (index.GetAncestor (index.nHeight - checker.Period)) ++ [index] := by
  have nonneg := wellFormed.nHeight_nonneg
  have fits := checker.Period_le_of_EndsPeriod wellFormed ends
  obtain ⟨positive, -, -, -, whole⟩ := checker.period_split (by omega : 0 ≤ index.nHeight + 1)
  rw [periodEnds_of_entry wellFormed.isNull, if_pos ends, wellFormed.GetAncestor_sub fits]
  rw [EndsPeriod, decide_eq_true_eq] at ends
  congr 1
  obtain ⟨rest, period⟩ : ∃ rest, checker.Period = rest + 1 :=
    ⟨checker.Period - 1, by have := checker.periodPositive; omega⟩
  rw [period, prevN_succ]
  rcases Int.lt_or_le 0 index.nHeight with above | genesis
  · obtain ⟨parentWell, parentHeight⟩ := wellFormed.pprev above
    apply periodEnds_prevN_eq rest parentWell (by omega)
    intro j below
    rw [parentHeight]
    apply emod_ne_zero_of_between positive (q := (index.nHeight + 1) / checker.Period - 1)
    · rw [Int.mul_sub, Int.mul_one]
      omega
    · rw [Int.mul_sub, Int.mul_one]
      omega
  · have single : rest = 0 := by omega
    rw [single]
    rfl

/-- The walk forward's recursion: a period end's state is the transition from the previous one's. -/
theorem stateByDefinition_of_endsPeriod {index : CBlockIndex} (wellFormed : index.WellFormed)
    (ends : checker.EndsPeriod index = true) :
    checker.stateByDefinition nTime index =
      checker.nextState nTime
        (checker.stateByDefinition nTime (index.GetAncestor (index.nHeight - checker.Period))) index := by
  rw [stateByDefinition, stateByDefinition, periodEnds_of_endsPeriod wellFormed ends,
    List.foldl_append, List.foldl_cons, List.foldl_nil]

/-- The median time past of every period end of an ancestry that passed `time-too-old` is at most the entry's. -/
theorem GetMedianTimePast_le_of_mem_periodEnds {index member : CBlockIndex}
    (wellFormed : index.WellFormed) (valid : TimesValid nTime index = true)
    (inEnds : member ∈ checker.periodEnds index) :
    GetMedianTimePast nTime member ≤ GetMedianTimePast nTime index := by
  obtain ⟨steps, rfl, entry⟩ := mem_ancestry (List.mem_of_mem_filter inEnds)
  exact GetMedianTimePast_prevN_le steps wellFormed valid (wellFormed.le_nHeight_of_prevN entry)

/-- The early stop of the walk back: an entry before the start time, on such an ancestry, is `DEFINED`. -/
theorem stateByDefinition_of_lt_BeginTime (ordered : checker.BeginTime ≤ checker.EndTime)
    {index : CBlockIndex} (wellFormed : index.WellFormed) (valid : TimesValid nTime index = true)
    (beforeStart : GetMedianTimePast nTime index < checker.BeginTime) :
    checker.stateByDefinition nTime index = THRESHOLD_DEFINED :=
  foldl_nextState_defined fun member inEnds =>
    have earlier := GetMedianTimePast_le_of_mem_periodEnds wellFormed valid inEnds
    ⟨by omega, by omega⟩

/-- Along a chain the state by definition only moves forward. -/
theorem stateByDefinition_prevN_advances (index : CBlockIndex) (steps : Nat) :
    Relation.ReflTransGen ThresholdState.Advances
      (checker.stateByDefinition nTime (index.prevN steps)) (checker.stateByDefinition nTime index) := by
  obtain ⟨later, whole⟩ := checker.isPrefix_periodEnds_prevN steps index
  rw [stateByDefinition, stateByDefinition, ← whole, List.foldl_append]
  exact foldl_nextState_advances _ _

/-! ## The start of the walk -/

/-- On the tree, the entry `GetStateFor` starts from is the one the remainder of the height by the period steps back. -/
theorem periodEndOf_eq {index : CBlockIndex} (wellFormed : index.WellFormed) :
    checker.periodEndOf index = index.prevN ((index.nHeight + 1) % checker.Period).toNat ∧
      (((index.nHeight + 1) % checker.Period).toNat : Int) ≤ index.nHeight + 1 := by
  have nonneg := wellFormed.nHeight_nonneg
  obtain ⟨-, remainder, -, wholeNonneg, whole⟩ :=
    checker.period_split (by omega : 0 ≤ index.nHeight + 1)
  have within : (((index.nHeight + 1) % checker.Period).toNat : Int) ≤ index.nHeight + 1 := by
    omega
  refine ⟨?_, within⟩
  rw [periodEndOf, if_neg (by rw [wellFormed.isNull]; exact Bool.false_ne_true),
    Int.tmod_eq_emod_of_nonneg (by omega), ← wellFormed.GetAncestor_sub within,
    Int.toNat_of_nonneg remainder]

/-- The state for the block after an entry is that of the last period end at or below it. -/
theorem stateByDefinition_periodEndOf {index : CBlockIndex} (valid : ValidPrev nTime index) :
    checker.stateByDefinition nTime index =
      checker.stateByDefinition nTime (checker.periodEndOf index) := by
  rcases valid with rfl | ⟨wellFormed, -⟩
  · rfl
  have nonneg := wellFormed.nHeight_nonneg
  obtain ⟨positive, -, below, -, whole⟩ := checker.period_split (by omega : 0 ≤ index.nHeight + 1)
  obtain ⟨start, within⟩ := checker.periodEndOf_eq wellFormed
  rw [stateByDefinition, stateByDefinition, start,
    ← periodEnds_prevN_eq _ wellFormed within fun j short => ?_]
  apply emod_ne_zero_of_between positive (q := (index.nHeight + 1) / checker.Period) <;> omega

/-- The walk back starts at a period end of the tree, or at `nullptr`. -/
theorem periodEndOf_visitable {index : CBlockIndex} (valid : ValidPrev nTime index) :
    checker.Visitable nTime (checker.periodEndOf index) := by
  rcases valid with rfl | ⟨wellFormed, timesValid⟩
  · exact Or.inl rfl
  have nonneg := wellFormed.nHeight_nonneg
  obtain ⟨-, remainder, -, -, whole⟩ := checker.period_split (by omega : 0 ≤ index.nHeight + 1)
  rw [(checker.periodEndOf_eq wellFormed).1]
  rcases wellFormed.prevN_cases ((index.nHeight + 1) % checker.Period).toNat with
    genesis | ⟨startWell, startHeight⟩
  · exact Or.inl genesis
  refine Or.inr ⟨startWell, TimesValid_prevN _ timesValid, ?_⟩
  rw [EndsPeriod, decide_eq_true_eq, startHeight, Int.toNat_of_nonneg remainder,
    show index.nHeight - (index.nHeight + 1) % checker.Period + 1 =
      checker.Period * ((index.nHeight + 1) / checker.Period) by omega]
  exact Int.mul_emod_right _ _

/-- One period back from a period end of the tree is `nullptr` or the previous period end. -/
theorem Visitable_GetAncestor {index : CBlockIndex} (wellFormed : index.WellFormed)
    (valid : TimesValid nTime index = true) (ends : checker.EndsPeriod index = true) :
    checker.Visitable nTime (index.GetAncestor (index.nHeight - checker.Period)) := by
  rw [wellFormed.GetAncestor_sub (checker.Period_le_of_EndsPeriod wellFormed ends)]
  rcases wellFormed.prevN_cases checker.Period with genesis | ⟨backWell, backHeight⟩
  · exact Or.inl genesis
  refine Or.inr ⟨backWell, TimesValid_prevN _ valid, ?_⟩
  rw [EndsPeriod, decide_eq_true_eq] at ends ⊢
  rw [backHeight, show index.nHeight - checker.Period + 1 = index.nHeight + 1 - checker.Period by omega,
    Int.sub_emod_right]
  exact ends

/-! ## The two walks -/

/-- The walk forward writes and returns the state by definition of each entry it takes. -/
theorem walkForward_spec : ∀ {base top : CBlockIndex} {vToCompute : List CBlockIndex}
    {cache : ThresholdConditionCache},
    checker.ChainedTo base vToCompute top → Memo.Agrees (checker.stateByDefinition nTime) cache →
    ∃ cache', checker.walkForward nTime (checker.stateByDefinition nTime base) vToCompute cache =
      (checker.stateByDefinition nTime top, cache') ∧
      Memo.Agrees (checker.stateByDefinition nTime) cache'
  | _, _, [], cache, chained, agrees => by
    cases chained
    exact ⟨cache, rfl, agrees⟩
  | base, top, pindexPrev :: vToCompute, cache, ⟨wellFormed, ends, previous, chained⟩, agrees => by
    have step : checker.nextState nTime (checker.stateByDefinition nTime base) pindexPrev =
        checker.stateByDefinition nTime pindexPrev := by
      rw [stateByDefinition_of_endsPeriod wellFormed ends, previous]
    rw [walkForward, step]
    exact walkForward_spec chained (agrees.update rfl)

section WalkBack

variable (ordered : checker.BeginTime ≤ checker.EndTime) {cache : ThresholdConditionCache}
  (agrees : Memo.Agrees (checker.stateByDefinition nTime) cache) {top : CBlockIndex}
include ordered agrees

/--
The walk back ends, with fuel enough for the height, at an entry whose state
by definition the cache it leaves holds, with `vToCompute` leading on to
`top`, and without breaking the cache's agreement with the definition.
-/
theorem walkBack_spec : ∀ (fuel : Nat) {pindexPrev : CBlockIndex} {vToCompute : List CBlockIndex},
    checker.Visitable nTime pindexPrev → checker.ChainedTo pindexPrev vToCompute top →
    (pindexPrev.isNull = false → pindexPrev.nHeight.toNat < fuel) →
    ∃ base vToCompute' cache', checker.walkBack nTime cache fuel pindexPrev vToCompute =
      some (base, vToCompute', cache') ∧ cache' base = some (checker.stateByDefinition nTime base) ∧
      checker.ChainedTo base vToCompute' top ∧ Memo.Agrees (checker.stateByDefinition nTime) cache'
  | fuel, pindexPrev, vToCompute, visitable, chained, enough => by
    rw [walkBack.eq_def]
    cases known : cache pindexPrev with
    | some state =>
        rw [Option.isSome_some, if_pos rfl]
        exact ⟨pindexPrev, vToCompute, cache, rfl, by rw [known, agrees _ _ known], chained, agrees⟩
    | none =>
        rw [Option.isSome_none, if_neg Bool.false_ne_true]
        rcases visitable with rfl | ⟨wellFormed, valid, ends⟩
        · exact ⟨.null, vToCompute, _, rfl, Function.update_self .., chained, agrees.update rfl⟩
        rw [if_neg (by rw [wellFormed.isNull]; exact Bool.false_ne_true)]
        by_cases early : GetMedianTimePast nTime pindexPrev < checker.BeginTime
        · have defined := stateByDefinition_of_lt_BeginTime ordered wellFormed valid early
          rw [if_pos early]
          exact ⟨pindexPrev, vToCompute, _, rfl, by rw [Function.update_self, defined], chained,
            agrees.update defined.symm⟩
        rw [if_neg early]
        have nonneg := wellFormed.nHeight_nonneg
        have fits := checker.Period_le_of_EndsPeriod wellFormed ends
        cases fuel with
        | zero =>
            have := enough wellFormed.isNull
            omega
        | succ fuel =>
            have extended : checker.ChainedTo
                (pindexPrev.GetAncestor (pindexPrev.nHeight - checker.Period))
                (pindexPrev :: vToCompute) top :=
              ⟨wellFormed, ends, rfl, chained⟩
            apply walkBack_spec fuel (Visitable_GetAncestor wellFormed valid ends) extended
            intro entry
            have below := enough wellFormed.isNull
            rw [wellFormed.GetAncestor_sub fits] at entry ⊢
            have reaches := wellFormed.le_nHeight_of_prevN entry
            have positive := checker.periodPositive
            rw [(wellFormed.prevN _ reaches).2]
            omega

end WalkBack

/-! ## Queries -/

/-- One query from a cache that agrees with the definition answers the state by definition and keeps the agreement. -/
theorem GetStateFor_spec (notAlwaysActive : checker.BeginTime ≠ ALWAYS_ACTIVE)
    (ordered : checker.BeginTime ≤ checker.EndTime) {cache : ThresholdConditionCache}
    (agrees : Memo.Agrees (checker.stateByDefinition nTime) cache) {pindexPrev : CBlockIndex}
    (valid : ValidPrev nTime pindexPrev) :
    ∃ cache', checker.GetStateFor nTime pindexPrev cache =
      some (checker.stateByDefinition nTime pindexPrev, cache') ∧
      Memo.Agrees (checker.stateByDefinition nTime) cache' := by
  have start : checker.ChainedTo (checker.periodEndOf pindexPrev) [] (checker.periodEndOf pindexPrev) :=
    rfl
  obtain ⟨base, vToCompute, walked, backward, known, chained, walkedAgrees⟩ :=
    walkBack_spec ordered agrees (checker.periodEndOf pindexPrev).nHeight.toNat.succ
      (periodEndOf_visitable valid) start fun _ => Nat.lt_succ_self _
  obtain ⟨final, forward, finalAgrees⟩ := walkForward_spec chained walkedAgrees
  refine ⟨final, ?_, finalAgrees⟩
  rw [GetStateFor, if_neg notAlwaysActive]
  dsimp only
  rw [backward, Option.bind_some]
  dsimp only
  rw [known, Option.map_some, forward, ← stateByDefinition_periodEndOf valid]

/-- The run: queries in any order, sharing a cache that agrees with the definition, each answer the state by definition. -/
theorem GetStatesFor_spec (notAlwaysActive : checker.BeginTime ≠ ALWAYS_ACTIVE)
    (ordered : checker.BeginTime ≤ checker.EndTime) (queries : List CBlockIndex)
    {cache : ThresholdConditionCache} (agrees : Memo.Agrees (checker.stateByDefinition nTime) cache)
    (valid : ∀ pindexPrev ∈ queries, ValidPrev nTime pindexPrev) :
    ∃ cache', checker.GetStatesFor nTime queries cache =
      some (queries.map (checker.stateByDefinition nTime), cache') ∧
      Memo.Agrees (checker.stateByDefinition nTime) cache' := by
  refine Memo.answerAll_eq_map ?_ queries cache valid agrees
  intro query table queryValid tableAgrees
  exact GetStateFor_spec notAlwaysActive ordered tableAgrees queryValid

/--
From an empty cache, every answer of every sequence of queries on the tree
is the state by definition, when the start time is neither `ALWAYS_ACTIVE`
nor after the timeout; and that state never moves backwards along a chain.
-/
theorem GetStatesFor_eq_stateByDefinition (checker : AbstractThresholdConditionChecker)
    (nTime : CBlockIndex → Int) (notAlwaysActive : checker.BeginTime ≠ ALWAYS_ACTIVE)
    (ordered : checker.BeginTime ≤ checker.EndTime) (queries : List CBlockIndex)
    (valid : ∀ pindexPrev ∈ queries, ValidPrev nTime pindexPrev) :
    (∃ cache, checker.GetStatesFor nTime queries (fun _ => none) =
      some (queries.map (checker.stateByDefinition nTime), cache)) ∧
    ∀ (index : CBlockIndex) (steps : Nat), Relation.ReflTransGen ThresholdState.Advances
      (checker.stateByDefinition nTime (index.prevN steps)) (checker.stateByDefinition nTime index) := by
  obtain ⟨cache, answered, -⟩ :=
    GetStatesFor_spec notAlwaysActive ordered queries (Memo.agrees_empty _) valid
  exact ⟨⟨cache, answered⟩, stateByDefinition_prevN_advances⟩

/-- Queries at `nullptr` and at genesis, for a deployment starting at time zero. -/
theorem GetStatesFor_eq_stateByDefinition_genesis :
    let checker : AbstractThresholdConditionChecker := ⟨fun _ => true, 0, 100, 2, 1, by decide⟩
    let genesis := CBlockIndex.entry 0 0 0 .null .null
    checker.BeginTime ≠ ALWAYS_ACTIVE ∧ checker.BeginTime ≤ checker.EndTime ∧
      (∀ pindexPrev ∈ [.null, genesis], ValidPrev (fun _ => 0) pindexPrev) ∧
      (∃ cache, checker.GetStatesFor (fun _ => 0) [.null, genesis] (fun _ => none) =
        some ([.null, genesis].map (checker.stateByDefinition fun _ => 0), cache)) ∧
      ∀ (index : CBlockIndex) (steps : Nat), Relation.ReflTransGen ThresholdState.Advances
        (checker.stateByDefinition (fun _ => 0) (index.prevN steps))
        (checker.stateByDefinition (fun _ => 0) index) := by
  intro checker genesis
  have valid : ∀ pindexPrev ∈ [.null, genesis], ValidPrev (fun _ => 0) pindexPrev := by
    intro pindexPrev member
    rcases List.mem_pair.mp member with rfl | rfl
    · exact Or.inl rfl
    · exact Or.inr ⟨.genesis 0 0, rfl⟩
  exact ⟨by decide, by decide, valid,
    GetStatesFor_eq_stateByDefinition checker _ (by decide) (by decide) _ valid⟩

/--
`GetStateFor` departs from the state by definition for two kinds of
parameters.  With the start time `ALWAYS_ACTIVE`, as the main network sets
for `csv` and `segwit`, the answer at `nullptr` is `ACTIVE` where the state
by definition is `DEFINED`.
With a start time after the timeout, a first period end whose median time
past lies between the two stops the walk back as `DEFINED`, where by
definition the timeout has passed and the state is `FAILED`.
-/
theorem GetStateFor_ignores_definition :
    let alwaysActive : AbstractThresholdConditionChecker := ⟨fun _ => false, ALWAYS_ACTIVE, 0, 1, 1, by decide⟩
    let inverted : AbstractThresholdConditionChecker := ⟨fun _ => false, 10, 0, 1, 1, by decide⟩
    let genesis := CBlockIndex.entry 0 0 0 .null .null
    (alwaysActive.GetStatesFor (fun _ => 5) [.null] (fun _ => none)).map Prod.fst =
        some [THRESHOLD_ACTIVE] ∧
      alwaysActive.stateByDefinition (fun _ => 5) .null = THRESHOLD_DEFINED ∧
      (inverted.GetStatesFor (fun _ => 5) [genesis] (fun _ => none)).map Prod.fst =
        some [THRESHOLD_DEFINED] ∧
      inverted.stateByDefinition (fun _ => 5) genesis = THRESHOLD_FAILED := by
  intro alwaysActive inverted genesis
  have medianTime : GetMedianTimePast (fun _ => 5) genesis = 5 := GetMedianTimePast_genesis 0 0
  refine ⟨by decide, rfl, ?_, ?_⟩
  · have start : inverted.periodEndOf genesis = genesis := by decide
    have early : GetMedianTimePast (fun _ => 5) genesis < inverted.BeginTime := by
      rw [medianTime]
      decide
    have walked : inverted.walkBack (fun _ => 5) (fun _ => none) (genesis.nHeight.toNat + 1) genesis [] =
        some (genesis, [], Function.update (fun _ => none) genesis (some THRESHOLD_DEFINED)) := by
      rw [walkBack.eq_def, if_neg (by decide), if_neg (by decide), if_pos early]
    rw [GetStatesFor, Memo.answerAll, GetStateFor, if_neg (by decide)]
    dsimp only
    rw [start, walked, Option.bind_some]
    dsimp only
    rw [Function.update_self, Option.map_some, walkForward]
    rfl
  · have ends : inverted.periodEnds genesis = [genesis] := by decide
    rw [stateByDefinition, ends, List.foldl_cons, List.foldl_nil, nextState, medianTime]
    decide

end AbstractThresholdConditionChecker

end Kevacoin
