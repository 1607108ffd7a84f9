import Kevacoin.Chain.BlockIndex
import Kevacoin.Data.Median
import Mathlib.Data.Int.Order.Basic

/-!
# Median time past

`CBlockIndex::GetMedianTimePast` of `chain.h`, the median of the times of
an entry and of up to ten of its ancestors, and the `time-too-old` check
of `ContextualCheckBlockHeader` in `validation.cpp`, which accepts a block
only when its time is after its parent's median time past.  The model's
entries do not carry `nTime`: the times of a block tree are a function
`nTime` on its entries.

Along an ancestry whose every block passed that check, the median time
past never falls (`GetMedianTimePast_prevN_le`): each block drops at most
the oldest time of its parent's window and adds one above its median
(`Median.middle_le_middle`).
-/

namespace Kevacoin

/-- `CBlockIndex::nMedianTimeSpan`. -/
def nMedianTimeSpan : Nat := 11

namespace CBlockIndex

/-- The times the loop of `GetMedianTimePast` stores, the entry's first: up to `count`, stopping at `nullptr`. -/
def medianTimes (nTime : CBlockIndex → Int) : Nat → CBlockIndex → List Int
  | 0, _ => []
  | _ + 1, .null => []
  | count + 1, index@(.entry _ _ _ parent _) => nTime index :: medianTimes nTime count parent

/--
`GetMedianTimePast`: the loop stores the times from the end of `pmedian`
backwards, then `std::sort` orders them and the middle one is read.
-/
def GetMedianTimePast (nTime : CBlockIndex → Int) (index : CBlockIndex) : Int :=
  let pmedian := (medianTimes nTime nMedianTimeSpan index).reverse
  (pmedian.mergeSort fun a b => decide (a ≤ b)).getD (pmedian.length / 2) 0

/-- Every block of the ancestry but genesis passed `time-too-old`: its time is after its parent's median time past. -/
def TimesValid (nTime : CBlockIndex → Int) : CBlockIndex → Bool
  | .null => true
  | index@(.entry _ _ _ parent _) =>
      (parent.isNull || decide (nTime index > GetMedianTimePast nTime parent)) &&
        TimesValid nTime parent

section Times

variable {nTime : CBlockIndex → Int}

theorem GetMedianTimePast_eq (index : CBlockIndex) :
    GetMedianTimePast nTime index = Median.middle (medianTimes nTime nMedianTimeSpan index).reverse 0 :=
  rfl

theorem length_medianTimes_le : ∀ (count : Nat) (index : CBlockIndex),
    (medianTimes nTime count index).length ≤ count
  | 0, _ => Nat.le_refl 0
  | _ + 1, .null => Nat.zero_le _
  | count + 1, .entry _ _ _ parent _ => by
    rw [medianTimes, List.length_cons]
    exact Nat.succ_le_succ (length_medianTimes_le count parent)

/-- One time fewer is the window cut by one. -/
theorem medianTimes_eq_take : ∀ (count : Nat) (index : CBlockIndex),
    medianTimes nTime count index = (medianTimes nTime (count + 1) index).take count
  | 0, _ => by rw [List.take_zero]; rfl
  | _ + 1, .null => rfl
  | count + 1, .entry _ _ _ parent _ => by
    rw [medianTimes, medianTimes, List.take_succ_cons, ← medianTimes_eq_take count parent]

theorem medianTimes_ne_nil {count : Nat} {index : CBlockIndex} (positive : 0 < count)
    (entry : index.isNull = false) : medianTimes nTime count index ≠ [] := by
  obtain ⟨count, rfl⟩ : ∃ rest, count = rest + 1 := ⟨count - 1, by omega⟩
  cases index with
  | null => cases entry
  | entry hashBlock nHeight nStatus parent pskip =>
    rw [medianTimes]
    exact List.cons_ne_nil _ _

/-- The median time past of genesis is its own time. -/
theorem GetMedianTimePast_genesis (hashBlock : uint256) (nStatus : UInt32) :
    GetMedianTimePast nTime (.entry hashBlock 0 nStatus .null .null) =
      nTime (.entry hashBlock 0 nStatus .null .null) := by
  have window : medianTimes nTime nMedianTimeSpan (.entry hashBlock 0 nStatus .null .null) =
      [nTime (.entry hashBlock 0 nStatus .null .null)] := rfl
  rw [GetMedianTimePast_eq, window, List.reverse_singleton, Median.middle, List.mergeSort_singleton]
  simp

/-- The step: a block whose time is after its parent's median time past has a median time past no earlier. -/
theorem GetMedianTimePast_parent_le {hashBlock : uint256} {nHeight : Int} {nStatus : UInt32}
    {parent pskip : CBlockIndex} (notGenesis : parent.isNull = false)
    (after : nTime (.entry hashBlock nHeight nStatus parent pskip) > GetMedianTimePast nTime parent) :
    GetMedianTimePast nTime parent ≤
      GetMedianTimePast nTime (.entry hashBlock nHeight nStatus parent pskip) := by
  rw [GetMedianTimePast_eq, GetMedianTimePast_eq] at *
  set old := medianTimes nTime nMedianTimeSpan parent
  have window : medianTimes nTime nMedianTimeSpan (.entry hashBlock nHeight nStatus parent pskip) =
      nTime (.entry hashBlock nHeight nStatus parent pskip) :: old.take 10 := by
    rw [nMedianTimeSpan, medianTimes, medianTimes_eq_take 10 parent]
    rfl
  have oldShort : old.length ≤ 11 := length_medianTimes_le _ _
  rw [window]
  apply Median.middle_le_middle 0
  · exact List.reverse_ne_nil_iff.mpr (medianTimes_ne_nil (by decide) notGenesis)
  · exact List.reverse_ne_nil_iff.mpr (List.cons_ne_nil _ _)
  · rw [List.countP_reverse, List.countP_reverse, List.countP_cons,
      if_neg (by rw [decide_eq_true_eq]; exact not_lt.mpr (le_of_lt after)), Nat.add_zero]
    exact (List.take_sublist 10 old).countP_le
  · rw [List.length_reverse, List.length_reverse, List.length_cons, List.length_take]
    omega

theorem TimesValid_parent {hashBlock : uint256} {nHeight : Int} {nStatus : UInt32}
    {parent pskip : CBlockIndex} (valid : TimesValid nTime (.entry hashBlock nHeight nStatus parent pskip) = true) :
    TimesValid nTime parent = true ∧
      (parent.isNull = false → nTime (.entry hashBlock nHeight nStatus parent pskip) >
        GetMedianTimePast nTime parent) := by
  rw [TimesValid, Bool.and_eq_true, Bool.or_eq_true, decide_eq_true_eq] at valid
  obtain ⟨checked, earlier⟩ := valid
  refine ⟨earlier, fun notGenesis => ?_⟩
  rcases checked with genesis | after
  · rw [notGenesis] at genesis
    cases genesis
  · exact after

/-- An ancestor of an entry whose blocks passed `time-too-old` passed it too. -/
theorem TimesValid_prevN : ∀ (steps : Nat) {index : CBlockIndex},
    TimesValid nTime index = true → TimesValid nTime (index.prevN steps) = true
  | 0, _, valid => valid
  | steps + 1, .null, _ => by rw [prevN_null]; rfl
  | steps + 1, .entry _ _ _ _ _, valid => TimesValid_prevN steps (TimesValid_parent valid).1

/-- Along an ancestry that passed `time-too-old` at every block, the median time past never falls. -/
theorem GetMedianTimePast_prevN_le : ∀ (steps : Nat) {index : CBlockIndex}, index.WellFormed →
    TimesValid nTime index = true → (steps : Int) ≤ index.nHeight →
    GetMedianTimePast nTime (index.prevN steps) ≤ GetMedianTimePast nTime index
  | 0, _, _, _, _ => Int.le_refl _
  | steps + 1, index, wellFormed, valid, within => by
    obtain ⟨parentWell, parentHeight⟩ := wellFormed.pprev (by omega)
    cases index with
    | null => cases wellFormed.isNull
    | entry hashBlock nHeight nStatus parent pskip =>
      obtain ⟨parentValid, after⟩ := TimesValid_parent valid
      have earlier := GetMedianTimePast_prevN_le steps parentWell parentValid (by
        rw [parentHeight]
        push_cast at within ⊢
        omega)
      rw [prevN_succ]
      exact Int.le_trans earlier (GetMedianTimePast_parent_le parentWell.isNull (after parentWell.isNull))

end Times

end CBlockIndex

end Kevacoin
