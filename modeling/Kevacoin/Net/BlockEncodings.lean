import Kevacoin.Primitives.Block
import Mathlib.Data.Nat.Nth

/-!
# Compact blocks

`PartiallyDownloadedBlock::InitData` and `FillBlock` of `blockencodings.cpp`,
with the messages of `blockencodings.h`.  A compact block message carries
the header, the short IDs of most transactions and a few prefilled
transactions, each with its index as the distance from the previous one.
`InitData` lays out one slot per transaction, puts the prefilled ones at
their absolute indexes, maps each short ID to the next free slot, and fills
the free slots from the mempool and from the extra transactions whose short
IDs match.  `FillBlock` then fills the slots still empty with the
transactions requested from the peer.

The short IDs of a message are SipHash values keyed by its header and
nonce, and the map from short IDs to slots is an `std::unordered_map`
whose bucket sizes `InitData` checks; the model takes the short-ID
function, the witness hashes and that bucket check as parameters
(`CompactHashing`).  `CheckBlock` at the end of `FillBlock` is a parameter
too.

The `while` loop that skips filled slots counts in a `uint16_t`, and the
map stores slots as `uint16_t`, while `InitData` admits up to
`MAX_BLOCK_WEIGHT / MIN_SERIALIZABLE_TRANSACTION_WEIGHT` = 150000 slots.
The model runs the loop on fuel and reports an index out of range or fuel
that ran out as an `InitFault`.  With at most 65536 slots `InitData`
always returns, and a successful run lays the block out exactly
(`InitData_layout`); with 65536 prefilled transactions at the first 65536
slots and one short ID, the loop never ends (`InitData_diverges`).
-/

namespace Kevacoin

/-- `ReadStatus`. -/
inductive ReadStatus where
  | READ_STATUS_OK
  | READ_STATUS_INVALID
  | READ_STATUS_FAILED
  | READ_STATUS_CHECKBLOCK_FAILED
deriving DecidableEq, Repr

/-- `CTransaction::IsNull`: no inputs and no outputs. -/
def CTransaction.IsNull (tx : CTransaction) : Bool :=
  tx.vin.isEmpty && tx.vout.isEmpty

/-- `CBlockHeader::IsNull`. -/
def CBlockHeader.IsNull (header : CBlockHeader) : Bool :=
  header.nBits == 0

/-- `MAX_BLOCK_WEIGHT`. -/
def MAX_BLOCK_WEIGHT : Nat := 6000000

/-- `MIN_SERIALIZABLE_TRANSACTION_WEIGHT`: `WITNESS_SCALE_FACTOR * 10`. -/
def MIN_SERIALIZABLE_TRANSACTION_WEIGHT : Nat := 4 * 10

/-! ## Messages -/

/--
`PrefilledTransaction`.  In a message the index is the distance from the
previous prefilled transaction; deserialization rejects one above 16 bits.
-/
structure PrefilledTransaction where
  index : UInt16
  tx : CTransaction
deriving DecidableEq, Repr

/-- `CBlockHeaderAndShortTxIDs` as it is deserialized. -/
structure CBlockHeaderAndShortTxIDs where
  header : CBlockHeader
  shorttxids : List UInt64
  prefilledtxn : List PrefilledTransaction
deriving DecidableEq, Repr

/-- `CBlockHeaderAndShortTxIDs::BlockTxCount`. -/
def CBlockHeaderAndShortTxIDs.BlockTxCount (cmpctblock : CBlockHeaderAndShortTxIDs) : Nat :=
  cmpctblock.shorttxids.length + cmpctblock.prefilledtxn.length

/--
What `InitData` computes with and the model leaves open: the short IDs of
the message (`GetShortID`, keyed by its header and nonce), the witness
hashes, and whether the bucket of a short ID in the `unordered_map` holds
more than 12 entries.
-/
structure CompactHashing where
  GetShortID : uint256 → UInt64
  GetWitnessHash : CTransaction → uint256
  bucketOverfull : List (UInt64 × UInt16) → UInt64 → Bool

/--
`CBlockHeaderAndShortTxIDs(block, fUseWTXID)`: the coinbase prefilled at
index 0 and the short IDs of the other transactions.
-/
def CBlockHeaderAndShortTxIDs.ofBlock (hashing : CompactHashing) (block : CBlock)
    (fUseWTXID : Bool) : CBlockHeaderAndShortTxIDs where
  header := block.header
  shorttxids := block.vtx.tail.map fun tx =>
    hashing.GetShortID (if fUseWTXID then hashing.GetWitnessHash tx else tx.GetHash)
  prefilledtxn := block.vtx.head?.toList.map fun coinbase => ⟨0, coinbase⟩

/-! ## Counting free slots -/

section Counting

variable (free : Nat → Prop) [DecidablePred free]

/-- Two predicates that differ at one point only count at most one apart. -/
theorem count_le_count_add_one {a : Nat} (other : Nat → Prop) [DecidablePred other]
    (agree : ∀ slot, slot ≠ a → other slot → free slot) :
    ∀ n, Nat.count other n ≤ Nat.count free n + if a < n then 1 else 0
  | 0 => by simp
  | n + 1 => by
      have below := count_le_count_add_one other agree n
      have gap : (if other n then 1 else 0) ≤
          (if free n then 1 else 0) + (if n = a then 1 else 0) := by
        by_cases same : n = a
        · split_ifs <;> omega
        · have step := agree n same
          by_cases counted : other n
          · rw [if_pos counted, if_pos (step counted)]
            omega
          · rw [if_neg counted]
            omega
      have bound : (if a < n + 1 then 1 else 0) =
          (if a < n then 1 else 0) + (if n = a then 1 else 0) := by
        split_ifs <;> omega
      rw [Nat.count_succ, Nat.count_succ, bound]
      omega

/-- Slots that are not free do not change the count. -/
theorem count_eq_of_not_free {start stop : Nat} (ordered : start ≤ stop)
    (taken : ∀ slot, start ≤ slot → slot < stop → ¬free slot) :
    Nat.count free stop = Nat.count free start := by
  induction stop, ordered using Nat.le_induction with
  | base => rfl
  | succ stop ordered induction =>
      rw [Nat.count_succ, if_neg (taken stop ordered (by omega)), Nat.add_zero]
      exact induction fun slot after before => taken slot after (by omega)

/-- A count that still grows up to `n` has a first free slot on the way. -/
theorem exists_first_free {start n : Nat} (grows : Nat.count free start < Nat.count free n) :
    ∃ slot, start ≤ slot ∧ slot < n ∧ free slot ∧
      ∀ earlier, start ≤ earlier → earlier < slot → ¬free earlier := by
  induction distance : n - start generalizing start with
  | zero =>
      have reached := Nat.count_monotone free (show n ≤ start by omega)
      omega
  | succ distance induction =>
      have before : start < n := by omega
      by_cases here : free start
      · exact ⟨start, Nat.le_refl _, before, here, fun earlier after below => by omega⟩
      · have same : Nat.count free (start + 1) = Nat.count free start := by
          rw [Nat.count_succ, if_neg here, Nat.add_zero]
        obtain ⟨slot, after, below, isFree, first⟩ :=
          @induction (start + 1) (by omega) (by omega)
        refine ⟨slot, by omega, below, isFree, fun earlier atLeast smaller => ?_⟩
        rcases Nat.eq_or_lt_of_le atLeast with equal | later
        · rw [← equal]
          exact here
        · exact first earlier later smaller

end Counting

/-! ## The layout a message describes -/

/--
The prefilled transaction at a slot: the first one at `next` plus its
index, each later one one past the previous plus its index.
-/
def prefilledAt : Nat → List PrefilledTransaction → Nat → Option CTransaction
  | _, [], _ => none
  | next, prefilled :: rest, slot =>
      if slot = next + prefilled.index.toNat then some prefilled.tx
      else prefilledAt (next + prefilled.index.toNat + 1) rest slot

/-- No prefilled transaction sits before `next`. -/
theorem prefilledAt_of_lt {slot : Nat} :
    ∀ (prefilledtxn : List PrefilledTransaction) (next : Nat), slot < next →
      prefilledAt next prefilledtxn slot = none
  | [], _, _ => rfl
  | prefilled :: rest, next, before => by
      rw [prefilledAt, if_neg (by omega)]
      exact prefilledAt_of_lt rest _ (by omega)

/--
The `k`-th prefilled transaction sits at the sum of the first `k + 1`
indexes each plus one, less one, counted from `next`.
-/
theorem prefilledAt_sum :
    ∀ (prefilledtxn : List PrefilledTransaction) (next k : Nat) (inside : k < prefilledtxn.length),
      prefilledAt next prefilledtxn
          (next + ((prefilledtxn.take (k + 1)).map fun prefilled => prefilled.index.toNat + 1).sum
            - 1) =
        some prefilledtxn[k].tx
  | [], _, _, inside => absurd inside (Nat.not_lt_zero _)
  | prefilled :: rest, next, 0, _ => by
      simp [prefilledAt]
  | prefilled :: rest, next, k + 1, inside => by
      have later := prefilledAt_sum rest (next + prefilled.index.toNat + 1) k
        (Nat.lt_of_succ_lt_succ inside)
      have positive : 1 ≤ ((rest.take (k + 1)).map fun prefilled => prefilled.index.toNat + 1).sum := by
        cases rest with
        | nil => exact absurd inside (by simp)
        | cons first others =>
            simp only [List.take_succ_cons, List.map_cons, List.sum_cons]
            omega
      simp only [List.take_succ_cons, List.map_cons, List.sum_cons, List.getElem_cons_succ]
      rw [prefilledAt, if_neg (by omega)]
      rw [← later]
      congr 1
      omega

/-- Each prefilled transaction takes one slot, so all but that many slots below `n` are free. -/
theorem le_count_free :
    ∀ (prefilledtxn : List PrefilledTransaction) (next n : Nat),
      n ≤ Nat.count (fun slot => prefilledAt next prefilledtxn slot = none) n +
        prefilledtxn.length
  | [], next, n => by
      simp [prefilledAt, Nat.count_true]
  | prefilled :: rest, next, n => by
      have later := le_count_free rest (next + prefilled.index.toNat + 1) n
      have missed := count_le_count_add_one (a := next + prefilled.index.toNat)
        (fun slot => prefilledAt next (prefilled :: rest) slot = none)
        (fun slot => prefilledAt (next + prefilled.index.toNat + 1) rest slot = none)
        (fun slot other free => by
          show prefilledAt next (prefilled :: rest) slot = none
          rw [prefilledAt, if_neg other]
          exact free) n
      have atMostOne : (if next + prefilled.index.toNat < n then 1 else 0) ≤ 1 := by
        split <;> omega
      simp only [List.length_cons]
      omega

/-! ## `InitData` -/

/-- What a run of `InitData` does besides returning: read a slot out of range, or not stop. -/
inductive InitFault where
  | outOfRange
  | outOfFuel
deriving DecidableEq, Repr

/-- The members of `PartiallyDownloadedBlock` that `InitData` sets besides the header. -/
structure PartiallyDownloadedBlock where
  txn_available : List (Option CTransaction)
  prefilled_count : Nat
  mempool_count : Nat
  extra_count : Nat

/--
The prefilled loop of `InitData`: `lastprefilledindex` moves on by each
differential index plus one, and the transaction goes to that slot.  It is
an `int32_t`, which stays below 2^17 here.  `none` is `READ_STATUS_INVALID`.
-/
def placePrefilled (shortCount : Nat) :
    Nat → Int → List PrefilledTransaction → List (Option CTransaction) →
      Except InitFault (Option (List (Option CTransaction)))
  | _, _, [], txn_available => .ok (some txn_available)
  | i, lastprefilledindex, prefilled :: rest, txn_available =>
      if prefilled.tx.IsNull then .ok none
      else
        let lastprefilledindex := lastprefilledindex + prefilled.index.toNat + 1
        if lastprefilledindex > 65535 then .ok none
        -- a slot beyond the short IDs and the prefilled ones so far
        else if lastprefilledindex > shortCount + i then .ok none
        else if txn_available.length ≤ lastprefilledindex.toNat then .error .outOfRange
        else
          placePrefilled shortCount (i + 1) lastprefilledindex rest
            (txn_available.set lastprefilledindex.toNat (some prefilled.tx))

/-- The `while` loop of `InitData`: `index_offset`, a `uint16_t`, skips the filled slots. -/
def skipFilled (txn_available : List (Option CTransaction)) (i : Nat) :
    Nat → UInt16 → Except InitFault UInt16
  | 0, _ => .error .outOfFuel
  | fuel + 1, index_offset =>
      match txn_available[i + index_offset.toNat]? with
      | none => .error .outOfRange
      | some (some _) => skipFilled txn_available i fuel (index_offset + 1)
      | some none => .ok index_offset

/-- `shorttxids[shortid] = position` on the `unordered_map`, as a list of entries. -/
def assignShortId (shorttxids : List (UInt64 × UInt16)) (shortid : UInt64)
    (position : UInt16) : List (UInt64 × UInt16) :=
  match shorttxids.lookup shortid with
  | some _ => shorttxids.map fun entry => if entry.1 = shortid then (shortid, position) else entry
  | none => shorttxids ++ [(shortid, position)]

/--
The short-ID loop of `InitData`: each short ID is mapped to the next free
slot, `i + index_offset` narrowed to the map's `uint16_t`.  `none` is
`READ_STATUS_FAILED` for an overfull bucket.
-/
def mapShortIds (hashing : CompactHashing) (txn_available : List (Option CTransaction))
    (fuel : Nat) :
    Nat → UInt16 → List UInt64 → List (UInt64 × UInt16) →
      Except InitFault (Option (List (UInt64 × UInt16)))
  | _, _, [], shorttxids => .ok (some shorttxids)
  | i, index_offset, shortid :: rest, shorttxids =>
      match skipFilled txn_available i fuel index_offset with
      | .error fault => .error fault
      | .ok index_offset =>
          let shorttxids := assignShortId shorttxids shortid (UInt16.ofNat (i + index_offset.toNat))
          if hashing.bucketOverfull shorttxids shortid then .ok none
          else mapShortIds hashing txn_available fuel (i + 1) index_offset rest shorttxids

/-- What the mempool and extra loops of `InitData` change. -/
structure Matching where
  txn_available : List (Option CTransaction)
  have_txn : List Bool
  mempool_count : Nat
  extra_count : Nat

/--
One candidate `(witness hash, transaction)` of the mempool or of the extra
transactions, matched against the short IDs.  The first match fills the
slot; a second one empties it again, for an extra transaction only when
its witness hash differs from the one in the slot.
-/
def matchCandidate (hashing : CompactHashing) (shorttxids : List (UInt64 × UInt16))
    (fromExtra : Bool) (state : Matching) (candidate : uint256 × CTransaction) :
    Except InitFault Matching :=
  match shorttxids.lookup (hashing.GetShortID candidate.1) with
  | none => .ok state
  | some position =>
      let position := position.toNat
      if state.have_txn.length ≤ position ∨ state.txn_available.length ≤ position then
        .error .outOfRange
      else if !state.have_txn.getD position false then
        .ok { state with
          txn_available := state.txn_available.set position (some candidate.2)
          have_txn := state.have_txn.set position true
          mempool_count := state.mempool_count + 1
          extra_count := if fromExtra then state.extra_count + 1 else state.extra_count }
      else
        match state.txn_available.getD position none with
        | some present =>
            if fromExtra && hashing.GetWitnessHash present == hashing.GetWitnessHash candidate.2 then
              .ok state
            else
              .ok { state with
                txn_available := state.txn_available.set position none
                mempool_count := state.mempool_count - 1
                extra_count := if fromExtra then state.extra_count - 1 else state.extra_count }
        | none => .ok state

/-- The mempool or the extra loop, which stops once every short ID has a match. -/
def matchCandidates (hashing : CompactHashing) (shorttxids : List (UInt64 × UInt16))
    (fromExtra : Bool) : List (uint256 × CTransaction) → Matching → Except InitFault Matching
  | [], state => .ok state
  | candidate :: rest, state =>
      match matchCandidate hashing shorttxids fromExtra state candidate with
      | .error fault => .error fault
      | .ok state =>
          if state.mempool_count = shorttxids.length then .ok state
          else matchCandidates hashing shorttxids fromExtra rest state

/--
`PartiallyDownloadedBlock::InitData` on a fresh object, with the mempool's
`vTxHashes` as pairs of witness hash and transaction.
-/
def InitData (hashing : CompactHashing) (fuel : Nat) (cmpctblock : CBlockHeaderAndShortTxIDs)
    (vTxHashes extra_txn : List (uint256 × CTransaction)) :
    Except InitFault (ReadStatus × PartiallyDownloadedBlock) :=
  let fresh : PartiallyDownloadedBlock := ⟨[], 0, 0, 0⟩
  if cmpctblock.header.IsNull ||
      (cmpctblock.shorttxids.isEmpty && cmpctblock.prefilledtxn.isEmpty) then
    .ok (.READ_STATUS_INVALID, fresh)
  else if cmpctblock.shorttxids.length + cmpctblock.prefilledtxn.length >
      MAX_BLOCK_WEIGHT / MIN_SERIALIZABLE_TRANSACTION_WEIGHT then
    .ok (.READ_STATUS_INVALID, fresh)
  else
    let txn_available := List.replicate cmpctblock.BlockTxCount none
    match placePrefilled cmpctblock.shorttxids.length 0 (-1) cmpctblock.prefilledtxn
        txn_available with
    | .error fault => .error fault
    | .ok none => .ok (.READ_STATUS_INVALID, { fresh with txn_available })
    | .ok (some txn_available) =>
        let placed := { fresh with
          txn_available
          prefilled_count := cmpctblock.prefilledtxn.length }
        match mapShortIds hashing txn_available fuel 0 0 cmpctblock.shorttxids [] with
        | .error fault => .error fault
        | .ok none => .ok (.READ_STATUS_FAILED, placed)
        | .ok (some shorttxids) =>
            -- two short IDs the same
            if shorttxids.length ≠ cmpctblock.shorttxids.length then
              .ok (.READ_STATUS_FAILED, placed)
            else
              let start : Matching :=
                ⟨txn_available, List.replicate txn_available.length false, 0, 0⟩
              match matchCandidates hashing shorttxids false vTxHashes start with
              | .error fault => .error fault
              | .ok fromMempool =>
                  match matchCandidates hashing shorttxids true extra_txn fromMempool with
                  | .error fault => .error fault
                  | .ok matched =>
                      .ok (.READ_STATUS_OK, { placed with
                        txn_available := matched.txn_available
                        mempool_count := matched.mempool_count
                        extra_count := matched.extra_count })

/-! ## `FillBlock` -/

/-- The loop of `FillBlock`: the empty slots take the missing transactions in order. -/
def fillSlots : List (Option CTransaction) → List CTransaction →
    Option (List CTransaction × List CTransaction)
  | [], vtx_missing => some ([], vtx_missing)
  | none :: _, [] => none
  | none :: rest, tx :: vtx_missing =>
      (fillSlots rest vtx_missing).map fun filled => (tx :: filled.1, filled.2)
  | some tx :: rest, vtx_missing =>
      (fillSlots rest vtx_missing).map fun filled => (tx :: filled.1, filled.2)

/--
`PartiallyDownloadedBlock::FillBlock`, with `CheckBlock` and
`CorruptionPossible` of its validation state as parameters.
-/
def FillBlock (CheckBlock CorruptionPossible : CBlock → Bool) (header : CBlockHeader)
    (txn_available : List (Option CTransaction)) (vtx_missing : List CTransaction) :
    ReadStatus × Option CBlock :=
  match fillSlots txn_available vtx_missing with
  | none => (.READ_STATUS_INVALID, none)
  | some (vtx, unused) =>
      let block : CBlock := ⟨header, vtx⟩
      if !unused.isEmpty then (.READ_STATUS_INVALID, none)
      else if !CheckBlock block then
        (if CorruptionPossible block then .READ_STATUS_FAILED
          else .READ_STATUS_CHECKBLOCK_FAILED, some block)
      else (.READ_STATUS_OK, some block)

/-! ## The prefilled and short-ID loops -/

/-- Setting one slot of a tabulated list tabulates the updated function. -/
theorem set_map_range {α : Type} {f : Nat → α} {n slot : Nat} (value : α) :
    ((List.range n).map f).set slot value = (List.range n).map (Function.update f slot value) := by
  apply List.ext_getElem
  · simp
  · intro index before _
    rw [List.getElem_set, List.getElem_map, List.getElem_map, List.getElem_range,
      Function.update_apply]
    split_ifs <;> first | rfl | omega

/--
The prefilled loop from slot `next` on: when it accepts the message, the
slots below `next` keep what they held, the others hold what `prefilledAt`
gives, and every prefilled transaction lies inside the list.
-/
theorem placePrefilled_ok (shortCount : Nat) :
    ∀ (prefilledtxn : List PrefilledTransaction) (i next : Nat)
      (taken : Nat → Option CTransaction), (∀ slot, next ≤ slot → taken slot = none) →
      ∃ placed, placePrefilled shortCount i ((next : Int) - 1) prefilledtxn
          ((List.range (shortCount + i + prefilledtxn.length)).map taken) = .ok placed ∧
        ∀ txn_available, placed = some txn_available →
          txn_available = (List.range (shortCount + i + prefilledtxn.length)).map
            (fun slot => if slot < next then taken slot else prefilledAt next prefilledtxn slot) ∧
          ∀ slot, (prefilledAt next prefilledtxn slot).isSome →
            slot < shortCount + i + prefilledtxn.length
  | [], i, next, taken, unset => by
      refine ⟨_, rfl, fun txn_available placed => ?_⟩
      cases placed
      refine ⟨?_, fun slot found => by simp [prefilledAt] at found⟩
      congr 1
      funext slot
      split_ifs with before
      · rfl
      · exact unset slot (by omega)
  | prefilled :: rest, i, next, taken, unset => by
      have length : shortCount + i + (prefilled :: rest).length =
          shortCount + (i + 1) + rest.length := by
        simp only [List.length_cons]
        omega
      rw [length]
      simp only [placePrefilled]
      have last : ((next : Int) - 1 + prefilled.index.toNat + 1) =
          ((next + prefilled.index.toNat : Nat) : Int) := by
        push_cast
        omega
      rw [last, Int.toNat_natCast, List.length_map, List.length_range]
      by_cases isNull : prefilled.tx.IsNull = true
      · rw [if_pos isNull]
        exact ⟨none, rfl, fun _ found => by cases found⟩
      rw [if_neg isNull]
      by_cases tooFar : ((next + prefilled.index.toNat : Nat) : Int) > 65535
      · rw [if_pos tooFar]
        exact ⟨none, rfl, fun _ found => by cases found⟩
      rw [if_neg tooFar]
      by_cases beyond : ((next + prefilled.index.toNat : Nat) : Int) > shortCount + i
      · rw [if_pos beyond]
        exact ⟨none, rfl, fun _ found => by cases found⟩
      rw [if_neg beyond, if_neg (by omega), set_map_range (some prefilled.tx)]
      have castBack : ((next + prefilled.index.toNat : Nat) : Int) =
          ((next + prefilled.index.toNat + 1 : Nat) : Int) - 1 := by
        push_cast
        omega
      rw [castBack]
      obtain ⟨placed, run, spec⟩ := placePrefilled_ok shortCount rest (i + 1)
        (next + prefilled.index.toNat + 1)
        (Function.update taken (next + prefilled.index.toNat) (some prefilled.tx))
        (fun slot after => by
          rw [Function.update_apply, if_neg (by omega)]
          exact unset slot (by omega))
      refine ⟨placed, run, fun txn_available found => ?_⟩
      obtain ⟨shape, inRange⟩ := spec txn_available found
      refine ⟨?_, fun slot taken' => ?_⟩
      · rw [shape]
        congr 1
        funext slot
        simp only [prefilledAt, Function.update_apply]
        by_cases before : slot < next
        · rw [if_pos (by omega), if_neg (by omega), if_pos before]
        · by_cases here : slot = next + prefilled.index.toNat
          · rw [if_pos (by omega), if_pos here, if_neg before, if_pos here]
          · rw [if_neg before, if_neg here]
            by_cases between : slot < next + prefilled.index.toNat + 1
            · rw [if_pos between, unset slot (by omega), if_neg here,
                prefilledAt_of_lt rest _ between]
            · rw [if_neg between, if_neg here]
      · rw [prefilledAt] at taken'
        split at taken'
        · omega
        · exact inRange slot taken'

/--
From `i + index_offset` the `while` loop stops at the first free slot, when
it lies below `n`, within the fuel, and less than 2^16 past `i`.
-/
theorem skipFilled_ok {taken : Nat → Option CTransaction} {n i slot : Nat}
    (below : slot < n) (free : taken slot = none) (fits : slot - i < 65536) :
    ∀ (fuel : Nat) (index_offset : UInt16), i + index_offset.toNat ≤ slot →
      (∀ earlier, i + index_offset.toNat ≤ earlier → earlier < slot → taken earlier ≠ none) →
      slot - (i + index_offset.toNat) < fuel →
      skipFilled ((List.range n).map taken) i fuel index_offset = .ok (UInt16.ofNat (slot - i))
  | 0, _, _, _, within => absurd within (Nat.not_lt_zero _)
  | fuel + 1, index_offset, before, filled, within => by
      have read : ((List.range n).map taken)[i + index_offset.toNat]? =
          some (taken (i + index_offset.toNat)) := by
        rw [List.getElem?_map, List.getElem?_range (by omega), Option.map_some]
      rw [skipFilled, read]
      rcases Nat.eq_or_lt_of_le before with reached | earlier
      · rw [reached, free]
        simp only
        rw [← reached, Nat.add_sub_cancel_left, UInt16.ofNat_toNat]
      · obtain ⟨tx, filledHere⟩ := Option.ne_none_iff_exists'.mp
          (filled _ (Nat.le_refl _) earlier)
        rw [filledHere]
        simp only
        have step : (index_offset + 1).toNat = index_offset.toNat + 1 := by
          rw [UInt16.toNat_add, UInt16.toNat_one]
          omega
        exact skipFilled_ok below free fits fuel (index_offset + 1) (by omega)
          (fun later after stop => filled later (by omega) stop) (by omega)

/-- Rewriting the entries of one key in place changes only that key's value. -/
theorem lookup_map_reassign (shortid key : UInt64) (position : UInt16) :
    ∀ shorttxids : List (UInt64 × UInt16),
      (shorttxids.map fun entry => if entry.1 = shortid then (shortid, position) else entry).lookup
          key =
        if key = shortid then (shorttxids.lookup shortid).map fun _ => position
        else shorttxids.lookup key
  | [] => by simp
  | ⟨entry, value⟩ :: rest => by
      have induction := lookup_map_reassign shortid key position rest
      by_cases same : entry = shortid
      · subst same
        by_cases asked : key = entry
        · simp [asked]
        · simp [List.lookup_cons, beq_eq_false_iff_ne.mpr asked, asked, induction]
      · by_cases asked : key = entry
        · subst asked
          simp [same]
        · have missed : (shortid == entry) = false := beq_eq_false_iff_ne.mpr (Ne.symm same)
          simp [List.lookup_cons, same, beq_eq_false_iff_ne.mpr asked, missed, induction]

/-- Assigning to one short ID leaves the others where they were. -/
theorem lookup_assignShortId (shorttxids : List (UInt64 × UInt16)) (shortid key : UInt64)
    (position : UInt16) :
    (assignShortId shorttxids shortid position).lookup key =
      if key = shortid then some position else shorttxids.lookup key := by
  unfold assignShortId
  split
  · case h_1 present found =>
      rw [lookup_map_reassign, found]
      rfl
  · case h_2 absent =>
      rw [List.lookup_append]
      by_cases asked : key = shortid
      · rw [asked, absent, if_pos rfl]
        simp
      · rw [if_neg asked]
        cases shorttxids.lookup key <;> simp [asked]

/--
What the map built by the short-ID loop holds: each short ID points at a
free slot below `n`, the one whose rank among the free slots is the
index of that short ID in the message.
-/
def SlotsOfShortIds (taken : Nat → Option CTransaction) (n : Nat) (shorttxids : List UInt64)
    (assigned : List (UInt64 × UInt16)) : Prop :=
  ∀ shortid position, assigned.lookup shortid = some position →
    position.toNat < n ∧ taken position.toNat = none ∧
      shorttxids[Nat.count (fun slot => taken slot = none) position.toNat]? = some shortid

/--
With at most 2^16 slots and 2^16 steps of fuel, the short-ID loop runs to
its end, each short ID going to the free slot of its rank.  It starts its
step `i` where `i` free slots lie below.
-/
theorem mapShortIds_ok (hashing : CompactHashing) {taken : Nat → Option CTransaction}
    {n fuel : Nat} {shorttxids : List UInt64} (small : n ≤ 65536) (enough : 65536 ≤ fuel)
    (room : shorttxids.length ≤ Nat.count (fun slot => taken slot = none) n) :
    ∀ (i : Nat) (index_offset : UInt16) (assigned : List (UInt64 × UInt16)),
      Nat.count (fun slot => taken slot = none) (i + index_offset.toNat) = i →
      SlotsOfShortIds taken n shorttxids assigned →
      ∃ result, mapShortIds hashing ((List.range n).map taken) fuel i index_offset
          (shorttxids.drop i) assigned = .ok result ∧
        ∀ final, result = some final → SlotsOfShortIds taken n shorttxids final := by
  intro i
  induction distance : shorttxids.length - i generalizing i with
  | zero =>
      intro index_offset assigned _ slots
      rw [List.drop_eq_nil_of_le (by omega)]
      exact ⟨_, rfl, fun final found => by cases found; exact slots⟩
  | succ distance induction =>
      intro index_offset assigned counted slots
      have inside : i < shorttxids.length := by omega
      obtain ⟨slot, after, below, free, first⟩ := @exists_first_free
        (fun slot => taken slot = none) _ (i + index_offset.toNat) n (by omega)
      have rank : Nat.count (fun slot => taken slot = none) slot = i := by
        rw [count_eq_of_not_free _ after first, counted]
      have skip := skipFilled_ok below free (by omega) fuel index_offset after first (by omega)
      have offset : (UInt16.ofNat (slot - i)).toNat = slot - i :=
        UInt16.toNat_ofNat_of_lt' (by rw [UInt16.size]; omega)
      have position : (UInt16.ofNat (i + (UInt16.ofNat (slot - i)).toNat)).toNat = slot := by
        rw [offset, show i + (slot - i) = slot by omega]
        exact UInt16.toNat_ofNat_of_lt' (by rw [UInt16.size]; omega)
      rw [List.drop_eq_getElem_cons inside, mapShortIds, skip]
      simp only
      split
      · exact ⟨none, rfl, fun _ found => by cases found⟩
      · have next : Nat.count (fun slot => taken slot = none)
            (i + 1 + (UInt16.ofNat (slot - i)).toNat) = i + 1 := by
          rw [offset, show i + 1 + (slot - i) = slot + 1 by omega, Nat.count_succ, if_pos free,
            rank]
        refine induction (i + 1) (by omega) _ _ next fun shortid found => ?_
        intro lookup
        rw [lookup_assignShortId] at lookup
        split at lookup
        · case isTrue same =>
            cases lookup
            rw [position, rank, same, List.getElem?_eq_getElem inside]
            exact ⟨below, free, rfl⟩
        · exact slots shortid found lookup

/-! ## The mempool and extra loops -/

/--
What the mempool and extra loops keep: both lists have a slot for each
transaction, the prefilled slots hold their transactions, and a free slot
holds only a transaction whose short ID is that of the slot's rank.
-/
structure Matching.Consistent (hashing : CompactHashing) (taken : Nat → Option CTransaction)
    (n : Nat) (shorttxids : List UInt64) (state : Matching) : Prop where
  txn_length : state.txn_available.length = n
  have_length : state.have_txn.length = n
  prefilled : ∀ slot < n, taken slot ≠ none → state.txn_available[slot]? = some (taken slot)
  matched : ∀ slot tx, taken slot = none → state.txn_available[slot]? = some (some tx) →
    shorttxids[Nat.count (fun slot => taken slot = none) slot]? =
      some (hashing.GetShortID (hashing.GetWitnessHash tx))

section Consistent

variable {hashing : CompactHashing} {taken : Nat → Option CTransaction} {n : Nat}
  {shorttxids : List UInt64}

/-- Writing to a free slot keeps the invariant when what is written matches the slot. -/
theorem Matching.Consistent.set {state : Matching}
    (consistent : state.Consistent hashing taken n shorttxids) {position : Nat}
    (free : taken position = none) (value : Option CTransaction)
    (fits : ∀ tx, value = some tx →
      shorttxids[Nat.count (fun slot => taken slot = none) position]? =
        some (hashing.GetShortID (hashing.GetWitnessHash tx)))
    (have_txn : List Bool) (have_length : have_txn.length = n) (mempool_count extra_count : Nat) :
    Matching.Consistent hashing taken n shorttxids
      ⟨state.txn_available.set position value, have_txn, mempool_count, extra_count⟩ where
  txn_length := by rw [List.length_set, consistent.txn_length]
  have_length := have_length
  prefilled slot below filled := by
    have other : position ≠ slot := fun same => filled (same ▸ free)
    rw [List.getElem?_set_ne other]
    exact consistent.prefilled slot below filled
  matched slot tx isFree found := by
    by_cases here : position = slot
    · subst here
      rw [List.getElem?_set, if_pos rfl] at found
      split at found
      · exact fits tx (Option.some.inj found)
      · cases found
    · rw [List.getElem?_set_ne here] at found
      exact consistent.matched slot tx isFree found

/-- The loops start from the slots as the prefilled loop left them, none of them had. -/
theorem Matching.Consistent.start :
    Matching.Consistent hashing taken n shorttxids
      ⟨(List.range n).map taken, List.replicate ((List.range n).map taken).length false, 0, 0⟩ where
  txn_length := by rw [List.length_map, List.length_range]
  have_length := by rw [List.length_replicate, List.length_map, List.length_range]
  prefilled slot below _ := by rw [List.getElem?_map, List.getElem?_range below, Option.map_some]
  matched slot tx free found := by
    by_cases below : slot < n
    · rw [List.getElem?_map, List.getElem?_range below, Option.map_some, free] at found
      cases found
    · rw [List.getElem?_eq_none (by rw [List.length_map, List.length_range]; omega)] at found
      cases found

/--
One candidate, whose first component is its transaction's witness hash,
never reads outside the lists and keeps the invariant.
-/
theorem matchCandidate_ok {assigned : List (UInt64 × UInt16)}
    (slots : SlotsOfShortIds taken n shorttxids assigned) (fromExtra : Bool) {state : Matching}
    (consistent : state.Consistent hashing taken n shorttxids) {candidate : uint256 × CTransaction}
    (wtxid : candidate.1 = hashing.GetWitnessHash candidate.2) :
    ∃ next, matchCandidate hashing assigned fromExtra state candidate = .ok next ∧
      next.Consistent hashing taken n shorttxids := by
  unfold matchCandidate
  split
  · exact ⟨state, rfl, consistent⟩
  · case h_2 position found =>
      obtain ⟨below, free, rank⟩ := slots _ position found
      rw [if_neg (by rw [consistent.have_length, consistent.txn_length]; omega)]
      have fits : ∀ tx, some candidate.2 = some tx →
          shorttxids[Nat.count (fun slot => taken slot = none) position.toNat]? =
            some (hashing.GetShortID (hashing.GetWitnessHash tx)) := by
        intro tx same
        rw [rank, ← Option.some.inj same, ← wtxid]
      have empty : ∀ tx, (none : Option CTransaction) = some tx →
          shorttxids[Nat.count (fun slot => taken slot = none) position.toNat]? =
            some (hashing.GetShortID (hashing.GetWitnessHash tx)) :=
        fun _ absurd => by cases absurd
      split
      · exact ⟨_, rfl, consistent.set free _ fits _
          (by rw [List.length_set, consistent.have_length]) _ _⟩
      · split
        · split
          · exact ⟨state, rfl, consistent⟩
          · exact ⟨_, rfl, consistent.set free none empty _ consistent.have_length _ _⟩
        · exact ⟨state, rfl, consistent⟩

/-- So does the whole loop, broken off early or not. -/
theorem matchCandidates_ok {assigned : List (UInt64 × UInt16)}
    (slots : SlotsOfShortIds taken n shorttxids assigned) (fromExtra : Bool) :
    ∀ (candidates : List (uint256 × CTransaction)) (state : Matching),
      state.Consistent hashing taken n shorttxids →
      (∀ candidate ∈ candidates, candidate.1 = hashing.GetWitnessHash candidate.2) →
      ∃ next, matchCandidates hashing assigned fromExtra candidates state = .ok next ∧
        next.Consistent hashing taken n shorttxids
  | [], state, consistent, _ => ⟨state, rfl, consistent⟩
  | candidate :: rest, state, consistent, wtxids => by
      obtain ⟨next, run, kept⟩ := matchCandidate_ok slots fromExtra consistent
        (wtxids candidate List.mem_cons_self)
      rw [matchCandidates, run]
      simp only
      split
      · exact ⟨next, rfl, kept⟩
      · exact matchCandidates_ok slots fromExtra rest next kept
          fun later mem => wtxids later (List.mem_cons_of_mem _ mem)

end Consistent

/-! ## What a successful `InitData` lays out -/

/--
With at most 2^16 slots, enough fuel, and mempool and extra entries that
pair each transaction with its witness hash, `InitData` returns without a
fault.  When it returns `READ_STATUS_OK`, there is a slot for each
transaction, the `k`-th prefilled transaction sits at the sum of the first
`k + 1` differential indexes each plus one, less one, the `i`-th short ID
has its slot, the `i`-th one no prefilled transaction takes, and a slot of
a short ID that is filled holds a transaction with that short ID.
-/
theorem InitData_layout (hashing : CompactHashing) (cmpctblock : CBlockHeaderAndShortTxIDs)
    (vTxHashes extra_txn : List (uint256 × CTransaction)) {fuel : Nat}
    (small : cmpctblock.BlockTxCount ≤ 65536) (enough : 65536 ≤ fuel)
    (wtxids : ∀ candidate ∈ vTxHashes ++ extra_txn,
      candidate.1 = hashing.GetWitnessHash candidate.2) :
    ∃ status block, InitData hashing fuel cmpctblock vTxHashes extra_txn = .ok (status, block) ∧
      (status = .READ_STATUS_OK →
        block.txn_available.length = cmpctblock.BlockTxCount ∧
        (∀ k (inside : k < cmpctblock.prefilledtxn.length),
          block.txn_available[((cmpctblock.prefilledtxn.take (k + 1)).map fun prefilled =>
              prefilled.index.toNat + 1).sum - 1]? =
            some (some cmpctblock.prefilledtxn[k].tx)) ∧
        (∀ i < cmpctblock.shorttxids.length,
          Nat.nth (fun slot => prefilledAt 0 cmpctblock.prefilledtxn slot = none) i <
            cmpctblock.BlockTxCount) ∧
        ∀ slot tx, prefilledAt 0 cmpctblock.prefilledtxn slot = none →
          block.txn_available[slot]? = some (some tx) →
          ∃ i, ∃ inside : i < cmpctblock.shorttxids.length,
            slot = Nat.nth (fun slot => prefilledAt 0 cmpctblock.prefilledtxn slot = none) i ∧
            hashing.GetShortID (hashing.GetWitnessHash tx) = cmpctblock.shorttxids[i]) := by
  obtain ⟨header, shorttxids, prefilledtxn⟩ := cmpctblock
  unfold CBlockHeaderAndShortTxIDs.BlockTxCount at small ⊢
  dsimp only at small ⊢
  unfold InitData
  dsimp only
  split
  · exact ⟨_, _, rfl, fun invalid => by cases invalid⟩
  split
  · exact ⟨_, _, rfl, fun invalid => by cases invalid⟩
  have fresh : List.replicate (shorttxids.length + prefilledtxn.length) (none : Option CTransaction) =
      (List.range (shorttxids.length + 0 + prefilledtxn.length)).map fun _ => none := by
    rw [List.map_const', List.length_range, Nat.add_zero]
  obtain ⟨placed, run, layout⟩ := placePrefilled_ok shorttxids.length prefilledtxn 0 0
    (fun _ => none) (fun _ _ => rfl)
  rw [CBlockHeaderAndShortTxIDs.BlockTxCount, fresh,
    show ((-1 : Int)) = ((0 : Nat) : Int) - 1 by rfl, run]
  rcases placed with _ | txn_available
  · exact ⟨_, _, rfl, fun invalid => by cases invalid⟩
  obtain ⟨shape, inRange⟩ := layout _ rfl
  simp only [Nat.not_lt_zero, if_false] at shape
  subst shape
  dsimp only
  have room : shorttxids.length ≤ Nat.count (fun slot => prefilledAt 0 prefilledtxn slot = none)
      (shorttxids.length + 0 + prefilledtxn.length) := by
    have free := le_count_free prefilledtxn 0 (shorttxids.length + 0 + prefilledtxn.length)
    omega
  obtain ⟨result, mapped, slots⟩ := mapShortIds_ok hashing (by omega) enough room 0 0 []
    (Nat.count_zero _) (fun _ _ found => by cases found)
  rw [List.drop_zero] at mapped
  rw [mapped]
  rcases result with _ | assigned
  · exact ⟨_, _, rfl, fun failed => by cases failed⟩
  have slots := slots _ rfl
  dsimp only
  split
  · exact ⟨_, _, rfl, fun failed => by cases failed⟩
  obtain ⟨fromMempool, mempoolRun, mempoolKept⟩ := matchCandidates_ok slots false vTxHashes _
    Matching.Consistent.start fun candidate mem => wtxids candidate (List.mem_append_left _ mem)
  rw [mempoolRun]
  dsimp only
  obtain ⟨matched, extraRun, consistent⟩ := matchCandidates_ok slots true extra_txn _
    mempoolKept fun candidate mem => wtxids candidate (List.mem_append_right _ mem)
  rw [extraRun]
  dsimp only
  refine ⟨_, _, rfl, fun _ => ⟨?_, ?_, ?_, ?_⟩⟩
  · rw [consistent.txn_length, Nat.add_zero]
  · intro k inside
    have placedAt := prefilledAt_sum prefilledtxn 0 k inside
    rw [Nat.zero_add] at placedAt
    have below := inRange _ (by rw [placedAt]; rfl)
    rw [consistent.prefilled _ below (by rw [placedAt]; exact Option.some_ne_none _), placedAt]
  · intro i inside
    have below := Nat.nth_lt_of_lt_count (show i < Nat.count
      (fun slot => prefilledAt 0 prefilledtxn slot = none)
        (shorttxids.length + 0 + prefilledtxn.length) by omega)
    omega
  · intro slot tx free found
    obtain ⟨inside, equal⟩ := List.getElem?_eq_some_iff.mp (consistent.matched slot tx free found)
    exact ⟨_, inside, (Nat.nth_count free).symm, equal.symm⟩

/-- A coinbase prefilled at slot 0 and one short ID that a mempool transaction matches. -/
theorem InitData_layout_twoSlots :
    let header : CBlockHeader := ⟨1, 0, 0, 1500000000, 0x1e0fffff, 0, ⟨10, 10, 0, 0, 0, 0, 1⟩⟩
    let coinbase : CTransaction := ⟨[], [CTxOut.null], 2, 0, 1⟩
    let spend : CTransaction := ⟨[], [CTxOut.null], 2, 0, 2⟩
    let hashing : CompactHashing := ⟨fun _ => 5, fun _ => 0, fun _ _ => false⟩
    let cmpctblock : CBlockHeaderAndShortTxIDs := ⟨header, [5], [⟨0, coinbase⟩]⟩
    (cmpctblock.BlockTxCount ≤ 65536 ∧ 65536 ≤ 65536 ∧
      ∀ candidate ∈ [((0 : uint256), spend)] ++ [],
        candidate.1 = hashing.GetWitnessHash candidate.2) ∧
    ∃ status block, InitData hashing 65536 cmpctblock [(0, spend)] [] = .ok (status, block) ∧
      (status = .READ_STATUS_OK →
        block.txn_available.length = cmpctblock.BlockTxCount ∧
        (∀ k (inside : k < cmpctblock.prefilledtxn.length),
          block.txn_available[((cmpctblock.prefilledtxn.take (k + 1)).map fun prefilled =>
              prefilled.index.toNat + 1).sum - 1]? =
            some (some cmpctblock.prefilledtxn[k].tx)) ∧
        (∀ i < cmpctblock.shorttxids.length,
          Nat.nth (fun slot => prefilledAt 0 cmpctblock.prefilledtxn slot = none) i <
            cmpctblock.BlockTxCount) ∧
        ∀ slot tx, prefilledAt 0 cmpctblock.prefilledtxn slot = none →
          block.txn_available[slot]? = some (some tx) →
          ∃ i, ∃ inside : i < cmpctblock.shorttxids.length,
            slot = Nat.nth (fun slot => prefilledAt 0 cmpctblock.prefilledtxn slot = none) i ∧
            hashing.GetShortID (hashing.GetWitnessHash tx) = cmpctblock.shorttxids[i]) :=
  ⟨⟨by decide, Nat.le_refl _, by simp⟩,
    InitData_layout _ _ [(0, _)] [] (by decide) (Nat.le_refl _) (by simp)⟩

/-! ## What a successful `FillBlock` returns -/

/--
The loop of `FillBlock` keeps each filled slot and gives the empty ones the
missing transactions in order, the slot with `c` empty slots before it
taking the `c`-th.
-/
theorem fillSlots_some :
    ∀ (txn_available : List (Option CTransaction)) (vtx_missing vtx unused : List CTransaction),
      fillSlots txn_available vtx_missing = some (vtx, unused) →
      vtx_missing.length = txn_available.countP Option.isNone + unused.length ∧
      vtx.length = txn_available.length ∧
      (∀ (slot : Nat) tx, txn_available[slot]? = some (some tx) → vtx[slot]? = some tx) ∧
      ∀ slot : Nat, txn_available[slot]? = some none →
        vtx[slot]? = vtx_missing[(txn_available.take slot).countP Option.isNone]?
  | [], vtx_missing, vtx, unused, filled => by
      cases filled
      exact ⟨by simp, rfl, fun _ _ found => by simp at found, fun _ found => by simp at found⟩
  | none :: _, [], _, _, filled => by cases filled
  | none :: rest, tx :: vtx_missing, vtx, unused, filled => by
      obtain ⟨⟨later, left⟩, run, same⟩ := Option.map_eq_some_iff.mp filled
      cases same
      obtain ⟨counted, length, kept, taken⟩ := fillSlots_some rest vtx_missing later left run
      refine ⟨by simp [counted]; omega, by simp [length], ?_, ?_⟩
      · intro slot found
        cases slot with
        | zero => intro absurd; cases absurd
        | succ slot => exact kept slot found
      · intro slot empty
        cases slot with
        | zero => rfl
        | succ slot =>
            rw [List.getElem?_cons_succ] at empty
            rw [List.getElem?_cons_succ, taken slot empty, List.take_succ_cons, List.countP_cons]
            simp
  | some tx :: rest, vtx_missing, vtx, unused, filled => by
      obtain ⟨⟨later, left⟩, run, same⟩ := Option.map_eq_some_iff.mp filled
      cases same
      obtain ⟨counted, length, kept, taken⟩ := fillSlots_some rest vtx_missing later left run
      refine ⟨by simp [counted], by simp [length], ?_, ?_⟩
      · intro slot found
        cases slot with
        | zero => intro same; cases same; rfl
        | succ slot => exact kept slot found
      · intro slot empty
        cases slot with
        | zero => cases empty
        | succ slot =>
            rw [List.getElem?_cons_succ] at empty
            rw [List.getElem?_cons_succ, taken slot empty, List.take_succ_cons, List.countP_cons]
            simp

/--
`FillBlock` returns `READ_STATUS_OK` only when the peer sent exactly one
transaction per empty slot, and the block is then the slots in order, the
empty ones filled with those transactions in order.
-/
theorem FillBlock_layout (CheckBlock CorruptionPossible : CBlock → Bool) (header : CBlockHeader)
    (txn_available : List (Option CTransaction)) (vtx_missing : List CTransaction) {block : CBlock}
    (ok : FillBlock CheckBlock CorruptionPossible header txn_available vtx_missing =
      (.READ_STATUS_OK, some block)) :
    vtx_missing.length = txn_available.countP Option.isNone ∧ block.header = header ∧
      block.vtx.length = txn_available.length ∧
      (∀ (slot : Nat) tx, txn_available[slot]? = some (some tx) → block.vtx[slot]? = some tx) ∧
      ∀ slot : Nat, txn_available[slot]? = some none →
        block.vtx[slot]? = vtx_missing[(txn_available.take slot).countP Option.isNone]? := by
  unfold FillBlock at ok
  split at ok
  · cases ok
  · case h_2 vtx unused filled =>
      obtain ⟨counted, length, kept, taken⟩ := fillSlots_some _ _ _ _ filled
      split at ok
      · cases ok
      · case isFalse allUsed =>
          dsimp only at ok
          split at ok
          · split at ok <;> cases ok
          · cases ok
            have none : unused = [] := by simpa using allUsed
            rw [none, List.length_nil, Nat.add_zero] at counted
            exact ⟨counted, rfl, length, kept, taken⟩

/-- A coinbase already in its slot and one transaction sent for the empty one. -/
theorem FillBlock_layout_oneMissing :
    let header : CBlockHeader := ⟨1, 0, 0, 1500000000, 0x1e0fffff, 0, ⟨10, 10, 0, 0, 0, 0, 1⟩⟩
    let coinbase : CTransaction := ⟨[], [CTxOut.null], 2, 0, 1⟩
    let spend : CTransaction := ⟨[], [CTxOut.null], 2, 0, 2⟩
    let block : CBlock := ⟨header, [coinbase, spend]⟩
    FillBlock (fun _ => true) (fun _ => false) header [some coinbase, none] [spend] =
        (.READ_STATUS_OK, some block) ∧
      [spend].length = [some coinbase, none].countP Option.isNone ∧ block.header = header ∧
      block.vtx.length = [some coinbase, none].length ∧
      (∀ (slot : Nat) tx, [some coinbase, none][slot]? = some (some tx) →
        block.vtx[slot]? = some tx) ∧
      ∀ slot : Nat, [some coinbase, none][slot]? = some none →
        block.vtx[slot]? = [spend][([some coinbase, none].take slot).countP Option.isNone]? :=
  ⟨rfl, FillBlock_layout (fun _ => true) (fun _ => false) _ _ _ rfl⟩

/-! ## A message whose `while` loop never ends -/

/-- Prefilled transactions all at distance 0 fill the slots from `i` on, one each. -/
theorem placePrefilled_replicate (shortCount : Nat) {tx : CTransaction}
    (notNull : tx.IsNull = false) :
    ∀ (m i : Nat) (txn_available : List (Option CTransaction)),
      i + m ≤ 65536 → i + m ≤ txn_available.length →
      ∃ placed, placePrefilled shortCount i ((i : Int) - 1) (List.replicate m ⟨0, tx⟩)
          txn_available = .ok (some placed) ∧
        placed.length = txn_available.length ∧
        ∀ slot, placed[slot]? =
          if i ≤ slot ∧ slot < i + m then some (some tx) else txn_available[slot]?
  | 0, i, txn_available, _, _ =>
      ⟨txn_available, rfl, rfl, fun slot => by rw [if_neg (by omega)]⟩
  | m + 1, i, txn_available, fits, inside => by
      have last : ((i : Int) - 1 + (0 : UInt16).toNat + 1) = ((i + 1 : Nat) : Int) - 1 := by
        push_cast
        omega
      simp only [List.replicate_succ, placePrefilled, notNull, Bool.false_eq_true, if_false,
        last]
      rw [if_neg (by omega), if_neg (by omega), if_neg (by omega)]
      obtain ⟨placed, run, length, layout⟩ := placePrefilled_replicate shortCount notNull m
        (i + 1) (txn_available.set i (some tx)) (by omega) (by rw [List.length_set]; omega)
      have toNat : (((i + 1 : Nat) : Int) - 1).toNat = i := by omega
      rw [toNat]
      refine ⟨placed, run, by rw [length, List.length_set], fun slot => ?_⟩
      rw [layout, List.getElem?_set]
      by_cases here : slot = i
      · subst here
        rw [if_neg (by omega), if_pos rfl, if_pos (by omega), if_pos (by omega)]
      · by_cases within : i + 1 ≤ slot ∧ slot < i + 1 + m
        · rw [if_pos within, if_pos (by omega)]
        · rw [if_neg within, if_neg (Ne.symm here), if_neg (by omega)]

/-- With every slot from `i` on filled for 2^16 slots, the `uint16_t` offset cycles for ever. -/
theorem skipFilled_diverges {txn_available : List (Option CTransaction)} {i : Nat}
    (filled : ∀ offset < 65536, ∃ tx, txn_available[i + offset]? = some (some tx)) :
    ∀ (fuel : Nat) (index_offset : UInt16),
      skipFilled txn_available i fuel index_offset = .error .outOfFuel
  | 0, _ => rfl
  | fuel + 1, index_offset => by
      obtain ⟨tx, found⟩ := filled index_offset.toNat index_offset.toNat_lt
      rw [skipFilled, found]
      exact skipFilled_diverges filled fuel (index_offset + 1)

/--
A header and 65536 prefilled transactions at distance 0, with at least one
short ID: the prefilled loop fills the slots 0 to 65535, and the `while`
loop for the first short ID never finds a free slot below 2^16.
-/
theorem InitData_diverges (hashing : CompactHashing) {header : CBlockHeader}
    {tx : CTransaction} {shorttxids : List UInt64} (headerSet : header.IsNull = false)
    (notNull : tx.IsNull = false) (someShort : shorttxids ≠ [])
    (admitted : shorttxids.length + 65536 ≤ 150000)
    (vTxHashes extra_txn : List (uint256 × CTransaction)) (fuel : Nat) :
    InitData hashing fuel ⟨header, shorttxids, List.replicate 65536 ⟨0, tx⟩⟩ vTxHashes
      extra_txn = .error .outOfFuel := by
  obtain ⟨shortid, rest, rfl⟩ := List.exists_cons_of_ne_nil someShort
  obtain ⟨placed, run, _, layout⟩ := placePrefilled_replicate (shortid :: rest).length notNull
    65536 0 (List.replicate (CBlockHeaderAndShortTxIDs.BlockTxCount
      ⟨header, shortid :: rest, List.replicate 65536 ⟨0, tx⟩⟩) none) (by omega)
    (by
      rw [List.length_replicate, CBlockHeaderAndShortTxIDs.BlockTxCount, List.length_replicate]
      omega)
  have filled : ∀ offset < 65536, ∃ tx', placed[0 + offset]? = some (some tx') :=
    fun offset below => ⟨tx, by rw [layout, if_pos (by omega)]⟩
  have admittedCount : ¬ (shortid :: rest).length + (List.replicate 65536
      (⟨0, tx⟩ : PrefilledTransaction)).length >
      MAX_BLOCK_WEIGHT / MIN_SERIALIZABLE_TRANSACTION_WEIGHT := by
    simp only [List.length_replicate, MAX_BLOCK_WEIGHT, MIN_SERIALIZABLE_TRANSACTION_WEIGHT]
    omega
  have accepted : ¬ (header.IsNull || ((shortid :: rest).isEmpty &&
      (List.replicate 65536 (⟨0, tx⟩ : PrefilledTransaction)).isEmpty)) = true := by
    rw [headerSet, List.isEmpty_cons]
    simp only [Bool.false_or, Bool.false_and, Bool.false_eq_true, not_false_eq_true]
  unfold InitData
  rw [if_neg accepted, if_neg admittedCount]
  dsimp only
  rw [show ((-1 : Int)) = ((0 : Nat) : Int) - 1 by rfl, run]
  simp only [mapShortIds, skipFilled_diverges filled fuel 0]

/-- The header of the witnesses above, a transaction with one output, and the short ID 0. -/
theorem InitData_diverges_oneShort :
    let header : CBlockHeader := ⟨1, 0, 0, 1500000000, 0x1e0fffff, 0, ⟨10, 10, 0, 0, 0, 0, 1⟩⟩
    let tx : CTransaction := ⟨[], [CTxOut.null], 2, 0, 1⟩
    let hashing : CompactHashing := ⟨fun _ => 0, fun _ => 0, fun _ _ => false⟩
    (header.IsNull = false ∧ tx.IsNull = false ∧ [(0 : UInt64)] ≠ [] ∧
      [(0 : UInt64)].length + 65536 ≤ 150000) ∧
    InitData hashing 200000 ⟨header, [0], List.replicate 65536 ⟨0, tx⟩⟩ [] [] =
      .error .outOfFuel :=
  ⟨⟨by decide, by decide, by decide, by decide⟩,
    InitData_diverges _ (by decide) (by decide) (by decide) (by decide) [] [] 200000⟩

end Kevacoin
