import Kevacoin.Consensus.TxCheck
import Kevacoin.Consensus.Merkle
import Kevacoin.Validation.ConnectBlock
import Kevacoin.Validation.KevaBlocks

/-!
# The context-free block checks

`CheckBlock` in `validation.cpp`: the header (`CheckBlockHeader`), the
merkle root and its malleability, the size limits, one coinbase and only in
front, `CheckTransaction` of every transaction, and the legacy count of
signature operations.  `CBlock.WellFormed` states what the checks after the
merkle root establish, and `checkContents_eq_ok_iff` says that they accept
exactly the blocks it describes.

The source adds the legacy counts in an `unsigned int`; the model adds them
in `Nat`.  `legacySigOps_scaled_lt` shows that for a block within the size
limit, checked before, the scaled count stays below `2 ^ 32`, so the two agree.

`ConnectBlock` takes its `CheckBlock` as a parameter.  Where the parameter
accepts no more than the source's `CheckBlock` (`ConnectChecks.ChecksBlocks`),
a block that `ConnectBlock` connects is well formed, its coinbase's
`GetValueOut` cannot throw, and the end of `ConnectBlock` rejects only the
coinbase's amount.

The memo flag `fChecked` is left out: it only skips checks that the same
block object has passed.  The DoS scores and corruption flags of the
rejections are left out too.
-/

namespace Kevacoin

open CCoinsViewCache

/-! ## `CheckBlock` -/

/-- The transaction loop of `CheckBlock`: the reason of the first transaction `CheckTransaction` rejects. -/
def checkTransactions : List CTransaction → Except String Unit
  | [] => .ok ()
  | tx :: rest => CheckTransaction tx true >>= fun _ => checkTransactions rest

/-- `CheckBlock` after the header and the merkle root: the sizes, the coinbase, the transactions and the sigops. -/
def checkContents (block : CBlock) : Except String Unit :=
  -- the size without witnesses, as the witness commitment is checked in context only
  if block.vtx = [] ∨ block.vtx.length * WITNESS_SCALE_FACTOR > MAX_BLOCK_WEIGHT ∨
      (block.serialize false false).length * WITNESS_SCALE_FACTOR > MAX_BLOCK_WEIGHT then
    .error "bad-blk-length"
  else
    match block.vtx with
    | [] => .error "bad-cb-missing"
    | coinbase :: others =>
        if !coinbase.IsCoinBase then .error "bad-cb-missing"
        else if others.any CTransaction.IsCoinBase then .error "bad-cb-multiple"
        else
          checkTransactions block.vtx >>= fun _ =>
            if (block.vtx.map GetLegacySigOpCount).sum * WITNESS_SCALE_FACTOR >
                MAX_BLOCK_SIGOPS_COST then
              .error "bad-blk-sigops"
            else .ok ()

/--
`CheckBlock`: the reject reason of the first check that fails, or `none`
where the C++ is undefined (a null seed entry in `CheckBlockHeader`, an
undefined merkle computation).
-/
def CheckBlock (hashes : HashPrimitives) (chainActive : CChain) (params : ConsensusParams)
    (block : CBlock) (fCheckPOW fCheckMerkleRoot : Bool) : Option (Except String Unit) :=
  match CheckBlockHeader hashes chainActive block.header params fCheckPOW with
  | none => none
  | some (.error reason) => some (.error reason)
  | some (.ok ()) =>
      if fCheckMerkleRoot then
        (BlockMerkleRoot hashes block).map fun (hashMerkleRoot2, mutated) =>
          if block.header.hashMerkleRoot ≠ hashMerkleRoot2 then .error "bad-txnmrklroot"
          -- CVE-2012-2459: a repeated subtree leaves the root as it is
          else if mutated then .error "bad-txns-duplicate"
          else checkContents block
      else some (checkContents block)

/-! ## What `CheckBlock` accepts -/

/-- What the checks of `CheckBlock` after the merkle root establish of a block. -/
structure CBlock.WellFormed (block : CBlock) : Prop where
  count_le : block.vtx.length * WITNESS_SCALE_FACTOR ≤ MAX_BLOCK_WEIGHT
  size_le : (block.serialize false false).length * WITNESS_SCALE_FACTOR ≤ MAX_BLOCK_WEIGHT
  coinbase_first : ∃ coinbase others, block.vtx = coinbase :: others ∧
    coinbase.IsCoinBase = true ∧ ∀ tx ∈ others, tx.IsCoinBase = false
  transactions_checked : ∀ tx ∈ block.vtx, tx.Checked true
  sigops_le :
    (block.vtx.map GetLegacySigOpCount).sum * WITNESS_SCALE_FACTOR ≤ MAX_BLOCK_SIGOPS_COST

/-- The transaction loop accepts exactly the lists whose transactions are all checked. -/
theorem checkTransactions_eq_ok_iff :
    ∀ {txs : List CTransaction}, checkTransactions txs = .ok () ↔ ∀ tx ∈ txs, tx.Checked true
  | [] => by simp [checkTransactions]
  | tx :: rest => by
    rw [checkTransactions, Except.bind_eq_ok, List.forall_mem_cons, ← checkTransactions_eq_ok_iff]
    constructor
    · rintro ⟨_, checked, restOk⟩
      exact ⟨checked_of_CheckTransaction checked, restOk⟩
    · rintro ⟨spec, restOk⟩
      exact ⟨(), CheckTransaction_of_checked spec, restOk⟩

/-- The checks after the merkle root accept exactly the well-formed blocks. -/
theorem checkContents_eq_ok_iff {block : CBlock} :
    checkContents block = .ok () ↔ block.WellFormed := by
  obtain ⟨header, vtx⟩ := block
  cases vtx with
  | nil =>
    refine iff_of_false (by simp [checkContents]) fun wellFormed => ?_
    obtain ⟨_, _, empty, -⟩ := wellFormed.coinbase_first
    cases empty
  | cons coinbase others =>
    simp only [checkContents, Except.ite_error_eq_ok, Except.bind_eq_ok, reduceCtorEq, false_or,
      not_or, not_lt, Bool.not_eq_true', Bool.not_eq_false, Bool.not_eq_true, List.any_eq_false,
      and_true]
    constructor
    · rintro ⟨⟨countLe, sizeLe⟩, coinbaseOk, onlyOne, ⟨⟩, checked, sigopsLe⟩
      exact ⟨countLe, sizeLe, ⟨coinbase, others, rfl, coinbaseOk, onlyOne⟩,
        checkTransactions_eq_ok_iff.mp checked, sigopsLe⟩
    · rintro ⟨countLe, sizeLe, ⟨_, _, same, coinbaseOk, onlyOne⟩, checked, sigopsLe⟩
      obtain ⟨rfl, rfl⟩ := List.cons.inj same
      exact ⟨⟨countLe, sizeLe⟩, coinbaseOk, onlyOne, (), checkTransactions_eq_ok_iff.mpr checked,
        sigopsLe⟩

/-- What `CheckBlock` establishes of a block it accepts. -/
theorem CheckBlock_sound {hashes : HashPrimitives} {chainActive : CChain}
    {params : ConsensusParams} {block : CBlock} {fCheckPOW fCheckMerkleRoot : Bool}
    (accepted : CheckBlock hashes chainActive params block fCheckPOW fCheckMerkleRoot = some (.ok ())) :
    CheckBlockHeader hashes chainActive block.header params fCheckPOW = some (.ok ()) ∧
      (fCheckMerkleRoot = true →
        BlockMerkleRoot hashes block = some (block.header.hashMerkleRoot, false)) ∧
      block.WellFormed := by
  unfold CheckBlock at accepted
  split at accepted
  · cases accepted
  · cases accepted
  rename_i headerOk
  cases fCheckMerkleRoot with
  | false =>
    exact ⟨headerOk, nofun, checkContents_eq_ok_iff.mp (Option.some.inj accepted)⟩
  | true =>
    rw [if_pos rfl] at accepted
    obtain ⟨⟨root, mutated⟩, computed, checked⟩ := Option.map_eq_some_iff.mp accepted
    simp only [Except.ite_error_eq_ok, not_not, Bool.not_eq_true] at checked
    obtain ⟨rootMatches, notMutated, contents⟩ := checked
    rw [rootMatches, ← notMutated]
    exact ⟨headerOk, fun _ => computed, checkContents_eq_ok_iff.mp contents⟩

/-! ## The legacy count of a block -/

/-- The legacy count of a block is at most twenty for each byte it takes without witnesses. -/
theorem legacySigOps_le (block : CBlock) :
    (block.vtx.map GetLegacySigOpCount).sum ≤ 20 * (block.serialize false false).length := by
  have transactions : (block.vtx.map GetLegacySigOpCount).sum ≤
      20 * (block.vtx.flatMap (SerializeTransaction false)).length := by
    rw [List.length_flatMap, ← List.sum_map_mul_left]
    exact List.sum_le_sum fun tx _ => GetLegacySigOpCount_le tx
  have layout : (block.vtx.flatMap (SerializeTransaction false)).length ≤
      (block.serialize false false).length := by
    simp [CBlock.serialize, writeVector]
    omega
  omega

/--
`CheckBlock` adds the legacy counts in an `unsigned int` and scales the sum
by `WITNESS_SCALE_FACTOR`.  For a block within the size limit, which it
checks first, the scaled sum stays below `2 ^ 32`: neither step wraps, and
the sum in `Nat` is the source's.
-/
theorem legacySigOps_scaled_lt {block : CBlock}
    (sizeLe : (block.serialize false false).length * WITNESS_SCALE_FACTOR ≤ MAX_BLOCK_WEIGHT) :
    (block.vtx.map GetLegacySigOpCount).sum * WITNESS_SCALE_FACTOR < 2 ^ 32 := by
  have bound := legacySigOps_le block
  unfold WITNESS_SCALE_FACTOR MAX_BLOCK_WEIGHT at *
  omega

theorem legacySigOps_scaled_lt_putCoinbase :
    (putCoinbaseBlock.vtx.map GetLegacySigOpCount).sum * WITNESS_SCALE_FACTOR < 2 ^ 32 :=
  legacySigOps_scaled_lt (by decide +kernel)

/-! ## `CheckBlock` in `ConnectBlock` -/

/--
The block check that `ConnectBlock` is given accepts no more than the
source's `CheckBlock`, which it calls with the proof of work and the merkle
root checked.
-/
def ConnectChecks.ChecksBlocks (checks : ConnectChecks) (hashes : HashPrimitives)
    (chainActive : CChain) (params : ConsensusParams) : Prop :=
  ∀ block, checks.CheckBlock block = .ok () →
    Kevacoin.CheckBlock hashes chainActive params block true true = some (.ok ())

section Connect

variable {hashes : HashPrimitives} {params : ConsensusParams} {checks : ConnectChecks}
  {block : CBlock} {pindex : CBlockIndex} {base : CCoinsView} {cache : CCoinsViewCache}
  {result : CBlockUndo × CCoinsView × CCoinsViewCache}

/-- A block other than genesis that `ConnectBlock` connects has a parent entry and went through the transaction loop and `finishConnect`. -/
theorem ConnectBlock_ok_finishConnect
    (accepted : ConnectBlock hashes params checks block pindex base cache = .ok result)
    (notGenesis : block.header.GetHash hashes ≠ params.hashGenesisBlock) :
    ∃ hashBlock final, pindex.pprev.isNull = false ∧
      connectTransactions checks pindex.nHeight 0 block.vtx
        ⟨(GetBestBlock base cache).2.1, (GetBestBlock base cache).2.2, CBlockUndo.empty,
          0, 0⟩ = .ok final ∧
      finishConnect params pindex.nHeight hashBlock block.vtx final = .ok result := by
  cases pindex with
  | null =>
      cases accepted
  | entry hashBlock nHeight nStatus pprev pskip =>
      rcases best : GetBestBlock base cache with ⟨bestBlock, base', cache'⟩
      simp only [ConnectBlock, best, notGenesis, if_false] at accepted
      split at accepted
      · cases accepted
      split at accepted
      · cases accepted
      split at accepted
      · cases accepted
      split at accepted
      · cases accepted
      split at accepted
      · cases accepted
      rename_i hasParent
      obtain ⟨final, loop, finish⟩ := Except.bind_eq_ok.mp accepted
      exact ⟨hashBlock, final, Bool.eq_false_iff.mpr hasParent, loop, finish⟩

/-- The end of `ConnectBlock` once the coinbase's `GetValueOut` returns: the amount check alone. -/
theorem finishConnect_of_valued {coinbase : CTransaction} {valueOut : CAmount}
    (valued : coinbase.GetValueOut false = .ok valueOut) (others : List CTransaction)
    (nHeight : Int) (hashBlock : uint256) (state : ConnectState) :
    finishConnect params nHeight hashBlock (coinbase :: others) state =
      if valueOut > state.nFees + GetBlockSubsidy nHeight params then
        .error (.invalid "bad-cb-amount")
      else .ok (state.blockundo, state.base, state.cache.SetBestBlock hashBlock) := by
  rw [finishConnect, valued]
  rfl

/-- For a well-formed block the end of `ConnectBlock` can reject only the coinbase's amount. -/
theorem finishConnect_of_wellFormed (wellFormed : block.WellFormed) (params : ConsensusParams)
    (nHeight : Int) (hashBlock : uint256) (state : ConnectState) :
    ∃ coinbase others, block.vtx = coinbase :: others ∧
      finishConnect params nHeight hashBlock block.vtx state =
        if (coinbase.vout.map (countedValue false)).sum >
            state.nFees + GetBlockSubsidy nHeight params then
          .error (.invalid "bad-cb-amount")
        else .ok (state.blockundo, state.base, state.cache.SetBestBlock hashBlock) := by
  obtain ⟨coinbase, others, vtx, -, -⟩ := wellFormed.coinbase_first
  have checked : coinbase.Checked true :=
    wellFormed.transactions_checked coinbase (by rw [vtx]; exact List.mem_cons_self)
  rw [vtx]
  exact ⟨coinbase, others, rfl,
    finishConnect_of_valued (GetValueOut_of_checked checked false) others nHeight hashBlock state⟩

variable {chainActive : CChain}

/--
Past its transaction loop, `ConnectBlock` given a block check no looser than
the source's rejects a block only for its coinbase's amount: it cannot abort
on the coinbase's `GetValueOut`.
-/
theorem ConnectBlock_eq_after_loop {hashBlock : uint256} {nHeight : Int} {nStatus : UInt32}
    {pprev pskip : CBlockIndex} {final : ConnectState}
    (sound : checks.ChecksBlocks hashes chainActive params)
    (hashMatches : hashBlock = block.header.GetHash hashes)
    (heightMatches : block.header.nNonce.toInt32.toInt = nHeight)
    (blockChecked : checks.CheckBlock block = .ok ())
    (bestMatches : pprev.GetBlockHash.getD 0 = (GetBestBlock base cache).1)
    (notGenesis : block.header.GetHash hashes ≠ params.hashGenesisBlock)
    (hasParent : pprev.isNull = false)
    (connected : connectTransactions checks nHeight 0 block.vtx
      ⟨(GetBestBlock base cache).2.1, (GetBestBlock base cache).2.2, CBlockUndo.empty, 0, 0⟩ =
        .ok final) :
    ∃ coinbase others, block.vtx = coinbase :: others ∧
      ConnectBlock hashes params checks block (.entry hashBlock nHeight nStatus pprev pskip)
          base cache =
        if (coinbase.vout.map (countedValue false)).sum >
            final.nFees + GetBlockSubsidy nHeight params then
          .error (.invalid "bad-cb-amount")
        else .ok (final.blockundo, final.base, final.cache.SetBestBlock hashBlock) := by
  have wellFormed := (CheckBlock_sound (sound block blockChecked)).2.2
  obtain ⟨coinbase, others, vtx, finish⟩ :=
    finishConnect_of_wellFormed wellFormed params nHeight hashBlock final
  refine ⟨coinbase, others, vtx, ?_⟩
  rw [ConnectBlock_of_checked hashMatches heightMatches blockChecked bestMatches notGenesis
    hasParent, connected, ← finish]
  rfl

end Connect

/-! ## The source's block check in `ConnectBlock` -/

/-- The checks of `acceptingChecks` with the source's `CheckBlock`, on the main network and an empty active chain. -/
def sourceBlockChecks : ConnectChecks :=
  { acceptingChecks with
    CheckBlock := fun block =>
      (CheckBlock constantHashes ⟨[]⟩ mainParams block true true).getD (.error "") }

theorem sourceBlockChecks_checksBlocks :
    sourceBlockChecks.ChecksBlocks constantHashes ⟨[]⟩ mainParams := by
  intro block checked
  cases verdict : CheckBlock constantHashes ⟨[]⟩ mainParams block true true with
  | none =>
      simp only [sourceBlockChecks, verdict, Option.getD_none, reduceCtorEq] at checked
  | some outcome =>
      simp only [sourceBlockChecks, verdict, Option.getD_some] at checked
      rw [checked]

/-- The source's `CheckBlock` accepts block 1 with `putCoinbase`. -/
theorem sourceBlockChecks_putCoinbaseBlock :
    sourceBlockChecks.CheckBlock putCoinbaseBlock = .ok () := by
  decide +kernel

/-- With the source's `CheckBlock`, `ConnectBlock` still connects block 1 with `putCoinbase`. -/
theorem putCoinbaseBlock_connects :
    ∃ result, ConnectBlock constantHashes mainParams sourceBlockChecks putCoinbaseBlock
      blockOneIndex genesisView .initial = .ok result := by
  have hashMatches : (1 : uint256) = putCoinbaseBlock.header.GetHash constantHashes := by
    decide
  have heightMatches :
      putCoinbaseBlock.header.nNonce.toInt32.toInt = mainGenesisIndex.nHeight + 1 := by
    decide
  rw [blockOneIndex, CBlockIndex.extend, ConnectBlock_of_checked hashMatches heightMatches
    sourceBlockChecks_putCoinbaseBlock rfl (by decide) rfl]
  exact ⟨_, rfl⟩

theorem ConnectBlock_eq_after_loop_putCoinbase :
    ∃ final, connectTransactions sourceBlockChecks 1 0 putCoinbaseBlock.vtx
        ⟨(GetBestBlock genesisView .initial).2.1, (GetBestBlock genesisView .initial).2.2,
          CBlockUndo.empty, 0, 0⟩ = .ok final ∧
      ∃ coinbase others, putCoinbaseBlock.vtx = coinbase :: others ∧
        ConnectBlock constantHashes mainParams sourceBlockChecks putCoinbaseBlock blockOneIndex
            genesisView .initial =
          if (coinbase.vout.map (countedValue false)).sum >
              final.nFees + GetBlockSubsidy 1 mainParams then
            .error (.invalid "bad-cb-amount")
          else .ok (final.blockundo, final.base, final.cache.SetBestBlock 1) := by
  have hashMatches : (1 : uint256) = putCoinbaseBlock.header.GetHash constantHashes := by
    decide
  have heightMatches : putCoinbaseBlock.header.nNonce.toInt32.toInt = 1 := by
    decide
  obtain ⟨final, connected⟩ : ∃ final, connectTransactions sourceBlockChecks 1 0
      putCoinbaseBlock.vtx ⟨(GetBestBlock genesisView .initial).2.1,
        (GetBestBlock genesisView .initial).2.2, CBlockUndo.empty, 0, 0⟩ = .ok final :=
    ⟨_, rfl⟩
  exact ⟨final, connected, ConnectBlock_eq_after_loop sourceBlockChecks_checksBlocks hashMatches
    heightMatches sourceBlockChecks_putCoinbaseBlock rfl (by decide) rfl connected⟩

end Kevacoin
