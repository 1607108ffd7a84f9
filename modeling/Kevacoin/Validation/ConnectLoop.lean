import Kevacoin.Validation.CheckBlock

/-!
# What the transaction loop of `ConnectBlock` accumulates

The transaction loop of `ConnectBlock` carries the fees of the block, its
signature-operation cost and its undo data from one transaction to the
next.  It throws once the fees leave `MoneyRange` or the cost passes
`MAX_BLOCK_SIGOPS_COST`, and it records the spent coins of every
transaction but the first.

The main result, `ConnectBlock_accumulators`: after a run that succeeds the
fees are in range, the cost is within the limit, and the undo data that
`ConnectBlock` returns has one record of spent coins for each transaction
but the coinbase, the count that `DisconnectBlock` checks first.  On the
way, `connectTransactions_at` states that a run that succeeds reached
every transaction of the block and connected it, from which the results
about single transactions of an accepted block follow.
-/

namespace Kevacoin

open CCoinsViewCache

/-! ## One transaction -/

section Step

variable {checks : ConnectChecks} {nHeight : Int}

/-- A keva write changes only the names of the cache, and logs a keva undo record and no spent coins. -/
theorem applyKevaOutput_frame {tx : CTransaction} {height : Nat} {base : CCoinsView}
    {index : Nat} {op : KevaOp} {address : CScript} {cache cache' : CCoinsViewCache}
    {undo undo' : CBlockUndo}
    (wrote : applyKevaOutput tx height base index op address cache undo = .ok (cache', undo')) :
    cache.NamesOnly cache' ∧ undo'.vtxundo = undo.vtxundo := by
  unfold applyKevaOutput at wrote
  cases op with
  | kevaNamespace nameSpace displayName =>
      cases wrote
      exact ⟨SetName_frame _ _ _ _ _ _, rfl⟩
  | kevaPut nameSpace key value =>
      cases wrote
      exact ⟨SetName_frame _ _ _ _ _ _, rfl⟩
  | kevaDelete nameSpace key =>
      dsimp only at wrote
      split at wrote
      · obtain ⟨deletedCache, deleted, written⟩ := Except.map_eq_ok.mp wrote
        cases written
        exact ⟨DeleteName_frame deleted, rfl⟩
      · cases wrote
        exact ⟨NamesOnly.refl _, rfl⟩

theorem applyKevaOutputs_frame (tx : CTransaction) (height : Nat) (base : CCoinsView) :
    ∀ (index : Nat) (outs : List CTxOut) (cache : CCoinsViewCache) (undo : CBlockUndo)
      {cache' : CCoinsViewCache} {undo' : CBlockUndo},
      applyKevaOutputs tx height base index outs cache undo = .ok (cache', undo') →
        cache.NamesOnly cache' ∧ undo'.vtxundo = undo.vtxundo
  | _, [], _, _, _, _, applied => by
      cases applied
      exact ⟨NamesOnly.refl _, rfl⟩
  | index, out :: rest, cache, undo, cache', undo', applied => by
      unfold applyKevaOutputs at applied
      cases found : (CKevaScript.parse out.scriptPubKey).op with
      | none =>
          simp only [found] at applied
          exact applyKevaOutputs_frame tx height base (index + 1) rest cache undo applied
      | some op =>
          simp only [found] at applied
          cases wrote : applyKevaOutput tx height base index op
              (CKevaScript.parse out.scriptPubKey).address cache undo with
          | error abort =>
              rw [wrote] at applied
              cases applied
          | ok written =>
              rw [wrote] at applied
              obtain ⟨firstNames, firstUndo⟩ := applyKevaOutput_frame wrote
              obtain ⟨restNames, restUndo⟩ :=
                applyKevaOutputs_frame tx height base (index + 1) rest written.1 written.2 applied
              exact ⟨firstNames.trans restNames, restUndo.trans firstUndo⟩

/--
`ApplyKevaTransaction` changes only the names of the cache, and leaves the
records of spent coins as they were.
-/
theorem ApplyKevaTransaction_frame {tx : CTransaction} {height : Nat} {base : CCoinsView}
    {cache cache' : CCoinsViewCache} {undo undo' : CBlockUndo}
    (applied : ApplyKevaTransaction tx height base cache undo = .ok (cache', undo')) :
    cache.NamesOnly cache' ∧ undo'.vtxundo = undo.vtxundo := by
  unfold ApplyKevaTransaction at applied
  split at applied
  · cases applied
  split at applied
  · cases applied
    exact ⟨NamesOnly.refl _, rfl⟩
  · exact applyKevaOutputs_frame tx height base 0 tx.vout cache undo applied

/-- The effects of a transaction keep the fees and the cost, and record its spent coins unless it is the first. -/
theorem applyTransaction_spec {state next : ConnectState} {index : Nat} {tx : CTransaction}
    (applied : applyTransaction nHeight state index tx = .ok next) :
    next.nFees = state.nFees ∧ next.nSigOpsCost = state.nSigOpsCost ∧
      next.blockundo.vtxundo.length =
        state.blockundo.vtxundo.length + (if index > 0 then 1 else 0) := by
  unfold applyTransaction at applied
  obtain ⟨⟨txundo, base, cache⟩, -, rest⟩ := Except.bind_eq_ok.mp applied
  obtain ⟨⟨cache', undo'⟩, keva, done⟩ := Except.bind_eq_ok.mp rest
  cases done
  refine ⟨rfl, rfl, ?_⟩
  rw [(ApplyKevaTransaction_frame (Except.mapError_eq_ok.mp keva)).2]
  split <;> simp

/-- `checkSpends` keeps the fees in range, and neither counts cost nor records undo data. -/
theorem checkSpends_spec {state checked : ConnectState} {tx : CTransaction}
    (accepted : checkSpends checks nHeight state tx = .ok checked) :
    MoneyRange checked.nFees = true ∧ checked.nSigOpsCost = state.nSigOpsCost ∧
      checked.blockundo = state.blockundo := by
  unfold checkSpends at accepted
  obtain ⟨⟨txfee, base, cache⟩, -, rest⟩ := Except.bind_eq_ok.mp accepted
  simp only at rest
  split at rest
  · cases rest
  rename_i inRange
  split at rest
  · cases rest
  · cases rest
    refine ⟨?_, rfl, rfl⟩
    simpa using inRange

/--
The loop body, inverted: the spends checked unless the transaction is the
coinbase, the cost within the limit, the scripts checked unless it is the
coinbase, and then its effects.
-/
theorem connectTransaction_ok {state next : ConnectState} {index : Nat} {tx : CTransaction}
    (accepted : connectTransaction checks nHeight state index tx = .ok next) :
    ∃ checked,
      (if tx.IsCoinBase then .ok state else checkSpends checks nHeight state tx) = .ok checked ∧
      checked.nSigOpsCost + checks.GetTransactionSigOpCost tx (.cache checked.base checked.cache) ≤
        MAX_BLOCK_SIGOPS_COST ∧
      (tx.IsCoinBase = false → checks.CheckInputs tx (.cache checked.base checked.cache) = .ok ()) ∧
      applyTransaction nHeight
        { checked with
          nSigOpsCost := checked.nSigOpsCost +
            checks.GetTransactionSigOpCost tx (.cache checked.base checked.cache) }
        index tx = .ok next := by
  unfold connectTransaction at accepted
  cases coin : tx.IsCoinBase
  · simp only [coin, Bool.not_false, if_true] at accepted
    obtain ⟨checked, spendsChecked, rest⟩ := Except.bind_eq_ok.mp accepted
    split at rest
    · cases rest
    rename_i costFits
    split at rest
    · cases rest
    rename_i inputsChecked
    exact ⟨checked, spendsChecked, Nat.le_of_not_lt costFits, fun _ => inputsChecked, rest⟩
  · simp only [coin, Bool.not_true, Bool.false_eq_true, if_false, pure_bind] at accepted
    split at accepted
    · cases accepted
    rename_i costFits
    exact ⟨state, rfl, Nat.le_of_not_lt costFits, fun isSpend => absurd isSpend (by simp),
      accepted⟩

/-- The loop body runs `checkSpends` on every transaction but the coinbase. -/
theorem connectTransaction_checkSpends {state next : ConnectState} {index : Nat}
    {tx : CTransaction} (spend : tx.IsCoinBase = false)
    (accepted : connectTransaction checks nHeight state index tx = .ok next) :
    ∃ checked, checkSpends checks nHeight state tx = .ok checked := by
  obtain ⟨checked, spendsChecked, -⟩ := connectTransaction_ok accepted
  rw [spend, if_neg Bool.false_ne_true] at spendsChecked
  exact ⟨checked, spendsChecked⟩

/-- The fees and the cost of a loop state that the loop body accepts: in range and within the limit. -/
structure ConnectState.Bounded (state : ConnectState) : Prop where
  fees : MoneyRange state.nFees = true
  sigops : state.nSigOpsCost ≤ MAX_BLOCK_SIGOPS_COST

/-- The step: the loop body keeps the accumulators bounded and records one undo entry unless it is at the first transaction. -/
theorem connectTransaction_bounded {state next : ConnectState} {index : Nat}
    {tx : CTransaction} (bounded : state.Bounded)
    (accepted : connectTransaction checks nHeight state index tx = .ok next) :
    next.Bounded ∧
      next.blockundo.vtxundo.length =
        state.blockundo.vtxundo.length + (if index > 0 then 1 else 0) := by
  obtain ⟨checked, spendsChecked, costFits, -, applied⟩ := connectTransaction_ok accepted
  have checkedSpec : MoneyRange checked.nFees = true ∧
      checked.nSigOpsCost = state.nSigOpsCost ∧ checked.blockundo = state.blockundo := by
    split at spendsChecked
    · cases spendsChecked
      exact ⟨bounded.fees, rfl, rfl⟩
    · exact checkSpends_spec spendsChecked
  obtain ⟨feesInRange, -, sameUndo⟩ := checkedSpec
  obtain ⟨sameFees, appliedCost, undone⟩ := applyTransaction_spec applied
  refine ⟨⟨?_, ?_⟩, ?_⟩
  · rw [sameFees]
    exact feesInRange
  · rw [appliedCost]
    exact costFits
  · rw [undone, ← sameUndo]

/--
The run: a loop that succeeds from bounded accumulators ends with bounded
ones, and with one undo entry for each transaction it connected but the
first of the block.
-/
theorem connectTransactions_bounded :
    ∀ {index : Nat} {txs : List CTransaction} {state final : ConnectState},
      state.Bounded → connectTransactions checks nHeight index txs state = .ok final →
        final.Bounded ∧
          final.blockundo.vtxundo.length + (if index = 0 ∧ txs ≠ [] then 1 else 0) =
            state.blockundo.vtxundo.length + txs.length
  | _, [], _, _, bounded, accepted => by
      cases accepted
      exact ⟨bounded, by simp⟩
  | index, tx :: rest, state, final, bounded, accepted => by
      obtain ⟨next, stepped, later⟩ := connectTransactions_cons_ok accepted
      obtain ⟨nextBounded, recorded⟩ := connectTransaction_bounded bounded stepped
      obtain ⟨finalBounded, counted⟩ := connectTransactions_bounded nextBounded later
      refine ⟨finalBounded, ?_⟩
      rw [recorded] at counted
      simp only [Nat.add_one_ne_zero, false_and, if_false, Nat.add_zero] at counted
      simp only [ne_eq, reduceCtorEq, not_false_eq_true, and_true, List.length_cons]
      split at counted <;> split <;> omega

end Step

/-! ## A whole run -/

section Run

variable {checks : ConnectChecks} {nHeight : Int}

/-- A run of the transaction loop that succeeds reached each of its transactions and connected it. -/
theorem connectTransactions_at :
    ∀ {index : Nat} {txs : List CTransaction} {state final : ConnectState},
      connectTransactions checks nHeight index txs state = .ok final →
      ∀ (position : Nat) (tx : CTransaction), txs[position]? = some tx →
        ∃ reached next,
          connectTransactions checks nHeight index (txs.take position) state = .ok reached ∧
            connectTransaction checks nHeight reached (index + position) tx = .ok next
  | _, [], _, _, _, _, _, found => by
      cases found
  | index, first :: rest, state, final, accepted, position, tx, found => by
      obtain ⟨next, stepped, later⟩ := connectTransactions_cons_ok accepted
      cases position with
      | zero =>
          cases found
          exact ⟨state, next, rfl, stepped⟩
      | succ position =>
          obtain ⟨reached, after, run, connected⟩ := connectTransactions_at later position tx found
          refine ⟨reached, after, ?_, ?_⟩
          · rw [List.take_succ_cons, connectTransactions, stepped]
            exact run
          · rw [show index + (position + 1) = index + 1 + position by omega]
            exact connected

/-- The end of `ConnectBlock` returns the undo data and the view of the loop, for a block with a coinbase. -/
theorem finishConnect_ok {params : ConsensusParams} {hashBlock : uint256}
    {vtx : List CTransaction} {state : ConnectState}
    {result : CBlockUndo × CCoinsView × CCoinsViewCache}
    (finished : finishConnect params nHeight hashBlock vtx state = .ok result) :
    vtx ≠ [] ∧ result = (state.blockundo, state.base, state.cache.SetBestBlock hashBlock) := by
  unfold finishConnect at finished
  split at finished
  · cases finished
  · obtain ⟨_, -, rest⟩ := Except.bind_eq_ok.mp finished
    split at rest
    · cases rest
    · cases rest
      exact ⟨List.cons_ne_nil _ _, rfl⟩

variable {hashes : HashPrimitives} {params : ConsensusParams} {block : CBlock}
  {pindex : CBlockIndex} {base : CCoinsView} {cache : CCoinsViewCache}
  {result : CBlockUndo × CCoinsView × CCoinsViewCache}

/--
After the transaction loop of a block that `ConnectBlock` accepts, other
than genesis, the fees are in `MoneyRange`, the signature-operation cost is
within `MAX_BLOCK_SIGOPS_COST`, and the undo data returned is the loop's,
with one record of spent coins for every transaction but the coinbase.
-/
theorem ConnectBlock_accumulators
    (accepted : ConnectBlock hashes params checks block pindex base cache = .ok result)
    (notGenesis : block.header.GetHash hashes ≠ params.hashGenesisBlock) :
    ∃ final, connectTransactions checks pindex.nHeight 0 block.vtx
        ⟨(GetBestBlock base cache).2.1, (GetBestBlock base cache).2.2, CBlockUndo.empty,
          0, 0⟩ = .ok final ∧
      MoneyRange final.nFees = true ∧ final.nSigOpsCost ≤ MAX_BLOCK_SIGOPS_COST ∧
      result.1 = final.blockundo ∧ result.1.vtxundo.length + 1 = block.vtx.length := by
  obtain ⟨hashBlock, final, -, loop, finish⟩ := ConnectBlock_ok_finishConnect accepted notGenesis
  obtain ⟨nonempty, finished⟩ := finishConnect_ok finish
  have returned : result.1 = final.blockundo := congrArg Prod.fst finished
  have initial : ConnectState.Bounded
      ⟨(GetBestBlock base cache).2.1, (GetBestBlock base cache).2.2, CBlockUndo.empty, 0, 0⟩ :=
    ⟨show MoneyRange 0 = true by decide, Nat.zero_le _⟩
  obtain ⟨bounded, counted⟩ := connectTransactions_bounded initial loop
  refine ⟨final, loop, bounded.fees, bounded.sigops, returned, ?_⟩
  rw [if_pos ⟨rfl, nonempty⟩] at counted
  have recorded : final.blockundo.vtxundo.length + 1 = 0 + block.vtx.length := counted
  rw [returned]
  omega

theorem ConnectBlock_accumulators_putCoinbase :
    ∃ result, ConnectBlock constantHashes mainParams sourceBlockChecks putCoinbaseBlock
        blockOneIndex genesisView .initial = .ok result ∧
      ∃ final, connectTransactions sourceBlockChecks blockOneIndex.nHeight 0 putCoinbaseBlock.vtx
            ⟨(GetBestBlock genesisView .initial).2.1, (GetBestBlock genesisView .initial).2.2,
              CBlockUndo.empty, 0, 0⟩ = .ok final ∧
        MoneyRange final.nFees = true ∧ final.nSigOpsCost ≤ MAX_BLOCK_SIGOPS_COST ∧
        result.1 = final.blockundo ∧ result.1.vtxundo.length + 1 = putCoinbaseBlock.vtx.length := by
  obtain ⟨result, accepted⟩ := putCoinbaseBlock_connects
  exact ⟨result, accepted, ConnectBlock_accumulators accepted (by decide)⟩

end Run

end Kevacoin
