import Kevacoin.Validation.TxVerify

/-!
# Connecting and disconnecting blocks

`CChainState::ConnectBlock` and `CChainState::DisconnectBlock` in
`validation.cpp`, with `ApplyTxInUndo` and `AccessByTxid`.

`ConnectBlock` walks the transactions of a block in order.  For every
transaction but the coinbase it runs `CheckTxInputs`, which runs the keva
check, and the script checks; for every transaction, the coinbase
included, it runs `UpdateCoins` and then `ApplyKevaTransaction`, which
writes the keva outputs without checks.  `DisconnectBlock` undoes the
coins of the transactions, last first, and then applies the keva undo
records `ApplyKevaTransaction` logged, last first.

The checks that do not read keva state are parameters (`ConnectChecks`):
`CheckBlock`, `SequenceLocks`, the sigop count and the script checks of
`CheckInputs`.  The script-check threads, the benchmarks, the undo and
index files and the assume-valid shortcut (it only skips script checks)
are left out; the BIP30 check is switched off in the source.
-/

namespace Kevacoin

open CCoinsViewCache

/-! ## `ConnectBlock` -/

/-- The checks of `ConnectBlock` that the model takes as given. -/
structure ConnectChecks where
  /-- `CheckBlock`: the reject reason of a block that fails. -/
  CheckBlock : CBlock → Except String Unit
  /-- `SequenceLocks` of a transaction, given the heights of the coins it spends. -/
  SequenceLocks : CTransaction → List Nat → Bool
  /-- `GetTransactionSigOpCost` of a transaction against the view. -/
  GetTransactionSigOpCost : CTransaction → CCoinsView → Nat
  /-- The script checks of `CheckInputs`: the reject reason of a transaction that fails. -/
  CheckInputs : CTransaction → CCoinsView → Except String Unit

/-- What the transaction loop of `ConnectBlock` carries from one transaction to the next. -/
structure ConnectState where
  base : CCoinsView
  cache : CCoinsViewCache
  blockundo : CBlockUndo
  nFees : CAmount
  nSigOpsCost : Nat

/-- The heights of the coins the inputs spend, collected for `SequenceLocks`. -/
def prevHeights : List CTxIn → CCoinsView → CCoinsViewCache →
    List Nat × CCoinsView × CCoinsViewCache
  | [], base, cache => ([], base, cache)
  | input :: rest, base, cache =>
      let (coin, base', cache') := AccessCoin base cache input.prevout
      let (heights, base'', cache'') := prevHeights rest base' cache'
      (coin.nHeight :: heights, base'', cache'')

/-- The checks of the loop body that only a transaction other than the coinbase gets. -/
def checkSpends (checks : ConnectChecks) (nHeight : Int) (state : ConnectState)
    (tx : CTransaction) : Except ValidationFailure ConnectState := do
  let (txfee, base, cache) ← CheckTxInputs tx state.base state.cache nHeight
  let nFees := state.nFees + txfee
  if !MoneyRange nFees then throw (.invalid "bad-txns-accumulated-fee-outofrange")
  let (prevheights, base, cache) := prevHeights tx.vin base cache
  if !checks.SequenceLocks tx prevheights then throw (.invalid "bad-txns-nonfinal")
  pure { state with base := base, cache := cache, nFees := nFees }

/-- The effects of the loop body: `UpdateCoins`, then `ApplyKevaTransaction`. -/
def applyTransaction (nHeight : Int) (state : ConnectState) (index : Nat)
    (tx : CTransaction) : Except ValidationFailure ConnectState := do
  let (txundo, base, cache) ←
    (UpdateCoins state.base state.cache tx nHeight.toNat).mapError .abort
  -- every transaction but the coinbase gets a slot in `vtxundo`
  let blockundo :=
    if index > 0 then
      { state.blockundo with vtxundo := state.blockundo.vtxundo ++ [txundo] }
    else state.blockundo
  let (cache, blockundo) ←
    (ApplyKevaTransaction tx nHeight.toNat base cache blockundo).mapError .abort
  pure { state with base := base, cache := cache, blockundo := blockundo }

/-- The body of the transaction loop of `ConnectBlock`, for the transaction at `index`. -/
def connectTransaction (checks : ConnectChecks) (nHeight : Int) (state : ConnectState)
    (index : Nat) (tx : CTransaction) : Except ValidationFailure ConnectState := do
  let state ← if !tx.IsCoinBase then checkSpends checks nHeight state tx else pure state
  let nSigOpsCost :=
    state.nSigOpsCost + checks.GetTransactionSigOpCost tx (.cache state.base state.cache)
  if nSigOpsCost > MAX_BLOCK_SIGOPS_COST then throw (.invalid "bad-blk-sigops")
  if !tx.IsCoinBase then
    match checks.CheckInputs tx (.cache state.base state.cache) with
    | .error reason => throw (.invalid reason)
    | .ok () => pure ()
  applyTransaction nHeight { state with nSigOpsCost := nSigOpsCost } index tx

/-- The transaction loop of `ConnectBlock`, from the transaction at `index` on. -/
def connectTransactions (checks : ConnectChecks) (nHeight : Int) :
    Nat → List CTransaction → ConnectState → Except ValidationFailure ConnectState
  | _, [], state => .ok state
  | index, tx :: rest, state =>
      match connectTransaction checks nHeight state index tx with
      | .error failure => .error failure
      | .ok state' => connectTransactions checks nHeight (index + 1) rest state'

/--
The end of `ConnectBlock`: the coinbase may pay at most the fees and the
subsidy, and the view moves to the block.
-/
def finishConnect (params : ConsensusParams) (nHeight : Int) (hashBlock : uint256)
    (vtx : List CTransaction) (state : ConnectState) :
    Except ValidationFailure (CBlockUndo × CCoinsView × CCoinsViewCache) :=
  match vtx with
  | [] => .error (.abort .assertFailure)
  | coinbase :: _ => do
      let blockReward := state.nFees + GetBlockSubsidy nHeight params
      let valueOut ← (coinbase.GetValueOut false).mapError .abort
      if valueOut > blockReward then throw (.invalid "bad-cb-amount")
      pure (state.blockundo, state.base, state.cache.SetBestBlock hashBlock)

/--
`CChainState::ConnectBlock` with `fJustCheck` false: the block undo data
and the view with the block applied.
-/
def ConnectBlock (hashes : HashPrimitives) (params : ConsensusParams)
    (checks : ConnectChecks) (block : CBlock) (pindex : CBlockIndex) (base : CCoinsView)
    (cache : CCoinsViewCache) :
    Except ValidationFailure (CBlockUndo × CCoinsView × CCoinsViewCache) :=
  match pindex with
  | .null => .error (.abort .assertFailure)
  | .entry hashBlock nHeight _ pprev _ => do
      if hashBlock ≠ block.header.GetHash hashes then throw (.abort .assertFailure)
      if block.header.nNonce.toInt32.toInt ≠ nHeight then
        throw (.invalid "ConnectBlock: block height mismatch")
      match checks.CheckBlock block with
      | .error reason => throw (.invalid reason)
      | .ok () => pure ()
      let hashPrevBlock := pprev.GetBlockHash.getD 0
      let (best, base, cache) := GetBestBlock base cache
      if hashPrevBlock ≠ best then throw (.abort .assertFailure)
      -- the genesis block's transactions are not connected
      if block.header.GetHash hashes = params.hashGenesisBlock then
        return (CBlockUndo.empty, base, cache.SetBestBlock hashBlock)
      if pprev.isNull then throw (.abort .assertFailure)
      let state ← connectTransactions checks nHeight 0 block.vtx
        ⟨base, cache, CBlockUndo.empty, 0, 0⟩
      finishConnect params nHeight hashBlock block.vtx state

/-! ## `DisconnectBlock` -/

/-- `DisconnectResult`. -/
inductive DisconnectResult where
  | DISCONNECT_OK
  | DISCONNECT_UNCLEAN
  | DISCONNECT_FAILED
deriving DecidableEq, Repr

/-- `MAX_OUTPUTS_PER_BLOCK`: `MAX_BLOCK_WEIGHT` over the weight of the smallest output. -/
def MAX_OUTPUTS_PER_BLOCK : Nat := 6000000 / 36

/-- The loop of `AccessByTxid` from output `n` on, with `fuel` outputs left below the bound. -/
def accessByTxidFrom (txid : uint256) : Nat → Nat → CCoinsView → CCoinsViewCache →
    Coin × CCoinsView × CCoinsViewCache
  | 0, _, base, cache => (Coin.cleared, base, cache)
  | fuel + 1, n, base, cache =>
      let (alternate, base', cache') := AccessCoin base cache ⟨txid, UInt32.ofNat n⟩
      if !alternate.IsSpent then (alternate, base', cache')
      else accessByTxidFrom txid fuel (n + 1) base' cache'

/-- `AccessByTxid`: an unspent output of the transaction, or the empty coin. -/
def AccessByTxid (base : CCoinsView) (cache : CCoinsViewCache) (txid : uint256) :
    Coin × CCoinsView × CCoinsViewCache :=
  accessByTxidFrom txid MAX_OUTPUTS_PER_BLOCK 0 base cache

/--
`ApplyTxInUndo`: put a spent coin back.  An undo record without height
takes the height and coinbase flag of another output of its transaction.
-/
def ApplyTxInUndo (undo : Coin) (base : CCoinsView) (cache : CCoinsViewCache)
    (out : COutPoint) : Except Abort (DisconnectResult × CCoinsView × CCoinsViewCache) :=
  let (overwriting, base, cache) := HaveCoin base cache out
  let fClean := !overwriting
  let restored :=
    if undo.nHeight = 0 then
      let (alternate, base', cache') := AccessByTxid base cache out.hash
      if !alternate.IsSpent then
        (some { undo with nHeight := alternate.nHeight, fCoinBase := alternate.fCoinBase },
          base', cache')
      else (none, base', cache')
    else (some undo, base, cache)
  match restored with
  | (none, base, cache) => .ok (.DISCONNECT_FAILED, base, cache)
  | (some coin, base, cache) => do
      let cache ← cache.AddCoin out coin !fClean
      pure (if fClean then .DISCONNECT_OK else .DISCONNECT_UNCLEAN, base, cache)

/--
The output loop of `DisconnectBlock` for a transaction, from output `index`
on: spend every spendable output; `false` once one does not match.
-/
def spendOutputs (tx : CTransaction) (nHeight : Int) : Nat → List CTxOut → CCoinsView →
    CCoinsViewCache → Bool × CCoinsView × CCoinsViewCache
  | _, [], base, cache => (true, base, cache)
  | index, out :: rest, base, cache =>
      if isUnspendable out.scriptPubKey then spendOutputs tx nHeight (index + 1) rest base cache
      else
        let (spent, base', cache') := SpendCoin base cache ⟨tx.GetHash, UInt32.ofNat index⟩
        let matching :=
          match spent with
          | none => false
          | some coin =>
              out == coin.out && nHeight == coin.nHeight && tx.IsCoinBase == coin.fCoinBase
        let (clean, base'', cache'') := spendOutputs tx nHeight (index + 1) rest base' cache'
        (matching && clean, base'', cache'')

/--
The input loop of `DisconnectBlock` for a transaction: restore the coins of
the inputs from the last to the first, stopping at a failure.
-/
def restoreInputs : List (Coin × CTxIn) → CCoinsView → CCoinsViewCache →
    Except Abort (DisconnectResult × CCoinsView × CCoinsViewCache)
  | [], base, cache => .ok (.DISCONNECT_OK, base, cache)
  | (undo, input) :: rest, base, cache => do
      let (result, base, cache) ← ApplyTxInUndo undo base cache input.prevout
      if result = .DISCONNECT_FAILED then return (.DISCONNECT_FAILED, base, cache)
      let (rest', base, cache) ← restoreInputs rest base cache
      pure (if rest' = .DISCONNECT_FAILED then .DISCONNECT_FAILED
        else if result = .DISCONNECT_UNCLEAN ∨ rest' = .DISCONNECT_UNCLEAN then
          .DISCONNECT_UNCLEAN
        else .DISCONNECT_OK, base, cache)

/--
The transaction loop of `DisconnectBlock`, over the transactions from the
last to the first, each with its position and, but for the coinbase, its
undo data.
-/
def disconnectTransactions (nHeight : Int) :
    List (Nat × CTransaction × Option CTxUndo) → CCoinsView → CCoinsViewCache →
      Except Abort (DisconnectResult × CCoinsView × CCoinsViewCache)
  | [], base, cache => .ok (.DISCONNECT_OK, base, cache)
  | (_, tx, txundo) :: rest, base, cache => do
      let (outputsClean, base, cache) := spendOutputs tx nHeight 0 tx.vout base cache
      let (inputs, base, cache) ←
        match txundo with
        | none => pure (DisconnectResult.DISCONNECT_OK, base, cache)
        | some txundo =>
            if txundo.vprevout.length ≠ tx.vin.length then
              pure (DisconnectResult.DISCONNECT_FAILED, base, cache)
            else restoreInputs (txundo.vprevout.zip tx.vin).reverse base cache
      if inputs = .DISCONNECT_FAILED then return (.DISCONNECT_FAILED, base, cache)
      let (rest', base, cache) ← disconnectTransactions nHeight rest base cache
      pure (if rest' = .DISCONNECT_FAILED then .DISCONNECT_FAILED
        else if !outputsClean ∨ inputs = .DISCONNECT_UNCLEAN ∨ rest' = .DISCONNECT_UNCLEAN then
          .DISCONNECT_UNCLEAN
        else .DISCONNECT_OK, base, cache)

/-- The keva loop of `DisconnectBlock`: apply the keva undo records, the last first. -/
def undoKevaOperations (vkevaundo : List CKevaTxUndo) (base : CCoinsView)
    (cache : CCoinsViewCache) : Except Abort CCoinsViewCache :=
  vkevaundo.reverse.foldlM (fun cache undo => undo.apply base cache) cache

/--
`CChainState::DisconnectBlock`, given the undo data read from disk: the
result and the view with the block undone.
-/
def DisconnectBlock (block : CBlock) (pindex : CBlockIndex) (blockUndo : CBlockUndo)
    (base : CCoinsView) (cache : CCoinsViewCache) :
    Except Abort (DisconnectResult × CCoinsView × CCoinsViewCache) :=
  if blockUndo.vtxundo.length + 1 ≠ block.vtx.length then
    .ok (.DISCONNECT_FAILED, base, cache)
  else do
    let positioned := (List.range block.vtx.length).zip block.vtx
    let withUndo := positioned.map fun (i, tx) =>
      (i, tx, if i > 0 then blockUndo.vtxundo[i - 1]? else none)
    let (result, base, cache) ← disconnectTransactions pindex.nHeight withUndo.reverse base cache
    if result = .DISCONNECT_FAILED then return (.DISCONNECT_FAILED, base, cache)
    let cache ← undoKevaOperations blockUndo.vkevaundo base cache
    match pindex.pprev.GetBlockHash with
    | none => throw .assertFailure
    | some hashPrev => pure (result, base, cache.SetBestBlock hashPrev)

end Kevacoin

namespace Kevacoin

open CCoinsViewCache

/-! ## Spec lemmas -/

/-- A coinbase whose sigops fit goes straight to `UpdateCoins` and `ApplyKevaTransaction`. -/
theorem connectTransaction_of_coinBase {checks : ConnectChecks} {nHeight : Int}
    {state : ConnectState} {index : Nat} {tx : CTransaction} (coinBase : tx.IsCoinBase = true)
    (sigopsFit : state.nSigOpsCost +
      checks.GetTransactionSigOpCost tx (.cache state.base state.cache) ≤ MAX_BLOCK_SIGOPS_COST) :
    connectTransaction checks nHeight state index tx =
      applyTransaction nHeight
        { state with
          nSigOpsCost := state.nSigOpsCost +
            checks.GetTransactionSigOpCost tx (.cache state.base state.cache) }
        index tx := by
  simp only [connectTransaction, coinBase, Bool.not_true, Bool.false_eq_true, if_false,
    pure_bind]
  rw [if_neg (Nat.not_lt.mpr sigopsFit)]

/-- `ConnectBlock` of a block past its first checks: the transaction loop, then `finishConnect`. -/
theorem ConnectBlock_of_checked {hashes : HashPrimitives} {params : ConsensusParams}
    {checks : ConnectChecks} {block : CBlock} {hashBlock : uint256} {nHeight : Int}
    {nStatus : UInt32} {pprev pskip : CBlockIndex} {base : CCoinsView}
    {cache : CCoinsViewCache} (hashMatches : hashBlock = block.header.GetHash hashes)
    (heightMatches : block.header.nNonce.toInt32.toInt = nHeight)
    (blockChecked : checks.CheckBlock block = .ok ())
    (bestMatches : pprev.GetBlockHash.getD 0 = (GetBestBlock base cache).1)
    (notGenesis : block.header.GetHash hashes ≠ params.hashGenesisBlock)
    (hasParent : pprev.isNull = false) :
    ConnectBlock hashes params checks block (.entry hashBlock nHeight nStatus pprev pskip)
        base cache =
      (connectTransactions checks nHeight 0 block.vtx
          ⟨(GetBestBlock base cache).2.1, (GetBestBlock base cache).2.2, CBlockUndo.empty,
            0, 0⟩).bind
        (finishConnect params nHeight hashBlock block.vtx) := by
  rcases best : GetBestBlock base cache with ⟨bestBlock, base', cache'⟩
  rw [best] at bestMatches
  simp only [ConnectBlock, hashMatches, heightMatches, blockChecked, best, bestMatches,
    notGenesis, hasParent, ne_eq, not_true_eq_false, if_false, Bool.false_eq_true]
  rfl

/-- A transaction that `checkSpends` lets through passed `CheckTxInputs` first. -/
theorem checkSpends_CheckTxInputs {checks : ConnectChecks} {nHeight : Int}
    {state checked : ConnectState} {tx : CTransaction}
    (accepted : checkSpends checks nHeight state tx = .ok checked) :
    ∃ result, CheckTxInputs tx state.base state.cache nHeight = .ok result := by
  unfold checkSpends at accepted
  obtain ⟨result, inputsChecked, -⟩ := Except.bind_eq_ok.mp accepted
  exact ⟨result, inputsChecked⟩

/--
A transaction other than the coinbase that the loop body accepts passed
`CheckKevaTransaction` against the view that `HaveInputs` left.
-/
theorem connectTransaction_keva_checked {checks : ConnectChecks} {nHeight : Int}
    {state next : ConnectState} {index : Nat} {tx : CTransaction}
    (spend : tx.IsCoinBase = false)
    (accepted : connectTransaction checks nHeight state index tx = .ok next) :
    ∃ base' cache', HaveInputs state.base state.cache tx = (true, base', cache') ∧
      (CheckKevaTransaction tx base' cache').1 = .ok () := by
  unfold connectTransaction at accepted
  simp only [spend, Bool.not_false, if_true] at accepted
  obtain ⟨checked, spendsChecked, -⟩ := Except.bind_eq_ok.mp accepted
  obtain ⟨result, inputsChecked⟩ := checkSpends_CheckTxInputs spendsChecked
  exact CheckTxInputs_keva inputsChecked

theorem connectTransactions_cons_ok {checks : ConnectChecks} {nHeight : Int} {index : Nat}
    {tx : CTransaction} {rest : List CTransaction} {state final : ConnectState}
    (accepted : connectTransactions checks nHeight index (tx :: rest) state = .ok final) :
    ∃ next, connectTransaction checks nHeight state index tx = .ok next ∧
      connectTransactions checks nHeight (index + 1) rest next = .ok final := by
  unfold connectTransactions at accepted
  cases stepped : connectTransaction checks nHeight state index tx with
  | error failure =>
      rw [stepped] at accepted
      cases accepted
  | ok next =>
      rw [stepped] at accepted
      exact ⟨next, rfl, accepted⟩

/--
In a run of the transaction loop that succeeds, every transaction other
than a coinbase passed `CheckKevaTransaction` against the view that the
transactions before it left, once `HaveInputs` had fetched its inputs.
-/
theorem connectTransactions_keva_checked {checks : ConnectChecks} {nHeight : Int} :
    ∀ {index : Nat} {txs : List CTransaction} {state final : ConnectState},
      connectTransactions checks nHeight index txs state = .ok final →
      ∀ (position : Nat) (tx : CTransaction), txs[position]? = some tx → tx.IsCoinBase = false →
        ∃ reached, connectTransactions checks nHeight index (txs.take position) state =
            .ok reached ∧
          ∃ base' cache', HaveInputs reached.base reached.cache tx = (true, base', cache') ∧
            (CheckKevaTransaction tx base' cache').1 = .ok ()
  | _, [], _, _, _, _, _, found, _ => by
      cases found
  | index, first :: rest, state, final, accepted, position, tx, found, spend => by
      obtain ⟨next, stepped, later⟩ := connectTransactions_cons_ok accepted
      cases position with
      | zero =>
          cases found
          exact ⟨state, rfl, connectTransaction_keva_checked spend stepped⟩
      | succ position =>
          obtain ⟨reached, run, checked⟩ :=
            connectTransactions_keva_checked later position tx found spend
          refine ⟨reached, ?_, checked⟩
          rw [List.take_succ_cons, connectTransactions, stepped]
          exact run

/-- A block that `ConnectBlock` accepts, other than genesis, went through the transaction loop. -/
theorem ConnectBlock_ok_connectTransactions {hashes : HashPrimitives}
    {params : ConsensusParams} {checks : ConnectChecks} {block : CBlock}
    {pindex : CBlockIndex} {base : CCoinsView} {cache : CCoinsViewCache}
    {result : CBlockUndo × CCoinsView × CCoinsViewCache}
    (accepted : ConnectBlock hashes params checks block pindex base cache = .ok result)
    (notGenesis : block.header.GetHash hashes ≠ params.hashGenesisBlock) :
    ∃ final, connectTransactions checks pindex.nHeight 0 block.vtx
        ⟨(GetBestBlock base cache).2.1, (GetBestBlock base cache).2.2, CBlockUndo.empty,
          0, 0⟩ = .ok final := by
  cases pindex with
  | null =>
      cases accepted
  | entry hashBlock nHeight nStatus pprev pskip =>
      rcases best : GetBestBlock base cache with ⟨bestBlock, base', cache'⟩
      simp only [ConnectBlock, best, notGenesis, if_false] at accepted
      split at accepted
      · cases accepted
      split at accepted
      · cases accepted
      split at accepted
      · cases accepted
      split at accepted
      · cases accepted
      split at accepted
      · cases accepted
      obtain ⟨final, loop, -⟩ := Except.bind_eq_ok.mp accepted
      exact ⟨final, loop⟩

end Kevacoin
