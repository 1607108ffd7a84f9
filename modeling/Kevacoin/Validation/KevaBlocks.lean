import Kevacoin.Validation.ConnectBlock
import Kevacoin.Keva.MemPool

/-!
# What connected blocks do to names

The keva writes of a block are made by `ApplyKevaTransaction` for every
transaction `ConnectBlock` connects, and checked by `CheckKevaTransaction`
only through `CheckTxInputs`, which the coinbase skips.  A Kevacoin-version
coinbase is therefore applied without any keva check: a miner can write
any key of any namespace (`coinbase_put_connects_unchecked`).
-/

namespace Kevacoin

open CCoinsViewCache

/-! ## A coinbase that writes a name -/

/-- The genesis entry of the main network. -/
def mainGenesisIndex : CBlockIndex :=
  .entry mainParams.hashGenesisBlock 0 0 .null .null

/-- The database at the genesis block: no coins, no names. -/
def genesisView : CCoinsView :=
  .db ⟨.empty, .empty, mainParams.hashGenesisBlock, []⟩

/-- A Kevacoin coinbase whose only output writes key `[1]` of namespace `[53, 1]`. -/
def putCoinbase : CTransaction where
  vin := [⟨COutPoint.null, [0x51, 0x51], 0xffffffff, ⟨[]⟩⟩]
  vout := [⟨KEVA_LOCKED_AMOUNT, CKevaScript.buildKevaPut [OP_1] [53, 1] [1] [1]⟩]
  nVersion := KEVACOIN_VERSION
  nLockTime := 0
  hash := 7

/-- Block 1 of the main network with `putCoinbase` as its only transaction. -/
def putCoinbaseBlock : CBlock where
  header :=
    { nVersion := 0x20000000
      hashPrevBlock := mainParams.hashGenesisBlock
      hashMerkleRoot := 7
      nTime := 0
      nBits := 0x1f0fffff
      nNonce := 1
      cnHeader := ⟨10, 0, 0, 0, 0, 0, 1⟩ }
  vtx := [putCoinbase]

/-- The entry of block 1 over the genesis entry. -/
def blockOneIndex : CBlockIndex :=
  mainGenesisIndex.extend 1 0

/--
`ConnectBlock` accepts block 1 with `putCoinbase` and writes its key,
although `CheckKevaTransaction` rejects the coinbase: it spends no keva
coin, indeed no coin at all.
-/
theorem coinbase_put_connects_unchecked (checks : ConnectChecks)
    (blockChecked : checks.CheckBlock putCoinbaseBlock = .ok ())
    (sigopsFit : ∀ view, checks.GetTransactionSigOpCost putCoinbase view ≤ MAX_BLOCK_SIGOPS_COST) :
    (CheckKevaTransaction putCoinbase genesisView .initial).1 =
        .error "CheckKevaTransaction: failed to fetch input coin for %s" ∧
      ∃ undo base cache,
        ConnectBlock constantHashes mainParams checks putCoinbaseBlock blockOneIndex genesisView
            .initial = .ok (undo, base, cache) ∧
          (CCoinsView.cache base cache).GetName [53, 1] [1] =
            some ⟨[1], 1, ⟨putCoinbase.hash, 0⟩, [OP_1]⟩ := by
  refine ⟨rfl, ?_⟩
  have hashMatches : (1 : uint256) = putCoinbaseBlock.header.GetHash constantHashes := by
    decide
  have heightMatches :
      putCoinbaseBlock.header.nNonce.toInt32.toInt = mainGenesisIndex.nHeight + 1 := by
    decide
  have transactions : putCoinbaseBlock.vtx = [putCoinbase] := rfl
  rw [blockOneIndex, CBlockIndex.extend,
    ConnectBlock_of_checked hashMatches heightMatches blockChecked rfl (by decide) rfl,
    transactions, connectTransactions, connectTransaction_of_coinBase rfl]
  · exact ⟨_, _, _, rfl, rfl⟩
  · exact Nat.le_trans (Nat.le_of_eq (Nat.zero_add _)) (sigopsFit _)

/-- Checks that accept every block and transaction and count no sigops. -/
def acceptingChecks : ConnectChecks where
  CheckBlock _ := .ok ()
  SequenceLocks _ _ := true
  GetTransactionSigOpCost _ _ := 0
  CheckInputs _ _ := .ok ()

theorem coinbase_put_connects_with_accepting_checks :
    ∃ undo base cache,
      ConnectBlock constantHashes mainParams acceptingChecks putCoinbaseBlock blockOneIndex
          genesisView .initial = .ok (undo, base, cache) ∧
        (CCoinsView.cache base cache).GetName [53, 1] [1] =
          some ⟨[1], 1, ⟨putCoinbase.hash, 0⟩, [OP_1]⟩ :=
  (coinbase_put_connects_unchecked acceptingChecks rfl fun _ => Nat.zero_le _).2

/-! ## A namespace registered twice -/

/-- The database at block 1: two plain coins, at `⟨21, 0⟩` and `⟨22, 0⟩`, and no names. -/
def twoCoinsView : CCoinsView :=
  .db ⟨(SortedAssoc.SortedMap.empty.put ⟨21, 0⟩ ⟨⟨2 * COIN, [OP_1]⟩, false, 1⟩).put ⟨22, 0⟩
      ⟨⟨2 * COIN, [OP_1]⟩, false, 1⟩, .empty, 5, []⟩

/-- A registration of namespace `[53, 2]` that spends the coin at `⟨spent, 0⟩`. -/
def registration (spent hash : uint256) : CTransaction where
  vin := [⟨⟨spent, 0⟩, [], 0xffffffff, ⟨[]⟩⟩]
  vout := [⟨KEVA_LOCKED_AMOUNT, CKevaScript.buildKevaNamespace [OP_1] [53, 2] [1]⟩]
  nVersion := KEVACOIN_VERSION
  nLockTime := 0
  hash := hash

/-- A coinbase without keva outputs. -/
def plainCoinbase : CTransaction where
  vin := [⟨COutPoint.null, [0x52, 0x52], 0xffffffff, ⟨[]⟩⟩]
  vout := [⟨COIN, [OP_1]⟩]
  nVersion := 1
  nLockTime := 0
  hash := 10

/-- Block 2 with two registrations of the same namespace. -/
def doubleRegistrationBlock : CBlock where
  header :=
    { nVersion := 0x20000000
      hashPrevBlock := 5
      hashMerkleRoot := 7
      nTime := 0
      nBits := 0x1f0fffff
      nNonce := 2
      cnHeader := ⟨10, 0, 0, 0, 0, 0, 3⟩ }
  vtx := [plainCoinbase, registration 21 11, registration 22 12]

/-- The entry of block 2, over an entry of block 1 with hash 5. -/
def blockTwoIndex : CBlockIndex :=
  (CBlockIndex.entry 5 1 0 mainGenesisIndex mainGenesisIndex).extend 1 0

/-- The keva operation of the coin a view holds at an outpoint. -/
def coinKevaOp (view : CCoinsView) (outpoint : COutPoint) : Option (Option KevaOp) :=
  (view.GetCoin outpoint).1.map fun coin => (CKevaScript.parse coin.out.scriptPubKey).op

/--
`ConnectBlock` accepts a block with two registrations of one namespace:
the second registers a namespace the first has just registered, and
afterwards two unspent coins carry a keva script on it.
-/
theorem namespace_registered_twice (checks : ConnectChecks)
    (blockChecked : checks.CheckBlock doubleRegistrationBlock = .ok ())
    (sequenceFinal : ∀ tx heights, checks.SequenceLocks tx heights = true)
    (scriptsValid : ∀ tx view, checks.CheckInputs tx view = .ok ())
    (noSigops : ∀ tx view, checks.GetTransactionSigOpCost tx view = 0) :
    ∃ undo base cache,
      ConnectBlock constantHashes mainParams checks doubleRegistrationBlock blockTwoIndex
          twoCoinsView .initial = .ok (undo, base, cache) ∧
        coinKevaOp (.cache base cache) ⟨11, 0⟩ = some (some (.kevaNamespace [53, 2] [1])) ∧
        coinKevaOp (.cache base cache) ⟨12, 0⟩ = some (some (.kevaNamespace [53, 2] [1])) := by
  have hashMatches :
      (1 : uint256) = doubleRegistrationBlock.header.GetHash constantHashes := by
    decide
  have heightMatches : doubleRegistrationBlock.header.nNonce.toInt32.toInt =
      (CBlockIndex.entry 5 1 0 mainGenesisIndex mainGenesisIndex).nHeight + 1 := by
    decide
  have transactions : doubleRegistrationBlock.vtx =
      [plainCoinbase, registration 21 11, registration 22 12] := rfl
  rw [blockTwoIndex, CBlockIndex.extend,
    ConnectBlock_of_checked hashMatches heightMatches blockChecked rfl (by decide) rfl,
    transactions]
  simp only [connectTransactions, connectTransaction, checkSpends, sequenceFinal, scriptsValid,
    noSigops]
  exact ⟨_, _, _, rfl, rfl, rfl⟩

theorem namespace_registered_twice_with_accepting_checks :
    ∃ undo base cache,
      ConnectBlock constantHashes mainParams acceptingChecks doubleRegistrationBlock
          blockTwoIndex twoCoinsView .initial = .ok (undo, base, cache) ∧
        coinKevaOp (.cache base cache) ⟨11, 0⟩ = some (some (.kevaNamespace [53, 2] [1])) ∧
        coinKevaOp (.cache base cache) ⟨12, 0⟩ = some (some (.kevaNamespace [53, 2] [1])) :=
  namespace_registered_twice acceptingChecks rfl (fun _ _ => rfl) (fun _ _ => rfl)
    (fun _ _ => rfl)

/-! ## Keva writes of the other transactions -/

/--
Every transaction other than the coinbase of a block that `ConnectBlock`
accepts passed `CheckKevaTransaction` against the view that the
transactions before it left, once `HaveInputs` had fetched its inputs.
-/
theorem ConnectBlock_spends_keva_checked {hashes : HashPrimitives}
    {params : ConsensusParams} {checks : ConnectChecks} {block : CBlock}
    {pindex : CBlockIndex} {base : CCoinsView} {cache : CCoinsViewCache}
    {result : CBlockUndo × CCoinsView × CCoinsViewCache}
    (accepted : ConnectBlock hashes params checks block pindex base cache = .ok result)
    (notGenesis : block.header.GetHash hashes ≠ params.hashGenesisBlock)
    (position : Nat) (tx : CTransaction) (found : block.vtx[position]? = some tx)
    (spend : tx.IsCoinBase = false) :
    ∃ reached, connectTransactions checks pindex.nHeight 0 (block.vtx.take position)
        ⟨(GetBestBlock base cache).2.1, (GetBestBlock base cache).2.2, CBlockUndo.empty,
          0, 0⟩ = .ok reached ∧
      ∃ base' cache', HaveInputs reached.base reached.cache tx = (true, base', cache') ∧
        (CheckKevaTransaction tx base' cache').1 = .ok () := by
  obtain ⟨final, loop⟩ := ConnectBlock_ok_connectTransactions accepted notGenesis
  exact connectTransactions_keva_checked loop position tx found spend

theorem registration_in_block_keva_checked :
    (∃ result, ConnectBlock constantHashes mainParams acceptingChecks doubleRegistrationBlock
        blockTwoIndex twoCoinsView .initial = .ok result) ∧
      doubleRegistrationBlock.header.GetHash constantHashes ≠ mainParams.hashGenesisBlock ∧
      doubleRegistrationBlock.vtx[1]? = some (registration 21 11) ∧
      (registration 21 11).IsCoinBase = false ∧
      ∃ reached, connectTransactions acceptingChecks blockTwoIndex.nHeight 0
          (doubleRegistrationBlock.vtx.take 1)
          ⟨(GetBestBlock twoCoinsView .initial).2.1, (GetBestBlock twoCoinsView .initial).2.2,
            CBlockUndo.empty, 0, 0⟩ = .ok reached ∧
        ∃ base' cache', HaveInputs reached.base reached.cache (registration 21 11) =
            (true, base', cache') ∧
          (CheckKevaTransaction (registration 21 11) base' cache').1 = .ok () := by
  obtain ⟨result, accepted⟩ : ∃ result, ConnectBlock constantHashes mainParams acceptingChecks
      doubleRegistrationBlock blockTwoIndex twoCoinsView .initial = .ok result := ⟨_, rfl⟩
  exact ⟨⟨result, accepted⟩, by decide, rfl, rfl,
    ConnectBlock_spends_keva_checked accepted (by decide) 1 _ rfl rfl⟩

/-! ## Registrations the mempool refuses -/

/--
`CheckKevaTransaction` accepts the registration of namespace `[53, 2]`,
which `checkTx` refuses whatever `Hash160` is: a namespace derived from a
transaction id has 21 bytes.
-/
theorem consensus_accepts_underived_namespace (Hash160 : valtype → uint160) :
    (CheckKevaTransaction (registration 21 11) twoCoinsView .initial).1 = .ok () ∧
      CKevaMemPool.checkTx Hash160 (registration 21 11) = false := by
  refine ⟨rfl, ?_⟩
  have reduced : CKevaMemPool.checkTx Hash160 (registration 21 11) =
      (CKevaMemPool.validateNamespace Hash160 (registration 21 11) [53, 2] && true) := rfl
  cases valid : CKevaMemPool.validateNamespace Hash160 (registration 21 11) [53, 2] with
  | true =>
      exact absurd (CKevaMemPool.validateNamespace_length valid) (by decide)
  | false =>
      rw [reduced, valid]
      rfl

end Kevacoin
