import Kevacoin.Keva.Main
import Kevacoin.Chain.PoW

/-!
# Transaction checks against the coins

`Consensus::CheckTxInputs` in `consensus/tx_verify.cpp`,
`CTransaction::GetValueOut` in `primitives/transaction.cpp` and
`GetBlockSubsidy` in `validation.cpp`.

`CheckTxInputs` is where block and mempool validation run the consensus
keva check: after `HaveInputs` it calls `CheckKevaTransaction`, and only
then checks coinbase maturity and the input and output values.  A failure
is either a rejection, whose text is the reject reason the source sets (or
the message it logs where it sets none), or an abort.

The fact the block rules build on: a transaction that `CheckTxInputs`
accepts was accepted by `CheckKevaTransaction` against the view after its
inputs were fetched (`CheckTxInputs_keva`).
-/

namespace Kevacoin

open CCoinsViewCache

/-- How a validation call fails. -/
inductive ValidationFailure where
  /-- `state.Invalid` or `state.DoS` with this reject reason, or `error` with this message. -/
  | invalid (reason : String)
  /-- A failed `assert` or an uncaught exception. -/
  | abort (abort : Abort)
deriving DecidableEq, Repr

/-- `COINBASE_MATURITY`. -/
def COINBASE_MATURITY : Int := 100

/-- `MAX_BLOCK_SIGOPS_COST`. -/
def MAX_BLOCK_SIGOPS_COST : Nat := 80000

namespace CTransaction

/--
`CTransaction::GetValueOut(fExcludeKeva)`: the sum of the output values,
leaving out keva outputs when asked; a value out of range throws.
-/
def GetValueOut (tx : CTransaction) (fExcludeKeva : Bool) : Except Abort CAmount :=
  tx.vout.foldlM
    (fun nValueOut out =>
      let nValueOut :=
        if !fExcludeKeva || !CKevaScript.isKevaScript out.scriptPubKey then
          nValueOut + out.nValue
        else nValueOut
      if !MoneyRange out.nValue || !MoneyRange nValueOut then
        .error (.runtimeError "GetValueOut: value out of range")
      else .ok nValueOut)
    0

end CTransaction

/-! ## `CheckTxInputs` -/

/-- The input loop of `CheckTxInputs`: maturity and value range of each coin spent. -/
def inputValueIn (nSpendHeight : Int) : List CTxIn → CCoinsView → CCoinsViewCache →
    CAmount → Except ValidationFailure (CAmount × CCoinsView × CCoinsViewCache)
  | [], base, cache, nValueIn => .ok (nValueIn, base, cache)
  | input :: rest, base, cache, nValueIn =>
      let (coin, base', cache') := AccessCoin base cache input.prevout
      if coin.IsSpent then .error (.abort .assertFailure)
      else if coin.fCoinBase && nSpendHeight - coin.nHeight < COINBASE_MATURITY then
        .error (.invalid "bad-txns-premature-spend-of-coinbase")
      else
        let nValueIn := nValueIn + coin.out.nValue
        if !MoneyRange coin.out.nValue || !MoneyRange nValueIn then
          .error (.invalid "bad-txns-inputvalues-outofrange")
        else inputValueIn nSpendHeight rest base' cache' nValueIn

/--
`Consensus::CheckTxInputs`: the fee of the transaction.  The reject reason
of a keva failure is empty; the text kept is the message set with it.
-/
def CheckTxInputs (tx : CTransaction) (base : CCoinsView) (cache : CCoinsViewCache)
    (nSpendHeight : Int) : Except ValidationFailure (CAmount × CCoinsView × CCoinsViewCache) :=
  match HaveInputs base cache tx with
  | (false, _, _) => .error (.invalid "bad-txns-inputs-missingorspent")
  | (true, base, cache) =>
      match CheckKevaTransaction tx base cache with
      | (.error _, _, _) => .error (.invalid "Tx invalid for Kevacoin")
      | (.ok (), base, cache) => do
          let (nValueIn, base, cache) ← inputValueIn nSpendHeight tx.vin base cache 0
          let value_out ← (tx.GetValueOut false).mapError .abort
          if nValueIn < value_out then throw (.invalid "bad-txns-in-belowout")
          let txfee := nValueIn - value_out
          if !MoneyRange txfee then throw (.invalid "bad-txns-fee-outofrange")
          pure (txfee, base, cache)

/--
A transaction that `CheckTxInputs` accepts has its inputs and was accepted
by `CheckKevaTransaction` against the view `HaveInputs` left.
-/
theorem CheckTxInputs_keva {tx : CTransaction} {base : CCoinsView} {cache : CCoinsViewCache}
    {nSpendHeight : Int} {result : CAmount × CCoinsView × CCoinsViewCache}
    (accepted : CheckTxInputs tx base cache nSpendHeight = .ok result) :
    ∃ base' cache', HaveInputs base cache tx = (true, base', cache') ∧
      (CheckKevaTransaction tx base' cache').1 = .ok () := by
  unfold CheckTxInputs at accepted
  rcases haveInputs : HaveInputs base cache tx with ⟨found, base', cache'⟩
  rw [haveInputs] at accepted
  cases found with
  | false =>
      cases accepted
  | true =>
      refine ⟨base', cache', rfl, ?_⟩
      dsimp only at accepted
      rcases checked : CheckKevaTransaction tx base' cache' with ⟨verdict, base'', cache''⟩
      rw [checked] at accepted
      cases verdict with
      | error message =>
          cases accepted
      | ok _ =>
          rfl

/-! ## The block subsidy -/

/-- `GetBlockSubsidy`: 500 coins, halved every `nSubsidyHalvingInterval` blocks. -/
def GetBlockSubsidy (nHeight : Int) (params : ConsensusParams) : CAmount :=
  let halvings := nHeight.tdiv params.nSubsidyHalvingInterval
  if halvings ≥ 64 then 0
  else (500 * COIN) >>> halvings.toNat

end Kevacoin
