import Kevacoin.Coins.View

/-!
# Updating coin views

The operations of `CCoinsViewCache` that change it or its base: coin
fetching, adding and spending (`coins.cpp`), `AddCoins` and `UpdateCoins`
(`validation.cpp`), name writes, `BatchWrite` into a cache or into the
database (`txdb.cpp`), and `Flush`.

A method of a cache takes the cache's base as its first argument and
returns the base again where the call can change it.  A thrown
`std::logic_error` or `std::runtime_error` and a failed `assert` end a call
with an `Abort`; the state the source leaves behind at that point is not
observed by any caller.
-/

namespace Kevacoin

open SortedAssoc

/-- How a call ends abnormally. -/
inductive Abort where
  | logicError (message : String)
  | runtimeError (message : String)
  | assertFailure
deriving DecidableEq, Repr

/-- `CTxUndo`: the coins that a transaction spent, in input order. -/
structure CTxUndo where
  vprevout : List Coin
deriving DecidableEq, Repr

namespace CCoinsViewCache

/-- `CCoinsViewCache::FetchCoin`: the cached entry, fetching it from the base on a miss. -/
def FetchCoin (base : CCoinsView) (cache : CCoinsViewCache)
    (outpoint : COutPoint) :
    Option CCoinsCacheEntry × CCoinsView × CCoinsViewCache :=
  match cache.cacheCoins.find? outpoint with
  | some entry => (some entry, base, cache)
  | none =>
      let (answer, base') := base.GetCoin outpoint
      let (entry, cache') := cache.fetchMiss outpoint answer
      (entry, base', cache')

/-- `CCoinsViewCache::GetCoin`: the fetched coin, if it is unspent. -/
def GetCoin (base : CCoinsView) (cache : CCoinsViewCache)
    (outpoint : COutPoint) : Option Coin × CCoinsView × CCoinsViewCache :=
  let (entry, base', cache') := FetchCoin base cache outpoint
  (entry.bind CCoinsCacheEntry.unspent?, base', cache')

/-- Reading a coin through a cache view is the cache's own `GetCoin`. -/
theorem GetCoin_cache (base : CCoinsView) (cache : CCoinsViewCache)
    (outpoint : COutPoint) :
    (CCoinsView.cache base cache).GetCoin outpoint =
      let fetched := GetCoin base cache outpoint
      (fetched.1, .cache fetched.2.1 fetched.2.2) := by
  rw [CCoinsView.GetCoin.eq_2]
  unfold GetCoin FetchCoin
  cases cache.cacheCoins.find? outpoint <;> rfl

/-- A cached entry is returned as it is, and nothing changes. -/
theorem FetchCoin_of_find {base : CCoinsView} {cache : CCoinsViewCache}
    {outpoint : COutPoint} {entry : CCoinsCacheEntry}
    (cached : cache.cacheCoins.find? outpoint = some entry) :
    FetchCoin base cache outpoint = (some entry, base, cache) := by
  simp [FetchCoin, cached]

/-- On a miss the base answers and the answer is copied into the cache. -/
theorem FetchCoin_of_miss {base : CCoinsView} {cache : CCoinsViewCache}
    {outpoint : COutPoint} (missing : cache.cacheCoins.find? outpoint = none) :
    FetchCoin base cache outpoint =
      ((cache.fetchMiss outpoint (base.GetCoin outpoint).1).1, (base.GetCoin outpoint).2,
        (cache.fetchMiss outpoint (base.GetCoin outpoint).1).2) := by
  simp only [FetchCoin, missing]

/-- `CCoinsViewCache::HaveCoin`. -/
def HaveCoin (base : CCoinsView) (cache : CCoinsViewCache)
    (outpoint : COutPoint) : Bool × CCoinsView × CCoinsViewCache :=
  let (entry, base', cache') := FetchCoin base cache outpoint
  (entry.any fun found => !found.coin.IsSpent, base', cache')

/-- `CCoinsViewCache::AccessCoin`: the fetched coin, or the empty coin. -/
def AccessCoin (base : CCoinsView) (cache : CCoinsViewCache)
    (outpoint : COutPoint) : Coin × CCoinsView × CCoinsViewCache :=
  let (entry, base', cache') := FetchCoin base cache outpoint
  (entry.elim Coin.cleared CCoinsCacheEntry.coin, base', cache')

/-- `CCoinsViewCache::HaveInputs`: every input of a non-coinbase transaction is unspent. -/
def HaveInputs (base : CCoinsView) (cache : CCoinsViewCache)
    (tx : CTransaction) : Bool × CCoinsView × CCoinsViewCache :=
  if tx.IsCoinBase then (true, base, cache)
  else
    tx.vin.foldl
      (fun (state : Bool × CCoinsView × CCoinsViewCache) input =>
        if state.1 then HaveCoin state.2.1 state.2.2 input.prevout else state)
      (true, base, cache)

/-- `CCoinsViewCache::GetBestBlock`: a cache without a best block takes and keeps its base's. -/
def GetBestBlock (base : CCoinsView) (cache : CCoinsViewCache) :
    uint256 × CCoinsView × CCoinsViewCache :=
  if cache.hashBlock = 0 then
    let (best, base') := base.GetBestBlock
    (best, base', { cache with hashBlock := best })
  else (cache.hashBlock, base, cache)

/-- Reading the best block through a cache view is the cache's own `GetBestBlock`. -/
theorem GetBestBlock_cache (base : CCoinsView) (cache : CCoinsViewCache) :
    (CCoinsView.cache base cache).GetBestBlock =
      ((GetBestBlock base cache).1,
        .cache (GetBestBlock base cache).2.1 (GetBestBlock base cache).2.2) := by
  rw [CCoinsView.GetBestBlock.eq_2]
  unfold GetBestBlock
  split <;> rfl

/-- `CCoinsViewCache::SetBestBlock`. -/
def SetBestBlock (cache : CCoinsViewCache) (hashBlock : uint256) :
    CCoinsViewCache :=
  { cache with hashBlock := hashBlock }

/--
`CCoinsViewCache::AddCoin`.  An unspendable output is not stored.  Without
`possible_overwrite` an unspent coin already present is an error, and a
new entry over a non-dirty one is `FRESH`.
-/
def AddCoin (cache : CCoinsViewCache) (outpoint : COutPoint) (coin : Coin)
    (possibleOverwrite : Bool) : Except Abort CCoinsViewCache :=
  if coin.IsSpent then .error .assertFailure
  else if isUnspendable coin.out.scriptPubKey then .ok cache
  else
    let (existing, usage) :=
      match cache.cacheCoins.find? outpoint with
      | some entry =>
          (entry, cache.cachedCoinsUsage - entry.coin.DynamicMemoryUsage)
      | none => (⟨Coin.cleared, false, false⟩, cache.cachedCoinsUsage)
    if !possibleOverwrite && !existing.coin.IsSpent then
      .error (.logicError "Adding new coin that replaces non-pruned entry")
    else
      let fresh := !possibleOverwrite && !existing.dirty
      .ok { cache with
        cacheCoins :=
          cache.cacheCoins.put outpoint ⟨coin, true, existing.fresh || fresh⟩
        cachedCoinsUsage := usage + coin.DynamicMemoryUsage }

/--
`CCoinsViewCache::SpendCoin`: the coin found (spent or not) is moved out;
a `FRESH` entry is erased, any other is cleared and marked `DIRTY`.
-/
def SpendCoin (base : CCoinsView) (cache : CCoinsViewCache)
    (outpoint : COutPoint) : Option Coin × CCoinsView × CCoinsViewCache :=
  let (entry, base', cache') := FetchCoin base cache outpoint
  match entry with
  | none => (none, base', cache')
  | some found =>
      let coins :=
        if found.fresh then cache'.cacheCoins.erase outpoint
        else cache'.cacheCoins.assign outpoint ⟨Coin.cleared, true, found.fresh⟩
      (some found.coin, base',
        { cache' with
          cacheCoins := coins
          cachedCoinsUsage :=
            cache'.cachedCoinsUsage - found.coin.DynamicMemoryUsage })

/-- `CCoinsViewCache::Uncache`: drop an entry whose flags are both clear. -/
def Uncache (cache : CCoinsViewCache) (hash : COutPoint) : CCoinsViewCache :=
  match cache.cacheCoins.find? hash with
  | some entry =>
      if !entry.dirty && !entry.fresh then
        { cache with
          cacheCoins := cache.cacheCoins.erase hash
          cachedCoinsUsage := cache.cachedCoinsUsage - entry.coin.DynamicMemoryUsage }
      else cache
  | none => cache

/--
`AddCoins` over the outputs from index `index` on: with `check` the
overwrite flag is `HaveCoin`, without it the coinbase flag.
-/
def addCoinsFrom (tx : CTransaction) (nHeight : Nat) (check : Bool) :
    Nat → List CTxOut → CCoinsView → CCoinsViewCache →
      Except Abort (CCoinsView × CCoinsViewCache)
  | _, [], base, cache => .ok (base, cache)
  | index, out :: rest, base, cache =>
      let outpoint : COutPoint := ⟨tx.GetHash, UInt32.ofNat index⟩
      let (overwrite, base', cache') :=
        if check then HaveCoin base cache outpoint
        else (tx.IsCoinBase, base, cache)
      match cache'.AddCoin outpoint ⟨out, tx.IsCoinBase, nHeight⟩ overwrite with
      | .error abort => .error abort
      | .ok cache'' => addCoinsFrom tx nHeight check (index + 1) rest base' cache''

/-- `AddCoins(cache, tx, nHeight, check)`. -/
def AddCoins (base : CCoinsView) (cache : CCoinsViewCache)
    (tx : CTransaction) (nHeight : Nat) (check : Bool) :
    Except Abort (CCoinsView × CCoinsViewCache) :=
  addCoinsFrom tx nHeight check 0 tx.vout base cache

/-- The input loop of `UpdateCoins`: spend every input, asserting that each is found. -/
def spendInputs : List CTxIn → CCoinsView → CCoinsViewCache → List Coin →
    Except Abort (List Coin × CCoinsView × CCoinsViewCache)
  | [], base, cache, spent => .ok (spent, base, cache)
  | input :: rest, base, cache, spent =>
      match SpendCoin base cache input.prevout with
      | (none, _, _) => .error .assertFailure
      | (some coin, base', cache') => spendInputs rest base' cache' (spent ++ [coin])

/-- `UpdateCoins(tx, inputs, txundo, nHeight)`: spend the inputs, then add the outputs. -/
def UpdateCoins (base : CCoinsView) (cache : CCoinsViewCache)
    (tx : CTransaction) (nHeight : Nat) :
    Except Abort (CTxUndo × CCoinsView × CCoinsViewCache) := do
  let (spent, base', cache') ←
    if tx.IsCoinBase then pure ([], base, cache)
    else spendInputs tx.vin base cache []
  let (base'', cache'') ← AddCoins base' cache' tx nHeight false
  pure (⟨spent⟩, base'', cache'')

/-! ## Name writes -/

/--
`CCoinsViewCache::SetName`.  Besides writing the name, it moves the update
outpoint of the namespace's display-name entry, when `GetNamespace` finds
one, to the outpoint of the new data.  The `undo` flag is not read.
-/
def SetName (base : CCoinsView) (cache : CCoinsViewCache)
    (nameSpace key : valtype) (data : CKevaData) (_undo : Bool) :
    CCoinsViewCache :=
  let names :=
    match (CCoinsView.cache base cache).GetNamespace nameSpace with
    | some namespaceData =>
        cache.cacheNames.setNamespace nameSpace
          (namespaceData.setUpdateOutpoint data.prevout)
    | none => cache.cacheNames
  { cache with cacheNames := names.set nameSpace key data }

/-- `CCoinsViewCache::DeleteName`: asserts that the name is present. -/
def DeleteName (base : CCoinsView) (cache : CCoinsViewCache)
    (nameSpace key : valtype) : Except Abort CCoinsViewCache :=
  match (CCoinsView.cache base cache).GetName nameSpace key with
  | none => .error .assertFailure
  | some _ =>
      .ok { cache with cacheNames := cache.cacheNames.remove nameSpace key }

/-! ## Writing a child cache into its parent -/

/-- One iteration of the coin loop of `CCoinsViewCache::BatchWrite`. -/
def batchWriteCoin (cache : CCoinsViewCache) (outpoint : COutPoint)
    (child : CCoinsCacheEntry) : Except Abort CCoinsViewCache :=
  if !child.dirty then .ok cache
  else
    match cache.cacheCoins.find? outpoint with
    | none =>
        if child.fresh && child.coin.IsSpent then .ok cache
        else
          .ok { cache with
            cacheCoins :=
              cache.cacheCoins.insert outpoint ⟨child.coin, true, child.fresh⟩
            cachedCoinsUsage :=
              cache.cachedCoinsUsage + child.coin.DynamicMemoryUsage }
    | some ours =>
        if child.fresh && !ours.coin.IsSpent then
          .error (.logicError
            "FRESH flag misapplied to cache entry for base transaction with spendable outputs")
        else if ours.fresh && child.coin.IsSpent then
          .ok { cache with
            cacheCoins := cache.cacheCoins.erase outpoint
            cachedCoinsUsage :=
              cache.cachedCoinsUsage - ours.coin.DynamicMemoryUsage }
        else
          .ok { cache with
            cacheCoins :=
              cache.cacheCoins.assign outpoint ⟨child.coin, true, ours.fresh⟩
            cachedCoinsUsage :=
              cache.cachedCoinsUsage - ours.coin.DynamicMemoryUsage +
                child.coin.DynamicMemoryUsage }

/-- `CCoinsViewCache::BatchWrite`: the coins of the child, then its name changes. -/
def BatchWrite (cache : CCoinsViewCache) (mapCoins : CCoinsMap)
    (hashBlockIn : uint256) (names : CKevaCache) :
    Except Abort CCoinsViewCache := do
  let cache' ← mapCoins.toList.foldlM
    (fun current entry => batchWriteCoin current entry.1 entry.2) cache
  pure { cache' with
    hashBlock := hashBlockIn
    cacheNames := cache'.cacheNames.apply names }

end CCoinsViewCache

/-- `CKevaCache::writeBatch`, applied to the name records: writes first, then erasures. -/
def CKevaCache.writeBatch (cache : CKevaCache)
    (names : SortedMap NamespaceKeyType CKevaData nameRecordLt) :
    SortedMap NamespaceKeyType CKevaData nameRecordLt :=
  let written :=
    cache.entries.toList.foldl
      (fun current entry => current.put entry.1 entry.2) names
  cache.deleted.toList.foldl (fun current name => current.erase name) written

/--
`CCoinsViewDB::BatchWrite`, with the batch applied.  It asserts a best
block, and, in the middle of an interrupted write, that the new best block
is the one being written to.  Dirty coins are written or, when spent,
erased; the head-block marker is cleared at the end.
-/
def CCoinsViewDB.BatchWrite (db : CCoinsViewDB) (mapCoins : CCoinsMap)
    (hashBlock : uint256) (names : CKevaCache) : Except Abort CCoinsViewDB :=
  if hashBlock = 0 then .error .assertFailure
  else if db.bestBlock = 0 ∧ db.headBlocks.length = 2 ∧
      db.headBlocks.head? ≠ some hashBlock then .error .assertFailure
  else
    let coins :=
      mapCoins.toList.foldl
        (fun current entry =>
          if !entry.2.dirty then current
          else if entry.2.coin.IsSpent then current.erase entry.1
          else current.put entry.1 entry.2.coin)
        db.coins
    .ok ⟨coins, names.writeBatch db.names, hashBlock, []⟩

/-- `BatchWrite` on a view. -/
def CCoinsView.BatchWrite : CCoinsView → CCoinsMap → uint256 → CKevaCache →
    Except Abort CCoinsView
  | .db view, mapCoins, hashBlock, names =>
      CCoinsView.db <$> view.BatchWrite mapCoins hashBlock names
  | .cache base view, mapCoins, hashBlock, names =>
      CCoinsView.cache base <$> view.BatchWrite mapCoins hashBlock names

/--
`CCoinsViewCache::Flush`: a no-op for a cache with nothing to write,
otherwise `BatchWrite` into the base and empty the cache.  The best block
is kept.
-/
def CCoinsViewCache.Flush (base : CCoinsView) (cache : CCoinsViewCache) :
    Except Abort (Bool × CCoinsView × CCoinsViewCache) :=
  if cache.hashBlock = 0 ∧ cache.cacheCoins.toList = [] ∧
      cache.cacheNames.empty = true then .ok (true, base, cache)
  else do
    let base' ← base.BatchWrite cache.cacheCoins cache.hashBlock cache.cacheNames
    pure (true, base',
      { cache with
        cacheCoins := .empty
        cachedCoinsUsage := 0
        cacheNames := .initial })

end Kevacoin
