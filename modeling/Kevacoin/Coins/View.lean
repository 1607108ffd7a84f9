import Kevacoin.Keva.Common

/-!
# Coin views

`coins.h`, `coins.cpp` and the database view of `txdb.cpp`.  A view is
the database at the bottom with caches stacked on it; each
`CCoinsViewCache` holds its own `hashBlock`, its map of cached coins with
their `DIRTY`/`FRESH` flags, the memory usage it accounts for them, and its
`CKevaCache` of name changes.

Reads through a cache may change it: `FetchCoin` copies a coin from the
base into `cacheCoins` (the members are `mutable` in the source), and so
does `GetCoin` on every cache below.  The model therefore returns the view
from every coin read.  Name reads (`GetName`, `GetNamespace`) cache nothing
and are plain functions of the view.

The database is a set of key/value records in disjoint key ranges: coins
under `'C'`, names under `'n'`, the best block under `'B'`, the head blocks
under `'H'`.  The model keeps one component per range; the names are
ordered by the bytes of their database key, as LevelDB orders them.
-/

namespace Kevacoin

open SortedAssoc

/-! ## Coins -/

/-- `Coin`: an output with its height and coinbase flag. -/
structure Coin where
  out : CTxOut
  fCoinBase : Bool
  nHeight : Nat
deriving DecidableEq, Repr

namespace Coin

/-- A default-constructed or cleared coin: the null output. -/
def cleared : Coin := ⟨CTxOut.null, false, 0⟩

/-- `Coin::IsSpent`. -/
def IsSpent (coin : Coin) : Bool :=
  coin.out.IsNull

/-- `MallocUsage` on a 64-bit platform. -/
def mallocUsage (alloc : Nat) : Nat :=
  if alloc = 0 then 0 else ((alloc + 31) / 16) * 16

/--
`Coin::DynamicMemoryUsage`: the heap memory of the script, which a
`prevector<28, unsigned char>` keeps inline up to 28 bytes.  A script
copied into a coin has capacity equal to its size.
-/
def DynamicMemoryUsage (coin : Coin) : Nat :=
  if coin.out.scriptPubKey.length ≤ 28 then 0
  else mallocUsage coin.out.scriptPubKey.length

end Coin

/-- `CCoinsCacheEntry`: a coin with the `DIRTY` and `FRESH` flags. -/
structure CCoinsCacheEntry where
  coin : Coin
  dirty : Bool
  fresh : Bool
deriving DecidableEq, Repr

/-- The coin of an entry if it is unspent, as `GetCoin` reports it. -/
def CCoinsCacheEntry.unspent? (entry : CCoinsCacheEntry) : Option Coin :=
  if entry.coin.IsSpent then none else some entry.coin

/-- An `unordered_map` keeps no order: new keys go to the end. -/
def unordered {α : Type} (_ _ : α) : Bool := false

/-- `CCoinsMap`. -/
abbrev CCoinsMap := SortedMap COutPoint CCoinsCacheEntry unordered

/-! ## The database -/

/-- `WriteCompactSize`. -/
def writeCompactSize (n : Nat) : List UInt8 :=
  if n < 253 then [UInt8.ofNat n]
  else if n ≤ 0xffff then 253 :: writeLE16 n
  else if n ≤ 0xffffffff then 254 :: writeLE32 n
  else 255 :: (List.range 8).map fun index => UInt8.ofNat (n / 256 ^ index)

/-- `DB_NAME`, the first byte of every name record. -/
def DB_NAME : UInt8 := 0x6e

/-- The database key of a name: `std::make_pair(DB_NAME, std::make_pair(nameSpace, key))`. -/
def nameRecordKey (name : NamespaceKeyType) : List UInt8 :=
  DB_NAME :: (writeCompactSize name.1.length ++ name.1 ++
    writeCompactSize name.2.length ++ name.2)

/-- The order of name records: LevelDB's bytewise order of their keys. -/
def nameRecordLt (a b : NamespaceKeyType) : Bool :=
  valtypeLt (nameRecordKey a) (nameRecordKey b)

/-- `CCoinsViewDB`, by the record ranges it uses. -/
structure CCoinsViewDB where
  coins : SortedMap COutPoint Coin unordered
  names : SortedMap NamespaceKeyType CKevaData nameRecordLt
  bestBlock : uint256
  headBlocks : List uint256

namespace CCoinsViewDB

/-- `CCoinsViewDB::GetCoin`. -/
def GetCoin (db : CCoinsViewDB) (outpoint : COutPoint) : Option Coin :=
  db.coins.find? outpoint

/-- `CCoinsViewDB::GetName`. -/
def GetName (db : CCoinsViewDB) (nameSpace key : valtype) : Option CKevaData :=
  db.names.find? (nameSpace, key)

/--
`CCoinsViewDB::GetNamespace`: the record of `KEVA_DISPLAY_NAME_KEY`, read
under the same database key as `GetName` (a `std::string` serializes as a
byte vector does).
-/
def GetNamespace (db : CCoinsViewDB) (nameSpace : valtype) :
    Option CKevaData :=
  db.names.find? (nameSpace, CKevaScript.KEVA_DISPLAY_NAME_KEY)

end CCoinsViewDB

/-! ## Views -/

/-- `CCoinsViewCache`: its own state, without the pointer to its base. -/
structure CCoinsViewCache where
  hashBlock : uint256
  cacheCoins : CCoinsMap
  cachedCoinsUsage : Nat
  cacheNames : CKevaCache

/-- A cache just constructed over its base. -/
def CCoinsViewCache.initial : CCoinsViewCache :=
  ⟨0, .empty, 0, .initial⟩

/-- A view: the database, or a cache over a view. -/
inductive CCoinsView where
  | db (view : CCoinsViewDB)
  | cache (base : CCoinsView) (view : CCoinsViewCache)

namespace CCoinsViewCache

/--
The second half of `FetchCoin`, once the base has answered: a coin from
the base is copied into the cache, flagged `FRESH` if it is spent.
-/
def fetchMiss (cache : CCoinsViewCache) (outpoint : COutPoint)
    (answer : Option Coin) : Option CCoinsCacheEntry × CCoinsViewCache :=
  match answer with
  | none => (none, cache)
  | some coin =>
      let entry : CCoinsCacheEntry := ⟨coin, false, coin.IsSpent⟩
      (some entry,
        { cache with
          cacheCoins := cache.cacheCoins.insert outpoint entry
          cachedCoinsUsage := cache.cachedCoinsUsage + coin.DynamicMemoryUsage })

end CCoinsViewCache

namespace CCoinsView

/--
`GetCoin`: the unspent coin at an outpoint, and the view after the reads
have been cached in every cache on the way down.
-/
def GetCoin : CCoinsView → COutPoint → Option Coin × CCoinsView
  | .db view, outpoint => (view.GetCoin outpoint, .db view)
  | .cache base view, outpoint =>
      match view.cacheCoins.find? outpoint with
      | some entry => (entry.unspent?, .cache base view)
      | none =>
          let (answer, base') := GetCoin base outpoint
          let (entry, view') := view.fetchMiss outpoint answer
          (entry.bind CCoinsCacheEntry.unspent?, .cache base' view')

/-- `GetName`: a deletion mark hides the base, a cached entry shadows it. -/
def GetName : CCoinsView → valtype → valtype → Option CKevaData
  | .db view, nameSpace, key => view.GetName nameSpace key
  | .cache base view, nameSpace, key =>
      if view.cacheNames.isDeleted nameSpace key then none
      else
        match view.cacheNames.get nameSpace key with
        | some data => some data
        | none => GetName base nameSpace key

/-- `GetNamespace`: the cached display-name entry, else the base's; deletion marks are not consulted. -/
def GetNamespace : CCoinsView → valtype → Option CKevaData
  | .db view, nameSpace => view.GetNamespace nameSpace
  | .cache base view, nameSpace =>
      match view.cacheNames.getNamespace nameSpace with
      | some data => some data
      | none => GetNamespace base nameSpace

/-- `GetBestBlock`: a cache without a best block of its own takes and keeps its base's. -/
def GetBestBlock : CCoinsView → uint256 × CCoinsView
  | .db view => (view.bestBlock, .db view)
  | .cache base view =>
      if view.hashBlock = 0 then
        let (best, base') := GetBestBlock base
        (best, .cache base' { view with hashBlock := best })
      else (view.hashBlock, .cache base view)

end CCoinsView

end Kevacoin
