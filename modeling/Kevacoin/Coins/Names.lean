import Kevacoin.Coins.Cache
import Kevacoin.Coins.Stack
import Kevacoin.Data.Except

/-!
# Names through a stack of caches

`GetName` through a cache is the overlay read of its `CKevaCache` over what
its base reports (`nameLookup_cache`).  A name write changes the names of
the cache and nothing else (`SetName_frame`, `DeleteName_frame`), and
`Flush` replays the cache into its base without changing any read
(`nameLookup_Flush`): into a parent cache by
`CKevaCache::apply`, the overlay merge, and into the database by
`writeBatch`, which writes the overlay into the name records.

A run of name writes changes the names of a cache and nothing else
(`runNameCalls_frame`), so a cache whose coins are consistent stays
flushable, and the flush hands every name on as the cache reported it
(`flush_preserves_cached_names`).

`GetNamespace` reads the same entries but not the deletion marks: after
`DeleteName` of a display-name entry that the database holds,
`GetNamespace` still reads it while `GetName` reports the name absent
(`deleted_display_entry_still_read`).
-/

namespace Kevacoin

open SortedAssoc

/-! ## Reads -/

namespace CCoinsView

/-- What `GetName` reports, as one function of the name. -/
def nameLookup (view : CCoinsView) (name : NamespaceKeyType) : Option CKevaData :=
  view.GetName name.1 name.2

/-- The database is replaying an interrupted flush: its head blocks are on disk. -/
def replaying : CCoinsView → Bool
  | .db view => !view.headBlocks.isEmpty
  | .cache .. => false

@[simp]
theorem nameLookup_db (view : CCoinsViewDB) :
    (CCoinsView.db view).nameLookup = view.names.find? := rfl

theorem nameLookup_cache (base : CCoinsView) (cache : CCoinsViewCache) :
    (CCoinsView.cache base cache).nameLookup =
      cache.cacheNames.toLayer.read base.nameLookup := by
  funext ⟨nameSpace, key⟩
  simp only [nameLookup, GetName, Overlay.Layer.read, CKevaCache.toLayer,
    CKevaCache.isDeleted, CKevaCache.get]
  cases cache.cacheNames.entries.find? (nameSpace, key) <;> rfl

end CCoinsView

/-! ## Writes -/

namespace CCoinsViewCache

@[simp]
theorem SetName_hashBlock (base : CCoinsView) (cache : CCoinsViewCache)
    (nameSpace key : valtype) (data : CKevaData) (undo : Bool) :
    (SetName base cache nameSpace key data undo).hashBlock = cache.hashBlock := rfl

@[simp]
theorem SetName_cacheCoins (base : CCoinsView) (cache : CCoinsViewCache)
    (nameSpace key : valtype) (data : CKevaData) (undo : Bool) :
    (SetName base cache nameSpace key data undo).cacheCoins = cache.cacheCoins := rfl

/-- `DeleteName` succeeds exactly on a name the view reports, and then drops it. -/
theorem DeleteName_eq_ok {base : CCoinsView} {cache cache' : CCoinsViewCache}
    {nameSpace key : valtype} :
    DeleteName base cache nameSpace key = .ok cache' ↔
      ((CCoinsView.cache base cache).GetName nameSpace key).isSome ∧
        cache' = { cache with
          cacheNames := cache.cacheNames.remove nameSpace key } := by
  unfold DeleteName
  cases (CCoinsView.cache base cache).GetName nameSpace key with
  | none =>
      simp only [reduceCtorEq, Option.isSome_none, Bool.false_eq_true, false_and]
  | some data =>
      simp only [Except.ok.injEq, Option.isSome_some, true_and]
      exact eq_comm

/-- `cache'` is `cache` with other names at most: its coins, coin usage and best block are the same. -/
def NamesOnly (cache cache' : CCoinsViewCache) : Prop :=
  cache' = { cache with cacheNames := cache'.cacheNames }

theorem NamesOnly.refl (cache : CCoinsViewCache) : NamesOnly cache cache :=
  rfl

theorem NamesOnly.trans {first second third : CCoinsViewCache}
    (earlier : NamesOnly first second) (later : NamesOnly second third) :
    NamesOnly first third :=
  calc third = { second with cacheNames := third.cacheNames } := later
    _ = { first with cacheNames := third.cacheNames } := by rw [earlier]

theorem NamesOnly.SetBestBlock {cache cache' : CCoinsViewCache} (names : NamesOnly cache cache')
    (hashBlock : uint256) : NamesOnly (cache.SetBestBlock hashBlock) (cache'.SetBestBlock hashBlock) := by
  unfold NamesOnly at names ⊢
  rw [names]
  rfl

/-- The consistency of a cache's coins does not read its names. -/
theorem NamesOnly.consistent {below : COutPoint → Option Coin} {cache cache' : CCoinsViewCache}
    (names : NamesOnly cache cache') (consistent : cache.Consistent below) :
    cache'.Consistent below := by
  unfold NamesOnly at names
  rw [names]
  exact ⟨consistent.fresh, consistent.clean, consistent.cleared, consistent.usage,
    consistent.bestBlock⟩

/-- `SetName` changes the names of the cache and nothing else. -/
theorem SetName_frame (base : CCoinsView) (cache : CCoinsViewCache) (nameSpace key : valtype)
    (data : CKevaData) (undo : Bool) :
    NamesOnly cache (SetName base cache nameSpace key data undo) :=
  rfl

/-- `DeleteName` changes the names of the cache and nothing else. -/
theorem DeleteName_frame {base : CCoinsView} {cache cache' : CCoinsViewCache}
    {nameSpace key : valtype} (deleted : DeleteName base cache nameSpace key = .ok cache') :
    NamesOnly cache cache' := by
  obtain ⟨-, rfl⟩ := DeleteName_eq_ok.mp deleted
  rfl

theorem Disjoint_SetName {cache : CCoinsViewCache}
    (disjoint : cache.cacheNames.Disjoint) (base : CCoinsView)
    (nameSpace key : valtype) (data : CKevaData) (undo : Bool) :
    (SetName base cache nameSpace key data undo).cacheNames.Disjoint := by
  unfold SetName
  cases (CCoinsView.cache base cache).GetNamespace nameSpace with
  | some namespaceData =>
      exact (disjoint.set _ _ _).set _ _ _
  | none =>
      exact disjoint.set _ _ _

theorem Disjoint_DeleteName {base : CCoinsView} {cache cache' : CCoinsViewCache}
    {nameSpace key : valtype} (disjoint : cache.cacheNames.Disjoint)
    (deleted : DeleteName base cache nameSpace key = .ok cache') :
    cache'.cacheNames.Disjoint := by
  obtain ⟨-, rfl⟩ := DeleteName_eq_ok.mp deleted
  exact disjoint.remove _ _

/-! ## Writing a cache into its base -/

theorem batchWriteCoin_cacheNames {cache cache' : CCoinsViewCache}
    {outpoint : COutPoint} {child : CCoinsCacheEntry}
    (written : batchWriteCoin cache outpoint child = .ok cache') :
    cache'.cacheNames = cache.cacheNames := by
  unfold batchWriteCoin at written
  split at written
  · cases written
    rfl
  · split at written
    · split at written <;> cases written <;> rfl
    · split at written
      · cases written
      · split at written <;> cases written <;> rfl

/-- The coin loop of `BatchWrite` leaves the names of the parent as they are. -/
theorem foldlM_batchWriteCoin_cacheNames (entries : List (COutPoint × CCoinsCacheEntry))
    {cache cache' : CCoinsViewCache}
    (written :
      entries.foldlM (fun current entry => batchWriteCoin current entry.1 entry.2) cache =
        .ok cache') :
    cache'.cacheNames = cache.cacheNames :=
  Except.foldlM_invariant (fun current => current.cacheNames = cache.cacheNames)
    (fun _ _ _ same step => (batchWriteCoin_cacheNames step).trans same)
    entries cache cache' rfl written

theorem nameLookup_BatchWrite_cache {base : CCoinsView} {cache cache' : CCoinsViewCache}
    {mapCoins : CCoinsMap} {hashBlockIn : uint256} {names : CKevaCache}
    (written : cache.BatchWrite mapCoins hashBlockIn names = .ok cache') :
    (CCoinsView.cache base cache').nameLookup =
      names.toLayer.read (CCoinsView.cache base cache).nameLookup := by
  unfold BatchWrite at written
  obtain ⟨coinsWritten, loop, result⟩ := Except.bind_eq_ok.mp written
  cases result
  rw [CCoinsView.nameLookup_cache, CCoinsView.nameLookup_cache]
  dsimp only
  rw [CKevaCache.toLayer_apply, Overlay.Layer.read_merge,
    foldlM_batchWriteCoin_cacheNames _ loop]

end CCoinsViewCache

/-- `writeBatch` writes the overlay of a cache into the name records. -/
theorem CKevaCache.find?_writeBatch (cache : CKevaCache)
    (names : SortedMap NamespaceKeyType CKevaData nameRecordLt) :
    (cache.writeBatch names).find? = cache.toLayer.read names.find? := by
  unfold writeBatch
  rw [Overlay.Layer.find?_foldl_erase, Overlay.Layer.find?_foldl_put,
    Overlay.Layer.setAll_writeAll _ cache.entries.nodupKeys, toLayer_eq_ofLists,
    Overlay.Layer.read_eq_writeInto]

theorem CCoinsViewDB.names_BatchWrite {db db' : CCoinsViewDB} {mapCoins : CCoinsMap}
    {hashBlock : uint256} {names : CKevaCache}
    (written : db.BatchWrite mapCoins hashBlock names = .ok db') :
    db'.names.find? = names.toLayer.read db.names.find? := by
  unfold BatchWrite at written
  split at written
  · cases written
  · split at written
    · cases written
    · cases written
      exact CKevaCache.find?_writeBatch names db.names

/-- Writing a cache's names into any view changes its reads by the cache's overlay. -/
theorem CCoinsView.nameLookup_BatchWrite {view view' : CCoinsView}
    {mapCoins : CCoinsMap} {hashBlock : uint256} {names : CKevaCache}
    (written : view.BatchWrite mapCoins hashBlock names = .ok view') :
    view'.nameLookup = names.toLayer.read view.nameLookup := by
  cases view with
  | db db =>
      obtain ⟨db', dbWritten, rfl⟩ := Except.map_eq_ok.mp written
      exact CCoinsViewDB.names_BatchWrite dbWritten
  | cache base cache =>
      obtain ⟨cache', cacheWritten, rfl⟩ := Except.map_eq_ok.mp written
      exact CCoinsViewCache.nameLookup_BatchWrite_cache cacheWritten

/-- A cache without name changes reads as its base. -/
theorem CKevaCache.read_of_empty {cache : CKevaCache} (unchanged : cache.empty = true)
    (base : NamespaceKeyType → Option CKevaData) :
    cache.toLayer.read base = base := by
  simp only [CKevaCache.empty, Bool.and_eq_true, List.isEmpty_iff] at unchanged
  rw [toLayer_eq_ofLists, unchanged.1, unchanged.2]
  funext name
  simp [Overlay.Layer.read, Overlay.Layer.ofLists, findList?]

namespace CCoinsViewCache

/-- A successful `Flush` leaves the base reporting what the cache reported. -/
theorem nameLookup_Flush {base : CCoinsView} {cache : CCoinsViewCache}
    {result : Bool × CCoinsView × CCoinsViewCache}
    (flushed : cache.Flush base = .ok result) :
    result.2.1.nameLookup = (CCoinsView.cache base cache).nameLookup := by
  unfold Flush at flushed
  split at flushed
  · case isTrue nothing =>
      cases flushed
      rw [CCoinsView.nameLookup_cache, CKevaCache.read_of_empty nothing.2.2]
  · obtain ⟨base', written, result'⟩ := Except.bind_eq_ok.mp flushed
    cases result'
    rw [CCoinsView.nameLookup_cache]
    exact CCoinsView.nameLookup_BatchWrite written

end CCoinsViewCache

/-! ## Sequences of name writes -/

/-- A name write on a cache: `SetName` or `DeleteName`. -/
inductive NameCall where
  | setName (nameSpace key : valtype) (data : CKevaData) (undo : Bool)
  | deleteName (nameSpace key : valtype)
deriving DecidableEq, Repr

/-- One name write on a cache over `base`. -/
def NameCall.run (base : CCoinsView) (cache : CCoinsViewCache) :
    NameCall → Except Abort CCoinsViewCache
  | .setName nameSpace key data undo =>
      .ok (CCoinsViewCache.SetName base cache nameSpace key data undo)
  | .deleteName nameSpace key =>
      CCoinsViewCache.DeleteName base cache nameSpace key

/-- A sequence of name writes on one cache, stopping at the first failed assertion. -/
def runNameCalls (base : CCoinsView) : List NameCall → CCoinsViewCache →
    Except Abort CCoinsViewCache
  | [], cache => .ok cache
  | call :: rest, cache =>
      match call.run base cache with
      | .error abort => .error abort
      | .ok cache' => runNameCalls base rest cache'

theorem NameCall.run_disjoint {base : CCoinsView} {cache cache' : CCoinsViewCache}
    (disjoint : cache.cacheNames.Disjoint) {call : NameCall}
    (ran : call.run base cache = .ok cache') : cache'.cacheNames.Disjoint := by
  cases call with
  | setName nameSpace key data undo =>
      cases ran
      exact CCoinsViewCache.Disjoint_SetName disjoint base nameSpace key data undo
  | deleteName nameSpace key =>
      exact CCoinsViewCache.Disjoint_DeleteName disjoint ran

/-- A name write changes the names of the cache and nothing else. -/
theorem NameCall.run_frame {base : CCoinsView} {cache cache' : CCoinsViewCache}
    {call : NameCall} (ran : call.run base cache = .ok cache') :
    CCoinsViewCache.NamesOnly cache cache' := by
  cases call with
  | setName nameSpace key data undo =>
      cases ran
      exact CCoinsViewCache.SetName_frame base cache nameSpace key data undo
  | deleteName nameSpace key =>
      exact CCoinsViewCache.DeleteName_frame ran

theorem runNameCalls_cons_ok {base : CCoinsView} {call : NameCall}
    {rest : List NameCall} {cache final : CCoinsViewCache}
    (ran : runNameCalls base (call :: rest) cache = .ok final) :
    ∃ next, call.run base cache = .ok next ∧ runNameCalls base rest next = .ok final := by
  unfold runNameCalls at ran
  split at ran
  · cases ran
  · case h_2 next first =>
      exact ⟨next, first, ran⟩

/-- Every successful run of name writes keeps the cache's entries and marks disjoint. -/
theorem runNameCalls_disjoint {base : CCoinsView} :
    ∀ (calls : List NameCall) {cache final : CCoinsViewCache},
      cache.cacheNames.Disjoint → runNameCalls base calls cache = .ok final →
      final.cacheNames.Disjoint
  | [], _, _, disjoint, ran => by
      cases ran
      exact disjoint
  | _ :: rest, _, _, disjoint, ran => by
      obtain ⟨next, first, later⟩ := runNameCalls_cons_ok ran
      exact runNameCalls_disjoint rest (NameCall.run_disjoint disjoint first) later

/-- A run of name writes changes the names of the cache and nothing else. -/
theorem runNameCalls_frame {base : CCoinsView} :
    ∀ (calls : List NameCall) {cache final : CCoinsViewCache},
      runNameCalls base calls cache = .ok final → CCoinsViewCache.NamesOnly cache final
  | [], _, _, ran => by
      cases ran
      exact CCoinsViewCache.NamesOnly.refl _
  | _ :: rest, _, _, ran => by
      obtain ⟨next, first, later⟩ := runNameCalls_cons_ok ran
      exact (NameCall.run_frame first).trans (runNameCalls_frame rest later)

/--
Layered keva caches are transparent under flush.  A run of name writes on a
cache whose entries and marks start disjoint keeps them disjoint after
every write.  Once the best block is set, `Flush` succeeds wherever the
cache's coins are consistent over the view below, which the name writes
leave as they are; and every successful `Flush` leaves the base reporting
every name as the cache reported it.
-/
theorem flush_preserves_cached_names (base : CCoinsView) (start : CCoinsViewCache)
    (startDisjoint : start.cacheNames.Disjoint) (calls : List NameCall)
    (cache : CCoinsViewCache) (ran : runNameCalls base calls start = .ok cache)
    (hashBlock : uint256) :
    (∀ count written, runNameCalls base (calls.take count) start = .ok written →
        written.cacheNames.Disjoint) ∧
      ((CCoinsView.cache base (start.SetBestBlock hashBlock)).Consistent →
        ∃ result, (cache.SetBestBlock hashBlock).Flush base = .ok result) ∧
      (∀ result, (cache.SetBestBlock hashBlock).Flush base = .ok result →
        ∀ nameSpace key, result.2.1.GetName nameSpace key =
          (CCoinsView.cache base cache).GetName nameSpace key) := by
  refine ⟨fun count written prefixRan =>
      runNameCalls_disjoint (calls.take count) startDisjoint prefixRan, ?_, ?_⟩
  · intro consistent
    have named := (runNameCalls_frame calls ran).SetBestBlock hashBlock
    have flushable : (CCoinsView.cache base (cache.SetBestBlock hashBlock)).Consistent :=
      ⟨consistent.1, named.consistent consistent.2⟩
    obtain ⟨base', flushed, -⟩ := CCoinsViewCache.Flush_spec flushable
    exact ⟨_, flushed⟩
  · intro result flushed nameSpace key
    exact congrFun (CCoinsViewCache.nameLookup_Flush flushed) (nameSpace, key)

/-- A database with no coins and no names. -/
def emptyDatabase : CCoinsView :=
  .db ⟨.empty, .empty, 0, []⟩

/-- A write of key [1] of namespace [53, 1]. -/
def oneNameWrite : NameCall :=
  .setName [53, 1] [1] ⟨[1], 1, ⟨7, 0⟩, [OP_1]⟩ false

/-- The cache that oneNameWrite leaves over emptyDatabase. -/
def oneNameCache : CCoinsViewCache :=
  CCoinsViewCache.SetName emptyDatabase CCoinsViewCache.initial [53, 1] [1]
    ⟨[1], 1, ⟨7, 0⟩, [OP_1]⟩ false

theorem flush_preserves_cached_names_of_one_write :
    (CCoinsView.cache emptyDatabase (CCoinsViewCache.initial.SetBestBlock 5)).Consistent ∧
      (∀ count written, runNameCalls emptyDatabase ([oneNameWrite].take count)
          CCoinsViewCache.initial = .ok written → written.cacheNames.Disjoint) ∧
      (∃ result, (oneNameCache.SetBestBlock 5).Flush emptyDatabase = .ok result) ∧
      (∀ result, (oneNameCache.SetBestBlock 5).Flush emptyDatabase = .ok result →
        ∀ nameSpace key, result.2.1.GetName nameSpace key =
          (CCoinsView.cache emptyDatabase oneNameCache).GetName nameSpace key) := by
  have databaseConsistent : emptyDatabase.Consistent := by
    refine ⟨fun outpoint coin found => ?_, by decide⟩
    simp at found
  have consistent : (CCoinsView.cache emptyDatabase
      (CCoinsViewCache.initial.SetBestBlock 5)).Consistent :=
    ⟨databaseConsistent, CCoinsViewCache.consistent_of_empty rfl rfl (by decide) _⟩
  obtain ⟨disjoint, flushes, transfers⟩ := flush_preserves_cached_names emptyDatabase
    CCoinsViewCache.initial CKevaCache.disjoint_initial [oneNameWrite] oneNameCache rfl 5
  exact ⟨consistent, disjoint, flushes consistent, transfers⟩

/-! ## A display entry deleted over the database -/

/-- The display entry of namespace [53, 1] that displayWrite writes. -/
def displayData : CKevaData :=
  ⟨[1], 1, ⟨7, 0⟩, [OP_1]⟩

/-- A write of the display entry of namespace [53, 1]. -/
def displayWrite : NameCall :=
  .setName [53, 1] CKevaScript.KEVA_DISPLAY_NAME_KEY displayData false

/--
The display entry of a namespace, written and flushed into the database and
then deleted in a new cache over it, as undoing a registration does:
GetName reports the entry absent while GetNamespace still reads it, since
the cache consults its deleted set only for GetName.
-/
theorem deleted_display_entry_still_read :
    ∃ written flushed deleted,
      runNameCalls emptyDatabase [displayWrite] CCoinsViewCache.initial = .ok written ∧
      (written.SetBestBlock 5).Flush emptyDatabase = .ok flushed ∧
      runNameCalls flushed.2.1
          [.deleteName [53, 1] CKevaScript.KEVA_DISPLAY_NAME_KEY] CCoinsViewCache.initial =
        .ok deleted ∧
      (CCoinsView.cache flushed.2.1 deleted).GetName [53, 1]
          CKevaScript.KEVA_DISPLAY_NAME_KEY = none ∧
      (CCoinsView.cache flushed.2.1 deleted).GetNamespace [53, 1] = some displayData := by
  exact ⟨_, _, _, rfl, rfl, rfl, rfl, rfl⟩

end Kevacoin
