import Kevacoin.Coins.Cache

/-!
# A stack of coin caches is one map

Caches stack on the database, each writing its changes back into the
view below when it is flushed.  An entry of a cache carries two flags:
`DIRTY`, the entry differs from what the view below holds, and `FRESH`,
the view below holds no unspent coin at its outpoint, so that spending the
entry can drop it instead of writing the spend back.

The flags are right when every `FRESH` entry stands over an outpoint that
the view below does not hold, and every entry that is not `DIRTY` holds
what the view below holds (`CCoinsViewCache.Consistent`).  With the memory
accounting and the best block, that is the invariant of a layer; a stack
is consistent when each layer is, over the view the layers below it make
(`CCoinsView.Consistent`).  Reads, `AddCoin` under its contract,
`SpendCoin`, `Uncache` and `Flush` keep it and keep what the whole stack
holds, or change it as a map of outpoints to coins changes
(`CoinOp.apply_refines`).  A run of such operations therefore raises no
error and reads through the top layer as that map does, and flushing every
layer leaves the map in the database (`coin_cache_stack_refines_map`).

Flushing into the database asserts that a best block is set.  A layer
whose best block is null and that holds coins cannot be flushed there
(`flush_without_best_block_aborts`); the invariant therefore asks every
layer for a best block, as the node sets one before it flushes.
-/

namespace Kevacoin

open SortedAssoc

/-! ## What a view holds -/

/-- `GetCoin` of an entry reads its coin only. -/
theorem CCoinsCacheEntry.unspent?_eq (entry : CCoinsCacheEntry) :
    entry.unspent? = if entry.coin.IsSpent then none else some entry.coin := rfl

namespace CCoinsViewCache

/-- The coins read through a cache over a view that holds `below`. -/
def read (cache : CCoinsViewCache) (below : COutPoint → Option Coin) (outpoint : COutPoint) :
    Option Coin :=
  match cache.cacheCoins.find? outpoint with
  | some entry => entry.unspent?
  | none => below outpoint

/-- The memory the coins of a cache use, entry by entry. -/
def entryUsage (cache : CCoinsViewCache) : Nat :=
  cache.cacheCoins.total fun entry => entry.coin.DynamicMemoryUsage

/--
The flags of a cache agree with the view below, which holds `below`; the
memory it accounts for is that of its coins; its best block is set.
-/
structure Consistent (below : COutPoint → Option Coin) (cache : CCoinsViewCache) : Prop where
  fresh : ∀ outpoint entry, cache.cacheCoins.find? outpoint = some entry →
    entry.fresh = true → below outpoint = none
  clean : ∀ outpoint entry, cache.cacheCoins.find? outpoint = some entry →
    entry.dirty = false → entry.unspent? = below outpoint
  cleared : ∀ outpoint entry, cache.cacheCoins.find? outpoint = some entry →
    entry.coin.IsSpent = true → entry.coin = Coin.cleared
  usage : cache.cachedCoinsUsage = cache.entryUsage
  bestBlock : cache.hashBlock ≠ 0

theorem read_of_find {cache : CCoinsViewCache} {below : COutPoint → Option Coin}
    {outpoint : COutPoint} {entry : CCoinsCacheEntry}
    (found : cache.cacheCoins.find? outpoint = some entry) :
    cache.read below outpoint = entry.unspent? := by
  rw [read, found]

theorem read_of_miss {cache : CCoinsViewCache} {below : COutPoint → Option Coin}
    {outpoint : COutPoint} (missing : cache.cacheCoins.find? outpoint = none) :
    cache.read below outpoint = below outpoint := by
  rw [read, missing]

/-- Reads agree at an outpoint whose entry is the same in both caches. -/
theorem read_congr {cache other : CCoinsViewCache} {below : COutPoint → Option Coin}
    {outpoint : COutPoint} (same : other.cacheCoins.find? outpoint = cache.cacheCoins.find? outpoint) :
    other.read below outpoint = cache.read below outpoint := by
  rw [read, read, same]

end CCoinsViewCache

/-- The database holds unspent coins only, and no flush of it was interrupted. -/
structure CCoinsViewDB.Consistent (db : CCoinsViewDB) : Prop where
  unspent : ∀ outpoint coin, db.coins.find? outpoint = some coin → coin.IsSpent = false
  settled : ¬ (db.bestBlock = 0 ∧ db.headBlocks.length = 2)

namespace CCoinsView

/-- The coins a view holds. -/
def content : CCoinsView → COutPoint → Option Coin
  | .db view => view.coins.find?
  | .cache base top => top.read base.content

/-- The number of caches in a view. -/
def depth : CCoinsView → Nat
  | .db _ => 0
  | .cache base _ => base.depth + 1

/-- The caches of a view, the top one first. -/
def layers : CCoinsView → List CCoinsViewCache
  | .db _ => []
  | .cache base top => top :: base.layers

/-- Every layer is consistent over the view below it, and so is the database. -/
def Consistent : CCoinsView → Prop
  | .db view => view.Consistent
  | .cache base top => base.Consistent ∧ top.Consistent base.content

/-- A consistent view holds unspent coins only. -/
theorem Consistent.content_unspent :
    ∀ {view : CCoinsView}, view.Consistent →
      ∀ {outpoint coin}, view.content outpoint = some coin → coin.IsSpent = false
  | .db _, consistent, outpoint, coin, found => consistent.unspent outpoint coin found
  | .cache base top, consistent, outpoint, coin, found => by
      simp only [content, CCoinsViewCache.read] at found
      split at found
      · rw [CCoinsCacheEntry.unspent?_eq] at found
        split at found
        · cases found
        · case isFalse unspent =>
            cases found
            simpa using unspent
      · exact consistent.1.content_unspent found

end CCoinsView

/-! ## Reads -/

/-- A view that holds what another held, with as many layers, and is consistent. -/
structure CCoinsView.Keeps (view view' : CCoinsView) : Prop where
  consistent : view'.Consistent
  content : view'.content = view.content
  depth : view'.depth = view.depth

namespace CCoinsViewCache

/--
A coin fetched from the view below goes into the cache as a clean entry:
the invariant holds on, reads are as before, and the entry is the one
returned.
-/
theorem Consistent.fetchMiss {below : COutPoint → Option Coin} {cache : CCoinsViewCache}
    (consistent : cache.Consistent below) {outpoint : COutPoint}
    (missing : cache.cacheCoins.find? outpoint = none)
    (unspent : ∀ coin, below outpoint = some coin → coin.IsSpent = false) :
    (cache.fetchMiss outpoint (below outpoint)).2.Consistent below ∧
      (cache.fetchMiss outpoint (below outpoint)).2.read below = cache.read below ∧
      (cache.fetchMiss outpoint (below outpoint)).2.cacheCoins.find? outpoint =
        (cache.fetchMiss outpoint (below outpoint)).1 ∧
      (cache.fetchMiss outpoint (below outpoint)).1.bind CCoinsCacheEntry.unspent? =
        below outpoint := by
  cases answer : below outpoint with
  | none => exact ⟨consistent, rfl, missing, rfl⟩
  | some coin =>
      have notSpent := unspent coin answer
      have found := SortedMap.find?_insert_of_miss missing ⟨coin, false, coin.IsSpent⟩
      have fetched : cache.fetchMiss outpoint (some coin) =
          (some ⟨coin, false, coin.IsSpent⟩,
            { cache with
              cacheCoins := cache.cacheCoins.insert outpoint ⟨coin, false, coin.IsSpent⟩
              cachedCoinsUsage := cache.cachedCoinsUsage + coin.DynamicMemoryUsage }) := rfl
      rw [fetched]
      refine ⟨⟨?_, ?_, ?_, ?_, consistent.bestBlock⟩, ?_, ?_, ?_⟩
      · intro probe entry cached marked
        rw [found, Function.update_apply] at cached
        split at cached
        · cases cached
          simp [notSpent] at marked
        · exact consistent.fresh probe entry cached marked
      · intro probe entry cached clean
        rw [found, Function.update_apply] at cached
        split at cached
        · case isTrue here =>
            cases cached
            subst here
            simp [CCoinsCacheEntry.unspent?, notSpent, answer]
        · exact consistent.clean probe entry cached clean
      · intro probe entry cached spent
        rw [found, Function.update_apply] at cached
        split at cached
        · cases cached
          simp [notSpent] at spent
        · exact consistent.cleared probe entry cached spent
      · show cache.cachedCoinsUsage + coin.DynamicMemoryUsage =
          (cache.cacheCoins.insert outpoint ⟨coin, false, coin.IsSpent⟩).total
            fun entry => entry.coin.DynamicMemoryUsage
        rw [SortedMap.total_insert _ missing, consistent.usage, entryUsage]
      · funext probe
        simp only [read]
        rw [found, Function.update_apply]
        by_cases here : probe = outpoint
        · subst here
          simp [CCoinsCacheEntry.unspent?, notSpent, missing, answer]
        · rw [if_neg here]
      · show (cache.cacheCoins.insert outpoint ⟨coin, false, coin.IsSpent⟩).find? outpoint = _
        rw [found, Function.update_self]
      · simp [CCoinsCacheEntry.unspent?, notSpent]

end CCoinsViewCache

/--
`FetchCoin` on the top cache, given what `GetCoin` on the view below does:
the stack keeps what it holds, and the entry returned is the top cache's
entry afterwards.
-/
theorem CCoinsViewCache.FetchCoin_keeps {base : CCoinsView} {top : CCoinsViewCache}
    (consistent : (CCoinsView.cache base top).Consistent) {outpoint : COutPoint}
    (below : (base.GetCoin outpoint).1 = base.content outpoint ∧
      base.Keeps (base.GetCoin outpoint).2) :
    base.Keeps (FetchCoin base top outpoint).2.1 ∧
      (CCoinsView.cache base top).Keeps
        (.cache (FetchCoin base top outpoint).2.1 (FetchCoin base top outpoint).2.2) ∧
      (FetchCoin base top outpoint).2.2.cacheCoins.find? outpoint =
        (FetchCoin base top outpoint).1 ∧
      (FetchCoin base top outpoint).1.bind CCoinsCacheEntry.unspent? =
        top.read base.content outpoint := by
  cases cached : top.cacheCoins.find? outpoint with
  | some entry =>
      rw [FetchCoin_of_find cached]
      exact ⟨⟨consistent.1, rfl, rfl⟩, ⟨consistent, rfl, rfl⟩, cached,
        (read_of_find cached).symm⟩
  | none =>
      rw [FetchCoin_of_miss cached]
      obtain ⟨answer, kept⟩ := below
      have onTop : top.Consistent (base.GetCoin outpoint).2.content := by
        rw [kept.content]
        exact consistent.2
      obtain ⟨stillConsistent, sameRead, entry, returned⟩ := onTop.fetchMiss cached
        fun coin found => kept.consistent.content_unspent found
      rw [kept.content, ← answer] at stillConsistent sameRead entry returned
      refine ⟨kept, ⟨⟨kept.consistent, ?_⟩, ?_, ?_⟩, entry, ?_⟩
      · rw [kept.content]
        exact stillConsistent
      · simp only [CCoinsView.content]
        rw [kept.content, sameRead]
      · simp only [CCoinsView.depth, kept.depth]
      · rw [returned, answer, read_of_miss cached]

/-- `GetCoin` on a consistent view returns what it holds and keeps it. -/
theorem CCoinsView.Consistent.GetCoin :
    ∀ {view : CCoinsView}, view.Consistent → ∀ outpoint,
      (view.GetCoin outpoint).1 = view.content outpoint ∧ view.Keeps (view.GetCoin outpoint).2
  | .db _, consistent, _ => ⟨rfl, consistent, rfl, rfl⟩
  | .cache base top, consistent, outpoint => by
      obtain ⟨_, kept, _, returned⟩ := CCoinsViewCache.FetchCoin_keeps consistent
        (consistent.1.GetCoin outpoint)
      rw [CCoinsViewCache.GetCoin_cache]
      exact ⟨returned, kept⟩

/-- `FetchCoin` on the top cache of a consistent stack. -/
theorem CCoinsViewCache.FetchCoin_spec {base : CCoinsView} {top : CCoinsViewCache}
    (consistent : (CCoinsView.cache base top).Consistent) (outpoint : COutPoint) :
    base.Keeps (FetchCoin base top outpoint).2.1 ∧
      (CCoinsView.cache base top).Keeps
        (.cache (FetchCoin base top outpoint).2.1 (FetchCoin base top outpoint).2.2) ∧
      (FetchCoin base top outpoint).2.2.cacheCoins.find? outpoint =
        (FetchCoin base top outpoint).1 ∧
      (FetchCoin base top outpoint).1.bind CCoinsCacheEntry.unspent? =
        top.read base.content outpoint :=
  FetchCoin_keeps consistent (consistent.1.GetCoin outpoint)

namespace CCoinsViewCache

/-- The cleared coin is spent and uses no memory. -/
@[simp]
theorem cleared_IsSpent : Coin.cleared.IsSpent = true := rfl

@[simp]
theorem cleared_DynamicMemoryUsage : Coin.cleared.DynamicMemoryUsage = 0 := rfl

/-- An entry reads as its coin exactly when the coin is unspent. -/
theorem unspent?_eq_none_iff (entry : CCoinsCacheEntry) :
    entry.unspent? = none ↔ entry.coin.IsSpent = true := by
  rw [CCoinsCacheEntry.unspent?_eq]
  split <;> simp_all

/--
`GetCoin`, `AccessCoin` and `HaveCoin` on the top cache of a consistent
stack read what the stack holds; a spent or missing coin is the cleared one.
-/
theorem reads_spec {base : CCoinsView} {top : CCoinsViewCache}
    (consistent : (CCoinsView.cache base top).Consistent) (outpoint : COutPoint) :
    (GetCoin base top outpoint).1 = top.read base.content outpoint ∧
      (AccessCoin base top outpoint).1 = (top.read base.content outpoint).getD Coin.cleared ∧
      (HaveCoin base top outpoint).1 = (top.read base.content outpoint).isSome := by
  obtain ⟨_, kept, entry, returned⟩ := FetchCoin_spec consistent outpoint
  refine ⟨returned, ?_, ?_⟩
  · show (FetchCoin base top outpoint).1.elim Coin.cleared CCoinsCacheEntry.coin = _
    rw [← returned]
    cases fetched : (FetchCoin base top outpoint).1 with
    | none => rfl
    | some found =>
        rw [fetched] at entry
        by_cases spent : found.coin.IsSpent = true
        · have isCleared := kept.consistent.2.cleared outpoint found entry spent
          simp [CCoinsCacheEntry.unspent?, isCleared]
        · simp [CCoinsCacheEntry.unspent?, spent]
  · show (FetchCoin base top outpoint).1.any (fun found => !found.coin.IsSpent) = _
    rw [← returned]
    cases (FetchCoin base top outpoint).1 with
    | none => rfl
    | some found =>
        by_cases spent : found.coin.IsSpent = true <;> simp [CCoinsCacheEntry.unspent?, spent]

/--
The write at the end of `AddCoin`, over the entry it found (or a cleared
one with no flags): it succeeds when the entry is spent or may be
overwritten, and the coin then reads at its outpoint.
-/
theorem AddCoin_write {below : COutPoint → Option Coin} {top : CCoinsViewCache}
    (consistent : top.Consistent below) {outpoint : COutPoint} {coin : Coin}
    {possibleOverwrite : Bool} (unspent : coin.IsSpent = false) (existing : CCoinsCacheEntry)
    (usage : Nat) (existingSpent : possibleOverwrite = false → existing.coin.IsSpent = true)
    (existingFresh : existing.fresh = true → below outpoint = none)
    (existingBelow : possibleOverwrite = false → existing.dirty = false → below outpoint = none)
    (accounted : usage + (top.cacheCoins.find? outpoint).elim 0
      (fun entry => entry.coin.DynamicMemoryUsage) = top.cachedCoinsUsage) :
    ∃ top', (if (!possibleOverwrite && !existing.coin.IsSpent) = true then
        (.error (.logicError "Adding new coin that replaces non-pruned entry") :
          Except Abort CCoinsViewCache)
      else .ok { top with
        cacheCoins := top.cacheCoins.put outpoint
          ⟨coin, true, existing.fresh || (!possibleOverwrite && !existing.dirty)⟩
        cachedCoinsUsage := usage + coin.DynamicMemoryUsage }) = .ok top' ∧
      top'.Consistent below ∧ top'.read below = Function.update (top.read below) outpoint (some coin) := by
  rw [if_neg (by cases possibleOverwrite <;> simp_all)]
  have stored := SortedMap.find?_put top.cacheCoins outpoint
    ⟨coin, true, existing.fresh || (!possibleOverwrite && !existing.dirty)⟩
  refine ⟨_, rfl, ⟨?_, ?_, ?_, ?_, consistent.bestBlock⟩, ?_⟩
  · intro probe entry cached marked
    rw [stored, Function.update_apply] at cached
    split at cached
    · case isTrue here =>
        cases cached
        subst here
        cases possibleOverwrite <;> cases fresh : existing.fresh <;>
          cases dirty : existing.dirty <;> simp_all
    · exact consistent.fresh probe entry cached marked
  · intro probe entry cached clean
    rw [stored, Function.update_apply] at cached
    split at cached
    · cases cached
      cases clean
    · exact consistent.clean probe entry cached clean
  · intro probe entry cached spent
    rw [stored, Function.update_apply] at cached
    split at cached
    · cases cached
      rw [unspent] at spent
      cases spent
    · exact consistent.cleared probe entry cached spent
  · have written := SortedMap.total_put (fun entry => entry.coin.DynamicMemoryUsage)
      top.cacheCoins outpoint ⟨coin, true, existing.fresh || (!possibleOverwrite && !existing.dirty)⟩
    dsimp only at written
    show usage + coin.DynamicMemoryUsage = SortedMap.total (fun entry => entry.coin.DynamicMemoryUsage)
      (top.cacheCoins.put outpoint
        ⟨coin, true, existing.fresh || (!possibleOverwrite && !existing.dirty)⟩)
    rw [consistent.usage, entryUsage] at accounted
    omega
  · funext probe
    by_cases here : probe = outpoint
    · subst here
      simp [read, stored, CCoinsCacheEntry.unspent?, unspent]
    · simp only [read, stored, Function.update_of_ne here]

/--
`AddCoin` under its contract (an unspent coin, and no overwrite only over
an outpoint the stack does not hold) succeeds; an unspendable coin is not
stored, any other now reads at its outpoint.
-/
theorem AddCoin_spec {below : COutPoint → Option Coin} {top : CCoinsViewCache}
    (consistent : top.Consistent below) {outpoint : COutPoint} {coin : Coin}
    {possibleOverwrite : Bool} (unspent : coin.IsSpent = false)
    (absent : possibleOverwrite = false → top.read below outpoint = none) :
    ∃ top', top.AddCoin outpoint coin possibleOverwrite = .ok top' ∧ top'.Consistent below ∧
      top'.read below = if isUnspendable coin.out.scriptPubKey = true then top.read below
        else Function.update (top.read below) outpoint (some coin) := by
  unfold AddCoin
  rw [if_neg (by rw [unspent]; exact Bool.false_ne_true)]
  by_cases unspendable : isUnspendable coin.out.scriptPubKey = true
  · rw [if_pos unspendable, if_pos unspendable]
    exact ⟨top, rfl, consistent, rfl⟩
  rw [if_neg unspendable, if_neg unspendable]
  cases found : top.cacheCoins.find? outpoint with
  | some entry =>
      simp only
      have emptied : possibleOverwrite = false → entry.unspent? = none := fun keep => by
        rw [← read_of_find found]
        exact absent keep
      have within := SortedMap.le_total (fun entry => entry.coin.DynamicMemoryUsage) found
      refine AddCoin_write consistent unspent entry _
        (fun keep => (unspent?_eq_none_iff entry).mp (emptied keep))
        (consistent.fresh outpoint entry found) (fun keep clean => ?_) ?_
      · rw [← consistent.clean outpoint entry found clean]
        exact emptied keep
      · rw [found, consistent.usage, entryUsage]
        simp only [Option.elim]
        omega
  | none =>
      simp only
      refine AddCoin_write consistent unspent ⟨Coin.cleared, false, false⟩ top.cachedCoinsUsage
        (fun _ => rfl) (fun marked => absurd marked Bool.false_ne_true) (fun keep _ => ?_)
        (by simp [found])
      rw [← @read_of_miss top below outpoint found]
      exact absent keep

/-- Spending a found entry: a fresh one is dropped, any other becomes a dirty cleared coin. -/
theorem Consistent.spend {below : COutPoint → Option Coin} {top : CCoinsViewCache}
    (consistent : top.Consistent below) {outpoint : COutPoint} {found : CCoinsCacheEntry}
    (cached : top.cacheCoins.find? outpoint = some found) :
    let spent : CCoinsViewCache := { top with
      cacheCoins :=
        if found.fresh then top.cacheCoins.erase outpoint
        else top.cacheCoins.assign outpoint ⟨Coin.cleared, true, found.fresh⟩
      cachedCoinsUsage := top.cachedCoinsUsage - found.coin.DynamicMemoryUsage }
    spent.Consistent below ∧ spent.read below = Function.update (top.read below) outpoint none := by
  intro spent
  have within := SortedMap.le_total (fun entry => entry.coin.DynamicMemoryUsage) cached
  by_cases fresh : found.fresh = true
  · have erased := SortedMap.find?_erase_eq_update top.cacheCoins outpoint
    have shrunk := SortedMap.total_erase (fun entry => entry.coin.DynamicMemoryUsage) cached
    have coins : spent.cacheCoins = top.cacheCoins.erase outpoint := if_pos fresh
    refine ⟨⟨?_, ?_, ?_, ?_, consistent.bestBlock⟩, ?_⟩
    · intro probe entry stored marked
      rw [coins, erased, Function.update_apply] at stored
      split at stored
      · cases stored
      · exact consistent.fresh probe entry stored marked
    · intro probe entry stored clean
      rw [coins, erased, Function.update_apply] at stored
      split at stored
      · cases stored
      · exact consistent.clean probe entry stored clean
    · intro probe entry stored isSpent
      rw [coins, erased, Function.update_apply] at stored
      split at stored
      · cases stored
      · exact consistent.cleared probe entry stored isSpent
    · show top.cachedCoinsUsage - found.coin.DynamicMemoryUsage = SortedMap.total _ spent.cacheCoins
      rw [coins, consistent.usage, entryUsage]
      omega
    · funext probe
      by_cases here : probe = outpoint
      · subst here
        simp only [read, coins, erased, Function.update_self]
        exact consistent.fresh probe found cached fresh
      · simp only [read, coins, erased, Function.update_of_ne here]
  · have assigned := SortedMap.find?_assign_of_find cached ⟨Coin.cleared, true, found.fresh⟩
    have replaced := SortedMap.total_assign (fun entry => entry.coin.DynamicMemoryUsage) cached
      ⟨Coin.cleared, true, found.fresh⟩
    have coins : spent.cacheCoins = top.cacheCoins.assign outpoint ⟨Coin.cleared, true, found.fresh⟩ :=
      if_neg fresh
    refine ⟨⟨?_, ?_, ?_, ?_, consistent.bestBlock⟩, ?_⟩
    · intro probe entry stored marked
      rw [coins, assigned, Function.update_apply] at stored
      split at stored
      · cases stored
        exact absurd marked fresh
      · exact consistent.fresh probe entry stored marked
    · intro probe entry stored clean
      rw [coins, assigned, Function.update_apply] at stored
      split at stored
      · cases stored
        cases clean
      · exact consistent.clean probe entry stored clean
    · intro probe entry stored isSpent
      rw [coins, assigned, Function.update_apply] at stored
      split at stored
      · cases stored
        rfl
      · exact consistent.cleared probe entry stored isSpent
    · show top.cachedCoinsUsage - found.coin.DynamicMemoryUsage = SortedMap.total _ spent.cacheCoins
      dsimp only at replaced
      rw [coins, consistent.usage, entryUsage]
      rw [cleared_DynamicMemoryUsage] at replaced
      omega
    · funext probe
      by_cases here : probe = outpoint
      · subst here
        simp [read, coins, assigned, CCoinsCacheEntry.unspent?]
      · simp only [read, coins, assigned, Function.update_of_ne here]

/-- `SpendCoin` where the fetch finds nothing: the views as the fetch left them. -/
theorem SpendCoin_of_none {base : CCoinsView} {top : CCoinsViewCache} {outpoint : COutPoint}
    (missing : (FetchCoin base top outpoint).1 = none) :
    SpendCoin base top outpoint =
      (none, (FetchCoin base top outpoint).2.1, (FetchCoin base top outpoint).2.2) := by
  unfold SpendCoin
  generalize FetchCoin base top outpoint = fetched at missing ⊢
  obtain ⟨entry, base', cache'⟩ := fetched
  dsimp only at missing
  subst missing
  rfl

/-- `SpendCoin` where the fetch finds an entry: it is erased if fresh, else cleared and marked dirty. -/
theorem SpendCoin_of_some {base : CCoinsView} {top : CCoinsViewCache} {outpoint : COutPoint}
    {found : CCoinsCacheEntry} (present : (FetchCoin base top outpoint).1 = some found) :
    SpendCoin base top outpoint =
      (some found.coin, (FetchCoin base top outpoint).2.1,
        { (FetchCoin base top outpoint).2.2 with
          cacheCoins :=
            if found.fresh then (FetchCoin base top outpoint).2.2.cacheCoins.erase outpoint
            else (FetchCoin base top outpoint).2.2.cacheCoins.assign outpoint
              ⟨Coin.cleared, true, found.fresh⟩
          cachedCoinsUsage :=
            (FetchCoin base top outpoint).2.2.cachedCoinsUsage - found.coin.DynamicMemoryUsage }) := by
  unfold SpendCoin
  generalize FetchCoin base top outpoint = fetched at present ⊢
  obtain ⟨entry, base', cache'⟩ := fetched
  dsimp only at present
  subst present
  rfl

/--
`SpendCoin` on the top cache of a consistent stack: the stack stays
consistent and no longer holds a coin at the outpoint.
-/
theorem SpendCoin_spec {base : CCoinsView} {top : CCoinsViewCache}
    (consistent : (CCoinsView.cache base top).Consistent) (outpoint : COutPoint) :
    base.Keeps (SpendCoin base top outpoint).2.1 ∧
      (CCoinsView.cache (SpendCoin base top outpoint).2.1 (SpendCoin base top outpoint).2.2).Consistent ∧
      (SpendCoin base top outpoint).2.2.read (SpendCoin base top outpoint).2.1.content =
        Function.update (top.read base.content) outpoint none := by
  obtain ⟨keptBase, kept, entry, returned⟩ := FetchCoin_spec consistent outpoint
  have sameRead : (FetchCoin base top outpoint).2.2.read (FetchCoin base top outpoint).2.1.content =
      top.read base.content := kept.content
  cases fetched : (FetchCoin base top outpoint).1 with
  | none =>
      rw [SpendCoin_of_none fetched]
      rw [fetched] at returned
      refine ⟨keptBase, kept.consistent, ?_⟩
      rw [sameRead]
      exact (Function.update_eq_self_iff.mpr returned).symm
  | some found =>
      rw [SpendCoin_of_some fetched]
      rw [fetched] at entry
      obtain ⟨spentConsistent, spentRead⟩ := kept.consistent.2.spend entry
      refine ⟨keptBase, ⟨kept.consistent.1, spentConsistent⟩, ?_⟩
      rw [spentRead, sameRead]

/-- `Uncache` drops a clean entry only, which reads as the view below does. -/
theorem Consistent.uncache {below : COutPoint → Option Coin} {top : CCoinsViewCache}
    (consistent : top.Consistent below) (hash : COutPoint) :
    (top.Uncache hash).Consistent below ∧ (top.Uncache hash).read below = top.read below := by
  unfold CCoinsViewCache.Uncache
  cases cached : top.cacheCoins.find? hash with
  | none => exact ⟨consistent, rfl⟩
  | some entry =>
      simp only
      split
      · case isTrue flagless =>
          have clean : entry.dirty = false := by simp_all
          have erased := SortedMap.find?_erase_eq_update top.cacheCoins hash
          have shrunk := SortedMap.total_erase (fun entry => entry.coin.DynamicMemoryUsage) cached
          refine ⟨⟨?_, ?_, ?_, ?_, consistent.bestBlock⟩, ?_⟩
          · intro probe other stored marked
            rw [erased, Function.update_apply] at stored
            split at stored
            · cases stored
            · exact consistent.fresh probe other stored marked
          · intro probe other stored otherClean
            rw [erased, Function.update_apply] at stored
            split at stored
            · cases stored
            · exact consistent.clean probe other stored otherClean
          · intro probe other stored isSpent
            rw [erased, Function.update_apply] at stored
            split at stored
            · cases stored
            · exact consistent.cleared probe other stored isSpent
          · show top.cachedCoinsUsage - entry.coin.DynamicMemoryUsage =
              SortedMap.total _ (top.cacheCoins.erase hash)
            rw [consistent.usage, entryUsage]
            omega
          · funext probe
            by_cases here : probe = hash
            · subst here
              simp only [read, erased, Function.update_self, cached]
              exact (consistent.clean probe entry cached clean).symm
            · simp only [read, erased, Function.update_of_ne here]
      · exact ⟨consistent, rfl⟩

/-! ### Writing a child into its parent -/

/--
What the parent's invariant asks of a child entry at `outpoint`, with the
parent reading `parent` there: a fresh entry over nothing, a clean entry
equal to it, a spent coin cleared.
-/
structure ChildEntryFits (parent : Option Coin) (child : CCoinsCacheEntry) : Prop where
  fresh : child.fresh = true → parent = none
  clean : child.dirty = false → child.unspent? = parent
  cleared : child.coin.IsSpent = true → child.coin = Coin.cleared

/-- Each entry of a consistent child fits what its parent reads. -/
theorem Consistent.childEntryFits {below : COutPoint → Option Coin} {child : CCoinsViewCache}
    (consistent : child.Consistent below) {outpoint : COutPoint} {entry : CCoinsCacheEntry}
    (cached : child.cacheCoins.find? outpoint = some entry) :
    ChildEntryFits (below outpoint) entry :=
  ⟨consistent.fresh outpoint entry cached, consistent.clean outpoint entry cached,
    consistent.cleared outpoint entry cached⟩

/--
One iteration of the coin loop of `BatchWrite` into a consistent parent
never throws, keeps the parent consistent, makes it read the child's entry
at that outpoint and leaves every other outpoint alone.
-/
theorem Consistent.batchWriteCoin {below : COutPoint → Option Coin} {parent : CCoinsViewCache}
    (consistent : parent.Consistent below) {outpoint : COutPoint} {child : CCoinsCacheEntry}
    (fits : ChildEntryFits (parent.read below outpoint) child) :
    ∃ parent', parent.batchWriteCoin outpoint child = .ok parent' ∧ parent'.Consistent below ∧
      parent'.read below outpoint = child.unspent? ∧
      ∀ probe, probe ≠ outpoint → parent'.cacheCoins.find? probe = parent.cacheCoins.find? probe := by
  unfold CCoinsViewCache.batchWriteCoin
  by_cases dirty : child.dirty = false
  · rw [if_pos (by simp [dirty])]
    exact ⟨parent, rfl, consistent, (fits.clean dirty).symm, fun _ _ => rfl⟩
  rw [if_neg (by simpa using dirty)]
  have sameCoin : ∀ (dirty fresh : Bool),
      (⟨child.coin, dirty, fresh⟩ : CCoinsCacheEntry).unspent? = child.unspent? := fun _ _ => rfl
  cases ours : parent.cacheCoins.find? outpoint with
  | none =>
      simp only
      rw [read_of_miss ours] at fits
      by_cases dropped : (child.fresh && child.coin.IsSpent) = true
      · rw [if_pos dropped]
        simp only [Bool.and_eq_true] at dropped
        refine ⟨parent, rfl, consistent, ?_, fun _ _ => rfl⟩
        rw [read_of_miss ours, fits.fresh dropped.1, (unspent?_eq_none_iff child).mpr dropped.2]
      rw [if_neg dropped]
      have inserted := SortedMap.find?_insert_of_miss ours ⟨child.coin, true, child.fresh⟩
      have grown := SortedMap.total_insert (fun entry => entry.coin.DynamicMemoryUsage) ours
        ⟨child.coin, true, child.fresh⟩
      refine ⟨_, rfl, ⟨?_, ?_, ?_, ?_, consistent.bestBlock⟩, ?_, fun probe other => ?_⟩
      · intro probe entry stored marked
        rw [inserted, Function.update_apply] at stored
        split at stored
        · case isTrue here =>
            cases stored
            subst here
            exact fits.fresh marked
        · exact consistent.fresh probe entry stored marked
      · intro probe entry stored clean
        rw [inserted, Function.update_apply] at stored
        split at stored
        · cases stored
          cases clean
        · exact consistent.clean probe entry stored clean
      · intro probe entry stored isSpent
        rw [inserted, Function.update_apply] at stored
        split at stored
        · cases stored
          exact fits.cleared isSpent
        · exact consistent.cleared probe entry stored isSpent
      · show parent.cachedCoinsUsage + child.coin.DynamicMemoryUsage = SortedMap.total _ _
        rw [grown, consistent.usage, entryUsage]
      · show (match (parent.cacheCoins.insert outpoint ⟨child.coin, true, child.fresh⟩).find?
            outpoint with
          | some entry => entry.unspent?
          | none => below outpoint) = _
        rw [inserted, Function.update_self]
        exact sameCoin true child.fresh
      · show (parent.cacheCoins.insert outpoint ⟨child.coin, true, child.fresh⟩).find? probe = _
        rw [inserted, Function.update_of_ne other]
  | some entry =>
      simp only
      rw [read_of_find ours] at fits
      have parentSpent : child.fresh = true → entry.coin.IsSpent = true := fun marked =>
        (unspent?_eq_none_iff entry).mp (fits.fresh marked)
      rw [if_neg (by cases marked : child.fresh <;> simp_all)]
      have within := SortedMap.le_total (fun entry => entry.coin.DynamicMemoryUsage) ours
      by_cases pruned : (entry.fresh && child.coin.IsSpent) = true
      · rw [if_pos pruned]
        simp only [Bool.and_eq_true] at pruned
        have erased := SortedMap.find?_erase_eq_update parent.cacheCoins outpoint
        have shrunk := SortedMap.total_erase (fun entry => entry.coin.DynamicMemoryUsage) ours
        refine ⟨_, rfl, ⟨?_, ?_, ?_, ?_, consistent.bestBlock⟩, ?_, fun probe other => ?_⟩
        · intro probe other stored marked
          rw [erased, Function.update_apply] at stored
          split at stored
          · cases stored
          · exact consistent.fresh probe other stored marked
        · intro probe other stored clean
          rw [erased, Function.update_apply] at stored
          split at stored
          · cases stored
          · exact consistent.clean probe other stored clean
        · intro probe other stored isSpent
          rw [erased, Function.update_apply] at stored
          split at stored
          · cases stored
          · exact consistent.cleared probe other stored isSpent
        · show parent.cachedCoinsUsage - entry.coin.DynamicMemoryUsage =
            SortedMap.total (fun entry => entry.coin.DynamicMemoryUsage)
              (parent.cacheCoins.erase outpoint)
          rw [consistent.usage, entryUsage]
          omega
        · show (match (parent.cacheCoins.erase outpoint).find? outpoint with
            | some entry => entry.unspent?
            | none => below outpoint) = _
          rw [erased, Function.update_self, consistent.fresh outpoint entry ours pruned.1]
          exact ((unspent?_eq_none_iff child).mpr pruned.2).symm
        · show (parent.cacheCoins.erase outpoint).find? probe = _
          rw [erased, Function.update_of_ne other]
      · rw [if_neg pruned]
        have assigned := SortedMap.find?_assign_of_find ours ⟨child.coin, true, entry.fresh⟩
        have replaced := SortedMap.total_assign (fun entry => entry.coin.DynamicMemoryUsage) ours
          ⟨child.coin, true, entry.fresh⟩
        refine ⟨_, rfl, ⟨?_, ?_, ?_, ?_, consistent.bestBlock⟩, ?_, fun probe other => ?_⟩
        · intro probe other stored marked
          rw [assigned, Function.update_apply] at stored
          split at stored
          · case isTrue here =>
              cases stored
              subst here
              exact consistent.fresh probe entry ours marked
          · exact consistent.fresh probe other stored marked
        · intro probe other stored clean
          rw [assigned, Function.update_apply] at stored
          split at stored
          · cases stored
            cases clean
          · exact consistent.clean probe other stored clean
        · intro probe other stored isSpent
          rw [assigned, Function.update_apply] at stored
          split at stored
          · cases stored
            exact fits.cleared isSpent
          · exact consistent.cleared probe other stored isSpent
        · show parent.cachedCoinsUsage - entry.coin.DynamicMemoryUsage +
            child.coin.DynamicMemoryUsage =
              SortedMap.total (fun entry => entry.coin.DynamicMemoryUsage)
                (parent.cacheCoins.assign outpoint ⟨child.coin, true, entry.fresh⟩)
          dsimp only at replaced
          rw [consistent.usage, entryUsage]
          omega
        · show (match (parent.cacheCoins.assign outpoint ⟨child.coin, true, entry.fresh⟩).find?
              outpoint with
            | some entry => entry.unspent?
            | none => below outpoint) = _
          rw [assigned, Function.update_self]
          exact sameCoin true entry.fresh
        · show (parent.cacheCoins.assign outpoint ⟨child.coin, true, entry.fresh⟩).find? probe = _
          rw [assigned, Function.update_of_ne other]

/--
The coin loop of `BatchWrite` over entries of distinct outpoints that fit
the parent: it never throws, and afterwards the parent reads each entry's
coin at its outpoint and what it read before elsewhere.
-/
theorem Consistent.batchWriteCoins {below : COutPoint → Option Coin} :
    ∀ (entries : List (COutPoint × CCoinsCacheEntry)), (entries.map Prod.fst).Nodup →
      ∀ (parent : CCoinsViewCache), parent.Consistent below →
      (∀ outpoint entry, findList? outpoint entries = some entry →
        ChildEntryFits (parent.read below outpoint) entry) →
      ∃ parent', entries.foldlM (fun current entry => current.batchWriteCoin entry.1 entry.2)
          parent = .ok parent' ∧ parent'.Consistent below ∧
        ∀ outpoint, parent'.read below outpoint =
          (findList? outpoint entries).elim (parent.read below outpoint) CCoinsCacheEntry.unspent?
  | [], _, parent, consistent, _ => ⟨parent, rfl, consistent, fun _ => rfl⟩
  | (outpoint, child) :: rest, distinct, parent, consistent, fits => by
      rw [List.map_cons, List.nodup_cons] at distinct
      have first := fits outpoint child (by simp [findList?_cons])
      obtain ⟨next, written, nextConsistent, here, elsewhere⟩ := consistent.batchWriteCoin first
      have untouched : ∀ probe, probe ∈ rest.map Prod.fst →
          next.read below probe = parent.read below probe := fun probe member =>
        read_congr (elsewhere probe fun same => distinct.1 (same ▸ member))
      obtain ⟨final, run, finalConsistent, reads⟩ := Consistent.batchWriteCoins rest distinct.2
        next nextConsistent fun probe entry found => by
          have member := findList?_isSome_iff.mp (by rw [found]; rfl)
          rw [untouched probe member]
          have other : outpoint ≠ probe := fun same => distinct.1 (same ▸ member)
          exact fits probe entry (by rw [findList?_cons, if_neg other]; exact found)
      refine ⟨final, ?_, finalConsistent, fun probe => ?_⟩
      · rw [List.foldlM_cons, written]
        exact run
      · rw [reads probe, findList?_cons]
        by_cases same : outpoint = probe
        · subst same
          rw [findList?_eq_none_of_not_mem distinct.1, if_pos rfl]
          exact here
        · rw [if_neg same]
          cases findList? probe rest with
          | none =>
              exact read_congr (elsewhere probe (Ne.symm same))
          | some entry => rfl

/-- `BatchWrite` of a consistent child into its consistent parent. -/
theorem Consistent.BatchWrite {below : COutPoint → Option Coin} {parent child : CCoinsViewCache}
    (consistent : parent.Consistent below) (childConsistent : child.Consistent (parent.read below)) :
    ∃ parent', parent.BatchWrite child.cacheCoins child.hashBlock child.cacheNames = .ok parent' ∧
      parent'.Consistent below ∧ parent'.read below = child.read (parent.read below) := by
  obtain ⟨written, run, writtenConsistent, reads⟩ := consistent.batchWriteCoins
    child.cacheCoins.toList child.cacheCoins.nodupKeys parent
    fun outpoint entry found => childConsistent.childEntryFits found
  refine ⟨{ written with
      hashBlock := child.hashBlock
      cacheNames := written.cacheNames.apply child.cacheNames }, ?_,
    ⟨writtenConsistent.fresh, writtenConsistent.clean, writtenConsistent.cleared,
      writtenConsistent.usage, childConsistent.bestBlock⟩, ?_⟩
  · unfold CCoinsViewCache.BatchWrite
    rw [run]
    rfl
  · funext outpoint
    show written.read below outpoint = _
    have lookup : findList? outpoint child.cacheCoins.toList = child.cacheCoins.find? outpoint := rfl
    rw [reads outpoint, lookup]
    cases found : child.cacheCoins.find? outpoint with
    | none => rw [read_of_miss found]; rfl
    | some entry => rw [read_of_find found]; rfl

end CCoinsViewCache

/-! ### Writing into the database -/

namespace CCoinsViewDB

/-- One entry of the coin loop of the database's `BatchWrite`, for an entry that fits it. -/
theorem writeCoin_find? (coins : SortedMap COutPoint Coin unordered) {outpoint : COutPoint}
    {entry : CCoinsCacheEntry} (clean : entry.dirty = false → entry.unspent? = coins.find? outpoint) :
    (if !entry.dirty then coins
      else if entry.coin.IsSpent then coins.erase outpoint
      else coins.put outpoint entry.coin).find? =
        Function.update coins.find? outpoint entry.unspent? := by
  by_cases dirty : entry.dirty = false
  · rw [if_pos (by simp [dirty]), clean dirty, Function.update_eq_self]
  rw [if_neg (by simpa using dirty)]
  by_cases spent : entry.coin.IsSpent = true
  · rw [if_pos spent, SortedMap.find?_erase_eq_update,
      (CCoinsViewCache.unspent?_eq_none_iff entry).mpr spent]
  · rw [if_neg spent, SortedMap.find?_put]
    simp [CCoinsCacheEntry.unspent?, spent]

/--
The coin loop of the database's `BatchWrite` over entries of distinct
outpoints whose clean entries agree with it: afterwards it holds each
entry's coin, if unspent, and what it held before elsewhere.
-/
theorem writeCoins_find? :
    ∀ (entries : List (COutPoint × CCoinsCacheEntry)), (entries.map Prod.fst).Nodup →
      ∀ (coins : SortedMap COutPoint Coin unordered),
      (∀ outpoint entry, findList? outpoint entries = some entry →
        entry.dirty = false → entry.unspent? = coins.find? outpoint) →
      ∀ outpoint,
        (entries.foldl
          (fun current entry =>
            if !entry.2.dirty then current
            else if entry.2.coin.IsSpent then current.erase entry.1
            else current.put entry.1 entry.2.coin)
          coins).find? outpoint =
          (findList? outpoint entries).elim (coins.find? outpoint) CCoinsCacheEntry.unspent?
  | [], _, coins, _, _ => rfl
  | (written, entry) :: rest, distinct, coins, clean, outpoint => by
      rw [List.map_cons, List.nodup_cons] at distinct
      have first := writeCoin_find? coins (clean written entry (by simp [findList?_cons]))
      rw [List.foldl_cons]
      rw [writeCoins_find? rest distinct.2 _ (fun probe later found notDirty => by
        have member := findList?_isSome_iff.mp (by rw [found]; rfl)
        have other : written ≠ probe := fun same => distinct.1 (same ▸ member)
        rw [first, Function.update_of_ne (Ne.symm other)]
        exact clean probe later (by rw [findList?_cons, if_neg other]; exact found) notDirty)]
      rw [first, findList?_cons]
      by_cases same : written = outpoint
      · subst same
        rw [findList?_eq_none_of_not_mem distinct.1, if_pos rfl, Function.update_self]
        rfl
      · rw [if_neg same, Function.update_of_ne (Ne.symm same)]

/-- The database's `BatchWrite` of a consistent cache over it. -/
theorem Consistent.BatchWrite {db : CCoinsViewDB} (consistent : db.Consistent)
    {child : CCoinsViewCache} (childConsistent : child.Consistent db.coins.find?) :
    ∃ db', db.BatchWrite child.cacheCoins child.hashBlock child.cacheNames = .ok db' ∧
      db'.Consistent ∧ db'.coins.find? = child.read db.coins.find? := by
  have written := writeCoins_find? child.cacheCoins.toList child.cacheCoins.nodupKeys db.coins
    fun outpoint entry found => childConsistent.clean outpoint entry found
  unfold CCoinsViewDB.BatchWrite
  rw [if_neg childConsistent.bestBlock, if_neg (fun interrupted =>
    consistent.settled ⟨interrupted.1, interrupted.2.1⟩)]
  have reads : ∀ outpoint, (child.cacheCoins.toList.foldl
      (fun current entry =>
        if !entry.2.dirty then current
        else if entry.2.coin.IsSpent then current.erase entry.1
        else current.put entry.1 entry.2.coin)
      db.coins).find? outpoint = child.read db.coins.find? outpoint := fun outpoint => by
    rw [written outpoint]
    have lookup : findList? outpoint child.cacheCoins.toList =
        child.cacheCoins.find? outpoint := rfl
    rw [lookup]
    cases found : child.cacheCoins.find? outpoint with
    | none => rw [CCoinsViewCache.read_of_miss found]; rfl
    | some entry => rw [CCoinsViewCache.read_of_find found]; rfl
  refine ⟨_, rfl, ⟨fun outpoint coin found => ?_, fun interrupted => childConsistent.bestBlock
    interrupted.1⟩, funext reads⟩
  have through : (CCoinsView.cache (.db db) child).content outpoint = some coin := by
    show child.read db.coins.find? outpoint = some coin
    rw [← reads outpoint]
    exact found
  exact @CCoinsView.Consistent.content_unspent (.cache (.db db) child)
    ⟨consistent, childConsistent⟩ outpoint coin through

end CCoinsViewDB

/-! ### Flushing -/

/-- `BatchWrite` of a consistent cache into the consistent view below it. -/
theorem CCoinsView.Consistent.BatchWrite :
    ∀ {base : CCoinsView}, base.Consistent → ∀ {child : CCoinsViewCache},
      child.Consistent base.content →
      ∃ base', base.BatchWrite child.cacheCoins child.hashBlock child.cacheNames = .ok base' ∧
        base'.Consistent ∧ base'.content = child.read base.content ∧ base'.depth = base.depth
  | .db store, consistent, child, childConsistent => by
      obtain ⟨store', written, writtenConsistent, reads⟩ :=
        CCoinsViewDB.Consistent.BatchWrite consistent childConsistent
      refine ⟨.db store', ?_, writtenConsistent, reads, rfl⟩
      show CCoinsView.db <$> store.BatchWrite child.cacheCoins child.hashBlock child.cacheNames = _
      rw [written]
      rfl
  | .cache below parent, consistent, child, childConsistent => by
      obtain ⟨parent', written, writtenConsistent, reads⟩ :=
        consistent.2.BatchWrite childConsistent
      refine ⟨.cache below parent', ?_, ⟨consistent.1, writtenConsistent⟩, reads, rfl⟩
      show CCoinsView.cache below <$>
        parent.BatchWrite child.cacheCoins child.hashBlock child.cacheNames = _
      rw [written]
      rfl

/-- A cache emptied by `Flush`. -/
def CCoinsViewCache.flushed (cache : CCoinsViewCache) : CCoinsViewCache :=
  { cache with
    cacheCoins := .empty
    cachedCoinsUsage := 0
    cacheNames := .initial }

/-- A cache with no coins, accounting for none, and a best block is consistent over any view. -/
theorem CCoinsViewCache.consistent_of_empty {cache : CCoinsViewCache}
    (empty : cache.cacheCoins = .empty) (unused : cache.cachedCoinsUsage = 0)
    (best : cache.hashBlock ≠ 0) (below : COutPoint → Option Coin) : cache.Consistent below where
  fresh _ _ found := by rw [empty] at found; cases found
  clean _ _ found := by rw [empty] at found; cases found
  cleared _ _ found := by rw [empty] at found; cases found
  usage := by rw [unused, entryUsage, empty]; rfl
  bestBlock := best

/-- What an empty cache reads is the view below. -/
theorem CCoinsViewCache.read_of_empty {cache : CCoinsViewCache} (empty : cache.cacheCoins = .empty)
    (below : COutPoint → Option Coin) : cache.read below = below := by
  funext outpoint
  rw [read, empty, SortedMap.find?_empty]

/--
`Flush` of a cache in a consistent stack writes it into the view below,
which then holds what the cache read, and empties it; no error is raised.
-/
theorem CCoinsViewCache.Flush_spec {base : CCoinsView} {top : CCoinsViewCache}
    (consistent : (CCoinsView.cache base top).Consistent) :
    ∃ base', Flush base top = .ok (true, base', top.flushed) ∧
      base'.content = top.read base.content ∧ base'.depth = base.depth ∧
      (CCoinsView.cache base top).Keeps (.cache base' top.flushed) := by
  obtain ⟨base', written, baseConsistent, reads, depth⟩ := consistent.1.BatchWrite consistent.2
  refine ⟨base', ?_, reads, depth,
    ⟨⟨baseConsistent, @consistent_of_empty top.flushed rfl rfl consistent.2.bestBlock _⟩, ?_,
      by simp [CCoinsView.depth, depth]⟩⟩
  · unfold Flush
    rw [if_neg (fun nothing => consistent.2.bestBlock nothing.1), written]
    rfl
  · show top.flushed.read base'.content = top.read base.content
    rw [read_of_empty rfl, reads]

/-! ## Runs of operations on a stack -/

/-- What a stack of caches is for: a number of layers and one map of unspent coins. -/
structure CoinsModel where
  depth : Nat
  coins : COutPoint → Option Coin

/-- The map a view stands for. -/
def CCoinsView.abstract (view : CCoinsView) : CoinsModel :=
  ⟨view.depth, view.content⟩

/-- A stack that keeps what it held, with one layer kept as it was on top. -/
theorem CCoinsView.Keeps.cache {base base' : CCoinsView} (kept : base.Keeps base')
    {top : CCoinsViewCache} (consistent : (CCoinsView.cache base top).Consistent) :
    (CCoinsView.cache base top).Keeps (.cache base' top) where
  consistent := ⟨kept.consistent, kept.content ▸ consistent.2⟩
  content := by simp only [CCoinsView.content, kept.content]
  depth := by simp only [CCoinsView.depth, kept.depth]

/-- Keeping what a stack holds keeps the map it stands for. -/
theorem CCoinsView.Keeps.abstract {view view' : CCoinsView} (kept : view.Keeps view') :
    view'.abstract = view.abstract := by
  rw [CCoinsView.abstract, CCoinsView.abstract, kept.content, kept.depth]

/-- Apply an operation of a cache to the layer `layer` below the top of a view. -/
def CCoinsView.atLayer
    (update : CCoinsView → CCoinsViewCache → Except Abort (CCoinsView × CCoinsViewCache)) :
    Nat → CCoinsView → Except Abort CCoinsView
  | _, .db _ => .error .assertFailure
  | 0, .cache base top => (fun updated => .cache updated.1 updated.2) <$> update base top
  | layer + 1, .cache base top => (fun base' => .cache base' top) <$> atLayer update layer base

/-- An operation that keeps what a consistent layer holds keeps it at any layer. -/
theorem CCoinsView.atLayer_keeps
    {update : CCoinsView → CCoinsViewCache → Except Abort (CCoinsView × CCoinsViewCache)}
    (keeps : ∀ base top, (CCoinsView.cache base top).Consistent →
      ∃ updated, update base top = .ok updated ∧
        (CCoinsView.cache base top).Keeps (.cache updated.1 updated.2)) :
    ∀ (view : CCoinsView) (layer : Nat), layer < view.depth → view.Consistent →
      ∃ view', view.atLayer update layer = .ok view' ∧ view.Keeps view'
  | .db _, _, inside, _ => absurd inside (Nat.not_lt_zero _)
  | .cache base top, 0, _, consistent => by
      obtain ⟨updated, run, kept⟩ := keeps base top consistent
      refine ⟨_, ?_, kept⟩
      rw [atLayer, run]
      rfl
  | .cache base top, layer + 1, inside, consistent => by
      obtain ⟨base', run, kept⟩ := atLayer_keeps keeps base layer
        (by simp only [depth] at inside; omega) consistent.1
      refine ⟨_, ?_, kept.cache consistent⟩
      rw [atLayer, run]
      rfl

/--
The operations of `coins_cache_simulation_test` on a stack of caches: the
reads, `AddCoin` and `SpendCoin` on the top cache, `Uncache` and `Flush` of
any layer (counted from the top), removing the top layer after flushing it,
and putting a new cache with a best block on top.
-/
inductive CoinOp where
  | AddCoin (outpoint : COutPoint) (coin : Coin) (possibleOverwrite : Bool)
  | SpendCoin (outpoint : COutPoint)
  | GetCoin (outpoint : COutPoint)
  | AccessCoin (outpoint : COutPoint)
  | HaveCoin (outpoint : COutPoint)
  | Uncache (layer : Nat) (outpoint : COutPoint)
  | Flush (layer : Nat)
  | Pop
  | Push (hashBlock : uint256)
deriving DecidableEq, Repr

/-- One operation on a stack; the top-layer ones need a cache on top. -/
def CoinOp.apply : CoinOp → CCoinsView → Except Abort CCoinsView
  | .Uncache layer outpoint, view =>
      view.atLayer (fun base top => .ok (base, top.Uncache outpoint)) layer
  | .Flush layer, view =>
      view.atLayer (fun base top => (fun flushed => flushed.2) <$> top.Flush base) layer
  | .Push hashBlock, view => .ok (.cache view { CCoinsViewCache.initial with hashBlock })
  | .AddCoin outpoint coin possibleOverwrite, .cache base top =>
      CCoinsView.cache base <$> top.AddCoin outpoint coin possibleOverwrite
  | .SpendCoin outpoint, .cache base top =>
      let spent := CCoinsViewCache.SpendCoin base top outpoint
      .ok (.cache spent.2.1 spent.2.2)
  | .GetCoin outpoint, .cache base top =>
      let got := CCoinsViewCache.GetCoin base top outpoint
      .ok (.cache got.2.1 got.2.2)
  | .AccessCoin outpoint, .cache base top =>
      let accessed := CCoinsViewCache.AccessCoin base top outpoint
      .ok (.cache accessed.2.1 accessed.2.2)
  | .HaveCoin outpoint, .cache base top =>
      let had := CCoinsViewCache.HaveCoin base top outpoint
      .ok (.cache had.2.1 had.2.2)
  | .Pop, .cache base top => (fun flushed => flushed.2.1) <$> top.Flush base
  | _, .db _ => .error .assertFailure

/-- A run of operations, stopping at the first error. -/
def runCoinOps (view : CCoinsView) (ops : List CoinOp) : Except Abort CCoinsView :=
  ops.foldlM (fun view op => op.apply view) view

/-! ### The map a stack stands for -/

namespace CoinOp

/--
When an operation may run: the top-layer ones on a stack with a layer, a
layer that exists, a new layer with a best block, and `AddCoin` under its
contract: an unspent coin, and no overwrite only where no coin is held.
-/
def Valid (model : CoinsModel) : CoinOp → Prop
  | .AddCoin outpoint coin possibleOverwrite =>
      0 < model.depth ∧ coin.IsSpent = false ∧
        (possibleOverwrite = false → model.coins outpoint = none)
  | .SpendCoin _ | .GetCoin _ | .AccessCoin _ | .HaveCoin _ | .Pop => 0 < model.depth
  | .Uncache layer _ | .Flush layer => layer < model.depth
  | .Push hashBlock => hashBlock ≠ 0

/-- What an operation does to the map: an unspendable coin is never stored. -/
def step (model : CoinsModel) : CoinOp → CoinsModel
  | .AddCoin outpoint coin _ =>
      if isUnspendable coin.out.scriptPubKey = true then model
      else { model with coins := Function.update model.coins outpoint (some coin) }
  | .SpendCoin outpoint => { model with coins := Function.update model.coins outpoint none }
  | .Pop => { model with depth := model.depth - 1 }
  | .Push _ => { model with depth := model.depth + 1 }
  | _ => model

/-- Every operation of a run may run where it stands. -/
def ValidRun : CoinsModel → List CoinOp → Prop
  | _, [] => True
  | model, op :: rest => op.Valid model ∧ ValidRun (op.step model) rest

instance decidableValid (model : CoinsModel) : (op : CoinOp) → Decidable (op.Valid model)
  | .AddCoin outpoint coin possibleOverwrite =>
      inferInstanceAs (Decidable (0 < model.depth ∧ coin.IsSpent = false ∧
        (possibleOverwrite = false → model.coins outpoint = none)))
  | .SpendCoin _ | .GetCoin _ | .AccessCoin _ | .HaveCoin _ | .Pop =>
      inferInstanceAs (Decidable (0 < model.depth))
  | .Uncache layer _ | .Flush layer => inferInstanceAs (Decidable (layer < model.depth))
  | .Push hashBlock => inferInstanceAs (Decidable (hashBlock ≠ 0))

instance decidableValidRun : (model : CoinsModel) → (ops : List CoinOp) →
    Decidable (ValidRun model ops)
  | _, [] => isTrue trivial
  | model, op :: rest =>
      have := decidableValidRun (op.step model) rest
      inferInstanceAs (Decidable (op.Valid model ∧ ValidRun (op.step model) rest))

/-- One operation on a consistent stack is one step of the map it stands for. -/
theorem apply_refines {view : CCoinsView} (consistent : view.Consistent) {op : CoinOp}
    (valid : op.Valid view.abstract) :
    ∃ view', op.apply view = .ok view' ∧ view'.Consistent ∧
      view'.abstract = op.step view.abstract := by
  cases op with
  | Uncache layer outpoint =>
      obtain ⟨view', run, kept⟩ := CCoinsView.atLayer_keeps
        (fun base top consistent => ⟨(base, top.Uncache outpoint), rfl,
          ⟨⟨consistent.1, (consistent.2.uncache outpoint).1⟩,
            by simp only [CCoinsView.content, (consistent.2.uncache outpoint).2], rfl⟩⟩)
        view layer valid consistent
      exact ⟨view', run, kept.consistent, kept.abstract⟩
  | Flush layer =>
      obtain ⟨view', run, kept⟩ := @CCoinsView.atLayer_keeps
        (fun base top => (fun flushed => flushed.2) <$> top.Flush base)
        (fun base top consistent => by
          obtain ⟨base', flushed, _, _, kept⟩ := CCoinsViewCache.Flush_spec consistent
          refine ⟨(base', top.flushed), ?_, kept⟩
          rw [flushed]
          rfl)
        view layer valid consistent
      exact ⟨view', run, kept.consistent, kept.abstract⟩
  | Push hashBlock =>
      refine ⟨_, rfl, ⟨consistent, @CCoinsViewCache.consistent_of_empty
        { CCoinsViewCache.initial with hashBlock } rfl rfl valid _⟩, ?_⟩
      simp only [CCoinsView.abstract, CCoinsView.depth, CCoinsView.content,
        CCoinsViewCache.read_of_empty (show ({ CCoinsViewCache.initial with hashBlock } :
          CCoinsViewCache).cacheCoins = .empty from rfl), step]
  | AddCoin outpoint coin possibleOverwrite =>
      cases view with
      | db _ => exact absurd valid.1 (Nat.lt_irrefl 0)
      | cache base top =>
          obtain ⟨top', run, consistent', reads⟩ :=
            CCoinsViewCache.AddCoin_spec consistent.2 valid.2.1 valid.2.2
          refine ⟨.cache base top', ?_, ⟨consistent.1, consistent'⟩, ?_⟩
          · show CCoinsView.cache base <$> top.AddCoin outpoint coin possibleOverwrite = _
            rw [run]
            rfl
          · simp only [CCoinsView.abstract, CCoinsView.content, CCoinsView.depth, step, reads]
            split <;> rfl
  | SpendCoin outpoint =>
      cases view with
      | db _ => exact absurd valid (Nat.lt_irrefl 0)
      | cache base top =>
          obtain ⟨keptBase, consistent', reads⟩ := CCoinsViewCache.SpendCoin_spec consistent outpoint
          refine ⟨_, rfl, consistent', ?_⟩
          simp only [CCoinsView.abstract, CCoinsView.content, CCoinsView.depth, step, reads,
            keptBase.depth]
  | GetCoin outpoint =>
      cases view with
      | db _ => exact absurd valid (Nat.lt_irrefl 0)
      | cache base top =>
          obtain ⟨_, kept, _⟩ := CCoinsViewCache.FetchCoin_spec consistent outpoint
          exact ⟨_, rfl, kept.consistent, kept.abstract⟩
  | AccessCoin outpoint =>
      cases view with
      | db _ => exact absurd valid (Nat.lt_irrefl 0)
      | cache base top =>
          obtain ⟨_, kept, _⟩ := CCoinsViewCache.FetchCoin_spec consistent outpoint
          exact ⟨_, rfl, kept.consistent, kept.abstract⟩
  | HaveCoin outpoint =>
      cases view with
      | db _ => exact absurd valid (Nat.lt_irrefl 0)
      | cache base top =>
          obtain ⟨_, kept, _⟩ := CCoinsViewCache.FetchCoin_spec consistent outpoint
          exact ⟨_, rfl, kept.consistent, kept.abstract⟩
  | Pop =>
      cases view with
      | db _ => exact absurd valid (Nat.lt_irrefl 0)
      | cache base top =>
          obtain ⟨base', flushed, reads, depth, kept⟩ := CCoinsViewCache.Flush_spec consistent
          refine ⟨base', ?_, kept.consistent.1, ?_⟩
          · show (fun flushed => flushed.2.1) <$> top.Flush base = _
            rw [flushed]
            rfl
          · simp only [CCoinsView.abstract, CCoinsView.content, CCoinsView.depth, step, reads,
              depth, Nat.add_sub_cancel]

end CoinOp

/-- A run of valid operations on a consistent stack is the run of the map it stands for. -/
theorem runCoinOps_refines :
    ∀ (ops : List CoinOp) (view : CCoinsView), view.Consistent →
      CoinOp.ValidRun view.abstract ops →
      ∃ view', runCoinOps view ops = .ok view' ∧ view'.Consistent ∧
        view'.abstract = ops.foldl CoinOp.step view.abstract
  | [], view, consistent, _ => ⟨view, rfl, consistent, rfl⟩
  | op :: rest, view, consistent, ⟨valid, validRest⟩ => by
      obtain ⟨next, run, nextConsistent, stepped⟩ := CoinOp.apply_refines consistent valid
      rw [← stepped] at validRest
      obtain ⟨final, finalRun, finalConsistent, finalAbstract⟩ :=
        runCoinOps_refines rest next nextConsistent validRest
      refine ⟨final, ?_, finalConsistent, ?_⟩
      · rw [runCoinOps, List.foldlM_cons, run]
        exact finalRun
      · rw [List.foldl_cons, ← stepped]
        exact finalAbstract

/-- Removing `n` layers, each after flushing it, may run on a stack of at least `n` layers. -/
theorem CoinOp.validRun_pops :
    ∀ (n : Nat) (model : CoinsModel), n ≤ model.depth →
      ValidRun model (List.replicate n .Pop) ∧
        (List.replicate n CoinOp.Pop).foldl step model = ⟨model.depth - n, model.coins⟩
  | 0, _, _ => ⟨trivial, rfl⟩
  | n + 1, model, inside => by
      obtain ⟨valid, final⟩ := validRun_pops n ⟨model.depth - 1, model.coins⟩
        (by simp only; omega)
      refine ⟨⟨show 0 < model.depth by omega, valid⟩, ?_⟩
      rw [List.replicate_succ, List.foldl_cons]
      simp only [step] at final ⊢
      rw [final]
      congr 1
      omega

/-- Flushing and removing every layer of a consistent stack leaves what it held in the database. -/
theorem CCoinsView.Consistent.popAll {view : CCoinsView} (consistent : view.Consistent) :
    ∃ store, runCoinOps view (List.replicate view.depth .Pop) = .ok (.db store) ∧
      store.coins.find? = view.content := by
  obtain ⟨valid, popped⟩ := CoinOp.validRun_pops view.depth view.abstract (Nat.le_refl _)
  obtain ⟨final, run, _, finalAbstract⟩ :=
    runCoinOps_refines _ view consistent valid
  rw [popped] at finalAbstract
  cases final with
  | db store =>
      refine ⟨store, run, ?_⟩
      have held := congrArg CoinsModel.coins finalAbstract
      exact held
  | cache base top =>
      have depth := congrArg CoinsModel.depth finalAbstract
      simp only [CCoinsView.abstract, CCoinsView.depth, Nat.sub_self] at depth
      omega

/-- Every layer of a consistent stack accounts exactly for the memory of its coins. -/
theorem CCoinsView.Consistent.layers_usage :
    ∀ {view : CCoinsView}, view.Consistent → ∀ layer ∈ view.layers,
      layer.cachedCoinsUsage =
        (layer.cacheCoins.toList.map fun entry => entry.2.coin.DynamicMemoryUsage).sum
  | .db _, _, _, member => by cases member
  | .cache _ top, consistent, layer, member => by
      rcases List.mem_cons.mp member with same | below
      · subst same
        exact consistent.2.usage
      · exact consistent.1.layers_usage layer below

/--
A stack of coin caches over the database, each layer consistent with the
views below it, behaves as one map under any run of valid operations: no
error is raised, reads through the top cache are those of the map, each
layer accounts exactly for the memory of its coins, and flushing every
layer leaves exactly the map in the database.
-/
theorem coin_cache_stack_refines_map (view : CCoinsView) (consistent : view.Consistent)
    (ops : List CoinOp) (valid : CoinOp.ValidRun view.abstract ops) :
    ∃ view', runCoinOps view ops = .ok view' ∧
      view'.depth = (ops.foldl CoinOp.step view.abstract).depth ∧
      (∀ base top, view' = .cache base top → ∀ outpoint,
        (CCoinsViewCache.GetCoin base top outpoint).1 =
            (ops.foldl CoinOp.step view.abstract).coins outpoint ∧
          (CCoinsViewCache.AccessCoin base top outpoint).1 =
            ((ops.foldl CoinOp.step view.abstract).coins outpoint).getD Coin.cleared ∧
          (CCoinsViewCache.HaveCoin base top outpoint).1 =
            ((ops.foldl CoinOp.step view.abstract).coins outpoint).isSome) ∧
      (∀ layer ∈ view'.layers, layer.cachedCoinsUsage =
        (layer.cacheCoins.toList.map fun entry => entry.2.coin.DynamicMemoryUsage).sum) ∧
      ∃ store, runCoinOps view' (List.replicate view'.depth .Pop) = .ok (.db store) ∧
        store.coins.find? = (ops.foldl CoinOp.step view.abstract).coins := by
  obtain ⟨view', run, consistent', abstract'⟩ := runCoinOps_refines ops view consistent valid
  have content : view'.content = (ops.foldl CoinOp.step view.abstract).coins := by
    rw [← abstract']
    rfl
  refine ⟨view', run, by rw [← abstract']; rfl, fun base top shape outpoint => ?_,
    consistent'.layers_usage, ?_⟩
  · subst shape
    obtain ⟨got, accessed, had⟩ := CCoinsViewCache.reads_spec consistent' outpoint
    rw [← content]
    exact ⟨got, accessed, had⟩
  · obtain ⟨store, popped, held⟩ := consistent'.popAll
    exact ⟨store, popped, held.trans content⟩

/--
One cache with a best block over an empty database: a coin added, a second
cache put on top, the coin spent there, the lower cache flushed, the top
one flushed and removed.
-/
theorem coin_cache_stack_refines_map_twoLayers :
    let view : CCoinsView :=
      .cache (.db ⟨.empty, .empty, 1, []⟩) { CCoinsViewCache.initial with hashBlock := 1 }
    let ops := [CoinOp.AddCoin ⟨7, 0⟩ ⟨⟨50, []⟩, false, 1⟩ false, .Push 2,
      .SpendCoin ⟨7, 0⟩, .Flush 1, .Pop]
    (view.Consistent ∧ CoinOp.ValidRun view.abstract ops) ∧
    ∃ view', runCoinOps view ops = .ok view' ∧
      view'.depth = (ops.foldl CoinOp.step view.abstract).depth ∧
      (∀ base top, view' = .cache base top → ∀ outpoint,
        (CCoinsViewCache.GetCoin base top outpoint).1 =
            (ops.foldl CoinOp.step view.abstract).coins outpoint ∧
          (CCoinsViewCache.AccessCoin base top outpoint).1 =
            ((ops.foldl CoinOp.step view.abstract).coins outpoint).getD Coin.cleared ∧
          (CCoinsViewCache.HaveCoin base top outpoint).1 =
            ((ops.foldl CoinOp.step view.abstract).coins outpoint).isSome) ∧
      (∀ layer ∈ view'.layers, layer.cachedCoinsUsage =
        (layer.cacheCoins.toList.map fun entry => entry.2.coin.DynamicMemoryUsage).sum) ∧
      ∃ store, runCoinOps view' (List.replicate view'.depth .Pop) = .ok (.db store) ∧
        store.coins.find? = (ops.foldl CoinOp.step view.abstract).coins :=
  have consistent : (CCoinsView.cache (.db ⟨.empty, .empty, 1, []⟩)
      { CCoinsViewCache.initial with hashBlock := 1 }).Consistent :=
    ⟨⟨(fun _ _ found => by cases found), by decide⟩,
      CCoinsViewCache.consistent_of_empty rfl rfl (by decide) _⟩
  have valid := (by decide : CoinOp.ValidRun (CCoinsView.cache (.db ⟨.empty, .empty, 1, []⟩)
      { CCoinsViewCache.initial with hashBlock := 1 }).abstract
    [CoinOp.AddCoin ⟨7, 0⟩ ⟨⟨50, []⟩, false, 1⟩ false, .Push 2, .SpendCoin ⟨7, 0⟩, .Flush 1, .Pop])
  ⟨⟨consistent, valid⟩, coin_cache_stack_refines_map _ consistent _ valid⟩

/--
A cache whose best block is null, over the database: after a coin is
added, flushing it fails the database's assert that a best block is set.
-/
theorem flush_without_best_block_aborts :
    runCoinOps (.cache (.db ⟨.empty, .empty, 1, []⟩) CCoinsViewCache.initial)
      [.AddCoin ⟨7, 0⟩ ⟨⟨50, []⟩, false, 1⟩ false, .Pop] = .error .assertFailure := by
  rfl

end Kevacoin
