import Kevacoin.Validation.ConnectBlock
import Kevacoin.Coins.Stack
import Mathlib.Data.List.Nodup

/-!
# Disconnecting a block undoes its coins

`UpdateCoins` spends the inputs of a transaction, recording the coins in
its `CTxUndo`, and then adds its outputs; `DisconnectBlock` walks the
transactions back, last first, spending the outputs again and putting the
recorded coins back with `ApplyTxInUndo`, last input first.

The argument is made on the map of unspent coins a view holds
(`CCoinsView.content`).  What `UpdateCoins` does to it is `applyTx`; the
conditions under which it does so without an error and can be undone are
`TxConnects`; a run of `connectCoins` over a block realises `applyBlock`
(`connectCoins_spec`).  Undoing one transaction goes back from `applyTx`
to the map before it, so a disconnect list whose entries undo the block's
transactions last first (`UndoChain`) comes back to the map before the
block (`disconnectTransactions_spec`).

The coin operations never read a best block, and `Consistent` asks every
layer for one only because flushing into the database does; the results
here hold of every view whose layers keep the coin invariant
(`CCoinsView.CoinsConsistent`).
-/

namespace Kevacoin

open SortedAssoc CCoinsViewCache

/-! ## Best blocks are not read -/

namespace CCoinsViewCache

/-- The cache with a best block set. -/
def settle (cache : CCoinsViewCache) : CCoinsViewCache :=
  { cache with hashBlock := 1 }

theorem read_settle (cache : CCoinsViewCache) : cache.settle.read = cache.read := rfl

theorem fetchMiss_settle (cache : CCoinsViewCache) (outpoint : COutPoint)
    (answer : Option Coin) :
    cache.settle.fetchMiss outpoint answer =
      ((cache.fetchMiss outpoint answer).1, (cache.fetchMiss outpoint answer).2.settle) := by
  cases answer <;> rfl

end CCoinsViewCache

namespace CCoinsView

/-- The view with a best block set in every layer and in the database. -/
def settle : CCoinsView → CCoinsView
  | .db view => .db { view with bestBlock := 1 }
  | .cache base top => .cache base.settle top.settle

theorem content_settle : ∀ view : CCoinsView, view.settle.content = view.content
  | .db _ => rfl
  | .cache base top => by
      simp only [settle, content, content_settle base, read_settle]

theorem GetCoin_settle : ∀ (view : CCoinsView) (outpoint : COutPoint),
    view.settle.GetCoin outpoint = ((view.GetCoin outpoint).1, (view.GetCoin outpoint).2.settle)
  | .db _, _ => rfl
  | .cache base top, outpoint => by
      have sameCoins : top.settle.cacheCoins = top.cacheCoins := rfl
      cases cached : top.cacheCoins.find? outpoint with
      | some entry =>
          simp only [settle, GetCoin, sameCoins, cached]
      | none =>
          simp only [settle, GetCoin, sameCoins, cached, GetCoin_settle base outpoint,
            fetchMiss_settle]

/-- The coin invariant of every layer, whatever its best block. -/
def CoinsConsistent (view : CCoinsView) : Prop :=
  view.settle.Consistent

/-- A view that keeps the coin invariant and holds `coins`. -/
structure HoldsCoins (view : CCoinsView) (coins : COutPoint → Option Coin) : Prop where
  consistent : view.CoinsConsistent
  content : view.content = coins

end CCoinsView

namespace CCoinsViewCache

theorem FetchCoin_settle (base : CCoinsView) (top : CCoinsViewCache) (outpoint : COutPoint) :
    FetchCoin base.settle top.settle outpoint =
      ((FetchCoin base top outpoint).1, (FetchCoin base top outpoint).2.1.settle,
        (FetchCoin base top outpoint).2.2.settle) := by
  have sameCoins : top.settle.cacheCoins = top.cacheCoins := rfl
  cases cached : top.cacheCoins.find? outpoint with
  | some entry =>
      rw [FetchCoin_of_find (sameCoins ▸ cached), FetchCoin_of_find cached]
  | none =>
      rw [FetchCoin_of_miss (sameCoins ▸ cached), FetchCoin_of_miss cached,
        CCoinsView.GetCoin_settle, fetchMiss_settle]

theorem HaveCoin_settle (base : CCoinsView) (top : CCoinsViewCache) (outpoint : COutPoint) :
    HaveCoin base.settle top.settle outpoint =
      ((HaveCoin base top outpoint).1, (HaveCoin base top outpoint).2.1.settle,
        (HaveCoin base top outpoint).2.2.settle) := by
  unfold HaveCoin
  rw [FetchCoin_settle]

theorem SpendCoin_settle (base : CCoinsView) (top : CCoinsViewCache) (outpoint : COutPoint) :
    SpendCoin base.settle top.settle outpoint =
      ((SpendCoin base top outpoint).1, (SpendCoin base top outpoint).2.1.settle,
        (SpendCoin base top outpoint).2.2.settle) := by
  unfold SpendCoin
  rw [FetchCoin_settle]
  generalize FetchCoin base top outpoint = fetched
  rcases fetched with ⟨entry, base', top'⟩
  cases entry <;> rfl

theorem AddCoin_settle (top : CCoinsViewCache) (outpoint : COutPoint) (coin : Coin)
    (possibleOverwrite : Bool) :
    top.settle.AddCoin outpoint coin possibleOverwrite =
      settle <$> top.AddCoin outpoint coin possibleOverwrite := by
  unfold AddCoin
  have sameCoins : top.settle.cacheCoins = top.cacheCoins := rfl
  rw [sameCoins]
  split_ifs
  · rfl
  · rfl
  · cases top.cacheCoins.find? outpoint <;> dsimp only <;> split_ifs <;> rfl

/-- `SpendCoin` moves out the coin of the entry `FetchCoin` found. -/
theorem SpendCoin_fst (base : CCoinsView) (top : CCoinsViewCache) (outpoint : COutPoint) :
    (SpendCoin base top outpoint).1 = (FetchCoin base top outpoint).1.map CCoinsCacheEntry.coin := by
  unfold SpendCoin
  generalize FetchCoin base top outpoint = fetched
  rcases fetched with ⟨entry, base', top'⟩
  cases entry <;> rfl

end CCoinsViewCache

/-! ## The operations on the map a view holds -/

namespace CCoinsView.HoldsCoins

variable {base : CCoinsView} {top : CCoinsViewCache} {coins : COutPoint → Option Coin}

/-- A stack the settled stack keeps holds the same coins. -/
theorem of_keeps (holds : (CCoinsView.cache base top).HoldsCoins coins)
    {base' : CCoinsView} {top' : CCoinsViewCache}
    (kept : (CCoinsView.cache base.settle top.settle).Keeps (.cache base'.settle top'.settle)) :
    (CCoinsView.cache base' top').HoldsCoins coins where
  consistent := kept.consistent
  content := by
    rw [← holds.content, ← content_settle, ← content_settle (.cache base top)]
    exact kept.content

/-- `HaveCoin` on the top cache says whether the map holds a coin, and changes nothing it holds. -/
theorem HaveCoin (holds : (CCoinsView.cache base top).HoldsCoins coins) (outpoint : COutPoint) :
    (HaveCoin base top outpoint).1 = (coins outpoint).isSome ∧
      (CCoinsView.cache (HaveCoin base top outpoint).2.1
        (HaveCoin base top outpoint).2.2).HoldsCoins coins := by
  have consistent : (CCoinsView.cache base.settle top.settle).Consistent := holds.consistent
  obtain ⟨_, kept, _, _⟩ := FetchCoin_spec consistent outpoint
  rw [FetchCoin_settle] at kept
  have had := (reads_spec consistent outpoint).2.2
  rw [HaveCoin_settle, read_settle, content_settle] at had
  refine ⟨?_, holds.of_keeps kept⟩
  rw [had, ← holds.content]
  rfl

/--
`SpendCoin` on the top cache: the map no longer holds the outpoint, and the
coin it held there is the one moved out.
-/
theorem SpendCoin (holds : (CCoinsView.cache base top).HoldsCoins coins) (outpoint : COutPoint) :
    (CCoinsView.cache (SpendCoin base top outpoint).2.1
        (SpendCoin base top outpoint).2.2).HoldsCoins (Function.update coins outpoint none) ∧
      ∀ coin, coins outpoint = some coin → (SpendCoin base top outpoint).1 = some coin := by
  have consistent : (CCoinsView.cache base.settle top.settle).Consistent := holds.consistent
  obtain ⟨_, spentConsistent, spentRead⟩ := SpendCoin_spec consistent outpoint
  obtain ⟨_, _, _, returned⟩ := FetchCoin_spec consistent outpoint
  rw [SpendCoin_settle] at spentConsistent spentRead
  rw [FetchCoin_settle, read_settle, content_settle] at returned
  refine ⟨⟨spentConsistent, ?_⟩, fun coin held => ?_⟩
  · rw [← holds.content]
    simpa only [read_settle, content_settle, CCoinsView.content] using spentRead
  · rw [SpendCoin_fst]
    have found : (FetchCoin base top outpoint).1.bind CCoinsCacheEntry.unspent? = some coin := by
      rw [returned, ← held, ← holds.content]
      rfl
    cases fetched : (FetchCoin base top outpoint).1 with
    | none =>
        rw [fetched] at found
        cases found
    | some entry =>
        rw [fetched] at found
        rw [Option.bind_some, CCoinsCacheEntry.unspent?_eq] at found
        split at found
        · cases found
        · cases found
          rfl

/--
`AddCoin` on the top cache, for an unspent coin and without an overwrite
only where the map holds nothing: the map holds the coin unless its script
is unspendable.
-/
theorem AddCoin (holds : (CCoinsView.cache base top).HoldsCoins coins) {outpoint : COutPoint}
    {coin : Coin} {possibleOverwrite : Bool} (unspent : coin.IsSpent = false)
    (absent : possibleOverwrite = false → isUnspendable coin.out.scriptPubKey = false →
      coins outpoint = none) :
    ∃ top', top.AddCoin outpoint coin possibleOverwrite = .ok top' ∧
      (CCoinsView.cache base top').HoldsCoins
        (if isUnspendable coin.out.scriptPubKey = true then coins
          else Function.update coins outpoint (some coin)) := by
  by_cases unspendable : isUnspendable coin.out.scriptPubKey = true
  · refine ⟨top, ?_, by rw [if_pos unspendable]; exact holds⟩
    unfold CCoinsViewCache.AddCoin
    rw [if_neg (by rw [unspent]; exact Bool.false_ne_true), if_pos unspendable]
  have consistent : (CCoinsView.cache base.settle top.settle).Consistent := holds.consistent
  have settledAbsent : possibleOverwrite = false → top.settle.read base.settle.content outpoint = none := by
    intro keep
    rw [read_settle, content_settle]
    rw [← holds.content] at absent
    exact absent keep (Bool.eq_false_iff.mpr unspendable)
  obtain ⟨added, run, addedConsistent, addedRead⟩ := AddCoin_spec consistent.2 unspent settledAbsent
  rw [AddCoin_settle] at run
  cases written : top.AddCoin outpoint coin possibleOverwrite with
  | error abort =>
      rw [written] at run
      cases run
  | ok top' =>
      rw [written] at run
      cases run
      refine ⟨top', rfl, ⟨⟨consistent.1, addedConsistent⟩, ?_⟩⟩
      rw [if_neg unspendable, ← holds.content]
      rw [if_neg unspendable, read_settle, read_settle, content_settle] at addedRead
      exact addedRead

end CCoinsView.HoldsCoins

/-! ## What connecting a transaction does to the coins -/

/--
Output `index` of a transaction added to the map as `AddCoin` adds it: a
coin of the transaction's height and coinbase flag, except that an
unspendable output is not stored.
-/
def createOutput (tx : CTransaction) (nHeight index : Nat) (out : CTxOut)
    (coins : COutPoint → Option Coin) : COutPoint → Option Coin :=
  if isUnspendable out.scriptPubKey = true then coins
  else Function.update coins ⟨tx.GetHash, UInt32.ofNat index⟩ (some ⟨out, tx.IsCoinBase, nHeight⟩)

/-- The outputs from `index` on added to the map, as `AddCoins` adds them. -/
def createOutputs (tx : CTransaction) (nHeight : Nat) :
    Nat → List CTxOut → (COutPoint → Option Coin) → COutPoint → Option Coin
  | _, [], coins => coins
  | index, out :: rest, coins =>
      createOutputs tx nHeight (index + 1) rest (createOutput tx nHeight index out coins)

/-- Every spendable output from `index` on is created where the map holds no coin. -/
def OutputsFresh (tx : CTransaction) (nHeight : Nat) :
    Nat → List CTxOut → (COutPoint → Option Coin) → Prop
  | _, [], _ => True
  | index, out :: rest, coins =>
      (isUnspendable out.scriptPubKey = false → coins ⟨tx.GetHash, UInt32.ofNat index⟩ = none) ∧
        OutputsFresh tx nHeight (index + 1) rest (createOutput tx nHeight index out coins)

instance OutputsFresh.decidable (tx : CTransaction) (nHeight : Nat) :
    (index : Nat) → (outs : List CTxOut) → (coins : COutPoint → Option Coin) →
      Decidable (OutputsFresh tx nHeight index outs coins)
  | _, [], _ => isTrue trivial
  | index, out :: rest, coins =>
      have := OutputsFresh.decidable tx nHeight (index + 1) rest
        (createOutput tx nHeight index out coins)
      inferInstanceAs (Decidable ((isUnspendable out.scriptPubKey = false →
        coins ⟨tx.GetHash, UInt32.ofNat index⟩ = none) ∧ _))

/-- The map once the inputs of a transaction other than a coinbase are spent. -/
def inputsSpent (coins : COutPoint → Option Coin) (tx : CTransaction) : COutPoint → Option Coin :=
  if tx.IsCoinBase then coins
  else fun outpoint => if outpoint ∈ tx.vin.map CTxIn.prevout then none else coins outpoint

/-- What `UpdateCoins` does to the map: the inputs are spent, then the outputs added. -/
def applyTx (coins : COutPoint → Option Coin) (tx : CTransaction) (nHeight : Nat) :
    COutPoint → Option Coin :=
  createOutputs tx nHeight 0 tx.vout (inputsSpent coins tx)

/-- The undo data `UpdateCoins` records: the coins the inputs spend, in input order. -/
def txUndo (coins : COutPoint → Option Coin) (tx : CTransaction) : CTxUndo :=
  ⟨if tx.IsCoinBase then [] else tx.vin.map fun input => (coins input.prevout).getD Coin.cleared⟩

/--
A coin that `ApplyTxInUndo` puts back as it was: `AddCoin` stores it, and
it has a height, so that it is not taken for an undo record of the old
format without one.
-/
def Coin.Restorable (coin : Coin) : Prop :=
  isUnspendable coin.out.scriptPubKey = false ∧ 0 < coin.nHeight

instance : DecidablePred Coin.Restorable := fun coin =>
  inferInstanceAs (Decidable (isUnspendable coin.out.scriptPubKey = false ∧ 0 < coin.nHeight))

/--
When `UpdateCoins` applies a transaction to the map without an error, in a
way `DisconnectBlock` takes back.  `HaveInputs` in `CheckTxInputs` checks
the inputs; `CheckTransaction` checks that no input is repeated and that
no output is null; BIP34 makes every output new.
-/
structure TxConnects (coins : COutPoint → Option Coin) (tx : CTransaction) (nHeight : Nat) :
    Prop where
  inputs : tx.IsCoinBase = false → ∀ input ∈ tx.vin, coins input.prevout ≠ none
  distinct : tx.IsCoinBase = false → (tx.vin.map CTxIn.prevout).Nodup
  restorable : tx.IsCoinBase = false → ∀ input ∈ tx.vin, ∀ coin ∈ coins input.prevout,
    coin.Restorable
  notNull : ∀ out ∈ tx.vout, out.IsNull = false
  fresh : OutputsFresh tx nHeight 0 tx.vout (inputsSpent coins tx)

instance (coins : COutPoint → Option Coin) (tx : CTransaction) (nHeight : Nat) :
    Decidable (TxConnects coins tx nHeight) :=
  decidable_of_iff
    ((tx.IsCoinBase = false → ∀ input ∈ tx.vin, coins input.prevout ≠ none) ∧
      (tx.IsCoinBase = false → (tx.vin.map CTxIn.prevout).Nodup) ∧
      (tx.IsCoinBase = false → ∀ input ∈ tx.vin, ∀ coin ∈ coins input.prevout,
        coin.Restorable) ∧
      (∀ out ∈ tx.vout, out.IsNull = false) ∧
      OutputsFresh tx nHeight 0 tx.vout (inputsSpent coins tx))
    ⟨fun ⟨inputs, distinct, restorable, notNull, fresh⟩ =>
      ⟨inputs, distinct, restorable, notNull, fresh⟩,
     fun connects =>
      ⟨connects.inputs, connects.distinct, connects.restorable, connects.notNull,
        connects.fresh⟩⟩

/-- What `UpdateCoins` on every transaction of a block does to the map. -/
def applyBlock (nHeight : Nat) : (COutPoint → Option Coin) → List CTransaction →
    COutPoint → Option Coin
  | coins, [] => coins
  | coins, tx :: rest => applyBlock nHeight (applyTx coins tx nHeight) rest

/-- The undo data of every transaction of a block, each against the map before it. -/
def blockUndo (nHeight : Nat) : (COutPoint → Option Coin) → List CTransaction → List CTxUndo
  | _, [] => []
  | coins, tx :: rest => txUndo coins tx :: blockUndo nHeight (applyTx coins tx nHeight) rest

/-- Every transaction of a block connects to the map the transactions before it leave. -/
def Connects (nHeight : Nat) : (COutPoint → Option Coin) → List CTransaction → Prop
  | _, [] => True
  | coins, tx :: rest => TxConnects coins tx nHeight ∧ Connects nHeight (applyTx coins tx nHeight) rest

instance Connects.decidable (nHeight : Nat) :
    (coins : COutPoint → Option Coin) → (txs : List CTransaction) →
      Decidable (Connects nHeight coins txs)
  | _, [] => isTrue trivial
  | coins, tx :: rest =>
      have := Connects.decidable nHeight (applyTx coins tx nHeight) rest
      inferInstanceAs (Decidable (TxConnects coins tx nHeight ∧ _))

/-! ### Outputs are created where nothing is held -/

section CreateOutputs

variable {tx : CTransaction} {nHeight : Nat}

theorem createOutput_apply_of_held {index : Nat} {out : CTxOut} {coins : COutPoint → Option Coin}
    (fresh : isUnspendable out.scriptPubKey = false → coins ⟨tx.GetHash, UInt32.ofNat index⟩ = none)
    {outpoint : COutPoint} (held : coins outpoint ≠ none) :
    createOutput tx nHeight index out coins outpoint = coins outpoint := by
  unfold createOutput
  split
  · rfl
  · case isFalse spendable =>
      have elsewhere : outpoint ≠ ⟨tx.GetHash, UInt32.ofNat index⟩ := by
        rintro rfl
        exact held (fresh (Bool.eq_false_iff.mpr spendable))
      exact Function.update_of_ne elsewhere _ _

/-- Spending a held coin and creating an output commute: the output goes elsewhere. -/
theorem createOutput_update_none {index : Nat} {out : CTxOut} {coins : COutPoint → Option Coin}
    (fresh : isUnspendable out.scriptPubKey = false → coins ⟨tx.GetHash, UInt32.ofNat index⟩ = none)
    {outpoint : COutPoint} (held : coins outpoint ≠ none) :
    createOutput tx nHeight index out (Function.update coins outpoint none) =
      Function.update (createOutput tx nHeight index out coins) outpoint none := by
  unfold createOutput
  split
  · rfl
  · case isFalse spendable =>
      have elsewhere : outpoint ≠ ⟨tx.GetHash, UInt32.ofNat index⟩ := by
        rintro rfl
        exact held (fresh (Bool.eq_false_iff.mpr spendable))
      exact Function.update_comm elsewhere _ _ _

/-- The outputs leave a held coin as it is. -/
theorem createOutputs_apply_of_held :
    ∀ {index : Nat} {outs : List CTxOut} {coins : COutPoint → Option Coin},
      OutputsFresh tx nHeight index outs coins → ∀ {outpoint : COutPoint}, coins outpoint ≠ none →
        createOutputs tx nHeight index outs coins outpoint = coins outpoint
  | _, [], _, _, _, _ => rfl
  | _, _ :: _, _, fresh, _, held => by
      have created := @createOutput_apply_of_held tx nHeight _ _ _ fresh.1 _ held
      rw [createOutputs, createOutputs_apply_of_held fresh.2 (created ▸ held), created]

theorem createOutputs_update_none :
    ∀ {index : Nat} {outs : List CTxOut} {coins : COutPoint → Option Coin},
      OutputsFresh tx nHeight index outs coins → ∀ {outpoint : COutPoint}, coins outpoint ≠ none →
        createOutputs tx nHeight index outs (Function.update coins outpoint none) =
          Function.update (createOutputs tx nHeight index outs coins) outpoint none
  | _, [], _, _, _, _ => rfl
  | _, _ :: _, _, fresh, _, held => by
      have created := @createOutput_apply_of_held tx nHeight _ _ _ fresh.1 _ held
      rw [createOutputs, createOutputs, createOutput_update_none fresh.1 held,
        createOutputs_update_none fresh.2 (created ▸ held)]

/-- Spending a held coin keeps every output new. -/
theorem OutputsFresh.update_none :
    ∀ {index : Nat} {outs : List CTxOut} {coins : COutPoint → Option Coin},
      OutputsFresh tx nHeight index outs coins → ∀ {outpoint : COutPoint}, coins outpoint ≠ none →
        OutputsFresh tx nHeight index outs (Function.update coins outpoint none)
  | _, [], _, _, _, _ => trivial
  | index, _ :: _, coins, fresh, outpoint, held => by
      have created := @createOutput_apply_of_held tx nHeight _ _ _ fresh.1 _ held
      refine ⟨fun spendable => ?_, ?_⟩
      · rw [Function.update_apply]
        split
        · rfl
        · exact fresh.1 spendable
      · rw [createOutput_update_none fresh.1 held]
        exact fresh.2.update_none (created ▸ held)

end CreateOutputs

/-! ## `UpdateCoins` realises `applyTx` -/

/--
The input loop of `UpdateCoins`, over inputs that spend distinct coins the
map holds: the coins are recorded after those already spent, and the map
holds them no longer.
-/
theorem spendInputs_holds :
    ∀ (inputs : List CTxIn) {base : CCoinsView} {top : CCoinsViewCache}
      {coins : COutPoint → Option Coin} (spent : List Coin),
      (CCoinsView.cache base top).HoldsCoins coins → (inputs.map CTxIn.prevout).Nodup →
      (∀ input ∈ inputs, coins input.prevout ≠ none) →
      ∃ base' top', spendInputs inputs base top spent =
          .ok (spent ++ inputs.map (fun input => (coins input.prevout).getD Coin.cleared),
            base', top') ∧
        (CCoinsView.cache base' top').HoldsCoins
          (fun outpoint => if outpoint ∈ inputs.map CTxIn.prevout then none else coins outpoint)
  | [], base, top, coins, spent, holds, _, _ => by
      refine ⟨base, top, by simp [spendInputs], ?_⟩
      simpa using holds
  | input :: rest, base, top, coins, spent, holds, distinct, present => by
      obtain ⟨coin, held⟩ := Option.ne_none_iff_exists'.mp (present input List.mem_cons_self)
      obtain ⟨spentHolds, moved⟩ := holds.SpendCoin input.prevout
      rw [List.map_cons, List.nodup_cons] at distinct
      have elsewhere : ∀ later ∈ rest, later.prevout ≠ input.prevout := fun later member same =>
        distinct.1 (same ▸ List.mem_map_of_mem member)
      have stillPresent :
          ∀ later ∈ rest, Function.update coins input.prevout none later.prevout ≠ none := by
        intro later member
        rw [Function.update_of_ne (elsewhere later member)]
        exact present later (List.mem_cons_of_mem _ member)
      obtain ⟨base', top', run, restHolds⟩ :=
        spendInputs_holds rest (spent ++ [coin]) spentHolds distinct.2 stillPresent
      have spendEq : SpendCoin base top input.prevout =
          (some coin, (SpendCoin base top input.prevout).2.1,
            (SpendCoin base top input.prevout).2.2) := by
        rw [← moved coin held]
      refine ⟨base', top', ?_, ?_⟩
      · rw [spendInputs, spendEq]
        dsimp only
        rw [run, List.map_cons, held, List.append_assoc, List.singleton_append,
          List.map_congr_left fun later member => by
            rw [Function.update_of_ne (elsewhere later member)]]
        rfl
      · convert restHolds using 2 with outpoint
        by_cases here : outpoint = input.prevout
        · subst here
          simp [distinct.1]
        · simp [here]

/--
The output loop of `AddCoins` without the check, over outputs that are not
null and are each created where the map holds nothing: it adds them as
`createOutputs` does, and leaves the base alone.
-/
theorem addCoinsFrom_holds (tx : CTransaction) (nHeight : Nat) :
    ∀ (index : Nat) (outs : List CTxOut) {base : CCoinsView} {top : CCoinsViewCache}
      {coins : COutPoint → Option Coin},
      (CCoinsView.cache base top).HoldsCoins coins → (∀ out ∈ outs, out.IsNull = false) →
      OutputsFresh tx nHeight index outs coins →
      ∃ top', addCoinsFrom tx nHeight false index outs base top = .ok (base, top') ∧
        (CCoinsView.cache base top').HoldsCoins (createOutputs tx nHeight index outs coins)
  | _, [], base, top, _, holds, _, _ => ⟨top, rfl, holds⟩
  | index, out :: rest, base, top, coins, holds, notNull, fresh => by
      have absent : tx.IsCoinBase = false → isUnspendable out.scriptPubKey = false →
          coins ⟨tx.GetHash, UInt32.ofNat index⟩ = none := fun _ spendable => fresh.1 spendable
      have unspent : (⟨out, tx.IsCoinBase, nHeight⟩ : Coin).IsSpent = false :=
        notNull out List.mem_cons_self
      obtain ⟨added, write, addedHolds⟩ := holds.AddCoin unspent absent
      obtain ⟨top', run, restHolds⟩ := addCoinsFrom_holds tx nHeight (index + 1) rest addedHolds
        (fun later member => notNull later (List.mem_cons_of_mem _ member)) fresh.2
      refine ⟨top', ?_, restHolds⟩
      simp only [addCoinsFrom, Bool.false_eq_true, if_false, write]
      exact run

/-- `UpdateCoins` on a transaction that connects: its undo data, and the map `applyTx` gives. -/
theorem UpdateCoins_holds {base : CCoinsView} {top : CCoinsViewCache}
    {coins : COutPoint → Option Coin} (holds : (CCoinsView.cache base top).HoldsCoins coins)
    {tx : CTransaction} {nHeight : Nat} (connects : TxConnects coins tx nHeight) :
    ∃ base' top', UpdateCoins base top tx nHeight = .ok (txUndo coins tx, base', top') ∧
      (CCoinsView.cache base' top').HoldsCoins (applyTx coins tx nHeight) := by
  cases coinBase : tx.IsCoinBase with
  | true =>
      have fresh := connects.fresh
      rw [inputsSpent, coinBase, if_pos rfl] at fresh
      obtain ⟨top', added, addedHolds⟩ :=
        addCoinsFrom_holds tx nHeight 0 tx.vout holds connects.notNull fresh
      refine ⟨base, top', ?_, ?_⟩
      · simp only [UpdateCoins, coinBase, if_true, pure_bind]
        refine Except.bind_eq_ok.mpr ⟨_, added, ?_⟩
        simp only [txUndo, coinBase, if_true]
        rfl
      · rw [applyTx, inputsSpent, coinBase, if_pos rfl]
        exact addedHolds
  | false =>
      obtain ⟨base1, top1, spent, spentHolds⟩ :=
        spendInputs_holds tx.vin [] holds (connects.distinct coinBase) (connects.inputs coinBase)
      have fresh := connects.fresh
      rw [inputsSpent, coinBase, if_neg Bool.false_ne_true] at fresh
      obtain ⟨top', added, addedHolds⟩ :=
        addCoinsFrom_holds tx nHeight 0 tx.vout spentHolds connects.notNull fresh
      refine ⟨base1, top', ?_, ?_⟩
      · simp only [UpdateCoins, coinBase, Bool.false_eq_true, if_false]
        refine Except.bind_eq_ok.mpr ⟨_, spent, Except.bind_eq_ok.mpr ⟨_, added, ?_⟩⟩
        simp only [txUndo, coinBase, Bool.false_eq_true, if_false, List.nil_append]
        rfl
      · rw [applyTx, inputsSpent, coinBase, if_neg Bool.false_ne_true]
        exact addedHolds

/-! ## Connecting a block's coins -/

/--
The coin half of the transaction loop of `ConnectBlock`
(`applyTransaction` without `ApplyKevaTransaction`): `UpdateCoins` on each
transaction, its undo data kept in `vtxundo` for every transaction but the
first.
-/
def connectCoins (nHeight : Nat) : Nat → List CTransaction → CCoinsView → CCoinsViewCache →
    List CTxUndo → Except Abort (List CTxUndo × CCoinsView × CCoinsViewCache)
  | _, [], base, cache, vtxundo => .ok (vtxundo, base, cache)
  | index, tx :: rest, base, cache, vtxundo =>
      match UpdateCoins base cache tx nHeight with
      | .error abort => .error abort
      | .ok (txundo, base', cache') =>
          connectCoins nHeight (index + 1) rest base' cache'
            (if index > 0 then vtxundo ++ [txundo] else vtxundo)

/-- Past the first transaction, every undo record is kept, in block order. -/
theorem connectCoins_holds (nHeight : Nat) :
    ∀ (index : Nat) (txs : List CTransaction) {base : CCoinsView} {top : CCoinsViewCache}
      {coins : COutPoint → Option Coin} (vtxundo : List CTxUndo),
      0 < index → (CCoinsView.cache base top).HoldsCoins coins → Connects nHeight coins txs →
      ∃ base' top', connectCoins nHeight index txs base top vtxundo =
          .ok (vtxundo ++ blockUndo nHeight coins txs, base', top') ∧
        (CCoinsView.cache base' top').HoldsCoins (applyBlock nHeight coins txs)
  | _, [], base, top, _, vtxundo, _, holds, _ => ⟨base, top, by simp [connectCoins, blockUndo], holds⟩
  | index, tx :: rest, base, top, coins, vtxundo, later, holds, connects => by
      obtain ⟨base1, top1, updated, updatedHolds⟩ := UpdateCoins_holds holds connects.1
      obtain ⟨base', top', run, restHolds⟩ := connectCoins_holds nHeight (index + 1) rest
        (vtxundo ++ [txUndo coins tx]) (Nat.succ_pos index) updatedHolds connects.2
      refine ⟨base', top', ?_, restHolds⟩
      rw [connectCoins, updated]
      dsimp only
      rw [if_pos later, run, blockUndo, List.append_assoc, List.singleton_append]

/--
A block whose first transaction is its coinbase: the undo data of the
transactions after it, and the map `applyBlock` gives.
-/
theorem connectCoins_block {nHeight : Nat} {base : CCoinsView} {top : CCoinsViewCache}
    {coins : COutPoint → Option Coin} (holds : (CCoinsView.cache base top).HoldsCoins coins)
    {coinbase : CTransaction} {rest : List CTransaction}
    (connects : Connects nHeight coins (coinbase :: rest)) :
    ∃ base' top', connectCoins nHeight 0 (coinbase :: rest) base top [] =
        .ok (blockUndo nHeight (applyTx coins coinbase nHeight) rest, base', top') ∧
      (CCoinsView.cache base' top').HoldsCoins (applyBlock nHeight coins (coinbase :: rest)) := by
  obtain ⟨base1, top1, updated, updatedHolds⟩ := UpdateCoins_holds holds connects.1
  obtain ⟨base', top', run, restHolds⟩ :=
    connectCoins_holds nHeight 1 rest [] Nat.one_pos updatedHolds connects.2
  refine ⟨base', top', ?_, restHolds⟩
  rw [connectCoins, updated]
  dsimp only
  rw [if_neg (Nat.lt_irrefl 0), run, List.nil_append]

/-! ## `DisconnectBlock` takes `applyTx` back -/

/--
The output loop of `DisconnectBlock` over outputs that `createOutputs`
added, each where nothing was held: every coin it spends matches its
output, and the map is as it was before the outputs.
-/
theorem spendOutputs_holds (tx : CTransaction) (nHeight : Nat) :
    ∀ (index : Nat) (outs : List CTxOut) {base : CCoinsView} {top : CCoinsViewCache}
      {coins : COutPoint → Option Coin},
      (CCoinsView.cache base top).HoldsCoins (createOutputs tx nHeight index outs coins) →
      OutputsFresh tx nHeight index outs coins →
      ∃ base' top', spendOutputs tx nHeight index outs base top = (true, base', top') ∧
        (CCoinsView.cache base' top').HoldsCoins coins
  | _, [], base, top, _, holds, _ => ⟨base, top, rfl, holds⟩
  | index, out :: rest, base, top, coins, holds, fresh => by
      by_cases unspendable : isUnspendable out.scriptPubKey = true
      · have kept : createOutput tx nHeight index out coins = coins := if_pos unspendable
        have restFresh := fresh.2
        rw [kept] at restFresh
        rw [createOutputs, kept] at holds
        obtain ⟨base', top', run, restHolds⟩ :=
          spendOutputs_holds tx nHeight (index + 1) rest holds restFresh
        exact ⟨base', top', by rw [spendOutputs, if_pos unspendable, run], restHolds⟩
      · have nothingHeld := fresh.1 (Bool.eq_false_iff.mpr unspendable)
        have created : createOutput tx nHeight index out coins =
            Function.update coins ⟨tx.GetHash, UInt32.ofNat index⟩
              (some ⟨out, tx.IsCoinBase, nHeight⟩) := if_neg unspendable
        have heldCreated :
            createOutput tx nHeight index out coins ⟨tx.GetHash, UInt32.ofNat index⟩ ≠ none := by
          rw [created, Function.update_self]
          exact Option.some_ne_none _
        have holding : createOutputs tx nHeight (index + 1) rest
            (createOutput tx nHeight index out coins) ⟨tx.GetHash, UInt32.ofNat index⟩ =
              some ⟨out, tx.IsCoinBase, nHeight⟩ := by
          rw [createOutputs_apply_of_held fresh.2 heldCreated, created, Function.update_self]
        have removed : Function.update (createOutput tx nHeight index out coins)
            ⟨tx.GetHash, UInt32.ofNat index⟩ none = coins := by
          rw [created, Function.update_idem, ← nothingHeld, Function.update_eq_self]
        obtain ⟨spentHolds, moved⟩ := holds.SpendCoin ⟨tx.GetHash, UInt32.ofNat index⟩
        rw [createOutputs, ← createOutputs_update_none fresh.2 heldCreated, removed]
          at spentHolds
        have restFresh := fresh.2.update_none heldCreated
        rw [removed] at restFresh
        obtain ⟨base', top', run, restHolds⟩ :=
          spendOutputs_holds tx nHeight (index + 1) rest spentHolds restFresh
        have spendEq : SpendCoin base top ⟨tx.GetHash, UInt32.ofNat index⟩ =
            (some ⟨out, tx.IsCoinBase, nHeight⟩,
              (SpendCoin base top ⟨tx.GetHash, UInt32.ofNat index⟩).2.1,
              (SpendCoin base top ⟨tx.GetHash, UInt32.ofNat index⟩).2.2) := by
          rw [← moved _ holding]
        refine ⟨base', top', ?_, restHolds⟩
        rw [spendOutputs, if_neg unspendable, spendEq]
        dsimp only
        rw [run]
        simp

/--
`ApplyTxInUndo` of an unspent coin that can be put back, where the map
holds nothing: nothing is overwritten, so the result is clean, and the map
holds the coin.
-/
theorem ApplyTxInUndo_holds {base : CCoinsView} {top : CCoinsViewCache}
    {coins : COutPoint → Option Coin} (holds : (CCoinsView.cache base top).HoldsCoins coins)
    {undo : Coin} {out : COutPoint} (absent : coins out = none) (unspent : undo.IsSpent = false)
    (restorable : undo.Restorable) :
    ∃ base' top', ApplyTxInUndo undo base top out = .ok (.DISCONNECT_OK, base', top') ∧
      (CCoinsView.cache base' top').HoldsCoins (Function.update coins out (some undo)) := by
  obtain ⟨notHad, hadHolds⟩ := holds.HaveCoin out
  rw [absent, Option.isSome_none] at notHad
  obtain ⟨top', added, addedHolds⟩ :=
    @CCoinsView.HoldsCoins.AddCoin _ _ _ hadHolds out undo false unspent (fun _ _ => absent)
  rw [if_neg (by rw [restorable.1]; exact Bool.false_ne_true)] at addedHolds
  refine ⟨(HaveCoin base top out).2.1, top', ?_, addedHolds⟩
  have haveEq : HaveCoin base top out =
      (false, (HaveCoin base top out).2.1, (HaveCoin base top out).2.2) := by
    rw [← notHad]
  rw [ApplyTxInUndo, haveEq]
  dsimp only
  rw [if_neg (Nat.pos_iff_ne_zero.mp restorable.2)]
  simp only [Bool.not_false, Bool.not_true, added]
  rfl

/--
The input loop of `DisconnectBlock` over undo records of distinct
outpoints, where the map is `original` except that it holds nothing at
those outpoints: each record puts back the coin `original` holds there,
and the map is `original` again.
-/
theorem restoreInputs_holds {original : COutPoint → Option Coin} :
    ∀ (pairs : List (Coin × CTxIn)) {base : CCoinsView} {top : CCoinsViewCache}
      {coins : COutPoint → Option Coin},
      (CCoinsView.cache base top).HoldsCoins coins →
      (pairs.map fun pair => pair.2.prevout).Nodup →
      (∀ pair ∈ pairs, original pair.2.prevout = some pair.1 ∧ pair.1.IsSpent = false ∧
        pair.1.Restorable) →
      (∀ outpoint, coins outpoint =
        if outpoint ∈ pairs.map (fun pair => pair.2.prevout) then none else original outpoint) →
      ∃ base' top', restoreInputs pairs base top = .ok (.DISCONNECT_OK, base', top') ∧
        (CCoinsView.cache base' top').HoldsCoins original
  | [], base, top, coins, holds, _, _, missing => by
      have same : coins = original := funext fun outpoint => by simpa using missing outpoint
      exact ⟨base, top, rfl, same ▸ holds⟩
  | (undo, input) :: rest, base, top, coins, holds, distinct, recorded, missing => by
      obtain ⟨held, unspent, restorable⟩ := recorded (undo, input) List.mem_cons_self
      rw [List.map_cons, List.nodup_cons] at distinct
      have absent : coins input.prevout = none := by
        rw [missing]
        simp
      obtain ⟨base1, top1, applied, appliedHolds⟩ :=
        ApplyTxInUndo_holds holds absent unspent restorable
      have stillMissing : ∀ outpoint, Function.update coins input.prevout (some undo) outpoint =
          if outpoint ∈ rest.map (fun pair => pair.2.prevout) then none
          else original outpoint := by
        intro outpoint
        by_cases here : outpoint = input.prevout
        · subst here
          simp [distinct.1, held]
        · have elsewhere : ¬outpoint = (undo, input).2.prevout := here
          rw [Function.update_of_ne here, missing]
          simp only [List.map_cons, List.mem_cons, elsewhere, false_or]
      obtain ⟨base', top', run, restHolds⟩ := restoreInputs_holds rest appliedHolds distinct.2
        (fun pair member => recorded pair (List.mem_cons_of_mem _ member)) stillMissing
      refine ⟨base', top', ?_, restHolds⟩
      rw [restoreInputs]
      refine Except.bind_eq_ok.mpr ⟨_, applied, ?_⟩
      simp only [reduceCtorEq, if_false]
      refine Except.bind_eq_ok.mpr ⟨_, run, ?_⟩
      rfl

/--
A disconnect list read as undoing transactions, the last first: each entry
takes the map after its transaction back to the map before it, with the
undo data `UpdateCoins` recorded for it, and the coinbase has none.
-/
inductive UndoChain (nHeight : Nat) : (COutPoint → Option Coin) →
    List (Nat × CTransaction × Option CTxUndo) → (COutPoint → Option Coin) → Prop
  | nil (coins : COutPoint → Option Coin) : UndoChain nHeight coins [] coins
  | coinbase {coins bottom : COutPoint → Option Coin}
      {rest : List (Nat × CTransaction × Option CTxUndo)} (index : Nat) {tx : CTransaction}
      (coinBase : tx.IsCoinBase = true) (connects : TxConnects coins tx nHeight)
      (chain : UndoChain nHeight coins rest bottom) :
      UndoChain nHeight (applyTx coins tx nHeight) ((index, tx, none) :: rest) bottom
  | spend {coins bottom : COutPoint → Option Coin}
      {rest : List (Nat × CTransaction × Option CTxUndo)} (index : Nat) {tx : CTransaction}
      (spends : tx.IsCoinBase = false) (connects : TxConnects coins tx nHeight)
      (unspent : ∀ input ∈ tx.vin, ∀ coin ∈ coins input.prevout, coin.IsSpent = false)
      (chain : UndoChain nHeight coins rest bottom) :
      UndoChain nHeight (applyTx coins tx nHeight)
        ((index, tx, some (txUndo coins tx)) :: rest) bottom

theorem zip_map_self {α β : Type} (f : α → β) (items : List α) :
    (items.map f).zip items = items.map fun item => (f item, item) := by
  simpa using List.zip_map' (f := f) (g := id) (l := items)

/--
The undo records of a transaction against the map before it, last input
first, satisfy what `restoreInputs_holds` asks: distinct outpoints, each
with the coin the map held there.
-/
theorem txUndo_restores {coins : COutPoint → Option Coin} {tx : CTransaction} {nHeight : Nat}
    (spends : tx.IsCoinBase = false) (connects : TxConnects coins tx nHeight)
    (unspent : ∀ input ∈ tx.vin, ∀ coin ∈ coins input.prevout, coin.IsSpent = false) :
    let pairs := ((txUndo coins tx).vprevout.zip tx.vin).reverse
    (pairs.map fun pair => pair.2.prevout).Nodup ∧
      (∀ pair ∈ pairs, coins pair.2.prevout = some pair.1 ∧ pair.1.IsSpent = false ∧
        pair.1.Restorable) ∧
      ∀ outpoint, inputsSpent coins tx outpoint =
        if outpoint ∈ pairs.map (fun pair => pair.2.prevout) then none else coins outpoint := by
  intro pairs
  have recorded : pairs = (tx.vin.map fun input =>
      ((coins input.prevout).getD Coin.cleared, input)).reverse := by
    simp only [pairs, txUndo, spends, Bool.false_eq_true, if_false, zip_map_self]
  have keys : pairs.map (fun pair => pair.2.prevout) = (tx.vin.map CTxIn.prevout).reverse := by
    rw [recorded, List.map_reverse, List.map_map]
    rfl
  refine ⟨?_, ?_, fun outpoint => ?_⟩
  · rw [keys, List.nodup_reverse]
    exact connects.distinct spends
  · intro pair member
    rw [recorded, List.mem_reverse, List.mem_map] at member
    obtain ⟨input, spent, rfl⟩ := member
    obtain ⟨coin, held⟩ := Option.ne_none_iff_exists'.mp (connects.inputs spends input spent)
    rw [held]
    exact ⟨rfl, unspent input spent coin held, connects.restorable spends input spent coin held⟩
  · simp only [keys, List.mem_reverse, inputsSpent, spends, Bool.false_eq_true, if_false]

/--
Disconnecting along an undo chain from a view that holds the map at its
top ends cleanly, in a view that holds the map at its bottom.
-/
theorem disconnectTransactions_holds {nHeight : Nat} {coins bottom : COutPoint → Option Coin}
    {entries : List (Nat × CTransaction × Option CTxUndo)}
    (chain : UndoChain nHeight coins entries bottom) :
    ∀ {base : CCoinsView} {top : CCoinsViewCache},
      (CCoinsView.cache base top).HoldsCoins coins →
      ∃ base' top', disconnectTransactions nHeight entries base top =
          .ok (.DISCONNECT_OK, base', top') ∧
        (CCoinsView.cache base' top').HoldsCoins bottom := by
  induction chain with
  | nil coins =>
      exact fun holds => ⟨_, _, rfl, holds⟩
  | @coinbase coins bottom rest index tx coinBase connects chain restored =>
      intro base top holds
      have fresh := connects.fresh
      rw [inputsSpent, coinBase, if_pos rfl] at fresh
      rw [applyTx, inputsSpent, coinBase, if_pos rfl] at holds
      obtain ⟨base1, top1, outputs, outputsHolds⟩ := spendOutputs_holds _ _ 0 _ holds fresh
      obtain ⟨base', top', run, restHolds⟩ := restored outputsHolds
      refine ⟨base', top', ?_, restHolds⟩
      rw [disconnectTransactions, outputs]
      simp only [pure_bind, reduceCtorEq, if_false]
      refine Except.bind_eq_ok.mpr ⟨_, run, ?_⟩
      rfl
  | @spend coins bottom rest index tx spends connects unspent chain restored =>
      intro base top holds
      have fresh := connects.fresh
      rw [applyTx] at holds
      obtain ⟨base1, top1, outputs, outputsHolds⟩ := spendOutputs_holds _ _ 0 _ holds fresh
      obtain ⟨distinct, recorded, missing⟩ := txUndo_restores spends connects unspent
      obtain ⟨base2, top2, inputs, inputsHolds⟩ :=
        restoreInputs_holds _ outputsHolds distinct recorded missing
      obtain ⟨base', top', run, restHolds⟩ := restored inputsHolds
      refine ⟨base', top', ?_, restHolds⟩
      have sameLength : (txUndo coins tx).vprevout.length = tx.vin.length := by
        simp only [txUndo, spends, Bool.false_eq_true, if_false, List.length_map]
      rw [disconnectTransactions, outputs]
      dsimp only
      rw [if_neg (not_not.mpr sameLength)]
      refine Except.bind_eq_ok.mpr ⟨_, inputs, ?_⟩
      simp only [reduceCtorEq, if_false]
      refine Except.bind_eq_ok.mpr ⟨_, run, ?_⟩
      rfl

/-! ## The block's undo chain -/

theorem UndoChain.append {nHeight : Nat} {coins middle bottom : COutPoint → Option Coin}
    {upper lower : List (Nat × CTransaction × Option CTxUndo)}
    (first : UndoChain nHeight coins upper middle) (second : UndoChain nHeight middle lower bottom) :
    UndoChain nHeight coins (upper ++ lower) bottom := by
  induction first with
  | nil => exact second
  | coinbase index coinBase connects _ extended =>
      exact .coinbase index coinBase connects (extended second)
  | spend index spends connects unspent _ extended =>
      exact .spend index spends connects unspent (extended second)

/-- The map holds unspent coins only. -/
def AllUnspent (coins : COutPoint → Option Coin) : Prop :=
  ∀ outpoint, ∀ coin ∈ coins outpoint, coin.IsSpent = false

/-- A view that keeps the coin invariant holds unspent coins only. -/
theorem AllUnspent.of_coinsConsistent {view : CCoinsView} (consistent : view.CoinsConsistent) :
    AllUnspent view.content := by
  intro outpoint coin held
  rw [← CCoinsView.content_settle] at held
  exact consistent.content_unspent held

theorem createOutput_unspent {tx : CTransaction} {nHeight index : Nat} {out : CTxOut}
    {coins : COutPoint → Option Coin} (notNull : out.IsNull = false) (unspent : AllUnspent coins) :
    AllUnspent (createOutput tx nHeight index out coins) := by
  intro outpoint coin held
  rw [Option.mem_def] at held
  unfold createOutput at held
  split at held
  · exact unspent outpoint coin held
  · rw [Function.update_apply] at held
    split at held
    · cases held
      exact notNull
    · exact unspent outpoint coin held

theorem createOutputs_unspent {tx : CTransaction} {nHeight : Nat} :
    ∀ {index : Nat} {outs : List CTxOut} {coins : COutPoint → Option Coin},
      (∀ out ∈ outs, out.IsNull = false) → AllUnspent coins →
        AllUnspent (createOutputs tx nHeight index outs coins)
  | _, [], _, _, unspent => unspent
  | _, out :: rest, _, notNull, unspent => by
      rw [createOutputs]
      exact createOutputs_unspent (fun later member => notNull later (List.mem_cons_of_mem _ member))
        (createOutput_unspent (notNull out List.mem_cons_self) unspent)

/-- `UpdateCoins` adds no spent coin: the outputs are not null. -/
theorem applyTx_unspent {coins : COutPoint → Option Coin} {tx : CTransaction} {nHeight : Nat}
    (notNull : ∀ out ∈ tx.vout, out.IsNull = false) (unspent : AllUnspent coins) :
    AllUnspent (applyTx coins tx nHeight) := by
  refine createOutputs_unspent notNull fun outpoint coin held => ?_
  rw [Option.mem_def] at held
  unfold inputsSpent at held
  split at held
  · exact unspent outpoint coin held
  · dsimp only at held
    split at held
    · cases held
    · exact unspent outpoint coin held

/-- The entries `DisconnectBlock` makes for the transactions after the coinbase, from `index` on. -/
def undoEntries (nHeight : Nat) : Nat → (COutPoint → Option Coin) → List CTransaction →
    List (Nat × CTransaction × Option CTxUndo)
  | _, _, [] => []
  | index, coins, tx :: rest =>
      (index, tx, some (txUndo coins tx)) ::
        undoEntries nHeight (index + 1) (applyTx coins tx nHeight) rest

/--
The entries of transactions that connect, none a coinbase, read last first,
undo them: they lead from the map after them back to the map before.
-/
theorem undoChain_undoEntries (nHeight : Nat) :
    ∀ (index : Nat) {coins : COutPoint → Option Coin} (txs : List CTransaction),
      Connects nHeight coins txs → (∀ tx ∈ txs, tx.IsCoinBase = false) → AllUnspent coins →
      UndoChain nHeight (applyBlock nHeight coins txs) (undoEntries nHeight index coins txs).reverse
        coins
  | _, coins, [], _, _, _ => .nil coins
  | index, coins, tx :: rest, connects, spends, unspent => by
      have later := undoChain_undoEntries nHeight (index + 1) rest connects.2
        (fun other member => spends other (List.mem_cons_of_mem _ member))
        (applyTx_unspent connects.1.notNull unspent)
      rw [undoEntries, List.reverse_cons]
      exact later.append (.spend index (spends tx List.mem_cons_self) connects.1
        (fun input _ => unspent input.prevout) (.nil coins))

theorem length_blockUndo (nHeight : Nat) :
    ∀ (coins : COutPoint → Option Coin) (txs : List CTransaction),
      (blockUndo nHeight coins txs).length = txs.length
  | _, [] => rfl
  | coins, _ :: rest => by
      rw [blockUndo, List.length_cons, length_blockUndo nHeight _ rest, List.length_cons]

/--
The positions `DisconnectBlock` gives the transactions from `index` on,
with their undo data read from `vtxundo`, are the undo entries of those
transactions.
-/
theorem positioned_undoEntries {nHeight : Nat} {vtxundo : List CTxUndo}
    {entry : Nat × CTransaction → Nat × CTransaction × Option CTxUndo}
    (isEntry : ∀ index tx, entry (index, tx) =
      (index, tx, if index > 0 then vtxundo[index - 1]? else none)) :
    ∀ (txs : List CTransaction) (index : Nat) (coins : COutPoint → Option Coin), 0 < index →
      vtxundo.drop (index - 1) = blockUndo nHeight coins txs →
      ((List.range' index txs.length).zip txs).map entry = undoEntries nHeight index coins txs
  | [], _, _, _, _ => rfl
  | tx :: rest, index, coins, positive, undone => by
      have here : vtxundo[index - 1]? = some (txUndo coins tx) := by
        rw [← Nat.add_zero (index - 1), ← List.getElem?_drop, undone, blockUndo]
        rfl
      have later : vtxundo.drop (index + 1 - 1) =
          blockUndo nHeight (applyTx coins tx nHeight) rest := by
        rw [show index + 1 - 1 = index - 1 + 1 by omega, ← List.drop_drop, undone, blockUndo]
        rfl
      rw [List.length_cons, List.range'_succ, List.zip_cons_cons, List.map_cons, isEntry,
        if_pos positive, here, undoEntries,
        positioned_undoEntries isEntry rest (index + 1) _ (Nat.succ_pos index) later]

/-- The entries `DisconnectBlock` makes for a block whose undo data `connectCoins` recorded. -/
theorem withUndo_eq {nHeight : Nat} {coins : COutPoint → Option Coin}
    {coinbase : CTransaction} {rest : List CTransaction}
    {entry : Nat × CTransaction → Nat × CTransaction × Option CTxUndo}
    (isEntry : ∀ index tx, entry (index, tx) = (index, tx,
      if index > 0 then (blockUndo nHeight (applyTx coins coinbase nHeight) rest)[index - 1]?
      else none)) :
    ((List.range (coinbase :: rest).length).zip (coinbase :: rest)).map entry =
      (0, coinbase, none) :: undoEntries nHeight 1 (applyTx coins coinbase nHeight) rest := by
  rw [List.range_eq_range', List.length_cons, List.range'_succ, List.zip_cons_cons,
    List.map_cons, isEntry, if_neg (Nat.lt_irrefl 0),
    positioned_undoEntries isEntry rest 1 _ Nat.one_pos rfl]

/-! ## Disconnecting undoes connecting -/

/--
`DisconnectBlock` on a view holding the coins `applyBlock` leaves, with the
undo data `blockUndo` records, comes back to a view holding the coins before
the block, with a clean result, and then runs the keva undo records.  The
block has its coinbase first and no other, every transaction connects, and
the block's entry has a parent.
-/
theorem DisconnectBlock_of_holds {coins : COutPoint → Option Coin} (unspent : AllUnspent coins)
    {block : CBlock} {coinbase : CTransaction} {rest : List CTransaction}
    (txs : block.vtx = coinbase :: rest) (coinBase : coinbase.IsCoinBase = true)
    (spends : ∀ tx ∈ rest, tx.IsCoinBase = false) {pindex : CBlockIndex}
    (nonnegative : 0 ≤ pindex.nHeight) {hashPrev : uint256}
    (parent : pindex.pprev.GetBlockHash = some hashPrev)
    (connects : Connects pindex.nHeight.toNat coins block.vtx) {base : CCoinsView}
    {top : CCoinsViewCache}
    (holds : (CCoinsView.cache base top).HoldsCoins (applyBlock pindex.nHeight.toNat coins block.vtx))
    (vkevaundo : List CKevaTxUndo) :
    ∃ base' top', (CCoinsView.cache base' top').HoldsCoins coins ∧
      DisconnectBlock block pindex
          ⟨blockUndo pindex.nHeight.toNat (applyTx coins coinbase pindex.nHeight.toNat) rest,
            vkevaundo⟩ base top =
        (fun cache => (.DISCONNECT_OK, base', cache.SetBestBlock hashPrev)) <$>
          undoKevaOperations vkevaundo base' top' := by
  rw [txs] at connects holds
  have chain : UndoChain pindex.nHeight.toNat
      (applyBlock pindex.nHeight.toNat coins (coinbase :: rest))
      ((0, coinbase, none) :: undoEntries pindex.nHeight.toNat 1
        (applyTx coins coinbase pindex.nHeight.toNat) rest).reverse coins := by
    rw [List.reverse_cons]
    exact (undoChain_undoEntries _ 1 rest connects.2 spends
      (applyTx_unspent connects.1.notNull unspent)).append
      (.coinbase 0 coinBase connects.1 (.nil _))
  obtain ⟨base', top', run, restored⟩ := disconnectTransactions_holds chain holds
  rw [Int.toNat_of_nonneg nonnegative] at run
  refine ⟨base', top', restored, ?_⟩
  unfold DisconnectBlock
  rw [txs, if_neg (by rw [length_blockUndo, List.length_cons]; exact not_not.mpr rfl)]
  dsimp only
  rw [withUndo_eq (fun _ _ => rfl), run, Except.ok_bind]
  simp only [reduceCtorEq, if_false]
  rw [parent]
  rfl

/--
`UpdateCoins` on every transaction of a block, in order, and then
`DisconnectBlock` with the undo data recorded, leave a coin-consistent
view holding exactly the coins it held before, with a clean result.  The
block has its coinbase first and no other; every transaction connects to
the map the transactions before it leave (`TxConnects`); the block's
height is not negative, and its entry has a parent for the best block.
-/
theorem DisconnectBlock_undoes_UpdateCoins {base : CCoinsView} {top : CCoinsViewCache}
    (consistent : (CCoinsView.cache base top).CoinsConsistent) {block : CBlock}
    {coinbase : CTransaction} {rest : List CTransaction} (txs : block.vtx = coinbase :: rest)
    (coinBase : coinbase.IsCoinBase = true) (spends : ∀ tx ∈ rest, tx.IsCoinBase = false)
    {pindex : CBlockIndex} (nonnegative : 0 ≤ pindex.nHeight)
    (hasParent : pindex.pprev.GetBlockHash ≠ none)
    (connects : Connects pindex.nHeight.toNat (CCoinsView.cache base top).content block.vtx) :
    ∃ vtxundo base' top',
      connectCoins pindex.nHeight.toNat 0 block.vtx base top [] = .ok (vtxundo, base', top') ∧
      ∃ base'' top'', DisconnectBlock block pindex ⟨vtxundo, []⟩ base' top' =
          .ok (.DISCONNECT_OK, base'', top'') ∧
        (CCoinsView.cache base'' top'').content = (CCoinsView.cache base top).content := by
  obtain ⟨hashPrev, parent⟩ := Option.ne_none_iff_exists'.mp hasParent
  have holds : (CCoinsView.cache base top).HoldsCoins (CCoinsView.cache base top).content :=
    ⟨consistent, rfl⟩
  have connected := connectCoins_block holds (txs ▸ connects)
  rw [← txs] at connected
  obtain ⟨base1, top1, connected, connectedHolds⟩ := connected
  obtain ⟨base2, top2, restored, disconnected⟩ :=
    DisconnectBlock_of_holds (.of_coinsConsistent consistent) txs coinBase spends nonnegative
      parent connects connectedHolds []
  exact ⟨_, base1, top1, connected, base2, top2.SetBestBlock hashPrev, disconnected,
    restored.content⟩

/--
Over an empty database and a new cache without a best block: a coinbase at
height 2, then a transaction spending its output in the same block.
Disconnecting restores the output the second transaction spent before
spending it again with the coinbase's outputs, and the view is empty again.
-/
theorem DisconnectBlock_undoes_UpdateCoins_sameBlockSpend :
    let base : CCoinsView := .db ⟨.empty, .empty, 0, []⟩
    let coinbase : CTransaction :=
      ⟨[⟨COutPoint.null, [], 0xffffffff, ⟨[]⟩⟩], [⟨50, [0x51]⟩], 1, 0, 10⟩
    let spend : CTransaction := ⟨[⟨⟨10, 0⟩, [], 0xffffffff, ⟨[]⟩⟩], [⟨40, [0x51]⟩], 1, 0, 11⟩
    let block : CBlock :=
      ⟨⟨1, 0, 0, 1500000000, 0x1e0fffff, 0, ⟨10, 10, 0, 0, 0, 0, 1⟩⟩, [coinbase, spend]⟩
    let pindex : CBlockIndex := .entry 3 2 0 (.entry 1 1 0 .null .null) .null
    ((CCoinsView.cache base CCoinsViewCache.initial).CoinsConsistent ∧
      coinbase.IsCoinBase = true ∧ (∀ tx ∈ [spend], tx.IsCoinBase = false) ∧
      0 ≤ pindex.nHeight ∧ pindex.pprev.GetBlockHash ≠ none ∧
      Connects pindex.nHeight.toNat (CCoinsView.cache base CCoinsViewCache.initial).content
        block.vtx) ∧
    ∃ vtxundo base' top',
      connectCoins pindex.nHeight.toNat 0 block.vtx base CCoinsViewCache.initial [] =
        .ok (vtxundo, base', top') ∧
      ∃ base'' top'', DisconnectBlock block pindex ⟨vtxundo, []⟩ base' top' =
          .ok (.DISCONNECT_OK, base'', top'') ∧
        (CCoinsView.cache base'' top'').content =
          (CCoinsView.cache base CCoinsViewCache.initial).content :=
  have consistent : (CCoinsView.cache (.db ⟨.empty, .empty, 0, []⟩)
      CCoinsViewCache.initial).CoinsConsistent :=
    ⟨⟨(fun _ _ found => by cases found), by decide⟩,
      CCoinsViewCache.consistent_of_empty rfl rfl (by decide) _⟩
  ⟨⟨consistent, by decide, by decide, by decide, by decide, by decide⟩,
    DisconnectBlock_undoes_UpdateCoins consistent rfl (by decide) (by decide) (by decide)
      (by decide) (by decide)⟩

/--
A coin of height 0, which `ApplyTxInUndo` cannot tell from an undo record
of the old format without a height.  The view holds it at output 0 of
transaction 7 and a coin of height 5 at output 1; a block at height 2
spends output 0 (`CheckTxInputs` accepts the spend, and no output of the
block is held before).  Connecting and disconnecting do not raise an
error, but output 0 comes back with the height of output 1.
-/
theorem height_zero_coin_restored_with_other_height :
    let base : CCoinsView :=
      .db ⟨(SortedMap.empty.insert ⟨7, 0⟩ ⟨⟨50, [0x51]⟩, false, 0⟩).insert ⟨7, 1⟩
        ⟨⟨60, [0x51]⟩, false, 5⟩, .empty, 1, []⟩
    let coinbase : CTransaction :=
      ⟨[⟨COutPoint.null, [], 0xffffffff, ⟨[]⟩⟩], [⟨50, [0x51]⟩], 1, 0, 10⟩
    let spend : CTransaction := ⟨[⟨⟨7, 0⟩, [], 0xffffffff, ⟨[]⟩⟩], [⟨40, [0x51]⟩], 1, 0, 11⟩
    let block : CBlock :=
      ⟨⟨1, 0, 0, 1500000000, 0x1e0fffff, 0, ⟨10, 10, 0, 0, 0, 0, 1⟩⟩, [coinbase, spend]⟩
    let pindex : CBlockIndex := .entry 3 2 0 (.entry 1 1 0 .null .null) .null
    (CCoinsView.cache base CCoinsViewCache.initial).content ⟨10, 0⟩ = none ∧
    (CCoinsView.cache base CCoinsViewCache.initial).content ⟨11, 0⟩ = none ∧
    ∃ base1 top1 vtxundo base2 top2 result base3 top3,
      UpdateCoins base CCoinsViewCache.initial coinbase 2 = .ok (⟨[]⟩, base1, top1) ∧
      (∃ checked, CheckTxInputs spend base1 top1 2 = .ok checked) ∧
      connectCoins 2 0 block.vtx base CCoinsViewCache.initial [] = .ok (vtxundo, base2, top2) ∧
      DisconnectBlock block pindex ⟨vtxundo, []⟩ base2 top2 = .ok (result, base3, top3) ∧
      (CCoinsView.cache base3 top3).content ⟨7, 0⟩ = some ⟨⟨50, [0x51]⟩, false, 5⟩ ∧
      (CCoinsView.cache base CCoinsViewCache.initial).content ⟨7, 0⟩ =
        some ⟨⟨50, [0x51]⟩, false, 0⟩ :=
  ⟨by decide, by decide, _, _, _, _, _, _, _, _, rfl, ⟨_, rfl⟩, rfl, rfl, by decide, by decide⟩

end Kevacoin
