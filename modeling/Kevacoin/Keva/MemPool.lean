import Kevacoin.Keva.Main
import Mathlib.Data.List.Nodup

/-!
# The keva side of the mempool

`CKevaMemPool` in `keva/main.cpp`, the keva parts of `CTxMemPoolEntry`
and `CTxMemPool` in `txmempool.cpp`, and the keva step of
`CWallet::CommitTransaction`.

Besides `mapTx`, the mempool keeps two lists for the RPCs: the
unconfirmed namespace registrations and the unconfirmed key writes, each
item tagged with its transaction id.  Only the wallet adds to them, right
after its transaction entered the pool; every removal of an entry goes
through `removeUnchecked`, which erases the first item with the entry's id
from the list that the entry's cached keva operation selects.

`mapTx` is kept as the list of its entries; its unique index by
transaction id makes an insert of a known id a no-op.  The other indexes,
the fee and size accounting and `mapNextTx` are left out.

The main result: from a pool whose lists are valid, every run of pool
calls keeps them valid: every item belongs to an entry of `mapTx`, sits in
the list that entry's operation selects, and no id appears twice
(`runMemPoolCalls_valid`).  `validateNamespace` and `checkTx` give the
mempool's rule for registrations, which consensus does not enforce.
-/

namespace Kevacoin

/-! ## Entries -/

/-- A script that is not a keva script: `CKevaScript()` holds `OP_NOP` and an empty address. -/
def CKevaScript.nop : CKevaScript :=
  ⟨none, []⟩

/--
The loop that `CTxMemPoolEntry`'s constructor and `CommitTransaction` both
run over a Kevacoin transaction: the parse of its one keva output.  A
second keva output, or none, fails the assertions.
-/
def findKevaOp (tx : CTransaction) : Except Abort CKevaScript := do
  let found ← tx.vout.foldlM
    (fun (kevaOp : CKevaScript) out =>
      let curNameOp := CKevaScript.parse out.scriptPubKey
      if !curNameOp.isKevaOp then pure kevaOp
      else if kevaOp.isKevaOp then throw .assertFailure
      else pure curNameOp)
    CKevaScript.nop
  if !found.isKevaOp then throw .assertFailure
  pure found

/--
`CTxMemPoolEntry`, with the transaction and the keva operation its
constructor caches; the field `built` says that the constructor computed
it, so that the wallet, running the same loop, passes the same operation.
-/
structure CTxMemPoolEntry where
  tx : CTransaction
  kevaOp : CKevaScript
  built : if tx.IsKevacoin then findKevaOp tx = .ok kevaOp else kevaOp = CKevaScript.nop

namespace CTxMemPoolEntry

/-- `CTxMemPoolEntry::CTxMemPoolEntry`, with its assertions. -/
def make (tx : CTransaction) : Except Abort CTxMemPoolEntry :=
  if kevacoin : tx.IsKevacoin then
    match found : findKevaOp tx with
    | .error abort => .error abort
    | .ok kevaOp => .ok ⟨tx, kevaOp, by rw [if_pos kevacoin]; exact found⟩
  else .ok ⟨tx, CKevaScript.nop, by rw [if_neg kevacoin]⟩

/-- `CTxMemPoolEntry::isNamespaceRegistration`. -/
def isNamespaceRegistration (entry : CTxMemPoolEntry) : Bool :=
  entry.kevaOp.op.any KevaOp.isNamespaceRegistration

/-- `CTxMemPoolEntry::isKeyUpdate`: the operation is `OP_KEVA_PUT`. -/
def isKeyUpdate (entry : CTxMemPoolEntry) : Bool :=
  entry.kevaOp.op.any fun op => op.opcode == OP_KEVA_PUT

/-- `CTxMemPoolEntry::isKeyDelete`: the operation is `OP_KEVA_DELETE`. -/
def isKeyDelete (entry : CTxMemPoolEntry) : Bool :=
  entry.kevaOp.op.any KevaOp.isDelete

end CTxMemPoolEntry

/-! ## `CKevaMemPool` -/

/-- `CKevaMemPool`: its two lists. -/
structure CKevaMemPool where
  /-- Items `(txid, namespace, display name)`. -/
  listUnconfirmedNamespaces : List (uint256 × valtype × valtype)
  /-- Items `(txid, namespace, key, value)`; a deletion has the empty value. -/
  listUnconfirmedKeyValues : List (uint256 × valtype × valtype × valtype)
deriving DecidableEq, Repr

namespace CKevaMemPool

/-- `CKevaMemPool::addUnchecked`: list the operation under the transaction id. -/
def addUnchecked (pool : CKevaMemPool) (hash : uint256) (kevaOp : CKevaScript) :
    CKevaMemPool :=
  match kevaOp.op with
  | some (.kevaNamespace nameSpace displayName) =>
      { pool with
        listUnconfirmedNamespaces :=
          pool.listUnconfirmedNamespaces ++ [(hash, nameSpace, displayName)] }
  | some (.kevaPut nameSpace key value) =>
      { pool with
        listUnconfirmedKeyValues :=
          pool.listUnconfirmedKeyValues ++ [(hash, nameSpace, key, value)] }
  | some (.kevaDelete nameSpace key) =>
      { pool with
        listUnconfirmedKeyValues := pool.listUnconfirmedKeyValues ++ [(hash, nameSpace, key, [])] }
  | none => pool

/-- `CKevaMemPool::remove`: erase the first item of the entry's id from the list its operation selects. -/
def remove (pool : CKevaMemPool) (entry : CTxMemPoolEntry) : CKevaMemPool :=
  let hash := entry.tx.GetHash
  let pool :=
    if entry.isNamespaceRegistration then
      { pool with
        listUnconfirmedNamespaces := pool.listUnconfirmedNamespaces.eraseP (·.1 == hash) }
    else pool
  if entry.isKeyUpdate || entry.isKeyDelete then
    { pool with listUnconfirmedKeyValues := pool.listUnconfirmedKeyValues.eraseP (·.1 == hash) }
  else pool

theorem remove_namespaces (pool : CKevaMemPool) (entry : CTxMemPoolEntry) :
    (pool.remove entry).listUnconfirmedNamespaces =
      if entry.isNamespaceRegistration then
        pool.listUnconfirmedNamespaces.eraseP (·.1 == entry.tx.GetHash)
      else pool.listUnconfirmedNamespaces := by
  unfold remove
  split <;> split <;> rfl

theorem remove_keyValues (pool : CKevaMemPool) (entry : CTxMemPoolEntry) :
    (pool.remove entry).listUnconfirmedKeyValues =
      if entry.isKeyUpdate || entry.isKeyDelete then
        pool.listUnconfirmedKeyValues.eraseP (·.1 == entry.tx.GetHash)
      else pool.listUnconfirmedKeyValues := by
  unfold remove
  split <;> split <;> rfl

/-- `CKevaMemPool::clear`. -/
def clear : CKevaMemPool :=
  ⟨[], []⟩

/-- The `KEVA_NAMESPACE` base58 prefix, `[53]` on every network. -/
def KEVA_NAMESPACE_PREFIX : valtype :=
  [53]

/--
`CKevaMemPool::validateNamespace`: the namespace is the prefix followed by
`Hash160` of the transaction id of the first input's previous output.
-/
def validateNamespace (Hash160 : valtype → uint160) (tx : CTransaction) (nameSpace : valtype) :
    Bool :=
  match tx.vin with
  | [] => false
  | input :: _ =>
      KEVA_NAMESPACE_PREFIX ++ (Hash160 input.prevout.hash.toByteVector).toByteVector == nameSpace

/-- `CKevaMemPool::checkTx`: every registration of a Kevacoin transaction has its derived namespace. -/
def checkTx (Hash160 : valtype → uint160) (tx : CTransaction) : Bool :=
  if !tx.IsKevacoin then true
  else
    tx.vout.all fun out =>
      match (CKevaScript.parse out.scriptPubKey).op with
      | some (.kevaNamespace nameSpace _) => validateNamespace Hash160 tx nameSpace
      | _ => true

/-- A registration passes `checkTx` only with a namespace one byte longer than a `Hash160`. -/
theorem validateNamespace_length {Hash160 : valtype → uint160} {tx : CTransaction}
    {nameSpace : valtype} (valid : validateNamespace Hash160 tx nameSpace = true) :
    nameSpace.length = 21 := by
  unfold validateNamespace at valid
  cases inputs : tx.vin with
  | nil =>
      rw [inputs] at valid
      cases valid
  | cons input rest =>
      rw [inputs, beq_iff_eq] at valid
      rw [← valid]
      simp [KEVA_NAMESPACE_PREFIX, uint160.toByteVector]

end CKevaMemPool

/-! ## The pool -/

/-- `CTxMemPool`: the entries of `mapTx` and the keva lists. -/
structure CTxMemPool where
  mapTx : List CTxMemPoolEntry
  kevaMemPool : CKevaMemPool

namespace CTxMemPool

/-- `CTxMemPool::exists`. -/
def «exists» (pool : CTxMemPool) (hash : uint256) : Bool :=
  pool.mapTx.any fun entry => entry.tx.GetHash == hash

/-- `CTxMemPool::addUnchecked`: the unique index by id refuses a known id. -/
def addUnchecked (pool : CTxMemPool) (entry : CTxMemPoolEntry) : CTxMemPool :=
  if pool.exists entry.tx.GetHash then pool
  else { pool with mapTx := pool.mapTx ++ [entry] }

/-- `CTxMemPool::addKevaUnchecked`. -/
def addKevaUnchecked (pool : CTxMemPool) (hash : uint256) (kevaOp : CKevaScript) :
    CTxMemPool :=
  { pool with kevaMemPool := pool.kevaMemPool.addUnchecked hash kevaOp }

/-- `CTxMemPool::removeUnchecked`: the keva lists first, then `mapTx`. -/
def removeUnchecked (pool : CTxMemPool) (entry : CTxMemPoolEntry) : CTxMemPool :=
  { mapTx := pool.mapTx.filter fun other => other.tx.GetHash != entry.tx.GetHash
    kevaMemPool := pool.kevaMemPool.remove entry }

/--
`CTxMemPool::RemoveStaged`, through which `removeRecursive`,
`removeForBlock`, `removeConflicts`, `TrimToSize`, `Expire` and
`removeForReorg` remove entries: `removeUnchecked` of each staged entry.
-/
def RemoveStaged (pool : CTxMemPool) (stage : List uint256) : CTxMemPool :=
  stage.foldl
    (fun pool hash =>
      match pool.mapTx.find? fun entry => entry.tx.GetHash == hash with
      | some entry => pool.removeUnchecked entry
      | none => pool)
    pool

/-- `CTxMemPool::_clear`. -/
def clear : CTxMemPool :=
  ⟨[], CKevaMemPool.clear⟩

end CTxMemPool

/-- The calls that change the pool's entries or keva lists. -/
inductive MemPoolCall where
  /-- `AcceptToMemoryPool` of a transaction from the network: `addUnchecked`. -/
  | accept (entry : CTxMemPoolEntry)
  /-- `CommitTransaction`: `AcceptToMemoryPool`, and on success `addKevaUnchecked`. -/
  | commit (entry : CTxMemPoolEntry)
  /-- A removal path, with the ids it stages. -/
  | removeStaged (stage : List uint256)
  /-- `CTxMemPool::clear`. -/
  | clear

namespace MemPoolCall

/--
One call.  `AcceptToMemoryPool` rejects a transaction already in the pool
(`txn-already-in-mempool`); the wallet then adds nothing to the lists.
-/
def run (pool : CTxMemPool) : MemPoolCall → CTxMemPool
  | .accept entry =>
      if pool.exists entry.tx.GetHash then pool else pool.addUnchecked entry
  | .commit entry =>
      if pool.exists entry.tx.GetHash then pool
      else if entry.tx.IsKevacoin then
        (pool.addUnchecked entry).addKevaUnchecked entry.tx.GetHash entry.kevaOp
      else pool.addUnchecked entry
  | .removeStaged stage => pool.RemoveStaged stage
  | .clear => CTxMemPool.clear

end MemPoolCall

/-- A run of calls from a pool. -/
def runMemPoolCalls (pool : CTxMemPool) (calls : List MemPoolCall) : CTxMemPool :=
  calls.foldl MemPoolCall.run pool

/-! ## The lists stay valid -/

/-- Erasing the first item with a key from a list without repeated keys leaves none with it. -/
theorem List.key_ne_of_mem_eraseP {α κ : Type} [BEq κ] [LawfulBEq κ] {key : α → κ} {hash : κ} :
    ∀ {items : List α} {item : α}, (items.map key).Nodup →
      item ∈ items.eraseP (fun other => key other == hash) → key item ≠ hash
  | [], _, _, member => by
      cases member
  | first :: rest, item, nodup, member => by
      rw [List.map_cons, List.nodup_cons] at nodup
      by_cases hit : key first = hash
      · rw [List.eraseP_cons_of_pos (by simpa using hit)] at member
        intro same
        exact nodup.1 (List.mem_map.mpr ⟨item, member, by rw [same, hit]⟩)
      · rw [List.eraseP_cons_of_neg (by simpa using hit), List.mem_cons] at member
        rcases member with same | later
        · rw [same]
          exact hit
        · exact List.key_ne_of_mem_eraseP nodup.2 later

/-- Appending an item with a new key keeps the keys of a list distinct. -/
theorem List.nodup_map_append_fresh {α κ : Type} {key : α → κ} {items : List α} {item : α}
    (nodup : (items.map key).Nodup) (fresh : key item ∉ items.map key) :
    ((items ++ [item]).map key).Nodup := by
  rw [List.map_append, List.nodup_append]
  refine ⟨nodup, List.nodup_singleton _, ?_⟩
  intro old inOld new inNew same
  rw [List.map_singleton, List.mem_singleton] at inNew
  rw [same, inNew] at inOld
  exact fresh inOld

namespace CTxMemPool

/--
What the keva lists must satisfy, with the uniqueness of ids in `mapTx`
that keeps it: every item is the id of an entry whose operation selects
its list, and no id is listed twice.
-/
structure KevaListsValid (pool : CTxMemPool) : Prop where
  idsNodup : (pool.mapTx.map fun entry => entry.tx.GetHash).Nodup
  namespacesListed : ∀ item ∈ pool.kevaMemPool.listUnconfirmedNamespaces,
    ∃ entry ∈ pool.mapTx, entry.tx.GetHash = item.1 ∧ entry.isNamespaceRegistration = true
  keyValuesListed : ∀ item ∈ pool.kevaMemPool.listUnconfirmedKeyValues,
    ∃ entry ∈ pool.mapTx, entry.tx.GetHash = item.1 ∧
      (entry.isKeyUpdate || entry.isKeyDelete) = true
  listsNodup : (pool.kevaMemPool.listUnconfirmedNamespaces.map (·.1) ++
    pool.kevaMemPool.listUnconfirmedKeyValues.map (·.1)).Nodup

theorem exists_eq_false {pool : CTxMemPool} {hash : uint256}
    (absent : pool.exists hash = false) : ∀ entry ∈ pool.mapTx, entry.tx.GetHash ≠ hash := by
  intro entry member same
  have found : pool.exists hash = true :=
    List.any_eq_true.mpr ⟨entry, member, by rw [same]; exact beq_self_eq_true hash⟩
  rw [found] at absent
  cases absent

theorem valid_clear : CTxMemPool.clear.KevaListsValid :=
  ⟨List.nodup_nil, fun _ member => absurd member List.not_mem_nil,
    fun _ member => absurd member List.not_mem_nil, List.nodup_nil⟩

variable {pool : CTxMemPool}

/-- Adding an entry only adds to `mapTx`. -/
theorem KevaListsValid.addUnchecked (valid : pool.KevaListsValid) (entry : CTxMemPoolEntry) :
    (pool.addUnchecked entry).KevaListsValid := by
  unfold CTxMemPool.addUnchecked
  cases known : pool.exists entry.tx.GetHash with
  | true =>
      exact valid
  | false =>
      simp only [Bool.false_eq_true, if_false]
      have fresh := exists_eq_false known
      refine ⟨?_, ?_, ?_, valid.listsNodup⟩
      · refine List.nodup_map_append_fresh valid.idsNodup ?_
        intro inOld
        obtain ⟨older, olderMember, same⟩ := List.mem_map.mp inOld
        exact fresh older olderMember same
      · intro item member
        obtain ⟨owner, ownerMember, owned⟩ := valid.namespacesListed item member
        exact ⟨owner, List.mem_append_left _ ownerMember, owned⟩
      · intro item member
        obtain ⟨owner, ownerMember, owned⟩ := valid.keyValuesListed item member
        exact ⟨owner, List.mem_append_left _ ownerMember, owned⟩

/-- Every listed id is the id of an entry of `mapTx`. -/
theorem KevaListsValid.listed_mem (valid : pool.KevaListsValid) {hash : uint256}
    (listed : hash ∈ pool.kevaMemPool.listUnconfirmedNamespaces.map (·.1) ++
      pool.kevaMemPool.listUnconfirmedKeyValues.map (·.1)) :
    ∃ entry ∈ pool.mapTx, entry.tx.GetHash = hash := by
  rcases List.mem_append.mp listed with inNamespaces | inKeyValues
  · obtain ⟨item, member, rfl⟩ := List.mem_map.mp inNamespaces
    obtain ⟨entry, entryMember, same, -⟩ := valid.namespacesListed item member
    exact ⟨entry, entryMember, same⟩
  · obtain ⟨item, member, rfl⟩ := List.mem_map.mp inKeyValues
    obtain ⟨entry, entryMember, same, -⟩ := valid.keyValuesListed item member
    exact ⟨entry, entryMember, same⟩

/-- Putting a new id into either list keeps the ids of both distinct. -/
theorem List.nodup_append_insert {α : Type} {front back : List α} {new : α}
    (nodup : (front ++ back).Nodup) (fresh : new ∉ front ++ back) :
    (front ++ [new] ++ back).Nodup ∧ (front ++ (back ++ [new])).Nodup := by
  constructor
  · rw [List.append_assoc, List.singleton_append]
    exact List.perm_middle.nodup_iff.mpr (List.nodup_cons.mpr ⟨fresh, nodup⟩)
  · rw [← List.append_assoc]
    exact (List.perm_append_singleton _ _).nodup_iff.mpr (List.nodup_cons.mpr ⟨fresh, nodup⟩)

/-- The wallet's step: a new entry, and its operation listed under its id. -/
theorem KevaListsValid.commit (valid : pool.KevaListsValid) {entry : CTxMemPoolEntry}
    (absent : pool.exists entry.tx.GetHash = false) :
    ((pool.addUnchecked entry).addKevaUnchecked entry.tx.GetHash entry.kevaOp).KevaListsValid := by
  have added := valid.addUnchecked entry
  have mapTxAdded : (pool.addUnchecked entry).mapTx = pool.mapTx ++ [entry] := by
    rw [CTxMemPool.addUnchecked, absent]
    rfl
  have listsAdded : (pool.addUnchecked entry).kevaMemPool = pool.kevaMemPool := by
    rw [CTxMemPool.addUnchecked, absent]
    rfl
  have entryMember : entry ∈ (pool.addUnchecked entry).mapTx := by
    rw [mapTxAdded]
    exact List.mem_append_right _ (List.mem_singleton_self _)
  have fresh : entry.tx.GetHash ∉
      (pool.addUnchecked entry).kevaMemPool.listUnconfirmedNamespaces.map (·.1) ++
        (pool.addUnchecked entry).kevaMemPool.listUnconfirmedKeyValues.map (·.1) := by
    rw [listsAdded]
    intro listed
    obtain ⟨owner, ownerMember, same⟩ := valid.listed_mem listed
    exact exists_eq_false absent owner ownerMember same
  have inserted := List.nodup_append_insert added.listsNodup fresh
  unfold CTxMemPool.addKevaUnchecked CKevaMemPool.addUnchecked
  cases operation : entry.kevaOp.op with
  | none =>
      exact added
  | some op =>
      cases op with
      | kevaNamespace nameSpace displayName =>
          refine ⟨added.idsNodup, ?_, added.keyValuesListed, ?_⟩
          · intro item member
            rcases List.mem_append.mp member with old | new
            · exact added.namespacesListed item old
            · rw [List.mem_singleton] at new
              subst new
              exact ⟨entry, entryMember, rfl, by
                simp [CTxMemPoolEntry.isNamespaceRegistration, operation,
                  KevaOp.isNamespaceRegistration]⟩
          · simpa only [List.map_append, List.map_singleton] using inserted.1
      | kevaPut nameSpace key value =>
          refine ⟨added.idsNodup, added.namespacesListed, ?_, ?_⟩
          · intro item member
            rcases List.mem_append.mp member with old | new
            · exact added.keyValuesListed item old
            · rw [List.mem_singleton] at new
              subst new
              exact ⟨entry, entryMember, rfl, by
                simp [CTxMemPoolEntry.isKeyUpdate, operation, KevaOp.opcode]⟩
          · simpa only [List.map_append, List.map_singleton] using inserted.2
      | kevaDelete nameSpace key =>
          refine ⟨added.idsNodup, added.namespacesListed, ?_, ?_⟩
          · intro item member
            rcases List.mem_append.mp member with old | new
            · exact added.keyValuesListed item old
            · rw [List.mem_singleton] at new
              subst new
              exact ⟨entry, entryMember, rfl, by
                simp [CTxMemPoolEntry.isKeyDelete, operation, KevaOp.isDelete]⟩
          · simpa only [List.map_append, List.map_singleton] using inserted.2

/-- A list with the first item of a key erased, or kept whole. -/
theorem List.select_erase_sublist {α : Type} (items : List (uint256 × α)) (selected : Bool)
    (hash : uint256) :
    List.Sublist (if selected then items.eraseP (·.1 == hash) else items) items := by
  cases selected with
  | true => exact List.eraseP_sublist
  | false => exact List.Sublist.refl _

/--
Items with distinct ids, with the first of an id erased when `selected`:
none with that id is left, if none had it when not `selected`.
-/
theorem List.key_ne_of_mem_select {α : Type} {items : List (uint256 × α)} {selected : Bool}
    {hash : uint256} (nodup : (items.map (·.1)).Nodup)
    (unselected : selected = false → ∀ item ∈ items, item.1 ≠ hash) :
    ∀ item ∈ (if selected then items.eraseP (·.1 == hash) else items), item.1 ≠ hash := by
  intro item member
  cases selected with
  | true => exact List.key_ne_of_mem_eraseP nodup member
  | false => exact unselected rfl item member

/-- Two entries of `mapTx` with one id are one entry. -/
theorem KevaListsValid.entry_unique (valid : pool.KevaListsValid) {first second : CTxMemPoolEntry}
    (firstMember : first ∈ pool.mapTx) (secondMember : second ∈ pool.mapTx)
    (same : first.tx.GetHash = second.tx.GetHash) : first = second :=
  List.inj_on_of_nodup_map valid.idsNodup firstMember secondMember same

/--
Removing an entry of `mapTx` erases its item from the list its operation
selects; the other list holds none, so no item outlives its entry.
-/
theorem KevaListsValid.removeUnchecked (valid : pool.KevaListsValid) {entry : CTxMemPoolEntry}
    (member : entry ∈ pool.mapTx) : (pool.removeUnchecked entry).KevaListsValid := by
  have separate := List.nodup_append.mp valid.listsNodup
  have notNamespace : entry.isNamespaceRegistration = false →
      ∀ item ∈ pool.kevaMemPool.listUnconfirmedNamespaces, item.1 ≠ entry.tx.GetHash := by
    intro unselected item itemMember same
    obtain ⟨owner, ownerMember, ownerHash, registration⟩ :=
      valid.namespacesListed item itemMember
    rw [valid.entry_unique ownerMember member (ownerHash.trans same), unselected] at registration
    cases registration
  have notKeyValue : (entry.isKeyUpdate || entry.isKeyDelete) = false →
      ∀ item ∈ pool.kevaMemPool.listUnconfirmedKeyValues, item.1 ≠ entry.tx.GetHash := by
    intro unselected item itemMember same
    obtain ⟨owner, ownerMember, ownerHash, update⟩ := valid.keyValuesListed item itemMember
    rw [valid.entry_unique ownerMember member (ownerHash.trans same), unselected] at update
    cases update
  have survivesFilter : ∀ owner ∈ pool.mapTx, owner.tx.GetHash ≠ entry.tx.GetHash →
      owner ∈ (pool.removeUnchecked entry).mapTx := by
    intro owner ownerMember differs
    exact List.mem_filter.mpr ⟨ownerMember, bne_iff_ne.mpr differs⟩
  refine ⟨?_, ?_, ?_, ?_⟩
  · exact valid.idsNodup.sublist ((List.filter_sublist).map _)
  · intro item itemMember
    rw [CTxMemPool.removeUnchecked, CKevaMemPool.remove_namespaces] at itemMember
    have kept := List.key_ne_of_mem_select separate.1 notNamespace item itemMember
    obtain ⟨owner, ownerMember, ownerHash, registration⟩ := valid.namespacesListed item
      ((List.select_erase_sublist _ _ _).subset itemMember)
    exact ⟨owner, survivesFilter owner ownerMember (ownerHash ▸ kept), ownerHash, registration⟩
  · intro item itemMember
    rw [CTxMemPool.removeUnchecked, CKevaMemPool.remove_keyValues] at itemMember
    have kept := List.key_ne_of_mem_select separate.2.1 notKeyValue item itemMember
    obtain ⟨owner, ownerMember, ownerHash, update⟩ := valid.keyValuesListed item
      ((List.select_erase_sublist _ _ _).subset itemMember)
    exact ⟨owner, survivesFilter owner ownerMember (ownerHash ▸ kept), ownerHash, update⟩
  · rw [CTxMemPool.removeUnchecked, CKevaMemPool.remove_namespaces,
      CKevaMemPool.remove_keyValues]
    exact valid.listsNodup.sublist
      (((List.select_erase_sublist _ _ _).map _).append ((List.select_erase_sublist _ _ _).map _))

/-- `RemoveStaged` removes entries of `mapTx` one by one. -/
theorem KevaListsValid.RemoveStaged :
    ∀ {pool : CTxMemPool} (stage : List uint256), pool.KevaListsValid →
      (pool.RemoveStaged stage).KevaListsValid
  | _, [], valid => valid
  | pool, hash :: rest, valid => by
      unfold CTxMemPool.RemoveStaged
      rw [List.foldl_cons]
      cases found : pool.mapTx.find? (fun entry => entry.tx.GetHash == hash) with
      | none =>
          exact KevaListsValid.RemoveStaged rest valid
      | some entry =>
          exact KevaListsValid.RemoveStaged rest
            (valid.removeUnchecked (List.mem_of_find?_eq_some found))

end CTxMemPool

namespace MemPoolCall

/-- Every pool call keeps the keva lists valid. -/
theorem run_valid {pool : CTxMemPool} (valid : pool.KevaListsValid) :
    ∀ call : MemPoolCall, (call.run pool).KevaListsValid
  | .accept entry => by
      rw [run]
      split
      · exact valid
      · exact valid.addUnchecked entry
  | .commit entry => by
      rw [run]
      cases known : pool.exists entry.tx.GetHash with
      | true =>
          exact valid
      | false =>
          rw [if_neg Bool.false_ne_true]
          split
          · exact valid.commit known
          · exact valid.addUnchecked entry
  | .removeStaged stage => valid.RemoveStaged stage
  | .clear => CTxMemPool.valid_clear

end MemPoolCall

/-- From a pool whose keva lists are valid, every run of calls keeps them valid. -/
theorem runMemPoolCalls_valid {pool : CTxMemPool} (valid : pool.KevaListsValid) :
    ∀ calls : List MemPoolCall, (runMemPoolCalls pool calls).KevaListsValid := by
  intro calls
  induction calls generalizing pool with
  | nil =>
      exact valid
  | cons call rest induction =>
      exact induction (MemPoolCall.run_valid valid call)

/--
The keva lists of the mempool, which starts empty, stay valid over every
run of pool calls: every listed id is the id of an entry of `mapTx` whose
operation selects that list, and no id is listed twice.
-/
theorem keva_lists_valid_from_empty (calls : List MemPoolCall) :
    (runMemPoolCalls CTxMemPool.clear calls).KevaListsValid :=
  runMemPoolCalls_valid CTxMemPool.valid_clear calls

end Kevacoin
