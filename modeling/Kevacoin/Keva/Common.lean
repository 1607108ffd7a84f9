import Kevacoin.Primitives.Transaction
import Kevacoin.Data.Overlay

/-!
# Keva data and the keva cache

`keva/common.h` and `keva/common.cpp`: the record `CKevaData` that the
keva database stores for a (namespace, key) pair, and `CKevaCache`, the
record of changes that a `CCoinsViewCache` keeps on top of its base view.

A cache is a map of new or updated entries, ordered by
`CKevaCache::KeyComparator`, and a set of deleted names, ordered as
`std::tuple`.  Its meaning is an `Overlay.Layer`: `toLayer_set`,
`toLayer_remove` and `toLayer_apply` show that `set`, `remove` and `apply`
are the layer operations `put`, `remove` and `merge`, so every fact about
reading through caches follows from the overlay library.
-/

namespace Kevacoin

open SortedAssoc

/-- `CKevaData`: the value, height, last update outpoint and address of a name. -/
structure CKevaData where
  value : valtype
  nHeight : Nat
  prevout : COutPoint
  addr : CScript
deriving DecidableEq, Repr

namespace CKevaData

/--
A default-constructed `CKevaData`.  Its height is left uninitialised by the
source; every path that reads a height first overwrites it.
-/
def initial : CKevaData := ⟨[], 0, COutPoint.null, []⟩

/-- `CKevaData::setUpdateOutpoint`. -/
def setUpdateOutpoint (data : CKevaData) (out : COutPoint) : CKevaData :=
  { data with prevout := out }

/--
`CKevaData::fromScript`: the value of a `KEVA_PUT` or the display name of a
registration; a `KEVA_DELETE` keeps the old value.  Height, outpoint and
address are always set.
-/
def fromScript (data : CKevaData) (h : Nat) (out : COutPoint) (op : KevaOp)
    (address : CScript) : CKevaData :=
  let value :=
    match op with
    | .kevaPut _ _ value => value
    | .kevaDelete .. => data.value
    | .kevaNamespace _ displayName => displayName
  ⟨value, h, out, address⟩

end CKevaData

/-! ## Comparators -/

/-- `operator<` of `std::vector<unsigned char>`: lexicographic on bytes. -/
def valtypeLt : valtype → valtype → Bool
  | [], [] => false
  | [], _ :: _ => true
  | _ :: _, [] => false
  | a :: as, b :: bs => a < b || (a == b && valtypeLt as bs)

/-- `CKevaCache::NamespaceKeyType`: a namespace and a key. -/
abbrev NamespaceKeyType := valtype × valtype

/--
`CKevaCache::KeyComparator`, the order of the database: namespaces
lexicographically, keys of one namespace by length and then by bytes.
-/
def keyComparator (a b : NamespaceKeyType) : Bool :=
  if a.1 = b.1 then
    if a.2.length = b.2.length then valtypeLt a.2 b.2
    else a.2.length < b.2.length
  else valtypeLt a.1 b.1

/-- `operator<` of `std::tuple<valtype, valtype>`, the order of `std::set<NamespaceKeyType>`. -/
def namespaceKeyLt (a b : NamespaceKeyType) : Bool :=
  valtypeLt a.1 b.1 || (!valtypeLt b.1 a.1 && valtypeLt a.2 b.2)

/-! ## The cache -/

/-- `CKevaCache`: new or updated names, and deleted names. -/
structure CKevaCache where
  entries : SortedMap NamespaceKeyType CKevaData keyComparator
  deleted : SortedSet NamespaceKeyType namespaceKeyLt

namespace CKevaCache

/-- A default-constructed cache, which is also what `clear` leaves. -/
def initial : CKevaCache := ⟨.empty, .empty⟩

/-- `CKevaCache::empty`: no cached changes. -/
def empty (cache : CKevaCache) : Bool :=
  cache.entries.toList.isEmpty && cache.deleted.toList.isEmpty

/-- `CKevaCache::isDeleted`. -/
def isDeleted (cache : CKevaCache) (nameSpace key : valtype) : Bool :=
  cache.deleted.contains (nameSpace, key)

/-- `CKevaCache::get`: looks only in the entries, not in the deleted set. -/
def get (cache : CKevaCache) (nameSpace key : valtype) : Option CKevaData :=
  cache.entries.find? (nameSpace, key)

/-- `CKevaCache::GetNamespace`: the display-name entry of a namespace. -/
def getNamespace (cache : CKevaCache) (nameSpace : valtype) :
    Option CKevaData :=
  cache.get nameSpace CKevaScript.KEVA_DISPLAY_NAME_KEY

/-- `CKevaCache::set`: lift a deletion mark, then update or insert the entry. -/
def set (cache : CKevaCache) (nameSpace key : valtype) (data : CKevaData) :
    CKevaCache :=
  let name := (nameSpace, key)
  let deleted :=
    if cache.deleted.contains name then cache.deleted.erase name
    else cache.deleted
  ⟨cache.entries.put name data, deleted⟩

/-- `CKevaCache::setNamespace`. -/
def setNamespace (cache : CKevaCache) (nameSpace : valtype)
    (data : CKevaData) : CKevaCache :=
  cache.set nameSpace CKevaScript.KEVA_DISPLAY_NAME_KEY data

/-- `CKevaCache::remove`: drop a present entry and mark the name deleted. -/
def remove (cache : CKevaCache) (nameSpace key : valtype) : CKevaCache :=
  let name := (nameSpace, key)
  let entries :=
    if (cache.entries.find? name).isSome then cache.entries.erase name
    else cache.entries
  ⟨entries, cache.deleted.insert name⟩

/-- `CKevaCache::apply`: replay the entries of `other`, then its deletions. -/
def apply (cache other : CKevaCache) : CKevaCache :=
  let updated :=
    other.entries.toList.foldl
      (fun current entry => current.set entry.1.1 entry.1.2 entry.2) cache
  other.deleted.toList.foldl
    (fun current name => current.remove name.1 name.2) updated

/-! ## The cache as an overlay layer -/

/-- The changes a cache records, as an overlay layer. -/
def toLayer (cache : CKevaCache) : Overlay.Layer NamespaceKeyType CKevaData :=
  ⟨cache.entries.find?, cache.deleted.contains⟩

/-- The cache invariant: no name is both an entry and deleted. -/
def Disjoint (cache : CKevaCache) : Prop :=
  cache.toLayer.Disjoint

@[simp]
theorem toLayer_initial : initial.toLayer = Overlay.Layer.empty := rfl

theorem toLayer_set (cache : CKevaCache) (nameSpace key : valtype)
    (data : CKevaData) :
    (cache.set nameSpace key data).toLayer =
      cache.toLayer.put (nameSpace, key) data := by
  have tombstone :
      (if cache.deleted.contains (nameSpace, key) then
          cache.deleted.erase (nameSpace, key)
        else cache.deleted).contains =
        Function.update cache.deleted.contains (nameSpace, key) false := by
    split_ifs with marked
    · exact SortedSet.contains_erase_eq_update _ _
    · funext probe
      by_cases hit : probe = (nameSpace, key)
      · subst hit
        simpa using marked
      · rw [Function.update_of_ne hit]
  simp only [set, toLayer, Overlay.Layer.put, SortedMap.find?_put, tombstone]

theorem toLayer_remove (cache : CKevaCache) (nameSpace key : valtype) :
    (cache.remove nameSpace key).toLayer =
      cache.toLayer.remove (nameSpace, key) := by
  have entry :
      (if (cache.entries.find? (nameSpace, key)).isSome then
          cache.entries.erase (nameSpace, key)
        else cache.entries).find? =
        Function.update cache.entries.find? (nameSpace, key) none := by
    split_ifs with present
    · exact SortedMap.find?_erase_eq_update _ _
    · funext probe
      by_cases hit : probe = (nameSpace, key)
      · subst hit
        simpa using present
      · rw [Function.update_of_ne hit]
  simp only [remove, toLayer, Overlay.Layer.remove,
    SortedSet.contains_insert_eq_update, entry]

theorem toLayer_foldl_set (cache : CKevaCache)
    (entries : List (NamespaceKeyType × CKevaData)) :
    (entries.foldl (fun current entry => current.set entry.1.1 entry.1.2 entry.2)
        cache).toLayer =
      cache.toLayer.putAll entries := by
  induction entries generalizing cache with
  | nil =>
      rfl
  | cons entry rest induction =>
      rw [List.foldl_cons, induction, toLayer_set]
      rfl

theorem toLayer_foldl_remove (cache : CKevaCache)
    (names : List NamespaceKeyType) :
    (names.foldl (fun current name => current.remove name.1 name.2)
        cache).toLayer =
      cache.toLayer.removeAll names := by
  induction names generalizing cache with
  | nil =>
      rfl
  | cons name rest induction =>
      rw [List.foldl_cons, induction, toLayer_remove]
      rfl

/-- The layer of a cache is the layer its lists describe. -/
theorem toLayer_eq_ofLists (cache : CKevaCache) :
    cache.toLayer =
      Overlay.Layer.ofLists cache.entries.toList cache.deleted.toList := rfl

/-- `apply` is the overlay merge of the two caches' layers. -/
theorem toLayer_apply (cache other : CKevaCache) :
    (cache.apply other).toLayer = cache.toLayer.merge other.toLayer := by
  rw [apply, toLayer_foldl_remove, toLayer_foldl_set, toLayer_eq_ofLists other,
    Overlay.Layer.removeAll_putAll _ other.entries.nodupKeys]

theorem disjoint_initial : initial.Disjoint :=
  Overlay.Layer.disjoint_empty

theorem Disjoint.set {cache : CKevaCache} (disjoint : cache.Disjoint)
    (nameSpace key : valtype) (data : CKevaData) :
    (cache.set nameSpace key data).Disjoint := by
  unfold CKevaCache.Disjoint
  rw [toLayer_set]
  exact Overlay.Layer.Disjoint.put disjoint _ _

theorem Disjoint.remove {cache : CKevaCache} (disjoint : cache.Disjoint)
    (nameSpace key : valtype) : (cache.remove nameSpace key).Disjoint := by
  unfold CKevaCache.Disjoint
  rw [toLayer_remove]
  exact Overlay.Layer.Disjoint.remove disjoint _

theorem Disjoint.apply {cache : CKevaCache} (disjoint : cache.Disjoint)
    (other : CKevaCache) : (cache.apply other).Disjoint := by
  unfold CKevaCache.Disjoint
  rw [toLayer_apply]
  exact Overlay.Layer.Disjoint.merge _ disjoint

end CKevaCache

end Kevacoin
