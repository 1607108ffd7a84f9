import Kevacoin.Data.SortedAssoc
import Mathlib.Logic.Function.Basic

/-!
# Write-back overlays with tombstones

A cache layer over a base store records changes only: for some keys a new
value, for others a tombstone saying that the key was removed.  Reading
through the layer answers from the tombstone or the entry where the layer
has one, and from the base otherwise.  A layer is replayed into its parent
layer, entries first and tombstones second, or written into a flat store.

Replaying a child into its parent does not change what is read through
the two of them (`Layer.read_merge`): a key that has both an entry and a
tombstone reads as removed on either side, since tombstones are replayed
last.  Writing a layer into a store gives the store that the layer read
over the old one (`Layer.read_eq_writeInto`).  That no key has both an
entry and a tombstone (`Layer.Disjoint`) is kept by every update and by
replay.  All of this holds for every key type, value type and base store.
-/

namespace Overlay

variable {κ ν : Type}

/-- A layer of changes over a base store. -/
structure Layer (κ ν : Type) where
  entries : κ → Option ν
  deleted : κ → Bool

namespace Layer

/-- The layer without changes. -/
def empty : Layer κ ν := ⟨fun _ => none, fun _ => false⟩

/-- No key has both an entry and a tombstone. -/
def Disjoint (layer : Layer κ ν) : Prop :=
  ∀ key, layer.deleted key = true → layer.entries key = none

/-- Read through a layer: a tombstone hides the base, an entry shadows it. -/
def read (layer : Layer κ ν) (base : κ → Option ν) (key : κ) : Option ν :=
  if layer.deleted key then none
  else
    match layer.entries key with
    | some value => some value
    | none => base key

/-- Replay `child` on `parent`: the child's entries first, then its tombstones. -/
def merge (parent child : Layer κ ν) : Layer κ ν where
  entries key :=
    if child.deleted key then none
    else
      match child.entries key with
      | some value => some value
      | none => parent.entries key
  deleted key :=
    child.deleted key || (parent.deleted key && (child.entries key).isNone)

/-- Write a layer into a flat store: entries are written, tombstones erase. -/
def writeInto (layer : Layer κ ν) (store : κ → Option ν) : κ → Option ν :=
  fun key =>
    if layer.deleted key then none
    else (layer.entries key).elim (store key) some

@[simp]
theorem read_empty (base : κ → Option ν) :
    (empty : Layer κ ν).read base = base := by
  funext key
  simp [read, empty]

theorem disjoint_empty : (empty : Layer κ ν).Disjoint := by
  intro key marked
  simp [empty] at marked

theorem Disjoint.merge {parent : Layer κ ν} (child : Layer κ ν)
    (parentDisjoint : parent.Disjoint) :
    (parent.merge child).Disjoint := by
  intro key marked
  simp only [Layer.merge, Bool.or_eq_true, Bool.and_eq_true,
    Option.isNone_iff_eq_none] at marked ⊢
  rcases marked with tomb | ⟨parentTomb, noEntry⟩
  · simp [tomb]
  · by_cases tomb : child.deleted key = true
    · simp [tomb]
    · simp [tomb, noEntry, parentDisjoint key parentTomb]

/--
Replaying a child into its parent leaves every read through the pair
unchanged: a key with both an entry and a tombstone reads as removed on
either side, since the tombstones are replayed last.
-/
theorem read_merge (parent child : Layer κ ν) (base : κ → Option ν) :
    (parent.merge child).read base = child.read (parent.read base) := by
  funext key
  by_cases tomb : child.deleted key = true
  · simp [read, merge, tomb]
  · have notTomb : child.deleted key = false := by simpa using tomb
    cases entry : child.entries key with
    | some value =>
        simp [read, merge, notTomb, entry]
    | none =>
        simp [read, merge, notTomb, entry]

/-- Writing a layer into a store gives what the layer read over that store. -/
theorem read_eq_writeInto (layer : Layer κ ν) (store : κ → Option ν) :
    layer.read store = layer.writeInto store := by
  funext key
  unfold read writeInto
  cases layer.entries key <;> simp

section Update

variable [DecidableEq κ]

/-- Record that `key` holds `value`, lifting a tombstone. -/
def put (layer : Layer κ ν) (key : κ) (value : ν) : Layer κ ν :=
  ⟨Function.update layer.entries key (some value),
    Function.update layer.deleted key false⟩

/-- Record that `key` was removed. -/
def remove (layer : Layer κ ν) (key : κ) : Layer κ ν :=
  ⟨Function.update layer.entries key none,
    Function.update layer.deleted key true⟩

theorem Disjoint.put {layer : Layer κ ν} (disjoint : layer.Disjoint)
    (key : κ) (value : ν) : (layer.put key value).Disjoint := by
  intro probe marked
  by_cases hit : probe = key
  · subst hit
    simp [Layer.put] at marked
  · simp only [Layer.put, Function.update_of_ne hit] at marked ⊢
    exact disjoint probe marked

theorem Disjoint.remove {layer : Layer κ ν} (disjoint : layer.Disjoint)
    (key : κ) : (layer.remove key).Disjoint := by
  intro probe marked
  by_cases hit : probe = key
  · subst hit
    simp [Layer.remove]
  · simp only [Layer.remove, Function.update_of_ne hit] at marked ⊢
    exact disjoint probe marked

/-! ## Replaying lists of changes -/

/-- Set every key of a list to `value`, in order. -/
def setAll {β : Type} (store : κ → β) (keys : List κ) (value : β) : κ → β :=
  keys.foldl (fun current key => Function.update current key value) store

/-- Write every entry of a list into a store, in order. -/
def writeAll (store : κ → Option ν) (entries : List (κ × ν)) : κ → Option ν :=
  entries.foldl
    (fun current entry => Function.update current entry.1 (some entry.2)) store

theorem setAll_apply {β : Type} (store : κ → β) (keys : List κ) (value : β)
    (probe : κ) :
    setAll store keys value probe =
      if probe ∈ keys then value else store probe := by
  induction keys generalizing store with
  | nil =>
      simp [setAll]
  | cons key rest induction =>
      have step := induction (Function.update store key value)
      simp only [setAll, List.foldl_cons] at step ⊢
      rw [step]
      by_cases hit : probe = key
      · subst hit
        simp
      · simp [hit]

theorem writeAll_apply (store : κ → Option ν) {entries : List (κ × ν)}
    (distinct : (entries.map Prod.fst).Nodup) (probe : κ) :
    writeAll store entries probe =
      (SortedAssoc.findList? probe entries).elim (store probe) some := by
  induction entries generalizing store with
  | nil =>
      rfl
  | cons entry rest induction =>
      rw [List.map_cons, List.nodup_cons] at distinct
      have step := induction (Function.update store entry.1 (some entry.2))
        distinct.2
      simp only [writeAll, List.foldl_cons] at step ⊢
      rw [step, SortedAssoc.findList?_cons]
      by_cases hit : entry.1 = probe
      · subst hit
        rw [SortedAssoc.findList?_eq_none_of_not_mem distinct.1]
        simp
      · simp [hit, Function.update_of_ne (Ne.symm hit)]

/-- The layer that a list of entries with distinct keys and a list of tombstones describe. -/
def ofLists (entries : List (κ × ν)) (tombstones : List κ) : Layer κ ν :=
  ⟨fun key => SortedAssoc.findList? key entries,
    fun key => decide (key ∈ tombstones)⟩

/-- Put every entry of a list, in order. -/
def putAll (layer : Layer κ ν) (entries : List (κ × ν)) : Layer κ ν :=
  entries.foldl (fun current entry => current.put entry.1 entry.2) layer

/-- Remove every key of a list, in order. -/
def removeAll (layer : Layer κ ν) (keys : List κ) : Layer κ ν :=
  keys.foldl (fun current key => current.remove key) layer

theorem putAll_eq (layer : Layer κ ν) (entries : List (κ × ν)) :
    layer.putAll entries =
      ⟨writeAll layer.entries entries,
        setAll layer.deleted (entries.map Prod.fst) false⟩ := by
  induction entries generalizing layer with
  | nil =>
      rfl
  | cons entry rest induction =>
      simp only [putAll, List.foldl_cons] at induction ⊢
      rw [induction]
      rfl

theorem removeAll_eq (layer : Layer κ ν) (keys : List κ) :
    layer.removeAll keys =
      ⟨setAll layer.entries keys none, setAll layer.deleted keys true⟩ := by
  induction keys generalizing layer with
  | nil =>
      rfl
  | cons key rest induction =>
      simp only [removeAll, List.foldl_cons] at induction ⊢
      rw [induction]
      rfl

/--
Putting the entries of a child and then removing its tombstones is the
merge of the child's layer into the parent.
-/
theorem removeAll_putAll (parent : Layer κ ν) {entries : List (κ × ν)}
    (distinct : (entries.map Prod.fst).Nodup) (tombstones : List κ) :
    (parent.putAll entries).removeAll tombstones =
      parent.merge (ofLists entries tombstones) := by
  rw [putAll_eq, removeAll_eq]
  congr 1
  · funext probe
    rw [setAll_apply]
    dsimp only
    rw [writeAll_apply _ distinct]
    by_cases tomb : probe ∈ tombstones
    · simp [ofLists, tomb]
    · cases found : SortedAssoc.findList? probe entries <;>
        simp [ofLists, tomb, found]
  · funext probe
    rw [setAll_apply]
    dsimp only
    rw [setAll_apply]
    have present :
        probe ∈ entries.map Prod.fst ↔
          (SortedAssoc.findList? probe entries).isSome :=
      SortedAssoc.findList?_isSome_iff.symm
    by_cases tomb : probe ∈ tombstones
    · simp [ofLists, tomb]
    · by_cases written : probe ∈ entries.map Prod.fst
      · have found := present.mp written
        simp [ofLists, tomb, written, found]
      · have absent : SortedAssoc.findList? probe entries = none :=
          SortedAssoc.findList?_eq_none_of_not_mem written
        simp [ofLists, tomb, written, absent]

/--
Writing a list of entries and then erasing a list of keys is writing the
layer they describe.
-/
theorem setAll_writeAll (store : κ → Option ν) {entries : List (κ × ν)}
    (distinct : (entries.map Prod.fst).Nodup) (tombstones : List κ) :
    setAll (writeAll store entries) tombstones none =
      (ofLists entries tombstones).writeInto store := by
  funext probe
  rw [setAll_apply, writeAll_apply _ distinct]
  by_cases tomb : probe ∈ tombstones
  · simp [writeInto, ofLists, tomb]
  · simp [writeInto, ofLists, tomb]

/-! ## Sorted maps as stores -/

/-- Putting a list of entries into a sorted map writes them into its lookup. -/
theorem find?_foldl_put {lt : κ → κ → Bool} (map : SortedAssoc.SortedMap κ ν lt)
    (entries : List (κ × ν)) :
    (entries.foldl (fun current entry => current.put entry.1 entry.2) map).find? =
      writeAll map.find? entries := by
  induction entries generalizing map with
  | nil =>
      rfl
  | cons entry rest induction =>
      rw [List.foldl_cons, induction, SortedAssoc.SortedMap.find?_put]
      rfl

/-- Erasing a list of keys from a sorted map clears them in its lookup. -/
theorem find?_foldl_erase {lt : κ → κ → Bool} (map : SortedAssoc.SortedMap κ ν lt)
    (keys : List κ) :
    (keys.foldl (fun current key => current.erase key) map).find? =
      setAll map.find? keys none := by
  induction keys generalizing map with
  | nil =>
      rfl
  | cons key rest induction =>
      rw [List.foldl_cons, induction, SortedAssoc.SortedMap.find?_erase_eq_update]
      rfl

end Update

end Layer

end Overlay
