import Mathlib.Data.List.Basic
import Mathlib.Algebra.GroupWithZero.Nat

/-!
# Ordered associative containers as association lists

An ordered container such as `std::map` or `std::set` with a comparator
`lt` is modelled by a list that holds every key at most once.  Inserting a
key that is absent places it in front of the first key that is greater
under `lt`, so that a list built only by insertions is in `lt` order;
lookup, assignment through a found position and erasure go by key
equality.  A comparator whose equivalence is equality, as every comparator
of the modelled program is, makes lookup by `lt`-equivalence and lookup by
equality the same thing.

The invariant that keys are distinct is a field of `SortedMap` and
`SortedSet`, so the lookup equations hold for every value that can be
built.  The operations follow the container interface: `insert` leaves an
existing key untouched (as `std::map::insert` does), `assign` overwrites
the value of a present key (as `it->second = v` after `find` does).
The total of a weight over the values, such as the memory a cache
accounts for, moves by the weights of what each operation writes and
removes (`SortedMap.total_insert`, `total_assign`, `total_erase`).
-/

namespace SortedAssoc

variable {α β : Type} [DecidableEq α]

/-! ## Association lists -/

/-- The value stored for `key`, if any. -/
def findList? (key : α) : List (α × β) → Option β
  | [] => none
  | (other, value) :: rest =>
      if other = key then some value else findList? key rest

/-- Place a new entry in front of the first greater key. -/
def insertNewList (lt : α → α → Bool) (key : α) (value : β) :
    List (α × β) → List (α × β)
  | [] => [(key, value)]
  | (other, old) :: rest =>
      if lt key other then (key, value) :: (other, old) :: rest
      else (other, old) :: insertNewList lt key value rest

/-- Overwrite the value of the first entry of `key`. -/
def assignList (key : α) (value : β) : List (α × β) → List (α × β)
  | [] => []
  | (other, old) :: rest =>
      if other = key then (other, value) :: rest
      else (other, old) :: assignList key value rest

/-- Remove the first entry of `key`. -/
def eraseList (key : α) : List (α × β) → List (α × β)
  | [] => []
  | (other, value) :: rest =>
      if other = key then rest else (other, value) :: eraseList key rest

theorem findList?_cons (key other : α) (value : β)
    (rest : List (α × β)) :
    findList? key ((other, value) :: rest) =
      if other = key then some value else findList? key rest := rfl

theorem findList?_eq_none_of_not_mem {key : α} :
    ∀ {entries : List (α × β)},
      key ∉ entries.map Prod.fst → findList? key entries = none
  | [], _ => rfl
  | (other, value) :: rest, absent => by
      simp only [List.map_cons, List.mem_cons, not_or] at absent
      rw [findList?_cons, if_neg (Ne.symm absent.1)]
      exact findList?_eq_none_of_not_mem absent.2

theorem findList?_isSome_iff {key : α} :
    ∀ {entries : List (α × β)},
      (findList? key entries).isSome ↔ key ∈ entries.map Prod.fst
  | [] => by simp [findList?]
  | (other, value) :: rest => by
      rw [findList?_cons]
      by_cases same : other = key
      · simp [same]
      · simp [same, Ne.symm same, findList?_isSome_iff]

omit [DecidableEq α] in
theorem keys_insertNewList (lt : α → α → Bool) (key : α) (value : β) :
    ∀ entries : List (α × β),
      List.Perm ((insertNewList lt key value entries).map Prod.fst)
        (key :: entries.map Prod.fst)
  | [] => by simp [insertNewList]
  | (other, old) :: rest => by
      by_cases before : lt key other
      · simp [insertNewList, before]
      · simp only [insertNewList, before, Bool.false_eq_true, if_false,
          List.map_cons]
        exact ((keys_insertNewList lt key value rest).cons other).trans
          (List.Perm.swap key other _)

theorem findList?_insertNewList (lt : α → α → Bool) {key : α}
    (value : β) (probe : α) :
    ∀ {entries : List (α × β)}, key ∉ entries.map Prod.fst →
      findList? probe (insertNewList lt key value entries) =
        if key = probe then some value else findList? probe entries
  | [], _ => by
      simp [insertNewList, findList?_cons, findList?]
  | (other, old) :: rest, absent => by
      simp only [List.map_cons, List.mem_cons, not_or] at absent
      by_cases before : lt key other
      · simp only [insertNewList, before, if_true, findList?_cons]
      · simp only [insertNewList, before, Bool.false_eq_true, if_false,
          findList?_cons, findList?_insertNewList lt value probe absent.2]
        by_cases hit : other = probe
        · subst hit
          simp [absent.1]
        · simp [hit]

theorem keys_assignList (key : α) (value : β) :
    ∀ entries : List (α × β),
      (assignList key value entries).map Prod.fst = entries.map Prod.fst
  | [] => rfl
  | (other, old) :: rest => by
      by_cases same : other = key
      · simp [assignList, same]
      · simp [assignList, same, keys_assignList key value rest]

theorem findList?_assignList (key : α) (value : β) (probe : α) :
    ∀ entries : List (α × β),
      findList? probe (assignList key value entries) =
        if key = probe then (findList? probe entries).map fun _ => value
        else findList? probe entries
  | [] => by simp [assignList, findList?]
  | (other, old) :: rest => by
      by_cases same : other = key
      · subst same
        by_cases hit : other = probe
        · simp [assignList, findList?_cons, hit]
        · simp [assignList, findList?_cons, hit]
      · simp only [assignList, same, if_false, findList?_cons,
          findList?_assignList key value probe rest]
        by_cases hit : other = probe
        · subst hit
          simp [Ne.symm same]
        · simp [hit]

theorem keys_eraseList {key : α} :
    ∀ {entries : List (α × β)}, (entries.map Prod.fst).Nodup →
      ∀ probe, probe ∈ (eraseList key entries).map Prod.fst ↔
        probe ≠ key ∧ probe ∈ entries.map Prod.fst
  | [], _, probe => by simp [eraseList]
  | (other, value) :: rest, distinct, probe => by
      simp only [List.map_cons, List.nodup_cons] at distinct
      by_cases same : other = key
      · subst same
        simp only [eraseList, if_true, List.map_cons, List.mem_cons]
        constructor
        · intro member
          exact ⟨fun equal => distinct.1 (equal ▸ member), Or.inr member⟩
        · rintro ⟨different, rfl | member⟩
          · exact (different rfl).elim
          · exact member
      · simp only [eraseList, same, if_false, List.map_cons, List.mem_cons,
          keys_eraseList distinct.2 probe]
        constructor
        · rintro (rfl | ⟨different, member⟩)
          · exact ⟨same, Or.inl rfl⟩
          · exact ⟨different, Or.inr member⟩
        · rintro ⟨different, rfl | member⟩
          · exact Or.inl rfl
          · exact Or.inr ⟨different, member⟩

theorem nodup_eraseList (key : α) :
    ∀ {entries : List (α × β)}, (entries.map Prod.fst).Nodup →
      ((eraseList key entries).map Prod.fst).Nodup
  | [], _ => by simp [eraseList]
  | (other, value) :: rest, distinct => by
      rw [List.map_cons, List.nodup_cons] at distinct
      by_cases same : other = key
      · simpa [eraseList, same] using distinct.2
      · rw [eraseList, if_neg same, List.map_cons, List.nodup_cons,
          keys_eraseList distinct.2]
        exact ⟨fun member => distinct.1 member.2,
          nodup_eraseList key distinct.2⟩

theorem findList?_eraseList {key : α} (probe : α) :
    ∀ {entries : List (α × β)}, (entries.map Prod.fst).Nodup →
      findList? probe (eraseList key entries) =
        if key = probe then none else findList? probe entries
  | [], _ => by simp [eraseList, findList?]
  | (other, value) :: rest, distinct => by
      simp only [List.map_cons, List.nodup_cons] at distinct
      by_cases same : other = key
      · subst same
        by_cases hit : other = probe
        · subst hit
          simp [eraseList, findList?_eq_none_of_not_mem distinct.1]
        · simp [eraseList, findList?_cons, hit]
      · simp only [eraseList, same, if_false, findList?_cons,
          findList?_eraseList probe distinct.2]
        by_cases hit : other = probe
        · subst hit
          simp [Ne.symm same]
        · simp [hit]

/-! ## Weights of the values -/

section Weight

variable (weight : β → Nat)

omit [DecidableEq α] in
theorem sum_insertNewList (lt : α → α → Bool) (key : α) (value : β) :
    ∀ entries : List (α × β),
      ((insertNewList lt key value entries).map fun entry => weight entry.2).sum =
        weight value + (entries.map fun entry => weight entry.2).sum
  | [] => by simp [insertNewList]
  | (other, old) :: rest => by
      by_cases before : lt key other
      · simp [insertNewList, before]
      · simp only [insertNewList, before, Bool.false_eq_true, if_false, List.map_cons,
          List.sum_cons, sum_insertNewList lt key value rest]
        omega

theorem sum_assignList (key : α) (value : β) {old : β} :
    ∀ {entries : List (α × β)}, findList? key entries = some old →
      ((assignList key value entries).map fun entry => weight entry.2).sum + weight old =
        (entries.map fun entry => weight entry.2).sum + weight value
  | [], found => by cases found
  | (other, current) :: rest, found => by
      rw [findList?_cons] at found
      by_cases same : other = key
      · rw [if_pos same] at found
        cases found
        simp only [assignList, if_pos same, List.map_cons, List.sum_cons]
        omega
      · rw [if_neg same] at found
        have later := sum_assignList key value found
        simp only [assignList, if_neg same, List.map_cons, List.sum_cons]
        omega

theorem sum_eraseList (key : α) {old : β} :
    ∀ {entries : List (α × β)}, findList? key entries = some old →
      ((eraseList key entries).map fun entry => weight entry.2).sum + weight old =
        (entries.map fun entry => weight entry.2).sum
  | [], found => by cases found
  | (other, current) :: rest, found => by
      rw [findList?_cons] at found
      by_cases same : other = key
      · rw [if_pos same] at found
        cases found
        simp only [eraseList, if_pos same, List.map_cons, List.sum_cons]
        omega
      · rw [if_neg same] at found
        have later := sum_eraseList key found
        simp only [eraseList, if_neg same, List.map_cons, List.sum_cons]
        omega

end Weight

/-! ## Maps -/

/-- An ordered map with comparator `lt`: an association list with distinct keys. -/
structure SortedMap (α β : Type) (lt : α → α → Bool) where
  toList : List (α × β)
  nodupKeys : (toList.map Prod.fst).Nodup

namespace SortedMap

variable {lt : α → α → Bool}

/-- The map without entries. -/
def empty : SortedMap α β lt := ⟨[], List.nodup_nil⟩

/-- The value of `key`, if the map holds one (`find` followed by a check against `end`). -/
def find? (map : SortedMap α β lt) (key : α) : Option β :=
  findList? key map.toList

/-- `insert` of a pair: a new key is placed in order, a present key is left as it is. -/
def insert (map : SortedMap α β lt) (key : α) (value : β) :
    SortedMap α β lt :=
  if present : (map.find? key).isSome then map
  else
    ⟨insertNewList lt key value map.toList,
      (keys_insertNewList lt key value map.toList).nodup_iff.mpr
        (List.nodup_cons.mpr
          ⟨fun member => present (findList?_isSome_iff.mpr member),
            map.nodupKeys⟩)⟩

/-- Overwrite the value of a present key, as an assignment through a found iterator. -/
def assign (map : SortedMap α β lt) (key : α) (value : β) :
    SortedMap α β lt :=
  ⟨assignList key value map.toList,
    (keys_assignList key value map.toList).symm ▸ map.nodupKeys⟩

/-- Remove the entry of `key`, if any. -/
def erase (map : SortedMap α β lt) (key : α) : SortedMap α β lt :=
  ⟨eraseList key map.toList, nodup_eraseList key map.nodupKeys⟩

@[simp]
theorem find?_empty (key : α) :
    (empty : SortedMap α β lt).find? key = none := rfl

theorem find?_insert (map : SortedMap α β lt) (key : α) (value : β)
    (probe : α) :
    (map.insert key value).find? probe =
      if key = probe ∧ map.find? key = none then some value
      else map.find? probe := by
  unfold insert
  by_cases present : (map.find? key).isSome
  · have notAbsent : map.find? key ≠ none :=
      Option.isSome_iff_ne_none.mp present
    simp [present, notAbsent]
  · have absent : map.find? key = none :=
      Option.not_isSome_iff_eq_none.mp present
    rw [dif_neg present, find?, findList?_insertNewList lt value probe
      (fun member => present (findList?_isSome_iff.mpr member))]
    by_cases hit : key = probe
    · subst hit
      simp [absent]
    · simp [hit, find?]

theorem find?_assign (map : SortedMap α β lt) (key : α) (value : β)
    (probe : α) :
    (map.assign key value).find? probe =
      if key = probe then (map.find? probe).map fun _ => value
      else map.find? probe :=
  findList?_assignList key value probe map.toList

theorem find?_erase (map : SortedMap α β lt) (key probe : α) :
    (map.erase key).find? probe =
      if key = probe then none else map.find? probe :=
  findList?_eraseList probe map.nodupKeys

theorem find?_insert_of_miss {map : SortedMap α β lt} {key : α} (missing : map.find? key = none)
    (value : β) : (map.insert key value).find? = Function.update map.find? key (some value) := by
  funext probe
  rw [find?_insert]
  by_cases hit : probe = key
  · subst hit
    simp [missing]
  · simp [Ne.symm hit, Function.update_of_ne hit]

theorem find?_assign_of_find {map : SortedMap α β lt} {key : α} {old : β}
    (found : map.find? key = some old) (value : β) :
    (map.assign key value).find? = Function.update map.find? key (some value) := by
  funext probe
  rw [find?_assign]
  by_cases hit : probe = key
  · subst hit
    simp [found]
  · simp [Ne.symm hit, Function.update_of_ne hit]

/--
Write `value` at `key` whether or not the key is present, as the sequence
`find`, then assignment through the iterator or `insert`, does.
-/
def put (map : SortedMap α β lt) (key : α) (value : β) : SortedMap α β lt :=
  if (map.find? key).isSome then map.assign key value
  else map.insert key value

theorem find?_put (map : SortedMap α β lt) (key : α) (value : β) :
    (map.put key value).find? = Function.update map.find? key (some value) := by
  funext probe
  by_cases hit : probe = key
  · subst hit
    unfold put
    split_ifs with present
    · rw [find?_assign, if_pos rfl]
      obtain ⟨old, found⟩ := Option.isSome_iff_exists.mp present
      simp [found]
    · rw [find?_insert, if_pos ⟨rfl, Option.not_isSome_iff_eq_none.mp present⟩]
      simp
  · rw [Function.update_of_ne hit]
    unfold put
    split_ifs
    · rw [find?_assign, if_neg (Ne.symm hit)]
    · rw [find?_insert, if_neg (fun both => hit both.1.symm)]

theorem find?_erase_eq_update (map : SortedMap α β lt) (key : α) :
    (map.erase key).find? = Function.update map.find? key none := by
  funext probe
  rw [find?_erase]
  by_cases hit : probe = key
  · subst hit
    simp
  · simp [Ne.symm hit, Function.update_of_ne hit]

/-! ### Total weight -/

section Total

variable (weight : β → Nat)

/-- The total of a weight over the values of a map. -/
def total (map : SortedMap α β lt) : Nat :=
  (map.toList.map fun entry => weight entry.2).sum

omit [DecidableEq α] in
@[simp]
theorem total_empty : (empty : SortedMap α β lt).total weight = 0 := rfl

theorem total_insert {map : SortedMap α β lt} {key : α} (absent : map.find? key = none)
    (value : β) : (map.insert key value).total weight = map.total weight + weight value := by
  unfold insert total
  rw [dif_neg (by rw [absent, Option.isSome_none]; exact Bool.false_ne_true), sum_insertNewList]
  omega

theorem total_assign {map : SortedMap α β lt} {key : α} {old : β}
    (found : map.find? key = some old) (value : β) :
    (map.assign key value).total weight + weight old = map.total weight + weight value :=
  sum_assignList weight key value found

theorem total_erase {map : SortedMap α β lt} {key : α} {old : β}
    (found : map.find? key = some old) :
    (map.erase key).total weight + weight old = map.total weight :=
  sum_eraseList weight key found

theorem le_total {map : SortedMap α β lt} {key : α} {value : β}
    (found : map.find? key = some value) : weight value ≤ map.total weight := by
  have erased := total_erase weight found
  omega

theorem total_put (map : SortedMap α β lt) (key : α) (value : β) :
    (map.put key value).total weight + (map.find? key).elim 0 weight =
      map.total weight + weight value := by
  unfold put
  cases found : map.find? key with
  | none =>
      rw [if_neg (by rw [Option.isSome_none]; exact Bool.false_ne_true), total_insert weight found]
      rfl
  | some old =>
      rw [if_pos Option.isSome_some]
      exact total_assign weight found value

end Total

end SortedMap

/-! ## Sets -/

/-- An ordered set with comparator `lt`: a list without repetition. -/
structure SortedSet (α : Type) (lt : α → α → Bool) where
  toList : List α
  nodup : toList.Nodup

namespace SortedSet

variable {lt : α → α → Bool}

/-- The set without elements. -/
def empty : SortedSet α lt := ⟨[], List.nodup_nil⟩

/-- Membership, as `count(key) > 0`. -/
def contains (set : SortedSet α lt) (key : α) : Bool :=
  decide (key ∈ set.toList)

/-- Insert `key` in order unless it is present. -/
def insert (set : SortedSet α lt) (key : α) : SortedSet α lt :=
  if present : key ∈ set.toList then set
  else
    ⟨(insertNewList lt key () (set.toList.map fun element => (element, ()))).map
        Prod.fst,
      (keys_insertNewList lt key ()
          (set.toList.map fun element => (element, ()))).nodup_iff.mpr
        (by simpa [List.map_map, Function.comp_def] using
          List.nodup_cons.mpr ⟨present, set.nodup⟩)⟩

/-- Remove `key`, if present. -/
def erase (set : SortedSet α lt) (key : α) : SortedSet α lt :=
  ⟨set.toList.erase key, set.nodup.erase key⟩

@[simp]
theorem contains_empty (key : α) :
    (empty : SortedSet α lt).contains key = false := rfl

theorem contains_insert (set : SortedSet α lt) (key probe : α) :
    (set.insert key).contains probe = true ↔
      probe = key ∨ set.contains probe = true := by
  unfold insert contains
  split_ifs with present
  · by_cases hit : probe = key
    · subst hit
      simp [present]
    · simp [hit]
  · have keys := (keys_insertNewList lt key ()
        (set.toList.map fun element => (element, ()))).mem_iff (a := probe)
    simp only [List.map_map, Function.comp_def, List.map_id', List.mem_cons]
      at keys
    simp [keys]

theorem contains_erase (set : SortedSet α lt) (key probe : α) :
    (set.erase key).contains probe = true ↔
      probe ≠ key ∧ set.contains probe = true := by
  unfold erase contains
  simp [set.nodup.mem_erase_iff]

theorem contains_insert_eq_update (set : SortedSet α lt) (key : α) :
    (set.insert key).contains = Function.update set.contains key true := by
  funext probe
  by_cases hit : probe = key
  · subst hit
    simp [(contains_insert set probe probe).mpr (Or.inl rfl)]
  · rw [Function.update_of_ne hit]
    apply Bool.eq_iff_iff.mpr
    rw [contains_insert]
    simp [hit]

theorem contains_erase_eq_update (set : SortedSet α lt) (key : α) :
    (set.erase key).contains = Function.update set.contains key false := by
  funext probe
  by_cases hit : probe = key
  · subst hit
    simpa using fun present => ((contains_erase set probe probe).mp present).1 rfl
  · rw [Function.update_of_ne hit]
    apply Bool.eq_iff_iff.mpr
    rw [contains_erase]
    simp [hit]

end SortedSet

end SortedAssoc
