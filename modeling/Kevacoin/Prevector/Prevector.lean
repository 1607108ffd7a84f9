import Kevacoin.Data.Slots

/-!
# prevector

`prevector.h`: a vector that keeps up to `N` elements in an array inside
the object and moves them to the heap beyond that; `CScript` is a
`prevector<28, unsigned char>`.  `_size` is both the number of elements
and the tag of the union `_union`: at most `N` means that the elements are
in the inline array, and otherwise they are in a heap array of `capacity`
slots and `_size` is their number plus `N + 1`.

The arrays are `Slots`, whose slots hold an element or nothing.  Reading
the union as the member it does not hold, or touching a slot outside an
array, is undefined behaviour, here `none`.  Allocation is assumed to
succeed (the `assert`s after `malloc` and `realloc`).  `Size` is a natural
number: a `uint32_t` count that a process never reaches.  Iterators into
the prevector are the indices of the elements they point at, and an input
range is the list of its elements.  `T()` is `default`, and
`std::is_trivially_destructible<T>::value` is the parameter `trivial`.
-/

namespace Kevacoin

/-- The union `_union`: the inline array of `N` slots, or the capacity and the heap array. -/
inductive direct_or_indirect (T : Type) where
  | direct (slots : List (Option T))
  | indirect (capacity : Nat) (slots : List (Option T))

/-- `prevector<N, T>`. -/
structure prevector (N : Nat) (T : Type) where
  _size : Nat
  _union : direct_or_indirect T

namespace prevector

variable {N : Nat} {T : Type}

/-! ## The representation -/

/-- `is_direct()`. -/
def is_direct (v : prevector N T) : Bool :=
  decide (v._size ≤ N)

/-- `size()`. -/
def size (v : prevector N T) : Nat :=
  if v.is_direct then v._size else v._size - N - 1

/-- The array `item_ptr` points into: the inline one when `is_direct()`, the heap one otherwise. -/
def items (v : prevector N T) : Option (List (Option T)) :=
  match v._union with
  | .direct slots => if v.is_direct then some slots else none
  | .indirect _ slots => if v.is_direct then none else some slots

/-- The object with the array `item_ptr` points into replaced. -/
def setItems (v : prevector N T) (slots : List (Option T)) : prevector N T :=
  match v._union with
  | .direct _ => { v with _union := .direct slots }
  | .indirect capacity _ => { v with _union := .indirect capacity slots }

/-- `capacity()`. -/
def capacity (v : prevector N T) : Option Nat :=
  if v.is_direct then some N
  else
    match v._union with
    | .indirect capacity _ => some capacity
    | .direct _ => none

/--
`change_capacity`: to the inline array, copying the elements over and
freeing the heap array; or to a heap array of `new_capacity` slots, by
`realloc` of the heap array or by `malloc` and a copy of the inline one.
-/
def change_capacity (v : prevector N T) (new_capacity : Nat) : Option (prevector N T) :=
  if new_capacity ≤ N then
    if !v.is_direct then
      match v._union with
      | .indirect _ heap => do
        let direct ← Slots.memcpy (List.replicate N none) heap v.size
        pure { _size := v._size - (N + 1), _union := .direct direct }
      | .direct _ => none
    else some v
  else
    if !v.is_direct then
      match v._union with
      | .indirect _ heap =>
        some { v with _union := .indirect new_capacity (Slots.realloc heap new_capacity) }
      | .direct _ => none
    else
      match v._union with
      | .direct direct => do
        let heap ← Slots.memcpy (List.replicate new_capacity none) direct v.size
        pure { _size := v._size + (N + 1), _union := .indirect new_capacity heap }
      | .indirect _ _ => none

/-- `new(item_ptr(pos)) T(value)`. -/
def construct (v : prevector N T) (pos : Nat) (value : T) : Option (prevector N T) := do
  let slots ← v.items
  let slots ← Slots.construct slots pos value
  pure (v.setItems slots)

/-- `(*item_ptr(pos)).~T()`. -/
def destroy (v : prevector N T) (pos : Nat) : Option (prevector N T) := do
  let slots ← v.items
  let slots ← Slots.destroy slots pos
  pure (v.setItems slots)

/-- `memmove(item_ptr(dst), item_ptr(src), count * sizeof(T))`. -/
def memmoveItems (v : prevector N T) (dst src count : Nat) : Option (prevector N T) := do
  let slots ← v.items
  let slots ← Slots.memmove slots dst src count
  pure (v.setItems slots)

/-- The elements from `begin()` to `end()`. -/
def elements (v : prevector N T) : Option (List T) := do
  let slots ← v.items
  Slots.elements v.size slots

/-! ## Loops that construct elements -/

/-- `_size++; new(item_ptr(size() - 1)) T(value)`: one more element, constructed at the end. -/
def construct_back (v : prevector N T) (value : T) : Option (prevector N T) :=
  let v : prevector N T := { v with _size := v._size + 1 }
  v.construct (v.size - 1) value

/-- `while (size() < n) { _size++; new(item_ptr(size() - 1)) T(value); }`, for at most `fuel` rounds. -/
def fill (n : Nat) (value : T) : (fuel : Nat) → prevector N T → Option (prevector N T)
  | 0, v => if v.size < n then none else some v
  | fuel + 1, v =>
    if v.size < n then (v.construct_back value).bind (fill n value fuel) else some v

/-- `while (first != last) { _size++; new(item_ptr(size() - 1)) T(*first); ++first; }`. -/
def fillFrom : List T → prevector N T → Option (prevector N T)
  | [], v => some v
  | value :: rest, v => (v.construct_back value).bind (fillFrom rest)

/-- `new(item_ptr(p)) T(*first)` for each element of the range, from `p` on. -/
def constructAll (p : Nat) : List T → prevector N T → Option (prevector N T)
  | [], v => some v
  | value :: rest, v => (v.construct p value).bind (constructAll (p + 1) rest)

/-- `while (p != last) { (*p).~T(); _size--; ++p; }` over `count` elements from `p`. -/
def destroyRange : (count : Nat) → (p : Nat) → prevector N T → Option (prevector N T)
  | 0, _, v => some v
  | count + 1, p, v => do
    let v ← v.destroy p
    destroyRange count (p + 1) { v with _size := v._size - 1 }

/-! ## The methods -/

/--
`erase(first, last)`: the elements are destroyed (or only uncounted, for a
type that is trivially destructible) and those after them moved down.  The
capacity is kept: a heap array may stay with `N` elements or fewer.
-/
def erase (trivial : Bool) (v : prevector N T) (first last : Nat) : Option (prevector N T) := do
  let endp := v.size
  let v ← if trivial then pure { v with _size := v._size - (last - first) }
    else v.destroyRange (last - first) first
  v.memmoveItems first last (endp - last)

/-- `erase(pos)`. -/
def erase_at (trivial : Bool) (v : prevector N T) (pos : Nat) : Option (prevector N T) :=
  v.erase trivial pos (pos + 1)

/-- `resize(new_size)`, with new elements `T()`. -/
def resize [Inhabited T] (trivial : Bool) (v : prevector N T) (new_size : Nat) :
    Option (prevector N T) := do
  let v ← if v.size > new_size then v.erase trivial new_size v.size else pure v
  let capacity ← v.capacity
  let v ← if new_size > capacity then v.change_capacity new_size else pure v
  v.fill new_size default new_size

/-- `reserve(new_capacity)`. -/
def reserve (v : prevector N T) (new_capacity : Nat) : Option (prevector N T) := do
  let capacity ← v.capacity
  if new_capacity > capacity then v.change_capacity new_capacity else pure v

/-- `shrink_to_fit()`. -/
def shrink_to_fit (v : prevector N T) : Option (prevector N T) :=
  v.change_capacity v.size

/-- `clear()`. -/
def clear [Inhabited T] (trivial : Bool) (v : prevector N T) : Option (prevector N T) :=
  v.resize trivial 0

/-- `assign(n, val)`. -/
def assign [Inhabited T] (trivial : Bool) (v : prevector N T) (n : Nat) (val : T) :
    Option (prevector N T) := do
  let v ← v.clear trivial
  let capacity ← v.capacity
  let v ← if capacity < n then v.change_capacity n else pure v
  v.fill n val n

/-- `assign(first, last)`. -/
def assign_range [Inhabited T] (trivial : Bool) (v : prevector N T) (values : List T) :
    Option (prevector N T) := do
  let n := values.length
  let v ← v.clear trivial
  let capacity ← v.capacity
  let v ← if capacity < n then v.change_capacity n else pure v
  v.fillFrom values

/-- `prevector()`: no elements, in the inline array. -/
def new_empty : prevector N T :=
  ⟨0, .direct (List.replicate N none)⟩

/-- `explicit prevector(size_type n)`; the union starts as an inline array with no elements. -/
def new_size [Inhabited T] (trivial : Bool) (n : Nat) : Option (prevector N T) :=
  (new_empty : prevector N T).resize trivial n

/-- `explicit prevector(size_type n, const T& val)`. -/
def new_fill (n : Nat) (val : T) : Option (prevector N T) := do
  let v ← (new_empty : prevector N T).change_capacity n
  v.fill n val n

/-- `prevector(first, last)`. -/
def new_range (values : List T) : Option (prevector N T) := do
  let v ← (new_empty : prevector N T).change_capacity values.length
  v.fillFrom values

/-- `prevector(const prevector& other)`. -/
def new_copy (other : prevector N T) : Option (prevector N T) := do
  let v ← (new_empty : prevector N T).change_capacity other.size
  let values ← other.elements
  v.fillFrom values

/-- `swap(other)`: the unions and the sizes are exchanged. -/
def swap (v other : prevector N T) : prevector N T × prevector N T :=
  (⟨other._size, other._union⟩, ⟨v._size, v._union⟩)

/-- `prevector(prevector&& other)`: the new object and `other` after the swap with an empty one. -/
def new_move (other : prevector N T) : prevector N T × prevector N T :=
  (new_empty : prevector N T).swap other

/--
`operator=(const prevector& other)`; `self` is `&other == this`, where the
assignment does nothing.
-/
def assign_copy [Inhabited T] (trivial : Bool) (v other : prevector N T) (self : Bool) :
    Option (prevector N T) :=
  if self then some v
  else do
    let v ← v.resize trivial 0
    let v ← v.change_capacity other.size
    let values ← other.elements
    v.fillFrom values

/-- `operator=(prevector&& other)`: a swap. -/
def assign_move (v other : prevector N T) : prevector N T × prevector N T :=
  v.swap other

/-- The check of the inserting methods: a full prevector grows to half as much again. -/
def reserve_for (v : prevector N T) (new_size : Nat) : Option (prevector N T) := do
  let capacity ← v.capacity
  if capacity < new_size then v.change_capacity (new_size + (new_size >>> 1)) else pure v

/-- `insert(pos, value)`, at the index `p` of `pos`. -/
def insert (v : prevector N T) (p : Nat) (value : T) : Option (prevector N T) := do
  let v ← v.reserve_for (v.size + 1)
  let v ← v.memmoveItems (p + 1) p (v.size - p)
  let v : prevector N T := { v with _size := v._size + 1 }
  v.construct p value

/-- `insert(pos, count, value)`. -/
def insert_count (v : prevector N T) (p count : Nat) (value : T) : Option (prevector N T) := do
  let v ← v.reserve_for (v.size + count)
  let v ← v.memmoveItems (p + count) p (v.size - p)
  let v : prevector N T := { v with _size := v._size + count }
  v.constructAll p (List.replicate count value)

/-- `insert(pos, first, last)`. -/
def insert_range (v : prevector N T) (p : Nat) (values : List T) : Option (prevector N T) := do
  let count := values.length
  let v ← v.reserve_for (v.size + count)
  let v ← v.memmoveItems (p + count) p (v.size - p)
  let v : prevector N T := { v with _size := v._size + count }
  v.constructAll p values

/-- `push_back(value)`: constructed at `end()` before `_size` counts it. -/
def push_back (v : prevector N T) (value : T) : Option (prevector N T) := do
  let v ← v.reserve_for (v.size + 1)
  let v ← v.construct v.size value
  pure { v with _size := v._size + 1 }

/-- `pop_back()`. -/
def pop_back (trivial : Bool) (v : prevector N T) : Option (prevector N T) :=
  v.erase trivial (v.size - 1) v.size

/-- `(*this)[pos] = value`: assignment to an element. -/
def assign_at (v : prevector N T) (pos : Nat) (value : T) : Option (prevector N T) := do
  let slots ← v.items
  let slots ← Slots.assign slots pos value
  pure (v.setItems slots)

/-! ## The representation invariant -/

/--
`v` has `n` elements in the array `slots`: the tag in `_size` agrees with
the member of the union, the inline array has `N` slots, and a heap array
has its capacity of slots, more than `N` and at least `n`.
-/
inductive Stored : prevector N T → Nat → List (Option T) → Prop
  | direct {n : Nat} {slots : List (Option T)} (fits : n ≤ N) (full : slots.length = N) :
      Stored ⟨n, .direct slots⟩ n slots
  | indirect {n capacity : Nat} {slots : List (Option T)} (above : N < capacity)
      (full : slots.length = capacity) (fits : n ≤ capacity) :
      Stored ⟨n + (N + 1), .indirect capacity slots⟩ n slots

namespace Stored

variable {v : prevector N T} {n : Nat} {slots : List (Option T)}

/-- The tag of a prevector whose elements are on the heap. -/
theorem not_le_indirect (n : Nat) : ¬ n + (N + 1) ≤ N := by
  omega

theorem items_eq (stored : Stored v n slots) : v.items = some slots := by
  cases stored with
  | direct fits => simp [items, is_direct, fits]
  | indirect => simp [items, is_direct, not_le_indirect]

theorem size_eq (stored : Stored v n slots) : v.size = n := by
  cases stored with
  | direct fits => simp [size, is_direct, fits]
  | indirect =>
    simp [size, is_direct, not_le_indirect]
    omega

theorem capacity_eq (stored : Stored v n slots) : v.capacity = some slots.length := by
  cases stored with
  | direct fits full => simp [capacity, is_direct, fits, full]
  | indirect above full => simp [capacity, is_direct, full, not_le_indirect]

theorem le_length (stored : Stored v n slots) : n ≤ slots.length := by
  cases stored with
  | direct fits full => omega
  | indirect above full fits => omega

theorem length_ge (stored : Stored v n slots) : N ≤ slots.length := by
  cases stored with
  | direct fits full => omega
  | indirect above full fits => omega

/-- Writing the array keeps the representation while its length stays. -/
theorem setItems {slots' : List (Option T)} (stored : Stored v n slots)
    (same : slots'.length = slots.length) : Stored (v.setItems slots') n slots' := by
  cases stored with
  | direct fits full => exact .direct fits (by omega)
  | indirect above full fits => exact .indirect above (by omega) (by omega)

/-- Counting more elements keeps the representation while they fit the array. -/
theorem add (stored : Stored v n slots) {k : Nat} (fits : n + k ≤ slots.length) :
    Stored ({ v with _size := v._size + k } : prevector N T) (n + k) slots := by
  cases stored with
  | direct _ full =>
    show Stored ⟨n + k, .direct slots⟩ (n + k) slots
    exact .direct (by omega) full
  | indirect above full _ =>
    show Stored ⟨n + (N + 1) + k, _⟩ (n + k) slots
    rw [show n + (N + 1) + k = n + k + (N + 1) by omega]
    exact .indirect above full (by omega)

/-- Counting fewer elements keeps the representation. -/
theorem sub (stored : Stored v n slots) {k : Nat} (le : k ≤ n) :
    Stored ({ v with _size := v._size - k } : prevector N T) (n - k) slots := by
  cases stored with
  | direct fits full =>
    show Stored ⟨n - k, .direct slots⟩ (n - k) slots
    exact .direct (by omega) full
  | indirect above full fits =>
    show Stored ⟨n + (N + 1) - k, _⟩ (n - k) slots
    rw [show n + (N + 1) - k = n - k + (N + 1) by omega]
    exact .indirect above full (by omega)

theorem construct_eq {pos : Nat} {value : T} {out : List (Option T)} (stored : Stored v n slots)
    (constructed : Slots.construct slots pos value = some out) :
    ∃ v', v.construct pos value = some v' ∧ Stored v' n out := by
  have same : out.length = slots.length := by
    unfold Slots.construct at constructed
    split at constructed
    · cases constructed
      simp
    · cases constructed
  exact ⟨_, by rw [prevector.construct, stored.items_eq]; simp [constructed], stored.setItems same⟩

theorem destroy_eq {pos : Nat} {out : List (Option T)} (stored : Stored v n slots)
    (destroyed : Slots.destroy slots pos = some out) :
    ∃ v', v.destroy pos = some v' ∧ Stored v' n out := by
  have same : out.length = slots.length := by
    unfold Slots.destroy at destroyed
    split at destroyed
    · cases destroyed
      simp
    · cases destroyed
  exact ⟨_, by rw [prevector.destroy, stored.items_eq]; simp [destroyed], stored.setItems same⟩

theorem assign_at_eq {pos : Nat} {value : T} {out : List (Option T)} (stored : Stored v n slots)
    (assigned : Slots.assign slots pos value = some out) :
    ∃ v', v.assign_at pos value = some v' ∧ Stored v' n out := by
  have same : out.length = slots.length := by
    unfold Slots.assign at assigned
    split at assigned
    · cases assigned
      simp
    · cases assigned
  exact ⟨_, by rw [prevector.assign_at, stored.items_eq]; simp [assigned], stored.setItems same⟩

theorem memmoveItems_eq {dst src count : Nat} {out : List (Option T)} (stored : Stored v n slots)
    (moved : Slots.memmove slots dst src count = some out) :
    ∃ v', v.memmoveItems dst src count = some v' ∧ Stored v' n out := by
  have same : out.length = slots.length := by
    unfold Slots.memmove at moved
    split at moved
    · cases moved
      simp
      omega
    · cases moved
  exact ⟨_, by rw [prevector.memmoveItems, stored.items_eq]; simp [moved], stored.setItems same⟩

end Stored

/-- `v` represents the elements `xs`. -/
def Holds (v : prevector N T) (xs : List T) : Prop :=
  ∃ slots, Stored v xs.length slots ∧ Slots.Front slots xs

end prevector

end Kevacoin
