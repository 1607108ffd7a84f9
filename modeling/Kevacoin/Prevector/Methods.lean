import Kevacoin.Prevector.Prevector

/-!
# The methods of prevector

On a prevector that represents a list (`Holds`), every method of
`prevector.h` is defined, with no undefined behaviour, and gives a
prevector that represents the list the same method of `std::vector`
gives.  The loops are proved by induction on the elements they construct
or destroy, through `Stored`, which fixes the tag and the array while the
elements are only part way written.

The capacity is tracked alongside: `change_capacity` sets it to the
larger of `N` and what it was asked for, and every other method keeps it,
so that a growing method has the room it needs after the check at its
start.
-/

namespace Kevacoin

namespace prevector

variable {N : Nat} {T : Type}

/-! ## Reading a represented prevector -/

/-- Constructing the one value of a range is `construct` itself. -/
@[simp]
theorem constructAll_singleton (v : prevector N T) (p : Nat) (value : T) :
    v.constructAll p [value] = v.construct p value := by
  rw [prevector.constructAll]
  cases v.construct p value <;> rfl

/-- `constructAll` fills a hole of as many slots as it has values. -/
theorem constructAll_stored {n : Nat} : ∀ (values : List T) {v : prevector N T}
    (front hole rest : List (Option T)), Stored v n (front ++ hole ++ rest) →
    hole.length = values.length →
    ∃ v', v.constructAll front.length values = some v' ∧
      Stored v' n (front ++ values.map some ++ rest)
  | [], v, front, hole, rest, stored, length => by
    obtain rfl : hole = [] := List.eq_nil_of_length_eq_zero length
    exact ⟨v, rfl, by simpa using stored⟩
  | value :: values, v, front, hole, rest, stored, length => by
    obtain ⟨slot, hole, rfl⟩ : ∃ slot hole', hole = slot :: hole' :=
      List.exists_cons_of_length_pos (by simp [length])
    have constructedSlots : Slots.construct (front ++ (slot :: hole) ++ rest) front.length value =
        some ((front ++ [some value]) ++ hole ++ rest) := by
      simpa using Slots.construct_at front slot (hole ++ rest) value
    obtain ⟨v₁, constructed, stored₁⟩ := stored.construct_eq constructedSlots
    obtain ⟨v', constructedRest, stored'⟩ :=
      constructAll_stored values (front ++ [some value]) hole rest stored₁ (by simpa using length)
    refine ⟨v', ?_, by simpa using stored'⟩
    rw [prevector.constructAll, constructed]
    simpa using constructedRest

/-- `destroyRange` destroys a block of elements and uncounts them. -/
theorem destroyRange_stored : ∀ (block : List T) {v : prevector N T} {n : Nat}
    (front after : List (Option T)), Stored v n (front ++ block.map some ++ after) →
    block.length ≤ n →
    ∃ v', v.destroyRange block.length front.length = some v' ∧
      Stored v' (n - block.length) (front ++ List.replicate block.length none ++ after)
  | [], v, n, front, after, stored, _ => ⟨v, rfl, by simpa using stored⟩
  | x :: block, v, n, front, after, stored, fits => by
    have destroyedSlots : Slots.destroy (front ++ (x :: block).map some ++ after) front.length =
        some ((front ++ [none]) ++ block.map some ++ after) := by
      simpa using Slots.destroy_at front x (block.map some ++ after)
    obtain ⟨v₁, destroyed, stored₁⟩ := stored.destroy_eq destroyedSlots
    have uncounted := stored₁.sub (k := 1) (by simp at fits; omega)
    obtain ⟨v', destroyedRest, stored'⟩ :=
      destroyRange_stored block (front ++ [none]) after uncounted (by simp at fits; omega)
    refine ⟨v', ?_, ?_⟩
    · rw [List.length_cons, prevector.destroyRange, destroyed]
      simpa using destroyedRest
    · have slotsEq : front ++ List.replicate (x :: block).length none ++ after =
          front ++ [none] ++ List.replicate block.length none ++ after := by
        simp [List.replicate_succ]
      have countEq : n - (x :: block).length = n - 1 - block.length := by
        simp only [List.length_cons]
        omega
      rw [slotsEq, countEq]
      exact stored'

/--
Moving the elements after the front right by `count` slots, within the
free slots of the array, opens a hole of `count` slots for `_size` to
count.
-/
theorem open_gap {v : prevector N T} {front after : List T} {rest : List (Option T)}
    {count : Nat} (stored : Stored v (front ++ after).length
      (front.map some ++ after.map some ++ rest)) (room : count ≤ rest.length) :
    ∃ v₁ hole rest', v.memmoveItems (front.length + count) front.length after.length = some v₁ ∧
      hole.length = count ∧
      Stored ({ v₁ with _size := v₁._size + count } : prevector N T)
        ((front ++ after).length + count) (front.map some ++ hole ++ (after.map some ++ rest')) := by
  have moving := Slots.memmove_open (front.map some) (after.map some) rest room
  rw [List.length_map, List.length_map] at moving
  obtain ⟨v₁, moved, stored₁⟩ := stored.memmoveItems_eq moving
  have counted := stored₁.add (k := count) (by simp; omega)
  refine ⟨v₁, (after.map some ++ rest).take count, rest.drop count, moved, by simp; omega, ?_⟩
  simpa only [List.append_assoc] using counted

namespace Holds

variable {v : prevector N T} {xs : List T}

theorem size_eq (holds : Holds v xs) : v.size = xs.length := by
  obtain ⟨slots, stored, -⟩ := holds
  exact stored.size_eq

/-- A represented prevector has a capacity, at least `N` and at least its size. -/
theorem capacity_ge (holds : Holds v xs) :
    ∃ c, v.capacity = some c ∧ N ≤ c ∧ xs.length ≤ c := by
  obtain ⟨slots, stored, -⟩ := holds
  exact ⟨slots.length, stored.capacity_eq, stored.length_ge, stored.le_length⟩

/-! ## Moving between the arrays -/

/-- `change_capacity` to a capacity that holds the elements keeps them, with the larger of `N` and that capacity. -/
theorem change_capacity (holds : Holds v xs) {new_capacity : Nat}
    (fits : xs.length ≤ new_capacity) :
    ∃ v', v.change_capacity new_capacity = some v' ∧ Holds v' xs ∧
      v'.capacity = some (max N new_capacity) := by
  obtain ⟨slots, stored, front⟩ := holds
  cases stored with
  | direct fitsN full =>
    by_cases small : new_capacity ≤ N
    · refine ⟨_, ?_, ⟨slots, .direct fitsN full, front⟩, ?_⟩
      · simp [prevector.change_capacity, small, is_direct, fitsN]
      · simp [prevector.capacity, is_direct, fitsN]
        omega
    · obtain ⟨heap, copied, heapFront, heapLength⟩ :=
        @Slots.memcpy_front _ (List.replicate new_capacity none) slots xs front (by simp; omega)
      refine ⟨⟨xs.length + (N + 1), .indirect new_capacity heap⟩, ?_,
        ⟨heap, .indirect (by omega) (by simpa using heapLength) fits, heapFront⟩, ?_⟩
      · simp [prevector.change_capacity, small, is_direct, fitsN, size, copied]
      · simp [prevector.capacity, is_direct, Stored.not_le_indirect]
        omega
  | indirect above full fitsC =>
    by_cases small : new_capacity ≤ N
    · obtain ⟨direct, copied, directFront, directLength⟩ :=
        @Slots.memcpy_front _ (List.replicate N none) slots xs front (by simp; omega)
      refine ⟨⟨xs.length, .direct direct⟩, ?_,
        ⟨direct, .direct (by omega) (by simpa using directLength), directFront⟩, ?_⟩
      · have sizeEq : xs.length + (N + 1) - N - 1 = xs.length := by omega
        simp [prevector.change_capacity, small, is_direct, Stored.not_le_indirect, size, sizeEq,
          copied]
      · simp [prevector.capacity, is_direct]
        omega
    · obtain ⟨reallocFront, reallocLength⟩ := Slots.realloc_front front fits
      refine ⟨⟨xs.length + (N + 1), .indirect new_capacity (Slots.realloc slots new_capacity)⟩,
        ?_, ⟨_, .indirect (by omega) reallocLength fits, reallocFront⟩, ?_⟩
      · simp [prevector.change_capacity, small, is_direct, Stored.not_le_indirect]
      · simp [prevector.capacity, is_direct, Stored.not_le_indirect]
        omega

/-! ## Constructing at the end -/

/-- Below the capacity, the slot after the elements is in the array. -/
theorem free_slot (holds : Holds v xs) {c : Nat} (capacity : v.capacity = some c)
    (room : xs.length < c) :
    ∃ slot rest, Stored v xs.length (xs.map some ++ slot :: rest) ∧
      (xs.map some ++ slot :: rest).length = c := by
  obtain ⟨slots, stored, rest, rfl⟩ := holds
  have length : (xs.map some ++ rest).length = c := by
    rw [stored.capacity_eq] at capacity
    exact Option.some_inj.mp capacity
  obtain ⟨slot, rest, rfl⟩ : ∃ slot rest', rest = slot :: rest' :=
    List.exists_cons_of_length_pos (by
      simp only [List.length_append, List.length_map] at length
      omega)
  exact ⟨slot, rest, stored, length⟩

/-- One element constructed at the end, in a free slot of the array. -/
theorem construct_back (holds : Holds v xs) {c : Nat} (capacity : v.capacity = some c)
    (room : xs.length < c) (value : T) :
    ∃ v', v.construct_back value = some v' ∧ Holds v' (xs ++ [value]) ∧ v'.capacity = some c := by
  obtain ⟨slot, rest, stored, length⟩ := holds.free_slot capacity room
  have counted := stored.add (k := 1) (by simp)
  obtain ⟨v', constructed, stored'⟩ := counted.construct_eq
    (by simpa using Slots.construct_at (xs.map some) slot rest value)
  refine ⟨v', ?_, ⟨_, by simpa using stored', ⟨rest, by simp⟩⟩, ?_⟩
  · rw [prevector.construct_back]
    rw [counted.size_eq, Nat.add_sub_cancel]
    exact constructed
  · rw [stored'.capacity_eq, ← length]
    simp

/-- `fill` constructs copies of `value` up to `n`, within the capacity, given the rounds. -/
theorem fill {n : Nat} (value : T) :
    ∀ (fuel : Nat) {v : prevector N T} {xs : List T} {c : Nat}, Holds v xs →
      v.capacity = some c → n ≤ c → n - xs.length ≤ fuel →
      ∃ v', prevector.fill n value fuel v = some v' ∧
        Holds v' (xs ++ List.replicate (n - xs.length) value) ∧ v'.capacity = some c
  | 0, v, xs, c, holds, capacity, _, rounds => by
    refine ⟨v, ?_, by simpa [show n - xs.length = 0 by omega] using holds, capacity⟩
    rw [prevector.fill, holds.size_eq, if_neg (by omega)]
  | fuel + 1, v, xs, c, holds, capacity, fits, rounds => by
    by_cases short : xs.length < n
    · obtain ⟨v₁, constructed, holds₁, capacity₁⟩ :=
        holds.construct_back capacity (by omega) value
      obtain ⟨v', filled, holds', capacity'⟩ :=
        fill value fuel holds₁ capacity₁ fits (by simp; omega)
      refine ⟨v', ?_, ?_, capacity'⟩
      · rw [prevector.fill, holds.size_eq, if_pos short, constructed]
        exact filled
      · have split : n - xs.length = n - (xs ++ [value]).length + 1 := by simp; omega
        rw [split, List.replicate_succ, ← List.singleton_append, ← List.append_assoc]
        exact holds'
    · refine ⟨v, ?_, by simpa [show n - xs.length = 0 by omega] using holds, capacity⟩
      rw [prevector.fill, holds.size_eq, if_neg short]

/-- `fillFrom` constructs the elements of a range after those there, within the capacity. -/
theorem fillFrom : ∀ (values : List T) {v : prevector N T} {xs : List T} {c : Nat}, Holds v xs →
    v.capacity = some c → xs.length + values.length ≤ c →
    ∃ v', prevector.fillFrom values v = some v' ∧ Holds v' (xs ++ values) ∧ v'.capacity = some c
  | [], v, xs, c, holds, capacity, _ => ⟨v, rfl, by simpa using holds, capacity⟩
  | value :: rest, v, xs, c, holds, capacity, fits => by
    obtain ⟨v₁, constructed, holds₁, capacity₁⟩ :=
      holds.construct_back capacity (by simp at fits; omega) value
    obtain ⟨v', filled, holds', capacity'⟩ :=
      fillFrom rest holds₁ capacity₁ (by simp at fits ⊢; omega)
    refine ⟨v', ?_, by simpa using holds', capacity'⟩
    rw [prevector.fillFrom, constructed]
    exact filled

/-! ## Erasing -/

/-- The elements split around the range `[first, last)`. -/
theorem split_range (xs : List T) {first last : Nat} (ordered : first ≤ last) :
    xs = xs.take first ++ (xs.drop first).take (last - first) ++ xs.drop last := by
  conv_lhs => rw [← List.take_append_drop first xs,
    ← List.take_append_drop (last - first) (xs.drop first)]
  rw [List.drop_drop, Nat.add_sub_cancel' ordered, List.append_assoc]

/--
Moving the elements after a gap down over it leaves a prevector that
represents the elements around the gap, with the capacity it had.
-/
theorem close_gap {front after : List T} {gap rest : List (Option T)}
    (stored : Stored v (front ++ after).length (front.map some ++ gap ++ after.map some ++ rest)) :
    ∃ v', v.memmoveItems front.length (front.length + gap.length) after.length = some v' ∧
      Holds v' (front ++ after) ∧ v'.capacity = v.capacity := by
  have moving := Slots.memmove_close (front.map some) gap (after.map some) rest
  rw [List.length_map, List.length_map] at moving
  obtain ⟨v', moved, stored'⟩ := stored.memmoveItems_eq moving
  rw [List.append_assoc _ _ rest, ← List.map_append] at stored'
  refine ⟨v', moved, ⟨_, stored', _, rfl⟩, ?_⟩
  rw [stored'.capacity_eq, stored.capacity_eq]
  simp
  omega

/-- `erase` removes the range and keeps the capacity. -/
theorem erase (holds : Holds v xs) (trivial : Bool) {first last : Nat} (ordered : first ≤ last)
    (inside : last ≤ xs.length) :
    ∃ v', v.erase trivial first last = some v' ∧ Holds v' (xs.take first ++ xs.drop last) ∧
      v'.capacity = v.capacity := by
  obtain ⟨slots, stored, rest, rfl⟩ := holds
  have lengthFront : (xs.take first).length = first := by simp; omega
  have lengthBlock : ((xs.drop first).take (last - first)).length = last - first := by simp; omega
  have remaining : (xs.take first ++ xs.drop last).length = xs.length - (last - first) := by
    simp
    omega
  have split : xs.map some ++ rest = (xs.take first).map some ++
      ((xs.drop first).take (last - first)).map some ++ ((xs.drop last).map some ++ rest) := by
    conv_lhs => rw [split_range xs ordered]
    simp
  rw [split] at stored
  cases trivial with
  | false =>
    obtain ⟨v₁, destroyed, stored₁⟩ := destroyRange_stored _ _ _ stored (by rw [lengthBlock]; omega)
    rw [lengthBlock, ← remaining, ← List.append_assoc] at stored₁
    obtain ⟨v', moved, holds', capacity'⟩ := close_gap stored₁
    rw [List.length_replicate, lengthFront, Nat.add_sub_cancel' ordered, List.length_drop]
      at moved
    rw [List.length_map, lengthBlock, lengthFront] at destroyed
    refine ⟨v', ?_, holds', ?_⟩
    · simp only [prevector.erase, Bool.false_eq_true, if_false, stored.size_eq, destroyed]
      simpa using moved
    · rw [capacity', stored₁.capacity_eq, stored.capacity_eq, Option.some_inj]
      simp only [List.length_append, List.length_map, List.length_replicate, lengthBlock]
      omega
  | true =>
    have stored₁ := stored.sub (k := last - first) (by omega)
    rw [← remaining, ← List.append_assoc] at stored₁
    obtain ⟨v', moved, holds', capacity'⟩ := close_gap stored₁
    rw [List.length_map, lengthBlock, lengthFront, Nat.add_sub_cancel' ordered, List.length_drop]
      at moved
    refine ⟨v', ?_, holds', ?_⟩
    · simp only [prevector.erase, if_true, stored.size_eq]
      simpa using moved
    · rw [capacity', stored₁.capacity_eq, stored.capacity_eq, List.append_assoc]

/-- `erase(pos)` removes one element. -/
theorem erase_at (holds : Holds v xs) (trivial : Bool) {pos : Nat} (inside : pos < xs.length) :
    ∃ v', v.erase_at trivial pos = some v' ∧ Holds v' (xs.eraseIdx pos) ∧
      v'.capacity = v.capacity := by
  rw [List.eraseIdx_eq_take_drop_succ]
  exact holds.erase trivial (Nat.le_succ pos) inside

/--
`pop_back()` removes the last element.  On no elements the source's
`end() - 1` is out of range; with sizes as naturals the model erases
nothing there, which the refinement never uses.
-/
theorem pop_back (holds : Holds v xs) (trivial : Bool) :
    ∃ v', v.pop_back trivial = some v' ∧ Holds v' xs.dropLast ∧ v'.capacity = v.capacity := by
  obtain ⟨v', erased, holds', capacity'⟩ := holds.erase trivial (Nat.sub_le xs.length 1) (Nat.le_refl _)
  refine ⟨v', ?_, ?_, capacity'⟩
  · rw [prevector.pop_back, holds.size_eq]
    exact erased
  · rwa [List.drop_length, List.append_nil, ← List.dropLast_eq_take] at holds'

/-! ## Growing the capacity -/

/-- `reserve(new_capacity)` keeps the elements and leaves room for `new_capacity` of them. -/
theorem reserve (holds : Holds v xs) (new_capacity : Nat) :
    ∃ v', v.reserve new_capacity = some v' ∧ Holds v' xs ∧
      ∃ c, v'.capacity = some c ∧ new_capacity ≤ c := by
  obtain ⟨c, capacity, -, fits⟩ := holds.capacity_ge
  by_cases full : c < new_capacity
  · obtain ⟨v', changed, holds', capacity'⟩ :=
      holds.change_capacity (show xs.length ≤ new_capacity by omega)
    refine ⟨v', ?_, holds', _, capacity', Nat.le_max_right N new_capacity⟩
    simp only [prevector.reserve, capacity, Option.bind_eq_bind, Option.bind_some]
    rw [if_pos full, changed]
  · refine ⟨v, ?_, holds, c, capacity, by omega⟩
    simp only [prevector.reserve, capacity, Option.bind_eq_bind, Option.bind_some]
    rw [if_neg full]
    rfl

/-- The check that `resize` and both `assign`s make before they construct is `reserve`. -/
theorem reserve_bind {β : Type} (v : prevector N T) (n : Nat) (k : prevector N T → Option β) :
    (do
      let capacity ← v.capacity
      let v ← if capacity < n then v.change_capacity n else pure v
      k v) = (v.reserve n).bind k := by
  rw [prevector.reserve]
  cases v.capacity with
  | none => rfl
  | some c =>
    simp only [Option.bind_eq_bind, Option.bind_some]
    by_cases full : c < n
    · rw [if_pos full, if_pos full]
    · rw [if_neg full, if_neg full]

/-- The check of the inserting methods leaves room for `new_size` elements. -/
theorem reserve_for (holds : Holds v xs) (new_size : Nat) :
    ∃ v', v.reserve_for new_size = some v' ∧ Holds v' xs ∧
      ∃ c, v'.capacity = some c ∧ new_size ≤ c := by
  obtain ⟨c, capacity, -, fits⟩ := holds.capacity_ge
  by_cases full : c < new_size
  · have grown : new_size ≤ new_size + (new_size >>> 1) := Nat.le_add_right _ _
    obtain ⟨v', changed, holds', capacity'⟩ :=
      holds.change_capacity (show xs.length ≤ new_size + (new_size >>> 1) by omega)
    refine ⟨v', ?_, holds', _, capacity', Nat.le_trans grown (Nat.le_max_right _ _)⟩
    simp only [prevector.reserve_for, capacity, Option.bind_eq_bind, Option.bind_some]
    rw [if_pos full, changed]
  · refine ⟨v, ?_, holds, c, capacity, by omega⟩
    simp only [prevector.reserve_for, capacity, Option.bind_eq_bind, Option.bind_some]
    rw [if_neg full]
    rfl

/-! ## Inserting -/

/--
The body of the inserting methods after the check: the elements from `p`
move up by the number of values, which are then constructed in the hole.
-/
theorem insert_values (holds : Holds v xs) {p c : Nat} (inside : p ≤ xs.length)
    (values : List T) (capacity : v.capacity = some c) (room : xs.length + values.length ≤ c) :
    ∃ v₁, v.memmoveItems (p + values.length) p (v.size - p) = some v₁ ∧
      ∃ v', ({ v₁ with _size := v₁._size + values.length } : prevector N T).constructAll p values =
        some v' ∧ Holds v' (xs.take p ++ values ++ xs.drop p) := by
  obtain ⟨slots, stored, rest, rfl⟩ := holds
  have lengthFront : (xs.take p).length = p := by simp; omega
  have restRoom : values.length ≤ rest.length := by
    rw [stored.capacity_eq, Option.some_inj] at capacity
    simp only [List.length_append, List.length_map] at capacity
    omega
  have sizeEq : v.size - p = (xs.drop p).length := by
    rw [stored.size_eq, List.length_drop]
  have split : xs.map some ++ rest = (xs.take p).map some ++ (xs.drop p).map some ++ rest := by
    rw [← List.map_append, List.take_append_drop]
  have count : xs.length = (xs.take p ++ xs.drop p).length := by
    rw [List.take_append_drop]
  rw [split, count] at stored
  obtain ⟨v₁, hole, rest', moved, holeLength, stored₁⟩ := open_gap stored restRoom
  obtain ⟨v', constructed, stored'⟩ := constructAll_stored values _ hole _ stored₁ holeLength
  rw [lengthFront] at moved
  rw [List.length_map, lengthFront] at constructed
  have lengthEq : (xs.take p ++ xs.drop p).length + values.length =
      (xs.take p ++ values ++ xs.drop p).length := by
    simp only [List.length_append]
    omega
  rw [← List.append_assoc, ← List.map_append, ← List.map_append, lengthEq] at stored'
  exact ⟨v₁, by rw [sizeEq]; exact moved, v', constructed, _, stored', _, rfl⟩

/-- `insert(pos, first, last)` inserts the range at `p`. -/
theorem insert_range (holds : Holds v xs) {p : Nat} (inside : p ≤ xs.length) (values : List T) :
    ∃ v', v.insert_range p values = some v' ∧ Holds v' (xs.take p ++ values ++ xs.drop p) := by
  obtain ⟨v₁, reserved, holds₁, c, capacity₁, room⟩ := holds.reserve_for (xs.length + values.length)
  obtain ⟨v₂, moved, v', constructed, holds'⟩ :=
    holds₁.insert_values inside values capacity₁ room
  refine ⟨v', ?_, holds'⟩
  simp only [prevector.insert_range, holds.size_eq, reserved, Option.bind_eq_bind,
    Option.bind_some, moved]
  exact constructed

/-- `insert(pos, count, value)` inserts `count` copies at `p`. -/
theorem insert_count (holds : Holds v xs) {p : Nat} (inside : p ≤ xs.length) (count : Nat)
    (value : T) :
    ∃ v', v.insert_count p count value = some v' ∧
      Holds v' (xs.take p ++ List.replicate count value ++ xs.drop p) := by
  obtain ⟨v₁, reserved, holds₁, c, capacity₁, room⟩ := holds.reserve_for (xs.length + count)
  obtain ⟨v₂, moved, v', constructed, holds'⟩ :=
    holds₁.insert_values inside (List.replicate count value) capacity₁ (by simpa using room)
  rw [List.length_replicate] at moved constructed
  refine ⟨v', ?_, holds'⟩
  simp only [prevector.insert_count, holds.size_eq, reserved, Option.bind_eq_bind,
    Option.bind_some, moved]
  exact constructed

/-- `insert(pos, value)` inserts one element at `p`. -/
theorem insert (holds : Holds v xs) {p : Nat} (inside : p ≤ xs.length) (value : T) :
    ∃ v', v.insert p value = some v' ∧ Holds v' (xs.take p ++ value :: xs.drop p) := by
  obtain ⟨v₁, reserved, holds₁, c, capacity₁, room⟩ := holds.reserve_for (xs.length + 1)
  obtain ⟨v₂, moved, v', constructed, holds'⟩ :=
    holds₁.insert_values inside [value] capacity₁ room
  rw [List.length_singleton] at moved constructed
  rw [constructAll_singleton] at constructed
  refine ⟨v', ?_, by simpa using holds'⟩
  simp only [prevector.insert, holds.size_eq, reserved, Option.bind_eq_bind, Option.bind_some,
    moved]
  exact constructed

/-- `push_back(value)` appends one element. -/
theorem push_back (holds : Holds v xs) (value : T) :
    ∃ v', v.push_back value = some v' ∧ Holds v' (xs ++ [value]) := by
  obtain ⟨v₁, reserved, holds₁, c, capacity₁, room⟩ := holds.reserve_for (xs.length + 1)
  obtain ⟨slot, rest, stored, -⟩ := holds₁.free_slot capacity₁ (by omega)
  obtain ⟨v₂, constructed, stored₂⟩ := stored.construct_eq
    (by simpa using Slots.construct_at (xs.map some) slot rest value)
  have counted := stored₂.add (k := 1) (by simp)
  refine ⟨_, ?_, ⟨_, by simpa using counted, rest, by simp⟩⟩
  simp only [prevector.push_back, holds.size_eq, reserved, Option.bind_eq_bind, Option.bind_some,
    stored.size_eq, constructed]
  rfl

/-! ## Assigning an element -/

/-- `(*this)[pos] = value` replaces the element at `pos`. -/
theorem assign_at (holds : Holds v xs) {pos : Nat} (inside : pos < xs.length) (value : T) :
    ∃ v', v.assign_at pos value = some v' ∧ Holds v' (xs.set pos value) := by
  obtain ⟨slots, stored, rest, rfl⟩ := holds
  have present : (xs.map some ++ rest)[pos]? = some (some xs[pos]) := by
    rw [List.getElem?_append_left (by simpa using inside)]
    simp [inside]
  have assigned : Slots.assign (xs.map some ++ rest) pos value =
      some ((xs.set pos value).map some ++ rest) := by
    rw [Slots.assign, present, List.set_append_left _ _ (by simpa using inside), List.map_set]
  obtain ⟨v', assignedV, stored'⟩ := stored.assign_at_eq assigned
  rw [← List.length_set (a := value)] at stored'
  exact ⟨v', assignedV, _, stored', _, rfl⟩

/-! ## Resizing and assigning the whole -/

/-- The first step of `resize`, which erases what is past the new size, then the rest. -/
theorem shrink_bind [Inhabited T] {β : Type} (trivial : Bool) (v : prevector N T) (new_size : Nat)
    (k : prevector N T → Option β) :
    (do
      let v ← if v.size > new_size then v.erase trivial new_size v.size else pure v
      k v) = (if v.size > new_size then v.erase trivial new_size v.size else pure v).bind k := by
  split <;> rfl

/-- `resize(new_size)` cuts the elements to `new_size`, or pads them with `T()`. -/
theorem resize [Inhabited T] (holds : Holds v xs) (trivial : Bool) (new_size : Nat) :
    ∃ v', v.resize trivial new_size = some v' ∧
      Holds v' (xs.take new_size ++ List.replicate (new_size - xs.length) default) := by
  obtain ⟨v₁, erased, holds₁⟩ : ∃ v₁, (if v.size > new_size then v.erase trivial new_size v.size
      else pure v) = some v₁ ∧ Holds v₁ (xs.take new_size) := by
    rw [holds.size_eq]
    by_cases shrink : new_size < xs.length
    · obtain ⟨v₁, erased, holds₁, -⟩ := holds.erase trivial (Nat.le_of_lt shrink) (Nat.le_refl _)
      rw [List.drop_length, List.append_nil] at holds₁
      exact ⟨v₁, by rw [if_pos shrink]; exact erased, holds₁⟩
    · rw [List.take_of_length_le (by omega)]
      exact ⟨v, by rw [if_neg shrink]; rfl, holds⟩
  obtain ⟨v₂, reserved, holds₂, c, capacity₂, room⟩ := holds₁.reserve new_size
  obtain ⟨v', filled, holds', -⟩ := holds₂.fill default new_size capacity₂ room (by omega)
  refine ⟨v', ?_, ?_⟩
  · rw [prevector.resize, shrink_bind, erased, Option.bind_some, reserve_bind, reserved,
      Option.bind_some]
    exact filled
  · rwa [List.length_take, show new_size - min new_size xs.length = new_size - xs.length by omega]
      at holds'

/-- `clear()` leaves no elements. -/
theorem clear [Inhabited T] (holds : Holds v xs) (trivial : Bool) :
    ∃ v', v.clear trivial = some v' ∧ Holds v' [] := by
  obtain ⟨v', resized, holds'⟩ := holds.resize trivial 0
  exact ⟨v', resized, by simpa using holds'⟩

/-- `shrink_to_fit()` keeps the elements, in the inline array when they fit it. -/
theorem shrink_to_fit (holds : Holds v xs) :
    ∃ v', v.shrink_to_fit = some v' ∧ Holds v' xs ∧ v'.capacity = some (max N xs.length) := by
  rw [prevector.shrink_to_fit, holds.size_eq]
  exact holds.change_capacity (Nat.le_refl _)

/-- `assign(n, val)` leaves `n` copies of `val`. -/
theorem assign [Inhabited T] (holds : Holds v xs) (trivial : Bool) (n : Nat) (val : T) :
    ∃ v', v.assign trivial n val = some v' ∧ Holds v' (List.replicate n val) := by
  obtain ⟨v₁, cleared, holds₁⟩ := holds.clear trivial
  obtain ⟨v₂, reserved, holds₂, c, capacity₂, room⟩ := holds₁.reserve n
  obtain ⟨v', filled, holds', -⟩ := holds₂.fill val n capacity₂ room (by simp)
  refine ⟨v', ?_, by simpa using holds'⟩
  rw [prevector.assign, cleared]
  exact (reserve_bind v₁ n _).trans (by rw [reserved, Option.bind_some]; exact filled)

/-- `assign(first, last)` leaves the elements of the range. -/
theorem assign_range [Inhabited T] (holds : Holds v xs) (trivial : Bool) (values : List T) :
    ∃ v', v.assign_range trivial values = some v' ∧ Holds v' values := by
  obtain ⟨v₁, cleared, holds₁⟩ := holds.clear trivial
  obtain ⟨v₂, reserved, holds₂, c, capacity₂, room⟩ := holds₁.reserve values.length
  obtain ⟨v', filled, holds', -⟩ := holds₂.fillFrom values capacity₂ (by simpa using room)
  refine ⟨v', ?_, by simpa using holds'⟩
  rw [prevector.assign_range, cleared]
  exact (reserve_bind v₁ values.length _).trans (by rw [reserved, Option.bind_some]; exact filled)

end Holds

/-! ## Constructing and exchanging -/

/-- `swap` exchanges the two objects whole. -/
@[simp]
theorem swap_eq (v other : prevector N T) : v.swap other = (other, v) :=
  rfl

end prevector

end Kevacoin
