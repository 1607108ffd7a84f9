import Mathlib.Data.List.Basic

/-!
# Arrays of slots

A C array of which only some slots hold a constructed element, as a list
of `Option`s: `none` is a slot without an element.  The operations of the
C library and of placement `new` on such arrays are each `none`, undefined
behaviour, where they would touch a slot outside the array or an element
that is not there: `memcpy` from one array into another, `memmove` within
one, `realloc` to a new length, and constructing, assigning and destroying
the element of one slot.

`Front slots xs` says that the array starts with the elements `xs`.  The
lemmas cut an array into blocks, so that a move is stated by the blocks it
exchanges (`memmove_open`, `memmove_close`) and a write by the block it
fills (`construct_at`).
-/

namespace Slots

variable {α : Type}

/-- `memcpy(dst, src, count)` from one array into another. -/
def memcpy (dst src : List (Option α)) (count : Nat) : Option (List (Option α)) :=
  if count ≤ src.length ∧ count ≤ dst.length then some (src.take count ++ dst.drop count)
  else none

/--
`memmove(slots + dst, slots + src, count)` within one array: the slots
that move are read before any is written.
-/
def memmove (slots : List (Option α)) (dst src count : Nat) : Option (List (Option α)) :=
  if src + count ≤ slots.length ∧ dst + count ≤ slots.length then
    some (slots.take dst ++ (slots.drop src).take count ++ slots.drop (dst + count))
  else none

/-- `realloc` to `capacity` slots: the slots that fit are kept and the new ones are empty. -/
def realloc (slots : List (Option α)) (capacity : Nat) : List (Option α) :=
  slots.take capacity ++ List.replicate (capacity - slots.length) none

/-- Placement `new` of `value` in slot `pos`. -/
def construct (slots : List (Option α)) (pos : Nat) (value : α) : Option (List (Option α)) :=
  if pos < slots.length then some (slots.set pos (some value)) else none

/-- Assignment to the element in slot `pos`, which must hold one. -/
def assign (slots : List (Option α)) (pos : Nat) (value : α) : Option (List (Option α)) :=
  match slots[pos]? with
  | some (some _) => some (slots.set pos (some value))
  | _ => none

/-- The destructor of the element in slot `pos`, which must hold one. -/
def destroy (slots : List (Option α)) (pos : Nat) : Option (List (Option α)) :=
  match slots[pos]? with
  | some (some _) => some (slots.set pos none)
  | _ => none

/-- The elements of the first `count` slots, read in order; `none` at an empty slot. -/
def elements : Nat → List (Option α) → Option (List α)
  | 0, _ => some []
  | count + 1, some x :: rest => (elements count rest).map (x :: ·)
  | _ + 1, _ => none

/-- The array starts with the elements `xs`. -/
def Front (slots : List (Option α)) (xs : List α) : Prop :=
  ∃ rest, slots = xs.map some ++ rest

theorem front_append (xs : List α) (rest : List (Option α)) : Front (xs.map some ++ rest) xs :=
  ⟨rest, rfl⟩

/-- Copying the elements at the front of an array gives them to the front of another. -/
theorem memcpy_front {dst src : List (Option α)} {xs : List α} (front : Front src xs)
    (fits : xs.length ≤ dst.length) :
    ∃ out, memcpy dst src xs.length = some out ∧ Front out xs ∧ out.length = dst.length := by
  obtain ⟨rest, rfl⟩ := front
  refine ⟨xs.map some ++ dst.drop xs.length, ?_, front_append _ _, by simp; omega⟩
  rw [memcpy, if_pos ⟨by simp, fits⟩]
  simp

/-- `realloc` to a capacity that holds the elements keeps them. -/
theorem realloc_front {slots : List (Option α)} {xs : List α} (front : Front slots xs)
    {capacity : Nat} (fits : xs.length ≤ capacity) :
    Front (realloc slots capacity) xs ∧ (realloc slots capacity).length = capacity := by
  obtain ⟨rest, rfl⟩ := front
  constructor
  · refine ⟨rest.take (capacity - xs.length) ++
      List.replicate (capacity - (xs.length + rest.length)) none, ?_⟩
    have whole : (xs.map some).length ≤ capacity := by simpa using fits
    simp [realloc, List.take_append, List.take_of_length_le whole]
  · simp [realloc]
    omega

/-- Placement `new` in the slot after a block. -/
theorem construct_at (front : List (Option α)) (slot : Option α) (rest : List (Option α))
    (value : α) :
    construct (front ++ slot :: rest) front.length value = some (front ++ some value :: rest) := by
  rw [construct, if_pos (by simp)]
  simp [List.set_append_right]

/-- Assignment to the element in the slot after a block. -/
theorem assign_at (front : List (Option α)) (x : α) (rest : List (Option α)) (value : α) :
    assign (front ++ some x :: rest) front.length value = some (front ++ some value :: rest) := by
  simp [assign, List.set_append_right]

/-- The destructor of the element in the slot after a block. -/
theorem destroy_at (front : List (Option α)) (x : α) (rest : List (Option α)) :
    destroy (front ++ some x :: rest) front.length = some (front ++ none :: rest) := by
  simp [destroy, List.set_append_right]

/--
Moving a block right by `count` slots, over slots that are there, opens a
hole of `count` slots in front of it.
-/
theorem memmove_open (front block after : List (Option α)) {count : Nat}
    (room : count ≤ after.length) :
    memmove (front ++ block ++ after) (front.length + count) front.length block.length =
      some (front ++ (block ++ after).take count ++ block ++ after.drop count) := by
  have opened : (front ++ block ++ after).take (front.length + count) =
      front ++ (block ++ after).take count := by
    rw [List.append_assoc, List.take_append, List.take_of_length_le (by omega),
      Nat.add_sub_cancel_left]
  have moved : ((front ++ block ++ after).drop front.length).take block.length = block := by
    simp
  have kept : (front ++ block ++ after).drop (front.length + count + block.length) =
      after.drop count := by
    rw [List.append_assoc, List.drop_append, List.drop_of_length_le (by omega),
      List.nil_append, show front.length + count + block.length - front.length =
        block.length + count by omega, List.drop_append, List.drop_of_length_le (by omega),
      List.nil_append, Nat.add_sub_cancel_left]
  rw [memmove, if_pos ⟨by simp, by simp; omega⟩, opened, moved, kept]

/--
Moving a block left over the block before it closes the gap; the slots it
leaves behind follow it.
-/
theorem memmove_close (front gap block after : List (Option α)) :
    memmove (front ++ gap ++ block ++ after) front.length (front.length + gap.length)
        block.length =
      some (front ++ block ++ (gap ++ block).drop block.length ++ after) := by
  have closed : (front ++ gap ++ block ++ after).take front.length = front := by
    simp
  have moved : ((front ++ gap ++ block ++ after).drop (front.length + gap.length)).take
      block.length = block := by
    simp
  have left : (front ++ gap ++ block ++ after).drop (front.length + block.length) =
      (gap ++ block).drop block.length ++ after := by
    rw [List.append_assoc front gap block, List.append_assoc, List.drop_append,
      List.drop_of_length_le (by omega), List.nil_append, Nat.add_sub_cancel_left,
      List.drop_append_of_le_length (by simp)]
  rw [memmove, if_pos ⟨by simp; omega, by simp; omega⟩, closed, moved, left,
    ← List.append_assoc]

end Slots
