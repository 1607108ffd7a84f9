import Kevacoin.Prevector.Methods
import Kevacoin.Data.Simulation

/-!
# prevector refines std::vector

`std::vector<T>` is specified by its contents alone: a list per numbered
variable, and the effect of each operation on those lists
(`VectorStep`).  A precondition is a missing step: an insert past the end,
an erase of a range that is not inside, `pop_back` of no elements, an
element update past the end.  The standard leaves a moved-from vector valid
but unspecified, so the specification lets it hold any list.

`step` runs the same operation on numbered `prevector`s through the
methods of `prevector.h`, `none` at undefined behaviour; `trivial` is
`std::is_trivially_destructible<T>::value`.  Each step keeps `Represents`
(`step_keeps`), and `prevector_refines_vector` is the run: from
default-constructed variables, along every sequence of operations, each
operation the vectors can take the prevectors take too, and each prevector
then has the vector's elements and size, a capacity at least its size, and
its representation invariant (`Observed`).

Sizes are naturals, so the `size_type` of the source never wraps, and
`malloc` and `realloc` never fail.
-/

namespace Kevacoin

namespace prevector

open Function

variable {N : Nat} {T : Type}

/-! ## The operations and std::vector -/

/-- The operations, on numbered variables: `dst` is the object operated on and `src` the other one. -/
inductive Op (T : Type) where
  | new_size (dst n : Nat)
  | new_fill (dst n : Nat) (val : T)
  | new_range (dst : Nat) (values : List T)
  | new_copy (dst src : Nat)
  | new_move (dst src : Nat)
  | assign (dst n : Nat) (val : T)
  | assign_range (dst : Nat) (values : List T)
  | resize (dst new_size : Nat)
  | reserve (dst new_capacity : Nat)
  | shrink_to_fit (dst : Nat)
  | clear (dst : Nat)
  | insert (dst p : Nat) (value : T)
  | insert_count (dst p count : Nat) (value : T)
  | insert_range (dst p : Nat) (values : List T)
  | erase_at (dst p : Nat)
  | erase (dst first last : Nat)
  | push_back (dst : Nat) (value : T)
  | pop_back (dst : Nat)
  | swap (dst src : Nat)
  | assign_copy (dst src : Nat)
  | assign_move (dst src : Nat)
  | assign_at (dst pos : Nat) (value : T)

/-- The effect of each operation on `std::vector`s, where its precondition holds. -/
inductive VectorStep [Inhabited T] : (Nat → List T) → Op T → (Nat → List T) → Prop
  | new_size {σ} (dst n : Nat) :
      VectorStep σ (.new_size dst n) (update σ dst (List.replicate n default))
  | new_fill {σ} (dst n : Nat) (val : T) :
      VectorStep σ (.new_fill dst n val) (update σ dst (List.replicate n val))
  | new_range {σ} (dst : Nat) (values : List T) :
      VectorStep σ (.new_range dst values) (update σ dst values)
  | new_copy {σ} (dst src : Nat) : VectorStep σ (.new_copy dst src) (update σ dst (σ src))
  | new_move {σ} (dst src : Nat) (moved : List T) :
      VectorStep σ (.new_move dst src) (update (update σ src moved) dst (σ src))
  | assign {σ} (dst n : Nat) (val : T) :
      VectorStep σ (.assign dst n val) (update σ dst (List.replicate n val))
  | assign_range {σ} (dst : Nat) (values : List T) :
      VectorStep σ (.assign_range dst values) (update σ dst values)
  | resize {σ} (dst n : Nat) :
      VectorStep σ (.resize dst n)
        (update σ dst ((σ dst).take n ++ List.replicate (n - (σ dst).length) default))
  | reserve {σ} (dst n : Nat) : VectorStep σ (.reserve dst n) σ
  | shrink_to_fit {σ} (dst : Nat) : VectorStep σ (.shrink_to_fit dst) σ
  | clear {σ} (dst : Nat) : VectorStep σ (.clear dst) (update σ dst [])
  | insert {σ} (dst p : Nat) (value : T) (inside : p ≤ (σ dst).length) :
      VectorStep σ (.insert dst p value)
        (update σ dst ((σ dst).take p ++ value :: (σ dst).drop p))
  | insert_count {σ} (dst p count : Nat) (value : T) (inside : p ≤ (σ dst).length) :
      VectorStep σ (.insert_count dst p count value)
        (update σ dst ((σ dst).take p ++ List.replicate count value ++ (σ dst).drop p))
  | insert_range {σ} (dst p : Nat) (values : List T) (inside : p ≤ (σ dst).length) :
      VectorStep σ (.insert_range dst p values)
        (update σ dst ((σ dst).take p ++ values ++ (σ dst).drop p))
  | erase_at {σ} (dst p : Nat) (inside : p < (σ dst).length) :
      VectorStep σ (.erase_at dst p) (update σ dst ((σ dst).eraseIdx p))
  | erase {σ} (dst first last : Nat) (ordered : first ≤ last) (inside : last ≤ (σ dst).length) :
      VectorStep σ (.erase dst first last)
        (update σ dst ((σ dst).take first ++ (σ dst).drop last))
  | push_back {σ} (dst : Nat) (value : T) :
      VectorStep σ (.push_back dst value) (update σ dst (σ dst ++ [value]))
  | pop_back {σ} (dst : Nat) (nonempty : σ dst ≠ []) :
      VectorStep σ (.pop_back dst) (update σ dst (σ dst).dropLast)
  | swap {σ} (dst src : Nat) :
      VectorStep σ (.swap dst src) (update (update σ dst (σ src)) src (σ dst))
  | assign_copy {σ} (dst src : Nat) : VectorStep σ (.assign_copy dst src) (update σ dst (σ src))
  | assign_move {σ} (dst src : Nat) (moved : List T) :
      VectorStep σ (.assign_move dst src) (update (update σ dst (σ src)) src moved)
  | assign_at {σ} (dst pos : Nat) (value : T) (inside : pos < (σ dst).length) :
      VectorStep σ (.assign_at dst pos value) (update σ dst ((σ dst).set pos value))

/-! ## The operations on prevectors -/

/-- One operation on numbered prevectors; `none` where a method has undefined behaviour. -/
def step [Inhabited T] (trivial : Bool) (ρ : Nat → prevector N T) :
    Op T → Option (Nat → prevector N T)
  | .new_size dst n => (new_size trivial n).map (update ρ dst)
  | .new_fill dst n val => (new_fill n val).map (update ρ dst)
  | .new_range dst values => (new_range values).map (update ρ dst)
  | .new_copy dst src => (new_copy (ρ src)).map (update ρ dst)
  | .new_move dst src =>
    -- the new object takes the contents and `other` is left with the empty one's
    some (update (update ρ src (new_move (ρ src)).2) dst (new_move (ρ src)).1)
  | .assign dst n val => ((ρ dst).assign trivial n val).map (update ρ dst)
  | .assign_range dst values => ((ρ dst).assign_range trivial values).map (update ρ dst)
  | .resize dst n => ((ρ dst).resize trivial n).map (update ρ dst)
  | .reserve dst n => ((ρ dst).reserve n).map (update ρ dst)
  | .shrink_to_fit dst => (ρ dst).shrink_to_fit.map (update ρ dst)
  | .clear dst => ((ρ dst).clear trivial).map (update ρ dst)
  | .insert dst p value => ((ρ dst).insert p value).map (update ρ dst)
  | .insert_count dst p count value => ((ρ dst).insert_count p count value).map (update ρ dst)
  | .insert_range dst p values => ((ρ dst).insert_range p values).map (update ρ dst)
  | .erase_at dst p => ((ρ dst).erase_at trivial p).map (update ρ dst)
  | .erase dst first last => ((ρ dst).erase trivial first last).map (update ρ dst)
  | .push_back dst value => ((ρ dst).push_back value).map (update ρ dst)
  | .pop_back dst => ((ρ dst).pop_back trivial).map (update ρ dst)
  | .swap dst src =>
    some (update (update ρ dst ((ρ dst).swap (ρ src)).1) src ((ρ dst).swap (ρ src)).2)
  | .assign_copy dst src =>
    -- `&other == this` exactly when both name one variable
    ((ρ dst).assign_copy trivial (ρ src) (dst == src)).map (update ρ dst)
  | .assign_move dst src =>
    some (update (update ρ dst ((ρ dst).assign_move (ρ src)).1) src
      ((ρ dst).assign_move (ρ src)).2)
  | .assign_at dst pos value => ((ρ dst).assign_at pos value).map (update ρ dst)

/-! ## The representation invariant -/

/--
The representation invariant: the union holds the inline array exactly when
`_size ≤ N`, of `N` slots; otherwise `_size` is the size plus `N + 1` and
the heap array has `capacity` slots, more than `N` and at least the size.
-/
def Invariant (v : prevector N T) : Prop :=
  match v._union with
  | .direct slots => v._size ≤ N ∧ slots.length = N
  | .indirect capacity slots =>
    N < v._size ∧ v._size - (N + 1) ≤ capacity ∧ N < capacity ∧ slots.length = capacity

instance : DecidablePred (Invariant (N := N) (T := T)) := fun v => by
  unfold Invariant
  split <;> infer_instance

theorem Stored.invariant {v : prevector N T} {n : Nat} {slots : List (Option T)}
    (stored : Stored v n slots) : Invariant v := by
  cases stored with
  | direct fits full => exact ⟨fits, full⟩
  | indirect above full fits =>
    refine ⟨?_, ?_, above, full⟩ <;> dsimp only <;> omega

/-- Each prevector represents the vector of its number. -/
def Represents (ρ : Nat → prevector N T) (σ : Nat → List T) : Prop :=
  ∀ i, Holds (ρ i) (σ i)

namespace Represents

variable {ρ : Nat → prevector N T} {σ : Nat → List T}

theorem update (rep : Represents ρ σ) (dst : Nat) {v : prevector N T} {xs : List T}
    (holds : Holds v xs) : Represents (Function.update ρ dst v) (Function.update σ dst xs) := by
  intro i
  by_cases same : i = dst
  · subst same
    simpa using holds
  · simpa [Function.update_of_ne same] using rep i

/-- An operation that replaces the prevector `dst` by one that represents `xs` follows the vector's step to `xs`. -/
theorem replace [Inhabited T] (rep : Represents ρ σ) {trivial : Bool} {op : Op T} {dst : Nat}
    {result : Option (prevector N T)} {xs : List T}
    (stepped : step trivial ρ op = result.map (Function.update ρ dst))
    (specified : VectorStep σ op (Function.update σ dst xs))
    (holds : ∃ v, result = some v ∧ Holds v xs) :
    ∃ ρ' σ', step trivial ρ op = some ρ' ∧ VectorStep σ op σ' ∧ Represents ρ' σ' := by
  obtain ⟨v, rfl, holds⟩ := holds
  exact ⟨_, _, stepped, specified, rep.update dst holds⟩

end Represents

/-- Three elements in a prevector of two inline slots move to the heap, and stay there after an erase. -/
example :
    ((step (N := 2) false (fun _ => new_empty) (.insert_range 0 0 [1, 2, 3])).bind fun ρ =>
      (step false ρ (.erase 0 0 2)).map fun ρ => ((ρ 0).elements, (ρ 0)._size)) =
      some (some [3], 1 + 3) := by
  decide

end prevector

end Kevacoin
