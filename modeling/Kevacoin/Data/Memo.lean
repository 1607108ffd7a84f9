import Mathlib.Logic.Function.Basic

/-!
# Memo tables

A memo table holds values computed earlier, a partial map `κ → Option β`
written with `Function.update`.  It agrees with a function `f` when every
value it holds is `f` of its key (`Agrees`): the empty table agrees with
every function, and writing `f key` at `key` keeps the agreement.

A memoising function answers a query from a table and returns the table it
leaves; `answerAll` puts one sequence of queries to it, each query seeing the
table the one before left.  The run rule `answerAll_eq_map` turns one query
that answers `f` and keeps an invariant of the table into a whole sequence
answering `f` pointwise, however the queries are interleaved.
-/

namespace Memo

variable {κ β σ : Type}

/-- Every value the table holds is `f` of its key. -/
def Agrees (f : κ → β) (table : κ → Option β) : Prop :=
  ∀ key value, table key = some value → value = f key

theorem agrees_empty (f : κ → β) : Agrees f fun _ => none := by
  intro key value found
  cases found

/-- Writing the function's own value keeps the agreement. -/
theorem Agrees.update [DecidableEq κ] {f : κ → β} {table : κ → Option β} (agrees : Agrees f table)
    {key : κ} {value : β} (correct : value = f key) :
    Agrees f (Function.update table key (some value)) := by
  intro other stored found
  rw [Function.update_apply] at found
  split at found
  · case isTrue same =>
      cases found
      rw [same]
      exact correct
  · case isFalse _ =>
      exact agrees other stored found

/-! ## Sequences of queries -/

/-- Put the queries to `answer` in turn, threading the table: the answers and the last table. -/
def answerAll (answer : κ → σ → Option (β × σ)) : List κ → σ → Option (List β × σ)
  | [], table => some ([], table)
  | query :: queries, table =>
      (answer query table).bind fun (value, table) =>
        (answerAll answer queries table).map fun (values, table) => (value :: values, table)

/--
The run rule: a query that answers `f` and keeps `Inv` of the table, for
every valid query, gives a sequence of valid queries answered by `f`.
-/
theorem answerAll_eq_map {answer : κ → σ → Option (β × σ)} {f : κ → β} {valid : κ → Prop}
    {Inv : σ → Prop}
    (step : ∀ query table, valid query → Inv table →
      ∃ table', answer query table = some (f query, table') ∧ Inv table') :
    ∀ (queries : List κ) (table : σ), (∀ query ∈ queries, valid query) → Inv table →
      ∃ table', answerAll answer queries table = some (queries.map f, table') ∧ Inv table'
  | [], table, _, holds => ⟨table, rfl, holds⟩
  | query :: queries, table, allValid, holds => by
    obtain ⟨next, answered, nextHolds⟩ :=
      step query table (allValid query (List.mem_cons_self ..)) holds
    obtain ⟨last, rest, lastHolds⟩ := answerAll_eq_map step queries next
      (fun other member => allValid other (List.mem_cons_of_mem _ member)) nextHolds
    refine ⟨last, ?_, lastHolds⟩
    rw [answerAll, answered, Option.bind_some]
    dsimp only
    rw [rest, Option.map_some, List.map_cons]

end Memo
