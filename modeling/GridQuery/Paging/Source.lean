import GridQuery.Paging.Page

/-!
# Sources of rows

A source counts and fetches the rows that satisfy a predicate; it filters, sorts
and slices on its own side, and both may fail. Fetching may also break off, and then
nothing is answered. `Source.ofRows` is the source over rows in memory.
-/

namespace GridQuery

/-- A source of rows. -/
structure Source (α : Type) where
  /-- The number of rows that satisfy a predicate. -/
  count : Predicate → Except QueryError UInt64
  /-- The rows that satisfy a predicate, sorted, without the first `skip` rows and
  at most `take` of them; `none` when it breaks off. -/
  fetch : Predicate → Option RowOrder → (skip take : UInt64) → Option (Except QueryError (List α))

namespace Source

variable {α : Type}

/-- The source over rows in memory. -/
def ofRows (lib : Sorter) (view : α → Record) (rows : List α) : Source α :=
  let matching (p : Predicate) := rows.filter fun r => p.evaluate (view r)
  { count := fun p => .ok (Page.count (matching p))
    fetch := fun p order skip take =>
      let whole := match order with
        | none => some (matching p)
        | some s => s.sort lib view (matching p)
      whole.map fun rows => .ok (Page.slice skip take rows) }

/-- The page of a source that a pager asks for. -/
def page (source : Source α) (p : Predicate) (pager : Pager) :
    Option (Except QueryError (Page α)) :=
  match source.count p with
  | .error e => some (.error e)
  | .ok total =>
      (source.fetch p pager.order? pager.skip pager.take).map fun rows =>
        rows.map (Page.answer pager total)

end Source

end GridQuery
