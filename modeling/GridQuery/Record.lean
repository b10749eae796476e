import GridQuery.Value
import GridQuery.Schema.Resolution

/-!
# Records

The rows of a grid. A record gives each field name a `Cell`: null, a scalar, or a
nested record. `Record.lookup` follows a list of names through nested records;
whatever is missing on the way is null.
-/

namespace GridQuery

/-- What a record holds under a name. -/
inductive Cell where
  | null
  | scalar (v : Value)
  | record (fields : List (String × Cell))

/-- A row: cells under names. Of two cells under one name the first one counts. -/
structure Record where
  fields : List (String × Cell)

namespace Record

/-- The record without cells. -/
def empty : Record := ⟨[]⟩

/-- The cell under a name; null when there is none. -/
def cell (r : Record) (name : String) : Cell :=
  match r.fields.find? fun f => f.1 == name with
  | some (_, c) => c
  | none => .null

/-- The cell at the end of a list of names. The empty list leads nowhere. -/
def lookup (r : Record) : List String → Cell
  | [] => .null
  | [name] => r.cell name
  | name :: rest =>
      match r.cell name with
      | .record fields => lookup ⟨fields⟩ rest
      | _ => .null

end Record

end GridQuery
