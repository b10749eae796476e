import GridQuery.Data
import GridQuery.Record

/-!
# Records from messages

A record of data is a row of a grid. Whole numbers become the signed 64-bit
representation, or the unsigned one if they are too large for it. Text stays text,
and lists count as null. Of two entries under one name the later one counts.
-/

namespace GridQuery

namespace Cell

/-- The cell of a whole number. -/
def ofInteger (n : Int) : Cell :=
  match Whole.ofInt? .int64 n with
  | some n => .scalar (.whole .int64 n)
  | none =>
      match Whole.ofInt? .uint64 n with
      | some n => .scalar (.whole .uint64 n)
      | none => .null

mutual

/-- The cell of a tree. -/
def ofData : Data → Cell
  | .null | .list _ | .foreign => .null
  | .bool b => .scalar (.bool b)
  | .integer n => ofInteger n
  | .float x => .scalar (.float x)
  | .text s => .scalar (.text s)
  | .record entries => .record (ofEntries entries).reverse

/-- The cells of entries, in their order. -/
def ofEntries : List (String × Data) → List (String × Cell)
  | [] => []
  | (name, d) :: es => (name, ofData d) :: ofEntries es

end

end Cell

namespace Record

/-- The row of a tree. What is no record has no cells. -/
def ofData (d : Data) : Record :=
  match Cell.ofData d with
  | .record fields => ⟨fields⟩
  | _ => empty

end Record

end GridQuery
