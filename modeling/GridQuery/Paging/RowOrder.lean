import GridQuery.Paging.Sorter
import GridQuery.Predicate.Operand
import GridQuery.Record

/-!
# The order of rows

Rows are ordered by a property path in a direction. Rows are compared by the cells that
the path leads to: null comes first, then numbers, truth values, text and
instants, and nested records come last. A NaN comes after all other numbers.

Descending turns the comparison around, so that rows that compare equal stay in the
order in which they came. The sort itself is that of a `Sorter`, which may break off
where the comparison is not transitive.
-/

namespace GridQuery

/-! ## Directions -/

/-- The direction of an order. -/
inductive SortDirection where
  | ascending
  | descending
deriving DecidableEq, Repr

namespace SortDirection

/-- Both directions. -/
def all : List SortDirection := [.ascending, .descending]

/-- The name of a direction. -/
def name : SortDirection → String
  | .ascending => "Ascending"
  | .descending => "Descending"

/-- The direction with the given name. -/
def ofName? (name : String) : Option SortDirection := all.find? fun d => d.name == name

/-- The direction in SQL. -/
def sql : SortDirection → String
  | .ascending => "ASC"
  | .descending => "DESC"

/-- The place of nulls in SQL. -/
def nullsSql : SortDirection → String
  | .ascending => "NULLS FIRST"
  | .descending => "NULLS LAST"

/-- A comparison turned into a direction. -/
def orient : SortDirection → Ordering → Ordering
  | .ascending, o => o
  | .descending, o => o.swap

end SortDirection

/-! ## Comparing cells -/

/-- The place of an operand's shape among all shapes. -/
def Operand.shape : Operand → Nat
  | .int _ | .uint _ | .float _ | .decimal _ => 0
  | .bool _ => 1
  | .text _ => 2
  | .date _ => 3
  | .instant _ => 4

/-- Whether an operand is the float that is not a number. -/
def Operand.isNaN : Operand → Bool
  | .float .nan => true
  | _ => false

/-- Operands of one shape. Those that do not compare count as equal, and a NaN
comes last. -/
def Operand.sortWithinShape (a b : Operand) : Ordering :=
  match a.isNaN, b.isNaN with
  | true, true => .eq
  | true, false => .gt
  | false, true => .lt
  | false, false => (a.compare b).getD .eq

/-- Operands by shape, and within a shape by value. -/
def Operand.sortOrder (a b : Operand) : Ordering :=
  (Ord.compare a.shape b.shape).then (a.sortWithinShape b)

/-- Cells: null first, nested records last. -/
def Cell.sortOrder : Cell → Cell → Ordering
  | .null, .null => .eq
  | .null, _ => .lt
  | _, .null => .gt
  | .scalar a, .scalar b => (Operand.ofValue a).sortOrder (Operand.ofValue b)
  | .scalar _, .record _ => .lt
  | .record _, .scalar _ => .gt
  | .record _, .record _ => .eq

/-! ## Sorting -/

/-- An order of rows by one property path. -/
structure RowOrder where
  column : String
  direction : SortDirection
deriving DecidableEq, Repr

namespace RowOrder

variable {α : Type}

/-- The names on the path. -/
def segments (s : RowOrder) : List String := pathSegments s.column

/-- The order as an SQL clause. -/
def sql (s : RowOrder) : String :=
  "ORDER BY " ++ s.column ++ " " ++ s.direction.sql ++ " " ++ s.direction.nullsSql

/-- How two records compare. -/
def compare (s : RowOrder) (a b : Record) : Ordering :=
  s.direction.orient ((a.lookup s.segments).sortOrder (b.lookup s.segments))

/-- The rows in order, where `view` shows a row as a record; `none` when sorting broke
off. -/
def sort (s : RowOrder) (lib : Sorter) (view : α → Record) (rows : List α) : Option (List α) :=
  lib.run (fun a b => s.compare (view a) (view b)) rows

end RowOrder

end GridQuery
