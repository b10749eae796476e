import GridQuery.Number.Decimal
import GridQuery.Calendar.Rfc3339

/-!
# Kinds of values

What a column can hold and be filtered by. A `Kind` is an integer range, one of
the other scalar types, or an enumeration; its `Category` says which comparisons
make sense.

Enumerations keep their members in the order of declaration. Names and ordinals
may repeat, and both look-ups return the first match.
-/

namespace GridQuery

/-! ## Enumerations -/

/-- A named list of members, each with an ordinal. -/
structure Enumeration where
  name : String
  members : List (String × Whole .int64)
deriving DecidableEq

namespace Enumeration

/-- The enumeration whose ordinals count its members from zero. -/
def ofNames (name : String) (members : List String) : Enumeration where
  name := name
  members := members.zipIdx.map fun (member, i) => (member, Whole.clamp .int64 i)

/-- The ordinal of the first member with this name. -/
def ordinal? (e : Enumeration) (member : String) : Option (Whole .int64) :=
  (e.members.find? fun m => m.1 == member).map Prod.snd

/-- The name of the first member with this ordinal. -/
def member? (e : Enumeration) (ordinal : Whole .int64) : Option String :=
  (e.members.find? fun m => m.2 == ordinal).map Prod.fst

/-- The name of the member that is declared first. -/
def first? (e : Enumeration) : Option String := e.members.head?.map Prod.fst

/-- Whether the enumeration has no members. -/
def isEmpty (e : Enumeration) : Bool := e.members.isEmpty

end Enumeration

/-! ## Kinds -/

/-- What the values of a kind can be compared as. -/
inductive Category where
  | numeric
  | boolean
  | text
  | dateTime
deriving DecidableEq, Repr

/-- The name of a category. -/
def Category.name : Category → String
  | .numeric => "Numeric"
  | .boolean => "Boolean"
  | .text => "Text"
  | .dateTime => "DateTime"

/-- All categories. -/
def Category.all : List Category := [.numeric, .boolean, .text, .dateTime]

/-- What a column holds. -/
inductive Kind where
  | whole (width : Width)
  | float
  | decimal
  | boolean
  | text
  | dateTime
  | enumeration (members : Enumeration)
deriving DecidableEq

namespace Kind

/-- The category of a kind. Enumerations are compared by their ordinals. -/
def category : Kind → Category
  | .whole _ | .float | .decimal | .enumeration _ => .numeric
  | .boolean => .boolean
  | .text => .text
  | .dateTime => .dateTime

/-- The name of a kind. An enumeration shows its own name. -/
def name : Kind → String
  | .whole w => w.name
  | .float => "Float"
  | .decimal => "Decimal"
  | .boolean => "Boolean"
  | .text => "Text"
  | .dateTime => "DateTime"
  | .enumeration e => e.name

/-- The enumeration of a kind, if it is one. -/
def enumeration? : Kind → Option Enumeration
  | .enumeration e => some e
  | _ => none

end Kind

end GridQuery
