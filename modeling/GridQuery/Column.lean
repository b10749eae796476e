import GridQuery.Calendar.Granularity

/-!
# Columns

A column of a grid: the property path it shows, the text of its header, and the
granularity of its instants.
-/

namespace GridQuery

/-- A column of a grid. -/
structure Column where
  path : String
  header : Option String := none
  granularity : Option Granularity := none
deriving DecidableEq, Repr

namespace Column

/-- The text of the header; without one, the path. -/
def displayName (c : Column) : String := c.header.getD c.path

/-- The granularity of a column; without one, the given granularity. -/
def granularityOr (c : Column) (standard : Granularity) : Granularity :=
  c.granularity.getD standard

/-- The granularity in which the column's text is read. -/
def entryGranularity (c : Column) : Granularity := c.granularityOr Granularity.standard

end Column

end GridQuery
