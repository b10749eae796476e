import GridQuery.Calendar.Granularity

/-!
# Options of compilation

What can be chosen about the way rules become predicates.
-/

namespace GridQuery

/-- How an instant is compared by the minute: date, hour and minute one by one, or
the start of the minute as one value. -/
inductive MinuteSplit where
  | componentWise
  | truncated
deriving DecidableEq, Repr

namespace MinuteSplit

/-- All ways. -/
def all : List MinuteSplit := [.componentWise, .truncated]

/-- The name of a way in settings and on the wire. -/
def key : MinuteSplit → String
  | .componentWise => "component-wise"
  | .truncated => "truncated"

/-- The way with the given key. -/
def ofKey? (key : String) : Option MinuteSplit := all.find? fun s => s.key == key

end MinuteSplit

/-- Options of compilation. -/
structure CompileOptions where
  minuteSplit : MinuteSplit := .componentWise
  /-- The granularity of columns that set none. -/
  granularity : Granularity := .second
  /-- Whether every compiled predicate is reported. -/
  logPredicates : Bool := false
deriving DecidableEq, Repr

end GridQuery
