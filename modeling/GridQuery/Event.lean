import GridQuery.QueryError
import GridQuery.Predicate

/-!
# Events

What the library reports while it works. An event is data; `level`, `message` and
`fields` are its form in a log.
-/

namespace GridQuery

/-- How important an event is. -/
inductive LogLevel where
  | trace
  | debug
  | info
  | warn
  | error
deriving DecidableEq, Repr

namespace LogLevel

/-- All levels, from the least important on. -/
def all : List LogLevel := [.trace, .debug, .info, .warn, .error]

/-- The name of a level in settings. -/
def key : LogLevel → String
  | .trace => "trace"
  | .debug => "debug"
  | .info => "info"
  | .warn => "warn"
  | .error => "error"

/-- The name of a level in a log. -/
def label : LogLevel → String
  | .trace => "TRACE"
  | .debug => "DEBUG"
  | .info => "INFO"
  | .warn => "WARN"
  | .error => "ERROR"

end LogLevel

/-- Something worth reporting. -/
inductive Event where
  /-- A rule became a predicate. -/
  | compiledRule (rule : Nat) (predicate : Predicate)
  /-- A page was cut out of rows in memory. -/
  | appliedPaging (pageNr pageSize rows total : Nat)
  /-- A page was fetched from a source. -/
  | fetchedPage (pageNr pageSize rows total : Nat)
  /-- A request is being answered. -/
  | executing (filters : Nat) (predicate : Predicate)
  /-- A request cannot be answered. -/
  | rejected (reason : QueryError)
  /-- A remark of the program. -/
  | remark (text : String)

namespace Event

/-- How important an event is. -/
def level : Event → LogLevel
  | .rejected _ => .warn
  | _ => .debug

/-- What happened. -/
def message : Event → String
  | .compiledRule .. => "compiled filter rule"
  | .appliedPaging .. => "applied paging"
  | .fetchedPage .. => "fetched page"
  | .executing .. => "executing grid request"
  | .rejected _ => "rejected grid request"
  | .remark text => text

/-- The fields that describe a page. -/
def pageFields (pageNr pageSize rows total : Nat) : List (String × String) :=
  [("page_nr", Text.natString pageNr), ("page_size", Text.natString pageSize),
    ("rows", Text.natString rows), ("total", Text.natString total)]

/-- The details of an event, under their names. -/
def fields : Event → List (String × String)
  | .compiledRule rule p => [("rule", Text.natString rule), ("predicate", p.display)]
  | .appliedPaging nr size rows total => pageFields nr size rows total
  | .fetchedPage nr size rows total => pageFields nr size rows total
  | .executing filters p => [("filters", Text.natString filters), ("predicate", p.display)]
  | .rejected e => [("code", e.code.code), ("error", e.message)]
  | .remark _ => []

end Event

end GridQuery
