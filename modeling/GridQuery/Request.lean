import GridQuery.Rule
import GridQuery.Paging.Source

/-!
# Requests

Everything that a grid needs for one page: a pager, the rules of the filter and
the options under which they become predicates. The rules are joined by AND.

A request is checked against the schema before a source is asked for anything:
the column of the sort has to exist, and every rule has to become a predicate.
-/

namespace GridQuery

/-- A request for a page. -/
structure Request where
  pager : Pager
  rules : List Rule
  options : CompileOptions := {}

namespace Request

variable {α : Type}

/-! ## Changes -/

/-- The request with one more rule, after the others. -/
def add (r : Request) (rule : Rule) : Request := { r with rules := r.rules ++ [rule] }

/-- The first rule with the given identity, and the request without it. -/
def remove? (r : Request) (id : Nat) : Option (Rule × Request) :=
  (r.rules.find? fun rule => rule.id == id).map fun rule =>
    (rule, { r with rules := r.rules.eraseP fun rule => rule.id == id })

/-! ## The predicate -/

/-- The conjunction of the rules after those whose conjunction is `soFar`. The
first rule that cannot be compiled decides the error. -/
def conjunction (schema : Schema) (options : CompileOptions) (soFar : Predicate) :
    List Rule → Except QueryError Predicate
  | [] => .ok soFar
  | rule :: rules =>
      match rule.compile schema options with
      | .error e => .error e
      | .ok p => conjunction schema options (soFar.conj p) rules

/-- The predicate that all rules make together. -/
def expression (r : Request) (schema : Schema) : Except QueryError Predicate :=
  conjunction schema r.options .always r.rules

/-- The rules in front of the first one that cannot be compiled. -/
def compiled (r : Request) (schema : Schema) : List Rule :=
  r.rules.takeWhile fun rule => (rule.compile schema r.options).isOk

/-- What compiling the rules reports. -/
def expressionEvents (r : Request) (schema : Schema) : List Event :=
  (r.compiled schema).flatMap fun rule => rule.compileEvents schema r.options

/-! ## Checking -/

/-- The error that keeps the rows from being sorted, if there is one. -/
def sortError? (r : Request) (schema : Schema) : Option QueryError :=
  match r.pager.order? with
  | none => none
  | some s =>
      match schema.resolve s.column with
      | .error e => some ((QueryError.ofSchemaError e).during "Validating sort column")
      | .ok _ => none

/-- The predicate of a request whose sort column exists. -/
def prepare (r : Request) (schema : Schema) : Except QueryError Predicate :=
  match r.sortError? schema with
  | some e => .error e
  | none => r.expression schema

/-- What preparing a request reports. -/
def prepareEvents (r : Request) (schema : Schema) : List Event :=
  match r.sortError? schema with
  | some _ => []
  | none => r.expressionEvents schema

/-- Whether a request can be answered; if not, why. -/
def validate (r : Request) (schema : Schema) : Except QueryError Unit :=
  (r.prepare schema).map fun _ => ()

/-! ## Answering -/

/-- The page that a source gives for a request; `none` when the source broke off. -/
def execute (r : Request) (schema : Schema) (source : Source α) :
    Option (Except QueryError (Page α)) :=
  match r.prepare schema with
  | .error e => some (.error e)
  | .ok p => source.page p r.pager

/-- What answering a request reports. -/
def executeEvents (r : Request) (schema : Schema) (source : Source α) : List Event :=
  r.prepareEvents schema ++
    match r.prepare schema with
    | .error e => [.rejected e]
    | .ok p =>
        .executing r.rules.length p ::
          match source.page p r.pager with
          | some (.ok page) => [page.fetchedEvent]
          | _ => []

end Request

end GridQuery
