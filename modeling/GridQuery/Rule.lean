import GridQuery.Rule.Compilation
import GridQuery.Column
import GridQuery.Schema.Resolution
import GridQuery.Event

/-!
# Filter rules

A rule is one condition of a filter as people edit it: a column, an operator and a
value. The kind of the value follows from the declared type of the column; binding
a rule to another column resets the value to the default of the new kind. The
identity of a rule never changes.

The edits that can fail return an error instead of a rule, so the rule at hand
stays as it was. `Rule.compile` turns a rule into a predicate for a schema.
-/

namespace GridQuery

/-- A filter rule. -/
structure Rule where
  id : Nat
  column : Column
  /-- The name of the property that the rule was bound with. -/
  property : String
  operator : Operator
  kind : Kind
  nullable : Bool
  value : Option Value
  applied : Bool

namespace Rule

/-! ## Binding -/

/-- What a declared type gives to a rule: the kind, whether null is admitted, and
the default value. -/
def binding (now : Instant) (type : FieldType) : Except QueryError (Kind × Bool × Value) :=
  match type.resolve with
  | .error (name, reason) => .error (.unsupportedKind name reason.message)
  | .ok (kind, nullable) =>
      match Value.default? now kind with
      | none => .error (.unsupportedKind kind.name UnfilterableReason.noMembers.message)
      | some v => .ok (kind, nullable, v)

/-- The error that an operator does not accept a column. -/
def incompatible (op : Operator) (column : Column) (k : Kind) : QueryError :=
  .incompatibleOperator op.name column.path k.name

/-- A rule for a column of the given declared type. -/
def create (id : Nat) (now : Instant) (column : Column) (type : FieldType) (property : String)
    (op : Operator) : Except QueryError Rule :=
  match binding now type with
  | .error e => .error e
  | .ok (kind, nullable, v) =>
      if op.acceptsColumn kind nullable then
        .ok { id, column, property, operator := op, kind, nullable, value := some v,
              applied := false }
      else .error (incompatible op column kind)

/-- A declared type that admits null if null can be found at the end of the
path. -/
def declaredType (f : ResolvedField) : FieldType :=
  if f.nullable && !f.type.isNullable then .nullable f.type else f.type

/-- A rule for a column whose declared type is looked up in a schema. -/
def forColumn (schema : Schema) (id : Nat) (now : Instant) (column : Column) (op : Operator) :
    Except QueryError Rule :=
  match schema.resolve column.path with
  | .error e => .error (.ofSchemaError e)
  | .ok f => create id now column (declaredType f) (f.segments.getLast?.getD f.path) op

/-! ## Edits -/

/-- The rule bound to another column. -/
def rebind (r : Rule) (now : Instant) (column : Column) (type : FieldType) (property : String) :
    Except QueryError Rule :=
  match binding now type with
  | .error e => .error e
  | .ok (kind, nullable, v) =>
      if r.operator.acceptsColumn kind nullable then
        .ok { r with column, property, kind, nullable, value := some v }
      else .error (incompatible r.operator column kind)

/-- The rule with another operator and the same value. -/
def setOperator (r : Rule) (op : Operator) : Except QueryError Rule :=
  if op.acceptsColumn r.kind r.nullable then .ok { r with operator := op }
  else .error (incompatible op r.column r.kind)

/-- The rule with another value. The value is taken as it is; whether it fits the
kind shows when the rule is compiled. -/
def setValue (r : Rule) (v : Value) : Rule := { r with value := some v }

/-- The rule with the value that a typed text spells. -/
def setText (r : Rule) (text : String) : Except QueryError Rule :=
  match Value.ofEntry r.kind r.column.entryGranularity text with
  | .error e => .error ((QueryError.invalidValue r.column.path e.message).causedBy e.message)
  | .ok v => .ok (r.setValue v)

/-- The rule marked as applied or as pending. -/
def setApplied (r : Rule) (applied : Bool) : Rule := { r with applied }

/-! ## Reading -/

/-- The operators that the column of the rule offers. -/
def allowedOperators (r : Rule) : List Operator := Operator.offered r.kind r.nullable

/-- The granularity at which the instants of the rule are compared. -/
def granularity (r : Rule) (options : CompileOptions) : Granularity :=
  r.column.granularityOr options.granularity

/-- The value of the rule as people see it, at the granularity at which it is
compared. -/
def valueText (r : Rule) (options : CompileOptions) : String :=
  match r.value with
  | some (.instant i) => (r.granularity options).text i
  | some v => v.display
  | none => ""

/-- The rule in short: the column, the operator and, where the operator compares
with one, the value, with tabs between. -/
def chip (r : Rule) (options : CompileOptions) : String :=
  if r.operator.needsValue then
    r.column.displayName ++ "\t" ++ r.operator.name ++ "\t" ++ r.valueText options
  else r.column.displayName ++ "\t" ++ r.operator.name

/-! ## Compilation -/

/-- The condition that a rule stands for. -/
def condition (r : Rule) (options : CompileOptions) : Condition where
  path := r.column.path
  kind := r.kind
  nullable := r.nullable
  granularity := r.granularity options
  operator := r.operator
  value := r.value

/-- The predicate of a rule. The path of the column has to lead somewhere in the
schema. -/
def compile (r : Rule) (schema : Schema) (options : CompileOptions) :
    Except QueryError Predicate :=
  match schema.resolve r.column.path with
  | .error e => .error (.ofSchemaError e)
  | .ok _ => (r.condition options).compile options

/-- What compiling a rule reports. -/
def compileEvents (r : Rule) (schema : Schema) (options : CompileOptions) : List Event :=
  match r.compile schema options with
  | .error _ => []
  | .ok p => if options.logPredicates then [.compiledRule r.id p] else []

end Rule

end GridQuery
