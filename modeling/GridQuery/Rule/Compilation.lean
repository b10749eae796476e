import GridQuery.Operator
import GridQuery.Settings.CompileOptions

/-!
# Compilation of a condition

A condition is an operator and a value on a column of a known kind.
`Condition.compile` checks that operator, kind and value fit together, brings the
value into the representation of the kind and builds the predicate. Conditions on
instants look at as much of the instant as the granularity says.
-/

namespace GridQuery

/-- A condition on a column. -/
structure Condition where
  path : String
  kind : Kind
  nullable : Bool
  granularity : Granularity
  operator : Operator
  value : Option Value

namespace Condition

/-- The error that a value does not fit the kind of its column. -/
def valueError (path : String) (e : ValueError) : QueryError :=
  ((QueryError.invalidValue path e.message).during "Compiling filter rule").causedBy e.message

/-- The value in the representation of the kind; `none` for operators that compare
with nothing. -/
def operandValue (c : Condition) : Except QueryError (Option Value) :=
  if c.operator.needsValue then
    match c.value with
    | none => .error (c.operator.missingValue c.path)
    | some v =>
        match v.coerce c.kind with
        | .error e => .error (valueError c.path e)
        | .ok v => .ok (some v)
  else .ok none

/-- The operand of a value that is already of a kind. -/
def operandOf (k : Kind) (v : Value) (path : String) : Except QueryError Operand :=
  match k, v with
  | .enumeration e, .member name =>
      match e.ordinal? name with
      | some n => .ok (.int n)
      | none =>
          .error (.invalidValue path ("`" ++ name ++ "` is not a member of enum " ++ e.name))
  | _, v => .ok (Operand.ofValue v)

/-- One part of a condition on an instant. -/
def instantPart (c : Condition) (access : Access) (operand : Option Operand) :
    Except QueryError Predicate :=
  c.operator.compile ⟨c.path, access⟩ operand

/-- The operand of an instant that is compared as a whole minute. -/
def truncatedOperand (i : Instant) : Except QueryError Operand :=
  match i.wholeMinute? with
  | some minute => .ok (.instant minute)
  | none => .error (.internal ("cannot truncate " ++ i.plainText ++ " to the minute"))

/-- The predicate of a condition on an instant, at the granularity of the
condition. -/
def compileInstant (c : Condition) (options : CompileOptions) (i : Option Instant) :
    Except QueryError Predicate :=
  let date := i.map fun i => Operand.date i.date
  match c.granularity with
  | .date => c.instantPart .date date
  | .second => c.instantPart .value (i.map Operand.instant)
  | .minute =>
      match options.minuteSplit with
      | .truncated => do
          let operand ← i.mapM truncatedOperand
          c.instantPart .wholeMinute operand
      | .componentWise => do
          let date ← c.instantPart .date date
          let hour ← c.instantPart .hour (i.map fun i => Operand.ofSmall i.time.hour)
          let minute ← c.instantPart .minute (i.map fun i => Operand.ofSmall i.time.minute)
          .ok (.and [date, hour, minute])

/-- The predicate of a condition. -/
def compile (c : Condition) (options : CompileOptions) : Except QueryError Predicate :=
  if !c.operator.acceptsColumn c.kind c.nullable then
    .error (.incompatibleOperator c.operator.name c.path c.kind.name)
  else
    match c.operandValue with
    | .error e => .error e
    | .ok v =>
        match c.kind, v with
        | .dateTime, none => c.compileInstant options none
        | .dateTime, some (.instant i) => c.compileInstant options (some i)
        | .dateTime, some v =>
            .error (.invalidKind
              ("DateTime rule on `" ++ c.path ++ "` carries a " ++ v.variant ++ " value"))
        | k, none => c.operator.compile ⟨c.path, fieldAccess k⟩ none
        | k, some v =>
            match operandOf k v c.path with
            | .error e => .error e
            | .ok operand => c.operator.compile ⟨c.path, fieldAccess k⟩ (some operand)
where
  /-- The part of a value that a kind is compared by. -/
  fieldAccess : Kind → Access
    | .enumeration e => .ordinal e
    | _ => .value

end Condition

end GridQuery
