import GridQuery.QueryError
import GridQuery.Predicate

/-!
# Operators

The twelve operators that a rule can apply to its column. Each has a number, a
name, and the categories of kinds that it accepts. `Operator.compile` builds the
predicate that applies an operator to a field and an operand.
-/

namespace GridQuery

/-- An operator of a rule. -/
inductive Operator where
  | equals
  | notEquals
  | greaterThan
  | greaterThanOrEquals
  | lessThan
  | lessThanOrEquals
  | contains
  | notContains
  | startsWith
  | endsWith
  | isNull
  | isNotNull
deriving DecidableEq, Repr

namespace Operator

/-- All operators, in the order of their numbers. -/
def all : List Operator :=
  [.equals, .notEquals, .greaterThan, .greaterThanOrEquals, .lessThan, .lessThanOrEquals,
    .contains, .notContains, .startsWith, .endsWith, .isNull, .isNotNull]

/-- The number of an operator. -/
def id : Operator → Nat
  | .equals => 1
  | .notEquals => 2
  | .greaterThan => 3
  | .greaterThanOrEquals => 4
  | .lessThan => 5
  | .lessThanOrEquals => 6
  | .contains => 7
  | .notContains => 8
  | .startsWith => 9
  | .endsWith => 10
  | .isNull => 11
  | .isNotNull => 12

/-- The name of an operator. -/
def name : Operator → String
  | .equals => "Equals"
  | .notEquals => "NotEquals"
  | .greaterThan => "GreaterThan"
  | .greaterThanOrEquals => "GreaterThanOrEquals"
  | .lessThan => "LessThan"
  | .lessThanOrEquals => "LessThanOrEquals"
  | .contains => "Contains"
  | .notContains => "NotContains"
  | .startsWith => "StartsWith"
  | .endsWith => "EndsWith"
  | .isNull => "IsNull"
  | .isNotNull => "IsNotNull"

/-- The operator with the given number. -/
def ofId? (n : Int) : Option Operator := all.find? fun op => (op.id : Int) == n

/-- The operator with the given name. -/
def ofName? (name : String) : Option Operator := all.find? fun op => op.name == name

/-- The operator with the given number, or the error that there is none. -/
def ofId (n : Int) : Except QueryError Operator :=
  match ofId? n with
  | some op => .ok op
  | none =>
      .error ((QueryError.invalidKind ("unknown operator id " ++ Text.intString n)).suggest
        "Operator ids run from 1 (Equals) to 12 (IsNotNull)")

/-- The operator with the given name, or the error that there is none. -/
def ofName (name : String) : Except QueryError Operator :=
  match ofName? name with
  | some op => .ok op
  | none =>
      .error ((QueryError.invalidKind ("unknown operator `" ++ name ++ "`")).suggest
        "Use a display name such as `Equals` or `StartsWith`")

/-! ## Capabilities -/

/-- Whether the operator compares with a value. -/
def needsValue : Operator → Bool
  | .isNull | .isNotNull => false
  | _ => true

/-- Whether the operator makes sense on columns that admit no null. All do. -/
def acceptsRequired (_ : Operator) : Bool := true

/-- Whether the operator accepts values of a category. -/
def acceptsCategory : Operator → Category → Bool
  | .equals, _ | .notEquals, _ | .greaterThanOrEquals, _ | .lessThanOrEquals, _ => true
  | .greaterThan, c | .lessThan, c => c != .boolean
  | .contains, c | .notContains, c | .startsWith, c | .endsWith, c => c == .text
  | .isNull, _ | .isNotNull, _ => true

/-- Whether the operator accepts values of a kind. -/
def acceptsKind (op : Operator) (k : Kind) : Bool := op.acceptsCategory k.category

/-- Whether the operator can be applied to a column of a kind. -/
def acceptsColumn (op : Operator) (k : Kind) (nullable : Bool) : Bool :=
  op.acceptsKind k && (nullable || op.acceptsRequired)

/-- The operators that a column offers, in the order of their numbers. -/
def offered (k : Kind) (nullable : Bool) : List Operator :=
  all.filter fun op => op.acceptsColumn k nullable

/-! ## Predicates -/

/-- The error that an operator has no value to compare with. -/
def missingValue (op : Operator) (path : String) : QueryError :=
  .invalidValue path (op.name ++ " requires a value")

/-- A comparison, which needs an operand. -/
def compileCompare (op : Operator) (c : Comparison) (field : FieldRef) :
    Option Operand → Except QueryError Predicate
  | some operand => .ok (.compare field c operand)
  | none => .error (op.missingValue field.path)

/-- A `LIKE` test for the operand between two pieces of pattern; the operand has to
be text. -/
def compileLike (op : Operator) (before after : String) (negated : Bool) (field : FieldRef) :
    Option Operand → Except QueryError Predicate
  | some (.text s) => .ok (.like field ⟨before ++ s ++ after⟩ negated)
  | some operand =>
      .error (.invalidValue field.path (op.name ++ " needs a text value, got " ++ operand.display))
  | none => .error (op.missingValue field.path)

/-- The predicate that applies an operator to a field and an operand. -/
def compile (op : Operator) (field : FieldRef) (operand : Option Operand) :
    Except QueryError Predicate :=
  match op with
  | .equals => op.compileCompare .equal field operand
  | .notEquals => op.compileCompare .notEqual field operand
  | .greaterThan => op.compileCompare .greater field operand
  | .greaterThanOrEquals => op.compileCompare .greaterOrEqual field operand
  | .lessThan => op.compileCompare .less field operand
  | .lessThanOrEquals => op.compileCompare .lessOrEqual field operand
  | .contains => op.compileLike "%" "%" false field operand
  | .notContains => op.compileLike "%" "%" true field operand
  | .startsWith => op.compileLike "" "%" false field operand
  | .endsWith => op.compileLike "%" "" false field operand
  | .isNull => .ok (.null field false)
  | .isNotNull => .ok (.null field true)

end Operator

end GridQuery
