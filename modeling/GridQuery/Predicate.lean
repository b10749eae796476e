import GridQuery.Predicate.FieldRef
import GridQuery.Predicate.LikePattern

/-!
# Predicates

Compiled filters: comparisons, `LIKE` tests and null tests on the fields of a
record, joined by AND. A predicate is evaluated on records in memory (`evaluate`),
rendered as an SQL clause with numbered placeholders (`sql`, `params`) and shown
to people with its operands in place (`display`).

`conj` and `all` compose predicates without nesting ANDs and without keeping
trivial parts.
-/

namespace GridQuery

/-! ## Comparisons -/

/-- How a field is compared with an operand. -/
inductive Comparison where
  | equal
  | notEqual
  | greater
  | greaterOrEqual
  | less
  | lessOrEqual
deriving DecidableEq, Repr

namespace Comparison

/-- The comparison in SQL. Inequality counts null as different, as evaluation
does. -/
def sql : Comparison → String
  | .equal => "="
  | .notEqual => "IS DISTINCT FROM"
  | .greater => ">"
  | .greaterOrEqual => ">="
  | .less => "<"
  | .lessOrEqual => "<="

/-- Whether a comparison holds for operands that compare like this; `none` stands
for operands that do not compare. -/
def holds : Comparison → Option Ordering → Bool
  | .equal, o => o == some .eq
  | .notEqual, o => o != some .eq
  | .greater, o => o == some .gt
  | .greaterOrEqual, o => o == some .gt || o == some .eq
  | .less, o => o == some .lt
  | .lessOrEqual, o => o == some .lt || o == some .eq

end Comparison

/-! ## Predicates -/

/-- A condition on records. -/
inductive Predicate where
  | always
  | compare (field : FieldRef) (op : Comparison) (operand : Operand)
  | like (field : FieldRef) (pattern : LikePattern) (negated : Bool)
  | null (field : FieldRef) (negated : Bool)
  | and (parts : List Predicate)

namespace Predicate

/-- Whether the predicate is the one that matches everything. -/
def isAlways : Predicate → Bool
  | .always => true
  | _ => false

/-! ## Composition -/

/-- Both predicates. Nested ANDs become one, and a part that always holds is
dropped. -/
def conj : Predicate → Predicate → Predicate
  | .always, q => q
  | p, .always => p
  | .and ps, .and qs => .and (ps ++ qs)
  | .and ps, q => .and (ps ++ [q])
  | p, .and qs => .and (p :: qs)
  | p, q => .and [p, q]

/-- All predicates of a list. -/
def all (ps : List Predicate) : Predicate := ps.foldl conj .always

/-! ## Evaluation -/

/-- Whether a comparison holds in a record. Null and nested records are different
from everything and neither less nor greater. -/
def evalCompare (field : FieldRef) (op : Comparison) (operand : Operand) (r : Record) : Bool :=
  match r.lookup field.segments with
  | .scalar v => op.holds ((field.project v).bind fun a => a.compare operand)
  | .null | .record _ => op == .notEqual

/-- Whether a `LIKE` test holds in a record. Only text can pass, negated or not. -/
def evalLike (field : FieldRef) (pattern : LikePattern) (negated : Bool) (r : Record) : Bool :=
  match r.lookup field.segments with
  | .scalar (.text s) => pattern.matchesText s != negated
  | _ => false

/-- Whether a null test holds in a record. -/
def evalNull (field : FieldRef) (negated : Bool) (r : Record) : Bool :=
  match r.lookup field.segments with
  | .null => !negated
  | _ => negated

mutual

/-- Whether a record satisfies a predicate. -/
def evaluate : Predicate → Record → Bool
  | .always, _ => true
  | .compare field op operand, r => evalCompare field op operand r
  | .like field pattern negated, r => evalLike field pattern negated r
  | .null field negated, r => evalNull field negated r
  | .and parts, r => evaluateAll parts r

/-- Whether a record satisfies all predicates of a list. -/
def evaluateAll : List Predicate → Record → Bool
  | [], _ => true
  | p :: ps, r => evaluate p r && evaluateAll ps r

end

/-! ## SQL -/

/-- The keyword of a `LIKE` test. -/
def likeKeyword (negated : Bool) : String := if negated then "NOT LIKE" else "LIKE"

/-- The keyword of a null test. -/
def nullKeyword (negated : Bool) : String := if negated then "IS NOT NULL" else "IS NULL"

/-- The placeholder with the given number. -/
def placeholder (n : Nat) : String := "$" ++ Text.natString n

/-- A list of conditions joined by AND, in parentheses. -/
def conjunction (parts : List String) : String := "(" ++ Text.joined " AND " parts ++ ")"

mutual

/-- The values to bind to the placeholders, in order. -/
def params : Predicate → List Operand
  | .always => []
  | .compare _ _ operand => [operand]
  | .like _ pattern _ => [.text pattern.raw]
  | .null .. => []
  | .and parts => paramsAll parts

/-- The values to bind for a list of predicates, in order. -/
def paramsAll : List Predicate → List Operand
  | [] => []
  | p :: ps => params p ++ paramsAll ps

end

mutual

/-- The SQL clause of a predicate whose first placeholder has the number after
`offset`. -/
def sql (offset : Nat) : Predicate → String
  | .always => "TRUE"
  | .compare field op _ => field.sql ++ " " ++ op.sql ++ " " ++ placeholder (offset + 1)
  | .like field _ negated =>
      field.sql ++ " " ++ likeKeyword negated ++ " " ++ placeholder (offset + 1)
  | .null field negated => field.sql ++ " " ++ nullKeyword negated
  | .and parts => if parts.isEmpty then "TRUE" else conjunction (sqlAll offset parts)

/-- The SQL clauses of a list of predicates, numbered one after another. -/
def sqlAll (offset : Nat) : List Predicate → List String
  | [] => []
  | p :: ps => sql offset p :: sqlAll (offset + (params p).length) ps

end

mutual

/-- The predicate with its operands in place. A pattern is shown as written. -/
def display : Predicate → String
  | .always => "TRUE"
  | .compare field op operand => field.sql ++ " " ++ op.sql ++ " " ++ operand.display
  | .like field pattern negated =>
      field.sql ++ " " ++ likeKeyword negated ++ " '" ++ pattern.raw ++ "'"
  | .null field negated => field.sql ++ " " ++ nullKeyword negated
  | .and parts => conjunction (displayAll parts)

/-- The predicates of a list with their operands in place. -/
def displayAll : List Predicate → List String
  | [] => []
  | p :: ps => display p :: displayAll ps

end

end Predicate

end GridQuery
