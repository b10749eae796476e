import GridQuery.Proofs.Composition
import GridQuery.Proofs.Pattern
import GridQuery.Proofs.Truncation

/-!
# WHERE clauses

The SQL clause of a predicate as a tree: its text is the text that the predicate is rendered
to (`Predicate.sql_eq_text`), and its truth is that of SQL.

The words of SQL are spelled out here and not taken from the rendering, so that what a clause is
written as and when it is true stand side by side.

SQL knows three truth values. A comparison or `LIKE` test of null is neither true nor false,
and AND is the conjunction of Kleene's strong logic. `IS NULL` and `IS DISTINCT FROM` always
have an answer. Functions of null are null. A clause says nothing of values: it has numbered
placeholders, to which operands are bound.
-/

namespace GridQuery

/-! ## Syntax -/

/-- An expression on a row: a column, or a function of an instant. -/
inductive Term where
  | column (names : List String)
  | date (t : Term)
  | hour (t : Term)
  | minute (t : Term)
  | wholeMinute (t : Term)

/-- A condition on rows. Comparisons and `LIKE` tests have the number of a placeholder on
their right. Members of an enumeration are compared by their ordinals; which enumeration a
column holds is known to the database, and the text of the clause does not show it. -/
inductive Clause where
  | always
  | compare (term : Term) (coding : Option Enumeration) (op : Comparison) (slot : ℕ)
  | like (term : Term) (slot : ℕ) (negated : Bool)
  | null (term : Term) (negated : Bool)
  | and (parts : List Clause)

/-- The expression as it is written. -/
def Term.text : Term → String
  | .column names => Text.joined "." names
  | .date t => "CAST(" ++ t.text ++ " AS DATE)"
  | .hour t => "EXTRACT(HOUR FROM " ++ t.text ++ ")"
  | .minute t => "EXTRACT(MINUTE FROM " ++ t.text ++ ")"
  | .wholeMinute t => "date_trunc('minute', " ++ t.text ++ ")"

namespace Clause

/-- The word for a comparison. -/
def compareWord : Comparison → String
  | .equal => "="
  | .notEqual => "IS DISTINCT FROM"
  | .greater => ">"
  | .greaterOrEqual => ">="
  | .less => "<"
  | .lessOrEqual => "<="

/-- The words for a `LIKE` test and a negated one. -/
def likeWord : Bool → String
  | false => "LIKE"
  | true => "NOT LIKE"

/-- The words for a null test and a negated one. -/
def nullWord : Bool → String
  | false => "IS NULL"
  | true => "IS NOT NULL"

mutual

/-- The clause as it is written. -/
def text : Clause → String
  | .always => "TRUE"
  | .compare t _ op slot => t.text ++ " " ++ compareWord op ++ " " ++ ("$" ++ Text.natString slot)
  | .like t slot negated => t.text ++ " " ++ likeWord negated ++ " " ++ ("$" ++ Text.natString slot)
  | .null t negated => t.text ++ " " ++ nullWord negated
  | .and parts => "(" ++ " AND ".intercalate (textAll parts) ++ ")"

/-- The clauses of a list as they are written. -/
def textAll : List Clause → List String
  | [] => []
  | c :: cs => text c :: textAll cs

end

end Clause

/-! ## What expressions yield -/

/-- What an expression yields on a row: null, an operand, or nothing that could be compared,
as when text that spells no instant is cast to a date. -/
inductive Datum where
  | null
  | value (a : Operand)
  | invalid

namespace Operand

/-- The instant of an operand: an instant, or a text that spells one. -/
def instant? : Operand → Option Instant
  | .instant i => some i
  | .text s => instantOfText? s
  | _ => none

/-- An operand as it is compared in a column of an enumeration: members by their ordinals. -/
def coded? : Option Enumeration → Operand → Option Operand
  | none, a => some a
  | some e, .text s => (e.ordinal? s).map .int
  | some _, .int n => some (.int n)
  | some _, .uint n => (Whole.ofInt? .int64 n.val).map .int
  | some _, _ => none

end Operand

/-- A function of operands on what an expression yields: null stays null. -/
def Datum.apply (f : Operand → Option Operand) : Datum → Datum
  | .null => .null
  | .value a =>
      match f a with
      | some b => .value b
      | none => .invalid
  | .invalid => .invalid

/-- What an expression yields on a row. -/
def Term.read (row : Record) : Term → Datum
  | .column names =>
      match row.lookup names with
      | .null => .null
      | .scalar v => .value (Operand.ofValue v)
      | .record _ => .invalid
  | .date t => (t.read row).apply fun a => a.instant?.map fun i => .date i.date
  | .hour t => (t.read row).apply fun a => a.instant?.map fun i => Operand.ofSmall i.time.hour
  | .minute t => (t.read row).apply fun a => a.instant?.map fun i => Operand.ofSmall i.time.minute
  | .wholeMinute t => (t.read row).apply fun a => a.instant?.map fun i => .instant i.wholeMinute

/-! ## Three truth values -/

/-- A truth value of SQL. -/
inductive Truth where
  | true
  | false
  | unknown
deriving DecidableEq, Repr

namespace Truth

/-- The answer of a test that always has one. -/
def ofBool (b : Bool) : Truth := if b then .true else .false

/-- Conjunction: false as soon as one side is, true when both are. -/
def and : Truth → Truth → Truth
  | .false, _ | _, .false => .false
  | .true, .true => .true
  | _, _ => .unknown

/-- Negation: what is unknown stays unknown. -/
def not : Truth → Truth
  | .true => .false
  | .false => .true
  | .unknown => .unknown

/-- A test under its keyword, with or without NOT. -/
def negateIf (negated : Bool) (t : Truth) : Truth := if negated then t.not else t

@[simp] theorem ofBool_eq_true_iff {b : Bool} : ofBool b = .true ↔ b := by
  cases b <;> decide

@[simp] theorem and_eq_true_iff {s t : Truth} : s.and t = .true ↔ s = .true ∧ t = .true := by
  cases s <;> cases t <;> decide

theorem negateIf_ofBool (negated b : Bool) : (ofBool b).negateIf negated = ofBool (b != negated) := by
  cases negated <;> cases b <;> rfl

theorem negateIf_unknown (negated : Bool) : unknown.negateIf negated = unknown := by
  cases negated <;> rfl

end Truth

namespace Datum

/-- A comparison by the order of two operands. There is no answer for null. -/
def order (test : Ordering → Bool) (x : Datum) (b : Operand) : Truth :=
  match x with
  | .null | .invalid => .unknown
  | .value a =>
      match a.compare b with
      | some o => .ofBool (test o)
      | none => .unknown

/-- Whether an operand is there and is not the same as another one, or is not there. -/
def isDistinctFrom (x : Datum) (b : Operand) : Bool :=
  match x with
  | .null | .invalid => true
  | .value a => a.compare b != some .eq

/-- A comparison of SQL. -/
def relates (x : Datum) (b : Operand) : Comparison → Truth
  | .equal => x.order Ordering.isEq b
  | .notEqual => .ofBool (x.isDistinctFrom b)
  | .greater => x.order Ordering.isGT b
  | .greaterOrEqual => x.order Ordering.isGE b
  | .less => x.order Ordering.isLT b
  | .lessOrEqual => x.order Ordering.isLE b

/-- A `LIKE` test. There is no answer for null and for what is no text. -/
def like (x : Datum) (pattern : Operand) : Truth :=
  match x, pattern with
  | .value (.text s), .text p => .ofBool (LikePattern.likes p.toList s.toList)
  | _, _ => .unknown

def isNull : Datum → Bool
  | .null => true
  | _ => false

theorem like_null (pattern : Operand) : null.like pattern = .unknown := rfl

theorem apply_value {f : Operand → Option Operand} {a b : Operand} (h : f a = some b) :
    (value a).apply f = value b := by
  rw [apply, h]

/-- A function of operands yields null on null and on nothing else. -/
@[simp] theorem isNull_apply (f : Operand → Option Operand) (x : Datum) :
    (x.apply f).isNull = x.isNull := by
  unfold apply
  cases x with
  | value a =>
    simp only
    cases f a <;> rfl
  | _ => rfl

end Datum

mutual

/-- The truth of a clause on a row, with operands bound to the placeholders. -/
def Clause.truth (bound : ℕ → Operand) (row : Record) : Clause → Truth
  | .always => .true
  | .compare t coding op slot =>
      ((t.read row).apply (Operand.coded? coding)).relates (bound slot) op
  | .like t slot negated => ((t.read row).like (bound slot)).negateIf negated
  | .null t negated => (Truth.ofBool (t.read row).isNull).negateIf negated
  | .and parts => Clause.truthAll bound row parts

/-- The truth of a conjunction of clauses. -/
def Clause.truthAll (bound : ℕ → Operand) (row : Record) : List Clause → Truth
  | [] => .true
  | c :: cs => (Clause.truth bound row c).and (Clause.truthAll bound row cs)

end

/-! ## The clause of a predicate -/

namespace FieldRef

/-- The expression of a reference. -/
def term (f : FieldRef) : Term :=
  let column := Term.column f.segments
  match f.access with
  | .value | .ordinal _ => column
  | .date => .date column
  | .hour => .hour column
  | .minute => .minute column
  | .wholeMinute => .wholeMinute column

/-- The enumeration by whose ordinals the column of a reference is compared. -/
def coding (f : FieldRef) : Option Enumeration :=
  match f.access with
  | .ordinal e => some e
  | _ => none

theorem term_text (f : FieldRef) : f.term.text = f.sql := by
  unfold term sql
  cases f.access <;> rfl

end FieldRef

theorem Comparison.sql_eq_compareWord (op : Comparison) : op.sql = Clause.compareWord op := by
  cases op <;> rfl

namespace Predicate

mutual

/-- The clause of a predicate whose first placeholder has the number after `offset`. -/
def clause (offset : ℕ) : Predicate → Clause
  | .always => .always
  | .compare field op _ => .compare field.term field.coding op (offset + 1)
  | .like field _ negated => .like field.term (offset + 1) negated
  | .null field negated => .null field.term negated
  | .and parts => if parts.isEmpty then .always else .and (clauseAll offset parts)

/-- The clauses of a list of predicates, numbered one after another. -/
def clauseAll (offset : ℕ) : List Predicate → List Clause
  | [] => []
  | p :: ps => clause offset p :: clauseAll (offset + (params p).length) ps

end

theorem likeKeyword_eq_likeWord (negated : Bool) :
    likeKeyword negated = Clause.likeWord negated := by
  cases negated <;> rfl

theorem nullKeyword_eq_nullWord (negated : Bool) :
    nullKeyword negated = Clause.nullWord negated := by
  cases negated <;> rfl

theorem conjunction_eq_intercalate (parts : List String) :
    conjunction parts = "(" ++ " AND ".intercalate parts ++ ")" := by
  rw [conjunction, Text.joined_eq_intercalate]

theorem sqlAll_eq_textAll {ps : List Predicate}
    (h : ∀ p ∈ ps, ∀ offset, p.sql offset = (p.clause offset).text) (offset : ℕ) :
    sqlAll offset ps = Clause.textAll (clauseAll offset ps) := by
  induction ps generalizing offset with
  | nil => rfl
  | cons p ps ih =>
    rw [sqlAll, clauseAll, Clause.textAll, h p (by simp), ih fun q hq => h q (by simp [hq])]

/-- **The text of the clause** is what the predicate is rendered to. -/
theorem sql_eq_text (p : Predicate) (offset : ℕ) : p.sql offset = (p.clause offset).text := by
  induction p generalizing offset with
  | always => rfl
  | compare field op operand =>
    rw [sql, clause, Clause.text, field.term_text, op.sql_eq_compareWord, placeholder]
  | like field pattern negated =>
    rw [sql, clause, Clause.text, field.term_text, likeKeyword_eq_likeWord, placeholder]
  | null field negated =>
    rw [sql, clause, Clause.text, field.term_text, nullKeyword_eq_nullWord]
  | and parts ih =>
    rw [sql, clause]
    split
    · rfl
    · rw [Clause.text, conjunction_eq_intercalate, sqlAll_eq_textAll ih]

end Predicate

end GridQuery
