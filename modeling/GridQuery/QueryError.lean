import GridQuery.Schema.SchemaError

/-!
# Errors of rules, requests and pages

An error has a code, a message and the circumstances in which it arose: what was
being done, which field or parameter it is about, and what can be done about it.
`message` is the short form for one line, `report` the long form for people.
-/

namespace GridQuery

/-- The kind of an error, for programs. -/
inductive ErrorCode where
  | unsupportedKind
  | invalidKind
  | invalidPath
  | invalidValue
  | incompatibleOperator
  | validation
  | sourceFailed
  | invalidConfiguration
  | internal
deriving DecidableEq, Repr

namespace ErrorCode

/-- The code as it is shown. The first digit groups the codes: 1 filters, 2 paging,
5 sources, 7 settings, 9 internal. -/
def code : ErrorCode → String
  | .unsupportedKind => "T1001"
  | .invalidKind => "T1002"
  | .invalidPath => "T1003"
  | .invalidValue => "T1004"
  | .incompatibleOperator => "T1005"
  | .validation => "T2001"
  | .sourceFailed => "T5001"
  | .invalidConfiguration => "T7001"
  | .internal => "T9001"

/-- What the code stands for. -/
def description : ErrorCode → String
  | .unsupportedKind => "Unsupported column kind"
  | .invalidKind => "Invalid value kind"
  | .invalidPath => "Invalid property path"
  | .invalidValue => "Invalid filter value"
  | .incompatibleOperator => "Operator not allowed for column"
  | .validation => "Invalid paging parameters"
  | .sourceFailed => "Record source failure"
  | .invalidConfiguration => "Invalid configuration"
  | .internal => "Internal error"

end ErrorCode

/-- An error of a rule, a request or a page. -/
structure QueryError where
  code : ErrorCode
  /-- What is wrong. -/
  summary : String
  /-- What was being done. -/
  operation : Option String := none
  /-- The property path or the parameter that the error is about. -/
  field : Option String := none
  /-- What can be done, in the order of being offered. -/
  suggestions : List String := []
  help : Option String := none
  /-- The message of the error that caused this one. -/
  cause : Option String := none
deriving DecidableEq, Repr

namespace QueryError

/-! ## Circumstances -/

/-- Records what was being done. -/
def during (e : QueryError) (operation : String) : QueryError :=
  { e with operation := some operation }

/-- Records the field. -/
def about (e : QueryError) (field : String) : QueryError := { e with field := some field }

/-- Offers one more suggestion, after the others. -/
def suggest (e : QueryError) (suggestion : String) : QueryError :=
  { e with suggestions := e.suggestions ++ [suggestion] }

/-- Sets the help text. -/
def advise (e : QueryError) (help : String) : QueryError := { e with help := some help }

/-- Records the message of the cause. -/
def causedBy (e : QueryError) (cause : String) : QueryError := { e with cause := some cause }

/-! ## The errors -/

/-- A declared type that cannot be filtered on. -/
def unsupportedKind (type reason : String) : QueryError :=
  { code := .unsupportedKind
    summary := "Unsupported property type `" ++ type ++ "` for filtering: " ++ reason
    suggestions := ["Expose the column as a supported kind (integer, float, decimal, bool, text, " ++
      "DateTime, enum or byte)"] }

/-- A kind that is not known where it is needed. -/
def invalidKind (summary : String) : QueryError :=
  { code := .invalidKind
    summary
    help := some "This indicates an inconsistent rule; rebuild it from its column" }

/-- A property path that leads nowhere. -/
def invalidPath (path reason : String) : QueryError :=
  { code := .invalidPath
    summary := "Invalid property path `" ++ path ++ "`: " ++ reason
    field := some path
    suggestions := ["Check the column's property path against the record descriptor"] }

/-- A value that does not fit its column. -/
def invalidValue (field reason : String) : QueryError :=
  { code := .invalidValue
    summary := "Invalid filter value for `" ++ field ++ "`: " ++ reason
    field := some field }

/-- An operator that does not accept the kind of its column. -/
def incompatibleOperator (operator field kind : String) : QueryError :=
  { code := .incompatibleOperator
    summary := "Operator " ++ operator ++ " cannot be applied to `" ++ field ++ "` of kind " ++ kind
    field := some field
    suggestions := ["Pick one of the operators offered for this column"] }

/-- A paging parameter out of range. -/
def validation (parameter reason : String) : QueryError :=
  { code := .validation
    summary := "Invalid " ++ parameter ++ ": " ++ reason
    field := some parameter }

/-- A source of records that failed. -/
def sourceFailed (reason : String) : QueryError :=
  { code := .sourceFailed, summary := "Record source error: " ++ reason }

/-- Settings that cannot be used. -/
def configuration (summary : String) : QueryError := { code := .invalidConfiguration, summary }

/-- A fault of the library itself. -/
def internal (reason : String) : QueryError :=
  { code := .internal, summary := "Internal error: " ++ reason }

/-- An error of a schema or of settings, as an error of the rule or request that
met it. -/
def ofSchemaError (e : SchemaError) : QueryError :=
  match e.path? with
  | some path => (invalidPath path e.message).causedBy e.message
  | none => (configuration e.message).causedBy e.message

/-! ## Groups -/

/-- Whether a caller can recover by asking again. -/
def isValidation (e : QueryError) : Bool := e.code == .validation

/-- Whether the error is about a filter. -/
def isFilterError (e : QueryError) : Bool :=
  match e.code with
  | .unsupportedKind | .invalidKind | .invalidPath | .invalidValue | .incompatibleOperator => true
  | _ => false

/-- Whether the error is about settings. -/
def isConfigurationError (e : QueryError) : Bool := e.code == .invalidConfiguration

/-! ## Text -/

/-- The error on one line. -/
def message (e : QueryError) : String := "[" ++ e.code.code ++ "] " ++ e.summary

/-- The suggestions as a numbered list, counting from `n`. -/
def numbered (n : Nat) : List String → String
  | [] => ""
  | s :: rest => "  " ++ Text.natString n ++ ". " ++ s ++ "\n" ++ numbered (n + 1) rest

/-- A line that is left out when there is nothing to say. -/
def line (before : String) : Option String → String
  | none => ""
  | some text => before ++ text ++ "\n"

/-- The error with all its circumstances. -/
def report (e : QueryError) : String :=
  "Error [" ++ e.code.code ++ "]: " ++ e.summary ++ "\n" ++
    line "  → While: " e.operation ++
    line "  → Field: " e.field ++
    (if e.suggestions.isEmpty then "" else "\nSuggestions:\n" ++ numbered 1 e.suggestions) ++
    line "\nHelp: " e.help

end QueryError

end GridQuery
