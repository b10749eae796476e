import GridQuery.Event
import GridQuery.Settings.Environment

/-!
# Settings of logging

How much is logged, and in which form, is set by three environment variables. Their
values are compared without regard to letter case; the words have ASCII letters
only.
-/

namespace GridQuery

/-- The form of a log. -/
inductive LogFormat where
  | json
  | pretty
  | compact
deriving DecidableEq, Repr

namespace LogFormat

/-- All forms. -/
def all : List LogFormat := [.json, .pretty, .compact]

/-- The name of a form. -/
def name : LogFormat → String
  | .json => "json"
  | .pretty => "pretty"
  | .compact => "compact"

end LogFormat

namespace Environment

/-- The value of a variable in small letters. -/
def lowered? (env : Environment) (name : String) : Option String :=
  (env.value? name.toList).map fun value => String.ofList (Text.lower value)

/-- Whether remarks of the program are logged. -/
def debugging (env : Environment) : Bool :=
  match env.lowered? "TABULA_DEBUG" with
  | none => false
  | some word => word == "true" || word == "1" || word == "yes"

/-- The name of the variable for the level of a log. -/
def levelVariable : String := "TABULA_LOG_LEVEL"

/-- The level of a log: the one that is set, or one that follows from whether remarks
are logged. -/
def logLevel (env : Environment) : LogLevel :=
  let standard := if env.debugging then LogLevel.debug else .warn
  match env.lowered? levelVariable with
  | none => standard
  | some word => (LogLevel.all.find? fun l => l.key == word).getD standard

/-- The form of a log. -/
def logFormat (env : Environment) : LogFormat :=
  match env.lowered? "TABULA_LOG_FORMAT" with
  | none => .json
  | some word => (LogFormat.all.find? fun f => f.name == word).getD .json

/-- The environment with the level of a log set. -/
def withLogLevel (env : Environment) (level : String) : Environment :=
  env.set levelVariable level

/-- What a remark of the program reports. -/
def remark (env : Environment) (text : String) : List Event :=
  if env.debugging then [.remark text] else []

end Environment

end GridQuery
