import GridQuery.Data.Toml.Document
import GridQuery.Settings.Environment
import GridQuery.Settings.Form

/-!
# Settings files

A settings file is a TOML text that may mention environment variables. `ofText`
reads the settings of such a text; they have to be usable.
-/

namespace GridQuery.Settings

/-- The settings of a text, with the variables of an environment put in. -/
def ofText (env : Environment) (text : String) : Except SchemaError Settings :=
  match (Data.Toml.read? (String.ofList (env.expand text.toList))).bind
      (ofData? Data.Toml.dialect) with
  | none => .error .malformed
  | some s =>
      match s.check with
      | .error e => .error e
      | .ok () => .ok s

/-- The settings of a file, given its text; without a text the file cannot be
read. -/
def ofFile (env : Environment) (name : String) : Option String → Except SchemaError Settings
  | none => .error (.unreadable name)
  | some text => ofText env text

end GridQuery.Settings
