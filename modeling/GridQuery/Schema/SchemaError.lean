import GridQuery.Text.Numeral

/-!
# Errors of schemas and settings

What can go wrong while a record type is built, a property path is resolved or
settings are loaded. The causes are data; `message` is the only place where they
are put into words.
-/

namespace GridQuery

/-- What is wrong with a property path or a field name. -/
inductive PathFault where
  | empty
  | emptySegment
  | notARecord (segment : String)
  /-- A field name of the record that is empty or holds a dot. -/
  | fieldName (record : String)
  | other (message : String)
deriving DecidableEq, Repr

/-- The fault in words. -/
def PathFault.message : PathFault → String
  | .empty => "path is empty"
  | .emptySegment => "path contains an empty segment"
  | .notARecord segment => "`" ++ segment ++ "` is not a record and cannot be traversed"
  | .fieldName record => "field names of `" ++ record ++ "` must be non-empty and undotted"
  | .other message => message

/-- What is wrong with well-formed settings. -/
inductive SettingsFault where
  | zeroPageSize
  | maximumTooSmall (maximum standard : Nat)
  | other (message : String)
deriving DecidableEq, Repr

/-- The fault in words. -/
def SettingsFault.message : SettingsFault → String
  | .zeroPageSize => "paging.default_page_size must be positive"
  | .maximumTooSmall maximum standard =>
      "paging.max_page_size (" ++ Text.natString maximum ++
        ") is smaller than paging.default_page_size (" ++ Text.natString standard ++ ")"
  | .other message => message

/-- An error of a schema or of settings. -/
inductive SchemaError where
  | unreadable (file : String)
  | unknownField (record field path : String)
  | invalidPath (path : String) (fault : PathFault)
  | duplicateField (record field : String)
  | settings (fault : SettingsFault)
  | malformed
deriving DecidableEq, Repr

namespace SchemaError

/-- The error in words. -/
def message : SchemaError → String
  | .unreadable file => "failed to read file: " ++ file
  | .unknownField record field path =>
      "unknown field `" ++ field ++ "` on record `" ++ record ++ "` (path `" ++ path ++ "`)"
  | .invalidPath path fault => "invalid property path `" ++ path ++ "`: " ++ fault.message
  | .duplicateField record field => "duplicate field `" ++ field ++ "` on record `" ++ record ++ "`"
  | .settings fault => "configuration error: " ++ fault.message
  | .malformed => "failed to parse TOML"

/-- The path an error is about. -/
def path? : SchemaError → Option String
  | .unknownField _ _ path | .invalidPath path _ => some path
  | _ => none

/-- Whether the error is about a path. -/
def isPathError (e : SchemaError) : Bool := e.path?.isSome

/-- The code under which tools show an error. -/
def code : SchemaError → String
  | .unreadable _ => "tabula::schema::io_error"
  | .unknownField .. => "tabula::schema::unknown_field"
  | .invalidPath .. => "tabula::schema::invalid_path"
  | .duplicateField .. => "tabula::schema::duplicate_field"
  | .settings _ => "tabula::schema::config_error"
  | .malformed => "tabula::schema::toml_error"

/-- Advice that goes with an error. -/
def help? : SchemaError → Option String
  | .unknownField .. => some "check the column's property path against the record descriptor"
  | _ => none

end SchemaError

end GridQuery
