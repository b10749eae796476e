import GridQuery.Schema.FieldType
import GridQuery.Schema.SchemaError

/-!
# Property paths

A property path names a field of a record, of a record inside that record, and so
on, with dots between the names. `Schema.build?` admits the record types whose
field names can stand in a path, and `Schema.resolve` follows a path from field
to field.
-/

namespace GridQuery

namespace Schema

/-! ## Building -/

/-- Whether a name can stand in a path. -/
def isFieldName (name : String) : Bool := name ≠ "" && !name.toList.contains '.'

/-- The first fault among the fields after those already `seen`. -/
def fault? (record : String) (seen : List String) : List (String × FieldType) → Option SchemaError
  | [] => none
  | (name, _) :: rest =>
      if !isFieldName name then some (.invalidPath name (.fieldName record))
      else if seen.contains name then some (.duplicateField record name)
      else fault? record (name :: seen) rest

/-- The record type with the given fields. Field names are non-empty, hold no dot
and do not repeat. -/
def build? (name : String) (fields : List (String × FieldType)) : Except SchemaError Schema :=
  match fault? name [] fields with
  | some e => .error e
  | none => .ok ⟨name, fields⟩

/-- The declared type of a direct field. -/
def field? (s : Schema) (name : String) : Option FieldType :=
  (s.fields.find? fun f => f.1 == name).map Prod.snd

end Schema

/-! ## Resolving -/

/-- What a property path leads to. -/
structure ResolvedField where
  /-- The path as written. -/
  path : String
  /-- The names on the path. -/
  segments : List String
  /-- The declared type of the last field. -/
  type : FieldType
  /-- Whether some field on the way, or the last one, admits null. -/
  nullable : Bool

/-- The names on a path. -/
def pathSegments (path : String) : List String := Text.pieces '.' path

namespace Schema

/-- The declared type at the end of a list of names, and whether null can be found
there; `nullable` says whether it could be found on the way to this record. -/
def follow (path : String) (s : Schema) (nullable : Bool) :
    List String → Except SchemaError (FieldType × Bool)
  | [] => .error (.invalidPath path .empty)
  | [name] =>
      match s.field? name with
      | none => .error (.unknownField s.name name path)
      | some t => .ok (t, nullable || t.isNullable)
  | name :: rest =>
      match s.field? name with
      | none => .error (.unknownField s.name name path)
      | some t =>
          match t.record? with
          | none => .error (.invalidPath path (.notARecord name))
          | some inner => follow path inner (nullable || t.isNullable) rest

/-- Follows a property path from the record. Every name but the last one is a
field that holds a record. -/
def resolve (s : Schema) (path : String) : Except SchemaError ResolvedField :=
  if path = "" then .error (.invalidPath path .empty)
  else
    let segments := pathSegments path
    if segments.any (· == "") then .error (.invalidPath path .emptySegment)
    else
      match s.follow path false segments with
      | .error e => .error e
      | .ok (type, nullable) => .ok { path, segments, type, nullable }

end Schema

end GridQuery
