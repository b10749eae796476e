import GridQuery.Schema.Kind

/-!
# Declared types

The types that the fields of a record can be declared with. A type is one of the
filterable kinds, a type that cannot be filtered on, a nested record, or a type
that admits null. `resolve` finds the kind that a column of the type is filtered
by.
-/

namespace GridQuery

/-- The declared type of a field. -/
inductive FieldType where
  | kind (k : Kind)
  | single
  | char
  | signedByte
  | object
  | dbNull
  | empty
  | record (name : String) (fields : List (String × FieldType))
  | nullable (inner : FieldType)

/-- A record type: a name, and the fields in the order of declaration. -/
structure Schema where
  name : String
  fields : List (String × FieldType)

/-- Why a declared type cannot be filtered on. -/
inductive UnfilterableReason where
  | noMembers
  | single
  | char
  | signedByte
  | object
  | placeholder
  | record
deriving DecidableEq, Repr

/-- The reason in words. -/
def UnfilterableReason.message : UnfilterableReason → String
  | .noMembers => "enum declares no members"
  | .single => "single precision floats are not filterable"
  | .char => "characters are not filterable"
  | .signedByte => "signed bytes are not filterable"
  | .object => "opaque objects are not filterable"
  | .placeholder => "placeholder types carry no filterable value"
  | .record => "nested records must be traversed, not filtered"

namespace FieldType

/-- The name of a declared type; a type that admits null ends in a question
mark. -/
def name : FieldType → String
  | .kind k => k.name
  | .single => "Single"
  | .char => "Char"
  | .signedByte => "SByte"
  | .object => "Object"
  | .dbNull => "DBNull"
  | .empty => "Empty"
  | .record name _ => name
  | .nullable inner => inner.name ++ "?"

/-- The type under all its nullable wrappers. -/
def core : FieldType → FieldType
  | .nullable inner => inner.core
  | t => t

/-- Whether the type admits null. -/
def isNullable : FieldType → Bool
  | .nullable _ => true
  | _ => false

/-- The nested record type, if the type is one under its nullable wrappers. -/
def record? (t : FieldType) : Option Schema :=
  match t.core with
  | .record name fields => some ⟨name, fields⟩
  | _ => none

/-- The kind of a type that admits no null. -/
def kind? : FieldType → Except UnfilterableReason Kind
  | .kind (.enumeration e) => if e.isEmpty then .error .noMembers else .ok (.enumeration e)
  | .kind k => .ok k
  | .single => .error .single
  | .char => .error .char
  | .signedByte => .error .signedByte
  | .object => .error .object
  | .dbNull | .empty => .error .placeholder
  | .record .. => .error .record
  | .nullable _ => .error .placeholder

/-- The kind a column of this type is filtered by, and whether it admits null. A
type without a kind is reported under its name without nullable wrappers. -/
def resolve (t : FieldType) : Except (String × UnfilterableReason) (Kind × Bool) :=
  match t.core.kind? with
  | .ok k => .ok (k, t.isNullable)
  | .error reason => .error (t.core.name, reason)

end FieldType

end GridQuery
