import GridQuery.Data.Json
import GridQuery.Predicate.Operand

/-!
# Values in messages

The form of values and operands in JSON messages. A value is a record of its kind
and its content, an operand a record whose only entry is named for its shape.
Decimals, instants and dates are written as text, so nothing of them is lost; doubles
that are not finite have no form and are written as null.
-/

namespace GridQuery

open Data

/-! ## Scalars -/

/-- The form of a double. -/
def Binary64.data (x : Binary64) : Data := if x.isFinite then .float x else .null

/-- The form of a decimal. -/
def Decimal.data (d : Decimal) : Data := .text d.text

/-- A decimal from its text, from a whole number, or from the shortest text of a
double. -/
def Decimal.ofData? : Data → Option Decimal
  | .text s => Decimal.ofText? s.toList
  | .integer n => Decimal.ofInt? n
  | .float x => Decimal.ofText? x.positional
  | _ => none

/-- The form of an instant. -/
def Instant.data (i : Instant) : Data := .text i.zuluText

/-- An instant from a timestamp. -/
def Instant.ofData? (d : Data) : Option Instant := d.text?.bind fun s => Instant.readLoose? s.toList

/-- The form of a date. -/
def Date.data (d : Date) : Data := .text d.text

/-- A date from its text. -/
def Date.ofData? (d : Data) : Option Date := d.text?.bind fun s => Date.readLoose? s.toList

/-! ## Values -/

namespace Value

/-- The content of a value. -/
def content : Value → Data
  | .whole _ n => .integer n.val
  | .float x => x.data
  | .decimal d => d.data
  | .bool b => .bool b
  | .text s | .member s => .text s
  | .instant i => i.data

/-- The form of a value. -/
def data (v : Value) : Data := .record [("kind", .text v.variant), ("value", v.content)]

/-- A representation of values, by which their content is read. -/
inductive Variant where
  | whole (width : Width)
  | float
  | decimal
  | bool
  | text
  | instant
  | member

/-- The representation with the given name. -/
def Variant.ofName? (name : String) : Option Variant :=
  match name with
  | "Float" => some .float
  | "Decimal" => some .decimal
  | "Bool" => some .bool
  | "Text" => some .text
  | "DateTime" => some .instant
  | "Enum" => some .member
  | name => (Width.all.find? fun w => w.name == name).map Variant.whole

/-- The value of a representation with the given content. -/
def ofContent? : Variant → Data → Option Value
  | .whole w, d => (d.whole? w).map (Value.whole w)
  | .float, d => d.float?.map Value.float
  | .decimal, d => (Decimal.ofData? d).map Value.decimal
  | .bool, d => d.bool?.map Value.bool
  | .text, d => d.text?.map Value.text
  | .instant, d => (Instant.ofData? d).map Value.instant
  | .member, d => d.text?.map Value.member

/-- The fields of a value. -/
def layout : Layout where
  fields := [("kind", false), ("value", false)]
  closed := false

/-- The representation that a form names. In a list the name stands as a text; in a
record it can be written like any choice between names. -/
def Variant.ofData? (inList : Bool) (d : Data) : Option Variant :=
  if inList then d.text?.bind ofName? else d.choice? Json.dialect ofName?

/-- A value from its form. -/
def ofData? (d : Data) : Option Value := do
  let es ← layout.entries? Json.dialect d
  let variant ← required es "kind" (Variant.ofData? d.isList)
  required es "value" (ofContent? variant)

end Value

/-! ## Operands -/

namespace Operand

/-- The form of an operand. -/
def data : Operand → Data
  | .int n => .record [("Int", .integer n.val)]
  | .uint n => .record [("UInt", .integer n.val)]
  | .float x => .record [("Float", x.data)]
  | .decimal d => .record [("Decimal", d.data)]
  | .bool b => .record [("Bool", .bool b)]
  | .text s => .record [("Text", .text s)]
  | .instant i => .record [("DateTime", i.data)]
  | .date d => .record [("Date", d.data)]

/-- An operand from its form. -/
def ofData? : Data → Option Operand
  | .record [(shape, d)] =>
      match shape with
      | "Int" => (d.whole? .int64).map Operand.int
      | "UInt" => (d.whole? .uint64).map Operand.uint
      | "Float" => d.float?.map Operand.float
      | "Decimal" => (Decimal.ofData? d).map Operand.decimal
      | "Bool" => d.bool?.map Operand.bool
      | "Text" => d.text?.map Operand.text
      | "DateTime" => (Instant.ofData? d).map Operand.instant
      | "Date" => (Date.ofData? d).map Operand.date
      | _ => none
  | _ => none

end Operand

end GridQuery
