import GridQuery.Schema.Kind

/-!
# Values

The scalars that records hold and rules compare against. A value has exactly one
representation; the representations are the kinds, except that a member of an
enumeration is held by name, without its enumeration.
-/

namespace GridQuery

/-- A scalar. -/
inductive Value where
  | whole (width : Width) (n : Whole width)
  | float (x : Binary64)
  | decimal (d : Decimal)
  | bool (b : Bool)
  | text (s : String)
  | instant (i : Instant)
  | member (name : String)
deriving DecidableEq

namespace Value

/-- The name of the representation. -/
def variant : Value → String
  | .whole w _ => w.name
  | .float _ => "Float"
  | .decimal _ => "Decimal"
  | .bool _ => "Bool"
  | .text _ => "Text"
  | .instant _ => "DateTime"
  | .member _ => "Enum"

/-- The value as text. -/
def display : Value → String
  | .whole _ n => n.text
  | .float x => x.text
  | .decimal d => d.text
  | .bool b => if b then "True" else "False"
  | .text s | .member s => s
  | .instant i => i.text

/-- The number of an integer value. -/
def integer? : Value → Option Int
  | .whole _ n => some n.val
  | _ => none

/-- Whether the value already has the representation of a kind. A member of an
enumeration must also be declared. -/
def matchesKind : Value → Kind → Bool
  | .whole w _, .whole w' => w == w'
  | .float _, .float => true
  | .decimal _, .decimal => true
  | .bool _, .boolean => true
  | .text _, .text => true
  | .instant _, .dateTime => true
  | .member name, .enumeration e => (e.ordinal? name).isSome
  | _, _ => false

/-- The value that a rule starts with: zero, `False`, the empty text, the present
instant, or the first member. An enumeration without members has none. -/
def default? (now : Instant) : Kind → Option Value
  | .whole w => some (.whole w (Whole.zero w))
  | .float => some (.float Binary64.zero)
  | .decimal => some (.decimal Decimal.zero)
  | .boolean => some (.bool false)
  | .text => some (.text "")
  | .dateTime => some (.instant now)
  | .enumeration e => e.first?.map Value.member

/-- The smallest and the largest value of a kind that has them. -/
def bounds? : Kind → Option (Value × Value)
  | .whole w => some (.whole w ⟨w.least, w.least_fits⟩, .whole w ⟨w.greatest, w.greatest_fits⟩)
  | .float => some (.float Binary64.least, .float Binary64.greatest)
  | .decimal => some (.decimal Decimal.least, .decimal Decimal.greatest)
  | .dateTime => some (.instant Instant.first, .instant Instant.last)
  | .boolean | .text | .enumeration _ => none

end Value

end GridQuery
