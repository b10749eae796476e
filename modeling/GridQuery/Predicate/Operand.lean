import GridQuery.Value.Entry

/-!
# Operands

The right-hand sides of comparisons, and what the cells of a record become when
they are compared. Integers of all widths share two representations, and members
of enumerations become text or ordinals.

`Operand.compare` orders operands of compatible shape. Whole numbers and decimals
are compared exactly; as soon as a double takes part, both sides are compared as
doubles. Text compares with an instant when it spells one.
-/

namespace GridQuery

/-- A value on one side of a comparison. -/
inductive Operand where
  | int (n : Whole .int64)
  | uint (n : Whole .uint64)
  | float (x : Binary64)
  | decimal (d : Decimal)
  | bool (b : Bool)
  | text (s : String)
  | instant (i : Instant)
  | date (d : Date)
deriving DecidableEq

/-- A number of one of the three representations that mix in comparisons. -/
inductive Number where
  | whole (n : Int)
  | float (x : Binary64)
  | decimal (d : Decimal)
deriving DecidableEq

namespace Number

/-- The number as a double. -/
def toFloat : Number → Binary64
  | .whole n => Binary64.ofInt n
  | .float x => x
  | .decimal d => d.toFloat

/-- The order of a whole number and a decimal. -/
def orderWholeDecimal (n : Int) (d : Decimal) : Ordering :=
  Ord.compare (n * tenTo 28) d.units

/-- How two numbers compare; `none` when one of them is not a number at all. -/
def order : Number → Number → Option Ordering
  | .whole a, .whole b => some (Ord.compare a b)
  | .whole a, .decimal b => some (orderWholeDecimal a b)
  | .decimal a, .whole b => some (orderWholeDecimal b a).swap
  | .decimal a, .decimal b => some (a.order b)
  | a, b => a.toFloat.order b.toFloat

end Number

namespace Operand

/-- A whole number of any width. -/
def ofWhole (w : Width) (n : Whole w) : Operand :=
  if h : w = .uint64 then .uint ⟨n.val, h ▸ n.fits⟩ else .int ⟨n.val, n.fits.int64 h⟩

/-- A small natural number, such as an hour. -/
def ofSmall (n : Nat) : Operand := .int (Whole.clamp .int64 n)

/-- A value as it is compared. Members of enumerations are compared as text. -/
def ofValue : Value → Operand
  | .whole w n => ofWhole w n
  | .float x => .float x
  | .decimal d => .decimal d
  | .bool b => .bool b
  | .text s | .member s => .text s
  | .instant i => .instant i

/-- The number of a numeric operand. -/
def number? : Operand → Option Number
  | .int n => some (.whole n.val)
  | .uint n => some (.whole n.val)
  | .float x => some (.float x)
  | .decimal d => some (.decimal d)
  | _ => none

/-- The instant that the text of a record spells. -/
def instantOfText? (s : String) : Option Instant :=
  Instant.readTyped? Granularity.standard s.toList

/-- How two operands compare; `none` for operands of different shape and for
everything that has no order. -/
def compare (a b : Operand) : Option Ordering :=
  match a.number?, b.number? with
  | some x, some y => x.order y
  | _, _ =>
      match a, b with
      | .bool a, .bool b => some (Ord.compare a.toNat b.toNat)
      | .text a, .text b => some (Text.order a.toList b.toList)
      | .instant a, .instant b => some (a.order b)
      | .date a, .date b => some (a.order b)
      | .text a, .instant b => (instantOfText? a).map fun a => a.order b
      | .instant a, .text b => (instantOfText? b).map fun b => a.order b
      | _, _ => none

/-- Text in single quotes, where a quote inside is written twice. -/
def quoted (s : String) : String :=
  "'" ++ String.ofList (s.toList.flatMap fun c => if c = '\'' then ['\'', '\''] else [c]) ++ "'"

/-- The operand as it is written inside a clause. -/
def display : Operand → String
  | .int n => n.text
  | .uint n => n.text
  | .float x => x.text
  | .decimal d => d.text
  | .bool b => if b then "TRUE" else "FALSE"
  | .text s => quoted s
  | .instant i => "'" ++ i.text ++ "'"
  | .date d => "'" ++ d.text ++ "'"

end Operand

end GridQuery
