import GridQuery.Value.Coercion

/-!
# Values from typed text

`Value.ofEntry` reads what people type into a filter as a value of a kind. Blanks
around the text do not matter, except for text columns, which take the text as it
is. An enumeration takes an ordinal or the name of a member; text that spells a
number is always taken as an ordinal.
-/

namespace GridQuery.Value

open GridQuery.Text

/-- A truth value in any letter case. -/
def boolOfText? (s : List Char) : Option Bool :=
  let word := lower s
  if word = ['t', 'r', 'u', 'e'] then some true
  else if word = ['f', 'a', 'l', 's', 'e'] then some false
  else none

/-- The value of a kind other than text or enumeration that a trimmed text
spells. -/
def scalarOfText? (k : Kind) (preferred : Granularity) (s : List Char) : Option Value :=
  match k with
  | .whole w => (Whole.ofText? w s).map (Value.whole w)
  | .float => (Binary64.ofText? s).map Value.float
  | .decimal => (Decimal.ofText? s).map Value.decimal
  | .boolean => (boolOfText? s).map Value.bool
  | .dateTime => (Instant.readTyped? preferred s).map Value.instant
  | .text | .enumeration _ => none

/-- The value of a kind that a typed text spells. For instants the pattern of the
`preferred` granularity is tried before the others. -/
def ofEntry (k : Kind) (preferred : Granularity) (text : String) : Except ValueError Value :=
  let trimmed := trim text.toList
  match k with
  | .text => .ok (.text text)
  | .enumeration e =>
      match Whole.ofText? .int64 trimmed with
      | some n => coerce (.whole .int64 n) (.enumeration e)
      | none => coerce (.member (String.ofList trimmed)) (.enumeration e)
  | k =>
      match scalarOfText? k preferred trimmed with
      | some v => .ok v
      | none => .error (.unreadable text k.name)

end GridQuery.Value
