import GridQuery.Number.Binary64

/-!
# Reading doubles

Decimal text is read as the closest double. A text is an optional sign followed
by `inf`, `infinity` or `nan` in any letter case, or by digits with an optional
point and an optional exponent; at least one digit stands before the exponent.
-/

namespace GridQuery.Binary64

open GridQuery.Text

/-- A decimal number as read: `digits * 10 ^ exponent`. -/
structure Scientific where
  digits : Nat
  exponent : Int

/-- The double closest to a decimal number. Exponents so large or so small that
the result is infinite or zero are not multiplied out. -/
def ofScientific (negative : Bool) (s : Scientific) : Binary64 :=
  let size := (numeral s.digits).length
  if s.digits = 0 then pack negative 0 0
  else if 400 < s.exponent then .infinite negative
  else if s.exponent + size < -400 then pack negative 0 0
  else if 0 ≤ s.exponent then nearest negative (s.digits * tenTo s.exponent.natAbs) 1
  else nearest negative s.digits (tenTo s.exponent.natAbs)

/-- The digits at the front of a text, their number, and the rest. -/
def readDigitRun (s : List Char) : Nat × Nat × List Char := takeDigits s.length 0 0 s

/-- The exponent at the end of a decimal number: nothing, or `e` with an optional
sign and digits up to the end of the text. -/
def readExponent : List Char → Option Int
  | [] => some 0
  | c :: rest =>
      if c = 'e' ∨ c = 'E' then
        match rest with
        | '-' :: ds => (numeral? ds).map fun n => -(n : Int)
        | '+' :: ds => (numeral? ds).map fun n => (n : Int)
        | ds => (numeral? ds).map fun n => (n : Int)
      else none

/-- An unsigned decimal number that fills the text. -/
def readScientific (s : List Char) : Option Scientific :=
  let (before, whole, rest) := readDigitRun s
  match rest with
  | '.' :: tail =>
      let (count, all, rest) := takeDigits tail.length 0 whole tail
      if before + count = 0 then none
      else (readExponent rest).map fun e => ⟨all, e - count⟩
  | rest => if before = 0 then none else (readExponent rest).map fun e => ⟨whole, e⟩

/-- An unsigned number that fills the text. -/
def readMagnitude (negative : Bool) (s : List Char) : Option Binary64 :=
  let word := String.ofList (lower s)
  if word = "inf" ∨ word = "infinity" then some (.infinite negative)
  else if word = "nan" then some .nan
  else (readScientific s).map (ofScientific negative)

/-- The double that a text spells. -/
def ofText? : List Char → Option Binary64
  | '-' :: rest => readMagnitude true rest
  | '+' :: rest => readMagnitude false rest
  | s => readMagnitude false s

end GridQuery.Binary64
