import GridQuery.Text.Pieces

/-!
# Decimal numerals

Whole numbers as text: `numeral` writes a natural number without leading zeros,
`padded` fills it up with zeros, `intText` puts a minus sign in front of a
negative number. Reading accepts more than writing produces: leading zeros
always, and a sign where the reader says so.
-/

namespace GridQuery.Text

/-! ## Digits -/

/-- The character of a digit from 0 to 9. -/
def digitChar (d : Nat) : Char := Char.ofNat (48 + d)

/-- The value of a decimal digit; `none` for any other character. -/
def digit? (c : Char) : Option Nat :=
  if 48 ≤ c.toNat ∧ c.toNat ≤ 57 then some (c.toNat - 48) else none

/-- The decimal digits of ASCII. -/
def isDigit (c : Char) : Bool := (digit? c).isSome

/-! ## Writing -/

/-- The decimal digits of a natural number, without leading zeros. -/
def numeral (n : Nat) : List Char :=
  if n < 10 then [digitChar n] else numeral (n / 10) ++ [digitChar (n % 10)]
termination_by n

/-- The numeral of `n`, with zeros in front up to `width` characters. -/
def padded (width n : Nat) : List Char :=
  List.replicate (width - (numeral n).length) '0' ++ numeral n

/-- The numeral of a whole number, with a minus sign when it is negative. -/
def intText (n : Int) : List Char :=
  if n < 0 then '-' :: numeral n.natAbs else numeral n.natAbs

/-- The numeral of a natural number as a string. -/
def natString (n : Nat) : String := String.ofList (numeral n)

/-- The numeral of a whole number as a string. -/
def intString (n : Int) : String := String.ofList (intText n)

/-! ## Reading -/

/-- The number that a run of digits spells, continuing from `acc`; `none` at the
first character that is no digit. -/
def digitsValue (acc : Nat) : List Char → Option Nat
  | [] => some acc
  | c :: rest => (digit? c).bind fun d => digitsValue (acc * 10 + d) rest

/-- The number that a non-empty run of digits spells. -/
def numeral? : List Char → Option Nat
  | [] => none
  | c :: rest => digitsValue 0 (c :: rest)

/-- A natural number, with an optional plus sign. -/
def natural? : List Char → Option Nat
  | '+' :: rest => numeral? rest
  | s => numeral? s

/-- A whole number, with an optional sign. -/
def integer? : List Char → Option Int
  | '-' :: rest => (numeral? rest).map fun n => -(n : Int)
  | '+' :: rest => (numeral? rest).map fun n => (n : Int)
  | s => (numeral? s).map fun n => (n : Int)

/-- The first digits of a text, at most `max` of them: their number, their value
and the rest of the text. -/
def takeDigits : (max : Nat) → (count acc : Nat) → List Char → Nat × Nat × List Char
  | 0, count, acc, s => (count, acc, s)
  | _ + 1, count, acc, [] => (count, acc, [])
  | max + 1, count, acc, c :: rest =>
      match digit? c with
      | some d => takeDigits max (count + 1) (acc * 10 + d) rest
      | none => (count, acc, c :: rest)

/-- A number of at least `least` and at most `most` digits at the front of a
text, with the rest of the text. -/
def readDigits (least most : Nat) (s : List Char) : Option (Nat × List Char) :=
  let (count, value, rest) := takeDigits most 0 0 s
  if least ≤ count then some (value, rest) else none

end GridQuery.Text
