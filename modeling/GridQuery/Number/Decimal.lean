import GridQuery.Number.Shortest
import GridQuery.Number.Reading

/-!
# Scaled decimals

Fixed point numbers with a mantissa of 96 bits and up to 28 places after the
point. The scale is part of the number: `1.5` and `1.50` are two decimals that
denote the same number, and the text of a decimal shows all its places.

`ofText?` reads decimal text and rounds what does not fit, `ofFloat?` and
`toFloat` convert from and to double precision.
-/

namespace GridQuery

/-- The mantissas of decimals have 96 bits and lie below this number. -/
def Decimal.limit : Nat := 79228162514264337593543950336

/-- A decimal: `mantissa / 10 ^ scale`, with a sign. Zero may carry a minus
sign. -/
structure Decimal where
  negative : Bool
  mantissa : Nat
  scale : Nat
  mantissa_lt : mantissa < Decimal.limit
  scale_le : scale ≤ 28
deriving DecidableEq

namespace Decimal

open GridQuery.Text

/-! ## Construction -/

/-- Zero without places. -/
def zero : Decimal := ⟨false, 0, 0, by decide, by decide⟩

/-- The largest decimal. -/
def greatest : Decimal := ⟨false, limit - 1, 0, by decide, by decide⟩

/-- The smallest decimal. -/
def least : Decimal := ⟨true, limit - 1, 0, by decide, by decide⟩

/-- The decimal with the given parts, if they are in range. -/
def ofParts? (negative : Bool) (mantissa scale : Nat) : Option Decimal :=
  if h : mantissa < limit ∧ scale ≤ 28 then some ⟨negative, mantissa, scale, h.1, h.2⟩ else none

/-- The decimal with the given parts, where a zero has no sign. -/
def ofUnsignedZero? (negative : Bool) (mantissa scale : Nat) : Option Decimal :=
  ofParts? (negative && mantissa != 0) mantissa scale

/-- A whole number as a decimal without places. -/
def ofInt? (n : Int) : Option Decimal := ofParts? (n < 0) n.natAbs 0

/-! ## Exact value -/

/-- The mantissa with its sign. -/
def signedMantissa (d : Decimal) : Int := if d.negative then -(d.mantissa : Int) else d.mantissa

/-- The value in units of `10 ^ (-28)`. -/
def units (d : Decimal) : Int := d.signedMantissa * tenTo (28 - d.scale)

/-- How two decimals compare as numbers. -/
def order (a b : Decimal) : Ordering := compare a.units b.units

/-- The whole number equal to the decimal; `none` when there is none. -/
def whole? (d : Decimal) : Option Int :=
  if d.mantissa % tenTo d.scale = 0 then
    let n : Int := (d.mantissa / tenTo d.scale : Nat)
    some (if d.negative then -n else n)
  else none

/-! ## Text -/

/-- The text of a decimal: every place of its scale is written. -/
def chars (d : Decimal) : List Char :=
  Binary64.signed d.negative (Binary64.decimalText d.mantissa (-(d.scale : Int)))

/-- The text of a decimal as a string. -/
def text (d : Decimal) : String := String.ofList d.chars

/-- A mantissa and a scale on the way to a decimal. -/
abbrev Parts := Nat × Nat

/-- The parts rounded half up at the next digit. When rounding fills the mantissa
the last place is given up; without a place to give up there is no result. -/
def roundAt (mantissa scale digit : Nat) : Option Parts :=
  if digit < 5 then some (mantissa, scale)
  else if mantissa + 1 < limit then some (mantissa + 1, scale)
  else if scale = 0 then none
  else some ((mantissa + 5) / 10, scale - 1)

/-- A character that can stand behind the digit that decides the rounding. -/
def isTrailing (c : Char) : Bool := isDigit c || c == '_'

/-- The parts when no more places can be read: the next digit decides the rounding,
and behind it only digits and underscores may stand. -/
def finish (mantissa scale : Nat) : List Char → Option Parts
  | [] => some (mantissa, scale)
  | c :: rest =>
      if rest.all isTrailing then
        match digit? c with
        | some d => roundAt mantissa scale d
        | none => if c = '_' then some (mantissa, scale) else none
      else none

/-- A mantissa is short when its digits in front of the last one are below this
number, so that they could all be added within a word of 64 bits. -/
def shortLimit : Nat := 1844674407370954906

/-- The parts when 28 places are read. Underscores in front of the next digit are
passed over behind a long mantissa; behind a short one an underscore counts as the
next digit, and as a zero. -/
def finishPlaces (mantissa : Nat) (s : List Char) : Option Parts :=
  if mantissa / 10 < shortLimit then finish mantissa 28 s
  else finish mantissa 28 (s.dropWhile (· == '_'))

/-- Reads the digits of an unsigned decimal. `point` says that the point is
behind, `some` digit that one has been seen. Underscores may stand after the
first digit. A decimal point ends the whole part; once the mantissa is full, or
28 places are read, the next digit decides the rounding. A whole part that does not
fit is refused. -/
def readParts (point seen : Bool) (mantissa scale : Nat) : List Char → Option Parts
  | [] => if seen then some (mantissa, scale) else none
  | c :: rest =>
      if point && 28 ≤ scale then finishPlaces mantissa (c :: rest)
      else
        match digit? c with
        | some d =>
            if mantissa * 10 + d < limit then
              readParts point true (mantissa * 10 + d) (if point then scale + 1 else scale) rest
            else if point then finish mantissa scale (c :: rest)
            else none
        | none =>
            if c = '.' ∧ point = false then readParts true seen mantissa scale rest
            else if c = '_' ∧ seen = true then readParts point seen mantissa scale rest
            else none

/-- A decimal without an exponent: an optional sign and digits with an optional
point. A zero loses its sign. -/
def plain? : List Char → Option Decimal
  | '-' :: rest => (readParts false false 0 0 rest).bind fun p => ofUnsignedZero? true p.1 p.2
  | '+' :: rest => (readParts false false 0 0 rest).bind fun p => ofUnsignedZero? false p.1 p.2
  | s => (readParts false false 0 0 s).bind fun p => ofUnsignedZero? false p.1 p.2

/-- A fraction rounded to a whole number, ties away from zero. -/
def roundHalfUp (n d : Nat) : Nat := (2 * n + d) / (2 * d)

/-- A decimal moved by `e` places to the left. Places beyond the last one are rounded
away, half up; what becomes zero by that keeps its sign. -/
def shiftDown? (d : Decimal) (e : Nat) : Option Decimal :=
  if 28 < e then none
  else if d.scale + e ≤ 28 then ofParts? d.negative d.mantissa (d.scale + e)
  else ofParts? d.negative (roundHalfUp d.mantissa (tenTo (d.scale + e - 28))) 28

/-- A decimal moved by `e` places to the right. While it has places it gives them
up; after that the mantissa grows. -/
def shiftUp? (d : Decimal) (e : Nat) : Option Decimal :=
  if e ≤ d.scale then ofParts? d.negative d.mantissa (d.scale - e)
  else if 28 < e then none
  else ofUnsignedZero? d.negative (d.mantissa * tenTo (e - d.scale)) 0

/-- A decimal followed by `e` or `E` and a decimal exponent. -/
def scientific? (s : List Char) : Option Decimal :=
  let isMark := fun c => c = 'e' ∨ c = 'E'
  match s.dropWhile (fun c => ¬ isMark c) with
  | [] => none
  | _ :: exponent =>
      (plain? (s.takeWhile (fun c => ¬ isMark c))).bind fun d =>
        match exponent with
        | '-' :: digits => ((Whole.ofText? .uint32 digits)).bind fun e => d.shiftDown? e.val.toNat
        | digits => ((Whole.ofText? .uint32 digits)).bind fun e => d.shiftUp? e.val.toNat

/-- The decimal that a text spells, with or without an exponent. -/
def ofText? (s : List Char) : Option Decimal :=
  (plain? s).or (scientific? s)

/-! ## From double precision -/

/-- A mantissa of at most 96 bits with a power of ten. -/
structure Scaled where
  mantissa : Nat
  tens : Int

/-- Trades `steps` halvings for fifths: `m * 2 ^ (-steps)` becomes
`m * 5 ^ steps * 10 ^ (-steps)`. An even mantissa is halved instead, and so is
one that would outgrow 96 bits, losing its last bit. -/
def tradeHalves (s : Scaled) : (steps : Nat) → Scaled
  | 0 => s
  | steps + 1 =>
      if s.mantissa % 2 = 0 then tradeHalves ⟨s.mantissa / 2, s.tens + 1⟩ steps
      else if s.mantissa * 5 < limit then tradeHalves ⟨s.mantissa * 5, s.tens⟩ steps
      else tradeHalves ⟨s.mantissa / 2, s.tens + 1⟩ steps

/-- Divides by ten, rounding half up at each step, until `steps` places are gone
or nothing is left; what is left then has no places. -/
def dropPlaces (s : Scaled) : (steps : Nat) → Scaled
  | 0 => s
  | steps + 1 =>
      let q := s.mantissa / 10
      if q = 0 then ⟨0, 0⟩
      else dropPlaces ⟨if 5 ≤ s.mantissa % 10 then q + 1 else q, s.tens + 1⟩ steps

/-- Divides by ten, rounding half up at each step, while there are places and the
mantissa has more than 52 bits. -/
def trimBits (mantissa : Nat) : (scale : Nat) → Parts
  | 0 => (mantissa, 0)
  | scale + 1 =>
      if twoTo 52 ≤ mantissa then
        let q := mantissa / 10
        trimBits (if 5 ≤ mantissa % 10 then q + 1 else q) scale
      else (mantissa, scale + 1)

/-- Removes trailing zeros after the point. -/
def trimZeros (mantissa : Nat) : (scale : Nat) → Parts
  | 0 => (mantissa, 0)
  | scale + 1 => if mantissa % 10 = 0 then trimZeros (mantissa / 10) scale else (mantissa, scale + 1)

/-- A double as a decimal. A whole number without binary places is taken as it is.
Otherwise the binary exponent is traded for a decimal one step by step within 96
bits, and only the digits that a double carries are kept. There is no decimal for
numbers that are not finite or too large. -/
def ofFloat? : Binary64 → Option Decimal
  | .finite negative m q _ =>
      if m = 0 then ofParts? negative 0 0
      else if 1074 ≤ q then ofParts? negative (m * twoTo (q - 1074)) 0
      else
        let s := tradeHalves ⟨m, (q : Int) - 1074⟩ (1074 - q)
        let s := if s.tens < -28 then dropPlaces s (-28 - s.tens).natAbs else s
        let (n, k) := trimBits s.mantissa s.tens.natAbs
        let (n, k) := trimZeros n k
        ofParts? negative n k
  | _ => none

/-! ## To double precision -/

/-- A decimal as a double. The whole part and the places are rounded apart and
added; the sum is then rounded to the scale of the decimal. Each step rounds to
the closest double, so the result can differ from the double closest to the
decimal. A zero without places loses its sign. -/
def toFloat (d : Decimal) : Binary64 :=
  let ten := tenTo d.scale
  let whole := Binary64.nearest false (d.mantissa / ten) 1
  let places := (Binary64.nearest false (d.mantissa % ten) 1)
  let scale := Binary64.nearest false ten 1
  let result :=
    if d.scale = 0 ∨ d.mantissa % ten = 0 then whole
    else
      let fraction := Binary64.nearest false places.units.natAbs scale.units.natAbs
      let sum := Binary64.nearest false (whole.units.natAbs + fraction.units.natAbs) (twoTo 1074)
      let shifted := Binary64.nearest false (sum.units.natAbs * scale.units.natAbs) (twoTo 2148)
      let rounded := Binary64.nearest false (roundHalfUp shifted.units.natAbs (twoTo 1074)) 1
      Binary64.nearest false rounded.units.natAbs scale.units.natAbs
  match result with
  | .finite _ m q h => .finite (d.negative && (m != 0 || d.scale != 0)) m q h
  | x => x

end Decimal

end GridQuery
