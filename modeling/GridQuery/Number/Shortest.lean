import GridQuery.Number.Binary64

/-!
# Shortest decimal text of a double

A finite double is written with the fewest significant digits that still round
back to it, and among those with the digits closest to its value. The search
walks over the decimal grids from coarse to fine and tests the two grid points
next to the value in exact arithmetic.

Two notations share the digits: `positional` never uses an exponent, and
`exponential` switches to one outside a middle range.
-/

namespace GridQuery.Binary64

open GridQuery.Text

/-! ## The digits -/

/-- Which of two equally close digit strings is taken. -/
inductive Tie where
  | up
  | even
deriving DecidableEq, Repr

/-- A magnitude with the interval of reals that round to it, all in the same
unit, which is one part in `unit` of one. -/
structure Neighbourhood where
  value : Nat
  low : Nat
  high : Nat
  /-- Whether the ends of the interval round to the magnitude too. -/
  closed : Bool
  unit : Nat

/-- The neighbourhood of the magnitude `m * 2 ^ q`. Below a power of two the
doubles lie twice as close, so the interval is shorter on that side. -/
def neighbourhood (m q : Nat) : Neighbourhood where
  value := 4 * m * twoTo q
  low := if m = twoTo 52 ∧ 0 < q then (4 * m - 1) * twoTo q else (4 * m - 2) * twoTo q
  high := (4 * m + 2) * twoTo q
  closed := m % 2 == 0
  unit := 4 * twoTo 1074

namespace Neighbourhood

/-- The same neighbourhood measured in units that are `k` decimal places
larger (for negative `k`: smaller). -/
def scaled (h : Neighbourhood) (k : Int) : Neighbourhood :=
  if k < 0 then
    let f := tenTo k.natAbs
    { h with value := h.value * f, low := h.low * f, high := h.high * f }
  else
    { h with unit := h.unit * tenTo k.natAbs }

/-- Whether the number `d` lies in the interval. -/
def holds (h : Neighbourhood) (d : Nat) : Bool :=
  let x := d * h.unit
  if h.closed then h.low ≤ x && x ≤ h.high else h.low < x && x < h.high

/-- The whole number of the interval that is closest to the value, if the
interval holds one next to the value. -/
def closest? (tie : Tie) (h : Neighbourhood) : Option Nat :=
  let d := h.value / h.unit
  let twice := 2 * (h.value - d * h.unit)
  let upper : Bool :=
    match tie with
    | .up => decide (h.unit ≤ twice)
    | .even => h.unit < twice || (twice == h.unit && d % 2 == 1)
  match h.holds d && d != 0, h.holds (d + 1) with
  | true, true => some (if upper then d + 1 else d)
  | true, false => some d
  | false, true => some (d + 1)
  | false, false => none

/-- The decimal exponent of the value: the place of its first digit. -/
def exponent (h : Neighbourhood) : Int :=
  if h.unit ≤ h.value then ((numeral (h.value / h.unit)).length : Int) - 1
  else -((numeral ((h.unit - 1) / h.value)).length : Int)

/-- The first grid, from `n` digits on, that meets the interval: the digits there
and the place of the last one. -/
def search (tie : Tie) (h : Neighbourhood) (place : Int) : (steps : Nat) → Nat × Int
  | 0 => ((h.scaled place).value / (h.scaled place).unit, place)
  | steps + 1 =>
      match (h.scaled place).closest? tie with
      | some d => (d, place)
      | none => search tie h (place - 1) steps

end Neighbourhood

/-- A number without its trailing zeros, and the place of its last digit. -/
def stripZeros (d : Nat) (place : Int) : (steps : Nat) → Nat × Int
  | 0 => (d, place)
  | steps + 1 => if d % 10 = 0 then stripZeros (d / 10) (place + 1) steps else (d, place)

/-- The shortest digits of a positive magnitude and the place of the last one:
`(d, k)` stands for `d * 10 ^ k`. Seventeen digits always suffice. -/
def shortest (tie : Tie) (m q : Nat) : Nat × Int :=
  let h := neighbourhood m q
  let (d, place) := h.search tie h.exponent 17
  stripZeros d place 18

/-! ## Notations -/

/-- The number `d * 10 ^ k` without an exponent. -/
def decimalText (d : Nat) (k : Int) : List Char :=
  let digits := numeral d
  if 0 ≤ k then digits ++ List.replicate k.natAbs '0'
  else
    let places := k.natAbs
    if places < digits.length then
      digits.take (digits.length - places) ++ '.' :: digits.drop (digits.length - places)
    else '0' :: '.' :: List.replicate (places - digits.length) '0' ++ digits

/-- The sign of a number in front of its magnitude. -/
def signed (negative : Bool) (s : List Char) : List Char := if negative then '-' :: s else s

/-- The shortest text without an exponent and without a point after a whole
number; of two equally close texts the larger one. -/
def positional : Binary64 → List Char
  | .nan => ['N', 'a', 'N']
  | .infinite negative => signed negative ['i', 'n', 'f']
  | .finite negative m q _ =>
      if m = 0 then signed negative ['0']
      else
        let (d, k) := shortest .up m q
        signed negative (decimalText d k)

/-- The shortest text of a finite number with a point or an exponent: positional
while the first digit stands from five places after the point to sixteen places
before it, `d.ddde+x` outside. A number that is not finite has no such text. -/
def exponential? : Binary64 → Option (List Char)
  | .nan => none
  | .infinite _ => none
  | .finite negative m q _ =>
      if m = 0 then some (signed negative ['0', '.', '0'])
      else
        let (d, k) := shortest .even m q
        let digits := numeral d
        let first := k + digits.length - 1
        let body :=
          if -5 ≤ first ∧ first < 16 then
            if 0 ≤ k then decimalText d k ++ ['.', '0'] else decimalText d k
          else
            let fraction := if digits.length ≤ 1 then [] else '.' :: digits.drop 1
            let mark := if first < 0 then 'e' :: '-' :: numeral first.natAbs
              else 'e' :: '+' :: numeral first.natAbs
            digits.take 1 ++ fraction ++ mark
        some (signed negative body)

/-- The positional text as a string. -/
def text (x : Binary64) : String := String.ofList x.positional

end GridQuery.Binary64
