import GridQuery.Number.Powers
import GridQuery.Number.Width

/-!
# Double precision numbers

The binary floating point numbers of 64 bits as exact values. A finite number is
a sign and a magnitude `m * 2 ^ q`, counted in units of `2 ^ (-1074)`, the
smallest positive double; the condition `Canonical` leaves one pair `(m, q)` for
each magnitude, so equality of values is equality of bits up to the payload of a
NaN.

`nearest` rounds any fraction to the closest double, ties to the even one.
`order` is the partial order of the values: a NaN is incomparable and the two
zeros are equal.
-/

namespace GridQuery

/-- The pairs that spell a magnitude in the one agreed way. -/
def Binary64.Canonical (m q : Nat) : Prop :=
  m < twoTo 53 ∧ q ≤ 2045 ∧ (q = 0 ∨ twoTo 52 ≤ m)

instance (m q : Nat) : Decidable (Binary64.Canonical m q) := by
  unfold Binary64.Canonical
  infer_instance

/-- A double precision number. -/
inductive Binary64 where
  | nan
  | infinite (negative : Bool)
  | finite (negative : Bool) (m q : Nat) (canonical : Binary64.Canonical m q)
deriving DecidableEq

namespace Binary64

/-! ## Construction -/

/-- Zero, without a sign. -/
def zero : Binary64 := .finite false 0 0 (by decide)

/-- The finite number with the given sign and magnitude, infinite when the
magnitude is beyond the largest double. -/
def pack (negative : Bool) (m q : Nat) : Binary64 :=
  if h : Canonical m q then .finite negative m q h else .infinite negative

/-- The fraction `n / d` rounded to a whole number, ties to the even one. -/
def roundEven (n d : Nat) : Nat :=
  let f := n / d
  let r := n % d
  if 2 * r < d then f
  else if d < 2 * r then f + 1
  else if f % 2 = 0 then f else f + 1

/-- The double closest to the fraction `n / d`, ties to the one with the even
last bit. -/
def nearest (negative : Bool) (n d : Nat) : Binary64 :=
  let units := n * twoTo 1074
  let q := (units / d).log2 - 52
  let m := roundEven units (d * twoTo q)
  if m = twoTo 53 then pack negative (twoTo 52) (q + 1) else pack negative m q

/-- The double closest to a whole number. -/
def ofInt (n : Int) : Binary64 := nearest (n < 0) n.natAbs 1

/-- The largest finite double. -/
def greatest : Binary64 := .finite false (twoTo 53 - 1) 2045 (by decide)

/-- The smallest finite double. -/
def least : Binary64 := .finite true (twoTo 53 - 1) 2045 (by decide)

/-! ## Exact value -/

/-- Whether the number is neither infinite nor a NaN. -/
def isFinite : Binary64 → Bool
  | .finite .. => true
  | _ => false

/-- Whether the number carries a minus sign. -/
def isNegative : Binary64 → Bool
  | .nan => false
  | .infinite negative => negative
  | .finite negative .. => negative

/-- The value in units of `2 ^ (-1074)`, with the infinities beyond every finite
number. A NaN has no value and counts as zero here. -/
def units : Binary64 → Int
  | .nan => 0
  | .infinite negative => if negative then -(twoTo 2098 : Int) else twoTo 2098
  | .finite negative m q _ => if negative then -((m * twoTo q : Nat) : Int) else (m * twoTo q : Nat)

/-- The whole number equal to the value; `none` when there is none. -/
def whole? : Binary64 → Option Int
  | .finite negative m q h =>
      let u := (Binary64.finite negative m q h).units
      if u % twoTo 1074 = 0 then some (u / twoTo 1074) else none
  | _ => none

/-! ## Order -/

/-- How two numbers compare; `none` when one of them is a NaN. -/
def order : Binary64 → Binary64 → Option Ordering
  | .nan, _ => none
  | _, .nan => none
  | a, b => some (compare a.units b.units)

end Binary64

end GridQuery
