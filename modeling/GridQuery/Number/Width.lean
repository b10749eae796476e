import GridQuery.Text.Numeral

/-!
# Integer widths

The seven ranges of whole numbers that a column can hold, and the numbers
inside one range. `Whole w` carries the proof that the number lies in the range
of `w`, so no operation on it can leave the range unnoticed.
-/

namespace GridQuery

/-- A range of whole numbers: signed or unsigned of some size, or a byte. -/
inductive Width where
  | int16
  | int32
  | int64
  | uint16
  | uint32
  | uint64
  | byte
deriving DecidableEq, Repr

namespace Width

/-- The smallest number of a range. -/
def least : Width → Int
  | .int16 => -32768
  | .int32 => -2147483648
  | .int64 => -9223372036854775808
  | .uint16 | .uint32 | .uint64 | .byte => 0

/-- The largest number of a range. -/
def greatest : Width → Int
  | .int16 => 32767
  | .int32 => 2147483647
  | .int64 => 9223372036854775807
  | .uint16 => 65535
  | .uint32 => 4294967295
  | .uint64 => 18446744073709551615
  | .byte => 255

/-- Whether the range has negative numbers. -/
def signed : Width → Bool
  | .int16 | .int32 | .int64 => true
  | .uint16 | .uint32 | .uint64 | .byte => false

/-- The name of a range. -/
def name : Width → String
  | .int16 => "Int16"
  | .int32 => "Int32"
  | .int64 => "Int64"
  | .uint16 => "UInt16"
  | .uint32 => "UInt32"
  | .uint64 => "UInt64"
  | .byte => "Byte"

/-- All ranges. -/
def all : List Width := [.int16, .int32, .int64, .uint16, .uint32, .uint64, .byte]

/-- Whether a number lies in a range. -/
def Fits (w : Width) (n : Int) : Prop := w.least ≤ n ∧ n ≤ w.greatest

instance (w : Width) (n : Int) : Decidable (w.Fits n) := by unfold Fits; infer_instance

theorem zero_fits (w : Width) : w.Fits 0 := by cases w <;> decide

theorem least_fits (w : Width) : w.Fits w.least := by cases w <;> decide

theorem greatest_fits (w : Width) : w.Fits w.greatest := by cases w <;> decide

/-- Every range but the unsigned 64-bit one lies inside the signed 64-bit one. -/
theorem Fits.int64 {w : Width} {n : Int} (h : w.Fits n) (hw : w ≠ .uint64) :
    Width.int64.Fits n := by
  cases w <;> simp_all [Fits, least, greatest] <;> omega

end Width

/-- A whole number in the range of `w`. -/
structure Whole (w : Width) where
  val : Int
  fits : w.Fits val
deriving DecidableEq

namespace Whole

variable {w : Width}

@[ext] theorem ext {a b : Whole w} (h : a.val = b.val) : a = b := by
  cases a
  cases b
  simp_all

/-- The number `n`, if it lies in the range. -/
def ofInt? (w : Width) (n : Int) : Option (Whole w) :=
  if h : w.Fits n then some ⟨n, h⟩ else none

/-- The number of the range closest to `n`. -/
def clamp (w : Width) (n : Int) : Whole w :=
  if h : w.Fits n then ⟨n, h⟩
  else if n < w.least then ⟨w.least, w.least_fits⟩ else ⟨w.greatest, w.greatest_fits⟩

/-- Zero lies in every range. -/
def zero (w : Width) : Whole w := ⟨0, w.zero_fits⟩

/-- The numeral of a whole number. -/
def text (n : Whole w) : String := Text.intString n.val

/-- The number that a text spells, if it lies in the range. A plus sign is always
accepted, a minus sign where the range has negative numbers. -/
def ofText? (w : Width) (s : List Char) : Option (Whole w) :=
  let n := if w.signed then Text.integer? s else (Text.natural? s).map fun n => (n : Int)
  n.bind (ofInt? w)

theorem ofInt?_eq_some {n : Int} {a : Whole w} : ofInt? w n = some a ↔ a.val = n := by
  unfold ofInt?
  split
  · rename_i h
    constructor
    · intro ha
      cases ha
      rfl
    · intro ha
      exact congrArg some (ext ha.symm)
  · rename_i h
    constructor
    · intro ha
      cases ha
    · intro ha
      exact absurd (ha ▸ a.fits) h

theorem ofInt?_val (a : Whole w) : ofInt? w a.val = some a := ofInt?_eq_some.2 rfl

theorem ofInt?_eq_none {n : Int} : ofInt? w n = none ↔ ¬ w.Fits n := by
  unfold ofInt?
  split <;> simp_all

end Whole

end GridQuery
