import GridQuery.Text.Numeral

/-!
# Calendar dates

Dates of the proleptic Gregorian calendar from year -262143 to year 262142. A
`Date` carries the proof that it exists. Dates are ordered by `index`, a number
that grows with the date; the neighbouring dates are `next?` and `previous?`.
-/

namespace GridQuery

namespace Date

/-- Whether February has 29 days. -/
def isLeapYear (year : Int) : Bool :=
  year % 4 = 0 && (year % 100 ≠ 0 || year % 400 = 0)

/-- The number of days of a month. -/
def daysIn (year : Int) (month : Nat) : Nat :=
  match month with
  | 2 => if isLeapYear year then 29 else 28
  | 4 | 6 | 9 | 11 => 30
  | _ => 31

/-- The first and the last year. -/
def firstYear : Int := -262143

@[inherit_doc firstYear]
def lastYear : Int := 262142

/-- Whether a year, a month and a day are a date. -/
def Exists (year : Int) (month day : Nat) : Prop :=
  (firstYear ≤ year ∧ year ≤ lastYear) ∧ (1 ≤ month ∧ month ≤ 12) ∧
    (1 ≤ day ∧ day ≤ daysIn year month)

instance (year : Int) (month day : Nat) : Decidable (Exists year month day) := by
  unfold Exists
  infer_instance

end Date

/-- A calendar date. -/
structure Date where
  year : Int
  month : Nat
  day : Nat
  real : Date.Exists year month day
deriving DecidableEq

namespace Date

/-- The date with the given year, month and day, if it exists. -/
def ofYmd? (year : Int) (month day : Nat) : Option Date :=
  if h : Exists year month day then some ⟨year, month, day, h⟩ else none

/-- The first and the last date. -/
def first : Date := ⟨firstYear, 1, 1, by decide⟩

@[inherit_doc first]
def last : Date := ⟨lastYear, 12, 31, by decide⟩

/-- The day after; `none` after the last date. -/
def next? (d : Date) : Option Date :=
  if d.day < daysIn d.year d.month then ofYmd? d.year d.month (d.day + 1)
  else if d.month < 12 then ofYmd? d.year (d.month + 1) 1
  else ofYmd? (d.year + 1) 1 1

/-- The day before; `none` before the first date. -/
def previous? (d : Date) : Option Date :=
  if 1 < d.day then ofYmd? d.year d.month (d.day - 1)
  else if 1 < d.month then ofYmd? d.year (d.month - 1) (daysIn d.year (d.month - 1))
  else ofYmd? (d.year - 1) 12 31

/-- A number that grows with the date. -/
def index (d : Date) : Int := (d.year * 13 + d.month) * 32 + d.day

/-- Dates in the order of time. -/
def order (a b : Date) : Ordering := compare a.index b.index

theorem day_le (d : Date) : d.day ≤ 31 := by
  have h := d.real.2.2.2
  have : daysIn d.year d.month ≤ 31 := by
    unfold daysIn
    split <;> (try split) <;> omega
  omega

/-- Different dates have different indices. -/
theorem eq_of_index_eq {a b : Date} (h : a.index = b.index) : a = b := by
  have ha := a.real
  have hb := b.real
  have hda := a.day_le
  have hdb := b.day_le
  unfold Exists at ha hb
  unfold index at h
  cases a
  cases b
  simp only [mk.injEq] at *
  omega

/-! ## Text -/

/-- The text of a year: four digits, and a sign in front of years below 0 or
above 9999. -/
def yearText (year : Int) : List Char :=
  if year < 0 then '-' :: Text.padded 4 year.natAbs
  else if 9999 < year then '+' :: Text.padded 4 year.natAbs
  else Text.padded 4 year.natAbs

/-- The text of a date: year, month and day, with hyphens between. -/
def chars (d : Date) : List Char :=
  yearText d.year ++ '-' :: Text.padded 2 d.month ++ '-' :: Text.padded 2 d.day

/-- The text of a date as a string. -/
def text (d : Date) : String := String.ofList d.chars

end Date

end GridQuery
