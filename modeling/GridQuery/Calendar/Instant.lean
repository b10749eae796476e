import GridQuery.Calendar.Date

/-!
# Instants

A point in time to the nanosecond, as date and time of day in universal time.
A second may have a leap second after it: the nanoseconds of the second go on
counting through it, from `10 ^ 9` to `2 * 10 ^ 9`. Clocks show the leap second
after second 59 as `:60`. Instants are ordered by `index`, and different instants
have different indices.
-/

namespace GridQuery

namespace TimeOfDay

/-- Whether hour, minute, second and nanosecond are a time of day. -/
def Exists (hour minute second nano : Nat) : Prop :=
  hour < 24 ∧ minute < 60 ∧ second < 60 ∧ nano < 2000000000

instance (hour minute second nano : Nat) : Decidable (Exists hour minute second nano) := by
  unfold Exists
  infer_instance

end TimeOfDay

/-- A time of day. The nanoseconds from `10 ^ 9` on lie in a leap second after the
second. -/
structure TimeOfDay where
  hour : Nat
  minute : Nat
  second : Nat
  nano : Nat
  real : TimeOfDay.Exists hour minute second nano
deriving DecidableEq

namespace TimeOfDay

/-- The time with the given parts, if it exists. -/
def ofParts? (hour minute second nano : Nat) : Option TimeOfDay :=
  if h : Exists hour minute second nano then some ⟨hour, minute, second, nano, h⟩ else none

/-- The start of the day. -/
def midnight : TimeOfDay := ⟨0, 0, 0, 0, by decide⟩

/-- The last nanosecond of a day without a leap second. -/
def lastNanosecond : TimeOfDay := ⟨23, 59, 59, 999999999, by decide⟩

/-- The time of day that a clock shows. Second 60 is the leap second after
second 59. -/
def ofClock? (hour minute second nano : Nat) : Option TimeOfDay :=
  if nano < 1000000000 then
    if second = 60 then ofParts? hour minute 59 (1000000000 + nano)
    else ofParts? hour minute second nano
  else none

/-- The second that a clock shows. A leap second is shown as the second after, also
where that is not second 60. -/
def shownSecond (t : TimeOfDay) : Nat := t.second + t.nano / 1000000000

/-- The fraction that a clock shows, in nanoseconds. -/
def shownNano (t : TimeOfDay) : Nat := t.nano % 1000000000

/-- The time with another second. The nanoseconds stay, those of a leap second too. -/
def withSecond? (t : TimeOfDay) (second : Nat) : Option TimeOfDay :=
  ofParts? t.hour t.minute second t.nano

/-- The time with other nanoseconds. -/
def withNano? (t : TimeOfDay) (nano : Nat) : Option TimeOfDay :=
  ofParts? t.hour t.minute t.second nano

/-- A number that grows with the time of day. -/
def index (t : TimeOfDay) : Int :=
  ((t.hour * 60 + t.minute) * 60 + t.second) * 2000000000 + t.nano

/-- The number of indices in a day. -/
def indices : Int := 24 * 60 * 60 * 2000000000

theorem index_nonneg (t : TimeOfDay) : 0 ≤ t.index := by
  unfold index
  omega

theorem index_lt (t : TimeOfDay) : t.index < indices := by
  have h := t.real
  unfold Exists at h
  unfold index indices
  omega

/-- Different times of day have different indices. -/
theorem eq_of_index_eq {a b : TimeOfDay} (h : a.index = b.index) : a = b := by
  have ha := a.real
  have hb := b.real
  unfold Exists at ha hb
  unfold index at h
  cases a
  cases b
  simp only [mk.injEq] at *
  omega

end TimeOfDay

/-- An instant in universal time. -/
structure Instant where
  date : Date
  time : TimeOfDay
deriving DecidableEq

namespace Instant

/-- The first instant. -/
def first : Instant := ⟨Date.first, TimeOfDay.midnight⟩

/-- The last instant outside a leap second. -/
def last : Instant := ⟨Date.last, TimeOfDay.lastNanosecond⟩

/-- The start of a date. -/
def startOf (d : Date) : Instant := ⟨d, TimeOfDay.midnight⟩

/-- A number that grows with the instant. -/
def index (i : Instant) : Int := i.date.index * TimeOfDay.indices + i.time.index

/-- Instants in the order of time. -/
def order (a b : Instant) : Ordering := compare a.index b.index

/-- Whether the instant lies between the first and the last one. -/
def isInRange (i : Instant) : Bool := first.index ≤ i.index && i.index ≤ last.index

/-- The instant at another time of its day; `none` out of range. -/
def at? (i : Instant) (time : TimeOfDay) : Option Instant :=
  if isInRange ⟨i.date, time⟩ then some ⟨i.date, time⟩ else none

/-- The start of the minute: first the second is dropped, then the nanoseconds. -/
def wholeMinute? (i : Instant) : Option Instant := do
  let i ← (i.time.withSecond? 0).bind i.at?
  (i.time.withNano? 0).bind i.at?

/-- Different instants have different indices. -/
theorem eq_of_index_eq {a b : Instant} (h : a.index = b.index) : a = b := by
  have ha := a.time.index_nonneg
  have ha' := a.time.index_lt
  have hb := b.time.index_nonneg
  have hb' := b.time.index_lt
  unfold index at h
  unfold TimeOfDay.indices at *
  have hd : a.date.index = b.date.index := by omega
  have ht : a.time.index = b.time.index := by omega
  cases a
  cases b
  simp only [mk.injEq]
  exact ⟨Date.eq_of_index_eq hd, TimeOfDay.eq_of_index_eq ht⟩

/-- The instant whose clock shows this date and time `offset` minutes ahead of
universal time; `none` outside the calendar. Seconds do not change. The offset is
less than a day. -/
def ofLocal? (date : Date) (time : TimeOfDay) (offset : Int) : Option Instant :=
  let minutes : Int := time.hour * 60 + time.minute - offset
  let day :=
    if minutes < 0 then date.previous?
    else if 1440 ≤ minutes then date.next?
    else some date
  let m := (minutes % 1440).toNat
  day.bind fun d => (TimeOfDay.ofParts? (m / 60) (m % 60) time.second time.nano).map fun t => ⟨d, t⟩

end Instant

end GridQuery
