import GridQuery.Calendar.Instant
import GridQuery.Number.Powers

/-!
# Granularities and their patterns

How finely the instants of a column are looked at: by date, by minute or by
second. Each granularity has a pattern, a list of `Part`s; one list serves for
writing (`Pattern.print`), for reading (`Pattern.read?`) and for the two ways in
which a pattern is shown to people and programs.
-/

namespace GridQuery

open GridQuery.Text

/-! ## Patterns -/

/-- One part of a pattern. -/
inductive PatternPart where
  | year
  | month
  | day
  | hour
  | minute
  | second
  /-- A fixed character. -/
  | mark (c : Char)
  /-- Blank characters that may stand here in a text; nothing is written. -/
  | blanks
  /-- The digits of a fraction of a second after a point, where there are any. -/
  | fraction
deriving DecidableEq, Repr

/-- The numbers gathered while reading a text. -/
structure ClockReading where
  year : Int := 0
  month : Nat := 0
  day : Nat := 0
  hour : Nat := 0
  minute : Nat := 0
  second : Nat := 0
  nano : Nat := 0
deriving DecidableEq, Repr

namespace ClockReading

/-- The date that was read, if it exists. -/
def date? (r : ClockReading) : Option Date := Date.ofYmd? r.year r.month r.day

/-- The time of day that was read, if it exists. -/
def time? (r : ClockReading) : Option TimeOfDay :=
  TimeOfDay.ofClock? r.hour r.minute r.second r.nano

/-- What was read as an instant whose clock is `offset` minutes ahead of
universal time. -/
def instant? (r : ClockReading) (offset : Int) : Option Instant :=
  r.date?.bind fun d => r.time?.bind fun t => Instant.ofLocal? d t offset

end ClockReading

/-- The digits of a fraction of a second: without trailing zeros in groups of
three, and nothing at all for a whole second. -/
def fractionText (nano : Nat) : List Char :=
  if nano = 0 then []
  else if nano % 1000000 = 0 then '.' :: padded 3 (nano / 1000000)
  else if nano % 1000 = 0 then '.' :: padded 6 (nano / 1000)
  else '.' :: padded 9 nano

/-- The nanoseconds that the digits after a point spell, and the rest of the
text. Digits after the ninth are dropped. -/
def readFraction (s : List Char) : Option (Nat × List Char) :=
  let (count, value, rest) := takeDigits 9 0 0 s
  if count = 0 then none else some (value * tenTo (9 - count), rest.dropWhile isDigit)

/-- A year: up to four digits, or any number of digits after a sign. -/
def readYear : List Char → Option (Int × List Char)
  | '-' :: rest => (readDigits 1 rest.length rest).map fun (n, rest) => (-(n : Int), rest)
  | '+' :: rest => (readDigits 1 rest.length rest).map fun (n, rest) => ((n : Int), rest)
  | s => (readDigits 1 4 s).map fun (n, rest) => ((n : Int), rest)

namespace PatternPart

/-- A part as it appears in the text of an instant. -/
def print (i : Instant) : PatternPart → List Char
  | .year => Date.yearText i.date.year
  | .month => padded 2 i.date.month
  | .day => padded 2 i.date.day
  | .hour => padded 2 i.time.hour
  | .minute => padded 2 i.time.minute
  | .second => padded 2 i.time.shownSecond
  | .mark c => [c]
  | .blanks => []
  | .fraction => fractionText i.time.shownNano

/-- Reads a part at the front of a text. Numbers may have blanks in front of them
and fewer digits than are written. -/
def read? (r : ClockReading) (s : List Char) : PatternPart → Option (ClockReading × List Char)
  | .year => (readYear (trimStart s)).map fun (n, rest) => ({ r with year := n }, rest)
  | .month => (readDigits 1 2 (trimStart s)).map fun (n, rest) => ({ r with month := n }, rest)
  | .day => (readDigits 1 2 (trimStart s)).map fun (n, rest) => ({ r with day := n }, rest)
  | .hour => (readDigits 1 2 (trimStart s)).map fun (n, rest) => ({ r with hour := n }, rest)
  | .minute => (readDigits 1 2 (trimStart s)).map fun (n, rest) => ({ r with minute := n }, rest)
  | .second => (readDigits 1 2 (trimStart s)).map fun (n, rest) => ({ r with second := n }, rest)
  | .mark c =>
      match s with
      | [] => none
      | d :: rest => if d = c then some (r, rest) else none
  | .blanks => some (r, trimStart s)
  | .fraction =>
      match s with
      | '.' :: rest => (readFraction rest).map fun (n, rest) => ({ r with nano := n }, rest)
      | s => some (r, s)

/-- The letters that stand for a part in a pattern for people. -/
def picture : PatternPart → List Char
  | .year => ['y', 'y', 'y', 'y']
  | .month => ['M', 'M']
  | .day => ['d', 'd']
  | .hour => ['H', 'H']
  | .minute => ['m', 'm']
  | .second => ['s', 's']
  | .mark c => [c]
  | .blanks | .fraction => []

/-- The conversion that stands for a part in a pattern for programs. -/
def conversion : PatternPart → List Char
  | .year => ['%', 'Y']
  | .month => ['%', 'm']
  | .day => ['%', 'd']
  | .hour => ['%', 'H']
  | .minute => ['%', 'M']
  | .second => ['%', 'S']
  | .mark c => [c]
  | .blanks | .fraction => []

end PatternPart

/-- The parts of a text of an instant, in order. -/
abbrev Pattern := List PatternPart

namespace Pattern

/-- The text of an instant under a pattern. -/
def print (p : Pattern) (i : Instant) : List Char := p.flatMap (PatternPart.print i)

/-- Reads the parts of a pattern from the front of a text. -/
def read? : Pattern → ClockReading → List Char → Option (ClockReading × List Char)
  | [], r, s => some (r, s)
  | part :: parts, r, s => (part.read? r s).bind fun (r, rest) => read? parts r rest

/-- The instant that a whole text spells under a pattern, in universal time. -/
def instant? (p : Pattern) (s : List Char) : Option Instant :=
  match p.read? {} s with
  | some (r, []) => r.instant? 0
  | _ => none

/-- The pattern of a date. -/
def date : Pattern := [.year, .mark '-', .month, .mark '-', .day]

end Pattern

/-! ## Granularities -/

/-- How finely the instants of a column are looked at. -/
inductive Granularity where
  | date
  | minute
  | second
deriving DecidableEq, Repr

namespace Granularity

/-- The granularity of a column that sets none. -/
def standard : Granularity := .second

/-- All granularities, from coarse to fine. -/
def all : List Granularity := [.date, .minute, .second]

/-- The number of a granularity. -/
def id : Granularity → Nat
  | .date => 1
  | .minute => 2
  | .second => 3

/-- The name of a granularity. -/
def name : Granularity → String
  | .date => "Date"
  | .minute => "DateHourMinute"
  | .second => "DateHourMinuteSecond"

/-- The name of a granularity in settings and on the wire. -/
def key : Granularity → String
  | .date => "date"
  | .minute => "date-hour-minute"
  | .second => "date-hour-minute-second"

/-- The granularity with the given number. -/
def ofId? (n : Int) : Option Granularity := all.find? fun g => (g.id : Int) == n

/-- The granularity with the given name. -/
def ofName? (name : String) : Option Granularity := all.find? fun g => g.name == name

/-- The granularity with the given key. -/
def ofKey? (key : String) : Option Granularity := all.find? fun g => g.key == key

/-- The pattern in which instants of a granularity are written. -/
def pattern : Granularity → Pattern
  | .date => Pattern.date
  | .minute => Pattern.date ++ [.mark 'T', .hour, .mark ':', .minute]
  | .second => Pattern.date ++ [.mark 'T', .hour, .mark ':', .minute, .mark ':', .second]

/-- The pattern shown to people. -/
def picture (g : Granularity) : String := String.ofList (g.pattern.flatMap PatternPart.picture)

/-- The pattern shown to programs. -/
def conversions (g : Granularity) : String :=
  String.ofList (g.pattern.flatMap PatternPart.conversion)

/-- The text of an instant at a granularity. -/
def text (g : Granularity) (i : Instant) : String := String.ofList (g.pattern.print i)

end Granularity

end GridQuery
