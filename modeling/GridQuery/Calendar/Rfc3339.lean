import GridQuery.Calendar.Granularity

/-!
# Internet timestamps

The timestamp format of RFC 3339: date, time, optional fraction of a second, and
the distance from universal time. `write` writes it with as many fraction digits
as the instant needs, in groups of three.

There are two readers. `read?` takes the format as it is, with fixed numbers of
digits; a blank may replace the `T`. `readLoose?`, for timestamps on the wire,
also takes blanks between the parts, numbers with fewer digits, any year, and
`UTC` for the zone. `readTyped?` is the reader for text that people type.
-/

namespace GridQuery.Instant

open GridQuery.Text

/-! ## Writing -/

/-- The pattern of a timestamp in front of its zone. -/
def timestamp : Pattern := Granularity.pattern .second ++ [.fraction]

/-- The timestamp of an instant, followed by the given zone text. -/
def write (zone : List Char) (i : Instant) : List Char := timestamp.print i ++ zone

/-- The timestamp with the zone written as a distance. -/
def text (i : Instant) : String := String.ofList (i.write ['+', '0', '0', ':', '0', '0'])

/-- The timestamp with the zone written as a letter. -/
def zuluText (i : Instant) : String := String.ofList (i.write ['Z'])

/-- The pattern of an instant in messages, in front of its zone. -/
def plain : Pattern :=
  Pattern.date ++ [.mark ' ', .hour, .mark ':', .minute, .mark ':', .second, .fraction]

/-- The instant in messages. -/
def plainText (i : Instant) : String := String.ofList (plain.print i) ++ " UTC"

/-! ## Zones -/

/-- The distance from universal time in minutes: `Z`, or a sign, two digits of
hours, what `gap` accepts, and two digits of minutes. The typographic minus sign
counts as a minus. A distance is less than a day. -/
def readZone? (gap : List Char → Option (List Char)) (s : List Char) :
    Option (Int × List Char) :=
  match s with
  | [] => none
  | c :: rest =>
      if c = 'Z' ∨ c = 'z' then some (0, rest)
      else if c = '+' ∨ c = '-' ∨ c = '\u2212' then
        (readDigits 2 2 rest).bind fun (hours, rest) =>
          (gap rest).bind fun rest =>
            (readDigits 2 2 rest).bind fun (minutes, rest) =>
              if hours < 24 ∧ minutes < 60 then
                let distance : Int := hours * 60 + minutes
                some (if c = '+' then distance else -distance, rest)
              else none
      else none

/-- A colon. -/
def colon? : List Char → Option (List Char)
  | ':' :: rest => some rest
  | _ => none

/-- Any colons and blanks. -/
def looseColon? (s : List Char) : Option (List Char) :=
  some (s.dropWhile fun c => c == ':' || isBlank c)

/-! ## Reading -/

/-- Exactly `width` digits at the front of a text. -/
def fixed? (width : Nat) (s : List Char) : Option (Nat × List Char) := readDigits width width s

/-- A given character at the front of a text. -/
def mark? (c : Char) : List Char → Option (List Char)
  | [] => none
  | d :: rest => if d = c then some rest else none

/-- The letter or blank between date and time. -/
def separator? : List Char → Option (List Char)
  | c :: rest => if c = 'T' ∨ c = 't' ∨ c = ' ' then some rest else none
  | [] => none

/-- The instant of a timestamp that fills the text. -/
def read? (s : List Char) : Option Instant := do
  let (year, s) ← fixed? 4 s
  let s ← mark? '-' s
  let (month, s) ← fixed? 2 s
  let s ← mark? '-' s
  let (day, s) ← fixed? 2 s
  let s ← separator? s
  let (hour, s) ← fixed? 2 s
  let s ← mark? ':' s
  let (minute, s) ← fixed? 2 s
  let s ← mark? ':' s
  let (second, s) ← fixed? 2 s
  let r : ClockReading := { year, month, day, hour, minute, second }
  let (r, s) ← PatternPart.read? r s .fraction
  let (offset, s) ← readZone? colon? s
  if s.isEmpty then r.instant? offset else none

/-- The parts of a loose timestamp in front of the separator. -/
def looseDate : Pattern :=
  [.year, .blanks, .mark '-', .month, .blanks, .mark '-', .day]

/-- The parts of a loose timestamp behind the separator. -/
def looseTime : Pattern :=
  [.hour, .blanks, .mark ':', .minute, .blanks, .mark ':', .second, .fraction, .blanks]

/-- The zone of a loose timestamp. -/
def looseZone? (s : List Char) : Option (Int × List Char) :=
  if lower (s.take 3) = ['u', 't', 'c'] then some (0, s.drop 3) else readZone? looseColon? s

/-- The instant of a loosely written timestamp that fills the text. -/
def readLoose? (s : List Char) : Option Instant := do
  let (r, s) ← looseDate.read? {} s
  let s ← separator? s
  let (r, s) ← looseTime.read? r s
  let (offset, s) ← looseZone? s
  if (trimStart s).isEmpty then r.instant? offset else none

/-- The instant that typed text spells: a timestamp, or a text in the pattern of
some granularity, taken as universal time. The `preferred` granularity is tried
before the others. -/
def readTyped? (preferred : Granularity) (s : List Char) : Option Instant :=
  (read? s).or
    ((preferred :: Granularity.all.filter (· ≠ preferred)).findSome? fun g => g.pattern.instant? s)

end GridQuery.Instant

namespace GridQuery.Date

open GridQuery.Text

/-- The parts of a date on the wire; blanks may stand between them. -/
def loosePattern : Pattern :=
  [.year, .blanks, .mark '-', .month, .blanks, .mark '-', .day, .blanks]

/-- The date of a text on the wire. -/
def readLoose? (s : List Char) : Option Date :=
  match loosePattern.read? {} s with
  | some (r, []) => r.date?
  | _ => none

end GridQuery.Date
