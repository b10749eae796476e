import GridQuery.Data.Toml.Token
import GridQuery.Calendar.Rfc3339

/-!
# Numbers, dates and times in TOML

Whole numbers of 64 bits, decimal or with a base in front; doubles; dates and
times, which have to exist but stand for nothing. Single underscores may stand
between the digits of a number.
-/

namespace GridQuery.Data.Toml

open GridQuery.Text

/-! ## Digits -/

/-- The digits at the front of a text, with single underscores between them left
out. -/
def readRun (isOne : Char → Bool) : List Char → List Char × List Char
  | [] => ([], [])
  | c :: rest =>
      if isOne c then
        let (ds, rest) := readRun isOne rest
        (c :: ds, rest)
      else if c = '_' then
        match rest with
        | d :: _ => if isOne d then readRun isOne rest else ([], c :: rest)
        | [] => ([], c :: rest)
      else ([], c :: rest)

/-- The digits at the front of a text that starts with a digit. -/
def readRun1 (isOne : Char → Bool) : List Char → Option (List Char × List Char)
  | [] => none
  | c :: rest => if isOne c then some (readRun isOne (c :: rest)) else none

/-- The sign in front of a number. -/
def readSign : List Char → Bool × List Char
  | '-' :: rest => (true, rest)
  | '+' :: rest => (false, rest)
  | s => (false, s)

/-- Decimal digits without a leading zero, or a single zero. -/
def readDecimalRun : List Char → Option (List Char × List Char)
  | '0' :: rest => some (['0'], rest)
  | s => readRun1 isDigit s

/-! ## Whole numbers -/

/-- A whole number of 64 bits. -/
def ofInteger (n : Int) : Option Data :=
  (Whole.ofInt? .int64 n).map fun n => .integer n.val

/-- The value of digits in a base. -/
def digitsIn (base : Nat) (ds : List Char) : Nat :=
  ds.foldl (fun n c => n * base + (Json.hexDigit? c).getD 0) 0

/-- The base that a letter behind a zero stands for. -/
def base? : Char → Option Nat
  | 'x' => some 16
  | 'o' => some 8
  | 'b' => some 2
  | _ => none

/-- A decimal whole number with a sign. -/
def readDecimal (s : List Char) : Option (Data × List Char) :=
  let (negative, s) := readSign s
  (readDecimalRun s).bind fun (ds, rest) =>
    let n : Int := digitsIn 10 ds
    (ofInteger (if negative then -n else n)).map fun d => (d, rest)

/-- A whole number. -/
def readInteger : List Char → Option (Data × List Char)
  | '0' :: c :: rest =>
      match base? c with
      | none => readDecimal ('0' :: c :: rest)
      | some base =>
          let isOne (c : Char) : Bool := (Json.hexDigit? c).any (· < base)
          (readRun1 isOne rest).bind fun (ds, rest) =>
            (ofInteger (digitsIn base ds)).map fun d => (d, rest)
  | s => readDecimal s

/-! ## Doubles -/

/-- The digits behind a point. -/
def readFraction : List Char → Option (List Char × List Char)
  | '.' :: rest => readRun1 isDigit rest
  | _ => none

/-- An exponent. -/
def readExponent : List Char → Option (Int × List Char)
  | [] => none
  | c :: rest =>
      if c = 'e' ∨ c = 'E' then
        let (negative, rest) := readSign rest
        (readRun1 isDigit rest).map fun (ds, rest) =>
          (if negative then -(digitsIn 10 ds : Int) else digitsIn 10 ds, rest)
      else none

/-- The double of a sign, digits before and after the point, and an exponent. A
positive number beyond all doubles is refused. -/
def ofParts (negative : Bool) (before after : List Char) (exponent : Int) : Option Data :=
  match Binary64.ofScientific negative ⟨digitsIn 10 (before ++ after), exponent - after.length⟩ with
  | .infinite false => none
  | x => some (.float x)

/-- A double in digits, which has a fraction or an exponent. -/
def readDigitsFloat (s : List Char) : Option (Data × List Char) :=
  let (negative, s) := readSign s
  (readDecimalRun s).bind fun (before, s) =>
    match readFraction s with
    | some (after, s) =>
        let (exponent, s) := (readExponent s).getD (0, s)
        (ofParts negative before after exponent).map fun d => (d, s)
    | none =>
        (readExponent s).bind fun (exponent, s) =>
          (ofParts negative before [] exponent).map fun d => (d, s)

/-- An infinity or a NaN. -/
def readSpecialFloat (s : List Char) : Option (Data × List Char) :=
  match readSign s with
  | (negative, 'i' :: 'n' :: 'f' :: rest) => some (.float (.infinite negative), rest)
  | (_, 'n' :: 'a' :: 'n' :: rest) => some (.float .nan, rest)
  | _ => none

/-! ## Dates and times -/

/-- The text behind a date that exists. -/
def skipDate (s : List Char) : Option (List Char) := do
  let (year, s) ← Instant.fixed? 4 s
  let s ← Instant.mark? '-' s
  let (month, s) ← Instant.fixed? 2 s
  let s ← Instant.mark? '-' s
  let (day, s) ← Instant.fixed? 2 s
  let _ ← Date.ofYmd? year month day
  some s

/-- The text behind a time of day that exists. -/
def skipTime (s : List Char) : Option (List Char) := do
  let (hour, s) ← Instant.fixed? 2 s
  let s ← Instant.mark? ':' s
  let (minute, s) ← Instant.fixed? 2 s
  let s ← Instant.mark? ':' s
  let (second, s) ← Instant.fixed? 2 s
  let _ ← TimeOfDay.ofClock? hour minute second 0
  match s with
  | '.' :: rest => (Json.readDigits1 rest).map Prod.snd
  | s => some s

/-- The text behind the distance from universal time. -/
def skipZone : List Char → Option (List Char)
  | [] => none
  | c :: rest =>
      if c = 'Z' ∨ c = 'z' then some rest
      else if c = '+' ∨ c = '-' then do
        let (hour, s) ← Instant.fixed? 2 rest
        let s ← Instant.mark? ':' s
        let (minute, s) ← Instant.fixed? 2 s
        let _ ← TimeOfDay.ofClock? hour minute 0 0
        some s
      else none

/-- The text behind a time that follows a date, and behind its zone. -/
def skipTimeAfterDate : List Char → Option (List Char)
  | [] => none
  | c :: rest =>
      if c = 'T' ∨ c = 't' ∨ c = ' ' then
        (skipTime rest).map fun s => (skipZone s).getD s
      else none

/-- A date, a time, or both. -/
def readDateTime (s : List Char) : Option (Data × List Char) :=
  match skipDate s with
  | some s => some (.foreign, (skipTimeAfterDate s).getD s)
  | none => (skipTime s).map fun s => (.foreign, s)

/-! ## All together -/

/-- A number, a date or a time. -/
def readNumber (s : List Char) : Option (Data × List Char) :=
  ((readDateTime s).or (readDigitsFloat s)).or ((readSpecialFloat s).or (readInteger s))

end GridQuery.Data.Toml
