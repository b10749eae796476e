import GridQuery.Data
import GridQuery.Number.Shortest

/-!
# JSON

Trees of data as JSON text. Reading takes one value with blanks around it. A whole
number without point and exponent that fits into 64 bits stays whole; every other
number, minus zero included, becomes the closest double. A number beyond all
doubles and text with half of a surrogate pair are well written but `foreign`.

Writing adds no blanks, escapes quotes, backslashes and control characters, and
writes doubles with the fewest digits. What JSON has no form for becomes null.
-/

namespace GridQuery.Data

open GridQuery.Text

namespace Json

/-- What messages in JSON let pass. -/
def dialect : Dialect where
  surplus := false
  blank := fun
    | .null => true
    | _ => false

/-! ## Reading text -/

/-- The text without the blanks in front. -/
def skipBlanks (s : List Char) : List Char :=
  s.dropWhile fun c => c = ' ' ∨ c = '\t' ∨ c = '\n' ∨ c = '\r'

/-- The value of a hexadecimal digit. -/
def hexDigit? (c : Char) : Option Nat :=
  let n := c.toNat
  if 48 ≤ n ∧ n ≤ 57 then some (n - 48)
  else if 97 ≤ n ∧ n ≤ 102 then some (n - 87)
  else if 65 ≤ n ∧ n ≤ 70 then some (n - 55)
  else none

/-- The number that `count` hexadecimal digits at the front of a text spell. -/
def readHex : (count acc : Nat) → List Char → Option (Nat × List Char)
  | 0, acc, s => some (acc, s)
  | _ + 1, _, [] => none
  | count + 1, acc, c :: rest => (hexDigit? c).bind fun d => readHex count (acc * 16 + d) rest

/-- The character behind a backslash that stands for itself or for a control
character. -/
def simpleEscape? : Char → Option Char
  | '"' => some '"'
  | '\\' => some '\\'
  | '/' => some '/'
  | 'b' => some '\x08'
  | 'f' => some '\x0c'
  | 'n' => some '\n'
  | 'r' => some '\r'
  | 't' => some '\t'
  | _ => none

/-- A code unit of 16 bits in a text: a character of its own, or half of one. -/
inductive Unit16 where
  | whole (c : Char)
  | half (n : Nat)

/-- What a code unit written as an escape stands for. -/
def unit16 (n : Nat) : Unit16 :=
  if 0xD800 ≤ n ∧ n < 0xE000 then .half n else .whole (Char.ofNat n)

/-- The characters of a sequence of code units; `none` when a half is left
alone. -/
def joinHalves : List Unit16 → Option (List Char)
  | [] => some []
  | .whole c :: rest => (joinHalves rest).map fun cs => c :: cs
  | .half a :: .half b :: rest =>
      if a < 0xDC00 ∧ 0xDC00 ≤ b then
        (joinHalves rest).map fun cs =>
          Char.ofNat (0x10000 + (a - 0xD800) * 0x400 + (b - 0xDC00)) :: cs
      else none
  | .half _ :: _ => none

/-- The code units of a text up to its closing quote, and what comes after it. The
fuel is at least the length of the text. -/
def readUnits : (fuel : Nat) → List Char → Option (List Unit16 × List Char)
  | 0, _ => none
  | _ + 1, [] => none
  | fuel + 1, c :: rest =>
      if c = '"' then some ([], rest)
      else if c = '\\' then
        match rest with
        | [] => none
        | 'u' :: rest =>
            (readHex 4 0 rest).bind fun (n, rest) =>
              (readUnits fuel rest).map fun (us, rest) => (unit16 n :: us, rest)
        | e :: rest =>
            (simpleEscape? e).bind fun c =>
              (readUnits fuel rest).map fun (us, rest) => (.whole c :: us, rest)
      else if c.toNat < 0x20 then none
      else (readUnits fuel rest).map fun (us, rest) => (.whole c :: us, rest)

/-- The text behind an opening quote, if it is made of characters, and what comes
after it. -/
def readText (s : List Char) : Option (Option String × List Char) :=
  (readUnits (s.length + 1) s).map fun (us, rest) => ((joinHalves us).map String.ofList, rest)

/-! ## Reading numbers -/

/-- The digits at the front of a text, at least one of them. -/
def readDigits1 (s : List Char) : Option (List Char × List Char) :=
  let ds := s.takeWhile isDigit
  if ds.isEmpty then none else some (ds, s.dropWhile isDigit)

/-- The digits of a whole number: a zero alone, or digits that do not start with
one. -/
def readWholeDigits : List Char → Option (List Char × List Char)
  | '0' :: rest =>
      match rest with
      | [] => some (['0'], [])
      | c :: _ => if isDigit c then none else some (['0'], rest)
  | s => readDigits1 s

/-- The digits behind a point, if there is one. -/
def readFractionDigits : List Char → Option (List Char × List Char)
  | '.' :: rest => readDigits1 rest
  | s => some ([], s)

/-- The exponent, if there is one. -/
def readExponent (s : List Char) : Option (Option Int × List Char) :=
  match s with
  | [] => some (none, [])
  | c :: rest =>
      if c = 'e' ∨ c = 'E' then
        let (negative, rest) := match rest with
          | '-' :: rest => (true, rest)
          | '+' :: rest => (false, rest)
          | rest => (false, rest)
        (readDigits1 rest).bind fun (ds, rest) =>
          (numeral? ds).map fun n => (some (if negative then -(n : Int) else n), rest)
      else some (none, s)

/-- A double that may be beyond all doubles. -/
def ofFloat : Binary64 → Data
  | .infinite _ => .foreign
  | x => .float x

/-- The number of a sign, the digits before and after the point, and an
exponent. -/
def number (negative : Bool) (before after : List Char) (exponent : Option Int) : Data :=
  let digits := (numeral? (before ++ after)).getD 0
  let float := ofFloat (Binary64.ofScientific negative
    ⟨digits, exponent.getD 0 - after.length⟩)
  if !after.isEmpty || exponent.isSome then float
  else if negative then
    if digits = 0 ∨ twoTo 63 < digits then float else .integer (-(digits : Int))
  else if digits < twoTo 64 then .integer digits else float

/-- A number without its sign. -/
def readNumber (negative : Bool) (s : List Char) : Option (Data × List Char) :=
  (readWholeDigits s).bind fun (before, s) =>
    (readFractionDigits s).bind fun (after, s) =>
      (readExponent s).map fun (exponent, s) => (number negative before after exponent, s)

/-! ## Reading values -/

/-- A record of entries, if all their names are made of characters. -/
def ofEntries (entries : List (Option String × Data)) : Data :=
  match entries.mapM fun (name, d) => name.map fun name => (name, d) with
  | some entries => .record entries
  | none => .foreign

/-- A fixed word at the front of a text. -/
def word? (word : String) (s : List Char) : Option (List Char) :=
  if word.toList.isPrefixOf s then some (s.drop word.toList.length) else none

mutual

/-- A value at the front of a text without blanks in front. The fuel is more than
twice the length of the text. -/
def readValue : (fuel : Nat) → List Char → Option (Data × List Char)
  | 0, _ => none
  | _ + 1, [] => none
  | fuel + 1, c :: rest =>
      if c = '"' then
        (readText rest).map fun (s, rest) => (match s with
          | some s => .text s
          | none => .foreign, rest)
      else if c = '[' then
        match skipBlanks rest with
        | ']' :: rest => some (.list [], rest)
        | rest => (readItems fuel rest).map fun (ds, rest) => (.list ds, rest)
      else if c = '\x7b' then
        match skipBlanks rest with
        | '\x7d' :: rest => some (.record [], rest)
        | rest => (readEntries fuel rest).map fun (es, rest) => (ofEntries es, rest)
      else if c = 't' then (word? "rue" rest).map fun rest => (.bool true, rest)
      else if c = 'f' then (word? "alse" rest).map fun rest => (.bool false, rest)
      else if c = 'n' then (word? "ull" rest).map fun rest => (.null, rest)
      else if c = '-' then readNumber true rest
      else readNumber false (c :: rest)

/-- The items of a list up to its closing bracket. -/
def readItems : (fuel : Nat) → List Char → Option (List Data × List Char)
  | 0, _ => none
  | fuel + 1, s =>
      (readValue fuel s).bind fun (d, rest) =>
        match skipBlanks rest with
        | ']' :: rest => some ([d], rest)
        | ',' :: rest =>
            (readItems fuel (skipBlanks rest)).map fun (ds, rest) => (d :: ds, rest)
        | _ => none

/-- The entries of a record up to its closing brace. -/
def readEntries : (fuel : Nat) → List Char → Option (List (Option String × Data) × List Char)
  | 0, _ => none
  | fuel + 1, s =>
      match s with
      | '"' :: rest =>
          (readText rest).bind fun (name, rest) =>
            match skipBlanks rest with
            | ':' :: rest =>
                (readValue fuel (skipBlanks rest)).bind fun (d, rest) =>
                  match skipBlanks rest with
                  | '\x7d' :: rest => some ([(name, d)], rest)
                  | ',' :: rest =>
                      (readEntries fuel (skipBlanks rest)).map fun (es, rest) =>
                        ((name, d) :: es, rest)
                  | _ => none
            | _ => none
      | _ => none

end

/-- The tree of a JSON text. -/
def read? (text : String) : Option Data :=
  let s := text.toList
  match readValue (2 * s.length + 2) (skipBlanks s) with
  | some (d, rest) => if (skipBlanks rest).isEmpty then some d else none
  | none => none

/-! ## Writing -/

/-- The two hexadecimal digits of a control character. -/
def hexByte (n : Nat) : List Char :=
  let digit (d : Nat) : Char := Char.ofNat (if d < 10 then 48 + d else 87 + d)
  [digit (n / 16), digit (n % 16)]

/-- A character inside a text. -/
def escape (c : Char) : List Char :=
  if c = '"' then ['\\', '"']
  else if c = '\\' then ['\\', '\\']
  else if c = '\x08' then ['\\', 'b']
  else if c = '\x0c' then ['\\', 'f']
  else if c = '\n' then ['\\', 'n']
  else if c = '\r' then ['\\', 'r']
  else if c = '\t' then ['\\', 't']
  else if c.toNat < 0x20 then '\\' :: 'u' :: '0' :: '0' :: hexByte c.toNat
  else [c]

/-- A text in quotes. -/
def quote (s : String) : List Char := '"' :: s.toList.flatMap escape ++ ['"']

/-- A word without quotes. -/
def null : List Char := ['n', 'u', 'l', 'l']

mutual

/-- The JSON text of a tree. -/
def write : Data → List Char
  | .null | .foreign => null
  | .bool b => if b then ['t', 'r', 'u', 'e'] else ['f', 'a', 'l', 's', 'e']
  | .integer n => intText n
  | .float x => x.exponential?.getD null
  | .text s => quote s
  | .list items => '[' :: join [','] (writeItems items) ++ [']']
  | .record entries => '\x7b' :: join [','] (writeEntries entries) ++ ['\x7d']

/-- The JSON texts of a list of trees. -/
def writeItems : List Data → List (List Char)
  | [] => []
  | d :: ds => write d :: writeItems ds

/-- The JSON texts of entries. -/
def writeEntries : List (String × Data) → List (List Char)
  | [] => []
  | (name, d) :: es => (quote name ++ ':' :: write d) :: writeEntries es

end

/-- The JSON text of a tree as a string. -/
def text (d : Data) : String := String.ofList (write d)

end Json

end GridQuery.Data
