import GridQuery.Data.Json

/-!
# Pieces of a TOML text

Blanks, comments, quoted texts and keys. Every reader takes a text apart from the
front: it gives what it has read and the rest of the text.
-/

namespace GridQuery.Data.Toml

/-! ## Blanks and comments -/

/-- A blank inside a line. -/
def isSpace (c : Char) : Bool := c == ' ' || c == '\t'

/-- A character that can stand in a comment: anything but control characters. -/
def isPlain (c : Char) : Bool := c == '\t' || (0x20 ≤ c.toNat && c.toNat != 0x7F)

/-- The text without the blanks in front. -/
def skipSpaces (s : List Char) : List Char := s.dropWhile isSpace

/-- The text behind a line break. -/
def newline? : List Char → Option (List Char)
  | '\n' :: rest => some rest
  | '\r' :: '\n' :: rest => some rest
  | _ => none

/-- The text without a comment in front. -/
def skipComment : List Char → List Char
  | '#' :: rest => rest.dropWhile isPlain
  | s => s

/-- The text behind the end of a line, in front of which blanks and a comment may
stand. -/
def lineEnd? (s : List Char) : Option (List Char) :=
  match skipComment (skipSpaces s) with
  | [] => some []
  | s => newline? s

/-- The text behind blanks, line breaks and comments. A comment ends with its
line. -/
def skipLines (inComment : Bool) : List Char → Option (List Char)
  | [] => if inComment then none else some []
  | c :: rest =>
      if c = '\n' then skipLines false rest
      else if c = '\r' then
        match rest with
        | '\n' :: rest => skipLines false rest
        | _ => none
      else if inComment then if isPlain c then skipLines true rest else none
      else if c = '#' then skipLines true rest
      else if isSpace c then skipLines false rest
      else some (c :: rest)

/-! ## Texts on one line -/

/-- The character that a number of hexadecimal digits spell. -/
def readCodePoint (count : Nat) (s : List Char) : Option (Char × List Char) :=
  (Json.readHex count 0 s).bind fun (n, rest) =>
    if n.isValidChar then some (Char.ofNat n, rest) else none

/-- The character that the text behind a backslash stands for. -/
def readEscape : List Char → Option (Char × List Char)
  | 'b' :: rest => some ('\x08', rest)
  | 't' :: rest => some ('\t', rest)
  | 'n' :: rest => some ('\n', rest)
  | 'f' :: rest => some ('\x0c', rest)
  | 'r' :: rest => some ('\r', rest)
  | '"' :: rest => some ('"', rest)
  | '\\' :: rest => some ('\\', rest)
  | 'u' :: rest => readCodePoint 4 rest
  | 'U' :: rest => readCodePoint 8 rest
  | _ => none

/-- One character and what was read after it. -/
def after (c : Char) (read : Option (List Char × List Char)) : Option (List Char × List Char) :=
  read.map fun (cs, rest) => (c :: cs, rest)

/-- A text with escapes, up to its closing quote. The fuel is more than its
length. -/
def readBasic : (fuel : Nat) → List Char → Option (List Char × List Char)
  | 0, _ => none
  | _ + 1, [] => none
  | fuel + 1, c :: rest =>
      if c = '"' then some ([], rest)
      else if c = '\\' then (readEscape rest).bind fun (c, rest) => after c (readBasic fuel rest)
      else if isPlain c then after c (readBasic fuel rest)
      else none

/-- A text without escapes, up to its closing quote. -/
def readLiteral : List Char → Option (List Char × List Char)
  | [] => none
  | c :: rest =>
      if c = '\'' then some ([], rest)
      else if isPlain c then after c (readLiteral rest)
      else none

/-! ## Texts on several lines -/

/-- The text behind a backslash at the end of a line, and behind the blanks and
line breaks after it. -/
def skipContinuation (s : List Char) : Option (List Char) :=
  (newline? (skipSpaces s)).map fun rest => skip rest
where
  /-- The text without the blanks and line breaks in front. -/
  skip : List Char → List Char
    | [] => []
    | c :: rest =>
        if isSpace c || c == '\n' then skip rest
        else if c = '\r' then
          match rest with
          | '\n' :: rest => skip rest
          | _ => c :: rest
        else c :: rest

/-- A text on several lines, up to three closing quotes. Up to two quotes in front
of those belong to the text. Escapes count only in texts in double quotes, and line
breaks are read as one character. The fuel is more than the length. -/
def readLong (mark : Char) : (fuel : Nat) → List Char → Option (List Char × List Char)
  | 0, _ => none
  | _ + 1, [] => none
  | fuel + 1, c :: rest =>
      if c = mark then
        let run := 1 + (rest.takeWhile (· == mark)).length
        if 3 ≤ run then
          let inside := min (run - 3) 2
          some (List.replicate inside mark, rest.drop (inside + 2))
        else after mark (readLong mark fuel rest)
      else if c = '\\' ∧ mark = '"' then
        match skipContinuation rest with
        | some rest => readLong mark fuel rest
        | none => (readEscape rest).bind fun (c, rest) => after c (readLong mark fuel rest)
      else
        match newline? (c :: rest) with
        | some rest => after '\n' (readLong mark fuel rest)
        | none => if isPlain c then after c (readLong mark fuel rest) else none

/-- A text on several lines behind its three opening quotes. A line break right
there does not belong to the text. -/
def readLines (mark : Char) (s : List Char) : Option (List Char × List Char) :=
  readLong mark (s.length + 1) ((newline? s).getD s)

/-- A text in quotes of any kind. -/
def readQuoted : List Char → Option (List Char × List Char)
  | '"' :: '"' :: '"' :: rest => readLines '"' rest
  | '\'' :: '\'' :: '\'' :: rest => readLines '\'' rest
  | '"' :: rest => readBasic (rest.length + 1) rest
  | '\'' :: rest => readLiteral rest
  | _ => none

/-! ## Keys -/

/-- A character of a key without quotes. -/
def isBare (c : Char) : Bool :=
  ('a' ≤ c && c ≤ 'z') || ('A' ≤ c && c ≤ 'Z') || Text.isDigit c || c == '_' || c == '-'

/-- One name of a key, which may stand in quotes. -/
def readName : List Char → Option (List Char × List Char)
  | '"' :: rest => readBasic (rest.length + 1) rest
  | '\'' :: rest => readLiteral rest
  | s =>
      let name := s.takeWhile isBare
      if name.isEmpty then none else some (name, s.dropWhile isBare)

/-- The number of lists and tables that may stand inside each other, and of names in
a key. -/
def maxDepth : Nat := 79

/-- The names of a key: names with dots between them and blanks around them. The fuel
is more than the length. -/
def readNames : (fuel : Nat) → List Char → Option (List String × List Char)
  | 0, _ => none
  | fuel + 1, s =>
      (readName (skipSpaces s)).bind fun (name, rest) =>
        match skipSpaces rest with
        | '.' :: rest =>
            (readNames fuel rest).map fun (names, rest) => (String.ofList name :: names, rest)
        | rest => some ([String.ofList name], rest)

/-- A key of at most `maxDepth` names. -/
def readKey (s : List Char) : Option (List String × List Char) :=
  match readNames (s.length + 1) s with
  | some (names, rest) => if names.length ≤ maxDepth then some (names, rest) else none
  | none => none

end GridQuery.Data.Toml
