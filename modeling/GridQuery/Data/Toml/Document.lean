import GridQuery.Data.Toml.Table

/-!
# TOML

The tree of a TOML text. A text is a list of lines: values under keys, headers that
open tables, comments and empty lines. Dates and times are well written but
`foreign`.
-/

namespace GridQuery.Data.Toml

/-- What settings files in TOML let pass. -/
def dialect : Dialect where
  surplus := true
  blank := fun
    | .list [] | .record [] => true
    | _ => false

/-! ## Values -/

mutual

/-- A value at the front of a text, with at most `depth` lists and tables inside
each other. The fuel is more than twice the length of the text. -/
def readValue : (fuel depth : Nat) → List Char → Option (Data × List Char)
  | 0, _, _ => none
  | _ + 1, _, [] => none
  | fuel + 1, depth, c :: rest =>
      if c = '"' ∨ c = '\'' then
        (readQuoted (c :: rest)).map fun (s, rest) => (.text (String.ofList s), rest)
      else if c = '[' then
        match depth, skipLines false rest with
        | 0, _ | _, none => none
        | _ + 1, some (']' :: rest) => some (.list [], rest)
        | depth + 1, some rest =>
            (readItems fuel depth rest).map fun (ds, rest) => (.list ds, rest)
      else if c = '\x7b' then
        match depth, skipSpaces rest with
        | 0, _ => none
        | _ + 1, '\x7d' :: rest => some (.record [], rest)
        | depth + 1, rest =>
            (readPairs fuel depth rest).bind fun (pairs, rest) =>
              (ofPairs pairs).map fun d => (d, rest)
      else if c = 't' then (Json.word? "rue" rest).map fun rest => (.bool true, rest)
      else if c = 'f' then (Json.word? "alse" rest).map fun rest => (.bool false, rest)
      else if c = 'i' ∨ c = 'n' then readSpecialFloat (c :: rest)
      else readNumber (c :: rest)

/-- The items of a list up to its closing bracket, from the first item on. A comma
may stand behind the last one, and line breaks and comments around each of them. -/
def readItems : (fuel depth : Nat) → List Char → Option (List Data × List Char)
  | 0, _, _ => none
  | fuel + 1, depth, s => do
      let (d, s) ← readValue fuel depth s
      let s ← skipLines false s
      match s with
      | ']' :: rest => some ([d], rest)
      | ',' :: rest =>
          match ← skipLines false rest with
          | ']' :: rest => some ([d], rest)
          | rest => (readItems fuel depth rest).map fun (ds, rest) => (d :: ds, rest)
      | _ => none

/-- The keys and values of a table on one line, up to its closing brace. -/
def readPairs : (fuel depth : Nat) → List Char → Option (List (List String × Data) × List Char)
  | 0, _, _ => none
  | fuel + 1, depth, s => do
      let (key, s) ← readKey s
      let s ← Instant.mark? '=' s
      let (d, s) ← readValue fuel depth (skipSpaces s)
      match skipSpaces s with
      | '\x7d' :: rest => some ([(key, d)], rest)
      | ',' :: rest => (readPairs fuel depth rest).map fun (pairs, rest) => ((key, d) :: pairs, rest)
      | _ => none

end

/-! ## Lines -/

/-- What has been read of a text: the tables, and the header that the next values
stand under. -/
structure Progress where
  entries : Entries := []
  header : List String := []

namespace Progress

/-- A value under a key below the header. -/
def put? (p : Progress) (key : List String) (d : Data) : Option Progress :=
  (splitKey key).bind fun (names, name) =>
    (p.entries.within? false (Entries.put? names name d) p.header .header).map fun es =>
      { p with entries := es }

/-- A header, which opens a table as `openIt` says. -/
def header? (p : Progress) (openIt : String → Origin → Entries → Option Entries)
    (key : List String) : Option Progress :=
  (splitKey key).bind fun (names, name) =>
    (p.entries.within? false (openIt name) names .header).map fun es =>
      { entries := es, header := key }

end Progress

/-- The key of a header and the text behind its closing brackets. -/
def readHeader (close : List Char) (s : List Char) : Option (List String × List Char) :=
  (readKey s).bind fun (key, rest) =>
    if close.isPrefixOf rest then some (key, rest.drop close.length) else none

/-- One line that is not empty. -/
def readLine (p : Progress) : List Char → Option (Progress × List Char)
  | '[' :: '[' :: rest => do
      let (key, rest) ← readHeader [']', ']'] rest
      let p ← p.header? Entries.openNext? key
      some (p, ← lineEnd? rest)
  | '[' :: rest => do
      let (key, rest) ← readHeader [']'] rest
      let p ← p.header? Entries.open? key
      some (p, ← lineEnd? rest)
  | s => do
      let (key, s) ← readKey s
      let s ← Instant.mark? '=' s
      let s := skipSpaces s
      let (d, rest) ← readValue (2 * s.length + 2) maxDepth s
      let p ← p.put? key d
      some (p, ← lineEnd? rest)

/-- The lines of a text. The fuel is more than its length. -/
def readDocument : (fuel : Nat) → Progress → List Char → Option Progress
  | 0, _, _ => none
  | fuel + 1, p, s =>
      match skipSpaces s with
      | [] => some p
      | '#' :: rest => (lineEnd? ('#' :: rest)).bind (readDocument fuel p)
      | c :: rest =>
          match newline? (c :: rest) with
          | some rest => readDocument fuel p rest
          | none => (readLine p (c :: rest)).bind fun (p, rest) => readDocument fuel p rest

/-- The tree of a TOML text. A byte order mark in front does not count. -/
def read? (text : String) : Option Data :=
  let s := match text.toList with
    | '\uFEFF' :: rest => rest
    | s => s
  (readDocument (s.length + 1) {} s).map fun p => (Node.table .header p.entries).data

end GridQuery.Data.Toml
