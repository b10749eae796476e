import GridQuery.Text.Pieces

/-!
# Patterns of `LIKE`

In a pattern `%` stands for any run of characters and `_` for exactly one; every
other character stands for itself. A pattern has to match the whole text.

Matching keeps one flag for each end piece of the text: whether the part of the
pattern seen so far matches it. The pattern is read from its last character to
its first, and each character takes one pass over the text, so the time grows with
the product of the two lengths, whatever the pattern.
-/

namespace GridQuery

/-- A pattern as written. -/
structure LikePattern where
  raw : String
deriving DecidableEq, Repr

namespace LikePattern

/-- The flag of the longest end piece. -/
def lead : List Bool → Bool
  | [] => false
  | b :: _ => b

/-- The flags before any character of the pattern: only the empty end piece
matches. -/
def emptyFlags : List Char → List Bool
  | [] => [true]
  | _ :: rest => false :: emptyFlags rest

/-- The flags after one more character of the pattern. -/
def extend (p : Char) : List Char → List Bool → List Bool
  | [], flags => [if p = '%' then lead flags else false]
  | c :: rest, flags =>
      let later := extend p rest flags.tail
      let here :=
        if p = '%' then lead flags || lead later
        else if p = '_' then lead flags.tail
        else c == p && lead flags.tail
      here :: later

/-- The flags of a text under a pattern. -/
def flags (text : List Char) : List Char → List Bool
  | [] => emptyFlags text
  | p :: rest => extend p text (flags text rest)

/-- Whether a pattern matches a text. -/
def accepts (pattern text : List Char) : Bool := lead (flags text pattern)

/-- Whether a pattern matches a text. -/
def matchesText (p : LikePattern) (text : String) : Bool := accepts p.raw.toList text.toList

end LikePattern

end GridQuery
