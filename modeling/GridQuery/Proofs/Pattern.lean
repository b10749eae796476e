import GridQuery.Predicate.LikePattern
import Mathlib.Data.List.Infix

/-!
# What a pattern matches

`LikePattern.likes` reads a pattern from its first character to its last: `%` skips any run
of the text, `_` takes one character, and every other character takes itself. It tries
every run, so it can take exponential time; `LikePattern.accepts` gives the same answers
in one pass over the text for each character of the pattern.

The flags that `accepts` keeps are the answers of `likes` for every end piece of the text
(`flags_eq_map_tails`).
-/

namespace GridQuery.LikePattern

/-- Whether a text can be read with one character of a pattern and then as `later`
allows. -/
def step (p : Char) (later : List Char → Bool) (text : List Char) : Bool :=
  if p = '%' then text.tails.any later
  else
    match text with
    | [] => false
    | c :: rest => (p = '_' || c = p) && later rest

/-- Whether a pattern matches a text. -/
def likes : List Char → List Char → Bool
  | [], text => text.isEmpty
  | p :: rest, text => step p (likes rest) text

/-- The longest end piece of a text is the text itself. -/
theorem lead_map_tails (f : List Char → Bool) (text : List Char) :
    lead (text.tails.map f) = f text := by
  cases text <;> rfl

theorem emptyFlags_eq_map_tails (text : List Char) :
    emptyFlags text = text.tails.map List.isEmpty := by
  induction text with
  | nil => rfl
  | cons c rest ih =>
    rw [emptyFlags, ih]
    rfl

/-- Flags that answer a question for every end piece are extended to flags that answer it
after one more character of the pattern. -/
theorem extend_map_tails (p : Char) (f : List Char → Bool) (text : List Char) :
    extend p text (text.tails.map f) = text.tails.map (step p f) := by
  induction text with
  | nil => simp [extend, step, lead]
  | cons c rest ih =>
    have htails : ∀ g : List Char → Bool,
        (c :: rest).tails.map g = g (c :: rest) :: rest.tails.map g := fun g => rfl
    rw [htails, htails, extend, List.tail_cons, ih, lead_map_tails, lead_map_tails, lead]
    congr 1
    by_cases hrun : p = '%'
    · simp [step, hrun]
    · by_cases hone : p = '_'
      · simp [step, hone]
      · simp only [step, if_neg hrun, hone, decide_false, Bool.false_or]
        rfl

theorem flags_eq_map_tails (text pattern : List Char) :
    flags text pattern = text.tails.map (likes pattern) := by
  induction pattern with
  | nil => exact emptyFlags_eq_map_tails text
  | cons p rest ih =>
    rw [flags, ih, extend_map_tails]
    rfl

/-- Matching in passes over the text gives the answers of reading the pattern. -/
theorem accepts_eq_likes (pattern text : List Char) : accepts pattern text = likes pattern text := by
  rw [accepts, flags_eq_map_tails, lead_map_tails]

end GridQuery.LikePattern
