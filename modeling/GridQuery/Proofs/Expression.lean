import GridQuery.Proofs.Splitting

/-!
# Patterns as search expressions

A search engine knows nothing of patterns. It takes a search expression as text and looks for
it anywhere in a text. For a pattern the expression begins with `(?s)`, which lets the dot
stand for line breaks too, and runs from `^` to `$`; between them `%` becomes `.*`, `_`
becomes `.`, and every other character is escaped.

`Expression.Found` is the meaning of such expressions, and `Engine.Implements` says that an
engine finds what the expressions mean. `Engine.backtracking` is an engine that does.

## Main results

* `LikePattern.found_expression_iff` — the expression of a pattern is found in the texts that
  split as the pattern says.
* `Expression.read_write` — an expression is read back from its text.
* `Engine.implements_backtracking` — the reference engine finds what expressions mean.
* `LikePattern.search_iff_splits` — the search that any engine makes of a pattern.
-/

namespace GridQuery

/-! ## Search expressions -/

/-- One part of a search expression. -/
inductive Expression.Atom where
  /-- The place in front of the text. -/
  | start
  /-- The place behind the text. -/
  | stop
  /-- One character. -/
  | one
  /-- Any run of characters. -/
  | run
  /-- A character that stands for itself. -/
  | char (c : Char)
deriving DecidableEq

/-- A search expression: whether the dot stands for line breaks too, and its parts in order. -/
structure Expression where
  dotAll : Bool
  atoms : List Expression.Atom

namespace Expression

/-- A part of an expression as text; `escape` writes the characters that stand for
themselves. -/
def Atom.write (escape : Char → List Char) : Atom → List Char
  | .start => ['^']
  | .stop => ['$']
  | .one => ['.']
  | .run => ['.', '*']
  | .char c => escape c

/-- The mark that lets the dot stand for line breaks. -/
def dotAllMark : List Char := ['(', '?', 's', ')']

/-- An expression as text. -/
def write (escape : Char → List Char) (e : Expression) : List Char :=
  (if e.dotAll then dotAllMark else []) ++ e.atoms.flatMap (Atom.write escape)

/-- Whether the dot stands for a character. -/
def dot (dotAll : Bool) (c : Char) : Bool := dotAll || c != '\n'

/-- Whether parts of an expression can be read one after another, from the place between
`front` and `text` on. -/
def Reads (dotAll : Bool) : List Atom → (front text : List Char) → Prop
  | [], _, _ => True
  | .start :: atoms, front, text => front = [] ∧ Reads dotAll atoms front text
  | .stop :: atoms, front, text => text = [] ∧ Reads dotAll atoms front text
  | .one :: atoms, front, text =>
      ∃ c rest, dot dotAll c ∧ Reads dotAll atoms (front ++ [c]) rest ∧ text = c :: rest
  | .run :: atoms, front, text =>
      ∃ piece rest, piece.all (dot dotAll) ∧ Reads dotAll atoms (front ++ piece) rest ∧
        text = piece ++ rest
  | .char c :: atoms, front, text =>
      ∃ rest, Reads dotAll atoms (front ++ [c]) rest ∧ text = c :: rest

/-- Whether an expression can be read from some place of a text on. -/
def Found (e : Expression) (text : List Char) : Prop :=
  ∃ front rest, Reads e.dotAll e.atoms front rest ∧ text = front ++ rest

end Expression

/-! ## The expression of a pattern -/

namespace LikePattern

open Expression

/-- One character of a pattern as a part of an expression. -/
def atom (p : Char) : Atom := if p = '%' then .run else if p = '_' then .one else .char p

/-- The expression of a pattern. -/
def expression (p : LikePattern) : Expression :=
  ⟨true, .start :: (p.raw.toList.map atom ++ [.stop])⟩

theorem reads_atom_iff (p : Char) (atoms : List Atom) (front text : List Char) :
    Reads true (atom p :: atoms) front text ↔
      ∃ piece rest, Takes p piece ∧ Reads true atoms (front ++ piece) rest ∧
        text = piece ++ rest := by
  by_cases hrun : p = '%'
  · subst hrun
    simp [atom, Reads, dot]
  · by_cases hone : p = '_'
    · subst hone
      simp [atom, Reads, dot]
    · simp [atom, hrun, hone, Reads, takes_char]

theorem reads_atoms_iff (pattern front text : List Char) :
    Reads true (pattern.map atom ++ [.stop]) front text ↔ Splits pattern text := by
  induction pattern generalizing front text with
  | nil => simp [Reads]
  | cons p pattern ih =>
    rw [List.map_cons, List.cons_append, reads_atom_iff, splits_cons]
    simp only [ih]

/-- The expression of a pattern is found in the texts that split as the pattern says. -/
theorem found_expression_iff (p : LikePattern) (text : List Char) :
    p.expression.Found text ↔ Splits p.raw.toList text := by
  constructor
  · rintro ⟨front, rest, ⟨rfl, hreads⟩, rfl⟩
    exact (reads_atoms_iff _ _ _).1 hreads
  · intro h
    exact ⟨[], text, ⟨rfl, (reads_atoms_iff _ _ _).2 h⟩, rfl⟩

end LikePattern

/-! ## Engines -/

/-- A search engine: how it escapes a character, which texts of expressions are not too long
for it, and the search that it makes of the text of an expression. -/
structure Engine where
  escape : Char → List Char
  fits : List Char → Prop
  compile? : List Char → Option (List Char → Bool)

/-- Whether an engine takes every expression that is not too long, and finds what it means. -/
def Engine.Implements (engine : Engine) : Prop :=
  ∀ e : Expression, engine.fits (e.write engine.escape) →
    ∃ search, engine.compile? (e.write engine.escape) = some search ∧
      ∀ text, search text = true ↔ e.Found text

namespace Expression

/-! ## Reading expressions back -/

/-- Whether a character means something else than itself in an expression. -/
def isSpecial (c : Char) : Bool :=
  ['\\', '.', '+', '*', '?', '(', ')', '|', '[', ']', '\x7b', '\x7d', '^', '$', '#', '&', '-',
    '~'].contains c

/-- A backslash in front of the characters that mean something else. -/
def escaped (c : Char) : List Char := if isSpecial c then ['\\', c] else [c]

/-- The parts of the expression that a text spells. -/
def readAtoms? : List Char → Option (List Atom)
  | [] => some []
  | '^' :: rest => (readAtoms? rest).map (.start :: ·)
  | '$' :: rest => (readAtoms? rest).map (.stop :: ·)
  | '.' :: '*' :: rest => (readAtoms? rest).map (.run :: ·)
  | '.' :: rest => (readAtoms? rest).map (.one :: ·)
  | '\\' :: c :: rest => if isSpecial c then (readAtoms? rest).map (.char c :: ·) else none
  | c :: rest => if isSpecial c then none else (readAtoms? rest).map (.char c :: ·)

/-- The expression that a text spells. -/
def read? (text : List Char) : Option Expression :=
  if dotAllMark.isPrefixOf text then (readAtoms? (text.drop dotAllMark.length)).map (⟨true, ·⟩)
  else (readAtoms? text).map (⟨false, ·⟩)

theorem readAtoms?_escaped (c : Char) (rest : List Char) :
    readAtoms? (escaped c ++ rest) = (readAtoms? rest).map (.char c :: ·) := by
  unfold escaped
  by_cases hspecial : isSpecial c = true
  · rw [if_pos hspecial, List.cons_append, List.cons_append, List.nil_append, readAtoms?,
      if_pos hspecial]
  · rw [if_neg hspecial, List.cons_append, List.nil_append]
    have hplain : ∀ d, isSpecial d = true → c ≠ d := fun d hd hc => hspecial (hc ▸ hd)
    rw [readAtoms?, if_neg hspecial]
    · exact hplain '^' rfl
    · exact hplain '$' rfl
    · exact fun _ hc _ => hplain '.' rfl hc
    · exact hplain '.' rfl
    · exact fun _ _ hc _ => hplain '\\' rfl hc

theorem head?_escaped_append (c : Char) (rest : List Char) {d : Char} (hd : isSpecial d = true)
    (hne : d ≠ '\\') : (escaped c ++ rest).head? ≠ some d := by
  unfold escaped
  by_cases hspecial : isSpecial c = true
  · rw [if_pos hspecial]
    exact fun h => hne (Option.some.inj h).symm
  · rw [if_neg hspecial]
    exact fun h => hspecial (Option.some.inj h ▸ hd)

/-- The parts of an expression are never written with a star or a parenthesis in front. -/
theorem head?_flatMap_write (atoms : List Atom) {d : Char} (hd : d = '*' ∨ d = '(') :
    (atoms.flatMap (Atom.write escaped)).head? ≠ some d := by
  cases atoms with
  | nil => simp
  | cons atom atoms =>
    rw [List.flatMap_cons]
    cases atom with
    | char c =>
      rcases hd with rfl | rfl
      · exact head?_escaped_append c _ rfl (by decide)
      · exact head?_escaped_append c _ rfl (by decide)
    | _ => rcases hd with rfl | rfl <;> simp [Atom.write]

theorem readAtoms?_write (atoms : List Atom) :
    readAtoms? (atoms.flatMap (Atom.write escaped)) = some atoms := by
  induction atoms with
  | nil => rfl
  | cons atom atoms ih =>
    rw [List.flatMap_cons]
    cases atom with
    | start => simp [Atom.write, readAtoms?, ih]
    | stop => simp [Atom.write, readAtoms?, ih]
    | run => simp [Atom.write, readAtoms?, ih]
    | char c => rw [Atom.write, readAtoms?_escaped, ih, Option.map_some]
    | one =>
      -- Only a star behind the dot would change what the dot says.
      have hstar := head?_flatMap_write atoms (.inl rfl)
      rw [Atom.write, List.singleton_append, readAtoms?, ih, Option.map_some]
      rintro rest hrest
      rw [hrest] at hstar
      exact hstar rfl

/-- An expression is read back from its text. -/
theorem read_write (e : Expression) : read? (e.write escaped) = some e := by
  obtain ⟨dotAll, atoms⟩ := e
  cases dotAll with
  | true => simp [read?, write, readAtoms?_write]
  | false =>
    have hmark : ¬ dotAllMark.isPrefixOf (atoms.flatMap (Atom.write escaped)) := by
      intro h
      obtain ⟨rest, hrest⟩ := List.isPrefixOf_iff_prefix.1 h
      exact head?_flatMap_write atoms (.inr rfl) (hrest ▸ rfl)
    simp [read?, write, hmark, readAtoms?_write]

/-! ## Searching by trying -/

/-- Whether some run of characters can be passed so that `later` holds of what follows;
`first` says whether the place is in front of the text. -/
def passes (dotAll : Bool) (later : Bool → List Char → Bool) : Bool → List Char → Bool
  | first, [] => later first []
  | first, c :: rest =>
      later first (c :: rest) || (dot dotAll c && passes dotAll later false rest)

/-- Whether parts of an expression can be read from a place on; `first` says whether it is in
front of the text. -/
def reads (dotAll : Bool) : List Atom → (first : Bool) → List Char → Bool
  | [], _, _ => true
  | .start :: atoms, first, text => first && reads dotAll atoms first text
  | .stop :: atoms, first, text => text.isEmpty && reads dotAll atoms first text
  | .run :: atoms, first, text => passes dotAll (reads dotAll atoms) first text
  | .one :: _, _, [] => false
  | .one :: atoms, _, c :: rest => dot dotAll c && reads dotAll atoms false rest
  | .char _ :: _, _, [] => false
  | .char p :: atoms, _, c :: rest => c == p && reads dotAll atoms false rest

/-- Whether an expression can be read from this place or from a later one on. -/
def search (e : Expression) : (first : Bool) → List Char → Bool
  | first, [] => reads e.dotAll e.atoms first []
  | first, c :: rest => reads e.dotAll e.atoms first (c :: rest) || search e false rest

theorem isEmpty_concat (front : List Char) (c : Char) : (front ++ [c]).isEmpty = false := by
  cases front <;> rfl

theorem passes_iff {dotAll : Bool} {later : Bool → List Char → Bool} {front text : List Char} :
    passes dotAll later front.isEmpty text = true ↔ ∃ piece rest, piece.all (dot dotAll) ∧
      later (front ++ piece).isEmpty rest = true ∧ text = piece ++ rest := by
  induction text generalizing front with
  | nil => simp [passes]
  | cons c text ih =>
    rw [passes, Bool.or_eq_true, Bool.and_eq_true, ← isEmpty_concat front c, ih]
    constructor
    · rintro (hhere | ⟨hc, piece, rest, hpiece, hlater, rfl⟩)
      · exact ⟨[], c :: text, rfl, by simpa using hhere, rfl⟩
      · exact ⟨c :: piece, rest, by simp [hc, hpiece], by simpa using hlater, rfl⟩
    · rintro ⟨piece, rest, hpiece, hlater, htext⟩
      cases piece with
      | nil =>
        obtain rfl : c :: text = rest := htext
        exact .inl (by simpa using hlater)
      | cons d piece =>
        obtain ⟨rfl, rfl⟩ := List.cons.inj htext
        rw [List.all_cons, Bool.and_eq_true] at hpiece
        exact .inr ⟨hpiece.1, piece, rest, hpiece.2, by simpa using hlater, rfl⟩

theorem reads_iff {dotAll : Bool} {atoms : List Atom} {front text : List Char} :
    reads dotAll atoms front.isEmpty text = true ↔ Reads dotAll atoms front text := by
  induction atoms generalizing front text with
  | nil => simp [reads, Reads]
  | cons atom atoms ih =>
    have hnext : ∀ c rest, reads dotAll atoms false rest = true ↔
        Reads dotAll atoms (front ++ [c]) rest := by
      intro c rest
      rw [← ih, isEmpty_concat]
    cases atom with
    | start => simp [reads, Reads, ih]
    | stop => simp [reads, Reads, ih]
    | run => simp only [reads, Reads, passes_iff, ih]
    | one =>
      cases text with
      | nil => simp [reads, Reads]
      | cons c text => simp [reads, Reads, hnext c]
    | char p =>
      cases text with
      | nil => simp [reads, Reads]
      | cons c text =>
        simp only [reads, Reads, Bool.and_eq_true, beq_iff_eq, hnext c, List.cons.injEq]
        constructor
        · rintro ⟨rfl, hreads⟩
          exact ⟨text, hreads, rfl, rfl⟩
        · rintro ⟨rest, hreads, rfl, rfl⟩
          exact ⟨rfl, hreads⟩

theorem search_iff (e : Expression) (text : List Char) :
    search e true text = true ↔ e.Found text := by
  suffices h : ∀ front, search e front.isEmpty text = true ↔
      ∃ skipped rest, Reads e.dotAll e.atoms (front ++ skipped) rest ∧ text = skipped ++ rest by
    exact h []
  induction text with
  | nil =>
    intro front
    simp [search, reads_iff]
  | cons c text ih =>
    intro front
    rw [search, Bool.or_eq_true, reads_iff, ← isEmpty_concat front c, ih]
    constructor
    · rintro (hhere | ⟨skipped, rest, hlater, rfl⟩)
      · exact ⟨[], c :: text, by simpa using hhere, rfl⟩
      · exact ⟨c :: skipped, rest, by simpa using hlater, rfl⟩
    · rintro ⟨skipped, rest, hreads, htext⟩
      cases skipped with
      | nil =>
        obtain rfl : c :: text = rest := htext
        exact .inl (by simpa using hreads)
      | cons d skipped =>
        obtain ⟨rfl, rfl⟩ := List.cons.inj htext
        exact .inr ⟨skipped, rest, by simpa using hreads, rfl⟩

end Expression

namespace Engine

/-- An engine that tries all ways to read an expression, and takes expressions of at most
`limit` characters. -/
def backtracking (limit : Nat) : Engine where
  escape := Expression.escaped
  fits text := text.length ≤ limit
  compile? text :=
    if text.length ≤ limit then (Expression.read? text).map fun e => e.search true else none

theorem implements_backtracking (limit : Nat) : (backtracking limit).Implements := by
  intro e hfits
  refine ⟨e.search true, ?_, e.search_iff⟩
  have hcompile : (backtracking limit).compile? (e.write Expression.escaped) =
      (Expression.read? (e.write Expression.escaped)).map fun e => e.search true := if_pos hfits
  rw [Expression.read_write] at hcompile
  exact hcompile

end Engine

/-- **Searching for a pattern.** An engine that finds what expressions mean takes the expression
of a pattern, if it is not too long, and finds it in exactly the texts that split as the
pattern says; the matcher of patterns gives the same answers. -/
theorem LikePattern.search_iff_splits (engine : Engine) (himplements : engine.Implements)
    (p : LikePattern) (hfits : engine.fits (p.expression.write engine.escape)) :
    ∃ search, engine.compile? (p.expression.write engine.escape) = some search ∧
      ∀ t : String, (search t.toList = true ↔ Splits p.raw.toList t.toList) ∧
        p.matchesText t = search t.toList := by
  obtain ⟨search, hcompile, hsearch⟩ := himplements p.expression hfits
  refine ⟨search, hcompile, fun t => ?_⟩
  have hsplits : search t.toList = true ↔ Splits p.raw.toList t.toList :=
    (hsearch t.toList).trans (found_expression_iff p t.toList)
  exact ⟨hsplits, Bool.eq_iff_iff.2 ((matchesText_iff_splits p t).trans hsplits.symm)⟩

/-- A pattern with both wildcards and a dot, and a text with a line break. -/
theorem LikePattern.search_iff_splits_dot :
    let engine := Engine.backtracking 1000
    let p : LikePattern := ⟨"a%.c_"⟩
    engine.Implements ∧ engine.fits (p.expression.write engine.escape) ∧
      ∃ search, engine.compile? (p.expression.write engine.escape) = some search ∧
        search "a\nb.cd".toList = true ∧ search "a\nb-cd".toList = false ∧
        Splits p.raw.toList "a\nb.cd".toList := by
  intro engine p
  have himplements : engine.Implements := Engine.implements_backtracking 1000
  have hfits : engine.fits (p.expression.write engine.escape) := by
    change List.length _ ≤ 1000
    decide
  obtain ⟨search, hcompile, hsearch⟩ := LikePattern.search_iff_splits engine himplements p hfits
  have hdot : search "a\nb.cd".toList = true := by
    rw [← (hsearch _).2]
    decide
  refine ⟨himplements, hfits, search, hcompile, hdot, ?_, (hsearch _).1.1 hdot⟩
  rw [← (hsearch _).2]
  decide

end GridQuery
