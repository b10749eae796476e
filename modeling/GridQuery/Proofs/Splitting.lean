import GridQuery.Proofs.Pattern

/-!
# What a pattern says

A pattern matches a text when the text falls into consecutive pieces, one for each character
of the pattern: any run for `%`, one character for `_`, and the character itself for every
other one (`LikePattern.Splits`). The matcher decides exactly this
(`LikePattern.matchesText_iff_splits`).

## Main results

* `LikePattern.splits_append` — a pattern in two parts splits a text in two parts.
* `LikePattern.splits_self` — every text is matched by itself as a pattern.
* `LikePattern.splits_iff_eq` — a pattern without wildcards matches nothing else.
-/

namespace GridQuery.LikePattern

/-- Whether a piece of text is what one character of a pattern stands for. -/
def Takes (p : Char) (piece : List Char) : Prop :=
  if p = '%' then True else if p = '_' then ∃ c, piece = [c] else piece = [p]

/-- Whether a text falls into consecutive pieces, one for each character of a pattern. -/
def Splits (pattern text : List Char) : Prop :=
  ∃ pieces : List (List Char), List.Forall₂ Takes pattern pieces ∧ text = pieces.flatten

variable {p : Char} {pattern front back text : List Char}

/-! ## One character of a pattern -/

@[simp] theorem takes_run (piece : List Char) : Takes '%' piece := trivial

@[simp] theorem takes_one {piece : List Char} : Takes '_' piece ↔ ∃ c, piece = [c] := Iff.rfl

theorem takes_char {piece : List Char} (hrun : p ≠ '%') (hone : p ≠ '_') :
    Takes p piece ↔ piece = [p] := by
  rw [Takes, if_neg hrun, if_neg hone]

/-- Every character of a pattern stands for itself, wildcards included. -/
theorem takes_self (p : Char) : Takes p [p] := by
  by_cases hrun : p = '%'
  · subst hrun
    exact takes_run _
  · by_cases hone : p = '_'
    · subst hone
      exact takes_one.2 ⟨'_', rfl⟩
    · exact (takes_char hrun hone).2 rfl

theorem step_eq_true_iff {later : List Char → Bool} :
    step p later text = true ↔
      ∃ piece rest, Takes p piece ∧ later rest = true ∧ text = piece ++ rest := by
  by_cases hrun : p = '%'
  · subst hrun
    unfold step
    rw [if_pos rfl, List.any_eq_true]
    constructor
    · rintro ⟨rest, hrest, hlater⟩
      obtain ⟨piece, rfl⟩ := (List.mem_tails _ _).1 hrest
      exact ⟨piece, rest, takes_run piece, hlater, rfl⟩
    · rintro ⟨piece, rest, -, hlater, rfl⟩
      exact ⟨rest, (List.mem_tails _ _).2 (List.suffix_append piece rest), hlater⟩
  · unfold step
    rw [if_neg hrun]
    cases text with
    | nil =>
      refine iff_of_false (by simp) ?_
      rintro ⟨piece, rest, htakes, -, hnil⟩
      obtain ⟨rfl, rfl⟩ := List.nil_eq_append_iff.1 hnil
      by_cases hone : p = '_'
      · subst hone
        obtain ⟨c, hc⟩ := takes_one.1 htakes
        cases hc
      · cases (takes_char hrun hone).1 htakes
    | cons c text =>
      by_cases hone : p = '_'
      · subst hone
        simp only [takes_one]
        constructor
        · intro h
          exact ⟨[c], text, ⟨c, rfl⟩, by simpa using h, rfl⟩
        · rintro ⟨-, rest, ⟨d, rfl⟩, hlater, hcons⟩
          obtain ⟨rfl, rfl⟩ := List.cons.inj hcons
          simpa using hlater
      · simp only [takes_char hrun hone]
        constructor
        · intro h
          obtain ⟨rfl, hlater⟩ : c = p ∧ later text = true := by simpa [hone] using h
          exact ⟨[c], text, rfl, hlater, rfl⟩
        · rintro ⟨-, rest, rfl, hlater, hcons⟩
          obtain ⟨rfl, rfl⟩ := List.cons.inj hcons
          simpa using hlater

/-! ## Patterns -/

@[simp] theorem splits_nil : Splits [] text ↔ text = [] := by
  constructor
  · rintro ⟨pieces, hpieces, rfl⟩
    cases hpieces
    rfl
  · rintro rfl
    exact ⟨[], .nil, rfl⟩

theorem splits_cons : Splits (p :: pattern) text ↔
    ∃ piece rest, Takes p piece ∧ Splits pattern rest ∧ text = piece ++ rest := by
  constructor
  · rintro ⟨pieces, hpieces, rfl⟩
    cases hpieces with
    | cons htakes hrest => exact ⟨_, _, htakes, ⟨_, hrest, rfl⟩, rfl⟩
  · rintro ⟨piece, rest, htakes, ⟨pieces, hpieces, rfl⟩, rfl⟩
    exact ⟨piece :: pieces, .cons htakes hpieces, rfl⟩

/-- A pattern in two parts splits a text in two parts. -/
theorem splits_append : Splits (front ++ back) text ↔
    ∃ left right, Splits front left ∧ Splits back right ∧ text = left ++ right := by
  induction front generalizing text with
  | nil => simp
  | cons p front ih =>
    simp only [List.cons_append, splits_cons, ih]
    constructor
    · rintro ⟨piece, -, htakes, ⟨left, right, hleft, hright, rfl⟩, rfl⟩
      exact ⟨piece ++ left, right, ⟨piece, left, htakes, hleft, rfl⟩, hright, by simp⟩
    · rintro ⟨-, right, ⟨piece, left, htakes, hleft, rfl⟩, hright, rfl⟩
      exact ⟨piece, left ++ right, htakes, ⟨left, right, hleft, hright, rfl⟩, by simp⟩

theorem splits_run (text : List Char) : Splits ['%'] text :=
  splits_cons.2 ⟨text, [], takes_run text, splits_nil.2 rfl, by simp⟩

/-- Every text is matched by itself as a pattern. -/
theorem splits_self (text : List Char) : Splits text text := by
  induction text with
  | nil => exact splits_nil.2 rfl
  | cons c text ih => exact splits_cons.2 ⟨[c], text, takes_self c, ih, rfl⟩

/-- A pattern without wildcards matches only itself. -/
theorem splits_iff_eq (hrun : '%' ∉ pattern) (hone : '_' ∉ pattern) :
    Splits pattern text ↔ text = pattern := by
  induction pattern generalizing text with
  | nil => exact splits_nil
  | cons p pattern ih =>
    rw [List.mem_cons, not_or] at hrun hone
    simp only [splits_cons, takes_char (Ne.symm hrun.1) (Ne.symm hone.1), ih hrun.2 hone.2]
    constructor
    · rintro ⟨-, -, rfl, rfl, rfl⟩
      rfl
    · rintro rfl
      exact ⟨[p], pattern, rfl, rfl, rfl⟩

/-! ## The matcher -/

theorem likes_iff_splits : likes pattern text = true ↔ Splits pattern text := by
  induction pattern generalizing text with
  | nil => rw [likes, List.isEmpty_iff, splits_nil]
  | cons p pattern ih => simp only [likes, step_eq_true_iff, splits_cons, ih]

/-- The matcher decides whether a text splits as a pattern says. -/
theorem matchesText_iff_splits (p : LikePattern) (t : String) :
    p.matchesText t = true ↔ Splits p.raw.toList t.toList := by
  rw [matchesText, accepts_eq_likes, likes_iff_splits]

end GridQuery.LikePattern
