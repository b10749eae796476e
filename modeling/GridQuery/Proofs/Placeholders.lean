import GridQuery.Proofs.Clause
import GridQuery.Proofs.WrittenNumbers

/-!
# Placeholders and parameters

The clause of a predicate has a placeholder for each value that a condition carries, and
`params` lists the values. The two are computed apart; here they are shown to be in step.

A predicate is written with any texts in the place of its values (`Predicate.written`). Its
clause is the one written with the placeholders of consecutive numbers, so the k-th value is
bound to the k-th number after the offset. One pass over the tree that numbers each value by
how many are bound at that point (`Predicate.render`) gives the same text and the same values.

Whatever the texts are, each of them is written, once and in its turn: a predicate has a form
with one gap for each value (`Piece`), the same for all texts, and the texts go into the gaps.

## Main results

* `Predicate.sql_eq_written` — the clause has consecutive placeholders, from left to right.
* `Predicate.exists_form` — between the texts stand fixed pieces.
* `Predicate.render_eq` — numbering along the way comes to the same.
* `Predicate.sql_in_step` — all of these, with the values that the placeholders stand for.
-/

namespace GridQuery

/-! ## Forms -/

/-- A piece of a form: a fixed text, or a gap to be filled. -/
inductive Piece where
  | fixed (s : String)
  | gap
deriving DecidableEq

namespace Piece

/-- The number of gaps in a form. -/
def gaps (form : List Piece) : ℕ := form.count gap

/-- The form with texts in its gaps, from left to right. -/
def fill : List Piece → List String → String
  | [], _ => ""
  | fixed s :: form, texts => s ++ fill form texts
  | gap :: form, texts => texts.headD "" ++ fill form texts.tail

@[simp] theorem gaps_fixed (s : String) (form : List Piece) :
    gaps (fixed s :: form) = gaps form :=
  List.count_cons_of_ne (by simp)

@[simp] theorem gaps_gap (form : List Piece) : gaps (gap :: form) = gaps form + 1 :=
  List.count_cons_self

@[simp] theorem gaps_append (form rest : List Piece) :
    gaps (form ++ rest) = gaps form + gaps rest :=
  List.count_append

/-- The texts of a form come before those of the form after it. -/
theorem fill_append {form : List Piece} {texts : List String} (h : texts.length = gaps form)
    (next : List Piece) (rest : List String) :
    fill (form ++ next) (texts ++ rest) = fill form texts ++ fill next rest := by
  induction form generalizing texts with
  | nil =>
    obtain rfl := List.eq_nil_of_length_eq_zero h
    rw [fill, String.empty_append, List.nil_append, List.nil_append]
  | cons piece form ih =>
    cases piece with
    | fixed s =>
      rw [gaps_fixed] at h
      rw [List.cons_append, fill, fill, ih h, String.append_assoc]
    | gap =>
      rw [gaps_gap] at h
      obtain ⟨text, texts, rfl⟩ := List.exists_cons_of_length_eq_add_one h
      rw [List.length_cons, Nat.add_right_cancel_iff] at h
      rw [List.cons_append, List.cons_append, fill, fill, List.tail_cons, List.tail_cons, ih h,
        List.headD_cons, List.headD_cons, String.append_assoc]

/-- A form with its one gap at the end. -/
theorem fill_front (front : String) (texts : List String) :
    fill [fixed front, gap] texts = front ++ texts.headD "" := by
  rw [fill, fill, fill, String.append_empty]

end Piece

namespace Predicate

/-! ## Values and their places -/

/-- The value that a condition carries. -/
def operand? : Predicate → Option Operand
  | .compare _ _ operand => some operand
  | .like _ pattern _ => some (.text pattern.raw)
  | .always | .null .. | .and _ => none

mutual

/-- The clause of a predicate with the given texts, from left to right, in the place of its
values. -/
def written : Predicate → List String → String
  | .always, _ => "TRUE"
  | .compare field op _, texts =>
      field.term.text ++ " " ++ Clause.compareWord op ++ " " ++ texts.headD ""
  | .like field _ negated, texts =>
      field.term.text ++ " " ++ Clause.likeWord negated ++ " " ++ texts.headD ""
  | .null field negated, _ => field.term.text ++ " " ++ Clause.nullWord negated
  | .and parts, texts =>
      if parts.isEmpty then "TRUE" else "(" ++ " AND ".intercalate (writtenAll parts texts) ++ ")"

/-- The clauses of a list of predicates: each takes as many texts as it has values. -/
def writtenAll : List Predicate → List String → List String
  | [], _ => []
  | p :: ps, texts =>
      written p (texts.take (params p).length) :: writtenAll ps (texts.drop (params p).length)

end

/-- The placeholders of `count` values after `offset`. -/
def placeholders (offset count : ℕ) : List String :=
  (List.range' (offset + 1) count).map fun n => "$" ++ Text.natString n

theorem placeholders_add (offset m n : ℕ) :
    placeholders offset (m + n) = placeholders offset m ++ placeholders (offset + m) n := by
  rw [placeholders, placeholders, placeholders, ← List.map_append, Nat.add_right_comm,
    List.range'_append_1]

@[simp] theorem length_placeholders (offset count : ℕ) :
    (placeholders offset count).length = count := by
  rw [placeholders, List.length_map, List.length_range']

/-- The text of a placeholder shows its number. -/
theorem placeholder_injective : Function.Injective placeholder := by
  intro m n h
  have hnumerals : Text.numeral m = Text.numeral n := by
    simpa [placeholder, Text.natString, ← String.toList_inj] using h
  have hvalues := congrArg (Text.digitsValue 0) hnumerals
  simpa using hvalues

theorem nodup_placeholders (offset count : ℕ) : (placeholders offset count).Nodup :=
  List.Nodup.map placeholder_injective List.nodup_range'

/-! ## Parameters -/

theorem paramsAll_eq_flatMap (ps : List Predicate) : paramsAll ps = ps.flatMap params := by
  induction ps with
  | nil => rfl
  | cons p ps ih => rw [paramsAll, ih, List.flatMap_cons]

/-- The parameters are the values of the conditions, from left to right. -/
theorem params_eq_filterMap_leaves (p : Predicate) : p.params = p.leaves.filterMap operand? := by
  induction p with
  | always => rfl
  | compare field op operand => rfl
  | like field pattern negated => rfl
  | null field negated => rfl
  | and parts ih =>
    rw [params, paramsAll_eq_flatMap, leaves_and, List.filterMap_flatMap]
    exact List.flatMap_congr ih

/-- Composing predicates puts their parameters one after another. -/
theorem params_conj (p q : Predicate) : (p.conj q).params = p.params ++ q.params := by
  simp only [params_eq_filterMap_leaves, leaves_conj, List.filterMap_append]

/-! ## Numbering -/

/-- A list of predicates takes the texts of its members one after another. -/
theorem writtenAll_cons {p : Predicate} {texts : List String} (h : texts.length = p.params.length)
    (ps : List Predicate) (rest : List String) :
    writtenAll (p :: ps) (texts ++ rest) = p.written texts :: writtenAll ps rest := by
  rw [writtenAll, ← h, List.take_left, List.drop_left]

theorem sqlAll_eq_writtenAll {ps : List Predicate}
    (h : ∀ p ∈ ps, ∀ offset, p.sql offset = p.written (placeholders offset p.params.length))
    (offset : ℕ) :
    sqlAll offset ps = writtenAll ps (placeholders offset (paramsAll ps).length) := by
  induction ps generalizing offset with
  | nil => rfl
  | cons p ps ih =>
    rw [sqlAll, paramsAll, List.length_append, placeholders_add,
      writtenAll_cons (length_placeholders _ _), h p (by simp), ih fun q hq => h q (by simp [hq])]

/-- **The clause has consecutive placeholders**, from left to right. -/
theorem sql_eq_written (p : Predicate) (offset : ℕ) :
    p.sql offset = p.written (placeholders offset p.params.length) := by
  induction p generalizing offset with
  | always => rfl
  | compare field op operand =>
    rw [sql, written, field.term_text, op.sql_eq_compareWord]
    rfl
  | like field pattern negated =>
    rw [sql, written, field.term_text, likeKeyword_eq_likeWord]
    rfl
  | null field negated => rw [sql, written, field.term_text, nullKeyword_eq_nullWord]
  | and parts ih =>
    rw [sql, written, params, sqlAll_eq_writtenAll ih, conjunction_eq_intercalate]

/-! ## What stands between the values -/

theorem exists_formAll {ps : List Predicate}
    (h : ∀ p ∈ ps, ∃ form, Piece.gaps form = p.params.length ∧
      ∀ texts, texts.length = p.params.length → p.written texts = Piece.fill form texts) :
    ∃ form, Piece.gaps form = (paramsAll ps).length ∧
      ∀ texts, texts.length = (paramsAll ps).length →
        " AND ".intercalate (writtenAll ps texts) = Piece.fill form texts := by
  induction ps with
  | nil => exact ⟨[], rfl, fun _ _ => rfl⟩
  | cons p ps ih =>
    obtain ⟨first, hfirst, hp⟩ := h p (by simp)
    obtain ⟨others, hothers, hps⟩ := ih fun q hq => h q (by simp [hq])
    cases ps with
    | nil =>
      refine ⟨first, by simpa [paramsAll] using hfirst, fun texts htexts => ?_⟩
      rw [paramsAll, paramsAll, List.append_nil] at htexts
      rw [writtenAll, ← htexts, List.take_length, writtenAll, String.intercalate_singleton,
        hp texts htexts]
    | cons q ps =>
      refine ⟨first ++ .fixed " AND " :: others, ?_, fun texts htexts => ?_⟩
      · rw [Piece.gaps_append, Piece.gaps_fixed, hfirst, hothers, ← List.length_append, ← paramsAll]
      · rw [paramsAll, List.length_append] at htexts
        have hfront : (texts.take p.params.length).length = p.params.length :=
          List.length_take_of_le (by omega)
        have hrest : (texts.drop p.params.length).length = (paramsAll (q :: ps)).length := by
          rw [List.length_drop]
          omega
        have hfill := Piece.fill_append (hfront.trans hfirst.symm) (.fixed " AND " :: others)
          (texts.drop p.params.length)
        rw [List.take_append_drop] at hfill
        rw [hfill, writtenAll, String.intercalate_cons_of_ne_nil (by simp [writtenAll]),
          hp _ hfront, hps _ hrest, Piece.fill, String.append_assoc]

/-- **Between the texts stand fixed pieces**, the same whatever the texts are. -/
theorem exists_form (p : Predicate) :
    ∃ form, Piece.gaps form = p.params.length ∧
      ∀ texts, texts.length = p.params.length → p.written texts = Piece.fill form texts := by
  induction p with
  | always => exact ⟨[.fixed "TRUE"], rfl, fun _ _ => rfl⟩
  | compare field op operand =>
    refine ⟨[.fixed (field.term.text ++ " " ++ Clause.compareWord op ++ " "), .gap], rfl,
      fun texts _ => ?_⟩
    rw [written, Piece.fill_front]
  | like field pattern negated =>
    refine ⟨[.fixed (field.term.text ++ " " ++ Clause.likeWord negated ++ " "), .gap], rfl,
      fun texts _ => ?_⟩
    rw [written, Piece.fill_front]
  | null field negated =>
    refine ⟨[.fixed (field.term.text ++ " " ++ Clause.nullWord negated)], rfl, fun texts _ => ?_⟩
    rw [written, Piece.fill, Piece.fill, String.append_empty]
  | and parts ih =>
    obtain ⟨form, hgaps, hform⟩ := exists_formAll ih
    by_cases hne : parts = []
    · subst hne
      exact ⟨[.fixed "TRUE"], rfl, fun _ _ => rfl⟩
    · refine ⟨.fixed "(" :: (form ++ [.fixed ")"]), ?_, fun texts htexts => ?_⟩
      · rw [Piece.gaps_fixed, Piece.gaps_append, Piece.gaps_fixed, params, hgaps]
        rfl
      · rw [params] at htexts
        have hfill : Piece.fill (form ++ [.fixed ")"]) texts = Piece.fill form texts ++ ")" := by
          rw [← List.append_nil texts, Piece.fill_append (htexts.trans hgaps.symm),
            List.append_nil, Piece.fill, Piece.fill, String.append_empty]
        rw [written, if_neg (by simpa using hne), hform texts htexts, Piece.fill, hfill,
          String.append_assoc]

/-! ## Numbering along the way -/

/-- A condition with a value, in a pass over a predicate: the value is bound after the others,
and its number is how many are bound then. -/
def renderValue (offset : ℕ) (condition : String) (a : Operand) (bound : List Operand) :
    String × List Operand :=
  (condition ++ " " ++ ("$" ++ Text.natString (offset + (bound ++ [a]).length)), bound ++ [a])

mutual

/-- The clause of a predicate in one pass, with the values bound before it and after it. -/
def render (offset : ℕ) : Predicate → List Operand → String × List Operand
  | .always, bound => ("TRUE", bound)
  | .compare field op a, bound =>
      renderValue offset (field.term.text ++ " " ++ Clause.compareWord op) a bound
  | .like field pattern negated, bound =>
      renderValue offset (field.term.text ++ " " ++ Clause.likeWord negated)
        (.text pattern.raw) bound
  | .null field negated, bound => (field.term.text ++ " " ++ Clause.nullWord negated, bound)
  | .and parts, bound =>
      if parts.isEmpty then ("TRUE", bound)
      else
        let (clauses, bound) := renderAll offset parts bound
        ("(" ++ " AND ".intercalate clauses ++ ")", bound)

/-- The clauses of a list of predicates in one pass. -/
def renderAll (offset : ℕ) : List Predicate → List Operand → List String × List Operand
  | [], bound => ([], bound)
  | p :: ps, bound =>
      let (clause, bound) := render offset p bound
      let (clauses, bound) := renderAll offset ps bound
      (clause :: clauses, bound)

end

theorem renderValue_eq (offset : ℕ) (condition : String) (a : Operand) (bound : List Operand) :
    renderValue offset condition a bound =
      (condition ++ " " ++ placeholder (offset + bound.length + 1), bound ++ [a]) := by
  rw [renderValue, List.length_append, List.length_singleton, placeholder, Nat.add_assoc]

theorem renderAll_eq {ps : List Predicate} {offset : ℕ}
    (h : ∀ p ∈ ps, ∀ bound,
      p.render offset bound = (p.sql (offset + bound.length), bound ++ p.params))
    (bound : List Operand) :
    renderAll offset ps bound = (sqlAll (offset + bound.length) ps, bound ++ paramsAll ps) := by
  induction ps generalizing bound with
  | nil => rw [renderAll, sqlAll, paramsAll, List.append_nil]
  | cons p ps ih =>
    rw [renderAll, h p (by simp)]
    simp only [ih fun q hq => h q (by simp [hq])]
    rw [sqlAll, paramsAll, List.length_append, Nat.add_assoc, List.append_assoc]

/-- **Numbering along the way comes to the same**: the values bound so far are a part of the
offset, and the values of the predicate are bound after them. -/
theorem render_eq (p : Predicate) (offset : ℕ) (bound : List Operand) :
    p.render offset bound = (p.sql (offset + bound.length), bound ++ p.params) := by
  induction p generalizing bound with
  | always => rw [render, sql, params, List.append_nil]
  | compare field op a =>
    rw [render, renderValue_eq, sql, params, field.term_text, op.sql_eq_compareWord]
  | like field pattern negated =>
    rw [render, renderValue_eq, sql, params, field.term_text, likeKeyword_eq_likeWord]
  | null field negated =>
    rw [render, sql, params, List.append_nil, field.term_text, nullKeyword_eq_nullWord]
  | and parts ih =>
    rw [render, sql, params]
    cases parts with
    | nil => rw [paramsAll, List.append_nil]; rfl
    | cons p ps =>
      rw [renderAll_eq ih, conjunction_eq_intercalate]
      rfl

/-! ## In step -/

/-- **Placeholders and parameters stay in step.** One pass over a predicate gives its clause and
its parameters, whatever the offset. The parameters are the values of the conditions from left
to right; the clause is the predicate written with the placeholders of the numbers from the one
after the offset on, one for each parameter and no two alike, in the place of the values; it is
a form with one gap for each parameter, filled with these placeholders, and the form is the
same for all offsets; and the parameters of a composition are those of the one predicate and
then those of the other. -/
theorem sql_in_step (p q : Predicate) :
    (∀ offset, p.render offset [] = (p.sql offset, p.params)) ∧
    p.params = p.leaves.filterMap operand? ∧
    (∀ offset, p.sql offset = p.written (placeholders offset p.params.length) ∧
      (placeholders offset p.params.length).Nodup) ∧
    (∃ form, Piece.gaps form = p.params.length ∧
      ∀ offset, p.sql offset = Piece.fill form (placeholders offset p.params.length)) ∧
    (p.conj q).params = p.params ++ q.params := by
  obtain ⟨form, hgaps, hform⟩ := exists_form p
  refine ⟨fun offset => render_eq p offset [], params_eq_filterMap_leaves p,
    fun offset => ⟨sql_eq_written p offset, nodup_placeholders offset _⟩, ⟨form, hgaps, ?_⟩,
    params_conj p q⟩
  intro offset
  rw [sql_eq_written, hform _ (length_placeholders _ _)]

end Predicate

end GridQuery
