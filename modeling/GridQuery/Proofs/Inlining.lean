import GridQuery.Proofs.Placeholders

/-!
# Parameters in place of placeholders

The display of a predicate is meant to be its clause with the parameters in the place of the
placeholders (`Predicate.inlined`), written as operands are displayed: text in quotes, with a
quote inside written twice. Display and clause are written by two functions that differ in two
places. A `LIKE` pattern is displayed between quotes as it stands, so a quote inside is written
once; and an AND without parts is displayed as a pair of parentheses, where the clause says
`TRUE`. Elsewhere the two agree, and each of these places makes the display shorter, so a
display with such a place in it is never the inlined clause.

## Main results

* `Predicate.length_inlined` — by how much the display falls short of the inlined clause.
* `Predicate.display_eq_inlined_iff` — the two are the same text when it does not.
-/

namespace GridQuery

/-! ## Lengths of texts -/

namespace Text

theorem length_join (sep : List Char) (pieces : List (List Char)) :
    (join sep pieces).length =
      (pieces.map List.length).sum + sep.length * (pieces.length - 1) := by
  induction pieces with
  | nil => simp [join]
  | cons piece pieces ih =>
    cases pieces with
    | nil => simp [join]
    | cons next pieces =>
      rw [join_cons (by simp), List.length_append, List.length_append, ih]
      simp only [List.map_cons, List.sum_cons, List.length_cons, Nat.add_sub_cancel, Nat.mul_succ]
      omega

theorem length_joined (sep : String) (parts : List String) :
    (joined sep parts).length =
      (parts.map String.length).sum + sep.length * (parts.length - 1) := by
  rw [joined, String.length_ofList, length_join, List.map_map, List.length_map,
    String.length_toList]
  rfl

end Text

namespace Operand

theorem length_doubled (cs : List Char) :
    (cs.flatMap fun c => if c = '\'' then ['\'', '\''] else [c]).length =
      cs.length + cs.count '\'' := by
  induction cs with
  | nil => rfl
  | cons c cs ih =>
    rw [List.flatMap_cons, List.length_append, ih, List.length_cons, List.count_cons]
    by_cases hc : c = '\''
    · simp only [hc, if_true, beq_self_eq_true, List.length_cons, List.length_nil]
      omega
    · simp only [if_neg hc, beq_eq_false_iff_ne.2 hc, Bool.false_eq_true, if_false,
        List.length_singleton]
      omega

/-- A quoted text is longer by its own quotes and the two around it. -/
theorem length_quoted (s : String) :
    (quoted s).length = s.length + s.toList.count '\'' + 2 := by
  have hquote : "'".length = 1 := rfl
  rw [quoted, String.length_append, String.length_append, hquote, String.length_ofList,
    length_doubled, String.length_toList]
  omega

/-- Without quotes in it, a text is quoted as it stands. -/
theorem quoted_of_count_eq_zero {s : String} (h : s.toList.count '\'' = 0) :
    quoted s = "'" ++ s ++ "'" := by
  have hself : (s.toList.flatMap fun c => if c = '\'' then ['\'', '\''] else [c]) = s.toList := by
    have hsingle : ∀ c ∈ s.toList, (if c = '\'' then ['\'', '\''] else [c]) = [c] := by
      intro c hc
      rw [if_neg]
      rintro rfl
      exact List.count_eq_zero.1 h hc
    rw [List.flatMap_congr hsingle, List.flatMap_singleton']
  rw [quoted, hself, String.ofList_toList]

end Operand

namespace Predicate

/-! ## The inlined clause -/

/-- The clause of a predicate with its parameters in the place of the placeholders. -/
def inlined (p : Predicate) : String := p.written (p.params.map Operand.display)

theorem inlined_compare (field : FieldRef) (op : Comparison) (a : Operand) :
    (compare field op a).inlined = (compare field op a).display := by
  rw [inlined, written, field.term_text, ← op.sql_eq_compareWord]
  rfl

theorem inlined_like (field : FieldRef) (pattern : LikePattern) (negated : Bool) :
    (like field pattern negated).inlined =
      field.sql ++ " " ++ likeKeyword negated ++ " " ++ Operand.quoted pattern.raw := by
  rw [inlined, written, field.term_text, ← likeKeyword_eq_likeWord]
  rfl

theorem inlined_null (field : FieldRef) (negated : Bool) :
    (null field negated).inlined = (null field negated).display := by
  rw [inlined, written, field.term_text, ← nullKeyword_eq_nullWord]
  rfl

theorem writtenAll_display (ps : List Predicate) :
    writtenAll ps ((paramsAll ps).map Operand.display) = ps.map inlined := by
  induction ps with
  | nil => rfl
  | cons p ps ih =>
    rw [paramsAll, List.map_append, writtenAll_cons (List.length_map _), ih, List.map_cons, inlined]

theorem inlined_and {ps : List Predicate} (hne : ps ≠ []) :
    (Predicate.and ps).inlined = conjunction (ps.map inlined) := by
  rw [inlined, written, params, writtenAll_display, if_neg (by simpa using hne),
    conjunction_eq_intercalate]

theorem displayAll_eq_map (ps : List Predicate) : displayAll ps = ps.map display := by
  induction ps with
  | nil => rfl
  | cons p ps ih => rw [displayAll, ih, List.map_cons]

theorem display_and (ps : List Predicate) :
    (Predicate.and ps).display = conjunction (ps.map display) := by
  rw [display, displayAll_eq_map]

/-! ## What the display leaves out -/

mutual

/-- How many characters the display of a predicate leaves out of the inlined clause: one for
every quote in a pattern, and two for every AND without parts. -/
def shortfall : Predicate → ℕ
  | .like _ pattern _ => pattern.raw.toList.count '\''
  | .and parts => if parts.isEmpty then 2 else shortfallAll parts
  | .always | .compare .. | .null .. => 0

/-- How many characters the displays of a list of predicates leave out. -/
def shortfallAll : List Predicate → ℕ
  | [] => 0
  | p :: ps => shortfall p + shortfallAll ps

end

theorem shortfallAll_eq_sum (ps : List Predicate) :
    shortfallAll ps = (ps.map shortfall).sum := by
  induction ps with
  | nil => rfl
  | cons p ps ih => rw [shortfallAll, ih, List.map_cons, List.sum_cons]

theorem shortfall_and {ps : List Predicate} (hne : ps ≠ []) :
    (Predicate.and ps).shortfall = (ps.map shortfall).sum := by
  rw [shortfall, shortfallAll_eq_sum, if_neg (by simpa using hne)]

theorem length_conjunction (parts : List String) : (conjunction parts).length =
    (parts.map String.length).sum + 5 * (parts.length - 1) + 2 := by
  have hopen : "(".length = 1 := rfl
  have hclose : ")".length = 1 := rfl
  have hand : " AND ".length = 5 := rfl
  rw [conjunction, String.length_append, String.length_append, Text.length_joined, hopen, hclose,
    hand]
  omega

/-- **How much the display leaves out** of the inlined clause. -/
theorem length_inlined (p : Predicate) : p.inlined.length = p.display.length + p.shortfall := by
  induction p with
  | always => rfl
  | compare field op operand => rw [inlined_compare, shortfall, Nat.add_zero]
  | like field pattern negated =>
    have hopen : " '".length = 2 := rfl
    have hspace : " ".length = 1 := rfl
    have hclose : "'".length = 1 := rfl
    simp only [inlined_like, display, shortfall, String.length_append, Operand.length_quoted,
      hopen, hspace, hclose]
    omega
  | null field negated => rw [inlined_null, shortfall, Nat.add_zero]
  | and parts ih =>
    by_cases hne : parts = []
    · subst hne
      rfl
    · have hlengths : (parts.map fun p => p.inlined.length) =
          parts.map fun p => p.display.length + p.shortfall :=
        List.map_congr_left ih
      rw [inlined_and hne, display_and, shortfall_and hne, length_conjunction, length_conjunction,
        List.map_map, List.map_map, Function.comp_def, hlengths, List.sum_map_add,
        List.length_map, List.length_map]
      simp only [Function.comp_def]
      omega

/-- A display that leaves nothing out is the inlined clause. -/
theorem display_eq_inlined {p : Predicate} (h : p.shortfall = 0) : p.display = p.inlined := by
  induction p with
  | always => rfl
  | compare field op operand => rw [inlined_compare]
  | like field pattern negated =>
    rw [shortfall] at h
    rw [inlined_like, Operand.quoted_of_count_eq_zero h, display]
    simp [← String.toList_inj]
  | null field negated => rw [inlined_null]
  | and parts ih =>
    have hne : parts ≠ [] := by
      rintro rfl
      cases h
    rw [shortfall_and hne, List.sum_eq_zero_iff] at h
    have hparts : parts.map display = parts.map inlined :=
      List.map_congr_left fun p hp => ih p hp (h _ (List.mem_map_of_mem hp))
    rw [display_and, inlined_and hne, hparts]

/-- **When the display is the inlined clause.** The clause and the inlined clause are the same
text but for what stands in the place of the values: the placeholders after any offset, or the
parameters as they are displayed. The display falls short of the inlined clause by one character
for every quote in a pattern and two for every AND without parts; it is the inlined clause
exactly when there are none of these in the predicate, at any depth. -/
theorem display_eq_inlined_iff (p : Predicate) :
    (∀ offset, p.sql offset = p.written (placeholders offset p.params.length)) ∧
    p.inlined = p.written (p.params.map Operand.display) ∧
    p.inlined.length = p.display.length + p.shortfall ∧
    (p.display = p.inlined ↔ p.shortfall = 0) := by
  refine ⟨sql_eq_written p, rfl, length_inlined p, fun h => ?_, display_eq_inlined⟩
  have hlength := length_inlined p
  rw [h] at hlength
  omega

/-- **A quote in a pattern is displayed once**, where the parameter bound in its place is
displayed with the quote twice; and an AND without parts is displayed as no clause at all. -/
theorem display_bare_quote :
    let p : Predicate := .like ⟨"name", .value⟩ ⟨"%O'Neil%"⟩ false
    p.sql 0 = "name LIKE $1" ∧ p.params = [.text "%O'Neil%"] ∧
      p.inlined = "name LIKE '%O''Neil%'" ∧ p.display = "name LIKE '%O'Neil%'" ∧
      (Predicate.and []).sql 0 = "TRUE" ∧ (Predicate.and []).params = [] ∧
      (Predicate.and []).inlined = "TRUE" ∧ (Predicate.and []).display = "()" ∧
      ¬ ∀ q : Predicate, q.display = q.inlined := by
  intro p
  have hinlined : p.inlined = "name LIKE '%O''Neil%'" := by decide +kernel
  have hdisplay : p.display = "name LIKE '%O'Neil%'" := by decide +kernel
  refine ⟨by decide +kernel, rfl, hinlined, hdisplay, rfl, rfl, rfl, by decide +kernel, fun h => ?_⟩
  have hp := h p
  rw [hinlined, hdisplay] at hp
  exact absurd hp (by decide)

end Predicate

end GridQuery
