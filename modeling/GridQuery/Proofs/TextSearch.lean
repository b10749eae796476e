import GridQuery.Operator
import GridQuery.Proofs.Splitting

/-!
# Searching in texts

The operators that search in texts put wildcards around the text they look for. So they find
it wherever it stands literally: somewhere in the text, in front, or at the end. They find more
only when the text they look for holds wildcards itself, which then stand for other characters
too.

## Main results

* `LikePattern.splits_contains_iff`, `LikePattern.splits_startsWith_iff`,
  `LikePattern.splits_endsWith_iff` — which pieces of a text the wildcards around a pattern
  leave to it.
* `Operator.evaluate_textSearch` — what the four operators find.
-/

namespace GridQuery

namespace LikePattern

variable {pattern text : List Char}

/-! ## Wildcards around a pattern -/

theorem splits_startsWith_iff :
    Splits (pattern ++ ['%']) text ↔ ∃ piece, piece <+: text ∧ Splits pattern piece := by
  rw [splits_append]
  constructor
  · rintro ⟨left, right, hleft, -, rfl⟩
    exact ⟨left, List.prefix_append left right, hleft⟩
  · rintro ⟨left, ⟨right, rfl⟩, hleft⟩
    exact ⟨left, right, hleft, splits_run right, rfl⟩

theorem splits_endsWith_iff :
    Splits ('%' :: pattern) text ↔ ∃ piece, piece <:+ text ∧ Splits pattern piece := by
  rw [splits_cons]
  constructor
  · rintro ⟨left, right, -, hright, rfl⟩
    exact ⟨right, List.suffix_append left right, hright⟩
  · rintro ⟨right, ⟨left, rfl⟩, hright⟩
    exact ⟨left, right, takes_run left, hright, rfl⟩

theorem splits_contains_iff :
    Splits ('%' :: (pattern ++ ['%'])) text ↔ ∃ piece, piece <:+: text ∧ Splits pattern piece := by
  rw [splits_endsWith_iff]
  simp only [splits_startsWith_iff]
  constructor
  · rintro ⟨tail, htail, piece, hpiece, hsplits⟩
    exact ⟨piece, hpiece.isInfix.trans htail.isInfix, hsplits⟩
  · rintro ⟨piece, ⟨left, right, rfl⟩, hsplits⟩
    rw [List.append_assoc]
    exact ⟨piece ++ right, List.suffix_append left _, piece, List.prefix_append piece right,
      hsplits⟩

/-- Without wildcards of its own a pattern is found exactly where it stands literally. -/
theorem exists_splits_iff {place : List Char → Prop} (hrun : '%' ∉ pattern)
    (hone : '_' ∉ pattern) : (∃ piece, place piece ∧ Splits pattern piece) ↔ place pattern := by
  simp only [splits_iff_eq hrun hone, exists_eq_right]

end LikePattern

namespace Predicate

variable {field : FieldRef} {pattern : LikePattern} {negated : Bool} {r : Record} {t : String}

/-! ## Tests of one field -/

theorem evaluate_like_text (h : r.lookup field.segments = .scalar (.text t)) :
    (like field pattern negated).evaluate r = (pattern.matchesText t != negated) := by
  rw [evaluate, evalLike, h]

theorem evaluate_like_null (h : r.lookup field.segments = .null) :
    (like field pattern negated).evaluate r = false := by
  rw [evaluate, evalLike, h]

theorem evaluate_like_iff_splits (h : r.lookup field.segments = .scalar (.text t)) :
    (like field pattern false).evaluate r ↔ LikePattern.Splits pattern.raw.toList t.toList := by
  rw [evaluate_like_text h, Bool.bne_false, LikePattern.matchesText_iff_splits]

end Predicate

open LikePattern in
/-- **Text operators.** `Contains`, `StartsWith` and `EndsWith` find every text where it stands
literally, and nothing else when it holds no wildcards. `NotContains` passes the texts that
`Contains` does not, and no operator passes null. -/
theorem Operator.evaluate_textSearch (field : FieldRef) (v : String) :
    ∃ contains notContains startsWith endsWith : Predicate,
      Operator.contains.compile field (some (.text v)) = .ok contains ∧
      Operator.notContains.compile field (some (.text v)) = .ok notContains ∧
      Operator.startsWith.compile field (some (.text v)) = .ok startsWith ∧
      Operator.endsWith.compile field (some (.text v)) = .ok endsWith ∧
      (∀ (r : Record) (t : String), r.lookup field.segments = .scalar (.text t) →
        (v.toList <:+: t.toList → contains.evaluate r) ∧
        (v.toList <+: t.toList → startsWith.evaluate r) ∧
        (v.toList <:+ t.toList → endsWith.evaluate r) ∧
        ('%' ∉ v.toList → '_' ∉ v.toList →
          (contains.evaluate r ↔ v.toList <:+: t.toList) ∧
          (startsWith.evaluate r ↔ v.toList <+: t.toList) ∧
          (endsWith.evaluate r ↔ v.toList <:+ t.toList)) ∧
        (notContains.evaluate r ↔ ¬ contains.evaluate r)) ∧
      ∀ r : Record, r.lookup field.segments = .null →
        contains.evaluate r = false ∧ notContains.evaluate r = false ∧
          startsWith.evaluate r = false ∧ endsWith.evaluate r = false := by
  refine ⟨_, _, _, _, rfl, rfl, rfl, rfl, fun r t htext => ?_, fun r hnull => ?_⟩
  · have hcontains : (Predicate.like field ⟨"%" ++ v ++ "%"⟩ false).evaluate r ↔
        ∃ piece, piece <:+: t.toList ∧ Splits v.toList piece := by
      rw [Predicate.evaluate_like_iff_splits htext, ← splits_contains_iff]
      simp
    have hstarts : (Predicate.like field ⟨"" ++ v ++ "%"⟩ false).evaluate r ↔
        ∃ piece, piece <+: t.toList ∧ Splits v.toList piece := by
      rw [Predicate.evaluate_like_iff_splits htext, ← splits_startsWith_iff]
      simp
    have hends : (Predicate.like field ⟨"%" ++ v ++ ""⟩ false).evaluate r ↔
        ∃ piece, piece <:+ t.toList ∧ Splits v.toList piece := by
      rw [Predicate.evaluate_like_iff_splits htext, ← splits_endsWith_iff]
      simp
    refine ⟨fun h => hcontains.2 ⟨_, h, splits_self _⟩, fun h => hstarts.2 ⟨_, h, splits_self _⟩,
      fun h => hends.2 ⟨_, h, splits_self _⟩, fun hrun hone => ?_, ?_⟩
    · exact ⟨hcontains.trans (exists_splits_iff hrun hone),
        hstarts.trans (exists_splits_iff hrun hone), hends.trans (exists_splits_iff hrun hone)⟩
    · rw [Predicate.evaluate_like_text htext, Predicate.evaluate_like_text htext]
      simp
  · exact ⟨Predicate.evaluate_like_null hnull, Predicate.evaluate_like_null hnull,
      Predicate.evaluate_like_null hnull, Predicate.evaluate_like_null hnull⟩

/-- A text with a wildcard that stands for itself, a text without one, and null. -/
theorem Operator.evaluate_textSearch_percent :
    let field : FieldRef := ⟨"note", .value⟩
    let row : Record := ⟨[("note", .scalar (.text "now 50% off"))]⟩
    let blank : Record := ⟨[("note", .null)]⟩
    row.lookup field.segments = .scalar (.text "now 50% off") ∧
      blank.lookup field.segments = .null ∧
      (∃ p, Operator.contains.compile field (some (.text "50%")) = .ok p ∧ p.evaluate row) ∧
      ∃ p, Operator.endsWith.compile field (some (.text "off")) = .ok p ∧
        (p.evaluate row ↔ "off".toList <:+ "now 50% off".toList) ∧ p.evaluate blank = false := by
  intro field row blank
  have hsegments : field.segments = ["note"] := by decide
  have hrow : row.lookup field.segments = .scalar (.text "now 50% off") := by
    rw [hsegments]
    rfl
  have hblank : blank.lookup field.segments = .null := by
    rw [hsegments]
    rfl
  obtain ⟨p, _, _, _, hp, _, _, _, htext, _⟩ := Operator.evaluate_textSearch field "50%"
  obtain ⟨_, _, _, q, _, _, _, hq, hplain, hnull⟩ := Operator.evaluate_textSearch field "off"
  refine ⟨hrow, hblank, ⟨p, hp, (htext row _ hrow).1 ?_⟩, q, hq, ?_, (hnull blank hblank).2.2.2⟩
  · decide
  · exact ((hplain row _ hrow).2.2.2.1 (by decide) (by decide)).2.2

end GridQuery
