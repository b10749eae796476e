import GridQuery.Predicate

/-!
# Composition of predicates

What `Predicate.conj` builds. The leaves of a predicate are its single conditions,
read from left to right; a predicate is flat when it is nothing but its leaves.

* `leaves_conj` and `isFlat_conj`: composing appends the leaves, drops and repeats
  none of them, and keeps predicates flat.
* `evaluate_eq_all_leaves`: a record satisfies a predicate when it satisfies every
  leaf, whatever the nesting.
* `ofLeaves_leaves`: a flat predicate is determined by its leaves.
* `conj_assoc`: composing is associative, on trees and not only up to evaluation.
-/

namespace GridQuery.Predicate

/-! ## Induction -/

/-- Induction over predicates: for an AND, the property of every part is at hand. -/
@[elab_as_elim, induction_eliminator]
theorem byParts {motive : Predicate → Prop} (always : motive .always)
    (compare : ∀ field op operand, motive (.compare field op operand))
    (like : ∀ field pattern negated, motive (.like field pattern negated))
    (null : ∀ field negated, motive (.null field negated))
    (and : ∀ parts, (∀ p ∈ parts, motive p) → motive (.and parts)) :
    (p : Predicate) → motive p
  | .always => always
  | .compare field op operand => compare field op operand
  | .like field pattern negated => like field pattern negated
  | .null field negated => null field negated
  | .and parts => and parts fun p _ => byParts always compare like null and p

/-! ## Leaves -/

/-- Whether a predicate is a single condition. -/
def isLeaf : Predicate → Bool
  | .compare .. | .like .. | .null .. => true
  | .always | .and _ => false

mutual

/-- The single conditions of a predicate, from left to right. -/
def leaves : Predicate → List Predicate
  | .always => []
  | .compare field op operand => [.compare field op operand]
  | .like field pattern negated => [.like field pattern negated]
  | .null field negated => [.null field negated]
  | .and parts => leavesAll parts

/-- The single conditions of a list of predicates, from left to right. -/
def leavesAll : List Predicate → List Predicate
  | [] => []
  | p :: ps => leaves p ++ leavesAll ps

end

/-- Whether a predicate is nothing but its leaves: always true, a single condition,
or an AND of at least two single conditions. -/
def isFlat : Predicate → Bool
  | .and parts => 2 ≤ parts.length && parts.all isLeaf
  | _ => true

/-- The flat predicate with the given leaves. -/
def ofLeaves : List Predicate → Predicate
  | [] => .always
  | [p] => p
  | p :: q :: ps => .and (p :: q :: ps)

theorem leavesAll_eq_flatMap (ps : List Predicate) : leavesAll ps = ps.flatMap leaves := by
  induction ps with
  | nil => rfl
  | cons p ps ih => rw [leavesAll, ih, List.flatMap_cons]

theorem evaluateAll_eq_all (ps : List Predicate) (r : Record) :
    evaluateAll ps r = ps.all fun p => p.evaluate r := by
  induction ps with
  | nil => rfl
  | cons p ps ih => rw [evaluateAll, ih, List.all_cons]

theorem leaves_and (ps : List Predicate) : (Predicate.and ps).leaves = ps.flatMap leaves := by
  rw [leaves, leavesAll_eq_flatMap]

theorem evaluate_and (ps : List Predicate) (r : Record) :
    (Predicate.and ps).evaluate r = ps.all fun p => p.evaluate r := by
  rw [evaluate, evaluateAll_eq_all]

theorem leaves_of_isLeaf {p : Predicate} (h : p.isLeaf) : p.leaves = [p] := by
  cases p <;> simp_all [isLeaf, leaves]

theorem flatMap_leaves_of_isLeaf {ps : List Predicate} (h : ∀ p ∈ ps, p.isLeaf) :
    ps.flatMap leaves = ps := by
  induction ps with
  | nil => rfl
  | cons p ps ih =>
    rw [List.flatMap_cons, leaves_of_isLeaf (h p (by simp)), ih fun q hq => h q (by simp [hq])]
    rfl

/-- A record satisfies a predicate when it satisfies all its leaves. -/
theorem evaluate_eq_all_leaves (p : Predicate) (r : Record) :
    p.evaluate r = p.leaves.all fun q => q.evaluate r := by
  induction p with
  | always => rfl
  | compare field op operand => simp [leaves]
  | like field pattern negated => simp [leaves]
  | null field negated => simp [leaves]
  | and parts ih =>
    rw [evaluate_and, leaves_and, List.all_flatMap, Bool.eq_iff_iff, List.all_eq_true,
      List.all_eq_true]
    exact forall₂_congr fun p hp => by rw [ih p hp]

/-! ## Flat predicates -/

theorem isFlat_of_isLeaf {p : Predicate} (h : p.isLeaf) : p.isFlat := by
  cases p <;> simp_all [isLeaf, isFlat]

theorem isFlat_and {ps : List Predicate} :
    (Predicate.and ps).isFlat ↔ 2 ≤ ps.length ∧ ∀ p ∈ ps, p.isLeaf := by
  simp [isFlat]

/-- A flat predicate is determined by its leaves. -/
theorem ofLeaves_leaves {p : Predicate} (h : p.isFlat) : ofLeaves p.leaves = p := by
  cases p with
  | and ps =>
    obtain ⟨hlength, hleaf⟩ := isFlat_and.1 h
    rw [leaves_and, flatMap_leaves_of_isLeaf hleaf]
    match ps, hlength with
    | _ :: _ :: _, _ => rfl
  | _ => rfl

theorem leaves_ofLeaves {ps : List Predicate} (h : ∀ p ∈ ps, p.isLeaf) :
    (ofLeaves ps).leaves = ps := by
  match ps with
  | [] => rfl
  | [p] => exact leaves_of_isLeaf (h p (by simp))
  | _ :: _ :: _ => rw [ofLeaves, leaves_and, flatMap_leaves_of_isLeaf h]

theorem isFlat_ofLeaves {ps : List Predicate} (h : ∀ p ∈ ps, p.isLeaf) :
    (ofLeaves ps).isFlat := by
  match ps with
  | [] => rfl
  | [p] => exact isFlat_of_isLeaf (h p (by simp))
  | _ :: _ :: _ => exact isFlat_and.2 ⟨by simp, h⟩

/-- Of the flat predicates only the trivial one has no leaves. -/
theorem eq_always_iff_leaves {p : Predicate} (h : p.isFlat) : p = .always ↔ p.leaves = [] := by
  constructor
  · rintro rfl
    rfl
  · intro hnil
    rw [← ofLeaves_leaves h, hnil]
    rfl

/-! ## Composing two predicates -/

/-- Composing appends the leaves. -/
theorem leaves_conj (p q : Predicate) : (p.conj q).leaves = p.leaves ++ q.leaves := by
  cases p <;> cases q <;> simp [conj, leaves_and, leaves, leavesAll_eq_flatMap]

/-- A record satisfies a composition when it satisfies both predicates. -/
theorem evaluate_conj (p q : Predicate) (r : Record) :
    (p.conj q).evaluate r = (p.evaluate r && q.evaluate r) := by
  rw [evaluate_eq_all_leaves, leaves_conj, List.all_append, ← evaluate_eq_all_leaves,
    ← evaluate_eq_all_leaves]

/-- Flat predicates stay flat when they are composed. -/
theorem isFlat_conj {p q : Predicate} (hp : p.isFlat) (hq : q.isFlat) : (p.conj q).isFlat := by
  cases p with
  | always => exact hq
  | and ps =>
    obtain ⟨hlength, hleaf⟩ := isFlat_and.1 hp
    cases q with
    | always => exact hp
    | and qs =>
      refine isFlat_and.2 ⟨by rw [List.length_append]; omega, fun p hp => ?_⟩
      rcases List.mem_append.1 hp with h | h
      · exact hleaf p h
      · exact (isFlat_and.1 hq).2 p h
    | _ =>
      refine isFlat_and.2 ⟨by simp; omega, fun p hp => ?_⟩
      rcases List.mem_append.1 hp with h | h
      · exact hleaf p h
      · rw [List.mem_singleton.1 h]
        rfl
  | _ =>
    cases q with
    | always => rfl
    | and qs =>
      obtain ⟨hlength, hleaf⟩ := isFlat_and.1 hq
      refine isFlat_and.2 ⟨by simp; omega, fun p hp => ?_⟩
      rcases List.mem_cons.1 hp with rfl | h
      · rfl
      · exact hleaf p h
    | _ => rfl

/-! ## Composing a list of predicates -/

theorem leaves_foldl_conj (p : Predicate) (ps : List Predicate) :
    (ps.foldl conj p).leaves = p.leaves ++ ps.flatMap leaves := by
  induction ps generalizing p with
  | nil => simp
  | cons q ps ih => rw [List.foldl_cons, ih, leaves_conj, List.flatMap_cons, List.append_assoc]

/-- The leaves of a conjunction are those of its members, in order. -/
theorem leaves_all (ps : List Predicate) : (all ps).leaves = ps.flatMap leaves :=
  leaves_foldl_conj .always ps

/-- A record satisfies a conjunction when it satisfies every member. -/
theorem evaluate_all (ps : List Predicate) (r : Record) :
    (all ps).evaluate r = ps.all fun p => p.evaluate r := by
  rw [evaluate_eq_all_leaves, leaves_all, List.all_flatMap]
  simp only [← evaluate_eq_all_leaves]

theorem isFlat_foldl_conj {p : Predicate} {ps : List Predicate} (hp : p.isFlat)
    (hps : ∀ q ∈ ps, q.isFlat) : (ps.foldl conj p).isFlat := by
  induction ps generalizing p with
  | nil => exact hp
  | cons q ps ih =>
    exact ih (isFlat_conj hp (hps q (by simp))) fun q' hq' => hps q' (by simp [hq'])

/-- The conjunction of flat predicates is flat. -/
theorem isFlat_all {ps : List Predicate} (h : ∀ p ∈ ps, p.isFlat) : (all ps).isFlat :=
  isFlat_foldl_conj rfl h

/-! ## The monoid of predicates -/

/-- What a predicate contributes to an AND: an AND its parts, a condition itself. -/
def conjuncts : Predicate → List Predicate
  | .always => []
  | .and ps => ps
  | p => [p]

theorem always_conj (p : Predicate) : Predicate.always.conj p = p := rfl

theorem conj_always (p : Predicate) : p.conj .always = p := by
  cases p <;> rfl

/-- Two predicates that say something become one AND of what they contribute. -/
theorem conj_eq_and {p q : Predicate} (hp : p ≠ .always) (hq : q ≠ .always) :
    p.conj q = .and (p.conjuncts ++ q.conjuncts) := by
  cases p with
  | always => exact absurd rfl hp
  | _ =>
    cases q with
    | always => exact absurd rfl hq
    | _ => rfl

/-- Composing is associative, whatever the ANDs on either side hold. -/
theorem conj_assoc (p q r : Predicate) : (p.conj q).conj r = p.conj (q.conj r) := by
  by_cases hp : p = .always
  · rw [hp, always_conj, always_conj]
  by_cases hq : q = .always
  · rw [hq, conj_always, always_conj]
  by_cases hr : r = .always
  · rw [hr, conj_always, conj_always]
  -- An AND without parts is still no trivial predicate, so both sides are ANDs from here on.
  have hand : ∀ ps, Predicate.and ps ≠ .always := fun _ => nofun
  rw [conj_eq_and hp hq, conj_eq_and hq hr, conj_eq_and (hand _) hr, conj_eq_and hp (hand _),
    conjuncts, conjuncts, List.append_assoc]

/-- Composing onto a predicate composes with the conjunction of the rest. -/
theorem foldl_conj (p : Predicate) (ps : List Predicate) : ps.foldl conj p = p.conj (all ps) := by
  induction ps generalizing p with
  | nil => exact (conj_always p).symm
  | cons q ps ih =>
    have hall : all (q :: ps) = q.conj (all ps) := ih q
    rw [List.foldl_cons, ih, hall, conj_assoc]

/-- The conjunction of a list is that of its two halves. -/
theorem all_append (ps qs : List Predicate) : all (ps ++ qs) = (all ps).conj (all qs) := by
  rw [all, List.foldl_append, foldl_conj, ← all]

/-- **Composition is a monoid that evaluation respects.** The predicate that always holds is
neutral on both sides and composing is associative, on all trees alike, with empty and nested
ANDs in them. Conjunction takes lists one after another to compositions; a record satisfies a
composition when it satisfies both predicates and a conjunction when it satisfies every member;
and a conjunction of flat predicates is flat. -/
theorem conj_monoid (p q r : Predicate) (ps qs : List Predicate) :
    Predicate.always.conj p = p ∧ p.conj .always = p ∧
    (p.conj q).conj r = p.conj (q.conj r) ∧
    (∀ row, (p.conj q).evaluate row ↔ p.evaluate row ∧ q.evaluate row) ∧
    all (ps ++ qs) = (all ps).conj (all qs) ∧
    (∀ row, (all ps).evaluate row ↔ ∀ p ∈ ps, p.evaluate row) ∧
    ((∀ p ∈ ps, p.isFlat) → (all ps).isFlat) := by
  refine ⟨always_conj p, conj_always p, conj_assoc p q r, fun row => ?_, all_append ps qs,
    fun row => ?_, isFlat_all⟩
  · rw [evaluate_conj, Bool.and_eq_true]
  · rw [evaluate_all, List.all_eq_true]

/-- A trivial predicate, two conditions in an AND and a third: the conjunction is one AND of
the three. An empty AND is neither dropped nor merged away where it stands alone. -/
theorem conj_monoid_three :
    let a : Predicate := .null ⟨"a", .value⟩ false
    let b : Predicate := .null ⟨"b", .value⟩ true
    let ps : List Predicate := [.always, .and [a, b], b]
    (∀ p ∈ ps, p.isFlat) ∧ (all ps).isFlat ∧ all ps = .and [a, b, b] ∧
      (Predicate.and []).conj .always = .and [] := by
  intro a b ps
  have hflat : ∀ p ∈ ps, p.isFlat := by
    intro p hp
    simp only [ps, List.mem_cons, List.not_mem_nil, or_false] at hp
    rcases hp with rfl | rfl | rfl <;> rfl
  obtain ⟨-, hempty, -, -, -, -, hall⟩ := conj_monoid (.and []) a b ps []
  exact ⟨hflat, hall hflat, rfl, hempty⟩

end GridQuery.Predicate
