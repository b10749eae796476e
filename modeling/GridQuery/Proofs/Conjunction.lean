import GridQuery.Proofs.Compilation
import GridQuery.Request

/-!
# The conjunction of rules

The predicate of a request joins the predicates of its rules. Compiling stops at the
first rule that cannot be compiled; otherwise the result is flat, its leaves are those
of the rules in their order, and a record satisfies it exactly when it satisfies every
rule on its own.
-/

namespace GridQuery

namespace Rule

/-- Why a rule cannot be compiled, if it cannot. -/
def fault? (r : Rule) (schema : Schema) (options : CompileOptions) : Option QueryError :=
  match r.compile schema options with
  | .error e => some e
  | .ok _ => none

/-- Whether a record satisfies the predicate of a rule. -/
def admits (r : Rule) (schema : Schema) (options : CompileOptions) (row : Record) : Bool :=
  match r.compile schema options with
  | .error _ => false
  | .ok p => p.evaluate row

variable {r : Rule} {schema : Schema} {options : CompileOptions}

theorem fault?_eq_some_iff {e : QueryError} :
    r.fault? schema options = some e ↔ r.compile schema options = .error e := by
  unfold fault?
  split <;> simp_all

/-- Records satisfy rules as they satisfy the predicates of the rules. -/
theorem all_admits {rules : List Rule} {ps : List Predicate}
    (h : List.Forall₂ (fun rule p => rule.compile schema options = .ok p) rules ps)
    (row : Record) :
    (rules.all fun rule => rule.admits schema options row) = ps.all fun p => p.evaluate row :=
  (all_eq_all h fun rule _ p hp => by rw [admits, hp]).symm

/-- Rules without leaves are no rules at all. -/
theorem flatMap_leaves_eq_nil_iff {rules : List Rule} {ps : List Predicate}
    (h : List.Forall₂ (fun rule p => rule.compile schema options = .ok p) rules ps) :
    ps.flatMap Predicate.leaves = [] ↔ rules = [] := by
  cases h with
  | nil => simp
  | @cons rule p rules ps hrule _ =>
    have hlength : p.leaves.length = rule.leafCount options := (leaves_of_compile hrule).2
    have hpos : 0 < rule.leafCount options := leafCount_pos rule options
    have hne : p.leaves ≠ [] := List.ne_nil_of_length_pos (by omega)
    simp [hne]

end Rule

namespace Request

variable {schema : Schema} {options : CompileOptions}

theorem conjunction_eq_mapM (soFar : Predicate) (rules : List Rule) :
    conjunction schema options soFar rules =
      (rules.mapM fun rule : Rule => rule.compile schema options).map
        fun ps => ps.foldl .conj soFar := by
  induction rules generalizing soFar with
  | nil => rfl
  | cons rule rules ih =>
    rw [conjunction, List.mapM_cons]
    cases rule.compile schema options with
    | error e => rfl
    | ok p =>
      simp only [ih]
      cases (rules.mapM fun rule : Rule => rule.compile schema options) <;> rfl

theorem expression_eq_ok_iff {r : Request} {p : Predicate} :
    r.expression schema = .ok p ↔
      ∃ ps, List.Forall₂ (fun rule q => rule.compile schema r.options = .ok q) r.rules ps ∧
        p = .all ps := by
  rw [expression, conjunction_eq_mapM]
  constructor
  · intro h
    cases hps : r.rules.mapM fun rule : Rule => rule.compile schema r.options with
    | error e =>
      rw [hps] at h
      cases h
    | ok ps =>
      rw [hps] at h
      cases h
      exact ⟨ps, mapM_eq_ok_iff.1 hps, rfl⟩
  · rintro ⟨ps, hps, rfl⟩
    rw [mapM_eq_ok_iff.2 hps]
    rfl

theorem expression_eq_error_iff {r : Request} {e : QueryError} :
    r.expression schema = .error e ↔
      (r.rules.findSome? fun rule => rule.fault? schema r.options) = some e := by
  have hfault : (r.rules.mapM fun rule : Rule => rule.compile schema r.options) = .error e ↔
      (r.rules.findSome? fun rule => rule.fault? schema r.options) = some e :=
    mapM_eq_error_iff fun _ _ => Rule.fault?_eq_some_iff
  rw [expression, conjunction_eq_mapM, ← hfault]
  cases r.rules.mapM fun rule : Rule => rule.compile schema r.options <;> simp [Except.map]

theorem expression_ok_iff {r : Request} :
    (∃ p, r.expression schema = .ok p) ↔
      ∀ rule ∈ r.rules, ∃ q, rule.compile schema r.options = .ok q := by
  constructor
  · rintro ⟨p, hp⟩ rule hrule
    obtain ⟨ps, hall, -⟩ := expression_eq_ok_iff.1 hp
    obtain ⟨q, -, hq⟩ := exists_of_mem_left hall hrule
    exact ⟨q, hq⟩
  · intro h
    obtain ⟨ps, hps⟩ := exists_mapM_eq_ok h
    exact ⟨.all ps, expression_eq_ok_iff.2 ⟨ps, mapM_eq_ok_iff.1 hps, rfl⟩⟩

/-- A record satisfies the conjunction when it satisfies every rule on its own. -/
theorem evaluate_expression {r : Request} {p : Predicate} (h : r.expression schema = .ok p)
    (row : Record) :
    p.evaluate row = r.rules.all fun rule => rule.admits schema r.options row := by
  obtain ⟨ps, hall, rfl⟩ := expression_eq_ok_iff.1 h
  rw [Predicate.evaluate_all, Rule.all_admits hall]

/-- **The conjunction of rules.** It exists when every rule can be compiled, and
otherwise the first rule that cannot decides the error. It is flat, it is trivial only
without rules, its leaves are those of the rules one after another, and a record
satisfies it when it satisfies every rule on its own. So the order of the rules does
not change which records match. -/
theorem expression_flat (r : Request) (schema : Schema) :
    ((∃ p, r.expression schema = .ok p) ↔
      ∀ rule ∈ r.rules, ∃ q, rule.compile schema r.options = .ok q) ∧
    (∀ e, r.expression schema = .error e ↔
      (r.rules.findSome? fun rule => rule.fault? schema r.options) = some e) ∧
    ∀ p, r.expression schema = .ok p →
      p.isFlat ∧ (p = .always ↔ r.rules = []) ∧
      (∃ qs : List Predicate,
        List.Forall₂ (fun rule q => rule.compile schema r.options = .ok q ∧
          q.leaves.length = rule.leafCount r.options) r.rules qs ∧
        p.leaves = qs.flatMap Predicate.leaves) ∧
      (∀ row, p.evaluate row = r.rules.all fun rule => rule.admits schema r.options row) ∧
      ∀ r' : Request, r'.rules.Perm r.rules → r'.options = r.options →
        ∃ p', r'.expression schema = .ok p' ∧ ∀ row, p'.evaluate row = p.evaluate row := by
  refine ⟨expression_ok_iff, fun e => expression_eq_error_iff, fun p hp => ?_⟩
  obtain ⟨qs, hall, hqs⟩ := expression_eq_ok_iff.1 hp
  have hparts : List.Forall₂ (fun rule q => rule.compile schema r.options = .ok q ∧
      q.leaves.length = rule.leafCount r.options) r.rules qs :=
    hall.imp fun _ _ hq => ⟨hq, (Rule.leaves_of_compile hq).2⟩
  have hleaves : p.leaves = qs.flatMap Predicate.leaves := by rw [hqs, Predicate.leaves_all]
  have hflat : p.isFlat := by
    rw [hqs]
    refine Predicate.isFlat_all fun q hq => ?_
    obtain ⟨rule, -, hrule⟩ := exists_of_mem_right hall hq
    exact (Rule.leaves_of_compile hrule).1
  refine ⟨hflat, ?_, ⟨qs, hparts, hleaves⟩, evaluate_expression hp, ?_⟩
  · rw [Predicate.eq_always_iff_leaves hflat, hleaves, Rule.flatMap_leaves_eq_nil_iff hall]
  · intro r' hperm hoptions
    obtain ⟨p', hp'⟩ : ∃ p', r'.expression schema = .ok p' := by
      refine expression_ok_iff.2 fun rule hrule => ?_
      rw [hoptions]
      exact expression_ok_iff.1 ⟨p, hp⟩ rule (hperm.mem_iff.1 hrule)
    refine ⟨p', hp', fun row => ?_⟩
    rw [evaluate_expression hp', evaluate_expression hp, hoptions]
    exact hperm.all_eq

end Request

end GridQuery
