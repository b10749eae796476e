import GridQuery.Proofs.Coercion
import GridQuery.Proofs.Composition
import GridQuery.Proofs.Resolution
import GridQuery.Proofs.Truncation
import GridQuery.Rule
import Mathlib.Data.List.Forall2

/-!
# The predicate of a condition

What compilation makes of a condition on a column. The condition looks at certain
parts of the field (`Condition.accesses`): one part, or date, hour and minute. On each
of them its operator becomes one leaf, whose operand is the same part of the coerced
value; together the leaves are the predicate (`Condition.compile_eq_conditions`,
`Condition.of_compile`).

So compilation of an operator that the column accepts fails only when the value is
missing or does not coerce (`Condition.exists_compile`, `Condition.operandValue_error`).
A rule that compares one part of its column with a value of the kind becomes a single
comparison (`Rule.exists_compile_comparison`).
-/

namespace GridQuery

/-! ## Lists of results -/

section Results

variable {α β ε : Type} {f : α → Except ε β}

/-- All results are there when the list of results is. -/
theorem mapM_eq_ok_iff {xs : List α} {ys : List β} :
    xs.mapM f = .ok ys ↔ List.Forall₂ (fun x y => f x = .ok y) xs ys := by
  induction xs generalizing ys with
  | nil => cases ys <;> simp [pure, Except.pure]
  | cons x xs ih =>
    rw [List.mapM_cons, List.forall₂_cons_left_iff]
    cases hx : f x with
    | error e => simp [bind, Except.bind]
    | ok y =>
      cases hxs : xs.mapM f with
      | error e => simp [bind, Except.bind, ← ih, hxs]
      | ok zs => simp [bind, Except.bind, pure, Except.pure, ← ih, hxs, eq_comm]

theorem exists_mapM_eq_ok {xs : List α} (h : ∀ x ∈ xs, ∃ y, f x = .ok y) :
    ∃ ys, xs.mapM f = .ok ys := by
  induction xs with
  | nil => exact ⟨[], rfl⟩
  | cons x xs ih =>
    obtain ⟨y, hy⟩ := h x (by simp)
    obtain ⟨ys, hys⟩ := ih fun z hz => h z (by simp [hz])
    exact ⟨y :: ys, mapM_eq_ok_iff.2 (.cons hy (mapM_eq_ok_iff.1 hys))⟩

theorem exists_of_mem_left {R : α → β → Prop} {xs : List α} {ys : List β}
    (h : List.Forall₂ R xs ys) {x : α} (hx : x ∈ xs) : ∃ y ∈ ys, R x y := by
  induction h with
  | nil => simp at hx
  | cons hxy _ ih =>
    rcases List.mem_cons.1 hx with rfl | hx
    · exact ⟨_, by simp, hxy⟩
    · obtain ⟨y, hy, hxy⟩ := ih hx
      exact ⟨y, by simp [hy], hxy⟩

theorem exists_of_mem_right {R : α → β → Prop} {xs : List α} {ys : List β}
    (h : List.Forall₂ R xs ys) {y : β} (hy : y ∈ ys) : ∃ x ∈ xs, R x y :=
  exists_of_mem_left h.flip hy

/-- Related lists pass tests alike when related elements do. -/
theorem all_eq_all {R : α → β → Prop} {xs : List α} {ys : List β} (h : List.Forall₂ R xs ys)
    {s : α → Bool} {t : β → Bool} (hst : ∀ x ∈ xs, ∀ y, R x y → t y = s x) :
    ys.all t = xs.all s := by
  induction h with
  | nil => rfl
  | @cons x y xs ys hxy _ ih =>
    have hhead : t y = s x := hst x (by simp) y hxy
    have htail : ys.all t = xs.all s := ih fun z hz => hst z (by simp [hz])
    rw [List.all_cons, List.all_cons, hhead, htail]

/-- The first failure in the list decides the error. -/
theorem mapM_eq_error_iff {fault : α → Option ε} (hfault : ∀ x e, fault x = some e ↔ f x = .error e)
    {xs : List α} {e : ε} : xs.mapM f = .error e ↔ xs.findSome? fault = some e := by
  induction xs with
  | nil => simp [pure, Except.pure]
  | cons x xs ih =>
    rw [List.mapM_cons, List.findSome?_cons]
    cases hx : f x with
    | error e' => simp [(hfault x e').2 hx, bind, Except.bind]
    | ok y =>
      have hnone : fault x = none := Option.eq_none_iff_forall_ne_some.2 fun e' he' => by
        rw [hfault, hx] at he'
        cases he'
      rw [hnone, ← ih]
      cases xs.mapM f <;> simp [bind, Except.bind, pure, Except.pure]

end Results

/-! ## Operators -/

namespace Operator

/-- The comparison that an operator makes, if it is one of the six. -/
def comparison? : Operator → Option Comparison
  | .equals => some .equal
  | .notEquals => some .notEqual
  | .greaterThan => some .greater
  | .greaterThanOrEquals => some .greaterOrEqual
  | .lessThan => some .less
  | .lessThanOrEquals => some .lessOrEqual
  | .contains | .notContains | .startsWith | .endsWith | .isNull | .isNotNull => none

theorem needsValue_of_comparison? {op : Operator} {c : Comparison} (h : op.comparison? = some c) :
    op.needsValue := by
  cases op <;> simp_all [comparison?, needsValue]

theorem compile_of_comparison? {op : Operator} {c : Comparison} (h : op.comparison? = some c)
    (field : FieldRef) (operand : Operand) :
    op.compile field (some operand) = .ok (.compare field c operand) := by
  cases op <;> cases h <;> rfl

/-- An operator becomes a single condition. -/
theorem isLeaf_of_compile {op : Operator} {field : FieldRef} {operand : Option Operand}
    {p : Predicate} (h : op.compile field operand = .ok p) : p.isLeaf := by
  unfold compile compileCompare compileLike at h
  split at h <;> (try split at h) <;> cases h <;> rfl

/-- An operator that accepts a kind can be applied to operands of that kind. -/
theorem exists_compile {op : Operator} {k : Kind} (hop : op.acceptsKind k) (field : FieldRef)
    {operand : Operand} (htext : k = .text → ∃ s, operand = .text s) :
    ∃ p, op.compile field (some operand) = .ok p := by
  by_cases hk : k = .text
  · obtain ⟨s, rfl⟩ := htext hk
    cases op <;> exact ⟨_, rfl⟩
  · have hcategory : k.category ≠ .text := by cases k <;> simp_all [Kind.category]
    cases op <;> first | exact ⟨_, rfl⟩ | simp_all [acceptsKind, acceptsCategory]

theorem exists_compile_of_nullTest {op : Operator} (hop : op.needsValue = false)
    (field : FieldRef) (operand : Option Operand) : ∃ p, op.compile field operand = .ok p := by
  cases op <;> simp_all [needsValue, compile]

/-- Whether null is admitted makes no difference to an operator. -/
theorem acceptsColumn_eq (op : Operator) (k : Kind) (nullable : Bool) :
    op.acceptsColumn k nullable = op.acceptsKind k := by
  simp [acceptsColumn, acceptsRequired]

/-- The conditions that an operator makes on several parts of a field. -/
def conditions (op : Operator) (path : String) (operand : Access → Option Operand)
    (accesses : List Access) : Except QueryError (List Predicate) :=
  accesses.mapM fun a => op.compile ⟨path, a⟩ (operand a)

theorem conditions_one (op : Operator) (path : String) (operand : Access → Option Operand)
    (a : Access) :
    (op.conditions path operand [a]).map Predicate.ofLeaves = op.compile ⟨path, a⟩ (operand a) := by
  rw [conditions, List.mapM_cons, List.mapM_nil]
  cases op.compile ⟨path, a⟩ (operand a) <;> rfl

theorem conditions_three (op : Operator) (path : String) (operand : Access → Option Operand)
    (a b d : Access) :
    (op.conditions path operand [a, b, d]).map Predicate.ofLeaves = (do
      let p ← op.compile ⟨path, a⟩ (operand a)
      let q ← op.compile ⟨path, b⟩ (operand b)
      let r ← op.compile ⟨path, d⟩ (operand d)
      .ok (Predicate.and [p, q, r])) := by
  simp only [conditions, List.mapM_cons, List.mapM_nil]
  cases op.compile ⟨path, a⟩ (operand a) with
  | error e => rfl
  | ok p =>
    cases op.compile ⟨path, b⟩ (operand b) with
    | error e => rfl
    | ok q => cases op.compile ⟨path, d⟩ (operand d) <;> rfl

/-- The conditions depend on the operands at the parts of the field only. -/
theorem conditions_congr {op : Operator} {path : String} {operand operand' : Access → Option Operand}
    {accesses : List Access} (h : ∀ a ∈ accesses, operand a = operand' a) :
    op.conditions path operand accesses = op.conditions path operand' accesses := by
  unfold conditions
  induction accesses with
  | nil => rfl
  | cons a accesses ih =>
    rw [List.mapM_cons, List.mapM_cons, h a List.mem_cons_self,
      ih fun b hb => h b (List.mem_cons_of_mem _ hb)]

theorem isLeaf_of_conditions {op : Operator} {path : String} {operand : Access → Option Operand}
    {accesses : List Access} {ps : List Predicate}
    (h : op.conditions path operand accesses = .ok ps) : ∀ p ∈ ps, p.isLeaf := by
  intro p hp
  obtain ⟨a, -, ha⟩ := exists_of_mem_right (mapM_eq_ok_iff.1 h) hp
  exact isLeaf_of_compile ha

end Operator

/-! ## Conditions -/

namespace Condition

/-- The parts of its field that a condition looks at. -/
def accesses (c : Condition) (options : CompileOptions) : List Access :=
  match c.kind with
  | .dateTime =>
      match c.granularity with
      | .date => [.date]
      | .second => [.value]
      | .minute =>
          match options.minuteSplit with
          | .truncated => [.wholeMinute]
          | .componentWise => [.date, .hour, .minute]
  | k => [compile.fieldAccess k]

variable {c : Condition} {options : CompileOptions}

/-- Every part that a condition looks at is there in a value of the kind. -/
theorem exists_project {w : Value} (hw : w.matchesKind c.kind) {a : Access}
    (ha : a ∈ c.accesses options) :
    ∃ operand, FieldRef.project ⟨c.path, a⟩ w = some operand ∧
      (c.kind = .text → ∃ s, operand = .text s) := by
  unfold accesses at ha
  split at ha
  · rename_i hk
    rw [hk] at hw ⊢
    obtain ⟨i, rfl⟩ := Value.eq_instant_of_matchesKind hw
    have haccess : a = .date ∨ a = .value ∨ a = .wholeMinute ∨ a = .hour ∨ a = .minute := by
      split at ha <;> (try split at ha) <;> simp at ha <;> grind
    rcases haccess with rfl | rfl | rfl | rfl | rfl
    case inr.inr.inl => exact ⟨_, FieldRef.project_wholeMinute c.path (.instant i), nofun⟩
    all_goals exact ⟨_, rfl, nofun⟩
  · rw [List.mem_singleton] at ha
    subst ha
    cases hk : c.kind with
    | enumeration e =>
      rw [hk] at hw
      obtain ⟨name, n, rfl, hn⟩ := Value.eq_member_of_matchesKind hw
      exact ⟨.int n, by simp [compile.fieldAccess, FieldRef.project, hn], nofun⟩
    | text =>
      rw [hk] at hw
      obtain ⟨s, rfl⟩ := Value.eq_text_of_matchesKind hw
      exact ⟨.text s, rfl, fun _ => ⟨s, rfl⟩⟩
    | _ => exact ⟨_, rfl, nofun⟩

/-! ### The coerced value -/

/-- The part of the value that is the operand for a part of the field. -/
def operandAt (c : Condition) (w : Option Value) (a : Access) : Option Operand :=
  w.bind (FieldRef.project ⟨c.path, a⟩)

/-- A value of the kind is the operand as it is. -/
theorem operandValue_of_matchesKind {v : Value} (hneeds : c.operator.needsValue)
    (hv : c.value = some v) (hkind : v.matchesKind c.kind) : c.operandValue = .ok (some v) := by
  simp [operandValue, hneeds, hv, Value.coerce_of_matchesKind hkind]

theorem operandValue_of_nullTest (h : ¬ c.operator.needsValue) : c.operandValue = .ok none := by
  simp [operandValue, h]

theorem needsValue_of_operandValue {w : Value} (hw : c.operandValue = .ok (some w)) :
    c.operator.needsValue ∧ ∃ v, c.value = some v ∧ v.coerce c.kind = .ok w := by
  unfold operandValue at hw
  split at hw
  · rename_i hneeds
    refine ⟨hneeds, ?_⟩
    split at hw
    · cases hw
    · rename_i v hv
      split at hw
      · cases hw
      · rename_i w' hw'
        cases hw
        exact ⟨v, hv, hw'⟩
  · cases hw

theorem matchesKind_of_operandValue {w : Value} (hw : c.operandValue = .ok (some w)) :
    w.matchesKind c.kind := by
  obtain ⟨-, v, -, hv⟩ := needsValue_of_operandValue hw
  exact Value.coerce_matchesKind hv

theorem nullTest_of_operandValue (hw : c.operandValue = .ok none) :
    c.operator.needsValue = false := by
  unfold operandValue at hw
  split at hw
  · split at hw
    · cases hw
    · split at hw <;> cases hw
  · rename_i hneeds
    simpa using hneeds

/-- What keeps a condition from having an operand: an operator that needs a value,
and a value that is missing or does not coerce. -/
theorem operandValue_error {e : QueryError} (he : c.operandValue = .error e) :
    e.code = .invalidValue ∧ c.operator.needsValue ∧
      ∀ v, c.value = some v → ∃ reason, v.coerce c.kind = .error reason := by
  unfold operandValue at he
  split at he
  · rename_i hneeds
    split at he
    · rename_i hv
      cases he
      exact ⟨rfl, hneeds, by simp [hv]⟩
    · rename_i v hv
      split at he
      · rename_i reason hreason
        cases he
        refine ⟨rfl, hneeds, fun v' hv' => ⟨reason, ?_⟩⟩
        rw [hv, Option.some.injEq] at hv'
        exact hv' ▸ hreason
      · cases he
  · cases he

/-! ### The predicate -/

/-- An instant can always be cut down to the minute, so its operand is never missing. -/
theorem truncatedOperand_eq (i : Instant) : truncatedOperand i = .ok (.instant i.wholeMinute) := by
  rw [truncatedOperand, i.wholeMinute?_eq]

theorem mapM_truncatedOperand (i : Option Instant) :
    i.mapM truncatedOperand = .ok (i.map fun i => .instant i.wholeMinute) := by
  cases i with
  | none => rfl
  | some i => simp only [Option.mapM_some, truncatedOperand_eq]; rfl

theorem operandAt_wholeMinute (i : Option Instant) :
    c.operandAt (i.map Value.instant) .wholeMinute = i.map fun i => .instant i.wholeMinute := by
  cases i with
  | none => rfl
  | some i => exact FieldRef.project_wholeMinute c.path (.instant i)

theorem compileInstant_eq (hk : c.kind = .dateTime) (i : Option Instant) :
    c.compileInstant options i =
      (c.operator.conditions c.path (c.operandAt (i.map Value.instant))
        (c.accesses options)).map .ofLeaves := by
  unfold compileInstant accesses
  rw [hk]
  simp only
  cases c.granularity with
  | date =>
    rw [Operator.conditions_one]
    cases i <;> rfl
  | second =>
    rw [Operator.conditions_one]
    cases i <;> rfl
  | minute =>
    cases options.minuteSplit with
    | truncated =>
      rw [Operator.conditions_one, mapM_truncatedOperand, operandAt_wholeMinute]
      rfl
    | componentWise =>
      rw [Operator.conditions_three]
      cases i <;> rfl

/-- The predicate of a condition: its operator on each part of the field that the
condition looks at, against the same part of the coerced value. -/
theorem compile_eq_conditions (hop : c.operator.acceptsColumn c.kind c.nullable)
    {w : Option Value} (hw : c.operandValue = .ok w) :
    c.compile options =
      (c.operator.conditions c.path (c.operandAt w) (c.accesses options)).map .ofLeaves := by
  unfold compile
  rw [hop, hw]
  simp only [Bool.not_true, Bool.false_eq_true, if_false]
  cases w with
  | none =>
    cases hk : c.kind with
    | dateTime => exact compileInstant_eq hk none
    | _ =>
      rw [accesses, hk, Operator.conditions_one]
      rfl
  | some w =>
    have hkind := matchesKind_of_operandValue hw
    cases hk : c.kind with
    | dateTime =>
      obtain ⟨i, rfl⟩ := Value.eq_instant_of_matchesKind (hk ▸ hkind)
      exact compileInstant_eq hk (some i)
    | enumeration e =>
      obtain ⟨name, n, rfl, hn⟩ := Value.eq_member_of_matchesKind (hk ▸ hkind)
      rw [accesses, hk, Operator.conditions_one]
      simp [operandOf, hn, operandAt, FieldRef.project, compile.fieldAccess]
    | _ =>
      rw [accesses, hk, Operator.conditions_one]
      rfl

/-- Nothing but its value keeps a condition from being compiled. -/
theorem exists_compile (hop : c.operator.acceptsColumn c.kind c.nullable) {w : Option Value}
    (hw : c.operandValue = .ok w) : ∃ p, c.compile options = .ok p := by
  obtain ⟨ps, hps⟩ : ∃ ps, c.operator.conditions c.path (c.operandAt w) (c.accesses options) =
      .ok ps := by
    refine exists_mapM_eq_ok fun a ha => ?_
    cases w with
    | none => exact Operator.exists_compile_of_nullTest (nullTest_of_operandValue hw) _ _
    | some w =>
      obtain ⟨operand, hoperand, htext⟩ := exists_project (matchesKind_of_operandValue hw) ha
      have hkind : c.operator.acceptsKind c.kind := (Bool.and_eq_true_iff.1 hop).1
      rw [show c.operandAt (some w) a = some operand from hoperand]
      exact Operator.exists_compile hkind _ htext
  exact ⟨.ofLeaves ps, by rw [compile_eq_conditions hop hw, hps]; rfl⟩

/-- What a compiled condition says about the condition and about the predicate. -/
theorem of_compile {p : Predicate} (h : c.compile options = .ok p) :
    ∃ w ps, c.operandValue = .ok w ∧
      List.Forall₂ (fun a q => c.operator.compile ⟨c.path, a⟩ (c.operandAt w a) = .ok q)
        (c.accesses options) ps ∧
      (∀ q ∈ ps, q.isLeaf) ∧ p = .ofLeaves ps := by
  have hop : c.operator.acceptsColumn c.kind c.nullable := by
    by_contra hop
    unfold compile at h
    rw [if_pos (by simpa using hop)] at h
    cases h
  cases hw : c.operandValue with
  | error e =>
    unfold compile at h
    rw [hop, hw] at h
    cases h
  | ok w =>
    rw [compile_eq_conditions hop hw] at h
    cases hps : c.operator.conditions c.path (c.operandAt w) (c.accesses options) with
    | error e =>
      rw [hps] at h
      cases h
    | ok ps =>
      rw [hps] at h
      cases h
      exact ⟨w, ps, rfl, mapM_eq_ok_iff.1 hps, Operator.isLeaf_of_conditions hps, rfl⟩

/-- A compiled condition is flat, with one leaf for each part of the field. -/
theorem leaves_of_compile {p : Predicate} (h : c.compile options = .ok p) :
    p.isFlat ∧ p.leaves.length = (c.accesses options).length := by
  obtain ⟨w, ps, -, hall, hleaf, rfl⟩ := of_compile h
  rw [Predicate.leaves_ofLeaves hleaf]
  exact ⟨Predicate.isFlat_ofLeaves hleaf, hall.length_eq.symm⟩

end Condition

/-! ## Rules -/

namespace Rule

variable {r : Rule} {schema : Schema} {options : CompileOptions}

theorem compile_of_resolve_error {e : SchemaError} (h : schema.resolve r.column.path = .error e) :
    r.compile schema options = .error (.ofSchemaError e) := by
  rw [compile, h]

theorem compile_of_resolve_ok {f : ResolvedField} (h : schema.resolve r.column.path = .ok f) :
    r.compile schema options = (r.condition options).compile options := by
  rw [compile, h]

theorem condition_of_compile {p : Predicate} (h : r.compile schema options = .ok p) :
    (r.condition options).compile options = .ok p := by
  unfold compile at h
  split at h
  · cases h
  · exact h

/-- The number of single conditions that a rule consists of: an instant compared by
the minute part by part makes three, and everything else one. -/
def leafCount (r : Rule) (options : CompileOptions) : Nat :=
  if r.kind = .dateTime ∧ r.granularity options = .minute ∧
      options.minuteSplit = .componentWise then 3
  else 1

theorem length_accesses (r : Rule) (options : CompileOptions) :
    ((r.condition options).accesses options).length = r.leafCount options := by
  unfold Condition.accesses leafCount condition
  cases r.kind with
  | dateTime =>
    cases hg : r.granularity options with
    | minute => cases options.minuteSplit <;> simp
    | _ => simp
  | _ => simp

theorem leafCount_pos (r : Rule) (options : CompileOptions) : 0 < r.leafCount options := by
  unfold leafCount
  split <;> decide

/-- The predicate of a rule is flat and has one or three leaves. -/
theorem leaves_of_compile {p : Predicate} (h : r.compile schema options = .ok p) :
    p.isFlat ∧ p.leaves.length = r.leafCount options := by
  rw [← length_accesses]
  exact Condition.leaves_of_compile (condition_of_compile h)

/-- A rule that looks at one part of its column, instants to the second, and compares it with a
value of the kind becomes one comparison of this part. -/
theorem exists_compile_comparison {f : ResolvedField} (hpath : schema.resolve r.column.path = .ok f)
    (hsecond : r.kind = .dateTime → r.granularity options = .second)
    (hop : r.operator.acceptsKind r.kind) {c : Comparison} (hc : r.operator.comparison? = some c)
    {v : Value} (hvalue : r.value = some v) (hv : v.matchesKind r.kind) :
    ∃ b, FieldRef.project ⟨r.column.path, Condition.compile.fieldAccess r.kind⟩ v = some b ∧
      r.compile schema options =
        .ok (.compare ⟨r.column.path, Condition.compile.fieldAccess r.kind⟩ c b) := by
  have haccesses : (r.condition options).accesses options =
      [Condition.compile.fieldAccess r.kind] := by
    unfold Condition.accesses
    split
    · rename_i hkind
      have hgranularity : (r.condition options).granularity = .second := hsecond hkind
      rw [hgranularity, show r.kind = .dateTime from hkind]
      rfl
    · rfl
  have hoperand : (r.condition options).operandValue = .ok (some v) :=
    Condition.operandValue_of_matchesKind (Operator.needsValue_of_comparison? hc) hvalue hv
  have haccepts : r.operator.acceptsColumn r.kind r.nullable :=
    (Operator.acceptsColumn_eq _ _ _).trans hop
  obtain ⟨b, hb, -⟩ := Condition.exists_project (c := r.condition options) hv
    (haccesses ▸ List.mem_singleton_self _)
  have hoperandAt : (r.condition options).operandAt (some v)
      (Condition.compile.fieldAccess r.kind) = some b := hb
  refine ⟨b, hb, ?_⟩
  rw [compile_of_resolve_ok hpath, Condition.compile_eq_conditions haccepts hoperand, haccesses,
    Operator.conditions_one, hoperandAt]
  exact Operator.compile_of_comparison? hc _ _

end Rule

end GridQuery
