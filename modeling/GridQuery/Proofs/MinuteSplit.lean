import GridQuery.Proofs.Editing
import GridQuery.Proofs.Meaning

/-!
# The two readings of a minute

A condition on an instant to the minute can be read in two ways: date, hour and minute are
compared each on its own, or the two instants are cut down to the minute and compared as a
whole. The second reading looks at the parts from left to right, so what the parts have in
common the whole has too, and not the other way around: `10:40` is before `11:20` although
its minute is not.

## Main results

* `Comparison.relates_wholeMinute` — parts that are related make related minutes.
* `Rule.componentWise_narrows` — the reading part by part matches no record that the
  reading as a whole does not match, and it loses none for equality and null tests.
-/

namespace GridQuery

/-! ## Instants cut down to the minute -/

namespace Instant

variable {i j : Instant}

theorem wholeMinute_eq_iff : i.wholeMinute = j.wholeMinute ↔
    i.date = j.date ∧ i.time.hour = j.time.hour ∧ i.time.minute = j.time.minute := by
  constructor
  · intro h
    exact ⟨congrArg (·.date) h, congrArg (·.time.hour) h, congrArg (·.time.minute) h⟩
  · rintro ⟨hdate, hhour, hminute⟩
    simp only [wholeMinute, TimeOfDay.wholeMinute, hdate, hhour, hminute]

/-- Minutes come one after the other by date, hour and minute. -/
theorem wholeMinute_lt_iff : i.wholeMinute < j.wholeMinute ↔
    i.date < j.date ∨ i.date = j.date ∧
      (i.time.hour < j.time.hour ∨ i.time.hour = j.time.hour ∧ i.time.minute < j.time.minute) := by
  simp [lt_iff, TimeOfDay.lt_iff, wholeMinute, TimeOfDay.wholeMinute]

theorem wholeMinute_lt (hdate : i.date < j.date) : i.wholeMinute < j.wholeMinute :=
  wholeMinute_lt_iff.2 (.inl hdate)

theorem wholeMinute_le (hdate : i.date ≤ j.date) (hhour : i.time.hour ≤ j.time.hour)
    (hminute : i.time.minute ≤ j.time.minute) : i.wholeMinute ≤ j.wholeMinute := by
  rw [← not_lt, wholeMinute_lt_iff]
  rintro (hlt | ⟨-, hlt | ⟨-, hlt⟩⟩)
  · exact absurd hlt (not_lt.2 hdate)
  · omega
  · omega

end Instant

namespace Comparison

variable {c : Comparison} {i j : Instant}

/-- **Parts that are related make related minutes.** -/
theorem relates_wholeMinute (hdate : c.Relates i.date j.date)
    (hhour : c.Relates i.time.hour j.time.hour)
    (hminute : c.Relates i.time.minute j.time.minute) :
    c.Relates i.wholeMinute j.wholeMinute := by
  cases c with
  | equal => exact Instant.wholeMinute_eq_iff.2 ⟨hdate, hhour, hminute⟩
  | notEqual => exact fun h => hdate (Instant.wholeMinute_eq_iff.1 h).1
  | greater => exact Instant.wholeMinute_lt hdate
  | greaterOrEqual => exact Instant.wholeMinute_le hdate hhour hminute
  | less => exact Instant.wholeMinute_lt hdate
  | lessOrEqual => exact Instant.wholeMinute_le hdate hhour hminute

theorem relates_of_wholeMinute_equal (h : Relates .equal i.wholeMinute j.wholeMinute) :
    Relates .equal i.date j.date ∧ Relates .equal i.time.hour j.time.hour ∧
      Relates .equal i.time.minute j.time.minute :=
  Instant.wholeMinute_eq_iff.1 h

end Comparison

/-! ## Cells without an instant -/

namespace Operator

variable {op : Operator} {field : FieldRef} {operand : Option Operand} {p : Predicate}
  {row : Record}

/-- An operator on instants compares or tests for null. -/
theorem comparison_or_nullTest (h : op.acceptsKind .dateTime) :
    (∃ c, op.comparison? = some c) ∨ op.needsValue = false := by
  cases op <;> simp_all [acceptsKind, acceptsCategory, Kind.category, comparison?, needsValue]

/-- Where the record has a nested record, inequality and the test for something match. -/
theorem evaluate_record (h : op.compile field operand = .ok p)
    {fields : List (String × Cell)} (hrecord : row.lookup field.segments = .record fields) :
    p.evaluate row = (op == .notEquals || op == .isNotNull) := by
  unfold compile compileCompare compileLike at h
  split at h <;> (try split at h) <;> cases h <;>
    simp [Predicate.evaluate, Predicate.evalCompare, Predicate.evalLike, Predicate.evalNull,
      hrecord] <;> decide

/-- A value that has no such part is different from everything. -/
theorem evaluate_of_project_none (h : op.compile field operand = .ok p)
    {c : Comparison} (hc : op.comparison? = some c) {x : Value}
    (hx : row.lookup field.segments = .scalar x) (hnone : field.project x = none) :
    p.evaluate row = (op == .notEquals) := by
  cases operand with
  | none => cases op <;> cases hc <;> cases h
  | some b =>
    rw [compile_of_comparison? hc] at h
    cases h
    simp only [Predicate.evaluate, Predicate.evalCompare, hx, hnone, Option.bind_none]
    cases op <;> cases hc <;> rfl

end Operator

namespace Condition

variable {c : Condition} {options : CompileOptions} {p : Predicate} {row : Record}

theorem evaluate_record (h : c.compile options = .ok p) {fields : List (String × Cell)}
    (hrecord : row.lookup (pathSegments c.path) = .record fields) :
    p.evaluate row ↔ c.operator = .notEquals ∨ c.operator = .isNotNull := by
  obtain ⟨w, -, htest⟩ := evaluate_of_compile h
  rw [htest row (fun _ => c.operator == .notEquals || c.operator == .isNotNull)
    fun a _ q hq => Operator.evaluate_record hq hrecord, all_accesses_const]
  simp

/-- The parts of an instant that a condition to the minute looks at are missing from
everything that is no instant. -/
theorem project_eq_none (hk : c.kind = .dateTime) (hg : c.granularity = .minute) {x : Value}
    (hnone : FieldRef.instant? x = none) {a : Access} (ha : a ∈ c.accesses options) :
    FieldRef.project ⟨c.path, a⟩ x = none := by
  unfold accesses at ha
  rw [hk, hg] at ha
  cases hsplit : options.minuteSplit with
  | truncated =>
    rw [hsplit] at ha
    obtain rfl : a = .wholeMinute := List.mem_singleton.1 ha
    rw [FieldRef.project, hnone]
    rfl
  | componentWise =>
    rw [hsplit] at ha
    simp only [List.mem_cons, List.not_mem_nil, or_false] at ha
    rcases ha with rfl | rfl | rfl <;> rw [FieldRef.project, hnone] <;> rfl

/-- A value that is no instant is different from every instant. -/
theorem evaluate_of_instant?_none (h : c.compile options = .ok p) (hk : c.kind = .dateTime)
    (hg : c.granularity = .minute) {op : Comparison} (hop : c.operator.comparison? = some op)
    {x : Value} (hx : row.lookup (pathSegments c.path) = .scalar x)
    (hnone : FieldRef.instant? x = none) : p.evaluate row ↔ c.operator = .notEquals := by
  obtain ⟨w, -, htest⟩ := evaluate_of_compile h
  rw [htest row (fun _ => c.operator == .notEquals) fun a ha q hq =>
    Operator.evaluate_of_project_none hq hop hx (project_eq_none hk hg hnone ha),
    all_accesses_const]
  simp

/-! ## Both readings of one condition -/

section Readings

variable {componentWise truncated : CompileOptions} {i : Instant} {p q : Predicate}

/-- What both readings say about a cell that holds an instant. -/
theorem evaluate_instant (hc : componentWise.minuteSplit = .componentWise)
    (ht : truncated.minuteSplit = .truncated) (hk : c.kind = .dateTime)
    (hg : c.granularity = .minute) (hv : c.value = some (.instant i))
    (hp : c.compile componentWise = .ok p) (hq : c.compile truncated = .ok q)
    {op : Comparison} (hop : c.operator.comparison? = some op) {x : Value}
    (hx : row.lookup (pathSegments c.path) = .scalar x) {j : Instant}
    (hj : FieldRef.instant? x = some j) :
    (p.evaluate row ↔ op.Relates j.date i.date ∧ op.Relates j.time.hour i.time.hour ∧
      op.Relates j.time.minute i.time.minute) ∧
    (q.evaluate row ↔ op.Relates j.wholeMinute i.wholeMinute) := by
  have hm : x.meaning? c.kind = some (.instant j) := by
    rw [hk, Value.meaning?_dateTime, hj]
    rfl
  have hvalue : ∀ v w n, c.value = some v → v.coerce c.kind = .ok w → w.meaning? c.kind = some n →
      n = .instant i := by
    intro v w n hv' hw hn
    rw [hv] at hv'
    cases hv'
    rw [hk] at hw hn
    cases hw
    cases hn
    rfl
  constructor
  · obtain ⟨v, w, n, hv', hw, hn, h⟩ := evaluate_comparison hp hop hx hm
    rw [h, hvalue v w n hv' hw hn, hg, hc]
    rfl
  · obtain ⟨v, w, n, hv', hw, hn, h⟩ := evaluate_comparison hq hop hx hm
    rw [h, hvalue v w n hv' hw hn, hg, ht]
    rfl

/-- The reading part by part says no more than the reading as a whole, and for equality and
null tests they say the same. -/
theorem evaluate_readings (hc : componentWise.minuteSplit = .componentWise)
    (ht : truncated.minuteSplit = .truncated) (hk : c.kind = .dateTime)
    (hg : c.granularity = .minute) (hv : c.value = some (.instant i))
    (haccepts : c.operator.acceptsKind .dateTime)
    (hp : c.compile componentWise = .ok p) (hq : c.compile truncated = .ok q) (row : Record) :
    (p.evaluate row → q.evaluate row) ∧
    (c.operator ∈ [.equals, .isNull, .isNotNull] → (p.evaluate row ↔ q.evaluate row)) := by
  have hsame : (p.evaluate row ↔ q.evaluate row) → (p.evaluate row → q.evaluate row) ∧
      (c.operator ∈ [.equals, .isNull, .isNotNull] → (p.evaluate row ↔ q.evaluate row)) :=
    fun h => ⟨h.1, fun _ => h⟩
  cases hcell : row.lookup (pathSegments c.path) with
  | null => exact hsame ((evaluate_null hp hcell).trans (evaluate_null hq hcell).symm)
  | record fields => exact hsame ((evaluate_record hp hcell).trans (evaluate_record hq hcell).symm)
  | scalar x =>
    obtain ⟨op, hop⟩ | hnullTest := Operator.comparison_or_nullTest haccepts
    · cases hj : FieldRef.instant? x with
      | none =>
        exact hsame ((evaluate_of_instant?_none hp hk hg hop hcell hj).trans
          (evaluate_of_instant?_none hq hk hg hop hcell hj).symm)
      | some j =>
        obtain ⟨hparts, hwhole⟩ := evaluate_instant hc ht hk hg hv hp hq hop hcell hj
        rw [hparts, hwhole]
        refine ⟨fun ⟨hdate, hhour, hminute⟩ => Comparison.relates_wholeMinute hdate hhour hminute,
          fun hmem => ⟨fun ⟨hdate, hhour, hminute⟩ =>
            Comparison.relates_wholeMinute hdate hhour hminute, fun h => ?_⟩⟩
        -- Among the three operators only equality compares.
        obtain rfl : op = .equal := by
          simp only [List.mem_cons, List.not_mem_nil, or_false] at hmem
          rcases hmem with hequals | hnull | hnotNull
          · rw [hequals] at hop
            exact (Option.some.inj hop).symm
          · rw [hnull] at hop
            cases hop
          · rw [hnotNull] at hop
            cases hop
        exact Comparison.relates_of_wholeMinute_equal h
    · exact hsame ((evaluate_nullTest hp hnullTest hcell).trans
        (evaluate_nullTest hq hnullTest hcell).symm)

end Readings

end Condition

/-! ## Rules -/

/-- **Comparing part by part matches less.** A rule on an instant to the minute compiles in
both readings, whatever its instant is, because each instant can be cut down to the minute.
Each record that satisfies the predicate of the reading part by part satisfies that of the
reading as a whole, and for equality and the two null tests the same records satisfy both. -/
theorem Rule.componentWise_narrows {r : Rule} {schema : Schema} {options : CompileOptions}
    {i : Instant} (hkind : r.kind = .dateTime) (hoperator : r.operator.acceptsKind .dateTime)
    (hvalue : r.value = some (.instant i)) (hminute : r.granularity options = .minute)
    {f : ResolvedField} (hpath : schema.resolve r.column.path = .ok f) :
    (∀ j : Instant, j.wholeMinute? = some j.wholeMinute) ∧
    ∃ p q, r.compile schema { options with minuteSplit := .componentWise } = .ok p ∧
      r.compile schema { options with minuteSplit := .truncated } = .ok q ∧
      ∀ row, (p.evaluate row → q.evaluate row) ∧
        (r.operator ∈ [.equals, .isNull, .isNotNull] → (p.evaluate row ↔ q.evaluate row)) := by
  have haccepts : r.operator.acceptsColumn r.kind r.nullable := by
    simp [Operator.acceptsColumn, Operator.acceptsRequired, hkind, hoperator]
  have hfit : ¬ r.HasUnfitValue := not_hasUnfitValue ⟨.instant i, hvalue, by rw [hkind]; rfl⟩
  have hcompile : ∀ options', ∃ p, r.compile schema options' = .ok p := fun options' =>
    exists_compile haccepts (by rw [hvalue]; rfl) hfit hpath
  obtain ⟨p, hp⟩ := hcompile { options with minuteSplit := .componentWise }
  obtain ⟨q, hq⟩ := hcompile { options with minuteSplit := .truncated }
  -- The granularity is the same in both readings, so they are readings of one condition.
  have hp' : (r.condition options).compile { options with minuteSplit := .componentWise } = .ok p :=
    condition_of_compile hp
  have hq' : (r.condition options).compile { options with minuteSplit := .truncated } = .ok q :=
    condition_of_compile hq
  exact ⟨Instant.wholeMinute?_eq, p, q, hp, hq,
    Condition.evaluate_readings rfl rfl hkind hminute hvalue hoperator hp' hq'⟩

/-- Earlier than the minute of a leap second: a text with an earlier date, hour and minute is
matched by both readings, and one with the same minute an hour before only as a whole. -/
theorem Rule.componentWise_narrows_leap :
    let leap : Instant := ⟨⟨2016, 12, 31, by decide⟩, ⟨23, 59, 59, 1000000000, by decide⟩⟩
    let r : Rule := ⟨1, { path := "at", granularity := some .minute }, "at", .lessThan, .dateTime,
      true, some (.instant leap), false⟩
    let schema : Schema := ⟨"Event", [("at", .nullable (.kind .dateTime))]⟩
    let row : String → Record := fun s => ⟨[("at", .scalar (.text s))]⟩
    r.operator.acceptsKind .dateTime ∧ r.granularity {} = .minute ∧
      (∃ f, schema.resolve "at" = .ok f) ∧ leap.wholeMinute? = some leap.wholeMinute ∧
      ∃ p q, r.compile schema { minuteSplit := .componentWise } = .ok p ∧
        r.compile schema { minuteSplit := .truncated } = .ok q ∧
        q.evaluate (row "2016-12-30T22:58:00Z") ∧
        ¬ p.evaluate (row "2016-12-31T22:59:00Z") ∧ q.evaluate (row "2016-12-31T22:59:00Z") := by
  intro leap r schema row
  have hpath : schema.resolve "at" = .ok ⟨"at", ["at"], .nullable (.kind .dateTime), true⟩ := rfl
  have hminute : r.granularity {} = .minute := rfl
  obtain ⟨hcut, p, q, hp, hq, h⟩ :=
    componentWise_narrows (r := r) rfl (by decide) rfl hminute hpath
  have hparts : r.compile schema { minuteSplit := .componentWise } =
      .ok (.and [.compare ⟨"at", .date⟩ .less (.date leap.date),
        .compare ⟨"at", .hour⟩ .less (.ofSmall 23), .compare ⟨"at", .minute⟩ .less (.ofSmall 59)]) :=
    (Rule.compile_of_resolve_ok hpath).trans rfl
  have hwhole : r.compile schema { minuteSplit := .truncated } =
      .ok (.compare ⟨"at", .wholeMinute⟩ .less (.instant leap.wholeMinute)) := by
    rw [Rule.compile_of_resolve_ok hpath]
    have haccesses : (r.condition { minuteSplit := .truncated }).accesses
        { minuteSplit := .truncated } = [.wholeMinute] := rfl
    have hoperand : (r.condition { minuteSplit := .truncated }).operandAt (some (.instant leap))
        .wholeMinute = some (.instant leap.wholeMinute) :=
      Condition.operandAt_wholeMinute (some leap)
    rw [Condition.compile_eq_conditions (by decide) (w := some (.instant leap)) rfl, haccesses,
      Operator.conditions_one, hoperand]
    rfl
  obtain rfl := Except.ok.inj (hp.symm.trans hparts)
  obtain rfl := Except.ok.inj (hq.symm.trans hwhole)
  exact ⟨by decide, hminute, ⟨_, hpath⟩, hcut leap, _, _, hp, hq, (h _).1 (by decide +kernel),
    by decide +kernel, by decide +kernel⟩

end GridQuery
