import GridQuery.Proofs.ClockText
import GridQuery.Proofs.Compilation
import GridQuery.Proofs.ShortestText

/-!
# What the chip of a rule shows

The chip of a rule shows its value, instants at the granularity at which the rule compares them.
Values of one kind are shown alike only when they are the same value, or instants whose clocks, cut
down to the granularity, show the same (`Value.textAt_eq_iff`). A rule looks at no more of an
instant than that, with one exception: to the second, it compares the nanoseconds too, which no chip
shows.

## Main results

* `Condition.compile_congr` — a value counts for compilation only through the parts of it that the
  condition looks at.
* `Rule.compile_of_chip` — rules with the same chip compile alike, but for the nanoseconds.
* `Rule.chip_hides_fraction` — two rules with the same chip whose predicates differ.
-/

namespace GridQuery

/-! ## Values that are shown alike -/

namespace Value

variable {g : Granularity} {k : Kind} {v w : Value}

/-- A value as people see it, instants at a granularity. -/
def textAt (g : Granularity) : Value → String
  | .instant i => g.text i
  | v => v.display

/-- Whether two values are the same, instants as far as clocks show them at a granularity. -/
def SameAt (g : Granularity) (v w : Value) : Prop :=
  v = w ∨ ∃ i j, v = .instant i ∧ w = .instant j ∧ g.cut i.shown = g.cut j.shown

theorem eq_dateTime_of_matchesKind {i : Instant} (h : (instant i).matchesKind k) :
    k = .dateTime := by
  cases k <;> first | rfl | cases h

/-- The nanoseconds of an instant from the start of its second. In a leap second they go on counting
from `10 ^ 9`. -/
def fraction? : Value → Option ℕ
  | .instant i => some i.time.nano
  | _ => none

/-- Values of a kind are shown alike when they are the same as far as the granularity goes. -/
theorem textAt_eq_iff (hv : v.matchesKind k) (hw : w.matchesKind k) :
    v.textAt g = w.textAt g ↔ SameAt g v w := by
  constructor
  · intro h
    cases k with
    | whole width =>
      obtain ⟨m, rfl⟩ := eq_whole_of_matchesKind hv
      obtain ⟨n, rfl⟩ := eq_whole_of_matchesKind hw
      exact .inl (congrArg _ (Whole.text_injective h))
    | float =>
      obtain ⟨x, rfl⟩ := eq_float_of_matchesKind hv
      obtain ⟨y, rfl⟩ := eq_float_of_matchesKind hw
      exact .inl (congrArg _ (Binary64.text_injective h))
    | decimal =>
      obtain ⟨c, rfl⟩ := eq_decimal_of_matchesKind hv
      obtain ⟨d, rfl⟩ := eq_decimal_of_matchesKind hw
      exact .inl (congrArg _ (Decimal.text_injective h))
    | boolean =>
      obtain ⟨a, rfl⟩ := eq_bool_of_matchesKind hv
      obtain ⟨b, rfl⟩ := eq_bool_of_matchesKind hw
      cases a <;> cases b <;> first | exact .inl rfl | exact absurd h (by simp [textAt, display])
    | text =>
      obtain ⟨s, rfl⟩ := eq_text_of_matchesKind hv
      obtain ⟨t, rfl⟩ := eq_text_of_matchesKind hw
      exact .inl (congrArg _ h)
    | enumeration e =>
      obtain ⟨s, -, rfl, -⟩ := eq_member_of_matchesKind hv
      obtain ⟨t, -, rfl, -⟩ := eq_member_of_matchesKind hw
      exact .inl (congrArg _ h)
    | dateTime =>
      obtain ⟨i, rfl⟩ := eq_instant_of_matchesKind hv
      obtain ⟨j, rfl⟩ := eq_instant_of_matchesKind hw
      exact .inr ⟨i, j, rfl, rfl, Granularity.text_eq_iff.1 h⟩
  · rintro (rfl | ⟨i, j, rfl, rfl, hcut⟩)
    · rfl
    · exact Granularity.text_eq_iff.2 hcut

end Value

/-! ## The value in a condition -/

namespace Granularity

variable {g : Granularity} {i j : Instant}

theorem date_eq_of_cut_eq (h : g.cut i.shown = g.cut j.shown) : i.date = j.date := by
  have hdate : (g.cut i.shown).date = (g.cut j.shown).date := congrArg Instant.date h
  cases g <;> exact hdate

theorem wholeMinute_eq_of_cut_eq (h : minute.cut i.shown = minute.cut j.shown) :
    i.wholeMinute = j.wholeMinute := by
  have hcut : ∀ k : Instant, minute.cut k.shown = k.wholeMinute := fun k =>
    congrArg (Instant.mk k.date) k.time.wholeMinute_shown
  rw [← hcut i, h, hcut j]

/-- The second that the clock shows and the nanoseconds tell the second. -/
theorem eq_of_cut_second_eq (h : second.cut i.shown = second.cut j.shown)
    (hnano : i.time.nano = j.time.nano) : i = j := by
  have hminute : i.wholeMinute = j.wholeMinute := by
    have hcut := congrArg minute.cut h
    exact wholeMinute_eq_of_cut_eq hcut
  have hshown : i.time.shownSecond = j.time.shownSecond := by
    have hwhole := congrArg (fun k : Instant => k.time.shownSecond) h
    simpa only [cut, Instant.shown, TimeOfDay.shownSecond_wholeSecond, TimeOfDay.shownSecond_shown]
      using hwhole
  obtain ⟨date, hour, minute, second, nano, hreal⟩ := i
  obtain ⟨date', hour', minute', second', nano', hreal'⟩ := j
  simp only [Instant.wholeMinute, TimeOfDay.wholeMinute, Instant.mk.injEq] at hminute
  obtain ⟨rfl, rfl, rfl⟩ := hminute
  obtain rfl : nano = nano' := hnano
  obtain rfl : second = second' := Nat.add_right_cancel hshown
  rfl

end Granularity

namespace Condition

variable {c d : Condition} {options : CompileOptions} {v w : Value}

/-- Values that are the same as far as the granularity goes have the same parts that a condition
looks at. To the second it looks at the whole instant. -/
theorem project_eq_of_sameAt (hv : v.matchesKind c.kind) (h : Value.SameAt c.granularity v w)
    (hfraction : c.granularity = .second → v.fraction? = w.fraction?) {a : Access}
    (ha : a ∈ c.accesses options) :
    FieldRef.project ⟨c.path, a⟩ v = FieldRef.project ⟨c.path, a⟩ w := by
  obtain rfl | ⟨i, j, rfl, rfl, hcut⟩ := h
  · rfl
  · have hdate : i.date = j.date := Granularity.date_eq_of_cut_eq hcut
    unfold accesses at ha
    rw [Value.eq_dateTime_of_matchesKind hv] at ha
    cases hg : c.granularity with
    | date =>
      simp only [hg, List.mem_singleton] at ha
      subst ha
      exact congrArg (fun d => some (Operand.date d)) hdate
    | minute =>
      rw [hg] at hcut
      have hwhole : i.wholeMinute = j.wholeMinute := Granularity.wholeMinute_eq_of_cut_eq hcut
      have hhour : i.time.hour = j.time.hour := congrArg (fun i => i.time.hour) hwhole
      have hminute : i.time.minute = j.time.minute := congrArg (fun i => i.time.minute) hwhole
      have haccess : a = .wholeMinute ∨ a = .date ∨ a = .hour ∨ a = .minute := by
        rw [hg] at ha
        cases hsplit : options.minuteSplit <;> simp_all
      obtain rfl | rfl | rfl | rfl := haccess
      · rw [FieldRef.project_wholeMinute, FieldRef.project_wholeMinute]
        exact congrArg (fun i => some (Operand.instant i)) hwhole
      all_goals simp [FieldRef.project, FieldRef.instant?, hdate, hhour, hminute]
    | second =>
      rw [hg] at hcut
      rw [Granularity.eq_of_cut_second_eq hcut (Option.some.inj (hfraction hg))]

/-- **A value counts for compilation** only through the parts of it that the condition looks at,
and only where the operator needs a value. -/
theorem compile_congr (hpath : d.path = c.path) (hkind : d.kind = c.kind)
    (hgranularity : d.granularity = c.granularity) (hoperator : d.operator = c.operator)
    (hv : c.value = some v) (hw : d.value = some w) (hvk : v.matchesKind c.kind)
    (hwk : w.matchesKind c.kind)
    (hproject : c.operator.needsValue → ∀ a ∈ c.accesses options,
      FieldRef.project ⟨c.path, a⟩ v = FieldRef.project ⟨c.path, a⟩ w) :
    c.compile options = d.compile options := by
  obtain ⟨path, kind, nullable, granularity, operator, value⟩ := c
  obtain ⟨path', kind', nullable', granularity', operator', value'⟩ := d
  simp only at hpath hkind hgranularity hoperator hv hw hvk hwk hproject
  subst hpath hkind hgranularity hoperator hv hw
  by_cases hop : operator'.acceptsKind kind'
  · have haccepts : ∀ n, operator'.acceptsColumn kind' n := fun n =>
      (Operator.acceptsColumn_eq _ _ n).trans hop
    by_cases hneeds : operator'.needsValue
    · rw [compile_eq_conditions (haccepts _) (operandValue_of_matchesKind hneeds rfl hvk),
        compile_eq_conditions (haccepts _) (operandValue_of_matchesKind hneeds rfl hwk)]
      exact congrArg _ (Operator.conditions_congr (hproject hneeds))
    · rw [compile_eq_conditions (haccepts _) (operandValue_of_nullTest hneeds),
        compile_eq_conditions (haccepts _) (operandValue_of_nullTest hneeds)]
      rfl
  · simp only [compile, Operator.acceptsColumn_eq, hop, Bool.not_false, if_true]

end Condition

/-! ## Chips -/

/-- A predicate tells with which instant an operator was applied. -/
theorem Operator.instant_of_compile {op : Operator} {field : FieldRef} {i j : Instant}
    {p : Predicate} (hneeds : op.needsValue) (hi : op.compile field (some (.instant i)) = .ok p)
    (hj : op.compile field (some (.instant j)) = .ok p) : i = j := by
  cases hc : op.comparison? with
  | some c =>
    rw [compile_of_comparison? hc] at hi hj
    simpa using hi.trans hj.symm
  | none => cases op <;> simp_all [comparison?, needsValue, compile, compileLike]

namespace Rule

variable {r s : Rule} {schema : Schema} {options : CompileOptions} {v w : Value}

theorem valueText_eq (hv : r.value = some v) :
    r.valueText options = v.textAt (r.granularity options) := by
  rw [valueText, hv]
  cases v <;> rfl

/-- Rules with the same column and operator have the same chip when they show the same value. -/
theorem valueText_of_chip (hcolumn : s.column = r.column) (hoperator : s.operator = r.operator)
    (hneeds : r.operator.needsValue) (hchip : r.chip options = s.chip options) :
    r.valueText options = s.valueText options := by
  rw [chip, chip, hcolumn, hoperator, if_pos hneeds, if_pos hneeds] at hchip
  exact (String.append_right_inj _).1 hchip

/-- To the second, a rule is compiled with the whole instant. -/
theorem compile_to_second {i : Instant} {p : Predicate} (hkind : r.kind = .dateTime)
    (hsecond : r.granularity options = .second) (hneeds : r.operator.needsValue)
    (hvalue : r.value = some (.instant i)) (h : r.compile schema options = .ok p) :
    r.operator.compile ⟨r.column.path, .value⟩ (some (.instant i)) = .ok p := by
  have hcondition := condition_of_compile h
  have hmatches : (Value.instant i).matchesKind r.kind := by
    rw [hkind]
    rfl
  have hoperand : (r.condition options).operandValue = .ok (some (.instant i)) :=
    Condition.operandValue_of_matchesKind hneeds hvalue hmatches
  obtain ⟨w, ps, hw, hall, -, rfl⟩ := Condition.of_compile hcondition
  obtain rfl : w = some (.instant i) := Except.ok.inj (hw.symm.trans hoperand)
  have haccesses : (r.condition options).accesses options = [.value] := by
    simp [Condition.accesses, condition, hkind, hsecond]
  rw [haccesses] at hall
  obtain ⟨q, _, hq, hnil, rfl⟩ := List.forall₂_cons_left_iff.1 hall
  obtain rfl := List.forall₂_nil_left_iff.1 hnil
  exact hq

/-- Rules that become the same predicate compare with the same nanoseconds, where they compare with
them at all. -/
theorem fraction_of_compile (hcolumn : s.column = r.column) (hkind : s.kind = r.kind)
    (hoperator : s.operator = r.operator) (hv : r.value = some v) (hw : s.value = some w)
    (hvk : v.matchesKind r.kind) (hwk : w.matchesKind r.kind) {p : Predicate}
    (hr : r.compile schema options = .ok p) (hs : s.compile schema options = .ok p)
    (hneeds : r.operator.needsValue) (hsecond : r.granularity options = .second) :
    v.fraction? = w.fraction? := by
  by_cases hdateTime : r.kind = .dateTime
  · rw [hdateTime] at hvk hwk
    obtain ⟨i, rfl⟩ := Value.eq_instant_of_matchesKind hvk
    obtain ⟨j, rfl⟩ := Value.eq_instant_of_matchesKind hwk
    have hi := compile_to_second hdateTime hsecond hneeds hv hr
    have hj := compile_to_second (hkind.trans hdateTime)
      (by rw [granularity, hcolumn]; exact hsecond) (hoperator ▸ hneeds) hw hs
    rw [hoperator, hcolumn] at hj
    rw [Operator.instant_of_compile hneeds hi hj]
  · have hnone : ∀ x : Value, x.matchesKind r.kind → x.fraction? = none := by
      intro x hx
      cases x with
      | instant i => exact absurd (Value.eq_dateTime_of_matchesKind hx) hdateTime
      | _ => rfl
    rw [hnone v hvk, hnone w hwk]

/-- **What a chip shows is what its rule compares**, but for the nanoseconds. Let two rules for a
column have the same operator and show the same. Then they become the same predicate, or fail
alike, where they do not compare instants to the second; where they do, it takes the same
nanoseconds, and without them their predicates differ. -/
theorem compile_of_chip (hcolumn : s.column = r.column) (hkind : s.kind = r.kind)
    (hoperator : s.operator = r.operator) (hv : r.value = some v) (hw : s.value = some w)
    (hvk : v.matchesKind r.kind) (hwk : w.matchesKind r.kind)
    (hchip : r.chip options = s.chip options) :
    ((r.operator.needsValue → r.granularity options = .second → v.fraction? = w.fraction?) →
      r.compile schema options = s.compile schema options) ∧
    ∀ p, r.compile schema options = .ok p → s.compile schema options = .ok p →
      r.operator.needsValue → r.granularity options = .second → v.fraction? = w.fraction? := by
  refine ⟨fun hfraction => ?_, fun p hr hs => fraction_of_compile hcolumn hkind hoperator hv hw
    hvk hwk hr hs⟩
  have hgranularity : s.granularity options = r.granularity options := by
    rw [granularity, granularity, hcolumn]
  have hcondition : (r.condition options).compile options =
      (s.condition options).compile options := by
    refine Condition.compile_congr (congrArg Column.path hcolumn) hkind hgranularity hoperator hv
      hw hvk hwk fun hneeds a ha => ?_
    have htext := valueText_of_chip hcolumn hoperator hneeds hchip
    rw [valueText_eq hv, valueText_eq hw, hgranularity] at htext
    exact Condition.project_eq_of_sameAt hvk ((Value.textAt_eq_iff hvk hwk).1 htext)
      (hfraction hneeds) ha
  rw [compile, compile, hcolumn, hcondition]

/-- By the minute, the last half second of a year and the leap second after it are shown alike and
compared alike. -/
theorem compile_of_chip_leap :
    let rule : Instant → Rule := fun i => ⟨1, { path := "due", granularity := some .minute }, "due",
      .lessThan, .dateTime, false, some (.instant i), false⟩
    let schema : Schema := ⟨"Invoice", [("due", .kind .dateTime)]⟩
    let half : Instant := ⟨⟨2016, 12, 31, by decide⟩, ⟨23, 59, 59, 500000000, by decide⟩⟩
    let leap : Instant := ⟨⟨2016, 12, 31, by decide⟩, ⟨23, 59, 59, 1000000000, by decide⟩⟩
    (rule half).chip {} = "due\tLessThan\t2016-12-31T23:59" ∧
      (rule half).chip {} = (rule leap).chip {} ∧
      (∃ p, (rule half).compile schema {} = .ok p) ∧
      (rule half).compile schema {} = (rule leap).compile schema {} := by
  intro rule schema half leap
  have hchip : (rule half).chip {} = (rule leap).chip {} := by
    have htext : Granularity.minute.text half = Granularity.minute.text leap :=
      Granularity.text_eq_iff.2 (by decide +kernel)
    exact congrArg (fun text => "due" ++ "\t" ++ "LessThan" ++ "\t" ++ text) htext
  have hpath : schema.resolve "due" = .ok ⟨"due", ["due"], .kind .dateTime, false⟩ := rfl
  refine ⟨?_, hchip, ⟨_, (compile_of_resolve_ok hpath).trans rfl⟩,
    (compile_of_chip (r := rule half) (s := rule leap) rfl rfl rfl rfl rfl rfl rfl hchip).1 nofun⟩
  cbv

/-- **A fraction that is not shown.** To the second, an instant and half a second later are shown
alike, and a row between the two meets one rule and not the other. -/
theorem chip_hides_fraction :
    let rule : Instant → Rule := fun i =>
      ⟨1, { path := "due" }, "due", .lessThanOrEquals, .dateTime, false, some (.instant i), false⟩
    let schema : Schema := ⟨"Invoice", [("due", .kind .dateTime)]⟩
    let whole : Instant := ⟨⟨2024, 3, 9, by decide⟩, ⟨14, 5, 30, 0, by decide⟩⟩
    let half : Instant := ⟨⟨2024, 3, 9, by decide⟩, ⟨14, 5, 30, 500000000, by decide⟩⟩
    let between : Instant := ⟨⟨2024, 3, 9, by decide⟩, ⟨14, 5, 30, 250000000, by decide⟩⟩
    let row : Record := ⟨[("due", .scalar (.instant between))]⟩
    (rule whole).chip {} = (rule half).chip {} ∧
      ∃ p q, (rule whole).compile schema {} = .ok p ∧ (rule half).compile schema {} = .ok q ∧
        p ≠ q ∧ ¬ p.evaluate row ∧ q.evaluate row := by
  intro rule schema whole half between row
  have hpath : schema.resolve "due" = .ok ⟨"due", ["due"], .kind .dateTime, false⟩ := rfl
  have htext : Granularity.second.text whole = Granularity.second.text half :=
    Granularity.text_eq_iff.2 (by decide +kernel)
  have hdiffer : ∀ p q : Predicate, ¬ p.evaluate row ∧ q.evaluate row →
      p ≠ q ∧ ¬ p.evaluate row ∧ q.evaluate row := by
    rintro p q ⟨hp, hq⟩
    exact ⟨fun heq => hp (heq ▸ hq), hp, hq⟩
  exact ⟨congrArg (fun text => "due" ++ "\t" ++ "LessThanOrEquals" ++ "\t" ++ text) htext, _, _,
    (compile_of_resolve_ok hpath).trans rfl, (compile_of_resolve_ok hpath).trans rfl,
    hdiffer _ _ (by decide +kernel)⟩

end Rule

end GridQuery
