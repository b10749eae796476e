import GridQuery.Proofs.Compilation
import GridQuery.Proofs.Order

/-!
# The meaning of a compiled rule

Cells hold the same value in many representations: a price can be an integer of any width
or a decimal, a member of an enumeration can be a name or an ordinal, an instant can be
text. `Value.meaning?` says what a value stands for in a column of a kind, and
`Meaning.Meets` what it means for one such meaning to be compared with another at a
granularity. A compiled rule tests exactly that.

## Main results

* `Condition.evaluate_of_compile` — a condition tests each part of the field that it looks at.
* `Condition.all_holds_iff_meets` — together the tests of the parts compare the meanings.
* `Rule.evaluate_compiled` — which cells satisfy the predicate of a rule.
-/

namespace GridQuery

/-! ## Meanings -/

/-- What a value stands for, apart from its representation. -/
inductive Meaning where
  | number (q : ℚ)
  | truth (b : Bool)
  | text (s : String)
  | instant (i : Instant)

namespace Value

/-- The exact number of an integer of any width or of a decimal. -/
def amount? : Value → Option ℚ
  | .whole _ n => some n.val
  | .decimal d => some d.value
  | _ => none

/-- The ordinal that a value stands for in an enumeration: that of a declared member
given by its name, or an integer of 64 bits itself. -/
def ordinalIn? (v : Value) (e : Enumeration) : Option (Whole .int64) :=
  match v with
  | .member name | .text name => e.ordinal? name
  | .whole _ n => Whole.ofInt? .int64 n.val
  | _ => none

/-- What a value stands for in a column of a kind. Doubles are left out: they do not
compare as exact numbers. -/
def meaning? (v : Value) (k : Kind) : Option Meaning :=
  match k, v with
  | .whole _, v | .decimal, v => v.amount?.map .number
  | .enumeration e, v => (v.ordinalIn? e).map fun n => .number n.val
  | .boolean, .bool b => some (.truth b)
  | .text, .text s => some (.text s)
  | .dateTime, .instant i => some (.instant i)
  | .dateTime, .text s => (Operand.instantOfText? s).map .instant
  | _, _ => none

end Value

/-- Whether a comparison holds between two meanings. Instants are compared by their
date, by the instant itself, or by the minute: as whole minutes, or date, hour and minute
each on its own. -/
def Meaning.Meets (g : Granularity) (split : MinuteSplit) (c : Comparison) :
    Meaning → Meaning → Prop
  | .number a, .number b => c.Relates a b
  | .truth a, .truth b => c.Relates a b
  | .text a, .text b => c.Relates a b
  | .instant a, .instant b =>
      match g, split with
      | .date, _ => c.Relates a.date b.date
      | .second, _ => c.Relates a b
      | .minute, .truncated => c.Relates a.wholeMinute b.wholeMinute
      | .minute, .componentWise =>
          c.Relates a.date b.date ∧ c.Relates a.time.hour b.time.hour ∧
            c.Relates a.time.minute b.time.minute
  | _, _ => False

namespace Value

variable {v : Value} {k : Kind}

/-- A value of a kind other than double stands for something. -/
theorem exists_meaning_of_matchesKind (h : v.matchesKind k) (hk : k ≠ .float) :
    ∃ m, v.meaning? k = some m := by
  cases k with
  | float => exact absurd rfl hk
  | enumeration e =>
    obtain ⟨name, n, rfl, hn⟩ := eq_member_of_matchesKind h
    exact ⟨.number n.val, by simp [meaning?, ordinalIn?, hn]⟩
  | _ => cases v <;> simp_all [matchesKind, meaning?, amount?]

theorem meaning?_float : v.meaning? .float = none := by
  cases v <;> rfl

theorem eq_bool_of_meaning? {m : Meaning} (h : v.meaning? .boolean = some m) :
    ∃ b, v = .bool b ∧ m = .truth b := by
  cases v <;> simp_all [meaning?]

theorem eq_text_of_meaning? {m : Meaning} (h : v.meaning? .text = some m) :
    ∃ s, v = .text s ∧ m = .text s := by
  cases v <;> simp_all [meaning?]

theorem meaning?_dateTime : v.meaning? .dateTime = (FieldRef.instant? v).map .instant := by
  cases v <;> rfl

end Value

/-! ## Comparing operands -/

namespace Comparison

/-- A relation does not change along an embedding of one order into another. -/
theorem relates_of_strictMono {α β : Type} [LinearOrder α] [LinearOrder β] {f : α → β}
    (hf : StrictMono f) (c : Comparison) {a b : α} : c.Relates (f a) (f b) ↔ c.Relates a b := by
  cases c <;> simp [Relates, hf.lt_iff_lt, hf.le_iff_le, hf.injective.eq_iff]

end Comparison

namespace Operand

/-- The order of two operands, if there is one, with the relation it stands for. -/
theorem holds_of_compare {α : Type} [LinearOrder α] {x y : α} {a b : Operand} {o : Ordering}
    (h : a.compare b = some o) (ho : o.Compares x y) (c : Comparison) :
    c.holds (a.compare b) ↔ c.Relates x y := by
  rw [h]
  exact Comparison.holds_iff_relates ho c

theorem number?_ofWhole (w : Width) (n : Whole w) :
    (ofWhole w n).number? = some (.whole n.val) := by
  unfold ofWhole
  split <;> rfl

theorem number?_ofValue {v : Value} {x : ℚ} (h : v.amount? = some x) :
    ∃ n, (ofValue v).number? = some n ∧ n.value? = some x := by
  cases v with
  | whole w n =>
    cases h
    exact ⟨.whole n.val, number?_ofWhole w n, rfl⟩
  | decimal d =>
    cases h
    exact ⟨.decimal d, rfl, rfl⟩
  | _ => cases h

theorem holds_numbers {a b : Operand} {m n : Number} {x y : ℚ} (ha : a.number? = some m)
    (hb : b.number? = some n) (hx : m.value? = some x) (hy : n.value? = some y) (c : Comparison) :
    c.holds (a.compare b) ↔ c.Relates x y := by
  obtain ⟨o, ho, hcompares⟩ := Number.order_compares hx hy
  refine holds_of_compare ?_ hcompares c
  unfold Operand.compare
  rw [ha, hb]
  exact ho

theorem holds_ints (m n : Whole .int64) (c : Comparison) :
    c.holds ((int m).compare (int n)) ↔ c.Relates (m.val : ℚ) n.val :=
  holds_numbers rfl rfl rfl rfl c

theorem holds_bools (a b : Bool) (c : Comparison) :
    c.holds ((bool a).compare (bool b)) ↔ c.Relates a b := by
  have hmono : StrictMono Bool.toNat := by
    unfold StrictMono
    decide
  exact holds_of_compare rfl (hmono.compares.1 (compare_iff _ _ |>.1 rfl)) c

theorem holds_texts (s t : String) (c : Comparison) :
    c.holds ((text s).compare (text t)) ↔ c.Relates s t :=
  holds_of_compare rfl (Text.order_compares s t) c

theorem holds_instants (i j : Instant) (c : Comparison) :
    c.holds ((instant i).compare (instant j)) ↔ c.Relates i j :=
  holds_of_compare rfl (Instant.order_compares i j) c

theorem holds_dates (a b : Date) (c : Comparison) :
    c.holds ((date a).compare (date b)) ↔ c.Relates a b :=
  holds_of_compare rfl (Date.order_compares a b) c

theorem small_fits {n : ℕ} (h : n < 60) : Width.int64.Fits n := by
  simp only [Width.Fits, Width.least, Width.greatest]
  omega

theorem ofSmall_eq {n : ℕ} (h : n < 60) : ofSmall n = .int ⟨n, small_fits h⟩ := by
  rw [ofSmall, Whole.clamp, dif_pos (small_fits h)]

/-- Hours and minutes compare as natural numbers. -/
theorem holds_smalls {m n : ℕ} (hm : m < 60) (hn : n < 60) (c : Comparison) :
    c.holds ((ofSmall m).compare (ofSmall n)) ↔ c.Relates m n := by
  have hcast : StrictMono fun k : ℕ => ((k : ℤ) : ℚ) := fun a b h => by
    exact Int.cast_strictMono (Int.ofNat_lt.2 h)
  rw [ofSmall_eq hm, ofSmall_eq hn, holds_ints]
  exact Comparison.relates_of_strictMono hcast c

end Operand

/-! ## Comparing parts of values -/

namespace FieldRef

/-- Whether a comparison holds between the parts of two values that a reference looks
at. -/
def holds (f : FieldRef) (c : Comparison) (x w : Value) : Bool :=
  c.holds ((f.project x).bind fun a => (f.project w).bind a.compare)

variable {path : String} {x w : Value} {c : Comparison}

theorem holds_of_project {f : FieldRef} {a b : Operand} (ha : f.project x = some a)
    (hb : f.project w = some b) : f.holds c x w = c.holds (a.compare b) := by
  rw [holds, ha, hb]
  rfl

theorem holds_amount {p q : ℚ} (hx : x.amount? = some p) (hw : w.amount? = some q) :
    holds ⟨path, .value⟩ c x w ↔ c.Relates p q := by
  obtain ⟨m, hm, hp⟩ := Operand.number?_ofValue hx
  obtain ⟨n, hn, hq⟩ := Operand.number?_ofValue hw
  rw [holds_of_project rfl rfl]
  exact Operand.holds_numbers hm hn hp hq c

theorem project_ordinal {e : Enumeration} {n : Whole .int64} (h : x.ordinalIn? e = some n) :
    project ⟨path, .ordinal e⟩ x = some (.int n) := by
  unfold Value.ordinalIn? at h
  split at h
  · simp [project, h]
  · simp [project, h]
  · simp [project, Value.integer?, h]
  · cases h

theorem holds_ordinal {e : Enumeration} {m n : Whole .int64} (hx : x.ordinalIn? e = some m)
    (hw : w.ordinalIn? e = some n) :
    holds ⟨path, .ordinal e⟩ c x w ↔ c.Relates (m.val : ℚ) n.val := by
  rw [holds_of_project (project_ordinal hx) (project_ordinal hw)]
  exact Operand.holds_ints m n c

/-- An instant compares with the instant that a text spells as with any other. -/
theorem holds_instant {i j : Instant} (hx : instant? x = some i) :
    holds ⟨path, .value⟩ c x (.instant j) ↔ c.Relates i j := by
  cases x with
  | instant i' =>
    cases hx
    rw [holds_of_project rfl rfl]
    exact Operand.holds_instants i j c
  | text s =>
    rw [holds_of_project rfl rfl]
    refine Operand.holds_of_compare ?_ (Instant.order_compares i j) c
    exact congrArg (Option.map fun i : Instant => i.order j) hx
  | _ => cases hx

theorem holds_date {i j : Instant} (hx : instant? x = some i) (hw : instant? w = some j) :
    holds ⟨path, .date⟩ c x w ↔ c.Relates i.date j.date := by
  rw [holds, project, project, hx, hw]
  exact Operand.holds_dates i.date j.date c

theorem holds_wholeMinute {i j : Instant} (hx : instant? x = some i) (hw : instant? w = some j) :
    holds ⟨path, .wholeMinute⟩ c x w ↔ c.Relates i.wholeMinute j.wholeMinute := by
  rw [holds, project_wholeMinute, project_wholeMinute, hx, hw]
  exact Operand.holds_instants i.wholeMinute j.wholeMinute c

theorem holds_hour {i j : Instant} (hx : instant? x = some i) (hw : instant? w = some j) :
    holds ⟨path, .hour⟩ c x w ↔ c.Relates i.time.hour j.time.hour := by
  have hi : i.time.hour < 24 := i.time.real.1
  have hj : j.time.hour < 24 := j.time.real.1
  rw [holds, project, project, hx, hw]
  exact Operand.holds_smalls (by omega) (by omega) c

theorem holds_minute {i j : Instant} (hx : instant? x = some i) (hw : instant? w = some j) :
    holds ⟨path, .minute⟩ c x w ↔ c.Relates i.time.minute j.time.minute := by
  rw [holds, project, project, hx, hw]
  exact Operand.holds_smalls i.time.real.2.1 j.time.real.2.1 c

end FieldRef

/-! ## Conditions -/

namespace Operator

variable {op : Operator} {field : FieldRef} {operand : Option Operand} {p : Predicate}
  {row : Record}

/-- Where the record has nothing, only inequality and the null test match. -/
theorem evaluate_null (h : op.compile field operand = .ok p)
    (hnull : row.lookup field.segments = .null) :
    p.evaluate row = (op == .notEquals || op == .isNull) := by
  unfold compile compileCompare compileLike at h
  split at h <;> (try split at h) <;> cases h <;>
    simp [Predicate.evaluate, Predicate.evalCompare, Predicate.evalLike, Predicate.evalNull, hnull]
      <;> decide

/-- Where the record has a scalar, null tests see that it is there. -/
theorem evaluate_nullTest (h : op.compile field operand = .ok p) (hop : op.needsValue = false)
    {x : Value} (hx : row.lookup field.segments = .scalar x) :
    p.evaluate row = (op == .isNotNull) := by
  cases op <;> cases hop <;> cases h <;> simp [Predicate.evaluate, Predicate.evalNull, hx]

/-- Where the record has a scalar, comparisons look at its part. -/
theorem evaluate_comparison {c : Comparison} (hc : op.comparison? = some c) {x w : Value}
    {b : Operand} (hb : field.project w = some b) (h : op.compile field (some b) = .ok p)
    (hx : row.lookup field.segments = .scalar x) : p.evaluate row = field.holds c x w := by
  rw [compile_of_comparison? hc] at h
  cases h
  simp only [Predicate.evaluate, Predicate.evalCompare, hx, FieldRef.holds, hb, Option.bind_some]

end Operator

namespace Condition

variable {c : Condition} {options : CompileOptions} {p : Predicate} {row : Record}

theorem accesses_ne_nil (c : Condition) (options : CompileOptions) : c.accesses options ≠ [] := by
  unfold accesses
  split
  · split
    · simp
    · simp
    · split <;> simp
  · simp

/-- **The test of a condition.** A condition that compiles has a value if it needs one,
and it matches a record when each part of the field passes its test. -/
theorem evaluate_of_compile (h : c.compile options = .ok p) :
    ∃ w, c.operandValue = .ok w ∧ ∀ (row : Record) (test : Access → Bool),
      (∀ a ∈ c.accesses options, ∀ q,
        c.operator.compile ⟨c.path, a⟩ (c.operandAt w a) = .ok q → q.evaluate row = test a) →
      p.evaluate row = (c.accesses options).all test := by
  obtain ⟨w, ps, hw, hall, hleaf, rfl⟩ := of_compile h
  refine ⟨w, hw, fun row test htest => ?_⟩
  rw [Predicate.evaluate_eq_all_leaves, Predicate.leaves_ofLeaves hleaf]
  exact all_eq_all hall htest

/-- When every part gives the same answer, that is the answer. -/
theorem all_accesses_const (b : Bool) : ((c.accesses options).all fun _ => b) = b := by
  obtain ⟨a, rest, h⟩ := List.exists_cons_of_ne_nil (accesses_ne_nil c options)
  rw [h]
  cases b <;> simp

/-- A kind other than that of instants is compared by one part. -/
theorem accesses_of_ne_dateTime (hk : c.kind ≠ .dateTime) :
    c.accesses options = [compile.fieldAccess c.kind] := by
  unfold accesses
  split
  · rename_i hdateTime
    exact absurd hdateTime hk
  · rfl

theorem holds_fieldAccess_iff_meets {k : Kind} {path : String} {x w : Value} {m n : Meaning}
    (hk : k ≠ .dateTime) (hx : x.meaning? k = some m) (hw : w.meaning? k = some n)
    (g : Granularity) (split : MinuteSplit) (op : Comparison) :
    FieldRef.holds ⟨path, compile.fieldAccess k⟩ op x w ↔ m.Meets g split op n := by
  cases k with
  | dateTime => exact absurd rfl hk
  | float =>
    rw [Value.meaning?_float] at hx
    cases hx
  | enumeration e =>
    obtain ⟨i, hi, rfl⟩ := Option.map_eq_some_iff.1 hx
    obtain ⟨j, hj, rfl⟩ := Option.map_eq_some_iff.1 hw
    exact FieldRef.holds_ordinal hi hj
  | boolean =>
    obtain ⟨a, rfl, rfl⟩ := Value.eq_bool_of_meaning? hx
    obtain ⟨b, rfl, rfl⟩ := Value.eq_bool_of_meaning? hw
    exact Operand.holds_bools a b op
  | text =>
    obtain ⟨s, rfl, rfl⟩ := Value.eq_text_of_meaning? hx
    obtain ⟨t, rfl, rfl⟩ := Value.eq_text_of_meaning? hw
    exact Operand.holds_texts s t op
  | _ =>
    -- Integers of any width and decimals.
    obtain ⟨i, hi, rfl⟩ := Option.map_eq_some_iff.1 hx
    obtain ⟨j, hj, rfl⟩ := Option.map_eq_some_iff.1 hw
    exact FieldRef.holds_amount hi hj

theorem all_holds_instants (hk : c.kind = .dateTime) {x : Value} {i j : Instant}
    (hi : FieldRef.instant? x = some i) (op : Comparison) :
    ((c.accesses options).all fun a => FieldRef.holds ⟨c.path, a⟩ op x (.instant j)) ↔
      (Meaning.instant i).Meets c.granularity options.minuteSplit op (.instant j) := by
  have hj : FieldRef.instant? (.instant j) = some j := rfl
  unfold accesses
  rw [hk]
  cases c.granularity with
  | date =>
    simp only [List.all_cons, List.all_nil, Bool.and_true]
    exact FieldRef.holds_date hi hj
  | second =>
    simp only [List.all_cons, List.all_nil, Bool.and_true]
    exact FieldRef.holds_instant hi
  | minute =>
    cases options.minuteSplit with
    | truncated =>
      simp only [List.all_cons, List.all_nil, Bool.and_true]
      exact FieldRef.holds_wholeMinute hi hj
    | componentWise =>
      simp only [List.all_cons, List.all_nil, Bool.and_true, Bool.and_eq_true]
      exact and_congr (FieldRef.holds_date hi hj)
        (and_congr (FieldRef.holds_hour hi hj) (FieldRef.holds_minute hi hj))

/-- **Comparing part by part is comparing meanings.** The parts that a condition looks at
are in the relation of a comparison exactly when the comparison holds between what the two
values stand for. -/
theorem all_holds_iff_meets {x w : Value} {m n : Meaning} (hx : x.meaning? c.kind = some m)
    (hkind : w.matchesKind c.kind) (hw : w.meaning? c.kind = some n) (op : Comparison) :
    ((c.accesses options).all fun a => FieldRef.holds ⟨c.path, a⟩ op x w) ↔
      m.Meets c.granularity options.minuteSplit op n := by
  by_cases hk : c.kind = .dateTime
  · rw [hk] at hx hw hkind
    rw [Value.meaning?_dateTime] at hx
    obtain ⟨i, hi, rfl⟩ := Option.map_eq_some_iff.1 hx
    obtain ⟨j, rfl⟩ := Value.eq_instant_of_matchesKind hkind
    cases hw
    exact all_holds_instants hk hi op
  · rw [accesses_of_ne_dateTime hk]
    simp only [List.all_cons, List.all_nil, Bool.and_true]
    exact holds_fieldAccess_iff_meets hk hx hw _ _ op

/-- Where the record has nothing, only inequality and the null test match. -/
theorem evaluate_null (h : c.compile options = .ok p)
    (hnull : row.lookup (pathSegments c.path) = .null) :
    p.evaluate row ↔ c.operator = .notEquals ∨ c.operator = .isNull := by
  obtain ⟨w, -, htest⟩ := evaluate_of_compile h
  rw [htest row (fun _ => c.operator == .notEquals || c.operator == .isNull)
    fun a _ q hq => Operator.evaluate_null hq hnull, all_accesses_const]
  simp

/-- Where the record has a scalar, null tests see that it is there. -/
theorem evaluate_nullTest (h : c.compile options = .ok p) (hop : c.operator.needsValue = false)
    {x : Value} (hx : row.lookup (pathSegments c.path) = .scalar x) :
    p.evaluate row ↔ c.operator = .isNotNull := by
  obtain ⟨w, -, htest⟩ := evaluate_of_compile h
  rw [htest row (fun _ => c.operator == .isNotNull)
    fun a _ q hq => Operator.evaluate_nullTest hq hop hx, all_accesses_const]
  simp

/-- Where the record has a scalar that stands for something, comparisons compare it with
what the coerced value stands for. -/
theorem evaluate_comparison (h : c.compile options = .ok p) {op : Comparison}
    (hop : c.operator.comparison? = some op) {x : Value} {m : Meaning}
    (hx : row.lookup (pathSegments c.path) = .scalar x) (hm : x.meaning? c.kind = some m) :
    ∃ v w n, c.value = some v ∧ v.coerce c.kind = .ok w ∧ w.meaning? c.kind = some n ∧
      (p.evaluate row ↔ m.Meets c.granularity options.minuteSplit op n) := by
  obtain ⟨w?, hw?, htest⟩ := evaluate_of_compile h
  cases w? with
  | none =>
    have hneeds : c.operator.needsValue := Operator.needsValue_of_comparison? hop
    rw [nullTest_of_operandValue hw?] at hneeds
    cases hneeds
  | some w =>
    obtain ⟨-, v, hv, hcoerce⟩ := needsValue_of_operandValue hw?
    have hkind : w.matchesKind c.kind := matchesKind_of_operandValue hw?
    have hfloat : c.kind ≠ .float := by
      intro hk
      rw [hk, Value.meaning?_float] at hm
      cases hm
    obtain ⟨n, hn⟩ := Value.exists_meaning_of_matchesKind hkind hfloat
    refine ⟨v, w, n, hv, hcoerce, hn, ?_⟩
    rw [← all_holds_iff_meets hm hkind hn op,
      htest row (fun a => FieldRef.holds ⟨c.path, a⟩ op x w) fun a ha q hq => ?_]
    obtain ⟨b, hb, -⟩ := exists_project hkind ha
    rw [show c.operandAt (some w) a = some b from hb] at hq
    exact Operator.evaluate_comparison hop hb hq hx

end Condition

/-! ## Rules -/

/-- **Which cells satisfy the predicate of a rule.** Where the record has nothing, the
predicate holds for inequality and for the null test only. Where it has a value that stands
for something in the kind of the column, whichever its representation, the null tests see
that it is there, and each of the six comparisons holds between what the cell stands for
and what the coerced value of the rule stands for. -/
theorem Rule.evaluate_compiled {r : Rule} {schema : Schema} {options : CompileOptions}
    {p : Predicate} (hp : r.compile schema options = .ok p) (row : Record) :
    let cell := row.lookup (pathSegments r.column.path)
    (cell = .null → (p.evaluate row ↔ r.operator = .notEquals ∨ r.operator = .isNull)) ∧
    ∀ x m, cell = .scalar x → x.meaning? r.kind = some m →
      (r.operator = .isNull → ¬ p.evaluate row) ∧
      (r.operator = .isNotNull → p.evaluate row) ∧
      ∀ c, r.operator.comparison? = some c →
        ∃ v w n, r.value = some v ∧ v.coerce r.kind = .ok w ∧ w.meaning? r.kind = some n ∧
          (p.evaluate row ↔ m.Meets (r.granularity options) options.minuteSplit c n) := by
  intro cell
  have hcondition : (r.condition options).compile options = .ok p := condition_of_compile hp
  refine ⟨fun hnull => Condition.evaluate_null hcondition hnull, fun x m hx hm => ?_⟩
  have hnullTest : r.operator.needsValue = false → (p.evaluate row ↔ r.operator = .isNotNull) :=
    fun hneeds => Condition.evaluate_nullTest hcondition hneeds hx
  refine ⟨fun hop => ?_, fun hop => ?_, fun c hc => ?_⟩
  · rw [hnullTest (by rw [hop]; rfl), hop]
    decide
  · exact (hnullTest (by rw [hop]; rfl)).2 hop
  · exact Condition.evaluate_comparison hcondition hc hx hm

/-- Prices in a decimal column above the integer `3`: a cell with `3.50` is compared as the
number seven halves, and an empty record does not match. -/
theorem Rule.evaluate_compiled_price : ∃ p,
    Rule.compile { id := 1, column := { path := "price" }, property := "price",
                   operator := .greaterThan, kind := .decimal, nullable := true,
                   value := some (.whole .byte ⟨3, by decide⟩), applied := false }
      ⟨"Item", [("price", .nullable (.kind .decimal))]⟩ {} = .ok p ∧
    ¬ p.evaluate ⟨[]⟩ ∧
    (p.evaluate ⟨[("price", .scalar (.decimal ⟨false, 350, 2, by decide, by decide⟩))]⟩ ↔
      (Meaning.number (7 / 2)).Meets .second .componentWise .greater (.number 3)) := by
  have hp : Rule.compile { id := 1, column := { path := "price" }, property := "price",
                           operator := .greaterThan, kind := .decimal, nullable := true,
                           value := some (.whole .byte ⟨3, by decide⟩), applied := false }
      ⟨"Item", [("price", .nullable (.kind .decimal))]⟩ {} =
      .ok (.compare ⟨"price", .value⟩ .greater
        (.decimal ⟨false, 3, 0, by decide, by decide⟩)) := rfl
  refine ⟨_, hp, ?_, ?_⟩
  · rw [(evaluate_compiled hp ⟨[]⟩).1 rfl]
    decide
  · have hm : Value.meaning? (.decimal ⟨false, 350, 2, by decide, by decide⟩) .decimal =
        some (.number (7 / 2)) := by
      norm_num [Value.meaning?, Value.amount?, Decimal.value, Decimal.signedMantissa]
    obtain ⟨-, -, hcompare⟩ := (evaluate_compiled hp
      ⟨[("price", .scalar (.decimal ⟨false, 350, 2, by decide, by decide⟩))]⟩).2 _ _ rfl hm
    obtain ⟨v, w, n, hv, hw, hn, h⟩ := hcompare .greater rfl
    obtain rfl : .whole .byte ⟨3, by decide⟩ = v := Option.some.inj hv
    obtain rfl : .decimal ⟨false, 3, 0, by decide, by decide⟩ = w := Except.ok.inj hw
    have hthree : n = .number 3 := by
      norm_num [Value.meaning?, Value.amount?, Decimal.value, Decimal.signedMantissa] at hn
      exact hn.symm
    rw [h, hthree]
    rfl

end GridQuery
