import GridQuery.Proofs.MemberEntry
import GridQuery.Proofs.StableSort

/-!
# Sorted rows and bounds

A rule that looks for values from a bound on and one that looks for values below it should
part the sorted rows of their column: ascending, no row of the first comes before one of the
second, and descending the other way around (`SortDirection.Parts`).

Sorting does not know the kind of the column. It compares members of enumerations by name
where rules compare ordinals, and text that spells an instant as text where rules compare the
instant. So the rows are parted at all bounds exactly when no cell overtakes another, that is,
when none is sorted before another, or level with it, that stands for something earlier
(`Cell.Overtakes`).

## Main results

* `Cell.overtakes_of_bound`, `Cell.Overtakes.exists_bound` — a cell overtakes another one when a
  bound lies between them.
* `Cell.not_overtakes` — among values of the kind only members of enumerations overtake one
  another, and only when their names are not in the order of their ordinals.
* `Rule.sort_parts` — when the rules part the sorted rows.
* `Rule.sort_mixes` — an enumeration, and a column of instants, whose sorted rows are not parted.
-/

namespace GridQuery

/-! ## Bounds -/

/-- The rule that compares its column with a value by an operator. -/
def Rule.comparing (r : Rule) (op : Operator) (v : Value) : Rule :=
  { r with operator := op, value := some v }

/-- Whether rows are parted in a direction: ascending, no row from the bound on comes before one
below it, and descending the other way around. -/
def SortDirection.Parts (d : SortDirection) (atLeast below : Predicate) (rows : List Record) :
    Prop :=
  match d with
  | .ascending => rows.Pairwise fun a b => ¬ (atLeast.evaluate a ∧ below.evaluate b)
  | .descending => rows.Pairwise fun a b => ¬ (below.evaluate a ∧ atLeast.evaluate b)

/-- Whether the rows can be sorted, and the rules that compare the column of a rule with a bound
part the sorted rows, at every bound of the kind and in both directions. -/
def Rule.PartsSorted {α : Type} (r : Rule) (schema : Schema) (options : CompileOptions)
    (lib : Sorter) (view : α → Record) (rows : List α) : Prop :=
  ∀ v atLeast below, v.matchesKind r.kind →
    (r.comparing .greaterThanOrEquals v).compile schema options = .ok atLeast →
    (r.comparing .lessThan v).compile schema options = .ok below →
    ∀ d, ∃ sorted, RowOrder.sort ⟨r.column.path, d⟩ lib view rows = some sorted ∧
      SortDirection.Parts d atLeast below (sorted.map view)

/-- The part of a field by which a column of a kind is compared with bounds. -/
def Rule.field (r : Rule) : FieldRef := ⟨r.column.path, Condition.compile.fieldAccess r.kind⟩

/-- Whether a cell is in the relation of a comparison with a bound. -/
def Cell.Meets (f : FieldRef) (c : Comparison) (v : Value) (cell : Cell) : Prop :=
  ∃ x, cell = .scalar x ∧ f.holds c x v

namespace Rule

variable {r : Rule} {schema : Schema} {options : CompileOptions} {f : ResolvedField}
  {c : Comparison} {v : Value}

theorem evaluate_compare {b : Operand} (hb : r.field.project v = some b) (hc : c ≠ .notEqual)
    (row : Record) : (Predicate.compare r.field c b).evaluate row ↔
      (row.lookup (pathSegments r.column.path)).Meets r.field c v := by
  rw [Predicate.evaluate, Predicate.evalCompare, Cell.Meets,
    show r.field.segments = pathSegments r.column.path from rfl]
  cases row.lookup (pathSegments r.column.path) with
  | scalar x => simp [FieldRef.holds, hb]
  | null => simp [hc]
  | record fields => simp [hc]

/-- A comparison with a bound matches the rows whose cell is in its relation with the bound. -/
theorem exists_compile_bound (op : Operator) (hpath : schema.resolve r.column.path = .ok f)
    (hsecond : r.kind = .dateTime → r.granularity options = .second)
    (hop : op.acceptsKind r.kind) (hcomparison : op.comparison? = some c) (hc : c ≠ .notEqual)
    (hv : v.matchesKind r.kind) :
    ∃ p, (r.comparing op v).compile schema options = .ok p ∧
      ∀ row, p.evaluate row ↔ (row.lookup (pathSegments r.column.path)).Meets r.field c v := by
  obtain ⟨b, hb, hcompile⟩ := exists_compile_comparison (r := r.comparing op v) hpath hsecond hop
    hcomparison rfl hv
  exact ⟨_, hcompile, evaluate_compare hb hc⟩

end Rule

/-! ## Cells that overtake others -/

/-- Whether a cell that is sorted before another, or level with it, stands for something
later. -/
def Cell.Overtakes (k : Kind) (a b : Cell) : Prop :=
  ∃ x y m n, a = .scalar x ∧ b = .scalar y ∧ x.meaning? k = some m ∧ y.meaning? k = some n ∧
    a.sortOrder b ≠ .gt ∧ n.Meets .second .truncated .less m

namespace Meaning

variable {m n bound : Meaning} {split : MinuteSplit}

theorem meets_less_of_bound (hm : m.Meets .second split .greaterOrEqual bound)
    (hn : n.Meets .second split .less bound) : n.Meets .second split .less m := by
  cases m <;> cases bound <;> cases n <;>
    first | exact hm.elim | exact hn.elim | exact lt_of_lt_of_le hn hm

theorem meets_greaterOrEqual_self (m : Meaning) : m.Meets .second split .greaterOrEqual m := by
  cases m <;> exact le_rfl

theorem not_meets_less_self (m : Meaning) : ¬ m.Meets .second split .less m := by
  cases m <;> exact lt_irrefl _

end Meaning

theorem Comparison.not_holds_none {c : Comparison} (hc : c ≠ .notEqual) : ¬ c.holds none := by
  cases c <;> simp_all [holds]

/-- A comparison of doubles, other than that they differ, is one of their keys. -/
theorem Binary64.relates_key {x y : Binary64} {c : Comparison} (hc : c ≠ .notEqual)
    (h : c.holds (x.order y)) : c.Relates x.key y.key := by
  have hunits : ∀ i j : ℤ, c.holds (some (compare i j)) → c.Relates (i : WithTop ℤ) j :=
    fun i j hij => (Comparison.holds_iff_relates
      (WithTop.coe_strictMono.compares.2 (compare_iff i j |>.1 rfl)) c).1 hij
  cases x with
  | nan => exact absurd h (Comparison.not_holds_none hc)
  | _ =>
    cases y with
    | nan => exact absurd h (Comparison.not_holds_none hc)
    | _ => exact hunits _ _ h

namespace Value

variable {k : Kind} {path : String} {c : Comparison} {x y v : Value} {n : Meaning}

/-- In a column of a kind a scalar is in the relation of a comparison with a bound when it
stands for something that is. -/
theorem holds_iff_meets (hk : k ≠ .float) (hc : c ≠ .notEqual) (hx : x.FitsColumn k)
    (hv : v.matchesKind k) (hn : v.meaning? k = some n) :
    FieldRef.holds ⟨path, Condition.compile.fieldAccess k⟩ c x v ↔
      ∃ m, x.meaning? k = some m ∧ m.Meets .second .truncated c n := by
  by_cases hdateTime : k = .dateTime
  · subst hdateTime
    obtain ⟨j, rfl⟩ := eq_instant_of_matchesKind hv
    obtain rfl : .instant j = n := Option.some.inj hn
    rw [meaning?_dateTime]
    cases hi : FieldRef.instant? x with
    | some i =>
      simp only [Option.map_some, Option.some.injEq, exists_eq_left']
      exact FieldRef.holds_instant hi
    | none =>
      -- A text that spells no instant does not compare with instants.
      obtain ⟨s, rfl⟩ | ⟨i, rfl⟩ := hx.text_or_instant
      · have hnone : (Operand.text s).compare (.instant j) = none :=
          congrArg (Option.map fun i : Instant => i.order j) hi
        have hfalse : ¬ FieldRef.holds ⟨path, .value⟩ c (.text s) (.instant j) := by
          rw [FieldRef.holds_of_project rfl rfl]
          exact hnone ▸ Comparison.not_holds_none hc
        exact iff_of_false hfalse (by simp)
      · cases hi
  · obtain ⟨m, hm⟩ := exists_meaning_of_matchesKind (hx.matchesKind hdateTime) hk
    rw [Condition.holds_fieldAccess_iff_meets hdateTime hm hn .second .truncated c, hm]
    simp

/-- Among doubles no bound lies between a number and one that is not sorted behind it. -/
theorem not_holds_of_sortOrder_float {x y v : Binary64}
    (hsort : (Operand.float x).sortOrder (.float y) ≠ .gt)
    (hx : FieldRef.holds ⟨path, .value⟩ .greaterOrEqual (.float x) (.float v)) :
    ¬ FieldRef.holds ⟨path, .value⟩ .less (.float y) (.float v) := by
  intro hy
  have hle : x.key ≤ y.key := (Binary64.sortOrder_compares x y).ne_gt.1 hsort
  have hge : v.key ≤ x.key := Binary64.relates_key (c := .greaterOrEqual) nofun hx
  have hlt : y.key < v.key := Binary64.relates_key (c := .less) nofun hy
  exact absurd (hle.trans_lt hlt) (not_lt.2 hge)

end Value

namespace Cell

variable {k : Kind} {path : String} {a b : Cell} {v : Value}

/-- **A bound between two cells** that are sorted the other way around: one overtakes the
other. -/
theorem overtakes_of_bound (ha : a.FitsColumn k) (hb : b.FitsColumn k) (hv : v.matchesKind k)
    (hsort : a.sortOrder b ≠ .gt)
    (hatLeast : a.Meets ⟨path, Condition.compile.fieldAccess k⟩ .greaterOrEqual v)
    (hbelow : b.Meets ⟨path, Condition.compile.fieldAccess k⟩ .less v) : a.Overtakes k b := by
  obtain ⟨x, rfl, hx⟩ := hatLeast
  obtain ⟨y, rfl, hy⟩ := hbelow
  obtain ⟨x', hxx', hxfits⟩ := ha.resolve_left nofun
  obtain ⟨y', hyy', hyfits⟩ := hb.resolve_left nofun
  obtain rfl : x = x' := Cell.scalar.inj hxx'
  obtain rfl : y = y' := Cell.scalar.inj hyy'
  by_cases hk : k = .float
  · subst hk
    obtain ⟨x, rfl⟩ := Value.eq_float_of_matchesKind (hxfits.matchesKind nofun)
    obtain ⟨y, rfl⟩ := Value.eq_float_of_matchesKind (hyfits.matchesKind nofun)
    obtain ⟨v, rfl⟩ := Value.eq_float_of_matchesKind hv
    exact absurd hy (Value.not_holds_of_sortOrder_float hsort hx)
  · obtain ⟨bound, hbound⟩ := Value.exists_meaning_of_matchesKind hv hk
    obtain ⟨m, hm, hmeets⟩ := (Value.holds_iff_meets (c := .greaterOrEqual) hk nofun hxfits hv hbound).1 hx
    obtain ⟨n, hn, hless⟩ := (Value.holds_iff_meets (c := .less) hk nofun hyfits hv hbound).1 hy
    exact ⟨x, y, m, n, rfl, rfl, hm, hn, hsort, Meaning.meets_less_of_bound hmeets hless⟩

/-- **Between a cell and one that it overtakes** lies a bound. -/
theorem Overtakes.exists_bound (h : a.Overtakes k b) (ha : a.FitsColumn k) (hb : b.FitsColumn k)
    (path : String) :
    ∃ v, v.matchesKind k ∧
      a.Meets ⟨path, Condition.compile.fieldAccess k⟩ .greaterOrEqual v ∧
      b.Meets ⟨path, Condition.compile.fieldAccess k⟩ .less v := by
  obtain ⟨x, y, m, n, rfl, rfl, hm, hn, -, hless⟩ := h
  obtain ⟨x', hxx', hxfits⟩ := ha.resolve_left nofun
  obtain ⟨y', hyy', hyfits⟩ := hb.resolve_left nofun
  obtain rfl : x = x' := Cell.scalar.inj hxx'
  obtain rfl : y = y' := Cell.scalar.inj hyy'
  have hk : k ≠ .float := by
    rintro rfl
    rw [Value.meaning?_float] at hm
    cases hm
  -- The bound is what the first cell stands for, in the representation of the kind.
  obtain ⟨v, hv, hvm⟩ : ∃ v : Value, v.matchesKind k ∧ v.meaning? k = some m := by
    by_cases hdateTime : k = .dateTime
    · subst hdateTime
      rw [Value.meaning?_dateTime] at hm
      obtain ⟨i, -, rfl⟩ := Option.map_eq_some_iff.1 hm
      exact ⟨.instant i, rfl, rfl⟩
    · exact ⟨x, hxfits.matchesKind hdateTime, hm⟩
  refine ⟨v, hv, ⟨x, rfl, ?_⟩, ⟨y, rfl, ?_⟩⟩
  · exact (Value.holds_iff_meets (c := .greaterOrEqual) hk nofun hxfits hv hvm).2
      ⟨m, hm, m.meets_greaterOrEqual_self⟩
  · exact (Value.holds_iff_meets (c := .less) hk nofun hyfits hv hvm).2 ⟨n, hn, hless⟩

theorem Overtakes.sortOrder_ne_gt (h : a.Overtakes k b) : a.sortOrder b ≠ .gt := by
  obtain ⟨-, -, -, -, -, -, -, -, hsort, -⟩ := h
  exact hsort

theorem not_overtakes_self (a : Cell) : ¬ a.Overtakes k a := by
  rintro ⟨x, y, m, n, hx, hy, hm, hn, -, hless⟩
  obtain rfl : x = y := Cell.scalar.inj (hx.symm.trans hy)
  obtain rfl : m = n := Option.some.inj (hm.symm.trans hn)
  exact m.not_meets_less_self hless

end Cell

/-- Whether the declared names of an enumeration are in the order of their ordinals. -/
def Enumeration.NamesInOrder (e : Enumeration) : Prop :=
  ∀ s t m n, e.ordinal? s = some m → e.ordinal? t = some n → s ≤ t → m.val ≤ n.val

/-- **Values of the kind itself** do not overtake one another, except for members of an
enumeration whose names are in another order than their ordinals. -/
theorem Cell.not_overtakes {k : Kind} {a b : Cell} (ha : ∀ x, a = .scalar x → x.matchesKind k)
    (hb : ∀ y, b = .scalar y → y.matchesKind k)
    (henumeration : ∀ e, k = .enumeration e → e.NamesInOrder) : ¬ a.Overtakes k b := by
  rintro ⟨x, y, m, n, rfl, rfl, hm, hn, hsort, hless⟩
  have hx : x.matchesKind k := ha x rfl
  have hy : y.matchesKind k := hb y rfl
  change (Operand.ofValue x).sortOrder (.ofValue y) ≠ .gt at hsort
  cases k with
  | float =>
    rw [Value.meaning?_float] at hm
    cases hm
  | boolean =>
    obtain ⟨a, rfl, rfl⟩ := Value.eq_bool_of_meaning? hm
    obtain ⟨b, rfl, rfl⟩ := Value.eq_bool_of_meaning? hn
    exact not_lt.2 ((Operand.sortOrder_bools a b).ne_gt.1 hsort) hless
  | text =>
    obtain ⟨s, rfl, rfl⟩ := Value.eq_text_of_meaning? hm
    obtain ⟨t, rfl, rfl⟩ := Value.eq_text_of_meaning? hn
    exact not_lt.2 ((Operand.sortOrder_texts s t).ne_gt.1 hsort) hless
  | dateTime =>
    obtain ⟨i, rfl⟩ := Value.eq_instant_of_matchesKind hx
    obtain ⟨j, rfl⟩ := Value.eq_instant_of_matchesKind hy
    cases hm
    cases hn
    exact not_lt.2 ((Operand.sortOrder_instants i j).ne_gt.1 hsort) hless
  | enumeration e =>
    obtain ⟨s, i, rfl, hi⟩ := Value.eq_member_of_matchesKind hx
    obtain ⟨t, j, rfl, hj⟩ := Value.eq_member_of_matchesKind hy
    have hle : s ≤ t := (Operand.sortOrder_texts s t).ne_gt.1 hsort
    have hordinals : i.val ≤ j.val := henumeration e rfl s t i j hi hj hle
    simp only [Value.meaning?, Value.ordinalIn?, hi, hj, Option.map_some,
      Option.some.injEq] at hm hn
    subst hm hn
    exact not_lt.2 (Int.cast_le.2 hordinals) hless
  | _ =>
    obtain ⟨p, hp, rfl⟩ := Option.map_eq_some_iff.1 hm
    obtain ⟨q, hq, rfl⟩ := Option.map_eq_some_iff.1 hn
    exact not_lt.2 ((Value.sortOrder_amounts hp hq).ne_gt.1 hsort) hless

/-! ## Parted rows -/

namespace Rule

section Sorted

variable {α : Type} {view : α → Record} {rows : List α} {r : Rule} {schema : Schema}
  {options : CompileOptions} {f : ResolvedField} {v : Value} {p q : Predicate} {lib : Sorter}

/-- Rows none of which overtakes another are parted at every bound. -/
theorem parts_of_not_overtakes
    (hrows : ∀ row ∈ rows, ((view row).lookup (pathSegments r.column.path)).FitsColumn r.kind)
    (hno : ∀ a ∈ rows, ∀ b ∈ rows, ¬ ((view a).lookup (pathSegments r.column.path)).Overtakes
      r.kind ((view b).lookup (pathSegments r.column.path)))
    (hv : v.matchesKind r.kind)
    (hp : ∀ row, p.evaluate row ↔
      (row.lookup (pathSegments r.column.path)).Meets r.field .greaterOrEqual v)
    (hq : ∀ row, q.evaluate row ↔
      (row.lookup (pathSegments r.column.path)).Meets r.field .less v) {d : SortDirection}
    {sorted : List α} (hsorted : RowOrder.sort ⟨r.column.path, d⟩ lib view rows = some sorted) :
    d.Parts p q (sorted.map view) := by
  have hcoherent : RowOrder.Coherent ⟨r.column.path, d⟩ view rows :=
    RowOrder.coherent_of_fitsColumn hrows
  have hmem : ∀ {a}, a ∈ sorted → a ∈ rows := (RowOrder.perm_of_sort hsorted).mem_iff.1
  -- No bound lies between rows that are in ascending order.
  have hbound : ∀ a ∈ rows, ∀ b ∈ rows,
      RowOrder.Precedes ⟨r.column.path, .ascending⟩ view a b →
        p.evaluate (view a) → ¬ q.evaluate (view b) := by
    intro a ha b hb hab hpa hqb
    exact hno a ha b hb (Cell.overtakes_of_bound (hrows a ha) (hrows b hb) hv hab
      ((hp _).1 hpa) ((hq _).1 hqb))
  have hpairwise := hcoherent.pairwise_of_sort hsorted
  cases d with
  | ascending =>
    refine List.pairwise_map.2 (hpairwise.imp_of_mem fun {a b} ha hb hab => ?_)
    rintro ⟨hpa, hqb⟩
    exact hbound a (hmem ha) b (hmem hb) hab hpa hqb
  | descending =>
    refine List.pairwise_map.2 (hpairwise.imp_of_mem fun {a b} ha hb hab => ?_)
    rintro ⟨hqa, hpb⟩
    rw [RowOrder.precedes_descending] at hab
    exact hbound b (hmem hb) a (hmem ha) hab hpb hqa

/-- Rows that are parted in both directions at a bound between two of them: the first one does
not precede the second. -/
theorem not_precedes_of_parts
    (hrows : ∀ row ∈ rows, ((view row).lookup (pathSegments r.column.path)).FitsColumn r.kind)
    (hparts : ∀ d, ∃ sorted, RowOrder.sort ⟨r.column.path, d⟩ lib view rows = some sorted ∧
      SortDirection.Parts d p q (sorted.map view))
    {a b : α} (ha : a ∈ rows) (hb : b ∈ rows) (hne : a ≠ b) (hpa : p.evaluate (view a))
    (hqb : q.evaluate (view b)) :
    ¬ RowOrder.Precedes ⟨r.column.path, .ascending⟩ view a b := by
  intro hab
  have hcoherent : ∀ d, RowOrder.Coherent ⟨r.column.path, d⟩ view rows := fun d =>
    RowOrder.coherent_of_fitsColumn hrows
  rcases pair_sublist_or ha hb hne with hsub | hsub
  · -- Ascending, they stay in this order.
    obtain ⟨sorted, hsorted, happ⟩ := hparts .ascending
    have hkept := (hcoherent .ascending).pair_sublist_of_sort hsorted hab hsub
    have hapart := List.Pairwise.sublist hkept (List.pairwise_map.1 happ)
    exact List.rel_of_pairwise_cons hapart (by simp) ⟨hpa, hqb⟩
  · -- Descending, they stay in this order.
    have hba : RowOrder.Precedes ⟨r.column.path, .descending⟩ view b a :=
      RowOrder.precedes_descending.2 hab
    obtain ⟨sorted, hsorted, happ⟩ := hparts .descending
    have hkept := (hcoherent .descending).pair_sublist_of_sort hsorted hba hsub
    have hapart := List.Pairwise.sublist hkept (List.pairwise_map.1 happ)
    exact List.rel_of_pairwise_cons hapart (by simp) ⟨hqb, hpa⟩

/-- **Sorted rows and bounds.** On a column whose kind has an order, instants to the second, the
rules that compare with a value of the kind compile. In rows with fitting cells they part the
sorted rows at every value, in both directions, exactly when no cell overtakes another. Cells of
the kind itself are always parted, unless they are members of an enumeration whose names are in
another order than their ordinals. -/
theorem sort_parts (hpath : schema.resolve r.column.path = .ok f)
    (hop : Operator.lessThan.acceptsKind r.kind)
    (hsecond : r.kind = .dateTime → r.granularity options = .second) (lib : Sorter)
    (view : α → Record)
    (hrows : ∀ row ∈ rows, ((view row).lookup (pathSegments r.column.path)).FitsColumn r.kind) :
    let cell := fun row => (view row).lookup (pathSegments r.column.path)
    (∀ v, v.matchesKind r.kind → ∃ atLeast below,
      (r.comparing .greaterThanOrEquals v).compile schema options = .ok atLeast ∧
        (r.comparing .lessThan v).compile schema options = .ok below) ∧
    (r.PartsSorted schema options lib view rows ↔
      ∀ a ∈ rows, ∀ b ∈ rows, ¬ (cell a).Overtakes r.kind (cell b)) ∧
    ((∀ row ∈ rows, ∀ x, cell row = .scalar x → x.matchesKind r.kind) →
      (∀ e, r.kind = .enumeration e → e.NamesInOrder) →
      r.PartsSorted schema options lib view rows) := by
  intro cell
  have hatLeast : ∀ v, v.matchesKind r.kind → ∃ p,
      (r.comparing .greaterThanOrEquals v).compile schema options = .ok p ∧
        ∀ row, p.evaluate row ↔
          (row.lookup (pathSegments r.column.path)).Meets r.field .greaterOrEqual v :=
    fun v hv => exists_compile_bound _ hpath hsecond rfl rfl nofun hv
  have hbelow : ∀ v, v.matchesKind r.kind → ∃ q,
      (r.comparing .lessThan v).compile schema options = .ok q ∧
        ∀ row, q.evaluate row ↔
          (row.lookup (pathSegments r.column.path)).Meets r.field .less v :=
    fun v hv => exists_compile_bound _ hpath hsecond hop rfl nofun hv
  have hparts_iff : r.PartsSorted schema options lib view rows ↔
      ∀ a ∈ rows, ∀ b ∈ rows, ¬ (cell a).Overtakes r.kind (cell b) := by
    refine ⟨fun hparts a ha b hb hovertakes => ?_, fun hno v p q hv hp hq => ?_⟩
    · obtain ⟨v, hv, hge, hlt⟩ := hovertakes.exists_bound (hrows a ha) (hrows b hb) r.column.path
      obtain ⟨p, hp, hpiff⟩ := hatLeast v hv
      obtain ⟨q, hq, hqiff⟩ := hbelow v hv
      have hne : a ≠ b := by
        rintro rfl
        exact Cell.not_overtakes_self _ hovertakes
      exact not_precedes_of_parts hrows (hparts v p q hv hp hq) ha hb hne ((hpiff _).2 hge)
        ((hqiff _).2 hlt) hovertakes.sortOrder_ne_gt
    · obtain ⟨p', hp', hpiff⟩ := hatLeast v hv
      obtain ⟨q', hq', hqiff⟩ := hbelow v hv
      obtain rfl : p' = p := Except.ok.inj (hp'.symm.trans hp)
      obtain rfl : q' = q := Except.ok.inj (hq'.symm.trans hq)
      intro d
      obtain ⟨sorted, hsorted, -⟩ := (RowOrder.coherent_of_fitsColumn
        (s := ⟨r.column.path, d⟩) hrows).exists_sort lib
      exact ⟨sorted, hsorted, parts_of_not_overtakes hrows hno hv hpiff hqiff hsorted⟩
  refine ⟨fun v hv => ?_, hparts_iff, fun hcells henumeration => hparts_iff.2 fun a ha b hb => ?_⟩
  · obtain ⟨p, hp, -⟩ := hatLeast v hv
    obtain ⟨q, hq, -⟩ := hbelow v hv
    exact ⟨p, q, hp, hq⟩
  · exact Cell.not_overtakes (hcells a ha) (hcells b hb) henumeration

end Sorted

/-- Members whose names are in the order of their ordinals, in a column that can be null. -/
theorem sort_parts_steps :
    let e : Enumeration := ⟨"Step", [("1 draft", ⟨0, by decide⟩), ("2 sent", ⟨5, by decide⟩)]⟩
    let r : Rule := ⟨1, { path := "step" }, "step", .equals, .enumeration e, true, none, false⟩
    let schema : Schema := ⟨"Invoice", [("step", .nullable (.kind (.enumeration e)))]⟩
    let row : String → Record := fun name => ⟨[("step", .scalar (.member name))]⟩
    let rows : List Record := [row "2 sent", ⟨[]⟩, row "1 draft"]
    e.NamesInOrder ∧ Operator.lessThan.acceptsKind r.kind ∧
      (∃ f, schema.resolve "step" = .ok f) ∧
      (∀ row ∈ rows, (row.lookup (pathSegments "step")).FitsColumn r.kind) ∧
      r.PartsSorted schema {} .standard (fun row => row) rows := by
  intro e r schema row rows
  have hnames : e.NamesInOrder := by
    have he : e.Distinct := ⟨by decide, by decide⟩
    intro s t m n hs ht hle
    rw [Enumeration.ordinal?_eq_some_iff he] at hs ht
    simp only [e, List.mem_cons, Prod.mk.injEq, List.not_mem_nil, or_false] at hs ht
    rcases hs with ⟨rfl, rfl⟩ | ⟨rfl, rfl⟩ <;> rcases ht with ⟨rfl, rfl⟩ | ⟨rfl, rfl⟩
    · exact le_rfl
    · decide
    · exact absurd hle (by decide)
    · exact le_rfl
  have hpath : schema.resolve "step" =
      .ok ⟨"step", ["step"], .nullable (.kind (.enumeration e)), true⟩ := rfl
  have hcells : ∀ row ∈ rows, row.lookup (pathSegments "step") = .null ∨
      ∃ x, row.lookup (pathSegments "step") = .scalar x ∧ x.matchesKind r.kind := by
    intro row' hrow
    simp only [rows, List.mem_cons, List.not_mem_nil, or_false] at hrow
    rcases hrow with rfl | rfl | rfl
    · exact .inr ⟨.member "2 sent", rfl, rfl⟩
    · exact .inl rfl
    · exact .inr ⟨.member "1 draft", rfl, rfl⟩
  have hrows : ∀ row ∈ rows, (row.lookup (pathSegments "step")).FitsColumn r.kind := by
    intro row' hrow
    obtain hnull | ⟨x, hx, hkind⟩ := hcells row' hrow
    · exact .inl hnull
    · exact .inr ⟨x, hx, .inl hkind⟩
  have hsecond : r.kind = .dateTime → r.granularity {} = .second := fun _ => rfl
  obtain ⟨-, -, hparts⟩ := sort_parts hpath rfl hsecond .standard (fun row => row) hrows
  refine ⟨hnames, rfl, ⟨_, hpath⟩, hrows, hparts (fun row hrow x hx => ?_) ?_⟩
  · obtain hnull | ⟨x', hx', hkind⟩ := hcells row hrow
    · cases hnull.symm.trans hx
    · obtain rfl : x' = x := Cell.scalar.inj (hx'.symm.trans hx)
      exact hkind
  · intro e' he'
    obtain rfl : e = e' := Kind.enumeration.inj he'
    exact hnames

/-- **Sorted rows that are not parted.** Of two invoices, one paid and one sent, the paid one is
sorted first, by its name, and rules that compare ordinals find it behind the other. A text that
spells an instant is sorted before an instant of the year before. -/
theorem sort_mixes :
    let e : Enumeration :=
      ⟨"Status", [("Draft", ⟨0, by decide⟩), ("Sent", ⟨1, by decide⟩), ("Paid", ⟨2, by decide⟩)]⟩
    let schema : Schema :=
      ⟨"Invoice", [("status", .kind (.enumeration e)), ("due", .kind .dateTime)]⟩
    let status : Rule :=
      ⟨1, { path := "status" }, "status", .equals, .enumeration e, false, none, false⟩
    let due : Rule := ⟨2, { path := "due" }, "due", .equals, .dateTime, false, none, false⟩
    let paid : Record := ⟨[("status", .scalar (.member "Paid"))]⟩
    let sent : Record := ⟨[("status", .scalar (.member "Sent"))]⟩
    let earlier : Instant := ⟨⟨2024, 1, 1, by decide⟩, ⟨0, 0, 0, 0, by decide⟩⟩
    let later : Instant := ⟨⟨2025, 1, 1, by decide⟩, ⟨0, 0, 0, 0, by decide⟩⟩
    let typed : Record := ⟨[("due", .scalar (.text "2025-01-01T00:00:00Z"))]⟩
    let held : Record := ⟨[("due", .scalar (.instant earlier))]⟩
    (∃ atLeast below,
      (status.comparing .greaterThanOrEquals (.member "Paid")).compile schema {} = .ok atLeast ∧
      (status.comparing .lessThan (.member "Paid")).compile schema {} = .ok below ∧
      RowOrder.sort ⟨"status", .ascending⟩ .standard (fun row => row) [paid, sent] =
        some [paid, sent] ∧
      atLeast.evaluate paid ∧ below.evaluate sent) ∧
    ∃ atLeast below,
      (due.comparing .greaterThanOrEquals (.instant later)).compile schema {} = .ok atLeast ∧
      (due.comparing .lessThan (.instant later)).compile schema {} = .ok below ∧
      RowOrder.sort ⟨"due", .ascending⟩ .standard (fun row => row) [typed, held] =
        some [typed, held] ∧
      atLeast.evaluate typed ∧ below.evaluate held := by
  intro e schema status due paid sent earlier later typed held
  have hstatus : schema.resolve "status" =
      .ok ⟨"status", ["status"], .kind (.enumeration e), false⟩ := rfl
  have hdue : schema.resolve "due" = .ok ⟨"due", ["due"], .kind .dateTime, false⟩ := rfl
  refine ⟨⟨_, _, (compile_of_resolve_ok hstatus).trans rfl, (compile_of_resolve_ok hstatus).trans rfl,
    ?_, by decide +kernel, by decide +kernel⟩, _, _, (compile_of_resolve_ok hdue).trans rfl,
    (compile_of_resolve_ok hdue).trans rfl, ?_, by decide +kernel, by decide +kernel⟩
  · exact RowOrder.Coherent.sort_of_pairwise (RowOrder.coherent_of_transitiveOn
      (show RowOrder.TransitiveRows _ _ _ by decide +kernel)) (by decide +kernel) _
  · exact RowOrder.Coherent.sort_of_pairwise (RowOrder.coherent_of_transitiveOn
      (show RowOrder.TransitiveRows _ _ _ by decide +kernel)) (by decide +kernel) _

end Rule

end GridQuery
