import GridQuery.Proofs.Clause

/-!
# Selecting rows by the clause

A predicate keeps a row in memory exactly when its clause is true for the row in SQL, with the
parameters bound to the placeholders. Evaluation has two truth values and decides for each
condition what null does; the clause has three, and what null does follows from the functions
and operators it is written with.

The two agree where comparisons have an order to go by and `LIKE` tests look at text in a
column. A `LIKE` test of a part of an instant is another matter: evaluation looks at the whole
text, the clause at the part (`Predicate.evaluate_like_date`). No operator of a rule makes such
a test, because only columns of text accept the operators that use patterns.

## Main results

* `Predicate.evaluate_iff_truth` — evaluation and the truth of the clause.
-/

namespace GridQuery

/-! ## Parameters -/

/-- Whether parameters are bound to the placeholders with the numbers after `offset`. -/
def Binds (bound : ℕ → Operand) (offset : ℕ) (params : List Operand) : Prop :=
  ∀ i a, params[i]? = some a → bound (offset + 1 + i) = a

namespace Binds

variable {bound : ℕ → Operand} {offset : ℕ}

theorem head {a : Operand} {params : List Operand} (h : Binds bound offset (a :: params)) :
    bound (offset + 1) = a :=
  h 0 a rfl

/-- Parameters one after another are bound one after another. -/
theorem append {xs ys : List Operand} (h : Binds bound offset (xs ++ ys)) :
    Binds bound offset xs ∧ Binds bound (offset + xs.length) ys := by
  refine ⟨fun i a hi => ?_, fun i a hi => ?_⟩
  · have hlt : i < xs.length := (List.getElem?_eq_some_iff.1 hi).1
    exact h i a (by rw [List.getElem?_append_left hlt, hi])
  · have hbound := h (xs.length + i) a (by rw [List.getElem?_append_right (by omega),
      Nat.add_sub_cancel_left, hi])
    rwa [show offset + xs.length + 1 + i = offset + 1 + (xs.length + i) by omega]

end Binds

/-! ## Reading a reference -/

namespace FieldRef

variable {f : FieldRef} {row : Record} {v : Value}

theorem read_of_null (h : row.lookup f.segments = .null) : f.term.read row = .null := by
  unfold term
  cases f.access <;> simp [Term.read, Datum.apply, h]

theorem read_column (h : row.lookup f.segments = .scalar v) :
    (Term.column f.segments).read row = .value (Operand.ofValue v) := by
  rw [Term.read, h]

theorem isNull_read (f : FieldRef) (row : Record) :
    (f.term.read row).isNull = ((Term.column f.segments).read row).isNull := by
  unfold term
  cases f.access <;> simp [Term.read]

theorem instant?_ofValue {i : Instant} (h : instant? v = some i) :
    (Operand.ofValue v).instant? = some i := by
  cases v <;> first | exact h | cases h

theorem coded?_ofWhole {e : Enumeration} {w : Width} {n : Whole w} {m : Whole .int64}
    (h : Whole.ofInt? .int64 n.val = some m) :
    Operand.coded? (some e) (Operand.ofWhole w n) = some (.int m) := by
  unfold Operand.ofWhole
  by_cases hw : w = .uint64
  · rw [dif_pos hw, Operand.coded?, h]
    rfl
  · rw [dif_neg hw, Operand.coded?]
    rw [Whole.ofInt?, dif_pos (n.fits.int64 hw)] at h
    rw [Option.some.inj h]

theorem coded?_ofValue {e : Enumeration} {path : String} {a : Operand}
    (h : project ⟨path, .ordinal e⟩ v = some a) :
    Operand.coded? (some e) (Operand.ofValue v) = some a := by
  cases v with
  | whole w n =>
    obtain ⟨m, hm, rfl⟩ : ∃ m, Whole.ofInt? .int64 n.val = some m ∧ Operand.int m = a := by
      simpa [project, Value.integer?] using h
    exact coded?_ofWhole hm
  | text s => exact h
  | member s => exact h
  | _ => cases h

/-- What evaluation looks at is what the expression of a reference yields. -/
theorem read_of_project {a : Operand} (h : row.lookup f.segments = .scalar v)
    (ha : f.project v = some a) :
    (f.term.read row).apply (Operand.coded? f.coding) = .value a := by
  obtain ⟨path, access⟩ := f
  have hcolumn := read_column h
  have hinstant : ∀ g : Instant → Operand, (instant? v).map g = some a →
      (Datum.value (Operand.ofValue v)).apply (fun x => x.instant?.map g) = .value a := by
    intro g hg
    obtain ⟨i, hi, rfl⟩ := Option.map_eq_some_iff.1 hg
    exact Datum.apply_value (by rw [instant?_ofValue hi, Option.map_some])
  cases access with
  | value =>
    obtain rfl : Operand.ofValue v = a := Option.some.inj ha
    rw [term, hcolumn]
    exact Datum.apply_value rfl
  | ordinal e =>
    rw [term, hcolumn]
    exact Datum.apply_value (coded?_ofValue ha)
  | wholeMinute =>
    rw [project_wholeMinute] at ha
    rw [term, Term.read, hcolumn, hinstant _ ha]
    exact Datum.apply_value rfl
  | _ =>
    rw [term, Term.read, hcolumn, hinstant _ ha]
    exact Datum.apply_value rfl

end FieldRef

/-! ## Conditions -/

namespace Datum

variable {b : Operand} {op : Comparison}

/-- Null is different from every operand, and no other comparison is true of it. -/
theorem relates_null_iff : null.relates b op = .true ↔ op = .notEqual := by
  cases op <;> simp [relates, order, isDistinctFrom]

/-- Operands that have an order compare as it says. -/
theorem relates_value {a : Operand} {o : Ordering} (h : a.compare b = some o) :
    (value a).relates b op = .ofBool (op.holds (some o)) := by
  cases op <;> simp only [relates, order, isDistinctFrom, h] <;> cases o <;> rfl

end Datum

namespace Predicate

/-- Whether a condition has something to go by in a record: a comparison null or an operand
in order with its own, a `LIKE` test null or text, a null test null or a scalar. -/
def Applies (row : Record) : Predicate → Prop
  | .compare field _ operand =>
      row.lookup field.segments = .null ∨ ∃ v a, row.lookup field.segments = .scalar v ∧
        field.project v = some a ∧ (a.compare operand).isSome
  | .like field _ _ =>
      row.lookup field.segments = .null ∨ ∃ s, row.lookup field.segments = .scalar (.text s)
  | .null field _ =>
      row.lookup field.segments = .null ∨ ∃ v, row.lookup field.segments = .scalar v
  | .always | .and _ => True

variable {field : FieldRef} {op : Comparison} {operand : Operand} {pattern : LikePattern}
  {negated : Bool} {row : Record}

theorem evalCompare_iff_relates (h : (compare field op operand).Applies row) :
    evalCompare field op operand row ↔
      ((field.term.read row).apply (Operand.coded? field.coding)).relates operand op = .true := by
  rcases h with hnull | ⟨v, a, hv, ha, ho⟩
  · rw [FieldRef.read_of_null hnull, Datum.apply, Datum.relates_null_iff, evalCompare, hnull]
    exact beq_iff_eq
  · obtain ⟨o, ho⟩ := Option.isSome_iff_exists.1 ho
    rw [FieldRef.read_of_project hv ha, Datum.relates_value ho, Truth.ofBool_eq_true_iff,
      evalCompare, hv]
    simp only [ha, Option.bind_some, ho]

/-- Whether a `LIKE` test looks at a column, and not at a part of an instant in it. -/
def LooksAtColumn (row : Record) : Predicate → Prop
  | .like field _ _ =>
      row.lookup field.segments = .null ∨ field.term = .column field.segments
  | _ => True

theorem evalLike_iff_like (h : (like field pattern negated).Applies row)
    (hcolumn : (like field pattern negated).LooksAtColumn row) :
    evalLike field pattern negated row ↔
      ((field.term.read row).like (.text pattern.raw)).negateIf negated = .true := by
  by_cases hnull : row.lookup field.segments = .null
  · rw [FieldRef.read_of_null hnull, evalLike, hnull, Datum.like_null, Truth.negateIf_unknown]
    simp
  · obtain ⟨s, hs⟩ := h.resolve_left hnull
    have hterm := hcolumn.resolve_left hnull
    rw [hterm, FieldRef.read_column hs, evalLike, hs, Operand.ofValue, Datum.like,
      Truth.negateIf_ofBool, Truth.ofBool_eq_true_iff]
    simp only [LikePattern.matchesText, LikePattern.accepts_eq_likes]

theorem evalNull_iff_isNull (h : (null field negated).Applies row) :
    evalNull field negated row ↔
      (Truth.ofBool (field.term.read row).isNull).negateIf negated = .true := by
  rw [Truth.negateIf_ofBool, Truth.ofBool_eq_true_iff, FieldRef.isNull_read, evalNull, Term.read]
  rcases h with hnull | ⟨v, hv⟩
  · rw [hnull]
    simp [Datum.isNull]
  · rw [hv]
    simp [Datum.isNull]

/-! ## Predicates -/

variable {bound : ℕ → Operand} {offset : ℕ}

theorem evaluateAll_iff_truthAll {ps : List Predicate}
    (h : ∀ p ∈ ps, ∀ offset, Binds bound offset p.params →
      (p.evaluate row ↔ (p.clause offset).truth bound row = .true))
    (hbound : Binds bound offset (paramsAll ps)) :
    evaluateAll ps row ↔ Clause.truthAll bound row (clauseAll offset ps) = .true := by
  induction ps generalizing offset with
  | nil => simp [evaluateAll, clauseAll, Clause.truthAll]
  | cons p ps ih =>
    obtain ⟨hp, hps⟩ := hbound.append
    rw [evaluateAll, clauseAll, Clause.truthAll, Bool.and_eq_true, Truth.and_eq_true_iff,
      h p (by simp) offset hp, ih (fun q hq => h q (by simp [hq])) hps]

/-- **Evaluation in memory and the clause select the same rows.** Where every condition has
something to go by and `LIKE` tests look at columns, a record satisfies a predicate exactly
when the clause that the predicate is rendered to is true, whichever number the placeholders
start with and whatever is bound to others. -/
theorem evaluate_iff_truth (p : Predicate) {row : Record}
    (happlies : ∀ q ∈ p.leaves, q.Applies row) (hcolumn : ∀ q ∈ p.leaves, q.LooksAtColumn row)
    {offset : ℕ} {bound : ℕ → Operand}
    (hbound : Binds bound offset p.params) :
    p.sql offset = (p.clause offset).text ∧
      (p.evaluate row ↔ (p.clause offset).truth bound row = .true) := by
  refine ⟨sql_eq_text p offset, ?_⟩
  -- The parts of an AND are numbered one after another, so the offset varies.
  induction p generalizing offset with
  | always => simp [evaluate, clause, Clause.truth]
  | compare field op operand =>
    rw [evaluate, clause, Clause.truth, hbound.head]
    exact evalCompare_iff_relates (happlies _ (by simp [leaves]))
  | like field pattern negated =>
    rw [evaluate, clause, Clause.truth, hbound.head]
    exact evalLike_iff_like (happlies _ (by simp [leaves])) (hcolumn _ (by simp [leaves]))
  | null field negated =>
    rw [evaluate, clause, Clause.truth]
    exact evalNull_iff_isNull (happlies _ (by simp [leaves]))
  | and parts ih =>
    have hparts : ∀ q ∈ parts, ∀ offset, Binds bound offset q.params →
        (q.evaluate row ↔ (q.clause offset).truth bound row = .true) := by
      intro q hq offset hbound
      have hleaves : ∀ leaf ∈ q.leaves, leaf ∈ (and parts).leaves := by
        intro leaf hleaf
        rw [leaves_and]
        exact List.mem_flatMap_of_mem hq hleaf
      exact ih q hq (fun leaf hleaf => happlies leaf (hleaves leaf hleaf))
        (fun leaf hleaf => hcolumn leaf (hleaves leaf hleaf)) hbound
    have hall := evaluateAll_iff_truthAll hparts hbound
    rw [evaluate, clause, hall]
    -- Without parts the clause is TRUE, as the empty conjunction is.
    cases parts <;> rfl

/-- Paid orders of customers whose name does not end in `b` and one more character, without a
note: the clause is true of one whose name is that of Ann. -/
theorem evaluate_iff_truth_paid :
    let status : Enumeration := ⟨"Status", [("Open", ⟨0, by decide⟩), ("Paid", ⟨1, by decide⟩)]⟩
    let p : Predicate := .and
      [.compare ⟨"status", .ordinal status⟩ .greaterOrEqual (.int ⟨1, by decide⟩),
        .and [.like ⟨"customer.name", .value⟩ ⟨"%b_"⟩ true, .and []],
        .compare ⟨"note", .value⟩ .notEqual (.text "late"), .null ⟨"note", .value⟩ false]
    let row : Record := ⟨[("status", .scalar (.member "Paid")),
      ("customer", .record [("name", .scalar (.text "Ann"))])]⟩
    let bound : ℕ → Operand := fun n => p.params.getD (n - 4) (.bool false)
    (∀ q ∈ p.leaves, q.Applies row ∧ q.LooksAtColumn row) ∧ Binds bound 3 p.params ∧
      p.sql 3 = "(status >= $4 AND (customer.name NOT LIKE $5 AND TRUE) AND " ++
        "note IS DISTINCT FROM $6 AND note IS NULL)" ∧
      (p.clause 3).truth bound row = .true := by
  intro status p row bound
  have hstatus : row.lookup (pathSegments "status") = .scalar (.member "Paid") := by
    rw [show pathSegments "status" = ["status"] by decide]
    rfl
  have hname : row.lookup (pathSegments "customer.name") = .scalar (.text "Ann") := by
    rw [show pathSegments "customer.name" = ["customer", "name"] by decide]
    rfl
  have hnote : row.lookup (pathSegments "note") = .null := by
    rw [show pathSegments "note" = ["note"] by decide]
    rfl
  have hleaves : ∀ q ∈ p.leaves, q.Applies row ∧ q.LooksAtColumn row := by
    intro q hq
    simp only [p, leaves, leavesAll, List.append_nil, List.cons_append, List.nil_append,
      List.mem_cons, List.not_mem_nil, or_false] at hq
    rcases hq with rfl | rfl | rfl | rfl
    · exact ⟨.inr ⟨.member "Paid", .int ⟨1, by decide⟩, hstatus, by decide, by decide⟩, trivial⟩
    · exact ⟨.inr ⟨"Ann", hname⟩, .inr rfl⟩
    · exact ⟨.inl hnote, trivial⟩
    · exact ⟨.inl hnote, trivial⟩
  have hbound : Binds bound 3 p.params := by
    intro i a hi
    have hindex : 3 + 1 + i - 4 = i := by omega
    simp only [bound, hindex, List.getD_eq_getElem?_getD, hi, Option.getD_some]
  obtain ⟨-, htruth⟩ := evaluate_iff_truth p (fun q hq => (hleaves q hq).1)
    (fun q hq => (hleaves q hq).2) hbound
  exact ⟨hleaves, hbound, by decide +kernel, htruth.1 (by decide +kernel)⟩

/-- **A pattern does not match a date.** The text of an instant contains a `T`, and evaluation
matches the text. The clause casts the text to a date, of which no `LIKE` test is true; the
date written out has no `T` in it either. -/
theorem evaluate_like_date :
    let p : Predicate := .like ⟨"d", .date⟩ ⟨"%T%"⟩ false
    let row : Record := ⟨[("d", .scalar (.text "2024-03-09T14:05:00"))]⟩
    let bound : ℕ → Operand := fun _ => .text "%T%"
    (∀ q ∈ p.leaves, q.Applies row) ∧ Binds bound 0 p.params ∧
      p.sql 0 = "CAST(d AS DATE) LIKE $1" ∧ p.evaluate row ∧
      (p.clause 0).truth bound row ≠ .true := by
  intro p row bound
  have hbound : Binds bound 0 p.params := by
    intro i a hi
    have hone : i = 0 ∧ .text "%T%" = a := by
      simpa [p, params, List.getElem?_singleton] using hi
    exact hone.2
  have happlies : ∀ q ∈ p.leaves, q.Applies row := by
    intro q hq
    obtain rfl : q = p := List.mem_singleton.1 hq
    exact .inr ⟨"2024-03-09T14:05:00", by rfl⟩
  exact ⟨happlies, hbound, by decide +kernel, by decide +kernel, by decide +kernel⟩

end Predicate

end GridQuery
