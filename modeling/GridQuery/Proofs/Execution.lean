import GridQuery.Proofs.Conjunction
import GridQuery.Proofs.StableSort
import GridQuery.Request

/-!
# Answering a request from rows in memory

A request is answered in two independent ways: a source counts, sorts and slices the
rows that satisfy the predicate of the request, and `Page.ofRows` does the same to a
list that was filtered beforehand. The two agree, and the errors come in a fixed order:
the sort column first, then the rules as they are listed. There is an answer unless the sort
breaks off, which it does not do where the comparison of the rows is transitive.

## Main results

* `Source.page_ofRows` — a page of the source in memory is a page of the filtered rows.
* `Request.execute_ofRows` — the answer of a request, error or page, in terms of its rules.
-/

namespace GridQuery

variable {α : Type}

/-! ## Pages -/

namespace Page

/-- A page repeats the order that was asked for. -/
theorem info_answer (pager : Pager) (total : UInt64) (rows : List α) :
    (answer pager total rows).info.sortColumn = pager.order?.map RowOrder.column ∧
    (answer pager total rows).info.direction = pager.order?.map RowOrder.direction := by
  unfold answer
  cases pager.order? with
  | none => exact ⟨rfl, rfl⟩
  | some order => exact ⟨rfl, rfl⟩

end Page

/-- **A page of the source in memory.** Counting and fetching from the source gives the
page of the rows that satisfy the predicate, if there is one. -/
theorem Source.page_ofRows (lib : Sorter) (view : α → Record) (rows : List α) (p : Predicate)
    (pager : Pager) : (Source.ofRows lib view rows).page p pager =
      (Page.ofRows lib pager view (rows.filter fun row => p.evaluate (view row))).map .ok := by
  unfold Source.page Source.ofRows Page.ofRows Page.sorted
  cases pager.order? with
  | none => rfl
  | some order =>
    simp only
    cases hsort : order.sort lib view (rows.filter fun row => p.evaluate (view row)) with
    | none => rfl
    | some whole =>
      -- The source counts before it sorts, a page of a list afterwards.
      have hcount : Page.count whole = Page.count (rows.filter fun row => p.evaluate (view row)) := by
        rw [Page.count, Page.count, (RowOrder.perm_of_sort hsort).length_eq]
      rw [Option.map_some, Option.map_some, Option.map_some, hcount]
      rfl

/-! ## The sort column -/

namespace Pager

theorem order?_eq_none_iff {pager : Pager} : pager.order? = none ↔ pager.sortColumn = "" := by
  unfold order?
  split <;> simp_all

theorem order?_of_ne {pager : Pager} (h : pager.sortColumn ≠ "") :
    pager.order? = some ⟨pager.sortColumn, pager.direction⟩ := if_neg h

/-- Whether there is nothing to sort by, or the comparison is transitive on the rows. -/
def CanSort (pager : Pager) (view : α → Record) (rows : List α) : Prop :=
  pager.sortColumn = "" ∨
    RowOrder.TransitiveRows ⟨pager.sortColumn, pager.direction⟩ view rows

end Pager

/-- Rows that can be sorted have a page. -/
theorem Page.exists_ofRows {pager : Pager} {view : α → Record} {rows : List α}
    (h : pager.CanSort view rows) (lib : Sorter) : ∃ page, Page.ofRows lib pager view rows = some page := by
  unfold Page.ofRows Page.sorted
  by_cases hempty : pager.sortColumn = ""
  · rw [Pager.order?_eq_none_iff.2 hempty]
    exact ⟨_, rfl⟩
  · have hcoherent := RowOrder.coherent_of_transitiveOn (h.resolve_left hempty)
    obtain ⟨whole, hwhole, -⟩ := hcoherent.exists_sort lib
    simp only [Pager.order?_of_ne hempty, hwhole]
    exact ⟨_, rfl⟩

namespace Request

variable {r : Request} {schema : Schema}

/-- The error of a sort column that leads nowhere. -/
def sortError (e : SchemaError) : QueryError :=
  (QueryError.ofSchemaError e).during "Validating sort column"

theorem sortError?_of_error {e : SchemaError} (hne : r.pager.sortColumn ≠ "")
    (h : schema.resolve r.pager.sortColumn = .error e) :
    r.sortError? schema = some (sortError e) := by
  unfold sortError?
  rw [Pager.order?_of_ne hne]
  simp only [h]
  rfl

theorem sortError?_eq_none
    (h : r.pager.sortColumn = "" ∨ ∃ f, schema.resolve r.pager.sortColumn = .ok f) :
    r.sortError? schema = none := by
  unfold sortError?
  by_cases hempty : r.pager.sortColumn = ""
  · rw [Pager.order?_eq_none_iff.2 hempty]
  · obtain ⟨f, hf⟩ := h.resolve_left hempty
    rw [Pager.order?_of_ne hempty]
    simp only [hf]

/-- The error of a sort column is an error about that path. -/
theorem sortError_about {path : String} {e : SchemaError} (h : schema.resolve path = .error e) :
    (sortError e).code = .invalidPath ∧ (sortError e).field = some path := by
  have hpath : e.path? = some path := Schema.path?_of_resolve_error h
  exact ⟨QueryError.ofSchemaError_code hpath, QueryError.ofSchemaError_field hpath⟩

/-! ## The answer -/

section Answer

variable (lib : Sorter) (view : α → Record) (rows : List α)

theorem execute_of_prepare_error {e : QueryError} (h : r.prepare schema = .error e)
    (source : Source α) : r.execute schema source = some (.error e) := by
  rw [execute, h]

theorem execute_of_prepare_ok {p : Predicate} (h : r.prepare schema = .ok p) :
    r.execute schema (.ofRows lib view rows) =
      (Page.ofRows lib r.pager view (rows.filter fun row => p.evaluate (view row))).map .ok := by
  rw [execute, h]
  exact Source.page_ofRows lib view rows p r.pager

theorem prepare_of_sortError {e : QueryError} (h : r.sortError? schema = some e) :
    r.prepare schema = .error e := by
  rw [prepare, h]

theorem prepare_eq_expression (h : r.sortError? schema = none) :
    r.prepare schema = r.expression schema := by
  rw [prepare, h]

theorem validate_eq_ok_iff : r.validate schema = .ok () ↔ ∃ p, r.prepare schema = .ok p := by
  unfold validate
  cases r.prepare schema with
  | error e => exact iff_of_false nofun nofun
  | ok p => exact iff_of_true rfl ⟨p, rfl⟩

/-- Validating fails where answering fails, and with the same error. -/
theorem validate_eq_error_iff {e : QueryError} :
    r.validate schema = .error e ↔ r.execute schema (.ofRows lib view rows) = some (.error e) := by
  unfold validate
  cases h : r.prepare schema with
  | error e' =>
    rw [execute_of_prepare_error h, Option.some.injEq]
    constructor <;> rintro ⟨⟩ <;> rfl
  | ok p =>
    rw [execute_of_prepare_ok lib view rows h]
    refine iff_of_false nofun fun hpage => ?_
    obtain ⟨page, -, hok⟩ := Option.map_eq_some_iff.1 hpage
    cases hok

/-- Without a faulty rule, the answer is made of the rows that satisfy every rule. -/
theorem execute_of_no_fault (hsort : r.sortError? schema = none)
    (hrules : (r.rules.findSome? fun rule => rule.fault? schema r.options) = none) :
    r.execute schema (.ofRows lib view rows) =
      (Page.ofRows lib r.pager view (rows.filter fun row =>
        r.rules.all fun rule => rule.admits schema r.options (view row))).map .ok := by
  cases hp : r.expression schema with
  | error e =>
    have hfault := expression_eq_error_iff.1 hp
    rw [hrules] at hfault
    cases hfault
  | ok p =>
    have hprepare : r.prepare schema = .ok p := (prepare_eq_expression hsort).trans hp
    rw [execute_of_prepare_ok lib view rows hprepare]
    simp only [evaluate_expression hp]

/-- An answer repeats the order exactly when there is one. -/
theorem info_of_execute {page : Page α} (hpage : r.execute schema (.ofRows lib view rows) =
    some (.ok page)) :
    (r.pager.sortColumn = "" → page.info.sortColumn = none ∧ page.info.direction = none) ∧
    (r.pager.sortColumn ≠ "" → page.info.sortColumn = some r.pager.sortColumn ∧
      page.info.direction = some r.pager.direction) := by
  cases hprepare : r.prepare schema with
  | error e =>
    rw [execute_of_prepare_error hprepare] at hpage
    cases hpage
  | ok p =>
    rw [execute_of_prepare_ok lib view rows hprepare, Option.map_eq_some_iff] at hpage
    obtain ⟨page', hpage', hok⟩ := hpage
    obtain rfl : page' = page := Except.ok.inj hok
    obtain ⟨whole, -, rfl⟩ := Option.map_eq_some_iff.1 hpage'
    obtain ⟨hcolumn, hdirection⟩ := Page.info_answer r.pager (Page.count whole)
      (Page.slice r.pager.skip r.pager.take whole)
    refine ⟨fun hempty => ?_, fun hne => ?_⟩
    · rw [Pager.order?_eq_none_iff.2 hempty] at hcolumn hdirection
      exact ⟨hcolumn, hdirection⟩
    · rw [Pager.order?_of_ne hne] at hcolumn hdirection
      exact ⟨hcolumn, hdirection⟩

/-- A request without an error gets its page if the rows that satisfy its predicate can be
sorted. -/
theorem exists_page_of_validate (hvalid : r.validate schema = .ok ())
    (hsort : r.pager.CanSort view (rows.filter fun row =>
      r.rules.all fun rule => rule.admits schema r.options (view row))) :
    ∃ page, r.execute schema (.ofRows lib view rows) = some (.ok page) := by
  obtain ⟨p, hp⟩ := validate_eq_ok_iff.1 hvalid
  have hexpression : r.expression schema = .ok p := by
    unfold prepare at hp
    split at hp
    · cases hp
    · exact hp
  simp only [← evaluate_expression hexpression] at hsort
  obtain ⟨page, hpage⟩ := Page.exists_ofRows hsort lib
  exact ⟨page, by rw [execute_of_prepare_ok lib view rows hp, hpage]; rfl⟩

end Answer

/-- **The answer of a request over rows in memory.** A sort column that leads nowhere
decides the error whatever the rules are; after it comes the first rule that cannot be
compiled; otherwise the answer is the page of the rows that satisfy every rule. There is such a
page unless sorting these rows breaks off, which it does not do where there is nothing to sort by
or the comparison is transitive. The page repeats the order exactly when there is one. Validating
finds an error exactly where answering finds it, and the same one. -/
theorem execute_ofRows (lib : Sorter) (r : Request) (schema : Schema) (view : α → Record)
    (rows : List α) :
    let answer := r.execute schema (.ofRows lib view rows)
    let kept := rows.filter fun row =>
      r.rules.all fun rule => rule.admits schema r.options (view row)
    (∀ e, r.pager.sortColumn ≠ "" → schema.resolve r.pager.sortColumn = .error e →
      answer = some (.error (sortError e)) ∧
      (sortError e).code = .invalidPath ∧ (sortError e).field = some r.pager.sortColumn) ∧
    ((r.pager.sortColumn = "" ∨ ∃ f, schema.resolve r.pager.sortColumn = .ok f) →
      (∀ e, (r.rules.findSome? fun rule => rule.fault? schema r.options) = some e →
        answer = some (.error e)) ∧
      ((r.rules.findSome? fun rule => rule.fault? schema r.options) = none →
        answer = (Page.ofRows lib r.pager view kept).map .ok ∧
        (r.pager.CanSort view kept → ∃ page,
          Page.ofRows lib r.pager view kept = some page ∧ answer = some (.ok page)))) ∧
    (∀ page, answer = some (.ok page) →
      (r.pager.sortColumn = "" → page.info.sortColumn = none ∧ page.info.direction = none) ∧
      (r.pager.sortColumn ≠ "" → page.info.sortColumn = some r.pager.sortColumn ∧
        page.info.direction = some r.pager.direction)) ∧
    (∀ e, r.validate schema = .error e ↔ answer = some (.error e)) ∧
    (r.pager.CanSort view kept →
      (r.validate schema = .ok () ↔ ∃ page, answer = some (.ok page))) := by
  intro answer kept
  refine ⟨fun e hne he => ?_, fun hsort => ⟨fun e he => ?_, fun hnone => ?_⟩,
    fun page hpage => info_of_execute lib view rows hpage,
    fun e => validate_eq_error_iff lib view rows, fun hcan => ⟨fun hvalid => ?_, ?_⟩⟩
  · have hprepare := prepare_of_sortError (sortError?_of_error hne he)
    exact ⟨execute_of_prepare_error hprepare _, sortError_about he⟩
  · have hexpression : r.expression schema = .error e := expression_eq_error_iff.2 he
    refine execute_of_prepare_error ?_ _
    rw [prepare_eq_expression (sortError?_eq_none hsort), hexpression]
  · have hanswer : answer = (Page.ofRows lib r.pager view kept).map .ok :=
      execute_of_no_fault lib view rows (sortError?_eq_none hsort) hnone
    refine ⟨hanswer, fun hcan => ?_⟩
    obtain ⟨page, hpage⟩ := Page.exists_ofRows hcan lib
    exact ⟨page, hpage, by rw [hanswer, hpage]; rfl⟩
  · exact exists_page_of_validate lib view rows hvalid hcan
  · rintro ⟨page, hpage⟩
    cases hvalid : r.validate schema with
    | ok _ => rfl
    | error e =>
      have herror : answer = some (.error e) := (validate_eq_error_iff lib view rows).1 hvalid
      cases herror.symm.trans hpage

/-- **No answer.** A request that nothing is wrong with, over rows on which the comparison is not
transitive: the sort that is run breaks off. -/
theorem execute_breaks_off :
    let r : Request := { pager := ⟨1, 10, "v", .ascending, by decide, by decide⟩, rules := [] }
    let schema : Schema := ⟨"Reading", [("v", .kind .decimal)]⟩
    r.validate schema = .ok () ∧
      r.execute schema (.ofRows .standard id RowOrder.mixedRows) = none := by
  intro r schema
  have hresolve : schema.resolve "v" = .ok ⟨"v", ["v"], .kind .decimal, false⟩ := rfl
  have hprepare : r.prepare schema = .ok .always :=
    prepare_eq_expression (sortError?_eq_none (.inr ⟨_, hresolve⟩))
  have hkept : (RowOrder.mixedRows.filter fun row => Predicate.always.evaluate (id row)) =
      RowOrder.mixedRows := List.filter_eq_self.2 fun _ _ => rfl
  refine ⟨validate_eq_ok_iff.2 ⟨_, hprepare⟩, ?_⟩
  rw [execute_of_prepare_ok _ _ _ hprepare, hkept, Page.ofRows]
  show ((RowOrder.sort ⟨"v", .ascending⟩ .standard id RowOrder.mixedRows).map _).map _ = none
  rw [RowOrder.sort_breaks_off]
  rfl

end Request

end GridQuery
