import GridQuery.Proofs.Compilation

/-!
# Rules in the course of being edited

A rule is created for a column and then edited any number of times. Whatever the edits
are and whichever of them fail, the rule keeps its identity, an operator that its column
accepts, and a value; only the value can become unfit for the column, since one edit
stores values without looking at them. So a rule fails to compile by its path or by its
value and in no other way, and never by a value that was checked when it was stored.

## Main results

* `Draft.Consistent.step` — an edit keeps a rule consistent.
* `Draft.Consistent.run` — so does a run of edits.
* `Rule.compile_after_edits` — how a rule can fail to compile after a run of edits.
-/

namespace GridQuery

/-! ## Edits -/

namespace Rule

/-- The ways to edit a rule. -/
inductive Edit where
  | setOperator (op : Operator)
  | rebind (now : Instant) (column : Column) (type : FieldType) (property : String)
  | setValue (v : Value)
  | setText (text : String)
  | setApplied (applied : Bool)
  | copy

/-- A rule with the fields of another one, its identity included. -/
def copy (r : Rule) : Rule where
  id := r.id
  column := r.column
  property := r.property
  operator := r.operator
  kind := r.kind
  nullable := r.nullable
  value := r.value
  applied := r.applied

/-- The rule after an edit. -/
def edit (r : Rule) : Edit → Except QueryError Rule
  | .setOperator op => r.setOperator op
  | .rebind now column type property => r.rebind now column type property
  | .setValue v => .ok (r.setValue v)
  | .setText text => r.setText text
  | .setApplied applied => .ok (r.setApplied applied)
  | .copy => .ok r.copy

/-- Whether the value of a rule has been checked once an edit has succeeded, given
whether it had been before. -/
def Edit.checks : Edit → Bool → Bool
  | .rebind .., _ | .setText _, _ => true
  | .setValue _, _ => false
  | .setOperator _, before | .setApplied _, before | .copy, before => before

/-- Whether a rule is one that was just created with an identity. -/
def IsCreated (r : Rule) (id : Nat) : Prop :=
  (∃ now column type property op, create id now column type property op = .ok r) ∨
    ∃ schema now column op, forColumn schema id now column op = .ok r

end Rule

/-- A rule in the course of being edited, and whether its value was checked when it was
stored. -/
structure Draft where
  rule : Rule
  checked : Bool

namespace Draft

/-- A rule that has not been edited yet. The value it starts with is checked. -/
def ofRule (r : Rule) : Draft := ⟨r, true⟩

/-- The draft after an edit; an edit that fails changes nothing. -/
def step (d : Draft) (e : Rule.Edit) : Draft :=
  match d.rule.edit e with
  | .error _ => d
  | .ok r => ⟨r, e.checks d.checked⟩

/-- The draft after a list of edits. -/
def run (d : Draft) (edits : List Rule.Edit) : Draft := edits.foldl step d

theorem step_of_error {d : Draft} {e : Rule.Edit} {err : QueryError}
    (h : d.rule.edit e = .error err) : d.step e = d := by
  rw [step, h]

theorem step_of_ok {d : Draft} {e : Rule.Edit} {r : Rule} (h : d.rule.edit e = .ok r) :
    d.step e = ⟨r, e.checks d.checked⟩ := by
  rw [step, h]

/-- What holds of a rule at all times: its identity, that its column accepts its
operator, that it has a value, which is of its kind if it was checked, and that its kind
has values at all. -/
structure Consistent (id : Nat) (d : Draft) : Prop where
  id_eq : d.rule.id = id
  accepts : d.rule.operator.acceptsColumn d.rule.kind d.rule.nullable
  value : ∃ v, d.rule.value = some v ∧ (d.checked → v.matchesKind d.rule.kind)
  members : ∀ e, d.rule.kind = .enumeration e → e.members ≠ []

end Draft

/-! ## Binding -/

theorem Operator.mem_offered_iff {op : Operator} {k : Kind} {nullable : Bool} :
    op ∈ offered k nullable ↔ op.acceptsColumn k nullable := by
  have hall : op ∈ all := by cases op <;> decide
  rw [offered, List.mem_filter]
  exact and_iff_right hall

/-- An enumeration that has a value has members. -/
theorem Value.members_ne_nil {v : Value} {e : Enumeration} (h : v.matchesKind (.enumeration e)) :
    e.members ≠ [] := by
  obtain ⟨name, n, -, hn⟩ := eq_member_of_matchesKind h
  intro hnil
  rw [Enumeration.ordinal?, hnil] at hn
  cases hn

namespace Rule

/-- Binding to a declared type gives its kind and the default value of the kind. -/
theorem of_binding {now : Instant} {type : FieldType} {k : Kind} {nullable : Bool}
    {v : Value} (h : binding now type = .ok (k, nullable, v)) :
    type.resolve = .ok (k, nullable) ∧ Value.default? now k = some v := by
  unfold binding at h
  split at h
  · cases h
  · rename_i hresolve
    split at h
    · cases h
    · rename_i hdefault
      cases h
      exact ⟨hresolve, hdefault⟩

/-- Binding to a declared type gives a value of the kind. -/
theorem matchesKind_of_binding {now : Instant} {type : FieldType} {k : Kind} {nullable : Bool}
    {v : Value} (h : binding now type = .ok (k, nullable, v)) : v.matchesKind k :=
  Value.default_matchesKind (of_binding h).2

theorem of_create {id : Nat} {now : Instant} {column : Column} {type : FieldType}
    {property : String} {op : Operator} {r : Rule}
    (h : create id now column type property op = .ok r) :
    r.id = id ∧ r.operator.acceptsColumn r.kind r.nullable ∧
      ∃ v, r.value = some v ∧ v.matchesKind r.kind := by
  unfold create at h
  split at h
  · cases h
  · rename_i hbinding
    split at h
    · rename_i haccepts
      cases h
      exact ⟨rfl, haccepts, _, rfl, matchesKind_of_binding hbinding⟩
    · cases h

/-- A rule in the place of another one, with its identity and its mark. -/
def inPlaceOf (q r : Rule) : Rule := { q with id := r.id, applied := r.applied }

/-- **Rebinding is creating in the place of a rule**, under whichever identity. -/
theorem rebind_eq_map_create (r : Rule) (id : Nat) (now : Instant) (column : Column)
    (type : FieldType) (property : String) : r.rebind now column type property =
      (create id now column type property r.operator).map fun q => q.inPlaceOf r := by
  unfold rebind create
  cases binding now type with
  | error e => rfl
  | ok bound =>
    obtain ⟨k, nullable, v⟩ := bound
    by_cases haccepts : r.operator.acceptsColumn k nullable
    · simp only [haccepts, if_true]
      rfl
    · simp only [haccepts]
      rfl

theorem of_rebind {r r' : Rule} {now : Instant} {column : Column} {type : FieldType}
    {property : String} (h : r.rebind now column type property = .ok r') :
    r'.id = r.id ∧ r'.operator.acceptsColumn r'.kind r'.nullable ∧
      ∃ v, r'.value = some v ∧ v.matchesKind r'.kind := by
  rw [rebind_eq_map_create r r.id] at h
  cases hq : create r.id now column type property r.operator with
  | error e =>
    rw [hq] at h
    cases h
  | ok q =>
    rw [hq] at h
    cases h
    obtain ⟨-, haccepts, hvalue⟩ := of_create hq
    exact ⟨rfl, haccepts, hvalue⟩

theorem of_setOperator {r r' : Rule} {op : Operator} (h : r.setOperator op = .ok r') :
    op.acceptsColumn r.kind r.nullable ∧ r' = { r with operator := op } := by
  unfold setOperator at h
  split at h
  · rename_i haccepts
    cases h
    exact ⟨haccepts, rfl⟩
  · cases h

theorem of_setText {r r' : Rule} {text : String} (h : r.setText text = .ok r') :
    ∃ v, v.matchesKind r.kind ∧ r' = { r with value := some v } := by
  unfold setText at h
  split at h
  · cases h
  · rename_i v hv
    cases h
    exact ⟨v, Value.ofEntry_matchesKind hv, rfl⟩

/-- Both ways to create a rule end in the same one. -/
theorem IsCreated.create {r : Rule} {id : Nat} (h : r.IsCreated id) :
    ∃ now column type property op, Rule.create id now column type property op = .ok r := by
  rcases h with h | ⟨schema, now, column, op, h⟩
  · exact h
  · unfold forColumn at h
    split at h
    · cases h
    · exact ⟨now, column, _, _, op, h⟩

end Rule

/-! ## Consistency -/

namespace Draft

/-- A draft whose value is of its kind is consistent. -/
theorem Consistent.of_matchesKind {id : Nat} {d : Draft} (hid : d.rule.id = id)
    (haccepts : d.rule.operator.acceptsColumn d.rule.kind d.rule.nullable)
    (hvalue : ∃ v, d.rule.value = some v ∧ v.matchesKind d.rule.kind) : Consistent id d := by
  obtain ⟨v, hv, hkind⟩ := hvalue
  refine ⟨hid, haccepts, ⟨v, hv, fun _ => hkind⟩, fun e he => ?_⟩
  rw [he] at hkind
  exact Value.members_ne_nil hkind

theorem consistent_ofRule {r : Rule} {id : Nat} (h : r.IsCreated id) :
    Consistent id (ofRule r) := by
  obtain ⟨now, column, type, property, op, hcreate⟩ := h.create
  obtain ⟨hid, haccepts, hvalue⟩ := Rule.of_create hcreate
  exact .of_matchesKind hid haccepts hvalue

/-- **An edit keeps a draft consistent**, whether it succeeds or fails. -/
theorem Consistent.step {id : Nat} {d : Draft} (h : Consistent id d) (e : Rule.Edit) :
    Consistent id (d.step e) := by
  cases hedit : d.rule.edit e with
  | error err =>
    rw [step_of_error hedit]
    exact h
  | ok r =>
    rw [step_of_ok hedit]
    cases e with
    | setOperator op =>
      obtain ⟨haccepts, rfl⟩ := Rule.of_setOperator hedit
      exact ⟨h.id_eq, haccepts, h.value, h.members⟩
    | rebind now column type property =>
      obtain ⟨hid, haccepts, hvalue⟩ := Rule.of_rebind hedit
      exact .of_matchesKind (hid.trans h.id_eq) haccepts hvalue
    | setValue v =>
      cases hedit
      exact ⟨h.id_eq, h.accepts, ⟨v, rfl, nofun⟩, h.members⟩
    | setText text =>
      obtain ⟨v, hv, rfl⟩ := Rule.of_setText hedit
      exact ⟨h.id_eq, h.accepts, ⟨v, rfl, fun _ => hv⟩, h.members⟩
    | setApplied applied =>
      cases hedit
      exact ⟨h.id_eq, h.accepts, h.value, h.members⟩
    | copy =>
      cases hedit
      exact ⟨h.id_eq, h.accepts, h.value, h.members⟩

/-- **A run of edits keeps a draft consistent.** -/
theorem Consistent.run {id : Nat} {d : Draft} (h : Consistent id d) (edits : List Rule.Edit) :
    Consistent id (d.run edits) := by
  induction edits generalizing d with
  | nil => exact h
  | cons e edits ih => exact ih (h.step e)

end Draft

/-! ## Compilation -/

namespace Rule

variable {r : Rule} {schema : Schema} {options : CompileOptions}

/-- Whether compiling a rule fails with an error of a code. -/
def FailsWith (r : Rule) (schema : Schema) (options : CompileOptions) (code : ErrorCode) : Prop :=
  ∃ e, r.compile schema options = .error e ∧ e.code = code

/-- Whether a rule compares with a value that does not coerce into its kind. -/
def HasUnfitValue (r : Rule) : Prop :=
  r.operator.needsValue ∧ ∃ v reason, r.value = some v ∧ v.coerce r.kind = .error reason

/-- A value of the kind is fit for it. -/
theorem not_hasUnfitValue (h : ∃ v, r.value = some v ∧ v.matchesKind r.kind) :
    ¬ r.HasUnfitValue := by
  rintro ⟨-, v, reason, hv, hreason⟩
  obtain ⟨w, hw, hkind⟩ := h
  rw [hv, Option.some.injEq] at hw
  subst hw
  rw [Value.coerce_of_matchesKind hkind] at hreason
  cases hreason

theorem exists_compile (haccepts : r.operator.acceptsColumn r.kind r.nullable)
    (hvalue : r.value.isSome) (hfit : ¬ r.HasUnfitValue) {f : ResolvedField}
    (hf : schema.resolve r.column.path = .ok f) : ∃ p, r.compile schema options = .ok p := by
  rw [compile_of_resolve_ok hf]
  cases hw : (r.condition options).operandValue with
  | ok w => exact Condition.exists_compile haccepts hw
  | error e =>
    obtain ⟨-, hneeds, hcoerce⟩ := Condition.operandValue_error hw
    obtain ⟨v, hv⟩ := Option.isSome_iff_exists.1 hvalue
    obtain ⟨reason, hreason⟩ := hcoerce v hv
    exact absurd ⟨hneeds, v, reason, hv, hreason⟩ hfit

theorem failsWith_invalidPath {e : SchemaError} (he : schema.resolve r.column.path = .error e) :
    r.FailsWith schema options .invalidPath :=
  ⟨_, compile_of_resolve_error he,
    QueryError.ofSchemaError_code (Schema.path?_of_resolve_error he)⟩

theorem failsWith_invalidValue (haccepts : r.operator.acceptsColumn r.kind r.nullable)
    (hunfit : r.HasUnfitValue) {f : ResolvedField}
    (hf : schema.resolve r.column.path = .ok f) : r.FailsWith schema options .invalidValue := by
  obtain ⟨hneeds, v, reason, hv, hreason⟩ := hunfit
  have hw : (r.condition options).operandValue =
      .error (Condition.valueError r.column.path reason) := by
    simp [Condition.operandValue, condition, hneeds, hv, hreason]
  refine ⟨Condition.valueError r.column.path reason, ?_, rfl⟩
  rw [compile_of_resolve_ok hf, Condition.compile, hw]
  simp [condition, haccepts]

/-- A rule fails with one code at most. -/
theorem FailsWith.code_eq {code : ErrorCode} (h : r.FailsWith schema options code)
    {e : QueryError} (he : r.compile schema options = .error e) : e.code = code := by
  obtain ⟨e', he', hcode⟩ := h
  rw [he] at he'
  cases he'
  exact hcode

theorem not_failsWith_of_ne {code code' : ErrorCode} (h : r.FailsWith schema options code)
    (hne : code' ≠ code) : ¬ r.FailsWith schema options code' := by
  rintro ⟨e, he, rfl⟩
  exact hne (h.code_eq he)

theorem not_failsWith_of_ok {p : Predicate} (h : r.compile schema options = .ok p)
    (code : ErrorCode) : ¬ r.FailsWith schema options code := by
  rintro ⟨e, he, -⟩
  rw [h] at he
  cases he

/-- The three outcomes of compiling a rule whose column accepts its operator. -/
theorem compile_outcome (haccepts : r.operator.acceptsColumn r.kind r.nullable)
    (hvalue : r.value.isSome) (schema : Schema) (options : CompileOptions) :
    (∃ e, schema.resolve r.column.path = .error e ∧ r.FailsWith schema options .invalidPath) ∨
    ∃ f, schema.resolve r.column.path = .ok f ∧
      (r.HasUnfitValue ∧ r.FailsWith schema options .invalidValue ∨
        ¬ r.HasUnfitValue ∧ ∃ p, r.compile schema options = .ok p) := by
  cases hf : schema.resolve r.column.path with
  | error e => exact .inl ⟨e, rfl, failsWith_invalidPath hf⟩
  | ok f =>
    refine .inr ⟨f, rfl, ?_⟩
    by_cases hunfit : r.HasUnfitValue
    · exact .inl ⟨hunfit, failsWith_invalidValue haccepts hunfit hf⟩
    · exact .inr ⟨hunfit, exists_compile haccepts hvalue hunfit hf⟩

theorem failsWith_invalidPath_iff (haccepts : r.operator.acceptsColumn r.kind r.nullable)
    (hvalue : r.value.isSome) : r.FailsWith schema options .invalidPath ↔
      ∃ e, schema.resolve r.column.path = .error e := by
  constructor
  · intro hfails
    rcases compile_outcome haccepts hvalue schema options with
      ⟨e, he, -⟩ | ⟨f, -, ⟨-, hvalueFails⟩ | ⟨-, p, hp⟩⟩
    · exact ⟨e, he⟩
    · exact absurd hfails (not_failsWith_of_ne hvalueFails (by decide))
    · exact absurd hfails (not_failsWith_of_ok hp _)
  · rintro ⟨e, he⟩
    exact failsWith_invalidPath he

theorem failsWith_invalidValue_iff (haccepts : r.operator.acceptsColumn r.kind r.nullable)
    (hvalue : r.value.isSome) {f : ResolvedField} (hf : schema.resolve r.column.path = .ok f) :
    r.FailsWith schema options .invalidValue ↔ r.HasUnfitValue := by
  constructor
  · intro hfails
    by_contra hfit
    obtain ⟨p, hp⟩ : ∃ p, r.compile schema options = .ok p :=
      exists_compile haccepts hvalue hfit hf
    exact not_failsWith_of_ok hp _ hfails
  · intro hunfit
    exact failsWith_invalidValue haccepts hunfit hf

/-- There is no third way to fail. -/
theorem code_of_compile_error (haccepts : r.operator.acceptsColumn r.kind r.nullable)
    (hvalue : r.value.isSome) {e : QueryError} (he : r.compile schema options = .error e) :
    e.code = .invalidPath ∨ e.code = .invalidValue := by
  rcases compile_outcome haccepts hvalue schema options with
    ⟨-, -, hfails⟩ | ⟨f, -, ⟨-, hfails⟩ | ⟨-, p, hp⟩⟩
  · exact .inl (hfails.code_eq he)
  · exact .inr (hfails.code_eq he)
  · rw [hp] at he
    cases he

/-- **How a rule can fail to compile after a run of edits.** A rule that was created and
then edited in any way keeps its identity, an operator that its column offers, a value,
and a kind that has members if it is an enumeration, and an edit that fails leaves it as it
was. It does not compile when its path leads nowhere, or else when it compares with a
value that does not coerce. There is no third way: its operator is accepted, a value of the
kind is there to compare with, and any instant can be cut down to the minute. The second
does not occur while the value is one that was checked. -/
theorem compile_after_edits {id : Nat} {r : Rule} (h : r.IsCreated id) (edits : List Edit) :
    let d := (Draft.ofRule r).run edits
    (d.rule.id = id ∧ d.rule.operator ∈ d.rule.allowedOperators ∧ d.rule.value.isSome ∧
      ∀ e, d.rule.kind = .enumeration e → e.members ≠ []) ∧
    (∀ e err, d.rule.edit e = .error err → d.step e = d) ∧
    ∀ (schema : Schema) (options : CompileOptions),
      (d.rule.FailsWith schema options .invalidPath ↔
        ∃ e, schema.resolve d.rule.column.path = .error e) ∧
      (∀ f, schema.resolve d.rule.column.path = .ok f →
        (d.rule.FailsWith schema options .invalidValue ↔ d.rule.HasUnfitValue) ∧
        (¬ d.rule.HasUnfitValue → ∃ p, d.rule.compile schema options = .ok p)) ∧
      (∀ e, d.rule.compile schema options = .error e →
        e.code = .invalidPath ∨ e.code = .invalidValue) ∧
      (d.checked → ¬ d.rule.FailsWith schema options .invalidValue) := by
  intro d
  have hd : d.Consistent id := (Draft.consistent_ofRule h).run edits
  obtain ⟨v, hv, hchecked⟩ := hd.value
  have hvalue : d.rule.value.isSome := by rw [hv]; rfl
  refine ⟨⟨hd.id_eq, Operator.mem_offered_iff.2 hd.accepts, hvalue, hd.members⟩,
    fun e err he => Draft.step_of_error he, fun schema options => ?_⟩
  refine ⟨failsWith_invalidPath_iff hd.accepts hvalue, fun f hf => ⟨?_, ?_⟩,
    fun e he => code_of_compile_error hd.accepts hvalue he, fun hc hfails => ?_⟩
  · exact failsWith_invalidValue_iff hd.accepts hvalue hf
  · exact fun hfit => exists_compile hd.accepts hvalue hfit hf
  · have hfit : ¬ d.rule.HasUnfitValue := not_hasUnfitValue ⟨v, hv, hchecked hc⟩
    rcases compile_outcome hd.accepts hvalue schema options with
      ⟨-, -, hpathFails⟩ | ⟨f, -, ⟨hunfit, -⟩ | ⟨-, p, hp⟩⟩
    · exact not_failsWith_of_ne hpathFails (by decide) hfails
    · exact hfit hunfit
    · exact not_failsWith_of_ok hp _ hfails

/-- A price that is compared with a word: the operator that does not fit is refused, the
value is taken, and the rule does not compile any more. -/
theorem compile_after_unfit_price : ∃ r,
    create 7 .first { path := "price" } (.kind (.whole .int32)) "price" .greaterThan = .ok r ∧
    let d := (Draft.ofRule r).run [.setOperator .contains, .setValue (.text "ten"), .copy]
    d.rule.id = 7 ∧ d.rule.operator = .greaterThan ∧
      d.rule.FailsWith ⟨"Item", [("price", .kind (.whole .int32))]⟩ {} .invalidValue := by
  refine ⟨_, rfl, ?_⟩
  have hcreated : IsCreated _ 7 := .inl ⟨.first, { path := "price" }, .kind (.whole .int32),
    "price", .greaterThan, rfl⟩
  have h := compile_after_edits hcreated [.setOperator .contains, .setValue (.text "ten"), .copy]
  obtain ⟨⟨hid, -⟩, -, hcompile⟩ := h
  obtain ⟨-, hresolved, -⟩ := hcompile ⟨"Item", [("price", .kind (.whole .int32))]⟩ {}
  exact ⟨hid, rfl, (hresolved _ rfl).1.2 ⟨rfl, .text "ten", _, rfl, rfl⟩⟩

end Rule

end GridQuery
