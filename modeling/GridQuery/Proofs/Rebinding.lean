import GridQuery.Proofs.Conformity

/-!
# Rebinding a rule

Binding a rule to another column makes it the rule that would be created for that column with
the operator of the rule (`Rule.rebind_eq_map_create`), except that the rule stays itself: it
keeps its identity and whether it is applied. So nothing else of what the rule was before shows
in it, and it is rebound exactly when it could be created.

What a declared type gives to a rule depends on the time only where the default value is an
instant.

## Main results

* `Rule.exists_create_iff` — for which columns and operators a rule can be created.
* `Rule.create_startedAt` — what the time of creation changes.
* `Rule.rebind_after_edits` — what a rule is once it is rebound, whatever it was before.
-/

namespace GridQuery

namespace Value

/-- Defaults depend on the time only where they are instants. -/
theorem default?_congr {k : Kind} (h : k ≠ .dateTime) (now later : Instant) :
    default? now k = default? later k := by
  cases k with
  | dateTime => exact absurd rfl h
  | _ => rfl

end Value

namespace Rule

/-- A rule as it is when it is created at a time: a default that is an instant is that time. -/
def startedAt (q : Rule) (now : Instant) : Rule :=
  if q.kind = .dateTime then { q with value := some (.instant now) } else q

variable {id : ℕ} {now : Instant} {column : Column} {type : FieldType} {property : String}
  {op : Operator} {k : Kind} {nullable : Bool} {v : Value} {q : Rule}

/-! ## Binding -/

/-- What binding takes from a declared type: the kind under its nullable wrappers, and whether
there are any. -/
theorem core_of_binding (h : binding now type = .ok (k, nullable, v)) :
    type.core.kind? = .ok k ∧ nullable = type.isNullable :=
  (FieldType.core_of_resolve (of_binding h).1).2

/-- Binding later gives the same, but for a default that is an instant. -/
theorem binding_startedAt (now later : Instant) (type : FieldType) : binding later type =
    (binding now type).map fun (k, nullable, v) =>
      (k, nullable, if k = .dateTime then .instant later else v) := by
  unfold binding
  cases type.resolve with
  | error e => rfl
  | ok resolved =>
    obtain ⟨k, nullable⟩ := resolved
    by_cases hk : k = .dateTime
    · subst hk
      rfl
    · simp only [Value.default?_congr hk later now]
      cases Value.default? now k with
      | none => rfl
      | some v => simp only [Except.map, if_neg hk]

/-! ## Creating -/

theorem create_eq_ok_iff : create id now column type property op = .ok q ↔
    ∃ k v, binding now type = .ok (k, type.isNullable, v) ∧ op.acceptsColumn k type.isNullable ∧
      q = { id, column, property, operator := op, kind := k, nullable := type.isNullable,
            value := some v, applied := false } := by
  constructor
  · intro h
    unfold create at h
    split at h
    · cases h
    · rename_i k nullable v hbinding
      obtain ⟨-, rfl⟩ := core_of_binding hbinding
      split at h
      · rename_i haccepts
        cases h
        exact ⟨k, v, hbinding, haccepts, rfl⟩
      · cases h
  · rintro ⟨k, v, hbinding, haccepts, rfl⟩
    rw [create, hbinding]
    simp only [haccepts, if_true]

/-- **Which rules can be created**: those for a column with a kind that accepts the operator. -/
theorem exists_create_iff : (∃ q, create id now column type property op = .ok q) ↔
    ∃ k, type.core.kind? = .ok k ∧ op.acceptsColumn k type.isNullable := by
  constructor
  · rintro ⟨q, hq⟩
    obtain ⟨k, v, hbinding, haccepts, -⟩ := create_eq_ok_iff.1 hq
    exact ⟨k, (core_of_binding hbinding).1, haccepts⟩
  · rintro ⟨k, hk, haccepts⟩
    have hresolve : type.resolve = .ok (k, type.isNullable) := by rw [FieldType.resolve, hk]
    obtain ⟨v, hbinding⟩ := binding_eq hresolve now
    exact ⟨_, create_eq_ok_iff.2 ⟨k, v, hbinding, haccepts, rfl⟩⟩

/-- What a created rule takes from its declared type. -/
theorem bound_of_create (h : create id now column type property op = .ok q) :
    type.core.kind? = .ok q.kind ∧ q.nullable = type.isNullable ∧
      q.value = Value.default? now q.kind := by
  obtain ⟨k, v, hbinding, -, rfl⟩ := create_eq_ok_iff.1 h
  exact ⟨(core_of_binding hbinding).1, rfl, (of_binding hbinding).2.symm⟩

/-- Creating a rule later gives the same rule, or the same error, but for a default that is
an instant. -/
theorem create_startedAt (id : ℕ) (now later : Instant) (column : Column) (type : FieldType)
    (property : String) (op : Operator) : create id later column type property op =
      (create id now column type property op).map fun q => q.startedAt later := by
  unfold create
  rw [binding_startedAt now later]
  cases binding now type with
  | error e => rfl
  | ok bound =>
    obtain ⟨k, nullable, v⟩ := bound
    simp only [Except.map]
    by_cases haccepts : op.acceptsColumn k nullable
    · simp only [haccepts, if_true, startedAt]
      by_cases hk : k = .dateTime
      · simp only [hk, if_true]
      · simp only [hk, if_false]
    · simp only [haccepts, Bool.false_eq_true, if_false]

/-! ## Rebinding -/

/-- **Rebinding forgets the history of a rule.** Whatever edits a rule has seen, binding it to a
column is compared with creating a rule for that column and type, with the operator that the
rule has by then. The one succeeds when the other does, which is when the type has a kind under
its nullable wrappers that accepts the operator. The rebound rule is the created one, but for
the identity and the mark of the rule; so its kind and its nullability are those of the type and
its value is the default of the kind, which for instants is the present one. Where creating
fails, rebinding fails with the same error and the rule stays as it was. -/
theorem rebind_after_edits (r₀ : Rule) (edits : List Edit) (id : ℕ) (now : Instant)
    (column : Column) (type : FieldType) (property : String) :
    let d := (Draft.ofRule r₀).run edits
    let created := create id now column type property d.rule.operator
    let rebound := d.rule.rebind now column type property
    let d' := d.step (.rebind now column type property)
    ((∃ r, rebound = .ok r) ↔ ∃ q, created = .ok q) ∧
    ((∃ q, created = .ok q) ↔
      ∃ k, type.core.kind? = .ok k ∧ d.rule.operator.acceptsColumn k type.isNullable) ∧
    (∀ q, created = .ok q →
      rebound = .ok { q with id := d.rule.id, applied := d.rule.applied } ∧
      d'.rule = { q with id := d.rule.id, applied := d.rule.applied } ∧
      type.core.kind? = .ok q.kind ∧ q.nullable = type.isNullable ∧
      q.value = Value.default? now q.kind ∧
      (q.kind = .dateTime → q.value = some (.instant now))) ∧
    (∀ e, created = .error e → rebound = .error e ∧ d' = d) ∧
    ∀ later, create id later column type property d.rule.operator =
      created.map fun q => q.startedAt later := by
  intro d created rebound d'
  have hmap : rebound = created.map fun q => q.inPlaceOf d.rule :=
    rebind_eq_map_create d.rule id now column type property
  refine ⟨?_, exists_create_iff, fun q hq => ?_, fun e he => ?_,
    fun later => create_startedAt id now later column type property _⟩
  · rw [hmap]
    cases created <;> simp [Except.map]
  · have hrebound : rebound = .ok (q.inPlaceOf d.rule) := by rw [hmap, hq]; rfl
    obtain ⟨hkind, hnullable, hvalue⟩ := bound_of_create hq
    refine ⟨hrebound, ?_, hkind, hnullable, hvalue, fun hk => ?_⟩
    · exact congrArg Draft.rule (Draft.step_of_ok (e := .rebind now column type property) hrebound)
    · rw [hvalue, hk]
      rfl
  · have hrebound : rebound = .error e := by rw [hmap, he]; rfl
    exact ⟨hrebound, Draft.step_of_error (e := .rebind now column type property) hrebound⟩

/-- A rule for a note, with a text in it and applied, becomes one for an amount that starts at
zero. It cannot be bound to a column of characters, and is left alone then. -/
theorem rebind_after_note : ∃ r₀,
    create 7 .first { path := "note" } (.nullable (.kind .text)) "note" .equals = .ok r₀ ∧
    let d := (Draft.ofRule r₀).run [.setValue (.text "hello"), .setApplied true]
    let d' := d.step (.rebind .last { path := "amount" } (.kind .decimal) "amount")
    d'.rule.id = 7 ∧ d'.rule.applied = true ∧ d'.rule.kind = .decimal ∧
      d'.rule.nullable = false ∧ d'.rule.value = some (.decimal Decimal.zero) ∧
      d.step (.rebind .last { path := "initial" } .char "initial") = d := by
  let r₀ : Rule :=
    { id := 7, column := { path := "note" }, property := "note", operator := .equals,
      kind := .text, nullable := true, value := some (.text ""), applied := false }
  let edits : List Edit := [.setValue (.text "hello"), .setApplied true]
  refine ⟨r₀, rfl, ?_⟩
  intro d d'
  obtain ⟨-, -, hamount, -⟩ :=
    rebind_after_edits r₀ edits 8 .last { path := "amount" } (.kind .decimal) "amount"
  obtain ⟨-, hrule, -⟩ := hamount _ rfl
  obtain ⟨-, -, -, hinitial, -⟩ :=
    rebind_after_edits r₀ edits 8 .last { path := "initial" } .char "initial"
  have hd' : d'.rule = _ := hrule
  rw [hd']
  exact ⟨rfl, rfl, rfl, rfl, rfl, (hinitial _ rfl).2⟩

end Rule

end GridQuery
