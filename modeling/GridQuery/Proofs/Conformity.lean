import GridQuery.Proofs.Chains
import GridQuery.Proofs.Editing
import GridQuery.Proofs.Meaning

/-!
# Records that conform to a schema

A record conforms to a schema when each declared field holds what its type says: a scalar
of the kind, a nested record that conforms in turn, or null where the type admits it. On
such records what resolving a path says about null is true: looking the path up goes
through the same fields, and it ends in null only where some field on the way admits null
(`Schema.Leads.lookup_conforms`).

## Main results

* `Cell.Conforms.of_holdsRecord`, `Cell.Conforms.of_core` — one step into a field, and the
  last one.
* `Schema.resolve_nullable_sound` — null is found at the end of a path only if resolving the
  path reports it, and null tests on other paths have a fixed answer.
-/

namespace GridQuery

/-! ## Conforming -/

/-- Whether a type says nothing about its cells: it can be neither filtered on nor traversed,
and it admits no null of its own. -/
def FieldType.IsUnconstrained (t : FieldType) : Prop :=
  t.isNullable = false ∧ ∃ reason, t.kind? = .error reason ∧ reason ≠ .record

/-- Whether a cell holds what a declared type says. -/
inductive Cell.Conforms : Cell → FieldType → Prop
  | null (t : FieldType) : Conforms .null (.nullable t)
  | present {c : Cell} {t : FieldType} (h : Conforms c t) : Conforms c (.nullable t)
  | scalar {v : Value} {k : Kind} (h : v.matchesKind k) : Conforms (.scalar v) (.kind k)
  | record {cells : List (String × Cell)} {name : String} {fields : List (String × FieldType)}
      (h : ∀ f ∈ fields, Conforms (Record.cell ⟨cells⟩ f.1) f.2) :
      Conforms (.record cells) (.record name fields)
  | unconstrained {c : Cell} {t : FieldType} (h : t.IsUnconstrained) : Conforms c t

/-- Whether each declared field of a record holds what its type says. -/
def Record.Conforms (r : Record) (s : Schema) : Prop :=
  ∀ f ∈ s.fields, (r.cell f.1).Conforms f.2

namespace FieldType

theorem eq_kind_of_kind? {t : FieldType} {k : Kind} (h : t.kind? = .ok k) : t = .kind k := by
  unfold kind? at h
  split at h
  · split at h <;> cases h
    rfl
  · cases h
    rfl
  all_goals cases h

/-- What a type is filtered by: the kind under its nullable wrappers. -/
theorem core_of_resolve {t : FieldType} {k : Kind} {nullable : Bool}
    (h : t.resolve = .ok (k, nullable)) :
    t.core = .kind k ∧ t.core.kind? = .ok k ∧ nullable = t.isNullable := by
  unfold resolve at h
  split at h
  · rename_i k' hk
    cases h
    exact ⟨eq_kind_of_kind? hk, hk, rfl⟩
  · cases h

end FieldType

namespace Cell.Conforms

variable {c : Cell} {t : FieldType}

/-- A cell of a type that holds a record is a conforming record, or null if the type admits
null. -/
theorem of_holdsRecord (h : c.Conforms t) {s : Schema} (ht : t.HoldsRecord s) :
    c = .null ∧ t.isNullable ∨ ∃ cells, c = .record cells ∧ Record.Conforms ⟨cells⟩ s := by
  induction ht with
  | record name fields =>
    cases h with
    | record h => exact .inr ⟨_, rfl, h⟩
    | unconstrained h =>
      obtain ⟨-, reason, hreason, hne⟩ := h
      cases hreason
      exact absurd rfl hne
  | nullable ht ih =>
    cases h with
    | null => exact .inl ⟨rfl, rfl⟩
    | present h =>
      rcases ih h with ⟨hnull, -⟩ | hrecord
      · exact .inl ⟨hnull, rfl⟩
      · exact .inr hrecord
    | unconstrained h => cases h.1

/-- A cell of a type with a kind is a scalar of that kind, or null if the type admits
null. -/
theorem of_core (h : c.Conforms t) {k : Kind} (hcore : t.core = .kind k)
    (hkind : t.core.kind? = .ok k) :
    c = .null ∧ t.isNullable ∨ ∃ v, c = .scalar v ∧ v.matchesKind k := by
  induction h with
  | null t => exact .inl ⟨rfl, rfl⟩
  | present _ ih =>
    rcases ih hcore hkind with ⟨hnull, -⟩ | hscalar
    · exact .inl ⟨hnull, rfl⟩
    · exact .inr hscalar
  | scalar hv =>
    cases hcore
    exact .inr ⟨_, rfl, hv⟩
  | record => cases hcore
  | @unconstrained c t h =>
    obtain ⟨hnullable, reason, hreason, -⟩ := h
    have ht : t.core = t := by cases t <;> first | rfl | cases hnullable
    rw [ht, hreason] at hkind
    cases hkind

end Cell.Conforms

/-! ## Looking up -/

namespace Record

theorem lookup_cons {r : Record} {name : String} {rest : List String} (hrest : rest ≠ []) :
    r.lookup (name :: rest) =
      match r.cell name with
      | .record fields => lookup ⟨fields⟩ rest
      | _ => .null := by
  cases rest with
  | nil => exact absurd rfl hrest
  | cons next rest => rfl

end Record

/-- In a conforming record, the names of a chain lead to a record that conforms to what the
chain leads into, or to null on a way that admits null. -/
theorem Schema.Leads.lookup_conforms {s inner : Schema} {way : List (String × FieldType)}
    (h : s.Leads way inner) {r : Record} (hr : r.Conforms s) (name : String) :
    r.lookup (way.map Prod.fst ++ [name]) = .null ∧ (way.any fun f => f.2.isNullable) ∨
      ∃ r' : Record, r'.Conforms inner ∧ r.lookup (way.map Prod.fst ++ [name]) = r'.cell name := by
  induction h generalizing r with
  | here s => exact .inr ⟨r, hr, rfl⟩
  | into hf ht _ ih =>
    rw [List.map_cons, List.cons_append, Record.lookup_cons (by simp), List.any_cons]
    rcases (hr _ hf).of_holdsRecord ht with ⟨hnull, hnullable⟩ | ⟨cells, hcells, hconforms⟩
    · rw [hnull, hnullable]
      exact .inl ⟨rfl, rfl⟩
    · rw [hcells]
      rcases ih hconforms with ⟨hnull, hnullable⟩ | hrecord
      · exact .inl ⟨hnull, by rw [hnullable, Bool.or_true]⟩
      · exact .inr hrecord

namespace Schema

variable {s : Schema} {path : String} {f : ResolvedField} {k : Kind} {b : Bool}

/-- Looking a path up in a conforming record finds a scalar of the resolved kind, or null if
resolving the path reports it. -/
theorem lookup_of_resolve (hs : s.Built) (hf : s.resolve path = .ok f)
    (hk : f.type.resolve = .ok (k, b)) {r : Record} (hr : r.Conforms s) :
    r.lookup (pathSegments path) = .null ∧ f.nullable ∨
      ∃ v, r.lookup (pathSegments path) = .scalar v ∧ v.matchesKind k := by
  obtain ⟨-, way, inner, last, hleads, hlast, hnames⟩ := exists_leads_of_resolve hs hf
  rw [hleads.resolve_eq hs hlast hnames] at hf
  cases hf
  obtain ⟨hcore, hkind, -⟩ := FieldType.core_of_resolve hk
  rw [hnames, List.map_append, List.map_cons, List.map_nil]
  simp only [List.any_append, List.any_cons, List.any_nil, Bool.or_false]
  -- Null is met on the way, or else the last field decides.
  rcases hleads.lookup_conforms hr last.1 with ⟨hnull, hnullable⟩ | ⟨r', hr', hcell⟩
  · exact .inl ⟨hnull, by rw [hnullable, Bool.true_or]⟩
  · rw [hcell]
    rcases (hr' last hlast).of_core hcore hkind with ⟨hnull, hnullable⟩ | hscalar
    · exact .inl ⟨hnull, by rw [hnullable, Bool.or_true]⟩
    · exact .inr hscalar

/-- The last field of a path admits null only if the path does. -/
theorem nullable_of_resolve (hs : s.Built) (hf : s.resolve path = .ok f)
    (hnullable : f.type.isNullable) : f.nullable := by
  obtain ⟨-, way, inner, last, hleads, hlast, hnames⟩ := exists_leads_of_resolve hs hf
  rw [hleads.resolve_eq hs hlast hnames] at hf
  cases hf
  simp [hnullable]

end Schema

/-! ## Rules for a path -/

namespace Rule

variable {f : ResolvedField} {k : Kind} {b : Bool}

/-- The declared type of a rule's column keeps the kind and admits null where the path
does. -/
theorem resolve_declaredType (hk : f.type.resolve = .ok (k, b))
    (hnullable : f.type.isNullable → f.nullable) :
    (declaredType f).resolve = .ok (k, f.nullable) := by
  obtain ⟨-, hkind, -⟩ := FieldType.core_of_resolve hk
  unfold declaredType
  by_cases htype : f.type.isNullable
  · rw [htype, Bool.not_true, Bool.and_false, if_neg (by decide), FieldType.resolve, hkind, htype,
      hnullable htype]
  · rw [Bool.not_eq_true] at htype
    rw [htype, Bool.not_false, Bool.and_true]
    cases hf : f.nullable with
    | false => rw [if_neg (by decide), FieldType.resolve, hkind, htype]
    | true =>
      rw [if_pos rfl, FieldType.resolve, FieldType.core, hkind]
      rfl

/-- A kind that a column can be filtered by has a default value. -/
theorem exists_default {t : FieldType} (h : t.kind? = .ok k) (now : Instant) :
    ∃ v, Value.default? now k = some v := by
  cases k with
  | enumeration e =>
    obtain rfl : t = .kind (.enumeration e) := FieldType.eq_kind_of_kind? h
    rw [FieldType.kind?] at h
    split at h
    · cases h
    · rename_i hempty
      obtain ⟨m, members, hm⟩ : ∃ m members, e.members = m :: members :=
        List.exists_cons_of_ne_nil (by simpa [Enumeration.isEmpty] using hempty)
      exact ⟨.member m.1, by simp [Value.default?, Enumeration.first?, hm]⟩
  | _ => exact ⟨_, rfl⟩

theorem binding_eq {type : FieldType} (h : type.resolve = .ok (k, b)) (now : Instant) :
    ∃ v, binding now type = .ok (k, b, v) := by
  obtain ⟨-, hkind, -⟩ := FieldType.core_of_resolve h
  obtain ⟨v, hv⟩ := exists_default hkind now
  refine ⟨v, ?_⟩
  rw [binding, h]
  simp only [hv]

/-- The rule for a column of a path has the kind and the nullability of the path, and it is
made for every operator that accepts them. -/
theorem forColumn_eq {s : Schema} {column : Column} (hs : s.Built)
    (hf : s.resolve column.path = .ok f) (hk : f.type.resolve = .ok (k, b)) (id : Nat)
    (now : Instant) (op : Operator) :
    ∃ r : Rule, r.column = column ∧ r.operator = op ∧ r.kind = k ∧ r.nullable = f.nullable ∧
      r.value.isSome ∧ forColumn s id now column op =
        if op.acceptsColumn k f.nullable then .ok r else .error (incompatible op column k) := by
  obtain ⟨v, hv⟩ := binding_eq (resolve_declaredType hk (Schema.nullable_of_resolve hs hf)) now
  let r : Rule :=
    { id, column, property := f.segments.getLast?.getD f.path, operator := op, kind := k,
      nullable := f.nullable, value := some v, applied := false }
  refine ⟨r, rfl, rfl, rfl, rfl, rfl, ?_⟩
  rw [forColumn, hf]
  simp only [create, hv, r]

/-- A rule of a null test can be made for every path that can be filtered on, and it
compiles. Where the path admits no null, a conforming record passes the test only if it
asks for a value. -/
theorem exists_nullTest {s : Schema} {column : Column} (hs : s.Built)
    (hf : s.resolve column.path = .ok f) (hk : f.type.resolve = .ok (k, b)) {op : Operator}
    (hop : op.needsValue = false) (id : Nat) (now : Instant) (options : CompileOptions) :
    ∃ r p, forColumn s id now column op = .ok r ∧ r.compile s options = .ok p ∧
      (f.nullable = false → ∀ row : Record, row.Conforms s →
        (p.evaluate row ↔ op = .isNotNull)) := by
  obtain ⟨r, rfl, rfl, rfl, hnullable, hvalue, hr⟩ := forColumn_eq hs hf hk id now op
  have haccepts : r.operator.acceptsColumn r.kind f.nullable := by
    cases h : r.operator <;> rw [h] at hop <;> cases hop <;>
      simp [Operator.acceptsColumn, Operator.acceptsKind, Operator.acceptsCategory,
        Operator.acceptsRequired]
  have hfit : ¬ r.HasUnfitValue := by
    rintro ⟨hneeds, -⟩
    exact absurd hneeds (by simp [hop])
  rw [if_pos haccepts] at hr
  rw [← hnullable] at haccepts
  obtain ⟨p, hp⟩ : ∃ p, r.compile s options = .ok p := exists_compile haccepts hvalue hfit hf
  refine ⟨r, p, hr, hp, fun hrequired row hrow => ?_⟩
  rcases Schema.lookup_of_resolve hs hf hk hrow with ⟨-, hreported⟩ | ⟨x, hx, -⟩
  · rw [hrequired] at hreported
    cases hreported
  · exact Condition.evaluate_nullTest (condition_of_compile hp) hop hx

end Rule

/-- **Null is found only where it is reported.** In a record that conforms to the schema, a
path that can be filtered on leads to a scalar of the resolved kind, or to null if resolving
the path reports it. The rules for a column of the path report null alike, for the kind that
is declared under the nullable wrappers. Where the path admits no null, no conforming record
passes the test for null, and each one passes the test for a value. -/
theorem Schema.resolve_nullable_sound {s : Schema} (hs : s.Built) {path : String}
    {f : ResolvedField} {k : Kind} {b : Bool} (hf : s.resolve path = .ok f)
    (hk : f.type.resolve = .ok (k, b)) :
    (∀ row : Record, row.Conforms s →
      let cell := row.lookup (FieldRef.segments ⟨path, .value⟩)
      cell = .null ∧ f.nullable ∨ ∃ v, cell = .scalar v ∧ v.matchesKind k) ∧
    (∀ id now (column : Column) op, column.path = path →
      (op.acceptsColumn k f.nullable → ∃ r, Rule.forColumn s id now column op = .ok r) ∧
      ∀ r, Rule.forColumn s id now column op = .ok r →
        r.nullable = f.nullable ∧ r.kind = k ∧ f.type.core = .kind r.kind) ∧
    ∀ id now (column : Column) options, column.path = path →
      (∃ r p, Rule.forColumn s id now column .isNull = .ok r ∧ r.compile s options = .ok p ∧
        (f.nullable = false → ∀ row : Record, row.Conforms s → ¬ p.evaluate row)) ∧
      ∃ r p, Rule.forColumn s id now column .isNotNull = .ok r ∧ r.compile s options = .ok p ∧
        (f.nullable = false → ∀ row : Record, row.Conforms s → p.evaluate row) := by
  refine ⟨fun row hrow => lookup_of_resolve hs hf hk hrow, ?_, ?_⟩
  · rintro id now column op rfl
    obtain ⟨r, -, -, rfl, hnullable, -, hr⟩ := Rule.forColumn_eq hs hf hk id now op
    by_cases haccepts : op.acceptsColumn r.kind f.nullable
    · rw [if_pos haccepts] at hr
      refine ⟨fun _ => ⟨r, hr⟩, fun r' hr' => ?_⟩
      rw [hr] at hr'
      cases hr'
      exact ⟨hnullable, rfl, (FieldType.core_of_resolve hk).1⟩
    · rw [if_neg haccepts] at hr
      refine ⟨fun h => absurd h haccepts, fun r' hr' => ?_⟩
      rw [hr] at hr'
      cases hr'
  · rintro id now column options rfl
    have hnull : Operator.isNull.needsValue = false := rfl
    have hnotNull : Operator.isNotNull.needsValue = false := rfl
    obtain ⟨r, p, hr, hp, htest⟩ := Rule.exists_nullTest hs hf hk hnull id now options
    obtain ⟨r', p', hr', hp', htest'⟩ := Rule.exists_nullTest hs hf hk hnotNull id now options
    refine ⟨⟨r, p, hr, hp, fun hrequired row hrow => ?_⟩,
      r', p', hr', hp', fun hrequired row hrow => (htest' hrequired row hrow).2 rfl⟩
    rw [htest hrequired row hrow]
    decide

/-- The city of an address that every customer has: it is there, it is text, and the rule
that it be null matches nobody. -/
theorem Schema.resolve_nullable_sound_home :
    let s : Schema := ⟨"Customer", [("home", .record "Address" [("city", .kind .text)])]⟩
    let row : Record := ⟨[("home", .record [("city", .scalar (.text "Oslo"))])]⟩
    s.Built ∧ row.Conforms s ∧
    ∃ f, s.resolve "home.city" = .ok f ∧ f.type.resolve = .ok (.text, false) ∧
      (∃ v, row.lookup ["home", "city"] = .scalar v ∧ v.matchesKind .text) ∧
      ∃ r p, Rule.forColumn s 1 .first { path := "home.city" } .isNull = .ok r ∧
        r.compile s {} = .ok p ∧ ¬ p.evaluate row := by
  intro s row
  have haddress : Built ⟨"Address", [("city", .kind .text)]⟩ :=
    @Built.of_scalars _ "Address" [("city", .kind .text)] rfl
      (by simp [FieldType.record?, FieldType.core])
  have hs : s.Built := by
    refine @Built.mk s.name s.fields _ rfl fun f hf t ht => ?_
    obtain rfl : f = ("home", .record "Address" [("city", .kind .text)]) :=
      List.mem_singleton.1 hf
    cases ht
    exact haddress
  have hrow : row.Conforms s := by
    intro f hf
    obtain rfl : f = ("home", .record "Address" [("city", .kind .text)]) :=
      List.mem_singleton.1 hf
    refine .record fun g hg => ?_
    obtain rfl : g = ("city", .kind .text) := List.mem_singleton.1 hg
    exact .scalar rfl
  have hf : s.resolve "home.city" = .ok ⟨"home.city", ["home", "city"], .kind .text, false⟩ := by
    rfl
  obtain ⟨hlookup, -, htests⟩ := resolve_nullable_sound hs hf rfl
  obtain ⟨⟨r, p, hr, hp, hnone⟩, -⟩ := htests 1 .first { path := "home.city" } {} rfl
  refine ⟨hs, hrow, _, hf, rfl, ?_, r, p, hr, hp, hnone rfl row hrow⟩
  rcases hlookup row hrow with ⟨-, hnullable⟩ | hscalar
  · cases hnullable
  · exact hscalar

end GridQuery
