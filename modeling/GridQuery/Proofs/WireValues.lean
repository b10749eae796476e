import GridQuery.Proofs.Fields
import GridQuery.Proofs.TypedText
import GridQuery.Proofs.WireClock
import GridQuery.Wire.Value

/-!
# Values and operands on the wire

The form of a value names its representation, and the form of an operand its shape, so the content
is read as what it was written as. Whole numbers keep their range, decimals their scale, and instants
all that their clock shows, to the nanosecond. What cannot be told from the form is the sign of a
decimal zero, which reading drops (`Value.ofData?_data`, `Operand.ofData?_data`), a leap second after
another second than 59, which the clock shows as the second after, and which double was not finite,
so no such double is read at all. Otherwise forms are equal only for equal values, the sign of a
zero included (`Value.shown_eq_of_data_eq`, `Operand.shown_eq_of_data_eq`).
-/

namespace GridQuery

open Data

/-! ## Scalars -/

namespace Binary64

variable {x y : Binary64}

theorem isScalar_data (x : Binary64) : x.data.isScalar := by
  unfold data
  split <;> rfl

theorem float?_data (x : Binary64) : x.data.float? = if x.isFinite then some x else none := by
  unfold data
  split <;> rfl

theorem eq_of_data_eq (h : x.data = y.data) : x = y ∨ ¬ x.isFinite ∧ ¬ y.isFinite := by
  have hread := x.float?_data
  rw [h, y.float?_data] at hread
  cases hx : x.isFinite <;> cases hy : y.isFinite <;> simp_all

end Binary64

theorem Decimal.ofData?_data (d : Decimal) : ofData? d.data = some d.unsignedZero := by
  simp only [data, ofData?, text, String.toList_ofList, ofText?_chars]

theorem Decimal.data_injective : Function.Injective Decimal.data := by
  intro c d h
  exact text_injective (Data.text.inj h)

theorem Instant.ofData?_data (i : Instant) : ofData? i.data = some i.shown := by
  simp only [data, ofData?, text?, Option.bind_some, readLoose?_zuluText]

theorem Instant.data_shown (i : Instant) : i.shown.data = i.data := by
  rw [data, zuluText, write_shown]
  rfl

theorem Instant.shown_eq_of_data_eq {i j : Instant} (h : i.data = j.data) : i.shown = j.shown := by
  have hread := i.ofData?_data
  rw [h, j.ofData?_data] at hread
  exact (Option.some.inj hread).symm

theorem Date.ofData?_data (d : Date) : ofData? d.data = some d := by
  simp only [data, ofData?, text?, Option.bind_some, readLoose?_text]

theorem Date.data_injective : Function.Injective Date.data := by
  intro c d h
  have hread := c.ofData?_data
  rw [h, d.ofData?_data] at hread
  exact (Option.some.inj hread).symm

/-! ## Values -/

namespace Value

variable {v w : Value}

/-- Whether a value is no double, or a finite one. -/
def isFinite : Value → Bool
  | .float x => x.isFinite
  | _ => true

/-- A value where a decimal zero has no sign. -/
def unsignedZero : Value → Value
  | .decimal d => .decimal d.unsignedZero
  | v => v

/-- What is shown of a value: of an instant, what the clock shows. -/
def shown : Value → Value
  | .instant i => .instant i.shown
  | v => v

/-- All of a value is shown, unless it is an instant that is not regular. -/
theorem shown_eq_self_iff : v.shown = v ↔ ∀ i, v = .instant i → i.IsRegular := by
  cases v with
  | instant i => simp [shown, Instant.shown_eq_self_iff]
  | _ => exact iff_of_true rfl (by rintro i ⟨⟩)

theorem data_shown (v : Value) : v.shown.data = v.data := by
  cases v with
  | instant i => simp only [shown, data, variant, content, i.data_shown]
  | _ => rfl

theorem equal_unsignedZero_self (v : Value) : v.Equal v.unsignedZero := by
  cases v with
  | decimal d => exact equal_unsignedZero d
  | _ => exact .inl rfl

/-- The representation of a value. -/
def representation : Value → Variant
  | .whole w _ => .whole w
  | .float _ => .float
  | .decimal _ => .decimal
  | .bool _ => .bool
  | .text _ => .text
  | .instant _ => .instant
  | .member _ => .member

/-- Different representations have different names. -/
theorem ofName?_variant (v : Value) : Variant.ofName? v.variant = some v.representation := by
  cases v with
  | whole w n => cases w <;> rfl
  | _ => rfl

theorem isScalar_content (v : Value) : v.content.isScalar := by
  cases v with
  | float x => exact x.isScalar_data
  | _ => rfl

/-- The content of a value is read back under its representation. -/
theorem ofContent?_content (v : Value) :
    ofContent? v.representation v.content =
      if v.isFinite then some v.shown.unsignedZero else none := by
  cases v with
  | whole w n =>
    simp [representation, content, ofContent?, whole?_integer, isFinite, shown, unsignedZero]
  | float x =>
    by_cases hx : x.isFinite <;>
      simp [representation, content, ofContent?, x.float?_data, isFinite, shown, unsignedZero, hx]
  | decimal d =>
    simp [representation, content, ofContent?, d.ofData?_data, isFinite, shown, unsignedZero]
  | instant i =>
    simp [representation, content, ofContent?, i.ofData?_data, isFinite, shown, unsignedZero]
  | _ => rfl

/-- Values of one representation with the same content show the same. -/
theorem shown_eq_of_content_eq (hrepresentation : v.representation = w.representation)
    (hcontent : v.content = w.content) : v.shown = w.shown ∨ ¬ v.isFinite ∧ ¬ w.isFinite := by
  cases v with
  | whole width m =>
    cases w with
    | whole width' n =>
      obtain rfl := Variant.whole.inj hrepresentation
      exact .inl (congrArg (whole width) (Whole.ext (Data.integer.inj hcontent)))
    | _ => cases hrepresentation
  | float x =>
    cases w with
    | float y => exact (Binary64.eq_of_data_eq hcontent).imp (congrArg float) id
    | _ => cases hrepresentation
  | decimal c =>
    cases w with
    | decimal d => exact .inl (congrArg decimal (Decimal.data_injective hcontent))
    | _ => cases hrepresentation
  | bool a =>
    cases w with
    | bool b => exact .inl (congrArg bool (Data.bool.inj hcontent))
    | _ => cases hrepresentation
  | text s =>
    cases w with
    | text t => exact .inl (congrArg text (Data.text.inj hcontent))
    | _ => cases hrepresentation
  | instant i =>
    cases w with
    | instant j => exact .inl (congrArg instant (Instant.shown_eq_of_data_eq hcontent))
    | _ => cases hrepresentation
  | member s =>
    cases w with
    | member t => exact .inl (congrArg member (Data.text.inj hcontent))
    | _ => cases hrepresentation

/-- The fields that a reader gets from the form of a value. -/
theorem exists_entries? (v : Value) : ∃ own,
    layout.entries? Json.dialect v.data.sorted = some own ∧
      field? "kind" own = some (.text v.variant) ∧ field? "value" own = some v.content := by
  obtain ⟨own, hown, hfield⟩ := layout.exists_entries? rfl
    [("kind", .text v.variant), ("value", v.content)] (by simp) Json.dialect
  refine ⟨own, hown, ?_, ?_⟩
  · rw [hfield "kind" rfl]
    simp [field?, sorted]
  · rw [hfield "value" rfl]
    simp [field?, sorted_of_isScalar v.isScalar_content]

/-- **The form of a value** is read as what it shows, but for the sign of a decimal zero; a double
that is not finite is refused. -/
theorem ofData?_data (v : Value) :
    ofData? v.data.sorted = if v.isFinite then some v.shown.unsignedZero else none := by
  obtain ⟨own, hown, hkind, hvalue⟩ := v.exists_entries?
  have hlist : v.data.sorted.isList = false := isList_sorted _
  have hvariant : Variant.ofData? false (.text v.variant) = some v.representation :=
    v.ofName?_variant
  rw [ofData?, hown]
  simp only [Option.bind_eq_bind, Option.bind_some, required_of_field? hkind,
    required_of_field? hvalue, hlist, hvariant]
  exact v.ofContent?_content

/-- The form of a value shows its representation and its content. -/
theorem shown_eq_of_data_eq (h : v.data.sorted = w.data.sorted) :
    v.shown = w.shown ∨ ¬ v.isFinite ∧ ¬ w.isFinite := by
  obtain ⟨own, hown, hkind, hvalue⟩ := v.exists_entries?
  obtain ⟨own', hown', hkind', hvalue'⟩ := w.exists_entries?
  obtain rfl : own = own' := by
    rw [h, hown'] at hown
    exact (Option.some.inj hown).symm
  have hvariant : v.variant = w.variant :=
    Data.text.inj (Option.some.inj (hkind.symm.trans hkind'))
  refine shown_eq_of_content_eq ?_ (Option.some.inj (hvalue.symm.trans hvalue'))
  have hrepresentation := v.ofName?_variant
  rw [hvariant, w.ofName?_variant] at hrepresentation
  exact (Option.some.inj hrepresentation).symm

/-- **Values on the wire.** -/
theorem faithful_data : Faithful data ofData? (fun v => v.isFinite) shown Equal :=
  .of_read_plain ofData?_data equal_unsignedZero_self data_shown fun _ _ h => shown_eq_of_data_eq h

end Value

/-! ## Operands -/

namespace Operand

variable {a b : Operand}

/-- Whether an operand is no double, or a finite one. -/
def isFinite : Operand → Bool
  | .float x => x.isFinite
  | _ => true

/-- An operand where a decimal zero has no sign. -/
def unsignedZero : Operand → Operand
  | .decimal d => .decimal d.unsignedZero
  | a => a

/-- What is shown of an operand: of an instant, what the clock shows. -/
def shown : Operand → Operand
  | .instant i => .instant i.shown
  | a => a

/-- All of an operand is shown, unless it is an instant that is not regular. -/
theorem shown_eq_self_iff : a.shown = a ↔ ∀ i, a = .instant i → i.IsRegular := by
  cases a with
  | instant i => simp [shown, Instant.shown_eq_self_iff]
  | _ => exact iff_of_true rfl (by rintro i ⟨⟩)

theorem data_shown (a : Operand) : a.shown.data = a.data := by
  cases a with
  | instant i => simp only [shown, data, i.data_shown]
  | _ => rfl

/-- Whether two operands are equal: the same, or decimals that compare equal and have the same
scale. -/
def Equal (a b : Operand) : Prop :=
  a = b ∨ ∃ c d, a = .decimal c ∧ b = .decimal d ∧ c.order d = .eq ∧ c.scale = d.scale

theorem equal_unsignedZero_self (a : Operand) : a.Equal a.unsignedZero := by
  cases a with
  | decimal d =>
    refine .inr ⟨d, d.unsignedZero, rfl, rfl, ?_, d.scale_unsignedZero.symm⟩
    rw [Decimal.order, Decimal.units_unsignedZero, compare_eq_iff_eq]
  | _ => exact .inl rfl

/-- The name of an operand's shape in its form. -/
def tag : Operand → String
  | .int _ => "Int"
  | .uint _ => "UInt"
  | .float _ => "Float"
  | .decimal _ => "Decimal"
  | .bool _ => "Bool"
  | .text _ => "Text"
  | .instant _ => "DateTime"
  | .date _ => "Date"

/-- The content of an operand. -/
def content : Operand → Data
  | .int n => .integer n.val
  | .uint n => .integer n.val
  | .float x => x.data
  | .decimal d => d.data
  | .bool b => .bool b
  | .text s => .text s
  | .instant i => i.data
  | .date d => d.data

theorem isScalar_content (a : Operand) : a.content.isScalar := by
  cases a with
  | float x => exact x.isScalar_data
  | _ => rfl

/-- The form of an operand has its shape and its content, and nothing to be put in order. -/
theorem sorted_data (a : Operand) : a.data.sorted = .record [(a.tag, a.content)] := by
  have hdata : a.data = .record [(a.tag, a.content)] := by cases a <;> rfl
  rw [hdata, sorted_record_singleton, sorted_of_isScalar a.isScalar_content]

/-- **The form of an operand** is read as what it shows, but for the sign of a decimal zero; a
double that is not finite is refused. -/
theorem ofData?_data (a : Operand) :
    ofData? a.data.sorted = if a.isFinite then some a.shown.unsignedZero else none := by
  rw [sorted_data]
  cases a with
  | int n => simp [tag, content, ofData?, whole?_integer, isFinite, shown, unsignedZero]
  | uint n => simp [tag, content, ofData?, whole?_integer, isFinite, shown, unsignedZero]
  | float x =>
    by_cases hx : x.isFinite <;>
      simp [tag, content, ofData?, x.float?_data, isFinite, shown, unsignedZero, hx]
  | decimal d => simp [tag, content, ofData?, d.ofData?_data, isFinite, shown, unsignedZero]
  | instant i => simp [tag, content, ofData?, i.ofData?_data, isFinite, shown, unsignedZero]
  | date d => simp [tag, content, ofData?, d.ofData?_data, isFinite, shown, unsignedZero]
  | _ => rfl

/-- The form of an operand shows its shape and its content. -/
theorem shown_eq_of_data_eq (h : a.data.sorted = b.data.sorted) :
    a.shown = b.shown ∨ ¬ a.isFinite ∧ ¬ b.isFinite := by
  rw [sorted_data, sorted_data] at h
  simp only [Data.record.injEq, List.cons.injEq, Prod.mk.injEq, and_true] at h
  obtain ⟨htag, hcontent⟩ := h
  cases a with
  | int m =>
    cases b with
    | int n => exact .inl (congrArg int (Whole.ext (Data.integer.inj hcontent)))
    | _ => simp [tag] at htag
  | uint m =>
    cases b with
    | uint n => exact .inl (congrArg uint (Whole.ext (Data.integer.inj hcontent)))
    | _ => simp [tag] at htag
  | float x =>
    cases b with
    | float y => exact (Binary64.eq_of_data_eq hcontent).imp (congrArg float) id
    | _ => simp [tag] at htag
  | decimal c =>
    cases b with
    | decimal d => exact .inl (congrArg decimal (Decimal.data_injective hcontent))
    | _ => simp [tag] at htag
  | bool s =>
    cases b with
    | bool t => exact .inl (congrArg bool (Data.bool.inj hcontent))
    | _ => simp [tag] at htag
  | text s =>
    cases b with
    | text t => exact .inl (congrArg text (Data.text.inj hcontent))
    | _ => simp [tag] at htag
  | instant i =>
    cases b with
    | instant j => exact .inl (congrArg instant (Instant.shown_eq_of_data_eq hcontent))
    | _ => simp [tag] at htag
  | date c =>
    cases b with
    | date d => exact .inl (congrArg date (Date.data_injective hcontent))
    | _ => simp [tag] at htag

/-- **Operands on the wire.** -/
theorem faithful_data : Faithful data ofData? (fun a => a.isFinite) shown Equal :=
  .of_read_plain ofData?_data equal_unsignedZero_self data_shown fun _ _ h => shown_eq_of_data_eq h

end Operand

end GridQuery
