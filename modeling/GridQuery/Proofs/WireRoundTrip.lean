import GridQuery.Proofs.WireValues
import GridQuery.Wire.Grid

/-!
# What is sent is read back

Operators are sent as their numbers, directions and granularities as names, columns and pages as
records some of whose fields can be null or left out. All of these are read back exactly
(`Operator.ofData?_data`, `Column.ofData?_data`, `Page.ofData?_data`), so different ones are sent
differently. Together with values and operands this is `forms_faithful`.

A reader gets its fields from `Data.Layout.exists_entries?`, whatever order they were sent in; what
is left is one fact for each field.
-/

namespace GridQuery

open Data

/-! ## Numbers and names -/

theorem Data.text?_text (s : String) : text? (.text s) = some s := rfl

theorem Operator.ofData?_data (op : Operator) : ofData? op.data.sorted = some op := by
  have hscalar : op.data.sorted = op.data := sorted_of_isScalar rfl
  rw [hscalar]
  cases op <;> rfl

theorem SortDirection.ofData?_data (d : SortDirection) : ofData? d.data = some d := by
  cases d <;> rfl

theorem Granularity.ofData?_data (g : Granularity) : ofData? Json.dialect g.data = some g := by
  cases g <;> rfl

/-! ## Columns -/

namespace Column

/-- The fields that a reader gets from the form of a column. -/
theorem exists_entries? (c : Column) : ∃ own,
    layout.entries? Json.dialect c.data.sorted = some own ∧
      field? "propertyPath" own = some (.text c.path) ∧
      field? "displayName" own = some (ofOption .text c.header) ∧
      field? "dateTimeFormat" own = some (ofOption Granularity.data c.granularity) := by
  obtain ⟨own, hown, hfield⟩ := layout.exists_entries? rfl
    [("propertyPath", .text c.path), ("displayName", ofOption .text c.header),
      ("dateTimeFormat", ofOption Granularity.data c.granularity)] (by simp) Json.dialect
  refine ⟨own, hown, ?_, ?_, ?_⟩
  · rw [hfield "propertyPath" rfl]
    simp [field?, sorted]
  · rw [hfield "displayName" rfl]
    simp [field?, sorted_ofOption Data.text fun _ => rfl]
  · rw [hfield "dateTimeFormat" rfl]
    simp [field?, sorted_ofOption Granularity.data fun _ => rfl]

/-- A column is read back, with its header and its granularity or without them. -/
theorem ofData?_data (c : Column) : ofData? c.data.sorted = some c := by
  obtain ⟨own, hown, hpath, hheader, hgranularity⟩ := c.exists_entries?
  rw [ofData?, hown]
  simp only [Option.bind_eq_bind, Option.bind_some, required_of_field? hpath,
    optional_ofOption text?_text nofun hheader,
    optional_ofOption Granularity.ofData?_data nofun hgranularity]
  rfl

end Column

/-! ## Pages -/

namespace PageInfo

/-- The entries in the form of the numbers of a page. -/
def entries (i : PageInfo) : List (String × Data) :=
  [("pageNr", .integer i.pageNr.toNat), ("pageSize", .integer i.pageSize.toNat),
    ("pageCount", .integer i.pageCount.toNat), ("totalRecordCount", .integer i.total.toNat)] ++
    entryOfOption "sortColumn" .text i.sortColumn ++
    entryOfOption "sortDirection" SortDirection.data i.direction

/-- No two fields have the same name, whether a sort is named or not. -/
theorem nodup_names (i : PageInfo) : (i.entries.map Prod.fst).Nodup := by
  cases hcolumn : i.sortColumn <;> cases hdirection : i.direction <;>
    simp [entries, entryOfOption, hcolumn, hdirection]

/-- The fields that a reader gets from the form of the numbers of a page. -/
theorem exists_entries? (i : PageInfo) : ∃ own,
    layout.entries? Json.dialect i.data.sorted = some own ∧
      field? "pageNr" own = some (.integer i.pageNr.toNat) ∧
      field? "pageSize" own = some (.integer i.pageSize.toNat) ∧
      field? "pageCount" own = some (.integer i.pageCount.toNat) ∧
      field? "totalRecordCount" own = some (.integer i.total.toNat) ∧
      field? "sortColumn" own = i.sortColumn.map .text ∧
      field? "sortDirection" own = i.direction.map SortDirection.data := by
  obtain ⟨own, hown, hfield⟩ := layout.exists_entries? rfl i.entries i.nodup_names Json.dialect
  refine ⟨own, hown, ?_, ?_, ?_, ?_, ?_, ?_⟩
  · rw [hfield "pageNr" rfl]
    simp [entries, field?, sorted]
  · rw [hfield "pageSize" rfl]
    simp [entries, field?, sorted]
  · rw [hfield "pageCount" rfl]
    simp [entries, field?, sorted]
  · rw [hfield "totalRecordCount" rfl]
    simp [entries, field?, sorted]
  · rw [hfield "sortColumn" rfl]
    cases hcolumn : i.sortColumn <;> cases hdirection : i.direction <;>
      simp [entries, field?, entryOfOption, sorted, hcolumn, hdirection]
  · rw [hfield "sortDirection" rfl]
    cases hcolumn : i.sortColumn <;> cases hdirection : i.direction <;>
      simp [entries, field?, entryOfOption, SortDirection.data, sorted, hcolumn, hdirection]

/-- The numbers of a page are read back, with a sort or without one. -/
theorem ofData?_data (i : PageInfo) : ofData? i.data.sorted = some i := by
  obtain ⟨own, hown, hpageNr, hpageSize, hpageCount, htotal, hcolumn, hdirection⟩ :=
    i.exists_entries?
  rw [ofData?, hown]
  simp only [Option.bind_eq_bind, Option.bind_some, required_of_field? hpageNr,
    required_of_field? hpageSize, required_of_field? hpageCount, required_of_field? htotal,
    word64?_integer, optional_of_map text?_text nofun hcolumn,
    optional_of_map SortDirection.ofData?_data nofun hdirection]

end PageInfo

namespace Page

variable {α : Type} {row : α → Data} {row? : Data → Option α}

/-- The fields that a reader gets from the form of a page. -/
theorem exists_entries? (row : α → Data) (p : Page α) : ∃ own,
    (openLayout [("data", false), ("paging", false)]).entries? Json.dialect (p.data row).sorted =
        some own ∧
      field? "data" own = some (.list (p.rows.map fun a => (row a).sorted)) ∧
      field? "paging" own = some p.info.data.sorted := by
  obtain ⟨own, hown, hfield⟩ := Layout.exists_entries?
    (l := openLayout [("data", false), ("paging", false)]) rfl
    [("data", .list (p.rows.map row)), ("paging", p.info.data)] (by simp) Json.dialect
  refine ⟨own, hown, ?_, ?_⟩
  · rw [hfield "data" rfl]
    simp [field?, Function.comp_def]
  · rw [hfield "paging" rfl]
    simp [field?]

/-- **A page is read back** if its rows are. -/
theorem ofData?_data (hrow : ∀ a, row? (row a).sorted = some a) (p : Page α) :
    ofData? row? (p.data row).sorted = some p := by
  obtain ⟨own, hown, hrows, hinfo⟩ := p.exists_entries? row
  rw [ofData?, hown]
  simp only [Option.bind_eq_bind, Option.bind_some, required_of_field? hrows,
    required_of_field? hinfo, list?_map hrow, p.info.ofData?_data]

end Page

/-! ## All forms -/

/-- **What is sent is read back.** This holds for the forms of values and operands, of operators,
columns, and pages of integers, all as the trees that are sent, with the entries of records in the
order of their names.

Values and operands are read back as long as no double that is not finite is in them, and such a
double is refused. What comes back is what was shown: whole numbers with their width, decimals with
their scale, instants with their nanoseconds. Of a decimal zero the sign is not read, which no
comparison of decimals sees. Values that show something different are sent as different trees,
unless both are doubles that are not finite. All of a value is shown, unless it is an instant in a
leap second after another second than 59. -/
theorem forms_faithful :
    Faithful Value.data Value.ofData? (fun v => v.isFinite) Value.shown Value.Equal ∧
    Faithful Operand.data Operand.ofData? (fun a => a.isFinite) Operand.shown Operand.Equal ∧
    (∀ v : Value, v.shown = v ↔ ∀ i, v = .instant i → i.IsRegular) ∧
    (∀ a : Operand, a.shown = a ↔ ∀ i, a = .instant i → i.IsRegular) ∧
    Faithful Operator.data Operator.ofData? (fun _ => True) id Eq ∧
    Faithful Column.data Column.ofData? (fun _ => True) id Eq ∧
    Faithful (Page.data fun n : Whole .int64 => .integer n.val) (Page.ofData? (whole? .int64))
      (fun _ => True) id Eq := by
  refine ⟨Value.faithful_data, Operand.faithful_data, fun v => v.shown_eq_self_iff,
    fun a => a.shown_eq_self_iff, .of_read_back Operator.ofData?_data,
    .of_read_back Column.ofData?_data, .of_read_back (Page.ofData?_data ?_)⟩
  intro n
  rw [sorted_of_isScalar rfl, whole?_integer]

/-- **A leap second after second 30** is sent as the second after, as a value and as an operand. So
two different instants have the same form, and one of them is read back as the other. -/
theorem forms_irregular :
    let leap : Instant := ⟨⟨2024, 1, 1, by decide⟩, ⟨12, 34, 30, 1500000000, by decide⟩⟩
    let next : Instant := ⟨⟨2024, 1, 1, by decide⟩, ⟨12, 34, 31, 500000000, by decide⟩⟩
    leap ≠ next ∧
      (Value.instant leap).data = (Value.instant next).data ∧
      Value.ofData? (Value.instant leap).data.sorted = some (.instant next) ∧
      (Operand.instant leap).data = .record [("DateTime", .text "2024-01-01T12:34:31.500Z")] ∧
      (Operand.instant leap).data = (Operand.instant next).data ∧
      Operand.ofData? (Operand.instant leap).data.sorted = some (.instant next) := by
  intro leap next
  have hshown : leap.shown = next := by decide +kernel
  refine ⟨by decide, ?_, ?_, by cbv, ?_, ?_⟩
  · exact hshown ▸ ((Value.instant leap).data_shown).symm
  · rw [Value.ofData?_data]
    exact congrArg (fun i => some (Value.instant i)) hshown
  · exact hshown ▸ ((Operand.instant leap).data_shown).symm
  · rw [Operand.ofData?_data]
    exact congrArg (fun i => some (Operand.instant i)) hshown

end GridQuery
