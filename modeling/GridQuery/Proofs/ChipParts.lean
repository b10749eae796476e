import GridQuery.Proofs.Chip
import GridQuery.Proofs.Editing
import GridQuery.Proofs.SolidText

/-!
# Taking a chip apart

A chip is its parts with tabs between, and nothing in a part is escaped. So cutting it at the tabs
cuts the parts too (`Rule.pieces_chip`), and gives the parts exactly when none of them holds a tab
(`Rule.pieces_chip_eq_iff`). The name of an operator holds none, nor does a value that holds no
string; the display name of a column and the string of a value can.

Whoever takes the first two pieces and leaves what follows them together (`readChip`) gets the
parts back whatever the value is, as long as the display name holds no tab
(`Rule.readChip_chip_iff`).

## Main results

* `Rule.chip_parts` — what can be told from the chip of a rule after any edits.
* `Rule.chip_with_tabs` — chips that do not tell the parts of their rules.
-/

namespace GridQuery

open Text

/-! ## Parts with tabs -/

theorem Operator.tab_not_mem_name (op : Operator) : '\t' ∉ op.name.toList := by
  cases op <;> decide

/-- A value is shown with a tab only where it holds a string with one. -/
theorem Value.tab_not_mem_textAt_iff {g : Granularity} {v : Value} :
    '\t' ∉ (v.textAt g).toList ↔ ∀ s, v.string? = some s → '\t' ∉ s.toList := by
  have hsolid : ∀ {s : String}, IsSolid s.toList → '\t' ∉ s.toList := fun h hmem =>
    absurd (h '\t' hmem) (by decide)
  cases hstring : v.string? with
  | none =>
    refine iff_of_true ?_ (by simp)
    cases v with
    | instant i => exact hsolid (g.isSolid_text i)
    | text s => cases hstring
    | member s => cases hstring
    | _ => exact hsolid (isSolid_display hstring)
  | some s =>
    have htext : v.textAt g = s := by
      cases v <;> cases hstring <;> rfl
    simp [htext]

/-! ## The parts of a chip -/

/-- What is read off a chip: the texts before the first two tabs, and what follows the second tab,
where there is one. -/
def readChip (chip : String) : Option (String × String × Option String) :=
  match pieces '\t' chip with
  | [name, op] => some (name, op, none)
  | name :: op :: rest => some (name, op, some (joined "\t" rest))
  | _ => none

namespace Rule

variable {r : Rule} {options : CompileOptions} {v : Value}

/-- The parts of a chip: the display name of the column, the name of the operator and, where the
operator needs a value, the value as it is shown. -/
def chipParts (r : Rule) (options : CompileOptions) : List String :=
  r.column.displayName :: r.operator.name ::
    if r.operator.needsValue then [r.valueText options] else []

theorem chip_eq_joined (r : Rule) (options : CompileOptions) :
    r.chip options = joined (String.ofList ['\t']) (r.chipParts options) := by
  rw [chip, chipParts]
  split_ifs <;> simp [joined, join, ← String.toList_inj]

/-- **Cutting a chip at the tabs** cuts the display name and the value too. -/
theorem pieces_chip (r : Rule) (options : CompileOptions) :
    pieces '\t' (r.chip options) = pieces '\t' r.column.displayName ++ r.operator.name ::
      if r.operator.needsValue then pieces '\t' (r.valueText options) else [] := by
  rw [chip_eq_joined, pieces_joined _ (by simp [chipParts]), chipParts, List.flatMap_cons,
    List.flatMap_cons, pieces_of_not_mem r.operator.tab_not_mem_name]
  split_ifs <;> simp

/-- A chip is cut into its parts when neither the display name nor the string of a value that is
shown holds a tab. -/
theorem pieces_chip_eq_iff (hv : r.value = some v) :
    pieces '\t' (r.chip options) = r.chipParts options ↔ '\t' ∉ r.column.displayName.toList ∧
      (r.operator.needsValue → ∀ s, v.string? = some s → '\t' ∉ s.toList) := by
  rw [chip_eq_joined, pieces_joined_eq_iff (by simp [chipParts]), chipParts, valueText_eq hv,
    ← Value.tab_not_mem_textAt_iff (g := r.granularity options)]
  cases r.operator.needsValue <;> simp [r.operator.tab_not_mem_name]

/-- **Reading a chip gives its parts** exactly when the display name holds no tab. -/
theorem readChip_chip_iff (r : Rule) (options : CompileOptions) :
    readChip (r.chip options) = some (r.column.displayName, r.operator.name,
        if r.operator.needsValue then some (r.valueText options) else none) ↔
      '\t' ∉ r.column.displayName.toList := by
  constructor
  · intro h
    have hpieces : r.column.displayName ∈ pieces '\t' (r.chip options) := by
      unfold readChip at h
      split at h <;> simp_all
    exact not_mem_of_mem_pieces hpieces
  · intro h
    have hchip : pieces '\t' (r.chip options) = r.column.displayName :: r.operator.name ::
        if r.operator.needsValue then pieces '\t' (r.valueText options) else [] := by
      rw [pieces_chip, pieces_of_not_mem h, List.singleton_append]
    rw [readChip, hchip]
    by_cases hneeds : r.operator.needsValue
    · have hvalue := joined_pieces '\t' (r.valueText options)
      rw [if_pos hneeds, if_pos hneeds]
      cases hrest : pieces '\t' (r.valueText options) with
      | nil => simp [pieces, split_ne_nil] at hrest
      | cons piece rest =>
        rw [hrest] at hvalue
        exact congrArg (fun text => some (_, _, some text)) hvalue
    · rw [if_neg hneeds, if_neg hneeds]

/-- **The parts of a chip**, of a rule that was created and then edited in any way. The rule has a
value, and its chip is cut at the tabs into the pieces of the display name, the name of the
operator and, where the operator needs a value, the pieces of the value as it is shown. These are
the two or three parts exactly when the display name holds no tab, nor does, where it is shown, the
string of a value that holds one. The parts are read off the chip, whatever the value is, exactly
when the display name holds no tab. -/
theorem chip_parts {r₀ : Rule} {id : ℕ} (h : r₀.IsCreated id) (edits : List Edit)
    (options : CompileOptions) :
    let r := ((Draft.ofRule r₀).run edits).rule
    ∃ v, r.value = some v ∧
      pieces '\t' (r.chip options) = pieces '\t' r.column.displayName ++ r.operator.name ::
        (if r.operator.needsValue then pieces '\t' (r.valueText options) else []) ∧
      (pieces '\t' (r.chip options) = r.chipParts options ↔ '\t' ∉ r.column.displayName.toList ∧
        (r.operator.needsValue → ∀ s, v.string? = some s → '\t' ∉ s.toList)) ∧
      (readChip (r.chip options) = some (r.column.displayName, r.operator.name,
          if r.operator.needsValue then some (r.valueText options) else none) ↔
        '\t' ∉ r.column.displayName.toList) := by
  intro r
  obtain ⟨v, hv, -⟩ := ((Draft.consistent_ofRule h).run edits).value
  exact ⟨v, hv, pieces_chip r options, pieces_chip_eq_iff hv, readChip_chip_iff r options⟩

/-- A note with a tab: the chip has a fourth piece, and the note is read off it all the same. -/
theorem chip_parts_tabbed_note : ∃ r₀,
    create 7 .first { path := "note" } (.kind .text) "note" .contains = .ok r₀ ∧
    let r := ((Draft.ofRule r₀).run [.setText "due\tpaid", .setApplied true]).rule
    pieces '\t' (r.chip {}) = ["note", "Contains", "due", "paid"] ∧
      pieces '\t' (r.chip {}) ≠ r.chipParts {} ∧
      readChip (r.chip {}) = some ("note", "Contains", some "due\tpaid") := by
  refine ⟨_, rfl, ?_⟩
  have hcreated : IsCreated _ 7 :=
    .inl ⟨.first, { path := "note" }, .kind .text, "note", .contains, rfl⟩
  obtain ⟨v, hv, hpieces, hparts, hread⟩ :=
    chip_parts hcreated [.setText "due\tpaid", .setApplied true] {}
  obtain rfl : v = .text "due\tpaid" := (Option.some.inj hv).symm
  refine ⟨hpieces.trans (by decide), fun h => ?_, hread.2 (by decide)⟩
  exact absurd ((hparts.1 h).2 rfl _ rfl) (by decide)

/-- **Chips that do not tell the parts of their rules.** A tab in a display name makes three pieces
out of the two parts of a null check. And a tab in a display name and one in a value make the chips
of two rules the same that differ in both, so there is no way to take them apart. -/
theorem chip_with_tabs :
    let plain : Column := { path := "note" }
    let tabbed : Column := { path := "note", header := some "note\tEquals" }
    let type : FieldType := .nullable (.kind .text)
    ∃ check first second, create 1 .first tabbed type "note" .isNull = .ok check ∧
      create 2 .first plain type "note" .equals = .ok first ∧
      create 3 .first tabbed type "note" .equals = .ok second ∧
      let r := ((Draft.ofRule first).run [.setText "Equals\tdue"]).rule
      let s := ((Draft.ofRule second).run [.setText "due"]).rule
      pieces '\t' (check.chip {}) = ["note", "Equals", "IsNull"] ∧
      check.chipParts {} = ["note\tEquals", "IsNull"] ∧
      r.chip {} = s.chip {} ∧ (pieces '\t' (r.chip {})).length = 4 ∧
      r.chipParts {} = ["note", "Equals", "Equals\tdue"] ∧
      s.chipParts {} = ["note\tEquals", "Equals", "due"] := by
  refine ⟨_, _, _, rfl, rfl, rfl, ?_⟩
  decide

end Rule

end GridQuery
