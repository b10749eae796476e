import GridQuery.Proofs.CellOrder
import GridQuery.Proofs.Meaning

/-!
# Sorting the cells of a column

Rows are sorted by comparing cells, and cells of all shapes can be compared with one another.
Among the cells that a column of one kind holds, the comparison is that of a linear order
(`Cell.exists_key`): nulls first, then numbers by their amount with a NaN behind them, texts and
the names of members by code points, and instants behind all texts.

Where the comparison of their cells is transitive, rows are ordered by it
(`RowOrder.coherent_of_transitiveOn`), and any sort brings a list of them into this order
(`RowOrder.Coherent.exists_sort`). Where it is not transitive, a sort may break off.
-/

namespace GridQuery

/-! ## Cells of a column -/

/-- The scalars that a column of a kind holds: those of the kind, and text where it holds
instants. -/
def Value.FitsColumn (k : Kind) (x : Value) : Prop :=
  x.matchesKind k ∨ k = .dateTime ∧ ∃ s, x = .text s

/-- The cells that a column of a kind holds: null, or a fitting scalar. -/
def Cell.FitsColumn (k : Kind) (c : Cell) : Prop :=
  c = .null ∨ ∃ x, c = .scalar x ∧ x.FitsColumn k

theorem Value.FitsColumn.matchesKind {k : Kind} {x : Value} (h : x.FitsColumn k)
    (hk : k ≠ .dateTime) : x.matchesKind k :=
  h.resolve_right fun htext => hk htext.1

theorem Value.FitsColumn.text_or_instant {x : Value} (h : x.FitsColumn .dateTime) :
    (∃ s, x = .text s) ∨ ∃ i, x = .instant i := by
  rcases h with h | ⟨-, h⟩
  · exact .inr (eq_instant_of_matchesKind h)
  · exact .inl h

/-! ## Keys -/

namespace Value

variable {x y : Value}

theorem sortOrder_amounts {p q : ℚ} (hx : x.amount? = some p) (hy : y.amount? = some q) :
    ((Operand.ofValue x).sortOrder (.ofValue y)).Compares p q := by
  obtain ⟨m, hm, hp⟩ := Operand.number?_ofValue hx
  obtain ⟨n, hn, hq⟩ := Operand.number?_ofValue hy
  exact Operand.sortOrder_values hm hn hp hq

/-- The name or the text that a value is sorted by. -/
def sortText : Value → String
  | .text s | .member s => s
  | _ => ""

/-- Texts are sorted before instants. -/
def sortInstant : Value → String ⊕ₗ Instant
  | .instant i => Sum.inrₗ i
  | x => Sum.inlₗ x.sortText

/-- Numbers are sorted before a NaN. -/
def sortFloat : Value → WithTop ℤ
  | .float x => x.key
  | _ => ⊤

/-- False is sorted before true. -/
def sortBool : Value → Bool
  | .bool b => b
  | _ => false

/-- Whether the scalars of a column are sorted as their keys. -/
def IsKey {β : Type} [LinearOrder β] (k : Kind) (key : Value → β) : Prop :=
  ∀ x y : Value, x.FitsColumn k → y.FitsColumn k →
    ((Operand.ofValue x).sortOrder (.ofValue y)).Compares (key x) (key y)

theorem isKey_amount {k : Kind} (hk : k ≠ .dateTime)
    (hexists : ∀ x : Value, x.matchesKind k → ∃ q, x.amount? = some q) :
    IsKey k fun x => x.amount?.getD 0 := by
  intro x y hx hy
  obtain ⟨p, hp⟩ := hexists x (hx.matchesKind hk)
  obtain ⟨q, hq⟩ := hexists y (hy.matchesKind hk)
  simp only [hp, hq, Option.getD_some]
  exact sortOrder_amounts hp hq

theorem isKey_text : IsKey .text sortText := by
  intro x y hx hy
  obtain ⟨s, rfl⟩ := eq_text_of_matchesKind (hx.matchesKind nofun)
  obtain ⟨t, rfl⟩ := eq_text_of_matchesKind (hy.matchesKind nofun)
  exact Operand.sortOrder_texts s t

theorem isKey_enumeration (e : Enumeration) : IsKey (.enumeration e) sortText := by
  intro x y hx hy
  obtain ⟨s, -, rfl, -⟩ := eq_member_of_matchesKind (hx.matchesKind nofun)
  obtain ⟨t, -, rfl, -⟩ := eq_member_of_matchesKind (hy.matchesKind nofun)
  exact Operand.sortOrder_texts s t

theorem isKey_dateTime : IsKey .dateTime sortInstant := by
  intro x y hx hy
  obtain ⟨s, rfl⟩ | ⟨i, rfl⟩ := hx.text_or_instant
  · obtain ⟨t, rfl⟩ | ⟨j, rfl⟩ := hy.text_or_instant
    · exact Sum.Lex.inl_strictMono.compares.2 (Operand.sortOrder_texts s t)
    · exact Sum.Lex.inl_lt_inr s j
  · obtain ⟨t, rfl⟩ | ⟨j, rfl⟩ := hy.text_or_instant
    · exact Sum.Lex.inl_lt_inr t i
    · exact Sum.Lex.inr_strictMono.compares.2 (Operand.sortOrder_instants i j)

/-- The scalars of a column are sorted in a linear order. -/
theorem exists_key (k : Kind) :
    ∃ (β : Type) (_ : LinearOrder β) (key : Value → β), IsKey k key := by
  cases k with
  | whole w =>
    refine ⟨ℚ, inferInstance, _, isKey_amount (by simp) fun x hx => ?_⟩
    cases x <;> simp_all [matchesKind, amount?]
  | decimal =>
    refine ⟨ℚ, inferInstance, _, isKey_amount (by simp) fun x hx => ?_⟩
    cases x <;> simp_all [matchesKind, amount?]
  | float =>
    refine ⟨WithTop ℤ, inferInstance, sortFloat, fun x y hx hy => ?_⟩
    obtain ⟨x, rfl⟩ := eq_float_of_matchesKind (hx.matchesKind (by simp))
    obtain ⟨y, rfl⟩ := eq_float_of_matchesKind (hy.matchesKind (by simp))
    exact Binary64.sortOrder_compares x y
  | boolean =>
    refine ⟨Bool, inferInstance, sortBool, fun x y hx hy => ?_⟩
    obtain ⟨a, rfl⟩ := eq_bool_of_matchesKind (hx.matchesKind (by simp))
    obtain ⟨b, rfl⟩ := eq_bool_of_matchesKind (hy.matchesKind (by simp))
    exact Operand.sortOrder_bools a b
  | text => exact ⟨String, inferInstance, sortText, isKey_text⟩
  | enumeration e => exact ⟨String, inferInstance, sortText, isKey_enumeration e⟩
  | dateTime => exact ⟨String ⊕ₗ Instant, inferInstance, sortInstant, isKey_dateTime⟩

end Value

/-- Nulls are sorted before all scalars. -/
def Cell.sortKey {β : Type} (key : Value → β) : Cell → WithBot β
  | .scalar x => key x
  | _ => ⊥

/-- **The cells of a column** are sorted in a linear order. -/
theorem Cell.exists_key (k : Kind) : ∃ (β : Type) (_ : LinearOrder β) (key : Cell → β),
    ∀ a b : Cell, a.FitsColumn k → b.FitsColumn k →
      (a.sortOrder b).Compares (key a) (key b) := by
  obtain ⟨β, _, key, hkey⟩ := Value.exists_key k
  refine ⟨WithBot β, inferInstance, sortKey key, ?_⟩
  rintro a b (rfl | ⟨x, rfl, hx⟩) (rfl | ⟨y, rfl, hy⟩)
  · exact rfl
  · exact WithBot.bot_lt_coe _
  · exact WithBot.bot_lt_coe _
  · exact WithBot.coe_strictMono.compares.2 (hkey x y hx hy)

/-! ## Rows -/

namespace RowOrder

variable {α : Type} {s : RowOrder} {view : α → Record} {rows : List α}

/-- The cell that a row is sorted by. -/
def cell (s : RowOrder) (view : α → Record) (row : α) : Cell := (view row).lookup s.segments

/-- Whether a row comes before another one or is level with it. -/
def Precedes (s : RowOrder) (view : α → Record) (a b : α) : Prop :=
  s.compare (view a) (view b) ≠ .gt

instance : DecidableRel (s.Precedes view) := fun a b =>
  inferInstanceAs (Decidable (s.compare (view a) (view b) ≠ .gt))

/-- Rows exchanged compare the other way around. -/
theorem compare_swap (s : RowOrder) (a b : Record) : s.compare b a = (s.compare a b).swap := by
  rw [compare, compare, Cell.sortOrder_swap (a.lookup s.segments)]
  cases s.direction <;> rfl

/-- Descending is ascending with the rows exchanged. -/
theorem precedes_descending {column : String} {a b : α} :
    Precedes ⟨column, .descending⟩ view a b ↔ Precedes ⟨column, .ascending⟩ view b a :=
  not_congr (Eq.congr_left (Cell.sortOrder_swap _ _).symm)

/-- Whether the rows of a list are ordered by their comparison. -/
def Coherent (s : RowOrder) (view : α → Record) (rows : List α) : Prop :=
  Sorter.Orders (fun a b => s.compare (view a) (view b)) rows

/-- Rows compare coherently in both directions when the comparison of their cells is
transitive. -/
theorem coherent_of_transitiveOn (h : Cell.TransitiveOn {c | ∃ row ∈ rows, s.cell view row = c}) :
    s.Coherent view rows := by
  refine ⟨fun a _ b _ => s.compare_swap (view a) (view b), fun a ha b hb c hc hab hbc => ?_⟩
  have htrans : ∀ a ∈ rows, ∀ b ∈ rows, ∀ c ∈ rows,
      (s.cell view a).sortOrder (s.cell view b) ≠ .gt →
      (s.cell view b).sortOrder (s.cell view c) ≠ .gt →
      (s.cell view a).sortOrder (s.cell view c) ≠ .gt := fun a ha b hb c hc =>
    h _ ⟨a, ha, rfl⟩ _ ⟨b, hb, rfl⟩ _ ⟨c, hc, rfl⟩
  obtain ⟨column, direction⟩ := s
  cases direction with
  | ascending => exact htrans a ha b hb c hc hab hbc
  | descending =>
    exact precedes_descending.2 (htrans c hc b hb a ha (precedes_descending.1 hbc)
      (precedes_descending.1 hab))

/-- Rows with the cells of one column compare coherently in both directions. -/
theorem coherent_of_fitsColumn {k : Kind}
    (h : ∀ row ∈ rows, ((view row).lookup s.segments).FitsColumn k) : s.Coherent view rows := by
  obtain ⟨β, _, key, hkey⟩ := Cell.exists_key k
  refine coherent_of_transitiveOn ?_
  rintro _ ⟨a, ha, rfl⟩ _ ⟨b, hb, rfl⟩ _ ⟨c, hc, rfl⟩
  exact trans_of_compares (hkey _ _ (h a ha) (h b hb)) (hkey _ _ (h b hb) (h c hc))
    (hkey _ _ (h a ha) (h c hc))

/-! ## Sorting -/

variable {lib : Sorter} {sorted : List α}

/-- Sorting moves rows and neither adds nor drops any. -/
theorem perm_of_sort (h : s.sort lib view rows = some sorted) : sorted.Perm rows := lib.perm h

/-- **Coherent rows can be sorted**, by any sort. -/
theorem Coherent.exists_sort (h : s.Coherent view rows) (lib : Sorter) :
    ∃ sorted, s.sort lib view rows = some sorted ∧
      Sorter.Arranges (fun a b => s.compare (view a) (view b)) rows sorted :=
  lib.arranges h

theorem Coherent.arranges_of_sort (h : s.Coherent view rows)
    (hsorted : s.sort lib view rows = some sorted) :
    Sorter.Arranges (fun a b => s.compare (view a) (view b)) rows sorted := by
  obtain ⟨sorted', hsorted', harranges⟩ := h.exists_sort lib
  exact Option.some.inj (hsorted'.symm.trans hsorted) ▸ harranges

/-- **Sorted rows are in order**: no row comes before a smaller one. -/
theorem Coherent.pairwise_of_sort (h : s.Coherent view rows)
    (hsorted : s.sort lib view rows = some sorted) : sorted.Pairwise (s.Precedes view) :=
  (h.arranges_of_sort hsorted).inOrder

end RowOrder

end GridQuery
