import GridQuery.Proofs.Sorting

/-!
# The stable sort

Sorting keeps all rows and brings them into the order of their cells, nulls first and nested
records last, or the other way around. Rows whose cells are level keep the order in which they
came, in both directions. This settles the result: a list of rows in order is determined by its
rows and by the order of the rows that are level (`RowOrder.eq_of_levels`). So it does not matter
which sort is used, and whether rows are sorted before or after some of them are dropped.

All this needs that the comparison of the rows' cells is transitive. It is where no double is held
(`Cell.transitiveOn_exact`) and where all numbers compare as doubles (`Cell.transitiveOn_doubles`).
Elsewhere there may be no result: large whole numbers together with doubles make the standard sort
break off (`RowOrder.sort_breaks_off`).

## Main results

* `RowOrder.Coherent.filter_level_of_sort` — rows that are level keep their order.
* `RowOrder.sort_filter` — dropping rows before sorting is dropping them afterwards.
* `RowOrder.sort_stable` — sorting in both directions.
-/

namespace GridQuery

/-- Two elements of a list stand in it one after the other, in one order or the other. -/
theorem pair_sublist_or {α : Type} {xs : List α} {a b : α} (ha : a ∈ xs) (hb : b ∈ xs)
    (hne : a ≠ b) : [a, b].Sublist xs ∨ [b, a].Sublist xs := by
  induction xs with
  | nil => cases ha
  | cons x xs ih =>
    rcases List.mem_cons.1 ha with rfl | ha'
    · have hb' : b ∈ xs := (List.mem_cons.1 hb).resolve_left hne.symm
      exact .inl ((List.singleton_sublist.2 hb').cons_cons a)
    · rcases List.mem_cons.1 hb with rfl | hb'
      · exact .inr ((List.singleton_sublist.2 ha').cons_cons b)
      · exact (ih ha' hb').imp (.cons x) (.cons x)

namespace RowOrder

variable {α : Type} {s : RowOrder} {view : α → Record} {rows sorted : List α} {lib : Sorter}

/-! ## Rows in order -/

/-- Whether the comparison is transitive on the cells of the rows. -/
def TransitiveRows (s : RowOrder) (view : α → Record) (rows : List α) : Prop :=
  Cell.TransitiveOn {c | ∃ row ∈ rows, s.cell view row = c}

/-- Whether rows are in order: none is greater than a later one or, descending, smaller. -/
def InOrder (s : RowOrder) (view : α → Record) (rows : List α) : Prop :=
  match s.direction with
  | .ascending => rows.Pairwise fun a b => (s.cell view a).sortOrder (s.cell view b) ≠ .gt
  | .descending => rows.Pairwise fun a b => (s.cell view a).sortOrder (s.cell view b) ≠ .lt

/-- Whether rows are in the order of the places of their cells: nulls, numbers, truth values,
texts, instants and nested records or, descending, the other way around. -/
def InPlaces (s : RowOrder) (view : α → Record) (rows : List α) : Prop :=
  match s.direction with
  | .ascending => rows.Pairwise fun a b => (s.cell view a).place ≤ (s.cell view b).place
  | .descending => rows.Pairwise fun a b => (s.cell view b).place ≤ (s.cell view a).place

/-- Whether two rows are level. -/
def level (s : RowOrder) (view : α → Record) (a b : α) : Bool :=
  (s.cell view a).sortOrder (s.cell view b) == .eq

instance : Decidable (s.TransitiveRows view rows) :=
  decidable_of_iff (∀ a ∈ rows, ∀ b ∈ rows, ∀ c ∈ rows,
    (s.cell view a).sortOrder (s.cell view b) ≠ .gt →
    (s.cell view b).sortOrder (s.cell view c) ≠ .gt →
    (s.cell view a).sortOrder (s.cell view c) ≠ .gt) (by
      constructor
      · rintro h _ ⟨a, ha, rfl⟩ _ ⟨b, hb, rfl⟩ _ ⟨c, hc, rfl⟩
        exact h a ha b hb c hc
      · exact fun h a ha b hb c hc => h _ ⟨a, ha, rfl⟩ _ ⟨b, hb, rfl⟩ _ ⟨c, hc, rfl⟩)

theorem TransitiveRows.filter (h : s.TransitiveRows view rows) (keep : α → Bool) :
    s.TransitiveRows view (rows.filter keep) := by
  rintro _ ⟨a, ha, rfl⟩ _ ⟨b, hb, rfl⟩ _ ⟨c, hc, rfl⟩
  exact h _ ⟨a, List.mem_of_mem_filter ha, rfl⟩ _ ⟨b, List.mem_of_mem_filter hb, rfl⟩ _
    ⟨c, List.mem_of_mem_filter hc, rfl⟩

theorem inOrder_iff_pairwise : s.InOrder view rows ↔ rows.Pairwise (s.Precedes view) := by
  obtain ⟨column, direction⟩ := s
  cases direction with
  | ascending => exact Iff.rfl
  | descending =>
    exact List.Pairwise.iff fun {a b} => not_congr (Ordering.swap_eq_gt).symm

theorem InOrder.inPlaces (h : s.InOrder view rows) : s.InPlaces view rows := by
  obtain ⟨column, direction⟩ := s
  cases direction with
  | ascending => exact List.Pairwise.imp Cell.place_le_of_sortOrder h
  | descending =>
    refine List.Pairwise.imp (fun {a b} hab => Cell.place_le_of_sortOrder ?_) h
    rw [Cell.sortOrder_swap]
    simpa using hab

/-! ## Rows that are level -/

theorem level_iff {a b : α} :
    s.level view a b ↔ (s.cell view a).sortOrder (s.cell view b) = .eq :=
  beq_iff_eq

theorem level_self (a : α) : s.level view a a :=
  level_iff.2 (Cell.sortOrder_self _)

/-- Rows are level when each of them may come before the other one. -/
theorem level_iff_precedes {a b : α} :
    s.level view a b ↔ s.Precedes view a b ∧ s.Precedes view b a := by
  have hboth : ∀ o : Ordering, o = .eq ↔ o ≠ .gt ∧ o.swap ≠ .gt := by decide
  have hascending : s.level view a b ↔ (s.cell view a).sortOrder (s.cell view b) ≠ .gt ∧
      (s.cell view b).sortOrder (s.cell view a) ≠ .gt := by
    rw [level_iff, hboth, ← Cell.sortOrder_swap]
  obtain ⟨column, direction⟩ := s
  cases direction with
  | ascending => exact hascending
  | descending =>
    rw [precedes_descending, precedes_descending]
    exact hascending.trans and_comm

/-- **Rows that are level** keep the order in which they came. -/
theorem Coherent.filter_level_of_sort (h : s.Coherent view rows)
    (hsorted : s.sort lib view rows = some sorted) {a : α} (ha : a ∈ rows) :
    sorted.filter (s.level view a) = rows.filter (s.level view a) := by
  have hlevel : Sorter.isLevel (fun a b => s.compare (view a) (view b)) a = s.level view a := by
    funext b
    show (s.compare (view a) (view b) == .eq) = ((s.cell view a).sortOrder (s.cell view b) == .eq)
    obtain ⟨column, direction⟩ := s
    cases direction with
    | ascending => rfl
    | descending =>
      simp only [compare, cell, SortDirection.orient]
      cases Cell.sortOrder _ _ <;> rfl
  have hstable := (h.arranges_of_sort hsorted).stable a ha
  rwa [hlevel] at hstable

/-- The first of the rows in order precedes all of them. -/
theorem precedes_of_mem_cons {a b : α} (h : (a :: rows).Pairwise (s.Precedes view))
    (hb : b ∈ a :: rows) : s.Precedes view a b := by
  rcases List.mem_cons.1 hb with rfl | hb
  · exact (level_iff_precedes.1 (level_self b)).1
  · exact List.rel_of_pairwise_cons h hb

/-- **Rows in order** are determined by which rows they are and by the order of those that are
level. -/
theorem eq_of_levels {front : List α} (hperm : front.Perm rows)
    (hfront : front.Pairwise (s.Precedes view)) (hrows : rows.Pairwise (s.Precedes view))
    (hlevel : ∀ a ∈ rows, front.filter (s.level view a) = rows.filter (s.level view a)) :
    front = rows := by
  induction front generalizing rows with
  | nil => exact (List.Perm.nil_eq hperm)
  | cons a front ih =>
    cases rows with
    | nil => exact absurd hperm.symm.nil_eq nofun
    | cons b rows =>
      -- Either head precedes the other one, so the two are level.
      have hab : s.level view b a := level_iff_precedes.2
        ⟨precedes_of_mem_cons hrows (hperm.mem_iff.1 List.mem_cons_self),
          precedes_of_mem_cons hfront (hperm.mem_iff.2 List.mem_cons_self)⟩
      have hheads := hlevel b List.mem_cons_self
      rw [List.filter_cons_of_pos hab, List.filter_cons_of_pos (level_self b),
        List.cons.injEq] at hheads
      obtain ⟨rfl, -⟩ := hheads
      congr 1
      -- Without their common head the rows of each level are still the same.
      refine ih hperm.cons_inv hfront.of_cons hrows.of_cons fun c hc => ?_
      have htails := hlevel c (List.mem_cons_of_mem _ hc)
      rw [List.filter_cons, List.filter_cons] at htails
      split at htails
      · exact List.cons.inj htails |>.2
      · exact htails

/-! ## Sorting -/

/-- Rows that are in order are left as they are. -/
theorem Coherent.sort_of_pairwise (h : s.Coherent view rows) (hrows : rows.Pairwise (s.Precedes view))
    (lib : Sorter) : s.sort lib view rows = some rows := by
  obtain ⟨sorted, hsorted, -⟩ := h.exists_sort lib
  rw [hsorted, eq_of_levels (perm_of_sort hsorted) (h.pairwise_of_sort hsorted) hrows fun a ha =>
    h.filter_level_of_sort hsorted ha]

/-- Two rows in order stay in order, level or not. -/
theorem Coherent.pair_sublist_of_sort (h : s.Coherent view rows)
    (hsorted : s.sort lib view rows = some sorted) {a b : α} (hab : s.Precedes view a b)
    (hsub : [a, b].Sublist rows) : [a, b].Sublist sorted := by
  have ha : a ∈ rows := hsub.subset (by simp)
  have hb : b ∈ rows := hsub.subset (by simp)
  by_cases hlevel : s.level view a b
  · have hkept := hsub.filter (s.level view a)
    rw [List.filter_cons_of_pos (level_self a), List.filter_cons_of_pos hlevel, List.filter_nil,
      ← h.filter_level_of_sort hsorted ha] at hkept
    exact hkept.trans List.filter_sublist
  · have hne : a ≠ b := by
      rintro rfl
      exact hlevel (level_self a)
    have hmem : ∀ {c}, c ∈ rows → c ∈ sorted := (perm_of_sort hsorted).mem_iff.2
    refine (pair_sublist_or (hmem ha) (hmem hb) hne).resolve_right fun hback => hlevel ?_
    have hba := List.Pairwise.sublist hback (h.pairwise_of_sort hsorted)
    exact level_iff_precedes.2 ⟨hab, List.rel_of_pairwise_cons hba (by simp)⟩

/-- **Dropping rows** before sorting is dropping them afterwards. -/
theorem sort_filter (h : s.TransitiveRows view rows) (hsorted : s.sort lib view rows = some sorted)
    (keep : α → Bool) : s.sort lib view (rows.filter keep) = some (sorted.filter keep) := by
  have hall : s.Coherent view rows := coherent_of_transitiveOn h
  have hkept : s.Coherent view (rows.filter keep) := coherent_of_transitiveOn (h.filter keep)
  obtain ⟨kept, hsortKept, -⟩ := hkept.exists_sort lib
  have hperm : kept.Perm (sorted.filter keep) :=
    (perm_of_sort hsortKept).trans ((perm_of_sort hsorted).filter keep).symm
  rw [hsortKept, eq_of_levels hperm (hkept.pairwise_of_sort hsortKept)
    ((hall.pairwise_of_sort hsorted).filter keep) fun a ha => ?_]
  have hmem : a ∈ rows.filter keep := (perm_of_sort hsortKept).mem_iff.1 (hperm.mem_iff.2 ha)
  rw [hkept.filter_level_of_sort hsortKept hmem, List.filter_comm,
    ← hall.filter_level_of_sort hsorted (List.mem_of_mem_filter hmem), List.filter_comm]

/-- **Sorting is stable in both directions.** Rows on whose cells the comparison is transitive can
be sorted, and are only reordered. They come out in the order of their cells, and so in the order of
the places of their cells; rows that are level come out in the order in which they went in; and rows
may be dropped before or after. All sorts agree on this. -/
theorem sort_stable (s : RowOrder) (view : α → Record) (rows : List α)
    (h : s.TransitiveRows view rows) :
    ∃ sorted, (∀ lib : Sorter, s.sort lib view rows = some sorted) ∧
      sorted.Perm rows ∧ s.InOrder view sorted ∧ s.InPlaces view sorted ∧
      (∀ a ∈ rows, sorted.filter (s.level view a) = rows.filter (s.level view a)) ∧
      ∀ (lib : Sorter) (keep : α → Bool),
        s.sort lib view (rows.filter keep) = some (sorted.filter keep) := by
  have hcoherent : s.Coherent view rows := coherent_of_transitiveOn h
  obtain ⟨sorted, hsorted, -⟩ := hcoherent.exists_sort .standard
  have hpairwise := hcoherent.pairwise_of_sort hsorted
  have hinOrder : s.InOrder view sorted := inOrder_iff_pairwise.2 hpairwise
  -- The order and the levels settle the result, so any other sort gives the same one.
  have hall : ∀ lib : Sorter, s.sort lib view rows = some sorted := by
    intro lib
    obtain ⟨other, hother, -⟩ := hcoherent.exists_sort lib
    have hperm : other.Perm sorted := (perm_of_sort hother).trans (perm_of_sort hsorted).symm
    rw [hother, eq_of_levels hperm (hcoherent.pairwise_of_sort hother) hpairwise fun a ha => ?_]
    have hmem : a ∈ rows := (perm_of_sort hsorted).mem_iff.1 ha
    rw [hcoherent.filter_level_of_sort hother hmem, hcoherent.filter_level_of_sort hsorted hmem]
  exact ⟨sorted, hall, perm_of_sort hsorted, hinOrder, hinOrder.inPlaces,
    fun a ha => hcoherent.filter_level_of_sort hsorted ha, fun lib keep => sort_filter h (hall lib) keep⟩

/-- Cells of all shapes, descending. Two nulls and two numbers that are level keep their order. -/
theorem sort_stable_mixed :
    let cells : List Cell := [.null, .scalar (.float .nan), .scalar (.text "a"),
      .scalar (.float (Binary64.ofInt 2)), .record [("x", .null)], .scalar (.bool true),
      .scalar (.whole .int64 ⟨2, by decide⟩), .null, .scalar (.decimal .zero)]
    let view : ℕ → Record := fun i => ⟨[("v", cells.getD i .null)]⟩
    let rows : List ℕ := [0, 1, 2, 3, 4, 5, 6, 7, 8]
    let sorted : List ℕ := [4, 2, 5, 1, 3, 6, 8, 0, 7]
    let s : RowOrder := ⟨"v", .descending⟩
    s.TransitiveRows view rows ∧ s.sort .standard view rows = some sorted ∧
      s.InPlaces view sorted ∧
      s.sort .standard view (rows.filter (· % 2 = 0)) = some [4, 2, 6, 8, 0] := by
  intro cells view rows sorted s
  have hrows : s.TransitiveRows view rows := by decide +kernel
  obtain ⟨result, hsort, hperm, hinOrder, hinPlaces, hlevel, hfilter⟩ := sort_stable s view rows hrows
  have hexpected : ∀ a ∈ sorted, a ∈ rows ∧
      rows.filter (s.level view a) = sorted.filter (s.level view a) := by decide +kernel
  obtain rfl : result = sorted :=
    eq_of_levels (hperm.trans (by decide)) (inOrder_iff_pairwise.1 hinOrder) (by decide +kernel)
      fun a ha => (hlevel a (hexpected a ha).1).trans (hexpected a ha).2
  exact ⟨hrows, hsort _, hinPlaces, hfilter _ _⟩

/-! ## Breaking off -/

/-- Rows with two whole numbers and the double that both of them are level with, by turns. -/
def mixedRows : List Record := (List.range 22).map fun i =>
  ⟨[("v", .scalar (match i % 3 with
    | 0 => .whole .int64 ⟨9007199254740992, by decide⟩
    | 1 => .float (Binary64.ofInt 9007199254740992)
    | _ => .whole .int64 ⟨9007199254740993, by decide⟩))]⟩

/-- **A sort may break off**: the comparison is not transitive on these rows. -/
theorem sort_breaks_off : RowOrder.sort ⟨"v", .ascending⟩ .standard id mixedRows = none := by
  have hnone : (RowOrder.sort ⟨"v", .ascending⟩ .standard id mixedRows).isNone := by decide +kernel
  exact Option.isNone_iff_eq_none.1 hnone

end RowOrder

end GridQuery
