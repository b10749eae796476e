import GridQuery.Paging.Limits
import GridQuery.Proofs.Partition

/-!
# The numbers under a page

A grid shows under a page which rows it holds and whether there are pages in front of it and
behind it. `PageInfo` computes each of these numbers on its own from the page number, the page
size and the number of rows, partly with words that stop at the largest one. For the pagers that
requests are made with (`Pager.Obtained`) all of them agree with the rows that were cut out.

## Main results

* `PageInfo.toNat_firstRow`, `PageInfo.toNat_lastRow` — the rows of a page that has rows.
* `PageInfo.hasNext_iff` — there is a next page when rows are left behind this one.
* `Page.footer_agrees` — the numbers under a page and its rows.
-/

namespace GridQuery

theorem toNat_le_greatestWord (w : UInt64) : w.toNat ≤ greatestWord := by
  have := w.toNat_lt
  unfold greatestWord
  omega

/-! ## Pagers of requests -/

namespace Pager

/-- The pagers that requests are made with: those with a page number and a page size of the
caller, the standard one, and the first pages under settings. -/
inductive Obtained : Pager → Prop
  | create {nr size : Whole .int64} {column : String} {direction : SortDirection} {pager : Pager} :
      Pager.create nr size column direction = .ok pager → Obtained pager
  | standard : Obtained Pager.standard
  | ofSettings (p : PagingSettings) : Obtained (Pager.ofSettings p)

/-- The pager for another page of the same rows. -/
def atPage (pager : Pager) (nr : UInt64) (h : 0 < nr.toNat) : Pager :=
  { pager with pageNr := nr, pageNr_pos := h }

theorem positive_lt {parameter : String} {n : Whole .int64} {w : { w : UInt64 // 0 < w.toNat }}
    (h : positive parameter n = .ok w) : w.val.toNat < 2 ^ 63 := by
  have hle := n.fits.2
  simp only [Width.greatest] at hle
  unfold positive at h
  split at h
  · cases h
    rw [UInt64.toNat_ofNat_of_lt' (by simp only [UInt64.size]; omega)]
    omega
  · cases h

/-- Page numbers and page sizes of requests have 63 bits. -/
theorem Obtained.lt {pager : Pager} (h : pager.Obtained) :
    pager.pageNr.toNat < 2 ^ 63 ∧ pager.pageSize.toNat < 2 ^ 63 := by
  cases h with
  | @create nr size column direction _ hcreate =>
    unfold Pager.create at hcreate
    split at hcreate
    · cases hcreate
    · rename_i w hw
      split at hcreate
      · cases hcreate
      · rename_i v hv
        cases hcreate
        exact ⟨positive_lt hw, positive_lt hv⟩
  | standard => decide
  | ofSettings p =>
    refine ⟨show Pager.standard.pageNr.toNat < 2 ^ 63 by decide, ?_⟩
    have hsize : (if p.standard = 0 then 1 else p.standard.toUInt64).toNat < 2 ^ 63 := by
      split
      · decide
      · have := p.standard.toNat_lt
        rw [UInt32.toNat_toUInt64]
        omega
    exact hsize

end Pager

/-! ## First and last row -/

namespace PageInfo

variable {i : PageInfo}

/-- The number of rows in front of a page, which may be larger than any word. -/
def front (i : PageInfo) : ℕ := (i.pageNr.toNat - 1) * i.pageSize.toNat

theorem toNat_skip (i : PageInfo) : i.skip.toNat = min i.front greatestWord := by
  have hbefore : (if i.pageNr = 0 then 0 else i.pageNr - 1).toNat = i.pageNr.toNat - 1 := by
    split
    · rename_i hzero
      rw [hzero]
      rfl
    · rename_i hne
      exact toNat_sub_one (Nat.pos_of_ne_zero fun h => hne (UInt64.toNat_inj.1 (by simpa using h)))
  rw [skip, toNat_boundedProduct, hbefore, front]

theorem toNat_skip_of_lt (h : i.front < i.total.toNat) : i.skip.toNat = i.front := by
  rw [toNat_skip, Nat.min_eq_left (h.le.trans (toNat_le_greatestWord _))]

theorem firstRow_eq_zero (h : i.total.toNat ≤ i.front) : i.firstRow = 0 := by
  refine if_pos (UInt64.le_iff_toNat_le.2 ?_)
  rw [toNat_skip]
  exact le_min h (toNat_le_greatestWord _)

theorem lastRow_eq_zero (h : i.firstRow = 0) : i.lastRow = 0 := if_pos h

/-- The first row of a page follows the rows in front. -/
theorem toNat_firstRow (h : i.front < i.total.toNat) : i.firstRow.toNat = i.front + 1 := by
  have hskip := toNat_skip_of_lt h
  have hmore : ¬ i.total ≤ i.skip := by
    rw [UInt64.le_iff_toNat_le, hskip]
    exact not_le.2 h
  rw [firstRow, if_neg hmore, UInt64.toNat_add, hskip]
  exact Nat.mod_eq_of_lt (lt_of_le_of_lt h i.total.toNat_lt)

/-- Neither of the two sums on the way to the first and the last row is too large for a word. -/
def SumsFit (i : PageInfo) : Prop :=
  (i.skip < i.total → i.skip.toNat + 1 ≤ greatestWord) ∧
    (i.firstRow ≠ 0 → i.firstRow.toNat - 1 + i.pageSize.toNat ≤ greatestWord)

theorem sumsFit (hsize : i.pageSize.toNat < 2 ^ 63) (htotal : i.total.toNat < 2 ^ 63) :
    i.SumsFit := by
  unfold SumsFit greatestWord
  constructor
  · intro hlt
    have := UInt64.lt_iff_toNat_lt.1 hlt
    omega
  · intro hne
    have hmore : i.front < i.total.toNat := by_contra fun h => hne (firstRow_eq_zero (not_lt.1 h))
    rw [toNat_firstRow hmore]
    omega

/-- The last row of a page stands a full page behind the rows in front, or at the end. -/
theorem toNat_lastRow (hfit : i.SumsFit) (h : i.front < i.total.toNat) :
    i.lastRow.toNat = min (i.front + i.pageSize.toNat) i.total.toNat := by
  have hfirst := toNat_firstRow h
  have hne : i.firstRow ≠ 0 := by
    intro hzero
    rw [hzero] at hfirst
    exact absurd hfirst (Nat.succ_ne_zero _).symm
  have hsum : (i.firstRow - 1 + i.pageSize).toNat = i.front + i.pageSize.toNat := by
    have hle := hfit.2 hne
    have hbefore : (i.firstRow - 1).toNat = i.front := by
      rw [toNat_sub_one (by omega), hfirst, Nat.add_sub_cancel]
    rw [UInt64.toNat_add, hbefore]
    unfold greatestWord at hle
    exact Nat.mod_eq_of_lt (by omega)
  rw [lastRow, if_neg hne, ← hsum]
  -- The smaller of two words is the smaller of their numbers.
  show (if i.firstRow - 1 + i.pageSize ≤ i.total then i.firstRow - 1 + i.pageSize
    else i.total).toNat = _
  split_ifs with hle
  · exact (Nat.min_eq_left (UInt64.le_iff_toNat_le.1 hle)).symm
  · exact (Nat.min_eq_right (not_le.1 (mt UInt64.le_iff_toNat_le.2 hle)).le).symm

/-! ## Pages in front and behind -/

variable {total : ℕ}

/-- There is a next page when rows are left behind this one. -/
theorem hasNext_iff (hsize : 0 < i.pageSize.toNat)
    (hcount : i.pageCount.toNat = ⌈(total / i.pageSize.toNat : ℚ)⌉₊) :
    i.hasNext ↔ i.pageNr.toNat * i.pageSize.toNat < total := by
  rw [hasNext, decide_eq_true_eq, UInt64.lt_iff_toNat_lt, hcount, lt_ceil_div_iff hsize]

/-- There is a previous page on all pages but the first one, if there are rows at all. -/
theorem hasPrevious_iff (hsize : 0 < i.pageSize.toNat)
    (hcount : i.pageCount.toNat = ⌈(total / i.pageSize.toNat : ℚ)⌉₊) :
    i.hasPrevious ↔ 1 < i.pageNr.toNat ∧ 0 < total := by
  have hpages : 0 < i.pageCount.toNat ↔ 0 < total := by
    rw [hcount, lt_ceil_div_iff hsize, Nat.zero_mul]
  rw [hasPrevious, Bool.and_eq_true, decide_eq_true_eq, decide_eq_true_eq, UInt64.lt_iff_toNat_lt,
    UInt64.lt_iff_toNat_lt, ← hpages]
  rfl

end PageInfo

/-! ## The page and its numbers -/

namespace Page

variable {α : Type} {rows : List α} {pager : Pager}

theorem pageNr_answer (pager : Pager) (total : UInt64) (rows : List α) :
    (answer pager total rows).info.pageNr = pager.pageNr := by
  unfold answer
  cases pager.order? <;> rfl

theorem pageSize_answer (pager : Pager) (total : UInt64) (rows : List α) :
    (answer pager total rows).info.pageSize = pager.pageSize := by
  unfold answer
  cases pager.order? <;> rfl

section Rows

variable {lib : Sorter} {view : α → Record} {page : Page α}
  (hpage : ofRows lib pager view rows = some page)

include hpage

theorem pageNr_ofRows : page.info.pageNr = pager.pageNr := by
  obtain ⟨whole, -, rfl⟩ := exists_inOrder hpage
  exact pageNr_answer ..

theorem pageSize_ofRows : page.info.pageSize = pager.pageSize := by
  obtain ⟨whole, -, rfl⟩ := exists_inOrder hpage
  exact pageSize_answer ..

theorem front_ofRows : page.info.front = (pager.pageNr.toNat - 1) * pager.pageSize.toNat := by
  rw [PageInfo.front, pageNr_ofRows hpage, pageSize_ofRows hpage]

variable (hrows : rows.length < 2 ^ 63)

include hrows

theorem total_ofRows : page.info.total.toNat = rows.length := by
  obtain ⟨whole, hperm, rfl⟩ := exists_inOrder hpage
  rw [← hperm.length_eq] at hrows ⊢
  exact (answer_window pager hrows).2.1

theorem pageCount_ofRows :
    page.info.pageCount.toNat = ⌈(rows.length / page.info.pageSize.toNat : ℚ)⌉₊ := by
  rw [pageSize_ofRows hpage]
  obtain ⟨whole, hperm, rfl⟩ := exists_inOrder hpage
  rw [← hperm.length_eq] at hrows ⊢
  exact (answer_window pager hrows).2.2

/-- A page has as many rows as are left behind those in front, up to its size. -/
theorem length_rows_ofRows : page.rows.length =
    min pager.pageSize.toNat
      (rows.length - (pager.pageNr.toNat - 1) * pager.pageSize.toNat) := by
  obtain ⟨whole, hperm, rfl⟩ := exists_inOrder hpage
  rw [← hperm.length_eq] at hrows ⊢
  rw [(answer_window pager hrows).1, length_window]

/-- A page has rows when some are left behind those in front. -/
theorem rows_ofRows_ne_nil_iff :
    page.rows ≠ [] ↔ (pager.pageNr.toNat - 1) * pager.pageSize.toNat < rows.length := by
  have hsize := pager.pageSize_pos
  rw [← List.length_pos_iff, length_rows_ofRows hpage hrows]
  omega

theorem hasNext_ofRows :
    page.info.hasNext ↔ pager.pageNr.toNat * pager.pageSize.toNat < rows.length := by
  have hsize := pageSize_ofRows hpage
  rw [PageInfo.hasNext_iff (hsize ▸ pager.pageSize_pos) (pageCount_ofRows hpage hrows), hsize,
    pageNr_ofRows hpage]

theorem hasPrevious_ofRows :
    page.info.hasPrevious ↔ 1 < pager.pageNr.toNat ∧ 0 < rows.length := by
  have hsize := pageSize_ofRows hpage
  rw [PageInfo.hasPrevious_iff (hsize ▸ pager.pageSize_pos) (pageCount_ofRows hpage hrows),
    pageNr_ofRows hpage]

omit hrows in
/-- Where one page is answered, so is every other. -/
theorem exists_atPage {nr : UInt64} (h : 0 < nr.toNat) :
    ∃ other, ofRows lib (pager.atPage nr h) view rows = some other := by
  obtain ⟨whole, hwhole, -⟩ := Option.map_eq_some_iff.1 hpage
  have hsame : sorted lib (pager.atPage nr h) view rows = some whole := hwhole
  exact ⟨_, by rw [ofRows, hsame, Option.map_some]⟩

/-- The page with another number has rows when some are left behind those in front of it. -/
theorem exists_atPage_ne_nil_iff {nr : UInt64} (h : 0 < nr.toNat) :
    (∃ other, ofRows lib (pager.atPage nr h) view rows = some other ∧ other.rows ≠ []) ↔
      (nr.toNat - 1) * pager.pageSize.toNat < rows.length := by
  constructor
  · rintro ⟨other, hother, hne⟩
    exact (rows_ofRows_ne_nil_iff hother hrows).1 hne
  · intro hmore
    obtain ⟨other, hother⟩ := exists_atPage hpage h
    exact ⟨other, hother, (rows_ofRows_ne_nil_iff hother hrows).2 hmore⟩

end Rows

/-- **The numbers under a page** agree with its rows. There is a page where there is nothing to sort
by or the comparison of the rows is transitive. No sum on the way to its numbers is too large for
a word. A page with rows shows where they stand among all rows, and a page without rows shows
zeros. There is a next page exactly when asking for it gets rows, and a previous page exactly
when the page is not the first one and the first one has rows. -/
theorem footer_agrees (lib : Sorter) (hpager : pager.Obtained) (view : α → Record)
    (hrows : rows.length < 2 ^ 63) :
    (pager.CanSort view rows → ∃ page, ofRows lib pager view rows = some page) ∧
    ∀ page, ofRows lib pager view rows = some page →
      let info := page.info
      info.SumsFit ∧ info.total.toNat = rows.length ∧
      (page.rows ≠ [] →
        info.firstRow.toNat = (pager.pageNr.toNat - 1) * pager.pageSize.toNat + 1 ∧
        (info.lastRow.toNat : ℤ) - info.firstRow.toNat + 1 = page.rows.length ∧
        info.lastRow.toNat ≤ info.total.toNat) ∧
      (page.rows = [] → info.firstRow = 0 ∧ info.lastRow = 0) ∧
      (info.hasNext ↔ pager.pageNr.toNat * pager.pageSize.toNat < rows.length) ∧
      (info.hasNext ↔ ∃ nr h, nr.toNat = pager.pageNr.toNat + 1 ∧
        ∃ next, ofRows lib (pager.atPage nr h) view rows = some next ∧ next.rows ≠ []) ∧
      (info.hasPrevious ↔ 1 < pager.pageNr.toNat ∧
        ∃ first, ofRows lib (pager.atPage 1 (by decide)) view rows = some first ∧
          first.rows ≠ []) := by
  refine ⟨fun hcan => exists_ofRows hcan lib, fun page hpage => ?_⟩
  intro info
  obtain ⟨hnr, hsize⟩ := hpager.lt
  have htotal : info.total.toNat = rows.length := total_ofRows hpage hrows
  have hfront : info.front = (pager.pageNr.toNat - 1) * pager.pageSize.toNat := front_ofRows hpage
  have hinfoSize : info.pageSize = pager.pageSize := pageSize_ofRows hpage
  rw [← hinfoSize] at hsize
  have hsome : page.rows ≠ [] ↔ info.front < info.total.toNat := by
    rw [htotal, hfront]
    exact rows_ofRows_ne_nil_iff hpage hrows
  have hnext : info.hasNext ↔ pager.pageNr.toNat * pager.pageSize.toNat < rows.length :=
    hasNext_ofRows hpage hrows
  have hfit : info.SumsFit := PageInfo.sumsFit hsize (htotal ▸ hrows)
  refine ⟨hfit, htotal, ?_, ?_, hnext, ?_, ?_⟩
  · intro hne
    have hmore := hsome.1 hne
    rw [PageInfo.toNat_firstRow hmore, PageInfo.toNat_lastRow hfit hmore,
      length_rows_ofRows hpage hrows, hinfoSize, hfront]
    refine ⟨rfl, ?_, Nat.min_le_right _ _⟩
    omega
  · intro hnil
    have hnone : info.firstRow = 0 :=
      PageInfo.firstRow_eq_zero (not_lt.1 fun h => hsome.2 h hnil)
    exact ⟨hnone, PageInfo.lastRow_eq_zero hnone⟩
  · rw [hnext]
    constructor
    · intro hmore
      have hone : (pager.pageNr + 1).toNat = pager.pageNr.toNat + 1 := by
        rw [UInt64.toNat_add]
        exact Nat.mod_eq_of_lt (Nat.lt_of_le_of_lt hnr (by decide))
      refine ⟨pager.pageNr + 1, by omega, hone, ?_⟩
      rwa [exists_atPage_ne_nil_iff hpage hrows, hone, Nat.add_sub_cancel]
    · rintro ⟨nr, h, hone, hmore⟩
      rwa [exists_atPage_ne_nil_iff hpage hrows, hone, Nat.add_sub_cancel] at hmore
  · rw [exists_atPage_ne_nil_iff hpage hrows]
    change _ ↔ _ ∧ (1 - 1) * pager.pageSize.toNat < rows.length
    rw [Nat.zero_mul]
    exact hasPrevious_ofRows hpage hrows

/-- The second page of three rows on pages of two: it shows the third row, with a page in front
and none behind. The page with the largest number shows nothing. -/
theorem footer_agrees_three :
    let rows : List Record := [⟨[]⟩, ⟨[]⟩, ⟨[]⟩]
    let second : Pager := ⟨2, 2, "", .ascending, by decide, by decide⟩
    let last : Pager := ⟨9223372036854775807, 9223372036854775807, "", .ascending, by decide,
      by decide⟩
    (second.Obtained ∧ last.Obtained ∧ rows.length < 2 ^ 63) ∧
      (∃ page, ofRows .standard second id rows = some page ∧ page.info.firstRow.toNat = 3 ∧
        (page.info.lastRow.toNat : ℤ) - page.info.firstRow.toNat + 1 = 1 ∧ ¬ page.info.hasNext) ∧
      ∃ page, ofRows .standard last id rows = some page ∧ page.info.firstRow = 0 ∧
        page.info.SumsFit := by
  intro rows second last
  have hsecond : Pager.create ⟨2, by decide⟩ ⟨2, by decide⟩ "" .ascending = .ok second := rfl
  have hlast : Pager.create ⟨9223372036854775807, by decide⟩ ⟨9223372036854775807, by decide⟩ ""
      .ascending = .ok last := rfl
  have hrows : rows.length < 2 ^ 63 := by decide
  obtain ⟨hexists, hnumbers⟩ := footer_agrees .standard (.create hsecond) id hrows
  obtain ⟨hexists', hnumbers'⟩ := footer_agrees .standard (.create hlast) id hrows
  obtain ⟨page, hpage⟩ := hexists (.inl rfl)
  obtain ⟨page', hpage'⟩ := hexists' (.inl rfl)
  obtain ⟨-, -, hshown, -, hnext, -⟩ := hnumbers page hpage
  obtain ⟨hfit, -, -, hnothing, -⟩ := hnumbers' page' hpage'
  have hone : page.rows.length = 1 := by
    rw [length_rows_ofRows hpage hrows]
    decide
  obtain ⟨hfirst, hcount, -⟩ := hshown (List.ne_nil_of_length_pos (by omega))
  have hnil : page'.rows = [] := List.eq_nil_of_length_eq_zero (by
    rw [length_rows_ofRows hpage' hrows]
    decide)
  rw [hone] at hcount
  refine ⟨⟨.create hsecond, .create hlast, hrows⟩, ⟨page, hpage, hfirst, hcount, ?_⟩,
    page', hpage', (hnothing hnil).1, hfit⟩
  rw [hnext]
  decide

end Page

end GridQuery
