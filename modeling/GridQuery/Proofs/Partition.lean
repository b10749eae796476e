import GridQuery.Proofs.Execution
import Mathlib.Algebra.Order.Floor.Semiring
import Mathlib.Data.Rat.Floor

/-!
# Pages cut a list into pieces

A pager asks for a window of the sorted rows: it leaves out the rows of the pages in front
and takes as many as fill a page. The number of rows to leave out stops at the largest
word, which is more than any list has rows, so nothing is lost by stopping there
(`Pager.slice_eq_window`). The windows follow one another without gap and overlap
(`Page.flatMap_window`), and there are as many of them as the page count says
(`PageInfo.toNat_countPages`). Where sorting the list breaks off, no page of it is answered.

## Main results

* `Page.pages_partition` — the pages of a list, one after another, are the sorted list.
* `Page.request_breaks_off` — a list without pages.
-/

namespace GridQuery

variable {α β γ : Type}

/-! ## Lists side by side -/

theorem exists_forall₂ {R : α → β → Prop} {xs : List α} (h : ∀ x ∈ xs, ∃ y, R x y) :
    ∃ ys, List.Forall₂ R xs ys := by
  induction xs with
  | nil => exact ⟨[], .nil⟩
  | cons x xs ih =>
    obtain ⟨y, hy⟩ := h x (by simp)
    obtain ⟨ys, hys⟩ := ih fun z hz => h z (by simp [hz])
    exact ⟨y :: ys, .cons hy hys⟩

theorem flatMap_congr_forall₂ {f : α → List γ} {g : β → List γ} {xs : List α} {ys : List β}
    (h : List.Forall₂ (fun x y => f x = g y) xs ys) : xs.flatMap f = ys.flatMap g := by
  induction h with
  | nil => rfl
  | cons hxy _ ih => rw [List.flatMap_cons, List.flatMap_cons, hxy, ih]

/-! ## Windows -/

/-- Of the windows of `size` rows that `total` rows fill, there is one with the number `k`
when rows are left behind the first `k`. -/
theorem lt_ceil_div_iff {total size k : ℕ} (hsize : 0 < size) :
    k < ⌈(total / size : ℚ)⌉₊ ↔ k * size < total := by
  have hpos : (0 : ℚ) < size := by exact_mod_cast hsize
  rw [Nat.lt_ceil, lt_div_iff₀ hpos]
  exact_mod_cast Iff.rfl

namespace Page

/-- The window with a number, counted from zero, among the windows of `size` rows. -/
def window (size : ℕ) (rows : List α) (i : ℕ) : List α := (rows.drop (i * size)).take size

variable {size i : ℕ} {rows : List α}

theorem length_window : (window size rows i).length = min size (rows.length - i * size) := by
  rw [window, List.length_take, List.length_drop]

/-- A window with another one behind it is full. -/
theorem length_window_of_lt (h : (i + 1) * size < rows.length) :
    (window size rows i).length = size := by
  rw [length_window]
  rw [Nat.add_mul, Nat.one_mul] at h
  omega

theorem length_window_pos (hsize : 0 < size) (h : i * size < rows.length) :
    0 < (window size rows i).length := by
  rw [length_window]
  omega

theorem window_eq_nil (h : rows.length ≤ i * size) : window size rows i = [] := by
  rw [window, List.drop_eq_nil_of_le h, List.take_nil]

/-- Windows follow one another without gap and overlap. -/
theorem flatMap_window (size : ℕ) (rows : List α) (count : ℕ) :
    (List.range count).flatMap (window size rows) = rows.take (count * size) := by
  induction count with
  | zero => simp
  | succ count ih =>
    rw [List.range_succ, List.flatMap_append, ih, List.flatMap_singleton, window,
      ← List.take_add, Nat.add_mul, Nat.one_mul]

/-- All windows together are the list. -/
theorem flatMap_window_ceil (hsize : 0 < size) (rows : List α) :
    (List.range ⌈(rows.length / size : ℚ)⌉₊).flatMap (window size rows) = rows := by
  rw [flatMap_window]
  apply List.take_of_length_le
  by_contra hlt
  have hmore := (lt_ceil_div_iff hsize).2 (not_le.1 hlt)
  exact lt_irrefl _ hmore

end Page

/-! ## The number of pages -/

namespace PageInfo

theorem toNat_countPages {pageSize total : UInt64} (hsize : 0 < pageSize.toNat) :
    (countPages pageSize total).toNat = ⌈(total.toNat / pageSize.toNat : ℚ)⌉₊ := by
  by_cases hzero : total = 0
  · simp [countPages, hzero]
  · have htotal : total.toNat ≠ 0 := fun h => hzero (UInt64.toNat_inj.1 (by simpa using h))
    have hne : pageSize ≠ 0 := by
      rintro rfl
      exact absurd hsize (by decide)
    have hle : (total.toNat + pageSize.toNat - 1) / pageSize.toNat ≤ total.toNat := by
      rw [Nat.div_le_iff_le_mul_add_pred hsize]
      have := Nat.le_mul_of_pos_left total.toNat hsize
      omega
    rw [countPages, if_neg (by simp [hzero, hne]), UInt64.toNat_ofNat_of_lt'
      (hle.trans_lt total.toNat_lt)]
    refine eq_of_forall_lt_iff fun k => ?_
    rw [lt_ceil_div_iff hsize, Nat.lt_div_iff_mul_lt hsize]
    omega

end PageInfo

/-! ## Words -/

theorem toNat_boundedProduct (a b : UInt64) :
    (boundedProduct a b).toNat = min (a.toNat * b.toNat) greatestWord := by
  rw [boundedProduct, UInt64.toNat_ofNat_of_lt']
  exact (Nat.min_le_right _ _).trans_lt (by decide)

theorem toNat_sub_one {w : UInt64} (h : 0 < w.toNat) : (w - 1).toNat = w.toNat - 1 := by
  rw [UInt64.toNat_sub_of_le]
  · rfl
  · exact UInt64.le_iff_toNat_le.2 h

/-! ## Pagers -/

namespace Pager

theorem exists_positive {n : Whole .int64} (h : 0 < n.val) (parameter : String) :
    ∃ w, positive parameter n = .ok w ∧ w.val.toNat = n.val.toNat := by
  have hle := n.fits.2
  simp only [Width.greatest] at hle
  refine ⟨⟨UInt64.ofNat n.val.toNat, word_pos h⟩, dif_pos h, ?_⟩
  exact UInt64.toNat_ofNat_of_lt' (by simp only [UInt64.size]; omega)

/-- Every positive page number and page size make a pager. -/
theorem exists_create {nr size : Whole .int64} (hnr : 0 < nr.val) (hsize : 0 < size.val)
    (column : String) (direction : SortDirection) :
    ∃ pager, create nr size column direction = .ok pager ∧
      pager.pageNr.toNat = nr.val.toNat ∧ pager.pageSize.toNat = size.val.toNat ∧
      pager.sortColumn = column ∧ pager.direction = direction := by
  obtain ⟨w, hw, hwval⟩ := exists_positive hnr "page_nr"
  obtain ⟨v, hv, hvval⟩ := exists_positive hsize "page_size"
  refine ⟨⟨w.val, v.val, column, direction, w.property, v.property⟩, ?_, hwval, hvval, rfl, rfl⟩
  rw [create, hw, hv]

/-- The rows in front of a page, or the largest word if they are more. -/
theorem toNat_skip (pager : Pager) :
    pager.skip.toNat = min ((pager.pageNr.toNat - 1) * pager.pageSize.toNat) greatestWord := by
  rw [skip, toNat_boundedProduct, toNat_sub_one pager.pageNr_pos]

/-- What a pager cuts out of a list is a window: no list is so long that it matters where
the number of rows to leave out stops. -/
theorem slice_eq_window (pager : Pager) {rows : List α} (hrows : rows.length < 2 ^ 63) :
    Page.slice pager.skip pager.take rows =
      Page.window pager.pageSize.toNat rows (pager.pageNr.toNat - 1) := by
  have hgreatest : rows.length ≤ greatestWord := by
    unfold greatestWord
    omega
  rw [Page.slice, Page.window, toNat_skip, take]
  by_cases h : (pager.pageNr.toNat - 1) * pager.pageSize.toNat ≤ greatestWord
  · rw [Nat.min_eq_left h]
  · rw [Nat.min_eq_right (not_le.1 h).le, List.drop_eq_nil_of_le hgreatest,
      List.drop_eq_nil_of_le (hgreatest.trans (not_le.1 h).le)]

end Pager

/-! ## Pages -/

namespace Page

theorem rows_answer (pager : Pager) (total : UInt64) (rows : List α) :
    (answer pager total rows).rows = rows := by
  unfold answer
  cases pager.order? <;> rfl

theorem total_answer (pager : Pager) (total : UInt64) (rows : List α) :
    (answer pager total rows).info.total = total := by
  unfold answer
  cases pager.order? <;> rfl

theorem pageCount_answer (pager : Pager) (total : UInt64) (rows : List α) :
    (answer pager total rows).info.pageCount = PageInfo.countPages pager.pageSize total := by
  unfold answer
  cases pager.order? <;> rfl

/-- The rows in the order of a column, or in their own order without one; `none` when sorting
broke off. -/
def inOrder (lib : Sorter) (view : α → Record) (rows : List α) (column : String)
    (direction : SortDirection) : Option (List α) :=
  if column = "" then some rows else RowOrder.sort ⟨column, direction⟩ lib view rows

/-- Sorting moves rows and neither adds nor drops any. -/
theorem perm_of_inOrder {lib : Sorter} {view : α → Record} {rows whole : List α} {column : String}
    {direction : SortDirection} (h : inOrder lib view rows column direction = some whole) :
    whole.Perm rows := by
  unfold inOrder at h
  split at h
  · cases h
    exact .refl rows
  · exact RowOrder.perm_of_sort h

theorem sorted_eq_inOrder (lib : Sorter) (pager : Pager) (view : α → Record) (rows : List α) :
    sorted lib pager view rows = inOrder lib view rows pager.sortColumn pager.direction := by
  unfold sorted inOrder
  by_cases hcolumn : pager.sortColumn = ""
  · rw [Pager.order?_eq_none_iff.2 hcolumn, if_pos hcolumn]
  · rw [Pager.order?_of_ne hcolumn, if_neg hcolumn]

/-- A page is cut out of the rows in order. -/
theorem ofRows_of_inOrder {lib : Sorter} {pager : Pager} {view : α → Record} {rows whole : List α}
    (h : inOrder lib view rows pager.sortColumn pager.direction = some whole) :
    ofRows lib pager view rows =
      some (answer pager (count whole) (slice pager.skip pager.take whole)) := by
  rw [ofRows, sorted_eq_inOrder, h, Option.map_some]

theorem exists_inOrder {lib : Sorter} {pager : Pager} {view : α → Record} {rows : List α}
    {page : Page α} (h : ofRows lib pager view rows = some page) :
    ∃ whole, whole.Perm rows ∧
      page = answer pager (count whole) (slice pager.skip pager.take whole) := by
  obtain ⟨whole, hwhole, rfl⟩ := Option.map_eq_some_iff.1 h
  rw [sorted_eq_inOrder] at hwhole
  exact ⟨whole, perm_of_inOrder hwhole, rfl⟩

/-- The rows of a page are a window of the rows in order, and its numbers count all of
them. -/
theorem answer_window (pager : Pager) {whole : List α} (hwhole : whole.length < 2 ^ 63) :
    let page := answer pager (count whole) (slice pager.skip pager.take whole)
    page.rows = window pager.pageSize.toNat whole (pager.pageNr.toNat - 1) ∧
      page.info.total.toNat = whole.length ∧
      page.info.pageCount.toNat = ⌈(whole.length / pager.pageSize.toNat : ℚ)⌉₊ := by
  have hcount : (count whole).toNat = whole.length :=
    UInt64.toNat_ofNat_of_lt' (hwhole.trans (by decide))
  refine ⟨?_, ?_, ?_⟩
  · rw [rows_answer, Pager.slice_eq_window pager hwhole]
  · rw [total_answer, hcount]
  · rw [pageCount_answer, PageInfo.toNat_countPages pager.pageSize_pos, hcount]

/-- The page that asking for a page number gets from rows in memory. -/
def request (lib : Sorter) (view : α → Record) (rows : List α) (column : String)
    (direction : SortDirection) (size nr : Whole .int64) : Except QueryError (Option (Page α)) :=
  (Pager.create nr size column direction).map fun pager => ofRows lib pager view rows

section Requests

variable {lib : Sorter} {view : α → Record} {rows whole : List α} (hrows : rows.length < 2 ^ 63)
  {column : String} {direction : SortDirection} {size : Whole .int64} {s : ℕ}
  (hsize : size.val = s) (hs : 0 < s)
  (hwhole : inOrder lib view rows column direction = some whole)

include hrows hsize hs hwhole

/-- Asking for a page succeeds. The page with the number `k + 1` is the window with the
number `k` of the rows in order. -/
theorem exists_request {nr : Whole .int64} {k : ℕ} (hk : nr.val = k + 1) :
    ∃ page, request lib view rows column direction size nr = .ok (some page) ∧
      page.rows = window s whole k ∧ page.info.total.toNat = rows.length ∧
      page.info.pageCount.toNat = ⌈(rows.length / s : ℚ)⌉₊ := by
  obtain ⟨pager, hpager, hpageNr, hpageSize, rfl, rfl⟩ :=
    Pager.exists_create (show 0 < nr.val by omega) (show 0 < size.val by omega) column direction
  have hlength : whole.length = rows.length := (perm_of_inOrder hwhole).length_eq
  obtain ⟨hwindow, htotal, hcount⟩ := answer_window pager (hlength ▸ hrows)
  have hfront : pager.pageNr.toNat - 1 = k := by omega
  have hfull : pager.pageSize.toNat = s := by omega
  rw [hfront, hfull] at hwindow
  rw [hfull, hlength] at hcount
  exact ⟨_, by rw [request, hpager, ← ofRows_of_inOrder hwhole]; rfl, hwindow,
    htotal.trans hlength, hcount⟩

/-- The page numbers up to the page count can be asked for, and the pages they get make up
the rows in order. -/
theorem exists_pages :
    ∃ pages, List.Forall₂ (fun (i : ℕ) page => ∃ nr : Whole .int64, nr.val = i + 1 ∧
        request lib view rows column direction size nr = .ok (some page))
        (List.range ⌈(rows.length / s : ℚ)⌉₊) pages ∧
      pages.flatMap Page.rows = whole := by
  have hpages : ∀ i ∈ List.range ⌈(rows.length / s : ℚ)⌉₊, ∃ page : Page α,
      (∃ nr : Whole .int64, nr.val = i + 1 ∧
        request lib view rows column direction size nr = .ok (some page)) ∧
      window s whole i = page.rows := by
    intro i hi
    have hrow : i * s < rows.length := (lt_ceil_div_iff hs).1 (List.mem_range.1 hi)
    have hi' : i < rows.length := (Nat.le_mul_of_pos_right i hs).trans_lt hrow
    have hfits : Width.int64.Fits (i + 1 : ℤ) := by
      simp only [Width.Fits, Width.least, Width.greatest]
      omega
    let nr : Whole .int64 := ⟨i + 1, hfits⟩
    have hnr : nr.val = i + 1 := rfl
    obtain ⟨page, hpage, hwindow, -⟩ := exists_request hrows hsize hs hwhole hnr
    exact ⟨page, ⟨nr, hnr, hpage⟩, hwindow.symm⟩
  obtain ⟨pages, hall⟩ := exists_forall₂ hpages
  refine ⟨pages, hall.imp fun _ _ h => h.1, ?_⟩
  rw [← flatMap_congr_forall₂ (hall.imp fun _ _ h => h.2), ← (perm_of_inOrder hwhole).length_eq]
  exact flatMap_window_ceil hs _

end Requests

/-- **The pages of a list.** Let the list be sorted; it is where there is nothing to sort by, or
where the comparison is transitive on its rows. Then every page number gets an answer, and all
answers count the same pages and rows. The pages that are counted, one after another, are the rows
in order, each of them once; all but the last one are full, and the last one has a row. Behind them
every page is empty, however large its number. -/
theorem pages_partition (lib : Sorter) (view : α → Record) {rows : List α}
    (hrows : rows.length < 2 ^ 63) (column : String) (direction : SortDirection)
    {size : Whole .int64} (hsize : 0 < size.val) :
    let count := ⌈(rows.length / size.val : ℚ)⌉₊
    let whole? := if column = "" then some rows
      else RowOrder.sort ⟨column, direction⟩ lib view rows
    (column = "" ∨ RowOrder.TransitiveRows ⟨column, direction⟩ view rows →
      ∃ whole, whole? = some whole) ∧
    ∀ whole, whole? = some whole →
      (∀ nr : Whole .int64, 0 < nr.val →
        ∃ page, request lib view rows column direction size nr = .ok (some page) ∧
          page.info.pageCount.toNat = count ∧ page.info.total.toNat = rows.length ∧
          (nr.val < count → page.rows.length = size.val) ∧
          (nr.val = count → 1 ≤ page.rows.length ∧ page.rows.length ≤ size.val) ∧
          (count < nr.val → page.rows = [])) ∧
      (∃ pages, List.Forall₂ (fun (i : ℕ) page => ∃ nr : Whole .int64, nr.val = i + 1 ∧
          request lib view rows column direction size nr = .ok (some page))
          (List.range count) pages ∧
        pages.flatMap Page.rows = whole) ∧
      whole.Perm rows := by
  intro count whole?
  refine ⟨fun hcan => ?_, fun whole hwhole => ?_⟩
  · by_cases hempty : column = ""
    · exact ⟨rows, if_pos hempty⟩
    · have hcoherent := RowOrder.coherent_of_transitiveOn (hcan.resolve_left hempty)
      obtain ⟨whole, hwhole, -⟩ := hcoherent.exists_sort lib
      exact ⟨whole, (if_neg hempty).trans hwhole⟩
  obtain ⟨s, hs⟩ : ∃ s : ℕ, size.val = s := Int.eq_ofNat_of_zero_le hsize.le
  have hspos : 0 < s := by omega
  have hcount : count = ⌈(rows.length / s : ℚ)⌉₊ := by simp only [count, hs, Int.cast_natCast]
  have hperm : whole.Perm rows := perm_of_inOrder hwhole
  have hmore : ∀ k, k < count ↔ k * s < whole.length := by
    intro k
    rw [hcount, hperm.length_eq]
    exact lt_ceil_div_iff hspos
  refine ⟨?_, ?_, hperm⟩
  · intro nr hnr
    obtain ⟨k, hk⟩ : ∃ k : ℕ, nr.val = k + 1 := ⟨nr.val.toNat - 1, by omega⟩
    obtain ⟨page, hpage, hwindow, htotal, hpageCount⟩ := exists_request hrows hs hspos hwhole hk
    refine ⟨page, hpage, hpageCount.trans hcount.symm, htotal, ?_, ?_, ?_⟩
    · intro hlt
      have hbehind : (k + 1) * s < whole.length := (hmore (k + 1)).1 (by omega)
      rw [hwindow, length_window_of_lt hbehind, hs]
    · intro hlast
      have hrow : k * s < whole.length := (hmore k).1 (by omega)
      have hpos : 0 < (window s whole k).length := length_window_pos hspos hrow
      have hle : (window s whole k).length ≤ s := List.length_take_le _ _
      rw [hwindow]
      omega
    · intro hgt
      have hnone : ¬ k * s < whole.length := fun h => by
        have hk' : k < count := (hmore k).2 h
        omega
      rw [hwindow, window_eq_nil (not_lt.1 hnone)]
  · rw [hcount]
    exact exists_pages hrows hs hspos hwhole

/-- Three rows on pages of two, sorted: the second page has at least one of them, and the
page with the largest number is empty. -/
theorem pages_partition_three :
    let rows : List Record := [⟨[]⟩, ⟨[("id", .scalar (.bool true))]⟩, ⟨[]⟩]
    let size : Whole .int64 := ⟨2, by decide⟩
    rows.length < 2 ^ 63 ∧ 0 < size.val ∧
    RowOrder.TransitiveRows ⟨"id", .descending⟩ id rows ∧
    (∃ page, request .standard id rows "id" .descending size ⟨2, by decide⟩ = .ok (some page) ∧
      page.info.pageCount.toNat = 2 ∧ page.info.total.toNat = 3 ∧ 1 ≤ page.rows.length) ∧
    ∃ page, request .standard id rows "id" .descending size ⟨9223372036854775807, by decide⟩ =
        .ok (some page) ∧
      page.info.pageCount.toNat = 2 ∧ page.rows = [] := by
  intro rows size
  have hrows : rows.length < 2 ^ 63 := by decide
  have hsize : 0 < size.val := by decide
  have hcount : ⌈(rows.length / size.val : ℚ)⌉₊ = 2 := by
    have htwo : (rows.length / size.val : ℚ) = 3 / 2 := by norm_num [rows, size]
    rw [htwo, Nat.ceil_eq_iff (by decide)]
    norm_num
  have htransitive : RowOrder.TransitiveRows ⟨"id", .descending⟩ id rows := by decide +kernel
  obtain ⟨hsort, hpages⟩ := pages_partition .standard id hrows "id" .descending hsize
  obtain ⟨whole, hwhole⟩ := hsort (.inr htransitive)
  obtain ⟨hnumber, -⟩ := hpages whole hwhole
  simp only [hcount] at hnumber
  refine ⟨hrows, hsize, htransitive, ?_, ?_⟩
  · obtain ⟨page, hpage, hpageCount, htotal, -, hlast, -⟩ := hnumber ⟨2, by decide⟩ (by decide)
    exact ⟨page, hpage, hpageCount, htotal, (hlast rfl).1⟩
  · obtain ⟨page, hpage, hpageCount, -, -, -, hbehind⟩ :=
      hnumber ⟨9223372036854775807, by decide⟩ (by decide)
    exact ⟨page, hpage, hpageCount, hbehind (by decide)⟩

/-- **A list without pages.** Where the comparison is not transitive the sort that is run may break
off, and then asking for the first page gets none. -/
theorem request_breaks_off :
    let rows := RowOrder.mixedRows
    rows.length < 2 ^ 63 ∧ RowOrder.sort ⟨"v", .ascending⟩ .standard id rows = none ∧
      request .standard id rows "v" .ascending ⟨10, by decide⟩ ⟨1, by decide⟩ = .ok none := by
  intro rows
  have hcreate : Pager.create ⟨1, by decide⟩ ⟨10, by decide⟩ "v" .ascending =
      .ok ⟨1, 10, "v", .ascending, by decide, by decide⟩ := rfl
  have hnone : inOrder .standard id rows "v" .ascending = none := RowOrder.sort_breaks_off
  refine ⟨by decide, RowOrder.sort_breaks_off, ?_⟩
  rw [request, hcreate]
  show Except.ok (ofRows .standard _ id rows) = _
  rw [ofRows, sorted_eq_inOrder, hnone, Option.map_none]

end Page

end GridQuery
