import GridQuery.QueryError
import GridQuery.Paging.RowOrder

/-!
# Pagers

Which page of the rows a request asks for. Pages are counted from one and hold at
least one row, so page number and page size are positive words of 64 bits. The
number of rows in front of a page stops at the largest word.
-/

namespace GridQuery

/-- The largest word of 64 bits. -/
def greatestWord : Nat := 18446744073709551615

/-- The product of two words, or the largest word. -/
def boundedProduct (a b : UInt64) : UInt64 :=
  UInt64.ofNat (min (a.toNat * b.toNat) greatestWord)

/-- A page number, a page size and an order of the rows. -/
structure Pager where
  pageNr : UInt64
  pageSize : UInt64
  /-- The property path to sort by; empty for rows in their own order. -/
  sortColumn : String
  direction : SortDirection
  pageNr_pos : 0 < pageNr.toNat
  pageSize_pos : 0 < pageSize.toNat

namespace Pager

theorem word_pos {n : Whole .int64} (h : 0 < n.val) : 0 < (UInt64.ofNat n.val.toNat).toNat := by
  have := n.fits.2
  simp only [Width.greatest] at this
  rw [UInt64.toNat_ofNat']
  omega

/-- A positive parameter of a page as a word. -/
def positive (parameter : String) (n : Whole .int64) :
    Except QueryError { w : UInt64 // 0 < w.toNat } :=
  if h : 0 < n.val then .ok ⟨UInt64.ofNat n.val.toNat, word_pos h⟩
  else .error (.validation parameter ("must be positive, got " ++ n.text))

/-- The pager with the given page number and page size, if both are positive. -/
def create (pageNr pageSize : Whole .int64) (sortColumn : String) (direction : SortDirection) :
    Except QueryError Pager :=
  match positive "page_nr" pageNr with
  | .error e => .error e
  | .ok nr =>
      match positive "page_size" pageSize with
      | .error e => .error e
      | .ok size =>
          .ok { pageNr := nr.val, pageSize := size.val, sortColumn, direction,
                pageNr_pos := nr.property, pageSize_pos := size.property }

/-- The first page of thirty rows in their own order. -/
def standard : Pager where
  pageNr := 1
  pageSize := 30
  sortColumn := ""
  direction := .ascending
  pageNr_pos := by decide
  pageSize_pos := by decide

/-- The order of the rows, if they are to be sorted. -/
def order? (p : Pager) : Option RowOrder :=
  if p.sortColumn = "" then none else some ⟨p.sortColumn, p.direction⟩

/-- The number of rows in front of the page. -/
def skip (p : Pager) : UInt64 := boundedProduct (p.pageNr - 1) p.pageSize

/-- The number of rows on a full page. -/
def take (p : Pager) : UInt64 := p.pageSize

end Pager

end GridQuery
