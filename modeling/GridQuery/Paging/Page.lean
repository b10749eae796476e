import GridQuery.Event
import GridQuery.Paging.Pager

/-!
# Pages

One page of rows, with the numbers that a grid shows under it. `Page.ofRows` sorts
rows, counts them and cuts out the page that a pager asks for. `PageInfo.firstRow`
and `PageInfo.lastRow` number the rows of the page among all rows; both are zero
on a page without rows. There is no page when sorting broke off.
-/

namespace GridQuery

/-! ## The numbers of a page -/

/-- The numbers that go with a page. -/
structure PageInfo where
  pageNr : UInt64
  pageSize : UInt64
  /-- The number of pages; zero without rows. -/
  pageCount : UInt64
  /-- The number of rows on all pages. -/
  total : UInt64
  sortColumn : Option String := none
  direction : Option SortDirection := none
deriving DecidableEq, Repr

namespace PageInfo

/-- The number of pages that `total` rows fill. -/
def countPages (pageSize total : UInt64) : UInt64 :=
  if total = 0 ∨ pageSize = 0 then 0
  else UInt64.ofNat ((total.toNat + pageSize.toNat - 1) / pageSize.toNat)

/-- The numbers of a page of unsorted rows. -/
def ofTotal (pageNr pageSize total : UInt64) : PageInfo where
  pageNr := pageNr
  pageSize := pageSize
  pageCount := countPages pageSize total
  total := total

/-- Whether there is a page after this one. -/
def hasNext (i : PageInfo) : Bool := i.pageNr < i.pageCount

/-- Whether there is a page before this one. -/
def hasPrevious (i : PageInfo) : Bool := 1 < i.pageNr && 0 < i.pageCount

/-- The number of rows in front of the page. -/
def skip (i : PageInfo) : UInt64 :=
  boundedProduct (if i.pageNr = 0 then 0 else i.pageNr - 1) i.pageSize

/-- The place of the first row of the page, counted from one. -/
def firstRow (i : PageInfo) : UInt64 := if i.total ≤ i.skip then 0 else i.skip + 1

/-- The place of the last row of the page, counted from one. -/
def lastRow (i : PageInfo) : UInt64 :=
  if i.firstRow = 0 then 0 else min (i.firstRow - 1 + i.pageSize) i.total

end PageInfo

/-! ## Pages -/

/-- A page of rows. -/
structure Page (α : Type) where
  rows : List α
  info : PageInfo

namespace Page

variable {α : Type}

/-- Whether the page has no rows. -/
def isEmpty (p : Page α) : Bool := p.rows.isEmpty

/-- A page of the given rows, as asked for by a pager. The order is part of the
answer when there is one. -/
def answer (pager : Pager) (total : UInt64) (rows : List α) : Page α :=
  let info := PageInfo.ofTotal pager.pageNr pager.pageSize total
  match pager.order? with
  | none => ⟨rows, info⟩
  | some s => ⟨rows, { info with sortColumn := some s.column, direction := some s.direction }⟩

/-- The rows in the order that a pager asks for. -/
def sorted (lib : Sorter) (pager : Pager) (view : α → Record) (rows : List α) :
    Option (List α) :=
  match pager.order? with
  | none => some rows
  | some s => s.sort lib view rows

/-- The rows between two places of a list. -/
def slice (skip take : UInt64) (rows : List α) : List α := (rows.drop skip.toNat).take take.toNat

/-- The number of rows as a word. -/
def count (rows : List α) : UInt64 := UInt64.ofNat rows.length

/-- The page of a list of rows that a pager asks for. -/
def ofRows (lib : Sorter) (pager : Pager) (view : α → Record) (rows : List α) :
    Option (Page α) :=
  (sorted lib pager view rows).map fun whole =>
    answer pager (count whole) (slice pager.skip pager.take whole)

/-- What cutting a page out of rows in memory reports. -/
def appliedEvent (p : Page α) : Event :=
  .appliedPaging p.info.pageNr.toNat p.info.pageSize.toNat p.rows.length p.info.total.toNat

/-- What fetching a page from a source reports. -/
def fetchedEvent (p : Page α) : Event :=
  .fetchedPage p.info.pageNr.toNat p.info.pageSize.toNat p.rows.length p.info.total.toNat

end Page

end GridQuery
