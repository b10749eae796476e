import GridQuery.Paging.Pager
import GridQuery.Settings

/-!
# Page sizes from settings

Settings give the page size that requests start with and the largest one that a
request may ask for.
-/

namespace GridQuery.Pager

/-- The first page under the given settings. A page size of zero counts as one. -/
def ofSettings (p : PagingSettings) : Pager :=
  { standard with
    pageSize := if p.standard = 0 then 1 else p.standard.toUInt64
    pageSize_pos := by
      split
      · decide
      · rename_i h
        rw [UInt32.toNat_toUInt64]
        have : p.standard.toNat ≠ 0 := fun h' => h (UInt32.toNat_inj.1 (by simpa using h'))
        omega }

/-- Whether the settings allow the page size; if not, why. -/
def checkSize (pager : Pager) (p : PagingSettings) : Except QueryError Unit :=
  if p.maximum.toNat < pager.pageSize.toNat then
    let maximum := Text.natString p.maximum.toNat
    .error ((QueryError.validation "page_size"
      (Text.natString pager.pageSize.toNat ++ " exceeds the maximum page size of " ++ maximum)).suggest
        ("Request at most " ++ maximum ++ " rows per page"))
  else .ok ()

end GridQuery.Pager
