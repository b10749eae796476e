import GridQuery.Data.Json
import GridQuery.Column
import GridQuery.Operator
import GridQuery.Paging.Page
import GridQuery.Settings.Form

/-!
# Grids in messages

The form of operators, columns, pages and the names of directions and categories in
JSON messages. Unknown fields are passed over.
-/

namespace GridQuery

open Data

/-! ## Names -/

/-- The form of an operator: its number. -/
def Operator.data (op : Operator) : Data := .integer op.id

/-- An operator from its number. -/
def Operator.ofData? (d : Data) : Option Operator := d.integer?.bind Operator.ofId?

/-- The form of a direction: its name. -/
def SortDirection.data (d : SortDirection) : Data := .text d.name

/-- A direction from its name. -/
def SortDirection.ofData? (d : Data) : Option SortDirection :=
  d.choice? Json.dialect SortDirection.ofName?

/-- The form of a category: its name. -/
def Category.data (c : Category) : Data := .text c.name

/-- A category from its name. -/
def Category.ofData? (d : Data) : Option Category :=
  d.choice? Json.dialect fun name => Category.all.find? fun c => c.name == name

/-- A layout whose fields a list may leave out as told. -/
def openLayout (fields : List (String × Bool)) : Layout where
  fields := fields
  closed := false

/-! ## Enumerations -/

namespace Enumeration

/-- The form of a member: its name and its ordinal. -/
def memberData (m : String × Whole .int64) : Data := .list [.text m.1, .integer m.2.val]

/-- A member from its form. -/
def memberOfData? : Data → Option (String × Whole .int64)
  | .list [.text name, n] => (n.whole? .int64).map fun n => (name, n)
  | _ => none

/-- The form of an enumeration. -/
def data (e : Enumeration) : Data :=
  .record [("name", .text e.name), ("members", .list (e.members.map memberData))]

/-- An enumeration from its form. -/
def ofData? (d : Data) : Option Enumeration := do
  let es ← (openLayout [("name", false), ("members", false)]).entries? Json.dialect d
  let name ← required es "name" text?
  let members ← required es "members" (list? memberOfData?)
  some { name, members }

end Enumeration

/-! ## Columns -/

namespace Column

/-- The fields of a column. -/
def layout : Layout :=
  openLayout [("propertyPath", false), ("displayName", false), ("dateTimeFormat", false)]

/-- The form of a column. -/
def data (c : Column) : Data :=
  .record [("propertyPath", .text c.path), ("displayName", ofOption .text c.header),
    ("dateTimeFormat", ofOption Granularity.data c.granularity)]

/-- A column from its form. -/
def ofData? (d : Data) : Option Column := do
  let es ← layout.entries? Json.dialect d
  let path ← required es "propertyPath" text?
  let header ← optional es "displayName" text?
  let granularity ← optional es "dateTimeFormat" (Granularity.ofData? Json.dialect)
  some { path, header, granularity }

end Column

/-! ## Pages -/

namespace PageInfo

/-- The fields of the numbers of a page. -/
def layout : Layout :=
  openLayout [("pageNr", false), ("pageSize", false), ("pageCount", false),
    ("totalRecordCount", false), ("sortColumn", true), ("sortDirection", true)]

/-- The form of the numbers of a page. Without a sort nothing is said about one. -/
def data (i : PageInfo) : Data :=
  .record ([("pageNr", .integer i.pageNr.toNat), ("pageSize", .integer i.pageSize.toNat),
    ("pageCount", .integer i.pageCount.toNat), ("totalRecordCount", .integer i.total.toNat)] ++
    entryOfOption "sortColumn" .text i.sortColumn ++
    entryOfOption "sortDirection" SortDirection.data i.direction)

/-- The numbers of a page from their form. -/
def ofData? (d : Data) : Option PageInfo := do
  let es ← layout.entries? Json.dialect d
  let pageNr ← required es "pageNr" word64?
  let pageSize ← required es "pageSize" word64?
  let pageCount ← required es "pageCount" word64?
  let total ← required es "totalRecordCount" word64?
  let sortColumn ← optional es "sortColumn" text?
  let direction ← optional es "sortDirection" SortDirection.ofData?
  some { pageNr, pageSize, pageCount, total, sortColumn, direction }

end PageInfo

namespace Page

variable {α : Type}

/-- The form of a page, where `row` gives the form of a row. -/
def data (row : α → Data) (p : Page α) : Data :=
  .record [("data", .list (p.rows.map row)), ("paging", p.info.data)]

/-- A page from its form, where `row?` reads a row. -/
def ofData? (row? : Data → Option α) (d : Data) : Option (Page α) := do
  let es ← (openLayout [("data", false), ("paging", false)]).entries? Json.dialect d
  let rows ← required es "data" (list? row?)
  let info ← required es "paging" PageInfo.ofData?
  some { rows, info }

end Page

end GridQuery
