import GridQuery.Number.Reading

/-!
# Trees of data

What settings files and messages look like once they have been read: scalars,
lists, and records whose entries keep the order in which they were written. The
forms of the library's own types are read from such trees and written to them.

A record type can be read from a record or from a list of its fields in order; a
`Layout` says which fields there are. A choice between names can be read from a
name. Where formats differ in what they let pass, a `Dialect` decides.
-/

namespace GridQuery

/-- A tree of data. -/
inductive Data where
  | null
  | bool (b : Bool)
  | integer (n : Int)
  | float (x : Binary64)
  | text (s : String)
  | list (items : List Data)
  | record (entries : List (String × Data))
  /-- Something well written that no form can be read from. -/
  | foreign

namespace Data

/-! ## Dialects -/

/-- What a format lets pass. -/
structure Dialect where
  /-- Whether a list of fields may have items left over. -/
  surplus : Bool
  /-- Whether a tree can stand behind a name that needs nothing behind it. -/
  blank : Data → Bool

/-! ## Scalars -/

/-- A truth value. -/
def bool? : Data → Option Bool
  | .bool b => some b
  | _ => none

/-- A text. -/
def text? : Data → Option String
  | .text s => some s
  | _ => none

/-- A whole number. -/
def integer? : Data → Option Int
  | .integer n => some n
  | _ => none

/-- A whole number in a range. -/
def whole? (w : Width) (d : Data) : Option (Whole w) := d.integer?.bind (Whole.ofInt? w)

/-- A word of 32 bits. -/
def word32? (d : Data) : Option UInt32 :=
  d.integer?.bind fun n => if 0 ≤ n ∧ n < 4294967296 then some (UInt32.ofNat n.toNat) else none

/-- A word of 64 bits. -/
def word64? (d : Data) : Option UInt64 :=
  d.integer?.bind fun n => if 0 ≤ n ∧ n < 18446744073709551616 then some (UInt64.ofNat n.toNat) else none

/-- A double; whole numbers are rounded to one. -/
def float? : Data → Option Binary64
  | .integer n => some (Binary64.ofInt n)
  | .float x => some x
  | _ => none

/-- Whether the tree is a list. -/
def isList : Data → Bool
  | .list _ => true
  | _ => false

/-- The items of a list, each read by `item?`. -/
def list? {α : Type} (item? : Data → Option α) : Data → Option (List α)
  | .list items => items.mapM item?
  | _ => none

/-- What `form?` reads, unless there is nothing. -/
def option? {α : Type} (form? : Data → Option α) : Data → Option (Option α)
  | .null => some none
  | d => (form? d).map some

/-- One of several names: the name as a text, or a record whose only entry has the
name and nothing behind it. -/
def choice? {α : Type} (dialect : Dialect) (ofName? : String → Option α) : Data → Option α
  | .text name => ofName? name
  | .record [(name, d)] => if dialect.blank d then ofName? name else none
  | _ => none

/-! ## Records -/

/-- The first entry under a name. -/
def field? (name : String) (entries : List (String × Data)) : Option Data :=
  (entries.find? fun e => e.1 == name).map Prod.snd

/-- The fields of a record type. -/
structure Layout where
  /-- The names of the fields in order, and whether a list may end before them. -/
  fields : List (String × Bool)
  /-- Whether entries under other names are refused. -/
  closed : Bool

namespace Layout

/-- Whether a layout has a field of this name. -/
def declares (l : Layout) (name : String) : Bool := l.fields.any fun f => f.1 == name

/-- The entries of a tree under a layout: those of a record without repeated
fields, or the items of a list under the names of the fields. -/
def entries? (l : Layout) (dialect : Dialect) : Data → Option (List (String × Data))
  | .record entries =>
      let own := entries.filter fun e => l.declares e.1
      if l.closed && own.length != entries.length then none
      else if l.fields.any fun f => 1 < (own.countP fun e => e.1 == f.1) then none
      else some own
  | .list items =>
      if !dialect.surplus && l.fields.length < items.length then none
      else if (l.fields.drop items.length).all fun f => f.2 then
        some ((l.fields.map Prod.fst).zip items)
      else none
  | _ => none

end Layout

/-- A field that has to be there. -/
def required {α : Type} (entries : List (String × Data)) (name : String)
    (form? : Data → Option α) : Option α :=
  (field? name entries).bind form?

/-- A field that stands at a default value when it is missing. -/
def orDefault {α : Type} (entries : List (String × Data)) (name : String) (standard : α)
    (form? : Data → Option α) : Option α :=
  match field? name entries with
  | none => some standard
  | some d => form? d

/-- A field that may be missing or null. -/
def optional {α : Type} (entries : List (String × Data)) (name : String)
    (form? : Data → Option α) : Option (Option α) :=
  orDefault entries name none (option? form?)

/-! ## Writing -/

/-- What there is, or null. -/
def ofOption {α : Type} (form : α → Data) : Option α → Data
  | none => .null
  | some a => form a

/-- An entry that is left out when there is nothing. -/
def entryOfOption {α : Type} (name : String) (form : α → Data) : Option α → List (String × Data)
  | none => []
  | some a => [(name, form a)]

mutual

/-- The tree with the entries of all records in the order of their names. -/
def sorted : Data → Data
  | .list items => .list (sortedItems items)
  | .record entries =>
      .record ((sortedEntries entries).mergeSort fun a b =>
        Text.order a.1.toList b.1.toList != .gt)
  | d => d

/-- The trees of a list with the entries of all records in order. -/
def sortedItems : List Data → List Data
  | [] => []
  | d :: ds => sorted d :: sortedItems ds

/-- The trees of entries with the entries of all records in order. -/
def sortedEntries : List (String × Data) → List (String × Data)
  | [] => []
  | (name, d) :: es => (name, sorted d) :: sortedEntries es

end

end Data

end GridQuery
