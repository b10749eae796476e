import GridQuery.Data.Toml.Number

/-!
# Tables under construction

A TOML text builds its tables piece by piece: by headers, by keys with dots, and by
values. What may still be added to a table depends on how it came to be, so a table
remembers its `Origin`:

* a table opened by a header takes entries below its header only, and no second
  header;
* a table that lies on the way to a header may still get a header of its own;
* a table made by a dotted key takes entries from dotted keys of the same table.

`Table.open?`, `Table.openNext?` and `Table.put?` are the three steps; each of them
fails when a name is already taken.
-/

namespace GridQuery.Data.Toml

/-- How a table came to be. -/
inductive Origin where
  | header
  | implied
  | dotted
deriving DecidableEq, Repr

/-- What a name stands for while tables are built. -/
inductive Node where
  | value (d : Data)
  | table (origin : Origin) (entries : List (String × Node))
  /-- Tables opened one after another under one header. -/
  | series (tables : List (List (String × Node)))

/-- The entries of a table. -/
abbrev Entries := List (String × Node)

namespace Node

mutual

/-- The tree of a node. -/
def data : Node → Data
  | .value d => d
  | .table _ entries => .record (entriesData entries)
  | .series tables => .list (tablesData tables)

/-- The entries of a table as entries of a record. -/
def entriesData : List (String × Node) → List (String × Data)
  | [] => []
  | (name, node) :: rest => (name, data node) :: entriesData rest

/-- Tables of a series as records. -/
def tablesData : List (List (String × Node)) → List Data
  | [] => []
  | entries :: rest => .record (entriesData entries) :: tablesData rest

end

end Node

namespace Entries

/-- What a name stands for. -/
def node? (name : String) (es : Entries) : Option Node :=
  (es.find? fun e => e.1 == name).map Prod.snd

/-- The entries with another node under a name. -/
def set (name : String) (node : Node) : Entries → Entries
  | [] => [(name, node)]
  | e :: es => if e.1 == name then (name, node) :: es else e :: set name node es

/-- Changes the table at the end of a list of names, of which the missing ones are
made. A dotted key does not lead into tables with a header; a series stands for its
last table. -/
def within? (dotted : Bool) (change : Origin → Entries → Option Entries) :
    List String → Origin → Entries → Option Entries
  | [], origin, es => change origin es
  | name :: names, _, es =>
      match node? name es with
      | none =>
          let origin := if dotted then Origin.dotted else .implied
          (within? dotted change names origin []).map fun inner => es.set name (.table origin inner)
      | some (.value _) => none
      | some (.table origin inner) =>
          if dotted && origin == .header then none
          else
            (within? dotted change names origin inner).map fun inner =>
              es.set name (.table origin inner)
      | some (.series tables) =>
          match tables.getLast? with
          | none => none
          | some inner =>
              (within? dotted change names .header inner).map fun inner =>
                es.set name (.series (tables.dropLast ++ [inner]))

/-- Adds a value to the table that the dotted names lead to. Tables that dotted keys
have made take only values from dotted keys, all others only values of their own. -/
def put? (names : List String) (name : String) (d : Data) (origin : Origin) (es : Entries) :
    Option Entries :=
  es |> within? true (fun origin es =>
    if (origin == .dotted) == names.isEmpty then none
    else
      match es.node? name with
      | some _ => none
      | none => some (es.set name (.value d))) names origin

/-- Opens the table of a header under a name. -/
def open? (name : String) (_ : Origin) (es : Entries) : Option Entries :=
  match es.node? name with
  | none => some (es.set name (.table .header []))
  | some (.table .implied inner) => some (es.set name (.table .header inner))
  | some _ => none

/-- Opens the next table of a series under a name. -/
def openNext? (name : String) (_ : Origin) (es : Entries) : Option Entries :=
  match es.node? name with
  | none => some (es.set name (.series [[]]))
  | some (.series tables) => some (es.set name (.series (tables ++ [[]])))
  | some _ => none

end Entries

/-- The names of a key in front of its last name, and the last name. -/
def splitKey (key : List String) : Option (List String × String) :=
  key.getLast?.map fun name => (key.dropLast, name)

/-- The tree of a table that is written on one line. -/
def ofPairs (pairs : List (List String × Data)) : Option Data :=
  (pairs.foldlM (fun (es : Entries) (key, d) =>
    (splitKey key).bind fun (names, name) => es.put? names name d .header) []).map
      fun es => (Node.table .header es).data

end GridQuery.Data.Toml
