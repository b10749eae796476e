import GridQuery.Data
import GridQuery.Settings

/-!
# Settings as data

The form of settings in files and messages: records with fixed field names, where
what is missing has its default. Unknown fields are refused.
-/

namespace GridQuery

open Data

/-- A granularity, by its key. -/
def Granularity.ofData? (dialect : Dialect) (d : Data) : Option Granularity :=
  d.choice? dialect ofKey?

/-- The form of a granularity. -/
def Granularity.data (g : Granularity) : Data := .text g.key

/-- A way to compare by the minute, by its key. -/
def MinuteSplit.ofData? (dialect : Dialect) (d : Data) : Option MinuteSplit :=
  d.choice? dialect ofKey?

/-- The form of a way to compare by the minute. -/
def MinuteSplit.data (m : MinuteSplit) : Data := .text m.key

/-! ## Sections -/

/-- A closed layout whose fields a list may or may not leave out. -/
def sectionLayout (mayEnd : Bool) (names : List String) : Layout where
  fields := names.map fun name => (name, mayEnd)
  closed := true

/-- Page sizes. -/
def PagingSettings.ofData? (dialect : Dialect) (d : Data) : Option PagingSettings := do
  let es ← (sectionLayout true ["default_page_size", "max_page_size"]).entries? dialect d
  let standard ← orDefault es "default_page_size" 30 word32?
  let maximum ← orDefault es "max_page_size" 500 word32?
  some { standard, maximum }

/-- The form of page sizes. -/
def PagingSettings.data (p : PagingSettings) : Data :=
  .record [("default_page_size", .integer p.standard.toNat),
    ("max_page_size", .integer p.maximum.toNat)]

/-- Settings of compilation. -/
def FilterSettings.ofData? (dialect : Dialect) (d : Data) : Option FilterSettings := do
  let es ← (sectionLayout true ["minute_split", "default_date_time_format"]).entries? dialect d
  let minuteSplit ← orDefault es "minute_split" .componentWise (MinuteSplit.ofData? dialect)
  let granularity ←
    orDefault es "default_date_time_format" Granularity.standard (Granularity.ofData? dialect)
  some { minuteSplit, granularity }

/-- The form of settings of compilation. -/
def FilterSettings.data (f : FilterSettings) : Data :=
  .record [("minute_split", f.minuteSplit.data),
    ("default_date_time_format", f.granularity.data)]

/-- Settings of logging. -/
def DebugSettings.ofData? (dialect : Dialect) (d : Data) : Option DebugSettings := do
  let es ← (sectionLayout true ["log_predicates"]).entries? dialect d
  let logPredicates ← orDefault es "log_predicates" false bool?
  some { logPredicates }

/-- The form of settings of logging. -/
def DebugSettings.data (d : DebugSettings) : Data :=
  .record [("log_predicates", .bool d.logPredicates)]

/-! ## Overrides -/

/-- The page sizes that an environment sets. -/
def PagingOverride.ofData? (dialect : Dialect) (d : Data) : Option PagingOverride := do
  let es ← (sectionLayout false ["default_page_size", "max_page_size"]).entries? dialect d
  let standard ← optional es "default_page_size" word32?
  let maximum ← optional es "max_page_size" word32?
  some { standard, maximum }

/-- The form of the page sizes that an environment sets. -/
def PagingOverride.data (o : PagingOverride) : Data :=
  .record [("default_page_size", ofOption (fun n => .integer n.toNat) o.standard),
    ("max_page_size", ofOption (fun n => .integer n.toNat) o.maximum)]

/-- The settings of compilation that an environment sets. -/
def FilterOverride.ofData? (dialect : Dialect) (d : Data) : Option FilterOverride := do
  let es ← (sectionLayout false ["minute_split", "default_date_time_format"]).entries? dialect d
  let minuteSplit ← optional es "minute_split" (MinuteSplit.ofData? dialect)
  let granularity ← optional es "default_date_time_format" (Granularity.ofData? dialect)
  some { minuteSplit, granularity }

/-- The form of the settings of compilation that an environment sets. -/
def FilterOverride.data (o : FilterOverride) : Data :=
  .record [("minute_split", ofOption MinuteSplit.data o.minuteSplit),
    ("default_date_time_format", ofOption Granularity.data o.granularity)]

/-- The settings of logging that an environment sets. -/
def DebugOverride.ofData? (dialect : Dialect) (d : Data) : Option DebugOverride := do
  let es ← (sectionLayout false ["log_predicates"]).entries? dialect d
  let logPredicates ← optional es "log_predicates" bool?
  some { logPredicates }

/-- The form of the settings of logging that an environment sets. -/
def DebugOverride.data (o : DebugOverride) : Data :=
  .record [("log_predicates", ofOption .bool o.logPredicates)]

/-- The sections that an environment overrides. -/
def Override.ofData? (dialect : Dialect) (d : Data) : Option Override := do
  let es ← (sectionLayout false ["paging", "filter", "debug"]).entries? dialect d
  let paging ← optional es "paging" (PagingOverride.ofData? dialect)
  let filter ← optional es "filter" (FilterOverride.ofData? dialect)
  let debug ← optional es "debug" (DebugOverride.ofData? dialect)
  some { paging, filter, debug }

/-- The form of the sections that an environment overrides. -/
def Override.data (o : Override) : Data :=
  .record [("paging", ofOption PagingOverride.data o.paging),
    ("filter", ofOption FilterOverride.data o.filter),
    ("debug", ofOption DebugOverride.data o.debug)]

/-! ## Settings -/

namespace Settings

/-- Environments with one more, which replaces one of the same name. -/
def addEnvironment (known : List (String × Override)) (e : String × Override) :
    List (String × Override) :=
  known.filter (fun k => k.1 != e.1) ++ [e]

/-- Environments under their names. Of two environments of one name the later one
counts. -/
def environmentsOfData? (dialect : Dialect) : Data → Option (List (String × Override))
  | .record entries =>
      let named? (e : String × Data) : Option (String × Override) :=
        (Override.ofData? dialect e.2).map fun o => (e.1, o)
      (entries.mapM named?).map fun es => es.foldl addEnvironment []
  | _ => none

/-- All settings. -/
def ofData? (dialect : Dialect) (d : Data) : Option Settings := do
  let es ← (sectionLayout true ["paging", "filter", "debug", "environments"]).entries? dialect d
  let paging ← orDefault es "paging" {} (PagingSettings.ofData? dialect)
  let filter ← orDefault es "filter" {} (FilterSettings.ofData? dialect)
  let debug ← orDefault es "debug" {} (DebugSettings.ofData? dialect)
  let environments ← orDefault es "environments" [] (environmentsOfData? dialect)
  some { paging, filter, debug, environments }

/-- The form of all settings. -/
def data (s : Settings) : Data :=
  .record [("paging", s.paging.data), ("filter", s.filter.data), ("debug", s.debug.data),
    ("environments", .record (s.environments.map fun e => (e.1, e.2.data)))]

end Settings

end GridQuery
