import GridQuery.Schema.SchemaError
import GridQuery.Settings.CompileOptions

/-!
# Settings

The defaults and limits of paging, the options of compilation and the amount of
logging. Named environments can override single settings. Settings are `sound` when
the page size that requests start with is positive and within the limit.
-/

namespace GridQuery

/-! ## Sections -/

/-- Page sizes: the one that requests start with, and the largest one. -/
structure PagingSettings where
  standard : UInt32 := 30
  maximum : UInt32 := 500
deriving DecidableEq, Repr

/-- How rules are compiled. -/
structure FilterSettings where
  minuteSplit : MinuteSplit := .componentWise
  granularity : Granularity := .second
deriving DecidableEq, Repr

/-- What is logged. -/
structure DebugSettings where
  logPredicates : Bool := false
deriving DecidableEq, Repr

/-- What is wrong with the page sizes. -/
def PagingSettings.fault? (p : PagingSettings) : Option SettingsFault :=
  if p.standard = 0 then some .zeroPageSize
  else if p.maximum < p.standard then some (.maximumTooSmall p.maximum.toNat p.standard.toNat)
  else none

/-- Whether the page sizes can be used; if not, why. -/
def PagingSettings.check (p : PagingSettings) : Except SchemaError Unit :=
  match p.fault? with
  | some fault => .error (.settings fault)
  | none => .ok ()

/-- The options of compilation that a section gives by itself. -/
def FilterSettings.options (f : FilterSettings) : CompileOptions where
  minuteSplit := f.minuteSplit
  granularity := f.granularity

/-! ## Overrides -/

/-- The page sizes that an environment sets. -/
structure PagingOverride where
  standard : Option UInt32 := none
  maximum : Option UInt32 := none
deriving DecidableEq, Repr

/-- The settings of compilation that an environment sets. -/
structure FilterOverride where
  minuteSplit : Option MinuteSplit := none
  granularity : Option Granularity := none
deriving DecidableEq, Repr

/-- The settings of logging that an environment sets. -/
structure DebugOverride where
  logPredicates : Option Bool := none
deriving DecidableEq, Repr

/-- The sections that an environment overrides. -/
structure Override where
  paging : Option PagingOverride := none
  filter : Option FilterOverride := none
  debug : Option DebugOverride := none
deriving DecidableEq, Repr

/-- Page sizes with those that an environment sets. -/
def PagingOverride.apply (o : PagingOverride) (p : PagingSettings) : PagingSettings where
  standard := o.standard.getD p.standard
  maximum := o.maximum.getD p.maximum

/-- Settings of compilation with those that an environment sets. -/
def FilterOverride.apply (o : FilterOverride) (f : FilterSettings) : FilterSettings where
  minuteSplit := o.minuteSplit.getD f.minuteSplit
  granularity := o.granularity.getD f.granularity

/-- Settings of logging with those that an environment sets. -/
def DebugOverride.apply (o : DebugOverride) (d : DebugSettings) : DebugSettings where
  logPredicates := o.logPredicates.getD d.logPredicates

/-! ## Settings -/

/-- All settings, with the environments under their names. -/
structure Settings where
  paging : PagingSettings := {}
  filter : FilterSettings := {}
  debug : DebugSettings := {}
  environments : List (String × Override) := []
deriving DecidableEq, Repr

namespace Settings

/-- Whether the settings can be used; if not, why. -/
def check (s : Settings) : Except SchemaError Unit := s.paging.check

/-- The options of compilation. -/
def options (s : Settings) : CompileOptions :=
  { s.filter.options with logPredicates := s.debug.logPredicates }

/-- The override of an environment. -/
def override? (s : Settings) (name : String) : Option Override :=
  (s.environments.find? fun e => e.1 == name).map Prod.snd

/-- The settings with what an override sets. -/
def overridden (s : Settings) (o : Override) : Settings where
  paging := (o.paging.getD {}).apply s.paging
  filter := (o.filter.getD {}).apply s.filter
  debug := (o.debug.getD {}).apply s.debug
  environments := s.environments

/-- The settings in an environment, which is no longer among the others. An unknown
environment changes nothing. The result has to be usable. -/
def withEnvironment (s : Settings) (name : String) : Except SchemaError Settings :=
  let others := s.environments.filter fun e => e.1 != name
  let result := { s.overridden ((s.override? name).getD {}) with environments := others }
  match result.check with
  | .error e => .error e
  | .ok () => .ok result

end Settings

end GridQuery
