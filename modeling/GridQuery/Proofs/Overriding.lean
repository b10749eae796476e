import GridQuery.Paging.Limits
import GridQuery.Settings.File
import Mathlib.Data.List.Basic
import Mathlib.Data.List.Induction
import Mathlib.Tactic.ByContra

/-!
# Settings in a run of environments

Environments are applied to settings one after another, and each can be applied once: afterwards
it is gone. So after a run of them every setting has the value that the last of them gave it, or
its own one, which `Settings.merged` says without a run. A step fails exactly when the page sizes
it would lead to are unsound, and settings that were reached always give a first page.

## Main results

* `Settings.withEnvironment_merged` — one step, from merged settings to merged settings.
* `Settings.eq_merged_of_inEnvironments` — a run ends in the merged settings.
* `Settings.after_environments` — both together, with the pager of the settings reached.
-/

namespace GridQuery

/-! ## Page sizes -/

namespace PagingSettings

/-- Whether the page sizes can be used: there is a row on a page, and no more than is allowed. -/
structure Sound (p : PagingSettings) : Prop where
  positive : p.standard ≠ 0
  bounded : p.standard ≤ p.maximum

theorem not_sound_iff {p : PagingSettings} :
    ¬ p.Sound ↔ p.standard = 0 ∨ p.maximum < p.standard := by
  constructor
  · intro h
    by_contra hsound
    rw [not_or, UInt32.not_lt] at hsound
    exact h ⟨hsound.1, hsound.2⟩
  · rintro (hzero | hsmall) ⟨hpositive, hbounded⟩
    · exact hpositive hzero
    · exact UInt32.not_lt.2 hbounded hsmall

theorem check_eq_ok_iff {p : PagingSettings} : p.check = .ok () ↔ p.Sound := by
  rw [← not_iff_not, not_sound_iff]
  unfold check fault?
  by_cases hzero : p.standard = 0
  · simp [hzero]
  · by_cases hsmall : p.maximum < p.standard
    · simp [hzero, hsmall]
    · simp [hzero, hsmall]

end PagingSettings

/-! ## Fields of overrides -/

namespace Override

/-- The page size that requests start with, if an override sets it. -/
def standard? (o : Override) : Option UInt32 := o.paging.bind PagingOverride.standard

/-- The largest page size, if an override sets it. -/
def maximum? (o : Override) : Option UInt32 := o.paging.bind PagingOverride.maximum

/-- The way to compare by the minute, if an override sets it. -/
def minuteSplit? (o : Override) : Option MinuteSplit := o.filter.bind FilterOverride.minuteSplit

/-- The granularity of columns without one, if an override sets it. -/
def granularity? (o : Override) : Option Granularity := o.filter.bind FilterOverride.granularity

/-- Whether predicates are logged, if an override sets it. -/
def logPredicates? (o : Override) : Option Bool := o.debug.bind DebugOverride.logPredicates

end Override

namespace Settings

variable {α : Type} {s t : Settings} {name : String} {names : List String}

/-! ## Merged settings -/

/-- What the last of the named environments sets of those that set a field. An environment counts
where it is applied first; after that it is gone. -/
def lastSet (s : Settings) (field : Override → Option α) (names : List String) : Option α :=
  (names.eraseDups.filterMap fun name => (s.override? name).bind field).getLast?

/-- The settings with all that the named environments set, of two values for one field the later
one. The named environments are gone. -/
def merged (s : Settings) (names : List String) : Settings where
  paging :=
    { standard := (s.lastSet Override.standard? names).getD s.paging.standard
      maximum := (s.lastSet Override.maximum? names).getD s.paging.maximum }
  filter :=
    { minuteSplit := (s.lastSet Override.minuteSplit? names).getD s.filter.minuteSplit
      granularity := (s.lastSet Override.granularity? names).getD s.filter.granularity }
  debug :=
    { logPredicates := (s.lastSet Override.logPredicates? names).getD s.debug.logPredicates }
  environments := s.environments.filter fun e => e.1 ∉ names

/-- The settings after environments are applied one after another, up to the first that fails. -/
def inEnvironments (s : Settings) (names : List String) : Except SchemaError Settings :=
  names.foldlM withEnvironment s

@[simp] theorem merged_nil (s : Settings) : s.merged [] = s := by
  simp [merged, lastSet]

theorem override?_merged (s : Settings) (names : List String) (name : String) :
    (s.merged names).override? name = if name ∈ names then none else s.override? name := by
  rw [override?, merged, List.find?_filter]
  by_cases hname : name ∈ names
  · rw [if_pos hname, Option.map_eq_none_iff, List.find?_eq_none]
    rintro e - he
    simp only [decide_eq_true_eq, beq_iff_eq] at he
    exact he.1 (he.2 ▸ hname)
  · rw [if_neg hname, override?]
    congr 2
    funext e
    by_cases he : e.1 = name
    · simp [he, hname]
    · simp [he]

/-! ## One more environment -/

theorem lastSet_append (s : Settings) (field : Override → Option α) (names : List String)
    (name : String) : s.lastSet field (names ++ [name]) =
      (((s.merged names).override? name).bind field).or (s.lastSet field names) := by
  rw [override?_merged, lastSet, lastSet, List.eraseDups_append]
  by_cases hname : name ∈ names
  · simp [hname, List.removeAll]
  · have hnew : ([name].removeAll names).eraseDups = [name] := by
      simp [hname, List.removeAll, List.eraseDups_cons]
    rw [hnew, List.filterMap_append, List.getLast?_append, if_neg hname]
    cases h : (s.override? name).bind field <;> simp [h]

/-- What an override sets on top of a merged field is the merged field with the override. -/
theorem getD_override (s : Settings) (names : List String) (name : String)
    (field : Override → Option α) (hfield : field {} = none) (value : α) :
    (field (((s.merged names).override? name).getD {})).getD
        ((s.lastSet field names).getD value) =
      (s.lastSet field (names ++ [name])).getD value := by
  rw [lastSet_append]
  cases (s.merged names).override? name with
  | none => rw [Option.getD_none, hfield, Option.getD_none, Option.bind_none, Option.none_or]
  | some o =>
    rw [Option.getD_some, Option.bind_some]
    cases field o <;> rfl

/-- The sections of an override, looked at field by field. -/
theorem overridden_eq (s : Settings) (o : Override) : s.overridden o =
    { paging :=
        { standard := o.standard?.getD s.paging.standard
          maximum := o.maximum?.getD s.paging.maximum }
      filter :=
        { minuteSplit := o.minuteSplit?.getD s.filter.minuteSplit
          granularity := o.granularity?.getD s.filter.granularity }
      debug := { logPredicates := o.logPredicates?.getD s.debug.logPredicates }
      environments := s.environments } := by
  obtain ⟨paging, filter, debug⟩ := o
  cases paging <;> cases filter <;> cases debug <;> rfl

/-- Applying an environment to merged settings leads to the settings merged with it. -/
theorem merged_append (s : Settings) (names : List String) (name : String) :
    { (s.merged names).overridden (((s.merged names).override? name).getD {}) with
      environments := (s.merged names).environments.filter fun e => e.1 != name } =
    s.merged (names ++ [name]) := by
  have hfield := fun {α : Type} (field : Override → Option α) => getD_override s names name field
  have hstandard := hfield Override.standard? rfl s.paging.standard
  have hmaximum := hfield Override.maximum? rfl s.paging.maximum
  have hminuteSplit := hfield Override.minuteSplit? rfl s.filter.minuteSplit
  have hgranularity := hfield Override.granularity? rfl s.filter.granularity
  have hlogPredicates := hfield Override.logPredicates? rfl s.debug.logPredicates
  have henvironments : ((s.merged names).environments.filter fun e => e.1 != name) =
      s.environments.filter fun e => e.1 ∉ names ++ [name] := by
    rw [merged, List.filter_filter]
    refine List.filter_congr fun e _ => ?_
    by_cases he : e.1 = name <;> simp [he]
  rw [overridden_eq, henvironments]
  simp only [merged] at hstandard hmaximum hminuteSplit hgranularity hlogPredicates ⊢
  rw [hstandard, hmaximum, hminuteSplit, hgranularity, hlogPredicates]

/-- **One more environment.** It leads from merged settings to merged settings, or fails where
the page sizes would be unsound. -/
theorem withEnvironment_merged (s : Settings) (names : List String) (name : String) :
    ((s.merged (names ++ [name])).paging.Sound →
      (s.merged names).withEnvironment name = .ok (s.merged (names ++ [name]))) ∧
    (¬ (s.merged (names ++ [name])).paging.Sound →
      ∃ e, (s.merged names).withEnvironment name = .error e) := by
  rw [withEnvironment, merged_append, check]
  constructor
  · intro hsound
    rw [PagingSettings.check_eq_ok_iff.2 hsound]
  · intro hsound
    cases hcheck : (s.merged (names ++ [name])).paging.check with
    | error e => exact ⟨e, rfl⟩
    | ok u => exact absurd (PagingSettings.check_eq_ok_iff.1 hcheck) hsound

/-! ## Runs -/

theorem inEnvironments_append_eq_ok_iff : s.inEnvironments (names ++ [name]) = .ok t ↔
    ∃ mid, s.inEnvironments names = .ok mid ∧ mid.withEnvironment name = .ok t := by
  rw [inEnvironments, inEnvironments, List.foldlM_append]
  cases names.foldlM withEnvironment s with
  | error e =>
    refine ⟨nofun, ?_⟩
    rintro ⟨mid, hmid, -⟩
    cases hmid
  | ok mid =>
    have hstep : List.foldlM withEnvironment mid [name] = mid.withEnvironment name := by
      rw [List.foldlM_cons]
      cases mid.withEnvironment name <;> rfl
    refine ⟨fun h => ⟨mid, rfl, hstep.symm.trans h⟩, ?_⟩
    rintro ⟨mid', hmid', h⟩
    cases hmid'
    exact hstep.trans h

/-- **A run of environments** ends in the merged settings, and they are sound. -/
theorem eq_merged_of_inEnvironments (hs : s.paging.Sound) (h : s.inEnvironments names = .ok t) :
    t = s.merged names ∧ t.paging.Sound := by
  induction names using List.reverseRecOn generalizing t with
  | nil =>
    cases h
    exact ⟨(merged_nil s).symm, hs⟩
  | append_singleton names name ih =>
    obtain ⟨mid, hmid, hstep⟩ := inEnvironments_append_eq_ok_iff.1 h
    obtain ⟨rfl, -⟩ := ih hmid
    obtain ⟨hsound, hunsound⟩ := withEnvironment_merged s names name
    by_cases hnext : (s.merged (names ++ [name])).paging.Sound
    · obtain rfl : s.merged (names ++ [name]) = t :=
        Except.ok.inj ((hsound hnext).symm.trans hstep)
      exact ⟨rfl, hnext⟩
    · obtain ⟨e, he⟩ := hunsound hnext
      rw [hstep] at he
      cases he

/-- An environment that has been applied already changes nothing. -/
theorem merged_append_of_mem (s : Settings) (h : name ∈ names) :
    s.merged (names ++ [name]) = s.merged names := by
  have hgone : (s.merged names).override? name = none := by rw [override?_merged, if_pos h]
  have hlast : ∀ {α : Type} (field : Override → Option α),
      s.lastSet field (names ++ [name]) = s.lastSet field names := fun field => by
    rw [lastSet_append, hgone, Option.bind_none, Option.none_or]
  have henvironments : (s.environments.filter fun e => e.1 ∉ names ++ [name]) =
      s.environments.filter fun e => e.1 ∉ names := by
    refine List.filter_congr fun e _ => ?_
    by_cases he : e.1 = name <;> simp [he, h]
  simp only [merged, hlast, henvironments]

/-! ## Pagers -/

/-- Sound page sizes give a first page of the standard size, which they allow. -/
theorem pager_of_sound {p : PagingSettings} (h : p.Sound) :
    (Pager.ofSettings p).pageSize.toNat = p.standard.toNat ∧
      (Pager.ofSettings p).checkSize p = .ok () := by
  have hsize : (Pager.ofSettings p).pageSize.toNat = p.standard.toNat := by
    simp only [Pager.ofSettings, if_neg h.positive, UInt32.toNat_toUInt64]
  refine ⟨hsize, ?_⟩
  rw [Pager.checkSize, hsize, if_neg (Nat.not_lt.2 (UInt32.le_iff_toNat_le.1 h.bounded))]

/-- Settings that were read are sound. -/
theorem sound_of_ofText {env : Environment} {text : String} (h : ofText env text = .ok s) :
    s.paging.Sound := by
  unfold ofText at h
  split at h
  · cases h
  · split at h
    · cases h
    · cases h
      exact PagingSettings.check_eq_ok_iff.1 ‹_›

/-- **Settings in a run of environments.** Let settings be read from a text and environments be
applied to them, in any order and number. Then every setting has the value of the last of these
environments that sets it, or its own value where none does, and the environments that were not
applied are there as before. An environment that was applied is gone, and applying it again
changes nothing. The next step fails exactly where there would be no rows on a page, or fewer
allowed than a request starts with. And there is a first page with the standard number of rows,
which the settings allow. -/
theorem after_environments {env : Environment} {text : String} (h : ofText env text = .ok s)
    (hrun : s.inEnvironments names = .ok t) :
    t = s.merged names ∧
    (∀ name, t.override? name = if name ∈ names then none else s.override? name) ∧
    (∀ name ∈ names, t.withEnvironment name = .ok t) ∧
    (∀ name, let next := s.merged (names ++ [name])
      ((∃ e, t.withEnvironment name = .error e) ↔
        next.paging.standard = 0 ∨ next.paging.maximum < next.paging.standard) ∧
      ∀ t', t.withEnvironment name = .ok t' → t' = next) ∧
    (Pager.ofSettings t.paging).pageSize.toNat = t.paging.standard.toNat ∧
    (Pager.ofSettings t.paging).checkSize t.paging = .ok () := by
  obtain ⟨rfl, hsound⟩ := eq_merged_of_inEnvironments (sound_of_ofText h) hrun
  refine ⟨rfl, override?_merged s names, fun name hname => ?_, fun name => ?_,
    pager_of_sound hsound⟩
  · have hstep := (withEnvironment_merged s names name).1
    rw [merged_append_of_mem s hname] at hstep
    exact hstep hsound
  · intro next
    obtain ⟨hok, herror⟩ := withEnvironment_merged s names name
    rw [← PagingSettings.not_sound_iff]
    by_cases hnext : (s.merged (names ++ [name])).paging.Sound
    · rw [hok hnext]
      refine ⟨iff_of_false nofun (not_not_intro hnext), ?_⟩
      rintro t' ⟨⟩
      rfl
    · obtain ⟨e, he⟩ := herror hnext
      rw [he]
      exact ⟨iff_of_true ⟨e, rfl⟩ hnext, nofun⟩

/-- A limit that an environment sets stays, so that another environment that starts with more rows
than that cannot be applied; the first one could be applied again. -/
theorem after_environments_limit :
    let text := "[paging]\ndefault_page_size = 10\n" ++
      "[environments.live.paging]\nmax_page_size = 50\n" ++
      "[environments.test.paging]\ndefault_page_size = 60\n"
    ∃ s t, ofText ⟨[]⟩ text = .ok s ∧ s.inEnvironments ["live"] = .ok t ∧
      t.paging = ⟨10, 50⟩ ∧ t.withEnvironment "live" = .ok t ∧
      (∃ e, t.withEnvironment "test" = .error e) ∧
      (Pager.ofSettings t.paging).pageSize.toNat = 10 := by
  intro text
  let s : Settings :=
    { paging := ⟨10, 500⟩
      environments := [("live", { paging := some { maximum := some 50 } }),
        ("test", { paging := some { standard := some 60 } })] }
  have hread : (ofText ⟨[]⟩ text).toOption = some s := by decide +kernel
  have hs : ofText ⟨[]⟩ text = .ok s := by
    cases hcase : ofText ⟨[]⟩ text with
    | error e => rw [hcase] at hread; cases hread
    | ok s' => rw [hcase] at hread; exact congrArg _ (Option.some.inj hread)
  have hrun : s.inEnvironments ["live"] = .ok (s.merged ["live"]) := by rfl
  obtain ⟨-, -, hagain, hnext, hpager, -⟩ := after_environments hs hrun
  have hpaging : (s.merged ["live"]).paging = ⟨10, 50⟩ := by rfl
  refine ⟨s, _, hs, hrun, hpaging, hagain "live" List.mem_cons_self, ?_, ?_⟩
  · exact (hnext "test").1.2 (.inr (by decide +kernel))
  · rw [hpager, hpaging]
    rfl

end Settings

end GridQuery
