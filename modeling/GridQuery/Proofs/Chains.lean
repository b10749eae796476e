import GridQuery.Proofs.Resolution
import Mathlib.Data.List.Nodup

/-!
# Paths as chains of declared fields

A property path is good for something when its names are fields that were declared: the
first one on the schema, each further one on the record type that the field before it
holds. `Schema.Leads` says where such a chain leads, apart from any path as it is written.
Resolving a path follows the chain of its names as far as there is one
(`Schema.Leads.follow_eq`), and where there is none, the first name that cannot be followed
decides the error (`Schema.StuckWith.follow_eq`).

Field names of a schema that was built are not empty, hold no dot and do not repeat
(`Schema.fields_of_build`), so a chain can be written as a path and read back.

## Main results

* `Schema.leads_or_stuck` — names lead to a field, or one of them is the first that does not.
* `Schema.resolve_chains` — resolving accepts exactly the chains of declared fields.
-/

namespace GridQuery

/-! ## Record types under nullable wrappers -/

namespace FieldType

/-- Whether a type is a nested record type, under any number of nullable wrappers. -/
inductive HoldsRecord : FieldType → Schema → Prop
  | record (name : String) (fields : List (String × FieldType)) :
      HoldsRecord (.record name fields) ⟨name, fields⟩
  | nullable {t : FieldType} {s : Schema} (h : HoldsRecord t s) : HoldsRecord (.nullable t) s

theorem holdsRecord_of_core {t : FieldType} {name : String} {fields : List (String × FieldType)}
    (h : t.core = .record name fields) : t.HoldsRecord ⟨name, fields⟩ := by
  induction t using core.induct with
  | case1 inner ih => exact .nullable (ih h)
  | case2 t hcore =>
    rw [core] at h
    · rw [h]
      exact .record name fields
    · exact hcore

theorem record?_eq_some_iff {t : FieldType} {s : Schema} :
    t.record? = some s ↔ t.HoldsRecord s := by
  constructor
  · intro h
    unfold record? at h
    split at h
    · rename_i name fields hcore
      cases h
      exact holdsRecord_of_core hcore
    · cases h
  · intro h
    induction h with
    | record name fields => rfl
    | nullable _ ih => exact ih

theorem record?_eq_none_iff {t : FieldType} : t.record? = none ↔ ∀ s, ¬ t.HoldsRecord s := by
  rw [Option.eq_none_iff_forall_ne_some]
  exact forall_congr' fun s => not_congr record?_eq_some_iff

theorem isNullable_iff {t : FieldType} : t.isNullable ↔ ∃ inner, t = .nullable inner := by
  cases t <;> simp [isNullable]

end FieldType

/-! ## Building -/

namespace Schema

/-- A schema that was built, as were all record types inside it. -/
inductive Built : Schema → Prop
  | mk {name : String} {fields : List (String × FieldType)} {s : Schema}
      (build : build? name fields = .ok s)
      (inner : ∀ f ∈ fields, ∀ t, f.2.HoldsRecord t → Built t) : Built s

theorem fault?_eq_none_iff {record : String} {seen : List String}
    {fields : List (String × FieldType)} :
    fault? record seen fields = none ↔
      (∀ f ∈ fields, isFieldName f.1 ∧ f.1 ∉ seen) ∧ (fields.map Prod.fst).Nodup := by
  induction fields generalizing seen with
  | nil => simp [fault?]
  | cons f rest ih =>
    obtain ⟨name, type⟩ := f
    unfold fault?
    by_cases hname : isFieldName name
    · by_cases hseen : name ∈ seen
      · simp [hname, hseen]
      · simp only [hname, hseen, ih, Bool.not_true, Bool.false_eq_true, if_false,
          List.contains_eq_mem, decide_false, List.mem_cons, not_or, List.map_cons,
          List.nodup_cons, List.mem_map]
        grind
    · simp [hname]

/-- What building checks: field names are not empty, hold no dot and do not repeat. -/
theorem fields_of_build {name : String} {fields : List (String × FieldType)} {s : Schema}
    (h : build? name fields = .ok s) :
    s = ⟨name, fields⟩ ∧ (∀ f ∈ fields, isFieldName f.1) ∧ (fields.map Prod.fst).Nodup := by
  unfold build? at h
  split at h
  · cases h
  · rename_i hfault
    cases h
    obtain ⟨hnames, hnodup⟩ := fault?_eq_none_iff.1 hfault
    exact ⟨rfl, fun f hf => (hnames f hf).1, hnodup⟩

namespace Built

variable {s : Schema}

theorem isFieldName (hs : s.Built) {f : String × FieldType} (hf : f ∈ s.fields) :
    Schema.isFieldName f.1 := by
  obtain ⟨hbuild, -⟩ := hs
  obtain ⟨rfl, hnames, -⟩ := fields_of_build hbuild
  exact hnames f hf

theorem nodup (hs : s.Built) : (s.fields.map Prod.fst).Nodup := by
  obtain ⟨hbuild, -⟩ := hs
  obtain ⟨rfl, -, hnodup⟩ := fields_of_build hbuild
  exact hnodup

/-- A record type without records inside is built if its names are in order. -/
theorem of_scalars {name : String} {fields : List (String × FieldType)}
    (hbuild : build? name fields = .ok s) (h : ∀ f ∈ fields, f.2.record? = none) : s.Built :=
  .mk hbuild fun f hf t ht => absurd ht (FieldType.record?_eq_none_iff.1 (h f hf) t)

theorem of_field (hs : s.Built) {f : String × FieldType} (hf : f ∈ s.fields) {t : Schema}
    (ht : f.2.HoldsRecord t) : t.Built := by
  obtain ⟨hbuild, hinner⟩ := hs
  obtain ⟨rfl, -, -⟩ := fields_of_build hbuild
  exact hinner f hf t ht

/-- A name finds the field that was declared under it. -/
theorem field?_eq (hs : s.Built) {f : String × FieldType} (hf : f ∈ s.fields) :
    s.field? f.1 = some f.2 := by
  have hfound : (s.fields.find? fun g => g.1 == f.1).isSome :=
    List.find?_isSome.2 ⟨f, hf, by simp⟩
  obtain ⟨g, hg⟩ := Option.isSome_iff_exists.1 hfound
  have hname : g.1 = f.1 := by simpa using List.find?_some hg
  have hgf : g = f := List.inj_on_of_nodup_map hs.nodup (List.mem_of_find?_eq_some hg) hf hname
  rw [field?, hg, hgf]
  rfl

end Built

theorem field?_eq_none {s : Schema} {name : String} (h : ∀ type, (name, type) ∉ s.fields) :
    s.field? name = none := by
  rw [field?, Option.map_eq_none_iff, List.find?_eq_none]
  rintro ⟨name', type⟩ hf hname
  obtain rfl : name' = name := by simpa using hname
  exact h type hf

/-! ## Chains -/

/-- The fields of `way` lead, one after another, from `s` into the record type `inner`: each
of them is a declared field that holds the record type on which the next one is declared. -/
inductive Leads : Schema → List (String × FieldType) → Schema → Prop
  | here (s : Schema) : Leads s [] s
  | into {s t inner : Schema} {f : String × FieldType} {way : List (String × FieldType)}
      (field : f ∈ s.fields) (holds : f.2.HoldsRecord t) (rest : Leads t way inner) :
      Leads s (f :: way) inner

/-- The error of the first name that cannot be followed: no field of that name is declared
on the record that the names before it lead to, or there is one, and it holds no record
although names come after it. -/
def StuckWith (s : Schema) (path : String) (names : List String) (e : SchemaError) : Prop :=
  ∃ way inner name after, s.Leads way inner ∧ names = way.map Prod.fst ++ name :: after ∧
    ((∀ type, (name, type) ∉ inner.fields) ∧ e = .unknownField inner.name name path ∨
      ∃ type, (name, type) ∈ inner.fields ∧ (∀ t, ¬ type.HoldsRecord t) ∧ after ≠ [] ∧
        e = .invalidPath path (.notARecord name))

section Following

variable {s inner : Schema} {way : List (String × FieldType)} {path : String}

/-- Names lead to a field, or one of them is the first that does not lead on. -/
theorem leads_or_stuck (s : Schema) (path : String) {names : List String} (hne : names ≠ []) :
    (∃ way inner last, s.Leads way inner ∧ last ∈ inner.fields ∧
      names = (way ++ [last]).map Prod.fst) ∨
    ∃ e, s.StuckWith path names e := by
  induction names generalizing s with
  | nil => exact absurd rfl hne
  | cons name rest ih =>
    by_cases hfield : ∃ type, (name, type) ∈ s.fields
    · obtain ⟨type, htype⟩ := hfield
      by_cases hrest : rest = []
      · subst hrest
        exact .inl ⟨[], s, (name, type), .here s, htype, rfl⟩
      · by_cases hholds : ∃ t, type.HoldsRecord t
        · obtain ⟨t, ht⟩ := hholds
          rcases ih t hrest with
            ⟨way, inner, last, hleads, hlast, hnames⟩ |
            ⟨e, way, inner, stuck, after, hleads, hnames, hstuck⟩
          · exact .inl ⟨(name, type) :: way, inner, last, .into htype ht hleads, hlast,
              congrArg (name :: ·) hnames⟩
          · exact .inr ⟨e, (name, type) :: way, inner, stuck, after, .into htype ht hleads,
              congrArg (name :: ·) hnames, hstuck⟩
        · exact .inr ⟨_, [], s, name, rest, .here s, rfl, .inr
            ⟨type, htype, fun t ht => hholds ⟨t, ht⟩, hrest, rfl⟩⟩
    · exact .inr ⟨_, [], s, name, rest, .here s, rfl, .inl
        ⟨fun type htype => hfield ⟨type, htype⟩, rfl⟩⟩

/-- One step of following names, where more names come after it. -/
theorem follow_cons {nullable : Bool} {name : String} {rest : List String} (hrest : rest ≠ []) :
    s.follow path nullable (name :: rest) =
      match s.field? name with
      | none => .error (.unknownField s.name name path)
      | some type =>
          match type.record? with
          | none => .error (.invalidPath path (.notARecord name))
          | some t => t.follow path (nullable || type.isNullable) rest := by
  cases rest with
  | nil => exact absurd rfl hrest
  | cons next rest => rfl

/-- Following the names of a chain goes on at the record type that the chain leads into. -/
theorem Leads.follow_eq (h : s.Leads way inner) (hs : s.Built) :
    inner.Built ∧ ∀ (path : String) (nullable : Bool) (name : String) (rest : List String),
      s.follow path nullable (way.map Prod.fst ++ name :: rest) =
        inner.follow path (nullable || way.any fun f => f.2.isNullable) (name :: rest) := by
  induction h with
  | here s => exact ⟨hs, fun path nullable name rest => by simp⟩
  | @into s t inner f way hf ht hleads ih =>
    obtain ⟨hinner, hfollow⟩ := ih (hs.of_field hf ht)
    refine ⟨hinner, fun path nullable name rest => ?_⟩
    rw [List.map_cons, List.cons_append, follow_cons (by simp), hs.field?_eq hf]
    simp only [FieldType.record?_eq_some_iff.2 ht, hfollow, List.any_cons, Bool.or_assoc]

theorem Leads.follow_last (h : s.Leads way inner) (hs : s.Built) {last : String × FieldType}
    (hlast : last ∈ inner.fields) :
    s.follow path false ((way ++ [last]).map Prod.fst) =
      .ok (last.2, (way ++ [last]).any fun f => f.2.isNullable) := by
  obtain ⟨hinner, hfollow⟩ := h.follow_eq hs
  rw [List.map_append, List.map_cons, List.map_nil, hfollow, follow, hinner.field?_eq hlast]
  simp

theorem StuckWith.follow_eq {names : List String} {e : SchemaError}
    (h : s.StuckWith path names e) (hs : s.Built) : s.follow path false names = .error e := by
  obtain ⟨way, inner, name, after, hleads, rfl, hstuck⟩ := h
  obtain ⟨hinner, hfollow⟩ := hleads.follow_eq hs
  rw [hfollow]
  rcases hstuck with ⟨hnone, rfl⟩ | ⟨type, htype, hrecord, hafter, rfl⟩
  · by_cases hafter : after = []
    · rw [hafter, follow, field?_eq_none hnone]
    · rw [follow_cons hafter, field?_eq_none hnone]
  · rw [follow_cons hafter, hinner.field?_eq htype]
    simp only [FieldType.record?_eq_none_iff.2 hrecord]

end Following

end Schema

/-! ## Names and paths -/

theorem joined_pathSegments (path : String) : Text.joined "." (pathSegments path) = path :=
  Text.joined_pieces '.' path

namespace Schema

variable {s inner : Schema} {way : List (String × FieldType)} {path : String}

/-- The names of a chain are field names. -/
theorem Leads.isFieldName (h : s.Leads way inner) (hs : s.Built) :
    inner.Built ∧ ∀ f ∈ way, isFieldName f.1 := by
  induction h with
  | here s => exact ⟨hs, by simp⟩
  | into hf ht _ ih =>
    obtain ⟨hinner, hnames⟩ := ih (hs.of_field hf ht)
    refine ⟨hinner, fun g hg => ?_⟩
    rcases List.mem_cons.1 hg with rfl | hg
    · exact hs.isFieldName hf
    · exact hnames g hg

/-- The names of a chain are the names on the path that they are joined to, and none of
them is empty. -/
theorem Leads.pathSegments_joined (h : s.Leads way inner) (hs : s.Built)
    {last : String × FieldType} (hlast : last ∈ inner.fields) :
    pathSegments (Text.joined "." ((way ++ [last]).map Prod.fst)) =
        (way ++ [last]).map Prod.fst ∧
      "" ∉ (way ++ [last]).map Prod.fst := by
  obtain ⟨hinner, hway⟩ := h.isFieldName hs
  have hnames : ∀ name ∈ (way ++ [last]).map Prod.fst, Schema.isFieldName name := by
    intro name hname
    obtain ⟨f, hf, rfl⟩ := List.mem_map.1 hname
    rcases List.mem_append.1 hf with hf | hf
    · exact hway f hf
    · rw [List.mem_singleton.1 hf]
      exact hinner.isFieldName hlast
  have hdots : ∀ name ∈ (way ++ [last]).map Prod.fst, '.' ∉ name.toList := by
    intro name hname
    have hgood := hnames name hname
    simp only [Schema.isFieldName, Bool.and_eq_true, Bool.not_eq_true',
      List.contains_eq_mem, decide_eq_false_iff_not] at hgood
    exact hgood.2
  refine ⟨(Text.pieces_joined_eq_iff (by simp)).2 hdots, fun hempty => ?_⟩
  have hgood := hnames "" hempty
  simp [Schema.isFieldName] at hgood

theorem ne_empty_of_segments (h : "" ∉ pathSegments path) : path ≠ "" := by
  rintro rfl
  exact h (by decide)

/-- Resolving a path without empty names is following its names. -/
theorem resolve_eq_follow (h : "" ∉ pathSegments path) :
    s.resolve path = (s.follow path false (pathSegments path)).map fun r =>
      { path, segments := pathSegments path, type := r.1, nullable := r.2 } := by
  have hany : ((pathSegments path).any fun name => name == "") = false := by
    rw [List.any_eq_false]
    intro name hname heq
    exact h (by rwa [← (by simpa using heq : name = "")])
  unfold resolve
  rw [if_neg (ne_empty_of_segments h)]
  simp only [hany, Bool.false_eq_true, if_false]
  cases s.follow path false (pathSegments path) <;> rfl

/-- A path without names, or with an empty one, is refused before anything is followed. -/
theorem resolve_of_empty_segment (h : "" ∈ pathSegments path) :
    ∃ fault, s.resolve path = .error (.invalidPath path fault) := by
  unfold resolve
  by_cases hpath : path = ""
  · exact ⟨_, if_pos hpath⟩
  · have hany : ((pathSegments path).any fun name => name == "") = true :=
      List.any_eq_true.2 ⟨"", h, by simp⟩
    rw [if_neg hpath]
    simp only [hany, if_true]
    exact ⟨_, rfl⟩

/-- The field at the end of a chain, as the path with the names of the chain resolves. -/
theorem Leads.resolve_eq (h : s.Leads way inner) (hs : s.Built) {last : String × FieldType}
    (hlast : last ∈ inner.fields) (hnames : pathSegments path = (way ++ [last]).map Prod.fst) :
    s.resolve path = .ok
      { path, segments := pathSegments path, type := last.2,
        nullable := (way ++ [last]).any fun f => f.2.isNullable } := by
  obtain ⟨-, hempty⟩ := h.pathSegments_joined hs hlast
  rw [resolve_eq_follow (by rwa [hnames]), hnames, h.follow_last hs hlast]
  rfl

theorem StuckWith.resolve_eq {e : SchemaError} (h : s.StuckWith path (pathSegments path) e)
    (hs : s.Built) (hempty : "" ∉ pathSegments path) : s.resolve path = .error e := by
  rw [resolve_eq_follow hempty, h.follow_eq hs]
  rfl

theorem pathSegments_ne_nil (path : String) : pathSegments path ≠ [] := by
  simpa [pathSegments, Text.pieces] using Text.split_ne_nil '.' path.toList

/-- A path that resolves is a chain. -/
theorem exists_leads_of_resolve {f : ResolvedField} (hs : s.Built) (h : s.resolve path = .ok f) :
    "" ∉ pathSegments path ∧ ∃ way inner last, s.Leads way inner ∧ last ∈ inner.fields ∧
      pathSegments path = (way ++ [last]).map Prod.fst := by
  have hempty : "" ∉ pathSegments path := fun hempty => by
    obtain ⟨fault, hfault⟩ := resolve_of_empty_segment (s := s) hempty
    rw [h] at hfault
    cases hfault
  refine ⟨hempty, ?_⟩
  rcases leads_or_stuck s path (pathSegments_ne_nil path) with hleads | ⟨e, hstuck⟩
  · exact hleads
  · rw [hstuck.resolve_eq hs hempty] at h
    cases h

/-- A path without empty names that does not resolve is stuck at one of its names. -/
theorem stuck_of_resolve {e : SchemaError} (hs : s.Built) (hempty : "" ∉ pathSegments path)
    (h : s.resolve path = .error e) : s.StuckWith path (pathSegments path) e := by
  rcases leads_or_stuck s path (pathSegments_ne_nil path) with
    ⟨way, inner, last, hleads, hlast, hnames⟩ | ⟨e', hstuck⟩
  · rw [hleads.resolve_eq hs hlast hnames] at h
    cases h
  · rw [hstuck.resolve_eq hs hempty] at h
    cases h
    exact hstuck

/-- **Resolving accepts exactly the chains of declared fields.** A path resolves when none
of its names is empty and the names are those of a chain: then the names, joined, are the
path, the type is that of the last field, and null is to be expected when some field of the
chain admits it. Every chain, joined to a path, resolves. A path with an empty name is
invalid whatever else is wrong with it; any other path that does not resolve fails at the
first name that does not lead on, and the error names the record on which it was looked up,
or the field that holds no record. Errors carry the path as it was given. -/
theorem resolve_chains {s : Schema} (hs : s.Built) (path : String) :
    ((∃ f, s.resolve path = .ok f) ↔
      "" ∉ pathSegments path ∧ ∃ way inner last, s.Leads way inner ∧ last ∈ inner.fields ∧
        pathSegments path = (way ++ [last]).map Prod.fst) ∧
    (∀ f way inner last, s.resolve path = .ok f → s.Leads way inner → last ∈ inner.fields →
      pathSegments path = (way ++ [last]).map Prod.fst →
      f.path = path ∧ f.segments = pathSegments path ∧ Text.joined "." f.segments = path ∧
      f.type = last.2 ∧
      (f.nullable ↔ ∃ g ∈ way ++ [last], ∃ type, g.2 = .nullable type)) ∧
    (∀ way inner last, s.Leads way inner → last ∈ inner.fields →
      ∃ f, s.resolve (Text.joined "." ((way ++ [last]).map Prod.fst)) = .ok f ∧
        f.segments = (way ++ [last]).map Prod.fst) ∧
    (path = "" ∨ "" ∈ pathSegments path →
      ∃ fault, s.resolve path = .error (.invalidPath path fault)) ∧
    ("" ∉ pathSegments path → ∀ e, s.resolve path = .error e ↔
      s.StuckWith path (pathSegments path) e) ∧
    ∀ e, s.resolve path = .error e → e.path? = some path := by
  refine ⟨⟨?_, ?_⟩, ?_, ?_, ?_, ?_, fun e he => path?_of_resolve_error he⟩
  · rintro ⟨f, hf⟩
    exact exists_leads_of_resolve hs hf
  · rintro ⟨-, way, inner, last, hleads, hlast, hnames⟩
    exact ⟨_, hleads.resolve_eq hs hlast hnames⟩
  · intro f way inner last hf hleads hlast hnames
    rw [hleads.resolve_eq hs hlast hnames] at hf
    cases hf
    refine ⟨rfl, rfl, joined_pathSegments path, rfl, ?_⟩
    simp only [List.any_eq_true, FieldType.isNullable_iff]
  · intro way inner last hleads hlast
    obtain ⟨hsegments, -⟩ := hleads.pathSegments_joined hs hlast
    exact ⟨_, hleads.resolve_eq hs hlast hsegments, hsegments⟩
  · rintro (rfl | hempty)
    · exact ⟨_, if_pos rfl⟩
    · exact resolve_of_empty_segment hempty
  · intro hempty e
    exact ⟨stuck_of_resolve hs hempty, fun hstuck => hstuck.resolve_eq hs hempty⟩

/-- The city in an address that may be missing: the chain resolves, its city is nullable,
and no path leads through the city. -/
theorem resolve_chains_city :
    let address : List (String × FieldType) := [("city", .kind .text)]
    let s : Schema := ⟨"Customer", [("address", .nullable (.nullable (.record "Address" address)))]⟩
    s.Built ∧
    (∃ f, s.resolve "address.city" = .ok f ∧ f.segments = ["address", "city"] ∧ f.nullable) ∧
    s.resolve "address.city.name" =
      .error (.invalidPath "address.city.name" (.notARecord "city")) := by
  intro address s
  have haddress : Built ⟨"Address", address⟩ :=
    @Built.of_scalars _ "Address" address rfl (by simp [address, FieldType.record?, FieldType.core])
  have hs : s.Built := by
    refine @Built.mk s.name s.fields _ rfl fun f hf t ht => ?_
    obtain rfl : f = ("address", .nullable (.nullable (.record "Address" address))) :=
      List.mem_singleton.1 hf
    cases ht with
    | nullable ht =>
      cases ht with
      | nullable ht =>
        cases ht
        exact haddress
  have hcity : ("city", FieldType.kind .text) ∈ address := by simp [address]
  have hleads : s.Leads [("address", .nullable (.nullable (.record "Address" address)))]
      ⟨"Address", address⟩ :=
    .into (by simp [s]) (.nullable (.nullable (.record _ _))) (.here _)
  have hsegments : pathSegments "address.city" = ["address", "city"] := by decide
  have hpath : Text.joined "." ["address", "city"] = "address.city" := by
    rw [← hsegments, joined_pathSegments]
  refine ⟨hs, ?_, ?_⟩
  · obtain ⟨-, hchain, hjoined, -⟩ := resolve_chains hs "address.city"
    obtain ⟨f, hf, hfields⟩ := hjoined _ _ _ hleads hcity
    simp only [List.cons_append, List.nil_append, List.map_cons, List.map_nil, hpath] at hf hfields
    obtain ⟨-, -, -, -, hnullable⟩ := hchain f _ _ _ hf hleads hcity hsegments
    exact ⟨f, hf, hfields, hnullable.2 ⟨_, List.mem_cons_self, _, rfl⟩⟩
  · obtain ⟨-, -, -, -, hstuck, -⟩ := resolve_chains hs "address.city.name"
    refine (hstuck (by decide) _).2 ⟨_, _, "city", ["name"], hleads, by decide, .inr ?_⟩
    exact ⟨.kind .text, hcity, fun t ht => (by cases ht), by decide, rfl⟩

end Schema

end GridQuery
