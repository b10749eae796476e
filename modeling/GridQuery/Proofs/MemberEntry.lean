import GridQuery.Proofs.Compilation
import GridQuery.Proofs.Numerals
import Mathlib.Data.List.Nodup

/-!
# Members of enumerations as typed text

Text that people type into a column of an enumeration is read as a number first and as a name
only when it spells none, and blanks around it do not count. So the name of a member selects
this member when reading it in that way leads back to it: a name that spells a number has to
spell the ordinal of its own member, and any other name may not begin or end with a blank.

## Main results

* `Enumeration.ordinal?_eq_some_iff`, `Enumeration.member?_eq_some_iff` — with distinct names
  and ordinals, look-up is membership.
* `Value.ofEntry_of_spells` — what text selects that spells a number.
* `Value.ofEntry_member_iff` — when a name selects its own member.
* `Value.typed_members` — both together, with the operand that a rule then compares with.
-/

namespace GridQuery

/-- With distinct keys, the first element with a key is the only one. -/
theorem find?_key_eq_some_iff {α κ : Type} [DecidableEq κ] {key : α → κ} {xs : List α}
    (hkeys : (xs.map key).Nodup) {k : κ} {x : α} :
    xs.find? (fun y => key y == k) = some x ↔ x ∈ xs ∧ key x = k := by
  constructor
  · intro h
    exact ⟨List.mem_of_find?_eq_some h, by simpa using List.find?_some h⟩
  · rintro ⟨hx, rfl⟩
    obtain ⟨y, hy⟩ := Option.isSome_iff_exists.1
      (List.find?_isSome (p := fun y => key y == key x).2 ⟨x, hx, by simp⟩)
    have hkey : key y = key x := by simpa using List.find?_some hy
    rw [hy, List.inj_on_of_nodup_map hkeys (List.mem_of_find?_eq_some hy) hx hkey]

/-! ## Looking up members -/

namespace Enumeration

/-- Whether no two members share a name and no two an ordinal. -/
structure Distinct (e : Enumeration) : Prop where
  names : (e.members.map Prod.fst).Nodup
  ordinals : (e.members.map Prod.snd).Nodup

variable {e : Enumeration} {name : String} {n : Whole .int64}

theorem ordinal?_eq_some_iff (he : e.Distinct) :
    e.ordinal? name = some n ↔ (name, n) ∈ e.members := by
  rw [ordinal?, Option.map_eq_some_iff]
  constructor
  · rintro ⟨m, hm, rfl⟩
    obtain ⟨hmem, rfl⟩ := (find?_key_eq_some_iff he.names).1 hm
    exact hmem
  · intro hmem
    exact ⟨(name, n), (find?_key_eq_some_iff he.names).2 ⟨hmem, rfl⟩, rfl⟩

theorem member?_eq_some_iff (he : e.Distinct) :
    e.member? n = some name ↔ (name, n) ∈ e.members := by
  rw [member?, Option.map_eq_some_iff]
  constructor
  · rintro ⟨m, hm, rfl⟩
    obtain ⟨hmem, rfl⟩ := (find?_key_eq_some_iff he.ordinals).1 hm
    exact hmem
  · intro hmem
    exact ⟨(name, n), (find?_key_eq_some_iff he.ordinals).2 ⟨hmem, rfl⟩, rfl⟩

theorem ordinal?_eq_none_iff : e.ordinal? name = none ↔ ∀ m ∈ e.members, m.1 ≠ name := by
  simp [ordinal?]

theorem member?_eq_none_iff : e.member? n = none ↔ ∀ m ∈ e.members, m.2 ≠ n := by
  simp [member?]

end Enumeration

/-! ## Reading typed text -/

namespace Value

open GridQuery.Text

variable {e : Enumeration} {g : Granularity} {text name : String} {n : ℤ}

theorem coerce_member (name : String) (e : Enumeration) :
    coerce (.member name) (.enumeration e) = namedMember e name := by
  cases h : e.ordinal? name <;> simp [coerce, matchesKind, coerceMember, namedMember, h]

theorem coerce_ordinal (k : Whole .int64) (e : Enumeration) :
    coerce (.whole .int64 k) (.enumeration e) =
      match e.member? k with
      | some name => .ok (.member name)
      | none => .error (.unknownMember (intString k.val) e.name) := by
  cases h : e.member? k <;>
    simp [coerce, matchesKind, coerceMember, Value.integer?, Whole.ofInt?_val, h]

theorem namedMember_of_declared (he : e.Distinct) {m : String × Whole .int64}
    (hm : m ∈ e.members) : namedMember e m.1 = .ok (.member m.1) := by
  rw [namedMember, (Enumeration.ordinal?_eq_some_iff he).2 hm]

theorem namedMember_of_unknown (h : ∀ m ∈ e.members, m.1 ≠ name) :
    namedMember e name = .error (.unknownMember name e.name) := by
  rw [namedMember, Enumeration.ordinal?_eq_none_iff.2 h]

/-- Text that spells a number is read as an ordinal. -/
theorem ofEntry_eq_ordinal {k : Whole .int64} (h : Spells (trim text.toList) k.val) :
    ofEntry (.enumeration e) g text = coerce (.whole .int64 k) (.enumeration e) := by
  rw [ofEntry, (Whole.ofText?_eq_some_iff rfl).2 h]

/-- Text that spells no number of 64 bits is read as a name. -/
theorem ofEntry_eq_name (h : ∀ k : Whole .int64, ¬ Spells (trim text.toList) k.val) :
    ofEntry (.enumeration e) g text = namedMember e (String.ofList (trim text.toList)) := by
  have hnone : Whole.ofText? .int64 (trim text.toList) = none :=
    Option.eq_none_iff_forall_ne_some.2 fun k hk => h k ((Whole.ofText?_eq_some_iff rfl).1 hk)
  rw [ofEntry, hnone, ← coerce_member]

/-- How a number without a member is named in the error: as the number it is, or, where it is
too large for an ordinal, as it is written. -/
def shownNumber (n : ℤ) (written : List Char) : String :=
  if Width.int64.Fits n then intString n else String.ofList written

/-- **Text that spells a number** selects the member with this ordinal. Without such a member
it is refused, unless the number is too large for an ordinal and its digits are a name. -/
theorem ofEntry_of_spells (he : e.Distinct) (h : Spells (trim text.toList) n) :
    (∀ m ∈ e.members, m.2.val = n → ofEntry (.enumeration e) g text = .ok (.member m.1)) ∧
    ((∀ m ∈ e.members, m.2.val ≠ n) →
      (Width.int64.Fits n ∨ ∀ m ∈ e.members, m.1 ≠ String.ofList (trim text.toList)) →
      ofEntry (.enumeration e) g text =
        .error (.unknownMember (shownNumber n (trim text.toList)) e.name)) := by
  constructor
  · rintro m hm rfl
    have hfound : e.member? m.2 = some m.1 := (Enumeration.member?_eq_some_iff he).2 hm
    rw [ofEntry_eq_ordinal h, coerce_ordinal, hfound]
  · intro hordinals hname
    by_cases hfits : Width.int64.Fits n
    · have hnone : e.member? ⟨n, hfits⟩ = none :=
        Enumeration.member?_eq_none_iff.2 fun m hm heq => hordinals m hm (congrArg Whole.val heq)
      rw [ofEntry_eq_ordinal (k := ⟨n, hfits⟩) h, coerce_ordinal, hnone, shownNumber,
        if_pos hfits]
    · have hlarge : ∀ k : Whole .int64, ¬ Spells (trim text.toList) k.val := fun k hk =>
        hfits (h.unique hk ▸ k.fits)
      rw [ofEntry_eq_name hlarge, namedMember_of_unknown (hname.resolve_left hfits), shownNumber,
        if_neg hfits]

/-- **A name selects its own member** when it spells the ordinal of this member, or no number
of 64 bits and has no blank at either end. -/
theorem ofEntry_member_iff (he : e.Distinct) {m : String × Whole .int64} (hm : m ∈ e.members) :
    ofEntry (.enumeration e) g m.1 = .ok (.member m.1) ↔
      Spells (trim m.1.toList) m.2.val ∨
        (∀ k : Whole .int64, ¬ Spells (trim m.1.toList) k.val) ∧
          trim m.1.toList = m.1.toList := by
  by_cases hnumber : ∃ k : Whole .int64, Spells (trim m.1.toList) k.val
  · obtain ⟨k, hk⟩ := hnumber
    have hown : Spells (trim m.1.toList) m.2.val ↔ k = m.2 :=
      ⟨fun h => Whole.ext (hk.unique h), fun h => h ▸ hk⟩
    have hfound : ofEntry (.enumeration e) g m.1 = .ok (.member m.1) ↔ e.member? k = some m.1 := by
      rw [ofEntry_eq_ordinal hk, coerce_ordinal]
      cases e.member? k <;> simp
    rw [hfound, hown, Enumeration.member?_eq_some_iff he]
    constructor
    · intro hmem
      have heq : (m.1, k) = m := List.inj_on_of_nodup_map he.names hmem hm rfl
      exact .inl (congrArg Prod.snd heq)
    · rintro (rfl | ⟨hnone, -⟩)
      · exact hm
      · exact absurd hk (hnone k)
  · rw [not_exists] at hnumber
    rw [ofEntry_eq_name hnumber]
    constructor
    · intro h
      refine .inr ⟨hnumber, ?_⟩
      unfold namedMember at h
      split at h
      · injection h with h
        injection h with h
        simpa using congrArg String.toList h
      · cases h
    · rintro (hown | ⟨-, htrim⟩)
      · exact absurd hown (hnumber _)
      · rw [htrim, String.ofList_toList]
        exact namedMember_of_declared he hm

/-! ## Rules on members -/

/-- A rule that looks for a member compares with its ordinal. -/
theorem compile_equals_member (he : e.Distinct) {m : String × Whole .int64} (hm : m ∈ e.members)
    {r : Rule} (hkind : r.kind = .enumeration e) (hoperator : r.operator = .equals)
    (hvalue : r.value = some (.member m.1)) {schema : Schema} {f : ResolvedField}
    (hpath : schema.resolve r.column.path = .ok f) (options : CompileOptions) :
    r.compile schema options =
      .ok (.compare ⟨r.column.path, .ordinal e⟩ .equal (.int m.2)) := by
  have hordinal : e.ordinal? m.1 = some m.2 := (Enumeration.ordinal?_eq_some_iff he).2 hm
  have hmatches : (Value.member m.1).matchesKind r.kind := by
    rw [hkind, matchesKind, hordinal]
    rfl
  have hsecond : r.kind = .dateTime → r.granularity options = .second := by simp [hkind]
  have hcomparison : r.operator.comparison? = some .equal := by rw [hoperator]; rfl
  have haccepts : r.operator.acceptsKind r.kind := by rw [hoperator]; rfl
  obtain ⟨b, hb, hcompile⟩ :=
    Rule.exists_compile_comparison hpath hsecond haccepts hcomparison hvalue hmatches
  simp only [hkind, Condition.compile.fieldAccess, FieldRef.project, hordinal, Option.map_some,
    Option.some.injEq] at hb hcompile
  rw [hcompile, ← hb]

/-- **Typed members of an enumeration.** With distinct names and ordinals, the name of a
member, as it is written, selects this member exactly when it spells the ordinal of the member,
or spells no number of 64 bits and has no blank at either end. A rule that holds a member
compares with its ordinal. Text that spells a number selects the member with this ordinal, and
is refused where there is none, unless its digits are too many for an ordinal and a name. -/
theorem typed_members {e : Enumeration} (he : e.Distinct) (g : Granularity) :
    (∀ m ∈ e.members,
      (ofEntry (.enumeration e) g m.1 = .ok (.member m.1) ↔
        Spells (trim m.1.toList) m.2.val ∨
          (∀ k : Whole .int64, ¬ Spells (trim m.1.toList) k.val) ∧
            trim m.1.toList = m.1.toList) ∧
      ∀ (r : Rule) (schema : Schema) (options : CompileOptions) (f : ResolvedField),
        r.kind = .enumeration e → r.operator = .equals → r.value = some (.member m.1) →
        schema.resolve r.column.path = .ok f →
        r.compile schema options =
          .ok (.compare ⟨r.column.path, .ordinal e⟩ .equal (.int m.2))) ∧
    ∀ (text : String) (n : ℤ), Spells (trim text.toList) n →
      (∀ m ∈ e.members, m.2.val = n → ofEntry (.enumeration e) g text = .ok (.member m.1)) ∧
      ((∀ m ∈ e.members, m.2.val ≠ n) →
        (Width.int64.Fits n ∨ ∀ m ∈ e.members, m.1 ≠ String.ofList (trim text.toList)) →
        ofEntry (.enumeration e) g text =
          .error (.unknownMember (shownNumber n (trim text.toList)) e.name)) := by
  refine ⟨fun m hm => ⟨ofEntry_member_iff he hm, ?_⟩, fun text n h => ofEntry_of_spells he h⟩
  intro r schema options f hkind hoperator hvalue hpath
  exact compile_equals_member he hm hkind hoperator hvalue hpath options

/-- The members of a level, one of which is called by its own ordinal. -/
theorem typed_members_level :
    let e : Enumeration := ⟨"Level", [("Low", ⟨0, by decide⟩), ("1", ⟨1, by decide⟩)]⟩
    let r : Rule := ⟨1, { path := "level" }, "level", .equals, .enumeration e, false,
      some (.member "1"), false⟩
    let schema : Schema := ⟨"Event", [("level", .kind (.enumeration e))]⟩
    e.Distinct ∧
      r.compile schema {} = .ok (.compare ⟨"level", .ordinal e⟩ .equal (.int ⟨1, by decide⟩)) ∧
      ofEntry (.enumeration e) .second "Low" = .ok (.member "Low") ∧
      ofEntry (.enumeration e) .second "1" = .ok (.member "1") ∧
      ofEntry (.enumeration e) .second " +0 " = .ok (.member "Low") ∧
      ofEntry (.enumeration e) .second "007" = .error (.unknownMember "7" "Level") := by
  intro e r schema
  have he : e.Distinct := ⟨by decide, by decide⟩
  have hpath : schema.resolve "level" = .ok ⟨"level", ["level"], .kind (.enumeration e), false⟩ :=
    rfl
  have hlow : Whole.ofText? .int64 (trim "Low".toList) = none := rfl
  obtain ⟨hnames, hnumbers⟩ := typed_members he .second
  refine ⟨he, ?_, ?_, ?_, ?_, ?_⟩
  · exact (hnames ("1", ⟨1, by decide⟩) (by simp [e])).2 r schema {} _ rfl rfl rfl hpath
  · refine (hnames ("Low", ⟨0, by decide⟩) (by simp [e])).1.2 (.inr ⟨fun k hk => ?_, rfl⟩)
    rw [(Whole.ofText?_eq_some_iff rfl).2 hk] at hlow
    cases hlow
  · exact (hnames ("1", ⟨1, by decide⟩) (by simp [e])).1.2 (.inl (integer?_eq_some_iff.1 rfl))
  · exact (hnumbers " +0 " 0 (integer?_eq_some_iff.1 rfl)).1 ("Low", ⟨0, by decide⟩)
      (by simp [e]) rfl
  · have hshown : shownNumber 7 (trim "007".toList) = "7" := by decide +kernel
    rw [← hshown]
    exact (hnumbers "007" 7 (integer?_eq_some_iff.1 rfl)).2 (by simp [e]) (.inl (by decide))

/-- A name that spells the ordinal of another member selects this other one, and a name that
begins with a blank selects none. -/
theorem ofEntry_crossed_names :
    let e : Enumeration :=
      ⟨"Level", [("1", ⟨5, by decide⟩), ("x", ⟨1, by decide⟩), (" Open", ⟨0, by decide⟩)]⟩
    e.Distinct ∧
      ofEntry (.enumeration e) .second "1" = .ok (.member "x") ∧
      ofEntry (.enumeration e) .second " Open" = .error (.unknownMember "Open" "Level") := by
  intro e
  exact ⟨⟨by decide, by decide⟩, rfl, rfl⟩

end Value

end GridQuery
