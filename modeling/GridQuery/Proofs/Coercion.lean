import GridQuery.Value.Entry

/-!
# Values and their kinds

Whatever brings a value into a kind ends in a value of that kind: coercion, the
default of a kind, and the reading of typed text. A value that is of the kind
already is left alone.
-/

namespace GridQuery

namespace Enumeration

/-- The member found under an ordinal is a declared one. -/
theorem ordinal?_isSome_of_member? {e : Enumeration} {n : Whole .int64} {name : String}
    (h : e.member? n = some name) : (e.ordinal? name).isSome := by
  obtain ⟨m, hm, rfl⟩ := Option.map_eq_some_iff.1 h
  have hmem : m ∈ e.members := List.mem_of_find?_eq_some hm
  rw [ordinal?, Option.isSome_map, List.find?_isSome]
  exact ⟨m, hmem, by simp⟩

theorem ordinal?_isSome_of_first? {e : Enumeration} {name : String} (h : e.first? = some name) :
    (e.ordinal? name).isSome := by
  obtain ⟨m, hm, rfl⟩ := Option.map_eq_some_iff.1 h
  rw [ordinal?, Option.isSome_map, List.find?_isSome]
  exact ⟨m, List.mem_of_mem_head? hm, by simp⟩

end Enumeration

namespace Value

/-! ## Values of a kind -/

theorem eq_instant_of_matchesKind {v : Value} (h : v.matchesKind .dateTime) :
    ∃ i, v = .instant i := by
  cases v with
  | instant i => exact ⟨i, rfl⟩
  | _ => cases h

theorem eq_whole_of_matchesKind {v : Value} {w : Width} (h : v.matchesKind (.whole w)) :
    ∃ n : Whole w, v = .whole w n := by
  cases v with
  | whole w' n =>
    obtain rfl : w' = w := eq_of_beq h
    exact ⟨n, rfl⟩
  | _ => cases h

theorem eq_float_of_matchesKind {v : Value} (h : v.matchesKind .float) : ∃ x, v = .float x := by
  cases v with
  | float x => exact ⟨x, rfl⟩
  | _ => cases h

theorem eq_decimal_of_matchesKind {v : Value} (h : v.matchesKind .decimal) :
    ∃ d, v = .decimal d := by
  cases v with
  | decimal d => exact ⟨d, rfl⟩
  | _ => cases h

theorem eq_bool_of_matchesKind {v : Value} (h : v.matchesKind .boolean) : ∃ b, v = .bool b := by
  cases v with
  | bool b => exact ⟨b, rfl⟩
  | _ => cases h

theorem eq_text_of_matchesKind {v : Value} (h : v.matchesKind .text) : ∃ s, v = .text s := by
  cases v with
  | text s => exact ⟨s, rfl⟩
  | _ => cases h

theorem eq_member_of_matchesKind {v : Value} {e : Enumeration}
    (h : v.matchesKind (.enumeration e)) :
    ∃ name n, v = .member name ∧ e.ordinal? name = some n := by
  cases v with
  | member name =>
    obtain ⟨n, hn⟩ := Option.isSome_iff_exists.1 h
    exact ⟨name, n, rfl, hn⟩
  | _ => cases h

/-! ## Coercion -/

/-- A value of the kind is not changed. -/
theorem coerce_of_matchesKind {v : Value} {k : Kind} (h : v.matchesKind k) :
    v.coerce k = .ok v := if_pos h

theorem namedMember_matchesKind {e : Enumeration} {name : String} {w : Value}
    (h : namedMember e name = .ok w) : w.matchesKind (.enumeration e) := by
  unfold namedMember at h
  split at h
  · rename_i n hn
    cases h
    simp [matchesKind, hn]
  · cases h

theorem coerceMember_matchesKind {v w : Value} {e : Enumeration} (h : v.coerceMember e = .ok w) :
    w.matchesKind (.enumeration e) := by
  unfold coerceMember at h
  split at h
  · exact namedMember_matchesKind h
  · exact namedMember_matchesKind h
  · split at h
    · cases h
    · split at h
      · rename_i name hname
        cases h
        obtain ⟨n, -, hn⟩ := Option.bind_eq_some_iff.1 hname
        exact Enumeration.ordinal?_isSome_of_member? hn
      · cases h

theorem coerceWhole_matchesKind {v w : Value} {width : Width} (h : v.coerceWhole width = .ok w) :
    w.matchesKind (.whole width) := by
  unfold coerceWhole at h
  split at h
  · cases h
  · cases h
  · split at h
    · cases h
      simp [matchesKind]
    · cases h

theorem coerceFloat_matchesKind {v w : Value} (h : v.coerceFloat = .ok w) :
    w.matchesKind .float := by
  unfold coerceFloat at h
  split at h
  · cases h
    rfl
  · split at h
    · cases h
      rfl
    · cases h

theorem coerceDecimal_matchesKind {v w : Value} (h : v.coerceDecimal = .ok w) :
    w.matchesKind .decimal := by
  unfold coerceDecimal at h
  simp only at h
  split at h
  · cases h
  · cases h
    rfl
  · cases h

/-- A coerced value is of the kind. -/
theorem coerce_matchesKind {v w : Value} {k : Kind} (h : v.coerce k = .ok w) : w.matchesKind k := by
  by_cases hv : v.matchesKind k
  · rw [coerce_of_matchesKind hv] at h
    cases h
    exact hv
  · unfold coerce at h
    rw [if_neg hv] at h
    cases k with
    | whole width => exact coerceWhole_matchesKind h
    | float => exact coerceFloat_matchesKind h
    | decimal => exact coerceDecimal_matchesKind h
    | enumeration e => exact coerceMember_matchesKind h
    | boolean => cases h
    | text => cases h
    | dateTime => cases h

/-! ## Defaults and typed text -/

/-- The default of a kind is of the kind. -/
theorem default_matchesKind {now : Instant} {k : Kind} {w : Value}
    (h : default? now k = some w) : w.matchesKind k := by
  cases k with
  | enumeration e =>
    obtain ⟨name, hname, rfl⟩ := Option.map_eq_some_iff.1 h
    exact Enumeration.ordinal?_isSome_of_first? hname
  | _ =>
    cases h
    simp [matchesKind]

theorem scalarOfText?_matchesKind {k : Kind} {preferred : Granularity} {s : List Char} {w : Value}
    (h : scalarOfText? k preferred s = some w) : w.matchesKind k := by
  cases k with
  | text => cases h
  | enumeration e => cases h
  | _ =>
    obtain ⟨_, -, rfl⟩ := Option.map_eq_some_iff.1 h
    simp [matchesKind]

/-- Typed text is read as a value of the kind. -/
theorem ofEntry_matchesKind {k : Kind} {preferred : Granularity} {text : String} {w : Value}
    (h : ofEntry k preferred text = .ok w) : w.matchesKind k := by
  unfold ofEntry at h
  simp only at h
  split at h
  · cases h
    rfl
  · split at h
    · exact coerce_matchesKind h
    · exact coerce_matchesKind h
  · split at h
    · rename_i v hv
      cases h
      exact scalarOfText?_matchesKind hv
    · cases h

end Value

end GridQuery
