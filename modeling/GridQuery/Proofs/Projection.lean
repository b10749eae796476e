import GridQuery.Proofs.Coercion
import GridQuery.Rule.Compilation

/-!
# Coercion as a projection

Coercion into a kind is a projection onto the values of the kind. It leaves them alone, and them
only (`Value.coerce_eq_self_iff`), and whatever comes out is one of them, so coercing twice is
coercing once (`Value.coerce_of_coerce`). Defaults and typed text end in values of the kind too,
and each value of the kind has an operand (`Value.exists_operandOf`): nothing behind the coercion
has to check anything again.

No kind is left out. In an enumeration names and ordinals may repeat. An ordinal then stands for
the first member that has it, and the name of this member for the first member of this name, which
may have another ordinal; but it is a declared one (`Value.operandOf_member`).
-/

namespace GridQuery

theorem Enumeration.mem_of_ordinal? {e : Enumeration} {name : String} {n : Whole .int64}
    (h : e.ordinal? name = some n) : (name, n) ∈ e.members := by
  obtain ⟨m, hm, rfl⟩ := Option.map_eq_some_iff.1 h
  have hname : m.1 = name := by simpa using List.find?_some hm
  rw [← hname]
  exact List.mem_of_find?_eq_some hm

namespace Value

variable {v w : Value} {k : Kind}

/-! ## Fixed points -/

/-- The values that coercion leaves alone are the values of the kind. -/
theorem coerce_eq_self_iff : v.coerce k = .ok v ↔ v.matchesKind k :=
  ⟨coerce_matchesKind, coerce_of_matchesKind⟩

/-- A coerced value is left alone. -/
theorem coerce_of_coerce (h : v.coerce k = .ok w) : w.coerce k = .ok w :=
  coerce_eq_self_iff.2 (coerce_matchesKind h)

/-! ## Operands -/

/-- The operand of a member is an ordinal that is declared under its name. -/
theorem operandOf_member {e : Enumeration} {name : String}
    (h : (member name).matchesKind (.enumeration e)) (path : String) :
    ∃ n, (name, n) ∈ e.members ∧
      Condition.operandOf (.enumeration e) (.member name) path = .ok (.int n) := by
  obtain ⟨_, n, ⟨⟩, hn⟩ := eq_member_of_matchesKind h
  refine ⟨n, Enumeration.mem_of_ordinal? hn, ?_⟩
  simp only [Condition.operandOf, hn]

/-- A value of the kind has an operand. -/
theorem exists_operandOf (h : w.matchesKind k) (path : String) :
    ∃ operand, Condition.operandOf k w path = .ok operand := by
  cases k with
  | enumeration e =>
    obtain ⟨name, -, rfl, -⟩ := eq_member_of_matchesKind h
    obtain ⟨n, -, hn⟩ := operandOf_member h path
    exact ⟨.int n, hn⟩
  | _ => exact ⟨.ofValue w, rfl⟩

/-! ## The projection -/

/-- **Coercion projects onto the values of the kind**, whatever the kind is, enumerations with
repeated names or ordinals or without members included. It leaves the values of the kind alone;
what it brings out is such a value, and is left alone by a second coercion. What typed text is read
as is a value of the kind, and so is the default. And each value of the kind has an operand to
compare with. -/
theorem coerce_projects (k : Kind) :
    (∀ v : Value, v.matchesKind k → v.coerce k = .ok v) ∧
    (∀ v w : Value, v.coerce k = .ok w → w.matchesKind k ∧ w.coerce k = .ok w) ∧
    (∀ (f : Granularity) (text : String) (w : Value),
      ofEntry k f text = .ok w → w.matchesKind k) ∧
    (∀ (now : Instant) (w : Value), default? now k = some w → w.matchesKind k) ∧
    ∀ (w : Value) (path : String), w.matchesKind k →
      ∃ operand, Condition.operandOf k w path = .ok operand := by
  refine ⟨?_, ?_, ?_, ?_, ?_⟩
  · intro v hv
    exact coerce_of_matchesKind hv
  · intro v w hw
    exact ⟨coerce_matchesKind hw, coerce_of_coerce hw⟩
  · intro f text w hw
    exact ofEntry_matchesKind hw
  · intro now w hw
    exact default_matchesKind hw
  · intro w path hw
    exact exists_operandOf hw path

/-- Two members share the name `Low` and two the ordinal 2. The ordinal 3 stands for the second
`Low`, and as the operand of its name the ordinal of the first `Low` comes out. -/
theorem coerce_projects_repeated :
    let e : Enumeration := ⟨"Level", [("Low", Whole.clamp .int64 1), ("High", Whole.clamp .int64 2),
      ("Low", Whole.clamp .int64 3), ("Top", Whole.clamp .int64 2)]⟩
    let third : Value := .whole .byte (Whole.clamp .byte 3)
    third.coerce (.enumeration e) = .ok (.member "Low") ∧
      (member "Low").matchesKind (.enumeration e) ∧
      (member "Low").coerce (.enumeration e) = .ok (.member "Low") ∧
      Condition.operandOf (.enumeration e) (.member "Low") "level" =
        .ok (.int (Whole.clamp .int64 1)) ∧
      (∃ operand, Condition.operandOf (.enumeration e) (.member "Low") "level" = .ok operand) ∧
      ofEntry (.enumeration e) .date " 2 " = .ok (.member "High") ∧
      (member "High").matchesKind (.enumeration e) ∧
      default? .first (.enumeration e) = some (.member "Low") := by
  intro e third
  obtain ⟨hself, hcoerced, hentry, hdefault, hoperand⟩ := coerce_projects (.enumeration e)
  have hthird : third.coerce (.enumeration e) = .ok (.member "Low") := rfl
  have htyped : ofEntry (.enumeration e) .date " 2 " = .ok (.member "High") := rfl
  have hfirst : default? .first (.enumeration e) = some (.member "Low") := rfl
  obtain ⟨hlow, hagain⟩ := hcoerced third _ hthird
  refine ⟨hthird, hlow, hself _ (hdefault _ _ hfirst), ?_, hoperand _ "level" hlow, htyped,
    hentry _ _ _ htyped, hfirst⟩
  rfl

end Value

end GridQuery
