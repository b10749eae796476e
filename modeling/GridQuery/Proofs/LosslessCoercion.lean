import GridQuery.Proofs.DoubleDecimal
import GridQuery.Proofs.WholeCoercion

/-!
# Coercion into doubles and decimals

A coercion loses nothing when its result stands for the same number as the value, and when a value
is refused only because no value of the kind stands for its number (`Value.Lossless`). Integers
become doubles and doubles become decimals by rounding, and decimals become doubles by rounding
several times, and none of these compares the result with the number it came from. So nothing is
lost under the conditions of `Value.coerce_lossless`, and the values in `Value.coerce_rounds` come
out as different numbers.
-/

namespace GridQuery

/-- Whether some value of the kind stands for the number. -/
def Kind.Denotes (k : Kind) (r : ℚ) : Prop := ∃ w : Value, w.matchesKind k ∧ w.number? = some r

theorem Kind.denotes_float_iff {r : ℚ} :
    Kind.float.Denotes r ↔ ∃ x : Binary64, x.value? = some r := by
  constructor
  · rintro ⟨w, hkind, hw⟩
    cases w with
    | float x => exact ⟨x, hw⟩
    | _ => cases hkind
  · rintro ⟨x, hx⟩
    exact ⟨.float x, rfl, hx⟩

theorem Kind.denotes_decimal_iff {r : ℚ} :
    Kind.decimal.Denotes r ↔ ∃ d : Decimal, d.value = r := by
  constructor
  · rintro ⟨w, hkind, hw⟩
    cases w with
    | decimal d => exact ⟨d, Option.some.inj hw⟩
    | _ => cases hkind
  · rintro ⟨d, rfl⟩
    exact ⟨.decimal d, rfl, rfl⟩

namespace Value

variable {v : Value} {r : ℚ}

/-- A coercion that loses nothing: the result stands for the number of the value, or the value is
out of range and the kind does not have its number. -/
def Lossless (v : Value) (k : Kind) : Prop :=
  (∃ w, v.coerce k = .ok w ∧ w.number? = v.number?) ∨
    v.coerce k = .error (.outOfRange v.display k.name) ∧ ∀ r, v.number? = some r → ¬ k.Denotes r

/-! ## Doubles -/

/-- No number is refused as a double. -/
theorem exists_coerce_float (h : v.number? = some r) : ∃ x, v.coerce .float = .ok (.float x) := by
  cases v with
  | whole w n => exact ⟨Binary64.ofInt n.val, rfl⟩
  | float x => exact ⟨x, rfl⟩
  | decimal d => exact ⟨d.toFloat, rfl⟩
  | _ => cases h

theorem denotes_of_lossless_float (h : v.number? = some r) (hlossless : v.Lossless .float) :
    Kind.float.Denotes r := by
  obtain ⟨x, hx⟩ := exists_coerce_float h
  rcases hlossless with ⟨w, hw, hnumber⟩ | ⟨herror, -⟩
  · exact ⟨w, coerce_matchesKind hw, hnumber.trans h⟩
  · cases hx.symm.trans herror

theorem lossless_float (h : v.number? = some r) (hfloat : Kind.float.Denotes r)
    (hmantissa : ∀ d, v = .decimal d → d.whole? = none → Kind.float.Denotes d.mantissa) :
    v.Lossless .float := by
  obtain ⟨x, hx⟩ := Kind.denotes_float_iff.1 hfloat
  cases v with
  | whole w n =>
    obtain rfl := Option.some.inj h
    exact .inl ⟨.float (Binary64.ofInt n.val), rfl, Binary64.value?_ofInt hx⟩
  | float y => exact .inl ⟨.float y, rfl, rfl⟩
  | decimal d =>
    obtain rfl := Option.some.inj h
    refine .inl ⟨.float d.toFloat, rfl, Decimal.value?_toFloat hx fun hnone => ?_⟩
    exact Kind.denotes_float_iff.1 (hmantissa d rfl hnone)
  | _ => cases h

/-! ## Decimals -/

/-- Integers of all widths are decimals. -/
theorem exists_ofInt? {w : Width} (n : Whole w) :
    ∃ d, Decimal.ofInt? n.val = some d ∧ d.value = (n.val : ℚ) := by
  obtain ⟨n, hn⟩ := n
  have hlimit : n.natAbs < Decimal.limit := by
    unfold Width.Fits at hn
    unfold Decimal.limit
    cases w <;> simp only [Width.least, Width.greatest] at hn <;> omega
  refine ⟨_, Decimal.ofParts?_eq_some hlimit (Nat.zero_le _), ?_⟩
  have hsigned : (if decide (n < 0) then -(n.natAbs : ℤ) else n.natAbs) = n := by
    by_cases hneg : n < 0
    · rw [if_pos (decide_eq_true hneg)]
      omega
    · rw [if_neg (by simpa using hneg)]
      omega
  rw [Decimal.value, Decimal.signedMantissa, hsigned, pow_zero, div_one]

theorem coerce_float_decimal (x : Binary64) :
    (Value.float x).coerce .decimal =
      match Decimal.ofFloat? x with
      | some d => .ok (.decimal d)
      | none => .error (.outOfRange (Value.float x).display Kind.decimal.name) := by
  change Value.coerceDecimal (.float x) = _
  simp only [coerceDecimal]
  cases Decimal.ofFloat? x <;> rfl

theorem lossless_float_decimal_iff {x : Binary64} (hx : x.value? = some r) :
    (Value.float x).Lossless .decimal ↔
      (∃ d, Decimal.ofFloat? x = some d ∧ d.value = r) ∨
        Decimal.ofFloat? x = none ∧ ∀ d : Decimal, d.value ≠ r := by
  have hnumber : (Value.float x).number? = some r := hx
  rw [Lossless, coerce_float_decimal, hnumber]
  cases Decimal.ofFloat? x with
  | some d => simp [number?]
  | none => simp [Kind.denotes_decimal_iff]

theorem lossless_decimal_iff (h : v.number? = some r) :
    v.Lossless .decimal ↔ ∀ x, v = .float x →
      (∃ n : ℤ, r = n) ∨ ∃ d : Decimal, d.mantissa < twoTo 52 ∧ d.value = r := by
  cases v with
  | whole w n =>
    obtain ⟨d, hd, hvalue⟩ := exists_ofInt? n
    refine iff_of_true (.inl ⟨.decimal d, ?_, congrArg some hvalue⟩) (by simp)
    change Value.coerceDecimal (.whole w n) = _
    simp only [coerceDecimal, integer?, hd]
  | decimal d => exact iff_of_true (.inl ⟨.decimal d, rfl, rfl⟩) (by simp)
  | float x =>
    rw [lossless_float_decimal_iff h, Decimal.ofFloat?_exact_iff h]
    exact ⟨fun hexact y hy => hexact, fun hexact => hexact x rfl⟩
  | _ => cases h

/-! ## When nothing is lost -/

/-- **Coercion of numbers into doubles and decimals.** Nothing is lost on the way to a double only
if the number is a double, and that is enough unless the value is a decimal with places whose
mantissa is none. Nothing is lost on the way to a decimal except for doubles with a fraction that
have 52 bits or more as a decimal. -/
theorem coerce_lossless (h : v.number? = some r) :
    (v.Lossless .float → Kind.float.Denotes r) ∧
      (Kind.float.Denotes r →
        (∀ d, v = .decimal d → d.whole? = none → Kind.float.Denotes d.mantissa) →
        v.Lossless .float) ∧
      (v.Lossless .decimal ↔ ∀ x, v = .float x →
        (∃ n : ℤ, r = n) ∨ ∃ d : Decimal, d.mantissa < twoTo 52 ∧ d.value = r) :=
  ⟨denotes_of_lossless_float h, lossless_float h, lossless_decimal_iff h⟩

/-- Two and a half is kept as a double, and stays what it is as a decimal. -/
theorem coerce_lossless_half :
    (Value.decimal ⟨false, 25, 1, by decide, by decide⟩).Lossless .float ∧
      (Value.decimal ⟨false, 25, 1, by decide, by decide⟩).Lossless .decimal := by
  have hfloat : Kind.float.Denotes (Decimal.value ⟨false, 25, 1, by decide, by decide⟩) :=
    Kind.denotes_float_iff.2 ⟨.finite false (5 * twoTo 50) 1023 (by decide +kernel),
      Decimal.value?_of_units (d := ⟨false, 25, 1, by decide, by decide⟩) (by decide +kernel)
        (by decide +kernel)⟩
  have hmantissa : Kind.float.Denotes (25 : ℕ) :=
    Kind.denotes_float_iff.2 ⟨Binary64.ofInt 25, Binary64.whole?_eq_some_iff.1 (by decide +kernel)⟩
  obtain ⟨-, hsufficient, hdecimal⟩ :=
    coerce_lossless (v := .decimal ⟨false, 25, 1, by decide, by decide⟩) rfl
  refine ⟨hsufficient hfloat ?_, hdecimal.2 nofun⟩
  rintro d hd -
  cases hd
  exact hmantissa

/-- A coercion that lets a number through as another one. -/
def Alters (v : Value) (k : Kind) : Prop :=
  ∃ r w, v.number? = some r ∧ v.coerce k = .ok w ∧ w.number? ≠ some r

/-- What comes out as another number: an integer of 54 bits as a double, a decimal as a double
although the number is one, and the double closest to a tenth as a decimal. -/
theorem coerce_rounds :
    (Value.whole .int64 ⟨9007199254740993, by decide⟩).Alters .float ∧
      (Value.decimal ⟨false, 9011695775186285, 1, by decide, by decide⟩).Alters .float ∧
      Kind.float.Denotes (Decimal.value ⟨false, 9011695775186285, 1, by decide, by decide⟩) ∧
      (Value.float (Binary64.nearest false 1 10)).Alters .decimal := by
  refine ⟨⟨_, .float (Binary64.ofInt 9007199254740993), rfl, rfl, ?_⟩,
    ⟨_, .float (Binary64.finite false 7209356620149027 1071 (by decide +kernel)), rfl, ?_, ?_⟩,
    ?_, ?_⟩
  · intro hsame
    have hrounded : (Binary64.ofInt 9007199254740993).value? = some ((9007199254740992 : ℤ) : ℚ) :=
      Binary64.whole?_eq_some_iff.1 (by decide +kernel)
    exact absurd (Option.some.inj (hrounded.symm.trans hsame)) (by norm_num)
  · have hfloat : Decimal.toFloat ⟨false, 9011695775186285, 1, by decide, by decide⟩ =
        .finite false 7209356620149027 1071 (by decide +kernel) := by decide +kernel
    exact congrArg (fun x => Except.ok (Value.float x)) hfloat
  · intro hsame
    have heighths : (Binary64.finite false 7209356620149027 1071 (by decide +kernel)).value? =
        some (Decimal.value ⟨false, 901169577518628375, 3, by decide, by decide⟩) :=
      Decimal.value?_of_units (d := ⟨false, 901169577518628375, 3, by decide, by decide⟩)
        (by decide +kernel) (by decide +kernel)
    refine absurd (Option.some.inj (heighths.symm.trans hsame)) ?_
    norm_num [Decimal.value, Decimal.signedMantissa]
  · exact Kind.denotes_float_iff.2 ⟨.finite false 7209356620149028 1071 (by decide +kernel),
      Decimal.value?_of_units (d := ⟨false, 9011695775186285, 1, by decide, by decide⟩)
        (by decide +kernel) (by decide +kernel)⟩
  · have htenth : Binary64.nearest false 1 10 =
        .finite false 7205759403792794 1018 (by decide +kernel) := by decide +kernel
    have hdecimal : Decimal.ofFloat? (Binary64.nearest false 1 10) =
        some ⟨false, 1, 1, by decide, by decide⟩ := by decide +kernel
    obtain ⟨r, hr⟩ : ∃ r, (Binary64.nearest false 1 10).value? = some r :=
      ⟨_, by rw [htenth, Binary64.value?_finite]⟩
    refine ⟨r, .decimal ⟨false, 1, 1, by decide, by decide⟩, hr, ?_, ?_⟩
    · rw [coerce_float_decimal, hdecimal]
    · intro hsame
      -- No count of units is a tenth.
      obtain ⟨u, -, hcount⟩ := Decimal.isCount_of_value? (hr.trans hsame.symm)
      have hrest : twoTo 1074 % 10 ≠ 0 := by decide +kernel
      generalize twoTo 1074 = unit at hcount hrest
      change 1 * unit = 10 * u at hcount
      omega

end Value

end GridQuery
