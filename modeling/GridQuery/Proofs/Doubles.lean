import GridQuery.Number.Binary64
import Mathlib

/-!
# Doubles as numbers

A finite double stands for a fraction (`Binary64.value?`): its magnitude is a count of units,
and the units are so small that every double counts a whole number of them
(`Binary64.IsCount`). A fraction that is a count of some double is not changed by rounding
(`Binary64.nearest_of_isCount`), so a whole number that is a double is converted exactly
(`Binary64.value?_ofInt`).
-/

namespace GridQuery

theorem cast_twoTo (k : ℕ) : ((twoTo k : ℕ) : ℚ) = 2 ^ k := by
  induction k with
  | zero => rfl
  | succ k ih => rw [twoTo_succ, Nat.cast_mul, ih, pow_succ, Nat.cast_ofNat]

namespace Binary64

variable {negative : Bool} {m q n d u : ℕ} {x : Binary64}

/-! ## Values -/

/-- The fraction that a finite double stands for. -/
def value? : Binary64 → Option ℚ
  | .finite negative m q h => some ((Binary64.finite negative m q h).units / (twoTo 1074 : ℕ))
  | _ => none

theorem value?_finite (negative : Bool) (h : Canonical m q) :
    (Binary64.finite negative m q h).value? =
      some ((if negative then -1 else 1 : ℚ) * (m * twoTo q : ℕ) / (twoTo 1074 : ℕ)) := by
  have hunits : (((Binary64.finite negative m q h).units : ℤ) : ℚ) =
      (if negative then -1 else 1 : ℚ) * (m * twoTo q : ℕ) := by
    generalize hcount : m * twoTo q = count
    cases negative <;> simp [units, hcount]
  rw [value?, hunits]

/-- The whole number of a double is the one it stands for. -/
theorem whole?_eq_some_iff {n : ℤ} : x.whole? = some n ↔ x.value? = some (n : ℚ) := by
  cases x with
  | nan => simp [whole?, value?]
  | infinite negative => simp [whole?, value?]
  | finite negative m q h =>
    rw [whole?, value?, Option.some.injEq]
    generalize (Binary64.finite negative m q h).units = i
    have hunit : (0 : ℤ) < (twoTo 1074 : ℕ) := Int.natCast_pos.2 (twoTo_pos 1074)
    have hvalue : (i : ℚ) / (twoTo 1074 : ℕ) = n ↔ i = n * (twoTo 1074 : ℕ) := by
      rw [div_eq_iff (Nat.cast_ne_zero.2 (twoTo_pos 1074).ne')]
      exact_mod_cast Iff.rfl
    rw [hvalue]
    by_cases hdvd : i % (twoTo 1074 : ℕ) = 0
    · rw [if_pos hdvd, Option.some.injEq]
      exact Int.ediv_eq_iff_eq_mul_left hunit.ne' (Int.dvd_of_emod_eq_zero hdvd)
    · rw [if_neg hdvd]
      refine iff_of_false (by simp) ?_
      rintro rfl
      exact hdvd (Int.mul_emod_left _ _)

/-! ## Counts of units -/

/-- Whether some finite double counts this many units, with or without a sign. -/
def IsCount (u : ℕ) : Prop := ∃ m q, Canonical m q ∧ u = m * twoTo q

/-- A number of at most 53 bits followed by zeros is a count, unless it is too large. -/
theorem isCount_of_bits {c e : ℕ} (hc : c < twoTo 53) (he : e ≤ 2045) :
    IsCount (c * twoTo e) := by
  induction e generalizing c with
  | zero => exact ⟨c, 0, ⟨hc, Nat.zero_le _, .inl rfl⟩, rfl⟩
  | succ e ih =>
    by_cases hlarge : twoTo 52 ≤ c
    · exact ⟨c, e + 1, ⟨hc, he, .inr hlarge⟩, rfl⟩
    · -- A zero is taken from the end into the bits.
      have hshift : c * twoTo (e + 1) = (c * 2) * twoTo e := by rw [twoTo_succ]; ring
      have hbits : c * 2 < twoTo 53 := by
        have hdouble : twoTo 53 = twoTo 52 * 2 := twoTo_succ 52
        omega
      rw [hshift]
      exact ih hbits (by omega)

theorem log2_of_canonical (h : Canonical m q) : (m * twoTo q).log2 - 52 = q := by
  obtain ⟨hm, -, hsmall | hlarge⟩ := h
  · subst hsmall
    have hlog : (m * twoTo 0).log2 < 53 := by
      by_cases hzero : m = 0
      · subst hzero
        decide
      · exact (Nat.log2_lt (by simpa [twoTo] using hzero)).2 (by simpa [twoTo] using hm)
    omega
  · have hpos : 0 < m * twoTo q := Nat.mul_pos ((twoTo_pos 52).trans_le hlarge) (twoTo_pos q)
    have hlog : (m * twoTo q).log2 = 52 + q := by
      rw [Nat.log2_eq_iff hpos.ne']
      constructor
      · rw [pow_add]
        exact Nat.mul_le_mul_right _ hlarge
      · have hnext : 2 ^ (52 + q + 1) = twoTo 53 * twoTo q := by
          rw [← twoTo_add]
          exact congrArg (2 ^ ·) (by omega)
        rw [hnext]
        exact Nat.mul_lt_mul_of_pos_right hm (twoTo_pos q)
    omega

theorem roundEven_mul (hd : 0 < d) (m : ℕ) : roundEven (d * m) d = m := by
  simp [roundEven, Nat.mul_div_cancel_left m hd, hd]

/-- **Rounding nothing away.** A fraction that counts as many units as a double is rounded to
that double. -/
theorem nearest_of_isCount (hd : 0 < d) (hu : IsCount u) (hfraction : n * twoTo 1074 = d * u)
    (negative : Bool) :
    ∃ m q h, nearest negative n d = .finite negative m q h ∧ m * twoTo q = u := by
  obtain ⟨m, q, hcanonical, rfl⟩ := hu
  refine ⟨m, q, hcanonical, ?_, rfl⟩
  have hexponent : (n * twoTo 1074 / d).log2 - 52 = q := by
    rw [hfraction, Nat.mul_div_cancel_left _ hd, log2_of_canonical hcanonical]
  have hmantissa : roundEven (n * twoTo 1074) (d * twoTo q) = m := by
    have hunits : n * twoTo 1074 = d * twoTo q * m := by rw [hfraction]; ring
    rw [hunits, roundEven_mul (Nat.mul_pos hd (twoTo_pos q))]
  have hne : m ≠ twoTo 53 := hcanonical.1.ne
  unfold nearest
  simp only [hexponent, hmantissa, if_neg hne]
  exact dif_pos hcanonical

theorem units_nearest_of_isCount (hd : 0 < d) (hu : IsCount u)
    (hfraction : n * twoTo 1074 = d * u) : (nearest false n d).units.natAbs = u := by
  obtain ⟨m, q, h, hnearest, rfl⟩ := nearest_of_isCount hd hu hfraction false
  rw [hnearest]
  rfl

/-- A number that is a double counts units. -/
theorem isCount_of_value? {r : ℚ} (h : x.value? = some r) :
    ∃ u, IsCount u ∧ (u : ℚ) = |r| * (twoTo 1074 : ℕ) := by
  cases x with
  | nan => cases h
  | infinite negative => cases h
  | finite negative m q hcanonical =>
    refine ⟨m * twoTo q, ⟨m, q, hcanonical, rfl⟩, ?_⟩
    have hunit : (0 : ℚ) < (twoTo 1074 : ℕ) := Nat.cast_pos.2 (twoTo_pos 1074)
    have hcount : (0 : ℚ) ≤ (m * twoTo q : ℕ) := Nat.cast_nonneg _
    rw [value?_finite, Option.some.injEq] at h
    rw [← h, abs_div, abs_mul, abs_of_pos hunit, abs_of_nonneg hcount, div_mul_cancel₀ _ hunit.ne']
    cases negative <;> simp

theorem sign_mul_natAbs (n : ℤ) :
    (if decide (n < 0) then -1 else 1 : ℚ) * (n.natAbs : ℕ) = n := by
  by_cases hneg : n < 0
  · simp [hneg, Nat.cast_natAbs, abs_of_neg hneg]
  · simp [hneg, Nat.cast_natAbs, abs_of_nonneg (not_lt.1 hneg)]

/-- A whole number that is a double is converted exactly. -/
theorem value?_ofInt {n : ℤ} (h : x.value? = some (n : ℚ)) : (ofInt n).value? = some (n : ℚ) := by
  obtain ⟨u, hu, hvalue⟩ := isCount_of_value? h
  have hfraction : n.natAbs * twoTo 1074 = 1 * u := by
    rw [one_mul]
    rw [← Int.cast_abs, Int.abs_eq_natAbs] at hvalue
    exact_mod_cast hvalue.symm
  obtain ⟨m, q, hcanonical, hnearest, rfl⟩ :=
    nearest_of_isCount Nat.one_pos hu hfraction (decide (n < 0))
  have hunit : ((twoTo 1074 : ℕ) : ℚ) ≠ 0 := Nat.cast_ne_zero.2 (twoTo_pos 1074).ne'
  rw [ofInt, hnearest, value?_finite, Option.some.injEq, div_eq_iff hunit, ← one_mul (m * twoTo q),
    ← hfraction, Nat.cast_mul, ← mul_assoc, sign_mul_natAbs]

/-- A whole number of at most 53 bits is converted exactly. -/
theorem value?_ofInt_of_lt {n : ℤ} (h : n.natAbs < twoTo 53) :
    (ofInt n).value? = some (n : ℚ) := by
  obtain ⟨m, q, hcanonical, hcount⟩ := isCount_of_bits h (by norm_num : 1074 ≤ 2045)
  have hunit : ((twoTo 1074 : ℕ) : ℚ) ≠ 0 := Nat.cast_ne_zero.2 (twoTo_pos 1074).ne'
  refine value?_ofInt (x := .finite (decide (n < 0)) m q hcanonical) ?_
  rw [value?_finite, ← hcount, Nat.cast_mul, ← mul_assoc, sign_mul_natAbs, mul_div_cancel_right₀ _ hunit]

end Binary64

end GridQuery
