import GridQuery.Proofs.Doubles
import GridQuery.Proofs.Order

/-!
# From decimals to doubles

`Decimal.toFloat` rounds six times: the whole part, the places, the power of ten, their quotient,
the sum of both parts, and the sum brought to the scale of the decimal. When the number of the
decimal and its mantissa are both doubles no step rounds, because all the numbers on the way are
made of the same few bits (`Decimal.Factors`). A decimal without places only goes through the
first step. So a decimal that is a double is converted exactly in these two cases
(`Decimal.value?_toFloat`).
-/

namespace GridQuery

theorem tenTo_eq (k : ℕ) : tenTo k = 5 ^ k * twoTo k := by
  induction k with
  | zero => rfl
  | succ k ih => rw [tenTo_succ, ih, twoTo_succ]; ring

namespace Decimal

open Binary64

variable {d : Decimal} {u : ℕ}

/-! ## From decimals to doubles -/

/-- How a decimal that counts `u` units comes apart: the mantissa is `common * count`, the power
of ten is `common * halves`, and a unit is cut into `halves` pieces of `piece`. Everything that
the conversion to a double computes is put together from these, and is the count of a
double. -/
structure Factors (d : Decimal) (u : ℕ) where
  common : ℕ
  count : ℕ
  halves : ℕ
  piece : ℕ
  mantissa_eq : d.mantissa = common * count
  ten_eq : tenTo d.scale = common * halves
  unit_eq : twoTo 1074 = halves * piece
  units_eq : u = count * piece
  common_pos : 0 < common
  isCount_scaled : ∀ g ≤ count, IsCount (common * g * twoTo 1074)
  isCount_pieces : ∀ g ≤ count, IsCount (g * piece)
  isCount_whole : ∀ g ≤ count, IsCount (g * twoTo 1074)
  isCount_ten : IsCount (tenTo d.scale * twoTo 1074)

/-- A whole number that is a double has at most 53 bits in front of its zeros. -/
theorem exists_bits_of_isCount {n : ℕ} (h : IsCount (n * twoTo 1074)) :
    ∃ b e, b < twoTo 53 ∧ n = b * twoTo e := by
  obtain ⟨m, q, ⟨hm, -, -⟩, hunits⟩ := h
  rcases Nat.le_total 1074 q with hq | hq
  · refine ⟨m, q - 1074, hm, Nat.eq_of_mul_eq_mul_right (twoTo_pos 1074) ?_⟩
    rw [hunits, Nat.mul_assoc, ← twoTo_add, Nat.sub_add_cancel hq]
  · refine ⟨n, 0, ?_, (Nat.mul_one n).symm⟩
    have hle : n * twoTo q ≤ m * twoTo q := by
      rw [← hunits, ← Nat.add_sub_cancel' hq, twoTo_add, ← Nat.mul_assoc]
      exact Nat.le_mul_of_pos_right _ (twoTo_pos _)
    exact (Nat.le_of_mul_le_mul_right hle (twoTo_pos q)).trans_lt hm

/-- When the mantissa of a decimal with places is a double, and the decimal is one too, the
mantissa holds the fives of the power of ten, and what is left are halves. -/
theorem exists_halves {n s : ℕ} (hcount : n * twoTo 1074 = tenTo s * u)
    (hmantissa : IsCount (n * twoTo 1074)) (hplaces : n % tenTo s ≠ 0) :
    ∃ c e, e ≤ s ∧ n = 5 ^ s * twoTo e * c ∧ 0 < c ∧ 5 ^ s * c < twoTo 53 := by
  obtain ⟨b, e, hb, rfl⟩ := exists_bits_of_isCount hmantissa
  have hfives : 5 ^ s ∣ b := by
    have hdvd : 5 ^ s ∣ b * twoTo (e + 1074) := by
      refine ⟨twoTo s * u, ?_⟩
      rw [twoTo_add, ← Nat.mul_assoc, hcount, tenTo_eq, Nat.mul_assoc]
    have hcoprime : Nat.Coprime (5 ^ s) (twoTo (e + 1074)) :=
      Nat.Coprime.pow s (e + 1074) (by decide)
    exact hcoprime.dvd_of_dvd_mul_right hdvd
  obtain ⟨c, rfl⟩ := hfives
  refine ⟨c, e, ?_, by ring, ?_, hb⟩
  · by_contra hlarge
    refine hplaces ?_
    rw [← Nat.add_sub_cancel' (Nat.le_of_not_le hlarge), twoTo_add, tenTo_eq]
    exact Nat.mod_eq_zero_of_dvd ⟨c * twoTo (e - s), by ring⟩
  · refine Nat.pos_of_ne_zero ?_
    rintro rfl
    exact hplaces (by rw [Nat.mul_zero, Nat.zero_mul, Nat.zero_mod])

theorem exists_factors (hcount : d.mantissa * twoTo 1074 = tenTo d.scale * u)
    (hmantissa : IsCount (d.mantissa * twoTo 1074)) (hplaces : d.mantissa % tenTo d.scale ≠ 0) :
    Nonempty (Factors d u) := by
  obtain ⟨c, e, he, hM, hc, hbits⟩ := exists_halves hcount hmantissa hplaces
  have hscale := d.scale_le
  have hfives : 1 ≤ 5 ^ d.scale := Nat.one_le_pow _ _ (by decide)
  have hten : tenTo d.scale = 5 ^ d.scale * twoTo e * twoTo (d.scale - e) := by
    rw [tenTo_eq, Nat.mul_assoc, ← twoTo_add, Nat.add_sub_of_le he]
  have hunit : twoTo 1074 = twoTo (d.scale - e) * twoTo (1074 - (d.scale - e)) := by
    rw [← twoTo_add, Nat.add_sub_of_le (by omega : d.scale - e ≤ 1074)]
  have hplain : ∀ g ≤ c, ∀ k ≤ 2045, IsCount (g * twoTo k) := fun g hg k hk =>
    isCount_of_bits ((hg.trans (Nat.le_mul_of_pos_left c hfives)).trans_lt hbits) hk
  refine ⟨{ common := 5 ^ d.scale * twoTo e, count := c, halves := twoTo (d.scale - e),
            piece := twoTo (1074 - (d.scale - e)), mantissa_eq := hM, ten_eq := hten,
            unit_eq := hunit, units_eq := ?_, common_pos := ?_, isCount_scaled := ?_,
            isCount_pieces := fun g hg => hplain g hg _ (by omega),
            isCount_whole := fun g hg => hplain g hg _ (by omega), isCount_ten := ?_ }⟩
  · refine Nat.eq_of_mul_eq_mul_left (tenTo_pos d.scale) ?_
    rw [← hcount, hM, hunit, hten]
    ring
  · exact Nat.mul_pos hfives (twoTo_pos e)
  · intro g hg
    have hshape : 5 ^ d.scale * twoTo e * g * twoTo 1074 = 5 ^ d.scale * g * twoTo (e + 1074) := by
      rw [twoTo_add]
      ring
    rw [hshape]
    exact isCount_of_bits ((Nat.mul_le_mul_left _ hg).trans_lt hbits) (by omega)
  · have hshape : tenTo d.scale * twoTo 1074 = 5 ^ d.scale * twoTo (d.scale + 1074) := by
      rw [tenTo_eq, twoTo_add]
      ring
    rw [hshape]
    exact isCount_of_bits ((Nat.le_mul_of_pos_right _ hc).trans_lt hbits) (by omega)

theorem roundHalfUp_mul {k n : ℕ} (hn : 0 < n) : roundHalfUp (k * n) n = k := by
  have hshape : 2 * (k * n) + n = n + k * (2 * n) := by ring
  rw [roundHalfUp, hshape, Nat.add_mul_div_right _ _ (by omega), Nat.div_eq_of_lt (by omega),
    Nat.zero_add]

/-- A whole number that is a double is rounded to itself. -/
theorem units_nearest_one {n : ℕ} (h : IsCount (n * twoTo 1074)) :
    (nearest false n 1).units.natAbs = n * twoTo 1074 :=
  units_nearest_of_isCount Nat.one_pos h (Nat.one_mul _).symm

/-- **No step rounds** when a decimal with places and its mantissa both are doubles. -/
theorem toFloat_of_factors (f : Factors d u) (hplaces : d.mantissa % tenTo d.scale ≠ 0) :
    ∃ m q h, d.toFloat =
      .finite (d.negative && (m != 0 || d.scale != 0)) m q h ∧ m * twoTo q = u := by
  obtain ⟨a, c, t, v, hmantissa, hten, hunit, hu, hapos, hscaled, hpieces, hwhole, htens⟩ := f
  have hupos : 0 < twoTo 1074 := twoTo_pos 1074
  have htenpos : 0 < tenTo d.scale := tenTo_pos d.scale
  have hquotient : d.mantissa / tenTo d.scale = c / t := by
    rw [hmantissa, hten, Nat.mul_div_mul_left _ _ hapos]
  have hrest : d.mantissa % tenTo d.scale = a * (c % t) := by
    rw [hmantissa, hten, Nat.mul_mod_mul_left]
  have hsome : ¬ (d.scale = 0 ∨ a * (c % t) = 0) := by
    rintro (hzero | hzero)
    · exact hplaces (by rw [hzero]; exact Nat.mod_one _)
    · exact hplaces (hrest.trans hzero)
  have hfraction : (nearest false (a * (c % t) * twoTo 1074)
      (tenTo d.scale * twoTo 1074)).units.natAbs = c % t * v := by
    refine units_nearest_of_isCount (Nat.mul_pos htenpos hupos) (hpieces _ (Nat.mod_le c t)) ?_
    rw [hten, hunit]
    ring
  have hsum : (nearest false (c / t * twoTo 1074 + c % t * v) (twoTo 1074)).units.natAbs = u := by
    refine units_nearest_of_isCount hupos (hu ▸ hpieces c le_rfl) ?_
    have htotal : c / t * twoTo 1074 + c % t * v = u := by
      calc c / t * twoTo 1074 + c % t * v = (t * (c / t) + c % t) * v := by rw [hunit]; ring
        _ = u := by rw [Nat.div_add_mod, hu]
    rw [htotal, Nat.mul_comm]
  have hshifted : (nearest false (u * (tenTo d.scale * twoTo 1074)) (twoTo 2148)).units.natAbs =
      a * c * twoTo 1074 := by
    refine units_nearest_of_isCount (twoTo_pos _) (hscaled c le_rfl) ?_
    have hsquare : twoTo 2148 = twoTo 1074 * twoTo 1074 := twoTo_add 1074 1074
    rw [hsquare, hu, hten, hunit]
    ring
  have hresult : a * c * twoTo 1074 * twoTo 1074 = tenTo d.scale * twoTo 1074 * u := by
    rw [hu, hten, hunit]
    ring
  obtain ⟨m, q, h, hlast, hmagnitude⟩ := nearest_of_isCount (Nat.mul_pos htenpos hupos)
    (hu ▸ hpieces c le_rfl) hresult false
  refine ⟨m, q, h, ?_, hmagnitude⟩
  unfold toFloat
  simp only [hquotient, hrest, if_neg hsome, units_nearest_one (hwhole _ (Nat.div_le_self c t)),
    units_nearest_one (hscaled _ (Nat.mod_le c t)), units_nearest_one htens, hfraction, hsum,
    hshifted, roundHalfUp_mul hupos, units_nearest_one (hscaled c le_rfl), hlast]

theorem value_eq_sign_mul (d : Decimal) :
    d.value = (if d.negative then -1 else 1 : ℚ) * (d.mantissa / 10 ^ d.scale) := by
  rw [value, signedMantissa]
  cases d.negative <;> simp [neg_div]

theorem abs_value (d : Decimal) : |d.value| = d.mantissa / 10 ^ d.scale := by
  rw [value_eq_sign_mul, abs_mul, abs_of_nonneg (by positivity : (0 : ℚ) ≤ d.mantissa / _)]
  cases d.negative <;> simp

theorem whole?_eq_none_iff : d.whole? = none ↔ d.mantissa % tenTo d.scale ≠ 0 := by
  unfold whole?
  split <;> simp_all

/-- A decimal that is a double counts units. -/
theorem isCount_of_value? {x : Binary64} (h : x.value? = some d.value) :
    ∃ u, IsCount u ∧ d.mantissa * twoTo 1074 = tenTo d.scale * u := by
  obtain ⟨u, hu, hvalue⟩ := Binary64.isCount_of_value? h
  have hten : ((tenTo d.scale : ℕ) : ℚ) ≠ 0 := Nat.cast_ne_zero.2 (tenTo_pos d.scale).ne'
  refine ⟨u, hu, ?_⟩
  rw [abs_value, ← cast_tenTo, div_mul_eq_mul_div, eq_div_iff hten] at hvalue
  rw [Nat.mul_comm (tenTo d.scale)]
  exact_mod_cast hvalue.symm

/-- The double with the units of a decimal and its sign stands for the number of the decimal;
the sign of a zero does not matter. -/
theorem value?_of_units {m q : ℕ} (h : Canonical m q)
    (hcount : d.mantissa * twoTo 1074 = tenTo d.scale * (m * twoTo q)) :
    (Binary64.finite (d.negative && (m != 0 || d.scale != 0)) m q h).value? = some d.value := by
  have hten : ((tenTo d.scale : ℕ) : ℚ) ≠ 0 := Nat.cast_ne_zero.2 (tenTo_pos d.scale).ne'
  have hunit : ((twoTo 1074 : ℕ) : ℚ) ≠ 0 := Nat.cast_ne_zero.2 (twoTo_pos 1074).ne'
  have hmagnitude : ((m * twoTo q : ℕ) : ℚ) / (twoTo 1074 : ℕ) =
      d.mantissa / (tenTo d.scale : ℕ) := by
    rw [div_eq_div_iff hunit hten]
    exact_mod_cast (Nat.mul_comm _ _).trans hcount.symm
  rw [value?_finite, mul_div_assoc, hmagnitude, value_eq_sign_mul, ← cast_tenTo]
  by_cases hm : m = 0
  · have hzero : d.mantissa = 0 := by
      rw [hm, Nat.zero_mul, Nat.mul_zero] at hcount
      exact (Nat.mul_eq_zero.1 hcount).resolve_right (twoTo_pos 1074).ne'
    simp [hzero]
  · simp [hm]

/-- **From decimals to doubles.** A decimal that is a double is converted exactly when it is
whole, or when its mantissa is a double too. -/
theorem value?_toFloat {x : Binary64} (hx : x.value? = some d.value)
    (hmantissa : d.whole? = none → ∃ y : Binary64, y.value? = some (d.mantissa : ℚ)) :
    d.toFloat.value? = some d.value := by
  obtain ⟨u, hu, hcount⟩ := isCount_of_value? hx
  by_cases hplaces : d.mantissa % tenTo d.scale = 0
  · -- The whole part is the number itself.
    have hunits : d.mantissa / tenTo d.scale * twoTo 1074 = 1 * u := by
      refine Nat.eq_of_mul_eq_mul_left (tenTo_pos d.scale) ?_
      rw [← Nat.mul_assoc, Nat.mul_div_cancel' (Nat.dvd_of_mod_eq_zero hplaces), hcount,
        Nat.one_mul]
    obtain ⟨m, q, h, hnearest, rfl⟩ := nearest_of_isCount Nat.one_pos hu hunits false
    have hfloat : d.toFloat = .finite (d.negative && (m != 0 || d.scale != 0)) m q h := by
      unfold toFloat
      simp only [hplaces, or_true, if_true, hnearest]
    rw [hfloat, value?_of_units h hcount]
  · obtain ⟨y, hy⟩ := hmantissa (whole?_eq_none_iff.2 hplaces)
    obtain ⟨n, hn, hvalue⟩ := Binary64.isCount_of_value? hy
    rw [Nat.abs_cast] at hvalue
    have hscaled : IsCount (d.mantissa * twoTo 1074) := by
      have heq : n = d.mantissa * twoTo 1074 := by exact_mod_cast hvalue
      rwa [heq] at hn
    obtain ⟨f⟩ := exists_factors hcount hscaled hplaces
    obtain ⟨m, q, h, hfloat, rfl⟩ := toFloat_of_factors f hplaces
    rw [hfloat, value?_of_units h hcount]

end Decimal

end GridQuery
