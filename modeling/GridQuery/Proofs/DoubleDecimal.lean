import GridQuery.Proofs.DecimalDouble

/-!
# From doubles to decimals

A double with binary places is brought to a decimal by trading halves for fifths
(`Decimal.tradeHalves`), by giving up places (`Decimal.dropPlaces`, `Decimal.trimBits`) until no
more than 52 bits are left, and by removing trailing zeros (`Decimal.trimZeros`). When the number
has fewer than 52 bits as a decimal the trade never outgrows its mantissa
(`Decimal.tradeHalves_exact`), so nothing has to be given up; and what comes out of the
conversion always has fewer than 52 bits, or no places. This decides which doubles are converted
exactly (`Decimal.ofFloat?_exact_iff`).
-/

namespace GridQuery.Decimal

open Binary64

/-! ## Trading halves for fifths -/

/-- An odd mantissa needs all its places: no other mantissa of the same number is smaller. -/
theorem le_of_odd {a n j k : ℕ} (ha : a % 2 = 1) (h : a * 10 ^ j = n * 10 ^ k) : a ≤ n := by
  have hpos : ∀ i : ℕ, 0 < 10 ^ i := fun i => Nat.pow_pos (by decide)
  rcases Nat.lt_or_ge j k with hlt | hge
  · obtain ⟨i, rfl⟩ := Nat.exists_eq_add_of_lt hlt
    have heven : a = n * (10 ^ i * 5) * 2 := by
      refine Nat.eq_of_mul_eq_mul_right (hpos j) ?_
      rw [h, pow_add, pow_add]
      ring
    omega
  · obtain ⟨i, rfl⟩ := Nat.exists_eq_add_of_le hge
    have hn : a * 10 ^ i = n := by
      refine Nat.eq_of_mul_eq_mul_right (hpos k) ?_
      rw [← h, Nat.mul_assoc, ← pow_add, Nat.add_comm i]
    exact hn ▸ Nat.le_mul_of_pos_right a (hpos i)

/-- An even mantissa is halved. -/
theorem tradeHalves_even (b t k : ℕ) :
    tradeHalves ⟨2 * b, -((t + 1 : ℕ) : ℤ)⟩ (k + 1) = tradeHalves ⟨b, -(t : ℤ)⟩ k := by
  have htens : -((t + 1 : ℕ) : ℤ) + 1 = -(t : ℤ) := by push_cast; ring
  rw [tradeHalves]
  simp only [Nat.mul_mod_right, if_true, htens, Nat.mul_div_cancel_left b (by decide : 0 < 2)]

/-- An odd mantissa takes a half as a fifth while there is room. -/
theorem tradeHalves_odd {a k : ℕ} {t : ℤ} (hodd : a % 2 = 1) (hroom : a * 5 < limit) :
    tradeHalves ⟨a, t⟩ (k + 1) = tradeHalves ⟨a * 5, t⟩ k := by
  have hne : ¬ a % 2 = 0 := by omega
  rw [tradeHalves]
  simp only [hne, if_false, hroom, if_true]

/-- There is room for a fifth when the number has few bits. -/
theorem mul_five_lt_limit {a n i j k : ℕ} (hodd : a % 2 = 1) (hn : n < twoTo 52)
    (hvalue : a * 5 ^ (k + 1) * 10 ^ j = n * 10 ^ i) : a * 5 < limit := by
  have hfives : a * 5 ^ (k + 1) % 2 = 1 := by
    rw [Nat.mul_mod, Nat.pow_mod, hodd]
    simp
  have hlimit : twoTo 52 < limit := by decide
  calc a * 5 ≤ a * 5 ^ (k + 1) := Nat.mul_le_mul_left a (Nat.le_self_pow (Nat.succ_ne_zero k) 5)
    _ ≤ n := le_of_odd hfives hvalue
    _ < limit := hn.trans hlimit

/-- A number with fewer than 52 bits and some places, as it passes through the trade: its
mantissa stays small, because what is traded in is never more than the number needs. -/
theorem tradeHalves_exact {n j : ℕ} (hn : n < twoTo 52) {k f a : ℕ}
    (hvalue : a * 5 ^ k * 10 ^ j = n * 10 ^ (k + f)) (hfives : 0 < f → a % 2 = 1 ∧ 5 ^ f ∣ a) :
    ∃ b g : ℕ, tradeHalves ⟨a, -((k + f : ℕ) : ℤ)⟩ k = ⟨b, -(g : ℤ)⟩ ∧ b * 10 ^ j = n * 10 ^ g ∧
      (0 < g → b % 2 = 1 ∧ 5 ^ g ∣ b) := by
  induction k generalizing f a with
  | zero => exact ⟨a, f, by simp [tradeHalves], by simpa using hvalue, hfives⟩
  | succ k ih =>
    by_cases heven : a % 2 = 0
    · -- Nothing has been traded yet.
      obtain rfl : f = 0 := by
        by_contra hf
        have hodd := (hfives (Nat.pos_of_ne_zero hf)).1
        omega
      obtain ⟨b, rfl⟩ := Nat.dvd_of_mod_eq_zero heven
      have hhalf : b * 5 ^ k * 10 ^ j = n * 10 ^ (k + 0) := by
        refine Nat.eq_of_mul_eq_mul_left (by decide : 0 < 10) ?_
        calc 10 * (b * 5 ^ k * 10 ^ j) = 2 * b * 5 ^ (k + 1) * 10 ^ j := by ring
          _ = n * 10 ^ (k + 1 + 0) := hvalue
          _ = 10 * (n * 10 ^ (k + 0)) := by ring
      rw [Nat.add_zero, tradeHalves_even]
      exact ih hhalf nofun
    · have hodd : a % 2 = 1 := by omega
      have hnext : a * 5 * 5 ^ k * 10 ^ j = n * 10 ^ (k + (f + 1)) := by
        rw [Nat.add_comm f, ← Nat.add_assoc, ← hvalue]
        ring
      have hfives' : 0 < f + 1 → a * 5 % 2 = 1 ∧ 5 ^ (f + 1) ∣ a * 5 := by
        intro _
        refine ⟨by omega, ?_⟩
        rw [pow_succ]
        refine Nat.mul_dvd_mul_right ?_ 5
        by_cases hf : 0 < f
        · exact (hfives hf).2
        · simp [Nat.eq_zero_of_not_pos hf]
      rw [tradeHalves_odd hodd (mul_five_lt_limit hodd hn hvalue), Nat.add_assoc, Nat.add_comm 1]
      exact ih hnext hfives'

/-- The end of the trade: a small mantissa, and no more places than a decimal has. -/
theorem tradeHalves_of_small {n j a k : ℕ} (hn : n < twoTo 52)
    (hvalue : a * 10 ^ j = n * 2 ^ k) :
    ∃ b g : ℕ, tradeHalves ⟨a, -(k : ℤ)⟩ k = ⟨b, -(g : ℤ)⟩ ∧ b * 10 ^ j = n * 10 ^ g ∧
      b < twoTo 52 ∧ g ≤ 28 := by
  have hfifths : a * 5 ^ k * 10 ^ j = n * 10 ^ (k + 0) := by
    calc a * 5 ^ k * 10 ^ j = a * 10 ^ j * 5 ^ k := by ring
      _ = n * 10 ^ (k + 0) := by rw [hvalue, Nat.mul_assoc, ← Nat.mul_pow, Nat.add_zero]
  obtain ⟨b, g, htrade, hb, hodd⟩ := tradeHalves_exact hn hfifths nofun
  refine ⟨b, g, htrade, hb, ?_⟩
  rcases Nat.eq_zero_or_pos g with rfl | hg
  · have hle : b ≤ n := by
      rw [pow_zero, Nat.mul_one] at hb
      exact hb ▸ Nat.le_mul_of_pos_right b (Nat.pow_pos (by decide))
    exact ⟨hle.trans_lt hn, Nat.zero_le _⟩
  · obtain ⟨hb', hdvd⟩ := hodd hg
    have hsmall : b < twoTo 52 := (le_of_odd hb' hb).trans_lt hn
    refine ⟨hsmall, ?_⟩
    by_contra hlarge
    have hpower : 5 ^ 29 ≤ 5 ^ g := Nat.pow_le_pow_right (by decide) (by omega)
    have hle : 5 ^ g ≤ b := Nat.le_of_dvd (by omega) hdvd
    have hfives : twoTo 52 < 5 ^ 29 := by decide
    omega

/-- Trading keeps the mantissa within 96 bits and leaves no power of ten above the point. -/
theorem tradeHalves_bounds {a t k : ℕ} (ha : a < limit) (hk : k ≤ t) :
    ∃ b g : ℕ, tradeHalves ⟨a, -(t : ℤ)⟩ k = ⟨b, -(g : ℤ)⟩ ∧ b < limit := by
  induction k generalizing a t with
  | zero => exact ⟨a, t, rfl, ha⟩
  | succ k ih =>
    obtain ⟨t, rfl⟩ := Nat.exists_eq_add_of_le' (Nat.one_le_of_lt hk)
    have htens : -((t + 1 : ℕ) : ℤ) + 1 = -(t : ℤ) := by push_cast; ring
    have hhalf : a / 2 < limit := (Nat.div_le_self a 2).trans_lt ha
    rw [tradeHalves]
    simp only [htens]
    split_ifs with heven hroom
    · exact ih hhalf (Nat.le_of_succ_le_succ hk)
    · exact ih hroom (Nat.le_of_succ_le hk)
    · exact ih hhalf (Nat.le_of_succ_le_succ hk)

/-! ## Giving up places -/

theorem dropPlaces_bounds {a g k : ℕ} (ha : a < limit) (hk : k ≤ g) :
    ∃ b i : ℕ, dropPlaces ⟨a, -(g : ℤ)⟩ k = ⟨b, -(i : ℤ)⟩ ∧ b < limit ∧ i + k ≤ g := by
  induction k generalizing a g with
  | zero => exact ⟨a, g, rfl, ha, le_rfl⟩
  | succ k ih =>
    obtain ⟨g, rfl⟩ := Nat.exists_eq_add_of_le' (Nat.one_le_of_lt hk)
    have htens : -((g + 1 : ℕ) : ℤ) + 1 = -(g : ℤ) := by push_cast; ring
    rw [dropPlaces]
    simp only [htens]
    by_cases hzero : a / 10 = 0
    · exact ⟨0, 0, by simp [hzero], by decide, by omega⟩
    · have hnext : (if 5 ≤ a % 10 then a / 10 + 1 else a / 10) < limit := by split_ifs <;> omega
      obtain ⟨b, i, hdrop, hb, hi⟩ := ih hnext (Nat.le_of_succ_le_succ hk)
      exact ⟨b, i, by rw [if_neg hzero, hdrop], hb, by omega⟩

/-- The digits that a double carries: at most 52 bits, unless no places are left. -/
theorem trimBits_bounds {a k : ℕ} (ha : a < limit) :
    (trimBits a k).1 < limit ∧ (trimBits a k).2 ≤ k ∧
      ((trimBits a k).2 = 0 ∨ (trimBits a k).1 < twoTo 52) := by
  induction k generalizing a with
  | zero => exact ⟨ha, le_rfl, .inl rfl⟩
  | succ k ih =>
    rw [trimBits]
    by_cases hlarge : twoTo 52 ≤ a
    · have hnext : (if 5 ≤ a % 10 then a / 10 + 1 else a / 10) < limit := by split_ifs <;> omega
      obtain ⟨hbits, hplaces, hsmall⟩ := ih hnext
      rw [if_pos hlarge]
      exact ⟨hbits, Nat.le_succ_of_le hplaces, hsmall⟩
    · rw [if_neg hlarge]
      exact ⟨ha, le_rfl, .inr (Nat.lt_of_not_le hlarge)⟩

theorem trimBits_of_small {a : ℕ} (ha : a < twoTo 52) (k : ℕ) : trimBits a k = (a, k) := by
  cases k with
  | zero => rfl
  | succ k => rw [trimBits, if_neg (Nat.not_le.2 ha)]

/-- Trailing zeros are removed without changing the number. -/
theorem trimZeros_exact (a k : ℕ) :
    (trimZeros a k).1 * 10 ^ k = a * 10 ^ (trimZeros a k).2 ∧ (trimZeros a k).1 ≤ a ∧
      (trimZeros a k).2 ≤ k := by
  induction k generalizing a with
  | zero => exact ⟨rfl, le_rfl, le_rfl⟩
  | succ k ih =>
    rw [trimZeros]
    split_ifs with hzero
    · obtain ⟨hvalue, hle, hplaces⟩ := ih (a / 10)
      refine ⟨?_, hle.trans (Nat.div_le_self a 10), Nat.le_succ_of_le hplaces⟩
      calc (trimZeros (a / 10) k).1 * 10 ^ (k + 1)
          = (trimZeros (a / 10) k).1 * 10 ^ k * 10 := by ring
        _ = 10 * (a / 10) * 10 ^ (trimZeros (a / 10) k).2 := by rw [hvalue]; ring
        _ = a * 10 ^ (trimZeros (a / 10) k).2 := by
          rw [Nat.mul_div_cancel' (Nat.dvd_of_mod_eq_zero hzero)]
    · exact ⟨rfl, le_rfl, le_rfl⟩

/-! ## From doubles to decimals -/

variable {negative : Bool} {m q : ℕ} {h : Canonical m q}

theorem ofParts?_eq_some {a k : ℕ} (ha : a < limit) (hk : k ≤ 28) :
    ofParts? negative a k = some ⟨negative, a, k, ha, hk⟩ := dif_pos ⟨ha, hk⟩

/-- What remains to be done when the mantissa and the places fit. -/
def trimmed (negative : Bool) (a k : ℕ) : Option Decimal :=
  ofParts? negative (trimZeros (trimBits a k).1 (trimBits a k).2).1
    (trimZeros (trimBits a k).1 (trimBits a k).2).2

theorem exists_trimmed {a k : ℕ} (ha : a < limit) (hk : k ≤ 28) :
    ∃ d, trimmed negative a k = some d ∧ (d.scale = 0 ∨ d.mantissa < twoTo 52) := by
  obtain ⟨hbits, hplaces, hsmall⟩ := trimBits_bounds (k := k) ha
  obtain ⟨-, hle, hzeros⟩ := trimZeros_exact (trimBits a k).1 (trimBits a k).2
  refine ⟨_, ofParts?_eq_some (hle.trans_lt hbits) (hzeros.trans (hplaces.trans hk)), ?_⟩
  exact hsmall.imp (fun hzero => Nat.le_zero.1 (hzeros.trans hzero.le)) hle.trans_lt

theorem trimmed_of_small (negative : Bool) {a k : ℕ} (ha : a < twoTo 52) (hk : k ≤ 28) :
    ∃ d, trimmed negative a k = some d ∧ d.negative = negative ∧
      d.mantissa * 10 ^ k = a * 10 ^ d.scale := by
  obtain ⟨hvalue, hle, hzeros⟩ := trimZeros_exact a k
  have hlimit : twoTo 52 < limit := by decide
  unfold trimmed
  rw [trimBits_of_small ha]
  exact ⟨_, ofParts?_eq_some ((hle.trans_lt ha).trans hlimit) (hzeros.trans hk), rfl, hvalue⟩

theorem ofFloat?_of_fits (hm : m ≠ 0) (hq : q < 1074) {a k : ℕ}
    (htrade : tradeHalves ⟨m, -((1074 - q : ℕ) : ℤ)⟩ (1074 - q) = ⟨a, -(k : ℤ)⟩) (hk : k ≤ 28) :
    ofFloat? (.finite negative m q h) = trimmed negative a k := by
  have hstart : (q : ℤ) - 1074 = -((1074 - q : ℕ) : ℤ) := by omega
  have hfits : ¬ (-(k : ℤ) < -28) := by omega
  simp only [ofFloat?, if_neg hm, if_neg (Nat.not_le.2 hq), hstart, htrade, if_neg hfits,
    Int.natAbs_neg, Int.natAbs_natCast]
  rfl

theorem ofFloat?_of_drop (hm : m ≠ 0) (hq : q < 1074) {a k b i : ℕ}
    (htrade : tradeHalves ⟨m, -((1074 - q : ℕ) : ℤ)⟩ (1074 - q) = ⟨a, -(k : ℤ)⟩) (hk : 28 < k)
    (hdrop : dropPlaces ⟨a, -(k : ℤ)⟩ (k - 28) = ⟨b, -(i : ℤ)⟩) :
    ofFloat? (.finite negative m q h) = trimmed negative b i := by
  have hstart : (q : ℤ) - 1074 = -((1074 - q : ℕ) : ℤ) := by omega
  have hfits : -(k : ℤ) < -28 := by omega
  have hsteps : (-28 - -(k : ℤ)).natAbs = k - 28 := by omega
  simp only [ofFloat?, if_neg hm, if_neg (Nat.not_le.2 hq), hstart, htrade, if_pos hfits, hsteps,
    hdrop, Int.natAbs_neg, Int.natAbs_natCast]
  rfl

/-- A double with binary places always has a decimal, and one that is whole or has fewer than
52 bits. -/
theorem exists_ofFloat? (negative : Bool) (h : Canonical m q) (hq : q < 1074) :
    ∃ d, ofFloat? (.finite negative m q h) = some d ∧ (d.scale = 0 ∨ d.mantissa < twoTo 52) := by
  by_cases hm : m = 0
  · exact ⟨_, (if_pos hm).trans (ofParts?_eq_some (by decide) (by decide)), .inl rfl⟩
  · have hlimit : m < limit := h.1.trans (by decide)
    obtain ⟨a, k, htrade, ha⟩ := tradeHalves_bounds hlimit (le_refl (1074 - q))
    rcases le_or_gt k 28 with hk | hk
    · rw [ofFloat?_of_fits hm hq htrade hk]
      exact exists_trimmed ha hk
    · obtain ⟨b, i, hdrop, hb, hi⟩ := dropPlaces_bounds ha (Nat.sub_le k 28)
      rw [ofFloat?_of_drop hm hq htrade hk hdrop]
      exact exists_trimmed hb (by omega)

/-- A double with binary places that has fewer than 52 bits as a decimal is converted
exactly. -/
theorem ofFloat?_of_small (negative : Bool) (h : Canonical m q) (hq : q < 1074) {n j : ℕ}
    (hn : n < twoTo 52) (hvalue : m * 10 ^ j = n * 2 ^ (1074 - q)) :
    ∃ d, ofFloat? (.finite negative m q h) = some d ∧ d.negative = negative ∧
      d.mantissa * 10 ^ j = n * 10 ^ d.scale := by
  have hten : ∀ i : ℕ, 0 < 10 ^ i := fun i => Nat.pow_pos (by decide)
  by_cases hm : m = 0
  · refine ⟨_, (if_pos hm).trans (ofParts?_eq_some (by decide) (by decide)), rfl, ?_⟩
    rw [hm, Nat.zero_mul] at hvalue
    have hzero : n = 0 := (Nat.mul_eq_zero.1 hvalue.symm).resolve_right (by positivity)
    simp [hzero]
  · obtain ⟨a, k, htrade, ha, hsmall, hk⟩ := tradeHalves_of_small hn hvalue
    obtain ⟨d, hd, hsign, hmantissa⟩ := trimmed_of_small negative hsmall hk
    refine ⟨d, (ofFloat?_of_fits hm hq htrade hk).trans hd, hsign, ?_⟩
    refine Nat.eq_of_mul_eq_mul_right (hten k) ?_
    calc d.mantissa * 10 ^ j * 10 ^ k = a * 10 ^ j * 10 ^ d.scale := by
          rw [Nat.mul_right_comm, hmantissa]; ring
      _ = n * 10 ^ d.scale * 10 ^ k := by rw [ha]; ring

/-! ## The numbers they stand for -/

theorem isWhole_of_scale {d : Decimal} (hd : d.scale = 0) : ∃ n : ℤ, d.value = n :=
  ⟨d.signedMantissa, by rw [value, hd, pow_zero, div_one]⟩

theorem abs_value_lt (d : Decimal) : |d.value| < limit := by
  have hmantissa : (d.mantissa : ℚ) < limit := Nat.cast_lt.2 d.mantissa_lt
  have hplaces : (1 : ℚ) ≤ 10 ^ d.scale := one_le_pow₀ (by norm_num)
  rw [abs_value]
  exact (div_le_self (Nat.cast_nonneg _) hplaces).trans_lt hmantissa

/-- The magnitude of a double with binary places, as a fraction. -/
theorem magnitude_of_lt (hq : q < 1074) :
    ((m * twoTo q : ℕ) : ℚ) / (twoTo 1074 : ℕ) = m / 2 ^ (1074 - q) := by
  have hunit : twoTo 1074 = twoTo q * twoTo (1074 - q) := by
    rw [← twoTo_add, Nat.add_sub_of_le hq.le]
  have hpos : ((twoTo q : ℕ) : ℚ) ≠ 0 := Nat.cast_ne_zero.2 (twoTo_pos q).ne'
  rw [hunit, Nat.cast_mul, Nat.cast_mul, mul_comm, mul_div_mul_left _ _ hpos, cast_twoTo (1074 - q)]

theorem magnitude_of_ge (hq : 1074 ≤ q) :
    ((m * twoTo q : ℕ) : ℚ) / (twoTo 1074 : ℕ) = (m * twoTo (q - 1074) : ℕ) := by
  have hpos : ((twoTo 1074 : ℕ) : ℚ) ≠ 0 := Nat.cast_ne_zero.2 (twoTo_pos 1074).ne'
  have hcount : m * twoTo q = m * twoTo (q - 1074) * twoTo 1074 := by
    rw [Nat.mul_assoc, ← twoTo_add, Nat.sub_add_cancel hq]
  rw [hcount, Nat.cast_mul _ (twoTo 1074), mul_div_cancel_right₀ _ hpos]

variable {r : ℚ}

/-- The number of a decimal with the sign and the magnitude of a double. -/
theorem value_eq_of_magnitude {d : Decimal} {c : ℚ} (hsign : d.negative = negative)
    (hr : r = (if negative then -1 else 1 : ℚ) * c) (hd : (d.mantissa : ℚ) / 10 ^ d.scale = c) :
    d.value = r := by
  rw [value_eq_sign_mul, hsign, hd, hr]

theorem abs_eq_of_magnitude {c : ℚ} (hc : 0 ≤ c)
    (hr : r = (if negative then -1 else 1 : ℚ) * c) : |r| = c := by
  rw [hr, abs_mul, abs_of_nonneg hc]
  cases negative <;> simp

/-- A double that has fewer than 52 bits as a decimal is converted exactly when it has binary
places. -/
theorem value_ofFloat?_of_small (hq : q < 1074)
    (hx : (Binary64.finite negative m q h).value? = some r) {n j : ℕ} (hn : n < twoTo 52)
    (hr : |r| = n / 10 ^ j) :
    ∃ d, ofFloat? (.finite negative m q h) = some d ∧ d.value = r := by
  have hten : ∀ i : ℕ, (10 : ℚ) ^ i ≠ 0 := fun i => pow_ne_zero i (by norm_num)
  rw [value?_finite, mul_div_assoc, magnitude_of_lt hq, Option.some.injEq] at hx
  have hmagnitude : (m : ℚ) / 2 ^ (1074 - q) = n / 10 ^ j := by
    rw [← hr, abs_eq_of_magnitude (by positivity) hx.symm]
  have hvalue : m * 10 ^ j = n * 2 ^ (1074 - q) := by
    rw [div_eq_div_iff (pow_ne_zero _ (by norm_num)) (hten j)] at hmagnitude
    exact_mod_cast hmagnitude
  obtain ⟨d, hd, hsign, hmantissa⟩ := ofFloat?_of_small negative h hq hn hvalue
  refine ⟨d, hd, value_eq_of_magnitude hsign hx.symm ?_⟩
  rw [hmagnitude, div_eq_div_iff (hten _) (hten j)]
  exact_mod_cast hmantissa

/-- A double without binary places is taken as it is. -/
theorem ofFloat?_of_ge (hq : 1074 ≤ q) :
    ofFloat? (.finite negative m q h) = ofParts? negative (m * twoTo (q - 1074)) 0 := by
  by_cases hm : m = 0
  · rw [ofFloat?, if_pos hm, hm, Nat.zero_mul]
  · rw [ofFloat?, if_neg hm, if_pos hq]

theorem isWhole_of_ge (hq : 1074 ≤ q) (hx : (Binary64.finite negative m q h).value? = some r) :
    ∃ n : ℤ, r = n := by
  rw [value?_finite, mul_div_assoc, magnitude_of_ge hq, Option.some.injEq] at hx
  generalize m * twoTo (q - 1074) = count at hx
  refine ⟨(if negative then -1 else 1) * count, ?_⟩
  rw [← hx]
  cases negative <;> simp

/-- A whole double is converted exactly, and those that are not converted have no decimal. -/
theorem ofFloat?_of_whole {n : ℤ} (hx : (Binary64.finite negative m q h).value? = some (n : ℚ)) :
    (∃ d, ofFloat? (.finite negative m q h) = some d ∧ d.value = n) ∨
      ofFloat? (.finite negative m q h) = none ∧ ∀ d : Decimal, d.value ≠ n := by
  rcases Nat.lt_or_ge q 1074 with hq | hq
  · -- The magnitude is at most half of the mantissa.
    have hmagnitude : (n.natAbs : ℚ) = m / 2 ^ (1074 - q) := by
      have hn := hx
      rw [value?_finite, mul_div_assoc, magnitude_of_lt hq, Option.some.injEq] at hn
      rw [Nat.cast_natAbs, Int.cast_abs, abs_eq_of_magnitude (by positivity) hn.symm]
    have hcount : n.natAbs * 2 ^ (1074 - q) = m := by
      rw [eq_div_iff (pow_ne_zero _ (by norm_num))] at hmagnitude
      exact_mod_cast hmagnitude
    have hbits : n.natAbs < twoTo 52 := by
      have hhalf : n.natAbs * 2 ≤ m :=
        hcount ▸ Nat.mul_le_mul_left _ (Nat.le_self_pow (by omega) 2)
      have hm : m < twoTo 52 * 2 := h.1
      omega
    refine .inl (value_ofFloat?_of_small hq hx (j := 0) hbits ?_)
    rw [Nat.cast_natAbs, Int.cast_abs, pow_zero, div_one]
  · rw [ofFloat?_of_ge hq]
    rw [value?_finite, mul_div_assoc, magnitude_of_ge hq, Option.some.injEq] at hx
    by_cases hlimit : m * twoTo (q - 1074) < limit
    · refine .inl ⟨_, ofParts?_eq_some hlimit (Nat.zero_le _), value_eq_of_magnitude rfl hx.symm ?_⟩
      rw [pow_zero, div_one]
    · refine .inr ⟨dif_neg fun hfits => hlimit hfits.1, fun d hd => hlimit ?_⟩
      have hlt := abs_value_lt d
      rw [hd, abs_eq_of_magnitude (Nat.cast_nonneg _) hx.symm] at hlt
      exact_mod_cast hlt

/-- **From doubles to decimals.** A double is converted exactly, or refused because it has no
decimal, when it is whole or has fewer than 52 bits as a decimal, and in no other case. -/
theorem ofFloat?_exact_iff {x : Binary64} (hx : x.value? = some r) :
    ((∃ d, ofFloat? x = some d ∧ d.value = r) ∨ ofFloat? x = none ∧ ∀ d : Decimal, d.value ≠ r) ↔
      (∃ n : ℤ, r = n) ∨ ∃ d : Decimal, d.mantissa < twoTo 52 ∧ d.value = r := by
  cases x with
  | nan => cases hx
  | infinite negative => cases hx
  | finite negative m q h =>
    constructor
    · intro hexact
      rcases Nat.lt_or_ge q 1074 with hq | hq
      · obtain ⟨d, hd, hbits⟩ := exists_ofFloat? negative h hq
        rcases hexact with ⟨d', hd', rfl⟩ | ⟨hnone, -⟩
        · obtain rfl := Option.some.inj (hd.symm.trans hd')
          exact hbits.imp isWhole_of_scale fun hsmall => ⟨d, hsmall, rfl⟩
        · cases hd.symm.trans hnone
      · exact .inl (isWhole_of_ge hq hx)
    · rintro (⟨n, rfl⟩ | ⟨d, hsmall, rfl⟩)
      · exact ofFloat?_of_whole hx
      · rcases Nat.lt_or_ge q 1074 with hq | hq
        · exact .inl (value_ofFloat?_of_small hq hx hsmall (abs_value d))
        · obtain ⟨n, hn⟩ := isWhole_of_ge hq hx
          rw [hn] at hx ⊢
          exact ofFloat?_of_whole hx

end GridQuery.Decimal
