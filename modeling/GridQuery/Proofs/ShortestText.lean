import GridQuery.Proofs.Doubles
import GridQuery.Proofs.Order
import GridQuery.Proofs.WrittenNumbers

/-!
# The shortest text of a double

The digits that are written for a double stand for a number that rounds to the double
(`Binary64.contains_shortest`): seventeen digits are enough for the grid of decimals to meet the
interval of such numbers. The intervals of different doubles share no number
(`Binary64.eq_of_contains`). So doubles with the same text are the same double, up to the payload
of a NaN (`Binary64.text_injective`).
-/

namespace GridQuery

namespace Binary64

open GridQuery.Text

namespace Neighbourhood

variable {h : Neighbourhood} {tie : Tie} {d : ℕ} {k place : ℤ} {x : ℚ}

/-! ## Intervals -/

/-- Whether a fraction lies in the interval. -/
def Contains (h : Neighbourhood) (x : ℚ) : Prop :=
  if h.closed then h.low ≤ x * h.unit ∧ x * h.unit ≤ h.high
  else h.low < x * h.unit ∧ x * h.unit < h.high

/-- What makes seventeen digits enough: the value lies inside the interval, which is wider than
the part of sixteen zeros of the value. -/
structure Wide (h : Neighbourhood) : Prop where
  unit_pos : 0 < h.unit
  low_lt : h.low < h.value
  lt_high : h.value < h.high
  width : h.low * 10 ^ 16 + h.value < h.high * 10 ^ 16

/-- Measuring in larger units stretches all numbers alike. -/
theorem exists_scale (h : Neighbourhood) (k : ℤ) : ∃ c : ℚ, 0 < c ∧
    ((h.scaled k).low : ℚ) = h.low * c ∧ ((h.scaled k).high : ℚ) = h.high * c ∧
      ((h.scaled k).value : ℚ) = h.value * c ∧ ((h.scaled k).unit : ℚ) = h.unit * 10 ^ k * c ∧
      (h.scaled k).closed = h.closed := by
  unfold scaled
  by_cases hk : k < 0
  · have hpow : (10 : ℚ) ^ k * (10 ^ k.natAbs : ℚ) = 1 := by
      rw [← zpow_natCast, ← zpow_add₀ (by norm_num)]
      simp [abs_of_neg hk]
    refine ⟨10 ^ k.natAbs, by positivity, ?_⟩
    simp only [hk, if_true, Nat.cast_mul, cast_tenTo, mul_assoc, hpow, mul_one, and_self]
  · have hpow : (10 : ℚ) ^ k = (10 ^ k.natAbs : ℚ) := by
      rw [← zpow_natCast]
      simp [abs_of_nonneg (not_lt.1 hk)]
    refine ⟨1, one_pos, ?_⟩
    simp only [hk, if_false, Nat.cast_mul, cast_tenTo, mul_one, hpow, and_self]

/-- A grid point is held when the number that it stands for lies in the interval. -/
theorem holds_scaled_iff (h : Neighbourhood) (k : ℤ) (d : ℕ) :
    (h.scaled k).holds d ↔ h.Contains (d * 10 ^ k) := by
  obtain ⟨c, hc, hlow, hhigh, -, hunit, hclosed⟩ := h.exists_scale k
  have hpoint : ((d * (h.scaled k).unit : ℕ) : ℚ) = d * 10 ^ k * h.unit * c := by
    rw [Nat.cast_mul, hunit]
    ring
  rw [holds, Contains, hclosed]
  cases h.closed with
  | true =>
    simp only [if_true, Bool.and_eq_true, decide_eq_true_eq]
    rw [← Nat.cast_le (α := ℚ), ← Nat.cast_le (α := ℚ), hpoint, hlow, hhigh,
      mul_le_mul_iff_left₀ hc, mul_le_mul_iff_left₀ hc]
  | false =>
    simp only [Bool.false_eq_true, if_false, Bool.and_eq_true, decide_eq_true_eq]
    rw [← Nat.cast_lt (α := ℚ), ← Nat.cast_lt (α := ℚ), hpoint, hlow, hhigh,
      mul_lt_mul_iff_left₀ hc, mul_lt_mul_iff_left₀ hc]

/-! ## The search -/

theorem of_closest? (hd : h.closest? tie = some d) : h.holds d ∧ d ≠ 0 := by
  simp only [closest?] at hd
  split at hd
  · rename_i hdown hup
    rw [Bool.and_eq_true, bne_iff_ne] at hdown
    cases hd
    exact iteInduction (motive := fun d => h.holds d ∧ d ≠ 0)
      (fun _ => ⟨hup, Nat.succ_ne_zero _⟩) fun _ => hdown
  · rename_i hdown _
    rw [Bool.and_eq_true, bne_iff_ne] at hdown
    cases hd
    exact hdown
  · rename_i hup
    cases hd
    exact ⟨hup, Nat.succ_ne_zero _⟩
  · cases hd

/-- A grid that is finer than the interval is wide meets the interval next to the value. -/
theorem exists_closest? (hlow : h.low < h.value) (hhigh : h.value < h.high)
    (hunit : 0 < h.unit) (hle : h.unit ≤ h.value) (hwidth : h.low + h.unit < h.high) :
    ∃ d, h.closest? tie = some d := by
  set d := h.value / h.unit with hd
  have hdown : d * h.unit ≤ h.value := Nat.div_mul_le_self _ _
  have hup : h.value < (d + 1) * h.unit := Nat.lt_mul_of_div_lt (Nat.lt_succ_self _) hunit
  have hpos : d ≠ 0 := (Nat.div_pos hle hunit).ne'
  have hnext : (d + 1) * h.unit = d * h.unit + h.unit := by ring
  -- Otherwise the grid would step over the whole interval.
  have hholds : h.holds d ∨ h.holds (d + 1) := by
    by_contra hno
    rw [not_or, holds, holds] at hno
    cases hclosed : h.closed <;> simp [hclosed] at hno <;> omega
  simp only [closest?, ← hd]
  split
  · exact ⟨_, rfl⟩
  · exact ⟨_, rfl⟩
  · exact ⟨_, rfl⟩
  · rename_i hno hno'
    simp only [Bool.and_eq_false_iff, bne_eq_false_iff_eq, hpos, or_false] at hno
    simp [hno, hno'] at hholds

/-- The place of the first digit of the value. -/
theorem tens_exponent_le (hunit : 0 < h.unit) (hvalue : 0 < h.value) :
    (10 : ℚ) ^ h.exponent * h.unit ≤ h.value := by
  unfold exponent
  split
  · rename_i hle
    have hpos : 0 < h.value / h.unit := Nat.div_pos hle hunit
    have hlength := le_of_length_numeral hpos
    have hexponent : ((numeral (h.value / h.unit)).length : ℤ) - 1 =
        ((numeral (h.value / h.unit)).length - 1 : ℕ) := by
      have hne : (numeral (h.value / h.unit)).length ≠ 0 := by simpa using numeral_ne_nil _
      omega
    rw [hexponent, zpow_natCast]
    exact_mod_cast (Nat.mul_le_mul_right _ hlength).trans (Nat.div_mul_le_self _ _)
  · have hlength := lt_of_length_numeral ((h.unit - 1) / h.value)
    rw [Nat.div_lt_iff_lt_mul hvalue] at hlength
    rw [zpow_neg, zpow_natCast, inv_mul_le_iff₀ (by positivity)]
    have hle : h.unit ≤ 10 ^ (numeral ((h.unit - 1) / h.value)).length * h.value := by omega
    exact_mod_cast hle

/-- The search ends with digits that are held once a place on its way meets the interval. -/
theorem of_search {steps j : ℕ} (hj : j < steps)
    (hmeets : ∃ d, (h.scaled (place - j)).closest? tie = some d) :
    (h.search tie place steps).1 ≠ 0 ∧
      h.Contains ((h.search tie place steps).1 * 10 ^ (h.search tie place steps).2) := by
  -- With each step the place that meets the interval comes one step nearer.
  induction steps generalizing place j with
  | zero => exact absurd hj (Nat.not_lt_zero _)
  | succ steps ih =>
    rw [search]
    cases hclosest : (h.scaled place).closest? tie with
    | some d =>
      obtain ⟨hholds, hne⟩ := of_closest? hclosest
      exact ⟨hne, (h.holds_scaled_iff place d).1 hholds⟩
    | none =>
      cases j with
      | zero =>
        obtain ⟨d, hd⟩ := hmeets
        simp [hclosest] at hd
      | succ j =>
        refine ih (Nat.lt_of_succ_lt_succ hj) (j := j) ?_
        rwa [show place - 1 - (j : ℤ) = place - (j + 1 : ℕ) by push_cast; ring]

/-- A grid of which the value has seventeen digits meets the interval. -/
theorem Wide.exists_closest?_scaled (hwide : h.Wide)
    (hgrid : (h.unit : ℚ) * 10 ^ k * 10 ^ 16 ≤ h.value) (tie : Tie) :
    ∃ d, (h.scaled k).closest? tie = some d := by
  obtain ⟨c, hc, hlow, hhigh, hvalue, hunit, -⟩ := h.exists_scale k
  have hpos : (0 : ℚ) < h.unit * 10 ^ k :=
    mul_pos (Nat.cast_pos.2 hwide.unit_pos) (by positivity)
  have hwidth : (h.low : ℚ) * 10 ^ 16 + h.value < h.high * 10 ^ 16 := by
    exact_mod_cast hwide.width
  refine exists_closest? ?_ ?_ ?_ ?_ ?_
  · rw [← Nat.cast_lt (α := ℚ), hlow, hvalue, mul_lt_mul_iff_left₀ hc]
    exact_mod_cast hwide.low_lt
  · rw [← Nat.cast_lt (α := ℚ), hvalue, hhigh, mul_lt_mul_iff_left₀ hc]
    exact_mod_cast hwide.lt_high
  · rw [← Nat.cast_pos (α := ℚ), hunit]
    exact mul_pos hpos hc
  · rw [← Nat.cast_le (α := ℚ), hunit, hvalue, mul_le_mul_iff_left₀ hc]
    linarith
  · rw [← Nat.cast_lt (α := ℚ), Nat.cast_add, hlow, hunit, hhigh, ← add_mul,
      mul_lt_mul_iff_left₀ hc]
    linarith

/-- **Seventeen digits are enough.** -/
theorem Wide.of_search (hwide : h.Wide) (tie : Tie) :
    (h.search tie h.exponent 17).1 ≠ 0 ∧ h.Contains
      ((h.search tie h.exponent 17).1 * 10 ^ (h.search tie h.exponent 17).2) := by
  have hfirst := tens_exponent_le hwide.unit_pos ((Nat.zero_le _).trans_lt hwide.low_lt)
  refine Neighbourhood.of_search (j := 16) (by norm_num) (hwide.exists_closest?_scaled ?_ tie)
  rw [zpow_sub₀ (by norm_num), zpow_natCast, mul_assoc, div_mul_cancel₀ _ (by norm_num)]
  linarith

end Neighbourhood

/-! ## Shortest digits -/

variable {m n p q : ℕ} {tie : Tie} {x : ℚ}

/-- Where the interval of a magnitude begins: below a power of two it is shorter. -/
theorem exists_low (m q : ℕ) : ∃ gap,
    (gap = 1 ∧ m = 4503599627370496 ∧ 0 < q ∨ gap = 2 ∧ ¬ (m = 4503599627370496 ∧ 0 < q)) ∧
      (neighbourhood m q).low = (4 * m - gap) * twoTo q := by
  by_cases hpower : m = 4503599627370496 ∧ 0 < q
  · exact ⟨1, .inl ⟨rfl, hpower⟩, if_pos hpower⟩
  · exact ⟨2, .inr ⟨rfl, hpower⟩, if_neg hpower⟩

theorem wide_neighbourhood (hcanonical : Canonical m q) (hm : m ≠ 0) :
    (neighbourhood m q).Wide := by
  have hpos := twoTo_pos q
  have hbits : m < 9007199254740992 := hcanonical.1
  obtain ⟨gap, hgap, hlow⟩ := exists_low m q
  have hends : 4 * m - gap < 4 * m ∧ 4 * m < 4 * m + 2 ∧
      (4 * m - gap) * 10 ^ 16 + 4 * m < (4 * m + 2) * 10 ^ 16 := by
    omega
  refine ⟨Nat.mul_pos (by norm_num) (twoTo_pos _), ?_, ?_, ?_⟩
  · rw [hlow]
    exact Nat.mul_lt_mul_of_pos_right hends.1 hpos
  · exact Nat.mul_lt_mul_of_pos_right hends.2.1 hpos
  · have hwidth := Nat.mul_lt_mul_of_pos_right hends.2.2 hpos
    rw [hlow, neighbourhood]
    linarith

/-- Dropping zeros at the end keeps the number. -/
theorem stripZeros_value (d : ℕ) (place : ℤ) (steps : ℕ) :
    ((stripZeros d place steps).1 : ℚ) * 10 ^ (stripZeros d place steps).2 = d * 10 ^ place := by
  induction steps generalizing d place with
  | zero => rfl
  | succ steps ih =>
    rw [stripZeros]
    split
    · rename_i hzero
      obtain ⟨e, rfl⟩ := Nat.dvd_of_mod_eq_zero hzero
      rw [ih, Nat.mul_div_cancel_left _ (by norm_num), zpow_add_one₀ (by norm_num)]
      push_cast
      ring
    · rfl

/-- The number that the shortest digits of a magnitude spell. -/
def shortestValue (tie : Tie) (m q : ℕ) : ℚ := (shortest tie m q).1 * 10 ^ (shortest tie m q).2

/-- **The shortest digits** of a magnitude spell a number that rounds to it. -/
theorem contains_shortest (hcanonical : Canonical m q) (hm : m ≠ 0) (tie : Tie) :
    (neighbourhood m q).Contains (shortestValue tie m q) := by
  rw [shortestValue, shortest]
  simp only [stripZeros_value]
  exact ((wide_neighbourhood hcanonical hm).of_search tie).2

theorem ne_zero_of_contains (hm : m ≠ 0) (hx : (neighbourhood m q).Contains x) : x ≠ 0 := by
  rintro rfl
  obtain ⟨gap, hgap, hlow⟩ := exists_low m q
  have hpos : 0 < (neighbourhood m q).low := by
    rw [hlow]
    exact Nat.mul_pos (by omega) (twoTo_pos q)
  have hpos' : (0 : ℚ) < (neighbourhood m q).low := Nat.cast_pos.2 hpos
  unfold Neighbourhood.Contains at hx
  split at hx <;> linarith [hx.1]

/-! ## Intervals of different doubles -/

/-- The interval of a smaller double ends before that of a larger one begins; where they meet,
one of them is without its ends. -/
theorem high_le_low (hmq : Canonical m q) (hnp : Canonical n p)
    (hlt : q < p ∨ q = p ∧ m < n) :
    (neighbourhood m q).high ≤ (neighbourhood n p).low ∧
      ((neighbourhood m q).high = (neighbourhood n p).low →
        ¬ ((neighbourhood m q).closed ∧ (neighbourhood n p).closed)) := by
  have hpos := twoTo_pos q
  have hbits : m < 9007199254740992 := hmq.1
  have hnormal : q = 0 ∨ 4503599627370496 ≤ m := hmq.2.2
  have hnormal' : p = 0 ∨ 4503599627370496 ≤ n := hnp.2.2
  obtain ⟨gap, hgap, hlow⟩ := exists_low n p
  -- Both ends are counted in the units of the smaller double.
  obtain ⟨r, hr, hends, hmeet⟩ : ∃ r, twoTo p = r * twoTo q ∧ 4 * m + 2 ≤ (4 * n - gap) * r ∧
      (4 * m + 2 = (4 * n - gap) * r → ¬ (m % 2 = 0 ∧ n % 2 = 0)) := by
    rcases hlt with hlt | ⟨rfl, hlt⟩
    · refine ⟨twoTo (p - q), by rw [← twoTo_add, Nat.sub_add_cancel hlt.le], ?_⟩
      have htwo : 2 ≤ twoTo (p - q) := by
        rw [show p - q = p - q - 1 + 1 by omega, twoTo_succ]
        have := twoTo_pos (p - q - 1)
        omega
      have hdouble := Nat.mul_le_mul_left (4 * n - gap) htwo
      generalize (4 * n - gap) * twoTo (p - q) = limit at hdouble ⊢
      omega
    · refine ⟨1, (Nat.one_mul _).symm, ?_⟩
      omega
  have hlow' : (neighbourhood n p).low = (4 * n - gap) * r * twoTo q := by
    rw [hlow, hr, Nat.mul_assoc]
  have hhigh : (neighbourhood m q).high = (4 * m + 2) * twoTo q := rfl
  rw [hlow', hhigh]
  refine ⟨Nat.mul_le_mul_right _ hends, fun heq => ?_⟩
  have hclosed : ∀ c l, (neighbourhood c l).closed ↔ c % 2 = 0 := fun c l => beq_iff_eq
  rw [hclosed, hclosed]
  exact hmeet (Nat.eq_of_mul_eq_mul_right hpos heq)

/-- A number in the interval of a smaller double is in none of a larger one. -/
theorem not_contains_of_lt (hmq : Canonical m q) (hnp : Canonical n p)
    (hlt : q < p ∨ q = p ∧ m < n) (hx : (neighbourhood m q).Contains x) :
    ¬ (neighbourhood n p).Contains x := by
  intro hx'
  obtain ⟨hle, hmeet⟩ := high_le_low hmq hnp hlt
  have hle' : ((neighbourhood m q).high : ℚ) ≤ (neighbourhood n p).low := by exact_mod_cast hle
  have hunit : (neighbourhood m q).unit = (neighbourhood n p).unit := rfl
  unfold Neighbourhood.Contains at hx hx'
  rw [hunit] at hx
  split at hx <;> split at hx'
  · rename_i hclosed hclosed'
    have heq : ((neighbourhood m q).high : ℚ) = (neighbourhood n p).low :=
      le_antisymm hle' (hx'.1.trans hx.2)
    exact hmeet (by exact_mod_cast heq) ⟨hclosed, hclosed'⟩
  all_goals linarith [hx.2, hx'.1]

/-- **A number rounds to one double**: intervals of different doubles share no number. -/
theorem eq_of_contains (hmq : Canonical m q) (hnp : Canonical n p)
    (hx : (neighbourhood m q).Contains x) (hx' : (neighbourhood n p).Contains x) :
    m = n ∧ q = p := by
  rcases lt_trichotomy q p with hlt | rfl | hgt
  · exact absurd hx' (not_contains_of_lt hmq hnp (.inl hlt) hx)
  · rcases lt_trichotomy m n with hlt | rfl | hgt
    · exact absurd hx' (not_contains_of_lt hmq hnp (.inr ⟨rfl, hlt⟩) hx)
    · exact ⟨rfl, rfl⟩
    · exact absurd hx (not_contains_of_lt hnp hmq (.inr ⟨rfl, hgt⟩) hx')
  · exact absurd hx (not_contains_of_lt hnp hmq (.inl hgt) hx')

/-! ## The text -/

/-- Numbers with the same text are equal. -/
theorem value_eq_of_decimalText_eq {d e : ℕ} {k l : ℤ} (h : decimalText d k = decimalText e l) :
    (d : ℚ) * 10 ^ k = e * 10 ^ l := by
  have hvalue : ∀ (d : ℕ) (k : ℤ),
      (d : ℚ) * 10 ^ k = (d * tenTo k.toNat : ℕ) / 10 ^ (-k).toNat := by
    intro d k
    have hk : (10 : ℚ) ^ k = 10 ^ k.toNat / 10 ^ (-k).toNat := by
      rw [← zpow_natCast, ← zpow_natCast, ← zpow_sub₀ (by norm_num), Int.toNat_sub_toNat_neg]
    rw [hk, Nat.cast_mul, cast_tenTo, mul_div_assoc]
  obtain ⟨hdigits, hplaces⟩ := of_decimalText_eq h
  rw [hvalue, hvalue, hdigits, hplaces]

/-- The text of a number without its sign. -/
def unsignedText : Binary64 → List Char
  | .nan => ['N', 'a', 'N']
  | .infinite _ => ['i', 'n', 'f']
  | .finite _ m q _ =>
      if m = 0 then ['0'] else decimalText (shortest .up m q).1 (shortest .up m q).2

theorem positional_eq (x : Binary64) : x.positional = signed x.isNegative x.unsignedText := by
  cases x with
  | nan => rfl
  | infinite negative => rfl
  | finite negative m q h =>
    rw [positional, unsignedText, isNegative]
    split
    · rfl
    · cases shortest .up m q
      rfl

/-- The text of a magnitude spells zero, or a number that rounds to the magnitude. -/
theorem exists_unsignedText (negative : Bool) (h : Canonical m q) : ∃ (d : ℕ) (k : ℤ),
    (Binary64.finite negative m q h).unsignedText = decimalText d k ∧
      ((d : ℚ) * 10 ^ k = 0 ↔ m = 0) ∧
      (m ≠ 0 → (neighbourhood m q).Contains (d * 10 ^ k)) := by
  rw [unsignedText]
  split
  · rename_i hm
    refine ⟨0, 0, ?_, by simp [hm], absurd hm⟩
    simp [decimalText, numeral, digitChar]
  · rename_i hm
    have hcontains := contains_shortest h hm .up
    exact ⟨_, _, rfl, iff_of_false (ne_zero_of_contains hm hcontains) hm, fun _ => hcontains⟩

theorem eq_of_unsignedText_eq {s s' : Bool} (h : Canonical m q) (h' : Canonical n p)
    (htext : (Binary64.finite s m q h).unsignedText = (Binary64.finite s' n p h').unsignedText) :
    m = n ∧ q = p := by
  obtain ⟨d, k, hd, hzero, hcontains⟩ := exists_unsignedText s h
  obtain ⟨e, l, he, hzero', hcontains'⟩ := exists_unsignedText s' h'
  have hvalue := value_eq_of_decimalText_eq (hd.symm.trans (htext.trans he))
  rw [← hvalue] at hzero' hcontains'
  by_cases hm : m = 0
  · have hn : n = 0 := hzero'.1 (hzero.2 hm)
    subst hm hn
    exact ⟨rfl, (h.2.2.resolve_right (by decide)).trans (h'.2.2.resolve_right (by decide)).symm⟩
  · have hn : n ≠ 0 := fun hn => hm (hzero.1 (hzero'.2 hn))
    exact eq_of_contains h h' (hcontains hm) (hcontains' hn)

/-- The text of a magnitude begins with a digit. -/
theorem head?_unsignedText_ne (negative : Bool) (h : Canonical m q) {c : Char}
    (hc : ¬ isDigit c) : (Binary64.finite negative m q h).unsignedText.head? ≠ some c := by
  obtain ⟨d, k, hd, -⟩ := exists_unsignedText negative h
  rw [hd]
  exact head?_decimalText_ne d k hc

theorem head?_unsignedText_ne_sign (x : Binary64) : x.unsignedText.head? ≠ some '-' := by
  cases x with
  | nan => decide
  | infinite negative => simp [unsignedText]
  | finite negative m q h => exact head?_unsignedText_ne negative h (by decide)

/-- **Doubles with the same text** are the same double. -/
theorem text_injective : Function.Injective Binary64.text := by
  intro x y hxy
  have hchars : x.positional = y.positional := String.ofList_injective hxy
  rw [positional_eq, positional_eq] at hchars
  obtain ⟨hsign, htext⟩ :=
    signed_inj x.head?_unsignedText_ne_sign y.head?_unsignedText_ne_sign hchars
  have hhead := congrArg List.head? htext
  cases x with
  | nan =>
    cases y with
    | nan => rfl
    | infinite negative => exact absurd hhead (by simp [unsignedText])
    | finite negative m q h => exact absurd hhead.symm (head?_unsignedText_ne _ h (by decide))
  | infinite negative =>
    cases y with
    | nan => exact absurd hhead (by simp [unsignedText])
    | infinite negative' => exact congrArg _ hsign
    | finite negative' m q h => exact absurd hhead.symm (head?_unsignedText_ne _ h (by decide))
  | finite negative m q h =>
    cases y with
    | nan => exact absurd hhead (head?_unsignedText_ne _ h (by decide))
    | infinite negative' => exact absurd hhead (head?_unsignedText_ne _ h (by decide))
    | finite negative' n p h' =>
      obtain ⟨rfl, rfl⟩ := eq_of_unsignedText_eq h h' htext
      obtain rfl : negative = negative' := hsign
      rfl

end Binary64

end GridQuery
