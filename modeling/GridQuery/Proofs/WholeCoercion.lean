import GridQuery.Proofs.Coercion
import GridQuery.Proofs.Doubles
import GridQuery.Proofs.Order

/-!
# Coercion into whole numbers

A numeric value is coerced into an integer kind exactly when the number it stands for
(`Value.number?`) is whole and lies between the bounds of the kind, and then the result is
that number. Which error comes out otherwise depends on the number too, not on its
representation: a double of any size and a decimal with any places are treated alike.

## Main results

* `Decimal.whole?_eq_some_iff` — the whole number of a decimal is the one it stands for.
* `Value.ofInt?_saturate` — numbers beyond 128 bits are out of range however they are held.
* `Value.coerce_whole_exact` — results and errors of the coercion into an integer kind.
-/

namespace GridQuery

/-- The whole number of a decimal is the one it stands for. -/
theorem Decimal.whole?_eq_some_iff {d : Decimal} {n : ℤ} :
    d.whole? = some n ↔ d.value = (n : ℚ) := by
  have hplaces : (0 : ℤ) < (tenTo d.scale : ℕ) := Int.natCast_pos.2 (tenTo_pos d.scale)
  have hvalue : d.value = (n : ℚ) ↔ d.signedMantissa = n * (tenTo d.scale : ℕ) := by
    rw [Decimal.value, ← cast_tenTo, div_eq_iff (Nat.cast_ne_zero.2 (tenTo_pos d.scale).ne')]
    exact_mod_cast Iff.rfl
  rw [hvalue, whole?, signedMantissa]
  by_cases hdvd : d.mantissa % tenTo d.scale = 0
  · obtain ⟨k, hk⟩ := Nat.dvd_of_mod_eq_zero hdvd
    have hquotient : d.mantissa / tenTo d.scale = k := by
      rw [hk, Nat.mul_div_cancel_left _ (tenTo_pos d.scale)]
    have hsigned : (if d.negative then -(d.mantissa : ℤ) else d.mantissa) =
        (if d.negative then -(k : ℤ) else k) * (tenTo d.scale : ℕ) := by
      rw [hk]
      split <;> push_cast <;> ring
    rw [if_pos hdvd, hsigned, hquotient, mul_left_inj' hplaces.ne', Option.some.injEq]
  · rw [if_neg hdvd]
    refine iff_of_false (by simp) fun hsigned => hdvd ?_
    have habs := congrArg Int.natAbs hsigned
    rw [Int.natAbs_mul, Int.natAbs_natCast] at habs
    have hmantissa : d.mantissa = n.natAbs * tenTo d.scale := by
      rw [← habs]
      split <;> simp
    rw [hmantissa, Nat.mul_mod_left]

namespace Value

/-! ## The number of a value -/

/-- Whether a value is held as a number. -/
def isNumeric : Value → Bool
  | .whole .. | .float _ | .decimal _ => true
  | _ => false

/-- The number that a value stands for; infinite doubles and a NaN stand for none. -/
def number? : Value → Option ℚ
  | .whole _ n => some n.val
  | .float x => x.value?
  | .decimal d => some d.value
  | _ => none

/-- Whether a number lies between the smallest and the largest value of a kind. -/
def WithinBounds (k : Kind) (r : ℚ) : Prop :=
  ∃ least greatest a b, bounds? k = some (least, greatest) ∧ least.number? = some a ∧
    greatest.number? = some b ∧ a ≤ r ∧ r ≤ b

variable {v : Value} {w : Width} {n : ℤ}

theorem withinBounds_whole_iff : WithinBounds (.whole w) (n : ℚ) ↔ w.Fits n := by
  constructor
  · rintro ⟨_, _, _, _, hbounds, hleast, hgreatest, hle, hge⟩
    cases hbounds
    cases hleast
    cases hgreatest
    exact ⟨Int.cast_le.1 hle, Int.cast_le.1 hge⟩
  · rintro ⟨hle, hge⟩
    exact ⟨_, _, _, _, rfl, rfl, rfl, Int.cast_le.2 hle, Int.cast_le.2 hge⟩

/-! ## Whole numbers -/

/-- Bringing a number into 128 bits does not change whether it fits a kind. -/
theorem ofInt?_saturate (w : Width) (n : ℤ) : Whole.ofInt? w (saturate n) = Whole.ofInt? w n := by
  have hfits : w.Fits n → saturate n = n := by
    unfold Width.Fits saturate
    cases w <;> simp only [Width.least, Width.greatest] <;> omega
  have hsaturated : w.Fits (saturate n) → w.Fits n := by
    unfold Width.Fits saturate
    cases w <;> simp only [Width.least, Width.greatest] <;> omega
  by_cases h : w.Fits n
  · rw [hfits h]
  · rw [Whole.ofInt?_eq_none.2 h, Whole.ofInt?_eq_none.2 fun hs => h (hsaturated hs)]

theorem exactInteger_of_number? (h : v.number? = some (n : ℚ)) :
    ∃ m, v.exactInteger = .ok (some m) ∧ ∀ w, Whole.ofInt? w m = Whole.ofInt? w n := by
  cases v with
  | whole w m =>
    refine ⟨m.val, rfl, fun w => ?_⟩
    rw [Int.cast_inj.1 (Option.some.inj h)]
  | float x =>
    refine ⟨saturate n, ?_, fun w => ofInt?_saturate w n⟩
    simp only [exactInteger, Binary64.whole?_eq_some_iff.2 h]
  | decimal d =>
    refine ⟨n, ?_, fun w => rfl⟩
    simp only [exactInteger, Decimal.whole?_eq_some_iff.2 (Option.some.inj h)]
  | _ => cases h

theorem exactInteger_of_not_whole (hnumeric : v.isNumeric)
    (h : ∀ n : ℤ, v.number? ≠ some (n : ℚ)) : v.exactInteger = .error v.notWhole := by
  cases v with
  | whole w m => exact absurd rfl (h m.val)
  | float x =>
    have hnone : x.whole? = none := Option.eq_none_iff_forall_ne_some.2 fun n hn =>
      h n (Binary64.whole?_eq_some_iff.1 hn)
    simp only [exactInteger, hnone]
  | decimal d =>
    have hnone : d.whole? = none := Option.eq_none_iff_forall_ne_some.2 fun n hn =>
      h n (congrArg some (Decimal.whole?_eq_some_iff.1 hn))
    simp only [exactInteger, hnone]
  | _ => cases hnumeric

theorem exactInteger_of_not_numeric (h : v.isNumeric = false) : v.exactInteger = .ok none := by
  cases v <;> first | rfl | cases h

/-! ## Coercion -/

/-- A value of the kind is coerced like every other one. -/
theorem coerce_whole_eq (v : Value) (w : Width) : v.coerce (.whole w) = v.coerceWhole w := by
  by_cases hkind : v.matchesKind (.whole w)
  · rw [coerce_of_matchesKind hkind]
    cases v with
    | whole w' n =>
      obtain rfl : w' = w := by simpa [matchesKind] using hkind
      simp [coerceWhole, exactInteger, integer?, Whole.ofInt?_val]
    | _ => cases hkind
  · exact if_neg hkind

theorem coerce_whole_of_number? (h : v.number? = some (n : ℚ)) (w : Width) :
    v.coerce (.whole w) =
      match Whole.ofInt? w n with
      | some m => .ok (.whole w m)
      | none => .error (v.outOfRange (.whole w)) := by
  obtain ⟨m, hm, hrange⟩ := exactInteger_of_number? h
  rw [coerce_whole_eq, coerceWhole, hm]
  cases hfits : Whole.ofInt? w n with
  | some k => simp only [hrange, hfits]
  | none => simp only [hrange, hfits]

theorem coerce_whole_of_not_whole (hnumeric : v.isNumeric)
    (h : ∀ n : ℤ, v.number? ≠ some (n : ℚ)) (w : Width) :
    v.coerce (.whole w) = .error v.notWhole := by
  rw [coerce_whole_eq, coerceWhole, exactInteger_of_not_whole hnumeric h]

theorem coerce_whole_of_not_numeric (h : v.isNumeric = false) (w : Width) :
    v.coerce (.whole w) = .error (v.mismatch (.whole w)) := by
  rw [coerce_whole_eq, coerceWhole, exactInteger_of_not_numeric h]

/-- What a coercion into an integer kind comes to, and which values it comes to it for. -/
theorem coerce_whole_cases (v : Value) (w : Width) :
    (∃ m : Whole w, v.number? = some (m.val : ℚ) ∧ v.coerce (.whole w) = .ok (.whole w m)) ∨
      (∃ n : ℤ, v.number? = some (n : ℚ) ∧ ¬ w.Fits n ∧
        v.coerce (.whole w) = .error (v.outOfRange (.whole w))) ∨
      (v.isNumeric ∧ (∀ n : ℤ, v.number? ≠ some (n : ℚ)) ∧
        v.coerce (.whole w) = .error v.notWhole) ∨
      v.isNumeric = false ∧ v.coerce (.whole w) = .error (v.mismatch (.whole w)) := by
  by_cases hwhole : ∃ n : ℤ, v.number? = some (n : ℚ)
  · obtain ⟨n, hn⟩ := hwhole
    have hcoerce := coerce_whole_of_number? hn w
    cases hfits : Whole.ofInt? w n with
    | some m =>
      rw [hfits] at hcoerce
      exact .inl ⟨m, by rw [Whole.ofInt?_eq_some.1 hfits, hn], hcoerce⟩
    | none =>
      rw [hfits] at hcoerce
      exact .inr (.inl ⟨n, hn, Whole.ofInt?_eq_none.1 hfits, hcoerce⟩)
  · have hnone := not_exists.1 hwhole
    cases hnumeric : v.isNumeric with
    | true => exact .inr (.inr (.inl ⟨rfl, hnone, coerce_whole_of_not_whole hnumeric hnone w⟩))
    | false => exact .inr (.inr (.inr ⟨rfl, coerce_whole_of_not_numeric hnumeric w⟩))

theorem coerce_whole_eq_ok_iff {u : Value} : v.coerce (.whole w) = .ok u ↔
    ∃ n : ℤ, v.number? = some (n : ℚ) ∧ WithinBounds (.whole w) n ∧
      ∃ m : Whole w, m.val = n ∧ u = .whole w m := by
  constructor
  · intro h
    rcases coerce_whole_cases v w with ⟨m, hm, hc⟩ | ⟨n, -, -, hc⟩ | ⟨-, -, hc⟩ | ⟨-, hc⟩
    · obtain rfl : Value.whole w m = u := Except.ok.inj (hc.symm.trans h)
      exact ⟨m.val, hm, withinBounds_whole_iff.2 m.fits, m, rfl, rfl⟩
    all_goals cases hc.symm.trans h
  · rintro ⟨n, hn, -, m, rfl, rfl⟩
    rw [coerce_whole_of_number? hn, Whole.ofInt?_val]

theorem coerce_whole_eq_error_iff {e : ValueError} : v.coerce (.whole w) = .error e ↔
    (v.isNumeric = false ∧ e = v.mismatch (.whole w)) ∨
      (v.isNumeric ∧ (∀ n : ℤ, v.number? ≠ some (n : ℚ)) ∧ e = v.notWhole) ∨
      ∃ n : ℤ, v.number? = some (n : ℚ) ∧ ¬ WithinBounds (.whole w) n ∧
        e = v.outOfRange (.whole w) := by
  constructor
  · intro h
    rcases coerce_whole_cases v w with
      ⟨m, -, hc⟩ | ⟨n, hn, hfits, hc⟩ | ⟨hnumeric, hnone, hc⟩ | ⟨hnumeric, hc⟩
    · cases hc.symm.trans h
    · exact .inr (.inr ⟨n, hn, mt withinBounds_whole_iff.1 hfits,
        (Except.error.inj (hc.symm.trans h)).symm⟩)
    · exact .inr (.inl ⟨hnumeric, hnone, (Except.error.inj (hc.symm.trans h)).symm⟩)
    · exact .inl ⟨hnumeric, (Except.error.inj (hc.symm.trans h)).symm⟩
  · rintro (⟨hnumeric, rfl⟩ | ⟨hnumeric, hnone, rfl⟩ | ⟨n, hn, hout, rfl⟩)
    · exact coerce_whole_of_not_numeric hnumeric w
    · exact coerce_whole_of_not_whole hnumeric hnone w
    · rw [coerce_whole_of_number? hn,
        Whole.ofInt?_eq_none.2 (mt withinBounds_whole_iff.2 hout)]

/-- **Coercion into an integer kind** succeeds exactly for the values that stand for a whole
number between the bounds of the kind, and gives that number. A number that is not whole, not
finite or outside the bounds is out of range, and everything else is of the wrong kind. -/
theorem coerce_whole_exact (v : Value) (w : Width) :
    (∀ u, v.coerce (.whole w) = .ok u ↔
      ∃ n : ℤ, v.number? = some (n : ℚ) ∧ WithinBounds (.whole w) n ∧
        ∃ m : Whole w, m.val = n ∧ u = .whole w m) ∧
      ∀ e, v.coerce (.whole w) = .error e ↔
        (v.isNumeric = false ∧ e = .mismatch w.name v.variant) ∨
        (v.isNumeric ∧ (∀ n : ℤ, v.number? ≠ some (n : ℚ)) ∧
          e = .outOfRange v.display "an integer") ∨
        ∃ n : ℤ, v.number? = some (n : ℚ) ∧ ¬ WithinBounds (.whole w) n ∧
          e = .outOfRange v.display w.name :=
  ⟨fun _ => coerce_whole_eq_ok_iff, fun _ => coerce_whole_eq_error_iff⟩

/-- Places that are all zero do not count. -/
example : (Value.decimal ⟨false, 25500, 2, by decide, by decide⟩).coerce (.whole .byte) =
    .ok (.whole .byte ⟨255, by decide⟩) := by decide

end Value

end GridQuery
