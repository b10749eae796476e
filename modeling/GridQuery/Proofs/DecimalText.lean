import GridQuery.Proofs.WrittenNumbers

/-!
# The text of a decimal

The text of a decimal shows its sign, its digits and all its places, and it is read back
(`Decimal.ofText?_chars`): the digits never outgrow the mantissa on the way, and there are no more
than 28 places, so nothing is rounded. Only a zero loses its sign. What is read has the scale and
the value of what was written (`Decimal.units_unsignedZero`).
-/

namespace GridQuery

/-- A number is at least what it was continued from. -/
theorem Text.le_of_digitsValue {acc n : ℕ} {s : List Char} (h : digitsValue acc s = some n) :
    acc ≤ n := by
  obtain ⟨digits, -, -, rfl⟩ := digitsValue_eq_some_iff.1 h
  exact (Nat.le_mul_of_pos_right acc (by positivity)).trans (Nat.le_add_right _ _)

namespace Decimal

open GridQuery.Text

variable {point seen : Bool} {m k n d : ℕ} {c : Char} {s t : List Char}

/-! ## Reading digits -/

/-- A digit for which there is room is added. -/
theorem readParts_digit (hd : digit? c = some d) (hfits : m * 10 + d < limit)
    (hroom : point → k < 28) : readParts point seen m k (c :: t) =
      readParts point true (m * 10 + d) (if point then k + 1 else k) t := by
  have hopen : ¬ (point && decide (28 ≤ k)) := by
    simp only [Bool.and_eq_true, decide_eq_true_eq, not_and, not_le]
    exact hroom
  rw [readParts, if_neg hopen, hd]
  simp only
  rw [if_pos hfits]

/-- **A run of digits** for which there is room is added; behind the point, each is a place. -/
theorem readParts_run (h : digitsValue m s = some n) (hn : n < limit)
    (hroom : point → k + s.length ≤ 28) : readParts point true m k (s ++ t) =
      readParts point true n (if point then k + s.length else k) t := by
  induction s generalizing m k with
  | nil =>
    obtain rfl : m = n := Option.some.inj h
    simp
  | cons c s ih =>
    obtain ⟨d, hd, hs⟩ := Option.bind_eq_some_iff.1 h
    have hfits : m * 10 + d < limit := (le_of_digitsValue hs).trans_lt hn
    rw [List.length_cons] at hroom ⊢
    rw [List.cons_append, readParts_digit hd hfits fun hp => by have := hroom hp; omega]
    cases point with
    | false => exact ih hs nofun
    | true =>
      have hrest := hroom rfl
      refine (ih hs fun _ => by simp only [if_true]; omega).trans ?_
      simp only [if_true]
      congr 1
      omega

/-- Digits with a point somewhere are read as the number they spell and the number of places. -/
theorem readParts_decimalText (hm : m < limit) (hk : k ≤ 28) :
    readParts false false 0 0 (Binary64.decimalText m (-(k : ℤ))) = some (m, k) := by
  obtain ⟨before, after, hne, hvalue, hlength, htext⟩ := Binary64.exists_decimalText m (-(k : ℤ))
  have htens : tenTo (-(k : ℤ)).toNat = 1 := by rw [Int.toNat_of_nonpos (by omega)]; rfl
  rw [htens, Nat.mul_one, digitsValue_append] at hvalue
  obtain ⟨whole, hwhole, hafter⟩ := Option.bind_eq_some_iff.1 hvalue
  have hwholeFits : whole < limit := (le_of_digitsValue hafter).trans_lt hm
  -- The first digit counts as seen; what follows it up to the point is a run.
  have hfront : ∀ t, readParts false false 0 0 (before ++ t) = readParts false true whole 0 t := by
    intro t
    obtain ⟨c, rest, rfl⟩ := List.exists_cons_of_ne_nil hne
    obtain ⟨d, hd, hrest⟩ := Option.bind_eq_some_iff.1 hwhole
    have hfirst : readParts false false 0 0 (c :: (rest ++ t)) =
        readParts false true (0 * 10 + d) 0 (rest ++ t) :=
      readParts_digit hd ((le_of_digitsValue hrest).trans_lt hwholeFits) nofun
    rw [List.cons_append, hfirst]
    exact readParts_run hrest hwholeFits nofun
  rw [htext, hfront]
  have hplaces : after.length = k := by omega
  split_ifs with hnil
  · subst hnil
    obtain rfl : whole = m := Option.some.inj hafter
    rw [← hplaces]
    rfl
  · have hpoint : readParts false true whole 0 ('.' :: after) =
        readParts true true whole 0 (after ++ []) := by rw [List.append_nil]; rfl
    rw [hpoint, readParts_run hafter hm fun _ => by omega, if_pos rfl, Nat.zero_add, hplaces]
    rfl

/-! ## Reading decimals -/

/-- A decimal where a zero has no sign. -/
def unsignedZero (d : Decimal) : Decimal :=
  { d with negative := d.negative && d.mantissa != 0 }

@[simp] theorem scale_unsignedZero (d : Decimal) : d.unsignedZero.scale = d.scale := rfl

@[simp] theorem units_unsignedZero (d : Decimal) : d.unsignedZero.units = d.units := by
  have hsigned : d.unsignedZero.signedMantissa = d.signedMantissa := by
    by_cases hzero : d.mantissa = 0
    · simp [unsignedZero, signedMantissa, hzero]
    · simp [unsignedZero, signedMantissa, hzero]
  rw [units, units, hsigned]
  rfl

theorem ofUnsignedZero?_parts (d : Decimal) :
    ofUnsignedZero? d.negative d.mantissa d.scale = some d.unsignedZero :=
  dif_pos ⟨d.mantissa_lt, d.scale_le⟩

theorem plain?_of_isDigit (hc : isDigit c) (rest : List Char) : plain? (c :: rest) =
    (readParts false false 0 0 (c :: rest)).bind fun p => ofUnsignedZero? false p.1 p.2 := by
  unfold plain?
  split
  · rename_i heq
    obtain rfl := (List.cons.inj heq).1
    exact absurd hc (by decide)
  · rename_i heq
    obtain rfl := (List.cons.inj heq).1
    exact absurd hc (by decide)
  · rfl

/-- **The text of a decimal** is read back, but for the sign of a zero. -/
theorem ofText?_chars (d : Decimal) : ofText? d.chars = some d.unsignedZero := by
  have hread := readParts_decimalText d.mantissa_lt d.scale_le
  have hplain : plain? d.chars = some d.unsignedZero := by
    rw [← ofUnsignedZero?_parts, chars, Binary64.signed]
    cases hsign : d.negative with
    | true =>
      rw [if_pos rfl, plain?, hread]
      rfl
    | false =>
      obtain ⟨c, rest, htext, hc⟩ := Binary64.exists_decimalText_cons d.mantissa (-(d.scale : ℤ))
      rw [if_neg Bool.false_ne_true, htext, plain?_of_isDigit hc, ← htext, hread]
      rfl
  rw [ofText?, hplain, Option.some_or]

end Decimal

end GridQuery
