import GridQuery.Number.Decimal
import GridQuery.Proofs.Numerals
import Mathlib

/-!
# Written numbers

What is written is read again. The digits of a number spell it, with zeros in front or not
(`Text.digitsValue_numeral`, `Text.digitsValue_padded`); a decimal number without an exponent,
wherever its point stands, spells its digits and the place of the last one
(`Binary64.readScientific_decimalText`). So numbers with the same text are the same number:
`Whole.text_injective` for whole numbers, `Decimal.text_injective` for scaled decimals, whose
text shows the scale too.
-/

namespace GridQuery

namespace Text

variable {s t : List Char} {acc n : ℕ}

/-! ## Runs of digits -/

theorem digit?_digitChar {d : ℕ} (h : d < 10) : digit? (digitChar d) = some d :=
  digit?_eq_some_iff.2 ⟨h, rfl⟩

theorem digitsValue_append (acc : ℕ) (s t : List Char) :
    digitsValue acc (s ++ t) = (digitsValue acc s).bind fun n => digitsValue n t := by
  induction s generalizing acc with
  | nil => rfl
  | cons c s ih =>
    rw [List.cons_append, digitsValue, digitsValue, Option.bind_assoc]
    exact congrArg _ (funext fun d => ih _)

/-- The digits of a number spell it. -/
@[simp] theorem digitsValue_numeral (n : ℕ) : digitsValue 0 (numeral n) = some n := by
  induction n using numeral.induct with
  | case1 n h =>
    rw [numeral, if_pos h]
    simp [digitsValue, digit?_digitChar h]
  | case2 n h ih =>
    rw [numeral, if_neg h, digitsValue_append, ih]
    simp [digitsValue, digit?_digitChar (Nat.mod_lt n (by decide)), Nat.div_add_mod']

/-- Zeros in front change nothing. -/
theorem digitsValue_zeros (k : ℕ) (s : List Char) :
    digitsValue 0 (List.replicate k '0' ++ s) = digitsValue 0 s := by
  induction k with
  | zero => rfl
  | succ k ih => exact ih

/-- Zeros at the end count. -/
theorem digitsValue_replicate (acc k : ℕ) :
    digitsValue acc (List.replicate k '0') = some (acc * tenTo k) := by
  induction k generalizing acc with
  | zero => simp [digitsValue, tenTo]
  | succ k ih =>
    have hdigit : digit? '0' = some 0 := rfl
    rw [List.replicate_succ, digitsValue, hdigit, Option.bind_some, ih, tenTo_succ]
    congr 1
    ring

@[simp] theorem digitsValue_padded (width n : ℕ) : digitsValue 0 (padded width n) = some n := by
  rw [padded, digitsValue_zeros, digitsValue_numeral]

theorem numeral_ne_nil (n : ℕ) : numeral n ≠ [] := by
  rw [numeral]
  split <;> simp

theorem isDigit_of_digitsValue (h : digitsValue acc s = some n) {c : Char} (hc : c ∈ s) :
    isDigit c := by
  obtain ⟨digits, hdigits, rfl, -⟩ := digitsValue_eq_some_iff.1 h
  obtain ⟨d, hd, rfl⟩ := List.mem_map.1 hc
  rw [isDigit, digit?_digitChar (hdigits d hd)]
  rfl

/-! ## Lengths -/

theorem lt_of_length_numeral (n : ℕ) : n < 10 ^ (numeral n).length := by
  induction n using numeral.induct with
  | case1 n h => simp [numeral, h]
  | case2 n h ih =>
    rw [numeral, if_neg h, List.length_append, List.length_singleton, pow_succ]
    omega

theorem le_of_length_numeral {n : ℕ} (hn : 0 < n) : 10 ^ ((numeral n).length - 1) ≤ n := by
  induction n using numeral.induct with
  | case1 n h =>
    rw [numeral, if_pos h]
    exact hn
  | case2 n h ih =>
    have hlength : (numeral (n / 10)).length ≠ 0 := by simpa using numeral_ne_nil (n / 10)
    have hfront := ih (by omega)
    rw [numeral, if_neg h, List.length_append, List.length_singleton, Nat.add_sub_cancel]
    obtain ⟨k, hk⟩ := Nat.exists_eq_succ_of_ne_zero hlength
    rw [hk, Nat.succ_sub_one] at hfront
    rw [hk, Nat.succ_eq_add_one, pow_succ]
    omega

theorem length_numeral_le {n k : ℕ} (hk : 0 < k) (hn : n < 10 ^ k) : (numeral n).length ≤ k := by
  rcases Nat.eq_zero_or_pos n with rfl | hpos
  · simpa [numeral] using Nat.succ_le_of_lt hk
  · have hlt := (Nat.pow_lt_pow_iff_right (by norm_num)).1 ((le_of_length_numeral hpos).trans_lt hn)
    omega

theorem length_padded {width n : ℕ} (hwidth : 0 < width) (hn : n < 10 ^ width) :
    (padded width n).length = width := by
  have hle := length_numeral_le hwidth hn
  rw [padded, List.length_append, List.length_replicate]
  omega

/-! ## Reading runs -/

/-- Whether a text does not go on with a digit. -/
def EndsRun (rest : List Char) : Prop := ∀ c ∈ rest.head?, ¬ isDigit c

theorem endsRun_nil : EndsRun [] := nofun

theorem endsRun_cons {c : Char} (hc : ¬ isDigit c) (rest : List Char) : EndsRun (c :: rest) := by
  rintro _ ⟨⟩
  exact hc

theorem takeDigits_of_endsRun (h : EndsRun t) (max count acc : ℕ) :
    takeDigits max count acc t = (count, acc, t) := by
  cases max with
  | zero => rfl
  | succ max =>
    cases t with
    | nil => rfl
    | cons c t =>
      have hc : digit? c = none := by simpa [isDigit] using h c rfl
      rw [takeDigits, hc]

/-- A run of digits is read up to its end, or up to where no more digits are admitted. -/
theorem takeDigits_run {max : ℕ} (h : digitsValue acc s = some n) (hmax : s.length ≤ max)
    (hend : s.length < max → EndsRun t) (count : ℕ) :
    takeDigits max count acc (s ++ t) = (count + s.length, n, t) := by
  induction s generalizing acc max count with
  | nil =>
    obtain rfl : acc = n := Option.some.inj h
    rcases Nat.eq_zero_or_pos max with rfl | hpos
    · rfl
    · exact takeDigits_of_endsRun (hend hpos) _ _ _
  | cons c s ih =>
    obtain ⟨d, hd, hs⟩ := Option.bind_eq_some_iff.1 h
    cases max with
    | zero => exact absurd hmax (by simp)
    | succ max =>
      rw [List.cons_append, takeDigits, hd]
      simp only
      rw [ih hs (Nat.le_of_succ_le_succ hmax) fun hlt => hend (Nat.succ_lt_succ hlt)]
      simp [Nat.add_comm, Nat.add_left_comm]

/-! ## Whole numbers -/

/-- The text of a whole number spells it. -/
theorem spells_intText (n : ℤ) : Spells (intText n) n := by
  obtain ⟨digits, hdigits, hs, hn⟩ := digitsValue_eq_some_iff.1 (digitsValue_numeral n.natAbs)
  have hne : digits ≠ [] := by
    rintro rfl
    exact numeral_ne_nil _ hs
  rw [Nat.zero_mul, Nat.zero_add] at hn
  refine ⟨digits, hne, hdigits, ?_⟩
  unfold intText
  split
  · exact .inr (.inr ⟨congrArg _ hs, by omega⟩)
  · exact .inl ⟨hs, by omega⟩

end Text

theorem Whole.text_injective {w : Width} : Function.Injective (Whole.text (w := w)) := by
  intro a b h
  have hchars : Text.intText a.val = Text.intText b.val := String.ofList_injective h
  exact Whole.ext ((Text.spells_intText _).unique (hchars ▸ Text.spells_intText _))

/-! ## Numbers with a point -/

namespace Binary64

open GridQuery.Text

variable {s t : List Char} {d e : ℕ} {k l : ℤ}

/-- Digits in which a point is put, with zeros in front where they are too few. -/
theorem exists_pointText (d places : ℕ) : ∃ before after : List Char,
    before ≠ [] ∧ digitsValue 0 (before ++ after) = some d ∧ after.length = places ∧
      (if places < (numeral d).length then
        (numeral d).take ((numeral d).length - places) ++
          '.' :: (numeral d).drop ((numeral d).length - places)
      else '0' :: '.' :: List.replicate (places - (numeral d).length) '0' ++ numeral d) =
        before ++ '.' :: after := by
  by_cases hlong : places < (numeral d).length
  · refine ⟨_, _, fun hnil => ?_, ?_, ?_, if_pos hlong⟩
    · have hlength := congrArg List.length hnil
      rw [List.length_take, List.length_nil] at hlength
      omega
    · rw [List.take_append_drop, digitsValue_numeral]
    · rw [List.length_drop]
      omega
  · refine ⟨['0'], List.replicate (places - (numeral d).length) '0' ++ numeral d,
      List.cons_ne_nil _ _, ?_, ?_, if_neg hlong⟩
    · exact (digitsValue_zeros 1 _).trans ((digitsValue_zeros _ _).trans (digitsValue_numeral d))
    · rw [List.length_append, List.length_replicate]
      omega

/-- A number without an exponent: digits, or digits in which a point is put. -/
theorem exists_decimalText (d : ℕ) (k : ℤ) : ∃ before after : List Char,
    before ≠ [] ∧ digitsValue 0 (before ++ after) = some (d * tenTo k.toNat) ∧
      after.length = (-k).toNat ∧
      decimalText d k = before ++ if after = [] then [] else '.' :: after := by
  by_cases hk : 0 ≤ k
  · refine ⟨decimalText d k, [], ?_, ?_, ?_, (List.append_nil _).symm⟩
    · simp [decimalText, hk, numeral_ne_nil]
    · rw [decimalText, if_pos hk, List.append_nil, digitsValue_append, digitsValue_numeral,
        Option.bind_some, digitsValue_replicate, ← Int.toNat_of_nonneg hk]
      rfl
    · simp only [List.length_nil]
      omega
  · obtain ⟨before, after, hne, hvalue, hlength, htext⟩ := exists_pointText d k.natAbs
    have htens : tenTo k.toNat = 1 := by
      rw [Int.toNat_of_nonpos (by omega)]
      rfl
    have hafter : after ≠ [] := List.ne_nil_of_length_pos (by omega)
    refine ⟨before, after, hne, by rw [hvalue, htens, Nat.mul_one], by omega, ?_⟩
    rw [if_neg hafter, decimalText, if_neg hk, ← htext]

/-- **What is written is read**: the digits without the point, and the place of the last one. -/
theorem readScientific_decimalText (d : ℕ) (k : ℤ) :
    readScientific (decimalText d k) = some ⟨d * tenTo k.toNat, -((-k).toNat : ℤ)⟩ := by
  obtain ⟨before, after, hne, hvalue, hlength, htext⟩ := exists_decimalText d k
  rw [digitsValue_append] at hvalue
  obtain ⟨whole, hwhole, hafter⟩ := Option.bind_eq_some_iff.1 hvalue
  have hfront : ∀ t, EndsRun t →
      readDigitRun (before ++ t) = (0 + before.length, whole, t) := fun t ht =>
    takeDigits_run hwhole (by simp) (fun _ => ht) 0
  rw [htext, readScientific, ← hlength]
  split_ifs with hnil
  · subst hnil
    obtain rfl : whole = _ := Option.some.inj hafter
    rw [hfront [] endsRun_nil]
    simp [hne, readExponent]
  · have hback := takeDigits_run hafter le_rfl (fun h => absurd h (lt_irrefl _)) 0 (t := [])
    rw [List.append_nil] at hback
    rw [hfront _ (endsRun_cons (by decide) _)]
    simp only [hback]
    simp [hne, readExponent]

theorem of_decimalText_eq {d e : ℕ} {k l : ℤ} (h : decimalText d k = decimalText e l) :
    d * tenTo k.toNat = e * tenTo l.toNat ∧ (-k).toNat = (-l).toNat := by
  have hread := (readScientific_decimalText d k).symm.trans
    ((congrArg readScientific h).trans (readScientific_decimalText e l))
  rw [Option.some.injEq, Scientific.mk.injEq, neg_inj, Nat.cast_inj] at hread
  exact hread

/-! ## Signs -/

theorem exists_decimalText_cons (d : ℕ) (k : ℤ) :
    ∃ c rest, decimalText d k = c :: rest ∧ isDigit c := by
  obtain ⟨before, after, hne, hvalue, -, htext⟩ := exists_decimalText d k
  rw [digitsValue_append] at hvalue
  obtain ⟨whole, hwhole, -⟩ := Option.bind_eq_some_iff.1 hvalue
  obtain ⟨c, rest, rfl⟩ := List.exists_cons_of_ne_nil hne
  exact ⟨c, _, htext, isDigit_of_digitsValue hwhole List.mem_cons_self⟩

theorem head?_decimalText_ne (d : ℕ) (k : ℤ) {c : Char} (hc : ¬ isDigit c) :
    (decimalText d k).head? ≠ some c := by
  obtain ⟨c', rest, htext, hdigit⟩ := exists_decimalText_cons d k
  rw [htext, List.head?_cons, ne_eq, Option.some.injEq]
  rintro rfl
  exact hc hdigit

/-- Texts that bring no sign of their own show the sign in front of them. -/
theorem signed_inj {a b : Bool} {s t : List Char} (hs : s.head? ≠ some '-')
    (ht : t.head? ≠ some '-') (h : signed a s = signed b t) : a = b ∧ s = t := by
  cases a <;> cases b
  · exact ⟨rfl, h⟩
  · subst h
    exact absurd rfl hs
  · subst h
    exact absurd rfl ht
  · exact ⟨rfl, (List.cons.inj h).2⟩

end Binary64

/-- The text of a decimal shows its sign, its digits and its scale. -/
theorem Decimal.text_injective : Function.Injective Decimal.text := by
  intro a b h
  have hchars : a.chars = b.chars := String.ofList_injective h
  obtain ⟨hsign, htext⟩ := Binary64.signed_inj (Binary64.head?_decimalText_ne _ _ (by decide))
    (Binary64.head?_decimalText_ne _ _ (by decide)) hchars
  obtain ⟨hmantissa, hscale⟩ := Binary64.of_decimalText_eq htext
  cases a
  cases b
  simp_all [tenTo]

end GridQuery
