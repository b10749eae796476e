import GridQuery.Number.Width
import Mathlib.Data.Nat.Digits.Defs
import Mathlib.Tactic.Ring

/-!
# Which texts spell whole numbers

A text spells a whole number when it consists of decimal digits, at least one of them, with
a sign in front or none (`Text.Spells`). Leading zeros do not matter, and nothing else may
stand in the text.

## Main results

* `Text.integer?_eq_some_iff` — the reader of whole numbers finds the number that a text
  spells, and finds none in any other text.
* `Whole.ofText?_eq_some_iff` — with a range of numbers, those of the range.
-/

namespace GridQuery

namespace Text

/-- The number of decimal digits, the most significant one first. -/
def decimal (digits : List ℕ) : ℕ := Nat.ofDigits 10 digits.reverse

/-- Whether a text spells a whole number: a sign or none, then digits. -/
def Spells (s : List Char) (n : ℤ) : Prop :=
  ∃ digits : List ℕ, digits ≠ [] ∧ (∀ d ∈ digits, d < 10) ∧
    (s = digits.map digitChar ∧ n = decimal digits ∨
      s = '+' :: digits.map digitChar ∧ n = decimal digits ∨
      s = '-' :: digits.map digitChar ∧ n = -(decimal digits : ℤ))

/-! ## Digits -/

theorem toNat_digitChar {d : ℕ} (h : d < 10) : (digitChar d).toNat = 48 + d := by
  revert d
  decide

theorem digit?_eq_some_iff {c : Char} {d : ℕ} : digit? c = some d ↔ d < 10 ∧ c = digitChar d := by
  unfold digit?
  constructor
  · intro h
    split at h
    · rename_i hrange
      obtain rfl : c.toNat - 48 = d := Option.some.inj h
      refine ⟨by omega, ?_⟩
      rw [digitChar, show 48 + (c.toNat - 48) = c.toNat by omega, Char.ofNat_toNat]
    · cases h
  · rintro ⟨hd, rfl⟩
    rw [toNat_digitChar hd, if_pos (by omega)]
    congr 1
    omega

theorem digitChar_ne {d : ℕ} (h : d < 10) : digitChar d ≠ '+' ∧ digitChar d ≠ '-' := by
  revert d
  decide

/-! ## Runs of digits -/

theorem decimal_cons (d : ℕ) (digits : List ℕ) :
    decimal (d :: digits) = d * 10 ^ digits.length + decimal digits := by
  rw [decimal, decimal, List.reverse_cons, Nat.ofDigits_append, Nat.ofDigits_singleton,
    List.length_reverse]
  ring

/-- Reading digits after `acc` appends them to its own. -/
theorem digitsValue_eq_some_iff {s : List Char} {acc n : ℕ} : digitsValue acc s = some n ↔
    ∃ digits : List ℕ, (∀ d ∈ digits, d < 10) ∧ s = digits.map digitChar ∧
      n = acc * 10 ^ digits.length + decimal digits := by
  induction s generalizing acc with
  | nil =>
    rw [digitsValue, Option.some.injEq]
    constructor
    · rintro rfl
      exact ⟨[], by simp, rfl, by simp [decimal]⟩
    · rintro ⟨digits, -, hs, rfl⟩
      obtain rfl : digits = [] := List.map_eq_nil_iff.1 hs.symm
      simp [decimal]
  | cons c rest ih =>
    rw [digitsValue, Option.bind_eq_some_iff]
    constructor
    · rintro ⟨d, hd, hrest⟩
      obtain ⟨hlt, rfl⟩ := digit?_eq_some_iff.1 hd
      obtain ⟨digits, hdigits, rfl, rfl⟩ := ih.1 hrest
      refine ⟨d :: digits, ?_, rfl, ?_⟩
      · intro e he
        rcases List.mem_cons.1 he with rfl | he
        · exact hlt
        · exact hdigits e he
      · rw [decimal_cons, List.length_cons]
        ring
    · rintro ⟨digits, hdigits, hs, rfl⟩
      cases digits with
      | nil => cases hs
      | cons d digits =>
        rw [List.map_cons, List.cons.injEq] at hs
        obtain ⟨rfl, rfl⟩ := hs
        refine ⟨d, digit?_eq_some_iff.2 ⟨hdigits d (by simp), rfl⟩, ih.2 ⟨digits, ?_, rfl, ?_⟩⟩
        · exact fun e he => hdigits e (by simp [he])
        · rw [decimal_cons, List.length_cons]
          ring

theorem numeral?_eq_some_iff {s : List Char} {n : ℕ} : numeral? s = some n ↔
    ∃ digits : List ℕ, digits ≠ [] ∧ (∀ d ∈ digits, d < 10) ∧ s = digits.map digitChar ∧
      n = decimal digits := by
  cases s with
  | nil =>
    refine ⟨nofun, ?_⟩
    rintro ⟨digits, hne, -, hs, -⟩
    exact absurd (List.map_eq_nil_iff.1 hs.symm) hne
  | cons c rest =>
    rw [numeral?, digitsValue_eq_some_iff]
    constructor
    · rintro ⟨digits, hdigits, hs, rfl⟩
      refine ⟨digits, ?_, hdigits, hs, by simp⟩
      rintro rfl
      cases hs
    · rintro ⟨digits, -, hdigits, hs, rfl⟩
      exact ⟨digits, hdigits, hs, by simp⟩

/-! ## Whole numbers -/

theorem cast_numeral?_eq_some_iff {s : List Char} {n : ℤ} :
    (do let k ← numeral? s; pure (k : ℤ)) = some n ↔
      ∃ digits : List ℕ, digits ≠ [] ∧ (∀ d ∈ digits, d < 10) ∧ s = digits.map digitChar ∧
        n = decimal digits := by
  rw [Option.bind_eq_bind, Option.bind_eq_some_iff]
  constructor
  · rintro ⟨k, hk, hn⟩
    obtain ⟨digits, hne, hdigits, hs, rfl⟩ := numeral?_eq_some_iff.1 hk
    exact ⟨digits, hne, hdigits, hs, (Option.some.inj hn).symm⟩
  · rintro ⟨digits, hne, hdigits, hs, rfl⟩
    exact ⟨_, numeral?_eq_some_iff.2 ⟨digits, hne, hdigits, hs, rfl⟩, rfl⟩

/-- Digits do not begin with a sign. -/
theorem map_digitChar_ne {digits : List ℕ} (hdigits : ∀ d ∈ digits, d < 10) (rest : List Char) :
    digits.map digitChar ≠ '+' :: rest ∧ digits.map digitChar ≠ '-' :: rest := by
  cases digits with
  | nil => simp
  | cons d digits =>
    obtain ⟨hplus, hminus⟩ := digitChar_ne (hdigits d (by simp))
    simp [hplus, hminus]

/-- **The reader of whole numbers** finds what a text spells. -/
theorem integer?_eq_some_iff {s : List Char} {n : ℤ} : integer? s = some n ↔ Spells s n := by
  unfold integer?
  split
  · rw [Option.map_eq_some_iff]
    constructor
    · rintro ⟨k, hk, rfl⟩
      obtain ⟨digits, hne, hdigits, rfl, rfl⟩ := cast_numeral?_eq_some_iff.1 hk
      exact ⟨digits, hne, hdigits, .inr (.inr ⟨rfl, rfl⟩)⟩
    · rintro ⟨digits, hne, hdigits, ⟨hs, -⟩ | ⟨hs, -⟩ | ⟨hs, rfl⟩⟩
      · exact absurd hs.symm (map_digitChar_ne hdigits _).2
      · exact absurd (List.cons.inj hs).1 (by decide)
      · exact ⟨_, cast_numeral?_eq_some_iff.2
          ⟨digits, hne, hdigits, (List.cons.inj hs).2, rfl⟩, rfl⟩
  · rw [Option.map_eq_some_iff]
    constructor
    · rintro ⟨k, hk, rfl⟩
      obtain ⟨digits, hne, hdigits, rfl, rfl⟩ := cast_numeral?_eq_some_iff.1 hk
      exact ⟨digits, hne, hdigits, .inr (.inl ⟨rfl, rfl⟩)⟩
    · rintro ⟨digits, hne, hdigits, ⟨hs, -⟩ | ⟨hs, rfl⟩ | ⟨hs, -⟩⟩
      · exact absurd hs.symm (map_digitChar_ne hdigits _).1
      · exact ⟨_, cast_numeral?_eq_some_iff.2
          ⟨digits, hne, hdigits, (List.cons.inj hs).2, rfl⟩, rfl⟩
      · exact absurd (List.cons.inj hs).1 (by decide)
  · rename_i hminus hplus
    rw [Option.map_eq_some_iff]
    constructor
    · rintro ⟨k, hk, rfl⟩
      obtain ⟨digits, hne, hdigits, rfl, rfl⟩ := cast_numeral?_eq_some_iff.1 hk
      exact ⟨digits, hne, hdigits, .inl ⟨rfl, rfl⟩⟩
    · rintro ⟨digits, hne, hdigits, ⟨hs, rfl⟩ | ⟨hs, -⟩ | ⟨hs, -⟩⟩
      · exact ⟨_, cast_numeral?_eq_some_iff.2 ⟨digits, hne, hdigits, hs, rfl⟩, rfl⟩
      · exact absurd hs (hplus _)
      · exact absurd hs (hminus _)

/-- A text spells one number at most. -/
theorem Spells.unique {s : List Char} {m n : ℤ} (hm : Spells s m) (hn : Spells s n) : m = n := by
  rw [← integer?_eq_some_iff] at hm hn
  exact Option.some.inj (hm.symm.trans hn)

end Text

namespace Whole

/-- A range with negative numbers takes every spelling of its numbers. -/
theorem ofText?_eq_some_iff {w : Width} (hw : w.signed) {s : List Char} {n : Whole w} :
    ofText? w s = some n ↔ Text.Spells s n.val := by
  simp only [ofText?, hw, if_true, Option.bind_eq_some_iff, Text.integer?_eq_some_iff]
  constructor
  · rintro ⟨m, hm, hn⟩
    rwa [ofInt?_eq_some.1 hn]
  · intro h
    exact ⟨n.val, h, ofInt?_val n⟩

end Whole

end GridQuery
