import GridQuery.Proofs.ClockText
import GridQuery.Proofs.ShortestText
import GridQuery.Value

/-!
# Texts without blanks

Numbers, truth values and instants are written without blank characters
(`Value.isSolid_display`): only a value that holds a string can show one. So trimming leaves what
was written as it is (`Text.trim_eq_self`), and a text with a blank between such values can be cut
there.
-/

namespace GridQuery

namespace Text

/-- Whether no character of a text is blank. -/
def IsSolid (s : List Char) : Prop := ∀ c ∈ s, isBlank c = false

variable {s t : List Char} {acc n : ℕ}

@[simp] theorem isSolid_nil : IsSolid [] := by simp [IsSolid]

@[simp] theorem isSolid_cons {c : Char} : IsSolid (c :: s) ↔ isBlank c = false ∧ IsSolid s := by
  simp [IsSolid]

@[simp] theorem isSolid_append : IsSolid (s ++ t) ↔ IsSolid s ∧ IsSolid t := by
  simp [IsSolid, or_imp, forall_and]

/-! ## Trimming -/

theorem trimStart_eq_self (h : IsSolid s) : trimStart s = s := by
  cases s with
  | nil => rfl
  | cons c s => exact trimStart_cons (isSolid_cons.1 h).1 s

/-- Only the front is trimmed when the last character is not blank. -/
theorem trim_eq_trimStart {c : Char} (h : s.getLast? = some c) (hc : isBlank c = false) :
    trim s = trimStart s := by
  have hcut : s.takeWhile isBlank ++ trimStart s = s := List.takeWhile_append_dropWhile
  have hne : trimStart s ≠ [] := by
    intro hnil
    rw [hnil, List.append_nil] at hcut
    have hmem : c ∈ s.takeWhile isBlank := hcut.symm ▸ List.mem_of_getLast? h
    exact absurd (List.mem_takeWhile_imp hmem) (by simp [hc])
  rw [← hcut, List.getLast?_append_of_ne_nil _ hne] at h
  obtain ⟨t, ht⟩ := List.getLast?_eq_some_iff.1 h
  rw [trim, ht, List.reverse_append, List.reverse_singleton, List.singleton_append,
    trimStart_cons hc, List.reverse_cons, List.reverse_reverse]

theorem trim_eq_self (h : IsSolid s) : trim s = s := by
  have hreverse : IsSolid s.reverse := fun c hc => h c (List.mem_reverse.1 hc)
  rw [trim, trimStart_eq_self h, trimStart_eq_self hreverse, List.reverse_reverse]

/-! ## Digits -/

theorem isSolid_of_digitsValue (h : digitsValue acc s = some n) : IsSolid s :=
  fun _ hc => isBlank_of_isDigit (isDigit_of_digitsValue h hc)

@[simp] theorem isSolid_numeral (n : ℕ) : IsSolid (numeral n) :=
  isSolid_of_digitsValue (digitsValue_numeral n)

@[simp] theorem isSolid_padded (width n : ℕ) : IsSolid (padded width n) :=
  isSolid_of_digitsValue (digitsValue_padded width n)

theorem isSolid_intText (n : ℤ) : IsSolid (intText n) := by
  unfold intText
  split <;> simp [show isBlank '-' = false by decide]

end Text

open GridQuery.Text

/-! ## Numbers -/

namespace Binary64

theorem isSolid_signed {s : List Char} (negative : Bool) (h : IsSolid s) :
    IsSolid (signed negative s) := by
  cases negative
  · exact h
  · exact isSolid_cons.2 ⟨by decide, h⟩

theorem isSolid_decimalText (d : ℕ) (k : ℤ) : IsSolid (decimalText d k) := by
  obtain ⟨before, after, -, hvalue, -, htext⟩ := exists_decimalText d k
  obtain ⟨hbefore, hafter⟩ := isSolid_append.1 (isSolid_of_digitsValue hvalue)
  rw [htext, isSolid_append]
  refine ⟨hbefore, ?_⟩
  split
  · exact isSolid_nil
  · exact isSolid_cons.2 ⟨by decide, hafter⟩

theorem isSolid_positional (x : Binary64) : IsSolid x.positional := by
  rw [positional_eq]
  refine isSolid_signed _ ?_
  cases x with
  | nan => simp only [unsignedText, isSolid_cons, isSolid_nil]; decide
  | infinite negative => simp only [unsignedText, isSolid_cons, isSolid_nil]; decide
  | finite negative m q h =>
    obtain ⟨d, k, htext, -⟩ := exists_unsignedText negative h
    rw [htext]
    exact isSolid_decimalText d k

end Binary64

theorem Decimal.isSolid_chars (d : Decimal) : IsSolid d.chars :=
  Binary64.isSolid_signed _ (Binary64.isSolid_decimalText _ _)

/-! ## Instants -/

theorem Date.isSolid_yearText (year : ℤ) : IsSolid (yearText year) := by
  unfold yearText
  split_ifs <;>
    simp [show isBlank '-' = false by decide, show isBlank '+' = false by decide]

theorem isSolid_fractionText (nano : ℕ) : IsSolid (fractionText nano) := by
  unfold fractionText
  split_ifs <;> simp [show isBlank '.' = false by decide]

/-- A pattern without blank marks is written without blanks. -/
theorem Pattern.isSolid_print {p : Pattern} (h : ∀ c, .mark c ∈ p → isBlank c = false)
    (i : Instant) : IsSolid (p.print i) := by
  intro c hc
  obtain ⟨part, hpart, hc⟩ := List.mem_flatMap.1 hc
  cases part with
  | mark d =>
    obtain rfl : c = d := List.mem_singleton.1 hc
    exact h c hpart
  | year => exact Date.isSolid_yearText _ c hc
  | month => exact isSolid_padded _ _ c hc
  | day => exact isSolid_padded _ _ c hc
  | hour => exact isSolid_padded _ _ c hc
  | minute => exact isSolid_padded _ _ c hc
  | second => exact isSolid_padded _ _ c hc
  | fraction => exact isSolid_fractionText _ c hc
  | blanks => cases hc

theorem Granularity.isSolid_text (g : Granularity) (i : Instant) : IsSolid (g.text i).toList := by
  rw [text, String.toList_ofList]
  refine Pattern.isSolid_print (fun c hc => ?_) i
  have hmark : c = '-' ∨ c = 'T' ∨ c = ':' := by
    cases g <;> simp [pattern, Pattern.date] at hc <;> tauto
  rcases hmark with rfl | rfl | rfl <;> decide

theorem Instant.isSolid_text (i : Instant) : IsSolid i.text.toList := by
  rw [text, String.toList_ofList, write, isSolid_append]
  refine ⟨Pattern.isSolid_print (fun c hc => ?_) i, ?_⟩
  · simp [timestamp, Granularity.pattern, Pattern.date] at hc
    rcases hc with rfl | rfl | rfl <;> decide
  · simp only [isSolid_cons, isSolid_nil]
    decide

/-! ## Values -/

namespace Value

/-- The string of a value that holds one. -/
def string? : Value → Option String
  | .text s | .member s => some s
  | _ => none

/-- **A value that holds no string** is written without blanks. -/
theorem isSolid_display {v : Value} (h : v.string? = none) : IsSolid v.display.toList := by
  cases v with
  | whole w n => simpa [display, Whole.text, intString] using isSolid_intText n.val
  | float x => simpa [display, Binary64.text] using x.isSolid_positional
  | decimal d => simpa [display, Decimal.text] using d.isSolid_chars
  | bool b => cases b <;> simp [display] <;> decide
  | instant i => exact i.isSolid_text
  | text s => cases h
  | member s => cases h

end Value

end GridQuery
