import GridQuery.Calendar.Rfc3339
import GridQuery.Proofs.ClockText

/-!
# The text of a timestamp

A timestamp shows as many digits of the fraction as the instant needs, so what the clock shows is
read back to the nanosecond (`Instant.read?_write`). A leap second after second 59 stays one. The
reader takes four digits for a year, so the year has to lie between 0 and 9999.
-/

namespace GridQuery

open GridQuery.Text

/-! ## Fractions -/

/-- The digits of a fraction are read up to their end. -/
theorem readFraction_padded {width n : ℕ} {t : List Char} (hwidth : 0 < width) (hnine : width ≤ 9)
    (hn : n < 10 ^ width) (ht : EndsRun t) :
    readFraction (padded width n ++ t) = some (n * tenTo (9 - width), t) := by
  have hlength := length_padded hwidth hn
  have hrun := takeDigits_run (digitsValue_padded width n) (hlength.trans_le hnine)
    (fun _ => ht) 0 (t := t)
  have hdrop : t.dropWhile isDigit = t := by
    cases t with
    | nil => rfl
    | cons c t => exact List.dropWhile_cons_of_neg (ht c rfl)
  simp only [readFraction, hrun, hdrop, hlength, Nat.zero_add]
  rw [if_neg (by omega)]

/-- **A fraction of a second** is read back. What follows may not be a point or a digit. -/
theorem PatternPart.read?_fractionText {r : ClockReading} {nano : ℕ} {t : List Char}
    (hr : r.nano = 0) (hnano : nano < 1000000000) (ht : EndsRun t) (hpoint : t.head? ≠ some '.') :
    PatternPart.fraction.read? r (fractionText nano ++ t) = some ({ r with nano := nano }, t) := by
  -- Digits after a point, however many of them the fraction needs.
  have hdigits : ∀ {width n : ℕ}, 0 < width → width ≤ 9 → n < 10 ^ width →
      n * tenTo (9 - width) = nano →
      PatternPart.fraction.read? r ('.' :: padded width n ++ t) =
        some ({ r with nano := nano }, t) := by
    intro width n hwidth hnine hn hvalue
    rw [List.cons_append, PatternPart.read?, readFraction_padded hwidth hnine hn ht, hvalue]
    rfl
  unfold fractionText
  split_ifs with hzero hmilli hmicro
  · subst hzero
    rw [List.nil_append, PatternPart.read?]
    · rw [← hr]
    · rintro rest rfl
      exact hpoint rfl
  · exact hdigits (by decide) (by decide) (by omega) (by simp [tenTo]; omega)
  · exact hdigits (by decide) (by decide) (by omega) (by simp [tenTo]; omega)
  · exact hdigits (by decide) (by decide) (by omega) (by simp [tenTo])

/-! ## Timestamps -/

namespace Instant

theorem fixed?_padded {width n : ℕ} (hwidth : 0 < width) (hn : n < 10 ^ width) (t : List Char) :
    fixed? width (padded width n ++ t) = some (n, t) :=
  readDigits_padded le_rfl hwidth hn t

/-- A year of four digits has no sign. -/
theorem yearText_of_small {year : ℤ} (hleast : 0 ≤ year) (hmost : year ≤ 9999) :
    Date.yearText year = padded 4 year.natAbs := by
  rw [Date.yearText, if_neg (by omega), if_neg (by omega)]

theorem timestamp_print (i : Instant) : timestamp.print i = Date.yearText i.date.year ++
    '-' :: (padded 2 i.date.month ++ '-' :: (padded 2 i.date.day ++ 'T' ::
      (padded 2 i.time.hour ++ ':' :: (padded 2 i.time.minute ++ ':' ::
        (padded 2 i.time.shownSecond ++ fractionText i.time.shownNano))))) := by
  simp [timestamp, Pattern.print, Granularity.pattern, Pattern.date, PatternPart.print]

/-- What the clock shows has the same timestamp. -/
theorem write_shown (zone : List Char) (i : Instant) : i.shown.write zone = i.write zone := by
  simp [write, timestamp_print, shown, TimeOfDay.hour_shown, TimeOfDay.minute_shown,
    TimeOfDay.shownSecond_shown, TimeOfDay.shownNano_shown]

/-- **A timestamp** with a year of four digits is read as what it shows. -/
theorem read?_write {i : Instant} (hleast : 0 ≤ i.date.year) (hmost : i.date.year ≤ 9999) :
    read? (i.write ['+', '0', '0', ':', '0', '0']) = some i.shown := by
  have hdate := i.date.real
  have htime := i.time.real
  have htwo : ∀ {n : ℕ}, n < 10 ^ 2 → ∀ t, fixed? 2 (padded 2 n ++ t) = some (n, t) :=
    fun hn => fixed?_padded (by decide) hn
  have hfraction : ∀ r : ClockReading, r.nano = 0 →
      PatternPart.fraction.read? r (fractionText i.time.shownNano ++ ['+', '0', '0', ':', '0', '0']) =
        some ({ r with nano := i.time.shownNano }, ['+', '0', '0', ':', '0', '0']) := fun r hr =>
    PatternPart.read?_fractionText hr i.time.shownNano_lt (endsRun_cons (by decide) _) (by decide)
  have hyear : ((i.date.year.natAbs : ℕ) : ℤ) = i.date.year := by omega
  rw [write, timestamp_print, yearText_of_small hleast hmost, List.append_assoc, read?]
  simp only [List.cons_append, List.append_assoc]
  -- Part by part, from the year to the zone.
  refine Option.bind_eq_some_iff.2 ⟨_, fixed?_padded (by decide) (by omega) _, ?_⟩
  refine Option.bind_eq_some_iff.2 ⟨_, rfl, ?_⟩
  refine Option.bind_eq_some_iff.2 ⟨_, htwo (by have := hdate.2.1; omega) _, ?_⟩
  refine Option.bind_eq_some_iff.2 ⟨_, rfl, ?_⟩
  refine Option.bind_eq_some_iff.2 ⟨_, htwo (by have := i.date.day_le; omega) _, ?_⟩
  refine Option.bind_eq_some_iff.2 ⟨_, rfl, ?_⟩
  refine Option.bind_eq_some_iff.2 ⟨_, htwo (by have := htime.1; omega) _, ?_⟩
  refine Option.bind_eq_some_iff.2 ⟨_, rfl, ?_⟩
  refine Option.bind_eq_some_iff.2 ⟨_, htwo (by have := htime.2.1; omega) _, ?_⟩
  refine Option.bind_eq_some_iff.2 ⟨_, rfl, ?_⟩
  refine Option.bind_eq_some_iff.2 ⟨_, htwo (by have := i.time.shownSecond_le; omega) _, ?_⟩
  refine Option.bind_eq_some_iff.2 ⟨_, hfraction _ rfl, ?_⟩
  refine Option.bind_eq_some_iff.2 ⟨(0, []), rfl, ?_⟩
  simp only [hyear]
  exact ClockReading.instant?_parts i.date i.time

end Instant

end GridQuery
