import GridQuery.Proofs.Truncation
import GridQuery.Proofs.WrittenNumbers

/-!
# The text of an instant

An instant is written by the pattern of a granularity. Each part of the pattern is read back from
what was written (`PatternPart.read?_print`), and so the text of an instant spells what the clock
shows of it, cut down to the granularity (`Granularity.instant?_text`). The year may be any year of
the calendar, and a leap second after second 59 stays one. Two instants have the same text exactly
when the granularity cuts what is shown of them down to the same instant
(`Granularity.text_eq_iff`).
-/

namespace GridQuery

open GridQuery.Text

/-! ## Digits of a fixed width -/

namespace Text

variable {s t : List Char} {acc n : ℕ}

theorem trimStart_cons {c : Char} (hc : isBlank c = false) (s : List Char) :
    trimStart (c :: s) = c :: s := by
  rw [trimStart, List.dropWhile_cons_of_neg (by simp [hc])]

theorem isBlank_of_isDigit {c : Char} (hc : isDigit c) : isBlank c = false := by
  obtain ⟨d, hd⟩ := Option.isSome_iff_exists.1 hc
  obtain ⟨hlt, rfl⟩ := digit?_eq_some_iff.1 hd
  revert hlt d
  decide

theorem exists_padded_cons (width n : ℕ) : ∃ c rest, padded width n = c :: rest ∧ isDigit c := by
  have hne : padded width n ≠ [] := by simp [padded, numeral_ne_nil]
  obtain ⟨c, rest, hcons⟩ := List.exists_cons_of_ne_nil hne
  refine ⟨c, rest, hcons, isDigit_of_digitsValue (digitsValue_padded width n) ?_⟩
  rw [hcons]
  exact List.mem_cons_self

theorem trimStart_padded (width n : ℕ) (t : List Char) :
    trimStart (padded width n ++ t) = padded width n ++ t := by
  obtain ⟨c, rest, hcons, hc⟩ := exists_padded_cons width n
  rw [hcons]
  exact trimStart_cons (isBlank_of_isDigit hc) _

/-- Digits of a fixed width are read up to that width. -/
theorem readDigits_padded {least width n : ℕ} (hleast : least ≤ width) (hwidth : 0 < width)
    (hn : n < 10 ^ width) (t : List Char) :
    readDigits least width (padded width n ++ t) = some (n, t) := by
  have hlength := length_padded hwidth hn
  have hrun := takeDigits_run (digitsValue_padded width n) hlength.le
    (fun hlt => absurd hlt hlength.not_lt) 0 (t := t)
  simp only [readDigits, hrun]
  rw [if_pos (by omega)]

/-- Digits of any number are read up to their end. -/
theorem readDigits_padded_of_endsRun (width n : ℕ) (ht : EndsRun t) :
    readDigits 1 (padded width n ++ t).length (padded width n ++ t) = some (n, t) := by
  have hrun : takeDigits (padded width n ++ t).length 0 0 (padded width n ++ t) =
      (0 + (padded width n).length, n, t) :=
    takeDigits_run (digitsValue_padded width n) (by simp) (fun _ => ht) 0
  obtain ⟨c, rest, hcons, -⟩ := exists_padded_cons width n
  simp only [readDigits, hrun]
  rw [if_pos (by simp [hcons])]

end Text

/-! ## Parts -/

theorem readYear_of_isDigit {c : Char} (hc : isDigit c) (rest : List Char) :
    readYear (c :: rest) = (readDigits 1 4 (c :: rest)).map fun (n, rest) => ((n : ℤ), rest) := by
  unfold readYear
  split
  · rename_i heq
    obtain rfl := (List.cons.inj heq).1
    exact absurd hc (by decide)
  · rename_i heq
    obtain rfl := (List.cons.inj heq).1
    exact absurd hc (by decide)
  · rfl

/-- A year is read to the end of its digits. -/
theorem readYear_yearText (year : ℤ) {t : List Char} (ht : EndsRun t) :
    readYear (trimStart (Date.yearText year ++ t)) = some (year, t) := by
  unfold Date.yearText
  split_ifs with hnegative hlarge
  · rw [List.cons_append, trimStart_cons (by decide), readYear,
      readDigits_padded_of_endsRun 4 _ ht, Option.map_some]
    simp only [Option.some.injEq, Prod.mk.injEq, and_true]
    omega
  · rw [List.cons_append, trimStart_cons (by decide), readYear,
      readDigits_padded_of_endsRun 4 _ ht, Option.map_some]
    simp only [Option.some.injEq, Prod.mk.injEq, and_true]
    omega
  · obtain ⟨c, rest, hcons, hc⟩ := exists_padded_cons 4 year.natAbs
    have hread : readDigits 1 4 (padded 4 year.natAbs ++ t) = some (year.natAbs, t) :=
      readDigits_padded (by decide) (by decide) (by omega) t
    rw [trimStart_padded]
    rw [hcons, List.cons_append] at hread ⊢
    rw [readYear_of_isDigit hc, hread, Option.map_some]
    simp only [Option.some.injEq, Prod.mk.injEq, and_true]
    omega

namespace PatternPart

/-- What a part of the text of an instant adds to a reading. -/
def store (i : Instant) (r : ClockReading) : PatternPart → ClockReading
  | .year => { r with year := i.date.year }
  | .month => { r with month := i.date.month }
  | .day => { r with day := i.date.day }
  | .hour => { r with hour := i.time.hour }
  | .minute => { r with minute := i.time.minute }
  | .second => { r with second := i.time.shownSecond }
  | .fraction => { r with nano := i.time.shownNano }
  | .mark _ | .blanks => r

/-- What is written for a part is read back. A year has to be followed by something else than a
digit. -/
theorem read?_print {part : PatternPart} (hblanks : part ≠ .blanks) (hfraction : part ≠ .fraction)
    {t : List Char} (hyear : part = .year → EndsRun t) (i : Instant) (r : ClockReading) :
    part.read? r (part.print i ++ t) = some (part.store i r, t) := by
  have hdate := i.date.real
  have htime := i.time.real
  -- All parts but the year have two digits, so what follows does not matter.
  have htwo : ∀ n : ℕ, n < 10 ^ 2 → readDigits 1 2 (trimStart (padded 2 n ++ t)) = some (n, t) :=
    fun n hn => by rw [trimStart_padded, readDigits_padded (by decide) (by decide) hn]
  cases part with
  | year => simp [read?, print, store, readYear_yearText _ (hyear rfl)]
  | month =>
    have hmonth : i.date.month < 10 ^ 2 := by have := hdate.2.1; omega
    simp [read?, print, store, htwo _ hmonth]
  | day =>
    have hday : i.date.day < 10 ^ 2 := by have := i.date.day_le; omega
    simp [read?, print, store, htwo _ hday]
  | hour =>
    have hhour : i.time.hour < 10 ^ 2 := by have := htime.1; omega
    simp [read?, print, store, htwo _ hhour]
  | minute =>
    have hminute : i.time.minute < 10 ^ 2 := by have := htime.2.1; omega
    simp [read?, print, store, htwo _ hminute]
  | second =>
    have hsecond : i.time.shownSecond < 10 ^ 2 := by have := i.time.shownSecond_le; omega
    simp [read?, print, store, htwo _ hsecond]
  | mark c => simp [read?, print, store]
  | blanks => exact absurd rfl hblanks
  | fraction => exact absurd rfl hfraction

end PatternPart

/-! ## Readings -/

/-- No distance from universal time changes nothing. -/
theorem Instant.ofLocal?_zero (d : Date) (t : TimeOfDay) : ofLocal? d t 0 = some ⟨d, t⟩ := by
  obtain ⟨hour, minute, second, nano, hreal⟩ := t
  obtain ⟨hhour, hminute, -⟩ := id hreal
  have hday : ¬ (hour * 60 + minute - 0 : ℤ) < 0 ∧ ¬ (1440 : ℤ) ≤ hour * 60 + minute - 0 := by
    omega
  have hdiv : ((hour * 60 + minute - 0 : ℤ) % 1440).toNat / 60 = hour := by omega
  have hmod : ((hour * 60 + minute - 0 : ℤ) % 1440).toNat % 60 = minute := by omega
  simp only [ofLocal?, if_neg hday.1, if_neg hday.2, hdiv, hmod, Option.bind_some,
    TimeOfDay.ofParts?, dif_pos hreal, Option.map_some]

/-- A date and what a clock shows, when read, are the instant that is shown. -/
theorem ClockReading.instant?_parts (d : Date) (t : TimeOfDay) :
    ClockReading.instant? ⟨d.year, d.month, d.day, t.hour, t.minute, t.shownSecond, t.shownNano⟩ 0 =
      some ⟨d, t.shown⟩ := by
  have hdate : Date.ofYmd? d.year d.month d.day = some d := dif_pos d.real
  rw [instant?, date?, time?, hdate, t.ofClock?_shown, Option.bind_some, Option.bind_some,
    Instant.ofLocal?_zero]

/-! ## Patterns -/

namespace Pattern

/-- Whether the text of the pattern cannot begin with a digit. -/
def endsYear : Pattern → Bool
  | [] => true
  | .mark c :: _ => !isDigit c
  | _ => false

/-- Whether what is written under the pattern can be read back part by part: the end of a year can
be seen, and there are no parts of unknown width. -/
def isReadable : Pattern → Bool
  | [] => true
  | part :: p =>
      part != .blanks && part != .fraction && (part != .year || endsYear p) && isReadable p

theorem endsRun_print {p : Pattern} (h : endsYear p) (i : Instant) : EndsRun (print p i) := by
  unfold endsYear at h
  split at h
  · exact endsRun_nil
  · exact endsRun_cons (by simpa using h) _
  · cases h

/-- **What is written under a pattern** is read back. -/
theorem read?_print {p : Pattern} (h : isReadable p) (i : Instant) (r : ClockReading) :
    read? p r (print p i) = some (p.foldl (PatternPart.store i) r, []) := by
  induction p generalizing r with
  | nil => rfl
  | cons part p ih =>
    simp only [isReadable, Bool.and_eq_true, bne_iff_ne, Bool.or_eq_true] at h
    obtain ⟨⟨⟨hblanks, hfraction⟩, hyear⟩, hp⟩ := h
    have hends : part = .year → EndsRun (print p i) := fun heq =>
      endsRun_print (hyear.resolve_left (not_not.2 heq)) i
    have hprint : print (part :: p) i = part.print i ++ print p i := rfl
    rw [hprint, read?, PatternPart.read?_print hblanks hfraction hends, Option.bind_some]
    exact ih hp _

end Pattern

/-! ## Granularities -/

namespace Granularity

theorem isReadable_pattern (g : Granularity) : g.pattern.isReadable := by
  cases g <;> decide

/-- What is stored on the way is what the clock shows, cut down to the granularity. -/
theorem instant?_stored (g : Granularity) (i : Instant) :
    (g.pattern.foldl (PatternPart.store i) {}).instant? 0 = some (g.cut i.shown) := by
  cases g with
  | date => exact ClockReading.instant?_parts i.date .midnight
  | minute =>
    have hcut : minute.cut i.shown = ⟨i.date, i.time.wholeMinute⟩ :=
      congrArg (Instant.mk i.date) i.time.wholeMinute_shown
    have hread := ClockReading.instant?_parts i.date i.time.wholeMinute
    rw [TimeOfDay.shownSecond_wholeMinute, TimeOfDay.shownNano_wholeMinute,
      TimeOfDay.shown_of_isRegular i.time.isRegular_wholeMinute] at hread
    rw [hcut]
    exact hread
  | second =>
    have hread := ClockReading.instant?_parts i.date i.time.shown.wholeSecond
    rw [TimeOfDay.shownSecond_wholeSecond, TimeOfDay.shownNano_wholeSecond,
      TimeOfDay.shownSecond_shown,
      TimeOfDay.shown_of_isRegular i.time.isRegular_shown.wholeSecond] at hread
    have hclock : i.time.shown.wholeSecond.hour = i.time.hour ∧
        i.time.shown.wholeSecond.minute = i.time.minute := ⟨i.time.hour_shown, i.time.minute_shown⟩
    rw [hclock.1, hclock.2] at hread
    exact hread

/-- **The text of an instant** spells what the clock shows, cut down to the granularity. -/
theorem instant?_text (g : Granularity) (i : Instant) :
    g.pattern.instant? (g.text i).toList = some (g.cut i.shown) := by
  rw [text, String.toList_ofList, Pattern.instant?, Pattern.read?_print g.isReadable_pattern]
  exact g.instant?_stored i

/-- The text depends on what is written for the parts only. -/
theorem text_congr {g : Granularity} {i j : Instant} (hdate : i.date = j.date)
    (htime : g ≠ .date → i.time.hour = j.time.hour ∧ i.time.minute = j.time.minute)
    (hsecond : g = .second → i.time.shownSecond = j.time.shownSecond) : g.text i = g.text j := by
  cases g with
  | date => simp [text, pattern, Pattern.print, Pattern.date, PatternPart.print, hdate]
  | minute =>
    obtain ⟨hhour, hminute⟩ := htime nofun
    simp [text, pattern, Pattern.print, Pattern.date, PatternPart.print, hdate, hhour, hminute]
  | second =>
    obtain ⟨hhour, hminute⟩ := htime nofun
    simp [text, pattern, Pattern.print, Pattern.date, PatternPart.print, hdate, hhour, hminute,
      hsecond rfl]

theorem text_cut (g : Granularity) (i : Instant) : g.text (g.cut i) = g.text i := by
  cases g with
  | date => rfl
  | minute => rfl
  | second => exact text_congr rfl (fun _ => ⟨rfl, rfl⟩) fun _ => i.time.shownSecond_wholeSecond

theorem text_shown (g : Granularity) (i : Instant) : g.text i.shown = g.text i :=
  text_congr rfl (fun _ => ⟨i.time.hour_shown, i.time.minute_shown⟩)
    fun _ => i.time.shownSecond_shown

/-- Instants have the same text when what is shown of them is cut down to the same instant. -/
theorem text_eq_iff {g : Granularity} {i j : Instant} :
    g.text i = g.text j ↔ g.cut i.shown = g.cut j.shown := by
  constructor
  · intro h
    have hread := g.instant?_text i
    rw [h, g.instant?_text j] at hread
    exact (Option.some.inj hread).symm
  · intro h
    rw [← g.text_shown i, ← g.text_shown j, ← g.text_cut i.shown, h, g.text_cut j.shown]

end Granularity

end GridQuery
