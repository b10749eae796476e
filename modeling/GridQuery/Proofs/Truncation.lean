import GridQuery.Predicate.FieldRef
import Mathlib.Tactic.SplitIfs

/-!
# Parts of an instant

What is left of an instant when it is cut down to a granularity, and what a clock shows of it.
Cutting down to the minute goes through instants that might lie out of range, and never does
(`Instant.wholeMinute?_eq`).

A clock shows a leap second as the second after. After second 59 this is second 60, which is no
other time; after any other second it is a time of its own. So an instant is the one its clock shows
exactly when a leap second, if it lies in one, comes after second 59 (`Instant.shown_eq_self_iff`).
-/

namespace GridQuery

/-! ## Times of day -/

namespace TimeOfDay

variable {t : TimeOfDay}

/-- The start of the minute. -/
def wholeMinute (t : TimeOfDay) : TimeOfDay :=
  ⟨t.hour, t.minute, 0, 0, t.real.1, t.real.2.1, by decide, by decide⟩

/-- The start of the second, or of the leap second after it. -/
def wholeSecond (t : TimeOfDay) : TimeOfDay :=
  ⟨t.hour, t.minute, t.second, if t.nano < 1000000000 then 0 else 1000000000, t.real.1, t.real.2.1,
    t.real.2.2.1, by split_ifs <;> decide⟩

/-- Whether the time lies in no leap second, or in one after second 59. -/
def IsRegular (t : TimeOfDay) : Prop := t.nano < 1000000000 ∨ t.second = 59

instance (t : TimeOfDay) : Decidable t.IsRegular := by
  unfold IsRegular
  infer_instance

/-- The time of day that the clock shows: a leap second after another second than 59 is shown as
the second after. -/
def shown (t : TimeOfDay) : TimeOfDay :=
  if h : t.IsRegular then t
  else
    ⟨t.hour, t.minute, t.second + 1, t.nano - 1000000000, by
      have := t.real
      unfold Exists IsRegular at *
      omega⟩

theorem shown_of_isRegular (h : t.IsRegular) : t.shown = t := dif_pos h

theorem isRegular_shown (t : TimeOfDay) : t.shown.IsRegular := by
  unfold shown
  split_ifs with h
  · exact h
  · have hnano := t.real.2.2.2
    exact .inl (show t.nano - 1000000000 < 1000000000 by omega)

/-- A time is the one that its clock shows when it is regular. -/
theorem shown_eq_self_iff : t.shown = t ↔ t.IsRegular :=
  ⟨fun h => h ▸ t.isRegular_shown, shown_of_isRegular⟩

theorem second_shown_eq_iff : t.shown.second = t.second ↔ t.IsRegular := by
  unfold shown
  split_ifs with h
  · exact iff_of_true rfl h
  · exact iff_of_false (Nat.succ_ne_self t.second) h

theorem shownSecond_shown (t : TimeOfDay) : t.shown.shownSecond = t.shownSecond := by
  unfold shown
  split_ifs with h
  · rfl
  · have hnano := t.real.2.2.2
    unfold IsRegular at h
    simp only [shownSecond]
    omega

theorem shownNano_shown (t : TimeOfDay) : t.shown.shownNano = t.shownNano := by
  unfold shown
  split_ifs with h
  · rfl
  · unfold IsRegular at h
    simp only [shownNano]
    omega

theorem hour_shown (t : TimeOfDay) : t.shown.hour = t.hour := by
  unfold shown
  split_ifs <;> rfl

theorem minute_shown (t : TimeOfDay) : t.shown.minute = t.minute := by
  unfold shown
  split_ifs <;> rfl

theorem shownSecond_le (t : TimeOfDay) : t.shownSecond ≤ 60 := by
  obtain ⟨-, -, hsecond, hnano⟩ := t.real
  unfold shownSecond
  omega

theorem shownNano_lt (t : TimeOfDay) : t.shownNano < 1000000000 := Nat.mod_lt _ (by decide)

/-- **What a clock shows** is the time of day that it spells. -/
theorem ofClock?_shown (t : TimeOfDay) :
    ofClock? t.hour t.minute t.shownSecond t.shownNano = some t.shown := by
  obtain ⟨hhour, hminute, hsecond, hnano⟩ := t.real
  rw [ofClock?, if_pos t.shownNano_lt]
  by_cases hleap : t.nano < 1000000000
  · have hsame : t.shownSecond = t.second ∧ t.shownNano = t.nano := by
      unfold shownSecond shownNano
      omega
    rw [hsame.1, hsame.2, if_neg (by omega), shown_of_isRegular (.inl hleap)]
    exact dif_pos t.real
  · have hnext : t.shownSecond = t.second + 1 ∧ t.shownNano = t.nano - 1000000000 := by
      unfold shownSecond shownNano
      omega
    rw [hnext.1, hnext.2]
    by_cases hlast : t.second = 59
    · have hback : 1000000000 + (t.nano - 1000000000) = t.nano := by omega
      rw [if_pos (by omega), hback, shown_of_isRegular (.inr hlast), ← hlast]
      exact dif_pos t.real
    · have hirregular : ¬ t.IsRegular := not_or.2 ⟨hleap, hlast⟩
      rw [if_neg (by omega), shown, dif_neg hirregular]
      exact dif_pos ⟨hhour, hminute, by omega, by omega⟩

/-! ### Whole minutes and seconds -/

theorem wholeMinute_shown (t : TimeOfDay) : t.shown.wholeMinute = t.wholeMinute := by
  simp only [wholeMinute, hour_shown, minute_shown]

theorem isRegular_wholeMinute (t : TimeOfDay) : t.wholeMinute.IsRegular :=
  .inl (show 0 < 1000000000 by decide)

theorem shownSecond_wholeMinute (t : TimeOfDay) : t.wholeMinute.shownSecond = 0 := by
  simp [shownSecond, wholeMinute]

theorem shownNano_wholeMinute (t : TimeOfDay) : t.wholeMinute.shownNano = 0 := by
  simp [shownNano, wholeMinute]

theorem shownSecond_wholeSecond (t : TimeOfDay) : t.wholeSecond.shownSecond = t.shownSecond := by
  have hnano := t.real.2.2.2
  simp only [shownSecond, wholeSecond]
  split_ifs <;> omega

theorem shownNano_wholeSecond (t : TimeOfDay) : t.wholeSecond.shownNano = 0 := by
  simp only [shownNano, wholeSecond]
  split_ifs <;> rfl

theorem IsRegular.wholeSecond (h : t.IsRegular) : t.wholeSecond.IsRegular := by
  refine h.imp (fun hnano => ?_) id
  simp only [TimeOfDay.wholeSecond, if_pos hnano]
  decide

end TimeOfDay

/-! ## Instants -/

theorem Date.first_index_le (d : Date) : Date.first.index ≤ d.index := by
  obtain ⟨⟨hyear, -⟩, ⟨hmonth, -⟩, hday, -⟩ := d.real
  have hleast : (Date.first.year, Date.first.month, Date.first.day) = (firstYear, 1, 1) := rfl
  simp only [Prod.mk.injEq] at hleast
  unfold index
  omega

theorem Date.index_le_last (d : Date) : d.index ≤ Date.last.index := by
  obtain ⟨⟨-, hyear⟩, ⟨-, hmonth⟩, -⟩ := d.real
  have hday := d.day_le
  have hmost : (Date.last.year, Date.last.month, Date.last.day) = (lastYear, 12, 31) := rfl
  simp only [Prod.mk.injEq] at hmost
  unfold index
  omega

namespace Instant

variable {i j : Instant}

/-- The start of the minute. -/
def wholeMinute (i : Instant) : Instant := ⟨i.date, i.time.wholeMinute⟩

/-- The instant that the clock shows. -/
def shown (i : Instant) : Instant := ⟨i.date, i.time.shown⟩

/-- Whether the instant lies in no leap second, or in one after second 59. -/
def IsRegular (i : Instant) : Prop := i.time.IsRegular

instance (i : Instant) : Decidable i.IsRegular := inferInstanceAs (Decidable i.time.IsRegular)

/-- **An instant is the one its clock shows** when it is regular. -/
theorem shown_eq_self_iff : i.shown = i ↔ i.IsRegular := by
  refine ⟨fun h => TimeOfDay.shown_eq_self_iff.1 (congrArg (·.time) h), fun h => ?_⟩
  rw [shown, TimeOfDay.shown_of_isRegular h]

theorem shown_of_isRegular (h : i.IsRegular) : i.shown = i := shown_eq_self_iff.2 h

/-- No time up to the end of the last second is out of range, whatever the date. -/
theorem isInRange_of_index_le (h : i.time.index ≤ TimeOfDay.lastNanosecond.index) :
    i.isInRange := by
  have hfirst := i.date.first_index_le
  have hlast := i.date.index_le_last
  have hnonneg := i.time.index_nonneg
  have hmidnight : TimeOfDay.midnight.index = 0 := rfl
  have hrange : first.index ≤ i.index ∧ i.index ≤ last.index := by
    simp only [index, first, last, TimeOfDay.indices]
    omega
  simpa [isInRange] using hrange

/-- A time in the first second of a minute is never out of range. -/
theorem at?_of_second_zero {t : TimeOfDay} (h : t.second = 0) : i.at? t = some ⟨i.date, t⟩ := by
  obtain ⟨hhour, hminute, -, hnano⟩ := t.real
  refine if_pos (isInRange_of_index_le ?_)
  have hlast : TimeOfDay.lastNanosecond.index = 172798999999999 := by decide
  show t.index ≤ _
  rw [hlast, TimeOfDay.index]
  omega

/-- **Cutting down to the minute** never leaves the range, in a leap second or not. -/
theorem wholeMinute?_eq (i : Instant) : i.wholeMinute? = some i.wholeMinute := by
  obtain ⟨hhour, hminute, -, hnano⟩ := i.time.real
  -- The nanoseconds of a leap second stay while the second is dropped.
  have hsecond : i.time.withSecond? 0 =
      some ⟨i.time.hour, i.time.minute, 0, i.time.nano, hhour, hminute, by decide, hnano⟩ :=
    dif_pos ⟨hhour, hminute, by decide, hnano⟩
  rw [wholeMinute?, hsecond, Option.bind_some, at?_of_second_zero rfl]
  have hminute : TimeOfDay.withNano?
      ⟨i.time.hour, i.time.minute, 0, i.time.nano, hhour, hminute, by decide, hnano⟩ 0 =
        some i.time.wholeMinute :=
    dif_pos i.time.wholeMinute.real
  show Option.bind (TimeOfDay.withNano? _ 0) _ = _
  rw [hminute, Option.bind_some]
  exact at?_of_second_zero rfl

end Instant

/-! ## Granularities -/

namespace Granularity

/-- The instant cut down to a granularity: the start of its date, of its minute or of its second. -/
def cut (g : Granularity) (i : Instant) : Instant :=
  match g with
  | .date => Instant.startOf i.date
  | .minute => i.wholeMinute
  | .second => ⟨i.date, i.time.wholeSecond⟩

/-- Of what the clock shows, only the second may be another one. -/
theorem cut_shown_eq_iff {g : Granularity} {i : Instant} :
    g.cut i.shown = g.cut i ↔ g = .second → i.IsRegular := by
  cases g with
  | date => exact ⟨fun _ => nofun, fun _ => rfl⟩
  | minute => exact ⟨fun _ => nofun, fun _ => congrArg (Instant.mk i.date) i.time.wholeMinute_shown⟩
  | second =>
    refine ⟨fun h _ => ?_, fun h => by rw [Instant.shown_of_isRegular (h rfl)]⟩
    have hsecond : i.time.shown.second = i.time.second := congrArg (fun k : Instant => k.time.second) h
    exact TimeOfDay.second_shown_eq_iff.1 hsecond

end Granularity

/-! ## Fields -/

/-- The start of the minute is there in every value that has an instant. -/
theorem FieldRef.project_wholeMinute (path : String) (v : Value) :
    project ⟨path, .wholeMinute⟩ v = (instant? v).map fun i => .instant i.wholeMinute := by
  show ((instant? v).bind Instant.wholeMinute?).map Operand.instant = _
  cases instant? v with
  | none => rfl
  | some i => rw [Option.bind_some, i.wholeMinute?_eq, Option.map_some, Option.map_some]

end GridQuery
