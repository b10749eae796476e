import GridQuery.Proofs.Timestamp

/-!
# Timestamps and dates on the wire

The readers for the wire take blanks between the parts of a timestamp, and years of any length.
What the library writes has no blanks, and each number in it ends at a mark, so every part is read
back as it was written (`Pattern.read?_print_append`). Dates come back over the whole calendar, and
instants as the clock shows them, with all their nanoseconds; a leap second after second 59 stays
one (`Instant.readLoose?_zuluText`, `Date.readLoose?_text`).
-/

namespace GridQuery

open GridQuery.Text

namespace Text

variable {c : Char} {t : List Char}

/-- Whether a character ends a number and the blanks behind it. -/
def isStop (c : Char) : Bool := !isDigit c && !isBlank c

/-- Whether a text is at its end or goes on with something else than a digit or a blank. -/
def Stops (t : List Char) : Prop := ∀ c ∈ t.head?, isStop c

theorem stops_nil : Stops [] := nofun

theorem stops_cons (hc : isStop c) (t : List Char) : Stops (c :: t) := by
  rintro _ ⟨⟩
  exact hc

theorem Stops.endsRun (h : Stops t) : EndsRun t := by
  intro c hc
  have hstop := h c hc
  simp_all [isStop]

theorem Stops.trimStart_eq (h : Stops t) : trimStart t = t := by
  cases t with
  | nil => rfl
  | cons c t =>
    have hstop := h c rfl
    refine trimStart_cons ?_ t
    simp_all [isStop]

end Text

/-! ## Patterns with blanks -/

namespace Pattern

variable {p : Pattern} {t : List Char}

/-- Whether what is written under the pattern is nothing, or begins with a mark that ends a
number. -/
def stops : Pattern → Bool
  | [] => true
  | .blanks :: p => stops p
  | .mark c :: _ => isStop c
  | _ => false

/-- Whether what is written under the pattern can be read back in front of a text that stops: where
a year ends, or where blanks could stand, comes a mark. -/
def isLoose : Pattern → Bool
  | [] => true
  | part :: p =>
      part != .fraction && ((part != .year && part != .blanks) || stops p) && isLoose p

theorem stops_print (h : stops p) (i : Instant) (ht : Stops t) : Stops (print p i ++ t) := by
  induction p with
  | nil => exact ht
  | cons part p ih =>
    cases part with
    | blanks => exact ih h
    | mark c => exact stops_cons h _
    | _ => cases h

theorem read?_append (p q : Pattern) (r : ClockReading) (s : List Char) :
    read? (p ++ q) r s = (read? p r s).bind fun (r, rest) => read? q r rest := by
  induction p generalizing r s with
  | nil => rfl
  | cons part p ih =>
    rw [List.cons_append, read?, read?, Option.bind_assoc]
    exact congrArg _ (funext fun x => ih x.1 x.2)

/-- **What is written under a pattern** is read back, in front of any text that stops. -/
theorem read?_print_append (h : isLoose p) (i : Instant) (r : ClockReading) (ht : Stops t) :
    read? p r (print p i ++ t) = some (p.foldl (PatternPart.store i) r, t) := by
  induction p generalizing r with
  | nil => rfl
  | cons part p ih =>
    simp only [isLoose, Bool.and_eq_true, bne_iff_ne, Bool.or_eq_true] at h
    obtain ⟨⟨hfraction, hstops⟩, hp⟩ := h
    have hrest : part = .year ∨ part = .blanks → Stops (print p i ++ t) := by
      intro hpart
      refine stops_print (hstops.resolve_left ?_) i ht
      rintro ⟨hyear, hblanks⟩
      exact hpart.elim hyear hblanks
    have hpart : part.read? r (part.print i ++ (print p i ++ t)) =
        some (part.store i r, print p i ++ t) := by
      by_cases hblanks : part = .blanks
      · subst hblanks
        simp only [PatternPart.read?, PatternPart.print, PatternPart.store, List.nil_append,
          (hrest (.inr rfl)).trimStart_eq]
      · exact PatternPart.read?_print hblanks hfraction
          (fun hyear => (hrest (.inl hyear)).endsRun) i r
    have hprint : print (part :: p) i ++ t = part.print i ++ (print p i ++ t) :=
      List.append_assoc _ _ _
    rw [hprint, read?, hpart, Option.bind_some]
    exact ih hp _

end Pattern

/-! ## Timestamps -/

namespace Instant

/-- The parts of a loose timestamp between the separator and the fraction. -/
def looseClock : Pattern := [.hour, .blanks, .mark ':', .minute, .blanks, .mark ':', .second]

theorem looseTime_eq : looseTime = looseClock ++ [.fraction, .blanks] := rfl

/-- A timestamp is a date, a separator, a time of day and a fraction. -/
theorem write_zulu (i : Instant) : i.write ['Z'] =
    looseDate.print i ++ 'T' :: (looseClock.print i ++ (fractionText i.time.shownNano ++ ['Z'])) := by
  simp [write, timestamp, looseDate, looseClock, Pattern.print, PatternPart.print,
    Granularity.pattern, Pattern.date]

theorem stops_fractionText (nano : ℕ) : Stops (fractionText nano ++ ['Z']) := by
  unfold fractionText
  split_ifs <;> exact stops_cons (by decide) _

/-- The time of day of a timestamp is read back, with its fraction. -/
theorem looseTime_read? {r : ClockReading} (hr : r.nano = 0) (i : Instant) :
    looseTime.read? r (looseClock.print i ++ (fractionText i.time.shownNano ++ ['Z'])) =
      some (looseTime.foldl (PatternPart.store i) r, ['Z']) := by
  have hclock := Pattern.read?_print_append (p := looseClock) (by decide) i r
    (stops_fractionText i.time.shownNano)
  have hfraction := PatternPart.read?_fractionText
    (r := looseClock.foldl (PatternPart.store i) r) hr i.time.shownNano_lt
    (endsRun_cons (by decide) []) (t := ['Z']) (by decide)
  rw [looseTime_eq, Pattern.read?_append, hclock, Option.bind_some]
  exact Option.bind_eq_some_iff.2 ⟨_, hfraction, rfl⟩

/-- **A timestamp on the wire** is read as what it shows. -/
theorem readLoose?_zuluText (i : Instant) : readLoose? i.zuluText.toList = some i.shown := by
  have hdate := Pattern.read?_print_append (p := looseDate) (by decide) i {}
    (stops_cons (c := 'T') (by decide)
      (looseClock.print i ++ (fractionText i.time.shownNano ++ ['Z'])))
  have htime := looseTime_read? (r := looseDate.foldl (PatternPart.store i) {}) rfl i
  rw [zuluText, String.toList_ofList, write_zulu, readLoose?]
  -- The date, the separator, the time of day and the zone.
  refine Option.bind_eq_some_iff.2 ⟨_, hdate, ?_⟩
  refine Option.bind_eq_some_iff.2 ⟨_, rfl, ?_⟩
  refine Option.bind_eq_some_iff.2 ⟨_, htime, ?_⟩
  refine Option.bind_eq_some_iff.2 ⟨(0, []), rfl, ?_⟩
  exact ClockReading.instant?_parts i.date i.time

end Instant

/-! ## Dates -/

namespace Date

/-- **A date on the wire** is read back. -/
theorem readLoose?_text (d : Date) : readLoose? d.text.toList = some d := by
  have hread := Pattern.read?_print_append (p := loosePattern) (by decide) (Instant.startOf d) {}
    stops_nil
  have hprint : loosePattern.print (Instant.startOf d) ++ [] = d.chars := by
    simp [loosePattern, Pattern.print, PatternPart.print, chars, Instant.startOf]
  rw [hprint] at hread
  rw [text, String.toList_ofList, readLoose?, hread]
  exact dif_pos d.real

end Date

end GridQuery
