import GridQuery.Proofs.ClockGrammar
import GridQuery.Proofs.Coercion
import GridQuery.Proofs.DecimalText
import GridQuery.Proofs.Timestamp

/-!
# Typing what is shown

What is shown of a value can be typed in again. The text of a whole number, a decimal, a truth
value or a string is read as an equal value, whichever granularity is preferred, and the text of an
instant as what the clock shows (`Value.exists_ofEntry_display`, `Value.ofEntry_instantText`); what
a chip shows of an instant is read as that, cut down to the granularity of the chip
(`Value.ofEntry_granularityText`). Instants are shown in two ways, and each text is read by its own
reader, since no text is read in two ways. A clock shows a leap second after another second than 59
as the second after, and so that second is what is read (`Value.ofEntry_irregular`).
-/

namespace GridQuery

open GridQuery.Text

/-! ## Whole numbers and truth values -/

theorem Text.natural?_numeral (n : ℕ) : natural? (numeral n) = some n := by
  have hvalue := digitsValue_numeral n
  obtain ⟨c, rest, hcons⟩ := List.exists_cons_of_ne_nil (numeral_ne_nil n)
  have hc : isDigit c := isDigit_of_digitsValue hvalue (by rw [hcons]; exact List.mem_cons_self)
  rw [hcons] at hvalue ⊢
  unfold natural?
  split
  · rename_i heq
    obtain rfl := (List.cons.inj heq).1
    exact absurd hc (by decide)
  · exact hvalue

/-- The text of a whole number is read in its range. -/
theorem Whole.ofText?_intText {w : Width} (n : Whole w) : ofText? w (intText n.val) = some n := by
  by_cases hw : w.signed
  · exact (ofText?_eq_some_iff hw).2 (spells_intText n.val)
  · have hleast : w.least = 0 := by cases w <;> first | rfl | exact absurd rfl hw
    have hn : 0 ≤ n.val := hleast ▸ n.fits.1
    have hcast : ((n.val.natAbs : ℕ) : ℤ) = n.val := by omega
    simp only [ofText?, hw, Bool.false_eq_true, if_false]
    rw [intText, if_neg (by omega), natural?_numeral]
    show ofInt? w (n.val.natAbs : ℕ) = some n
    rw [hcast, ofInt?_val]

namespace Value

theorem boolOfText?_display (b : Bool) : boolOfText? (display (.bool b)).toList = some b := by
  cases b <;> decide

/-! ## Values -/

/-- Whether two values are equal: the same, or decimals that compare equal and have the same
scale. Such decimals differ in nothing but the sign of a zero. -/
def Equal (v w : Value) : Prop :=
  v = w ∨ ∃ c d, v = .decimal c ∧ w = .decimal d ∧ c.order d = .eq ∧ c.scale = d.scale

variable {k : Kind} {v w : Value} {f : Granularity} {text : String}

theorem equal_unsignedZero (d : Decimal) : Equal (.decimal d) (.decimal d.unsignedZero) := by
  refine .inr ⟨d, d.unsignedZero, rfl, rfl, ?_, d.scale_unsignedZero.symm⟩
  rw [Decimal.order, Decimal.units_unsignedZero, compare_eq_iff_eq]

/-- A kind that is no string is read by one of the readers of scalars. -/
theorem ofEntry_of_scalar (h : scalarOfText? k f (trim text.toList) = some v) :
    ofEntry k f text = .ok v := by
  cases k with
  | text => cases h
  | enumeration e => cases h
  | _ => simp only [ofEntry, h]

/-- **The text of an instant** is read as what the clock shows. -/
theorem ofEntry_instantText (f : Granularity) {i : Instant} (hleast : 0 ≤ i.date.year)
    (hmost : i.date.year ≤ 9999) :
    ofEntry .dateTime f (display (.instant i)) = .ok (.instant i.shown) := by
  have hread : Instant.readTyped? f i.text.toList = some i.shown := by
    rw [Instant.text, String.toList_ofList]
    exact Instant.readTyped?_eq_some_iff.2
      ⟨_, Instant.mem_readers_iff.2 (.inl rfl), Instant.read?_write hleast hmost⟩
  refine ofEntry_of_scalar ?_
  rw [trim_eq_self (isSolid_display rfl), scalarOfText?, display, hread, Option.map_some]

/-- **What is shown of a value** is read as an equal value of its kind. -/
theorem exists_ofEntry_display (hv : v.matchesKind k) (hfloat : k ≠ .float)
    (henumeration : k.enumeration? = none)
    (hinstant : ∀ i, v = .instant i → 0 ≤ i.date.year ∧ i.date.year ≤ 9999 ∧ i.IsRegular)
    (f : Granularity) : ∃ w, ofEntry k f v.display = .ok w ∧ Equal v w := by
  have htrim : v.string? = none → trim v.display.toList = v.display.toList := fun h =>
    trim_eq_self (isSolid_display h)
  cases k with
  | float => exact absurd rfl hfloat
  | enumeration e => cases henumeration
  | text =>
    obtain ⟨s, rfl⟩ := eq_text_of_matchesKind hv
    exact ⟨_, rfl, .inl rfl⟩
  | whole width =>
    obtain ⟨n, rfl⟩ := eq_whole_of_matchesKind hv
    refine ⟨_, ofEntry_of_scalar ?_, .inl rfl⟩
    rw [htrim rfl, scalarOfText?, display, Whole.text, intString, String.toList_ofList,
      Whole.ofText?_intText, Option.map_some]
  | decimal =>
    obtain ⟨d, rfl⟩ := eq_decimal_of_matchesKind hv
    refine ⟨_, ofEntry_of_scalar ?_, equal_unsignedZero d⟩
    rw [htrim rfl, scalarOfText?, display, Decimal.text, String.toList_ofList,
      Decimal.ofText?_chars, Option.map_some]
  | boolean =>
    obtain ⟨b, rfl⟩ := eq_bool_of_matchesKind hv
    refine ⟨_, ofEntry_of_scalar ?_, .inl rfl⟩
    rw [htrim rfl, scalarOfText?, boolOfText?_display, Option.map_some]
  | dateTime =>
    obtain ⟨i, rfl⟩ := eq_instant_of_matchesKind hv
    obtain ⟨hleast, hmost, hregular⟩ := hinstant i rfl
    refine ⟨_, ofEntry_instantText f hleast hmost, .inl ?_⟩
    rw [Instant.shown_of_isRegular hregular]

/-- **What a chip shows of an instant** is read as what the clock shows, cut down to the
granularity. -/
theorem ofEntry_granularityText (f g : Granularity) (i : Instant) :
    ofEntry .dateTime f (g.text i) = .ok (.instant (g.cut i.shown)) := by
  have hread : Instant.readTyped? f (g.text i).toList = some (g.cut i.shown) :=
    Instant.readTyped?_eq_some_iff.2
      ⟨_, Instant.mem_readers_iff.2 (.inr ⟨g, rfl⟩), g.instant?_text i⟩
  refine ofEntry_of_scalar ?_
  rw [trim_eq_self (g.isSolid_text i), scalarOfText?, hread, Option.map_some]

/-- **Rendered text is read back**, with any granularity preferred. The text of a value of a kind
that is neither a double nor an enumeration is read as an equal value of this kind; an instant
needs a year of four digits for that, and may lie in no leap second but one after second 59. In any
other leap second it is read as what the clock shows, which is another instant. What is shown of an
instant at a granularity, as in the chip of a rule, is read as what the clock shows, cut down to
this granularity, in any year; that is the instant itself cut down, but for the same leap seconds
shown to the second. -/
theorem ofEntry_rendered (f : Granularity) :
    (∀ k v, v.matchesKind k → k ≠ .float → k.enumeration? = none →
      (∀ i, v = .instant i → 0 ≤ i.date.year ∧ i.date.year ≤ 9999 ∧ i.IsRegular) →
      ∃ w, ofEntry k f v.display = .ok w ∧ Equal v w) ∧
    (∀ i : Instant, 0 ≤ i.date.year → i.date.year ≤ 9999 →
      ofEntry .dateTime f (display (.instant i)) = .ok (.instant i.shown)) ∧
    (∀ i : Instant, i.shown = i ↔ i.IsRegular) ∧
    (∀ (g : Granularity) (i : Instant),
      ofEntry .dateTime f (g.text i) = .ok (.instant (g.cut i.shown)) ∧
      (g.cut i.shown = g.cut i ↔ g = .second → i.IsRegular)) ∧
    ∀ (r : Rule) (options : CompileOptions) (i : Instant), r.value = some (.instant i) →
      ofEntry .dateTime f (r.valueText options) =
        .ok (.instant ((r.granularity options).cut i.shown)) := by
  refine ⟨fun k v hv hfloat henumeration hinstant =>
    exists_ofEntry_display hv hfloat henumeration hinstant f,
    fun i hleast hmost => ofEntry_instantText f hleast hmost, fun i => Instant.shown_eq_self_iff,
    fun g i => ⟨ofEntry_granularityText f g i, Granularity.cut_shown_eq_iff⟩, ?_⟩
  intro r options i hvalue
  rw [Rule.valueText, hvalue]
  exact ofEntry_granularityText f _ i

/-- A decimal with a place more than it needs, the nanosecond before the end of a leap second, and
what a chip by the minute shows of a day before the year 0. -/
theorem ofEntry_rendered_leap :
    let price : Decimal := ⟨true, 150, 2, by decide, by decide⟩
    let leap : Instant := ⟨⟨2016, 12, 31, by decide⟩, ⟨23, 59, 59, 1999999999, by decide⟩⟩
    let early : Instant := ⟨⟨-44, 3, 15, by decide⟩, ⟨12, 30, 45, 0, by decide⟩⟩
    let r : Rule := ⟨1, { path := "due", granularity := some .minute }, "due", .lessThan, .dateTime,
      false, some (.instant early), false⟩
    (Value.decimal price).display = "-1.50" ∧
      (∃ w, ofEntry .decimal .date "-1.50" = .ok w ∧ Equal (.decimal price) w) ∧
      (Value.instant leap).display = "2016-12-31T23:59:60.999999999+00:00" ∧
      (∃ w, ofEntry .dateTime .date "2016-12-31T23:59:60.999999999+00:00" = .ok w ∧
        Equal (.instant leap) w) ∧
      r.valueText {} = "-0044-03-15T12:30" ∧
      ofEntry .dateTime .date "-0044-03-15T12:30" = .ok (.instant early.wholeMinute) := by
  intro price leap early r
  obtain ⟨hdisplay, -, -, -, hchip⟩ := ofEntry_rendered .date
  have hprice : (Value.decimal price).display = "-1.50" := by cbv
  have hleap : (Value.instant leap).display = "2016-12-31T23:59:60.999999999+00:00" := by cbv
  have hearly : r.valueText {} = "-0044-03-15T12:30" := by cbv
  refine ⟨hprice, ?_, hleap, ?_, hearly, ?_⟩
  · rw [← hprice]
    refine hdisplay .decimal (.decimal price) rfl (by decide) rfl ?_
    rintro i ⟨⟩
  · rw [← hleap]
    refine hdisplay .dateTime (.instant leap) rfl (by decide) rfl ?_
    rintro i ⟨⟩
    exact ⟨by decide, by decide, by decide⟩
  · rw [← hearly]
    rw [hchip r {} early rfl]
    decide +kernel

/-- **A leap second after second 30.** The clock shows it as second 31, in full and in a chip, and
so it is not read back: neither the value nor the value cut down to the second. -/
theorem ofEntry_irregular :
    let leap : Instant := ⟨⟨2024, 1, 1, by decide⟩, ⟨12, 34, 30, 1500000000, by decide⟩⟩
    (Value.instant leap).matchesKind .dateTime ∧
      (Value.instant leap).display = "2024-01-01T12:34:31.500+00:00" ∧
      (¬ ∃ w, ofEntry .dateTime .second (Value.instant leap).display = .ok w ∧
        Equal (.instant leap) w) ∧
      Granularity.second.text leap = "2024-01-01T12:34:31" ∧
      ofEntry .dateTime .second (Granularity.second.text leap) ≠
        .ok (.instant (Granularity.second.cut leap)) := by
  intro leap
  have hirregular : ¬ leap.IsRegular := by decide
  refine ⟨rfl, by cbv, ?_, by cbv, ?_⟩
  · rw [ofEntry_instantText .second (by decide) (by decide)]
    rintro ⟨w, hw, heq | ⟨c, d, hc, -⟩⟩
    · rw [← heq, Except.ok.injEq, Value.instant.injEq] at hw
      exact hirregular (Instant.shown_eq_self_iff.1 hw)
    · cases hc
  · rw [ofEntry_granularityText, Ne, Except.ok.injEq, Value.instant.injEq]
    exact fun h => hirregular (Granularity.cut_shown_eq_iff.1 h rfl)

end Value

end GridQuery
