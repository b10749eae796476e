import GridQuery.Proofs.SolidText
import GridQuery.Rule

/-!
# Which texts spell instants

A typed instant is a timestamp or a text in the pattern of some granularity: there are four
readers, and they take liberties with blanks, signs and the number of digits. Even so no text is
taken by two of them, because the marks in a text give its reader away. A date has no colon, a
minute one and a second two; a timestamp has two colons and the letter of its zone, or three
(`Instant.eq_of_readers`). So it does not matter in which order the readers are tried.

## Main results

* `Pattern.exists_front_of_read?` — what reading a pattern takes off a text.
* `Instant.readTyped?_eq_findSome?` — typed text is read by the four readers in any order.
* `Instant.readTyped?_unambiguous` — the preferred granularity does not matter, and a rule reads
  typed text as the evaluator reads the cells of a record.
-/

namespace GridQuery

namespace Text

variable {s rest u : List Char} {c : Char}

/-! ## Digits -/

/-- What is taken are digits. -/
theorem exists_front_of_takeDigits (max count acc : ℕ) (s : List Char) :
    ∃ u, s = u ++ (takeDigits max count acc s).2.2 ∧
      (takeDigits max count acc s).1 = count + u.length ∧ ∀ c ∈ u, isDigit c := by
  induction s generalizing max count acc with
  | nil => cases max <;> exact ⟨[], by simp [takeDigits]⟩
  | cons c s ih =>
    cases max with
    | zero => exact ⟨[], by simp [takeDigits]⟩
    | succ max =>
      rw [takeDigits]
      split
      · rename_i d hd
        obtain ⟨u, hs, hcount, hu⟩ := ih max (count + 1) (acc * 10 + d)
        refine ⟨c :: u, congrArg (c :: ·) hs, by rw [hcount, List.length_cons]; omega, ?_⟩
        exact List.forall_mem_cons.2 ⟨by rw [isDigit, hd]; rfl, hu⟩
      · exact ⟨[], by simp⟩

theorem exists_front_of_readDigits {least most n : ℕ}
    (h : readDigits least most s = some (n, rest)) :
    ∃ u, s = u ++ rest ∧ least ≤ u.length ∧ ∀ c ∈ u, isDigit c := by
  simp only [readDigits] at h
  split_ifs at h with hleast
  obtain ⟨u, hs, hk, hu⟩ := exists_front_of_takeDigits most 0 0 s
  simp only [Option.some.injEq, Prod.mk.injEq] at h
  exact ⟨u, h.2 ▸ hs, by omega, hu⟩

/-! ## Numbers in patterns -/

/-- Whether a text can stand for a number in a pattern: it ends with a digit, and it has nothing
but digits, blanks and signs. -/
structure IsField (u : List Char) : Prop where
  chars : ∀ c ∈ u, isDigit c ∨ isBlank c ∨ c = '+' ∨ c = '-'
  last : ∃ c, u.getLast? = some c ∧ isDigit c

theorem IsField.append (hu : IsField u) (hs : ∀ c ∈ s, isBlank c ∨ c = '+' ∨ c = '-') :
    IsField (s ++ u) := by
  obtain ⟨c, hc, hdigit⟩ := hu.last
  refine ⟨fun d hd => ?_, c, by simp [List.getLast?_append, hc], hdigit⟩
  rcases List.mem_append.1 hd with hd | hd
  · exact .inr (hs d hd)
  · exact hu.chars d hd

theorem exists_field_of_readDigits {least most n : ℕ} (hleast : 1 ≤ least)
    (h : readDigits least most s = some (n, rest)) : ∃ u, s = u ++ rest ∧ IsField u := by
  obtain ⟨u, hs, hlength, hu⟩ := exists_front_of_readDigits h
  have hne : u ≠ [] := List.ne_nil_of_length_pos (by omega)
  exact ⟨u, hs, fun c hc => .inl (hu c hc), _, List.getLast?_eq_some_getLast hne,
    hu _ (List.getLast_mem hne)⟩

/-- Blanks in front of a number belong to it. -/
theorem exists_field_of_trimStart (h : ∃ u, trimStart s = u ++ rest ∧ IsField u) :
    ∃ u, s = u ++ rest ∧ IsField u := by
  obtain ⟨u, hu, hfield⟩ := h
  refine ⟨s.takeWhile isBlank ++ u, ?_, hfield.append fun c hc => ?_⟩
  · rw [List.append_assoc, ← hu]
    exact List.takeWhile_append_dropWhile.symm
  · exact .inl (List.mem_takeWhile_imp hc)

theorem exists_field_of_readYear {n : ℤ} (h : readYear s = some (n, rest)) :
    ∃ u, s = u ++ rest ∧ IsField u := by
  unfold readYear at h
  split at h
  all_goals
    obtain ⟨⟨k, t⟩, hread, heq⟩ := Option.map_eq_some_iff.1 h
    obtain rfl : t = rest := congrArg Prod.snd heq
    obtain ⟨u, rfl, hfield⟩ := exists_field_of_readDigits le_rfl hread
  · exact ⟨'-' :: u, rfl, hfield.append (s := ['-']) (by simp)⟩
  · exact ⟨'+' :: u, rfl, hfield.append (s := ['+']) (by simp)⟩
  · exact ⟨u, rfl, hfield⟩

/-- Whether a character can stand in a pattern as a mark only. -/
def IsMark (c : Char) : Prop := ¬ isDigit c ∧ ¬ isBlank c ∧ c ≠ '+' ∧ c ≠ '-'

theorem isMark_colon : IsMark ':' := ⟨by decide, by decide, by decide, by decide⟩

theorem isMark_zulu : IsMark 'Z' ∧ IsMark 'z' :=
  ⟨⟨by decide, by decide, by decide, by decide⟩, ⟨by decide, by decide, by decide, by decide⟩⟩

theorem IsField.count_eq_zero (h : IsField u) (hc : IsMark c) : u.count c = 0 := by
  refine List.count_eq_zero.2 fun hmem => ?_
  rcases h.chars c hmem with hdigit | hblank | hplus | hminus
  · exact hc.1 hdigit
  · exact hc.2.1 hblank
  · exact hc.2.2.1 hplus
  · exact hc.2.2.2 hminus

end Text

open GridQuery.Text

/-! ## Patterns -/

namespace PatternPart

/-- Whether a part of a pattern is a number. -/
def isNumber : PatternPart → Bool
  | .mark _ | .blanks | .fraction => false
  | _ => true

theorem exists_field_of_read? {part : PatternPart} (hpart : part.isNumber) {r r' : ClockReading}
    {s rest : List Char} (h : part.read? r s = some (r', rest)) :
    ∃ u, s = u ++ rest ∧ IsField u := by
  cases part
  case mark | blanks | fraction => cases hpart
  case year =>
    obtain ⟨⟨n, t⟩, hread, heq⟩ := Option.map_eq_some_iff.1 h
    obtain rfl : t = rest := congrArg Prod.snd heq
    exact exists_field_of_trimStart (exists_field_of_readYear hread)
  all_goals
    obtain ⟨⟨n, t⟩, hread, heq⟩ := Option.map_eq_some_iff.1 h
    obtain rfl : t = rest := congrArg Prod.snd heq
    exact exists_field_of_trimStart (exists_field_of_readDigits le_rfl hread)

theorem of_read?_mark {c : Char} {r r' : ClockReading} {s rest : List Char}
    (h : (mark c).read? r s = some (r', rest)) : s = c :: rest := by
  simp only [read?] at h
  split at h
  · cases h
  · split_ifs at h with hd
    cases h
    rw [hd]

end PatternPart

namespace Pattern

/-- Whether a pattern ends with a number. -/
def endsInNumber (p : Pattern) : Bool := p.getLast?.any PatternPart.isNumber

/-- **What reading a pattern takes off a text** has the marks of the pattern, and a digit at its
end if the pattern ends with a number. -/
theorem exists_front_of_read? {p : Pattern} (hp : p.isReadable) {r r' : ClockReading}
    {s rest : List Char} (h : p.read? r s = some (r', rest)) :
    ∃ u, s = u ++ rest ∧ (∀ c, IsMark c → u.count c = p.count (.mark c)) ∧
      (p.endsInNumber → ∃ c, u.getLast? = some c ∧ isDigit c) := by
  induction p generalizing r s with
  | nil =>
    cases h
    exact ⟨[], rfl, by simp, fun hends => absurd hends Bool.false_ne_true⟩
  | cons part p ih =>
    simp only [isReadable, Bool.and_eq_true, bne_iff_ne, Bool.or_eq_true] at hp
    obtain ⟨⟨⟨hblanks, hfraction⟩, -⟩, hp⟩ := hp
    obtain ⟨⟨r₁, t⟩, hpart, hrest⟩ := Option.bind_eq_some_iff.1 h
    obtain ⟨u, rfl, hcount, hlast⟩ := ih hp hrest
    -- The front of one part, with its marks; a number among the parts ends with a digit.
    have hfront : ∃ v, s = v ++ (u ++ rest) ∧
        (∀ c, IsMark c → v.count c = [part].count (.mark c)) ∧
        (part.isNumber → ∃ c, v.getLast? = some c ∧ isDigit c) := by
      by_cases hnumber : part.isNumber
      · obtain ⟨v, hv, hfield⟩ := PatternPart.exists_field_of_read? hnumber hpart
        refine ⟨v, hv, fun c hc => ?_, fun _ => hfield.last⟩
        have hne : part ≠ .mark c := by
          rintro rfl
          cases hnumber
        rw [hfield.count_eq_zero hc, List.count_singleton, if_neg (by simpa using hne)]
      · cases part
        case mark d =>
          refine ⟨[d], PatternPart.of_read?_mark hpart, fun c _ => ?_, fun h => absurd h hnumber⟩
          rw [List.count_singleton, List.count_singleton]
          simp
        case blanks => exact absurd rfl hblanks
        case fraction => exact absurd rfl hfraction
        all_goals exact absurd rfl hnumber
    obtain ⟨v, hs, hcountPart, hlastPart⟩ := hfront
    refine ⟨v ++ u, by rw [hs, List.append_assoc], fun c hc => ?_, fun hends => ?_⟩
    · rw [List.count_append, hcountPart c hc, hcount c hc, ← List.count_append,
        List.singleton_append]
    · cases p with
      | nil =>
        obtain rfl : u = [] :=
          List.append_left_eq_self.1 (congrArg Prod.snd (Option.some.inj hrest))
        simpa using hlastPart (by simpa [endsInNumber] using hends)
      | cons next p =>
        obtain ⟨c, hc, hdigit⟩ := hlast (by simpa [endsInNumber] using hends)
        exact ⟨c, by simp [List.getLast?_append, hc], hdigit⟩

end Pattern

namespace Granularity

variable {g g' : Granularity} {s : List Char} {i j : Instant}

theorem exists_read?_of_instant? (h : g.pattern.instant? s = some i) :
    ∃ r, g.pattern.read? {} s = some (r, []) := by
  unfold Pattern.instant? at h
  split at h
  · exact ⟨_, ‹_›⟩
  · cases h

/-- The marks in a text of a granularity are those of its pattern. -/
theorem count_of_instant? (h : g.pattern.instant? s = some i) {c : Char} (hc : IsMark c) :
    s.count c = g.pattern.count (.mark c) := by
  obtain ⟨r, hr⟩ := exists_read?_of_instant? h
  obtain ⟨u, rfl, hcount, -⟩ := Pattern.exists_front_of_read? g.isReadable_pattern hr
  rw [List.append_nil]
  exact hcount c hc

/-- A text of a granularity ends with a digit. -/
theorem last_of_instant? (h : g.pattern.instant? s = some i) :
    ∃ c, s.getLast? = some c ∧ isDigit c := by
  obtain ⟨r, hr⟩ := exists_read?_of_instant? h
  obtain ⟨u, rfl, -, hlast⟩ := Pattern.exists_front_of_read? g.isReadable_pattern hr
  rw [List.append_nil]
  exact hlast (by cases g <;> rfl)

/-- **No text belongs to two granularities.** -/
theorem eq_of_instant? (h : g.pattern.instant? s = some i) (h' : g'.pattern.instant? s = some j) :
    g = g' := by
  have hcolons := (count_of_instant? h isMark_colon).symm.trans (count_of_instant? h' isMark_colon)
  revert hcolons
  cases g <;> cases g' <;> decide

/-- Blanks in front of a text of a granularity do not count. -/
theorem instant?_trimStart (g : Granularity) (s : List Char) :
    g.pattern.instant? (trimStart s) = g.pattern.instant? s := by
  have hidem : trimStart (trimStart s) = trimStart s := List.dropWhile_idempotent _ _
  cases g <;>
    simp only [Pattern.instant?, pattern, Pattern.date, List.cons_append, Pattern.read?,
      PatternPart.read?, hidem]

end Granularity

/-! ## Timestamps -/

namespace Instant

variable {s rest : List Char} {i j : Instant}

theorem of_mark? {c : Char} (h : mark? c s = some rest) : s = c :: rest := by
  unfold mark? at h
  split at h
  · cases h
  · split_ifs at h with hd
    cases h
    rw [hd]

theorem of_separator? (h : separator? s = some rest) :
    ∃ c, s = c :: rest ∧ c ≠ ':' := by
  unfold separator? at h
  split at h
  · split_ifs at h with hc
    cases h
    exact ⟨_, rfl, by rcases hc with rfl | rfl | rfl <;> decide⟩
  · cases h

theorem of_colon? (h : colon? s = some rest) : s = ':' :: rest := by
  unfold colon? at h
  split at h
  · cases h
    rfl
  · cases h

theorem count_colon_of_digits {u : List Char} (hu : ∀ c ∈ u, isDigit c) : u.count ':' = 0 :=
  List.count_eq_zero.2 fun h => isMark_colon.1 (hu _ h)

/-- The zone at the end of a timestamp is a letter, or it has a colon and ends with a digit. -/
theorem of_readZone? {offset : ℤ} (h : readZone? colon? s = some (offset, [])) :
    s = ['Z'] ∨ s = ['z'] ∨ s.count ':' = 1 ∧ ∃ c, s.getLast? = some c ∧ isDigit c := by
  unfold readZone? at h
  split at h
  · cases h
  · rename_i c t
    by_cases hletter : c = 'Z' ∨ c = 'z'
    · rw [if_pos hletter] at h
      obtain rfl : t = [] := congrArg Prod.snd (Option.some.inj h)
      rcases hletter with rfl | rfl
      · exact .inl rfl
      · exact .inr (.inl rfl)
    · rw [if_neg hletter] at h
      split at h
      · rename_i hsign
        obtain ⟨⟨hours, t₁⟩, hhours, h⟩ := Option.bind_eq_some_iff.1 h
        obtain ⟨t₂, hcolon, h⟩ := Option.bind_eq_some_iff.1 h
        obtain ⟨⟨minutes, t₃⟩, hminutes, h⟩ := Option.bind_eq_some_iff.1 h
        simp only at h
        split at h
        · obtain rfl : t₃ = [] := congrArg Prod.snd (Option.some.inj h)
          obtain ⟨u, rfl, -, hu⟩ := exists_front_of_readDigits hhours
          obtain ⟨v, rfl, hlength, hv⟩ := exists_front_of_readDigits hminutes
          rw [of_colon? hcolon, List.append_nil]
          have hne : v ≠ [] := List.ne_nil_of_length_pos (by omega)
          have hc : c ≠ ':' := by rcases hsign with rfl | rfl | rfl <;> decide
          refine .inr (.inr ⟨?_, v.getLast hne, ?_, hv _ (List.getLast_mem hne)⟩)
          · rw [List.count_cons_of_ne hc, List.count_append, List.count_cons_self,
              count_colon_of_digits hu, count_colon_of_digits hv]
          · rw [← List.cons_append, List.getLast?_append, List.getLast?_cons,
              List.getLast?_eq_some_getLast hne]
            rfl
        · cases h
      · cases h

/-- The digits of a fraction have no colon. -/
theorem of_read?_fraction {r r' : ClockReading}
    (h : PatternPart.fraction.read? r s = some (r', rest)) :
    ∃ u, s = u ++ rest ∧ u.count ':' = 0 := by
  simp only [PatternPart.read?] at h
  split at h
  · rename_i t
    obtain ⟨⟨n, t'⟩, hread, heq⟩ := Option.map_eq_some_iff.1 h
    obtain rfl : t' = rest := congrArg Prod.snd heq
    simp only [readFraction] at hread
    split_ifs at hread
    obtain ⟨u, hu, -, hdigits⟩ := exists_front_of_takeDigits 9 0 0 t
    simp only [Option.some.injEq, Prod.mk.injEq] at hread
    have hmore := List.takeWhile_append_dropWhile (p := isDigit) (l := (takeDigits 9 0 0 t).2.2)
    rw [hread.2] at hmore
    refine ⟨'.' :: u ++ (takeDigits 9 0 0 t).2.2.takeWhile isDigit, ?_, ?_⟩
    · rw [List.append_assoc, hmore, List.cons_append, ← hu]
    · rw [List.count_append, List.count_cons_of_ne (by decide), count_colon_of_digits hdigits,
        count_colon_of_digits fun c hc => List.mem_takeWhile_imp hc]
  · cases h
    exact ⟨[], rfl, rfl⟩

/-- A timestamp begins with a digit, and it has two colons in front of its zone. -/
theorem exists_zone_of_read? (h : read? s = some i) : ∃ u zone offset, s = u ++ zone ∧
    (∃ c, u.head? = some c ∧ isDigit c) ∧ u.count ':' = 2 ∧
      readZone? colon? zone = some (offset, []) := by
  rw [read?] at h
  obtain ⟨⟨year, s₁⟩, hyear, h⟩ := Option.bind_eq_some_iff.1 h
  obtain ⟨s₂, hmark, h⟩ := Option.bind_eq_some_iff.1 h
  obtain ⟨⟨month, s₃⟩, hmonth, h⟩ := Option.bind_eq_some_iff.1 h
  obtain ⟨s₄, hmark', h⟩ := Option.bind_eq_some_iff.1 h
  obtain ⟨⟨day, s₅⟩, hday, h⟩ := Option.bind_eq_some_iff.1 h
  obtain ⟨s₆, hseparator, h⟩ := Option.bind_eq_some_iff.1 h
  obtain ⟨⟨hour, s₇⟩, hhour, h⟩ := Option.bind_eq_some_iff.1 h
  obtain ⟨s₈, hcolon, h⟩ := Option.bind_eq_some_iff.1 h
  obtain ⟨⟨minute, s₉⟩, hminute, h⟩ := Option.bind_eq_some_iff.1 h
  obtain ⟨s₁₀, hcolon', h⟩ := Option.bind_eq_some_iff.1 h
  obtain ⟨⟨second, s₁₁⟩, hsecond, h⟩ := Option.bind_eq_some_iff.1 h
  obtain ⟨⟨r, zone⟩, hfraction, h⟩ := Option.bind_eq_some_iff.1 h
  obtain ⟨⟨offset, rest⟩, hzone, h⟩ := Option.bind_eq_some_iff.1 h
  have hend : rest = [] := by
    simp only at h
    split at h
    · exact List.isEmpty_iff.1 ‹_›
    · cases h
  subst hend
  obtain ⟨y, rfl, hlength, hy⟩ := exists_front_of_readDigits hyear
  obtain rfl := of_mark? hmark
  obtain ⟨m, rfl, -, hm⟩ := exists_front_of_readDigits hmonth
  obtain rfl := of_mark? hmark'
  obtain ⟨d, rfl, -, hd⟩ := exists_front_of_readDigits hday
  obtain ⟨t, rfl, ht⟩ := of_separator? hseparator
  obtain ⟨hh, rfl, -, hhh⟩ := exists_front_of_readDigits hhour
  obtain rfl := of_mark? hcolon
  obtain ⟨mm, rfl, -, hmm⟩ := exists_front_of_readDigits hminute
  obtain rfl := of_mark? hcolon'
  obtain ⟨ss, rfl, -, hss⟩ := exists_front_of_readDigits hsecond
  obtain ⟨f, rfl, hf⟩ := of_read?_fraction hfraction
  refine ⟨y ++ '-' :: (m ++ '-' :: (d ++ t :: (hh ++ ':' :: (mm ++ ':' :: (ss ++ f))))), zone,
    offset, by simp, ?_, ?_, hzone⟩
  · obtain ⟨c, y, rfl⟩ := List.exists_cons_of_length_pos (by omega : 0 < y.length)
    exact ⟨c, rfl, hy c List.mem_cons_self⟩
  · have hdash : '-' ≠ ':' := by decide
    simp only [List.count_append, List.count_cons_self, List.count_cons_of_ne hdash,
      List.count_cons_of_ne ht, count_colon_of_digits hy, count_colon_of_digits hm,
      count_colon_of_digits hd, count_colon_of_digits hhh, count_colon_of_digits hmm,
      count_colon_of_digits hss, hf, Nat.zero_add]

/-- The colons and the zone of a timestamp show that it is one. -/
theorem marks_of_read? (h : read? s = some i) :
    s.count ':' = 3 ∨ s.count ':' = 2 ∧ ('Z' ∈ s ∨ 'z' ∈ s) := by
  obtain ⟨u, zone, offset, rfl, -, hcolons, hzone⟩ := exists_zone_of_read? h
  rw [List.count_append, hcolons]
  rcases of_readZone? hzone with rfl | rfl | ⟨hcolon, -⟩
  · exact .inr ⟨rfl, .inl (by simp)⟩
  · exact .inr ⟨rfl, .inr (by simp)⟩
  · exact .inl (by rw [hcolon])

/-- **A timestamp belongs to no granularity.** -/
theorem instant?_of_read? (h : read? s = some i) (g : Granularity) :
    g.pattern.instant? s = none := by
  refine Option.eq_none_iff_forall_ne_some.2 fun j hj => ?_
  have hcolons := Granularity.count_of_instant? hj isMark_colon
  have hletter : ∀ c, IsMark c → PatternPart.mark c ∉ g.pattern → c ∉ s := fun c hc hg =>
    List.count_eq_zero.1 ((Granularity.count_of_instant? hj hc).trans (List.count_eq_zero.2 hg))
  rcases marks_of_read? h with hthree | ⟨-, hupper | hlower⟩
  · rw [hthree] at hcolons
    revert hcolons
    cases g <;> decide
  · exact hletter 'Z' isMark_zulu.1 (by cases g <;> decide) hupper
  · exact hletter 'z' isMark_zulu.2 (by cases g <;> decide) hlower

theorem trim_of_read? (h : read? s = some i) : trim s = s := by
  obtain ⟨u, zone, offset, rfl, ⟨c, hc, hdigit⟩, -, hzone⟩ := exists_zone_of_read? h
  obtain ⟨u, rfl⟩ := List.head?_eq_some_iff.1 hc
  have hlast : ∃ d, zone.getLast? = some d ∧ isBlank d = false := by
    rcases of_readZone? hzone with rfl | rfl | ⟨-, d, hd, hdigit⟩
    · exact ⟨'Z', rfl, by decide⟩
    · exact ⟨'z', rfl, by decide⟩
    · exact ⟨d, hd, isBlank_of_isDigit hdigit⟩
  obtain ⟨d, hd, hblank⟩ := hlast
  rw [trim_eq_trimStart (c := d) (by rw [List.getLast?_append, hd]; rfl) hblank, List.cons_append,
    trimStart_cons (isBlank_of_isDigit hdigit)]

end Instant

/-! ## Readers -/

/-- Where no two elements of a list have different results, the first result is any result. -/
theorem findSome?_eq_some_iff_exists {α β : Type} {f : α → Option β} {xs : List α}
    (h : ∀ x ∈ xs, ∀ y ∈ xs, ∀ a b, f x = some a → f y = some b → a = b) {a : β} :
    xs.findSome? f = some a ↔ ∃ x ∈ xs, f x = some a := by
  constructor
  · exact List.exists_of_findSome?_eq_some
  · rintro ⟨x, hx, ha⟩
    obtain ⟨b, hb⟩ := Option.isSome_iff_exists.1
      (List.findSome?_isSome_iff.2 ⟨x, hx, by rw [ha]; rfl⟩ : (xs.findSome? f).isSome)
    obtain ⟨y, hy, hyb⟩ := List.exists_of_findSome?_eq_some hb
    rw [hb, h x hx y hy a b ha hyb]

namespace Instant

variable {s : List Char} {g : Granularity} {i j : Instant}

/-- The ways to read a typed instant: as a timestamp, or in the pattern of a granularity. -/
def readers : List (List Char → Option Instant) :=
  read? :: Granularity.all.map fun g => g.pattern.instant?

theorem mem_readers_iff {a : List Char → Option Instant} :
    a ∈ readers ↔ a = read? ∨ ∃ g : Granularity, a = g.pattern.instant? := by
  have hall : ∀ g : Granularity, g ∈ Granularity.all := by intro g; cases g <;> decide
  rw [readers, List.mem_cons, List.mem_map]
  refine or_congr_right ⟨?_, ?_⟩
  · rintro ⟨g, -, rfl⟩
    exact ⟨g, rfl⟩
  · rintro ⟨g, rfl⟩
    exact ⟨g, hall g, rfl⟩

/-- **No text is read in two ways.** -/
theorem eq_of_readers {a b : List Char → Option Instant} (ha : a ∈ readers) (hb : b ∈ readers)
    (hi : a s = some i) (hj : b s = some j) : i = j := by
  rcases mem_readers_iff.1 ha with rfl | ⟨g, rfl⟩ <;>
    rcases mem_readers_iff.1 hb with rfl | ⟨g', rfl⟩
  · exact Option.some.inj (hi.symm.trans hj)
  · rw [instant?_of_read? hi g'] at hj
    cases hj
  · rw [instant?_of_read? hj g] at hi
    cases hi
  · obtain rfl := Granularity.eq_of_instant? hi hj
    exact Option.some.inj (hi.symm.trans hj)

/-- The readers in the order in which they are tried. -/
theorem readTyped?_eq_findSome?_preferred (g : Granularity) (s : List Char) :
    readTyped? g s = (read? :: (g :: Granularity.all.filter (· ≠ g)).map
      fun g => g.pattern.instant?).findSome? fun a => a s := by
  have hmap : ∀ gs : List Granularity,
      (gs.map fun g => g.pattern.instant?).findSome? (fun a => a s) =
        gs.findSome? fun g => g.pattern.instant? s := fun gs => List.findSome?_map ..
  rw [readTyped?, ← hmap, List.findSome?_cons]
  cases read? s <;> rfl

/-- **Typed text is read by the readers in any order.** -/
theorem readTyped?_eq_findSome? {order : List (List Char → Option Instant)}
    (h : order.Perm readers) (g : Granularity) (s : List Char) :
    readTyped? g s = order.findSome? fun a => a s := by
  have hpreferred : (read? :: (g :: Granularity.all.filter (· ≠ g)).map
      fun g => g.pattern.instant?).Perm readers := by
    refine List.Perm.cons _ (List.Perm.map _ ?_)
    cases g <;> decide
  have hiff : ∀ {order : List (List Char → Option Instant)}, order.Perm readers →
      ∀ i, order.findSome? (fun a => a s) = some i ↔ ∃ a ∈ readers, a s = some i := by
    intro order horder i
    rw [findSome?_eq_some_iff_exists fun a ha b hb i j =>
      eq_of_readers (horder.mem_iff.1 ha) (horder.mem_iff.1 hb)]
    simp only [horder.mem_iff]
  rw [readTyped?_eq_findSome?_preferred]
  exact Option.ext fun i => (hiff hpreferred i).trans (hiff h i).symm

theorem readTyped?_eq_some_iff :
    readTyped? g s = some i ↔ ∃ a ∈ readers, a s = some i := by
  rw [readTyped?_eq_findSome? (List.Perm.refl _)]
  exact findSome?_eq_some_iff_exists fun a ha b hb i j => eq_of_readers ha hb

theorem readTyped?_preferred (g g' : Granularity) (s : List Char) :
    readTyped? g s = readTyped? g' s := by
  rw [readTyped?_eq_findSome? (List.Perm.refl _), readTyped?_eq_findSome? (List.Perm.refl _)]

/-- What can be read is read without the blanks around it too. -/
theorem readTyped?_trim (h : readTyped? g s = some i) : readTyped? g (trim s) = some i := by
  obtain ⟨a, ha, hi⟩ := readTyped?_eq_some_iff.1 h
  refine readTyped?_eq_some_iff.2 ⟨a, ha, ?_⟩
  rcases mem_readers_iff.1 ha with rfl | ⟨g', rfl⟩
  · rwa [trim_of_read? hi]
  · obtain ⟨c, hc, hdigit⟩ := Granularity.last_of_instant? hi
    rwa [trim_eq_trimStart hc (isBlank_of_isDigit hdigit), Granularity.instant?_trimStart]

end Instant

/-! ## Entries and cells -/

/-- An instant is read from typed text without the blanks around it. -/
theorem Value.ofEntry_dateTime (g : Granularity) (text : String) :
    ofEntry .dateTime g text =
      match Instant.readTyped? g (trim text.toList) with
      | some i => .ok (.instant i)
      | none => .error (.unreadable text Kind.dateTime.name) := by
  simp only [ofEntry, scalarOfText?]
  cases Instant.readTyped? g (trim text.toList) <;> rfl

namespace Rule

variable {r : Rule} {text : String}

/-- A rule reads typed text as the evaluator reads a cell that holds the text without the blanks
around it. -/
theorem setText_dateTime (hr : r.kind = .dateTime) (text : String) :
    (∀ i, FieldRef.instant? (.text (String.ofList (trim text.toList))) = some i →
      r.setText text = .ok (r.setValue (.instant i))) ∧
    (FieldRef.instant? (.text (String.ofList (trim text.toList))) = none →
      ∃ e, r.setText text = .error e) := by
  have hcell : FieldRef.instant? (.text (String.ofList (trim text.toList))) =
      Instant.readTyped? r.column.entryGranularity (trim text.toList) := by
    rw [FieldRef.instant?, Operand.instantOfText?, String.toList_ofList]
    exact Instant.readTyped?_preferred _ _ _
  rw [hcell, setText, hr, Value.ofEntry_dateTime]
  constructor
  · intro i hi
    rw [hi]
  · intro hnone
    rw [hnone]
    exact ⟨_, rfl⟩

end Rule

/-- **The preferred granularity does not matter.** Whatever the text, no two of the four readers
read it as different instants; so they can be tried in any order, and with any granularity
preferred the same instant is found, or none. Therefore a rule on instants takes a typed text for
what the evaluator takes it for in a cell of a record, although the rule prefers the granularity
of its column and the evaluator that of all columns. Only the blanks around the text differ: the
rule drops them first, and so it reads whatever the evaluator reads, and more. -/
theorem Instant.readTyped?_unambiguous (text : String) :
    (∀ f g, readTyped? f text.toList = readTyped? g text.toList) ∧
    (∀ a ∈ readers, ∀ b ∈ readers, ∀ i j, a text.toList = some i → b text.toList = some j →
      i = j) ∧
    (∀ order : List (List Char → Option Instant), order.Perm readers → ∀ g,
      readTyped? g text.toList = order.findSome? fun a => a text.toList) ∧
    ∀ r : Rule, r.kind = .dateTime →
      (∀ i, FieldRef.instant? (.text (String.ofList (trim text.toList))) = some i →
        r.setText text = .ok (r.setValue (.instant i))) ∧
      (FieldRef.instant? (.text (String.ofList (trim text.toList))) = none →
        ∃ e, r.setText text = .error e) ∧
      ∀ i, FieldRef.instant? (.text text) = some i →
        r.setText text = .ok (r.setValue (.instant i)) := by
  refine ⟨fun f g => readTyped?_preferred f g _, fun a ha b hb i j => eq_of_readers ha hb,
    fun order horder g => readTyped?_eq_findSome? horder g _, fun r hr => ?_⟩
  obtain ⟨hsome, hnone⟩ := r.setText_dateTime hr text
  refine ⟨hsome, hnone, fun i hi => hsome i ?_⟩
  rw [FieldRef.instant?, Operand.instantOfText?, String.toList_ofList]
  exact readTyped?_trim hi

/-- A leap second, with blanks in front of it, in a column that is looked at by the date. -/
theorem Instant.readTyped?_unambiguous_leap :
    let text := "  2016-12-31T23:59:60"
    let leap : Instant := ⟨⟨2016, 12, 31, by decide⟩, ⟨23, 59, 59, 1000000000, by decide⟩⟩
    let r : Rule := ⟨1, { path := "due", granularity := some .date }, "due", .lessThan, .dateTime,
      false, some (.instant .first), false⟩
    readTyped? .date text.toList = readTyped? .second text.toList ∧
      readTyped? .date text.toList = readers.reverse.findSome? (fun a => a text.toList) ∧
      Granularity.second.pattern.instant? text.toList = some leap ∧
      (∀ a ∈ readers, ∀ i, a text.toList = some i → i = leap) ∧
      FieldRef.instant? (.text text) = some leap ∧
      r.setText text = .ok (r.setValue (.instant leap)) := by
  intro text leap r
  obtain ⟨hpreferred, hreaders, horder, hrule⟩ := readTyped?_unambiguous text
  have hsecond : Granularity.second.pattern.instant? text.toList = some leap := by decide +kernel
  have hmem : Granularity.second.pattern.instant? ∈ readers :=
    mem_readers_iff.2 (.inr ⟨.second, rfl⟩)
  have hcell : FieldRef.instant? (.text text) = some leap := by decide +kernel
  refine ⟨hpreferred .date .second, horder _ readers.reverse_perm .date, hsecond,
    fun a ha i hi => hreaders a ha _ hmem i leap hi hsecond, hcell, ?_⟩
  exact (hrule r rfl).2.2 leap hcell

/-- The evaluator does not drop blanks behind a text. -/
example : FieldRef.instant? (.text "2016-12-31 ") = none := by decide +kernel

end GridQuery
