import GridQuery.Predicate
import Mathlib

/-!
# The orders behind comparisons

Comparisons of dates, instants, texts and numbers go through indices, code points and
units of a fixed size. Here each of these types gets the order that people have in mind,
and the comparison is shown to be that order:

* dates by year, month and day; instants by date, hour, minute, second and nanosecond
  (`Date.order_compares`, `Instant.order_compares`);
* texts by code points, from left to right (`Text.order_compares`);
* whole numbers and decimals by the number they stand for (`Number.order_compares`).

`Comparison.holds_iff_relates` then reads each of the six comparisons as the relation of
its name.
-/

namespace GridQuery

/-! ## Dates -/

namespace Date

/-- Year, month and day, in this order. -/
def key (d : Date) : ℤ ×ₗ ℕ ×ₗ ℕ := toLex (d.year, toLex (d.month, d.day))

theorem key_injective : Function.Injective key := by
  intro a b h
  cases a
  cases b
  simpa [key] using h

/-- Dates are ordered by year, month and day. -/
instance : LinearOrder Date := LinearOrder.lift' key key_injective

theorem lt_iff {a b : Date} : a < b ↔ a.year < b.year ∨ a.year = b.year ∧
    (a.month < b.month ∨ a.month = b.month ∧ a.day < b.day) := by
  change key a < key b ↔ _
  simp only [key, Prod.Lex.toLex_lt_toLex]

theorem strictMono_index : StrictMono index := by
  intro a b h
  have ha := a.real
  have hb := b.real
  have hda := a.day_le
  have hdb := b.day_le
  unfold Exists at ha hb
  rw [lt_iff] at h
  unfold index
  omega

/-- Comparing dates is comparing year, month and day. -/
theorem order_compares (a b : Date) : (a.order b).Compares a b :=
  strictMono_index.compares.1 (compare_iff _ _ |>.1 rfl)

end Date

/-! ## Instants -/

namespace TimeOfDay

/-- Hour, minute, second and nanosecond, in this order. -/
def key (t : TimeOfDay) : ℕ ×ₗ ℕ ×ₗ ℕ ×ₗ ℕ :=
  toLex (t.hour, toLex (t.minute, toLex (t.second, t.nano)))

theorem key_injective : Function.Injective key := by
  intro a b h
  cases a
  cases b
  simpa [key] using h

/-- Times of day are ordered by hour, minute, second and nanosecond. -/
instance : LinearOrder TimeOfDay := LinearOrder.lift' key key_injective

theorem lt_iff {a b : TimeOfDay} : a < b ↔
    a.hour < b.hour ∨ a.hour = b.hour ∧ (a.minute < b.minute ∨ a.minute = b.minute ∧
      (a.second < b.second ∨ a.second = b.second ∧ a.nano < b.nano)) := by
  change key a < key b ↔ _
  simp only [key, Prod.Lex.toLex_lt_toLex]

theorem strictMono_index : StrictMono index := by
  intro a b h
  have ha := a.real
  have hb := b.real
  unfold Exists at ha hb
  rw [lt_iff] at h
  unfold index
  omega

end TimeOfDay

namespace Instant

/-- Date and time of day, in this order. -/
def key (i : Instant) : Date ×ₗ TimeOfDay := toLex (i.date, i.time)

theorem key_injective : Function.Injective key := by
  intro a b h
  cases a
  cases b
  simpa [key] using h

/-- Instants are ordered by date and time of day. -/
instance : LinearOrder Instant := LinearOrder.lift' key key_injective

theorem lt_iff {a b : Instant} : a < b ↔ a.date < b.date ∨ a.date = b.date ∧ a.time < b.time := by
  change key a < key b ↔ _
  simp only [key, Prod.Lex.toLex_lt_toLex]

theorem strictMono_index : StrictMono index := by
  intro a b h
  have ha := a.time.index_nonneg
  have ha' := a.time.index_lt
  have hb := b.time.index_nonneg
  have hb' := b.time.index_lt
  unfold index
  unfold TimeOfDay.indices at *
  rcases lt_iff.1 h with hdate | ⟨hdate, htime⟩
  · have hindex : a.date.index < b.date.index := Date.strictMono_index hdate
    omega
  · have hindex : a.time.index < b.time.index := TimeOfDay.strictMono_index htime
    rw [hdate]
    omega

/-- Comparing instants is comparing date and time of day. -/
theorem order_compares (a b : Instant) : (a.order b).Compares a b :=
  strictMono_index.compares.1 (compare_iff _ _ |>.1 rfl)

end Instant

/-! ## Texts -/

namespace Text

theorem compare_toNat_compares (c d : Char) : (compare c.toNat d.toNat).Compares c d := by
  have hmono : StrictMono Char.toNat := fun a b h => by
    rwa [Char.lt_def, UInt32.lt_iff_toNat_lt] at h
  exact hmono.compares.1 (compare_iff _ _ |>.1 rfl)

theorem order_compares_toList (s t : List Char) : (order s t).Compares s t := by
  induction s generalizing t with
  | nil =>
    cases t with
    | nil => exact rfl
    | cons d ds => exact List.nil_lt_cons d ds
  | cons c cs ih =>
    cases t with
    | nil => exact List.nil_lt_cons c cs
    | cons d ds =>
      have hhead : (compare c.toNat d.toNat).Compares c d := compare_toNat_compares c d
      have htail : (order cs ds).Compares cs ds := ih ds
      rw [order]
      -- The first characters decide, unless they are the same.
      cases hc : compare c.toNat d.toNat with
      | lt =>
        rw [hc] at hhead
        exact List.cons_lt_cons_iff.2 (.inl hhead)
      | gt =>
        rw [hc] at hhead
        exact List.cons_lt_cons_iff.2 (.inl hhead)
      | eq =>
        rw [hc] at hhead
        obtain rfl : c = d := hhead
        rw [Ordering.eq_then]
        cases ho : order cs ds with
        | lt =>
          rw [ho] at htail
          exact List.cons_lt_cons_iff.2 (.inr ⟨rfl, htail⟩)
        | gt =>
          rw [ho] at htail
          exact List.cons_lt_cons_iff.2 (.inr ⟨rfl, htail⟩)
        | eq =>
          rw [ho] at htail
          exact congrArg (c :: ·) htail

/-- Comparing texts is comparing their code points from left to right. -/
theorem order_compares (s t : String) : (order s.toList t.toList).Compares s t := by
  have h := order_compares_toList s.toList t.toList
  cases ho : order s.toList t.toList with
  | eq =>
    rw [ho] at h
    exact String.toList_inj.1 h
  | lt =>
    rw [ho] at h
    exact h
  | gt =>
    rw [ho] at h
    exact h

end Text

/-! ## Numbers -/

/-- The number that a decimal stands for. -/
def Decimal.value (d : Decimal) : ℚ := d.signedMantissa / 10 ^ d.scale

theorem cast_tenTo (k : ℕ) : ((tenTo k : ℕ) : ℚ) = 10 ^ k := by
  induction k with
  | zero => rfl
  | succ k ih => rw [tenTo_succ, Nat.cast_mul, ih, pow_succ, Nat.cast_ofNat]

/-- The units of a decimal count its number in twenty-eighth places. -/
theorem Decimal.cast_units (d : Decimal) : (d.units : ℚ) = d.value * 10 ^ 28 := by
  have hscale : (10 : ℚ) ^ 28 = 10 ^ (28 - d.scale) * 10 ^ d.scale := by
    rw [← pow_add, Nat.sub_add_cancel d.scale_le]
  have hne : (10 : ℚ) ^ d.scale ≠ 0 := pow_ne_zero _ (by norm_num)
  rw [Decimal.value, Decimal.units, Int.cast_mul, Int.cast_natCast, cast_tenTo, hscale]
  field_simp

namespace Number

/-- The exact number behind one of the three representations; doubles are left out. -/
def value? : Number → Option ℚ
  | .whole n => some n
  | .decimal d => some d.value
  | .float _ => none

/-- Comparing multiples of a fixed unit is comparing the numbers. -/
theorem compares_of_units {i j : ℤ} {x y : ℚ} (hi : (i : ℚ) = x * 10 ^ 28)
    (hj : (j : ℚ) = y * 10 ^ 28) : (compare i j).Compares x y := by
  have hcompare : (compare i j).Compares i j := compare_iff i j |>.1 rfl
  have hcast : (compare i j).Compares (i : ℚ) (j : ℚ) := Int.cast_strictMono.compares.2 hcompare
  have hscale : StrictMono fun q : ℚ => q * 10 ^ 28 := strictMono_mul_right_of_pos (by norm_num)
  rw [hi, hj] at hcast
  exact hscale.compares.1 hcast

theorem orderWholeDecimal_compares (n : ℤ) (d : Decimal) :
    (orderWholeDecimal n d).Compares (n : ℚ) d.value := by
  refine compares_of_units ?_ d.cast_units
  rw [Int.cast_mul, Int.cast_natCast, cast_tenTo]

/-- Comparing whole numbers and decimals is comparing the numbers they stand for. -/
theorem order_compares {a b : Number} {x y : ℚ} (ha : a.value? = some x) (hb : b.value? = some y) :
    ∃ o, a.order b = some o ∧ o.Compares x y := by
  cases a with
  | float f => cases ha
  | whole n =>
    cases ha
    cases b with
    | float f => cases hb
    | whole m =>
      cases hb
      exact ⟨_, rfl, Int.cast_strictMono.compares.2 (compare_iff _ _ |>.1 rfl)⟩
    | decimal d =>
      cases hb
      exact ⟨_, rfl, orderWholeDecimal_compares n d⟩
  | decimal d =>
    cases ha
    cases b with
    | float f => cases hb
    | whole m =>
      cases hb
      exact ⟨_, rfl, (orderWholeDecimal_compares m d).swap⟩
    | decimal d' =>
      cases hb
      exact ⟨_, rfl, compares_of_units d.cast_units d'.cast_units⟩

end Number

/-! ## Comparisons -/

namespace Comparison

/-- The relation that a comparison is named after. -/
def Relates {α : Type} [LinearOrder α] : Comparison → α → α → Prop
  | .equal, a, b => a = b
  | .notEqual, a, b => a ≠ b
  | .greater, a, b => b < a
  | .greaterOrEqual, a, b => b ≤ a
  | .less, a, b => a < b
  | .lessOrEqual, a, b => a ≤ b

/-- A comparison holds of an outcome when the relation holds of what was compared. -/
theorem holds_iff_relates {α : Type} [LinearOrder α] {a b : α} {o : Ordering}
    (h : o.Compares a b) (c : Comparison) : c.holds (some o) ↔ c.Relates a b := by
  have hlt : o = .lt ↔ a < b := h.eq_lt
  have heq : o = .eq ↔ a = b := h.eq_eq
  have hgt : o = .gt ↔ b < a := h.eq_gt
  cases c with
  | equal => simp [holds, Relates, heq]
  | notEqual => simp [holds, Relates, heq]
  | greater => simp [holds, Relates, hgt]
  | greaterOrEqual =>
    rw [Relates, le_iff_lt_or_eq, @eq_comm _ b a]
    simp [holds, hgt, heq]
  | less => simp [holds, Relates, hlt]
  | lessOrEqual => simp [holds, Relates, hlt, heq, le_iff_lt_or_eq]

end Comparison

end GridQuery
