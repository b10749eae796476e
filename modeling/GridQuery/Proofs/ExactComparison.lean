import GridQuery.Proofs.CellOrder
import GridQuery.Proofs.LosslessCoercion

/-!
# Comparing without rounding

Whatever two operands are, comparing them the other way around turns the outcome around. As long as
no double takes part, numbers are compared by the exact number that they stand for
(`Operand.compare_eq_cmp`): signed and unsigned integers and decimals of any scale are in one
order, the order of the rational numbers.

Integers of 64 bits lie well inside the range of decimals, so the comparison could as well bring
both sides to decimals first, and this never fails (`Operand.compare_eq_decimal_order`).
-/

namespace GridQuery

/-- A number as a decimal, if there is one. -/
def Number.decimal? : Number → Option Decimal
  | .whole n => Decimal.ofInt? n
  | .float x => Decimal.ofFloat? x
  | .decimal d => some d

/-- Comparing decimals is comparing the numbers they stand for. -/
theorem Decimal.order_eq_cmp (c d : Decimal) : c.order d = cmp c.value d.value :=
  (Number.compares_of_units c.cast_units d.cast_units).inj (cmp_compares _ _)

namespace Operand

/-- The exact number behind an integer or a decimal. -/
def amount? : Operand → Option ℚ
  | .int n => some n.val
  | .uint n => some n.val
  | .decimal d => some d.value
  | _ => none

/-- An operand as a decimal, if there is one. -/
def decimal? (a : Operand) : Option Decimal := a.number?.bind Number.decimal?

variable {a b : Operand} {x y : ℚ}

/-! ## The order of the numbers -/

theorem exists_number?_of_amount? (h : a.amount? = some x) :
    ∃ n, a.number? = some n ∧ n.value? = some x := by
  cases a with
  | int n => exact ⟨.whole n.val, rfl, h⟩
  | uint n => exact ⟨.whole n.val, rfl, h⟩
  | decimal d => exact ⟨.decimal d, rfl, h⟩
  | _ => cases h

/-- Integers and decimals compare as the numbers they stand for. -/
theorem compare_eq_cmp (ha : a.amount? = some x) (hb : b.amount? = some y) :
    a.compare b = some (cmp x y) := by
  obtain ⟨m, hm, hx⟩ := exists_number?_of_amount? ha
  obtain ⟨n, hn, hy⟩ := exists_number?_of_amount? hb
  obtain ⟨o, ho, hcompares⟩ := Number.order_compares hx hy
  rw [compare_numbers hm hn, ho, hcompares.inj (cmp_compares x y)]

theorem compare_ne_gt_iff (ha : a.amount? = some x) (hb : b.amount? = some y) :
    a.compare b ≠ some .gt ↔ x ≤ y := by
  rw [compare_eq_cmp ha hb, ne_eq, Option.some.injEq]
  exact (cmp_compares x y).ne_gt

/-! ## Through decimals -/

/-- Integers and decimals are decimals. -/
theorem exists_decimal? (h : a.amount? = some x) : ∃ d, a.decimal? = some d ∧ d.value = x := by
  cases a with
  | int n =>
    obtain ⟨d, hd, hvalue⟩ := Value.exists_ofInt? n
    exact ⟨d, hd, hvalue.trans (Option.some.inj h)⟩
  | uint n =>
    obtain ⟨d, hd, hvalue⟩ := Value.exists_ofInt? n
    exact ⟨d, hd, hvalue.trans (Option.some.inj h)⟩
  | decimal d => exact ⟨d, rfl, Option.some.inj h⟩
  | _ => cases h

/-- Integers and decimals compare as the decimals that they are. -/
theorem compare_eq_decimal_order (ha : a.amount? = some x) (hb : b.amount? = some y) :
    ∃ c d, a.decimal? = some c ∧ b.decimal? = some d ∧ c.value = x ∧ d.value = y ∧
      a.compare b = some (c.order d) := by
  obtain ⟨c, hc, rfl⟩ := exists_decimal? ha
  obtain ⟨d, hd, rfl⟩ := exists_decimal? hb
  refine ⟨c, d, hc, hd, rfl, rfl, ?_⟩
  rw [compare_eq_cmp ha hb, Decimal.order_eq_cmp]

/-! ## The comparison -/

/-- **What comparing operands is.** For all operands, comparing the other way around turns the
outcome around. Signed and unsigned integers and decimals always compare, as the exact numbers they
stand for, and bringing both to decimals never fails and gives the same outcome. So they are in one
total order: it is transitive, decimals are level when they denote the same number, whatever their
scales are, and an unsigned integer beyond the signed ones is greater than all of these. -/
theorem compare_dual_exact :
    (∀ (a b : Operand) (o : Ordering), a.compare b = some o ↔ b.compare a = some o.swap) ∧
    (∀ (a b : Operand) (x y : ℚ), a.amount? = some x → b.amount? = some y →
      a.compare b = some (cmp x y) ∧
      ∃ c d, a.decimal? = some c ∧ b.decimal? = some d ∧ c.value = x ∧ d.value = y ∧
        a.compare b = some (c.order d)) ∧
    (∀ a b c : Operand, a.amount?.isSome → b.amount?.isSome → c.amount?.isSome →
      a.compare b ≠ some .gt → b.compare c ≠ some .gt → a.compare c ≠ some .gt) ∧
    (∀ c d : Decimal, (decimal c).compare (decimal d) = some .eq ↔ c.value = d.value) ∧
    ∀ (u : Whole .uint64) (n : Whole .int64), Width.int64.greatest < u.val →
      (uint u).compare (int n) = some .gt := by
  refine ⟨?_, ?_, ?_, ?_, ?_⟩
  · intro a b o
    rw [compare_swap a b]
    cases a.compare b <;> simp
  · intro a b x y ha hb
    exact ⟨compare_eq_cmp ha hb, compare_eq_decimal_order ha hb⟩
  · intro a b c ha hb hc hab hbc
    obtain ⟨x, hx⟩ := Option.isSome_iff_exists.1 ha
    obtain ⟨y, hy⟩ := Option.isSome_iff_exists.1 hb
    obtain ⟨z, hz⟩ := Option.isSome_iff_exists.1 hc
    have hxy : x ≤ y := (compare_ne_gt_iff hx hy).1 hab
    have hyz : y ≤ z := (compare_ne_gt_iff hy hz).1 hbc
    exact (compare_ne_gt_iff hx hz).2 (hxy.trans hyz)
  · intro c d
    rw [compare_eq_cmp rfl rfl, Option.some.injEq, cmp_eq_eq_iff]
  · intro u n hu
    have hlt : n.val < u.val := n.fits.2.trans_lt hu
    rw [compare_eq_cmp rfl rfl, Option.some.injEq, cmp_eq_gt_iff]
    exact_mod_cast hlt

/-- One and a half with one and with two places, and the first integer beyond the signed ones
against the last of these. -/
theorem compare_dual_exact_scales :
    let short : Decimal := ⟨false, 15, 1, by decide, by decide⟩
    let long : Decimal := ⟨false, 150, 2, by decide, by decide⟩
    let last : Operand := .int ⟨9223372036854775807, by decide⟩
    let next : Whole .uint64 := ⟨9223372036854775808, by decide⟩
    (decimal short).amount? = some (3 / 2) ∧ (decimal long).amount? = some (3 / 2) ∧
      (decimal short).compare (decimal long) = some (cmp (3 / 2 : ℚ) (3 / 2)) ∧
      (decimal short).compare (decimal long) = some .eq ∧
      (uint next).compare last = some .gt ∧
      last.compare (uint next) = some .lt ∧
      (decimal long).compare (uint next) ≠ some .gt := by
  intro short long last next
  obtain ⟨hdual, hexact, htrans, hlevel, hbeyond⟩ := compare_dual_exact
  have hshort : short.value = 3 / 2 := by norm_num [short, Decimal.value, Decimal.signedMantissa]
  have hlong : long.value = 3 / 2 := by norm_num [long, Decimal.value, Decimal.signedMantissa]
  have hnext : (uint next).compare last = some .gt := hbeyond _ _ (by decide)
  have hlast : last.compare (uint next) = some .lt := (hdual _ _ .gt).1 hnext
  refine ⟨congrArg some hshort, congrArg some hlong,
    (hexact (decimal short) (decimal long) _ _ (congrArg some hshort) (congrArg some hlong)).1,
    (hlevel _ _).2 (hshort.trans hlong.symm), hnext, hlast, ?_⟩
  refine htrans (decimal long) last (uint next) rfl rfl rfl ?_ ?_
  · decide
  · rw [hlast]
    decide

end Operand

end GridQuery
