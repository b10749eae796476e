import GridQuery.Paging.RowOrder
import GridQuery.Proofs.Doubles
import GridQuery.Proofs.Order

/-!
# The order of all cells

Any two cells can be compared for sorting, whatever they hold. Turning the two around turns the
outcome around (`Cell.sortOrder_swap`), and cells of different places never mix: null comes
first, then numbers, truth values, texts, instants and nested records (`Cell.sortOrder_of_lt`).

Numbers are compared in two ways. Whole numbers and decimals are compared exactly; as soon as a
double takes part, the other side is rounded to a double first. So the comparison is an order
wherever one way is enough: among numbers that are no doubles, and among numbers that compare
with one another as their doubles do. Two numbers that do not are put out of order by the double
of one of them.

## Main results

* `Cell.transitiveOn_exact`, `Cell.transitiveOn_doubles` — where the comparison is transitive.
* `Cell.comparesAsDouble_of_transitiveOn` — with doubles around it is transitive nowhere else.
* `Cell.sortOrder_preorder` — what the comparison of all cells is.
* `Cell.sortOrder_cycle` — two integers of 54 bits and a double that is level with both.
-/

namespace GridQuery

/-! ## Turning a comparison around -/

section Compares

variable {α : Type} [LinearOrder α] {a b c : α} {o p r : Ordering}

theorem swap_of_compares (ho : o.Compares a b) (hp : p.Compares b a) : p = o.swap :=
  hp.inj (Ordering.compares_swap.2 ho)

theorem trans_of_compares (ho : o.Compares a b) (hp : p.Compares b c) (hr : r.Compares a c)
    (hab : o ≠ .gt) (hbc : p ≠ .gt) : r ≠ .gt :=
  hr.ne_gt.2 ((ho.ne_gt.1 hab).trans (hp.ne_gt.1 hbc))

end Compares

theorem Binary64.order_swap (x y : Binary64) : y.order x = (x.order y).map Ordering.swap := by
  cases x <;> cases y <;> simp [order, Int.compare_swap]

theorem Number.order_swap (m n : Number) : n.order m = (m.order n).map Ordering.swap := by
  cases m with
  | float x => cases n <;> exact Binary64.order_swap _ _
  | whole a =>
    cases n with
    | float y => exact Binary64.order_swap _ _
    | whole b => exact congrArg some (Int.compare_swap a b).symm
    | decimal b => rfl
  | decimal a =>
    cases n with
    | float y => exact Binary64.order_swap _ _
    | whole b => exact congrArg some Ordering.swap_swap.symm
    | decimal b => exact congrArg some (Int.compare_swap _ _).symm

theorem Instant.order_swap (i j : Instant) : j.order i = (i.order j).swap :=
  swap_of_compares (order_compares i j) (order_compares j i)

theorem Date.order_swap (d e : Date) : e.order d = (d.order e).swap :=
  swap_of_compares (order_compares d e) (order_compares e d)

theorem Text.order_swap (s t : String) :
    order t.toList s.toList = (order s.toList t.toList).swap :=
  swap_of_compares (order_compares s t) (order_compares t s)

namespace Operand

/-- A text among instants is compared by the instant that it spells. -/
theorem compare_text_instant (s : String) (j : Instant) :
    (instant j).compare (text s) = ((text s).compare (instant j)).map Ordering.swap := by
  change (instantOfText? s).map (fun i => j.order i) =
    ((instantOfText? s).map fun i => i.order j).map Ordering.swap
  cases instantOfText? s with
  | none => rfl
  | some i => exact congrArg some (Instant.order_swap i j)

theorem compare_numbers {a b : Operand} {m n : Number} (ha : a.number? = some m)
    (hb : b.number? = some n) : a.compare b = m.order n := by
  unfold compare
  rw [ha, hb]

theorem compare_swap (a b : Operand) : b.compare a = (a.compare b).map Ordering.swap := by
  cases a with
  | bool x =>
    cases b with
    | bool y => exact congrArg some (Nat.compare_swap _ _).symm
    | _ => rfl
  | text s =>
    cases b with
    | text t => exact congrArg some (Text.order_swap s t)
    | instant j => exact compare_text_instant s j
    | _ => rfl
  | instant i =>
    cases b with
    | text t =>
      rw [compare_text_instant, Option.map_map]
      simp [Function.comp_def]
    | instant j => exact congrArg some (Instant.order_swap i j)
    | _ => rfl
  | date d =>
    cases b with
    | date e => exact congrArg some (Date.order_swap d e)
    | _ => rfl
  | _ =>
    cases b with
    | bool _ | text _ | instant _ | date _ => rfl
    | _ =>
      rw [compare_numbers rfl rfl, compare_numbers rfl rfl]
      exact Number.order_swap _ _

theorem sortOrder_swap (a b : Operand) : b.sortOrder a = (a.sortOrder b).swap := by
  have hwithin : b.sortWithinShape a = (a.sortWithinShape b).swap := by
    unfold sortWithinShape
    cases a.isNaN <;> cases b.isNaN <;> try rfl
    rw [compare_swap]
    cases a.compare b <;> rfl
  rw [sortOrder, sortOrder, Ordering.swap_then, Nat.compare_swap, hwithin]

end Operand

/-- **Comparing the other way around** turns the outcome around. -/
theorem Cell.sortOrder_swap (a b : Cell) : b.sortOrder a = (a.sortOrder b).swap := by
  cases a <;> cases b <;> first
    | rfl
    | exact Operand.sortOrder_swap _ _

theorem Cell.sortOrder_self (a : Cell) : a.sortOrder a = .eq := by
  have hswap := a.sortOrder_swap a
  cases ho : a.sortOrder a with
  | eq => rfl
  | _ => simp [ho] at hswap

/-! ## Places -/

/-- The place of a scalar's shape among all cells. -/
def Value.place : Value → ℕ
  | .whole _ _ | .float _ | .decimal _ => 1
  | .bool _ => 2
  | .text _ | .member _ => 3
  | .instant _ => 4

/-- The place of a cell: null, numbers, truth values, texts, instants, nested records. -/
def Cell.place : Cell → ℕ
  | .null => 0
  | .scalar x => x.place
  | .record _ => 5

theorem Operand.shape_ofWhole (w : Width) (n : Whole w) : (ofWhole w n).shape = 0 := by
  unfold ofWhole
  split <;> rfl

theorem Value.shape_lt_of_place_lt {x y : Value} (h : x.place < y.place) :
    (Operand.ofValue x).shape < (Operand.ofValue y).shape := by
  cases x <;> cases y <;> simp only [Operand.ofValue, Operand.shape_ofWhole] <;>
    simp_all [place, Operand.shape]

namespace Cell

variable {a b : Cell}

/-- Cells of different places are sorted by place. -/
theorem sortOrder_of_lt (h : a.place < b.place) : a.sortOrder b = .lt := by
  cases a with
  | null =>
    cases b with
    | null => exact absurd h (lt_irrefl _)
    | _ => rfl
  | record fields =>
    cases b with
    | scalar y => cases y <;> simp [place, Value.place] at h
    | _ => simp [place] at h
  | scalar x =>
    cases b with
    | null => simp [place] at h
    | record fields => rfl
    | scalar y =>
      rw [sortOrder, Operand.sortOrder, Nat.compare_eq_lt.2 (Value.shape_lt_of_place_lt h)]
      rfl

theorem place_le_of_sortOrder (h : a.sortOrder b ≠ .gt) : a.place ≤ b.place := by
  by_contra hlt
  refine h ?_
  rw [b.sortOrder_swap a, sortOrder_of_lt (not_le.1 hlt)]
  rfl

end Cell

/-! ## Numbers -/

namespace Operand

variable {a b : Operand} {m n : Number} {o : Ordering}

/-- Operands of one shape that compare are sorted as they compare. -/
theorem sortOrder_of_compare (hshape : a.shape = b.shape) (ha : a.isNaN = false)
    (hb : b.isNaN = false) (ho : a.compare b = some o) : a.sortOrder b = o := by
  simp [sortOrder, sortWithinShape, hshape, ha, hb, ho]

theorem shape_of_number? (h : a.number? = some n) : a.shape = 0 := by
  cases a <;> first | rfl | cases h

theorem isNaN_of_value? {q : ℚ} (h : a.number? = some n) (hq : n.value? = some q) :
    a.isNaN = false := by
  cases a with
  | float x =>
    cases h
    cases hq
  | _ => rfl

end Operand

namespace Binary64

/-- A double among doubles, with a NaN behind all numbers. -/
def key : Binary64 → WithTop ℤ
  | .nan => ⊤
  | x => x.units

theorem sortOrder_compares (x y : Binary64) :
    ((Operand.float x).sortOrder (.float y)).Compares x.key y.key := by
  have hunits : ∀ i j : ℤ, (compare i j).Compares (i : WithTop ℤ) j := fun i j =>
    WithTop.coe_strictMono.compares.2 (compare_iff i j |>.1 rfl)
  cases x with
  | nan =>
    cases y with
    | nan => exact rfl
    | _ => exact WithTop.coe_lt_top _
  | _ =>
    cases y with
    | nan => exact WithTop.coe_lt_top _
    | _ => exact hunits _ _

theorem nearest_ne_nan (negative : Bool) (n d : ℕ) : nearest negative n d ≠ .nan := by
  unfold nearest pack
  simp only
  split <;> split <;> simp

/-- Comparing finite doubles is comparing the fractions they stand for. -/
theorem order_compares {x y : Binary64} {p q : ℚ} (hx : x.value? = some p)
    (hy : y.value? = some q) : ∃ o, x.order y = some o ∧ o.Compares p q := by
  cases x with
  | finite s m k h =>
    cases y with
    | finite t n l h' =>
      have hunit : (0 : ℚ) < (twoTo 1074 : ℕ) := Nat.cast_pos.2 (twoTo_pos 1074)
      have hmono : StrictMono fun i : ℤ => (i : ℚ) / (twoTo 1074 : ℕ) := fun i j hij =>
        div_lt_div_of_pos_right (Int.cast_lt.2 hij) hunit
      rw [value?, Option.some.injEq] at hx hy
      rw [← hx, ← hy]
      exact ⟨_, rfl, hmono.compares.2 (compare_iff _ _ |>.1 rfl)⟩
    | _ => cases hy
  | _ => cases hx

theorem exists_order {x y : Binary64} (hx : x ≠ .nan) (hy : y ≠ .nan) :
    ∃ o, x.order y = some o := by
  cases x with
  | nan => exact absurd rfl hx
  | _ =>
    cases y with
    | nan => exact absurd rfl hy
    | _ => exact ⟨_, rfl⟩

end Binary64

theorem Decimal.toFloat_ne_nan (d : Decimal) : d.toFloat ≠ .nan := by
  unfold toFloat
  simp only
  split
  · simp
  · split <;> exact Binary64.nearest_ne_nan _ _ _

namespace Number

variable {m n : Number}

/-- Whether two numbers compare as their doubles do. -/
def ComparesAsDouble (m n : Number) : Prop := m.order n = m.toFloat.order n.toFloat

theorem comparesAsDouble_float_left (x : Binary64) (n : Number) :
    (float x).ComparesAsDouble n := by
  cases n <;> rfl

theorem comparesAsDouble_float_right (m : Number) (y : Binary64) :
    m.ComparesAsDouble (float y) := by
  cases m <;> rfl

/-- Only a NaN is a NaN as a double. -/
theorem toFloat_eq_nan_iff : n.toFloat = .nan ↔ n = .float .nan := by
  cases n with
  | float x => simp [toFloat]
  | whole a => exact iff_of_false (Binary64.nearest_ne_nan _ _ _) nofun
  | decimal d => exact iff_of_false d.toFloat_ne_nan nofun

/-- Numbers that are doubles compare as these doubles. -/
theorem comparesAsDouble_of_value? {p q : ℚ} (hm : m.value? = some p)
    (hp : m.toFloat.value? = some p) (hn : n.value? = some q) (hq : n.toFloat.value? = some q) :
    m.ComparesAsDouble n := by
  obtain ⟨o, ho, hexact⟩ := order_compares hm hn
  obtain ⟨o', ho', hdoubles⟩ := Binary64.order_compares hp hq
  rw [ComparesAsDouble, ho, ho', hexact.inj hdoubles]

/-- An exact number among exact numbers, with a NaN behind all of them. -/
def exactKey (m : Number) : WithTop ℚ :=
  match m.value? with
  | some q => q
  | none => ⊤

theorem exactKey_of_value? {q : ℚ} (h : m.value? = some q) : m.exactKey = q := by
  rw [exactKey, h]

theorem eq_nan_of_value? (h : m.value? = none) (hm : ∀ x, m = .float x → x = .nan) :
    m = .float .nan := by
  cases m with
  | float x => rw [hm x rfl]
  | _ => cases h

theorem key_lt_top {q : ℚ} (h : m.value? = some q) : m.toFloat.key < ⊤ := by
  have hne : m.toFloat ≠ .nan := fun hnan => by
    rw [toFloat_eq_nan_iff.1 hnan] at h
    cases h
  cases hx : m.toFloat with
  | nan => exact absurd hx hne
  | _ => exact WithTop.coe_lt_top _

theorem exists_order (hm : m.toFloat ≠ .nan) (hn : n.toFloat ≠ .nan) :
    ∃ o, m.order n = some o := by
  cases m with
  | float x =>
    obtain ⟨o, ho⟩ := Binary64.exists_order hm hn
    exact ⟨o, (comparesAsDouble_float_left x n).trans ho⟩
  | _ =>
    cases n with
    | float y =>
      obtain ⟨o, ho⟩ := Binary64.exists_order hm hn
      exact ⟨o, ho⟩
    | _ => exact ⟨_, rfl⟩

end Number

namespace Operand

variable {a b : Operand} {m n : Number}

theorem isNaN_float {x : Binary64} (h : x ≠ .nan) : (float x).isNaN = false := by
  cases x with
  | nan => exact absurd rfl h
  | _ => rfl

theorem isNaN_of_number? (ha : a.number? = some m) : a.isNaN = (float m.toFloat).isNaN := by
  cases a with
  | float x =>
    cases ha
    rfl
  | int k =>
    cases ha
    exact (isNaN_float (Binary64.nearest_ne_nan _ _ _)).symm
  | uint k =>
    cases ha
    exact (isNaN_float (Binary64.nearest_ne_nan _ _ _)).symm
  | decimal d =>
    cases ha
    exact (isNaN_float d.toFloat_ne_nan).symm
  | _ => cases ha

/-- Numbers that compare as their doubles are sorted as their doubles. -/
theorem sortOrder_doubles (ha : a.number? = some m) (hb : b.number? = some n)
    (h : m.ComparesAsDouble n) : (a.sortOrder b).Compares m.toFloat.key n.toFloat.key := by
  have hdoubles : a.sortOrder b = (float m.toFloat).sortOrder (float n.toFloat) := by
    rw [sortOrder, sortOrder, sortWithinShape, sortWithinShape, shape_of_number? ha,
      shape_of_number? hb, isNaN_of_number? ha, isNaN_of_number? hb, compare_numbers ha hb, h]
    rfl
  rw [hdoubles]
  exact Binary64.sortOrder_compares _ _

theorem sortOrder_values {p q : ℚ} (ha : a.number? = some m) (hb : b.number? = some n)
    (hp : m.value? = some p) (hq : n.value? = some q) : (a.sortOrder b).Compares p q := by
  obtain ⟨o, ho, hcompares⟩ := Number.order_compares hp hq
  rw [sortOrder_of_compare _ (isNaN_of_value? ha hp) (isNaN_of_value? hb hq)
    ((compare_numbers ha hb).trans ho)]
  · exact hcompares
  · rw [shape_of_number? ha, shape_of_number? hb]

/-- Numbers that are no doubles are sorted as the numbers they stand for, with a NaN behind
them. -/
theorem sortOrder_exact (ha : a.number? = some m) (hb : b.number? = some n)
    (hm : ∀ x, m = .float x → x = .nan) (hn : ∀ x, n = .float x → x = .nan) :
    (a.sortOrder b).Compares m.exactKey n.exactKey := by
  cases hp : m.value? with
  | some p =>
    rw [Number.exactKey_of_value? hp]
    cases hq : n.value? with
    | some q =>
      rw [Number.exactKey_of_value? hq]
      exact WithTop.coe_strictMono.compares.2 (sortOrder_values ha hb hp hq)
    | none =>
      obtain rfl := Number.eq_nan_of_value? hq hn
      have hdoubles := sortOrder_doubles ha hb (Number.comparesAsDouble_float_right m .nan)
      rw [hdoubles.eq_lt.2 (Number.key_lt_top hp)]
      exact WithTop.coe_lt_top p
  | none =>
    obtain rfl := Number.eq_nan_of_value? hp hm
    have hdoubles := sortOrder_doubles ha hb (Number.comparesAsDouble_float_left .nan n)
    cases hq : n.value? with
    | some q =>
      rw [Number.exactKey_of_value? hq, hdoubles.eq_gt.2 (Number.key_lt_top hq)]
      exact WithTop.coe_lt_top q
    | none =>
      obtain rfl := Number.eq_nan_of_value? hq hn
      rw [hdoubles.eq_eq.2 rfl]
      rfl

end Operand

/-! ## Truth values, texts and instants -/

namespace Operand

theorem sortOrder_texts (s t : String) : ((text s).sortOrder (text t)).Compares s t := by
  rw [sortOrder_of_compare (a := text s) (b := text t) rfl rfl rfl rfl]
  exact Text.order_compares s t

theorem sortOrder_instants (i j : Instant) :
    ((instant i).sortOrder (instant j)).Compares i j := by
  rw [sortOrder_of_compare (a := instant i) (b := instant j) rfl rfl rfl rfl]
  exact Instant.order_compares i j

theorem sortOrder_bools (a b : Bool) : ((bool a).sortOrder (bool b)).Compares a b := by
  have hmono : StrictMono Bool.toNat := by
    unfold StrictMono
    decide
  rw [sortOrder_of_compare (a := bool a) (b := bool b) rfl rfl rfl rfl]
  exact hmono.compares.1 (compare_iff _ _ |>.1 rfl)

/-- Operands of one form are compared in a linear order. -/
theorem trans_of_form {γ : Type} [LinearOrder γ] {form : γ → Operand}
    (hform : ∀ s t, ((form s).sortOrder (form t)).Compares s t) {a b c : Operand}
    (ha : ∃ s, a = form s) (hb : ∃ s, b = form s) (hc : ∃ s, c = form s)
    (hab : a.sortOrder b ≠ .gt) (hbc : b.sortOrder c ≠ .gt) : a.sortOrder c ≠ .gt := by
  obtain ⟨s, rfl⟩ := ha
  obtain ⟨t, rfl⟩ := hb
  obtain ⟨u, rfl⟩ := hc
  exact trans_of_compares (hform s t) (hform t u) (hform s u) hab hbc

end Operand

/-! ## Where the comparison is transitive -/

namespace Value

variable {x y : Value}

theorem exists_number_of_place (h : x.place = 1) : ∃ m, (Operand.ofValue x).number? = some m := by
  cases x with
  | whole w n =>
    rw [Operand.ofValue, Operand.ofWhole]
    split <;> exact ⟨_, rfl⟩
  | float y => exact ⟨_, rfl⟩
  | decimal d => exact ⟨_, rfl⟩
  | _ => simp [place] at h

theorem exists_bool_of_place (h : x.place = 2) : ∃ b, Operand.ofValue x = .bool b := by
  cases x with
  | bool b => exact ⟨b, rfl⟩
  | _ => simp [place] at h

theorem exists_text_of_place (h : x.place = 3) : ∃ s, Operand.ofValue x = .text s := by
  cases x with
  | text s => exact ⟨s, rfl⟩
  | member s => exact ⟨s, rfl⟩
  | _ => simp [place] at h

theorem exists_instant_of_place (h : x.place = 4) : ∃ i, Operand.ofValue x = .instant i := by
  cases x with
  | instant i => exact ⟨i, rfl⟩
  | _ => simp [place] at h

theorem place_cases (x : Value) : x.place = 1 ∨ x.place = 2 ∨ x.place = 3 ∨ x.place = 4 := by
  cases x <;> simp [place]

end Value

namespace Cell

variable {a b c : Cell} {cells : Set Cell}

/-- The number that a cell holds. -/
def number? : Cell → Option Number
  | .scalar x => (Operand.ofValue x).number?
  | _ => none

/-- Whether a cell holds a double that is a number. -/
def IsDouble (a : Cell) : Prop := ∃ x, a = .scalar (.float x) ∧ x ≠ .nan

/-- Whether two cells, where both hold numbers, compare as the doubles of the numbers do. -/
def ComparesAsDouble (a b : Cell) : Prop :=
  ∀ m n, a.number? = some m → b.number? = some n → m.ComparesAsDouble n

/-- Whether the comparison is transitive on a set of cells. -/
def TransitiveOn (cells : Set Cell) : Prop :=
  ∀ a ∈ cells, ∀ b ∈ cells, ∀ c ∈ cells,
    a.sortOrder b ≠ .gt → b.sortOrder c ≠ .gt → a.sortOrder c ≠ .gt

theorem eq_scalar_of_place {x : Value} (h : a.place = x.place) : ∃ y, a = .scalar y := by
  have hx := x.place_cases
  cases a with
  | scalar y => exact ⟨y, rfl⟩
  | _ =>
    simp only [place] at h
    omega

/-- Scalars of a common place are compared by what they hold; numbers are compared by a key. -/
theorem trans_of_place {β : Type} [LinearOrder β] {x y z : Value} (key : Number → β)
    (hkey : ∀ u ∈ [x, y, z], ∀ v ∈ [x, y, z], ∀ m n, (Operand.ofValue u).number? = some m →
      (Operand.ofValue v).number? = some n →
      ((Operand.ofValue u).sortOrder (.ofValue v)).Compares (key m) (key n))
    (hy : y.place = x.place) (hz : z.place = x.place)
    (hxy : (Operand.ofValue x).sortOrder (.ofValue y) ≠ .gt)
    (hyz : (Operand.ofValue y).sortOrder (.ofValue z) ≠ .gt) :
    (Operand.ofValue x).sortOrder (.ofValue z) ≠ .gt := by
  obtain hx | hx | hx | hx := x.place_cases
  · obtain ⟨m, hm⟩ := Value.exists_number_of_place hx
    obtain ⟨n, hn⟩ := Value.exists_number_of_place (hy.trans hx)
    obtain ⟨k, hk⟩ := Value.exists_number_of_place (hz.trans hx)
    exact trans_of_compares (hkey x (by simp) y (by simp) m n hm hn)
      (hkey y (by simp) z (by simp) n k hn hk) (hkey x (by simp) z (by simp) m k hm hk) hxy hyz
  · exact Operand.trans_of_form Operand.sortOrder_bools (Value.exists_bool_of_place hx)
      (Value.exists_bool_of_place (hy.trans hx)) (Value.exists_bool_of_place (hz.trans hx)) hxy hyz
  · exact Operand.trans_of_form Operand.sortOrder_texts (Value.exists_text_of_place hx)
      (Value.exists_text_of_place (hy.trans hx)) (Value.exists_text_of_place (hz.trans hx)) hxy hyz
  · exact Operand.trans_of_form Operand.sortOrder_instants (Value.exists_instant_of_place hx)
      (Value.exists_instant_of_place (hy.trans hx)) (Value.exists_instant_of_place (hz.trans hx))
      hxy hyz

/-- The comparison is transitive on cells whose numbers it compares by a key. -/
theorem transitiveOn_of_key {β : Type} [LinearOrder β] (key : Number → β)
    (hkey : ∀ a ∈ cells, ∀ b ∈ cells, ∀ m n, a.number? = some m → b.number? = some n →
      (a.sortOrder b).Compares (key m) (key n)) : TransitiveOn cells := by
  intro a ha b hb c hc hab hbc
  have hplace := place_le_of_sortOrder hab
  have hplace' := place_le_of_sortOrder hbc
  rcases (hplace.trans hplace').lt_or_eq with hlt | heq
  · rw [sortOrder_of_lt hlt]
    nofun
  · -- All three cells have the same place.
    have hb' : b.place = a.place := le_antisymm (heq ▸ hplace') hplace
    cases a with
    | scalar x =>
      obtain ⟨y, rfl⟩ := eq_scalar_of_place hb'
      obtain ⟨z, rfl⟩ := eq_scalar_of_place heq.symm
      refine trans_of_place key ?_ hb' heq.symm hab hbc
      have hmem : ∀ u ∈ [x, y, z], scalar u ∈ cells := by simp [ha, hb, hc]
      exact fun u hu v hv => hkey (.scalar u) (hmem u hu) (.scalar v) (hmem v hv)
    | null =>
      cases c with
      | null => nofun
      | scalar z => cases z <;> simp [place, Value.place] at heq
      | record fields => simp [place] at heq
    | record fields =>
      cases c with
      | null => simp [place] at heq
      | scalar z => cases z <;> simp [place, Value.place] at heq
      | record fields => nofun

theorem isDouble_of_number? {x : Binary64} (h : a.number? = some (.float x)) (hx : x ≠ .nan) :
    a.IsDouble := by
  cases a with
  | scalar v =>
    cases v with
    | float y =>
      cases h
      exact ⟨x, rfl, hx⟩
    | whole w n =>
      rw [number?, Operand.ofValue, Operand.ofWhole] at h
      split at h <;> cases h
    | _ => cases h
  | _ => cases h

theorem sortOrder_of_number? {m n : Number} (ha : a.number? = some m) (hb : b.number? = some n) :
    ∃ u v : Operand, u.number? = some m ∧ v.number? = some n ∧ a.sortOrder b = u.sortOrder v := by
  cases a with
  | scalar x =>
    cases b with
    | scalar y => exact ⟨_, _, ha, hb, rfl⟩
    | _ => cases hb
  | _ => cases ha

/-- Numbers other than a NaN are sorted as they compare. -/
theorem order_eq_sortOrder {m n : Number} (ha : a.number? = some m) (hb : b.number? = some n)
    (hm : m.toFloat ≠ .nan) (hn : n.toFloat ≠ .nan) : m.order n = some (a.sortOrder b) := by
  obtain ⟨u, v, hu, hv, hsame⟩ := sortOrder_of_number? ha hb
  obtain ⟨o, ho⟩ := Number.exists_order hm hn
  have hshape : u.shape = v.shape := by
    rw [Operand.shape_of_number? hu, Operand.shape_of_number? hv]
  rw [ho, hsame, Operand.sortOrder_of_compare hshape
    ((Operand.isNaN_of_number? hu).trans (Operand.isNaN_float hm))
    ((Operand.isNaN_of_number? hv).trans (Operand.isNaN_float hn))
    ((Operand.compare_numbers hu hv).trans ho)]

/-- **Without doubles** the comparison is transitive: numbers are compared exactly. -/
theorem transitiveOn_exact (h : ∀ a ∈ cells, ¬ a.IsDouble) : TransitiveOn cells := by
  refine transitiveOn_of_key Number.exactKey fun a ha b hb m n hm hn => ?_
  obtain ⟨u, v, hu, hv, hsame⟩ := sortOrder_of_number? hm hn
  have hnan : ∀ c ∈ cells, ∀ x, c.number? = some (.float x) → x = .nan := fun c hc x hx =>
    by_contra fun hne => h c hc (isDouble_of_number? hx hne)
  rw [hsame]
  exact Operand.sortOrder_exact hu hv (fun x hx => hnan a ha x (hx ▸ hm))
    fun x hx => hnan b hb x (hx ▸ hn)

theorem comparesAsDouble_of_isDouble (h : a.IsDouble ∨ b.IsDouble) : a.ComparesAsDouble b := by
  intro m n hm hn
  obtain ⟨x, rfl, -⟩ | ⟨x, rfl, -⟩ := h
  · cases hm
    exact Number.comparesAsDouble_float_left x n
  · cases hn
    exact Number.comparesAsDouble_float_right m x

/-- **With all doubles** the comparison is transitive on cells that compare as doubles. -/
theorem transitiveOn_doubles (h : ∀ a ∈ cells, ∀ b ∈ cells, a.ComparesAsDouble b) :
    TransitiveOn (cells ∪ {a | a.IsDouble}) := by
  refine transitiveOn_of_key (fun m => m.toFloat.key) fun a ha b hb m n hm hn => ?_
  obtain ⟨u, v, hu, hv, hsame⟩ := sortOrder_of_number? hm hn
  have hdouble : a.ComparesAsDouble b := by
    obtain ha | ha := ha
    · obtain hb | hb := hb
      · exact h a ha b hb
      · exact comparesAsDouble_of_isDouble (.inr hb)
    · exact comparesAsDouble_of_isDouble (.inl ha)
  rw [hsame]
  exact Operand.sortOrder_doubles hu hv (hdouble m n hm hn)

/-- Where the comparison is transitive, cells that are level compare alike with all others. -/
theorem TransitiveOn.sortOrder_congr (h : TransitiveOn cells) (ha : a ∈ cells) (hb : b ∈ cells)
    (hc : c ∈ cells) (hlevel : a.sortOrder b = .eq) : a.sortOrder c = b.sortOrder c := by
  have hab : a.sortOrder b ≠ .gt := by simp [hlevel]
  have hba : b.sortOrder a ≠ .gt := by simp [a.sortOrder_swap b, hlevel]
  have hforth : a.sortOrder c ≠ .gt ↔ b.sortOrder c ≠ .gt :=
    ⟨h b hb a ha c hc hba, h a ha b hb c hc hab⟩
  have hback : c.sortOrder a ≠ .gt ↔ c.sortOrder b ≠ .gt :=
    ⟨fun hca => h c hc a ha b hb hca hab, fun hcb => h c hc b hb a ha hcb hba⟩
  rw [a.sortOrder_swap c, b.sortOrder_swap c] at hback
  cases ho : a.sortOrder c <;> cases hp : b.sortOrder c <;> simp_all

/-- Numbers that do not compare as their doubles are put out of order by one of the doubles. -/
theorem comparesAsDouble_of_transitiveOn (h : TransitiveOn (cells ∪ {a | a.IsDouble}))
    (ha : a ∈ cells) (hb : b ∈ cells) : a.ComparesAsDouble b := by
  intro m n hm hn
  by_cases hfloat : (∃ x, m = .float x) ∨ ∃ y, n = .float y
  · obtain ⟨x, rfl⟩ | ⟨y, rfl⟩ := hfloat
    · exact Number.comparesAsDouble_float_left x n
    · exact Number.comparesAsDouble_float_right m y
  · have hmNaN : m.toFloat ≠ .nan := fun hnan =>
      hfloat (.inl ⟨_, Number.toFloat_eq_nan_iff.1 hnan⟩)
    have hnNaN : n.toFloat ≠ .nan := fun hnan =>
      hfloat (.inr ⟨_, Number.toFloat_eq_nan_iff.1 hnan⟩)
    -- The double of the first number is level with it.
    let double : Cell := .scalar (.float m.toFloat)
    have hdouble : double.IsDouble := ⟨_, rfl, hmNaN⟩
    have hlevel : a.sortOrder double = .eq := by
      obtain ⟨u, v, hu, hv, hsame⟩ := sortOrder_of_number? hm (b := double) rfl
      rw [hsame]
      exact (Operand.sortOrder_doubles hu hv (Number.comparesAsDouble_float_right _ _)).eq_eq.2 rfl
    have hsame : a.sortOrder b = double.sortOrder b :=
      h.sortOrder_congr (.inl ha) (.inr hdouble) (.inl hb) hlevel
    have hexact : m.order n = some (a.sortOrder b) := order_eq_sortOrder hm hn hmNaN hnNaN
    have hrounded : (Number.float m.toFloat).order n = some (double.sortOrder b) :=
      order_eq_sortOrder (a := double) rfl hn hmNaN hnNaN
    rw [Number.ComparesAsDouble, hexact, hsame, ← hrounded]
    exact Number.comparesAsDouble_float_left _ n

/-- **The comparison of all cells.** Every cell is level with itself, and turning two cells around
turns the outcome around. Where no double is held the comparison is transitive. Together with all
doubles it is transitive exactly on the cells whose numbers compare with one another as their
doubles do. -/
theorem sortOrder_preorder (a b : Cell) (cells : Set Cell) :
    a.sortOrder a = .eq ∧ a.sortOrder b = (b.sortOrder a).swap ∧
    ((∀ c ∈ cells, ¬ c.IsDouble) → TransitiveOn cells) ∧
    (TransitiveOn (cells ∪ {c | c.IsDouble}) ↔
      ∀ c ∈ cells, ∀ d ∈ cells, c.ComparesAsDouble d) :=
  ⟨sortOrder_self a, b.sortOrder_swap a, transitiveOn_exact,
    fun h _ hc _ hd => comparesAsDouble_of_transitiveOn h hc hd, transitiveOn_doubles⟩

/-- Integers of at most 53 bits can be sorted among all doubles. -/
theorem sortOrder_preorder_small :
    let small : Set Cell :=
      {a | ∃ n : Whole .int64, n.val.natAbs < twoTo 53 ∧ a = .scalar (.whole .int64 n)}
    (∀ a ∈ small, ∀ b ∈ small, a.ComparesAsDouble b) ∧
      (∀ a ∈ small, ¬ a.IsDouble) ∧ TransitiveOn small ∧
      TransitiveOn (small ∪ {a | a.IsDouble}) := by
  intro small
  have hcompares : ∀ a ∈ small, ∀ b ∈ small, a.ComparesAsDouble b := by
    rintro _ ⟨k, hk, rfl⟩ _ ⟨l, hl, rfl⟩ m n hm hn
    cases hm
    cases hn
    exact Number.comparesAsDouble_of_value? rfl (Binary64.value?_ofInt_of_lt hk) rfl
      (Binary64.value?_ofInt_of_lt hl)
  have hexact : ∀ a ∈ small, ¬ a.IsDouble := by
    rintro _ ⟨k, hk, rfl⟩ ⟨x, hx, -⟩
    cases hx
  obtain ⟨-, -, htransitive, hdoubles⟩ := sortOrder_preorder .null (.scalar (.float .nan)) small
  exact ⟨hcompares, hexact, htransitive hexact, hdoubles.2 hcompares⟩

/-- **No order.** Two integers that differ are both level with the double next to them. -/
theorem sortOrder_cycle :
    let larger : Cell := .scalar (.whole .int64 ⟨9007199254740993, by decide⟩)
    let double : Cell := .scalar (.float (Binary64.ofInt 9007199254740992))
    let smaller : Cell := .scalar (.whole .int64 ⟨9007199254740992, by decide⟩)
    larger.sortOrder double ≠ .gt ∧ double.sortOrder smaller ≠ .gt ∧
      larger.sortOrder smaller = .gt := by
  decide +kernel

end Cell

end GridQuery
