/-!
# Sorts

What callers may rely on in a sort of lists by a comparison (`Sorter`), and the sort
that is run (`Sorter.standard`).

A comparison orders a list when it is total and transitive on its elements. Then
sorting gives a result, in order and stable. Where it orders nothing a sort may break
off, and a result that it gives all the same is in no order that callers could name.
-/

namespace GridQuery

namespace Sorter

variable {α : Type}

/-! ## What is relied on -/

/-- Whether a comparison orders the elements of a list. -/
structure Orders (compare : α → α → Ordering) (xs : List α) : Prop where
  swap : ∀ a ∈ xs, ∀ b ∈ xs, compare b a = (compare a b).swap
  trans : ∀ a ∈ xs, ∀ b ∈ xs, ∀ c ∈ xs,
    compare a b ≠ .gt → compare b c ≠ .gt → compare a c ≠ .gt

/-- Whether two elements are level. -/
def isLevel (compare : α → α → Ordering) (a b : α) : Bool := compare a b == .eq

/-- Whether `ys` is the list `xs` in order, with level elements in the order in which
they came. -/
structure Arranges (compare : α → α → Ordering) (xs ys : List α) : Prop where
  perm : ys.Perm xs
  inOrder : ys.Pairwise fun a b => compare a b ≠ .gt
  stable : ∀ a ∈ xs, ys.filter (isLevel compare a) = xs.filter (isLevel compare a)

end Sorter

/-- A sort of lists by a comparison, and what callers rely on. No result means that it
broke off. -/
structure Sorter where
  run : {α : Type} → (α → α → Ordering) → List α → Option (List α)
  /-- A result has the elements of the list, whatever the comparison is. -/
  perm : ∀ {α : Type} {compare : α → α → Ordering} {xs ys : List α},
    run compare xs = some ys → ys.Perm xs
  /-- Where the comparison orders the list, there is a result, and it is in order. -/
  arranges : ∀ {α : Type} {compare : α → α → Ordering} {xs : List α},
    Sorter.Orders compare xs → ∃ ys, run compare xs = some ys ∧ Sorter.Arranges compare xs ys

namespace Sorter

variable {α : Type} {compare : α → α → Ordering} {x : α} {xs : List α}

theorem Orders.mono {ys : List α} (h : Orders compare xs) (hsub : ∀ a ∈ ys, a ∈ xs) :
    Orders compare ys where
  swap a ha b hb := h.swap a (hsub a ha) b (hsub b hb)
  trans a ha b hb c hc := h.trans a (hsub a ha) b (hsub b hb) c (hsub c hc)

theorem Orders.of_cons {a : α} (h : Orders compare (a :: xs)) : Orders compare xs :=
  h.mono fun _ => List.mem_cons_of_mem a

/-! ## Insertion -/

/-- Inserts an element into a list whose greatest element comes first, behind the
elements that are greater. -/
def insertBack (compare : α → α → Ordering) (x : α) : List α → List α
  | [] => [x]
  | y :: ys => if compare x y = .lt then y :: insertBack compare x ys else x :: y :: ys

/-- The elements of a list, the greatest first, where the last one is inserted first. -/
def backward (compare : α → α → Ordering) (xs : List α) : List α :=
  xs.foldr (insertBack compare) []

/-- The list with its elements inserted one after another. -/
def insertion (compare : α → α → Ordering) (xs : List α) : List α :=
  (backward compare xs.reverse).reverse

theorem insertBack_perm (compare : α → α → Ordering) (x : α) (ys : List α) :
    (insertBack compare x ys).Perm (x :: ys) := by
  induction ys with
  | nil => exact .refl _
  | cons y ys ih =>
    unfold insertBack
    split
    · exact (ih.cons y).trans (.swap x y ys)
    · exact .refl _

theorem backward_perm (compare : α → α → Ordering) (xs : List α) :
    (backward compare xs).Perm xs := by
  induction xs with
  | nil => exact .refl _
  | cons x xs ih => exact (insertBack_perm compare x _).trans (ih.cons x)

theorem insertion_perm (compare : α → α → Ordering) (xs : List α) :
    (insertion compare xs).Perm xs :=
  (List.reverse_perm _).trans ((backward_perm compare _).trans (List.reverse_perm _))

/-- Inserting keeps a list in order, the greatest element first. -/
theorem pairwise_insertBack {ys : List α} (h : Orders compare (x :: ys))
    (hys : ys.Pairwise fun a b => compare b a ≠ .gt) :
    (insertBack compare x ys).Pairwise fun a b => compare b a ≠ .gt := by
  induction ys with
  | nil => exact List.pairwise_singleton _ _
  | cons y ys ih =>
    obtain ⟨hy, htail⟩ := List.pairwise_cons.1 hys
    have hxy : compare y x = (compare x y).swap := h.swap x (by simp) y (by simp)
    unfold insertBack
    split
    · rename_i hlt
      refine List.pairwise_cons.2 ⟨fun z hz => ?_, ih (h.mono (by simp; grind)) htail⟩
      rcases List.mem_cons.1 ((insertBack_perm compare x ys).mem_iff.1 hz) with rfl | hz
      · simp [hlt]
      · exact hy z hz
    · rename_i hnlt
      have hle : compare y x ≠ .gt := by
        rw [hxy]
        cases hcmp : compare x y <;> simp_all
      refine List.pairwise_cons.2 ⟨fun z hz => ?_, hys⟩
      rcases List.mem_cons.1 hz with rfl | hz'
      · exact hle
      · exact h.trans z (by simp [hz']) y (by simp) x (by simp) (hy z hz') hle

/-- An element is inserted in front of all elements that are level with it. -/
theorem filter_insertBack {a : α} {ys : List α} (h : Orders compare (a :: x :: ys)) :
    (insertBack compare x ys).filter (isLevel compare a) =
      (x :: ys).filter (isLevel compare a) := by
  induction ys with
  | nil => rfl
  | cons y ys ih =>
    unfold insertBack
    split
    · rename_i hlt
      have hih := ih (h.mono (by simp; grind))
      by_cases hx : isLevel compare a x
      · -- What is less than `y` is not level with `a` unless `y` is not.
        have hy : ¬ isLevel compare a y := by
          intro hy
          have hya : compare y a = (compare a y).swap := h.swap a (by simp) y (by simp)
          have hyx : compare y x = (compare x y).swap := h.swap x (by simp) y (by simp)
          simp only [isLevel, beq_iff_eq] at hx hy
          refine h.trans y (by simp) a (by simp) x (by simp) ?_ ?_ ?_
          · simp [hya, hy]
          · simp [hx]
          · simp [hyx, hlt]
        rw [List.filter_cons_of_neg hy, hih, List.filter_cons_of_pos hx, List.filter_cons_of_pos hx,
          List.filter_cons_of_neg hy]
      · rw [List.filter_cons, hih, List.filter_cons_of_neg hx, List.filter_cons_of_neg hx,
          List.filter_cons]
    · rfl

theorem pairwise_backward (h : Orders compare xs) :
    (backward compare xs).Pairwise fun a b => compare b a ≠ .gt := by
  induction xs with
  | nil => exact .nil
  | cons x xs ih =>
    have hmem : ∀ a ∈ x :: backward compare xs, a ∈ x :: xs := fun a =>
      ((backward_perm compare xs).cons x).mem_iff.1
    exact pairwise_insertBack (h.mono hmem) (ih h.of_cons)

theorem filter_backward {a : α} (h : Orders compare (a :: xs)) :
    (backward compare xs).filter (isLevel compare a) = xs.filter (isLevel compare a) := by
  induction xs with
  | nil => rfl
  | cons x xs ih =>
    have hmem : ∀ b ∈ a :: x :: backward compare xs, b ∈ a :: x :: xs := fun b =>
      (((backward_perm compare xs).cons x).cons a).mem_iff.1
    have htail := ih (h.mono (by simp; grind))
    show (insertBack compare x (backward compare xs)).filter _ = _
    rw [filter_insertBack (h.mono hmem), List.filter_cons, htail, List.filter_cons]

/-- **Insertion** brings a list that the comparison orders into order. -/
theorem arranges_insertion (h : Orders compare xs) : Arranges compare xs (insertion compare xs) where
  perm := insertion_perm compare xs
  inOrder := by
    have hreverse : Orders compare xs.reverse := h.mono fun a => List.mem_reverse.1
    exact List.pairwise_reverse.2 (pairwise_backward hreverse)
  stable a ha := by
    have hreverse : Orders compare (a :: xs.reverse) := h.mono (by simpa using ha)
    rw [insertion, List.filter_reverse, filter_backward hreverse, List.filter_reverse,
      List.reverse_reverse]

/-! ## The sort that is run -/

/-- The sort that is run. It breaks off when the elements of a list of more than 20 do
not come out in order. -/
def standard : Sorter where
  run compare xs :=
    let ys := insertion compare xs
    if xs.length ≤ 20 ∨ ys.Pairwise (fun a b => compare a b ≠ .gt) then some ys else none
  perm := by
    intro α compare xs ys h
    obtain ⟨-, h⟩ := (Option.ite_none_right_eq_some).1 h
    exact Option.some.inj h ▸ insertion_perm compare xs
  arranges := by
    intro α compare xs h
    have harranges := arranges_insertion h
    exact ⟨_, if_pos (.inr harranges.inOrder), harranges⟩

end Sorter

end GridQuery
