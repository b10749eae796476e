/-!
# Pieces of text

Text is cut and rebuilt on lists of characters, where recursion follows the
data. `split` cuts at every separator and never drops a piece, `join` puts the
pieces back, and `trim` removes the blank characters at both ends.

The main statements are `join_split` (nothing is lost by cutting) and
`pieces_joined_eq_iff` (joined texts come back as they were exactly when none of
them holds the separator).
-/

namespace GridQuery.Text

/-! ## Cutting and joining -/

/-- The pieces of a text between the occurrences of `sep`. There is always at
least one piece, and pieces may be empty. -/
def split (sep : Char) : List Char → List (List Char)
  | [] => [[]]
  | c :: rest =>
      if c = sep then [] :: split sep rest
      else
        match split sep rest with
        | [] => [[c]]
        | piece :: pieces => (c :: piece) :: pieces

/-- The pieces one after another, with `sep` between neighbours. -/
def join (sep : List Char) : List (List Char) → List Char
  | [] => []
  | [piece] => piece
  | piece :: pieces => piece ++ sep ++ join sep pieces

theorem split_ne_nil (sep : Char) (s : List Char) : split sep s ≠ [] := by
  cases s with
  | nil => simp [split]
  | cons c rest =>
    simp only [split]
    split
    · simp
    · split <;> simp

theorem join_cons {sep : List Char} {piece : List Char} {pieces : List (List Char)}
    (h : pieces ≠ []) : join sep (piece :: pieces) = piece ++ sep ++ join sep pieces := by
  cases pieces with
  | nil => exact absurd rfl h
  | cons q qs => rfl

theorem join_eq_intercalate (sep : List Char) (pieces : List (List Char)) :
    join sep pieces = sep.intercalate pieces := by
  induction pieces with
  | nil => rw [join, List.intercalate_nil]
  | cons piece pieces ih =>
    cases pieces with
    | nil => rw [join, List.intercalate_singleton]
    | cons next pieces => rw [join_cons (by simp), ih, List.intercalate_cons_cons, List.append_assoc]

/-- Cutting loses nothing: the pieces joined again are the text. -/
theorem join_split (sep : Char) (s : List Char) : join [sep] (split sep s) = s := by
  induction s with
  | nil => rfl
  | cons c rest ih =>
    simp only [split]
    split
    · rename_i h
      rw [join_cons (split_ne_nil sep rest), ih, h]
      rfl
    · split
      · rename_i h
        exact absurd h (split_ne_nil sep rest)
      · rename_i piece pieces h
        rw [h] at ih
        cases pieces with
        | nil => simpa [join] using ih
        | cons q qs =>
          rw [join_cons (by simp)] at ih ⊢
          simpa using ih

/-- No piece holds the separator. -/
theorem not_mem_of_mem_split {sep : Char} {s : List Char} {piece : List Char}
    (h : piece ∈ split sep s) : sep ∉ piece := by
  induction s generalizing piece with
  | nil =>
    simp only [split, List.mem_singleton] at h
    simp [h]
  | cons c rest ih =>
    simp only [split] at h
    split at h
    · rcases List.mem_cons.1 h with rfl | h
      · simp
      · exact ih h
    · rename_i hc
      split at h
      · rename_i hs
        exact absurd hs (split_ne_nil sep rest)
      · rename_i p ps hs
        rcases List.mem_cons.1 h with rfl | h
        · have hp : sep ∉ p := ih (by rw [hs]; simp)
          intro hm
          rcases List.mem_cons.1 hm with rfl | hm
          · exact hc rfl
          · exact hp hm
        · exact ih (by rw [hs]; simp [h])

theorem split_of_not_mem {sep : Char} {s : List Char} (h : sep ∉ s) : split sep s = [s] := by
  induction s with
  | nil => rfl
  | cons c rest ih =>
    simp only [List.mem_cons, not_or] at h
    rw [split, if_neg (fun hc => h.1 hc.symm), ih h.2]

/-- A separator cuts a text, whatever stands before it. -/
theorem split_append (sep : Char) (u v : List Char) :
    split sep (u ++ sep :: v) = split sep u ++ split sep v := by
  induction u with
  | nil => simp [split]
  | cons c u ih =>
    by_cases hc : c = sep
    · rw [List.cons_append, split, if_pos hc, ih, split, if_pos hc, List.cons_append]
    · rw [List.cons_append, split, if_neg hc, ih, split, if_neg hc]
      cases hu : split sep u with
      | nil => exact absurd hu (split_ne_nil sep u)
      | cons piece pieces => rfl

/-- Cutting texts that were joined cuts each of them. -/
theorem split_join (sep : Char) {texts : List (List Char)} (hne : texts ≠ []) :
    split sep (join [sep] texts) = texts.flatMap (split sep) := by
  induction texts with
  | nil => exact absurd rfl hne
  | cons s texts ih =>
    cases texts with
    | nil => simp [join]
    | cons t texts =>
      rw [join_cons (by simp), List.append_assoc, List.singleton_append, split_append,
        ih (by simp), ← List.flatMap_cons]

/-! ## Strings -/

/-- The pieces of a string between the occurrences of `sep`. -/
def pieces (sep : Char) (s : String) : List String :=
  (split sep s.toList).map String.ofList

/-- Strings one after another, with `sep` between neighbours. -/
def joined (sep : String) (parts : List String) : String :=
  String.ofList (join sep.toList (parts.map String.toList))

theorem joined_eq_intercalate (sep : String) (parts : List String) :
    joined sep parts = sep.intercalate parts := by
  rw [joined, join_eq_intercalate, ← String.toList_intercalate, String.ofList_toList]

theorem joined_pieces (sep : Char) (s : String) :
    joined (String.ofList [sep]) (pieces sep s) = s := by
  have h : (List.map String.ofList (split sep s.toList)).map String.toList =
      split sep s.toList := by
    simp [List.map_map, Function.comp_def]
  rw [joined, pieces, h, String.toList_ofList, join_split, String.ofList_toList]

theorem not_mem_of_mem_pieces {sep : Char} {s piece : String} (h : piece ∈ pieces sep s) :
    sep ∉ piece.toList := by
  obtain ⟨letters, hletters, rfl⟩ := List.mem_map.1 h
  rw [String.toList_ofList]
  exact not_mem_of_mem_split hletters

theorem pieces_of_not_mem {sep : Char} {s : String} (h : sep ∉ s.toList) :
    pieces sep s = [s] := by
  rw [pieces, split_of_not_mem h, List.map_singleton, String.ofList_toList]

theorem pieces_joined (sep : Char) {parts : List String} (hne : parts ≠ []) :
    pieces sep (joined (String.ofList [sep]) parts) = parts.flatMap (pieces sep) := by
  rw [pieces, joined, String.toList_ofList, String.toList_ofList, split_join _ (by simpa using hne),
    List.flatMap_map, List.map_flatMap]
  rfl

/-- **Joined strings come back** exactly when none of them holds the separator. -/
theorem pieces_joined_eq_iff {sep : Char} {parts : List String} (hne : parts ≠ []) :
    pieces sep (joined (String.ofList [sep]) parts) = parts ↔
      ∀ part ∈ parts, sep ∉ part.toList := by
  constructor
  · intro h part hpart
    rw [← h] at hpart
    exact not_mem_of_mem_pieces hpart
  · intro h
    rw [pieces_joined sep hne]
    clear hne
    induction parts with
    | nil => rfl
    | cons part parts ih =>
      rw [List.flatMap_cons, pieces_of_not_mem (h part (by simp)),
        ih fun p hp => h p (by simp [hp]), List.singleton_append]

/-! ## Blank characters -/

/-- The characters with the Unicode property White_Space. -/
def isBlank (c : Char) : Bool :=
  let n := c.toNat
  (9 ≤ n && n ≤ 13) || n == 0x20 || n == 0x85 || n == 0xA0 || n == 0x1680 ||
    (0x2000 ≤ n && n ≤ 0x200A) || n == 0x2028 || n == 0x2029 || n == 0x202F || n == 0x205F ||
    n == 0x3000

/-- The text without its leading blank characters. -/
def trimStart (s : List Char) : List Char := s.dropWhile isBlank

/-- The text without blank characters at either end. -/
def trim (s : List Char) : List Char := (trimStart (trimStart s).reverse).reverse

/-! ## Letter case -/

/-- A character with the capital letters of ASCII made small. -/
def lowerChar (c : Char) : Char :=
  if 'A' ≤ c ∧ c ≤ 'Z' then Char.ofNat (c.toNat + 32) else c

/-- A text with the capital letters of ASCII made small. -/
def lower (s : List Char) : List Char := s.map lowerChar

/-! ## Order -/

/-- Texts in the order of their code points; a text comes after its own
beginnings. -/
def order : List Char → List Char → Ordering
  | [], [] => .eq
  | [], _ :: _ => .lt
  | _ :: _, [] => .gt
  | c :: cs, d :: ds => (compare c.toNat d.toNat).then (order cs ds)

end GridQuery.Text
