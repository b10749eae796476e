import GridQuery.Settings.Environment
import Mathlib.Data.List.Infix
import Mathlib.Data.List.TakeWhile

/-!
# Expansion as one reading of the text

The values of environment variables are meant to be put into a text in one reading of it, from
left to right, with nothing inside a value read again (`Environment.interpolate`). The
expansion goes through the whole text once for every mention, and what it finds there can be
part of a value, or straddle a value and its surroundings, or lie inside the mention of
another variable.

None of this happens in a text without two `$` in a row, whose mentions have no `$` in the name
of the variable and none in its value (`Environment.Plain`). In such a text every replacement
acts on each mention by itself (`replaceAll_fillIn`), so the order of the variables does not
matter, and the expansion is the single reading.

## Main results

* `mentioned?_eq_some_iff` — what a mention is.
* `Environment.expand_eq_interpolate` — in plain texts the expansion is the single reading.
* `Environment.expand_rescans` — in other texts it is not.
-/

namespace GridQuery.Environment

/-! ## The single reading -/

/-- The text with something in place of every mention, and everything else as it is written;
`skip` characters still belong to the last mention. -/
def fillIn (fill : List Char → List Char) : (skip : Nat) → List Char → List Char
  | _, [] => []
  | skip + 1, _ :: rest => fillIn fill skip rest
  | 0, c :: rest =>
      match mentioned? (c :: rest) with
      | some name => fill name ++ fillIn fill (name.length + 2) rest
      | none => c :: fillIn fill 0 rest

/-- The text with the value of each variable in place of its mentions, read once from left to
right. The mentions of variables that are not set stay. -/
def interpolate (env : Environment) (s : List Char) : List Char :=
  fillIn (fun name => (env.value? name).getD (mention name)) 0 s

/-- Texts in which no mention arises from putting in a value. -/
structure Plain (env : Environment) (s : List Char) : Prop where
  text : ¬ ['$', '$'] <:+: s
  names : ∀ name ∈ mentions 0 s, '$' ∉ name
  values : ∀ name ∈ mentions 0 s, ∀ value, env.value? name = some value → '$' ∉ value

variable {env : Environment} {fill : List Char → List Char} {name other s t new : List Char}

/-! ## Mentions -/

/-- What stands between the braces of a mention. -/
structure IsName (name : List Char) : Prop where
  nonempty : name ≠ []
  closed : '\x7d' ∉ name

theorem takeWhile_ne_append {c : Char} {front : List Char} (h : c ∉ front) (back : List Char) :
    (front ++ c :: back).takeWhile (· ≠ c) = front := by
  have hfront : ∀ x ∈ front, decide (x ≠ c) = true := by
    intro x hx
    exact decide_eq_true fun heq => h (heq ▸ hx)
  rw [List.takeWhile_append_of_pos hfront, List.takeWhile_cons_of_neg (by simp), List.append_nil]

theorem mentioned?_eq_some_iff :
    mentioned? s = some name ↔ IsName name ∧ mention name <+: s := by
  constructor
  · intro h
    unfold mentioned? at h
    split at h
    · rename_i rest
      by_cases hbrace : '\x7d' ∈ rest
      · obtain ⟨front, back, rfl, hfront⟩ := List.eq_append_cons_of_mem hbrace
        simp only [takeWhile_ne_append hfront] at h
        split at h
        · cases h
        · rename_i hname
          obtain rfl := Option.some.inj h
          refine ⟨⟨?_, hfront⟩, back, by simp [mention]⟩
          rintro rfl
          simp at hname
      · have hall : rest.takeWhile (· ≠ '\x7d') = rest :=
          List.takeWhile_eq_self_iff.2 fun x hx => decide_eq_true fun heq => hbrace (heq ▸ hx)
        simp only [hall, decide_true, Bool.or_true, if_true] at h
        cases h
    · cases h
  · rintro ⟨hname, tail, rfl⟩
    rw [mention, List.append_assoc, List.cons_append, List.cons_append, List.singleton_append,
      mentioned?]
    simp only [takeWhile_ne_append hname.closed]
    simp [hname.nonempty]

theorem mentioned?_mention (h : IsName name) (rest : List Char) :
    mentioned? (mention name ++ rest) = some name :=
  mentioned?_eq_some_iff.2 ⟨h, List.prefix_append _ _⟩

theorem isName_of_mem_mentions {skip : Nat} (h : name ∈ mentions skip s) : IsName name := by
  induction skip, s using mentions.induct with
  | case1 skip => cases skip <;> cases h
  | case2 skip c rest ih => exact ih h
  | case3 c rest found hmention ih =>
    rw [mentions, hmention] at h
    rcases List.mem_cons.1 h with rfl | h
    · exact (mentioned?_eq_some_iff.1 hmention).1
    · exact ih h
  | case4 c rest hmention ih =>
    rw [mentions, hmention] at h
    exact ih h

/-! ## Filling in -/

/-- With every mention in its own place the text stays. -/
theorem fillIn_mention (skip : Nat) (s : List Char) : fillIn mention skip s = s.drop skip := by
  induction skip, s using mentions.induct with
  | case1 skip => simp [fillIn]
  | case2 skip c rest ih => exact ih
  | case3 c rest found hmention ih =>
    obtain ⟨-, tail, htail⟩ := mentioned?_eq_some_iff.1 hmention
    have hrest : rest.drop (found.length + 2) = tail := by
      rw [mention, List.cons_append, List.cons_append, List.cons_append,
        List.cons.injEq] at htail
      simp [← htail.2]
    rw [fillIn, hmention]
    simp only [ih, hrest, htail, List.drop_zero]
  | case4 c rest hmention ih => simp [fillIn, hmention, ih]

theorem fillIn_congr {fill' : List Char → List Char} {skip : Nat}
    (h : ∀ name ∈ mentions skip s, fill name = fill' name) :
    fillIn fill skip s = fillIn fill' skip s := by
  induction skip, s using mentions.induct with
  | case1 skip => simp [fillIn]
  | case2 skip c rest ih => exact ih h
  | case3 c rest found hmention ih =>
    rw [mentions, hmention] at h
    have hrest := ih fun name hname => h name (List.mem_cons_of_mem found hname)
    simp only [fillIn, hmention, h found (by simp), hrest]
  | case4 c rest hmention ih =>
    rw [mentions, hmention] at h
    simp only [fillIn, hmention, ih h]

/-- Text without a closing brace has no mentions. -/
theorem fillIn_of_not_mem (h : '\x7d' ∉ s) : fillIn fill 0 s = s := by
  induction s with
  | nil => rfl
  | cons c rest ih =>
    have hnone : mentioned? (c :: rest) = none :=
      Option.eq_none_iff_forall_ne_some.2 fun name hname =>
        h ((mentioned?_eq_some_iff.1 hname).2.subset (by simp [mention]))
    rw [fillIn, hnone]
    simp only [List.cons.injEq, true_and]
    exact ih fun hmem => h (by simp [hmem])

theorem fillIn_cons_of_ne {c : Char} (h : c ≠ '$') (rest : List Char) :
    fillIn fill 0 (c :: rest) = c :: fillIn fill 0 rest := by
  have hnone : mentioned? (c :: rest) = none := by
    unfold mentioned?
    split
    · rename_i heq
      exact absurd (List.cons.inj heq).1 h
    · rfl
  rw [fillIn, hnone]

/-- Where a text mentions no variable, it mentions none either with its later mentions
filled in. -/
theorem not_prefix_cons_fillIn {c : Char} {rest : List Char} (hname : IsName name)
    (hnone : mentioned? (c :: rest) = none) (htext : ¬ ['$', '$'] <:+: c :: rest) :
    ¬ mention name <+: c :: fillIn fill 0 rest := by
  intro h
  rw [mention, List.cons_append, List.cons_append, List.cons_prefix_cons] at h
  obtain ⟨rfl, h⟩ := h
  cases rest with
  | nil => simp [fillIn] at h
  | cons d rest =>
    -- No mention begins right behind the `$`, and the next character has to be a brace.
    have hd : d ≠ '$' := by
      rintro rfl
      exact htext ⟨[], rest, rfl⟩
    rw [fillIn_cons_of_ne hd, List.cons_prefix_cons] at h
    obtain ⟨rfl, h⟩ := h
    cases rest with
    | nil => simp [fillIn] at h
    | cons e rest =>
      by_cases he : e = '\x7d'
      · -- The braces have nothing between them.
        subst he
        rw [fillIn_cons_of_ne (by decide)] at h
        cases name with
        | nil => exact hname.nonempty rfl
        | cons x name =>
          rw [List.cons_append, List.cons_prefix_cons] at h
          exact hname.closed (by simp [h.1])
      · -- The brace is never closed.
        have hopen : '\x7d' ∉ e :: rest := by
          intro hmem
          obtain ⟨front, back, hsplit, hfront⟩ := List.eq_append_cons_of_mem hmem
          have hne : front ≠ [] := by
            rintro rfl
            exact he (List.cons.inj hsplit).1
          have hsome := mentioned?_mention ⟨hne, hfront⟩ back
          rw [mention, List.append_assoc, List.cons_append, List.cons_append,
            List.singleton_append, ← hsplit, hnone] at hsome
          cases hsome
        rw [fillIn_of_not_mem hopen] at h
        exact hopen (h.subset (by simp))

/-! ## Replacing the mentions of one variable -/

theorem replaceAll_skip (old new : List Char) (skip : Nat) (s : List Char) :
    replaceAll old new skip s = replaceAll old new 0 (s.drop skip) := by
  induction s generalizing skip with
  | nil => simp [replaceAll]
  | cons c rest ih =>
    cases skip with
    | succ skip => exact ih skip
    | zero => rfl

theorem replaceAll_cons_of_no_match {old : List Char} {c : Char}
    (h : ¬ old <+: c :: s) : replaceAll old new 0 (c :: s) = c :: replaceAll old new 0 s := by
  rw [replaceAll, if_neg (by simpa using h)]

/-- Text without a `$` stays. -/
theorem replaceAll_append_of_not_mem (h : '$' ∉ t) (rest : List Char) :
    replaceAll (mention name) new 0 (t ++ rest) =
      t ++ replaceAll (mention name) new 0 rest := by
  induction t with
  | nil => rfl
  | cons c t ih =>
    rw [List.mem_cons, not_or] at h
    have hprefix : ¬ mention name <+: c :: (t ++ rest) := by
      rw [mention, List.cons_append, List.cons_append, List.cons_prefix_cons]
      exact fun hc => h.1 hc.1
    rw [List.cons_append, replaceAll_cons_of_no_match hprefix, ih h.2, List.cons_append]

theorem replaceAll_of_not_mem (h : '$' ∉ t) : replaceAll (mention name) new 0 t = t := by
  have happend : replaceAll (mention name) new 0 (t ++ []) = t ++ [] :=
    replaceAll_append_of_not_mem h []
  rwa [List.append_nil] at happend

theorem replaceAll_mention_self (name new rest : List Char) :
    replaceAll (mention name) new 0 (mention name ++ rest) =
      new ++ replaceAll (mention name) new 0 rest := by
  conv_lhs => rw [mention, List.cons_append, List.cons_append, List.cons_append, replaceAll]
  rw [if_pos (by simp), replaceAll_skip]
  simp [mention]

theorem replaceAll_mention_other (hname : IsName name) (hother : IsName other)
    (hdollar : '$' ∉ other) (hne : other ≠ name) (rest : List Char) :
    replaceAll (mention name) new 0 (mention other ++ rest) =
      mention other ++ replaceAll (mention name) new 0 rest := by
  have hprefix : ¬ mention name <+: mention other ++ rest := by
    intro h
    have hboth := (mentioned?_mention hother rest).symm.trans
      (mentioned?_eq_some_iff.2 ⟨hname, h⟩)
    exact hne (Option.some.inj hboth)
  have htail : '$' ∉ '\x7b' :: other ++ ['\x7d'] := by simp [hdollar]
  have hsplit : mention other ++ rest = '$' :: (('\x7b' :: other ++ ['\x7d']) ++ rest) := rfl
  rw [hsplit] at hprefix ⊢
  rw [replaceAll_cons_of_no_match hprefix, replaceAll_append_of_not_mem htail]
  rfl

theorem replaceAll_mention_append (hname : IsName name) (hother : IsName other)
    (hdollar : '$' ∉ other) (rest : List Char) :
    replaceAll (mention name) new 0 (mention other ++ rest) =
      (if other = name then new else mention other) ++ replaceAll (mention name) new 0 rest := by
  by_cases heq : other = name
  · subst heq
    rw [if_pos rfl, replaceAll_mention_self]
  · rw [if_neg heq, replaceAll_mention_other hname hother hdollar heq]

theorem replaceAll_mention (hname : IsName name) (hother : IsName other)
    (hdollar : '$' ∉ other) :
    replaceAll (mention name) new 0 (mention other) =
      if other = name then new else mention other := by
  rw [← List.append_nil (mention other), replaceAll_mention_append hname hother hdollar]
  simp [replaceAll]

/-- What a replacement treats by itself in the place of a mention: the mention as it is
written, or text without a `$`. -/
def Inert (name t : List Char) : Prop := t = mention name ∨ '$' ∉ t

theorem replaceAll_append_of_inert (hname : IsName name) (hother : IsName other)
    (hdollar : '$' ∉ other) (ht : Inert other t) (rest : List Char) :
    replaceAll (mention name) new 0 (t ++ rest) =
      replaceAll (mention name) new 0 t ++ replaceAll (mention name) new 0 rest := by
  rcases ht with rfl | ht
  · rw [replaceAll_mention_append hname hother hdollar, replaceAll_mention hname hother hdollar]
  · rw [replaceAll_append_of_not_mem ht, replaceAll_of_not_mem ht]

/-- **One replacement** in a text with its mentions filled in acts on each filling by itself. -/
theorem replaceAll_fillIn {skip : Nat} (hname : IsName name) (htext : ¬ ['$', '$'] <:+: s)
    (hfill : ∀ other ∈ mentions skip s, '$' ∉ other ∧ Inert other (fill other)) :
    replaceAll (mention name) new 0 (fillIn fill skip s) =
      fillIn (fun other => replaceAll (mention name) new 0 (fill other)) skip s := by
  have htail : ∀ c rest, ¬ ['$', '$'] <:+: c :: rest → ¬ ['$', '$'] <:+: rest :=
    fun c rest htext h => htext (h.trans (List.suffix_cons c rest).isInfix)
  induction skip, s using mentions.induct with
  | case1 skip => simp [fillIn, replaceAll]
  | case2 skip c rest ih => exact ih (htail c rest htext) hfill
  | case3 c rest found hmention ih =>
    rw [mentions, hmention] at hfill
    obtain ⟨hdollar, hinert⟩ := hfill found (by simp)
    have hrest := ih (htail c rest htext) fun other hother => hfill other (by simp [hother])
    simp only [fillIn, hmention]
    rw [replaceAll_append_of_inert hname (mentioned?_eq_some_iff.1 hmention).1 hdollar hinert,
      hrest]
  | case4 c rest hmention ih =>
    rw [mentions, hmention] at hfill
    simp only [fillIn, hmention]
    rw [replaceAll_cons_of_no_match (not_prefix_cons_fillIn hname hmention htext),
      ih (htail c rest htext) hfill]

/-! ## Variables one after another -/

/-- What stands for a mention when the variables in `done` have been replaced. -/
def filling (env : Environment) (done : List (List Char)) (name : List Char) : List Char :=
  if name ∈ done then (env.value? name).getD (mention name) else mention name

theorem inert_filling (h : ∀ value, env.value? name = some value → '$' ∉ value)
    (done : List (List Char)) : Inert name (env.filling done name) := by
  unfold filling
  split
  · cases hvalue : env.value? name with
    | none => exact .inl rfl
    | some value => exact .inr (h value hvalue)
  · exact .inl rfl

/-- Replacing one more variable in the filling of a mention. -/
theorem substitute_filling (hname : IsName name) (hother : IsName other) (hdollar : '$' ∉ other)
    (hvalue : ∀ value, env.value? other = some value → '$' ∉ value) (done : List (List Char)) :
    env.substitute (env.filling done other) name = env.filling (name :: done) other := by
  unfold substitute
  cases hset : env.value? name with
  | none =>
    by_cases heq : other = name
    · subst heq
      simp [filling, hset]
    · simp [filling, heq]
  | some value =>
    by_cases heq : other = name
    · subst heq
      by_cases hdone : other ∈ done
      · simp [filling, hdone, hset, replaceAll_of_not_mem (hvalue value hset)]
      · simp [filling, hdone, hset, replaceAll_mention hname hother hdollar]
    · have hstays : replaceAll (mention name) value 0 (env.filling done other) =
          env.filling done other := by
        rcases inert_filling hvalue done with hmention | hplain
        · rw [hmention, replaceAll_mention hname hother hdollar, if_neg heq]
        · exact replaceAll_of_not_mem hplain
      simp only [hstays]
      simp [filling, heq]

/-- **One variable** more is replaced, and nothing else happens. -/
theorem substitute_fillIn (h : env.Plain s) (hname : IsName name) (done : List (List Char)) :
    env.substitute (fillIn (env.filling done) 0 s) name =
      fillIn (env.filling (name :: done)) 0 s := by
  have hinert : ∀ other ∈ mentions 0 s, '$' ∉ other ∧ Inert other (env.filling done other) :=
    fun other hother => ⟨h.names other hother, inert_filling (h.values other hother) done⟩
  have hstep : env.substitute (fillIn (env.filling done) 0 s) name =
      fillIn (fun other => env.substitute (env.filling done other) name) 0 s := by
    unfold substitute
    cases env.value? name with
    | none => rfl
    | some value => exact replaceAll_fillIn hname h.text hinert
  rw [hstep]
  exact fillIn_congr fun other hother => substitute_filling hname
    (isName_of_mem_mentions hother) (h.names other hother) (h.values other hother) done

/-- **Any variables**, one after another. -/
theorem foldl_substitute_fillIn (h : env.Plain s) {names : List (List Char)}
    (hnames : ∀ name ∈ names, IsName name) (done : List (List Char)) :
    names.foldl env.substitute (fillIn (env.filling done) 0 s) =
      fillIn (env.filling (names.reverse ++ done)) 0 s := by
  induction names generalizing done with
  | nil => rfl
  | cons name names ih =>
    rw [List.foldl_cons, substitute_fillIn h (hnames name (by simp)),
      ih fun other hother => hnames other (by simp [hother])]
    simp

/-- In a plain text the mentioned variables can be replaced in any order. -/
theorem foldl_substitute_eq_interpolate (h : env.Plain s) {names : List (List Char)}
    (hnames : ∀ name, name ∈ names ↔ name ∈ mentions 0 s) :
    names.foldl env.substitute s = env.interpolate s := by
  have hstart : fillIn (env.filling []) 0 s = s := by
    have hfill : env.filling [] = mention := by
      funext name
      simp [filling]
    rw [hfill, fillIn_mention, List.drop_zero]
  have hrun := foldl_substitute_fillIn h
    (fun name hname => isName_of_mem_mentions ((hnames name).1 hname)) []
  rw [hstart] at hrun
  rw [hrun, interpolate]
  refine fillIn_congr fun name hname => ?_
  simp [filling, (hnames name).2 hname]

/-- **Expansion as a single reading.** In a plain text the expansion puts the values of
variables in place of their mentions in one reading from left to right, leaves everything else
as it is written, and the order in which the variables occur does not matter. -/
theorem expand_eq_interpolate (h : env.Plain s) :
    env.expand s = env.interpolate s ∧
      ∀ names : List (List Char), names.Perm (mentions 0 s) →
        names.foldl env.substitute s = env.expand s := by
  have hexpand : env.expand s = env.interpolate s :=
    foldl_substitute_eq_interpolate h fun name => Iff.rfl
  refine ⟨hexpand, fun names hperm => ?_⟩
  rw [hexpand]
  exact foldl_substitute_eq_interpolate h fun name => hperm.mem_iff

/-- A text with two variables that are set, each mentioned in places of its own, and one that
is not. -/
theorem expand_eq_interpolate_host :
    let env : Environment := ⟨[("HOST", "db.local"), ("PORT", "5432")]⟩
    let s := "$\x7bHOST\x7d:$\x7bPORT\x7d/$\x7bNAME\x7d?via=$\x7bHOST\x7d".toList
    env.Plain s ∧ env.expand s = env.interpolate s ∧
      env.interpolate s = "db.local:5432/$\x7bNAME\x7d?via=db.local".toList := by
  intro env s
  have hmentions : mentions 0 s =
      ["HOST".toList, "PORT".toList, "NAME".toList, "HOST".toList] := by decide
  have hplain : env.Plain s := by
    refine ⟨by decide, ?_, ?_⟩
    · rw [hmentions]
      decide
    · rw [hmentions]
      intro name hname value hvalue
      simp only [List.mem_cons, List.not_mem_nil, or_false] at hname
      rcases hname with rfl | rfl | rfl | rfl
      · obtain rfl : "db.local".toList = value := Option.some.inj hvalue
        decide
      · obtain rfl : "5432".toList = value := Option.some.inj hvalue
        decide
      · cases hvalue
      · obtain rfl : "db.local".toList = value := Option.some.inj hvalue
        decide
  exact ⟨hplain, (expand_eq_interpolate hplain).1, by decide⟩

/-- **Values are read again.** When the value of `A` mentions `B`, a mention of `B` that comes
later in the text replaces the one in the value too, and one that comes earlier does not. And
when the mention of a variable that is not set ends like a mention of `B`, a mention of `B`
that comes later changes it. -/
theorem expand_rescans :
    let env : Environment := ⟨[("A", "$\x7bB\x7d"), ("B", "b")]⟩
    let forth := "$\x7bA\x7d $\x7bB\x7d".toList
    let back := "$\x7bB\x7d $\x7bA\x7d".toList
    let nested := "$\x7bX$\x7bB\x7d $\x7bB\x7d".toList
    env.interpolate forth = "$\x7bB\x7d b".toList ∧ env.expand forth = "b b".toList ∧
      env.expand back = "b $\x7bB\x7d".toList ∧
      env.interpolate nested = "$\x7bX$\x7bB\x7d b".toList ∧
      env.expand nested = "$\x7bXb b".toList := by
  decide

end GridQuery.Environment
