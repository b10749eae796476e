import GridQuery.Data
import GridQuery.Proofs.MemberEntry

/-!
# Forms and their fields

A form in a message is a tree, and the tree that is sent has the entries of its records in the order
of their names, not in the order in which the form has them. Readers take their fields by name, so
this does not matter: from the sorted tree of a record with distinct names, a reader that passes
over unknown fields gets under each of its names what the record has there
(`Data.Layout.exists_entries?`).

`Data.Faithful` says what forms have to do: what they show of a value is read back, values that show
something different have different forms, and what has no form is refused.
-/

namespace GridQuery.Data

/-! ## Trees in order -/

/-- Whether a tree has no parts. -/
def isScalar : Data → Bool
  | .list _ | .record _ => false
  | _ => true

theorem sorted_of_isScalar {d : Data} (h : d.isScalar) : d.sorted = d := by
  cases d with
  | list items => cases h
  | record entries => cases h
  | _ => rw [sorted] <;> nofun

/-- What may be missing is in order if what there can be has no parts. -/
theorem sorted_ofOption {α : Type} (form : α → Data) (h : ∀ a, (form a).isScalar) (o : Option α) :
    (ofOption form o).sorted = ofOption form o := by
  cases o with
  | none => exact sorted_of_isScalar rfl
  | some a => exact sorted_of_isScalar (h a)

theorem sortedItems_eq_map (ds : List Data) : sortedItems ds = ds.map sorted := by
  induction ds with
  | nil => rfl
  | cons d ds ih => rw [sortedItems, ih, List.map_cons]

theorem sortedEntries_eq_map (es : List (String × Data)) :
    sortedEntries es = es.map fun e => (e.1, e.2.sorted) := by
  induction es with
  | nil => rfl
  | cons e es ih => rw [sortedEntries, ih, List.map_cons]

@[simp] theorem sorted_list (ds : List Data) : (list ds).sorted = .list (ds.map sorted) := by
  rw [sorted, sortedItems_eq_map]

/-- A record in order has the same entries, and these are in order themselves. -/
theorem exists_sorted_record (es : List (String × Data)) :
    ∃ es', (record es).sorted = .record es' ∧ es'.Perm (es.map fun e => (e.1, e.2.sorted)) := by
  refine ⟨_, by rw [sorted], ?_⟩
  rw [← sortedEntries_eq_map]
  exact List.mergeSort_perm _ _

@[simp] theorem sorted_record_singleton (name : String) (d : Data) :
    (record [(name, d)]).sorted = .record [(name, d.sorted)] := by
  simp [sorted, sortedEntries]

@[simp] theorem isList_sorted (d : Data) : d.sorted.isList = d.isList := by
  cases d <;> simp [sorted, isList]

/-! ## Fields -/

variable {es : List (String × Data)} {name : String} {d : Data}

theorem field?_eq_some_iff (hnames : (es.map Prod.fst).Nodup) :
    field? name es = some d ↔ (name, d) ∈ es := by
  rw [field?, Option.map_eq_some_iff]
  constructor
  · rintro ⟨e, he, rfl⟩
    obtain ⟨hmem, rfl⟩ := (find?_key_eq_some_iff hnames).1 he
    exact hmem
  · intro hmem
    exact ⟨(name, d), (find?_key_eq_some_iff hnames).2 ⟨hmem, rfl⟩, rfl⟩

/-- **What a reader gets from a record in order** is what the record has under each name. -/
theorem Layout.exists_entries? {l : Layout} (hopen : l.closed = false) (es : List (String × Data))
    (hnames : (es.map Prod.fst).Nodup) (dialect : Dialect) :
    ∃ own, l.entries? dialect (record es).sorted = some own ∧
      ∀ name, l.declares name → field? name own = (field? name es).map sorted := by
  obtain ⟨es', hsorted, hperm⟩ := exists_sorted_record es
  have hnames' : (es'.map Prod.fst).Nodup := by
    rw [(hperm.map Prod.fst).nodup_iff, List.map_map]
    exact hnames
  set own := es'.filter fun e => l.declares e.1 with hown
  have hdistinct : (own.map Prod.fst).Nodup :=
    (List.filter_sublist.map Prod.fst).nodup hnames'
  refine ⟨own, ?_, ?_⟩
  · have honce : ∀ f ∈ l.fields, ¬ 1 < own.countP fun e => e.1 == f.1 := by
      intro f _
      have hcount := List.nodup_iff_count_le_one.1 hdistinct f.1
      rw [List.count_eq_countP, List.countP_map] at hcount
      exact not_lt.2 hcount
    have hany : (l.fields.any fun f => 1 < own.countP fun e => e.1 == f.1) = false := by
      simpa using honce
    rw [hsorted]
    simp only [entries?, hopen, ← hown, hany, Bool.false_and, Bool.false_eq_true, if_false]
  · intro name hname
    have hown_iff : ∀ d, (name, d) ∈ own ↔ ∃ d', (name, d') ∈ es ∧ d'.sorted = d := by
      intro d
      simp [hown, hperm.mem_iff, hname]
    ext d
    simp only [field?_eq_some_iff hdistinct, Option.map_eq_some_iff, field?_eq_some_iff hnames,
      hown_iff]

/-! ## Readers of fields -/

section Readers

variable {α : Type} {form : α → Data} {form? : Data → Option α} {own : List (String × Data)}

theorem required_of_field? (h : field? name own = some d) :
    required own name form? = form? d := by
  rw [required, h, Option.bind_some]

theorem option?_of_ne_null (h : d ≠ .null) : option? form? d = (form? d).map some := by
  unfold option?
  split
  · exact absurd rfl h
  · rfl

/-- A field that is there, as a value or as null, is read back. -/
theorem optional_ofOption (hform : ∀ a, form? (form a) = some a) (hnull : ∀ a, form a ≠ .null)
    {o : Option α} (h : field? name own = some (ofOption form o)) :
    optional own name form? = some o := by
  simp only [optional, orDefault, h]
  cases o with
  | none => rfl
  | some a => rw [ofOption, option?_of_ne_null (hnull a), hform, Option.map_some]

/-- A field that is left out when there is nothing is read back. -/
theorem optional_of_map (hform : ∀ a, form? (form a) = some a) (hnull : ∀ a, form a ≠ .null)
    {o : Option α} (h : field? name own = o.map form) : optional own name form? = some o := by
  cases o with
  | none =>
    rw [Option.map_none] at h
    simp only [optional, orDefault, h]
  | some a => exact optional_ofOption hform hnull h

/-- The items of a list are read back. -/
theorem list?_map (hform : ∀ a, form? (form a) = some a) (items : List α) :
    list? form? (.list (items.map form)) = some items := by
  rw [list?]
  induction items with
  | nil => rfl
  | cons a items ih => simp [hform, ih]

end Readers

/-! ## Numbers -/

theorem word64?_of_fits {n : ℤ} (h : 0 ≤ n ∧ n < 18446744073709551616) :
    word64? (.integer n) = some (UInt64.ofNat n.toNat) := by
  rw [word64?, integer?, Option.bind_some, if_pos h]

theorem word64?_integer (n : UInt64) : word64? (.integer n.toNat) = some n := by
  have hlt := n.toNat_lt
  rw [word64?_of_fits (by omega), Int.toNat_natCast, UInt64.ofNat_toNat]

theorem whole?_integer {w : Width} (n : Whole w) : whole? w (.integer n.val) = some n :=
  Whole.ofInt?_val n

/-! ## Faithful forms -/

/-- Whether a way to write and to read values is faithful. `HasForm` says which values can be sent,
`shown` what their forms show of them, and `Same` when two values count as the same. -/
structure Faithful {α : Type} (form : α → Data) (form? : Data → Option α) (HasForm : α → Prop)
    (shown : α → α) (Same : α → α → Prop) : Prop where
  /-- What is sent is read back as what is shown of it. -/
  read_back : ∀ a, HasForm a → ∃ b, form? (form a).sorted = some b ∧ Same (shown a) b
  /-- What is shown of a value is all that its tree depends on. -/
  sorted_shown : ∀ a, (form (shown a)).sorted = (form a).sorted
  /-- Values that show something different are sent as different trees, unless neither can be
  sent. -/
  eq_of_sorted_eq : ∀ a b, (form a).sorted = (form b).sorted →
    shown a = shown b ∨ ¬ HasForm a ∧ ¬ HasForm b
  /-- What cannot be sent is refused, not read as something else. -/
  refused : ∀ a, ¬ HasForm a → form? (form a).sorted = none

/-- Reading may drop what does not count, as long as what is written still shows it. -/
theorem Faithful.of_read_plain {α : Type} {form : α → Data} {form? : Data → Option α}
    {hasForm : α → Bool} {Same : α → α → Prop} {shown plain : α → α}
    (hread : ∀ a, form? (form a).sorted = if hasForm a then some (plain (shown a)) else none)
    (hplain : ∀ a, Same a (plain a)) (hshown : ∀ a, form (shown a) = form a)
    (hform : ∀ a b, (form a).sorted = (form b).sorted →
      shown a = shown b ∨ ¬ hasForm a ∧ ¬ hasForm b) :
    Faithful form form? (fun a => hasForm a) shown Same where
  read_back := by
    intro a ha
    exact ⟨plain (shown a), by rw [hread, if_pos ha], hplain (shown a)⟩
  sorted_shown := fun a => congrArg Data.sorted (hshown a)
  eq_of_sorted_eq := hform
  refused := by
    intro a ha
    rw [hread, if_neg ha]

/-- Where all values are read back exactly there is nothing else to ask. -/
theorem Faithful.of_read_back {α : Type} {form : α → Data} {form? : Data → Option α}
    (h : ∀ a, form? (form a).sorted = some a) : Faithful form form? (fun _ => True) id Eq where
  read_back := fun a _ => ⟨a, h a, rfl⟩
  sorted_shown := fun _ => rfl
  eq_of_sorted_eq := by
    intro a b hab
    have hread := h a
    rw [hab, h b] at hread
    exact .inl (Option.some.inj hread).symm
  refused := fun a ha => absurd trivial ha

end GridQuery.Data
