import Fctf.Lib.Query

/-!
Tables with a primary key: no two rows have the same key, and every change keeps it
that way. The rules say what is found under a key after each change.
-/

/-- Rows of which no two have the same key. -/
structure Table {α κ : Type*} (key : α → κ) where
  rows : List α := []
  nodup : (rows.map key).Nodup := by simp

namespace Table

variable {α κ : Type*} {key : α → κ}

/-- Changes every row, but not its key. -/
def modify (t : Table key) (f : α → α) (hkey : ∀ a, key (f a) = key a) : Table key where
  rows := t.rows.map f
  nodup := by
    have hkeys : (t.rows.map f).map key = t.rows.map key := by
      rw [List.map_map]
      exact List.map_congr_left fun a _ => hkey a
    rw [hkeys]
    exact t.nodup

/-- Deletes the rows that do not have a property. -/
def filter (t : Table key) (p : α → Bool) : Table key where
  rows := t.rows.filter p
  nodup := t.nodup.sublist (List.filter_sublist.map key)

theorem mem_modify {t : Table key} {f : α → α} {hkey : ∀ a, key (f a) = key a} {b : α} :
    b ∈ (t.modify f hkey).rows ↔ ∃ a ∈ t.rows, f a = b :=
  List.mem_map

theorem mem_filter {t : Table key} {p : α → Bool} {a : α} :
    a ∈ (t.filter p).rows ↔ a ∈ t.rows ∧ p a = true :=
  List.mem_filter

theorem eq_of_key {t : Table key} {a b : α} (ha : a ∈ t.rows) (hb : b ∈ t.rows)
    (hkey : key a = key b) : a = b :=
  List.inj_on_of_nodup_map t.nodup ha hb hkey

section Keeps

variable {owned : α → Prop} {t : Table key}

/-- The rows with a property are the same in both tables. -/
def Keeps (owned : α → Prop) (t t' : Table key) : Prop :=
  ∀ a, owned a → (a ∈ t'.rows ↔ a ∈ t.rows)

theorem Keeps.refl (owned : α → Prop) (t : Table key) : Keeps owned t t := fun _ _ => Iff.rfl

theorem Keeps.trans {t₁ t₂ : Table key} (h : Keeps owned t t₁) (h' : Keeps owned t₁ t₂) :
    Keeps owned t t₂ :=
  fun a ha => (h' a ha).trans (h a ha)

theorem Keeps.iff_right {t₁ t₂ : Table key} (h : Keeps owned t t₁) :
    Keeps owned t t₂ ↔ Keeps owned t₁ t₂ := by
  constructor
  · intro h' a ha
    exact (h' a ha).trans (h a ha).symm
  · exact h.trans

/-- Where the rows with a property are left, exactly those that have it are kept. -/
theorem keeps_iff_of_mem {t' : Table key} {p : α → Prop}
    (hmem : ∀ a, a ∈ t'.rows ↔ a ∈ t.rows ∧ p a) :
    Keeps owned t t' ↔ ∀ a ∈ t.rows, owned a → p a := by
  constructor
  · intro h a ha howned
    exact ((hmem a).mp ((h a howned).mpr ha)).2
  · intro h a howned
    rw [hmem]
    exact ⟨fun ha => ha.1, fun ha => ⟨ha, h a ha howned⟩⟩

theorem keeps_filter {p : α → Bool} :
    Keeps owned t (t.filter p) ↔ ∀ a ∈ t.rows, owned a → p a = true :=
  keeps_iff_of_mem fun _ => mem_filter

/-- The rows that are kept are there as often as before. -/
theorem Keeps.perm_filter {t' : Table key} {q : α → Bool} (h : Keeps owned t t')
    (hq : ∀ a, q a = true → owned a) : (t'.rows.filter q).Perm (t.rows.filter q) := by
  refine (List.perm_ext_iff_of_nodup (t'.nodup.of_map.filter q) (t.nodup.of_map.filter q)).mpr ?_
  intro a
  simp only [List.mem_filter]
  exact and_congr_left fun ha => h a (hq a ha)

theorem keeps_modify {f : α → α} {hkey : ∀ a, key (f a) = key a} :
    Keeps owned t (t.modify f hkey) ↔ ∀ a ∈ t.rows, owned a ∨ owned (f a) → f a = a := by
  constructor
  · intro h a ha howned
    rcases howned with howned | howned
    · obtain ⟨b, hb, heq⟩ := mem_modify.mp ((h a howned).mpr ha)
      obtain rfl := eq_of_key hb ha (by rw [← heq, hkey])
      exact heq
    · have hmem := (h (f a) howned).mp (mem_modify.mpr ⟨a, ha, rfl⟩)
      exact eq_of_key hmem ha (hkey a)
  · intro h a howned
    rw [mem_modify]
    constructor
    · rintro ⟨b, hb, rfl⟩
      rw [h b hb (Or.inr howned)]
      exact hb
    · intro ha
      exact ⟨a, ha, h a ha (Or.inl howned)⟩

end Keeps

variable [DecidableEq κ]

/-- The row with a key. -/
def find (t : Table key) (k : κ) : Option α := t.rows.find? fun a => key a = k

theorem find_eq_some {t : Table key} {k : κ} {a : α} :
    t.find k = some a ↔ a ∈ t.rows ∧ key a = k := by
  constructor
  · intro h
    exact ⟨List.mem_of_find?_eq_some h, by simpa using List.find?_some h⟩
  · rintro ⟨hmem, hkey⟩
    exact Query.find?_eq_of_unique t.nodup hmem hkey

theorem find_key {t : Table key} {a : α} (h : a ∈ t.rows) : t.find (key a) = some a :=
  find_eq_some.mpr ⟨h, rfl⟩

theorem mem_of_find {t : Table key} {k : κ} {a : α} (h : t.find k = some a) : a ∈ t.rows :=
  (find_eq_some.mp h).1

theorem key_of_find {t : Table key} {k : κ} {a : α} (h : t.find k = some a) : key a = k :=
  (find_eq_some.mp h).2

theorem find_eq_none {t : Table key} {k : κ} : t.find k = none ↔ ∀ a ∈ t.rows, key a ≠ k := by
  simp [find]

@[simp] theorem find_modify (t : Table key) (f : α → α) (hkey : ∀ a, key (f a) = key a) (k : κ) :
    (t.modify f hkey).find k = (t.find k).map f := by
  simp only [find, modify, List.find?_map, Function.comp_def, hkey]

/-- Changes the row with a key, if there is one. -/
def update (t : Table key) (k : κ) (f : α → α) (hkey : ∀ a, key (f a) = key a) : Table key :=
  t.modify (fun a => if key a = k then f a else a) fun a => by
    split
    · exact hkey a
    · rfl

theorem find_update (t : Table key) (k : κ) (f : α → α) (hkey : ∀ a, key (f a) = key a) (k' : κ) :
    (t.update k f hkey).find k' = if k' = k then (t.find k').map f else t.find k' := by
  rw [update, find_modify]
  cases h : t.find k' with
  | none => simp
  | some a =>
    have hk' := key_of_find h
    subst hk'
    by_cases hk : key a = k <;> simp [hk]

/-- The rows after the row with a key has changed. -/
theorem mem_update_of_mem {t : Table key} {f : α → α} {hkey : ∀ a, key (f a) = key a} {a b : α}
    (ha : a ∈ t.rows) :
    b ∈ (t.update (key a) f hkey).rows ↔ b = f a ∨ (b ∈ t.rows ∧ key b ≠ key (f a)) := by
  simp only [update, mem_modify, hkey]
  constructor
  · rintro ⟨c, hc, rfl⟩
    split_ifs with hck
    · exact Or.inl (congrArg f (eq_of_key hc ha hck))
    · exact Or.inr ⟨hc, hck⟩
  · rintro (rfl | ⟨hb, hne⟩)
    · exact ⟨a, ha, if_pos rfl⟩
    · exact ⟨b, hb, if_neg hne⟩

theorem find_filter (t : Table key) (p : α → Bool) (k : κ) :
    (t.filter p).find k = (t.find k).filter p := by
  cases h : t.find k with
  | none =>
    rw [find_eq_none] at h
    rw [Option.filter_none, find_eq_none]
    exact fun a ha => h a (List.mem_of_mem_filter ha)
  | some a =>
    obtain ⟨hmem, rfl⟩ := find_eq_some.mp h
    by_cases hp : p a = true
    · rw [Option.filter_some, if_pos hp]
      exact find_key (List.mem_filter.mpr ⟨hmem, hp⟩)
    · rw [Option.filter_some, if_neg hp, find_eq_none]
      intro b hb hkey
      obtain ⟨hb, hpb⟩ := List.mem_filter.mp hb
      have hsame := (find_eq_some.mpr ⟨hb, hkey⟩).symm.trans h
      obtain rfl := Option.some.inj hsame
      exact hp hpb

/-- Adds a row with a new key. -/
def insert (t : Table key) (a : α) (hnew : t.find (key a) = none) : Table key where
  rows := t.rows ++ [a]
  nodup := by
    rw [List.map_append, List.map_singleton]
    refine List.nodup_append'.mpr ⟨t.nodup, List.nodup_singleton _, ?_⟩
    intro k hk hka
    obtain rfl := List.mem_singleton.mp hka
    obtain ⟨b, hb, hkey⟩ := List.mem_map.mp hk
    exact find_eq_none.mp hnew b hb hkey

theorem find_insert (t : Table key) (a : α) (hnew : t.find (key a) = none) (k : κ) :
    (t.insert a hnew).find k = if k = key a then some a else t.find k := by
  rw [find, insert, List.find?_append]
  by_cases hk : k = key a
  · subst hk
    rw [if_pos rfl]
    have hnone : t.rows.find? (fun b => key b = key a) = none := hnew
    simp [hnone]
  · simp [hk, Ne.symm hk, find]

/-- Puts a row in the place of the one with its key, if there is one. -/
def put (t : Table key) (a : α) : Table key :=
  (t.filter fun b => decide (key b ≠ key a)).insert a (by
    rw [find_filter]
    cases h : t.find (key a) with
    | none => rfl
    | some b => simp [key_of_find h])

theorem find_put (t : Table key) (a : α) (k : κ) :
    (t.put a).find k = if k = key a then some a else t.find k := by
  rw [put, find_insert, find_filter]
  by_cases hk : k = key a
  · rw [if_pos hk, if_pos hk]
  · rw [if_neg hk, if_neg hk]
    cases h : t.find k with
    | none => rfl
    | some b => simp [key_of_find h, hk]

theorem mem_put {t : Table key} {a b : α} :
    b ∈ (t.put a).rows ↔ b = a ∨ (b ∈ t.rows ∧ key b ≠ key a) := by
  simp only [put, insert, filter, List.mem_append, List.mem_filter, List.mem_singleton,
    decide_eq_true_eq]
  exact or_comm

section Keeps

variable {owned : α → Prop} {t : Table key}

/-- Deleting the row with a key. -/
theorem keeps_erase {k : κ} : Keeps owned t (t.filter fun a => decide (key a ≠ k)) ↔
    ∀ a ∈ t.find k, ¬ owned a := by
  rw [keeps_filter]
  constructor
  · intro h a ha howned
    obtain ⟨hmem, hkey⟩ := find_eq_some.mp ha
    exact absurd hkey (of_decide_eq_true (h a hmem howned))
  · intro h a ha howned
    rw [decide_eq_true_eq]
    rintro rfl
    exact h a (find_key ha) howned

theorem keeps_put {a : α} : Keeps owned t (t.put a) ↔
    t.find (key a) = some a ∨ (¬ owned a ∧ ∀ b ∈ t.find (key a), ¬ owned b) := by
  constructor
  · intro h
    by_cases hsame : t.find (key a) = some a
    · exact Or.inl hsame
    · refine Or.inr ⟨fun howned => hsame ?_, fun b hb howned => hsame ?_⟩
      · exact find_key ((h a howned).mp (mem_put.mpr (Or.inl rfl)))
      · obtain ⟨hmem, hkey⟩ := find_eq_some.mp hb
        rcases mem_put.mp ((h b howned).mpr hmem) with rfl | ⟨-, hne⟩
        · exact hb
        · exact absurd hkey hne
  · rintro (hsame | ⟨hnew, hold⟩) b howned
    · rw [mem_put]
      constructor
      · rintro (rfl | ⟨hb, -⟩)
        · exact mem_of_find hsame
        · exact hb
      · intro hb
        by_cases hkey : key b = key a
        · exact Or.inl (eq_of_key hb (mem_of_find hsame) hkey)
        · exact Or.inr ⟨hb, hkey⟩
    · rw [mem_put]
      constructor
      · rintro (rfl | ⟨hb, -⟩)
        · exact absurd howned hnew
        · exact hb
      · intro hb
        refine Or.inr ⟨hb, fun hkey => hold b ?_ howned⟩
        exact hkey ▸ find_key hb

end Keeps

section Add

variable {key : α → Nat}

/-- A number that no row has. -/
def nextKey (t : Table key) : Nat := (t.rows.map key).foldr max 0 + 1

theorem lt_nextKey {t : Table key} {a : α} (ha : a ∈ t.rows) : key a < t.nextKey := by
  have hle : ∀ keys : List Nat, ∀ k ∈ keys, k ≤ keys.foldr max 0 := by
    intro keys
    induction keys with
    | nil => exact fun k hk => absurd hk List.not_mem_nil
    | cons head rest ih =>
      intro k hk
      rcases List.mem_cons.mp hk with rfl | hk
      · exact Nat.le_max_left _ _
      · exact (ih k hk).trans (Nat.le_max_right _ _)
  exact Nat.lt_succ_of_le (hle _ _ (List.mem_map_of_mem ha))

theorem find_nextKey (t : Table key) : t.find t.nextKey = none := by
  rw [find_eq_none]
  intro a ha heq
  exact absurd (lt_nextKey ha) (by omega)

/-- Adds a row with the next number. -/
def add (t : Table key) (row : Nat → α) (hkey : ∀ n, key (row n) = n) : Table key :=
  t.insert (row t.nextKey) (by rw [hkey, find_nextKey])

theorem mem_add {t : Table key} {row : Nat → α} {hkey : ∀ n, key (row n) = n} {b : α} :
    b ∈ (t.add row hkey).rows ↔ b ∈ t.rows ∨ b = row t.nextKey := by
  simp [add, insert]

/-- Changing one row leaves the others. -/
theorem keeps_update_of_mem {owned : α → Prop} {t : Table key} {f : α → α}
    {hkey : ∀ a, key (f a) = key a} {a : α} (ha : a ∈ t.rows) :
    Keeps owned t (t.update (key a) f hkey) ↔ f a = a ∨ (¬ owned (f a) ∧ ¬ owned a) := by
  rw [update, keeps_modify]
  constructor
  · intro h
    by_cases hsame : f a = a
    · exact Or.inl hsame
    · have hchanged := h a ha
      simp only [if_true] at hchanged
      exact Or.inr ⟨fun hnew => hsame (hchanged (Or.inr hnew)),
        fun hold => hsame (hchanged (Or.inl hold))⟩
  · intro h b hb howned
    split_ifs at howned ⊢ with hb'
    · obtain rfl := eq_of_key hb ha hb'
      rcases h with hsame | ⟨hnew, hold⟩
      · exact hsame
      · rcases howned with howned | howned
        · exact absurd howned hold
        · exact absurd howned hnew
    · rfl

theorem keeps_add {owned : α → Prop} {t : Table key} {row : Nat → α}
    {hkey : ∀ n, key (row n) = n} :
    Keeps owned t (t.add row hkey) ↔ ¬ owned (row t.nextKey) := by
  constructor
  · intro h howned
    have hmem := (h _ howned).mp (mem_add.mpr (Or.inr rfl))
    have hlt := lt_nextKey hmem
    rw [hkey] at hlt
    exact absurd hlt (by omega)
  · intro h a howned
    rw [mem_add]
    constructor
    · rintro (ha | rfl)
      · exact ha
      · exact absurd howned h
    · exact Or.inl

end Add

end Table
