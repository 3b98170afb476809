import Mathlib.Data.List.Nodup

/-!
Records as lists of named values, read by name. A record is written over a list of columns, each
of which takes the new value where there is one; the values of the key's columns are its key.
-/

/-- Named values; the first value of a name counts. -/
abbrev Record (V : Type*) := List (String × V)

namespace Record

variable {V : Type*}

def get (r : Record V) (name : String) : Option V := r.lookup name

@[simp] theorem get_nil (name : String) : get ([] : Record V) name = none := rfl

theorem get_cons (p : String × V) (r : Record V) (name : String) :
    get (p :: r) name = if name = p.1 then some p.2 else r.get name := by
  obtain ⟨n, v⟩ := p
  by_cases h : name = n
  · simp [get, h]
  · have hne : (name == n) = false := by simpa using h
    simp [get, List.lookup_cons, hne, h]

theorem get_append (r r' : Record V) (name : String) :
    get (r ++ r') name = (r.get name).or (r'.get name) :=
  List.lookup_append

theorem mem_of_get {r : Record V} {name : String} {v : V} (h : r.get name = some v) :
    (name, v) ∈ r := by
  obtain ⟨before, after, rfl, -⟩ := List.lookup_eq_some_iff.mp h
  simp

/-- Records with the same names have values for the same names. -/
theorem isSome_get_congr {W : Type*} {r : Record V} {s : Record W}
    (h : r.map Prod.fst = s.map Prod.fst) (name : String) :
    (r.get name).isSome = (s.get name).isSome := by
  induction r generalizing s with
  | nil =>
    cases s with
    | nil => rfl
    | cons p rest => cases h
  | cons p rest ih =>
    cases s with
    | nil => cases h
    | cons p' rest' =>
      rw [List.map_cons, List.map_cons, List.cons.injEq] at h
      rw [get_cons, get_cons, h.1]
      by_cases hname : name = p'.1
      · simp [hname]
      · rw [if_neg hname, if_neg hname]
        exact ih h.2

/-- Where no name comes twice, every entry is the value of its name. -/
theorem get_of_mem {r : Record V} (hnames : (r.map Prod.fst).Nodup) {name : String} {v : V}
    (h : (name, v) ∈ r) : r.get name = some v := by
  induction r with
  | nil => cases h
  | cons p rest ih =>
    rw [List.map_cons, List.nodup_cons] at hnames
    rw [get_cons]
    rcases List.mem_cons.mp h with rfl | hrest
    · simp
    · have hne : name ≠ p.1 := by
        intro heq
        exact hnames.1 (List.mem_map.mpr ⟨(name, v), hrest, heq⟩)
      rw [if_neg hne]
      exact ih hnames.2 hrest

/-- A record that computes its values from another one and may leave names out. -/
theorem get_filterMap {W : Type*} {r : Record W} (hnames : (r.map Prod.fst).Nodup)
    (f : String → W → Option V) (name : String) :
    get (r.filterMap fun p => (f p.1 p.2).map fun v => (p.1, v)) name =
      (r.get name).bind (f name) := by
  induction r with
  | nil => rfl
  | cons p rest ih =>
    rw [List.map_cons, List.nodup_cons] at hnames
    have ih := ih hnames.2
    rw [get_cons]
    by_cases hname : name = p.1
    · subst hname
      have habsent : get rest p.1 = none := by
        cases h : get rest p.1 with
        | none => rfl
        | some w => exact absurd (List.mem_map.mpr ⟨(p.1, w), mem_of_get h, rfl⟩) hnames.1
      cases hf : f p.1 p.2 with
      | none => simp [hf, ih, habsent]
      | some v => simp [hf, get_cons]
    · rw [if_neg hname, ← ih]
      cases hf : f p.1 p.2 with
      | none => simp [hf]
      | some v => simp [hf, get_cons, hname]

/-- The names of a record that is made of a list with names. -/
theorem names_filterMap_sublist {α : Type*} {name : α → String} {f : α → Option (String × V)}
    (hf : ∀ a p, f a = some p → p.1 = name a) (l : List α) :
    ((l.filterMap f).map Prod.fst).Sublist (l.map name) := by
  induction l with
  | nil => exact List.Sublist.refl []
  | cons a rest ih =>
    rw [List.map_cons, List.filterMap_cons]
    cases h : f a with
    | none => exact ih.cons (name a)
    | some p =>
      rw [List.map_cons, hf a p h]
      exact ih.cons_cons (name a)

/-- Values of the columns of a key. -/
def key (pk : List String) (r : Record V) : List (Option V) := pk.map r.get

theorem key_congr {pk : List String} {r r' : Record V} (h : ∀ name ∈ pk, r.get name = r'.get name) :
    key pk r = key pk r' :=
  List.map_congr_left h

theorem get_of_key {pk : List String} {r r' : Record V} (h : key pk r = key pk r') {name : String}
    (hname : name ∈ pk) : r.get name = r'.get name :=
  List.map_inj_left.mp h name hname

/-- A record has a value in each column of the key. -/
def Keyed (pk : List String) (r : Record V) : Prop := ∀ name ∈ pk, (r.get name).isSome = true

/-- Records that have keys, all of them different. -/
structure Separate (pk : List String) (rows : List (Record V)) : Prop where
  keyed : ∀ r ∈ rows, Keyed pk r
  nodup : (rows.map (key pk)).Nodup

namespace Separate

variable {pk : List String} {rows rows' : List (Record V)}

theorem sublist (h : Separate pk rows) (hsub : rows'.Sublist rows) : Separate pk rows' where
  keyed r hr := h.keyed r (hsub.subset hr)
  nodup := h.nodup.sublist (hsub.map _)

theorem left (h : Separate pk (rows ++ rows')) : Separate pk rows :=
  h.sublist (List.sublist_append_left _ _)

theorem right (h : Separate pk (rows ++ rows')) : Separate pk rows' :=
  h.sublist (List.sublist_append_right _ _)

theorem ne (h : Separate pk (rows ++ rows')) {r r' : Record V} (hr : r ∈ rows) (hr' : r' ∈ rows') :
    key pk r ≠ key pk r' := by
  have hnodup := h.nodup
  rw [List.map_append] at hnodup
  intro heq
  exact (List.nodup_append'.mp hnodup).2.2 (List.mem_map_of_mem hr)
    (heq ▸ List.mem_map_of_mem hr')

theorem inj (h : Separate pk rows) {r r' : Record V} (hr : r ∈ rows) (hr' : r' ∈ rows)
    (hkey : key pk r = key pk r') : r = r' :=
  List.inj_on_of_nodup_map h.nodup hr hr' hkey

end Separate

/-- The columns with their new values; a column without one keeps its old value. -/
def write (columns : List (String × V)) (new old : Record V) : Record V :=
  columns.map fun c => (c.1, (new.get c.1).getD ((old.get c.1).getD c.2))

theorem get_write (columns : List (String × V)) (new old : Record V) (name : String) :
    (write columns new old).get name = (get columns name).map fun default =>
      (new.get name).getD ((old.get name).getD default) := by
  induction columns with
  | nil => rfl
  | cons c rest ih =>
    rw [write, List.map_cons, get_cons, get_cons]
    by_cases hname : name = c.1
    · simp [hname]
    · rw [if_neg hname, if_neg hname]
      exact ih

/-- A written value is there if and only if its column is. -/
theorem get_write_of_new {columns : List (String × V)} {new : Record V} {name : String} {v : V}
    (h : new.get name = some v) (old : Record V) :
    (write columns new old).get name = some v ↔ (get columns name).isSome = true := by
  rw [get_write, h]
  cases get columns name <;> simp

/-- A record that has a value in each column of the key keeps its key when it is written. -/
theorem key_write {pk : List String} {columns : List (String × V)} {new : Record V}
    (hcolumns : ∀ name ∈ pk, (get columns name).isSome = true)
    (hnew : Keyed pk new) (old : Record V) :
    key pk (write columns new old) = key pk new := by
  refine key_congr fun name hname => ?_
  obtain ⟨v, hv⟩ := Option.isSome_iff_exists.mp (hnew name hname)
  rw [hv]
  exact (get_write_of_new hv old).mpr (hcolumns name hname)

end Record
