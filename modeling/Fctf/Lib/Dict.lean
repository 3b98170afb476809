import Mathlib.Data.List.Basic
import Mathlib.Data.List.Nodup
import Mathlib.Data.List.Perm.Basic

/-!
A dictionary as the assignments that made it, in their order: the last one to a key counts. When
every item assigns its own value to some keys, a key has the value of the last item that
answers to it.
-/

namespace Dict

variable {κ α ι : Type*} [DecidableEq κ]

def get (assignments : List (κ × α)) (key : κ) : Option α :=
  (assignments.reverse.find? fun p => p.1 = key).map Prod.snd

/-- Each item assigns its value to its keys. -/
def fill (keys : ι → List κ) (value : ι → α) (items : List ι) : List (κ × α) :=
  items.flatMap fun item => (keys item).map fun key => (key, value item)

/-- The items that have the key among theirs. -/
def answering (keys : ι → List κ) (items : List ι) (key : κ) : List ι :=
  items.filter fun item => key ∈ keys item

theorem get_append (first second : List (κ × α)) (key : κ) :
    get (first ++ second) key = (get second key).or (get first key) := by
  rw [get, List.reverse_append, List.find?_append, Option.map_or]
  rfl

/-- Where no key is assigned twice, every assignment counts. -/
theorem get_of_mem {assignments : List (κ × α)} (hkeys : (assignments.map Prod.fst).Nodup)
    {key : κ} {value : α} (h : (key, value) ∈ assignments) : get assignments key = some value := by
  obtain ⟨before, after, rfl⟩ := List.append_of_mem h
  have hnot : ∀ p ∈ after.reverse, ¬ decide (p.1 = key) = true := by
    intro p hp heq
    rw [List.map_append, List.map_cons] at hkeys
    have hcons := (List.nodup_cons.mp (List.nodup_append'.mp hkeys).2.1).1
    have hmem : p.1 ∈ after.map Prod.fst := List.mem_map_of_mem (List.mem_reverse.mp hp)
    rw [of_decide_eq_true heq] at hmem
    exact hcons hmem
  rw [get, List.reverse_append, List.reverse_cons, List.append_assoc, List.find?_append,
    List.find?_eq_none.mpr hnot]
  simp

theorem get_own (keys : List κ) (value : α) (key : κ) :
    get (keys.map fun key => (key, value)) key = if key ∈ keys then some value else none := by
  induction keys with
  | nil => rfl
  | cons head rest ih =>
    rw [List.map_cons, ← List.singleton_append, get_append, ih]
    by_cases hrest : key ∈ rest
    · simp [hrest]
    · by_cases hhead : head = key
      · subst hhead
        simp [get, hrest]
      · simp [get, hrest, hhead, Ne.symm hhead]

/-- A key has the value of the last item that answers to it. -/
theorem get_fill (keys : ι → List κ) (value : ι → α) (items : List ι) (key : κ) :
    get (fill keys value items) key = (answering keys items key).getLast?.map value := by
  induction items with
  | nil => rfl
  | cons item rest ih =>
    have hsplit : get (fill keys value (item :: rest)) key =
        (get (fill keys value rest) key).or
          (if key ∈ keys item then some (value item) else none) := by
      rw [fill, List.flatMap_cons, get_append, get_own]
      rfl
    rw [hsplit, ih]
    by_cases hitem : key ∈ keys item
    · have hcons : answering keys (item :: rest) key = item :: answering keys rest key :=
        List.filter_cons_of_pos (by simpa using hitem)
      rw [hcons, if_pos hitem, List.getLast?_cons]
      cases (answering keys rest key).getLast? <;> rfl
    · have hcons : answering keys (item :: rest) key = answering keys rest key :=
        List.filter_cons_of_neg (by simpa using hitem)
      rw [hcons, if_neg hitem, Option.or_none]

theorem mem_answering {keys : ι → List κ} {items : List ι} {key : κ} {item : ι} :
    item ∈ answering keys items key ↔ item ∈ items ∧ key ∈ keys item := by
  simp [answering]

theorem answering_perm (keys : ι → List κ) {items items' : List ι} (h : items'.Perm items)
    (key : κ) : (answering keys items' key).Perm (answering keys items key) :=
  h.filter _

/-- Each item may be the last one of some order. -/
theorem exists_perm_getLast {items : List ι} {item : ι} (h : item ∈ items) :
    ∃ items' : List ι, items'.Perm items ∧
      ∀ p : ι → Bool, p item = true → (items'.filter p).getLast? = some item := by
  obtain ⟨before, after, rfl⟩ := List.append_of_mem h
  refine ⟨(before ++ after) ++ [item], ?_, ?_⟩
  · exact (List.perm_append_singleton item (before ++ after)).trans List.perm_middle.symm
  · intro p hp
    rw [List.filter_append, List.filter_singleton, hp, cond_true, List.getLast?_concat]

theorem getLast?_answering {keys : ι → List κ} {items : List ι} {key : κ} {item : ι}
    (hlast : ∀ p : ι → Bool, p item = true → (items.filter p).getLast? = some item)
    (h : item ∈ answering keys items key) : (answering keys items key).getLast? = some item :=
  hlast _ (decide_eq_true (mem_answering.mp h).2)

end Dict
