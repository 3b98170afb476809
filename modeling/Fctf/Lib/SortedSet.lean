import Mathlib.Data.List.AList
import Mathlib.Data.Finset.Card
import Mathlib.Data.Finmap

/-!
Sets of members with an integer score each, with the range operations a sorted
set offers: members up to a score can be removed and members can be counted.
-/

/-- Members with their scores; a member occurs once. -/
abbrev SortedSet (μ : Type*) := AList fun _ : μ => Int

namespace SortedSet

variable {μ : Type*} [DecidableEq μ] (z : SortedSet μ)

def score (m : μ) : Option Int := AList.lookup m z

def add (score : Int) (m : μ) : SortedSet μ := AList.insert m score z

def remove (m : μ) : SortedSet μ := AList.erase m z

omit [DecidableEq μ] in
theorem nodupKeys_filter (p : (Σ _ : μ, Int) → Bool) : (z.entries.filter p).NodupKeys :=
  z.nodupKeys.sublist List.filter_sublist

omit [DecidableEq μ] in
/-- Removes the members whose score is at most `t`. -/
def removeUpTo (t : Int) : SortedSet μ :=
  ⟨z.entries.filter fun e => t < e.2, nodupKeys_filter z _⟩

omit [DecidableEq μ] in
def card : Nat := z.entries.length

@[simp] theorem score_empty (m : μ) : score (∅ : SortedSet μ) m = none := rfl

@[simp] theorem score_add_self (s : Int) (m : μ) : score (add z s m) m = some s :=
  AList.lookup_insert z

@[simp] theorem score_add_ne {m m' : μ} (s : Int) (h : m' ≠ m) :
    score (add z s m) m' = score z m' :=
  AList.lookup_insert_ne h

@[simp] theorem score_remove_self (m : μ) : score (remove z m) m = none :=
  AList.lookup_erase m z

@[simp] theorem score_remove_ne {m m' : μ} (h : m' ≠ m) :
    score (remove z m) m' = score z m' :=
  AList.lookup_erase_ne h

theorem score_eq_some {m : μ} {s : Int} : score z m = some s ↔ ⟨m, s⟩ ∈ z.entries :=
  AList.mem_lookup_iff

theorem score_removeUpTo (t : Int) (m : μ) :
    score (removeUpTo z t) m = (score z m).filter fun s => t < s := by
  ext s
  simp [score_eq_some, removeUpTo, Option.filter_eq_some_iff]

omit [DecidableEq μ] in
@[simp] theorem card_empty : card (∅ : SortedSet μ) = 0 := rfl

theorem card_remove_le (m : μ) : card (remove z m) ≤ card z :=
  (List.kerase_sublist m z.entries).length_le

omit [DecidableEq μ] in
theorem card_removeUpTo_le (t : Int) : card (removeUpTo z t) ≤ card z :=
  List.length_filter_le _ _

theorem card_add_le (s : Int) (m : μ) : card (add z s m) ≤ card z + 1 := by
  have hle := card_remove_le z m
  simp only [card, remove, add, AList.entries_insert, AList.erase, List.length_cons] at hle ⊢
  omega

/-- Giving a member a new score adds no member. -/
theorem card_add_of_mem {m : μ} {old : Int} (s : Int) (h : score z m = some old) :
    card (add z s m) = card z := by
  have hmem : m ∈ z.keys := AList.lookup_isSome.mp (by simp [show AList.lookup m z = _ from h])
  have hkeys : (add z s m).keys.length = z.keys.length := by
    rw [add, AList.keys_insert, List.length_cons, List.length_erase_of_mem hmem]
    have hpos := List.length_pos_of_mem hmem
    omega
  simpa [card, AList.keys, List.keys] using hkeys

/-- Distinct members are at most as many as the set counts. -/
theorem length_le_card {ms : List μ} (hnodup : ms.Nodup)
    (hmem : ∀ m ∈ ms, ∃ s, score z m = some s) : ms.length ≤ card z := by
  have hsub : ms ⊆ z.keys := by
    intro m hm
    obtain ⟨s, hs⟩ := hmem m hm
    exact AList.lookup_isSome.mp (by simp [show AList.lookup m z = _ from hs])
  have hle := (hnodup.subperm hsub).length_le
  simpa [card, AList.keys, List.keys] using hle

end SortedSet
