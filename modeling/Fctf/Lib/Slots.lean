import Mathlib.Data.List.Basic
import Mathlib.Algebra.Order.Ring.Int

/-!
Parties that hold slots, and a counter for each kind of slot. The counter may be ahead of the
slots that are held but not behind them; then a party that may take a slot only while the counter
is below its bound keeps the number of held slots within the bound.
-/

namespace Slots

variable {π κ : Type*} (holds : π → κ → Bool)

/-- How many parties hold a slot of kind `k`. -/
def held (parties : List π) (k : κ) : Nat := parties.countP fun p => holds p k

/-- The slots of kind `k` are within the bound and within the counter. -/
structure Covered (parties : List π) (k : κ) (bound : Nat) (counter : Int) : Prop where
  bounded : held holds parties k ≤ bound
  counted : (held holds parties k : Int) ≤ counter

variable {parties : List π} {k : κ} {bound : Nat} {counter counter' : Int} {i : Nat} {old new : π}

theorem held_set (hi : parties[i]? = some old) (new : π) (k : κ) :
    held holds (parties.set i new) k + (if holds old k then 1 else 0) =
      held holds parties k + if holds new k then 1 else 0 := by
  obtain ⟨hlt, rfl⟩ := List.getElem?_eq_some_iff.mp hi
  unfold held
  rw [List.countP_set hlt]
  split
  · rename_i hold
    have hpos : 0 < parties.countP fun p => holds p k :=
      List.countP_pos_iff.mpr ⟨_, List.getElem_mem hlt, hold⟩
    omega
  · omega

theorem held_append (parties : List π) (new : π) (k : κ) :
    held holds (parties ++ [new]) k = held holds parties k + if holds new k then 1 else 0 := by
  unfold held
  rw [List.countP_append, List.countP_singleton]

variable {holds}

theorem Covered.nonneg (h : Covered holds parties k bound counter) : 0 ≤ counter :=
  le_trans (Int.natCast_nonneg _) h.counted

theorem covered_nil (hcounter : 0 ≤ counter) : Covered holds [] k bound counter :=
  ⟨Nat.zero_le _, by simpa [held] using hcounter⟩

/-- A party that joins without a slot. -/
theorem Covered.join (h : Covered holds parties k bound counter) (hnew : holds new k = false) :
    Covered holds (parties ++ [new]) k bound counter := by
  have hsame : held holds (parties ++ [new]) k = held holds parties k := by
    simp [held_append, hnew]
  exact ⟨hsame ▸ h.bounded, hsame ▸ h.counted⟩

/-- A party takes no slot and the counter does not fall. -/
theorem Covered.keep (h : Covered holds parties k bound counter) (hi : parties[i]? = some old)
    (hnew : holds new k = true → holds old k = true) (hcounter : counter ≤ counter') :
    Covered holds (parties.set i new) k bound counter' := by
  have hset := held_set holds hi new k
  have hle : held holds (parties.set i new) k ≤ held holds parties k := by
    cases hhas : holds new k with
    | false =>
      simp only [hhas, Bool.false_eq_true, if_false] at hset
      omega
    | true =>
      simp only [hhas, hnew hhas, if_true] at hset
      omega
  have hbounded := h.bounded
  have hcounted := h.counted
  exact ⟨by omega, by omega⟩

/-- A party takes a slot for which the counter is raised and stays within the bound. -/
theorem Covered.take (h : Covered holds parties k bound counter) (hi : parties[i]? = some old)
    (hwithin : counter + 1 ≤ bound) (hcounter : counter + 1 ≤ counter') :
    Covered holds (parties.set i new) k bound counter' := by
  have hset := held_set holds hi new k
  have hle : held holds (parties.set i new) k ≤ held holds parties k + 1 := by
    split at hset <;> split at hset <;> omega
  have hcounted := h.counted
  exact ⟨by omega, by omega⟩

/-- A party gives its slot back and the counter falls by one at most. -/
theorem Covered.release (h : Covered holds parties k bound counter) (hi : parties[i]? = some old)
    (hold : holds old k = true) (hnew : holds new k = false) (hcounter : counter - 1 ≤ counter') :
    Covered holds (parties.set i new) k bound counter' := by
  have hset := held_set holds hi new k
  simp only [hold, hnew, if_true, Bool.false_eq_true, if_false] at hset
  have hbounded := h.bounded
  have hcounted := h.counted
  exact ⟨by omega, by omega⟩

end Slots
