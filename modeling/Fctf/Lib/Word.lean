import Mathlib.Data.List.Infix
import Mathlib.Algebra.BigOperators.Group.List.Basic
import Mathlib.Tactic.Ring

/-!
Signed words of 32 bits: what unchecked arithmetic leaves of a number, and what checked arithmetic
refuses.
-/

namespace Word

/-- A number that a word holds. -/
def Fits (n : Int) : Prop := -2147483648 ≤ n ∧ n ≤ 2147483647

instance decidableFits (n : Int) : Decidable (Fits n) := inferInstanceAs (Decidable (_ ∧ _))

theorem fits_zero : Fits 0 := by decide

/-- The word that unchecked arithmetic leaves of a number. -/
def wrap (n : Int) : Int := n.bmod 4294967296

/-- The word for a number, if there is one. -/
def checked (n : Int) : Option Int := if Fits n then some n else none

/-- A sum whose additions are checked one by one. -/
def checkedSum (ns : List Int) : Option Int := ns.foldlM (fun sum n => checked (sum + n)) 0

theorem wrap_eq_iff (m n : Int) : wrap m = n ↔ Fits n ∧ 4294967296 ∣ n - m := by
  unfold wrap Fits
  rw [Int.bmod_eq_iff (by decide)]
  omega

theorem fits_wrap (n : Int) : Fits (wrap n) := ((wrap_eq_iff n _).mp rfl).1

theorem dvd_wrap_sub (n : Int) : 4294967296 ∣ wrap n - n := ((wrap_eq_iff n _).mp rfl).2

@[simp] theorem wrap_eq_self_iff (n : Int) : wrap n = n ↔ Fits n := by
  rw [wrap_eq_iff]
  simp

theorem wrap_of_fits {n : Int} (h : Fits n) : wrap n = n := (wrap_eq_self_iff n).mpr h

theorem wrap_eq_wrap_iff (m n : Int) : wrap m = wrap n ↔ 4294967296 ∣ m - n := by
  have hm := dvd_wrap_sub m
  rw [eq_comm, wrap_eq_iff]
  constructor
  · rintro ⟨-, hdvd⟩
    omega
  · intro hdvd
    exact ⟨fits_wrap m, by omega⟩

/-- Wrapping the terms of a sum does not change what is left of it. -/
theorem wrap_sum_map {α : Type} (f : α → Int) (l : List α) :
    wrap (l.map fun a => wrap (f a)).sum = wrap (l.map f).sum := by
  rw [wrap_eq_wrap_iff]
  induction l with
  | nil => simp
  | cons a l ih =>
    have ha := dvd_wrap_sub (f a)
    simp only [List.map_cons, List.sum_cons]
    omega

theorem checked_eq_some_iff (n m : Int) : checked n = some m ↔ Fits n ∧ m = n := by
  unfold checked
  split
  · simp [*, eq_comm]
  · simp [*]

theorem foldlM_checked_eq_some_iff (ns : List Int) (start m : Int) :
    ns.foldlM (fun sum n => checked (sum + n)) start = some m ↔
      m = start + ns.sum ∧ ∀ front ∈ ns.inits, front ≠ [] → Fits (start + front.sum) := by
  induction ns generalizing start with
  | nil => simp [eq_comm]
  | cons n ns ih =>
    rw [List.foldlM_cons, List.inits_cons]
    constructor
    · intro h
      obtain ⟨sum, hsum, hrest⟩ := Option.bind_eq_some_iff.mp h
      obtain ⟨hfits, rfl⟩ := (checked_eq_some_iff _ _).mp hsum
      obtain ⟨rfl, hfronts⟩ := (ih _).mp hrest
      refine ⟨by rw [List.sum_cons]; ring, ?_⟩
      intro front hfront hne
      rcases List.mem_cons.mp hfront with rfl | hfront
      · exact absurd rfl hne
      · obtain ⟨rest, hmem, rfl⟩ := List.mem_map.mp hfront
        rw [List.sum_cons, ← add_assoc]
        cases rest with
        | nil => simpa using hfits
        | cons r rest => exact hfronts _ hmem (List.cons_ne_nil _ _)
    · rintro ⟨rfl, hfronts⟩
      have hhead : Fits (start + n) := by
        have h := hfronts [n] (List.mem_cons_of_mem _ (List.mem_map_of_mem (a := [])
          (List.mem_inits _ _ |>.mpr List.nil_prefix))) (List.cons_ne_nil _ _)
        simpa using h
      refine Option.bind_eq_some_iff.mpr ⟨start + n, (checked_eq_some_iff _ _).mpr ⟨hhead, rfl⟩, ?_⟩
      refine (ih _).mpr ⟨by rw [List.sum_cons]; ring, ?_⟩
      intro front hfront hne
      have h := hfronts (n :: front) (List.mem_cons_of_mem _ (List.mem_map_of_mem hfront))
        (List.cons_ne_nil _ _)
      rwa [List.sum_cons, ← add_assoc] at h

/-- A checked sum is the sum, when every part of it from the left fits. -/
theorem checkedSum_eq_some_iff (ns : List Int) (m : Int) :
    checkedSum ns = some m ↔ m = ns.sum ∧ ∀ front ∈ ns.inits, Fits front.sum := by
  rw [checkedSum, foldlM_checked_eq_some_iff]
  simp only [zero_add]
  refine and_congr_right fun _ => forall₂_congr fun front _ => ?_
  constructor
  · intro h
    cases front with
    | nil => exact fits_zero
    | cons n front => exact h (List.cons_ne_nil _ _)
  · intro h _
    exact h

end Word
