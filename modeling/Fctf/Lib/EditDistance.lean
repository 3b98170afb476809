import Mathlib.Order.Bounds.Basic
import Mathlib.Order.MinMax
import Mathlib.Data.List.Basic

/-!
Edit scripts between lists, and the least length of one by the recurrence on the first elements.
-/

namespace EditDistance

variable {α : Type*}

/-- One element is inserted, deleted or substituted. -/
inductive Step : List α → List α → Prop
  | insert (u v : List α) (a : α) : Step (u ++ v) (u ++ a :: v)
  | delete (u v : List α) (a : α) : Step (u ++ a :: v) (u ++ v)
  | substitute (u v : List α) (a b : α) : Step (u ++ a :: v) (u ++ b :: v)

/-- A number of steps turns one list into the other. -/
inductive Edits : ℕ → List α → List α → Prop
  | refl (s : List α) : Edits 0 s s
  | step {n : ℕ} {s u t : List α} (hfirst : Step s u) (hrest : Edits n u t) : Edits (n + 1) s t

variable {n m : ℕ} {s t u : List α}

/-! ### Scripts backwards, mirrored and behind a common element -/

theorem Step.symm (h : Step s t) : Step t s := by
  cases h with
  | insert u v a => exact .delete u v a
  | delete u v a => exact .insert u v a
  | substitute u v a b => exact .substitute u v b a

theorem Step.cons (a : α) (h : Step s t) : Step (a :: s) (a :: t) := by
  cases h with
  | insert u v b => exact .insert (a :: u) v b
  | delete u v b => exact .delete (a :: u) v b
  | substitute u v b c => exact .substitute (a :: u) v b c

theorem Step.reverse (h : Step s t) : Step s.reverse t.reverse := by
  cases h with
  | insert u v a => simpa using Step.insert v.reverse u.reverse a
  | delete u v a => simpa using Step.delete v.reverse u.reverse a
  | substitute u v a b => simpa using Step.substitute v.reverse u.reverse a b

theorem Edits.snoc (h : Edits n s t) (hlast : Step t u) : Edits (n + 1) s u := by
  induction h with
  | refl s => exact .step hlast (.refl u)
  | step hfirst _ ih => exact .step hfirst (ih hlast)

theorem Edits.symm (h : Edits n s t) : Edits n t s := by
  induction h with
  | refl s => exact .refl s
  | step hfirst _ ih => exact ih.snoc hfirst.symm

theorem Edits.cons (a : α) (h : Edits n s t) : Edits n (a :: s) (a :: t) := by
  induction h with
  | refl s => exact .refl _
  | step hfirst _ ih => exact .step (hfirst.cons a) ih

theorem Edits.reverse (h : Edits n s t) : Edits n s.reverse t.reverse := by
  induction h with
  | refl s => exact .refl _
  | step hfirst _ ih => exact .step hfirst.reverse ih

theorem edits_reverse : Edits n s.reverse t.reverse ↔ Edits n s t := by
  constructor
  · intro h
    simpa using h.reverse
  · exact Edits.reverse

theorem edits_insert (t : List α) : Edits t.length [] t := by
  induction t with
  | nil => exact .refl []
  | cons b t ih => exact .step (.insert [] [] b) (ih.cons b)

/-! ### The distance -/

variable [DecidableEq α]

/-- What it costs to put one element in the place of another. -/
def cost (a b : α) : ℕ := if a = b then 0 else 1

/-- The least cost of deleting the first element, of inserting the other list's first element, and
of substituting it. -/
def distance : List α → List α → ℕ
  | [], t => t.length
  | a :: s, [] => (a :: s).length
  | a :: s, b :: t =>
    min (min (distance s (b :: t) + 1) (distance (a :: s) t + 1)) (distance s t + cost a b)
termination_by s t => s.length + t.length

@[simp] theorem distance_nil_left (t : List α) : distance [] t = t.length := by
  rw [distance]

@[simp] theorem distance_nil_right (s : List α) : distance s [] = s.length := by
  cases s with
  | nil => simp
  | cons a s => rw [distance]

theorem distance_cons (a b : α) (s t : List α) :
    distance (a :: s) (b :: t) =
      min (min (distance s (b :: t) + 1) (distance (a :: s) t + 1)) (distance s t + cost a b) := by
  rw [distance]

theorem cost_self (a : α) : cost a a = 0 := if_pos rfl

theorem cost_le (a b : α) : cost a b ≤ 1 := by
  unfold cost
  split
  · exact Nat.zero_le 1
  · exact Nat.le_refl 1

theorem distance_self (s : List α) : distance s s = 0 := by
  induction s with
  | nil => simp
  | cons a s ih =>
    rw [distance_cons, ih, cost_self]
    exact Nat.min_zero _

/-! ### A script that costs the distance -/

theorem edits_substitute (a b : α) (h : Edits n s t) : Edits (n + cost a b) (a :: s) (b :: t) := by
  unfold cost
  split
  · rename_i hsame
    subst hsame
    exact h.cons a
  · exact .step (.substitute [] s a b) (h.cons b)

theorem edits_distance (s t : List α) : Edits (distance s t) s t := by
  induction s, t using distance.induct with
  | case1 t =>
    rw [distance_nil_left]
    exact edits_insert t
  | case2 a s =>
    rw [distance_nil_right]
    exact (edits_insert _).symm
  | case3 a s b t ihdelete ihinsert ihsubstitute =>
    rw [distance_cons]
    -- the least of the three is one of them
    rcases min_choice (distance s (b :: t) + 1) (distance (a :: s) t + 1) with hmin | hmin
    · rw [hmin]
      rcases min_choice (distance s (b :: t) + 1) (distance s t + cost a b) with hmin | hmin
      · rw [hmin]
        exact .step (.delete [] s a) ihdelete
      · rw [hmin]
        exact edits_substitute a b ihsubstitute
    · rw [hmin]
      rcases min_choice (distance (a :: s) t + 1) (distance s t + cost a b) with hmin | hmin
      · rw [hmin]
        exact .step (.insert [] (a :: s) b) (ihinsert.cons b)
      · rw [hmin]
        exact edits_substitute a b ihsubstitute

/-! ### No script costs less -/

theorem distance_cons_left_le (a : α) (s t : List α) : distance (a :: s) t ≤ distance s t + 1 := by
  cases t with
  | nil => simp
  | cons b t =>
    rw [distance_cons]
    omega

theorem distance_cons_right_le (b : α) (s t : List α) :
    distance s (b :: t) ≤ distance s t + 1 := by
  cases s with
  | nil => simp
  | cons a s =>
    rw [distance_cons]
    omega

theorem distance_le_cons_left (a : α) (s t : List α) : distance s t ≤ distance (a :: s) t + 1 := by
  induction t with
  | nil =>
    simp only [distance_nil_right, List.length_cons]
    omega
  | cons b t ih =>
    have hright := distance_cons_right_le b s t
    rw [distance_cons]
    omega

theorem distance_substitute_le (a b : α) (s t : List α) :
    distance (a :: s) t ≤ distance (b :: s) t + 1 := by
  induction t with
  | nil => simp
  | cons c t ih =>
    have hcost := cost_le a c
    rw [distance_cons, distance_cons]
    omega

/-- A common first element keeps a bound on how far two lists are from each other. -/
theorem distance_cons_congr (a : α) (h : ∀ t, distance s t ≤ distance u t + 1) (t : List α) :
    distance (a :: s) t ≤ distance (a :: u) t + 1 := by
  induction t with
  | nil =>
    have hlength := h []
    simp only [distance_nil_right, List.length_cons] at hlength ⊢
    omega
  | cons b t ih =>
    have hdelete := h (b :: t)
    have hsubstitute := h t
    rw [distance_cons, distance_cons]
    omega

theorem distance_append_congr (w : List α) (h : ∀ t, distance s t ≤ distance u t + 1) :
    ∀ t, distance (w ++ s) t ≤ distance (w ++ u) t + 1 := by
  induction w with
  | nil => exact h
  | cons a w ih => exact distance_cons_congr a ih

theorem Step.distance_le (h : Step s u) (t : List α) : distance s t ≤ distance u t + 1 := by
  cases h with
  | insert w v a => exact distance_append_congr w (distance_le_cons_left a v) t
  | delete w v a => exact distance_append_congr w (distance_cons_left_le a v) t
  | substitute w v a b => exact distance_append_congr w (distance_substitute_le a b v) t

theorem Edits.distance_le (h : Edits n s t) : distance s t ≤ n := by
  induction h with
  | refl s => exact (distance_self s).le
  | step hfirst _ ih =>
    have hstep := hfirst.distance_le
    exact (hstep _).trans (Nat.add_le_add_right ih 1)

/-- The distance is the least number of steps from one list to the other. -/
theorem isLeast_distance (s t : List α) : IsLeast {n | Edits n s t} (distance s t) :=
  ⟨edits_distance s t, fun _ h => Edits.distance_le h⟩

theorem distance_comm (s t : List α) : distance s t = distance t s :=
  le_antisymm (edits_distance t s).symm.distance_le (edits_distance s t).symm.distance_le

theorem distance_reverse (s t : List α) : distance s.reverse t.reverse = distance s t :=
  le_antisymm (edits_distance s t).reverse.distance_le
    (edits_reverse.mp (edits_distance s.reverse t.reverse)).distance_le

end EditDistance
