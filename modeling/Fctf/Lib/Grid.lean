import Mathlib.Data.List.Range
import Mathlib.Logic.Function.Basic

/-!
Counted loops with their invariant rule, and tables whose cells a double loop fills from the cells
above, to the left and diagonally before them.
-/

namespace Grid

variable {σ β : Type*}

/-- The body runs for every number from the first to the last. -/
def loop (first last : ℕ) (body : ℕ → σ → σ) (s : σ) : σ :=
  (List.range' first (last + 1 - first)).foldl (fun s i => body i s) s

/-- What holds before a round, when the number is its own, holds after the last one. -/
theorem loop_invariant {first last : ℕ} {body : ℕ → σ → σ} {s : σ} (I : ℕ → σ → Prop)
    (hbound : first ≤ last + 1) (hstart : I first s)
    (hbody : ∀ i s, first ≤ i → i ≤ last → I i s → I (i + 1) (body i s)) :
    I (last + 1) (loop first last body s) := by
  have hrounds : ∀ n, first + n ≤ last + 1 →
      I (first + n) ((List.range' first n).foldl (fun s i => body i s) s) := by
    intro n hn
    induction n with
    | zero => exact hstart
    | succ n ih =>
      rw [List.range'_concat, List.foldl_append, Nat.one_mul]
      exact hbody (first + n) _ (Nat.le_add_right first n) (by omega) (ih (by omega))
  have hall := hrounds (last + 1 - first) (by omega)
  rwa [Nat.add_sub_cancel' hbound] at hall

/-- A table. -/
abbrev Table (β : Type*) := ℕ → ℕ → β

def set (d : Table β) (i j : ℕ) (v : β) : Table β :=
  Function.update d i (Function.update (d i) j v)

@[simp] theorem set_self (d : Table β) (i j : ℕ) (v : β) : set d i j v i j = v := by
  simp [set]

theorem set_of_ne (d : Table β) {i j a b : ℕ} (v : β) (h : ¬ (a = i ∧ b = j)) :
    set d i j v a b = d a b := by
  unfold set
  by_cases hi : a = i
  · subst hi
    have hj : b ≠ j := fun hj => h ⟨rfl, hj⟩
    rw [Function.update_self, Function.update_of_ne hj]
  · rw [Function.update_of_ne hi]

/-- Fills the rows and columns from 1 on, row by row. -/
def fill (cell : Table β → ℕ → ℕ → β) (m n : ℕ) (d : Table β) : Table β :=
  loop 1 m (fun i d => loop 1 n (fun j d => set d i j (cell d i j)) d) d

/-- The cells of a table are those of `f`, where the cells before them being so makes a cell so. -/
theorem fill_eq {f : Table β} {cell : Table β → ℕ → ℕ → β} {m n : ℕ} {d : Table β}
    (hcolumn : ∀ i ≤ m, d i 0 = f i 0) (hrow : ∀ j ≤ n, d 0 j = f 0 j)
    (hcell : ∀ d i j, 1 ≤ i → i ≤ m → 1 ≤ j → j ≤ n → d (i - 1) j = f (i - 1) j →
      d i (j - 1) = f i (j - 1) → d (i - 1) (j - 1) = f (i - 1) (j - 1) → cell d i j = f i j) :
    ∀ i ≤ m, ∀ j ≤ n, fill cell m n d i j = f i j := by
  -- before row `i` the first column and all earlier rows are done
  let Rows (i : ℕ) (d : Table β) : Prop :=
    (∀ a ≤ m, d a 0 = f a 0) ∧ ∀ a < i, ∀ b ≤ n, d a b = f a b
  have hrows : Rows (m + 1) (fill cell m n d) := by
    refine loop_invariant Rows (by omega) ⟨hcolumn, ?_⟩ ?_
    · intro a ha b hb
      obtain rfl : a = 0 := by omega
      exact hrow b hb
    intro i d hi him hd
    -- before column `j` also the earlier cells of the row
    let Columns (j : ℕ) (d : Table β) : Prop := Rows i d ∧ ∀ b < j, d i b = f i b
    have hcolumns :
        Columns (n + 1) (loop 1 n (fun j d => set d i j (cell d i j)) d) := by
      refine loop_invariant Columns (by omega) ⟨hd, ?_⟩ ?_
      · intro b hb
        obtain rfl : b = 0 := by omega
        exact hd.1 i him
      intro j d hj hjn ⟨⟨hfirst, hbefore⟩, hleft⟩
      have hnew : cell d i j = f i j :=
        hcell d i j hi him hj hjn (hbefore (i - 1) (by omega) j hjn) (hleft (j - 1) (by omega))
          (hbefore (i - 1) (by omega) (j - 1) (by omega))
      refine ⟨⟨?_, ?_⟩, ?_⟩
      · intro a ha
        rw [set_of_ne d _ (by omega)]
        exact hfirst a ha
      · intro a ha b hb
        rw [set_of_ne d _ (by omega)]
        exact hbefore a ha b hb
      · intro b hb
        by_cases hbj : b = j
        · subst hbj
          rw [set_self, hnew]
        · rw [set_of_ne d _ (by omega)]
          exact hleft b (by omega)
    refine ⟨hcolumns.1.1, ?_⟩
    intro a ha b hb
    by_cases hai : a = i
    · subst hai
      exact hcolumns.2 b (by omega)
    · exact hcolumns.1.2 a (by omega) b hb
  intro i hi j hj
  exact hrows.2 i (by omega) j hj

end Grid
