import Mathlib.Data.List.Basic

/-!
Counters over fixed windows of time. The first call opens a window, the calls of a window are
numbered, and a call after its end opens the next one. Of the calls in any interval as long as a
window, at most twice the limit have a number up to the limit.
-/

namespace FixedWindow

structure Window where
  count : Nat
  expires : Int
  deriving DecidableEq, Repr

/-- The window that is still open. -/
def live (entry : Option Window) (now : Int) : Option Window :=
  entry.filter fun w => now < w.expires

def consume (length : Int) (entry : Option Window) (now : Int) : Window :=
  match live entry now with
  | some w => ⟨w.count + 1, w.expires⟩
  | none => ⟨1, now + length⟩

/-- The numbers of calls at given times. -/
def counts (length : Int) (entry : Option Window) : List Int → List (Int × Nat)
  | [] => []
  | t :: ts =>
    (t, (consume length entry t).count) :: counts length (some (consume length entry t)) ts

/-- The window after the calls. -/
def after (length : Int) (entry : Option Window) : List Int → Option Window
  | [] => entry
  | t :: ts => after length (some (consume length entry t)) ts

/-- A call that is let through, in the interval that starts at a time. -/
def passes (length : Int) (limit : Nat) (start : Int) (call : Int × Nat) : Bool :=
  call.2 ≤ limit && start ≤ call.1 && call.1 < start + length

variable {length : Int} {limit : Nat} {start : Int} {entry : Option Window}

theorem live_of_lt {w : Window} {now : Int} (h : now < w.expires) : live (some w) now = some w := by
  simp [live, Option.filter, h]

theorem live_of_le {w : Window} {now : Int} (h : w.expires ≤ now) : live (some w) now = none := by
  simp [live, Option.filter, Int.not_lt.mpr h]

theorem live_live {now later : Int} (hle : now ≤ later) :
    live (live entry now) later = live entry later := by
  cases entry with
  | none => rfl
  | some w =>
    by_cases h : now < w.expires
    · rw [live_of_lt h]
    · have hlater : w.expires ≤ later := Int.le_trans (Int.not_lt.mp h) hle
      rw [live_of_le (Int.not_lt.mp h), live_of_le hlater]
      rfl

theorem consume_of_lt {w : Window} {now : Int} (h : now < w.expires) :
    consume length (some w) now = ⟨w.count + 1, w.expires⟩ := by
  rw [consume, live_of_lt h]

theorem consume_of_le {w : Window} {now : Int} (h : w.expires ≤ now) :
    consume length (some w) now = ⟨1, now + length⟩ := by
  rw [consume, live_of_le h]

theorem consume_live {now : Int} (entry : Option Window) :
    consume length (live entry now) now = consume length entry now := by
  cases entry with
  | none => rfl
  | some w =>
    by_cases h : now < w.expires
    · rw [live_of_lt h]
    · rw [live_of_le (Int.not_lt.mp h), consume_of_le (Int.not_lt.mp h)]
      rfl

theorem counts_append (ts ts' : List Int) : counts length entry (ts ++ ts') =
    counts length entry ts ++ counts length (after length entry ts) ts' := by
  induction ts generalizing entry with
  | nil => rfl
  | cons t ts ih =>
    rw [List.cons_append, counts, ih]
    rfl

theorem after_append (ts ts' : List Int) :
    after length entry (ts ++ ts') = after length (after length entry ts) ts' := by
  induction ts generalizing entry with
  | nil => rfl
  | cons t ts ih => exact ih

theorem time_of_mem_counts {ts : List Int} {call : Int × Nat}
    (h : call ∈ counts length entry ts) : call.1 ∈ ts := by
  induction ts generalizing entry with
  | nil => cases h
  | cons t ts ih =>
    rcases List.mem_cons.mp h with rfl | h
    · exact List.mem_cons_self
    · exact List.mem_cons_of_mem _ (ih h)

/-- While a window is open, what is left of the limit is let through. -/
theorem countP_counts_le {w : Window} {ts : List Int} (p : Int × Nat → Bool)
    (hp : ∀ c, p c = true → c.2 ≤ limit) (hwindow : ∀ t ∈ ts, t < w.expires) :
    (counts length (some w) ts).countP p ≤ limit - w.count := by
  induction ts generalizing w with
  | nil => exact Nat.zero_le _
  | cons t ts ih =>
    have ht := hwindow t List.mem_cons_self
    rw [counts, consume_of_lt ht, List.countP_cons]
    have hrest := @ih ⟨w.count + 1, w.expires⟩ fun t' ht' => hwindow t' (List.mem_cons_of_mem _ ht')
    simp only at hrest ⊢
    split_ifs with hpass
    · have hle := hp _ hpass
      simp only at hle
      omega
    · omega

/-- The calls from the end of a window on do not depend on it. -/
theorem counts_split {w : Window} {ts : List Int} (hsorted : ts.Pairwise (· ≤ ·)) :
    ∃ early late, ts = early ++ late ∧ (∀ t ∈ early, t < w.expires) ∧
      (∀ t ∈ late, w.expires ≤ t) ∧
      counts length (some w) ts = counts length (some w) early ++ counts length none late := by
  induction ts generalizing w with
  | nil => exact ⟨[], [], rfl, List.forall_mem_nil _, List.forall_mem_nil _, rfl⟩
  | cons t ts ih =>
    obtain ⟨hle, hrest⟩ := List.pairwise_cons.mp hsorted
    by_cases ht : t < w.expires
    · obtain ⟨early, late, rfl, hearly, hlate, hcounts⟩ := @ih ⟨w.count + 1, w.expires⟩ hrest
      refine ⟨t :: early, late, rfl, ?_, hlate, ?_⟩
      · exact List.forall_mem_cons.mpr ⟨ht, hearly⟩
      · rw [counts, consume_of_lt ht, hcounts, counts, consume_of_lt ht]
        rfl
    · have ht' := Int.not_lt.mp ht
      refine ⟨[], t :: ts, rfl, List.forall_mem_nil _, ?_, ?_⟩
      · exact List.forall_mem_cons.mpr ⟨ht', fun t' h => Int.le_trans ht' (hle t' h)⟩
      · simp only [List.nil_append, counts, consume_of_le ht']
        rfl

theorem countP_passes_eq_zero {ts : List Int}
    (h : ∀ t ∈ ts, t < start ∨ start + length ≤ t) :
    (counts length entry ts).countP (passes length limit start) = 0 := by
  rw [List.countP_eq_zero]
  intro call hcall hpass
  simp only [passes, Bool.and_eq_true, decide_eq_true_eq] at hpass
  have ht := h _ (time_of_mem_counts hcall)
  omega

theorem passes_limit (call : Int × Nat) (h : passes length limit start call = true) :
    call.2 ≤ limit := by
  simp only [passes, Bool.and_eq_true, decide_eq_true_eq] at h
  exact h.1.1

/-- In an interval before whose calls no window is open, these calls share one window. -/
theorem countP_passes_none {ts : List Int} (hsorted : ts.Pairwise (· ≤ ·))
    (hstart : ∀ t ∈ ts, start ≤ t) :
    (counts length none ts).countP (passes length limit start) ≤ limit := by
  cases ts with
  | nil => exact Nat.zero_le _
  | cons t ts =>
    have hrest := (List.pairwise_cons.mp hsorted).2
    have ht := hstart t List.mem_cons_self
    obtain ⟨early, late, rfl, hearly, hlate, hcounts⟩ :=
      @counts_split length ⟨1, t + length⟩ ts hrest
    have hlater : (counts length none late).countP (passes length limit start) = 0 := by
      apply countP_passes_eq_zero
      intro t' ht'
      have hend := hlate t' ht'
      simp only at hend
      omega
    have hwindow := @countP_counts_le length limit _ _ _ (@passes_limit length limit start) hearly
    have hsplit : counts length none (t :: (early ++ late)) =
        (t, 1) :: (counts length (some ⟨1, t + length⟩) early ++ counts length none late) := by
      rw [← hcounts]
      rfl
    simp only at hwindow
    rw [hsplit, List.countP_cons, List.countP_append, hlater]
    split_ifs with hpass
    · have hle := passes_limit _ hpass
      simp only at hle
      omega
    · omega

/-- Any interval as long as a window meets two windows at most. -/
theorem countP_passes_le {ts : List Int} (hsorted : ts.Pairwise (· ≤ ·)) :
    (counts length entry ts).countP (passes length limit start) ≤ 2 * limit := by
  induction ts generalizing entry with
  | nil => exact Nat.zero_le _
  | cons t ts ih =>
    obtain ⟨hle, hrest⟩ := List.pairwise_cons.mp hsorted
    by_cases ht : t < start
    · -- a call before the interval
      have hpass : ¬ passes length limit start (t, (consume length entry t).count) = true := by
        simp only [passes, Bool.and_eq_true, decide_eq_true_eq]
        omega
      rw [counts, List.countP_cons, if_neg hpass]
      exact ih hrest
    · have hstart : ∀ t' ∈ t :: ts, start ≤ t' :=
        List.forall_mem_cons.mpr
          ⟨Int.not_lt.mp ht, fun t' ht' => Int.le_trans (Int.not_lt.mp ht) (hle t' ht')⟩
      cases entry with
      | none =>
        have hone := @countP_passes_none length limit start _ hsorted hstart
        omega
      | some w =>
        obtain ⟨early, late, htimes, hearly, -, hcounts⟩ := @counts_split length w (t :: ts) hsorted
        rw [htimes] at hsorted hstart
        have hfirst :=
          @countP_counts_le length limit _ _ _ (@passes_limit length limit start) hearly
        have hsecond := @countP_passes_none length limit start late
          (List.pairwise_append.mp hsorted).2.1 fun t' ht' =>
            hstart t' (List.mem_append_right _ ht')
        rw [hcounts, List.countP_append]
        omega

end FixedWindow
