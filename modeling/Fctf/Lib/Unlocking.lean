import Mathlib.Data.List.Basic

/-!
Tasks that other tasks have to be done before. A task is grounded when it can be done by and by:
it is done, or it is open and all that it requires is grounded. A system that can do any open task
whose requirements are done, and never undoes one, can do all that is grounded, in any order.
-/

namespace Unlocking

variable {σ α : Type*}

inductive Grounded (requires : α → List α) (opens done : α → Prop) : α → Prop
  | done {a : α} (hdone : done a) : Grounded requires opens done a
  | opened {a : α} (hopen : opens a)
      (hrequires : ∀ b ∈ requires a, Grounded requires opens done b) :
      Grounded requires opens done a

variable {requires : α → List α} {opens done done' : α → Prop}

theorem Grounded.mono {a : α} (h : Grounded requires opens done a) (hsub : ∀ b, done b → done' b) :
    Grounded requires opens done' a := by
  induction h with
  | done hdone => exact .done (hsub _ hdone)
  | opened hopen _ ih => exact .opened hopen ih

section Doing

variable (leads : σ → σ → Prop) (isDone : σ → α → Prop)

/-- What can be done one by one, from wherever one has got to, can all be done. -/
theorem exists_all (hrefl : ∀ s, leads s s) (htrans : ∀ {s t u}, leads s t → leads t u → leads s u)
    (hkeep : ∀ {s t}, leads s t → ∀ a, isDone s a → isDone t a) (start : σ) (tasks : List α)
    (h : ∀ a ∈ tasks, ∀ s, leads start s → ∃ t, leads s t ∧ isDone t a) :
    ∀ s, leads start s → ∃ t, leads s t ∧ ∀ a ∈ tasks, isDone t a := by
  induction tasks with
  | nil => exact fun s _ => ⟨s, hrefl s, List.forall_mem_nil _⟩
  | cons a rest ih =>
    intro s hs
    obtain ⟨mid, hmid, hrest⟩ := ih (fun b hb => h b (List.mem_cons_of_mem _ hb)) s hs
    obtain ⟨t, ht, hdone⟩ := h a List.mem_cons_self mid (htrans hs hmid)
    refine ⟨t, htrans hmid ht, List.forall_mem_cons.mpr ⟨hdone, ?_⟩⟩
    exact fun b hb => hkeep ht b (hrest b hb)

/-- No order of doing tasks leads into a dead end. -/
theorem Grounded.reachable (hrefl : ∀ s, leads s s)
    (htrans : ∀ {s t u}, leads s t → leads t u → leads s u)
    (hkeep : ∀ {s t}, leads s t → ∀ a, isDone s a → isDone t a) (start : σ)
    (hdo : ∀ s, leads start s → ∀ a, opens a → (∀ b ∈ requires a, isDone s b) →
      ∃ t, leads s t ∧ isDone t a) {a : α} (h : Grounded requires opens (isDone start) a) :
    ∀ s, leads start s → ∃ t, leads s t ∧ isDone t a := by
  induction h with
  | done hdone => exact fun s hs => ⟨s, hrefl s, hkeep hs _ hdone⟩
  | opened hopen _ ih =>
    intro s hs
    obtain ⟨mid, hmid, hrequires⟩ := exists_all leads isDone hrefl htrans hkeep start _ ih s hs
    obtain ⟨t, ht, hdone⟩ := hdo mid (htrans hs hmid) _ hopen hrequires
    exact ⟨t, htrans hmid ht, hdone⟩

end Doing

end Unlocking
