import Mathlib.Data.List.Nodup
import Mathlib.Logic.Relation

/-!
A worklist: it takes a node off a stack, puts the successors on it that it has not seen, and
stops when the stack is empty. With as many steps as there are nodes it has seen exactly the
nodes that can be reached from those it began with.
-/

namespace Closure

variable {α : Type*} [DecidableEq α]

/-- The nodes seen after a number of steps. -/
def collect (next : α → List α) : Nat → List α → List α → List α
  | 0, _, seen => seen
  | _ + 1, [], seen => seen
  | n + 1, current :: stack, seen =>
    let new := (next current).filter fun a => a ∉ seen
    collect next n (new.reverse ++ stack) (seen ++ new)

/-- A node that a successor can be reached from. -/
def Step (next : α → List α) (a b : α) : Prop := b ∈ next a

variable {next : α → List α}

theorem subset_collect (n : Nat) (stack seen : List α) : seen ⊆ collect next n stack seen := by
  induction n generalizing stack seen with
  | zero => exact List.Subset.refl seen
  | succ n ih =>
    cases stack with
    | nil => exact List.Subset.refl seen
    | cons current stack => exact List.Subset.trans (List.subset_append_left _ _) (ih _ _)

/-- Every node seen can be reached. -/
theorem collect_sound {start : α} (n : Nat) {stack seen : List α} (hstack : stack ⊆ seen)
    (hseen : ∀ a ∈ seen, Relation.ReflTransGen (Step next) start a) :
    ∀ a ∈ collect next n stack seen, Relation.ReflTransGen (Step next) start a := by
  induction n generalizing stack seen with
  | zero => exact hseen
  | succ n ih =>
    cases stack with
    | nil => exact hseen
    | cons current stack =>
      refine ih ?_ ?_
      · intro a ha
        rcases List.mem_append.mp ha with ha | ha
        · exact List.mem_append_right _ (List.mem_reverse.mp ha)
        · exact List.mem_append_left _ (hstack (List.mem_cons_of_mem _ ha))
      · intro a ha
        rcases List.mem_append.mp ha with ha | ha
        · exact hseen a ha
        · exact (hseen current (hstack List.mem_cons_self)).tail (List.mem_of_mem_filter ha)

/-- The nodes that are not seen, and those that wait on the stack. -/
def pending (nodes stack seen : List α) : Nat :=
  (nodes.filter fun a => a ∉ seen).length + stack.length

/-- A step sees its new nodes and takes one off the stack. -/
theorem pending_step {nodes : List α} (hnodes : nodes.Nodup)
    (hnext : ∀ a, (next a).Nodup ∧ next a ⊆ nodes) (current : α) (stack seen : List α) :
    pending nodes (((next current).filter fun a => a ∉ seen).reverse ++ stack)
        (seen ++ (next current).filter fun a => a ∉ seen) + 1 =
      pending nodes (current :: stack) seen := by
  obtain ⟨hnodup, hsub⟩ := hnext current
  have hnew : ((nodes.filter fun a => a ∉ seen).filter fun a => a ∈ next current).length =
      ((next current).filter fun a => a ∉ seen).length := by
    refine (List.Perm.length_eq ?_)
    refine (List.perm_ext_iff_of_nodup ((hnodes.filter _).filter _) (hnodup.filter _)).mpr ?_
    intro a
    simp only [List.mem_filter, decide_eq_true_eq]
    constructor
    · rintro ⟨⟨-, hseen⟩, ha⟩
      exact ⟨ha, hseen⟩
    · rintro ⟨ha, hseen⟩
      exact ⟨⟨hsub ha, hseen⟩, ha⟩
  have hold : (nodes.filter fun a => a ∉ seen ++ (next current).filter fun a => a ∉ seen) =
      (nodes.filter fun a => a ∉ seen).filter fun a => !decide (a ∈ next current) := by
    rw [List.filter_filter]
    refine List.filter_congr fun a _ => ?_
    by_cases hseen : a ∈ seen
    · simp [hseen]
    · simp [hseen]
  have hsplit := List.length_eq_length_filter_add (l := nodes.filter fun a => a ∉ seen)
    (fun a => decide (a ∈ next current))
  simp only [pending, List.length_append, List.length_reverse, List.length_cons, hold]
  omega

/-- With enough steps the nodes seen are closed under successors. -/
theorem collect_closed {nodes : List α} (hnodes : nodes.Nodup)
    (hnext : ∀ a, (next a).Nodup ∧ next a ⊆ nodes) (n : Nat) {stack seen : List α}
    (hn : pending nodes stack seen ≤ n)
    (hclosed : ∀ a ∈ seen, a ∈ stack ∨ next a ⊆ seen) :
    ∀ a ∈ collect next n stack seen, next a ⊆ collect next n stack seen := by
  induction n generalizing stack seen with
  | zero =>
    have hempty : stack = [] := by
      rw [← List.length_eq_zero_iff]
      unfold pending at hn
      omega
    subst hempty
    intro a ha
    exact (hclosed a ha).resolve_left List.not_mem_nil
  | succ n ih =>
    cases stack with
    | nil =>
      intro a ha
      exact (hclosed a ha).resolve_left List.not_mem_nil
    | cons current stack =>
      have hstep := pending_step hnodes hnext current stack seen
      refine ih (by omega) ?_
      intro a ha
      rcases List.mem_append.mp ha with ha | ha
      · rcases hclosed a ha with hwait | hdone
        · rcases List.mem_cons.mp hwait with rfl | hwait
          · refine Or.inr fun b hb => ?_
            by_cases hseen : b ∈ seen
            · exact List.mem_append_left _ hseen
            · exact List.mem_append_right _ (List.mem_filter.mpr ⟨hb, decide_eq_true hseen⟩)
          · exact Or.inl (List.mem_append_right _ hwait)
        · exact Or.inr fun b hb => List.mem_append_left _ (hdone hb)
      · exact Or.inl (List.mem_append_left _ (List.mem_reverse.mpr ha))

theorem pending_start (nodes : List α) (start : α) :
    pending nodes [start] [start] ≤ nodes.length + 1 :=
  Nat.add_le_add_right (List.length_filter_le _ _) 1

/-- From one node the worklist sees exactly what can be reached from it. -/
theorem mem_collect {nodes : List α} (hnodes : nodes.Nodup)
    (hnext : ∀ a, (next a).Nodup ∧ next a ⊆ nodes) {n : Nat} (hn : nodes.length + 1 ≤ n)
    (start a : α) :
    a ∈ collect next n [start] [start] ↔ Relation.ReflTransGen (Step next) start a := by
  have hstart : ∀ b ∈ [start], Relation.ReflTransGen (Step next) start b := by
    intro b hb
    obtain rfl := List.mem_singleton.mp hb
    exact .refl
  constructor
  · exact fun h => collect_sound _ (List.Subset.refl _) hstart a h
  · intro h
    have hclosed := collect_closed hnodes hnext n (Nat.le_trans (pending_start nodes start) hn)
      fun b hb => Or.inl hb
    induction h with
    | refl => exact subset_collect _ _ _ (List.mem_singleton_self start)
    | tail _ hlast ih => exact hclosed _ ih hlast

end Closure
