import Fctf.Access.AuthorRespect

/-!
`_cascade_hide_dependents` round by round. Each round takes a challenge off the list and asks the
database for the challenges that are not hidden by then; those of them that require it and were
not seen before are hidden and put on the list.
-/

namespace Fctf.Authorship

variable {X : Type}

def Challenge.hide (d : Challenge X) : Challenge X := { d with state := .hidden }

/-- `to_process` with its end first, `seen` and `newly_hidden`, and the table of the session. -/
structure Cascade (X : Type) where
  toProcess : List Nat
  seen : List Nat
  newlyHidden : List Nat := []
  challenges : Table (Challenge.id (X := X))

namespace Cascade

def start (challenges : Table (Challenge.id (X := X))) (id : Nat) : Cascade X :=
  { toProcess := [id], seen := [id], challenges }

/-- The body of the inner loop. -/
def visit (current : Nat) (s : Cascade X) (dep : Challenge X) : Cascade X :=
  if dep.id ∈ s.seen then s
  else if current ∈ dep.prerequisites then
    { toProcess := dep.id :: s.toProcess
      seen := s.seen ++ [dep.id]
      newlyHidden := s.newlyHidden ++ [dep.id]
      challenges := s.challenges.update dep.id Challenge.hide fun _ => rfl }
  else s

/-- The body of the `while`; there is no next round when `to_process` is empty. -/
def round (s : Cascade X) : Option (Cascade X) :=
  match s.toProcess with
  | [] => none
  | current :: rest =>
    let dependents := s.challenges.rows.filter fun dep => dep.state ≠ .hidden
    some (dependents.foldl (visit current) { s with toProcess := rest })

/-- The rounds up to a number of them, or all there are. -/
def rounds : Nat → Cascade X → Cascade X
  | 0, s => s
  | n + 1, s =>
    match s.round with
    | none => s
    | some s' => rounds n s'

end Cascade

/-- The challenges that require a challenge and are not hidden: the edges of the cascade. -/
def DependsOn (challenges : Table (Challenge.id (X := X))) (a b : Nat) : Prop :=
  ∃ d ∈ challenges.rows, d.id = b ∧ d.state ≠ .hidden ∧ a ∈ d.prerequisites

/-- Reached from a challenge through challenges that are not hidden. -/
def Reaches (challenges : Table (Challenge.id (X := X))) : Nat → Nat → Prop :=
  Relation.TransGen (DependsOn challenges)

/-! ### One round -/

section Rounds

/-- The table with some challenges hidden. -/
def hideAll (challenges : Table (Challenge.id (X := X))) (ids : List Nat) :
    Table (Challenge.id (X := X)) :=
  challenges.modify (fun d => if d.id ∈ ids then d.hide else d) fun d => by split <;> rfl

theorem hideAll_nil (challenges : Table (Challenge.id (X := X))) :
    hideAll challenges [] = challenges := by
  simp [hideAll, Table.modify]

theorem hideAll_update (challenges : Table (Challenge.id (X := X))) (ids : List Nat) (id : Nat) :
    (hideAll challenges ids).update id Challenge.hide (fun _ => rfl) =
      hideAll challenges (ids ++ [id]) := by
  simp only [hideAll, Table.update, Table.modify, List.map_map, Table.mk.injEq]
  refine List.map_congr_left fun d _ => ?_
  by_cases hmem : d.id ∈ ids
  · simp [hmem, Challenge.hide]
  · simp [hmem]

/-- The challenges that are not hidden once some more are. -/
theorem filter_hideAll (challenges : Table (Challenge.id (X := X))) (ids : List Nat) :
    ((hideAll challenges ids).rows.filter fun dep => dep.state ≠ .hidden) =
      challenges.rows.filter fun dep => decide (dep.state ≠ .hidden) && decide (dep.id ∉ ids) := by
  rw [hideAll, Table.modify]
  dsimp only
  induction challenges.rows with
  | nil => rfl
  | cons d rest ih =>
    rw [List.map_cons, List.filter_cons, List.filter_cons, ih]
    by_cases hmem : d.id ∈ ids
    · simp [hmem, Challenge.hide]
    · simp [hmem]

variable {challenges : Table (Challenge.id (X := X))} {id : Nat}

/-- What the rounds keep: the challenges that were seen, the first one apart, are the hidden ones,
and nothing waits that was not seen. -/
structure Cascade.Sound (challenges : Table (Challenge.id (X := X))) (id : Nat) (s : Cascade X) :
    Prop where
  challenges : s.challenges = hideAll challenges s.newlyHidden
  seen : s.seen = id :: s.newlyHidden
  fresh : id ∉ s.newlyHidden

namespace Cascade

theorem sound_start (challenges : Table (Challenge.id (X := X))) (id : Nat) :
    Sound challenges id (start challenges id) where
  challenges := (hideAll_nil challenges).symm
  seen := rfl
  fresh := List.not_mem_nil

theorem Sound.visit {s : Cascade X} (h : Sound challenges id s) (current : Nat)
    (dep : Challenge X) : Sound challenges id (s.visit current dep) := by
  unfold Cascade.visit
  split
  · exact h
  · rename_i hnew
    split
    · refine ⟨?_, ?_, ?_⟩
      · rw [h.challenges]
        exact hideAll_update challenges s.newlyHidden dep.id
      · rw [h.seen]
        rfl
      · intro hmem
        rcases List.mem_append.mp hmem with hmem | hmem
        · exact h.fresh hmem
        · rw [h.seen, List.mem_singleton.mp hmem] at hnew
          exact hnew List.mem_cons_self
    · exact h

/-- The inner loop over challenges of which no two have the same id: none of them is kept from
being hidden by an earlier one. -/
theorem foldl_visit (current : Nat) {deps : List (Challenge X)}
    (hdeps : (deps.map Challenge.id).Nodup) {s : Cascade X} (h : Sound challenges id s) :
    let new := (deps.filter fun d =>
      decide (d.id ∉ s.seen) && decide (current ∈ d.prerequisites)).map
      Challenge.id
    let s' := deps.foldl (visit current) s
    Sound challenges id s' ∧ s'.toProcess = new.reverse ++ s.toProcess ∧
      s'.seen = s.seen ++ new := by
  induction deps generalizing s with
  | nil => exact ⟨h, rfl, (List.append_nil _).symm⟩
  | cons d rest ih =>
    rw [List.map_cons, List.nodup_cons] at hdeps
    obtain ⟨hsound, hprocess, hseen⟩ := ih hdeps.2 (h.visit current d)
    rw [List.foldl_cons]
    refine ⟨hsound, ?_⟩
    rw [hprocess, hseen, List.filter_cons]
    by_cases hd : d.id ∉ s.seen ∧ current ∈ d.prerequisites
    · have hvisit : (s.visit current d).seen = s.seen ++ [d.id] ∧
          (s.visit current d).toProcess = d.id :: s.toProcess := by
        simp [visit, hd]
      have hrest : (rest.filter fun e =>
          decide (e.id ∉ s.seen ++ [d.id]) && decide (current ∈ e.prerequisites)) =
          rest.filter fun e => decide (e.id ∉ s.seen) && decide (current ∈ e.prerequisites) := by
        refine List.filter_congr fun e he => ?_
        have hne : e.id ≠ d.id := fun heq => hdeps.1 (heq ▸ List.mem_map_of_mem he)
        simp [hne]
      rw [hvisit.1, hvisit.2, hrest]
      simp [hd.1, hd.2]
    · have hvisit : s.visit current d = s := by
        rw [visit]
        split
        · rfl
        · exact if_neg fun hreq => hd ⟨‹_›, hreq⟩
      have hskip : (decide (d.id ∉ s.seen) && decide (current ∈ d.prerequisites)) = false := by
        simpa using hd
      rw [hvisit, hskip]
      simp

/-- A round is one step of the worklist over the challenges as they were at the start. -/
theorem round_cons {s : Cascade X} (h : Sound challenges id s) {current : Nat} {rest : List Nat}
    (hs : s.toProcess = current :: rest) :
    let new := (dependents challenges.rows current).filter fun a => a ∉ s.seen
    ∃ s', s.round = some s' ∧ Sound challenges id s' ∧ s'.toProcess = new.reverse ++ rest ∧
      s'.seen = s.seen ++ new := by
  intro new
  have hnew : (((hideAll challenges s.newlyHidden).rows.filter
        fun dep => dep.state ≠ .hidden).filter
      fun d => decide (d.id ∉ s.seen) && decide (current ∈ d.prerequisites)).map
        Challenge.id = new := by
    simp only [new, dependents]
    rw [filter_hideAll, List.filter_filter, List.filter_map, List.filter_filter]
    congr 1
    refine List.filter_congr fun d _ => ?_
    simp only [Function.comp_apply, h.seen, List.mem_cons, not_or]
    by_cases hid : d.id = id
    · simp [hid]
    · by_cases hmem : d.id ∈ s.newlyHidden
      · simp [hmem]
      · simp [hid, hmem, Bool.and_comm]
  have hnodup : ((s.challenges.rows.filter fun dep => dep.state ≠ .hidden).map
      Challenge.id).Nodup :=
    s.challenges.nodup.sublist (List.filter_sublist.map _)
  obtain ⟨hsound, hprocess, hseen⟩ := foldl_visit (s := { s with toProcess := rest }) current hnodup
    ⟨h.challenges, h.seen, h.fresh⟩
  rw [h.challenges, hnew] at hprocess hseen
  refine ⟨_, ?_, hsound, ?_, ?_⟩
  · rw [round, hs]
  · rw [h.challenges]
    exact hprocess
  · rw [h.challenges]
    exact hseen

/-! ### All rounds -/

/-- The rounds are the worklist's, and they end: each of them puts what it sees on the list and
takes one challenge off. -/
theorem rounds_eq (n : Nat) {s : Cascade X} (h : Sound challenges id s) :
    Sound challenges id (rounds n s) ∧
      (rounds n s).seen = Closure.collect (dependents challenges.rows) n s.toProcess s.seen ∧
      (Closure.pending (challenges.rows.map Challenge.id) s.toProcess s.seen ≤ n →
        (rounds n s).toProcess = []) := by
  induction n generalizing s with
  | zero =>
    refine ⟨h, rfl, fun hn => ?_⟩
    rw [← List.length_eq_zero_iff]
    unfold Closure.pending at hn
    exact Nat.eq_zero_of_le_zero (Nat.le_trans (Nat.le_add_left _ _) hn)
  | succ n ih =>
    cases hs : s.toProcess with
    | nil =>
      have hround : s.round = none := by rw [round, hs]
      rw [rounds, hround]
      exact ⟨h, rfl, fun _ => hs⟩
    | cons current rest =>
      obtain ⟨s', hround, hsound, hprocess, hseen⟩ := round_cons h hs
      rw [rounds, hround]
      obtain ⟨hrounds, hcollect, hends⟩ := ih hsound
      have hpending := Closure.pending_step challenges.nodup nodup_dependents current rest s.seen
      refine ⟨hrounds, ?_, fun hn => hends ?_⟩
      · rw [hcollect, hprocess, hseen]
        rfl
      · rw [hprocess, hseen]
        omega

end Cascade

end Rounds

/-- The rounds hide what the cascade of the other endpoints hides. -/
theorem rounds_challenges {challenges : Table (Challenge.id (X := X))} {id n : Nat}
    (hn : challenges.rows.length + 1 ≤ n) :
    (Cascade.rounds n (Cascade.start challenges id)).challenges =
      cascadeHideDependents challenges id := by
  obtain ⟨hsound, hseen, -⟩ := Cascade.rounds_eq n (Cascade.sound_start challenges id)
  have hmem : ∀ a, a ∈ (Cascade.rounds n (Cascade.start challenges id)).seen ↔
      a ∈ Closure.collect (dependents challenges.rows) (challenges.rows.length + 1) [id] [id] := by
    intro a
    rw [hseen, mem_cascade_seen]
    exact Closure.mem_collect challenges.nodup nodup_dependents (by rwa [List.length_map]) id a
  simp only [hsound.challenges, hideAll, cascadeHideDependents, Table.modify, Table.mk.injEq]
  refine List.map_congr_left fun d _ => ?_
  simp only [← hmem, hsound.seen, List.mem_cons]
  by_cases hid : d.id = id
  · simp [hid, hsound.fresh]
  · simp [hid, Challenge.hide]

theorem reaches_iff {challenges : Table (Challenge.id (X := X))} {id a : Nat} (hne : a ≠ id) :
    a ∈ Closure.collect (dependents challenges.rows) (challenges.rows.length + 1) [id] [id] ↔
      Reaches challenges id a := by
  have hedges : Closure.Step (dependents challenges.rows) = DependsOn challenges := by
    funext a b
    exact propext mem_dependents
  rw [mem_cascade_seen, hedges, Relation.reflTransGen_iff_eq_or_transGen, or_iff_right hne]
  rfl

open Classical in
/-- The rounds end, after at most one for each challenge and one more, and by then the challenges
that were reached from the first one are hidden and no others have changed. The callers have
hidden the first one before. -/
theorem cascade_hides_reachable (challenges : Table (Challenge.id (X := X))) (id n : Nat) :
    let s := Cascade.rounds (challenges.rows.length + 1 + n) (Cascade.start challenges id)
    s.toProcess = [] ∧
      (s.challenges.rows = challenges.rows.map fun d =>
        if d.id ≠ id ∧ Reaches challenges id d.id then d.hide else d) ∧
      ((∀ d ∈ challenges.rows, d.id = id → d.state = .hidden) →
        s.challenges.rows = challenges.rows.map fun d =>
          if Reaches challenges id d.id then d.hide else d) := by
  intro s
  obtain ⟨-, -, hends⟩ := Cascade.rounds_eq (challenges.rows.length + 1 + n)
    (Cascade.sound_start challenges id)
  have hrows : s.challenges.rows = challenges.rows.map fun d =>
      if d.id ≠ id ∧ Reaches challenges id d.id then d.hide else d := by
    rw [rounds_challenges (Nat.le_add_right _ n), cascadeHideDependents, Table.modify]
    refine List.map_congr_left fun d _ => ?_
    by_cases hid : d.id = id
    · simp [hid]
    · simp [hid, reaches_iff hid, Challenge.hide]
  refine ⟨hends ?_, hrows, fun hhidden => ?_⟩
  · have hstart := Closure.pending_start (challenges.rows.map Challenge.id) id
    rw [List.length_map] at hstart
    exact Nat.le_trans hstart (Nat.le_add_right _ n)
  · rw [hrows]
    refine List.map_congr_left fun d hd => ?_
    have hne : Reaches challenges id d.id → d.id ≠ id := by
      intro hreach
      obtain ⟨a, -, d', hd', hkey, hstate, -⟩ := Relation.TransGen.tail'_iff.mp hreach
      obtain rfl := Table.eq_of_key hd' hd hkey
      exact fun hid => hstate (hhidden _ hd hid)
    simp only [and_iff_right_of_imp hne]

/-- Two challenges that require each other, one of which also requires itself and a challenge that
is gone. -/
example : ((Cascade.rounds 9 (Cascade.start (X := Unit)
      { rows := [⟨1, 1, .hidden, [2], none, false, none, none, none, true, ()⟩,
        ⟨2, 1, .visible, [1, 2, 7], none, false, none, none, none, true, ()⟩,
        ⟨3, 1, .visible, [4], none, false, none, none, none, true, ()⟩]
        nodup := by decide } 1)).challenges.rows.map Challenge.state) =
    [.hidden, .hidden, .visible] := by decide

end Fctf.Authorship
