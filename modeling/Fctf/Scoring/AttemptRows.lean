import Fctf.Scoring.Attempts
import Fctf.Scoring.Pairing

/-!
What the transactions of attempts and of the administrators' endpoints do to
the submissions, and how the replacement of one element changes a count.
-/

namespace Fctf

/-! ### What the writers leave as it was -/

/-- Accounts, challenges and their limits are the same, and ids go on from where they were. -/
structure Db.Grows (db db' : Db) : Prop where
  users : db'.users = db.users
  teams : db'.teams = db.teams
  limits : ∀ c, (db'.challenge c).map Challenge.max_attempts =
    (db.challenge c).map Challenge.max_attempts
  nextId : db.nextId ≤ db'.nextId

namespace Db

variable {db db' db'' : Db}

theorem Grows.refl (db : Db) : db.Grows db := ⟨rfl, rfl, fun _ => rfl, Nat.le_refl _⟩

theorem Grows.trans (h : db.Grows db') (h' : db'.Grows db'') : db.Grows db'' :=
  ⟨h'.users.trans h.users, h'.teams.trans h.teams, fun c => (h'.limits c).trans (h.limits c),
    Nat.le_trans h.nextId h'.nextId⟩

theorem Frame.grows (h : Frame db db') (hnext : db.nextId ≤ db'.nextId) : db.Grows db' := by
  refine ⟨h.users, h.teams, fun c => ?_, hnext⟩
  rw [Db.challenge, Db.challenge, h.challenges]

theorem grows_setValue (db : Db) (id : Nat) (v : Int) : db.Grows (db.setValue id v) := by
  refine ⟨rfl, rfl, fun c => ?_, Nat.le_refl _⟩
  simp only [Db.challenge, setValue, updateChallenge, List.find?_map, Option.map_map]
  have hsame : ((fun c' : Challenge => c'.id == c) ∘ fun c' =>
      if c'.id = id then { c' with value := some v } else c') = fun c' => c'.id == c := by
    funext c'
    simp only [Function.comp_apply]
    split <;> rfl
  rw [hsame]
  cases db.challenges.find? _ with
  | none => rfl
  | some c' =>
    simp only [Option.map_some, Function.comp_apply]
    split <;> rfl

theorem Grows.maxAttempts (h : db.Grows db') (c : Nat) : db'.maxAttempts c = db.maxAttempts c := by
  have hlimit := h.limits c
  simp only [Db.maxAttempts]
  cases hc : db.challenge c <;> cases hc' : db'.challenge c <;> simp_all

theorem Grows.challenge_isSome (h : db.Grows db') (c : Nat) :
    (db'.challenge c).isSome = (db.challenge c).isSome := by
  rw [← Option.isSome_map, h.limits c, Option.isSome_map]

end Db

/-! ### Counting submissions -/

namespace Submission

/-- A stored submission among the others, which have other ids. -/
theorem split_of_mem {l : List Submission} (hnodup : (l.map Submission.id).Nodup)
    {sub : Submission} (hmem : sub ∈ l) :
    ∃ before after, l = before ++ sub :: after ∧ (∀ x ∈ before, x.id ≠ sub.id) ∧
      ∀ x ∈ after, x.id ≠ sub.id := by
  obtain ⟨before, after, rfl⟩ := List.append_of_mem hmem
  simp only [List.map_append, List.map_cons, List.nodup_middle, List.nodup_cons,
    List.mem_append, List.mem_map, not_or, not_exists, not_and] at hnodup
  exact ⟨before, after, rfl, hnodup.1.1, hnodup.1.2⟩

/-- Setting one of the stored submissions changes a count by that submission. -/
theorem countP_map_update {l : List Submission} (hnodup : (l.map Submission.id).Nodup)
    {sub : Submission} (hmem : sub ∈ l) (f : Submission → Submission)
    (hf : ∀ x ∈ l, x.id ≠ sub.id → f x = x) (p : Submission → Bool) :
    (l.map f).countP p + (if p sub then 1 else 0) = l.countP p + if p (f sub) then 1 else 0 := by
  obtain ⟨before, after, rfl, hbefore, hafter⟩ := split_of_mem hnodup hmem
  have hsame : ∀ part, part ⊆ before ++ sub :: after → (∀ x ∈ part, x.id ≠ sub.id) →
      part.map f = part := by
    intro part hpart hother
    rw [List.map_congr_left, List.map_id]
    intro x hx
    exact hf x (hpart hx) (hother x hx)
  rw [List.map_append, List.map_cons, hsame before (by simp) hbefore,
    hsame after (fun x hx => by simp [hx]) hafter]
  simp only [List.countP_append, List.countP_cons]
  omega

/-- Taking one of the stored submissions away lowers a count by that submission. -/
theorem countP_filter_id {l : List Submission} (hnodup : (l.map Submission.id).Nodup)
    {sub : Submission} (hmem : sub ∈ l) (p : Submission → Bool) :
    l.countP p = (l.filter fun x => !(x.id == sub.id)).countP p + if p sub then 1 else 0 := by
  obtain ⟨before, after, rfl, hbefore, hafter⟩ := split_of_mem hnodup hmem
  have hsame : ∀ part : List Submission, (∀ x ∈ part, x.id ≠ sub.id) →
      part.filter (fun x => !(x.id == sub.id)) = part := by
    intro part hother
    apply List.filter_eq_self.mpr
    intro x hx
    simpa using hother x hx
  rw [List.filter_append, List.filter_cons_of_neg (by simp), hsame before hbefore,
    hsame after hafter]
  simp only [List.countP_append, List.countP_cons]
  omega

end Submission

/-- What a count loses and gains when an element is replaced. -/
theorem countP_replaceAt {α : Type} {l : List α} {i : Nat} {w : α} (hw : l[i]? = some w)
    (new : Option α) (p : α → Bool) :
    (replaceAt l i new).countP p + (if p w then 1 else 0) =
      l.countP p + if new.any p then 1 else 0 := by
  obtain ⟨hi, hget⟩ := List.getElem?_eq_some_iff.mp hw
  have hsplit : l = l.take i ++ w :: l.drop (i + 1) := by
    rw [← hget, ← List.drop_eq_getElem_cons hi, List.take_append_drop]
  have hnew : new.toList.countP p = if new.any p then 1 else 0 := by
    cases new <;> simp [List.countP_cons]
  have hold : l.countP p =
      (l.take i).countP p + ((l.drop (i + 1)).countP p + if p w then 1 else 0) := by
    conv_lhs => rw [hsplit]
    rw [List.countP_append, List.countP_cons]
  rw [replaceAt, List.countP_append, List.countP_append, hnew, hold]
  omega

theorem mem_replaceAt {α : Type} {l : List α} {i : Nat} {new : Option α} {x : α}
    (h : x ∈ replaceAt l i new) : x ∈ l ∨ x ∈ new := by
  rcases List.mem_append.mp h with h | h
  · rcases List.mem_append.mp h with h | h
    · exact .inl (List.mem_of_mem_take h)
    · exact .inr (Option.mem_toList.mp h)
  · exact .inl (List.mem_of_mem_drop h)

/-! ### What the transactions do to the submissions -/

theorem Recalculation.run_grows {mode : AccountMode} {written t : Db} {r : Recalculation}
    (hrun : r.run mode written = some t) : written.Grows t := by
  obtain rfl | ⟨id, v, rfl⟩ := run_eq hrun
  · exact Db.Grows.refl t
  · exact Db.grows_setValue written id v

namespace ScoringOp

variable {mode : AccountMode} {db t : Db}

/-- An operation on submissions checks, writes and recalculates. -/
theorem commit_plan {op : ScoringOp}
    (hop : op.write mode db = (op.plan mode db).bind fun plan => plan.apply db)
    (h : op.commit mode db = some t) :
    ∃ plan written r, op.plan mode db = some plan ∧ plan.apply db = some (written, r) ∧
      t.submissions = written.submissions ∧ written.Grows t := by
  obtain ⟨⟨written, r⟩, hwrite, hrun⟩ := Option.bind_eq_some_iff.mp h
  rw [hop] at hwrite
  obtain ⟨plan, hplan, happly⟩ := Option.bind_eq_some_iff.mp hwrite
  exact ⟨plan, written, r, hplan, happly, (Recalculation.run_rows hrun).1,
    Recalculation.run_grows hrun⟩

/-- A new submission has come in. -/
def Adds (db t : Db) (row : Submission) : Prop :=
  t.submissions = row :: db.submissions ∧ row.id = db.nextId ∧ db.Grows t ∧
    db.nextId < t.nextId

theorem adds_apply {plan : Plan} {written : Db} {r : Recalculation} {challengeId : Nat}
    {userId teamId : Option Nat} {recalculation : Recalculation}
    (hplan : plan = .solve challengeId userId teamId recalculation)
    (happly : plan.apply db = some (written, r)) :
    Adds db written ⟨db.nextId, challengeId, userId, teamId, .correct⟩ := by
  subst hplan
  obtain ⟨_, hinsert, happly⟩ := Option.map_eq_some_iff.mp happly
  cases happly
  obtain ⟨hframe, -, hsubmissions, hnext⟩ := Db.insertCorrect_eq_some hinsert
  exact ⟨hsubmissions, rfl, hframe.grows (by omega), by omega⟩

theorem Adds.grow {written : Db} {row : Submission} (h : Adds db written row)
    (hsubmissions : t.submissions = written.submissions) (hgrows : written.Grows t) :
    Adds db t row := by
  obtain ⟨hadds, hid, hgrown, hnext⟩ := h
  exact ⟨hsubmissions.trans hadds, hid, hgrown.trans hgrows, Nat.lt_of_lt_of_le hnext hgrows.nextId⟩

theorem adds_insertSubmission {challengeId : Nat} {userId teamId : Option Nat}
    {type : SubmissionType} (h : db.insertSubmission challengeId userId teamId type = some t) :
    Adds db t ⟨db.nextId, challengeId, userId, teamId, type⟩ := by
  obtain ⟨hframe, -, hnext, hsubmissions⟩ := Db.insertSubmission_eq_some h
  exact ⟨hsubmissions, rfl, hframe.grows (by omega), by omega⟩

theorem adds_attempt {userId challengeId : Nat}
    (h : (attempt userId challengeId).commit mode db = some t) :
    ∃ row, row.type = .correct ∧ Adds db t row := by
  obtain ⟨plan, written, r, hplan, happly, hsubmissions, hgrows⟩ := commit_plan rfl h
  obtain ⟨_, _, hshape⟩ := attempt_plan hplan
  exact ⟨_, rfl, (adds_apply hshape happly).grow hsubmissions hgrows⟩

theorem adds_solve {userId challengeId : Nat}
    (h : (solve userId challengeId).commit mode db = some t) :
    ∃ row, row.type = .correct ∧ Adds db t row := by
  obtain ⟨plan, written, r, hplan, happly, hsubmissions, hgrows⟩ := commit_plan rfl h
  obtain ⟨_, _, hshape⟩ := solve_plan hplan
  exact ⟨_, rfl, (adds_apply hshape happly).grow hsubmissions hgrows⟩

theorem adds_createSubmission {type : SubmissionType} {challengeId : Nat}
    {userId teamId : Option Nat}
    (h : (createSubmission type challengeId userId teamId).commit mode db = some t) :
    ∃ row, Adds db t row := by
  obtain ⟨plan, written, r, hplan, happly, hsubmissions, hgrows⟩ := commit_plan rfl h
  simp only [ScoringOp.plan, createSubmission.plan, bind, Option.bind_eq_some_iff] at hplan
  obtain ⟨challenge, -, teamId, -, hplan⟩ := hplan
  split at hplan
  · split at hplan
    · cases hplan
    · cases hplan
      exact ⟨_, (adds_apply rfl happly).grow hsubmissions hgrows⟩
  · cases hplan
    obtain ⟨_, hinsert, happly⟩ := Option.map_eq_some_iff.mp happly
    cases happly
    exact ⟨_, (adds_insertSubmission hinsert).grow hsubmissions hgrows⟩

/-- A retyped submission keeps its place; it becomes correct or incorrect as asked. -/
theorem retypeSubmission_apply {submissionId : Nat} {correct : Bool} {plan : Plan} {written : Db}
    {r : Recalculation} (hplan : retypeSubmission.plan mode db submissionId correct = some plan)
    (happly : plan.apply db = some (written, r)) :
    written.nextId = db.nextId ∧ ∃ sub teamId, db.submission submissionId = some sub ∧
      (correct = false → teamId = sub.team_id) ∧
      written.submissions = (db.setSubmission sub.id (if correct then .correct else .incorrect)
        teamId).submissions := by
  simp only [retypeSubmission.plan, bind, Option.bind_eq_some_iff] at hplan
  obtain ⟨sub, hsub, challenge, -, hplan⟩ := hplan
  cases correct with
  | false =>
    simp only [Bool.false_eq_true, if_false] at hplan
    split at hplan
    · cases hplan
      cases happly
      exact ⟨rfl, sub, sub.team_id, hsub, fun _ => rfl, rfl⟩
    · cases hplan
      cases happly
      exact ⟨rfl, sub, sub.team_id, hsub, fun _ => rfl, rfl⟩
  | true =>
    simp only [if_true] at hplan
    split at hplan
    · cases hplan
      cases happly
      exact ⟨rfl, sub, sub.team_id, hsub, fun h => Bool.noConfusion h, rfl⟩
    · obtain ⟨teamId, -, hplan⟩ := Option.bind_eq_some_iff.mp hplan
      split at hplan
      · cases hplan
      cases hplan
      obtain ⟨solved, hsolved, happly⟩ := Option.map_eq_some_iff.mp happly
      cases happly
      obtain ⟨-, -, hsubmissions, hnext, -⟩ := Db.insertSolve_eq_some hsolved
      refine ⟨hnext, sub, teamId, hsub, fun h => Bool.noConfusion h, ?_⟩
      simp only [Db.setSubmission, hsubmissions, if_true]

theorem commit_retypeSubmission {submissionId : Nat} {correct : Bool}
    (h : (retypeSubmission submissionId correct).commit mode db = some t) :
    db.Grows t ∧ ∃ sub teamId, db.submission submissionId = some sub ∧
      (correct = false → teamId = sub.team_id) ∧
      t.submissions = (db.setSubmission sub.id (if correct then .correct else .incorrect)
        teamId).submissions := by
  obtain ⟨plan, written, r, hplan, happly, hsubmissions, hgrows⟩ := commit_plan rfl h
  obtain ⟨hnext, hretyped⟩ := retypeSubmission_apply hplan happly
  rw [hsubmissions]
  exact ⟨((Plan.apply_frame happly).grows hnext.ge).trans hgrows, hretyped⟩

/-- The submission that a deletion finds, and the others that it leaves. -/
theorem submissions_deleteSubmission {submissionId : Nat}
    (h : (deleteSubmission submissionId).commit mode db = some t) :
    ∃ sub, db.submission submissionId = some sub ∧
      t.submissions = db.submissions.filter fun x => !(x.id == sub.id) := by
  obtain ⟨plan, written, r, hplan, happly, hsubmissions, -⟩ := commit_plan rfl h
  simp only [ScoringOp.plan, deleteSubmission.plan, bind, Option.bind_eq_some_iff] at hplan
  obtain ⟨sub, hsub, challenge, -, hplan⟩ := hplan
  cases hplan
  cases happly
  exact ⟨sub, hsub, hsubmissions⟩

theorem commit_deleteSubmission {submissionId : Nat}
    (h : (deleteSubmission submissionId).commit mode db = some t) :
    db.Grows t ∧ t.submissions.Sublist db.submissions := by
  obtain ⟨plan, written, r, hplan, happly, hsubmissions, hgrows⟩ := commit_plan rfl h
  simp only [ScoringOp.plan, deleteSubmission.plan, bind, Option.bind_eq_some_iff] at hplan
  obtain ⟨sub, -, challenge, -, hplan⟩ := hplan
  cases hplan
  rw [hsubmissions]
  have hframe := Plan.apply_frame happly
  cases happly
  exact ⟨(hframe.grows (Nat.le_refl _)).trans hgrows, List.filter_sublist⟩

end ScoringOp

end Fctf
