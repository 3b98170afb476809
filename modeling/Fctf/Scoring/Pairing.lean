import Fctf.Scoring.Consistency

/-!
Solves and correct submissions belong together one to one: what the statements
of the writers do to the ids on either side, and that the transactions which
write both sides keep them paired.
-/

namespace Fctf

/-- The account that a solve counts for. -/
def Solf.account (mode : AccountMode) (s : Solf) : Option Nat :=
  match mode with
  | .users => s.user_id
  | .teams => s.team_id

namespace Db

/-- An account has at most one solve of a challenge, every solve has its correct
submission, and every correct submission has exactly one solve. -/
structure OneToOne (mode : AccountMode) (db : Db) : Prop where
  single : db.solves.Pairwise fun s t =>
    s.challenge_id = t.challenge_id → sameKey (s.account mode) (t.account mode) = false
  solved : ∀ s ∈ db.solves, ∃ sub ∈ db.submissions, sub.id = s.id ∧ sub.type = .correct
  correct : ∀ sub ∈ db.submissions, sub.type = .correct →
    db.solves.countP (fun s => s.id == sub.id) = 1

instance (mode : AccountMode) (db : Db) : Decidable (db.OneToOne mode) :=
  decidable_of_iff
    ((db.solves.Pairwise fun s t =>
        s.challenge_id = t.challenge_id → sameKey (s.account mode) (t.account mode) = false) ∧
      (∀ s ∈ db.solves, ∃ sub ∈ db.submissions, sub.id = s.id ∧ sub.type = .correct) ∧
      ∀ sub ∈ db.submissions, sub.type = .correct →
        db.solves.countP (fun s => s.id == sub.id) = 1)
    ⟨fun ⟨hsingle, hsolved, hcorrect⟩ => ⟨hsingle, hsolved, hcorrect⟩,
      fun ⟨hsingle, hsolved, hcorrect⟩ => ⟨hsingle, hsolved, hcorrect⟩⟩

def HasSolve (db : Db) (id : Nat) : Prop := ∃ s ∈ db.solves, s.id = id

def IsCorrect (db : Db) (id : Nat) : Prop :=
  ∃ sub ∈ db.submissions, sub.id = id ∧ sub.type = .correct

variable {db db' : Db} {mode : AccountMode}

theorem solves_pk (db : Db) : (db.solves.map Solf.id).Nodup := by
  rw [List.Nodup, List.pairwise_map]
  apply db.solves_keys.imp
  intro s t hclash heq
  simp [Solf.clashes, heq] at hclash

/-- The keys of `solves` leave one thing to say: the same ids are solved and correct. -/
theorem oneToOne_iff : db.OneToOne mode ↔ ∀ id, db.HasSolve id ↔ db.IsCorrect id := by
  constructor
  · intro h id
    constructor
    · rintro ⟨s, hs, rfl⟩
      exact h.solved s hs
    · rintro ⟨sub, hsub, rfl, htype⟩
      have hpos : 0 < db.solves.countP fun s => s.id == sub.id := by
        rw [h.correct sub hsub htype]
        exact Nat.one_pos
      obtain ⟨s, hs, hid⟩ := List.countP_pos_iff.mp hpos
      exact ⟨s, hs, by simpa using hid⟩
  · intro h
    constructor
    · apply db.solves_keys.imp
      intro s t hclash hchallenge
      simp only [Solf.clashes, hchallenge, BEq.rfl, Bool.true_and, Bool.or_eq_false_iff] at hclash
      cases mode with
      | users => exact hclash.2.1
      | teams => exact hclash.2.2
    · intro s hs
      exact (h s.id).mp ⟨s, hs, rfl⟩
    · intro sub hsub htype
      obtain ⟨s, hs, hid⟩ := (h sub.id).mpr ⟨sub, hsub, rfl, htype⟩
      have hle := List.nodup_iff_count_le_one.mp db.solves_pk sub.id
      rw [List.count, List.countP_map] at hle
      have hpos : 0 < db.solves.countP fun s => s.id == sub.id :=
        List.countP_pos_iff.mpr ⟨s, hs, by simpa using hid⟩
      exact Nat.le_antisymm hle hpos

/-! ### What the statements do to solved and correct ids -/

theorem insertSubmission_ids (id : Nat) {challengeId : Nat} {userId teamId : Option Nat}
    {type : SubmissionType} (h : db.insertSubmission challengeId userId teamId type = some db') :
    (db'.HasSolve id ↔ db.HasSolve id) ∧
      (db'.IsCorrect id ↔ db.IsCorrect id ∨ (id = db.nextId ∧ type = .correct)) := by
  obtain ⟨-, hsolves, -, hsubmissions⟩ := insertSubmission_eq_some h
  constructor
  · rw [HasSolve, HasSolve, hsolves]
  · simp only [IsCorrect, hsubmissions, List.exists_mem_cons_iff]
    rw [or_comm, eq_comm (a := db.nextId)]

theorem insertSolve_ids (id : Nat) {row : Solf} (h : db.insertSolve row = some db') :
    (db'.HasSolve id ↔ db.HasSolve id ∨ id = row.id) ∧ (db'.IsCorrect id ↔ db.IsCorrect id) := by
  obtain ⟨-, hsolves, hsubmissions, -⟩ := insertSolve_eq_some h
  constructor
  · simp only [HasSolve, hsolves, List.exists_mem_cons_iff]
    rw [or_comm, eq_comm (a := row.id)]
  · rw [IsCorrect, IsCorrect, hsubmissions]

theorem deleteSolves_ids (db : Db) (k id : Nat) :
    ((db.deleteSolves fun s => s.id == k).HasSolve id ↔ db.HasSolve id ∧ id ≠ k) := by
  constructor
  · rintro ⟨s, hs, rfl⟩
    obtain ⟨hmem, hne⟩ := List.mem_filter.mp hs
    exact ⟨⟨s, hmem, rfl⟩, by simpa using hne⟩
  · rintro ⟨⟨s, hs, rfl⟩, hne⟩
    exact ⟨s, List.mem_filter.mpr ⟨hs, by simpa using hne⟩, rfl⟩

theorem deleteSubmissions_ids (db : Db) (k id : Nat) :
    ((db.deleteSubmissions fun sub => sub.id == k).HasSolve id ↔ db.HasSolve id ∧ id ≠ k) ∧
      ((db.deleteSubmissions fun sub => sub.id == k).IsCorrect id ↔ db.IsCorrect id ∧ id ≠ k) := by
  constructor
  · constructor
    · rintro ⟨s, hs, rfl⟩
      obtain ⟨hmem, hkept⟩ := List.mem_filter.mp hs
      refine ⟨⟨s, hmem, rfl⟩, fun heq => ?_⟩
      obtain ⟨sub, hsub, hid, -⟩ := db.solves_fk s hmem
      simp only [Bool.not_eq_true', List.any_eq_false] at hkept
      exact hkept sub hsub (by simp [hid, heq])
    · rintro ⟨⟨s, hs, rfl⟩, hne⟩
      refine ⟨s, List.mem_filter.mpr ⟨hs, ?_⟩, rfl⟩
      simp only [Bool.not_eq_true', List.any_eq_false, Bool.and_eq_true, beq_iff_eq]
      rintro sub - ⟨hid, hk⟩
      exact hne (hid.symm.trans hk)
  · constructor
    · rintro ⟨sub, hsub, rfl, htype⟩
      obtain ⟨hmem, hne⟩ := List.mem_filter.mp hsub
      exact ⟨⟨sub, hmem, rfl, htype⟩, by simpa using hne⟩
    · rintro ⟨⟨sub, hsub, rfl, htype⟩, hne⟩
      exact ⟨sub, List.mem_filter.mpr ⟨hsub, by simpa using hne⟩, rfl, htype⟩

theorem setSubmission_ids (id : Nat) {k : Nat} {type : SubmissionType} {teamId : Option Nat} :
    (db.setSubmission k type teamId).IsCorrect id ↔
      (id ≠ k ∧ db.IsCorrect id) ∨
        (id = k ∧ type = .correct ∧ ∃ sub ∈ db.submissions, sub.id = k) := by
  constructor
  · rintro ⟨sub, hsub, rfl, htype⟩
    obtain ⟨old, hold, rfl⟩ := List.mem_map.mp hsub
    by_cases hk : old.id = k
    · right
      exact ⟨hk, by simpa [hk] using htype, old, hold, hk⟩
    · left
      exact ⟨hk, old, hold, rfl, by simpa [hk] using htype⟩
  · rintro (⟨hne, sub, hsub, rfl, htype⟩ | ⟨rfl, rfl, sub, hsub, rfl⟩)
    · exact ⟨_, List.mem_map_of_mem hsub, rfl, by simpa [hne] using htype⟩
    · exact ⟨_, List.mem_map_of_mem hsub, rfl, by simp⟩

theorem insertCorrect_ids (id : Nat) {challengeId : Nat} {userId teamId : Option Nat}
    (h : db.insertCorrect challengeId userId teamId = some db') :
    (db'.HasSolve id ↔ db.HasSolve id ∨ id = db.nextId) ∧
      (db'.IsCorrect id ↔ db.IsCorrect id ∨ id = db.nextId) := by
  obtain ⟨saved, hsaved, hsolved⟩ := Option.bind_eq_some_iff.mp h
  obtain ⟨hsolve, hcorrect⟩ := insertSubmission_ids id hsaved
  obtain ⟨hsolve', hcorrect'⟩ := insertSolve_ids id hsolved
  rw [hsolve', hcorrect', hsolve, hcorrect]
  simp

/-- The same submissions are solved and correct. -/
def Paired (db : Db) : Prop := ∀ id, db.HasSolve id ↔ db.IsCorrect id

theorem Paired.insertCorrect {challengeId : Nat} {userId teamId : Option Nat} (h : db.Paired)
    (hinsert : db.insertCorrect challengeId userId teamId = some db') : db'.Paired := by
  intro id
  obtain ⟨hsolve, hcorrect⟩ := insertCorrect_ids id hinsert
  rw [hsolve, hcorrect, h id]

/-- A submission is given the type that it has, or one that is not correct
another such type. -/
theorem Paired.setSubmission {sub : Submission} {type : SubmissionType} {teamId : Option Nat}
    (h : db.Paired) (hmem : sub ∈ db.submissions)
    (htype : type = .correct ↔ sub.type = .correct) :
    (db.setSubmission sub.id type teamId).Paired := by
  have hcorrect : db.IsCorrect sub.id ↔ type = .correct := by
    rw [htype]
    constructor
    · rintro ⟨sub', hmem', hid, htype'⟩
      obtain rfl := List.inj_on_of_nodup_map db.submissions_pk hmem' hmem hid
      exact htype'
    · exact fun htype' => ⟨sub, hmem, rfl, htype'⟩
  intro id
  rw [setSubmission_ids]
  change db.HasSolve id ↔ _
  rw [h id]
  by_cases hk : id = sub.id
  · subst hk
    rw [hcorrect]
    simp only [ne_eq, not_true_eq_false, false_and, false_or, true_and]
    exact (and_iff_left ⟨sub, hmem, rfl⟩).symm
  · simp [hk]

theorem mem_setSubmission {sub : Submission} {k : Nat} {type : SubmissionType}
    {teamId : Option Nat} (hmem : sub ∈ db.submissions) (hne : sub.id ≠ k) :
    sub ∈ (db.setSubmission k type teamId).submissions := by
  apply List.mem_map.mpr
  refine ⟨sub, hmem, ?_⟩
  simp [hne]

theorem mem_deleteSubmissions {sub : Submission} {k : Nat} (hmem : sub ∈ db.submissions)
    (hne : sub.id ≠ k) : sub ∈ (db.deleteSubmissions fun s => s.id == k).submissions := by
  apply List.mem_filter.mpr
  simp [hmem, hne]

end Db

namespace Plan

variable {mode : AccountMode} {db db' written t : Db} {r : Recalculation} {plan : Plan}

/-- What the checks have established for the statements: the submission is
stored as it was read, and neither becomes nor stops being correct on the side. -/
def Valid (db : Db) (plan : Plan) : Prop :=
  (∀ sub ∈ plan.submission, sub ∈ db.submissions) ∧
    match plan with
    | .submit type .. => type ≠ .correct
    | .retype sub type => type = .correct ↔ sub.type = .correct
    | _ => True

/-- Under the lock a plan stays valid as long as the submissions of its challenge do. -/
theorem Valid.mono (h : plan.Valid db)
    (hkept : ∀ sub ∈ db.submissions, sub.challenge_id = plan.challenge → sub ∈ db'.submissions) :
    plan.Valid db' := by
  refine ⟨fun sub hsub => hkept sub (h.1 sub hsub) ?_, h.2⟩
  cases plan with
  | solve | submit => cases hsub
  | toCorrect | toIncorrect | retype | delete =>
    obtain rfl := Option.mem_some_iff.mp hsub
    rfl

/-- The statements of a valid plan keep solves and correct submissions paired. -/
theorem paired_apply (hvalid : plan.Valid db) (h : db.Paired)
    (happly : plan.apply db = some (written, r)) : written.Paired := by
  cases plan with
  | solve =>
    obtain ⟨_, hinsert, happly⟩ := Option.map_eq_some_iff.mp happly
    cases happly
    exact h.insertCorrect hinsert
  | submit =>
    obtain ⟨_, hinsert, happly⟩ := Option.map_eq_some_iff.mp happly
    cases happly
    intro id
    obtain ⟨hsolve, hcorrect⟩ := Db.insertSubmission_ids id hinsert
    rw [hsolve, hcorrect, h id]
    simp [hvalid.2]
  | toCorrect sub =>
    obtain ⟨solved, hsolved, happly⟩ := Option.map_eq_some_iff.mp happly
    cases happly
    have hmem : sub ∈ db.submissions := hvalid.1 sub rfl
    intro id
    obtain ⟨hsolve, hcorrect⟩ := Db.insertSolve_ids id hsolved
    have hsubmissions := (Db.insertSolve_eq_some hsolved).2.2.1
    rw [Db.setSubmission_ids, hcorrect, hsubmissions]
    change solved.HasSolve id ↔ _
    rw [hsolve, h id]
    by_cases hk : id = sub.id
    · simp only [hk, or_true, true_iff, ne_eq, not_true_eq_false, false_and, false_or, true_and]
      exact ⟨sub, hmem, rfl⟩
    · simp [hk]
  | toIncorrect sub =>
    cases happly
    intro id
    rw [Db.setSubmission_ids]
    change (db.deleteSolves _).HasSolve id ↔ _
    rw [Db.deleteSolves_ids, h id]
    change _ ↔ (id ≠ sub.id ∧ db.IsCorrect id) ∨ _
    simp [and_comm]
  | retype sub =>
    cases happly
    exact h.setSubmission (hvalid.1 sub rfl) hvalid.2
  | delete sub =>
    cases happly
    intro id
    obtain ⟨hsolve, hcorrect⟩ := db.deleteSubmissions_ids sub.id id
    rw [hsolve, hcorrect, h id]

/-- The statements of a valid plan leave the submissions of other challenges alone. -/
theorem mem_apply (hvalid : plan.Valid db) (happly : plan.apply db = some (written, r))
    {other : Submission} (hmem : other ∈ db.submissions)
    (hother : other.challenge_id ≠ plan.challenge) : other ∈ written.submissions := by
  have hne : ∀ sub ∈ plan.submission, sub.challenge_id = plan.challenge → other.id ≠ sub.id := by
    intro sub hsub hchallenge hid
    have hsame : other = sub :=
      List.inj_on_of_nodup_map db.submissions_pk hmem (hvalid.1 sub hsub) hid
    exact hother (hsame ▸ hchallenge)
  cases plan with
  | solve =>
    obtain ⟨_, hinsert, happly⟩ := Option.map_eq_some_iff.mp happly
    cases happly
    rw [(Db.insertCorrect_eq_some hinsert).2.2.1]
    exact List.mem_cons_of_mem _ hmem
  | submit =>
    obtain ⟨_, hinsert, happly⟩ := Option.map_eq_some_iff.mp happly
    cases happly
    rw [(Db.insertSubmission_eq_some hinsert).2.2.2]
    exact List.mem_cons_of_mem _ hmem
  | toCorrect sub =>
    obtain ⟨_, hsolved, happly⟩ := Option.map_eq_some_iff.mp happly
    cases happly
    apply Db.mem_setSubmission _ (hne sub rfl rfl)
    rw [(Db.insertSolve_eq_some hsolved).2.2.1]
    exact hmem
  | toIncorrect sub | retype sub =>
    cases happly
    exact Db.mem_setSubmission hmem (hne sub rfl rfl)
  | delete sub =>
    cases happly
    exact Db.mem_deleteSubmissions hmem (hne sub rfl rfl)

end Plan

namespace ScoringOp

variable {mode : AccountMode} {db : Db} {plan : Plan}

theorem submission_mem {id : Nat} {sub : Submission} (h : db.submission id = some sub) :
    sub ∈ db.submissions :=
  List.mem_of_find?_eq_some h

theorem retypeSubmission_valid {submissionId : Nat} {correct : Bool}
    (h : retypeSubmission.plan mode db submissionId correct = some plan) : plan.Valid db := by
  simp only [retypeSubmission.plan, bind, Option.bind_eq_some_iff] at h
  obtain ⟨sub, hsub, challenge, -, h⟩ := h
  have hmem : ∀ sub' ∈ some sub, sub' ∈ db.submissions := by
    rintro _ ⟨⟩
    exact submission_mem hsub
  split at h
  · split at h
    · cases h
      exact ⟨hmem, by simp_all⟩
    · obtain ⟨teamId, -, h⟩ := Option.bind_eq_some_iff.mp h
      split at h
      · cases h
      · cases h
        exact ⟨hmem, trivial⟩
  · split at h
    · cases h
      exact ⟨hmem, trivial⟩
    · rename_i htype
      cases h
      exact ⟨hmem, by simp [htype]⟩

/-- What the checks end in is valid in the state that they have read. -/
theorem plan_valid {op : ScoringOp} (h : op.plan mode db = some plan) : plan.Valid db := by
  cases op with
  | attempt =>
    obtain ⟨_, _, rfl⟩ := attempt_plan h
    exact ⟨nofun, trivial⟩
  | solve =>
    obtain ⟨_, _, rfl⟩ := solve_plan h
    exact ⟨nofun, trivial⟩
  | createSubmission =>
    simp only [ScoringOp.plan, createSubmission.plan, bind, Option.bind_eq_some_iff] at h
    obtain ⟨challenge, -, teamId, -, h⟩ := h
    split at h
    · split at h
      · cases h
      · cases h
        exact ⟨nofun, trivial⟩
    · rename_i htype
      cases h
      exact ⟨nofun, htype⟩
  | retypeSubmission => exact retypeSubmission_valid h
  | deleteSubmission =>
    simp only [ScoringOp.plan, deleteSubmission.plan, bind, Option.bind_eq_some_iff] at h
    obtain ⟨sub, hsub, challenge, -, h⟩ := h
    cases h
    refine ⟨?_, trivial⟩
    rintro _ ⟨⟩
    exact submission_mem hsub
  | _ => cases h

end ScoringOp

/-- The statements and the recalculation of a transaction. -/
def Plan.commit (mode : AccountMode) (db : Db) (plan : Plan) : Option Db :=
  (plan.apply db).bind fun (written, recalculation) => recalculation.run mode written

/-- A recalculation sets the value of one challenge at most. -/
theorem Recalculation.run_eq {mode : AccountMode} {written t : Db} {r : Recalculation}
    (hrun : r.run mode written = some t) : t = written ∨ ∃ id v, t = written.setValue id v := by
  cases hr : r.target with
  | none =>
    cases r with
    | none => exact .inl (Option.some.inj hrun).symm
    | contestant | management => cases hr
  | some id =>
    obtain ⟨c, -, ⟨-, rfl⟩ | ⟨-, v, rfl, -⟩⟩ := run_cases written hr hrun
    · exact .inl rfl
    · exact .inr ⟨id, v, rfl⟩

/-- A recalculation touches neither submissions nor solves. -/
theorem Recalculation.run_rows {mode : AccountMode} {written t : Db} {r : Recalculation}
    (hrun : r.run mode written = some t) :
    t.submissions = written.submissions ∧ t.solves = written.solves := by
  obtain rfl | ⟨id, v, rfl⟩ := run_eq hrun
  · exact ⟨rfl, rfl⟩
  · exact ⟨rfl, rfl⟩

/-- The commit of a valid plan keeps solves and correct submissions paired. -/
theorem Plan.paired_commit {mode : AccountMode} {db t : Db} {plan : Plan} (hvalid : plan.Valid db)
    (h : db.Paired) (hcommit : plan.commit mode db = some t) : t.Paired := by
  obtain ⟨⟨written, r⟩, happly, hrun⟩ := Option.bind_eq_some_iff.mp hcommit
  obtain ⟨hsubmissions, hsolves⟩ := Recalculation.run_rows hrun
  have hwritten : written.Paired := paired_apply hvalid h happly
  intro id
  rw [Db.HasSolve, Db.IsCorrect, hsubmissions, hsolves]
  exact hwritten id

namespace Db

variable {db saved : Db} {challengeId : Nat} {userId teamId : Option Nat} {row : Solf}

theorem solve_id_lt {s : Solf} (hs : s ∈ db.solves) : s.id < db.nextId := by
  obtain ⟨sub, hsub, hid, -⟩ := db.solves_fk s hs
  rw [← hid]
  exact db.submissions_lt sub hsub

/-- A correct submission on its own breaks the pairing. -/
theorem not_paired_of_saved
    (h : db.insertSubmission challengeId userId teamId .correct = some saved) : ¬ saved.Paired := by
  intro hpaired
  obtain ⟨hsolve, hcorrect⟩ := insertSubmission_ids db.nextId h
  obtain ⟨s, hs, hid⟩ := hsolve.mp ((hpaired db.nextId).mpr (hcorrect.mpr (.inr ⟨rfl, rfl⟩)))
  exact absurd (solve_id_lt hs) (by omega)

/-- In a paired state a solve that can be inserted belongs to no correct submission. -/
theorem not_paired_of_solved {solved : Db} (h : db.Paired)
    (hsolved : db.insertSolve row = some solved) :
    ¬ solved.Paired := by
  intro hpaired
  obtain ⟨hsolve, hcorrect⟩ := insertSolve_ids row.id hsolved
  obtain ⟨s, hs, hid⟩ := (h row.id).mpr (hcorrect.mp ((hpaired row.id).mp (hsolve.mpr (.inr rfl))))
  obtain ⟨-, -, -, -, hkeys⟩ := insertSolve_eq_some hsolved
  have hclash := hkeys s hs
  simp [Solf.clashes, hid] at hclash

/-- The solve of a new submission clashes exactly with an earlier one of its account. -/
theorem insertSolve_saved
    (h : db.insertSubmission challengeId userId teamId .correct = some saved) :
    (saved.insertSolve ⟨db.nextId, challengeId, userId, teamId⟩).isSome ↔
      db.existingSolve challengeId userId teamId = false := by
  obtain ⟨-, hsolves, -, hsubmissions⟩ := insertSubmission_eq_some h
  have hclash : ∀ s ∈ db.solves,
      (Solf.clashes ⟨db.nextId, challengeId, userId, teamId⟩ s = false ↔
        (s.challenge_id == challengeId && (sameKey userId s.user_id || sameKey teamId s.team_id)) =
          false) := by
    intro s hs
    have hne : (db.nextId == s.id) = false := by
      have hlt := solve_id_lt hs
      simp only [beq_eq_false_iff_ne]
      omega
    rw [Solf.clashes, hne, Bool.false_or, BEq.comm (a := challengeId)]
  have hexisting : db.existingSolve challengeId userId teamId = false ↔
      ∀ s ∈ db.solves, Solf.clashes ⟨db.nextId, challengeId, userId, teamId⟩ s = false := by
    rw [existingSolve, List.any_eq_false]
    apply forall₂_congr
    intro s hs
    rw [hclash s hs, Bool.not_eq_true]
  rw [hexisting, insertSolve]
  split
  · rename_i hkeys
    rw [hsolves] at hkeys
    simpa using hkeys.2
  · rename_i hkeys
    simp only [Option.isSome_none, Bool.false_eq_true, false_iff]
    intro hall
    apply hkeys
    constructor
    · exact ⟨_, by rw [hsubmissions]; exact List.mem_cons_self, rfl, rfl⟩
    · rw [hsolves]
      exact hall

end Db

end Fctf
