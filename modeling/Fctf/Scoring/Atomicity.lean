import Fctf.Lib.Transaction
import Fctf.Scoring.AttemptRows

/-!
The administrator's operations on submissions and `BaseChallenge.solve`, call by call: every
query and every statement may come back with an error. Each of them is one transaction that is
rolled back with every exception. A creation and a change read from the database again after
the commit.
-/

namespace Fctf

open Transaction Transaction.Program

/-- What the operations raise or answer with before they commit. -/
inductive ScoringFailure
  /-- `first_or_404`. -/
  | notFound
  | validation (field message : String)
  /-- A value or a configuration that the validators refuse. -/
  | invalidScoring
  /-- Status 409. -/
  | conflict (field message : String)
  /-- `solve` answers `False`. -/
  | alreadySolved
  deriving DecidableEq, Repr

abbrev ScoringProgram := Program Db ScoringFailure

namespace ScoringProgram

/-- `lock_challenge`; the row of a dynamic challenge is read once more with its own. -/
def lockChallenge (challengeId : Nat) : ScoringProgram Challenge := do
  let db ← query
  let challenge ← getOr .notFound (db.challenge challengeId)
  if challenge.type = .dynamic then
    let db ← query
    getOr .notFound (db.lockChallenge challengeId)
  else pure challenge

def validateSolveAccount (mode : AccountMode) (userId teamId : Option Nat) :
    ScoringProgram (Option Nat) := do
  let db ← query
  let user ← getOr (.validation "user_id" "User does not exist") (userId.bind db.user)
  let teamId := if mode = .teams ∧ teamId = none then user.team_id else teamId
  if mode = .teams ∧ teamId = none then
    raise (.validation "team_id" "A team is required in team mode")
  else if teamId.isSome then
    let db ← query
    if teamId.bind db.team = none ∨ user.team_id ≠ teamId then
      raise (.validation "team_id" "Team must match the submitting user")
    else pure teamId
  else pure teamId

/-- `if existing_solve(..)`. -/
def refuseSolved (challengeId : Nat) (userId teamId : Option Nat) (failure : ScoringFailure) :
    ScoringProgram Unit := do
  let db ← query
  if db.existingSolve challengeId userId teamId then raise failure else pure ()

/-- The two rows of a `Solves` object; the second takes the id of the first. -/
def insertCorrect (challengeId : Nat) (userId teamId : Option Nat) : ScoringProgram Unit :=
  call (fun db => db.insertSubmission challengeId userId teamId .correct) fun saved =>
    update fun db => db.insertSolve ⟨saved.nextId - 1, challengeId, userId, teamId⟩

/-- `recalculate`: of a dynamic challenge the solves are counted and the value is updated. -/
def recalculate (mode : AccountMode) (challenge : Challenge) : ScoringProgram Unit := do
  if challenge.type = .dynamic then
    let db ← query
    let _ ← getOr .invalidScoring (db.recalculate mode challenge.id)
    update fun db => db.recalculate mode challenge.id
  else
    let _ ← getOr .invalidScoring (scoreInteger 0 challenge.value)
    pure ()

def alreadySolved : ScoringFailure := .conflict "type" "Account already solved this challenge"

/-- `SubmissionsList.post`. -/
def post (mode : AccountMode) (type : Option SubmissionType) (challengeId : Nat)
    (userId teamId : Option Nat) : ScoringProgram Unit := do
  let type ← getOr (.validation "type" "Unknown submission type") type
  let challenge ← lockChallenge challengeId
  let teamId ← validateSolveAccount mode userId teamId
  if type = .correct then
    refuseSolved challengeId userId teamId alreadySolved
    insertCorrect challengeId userId teamId
    recalculate mode challenge
  else update fun db => db.insertSubmission challengeId userId teamId type

/-- The statement of `patch` on `solves`, and the team that it records. -/
def patchSolve (mode : AccountMode) (submission : Submission) (correct : Bool) :
    ScoringProgram (Option Nat) := do
  if correct ∧ submission.type ≠ .correct then
    let teamId ← validateSolveAccount mode submission.user_id submission.team_id
    refuseSolved submission.challenge_id submission.user_id teamId alreadySolved
    update fun db =>
      db.insertSolve ⟨submission.id, submission.challenge_id, submission.user_id, teamId⟩
    pure teamId
  else if ¬correct ∧ submission.type = .correct then
    update fun db => some (db.deleteSolves fun s => s.id == submission.id)
    pure submission.team_id
  else pure submission.team_id

/-- `Submission.patch`. -/
def patch (mode : AccountMode) (submissionId : Nat) (correct : Option Bool) :
    ScoringProgram Unit := do
  let db ← query
  let submission ← getOr .notFound (db.submission submissionId)
  let correct ← getOr (.validation "type" "Must be correct or incorrect") correct
  let challenge ← lockChallenge submission.challenge_id
  -- reloaded under the lock
  let db ← query
  let submission ← getOr .notFound (db.submission submissionId)
  let teamId ← patchSolve mode submission correct
  update fun db =>
    some (db.setSubmission submission.id (if correct then .correct else .incorrect) teamId)
  let _ ← query
  if (submission.type = .correct) ≠ (correct = true) then recalculate mode challenge
  else pure ()

/-- `Submission.delete`. The challenge's name is read for the audit log. -/
def delete (mode : AccountMode) (submissionId : Nat) : ScoringProgram Unit := do
  let db ← query
  let submission ← getOr .notFound (db.submission submissionId)
  let _ ← query
  let challenge ← lockChallenge submission.challenge_id
  let db ← query
  let submission ← getOr .notFound (db.submission submissionId)
  update fun db => some (db.deleteSubmissions fun s => s.id == submission.id)
  if submission.type = .correct then recalculate mode challenge else pure ()

/-- `BaseChallenge.solve` for a user that the session has loaded. -/
def solve (mode : AccountMode) (userId challengeId : Nat) : ScoringProgram Unit := do
  let db ← query
  let user ← getOr .notFound (db.user userId)
  let challenge ← lockChallenge challengeId
  if challenge.type ≠ .dynamic ∧ scoreInteger 0 challenge.value = none then raise .invalidScoring
  else
    let teamId ← validateSolveAccount mode (some userId) user.team_id
    refuseSolved challengeId (some userId) teamId .alreadySolved
    insertCorrect challengeId (some userId) teamId
    recalculate mode challenge

end ScoringProgram

/-- A request of an administrator, or a correct flag. A type that is not known is `none`. -/
inductive ScoringRequest
  | post (type : Option SubmissionType) (challengeId : Nat) (userId teamId : Option Nat)
  | patch (submissionId : Nat) (correct : Option Bool)
  | delete (submissionId : Nat)
  | solve (userId challengeId : Nat)
  deriving DecidableEq, Repr

namespace ScoringRequest

/-- The queries for a response that is read after the commit: the row, its challenge, its user and
its team, if it has them, and the challenge's name once more. -/
def responseQueries (row : Option Submission) : Nat :=
  3 + (row.bind (·.user_id)).toList.length + (row.bind (·.team_id)).toList.length

/-- `post` and `patch` answer with the row. The audit log keeps its errors for itself. -/
def method (mode : AccountMode) : ScoringRequest → Method Db ScoringFailure Unit
  | .post type challengeId userId teamId =>
    ⟨ScoringProgram.post mode type challengeId userId teamId,
      fun db => responseQueries (db.submission (db.nextId - 1))⟩
  | .patch submissionId correct =>
    ⟨ScoringProgram.patch mode submissionId correct,
      fun db => responseQueries (db.submission submissionId)⟩
  | .delete submissionId => ⟨ScoringProgram.delete mode submissionId, fun _ => 0⟩
  | .solve userId challengeId => ⟨ScoringProgram.solve mode userId challengeId, fun _ => 0⟩

/-- The operation that the request stands for. -/
def op : ScoringRequest → Option ScoringOp
  | .post type challengeId userId teamId =>
    type.map fun type => .createSubmission type challengeId userId teamId
  | .patch submissionId correct => correct.map (.retypeSubmission submissionId)
  | .delete submissionId => some (.deleteSubmission submissionId)
  | .solve userId challengeId => some (.solve userId challengeId)

/-- What the operation makes of the database. -/
def result (mode : AccountMode) (request : ScoringRequest) (db : Db) : Option Db :=
  request.op.bind fun op => op.commit mode db

end ScoringRequest

/-- The submissions, the solves and the stored values are the same. -/
structure SameScores (db db' : Db) : Prop where
  submissions : db'.submissions = db.submissions
  solves : db'.solves = db.solves
  values : db'.challenges.map (fun c => (c.id, c.value)) =
    db.challenges.map fun c => (c.id, c.value)

instance decidableSameScores (db db' : Db) : Decidable (SameScores db db') :=
  decidable_of_iff (db'.submissions = db.submissions ∧ db'.solves = db.solves ∧
      db'.challenges.map (fun c => (c.id, c.value)) = db.challenges.map fun c => (c.id, c.value))
    ⟨fun ⟨h, h', h''⟩ => ⟨h, h', h''⟩, fun h => ⟨h.submissions, h.solves, h.values⟩⟩

namespace ScoringRequest

/-- A request that succeeds has made its whole change, and one that does not has made none. -/
def Atomic (mode : AccountMode) (request : ScoringRequest) (db : Db) (answers : Nat → Answer) :
    Prop :=
  match (request.method mode).perform answers db with
  | (.ok (), after) => request.result mode db = some after
  | (.error _, after) => SameScores db after

/-- A submission is given the type that it has. -/
def KeepsType (request : ScoringRequest) (db : Db) : Prop :=
  match request with
  | .patch submissionId correct => ∃ sub ∈ db.submission submissionId,
      correct = some true ∧ sub.type = .correct ∨ correct = some false ∧ sub.type = .incorrect
  | _ => False

/-- The request passes its checks and has something to change. -/
def Changes (mode : AccountMode) (request : ScoringRequest) (db : Db) : Prop :=
  (request.result mode db).isSome ∧ ¬ request.KeepsType db

end ScoringRequest

/-! ### What the programs do when they are not disturbed -/

namespace ScoringProgram

variable {mode : AccountMode} {db : Db}

theorem exec_lockChallenge (challengeId : Nat) :
    (lockChallenge challengeId).exec db = (db.lockChallenge challengeId).map (·, db) := by
  unfold lockChallenge
  cases hchallenge : db.challenge challengeId with
  | none => simp [Db.lockChallenge, hchallenge]
  | some challenge =>
    by_cases hdynamic : challenge.type = .dynamic
    · simp [hchallenge, hdynamic]
    · simp [Db.lockChallenge, hchallenge, hdynamic, Option.filter]

theorem exec_validateSolveAccount (userId teamId : Option Nat) :
    (validateSolveAccount mode userId teamId).exec db =
      (db.validateSolveAccount mode userId teamId).map (·, db) := by
  unfold validateSolveAccount Db.validateSolveAccount
  cases huser : userId.bind db.user with
  | none =>
    simp only [exec_bind, exec_query, exec_getOr, huser, Option.bind_some, Option.map_none,
      Option.bind_none, Option.bind_eq_bind]
  | some user =>
    simp only [exec_bind, exec_query, exec_getOr, huser, Option.bind_some, Option.map_some,
      Option.bind_eq_bind]
    generalize (if mode = .teams ∧ teamId = none then user.team_id else teamId) = recorded
    by_cases hnone : mode = .teams ∧ recorded = none
    · simp only [if_pos hnone, exec_raise, Option.map_none]
    · simp only [if_neg hnone]
      by_cases hsome : recorded.isSome = true
      · rw [if_pos hsome]
        simp only [exec_bind, exec_query, Option.bind_some]
        by_cases hother : recorded.bind db.team = none ∨ user.team_id ≠ recorded
        · rw [if_pos hother, if_pos ⟨hsome, hother⟩]
          rfl
        · rw [if_neg hother, if_neg fun h => hother h.2]
          rfl
      · have hunset : ¬ (recorded.isSome = true ∧
            (recorded.bind db.team = none ∨ user.team_id ≠ recorded)) := fun h => hsome h.1
        simp only [if_neg hsome, if_neg hunset, exec_pure, Option.map_some]

theorem exec_refuseSolved (challengeId : Nat) (userId teamId : Option Nat)
    (failure : ScoringFailure) :
    (refuseSolved challengeId userId teamId failure).exec db =
      if db.existingSolve challengeId userId teamId then none else some ((), db) := by
  unfold refuseSolved
  simp only [exec_bind, exec_query, Option.bind_some]
  split <;> rfl

theorem exec_insertCorrect (challengeId : Nat) (userId teamId : Option Nat) :
    (insertCorrect challengeId userId teamId).exec db =
      (db.insertCorrect challengeId userId teamId).map ((), ·) := by
  unfold insertCorrect Db.insertCorrect
  change (db.insertSubmission challengeId userId teamId .correct).bind _ = _
  cases hsaved : db.insertSubmission challengeId userId teamId .correct with
  | none => rfl
  | some saved =>
    have hnext : saved.nextId - 1 = db.nextId := by
      rw [(Db.insertSubmission_eq_some hsaved).2.2.1]
      rfl
    simp [hnext]

/-- The challenge that was locked is the one that is recalculated. -/
theorem exec_recalculate {challenge : Challenge} (h : db.challenge challenge.id = some challenge) :
    (recalculate mode challenge).exec db = (db.recalculate mode challenge.id).map ((), ·) := by
  unfold recalculate
  by_cases hdynamic : challenge.type = .dynamic
  · rw [if_pos hdynamic]
    cases hvalue : db.recalculate mode challenge.id <;> simp [hvalue]
  · rw [if_neg hdynamic]
    unfold Db.recalculate
    simp only [h, Option.bind_eq_bind, Option.bind_some, if_neg hdynamic]
    cases scoreInteger 0 challenge.value <;> simp

/-- Between the lock and the recalculation only submissions and solves are written. -/
theorem exec_recalculate_locked {challengeId : Nat} {challenge : Challenge} {written : Db}
    (hlock : db.lockChallenge challengeId = some challenge) (hframe : Db.Frame db written) :
    (recalculate mode challenge).exec written =
      (written.recalculate mode challengeId).map ((), ·) := by
  have hchallenge : db.challenge challengeId = some challenge :=
    (Option.filter_eq_some_iff.mp hlock).1
  obtain rfl : challenge.id = challengeId := (Db.challenge_eq_some.mp hchallenge).2
  apply exec_recalculate
  rw [Db.challenge, hframe.challenges]
  exact hchallenge

/-- The end of the operations that insert a solve. -/
theorem exec_insert_and_recalculate {challengeId : Nat} {challenge : Challenge}
    (hlock : db.lockChallenge challengeId = some challenge) (userId teamId : Option Nat) :
    ((insertCorrect challengeId userId teamId).exec db).bind
        (fun (_, written) => (recalculate mode challenge).exec written) =
      ((Plan.solve challengeId userId teamId (.management challengeId)).apply db).bind
        fun (written, recalculation) => (recalculation.run mode written).map ((), ·) := by
  rw [exec_insertCorrect]
  unfold Plan.apply
  dsimp only
  cases hinsert : db.insertCorrect challengeId userId teamId with
  | none => rfl
  | some written => exact exec_recalculate_locked hlock (Db.insertCorrect_eq_some hinsert).1

theorem exec_post (type : Option SubmissionType) (challengeId : Nat) (userId teamId : Option Nat) :
    (post mode type challengeId userId teamId).exec db =
      ((ScoringRequest.post type challengeId userId teamId).result mode db).map ((), ·) := by
  cases type with
  | none => rfl
  | some type =>
    unfold post ScoringRequest.result ScoringRequest.op ScoringOp.commit ScoringOp.write
      ScoringOp.plan ScoringOp.createSubmission.plan
    simp only [exec_bind, exec_getOr, exec_lockChallenge, Option.map_some, Option.bind_some,
      Option.bind_eq_bind]
    cases hlock : db.lockChallenge challengeId with
    | none => rfl
    | some challenge =>
      simp only [Option.map_some, Option.bind_some, exec_validateSolveAccount]
      cases db.validateSolveAccount mode userId teamId with
      | none => rfl
      | some teamId =>
        simp only [Option.map_some, Option.bind_some]
        by_cases hcorrect : type = .correct
        · simp only [if_pos hcorrect, exec_bind, exec_refuseSolved]
          by_cases hexisting : db.existingSolve challengeId userId teamId = true
          · simp only [if_pos hexisting, Option.bind_none, Option.map_none]
          · simp only [if_neg hexisting, Option.bind_some, Option.map_bind]
            exact exec_insert_and_recalculate hlock userId teamId
        · simp only [if_neg hcorrect, exec_update, Option.bind_some, Plan.apply]
          cases db.insertSubmission challengeId userId teamId type <;> rfl

theorem exec_solve (userId challengeId : Nat) :
    (solve mode userId challengeId).exec db =
      ((ScoringRequest.solve userId challengeId).result mode db).map ((), ·) := by
  unfold solve ScoringRequest.result ScoringRequest.op ScoringOp.commit ScoringOp.write
    ScoringOp.plan ScoringOp.solve.plan
  simp only [exec_bind, exec_query, exec_getOr, Option.bind_some, Option.bind_eq_bind]
  cases db.user userId with
  | none => rfl
  | some user =>
    simp only [Option.map_some, Option.bind_some, exec_lockChallenge]
    cases hlock : db.lockChallenge challengeId with
    | none => rfl
    | some challenge =>
      simp only [Option.map_some, Option.bind_some]
      by_cases hscore : challenge.type ≠ .dynamic ∧ scoreInteger 0 challenge.value = none
      · simp only [if_pos hscore, exec_raise, Option.bind_none, Option.map_none]
      · simp only [if_neg hscore, exec_bind, exec_validateSolveAccount]
        cases db.validateSolveAccount mode (some userId) user.team_id with
        | none => rfl
        | some teamId =>
          simp only [Option.map_some, Option.bind_some, exec_refuseSolved]
          by_cases hexisting : db.existingSolve challengeId (some userId) teamId = true
          · simp only [if_pos hexisting, Option.bind_none, Option.map_none]
          · simp only [if_neg hexisting, Option.bind_some, Option.map_bind]
            exact exec_insert_and_recalculate hlock (some userId) teamId

theorem exec_delete (submissionId : Nat) :
    (delete mode submissionId).exec db =
      ((ScoringRequest.delete submissionId).result mode db).map ((), ·) := by
  unfold delete ScoringRequest.result ScoringRequest.op ScoringOp.commit ScoringOp.write
    ScoringOp.plan ScoringOp.deleteSubmission.plan
  simp only [exec_bind, exec_query, exec_getOr, Option.bind_some, Option.bind_eq_bind]
  cases hsubmission : db.submission submissionId with
  | none => rfl
  | some submission =>
    simp only [Option.map_some, Option.bind_some, exec_lockChallenge]
    cases hlock : db.lockChallenge submission.challenge_id with
    | none => rfl
    | some challenge =>
      simp only [Option.map_some, Option.bind_some, hsubmission, exec_update, Plan.apply]
      by_cases hcorrect : submission.type = .correct
      · simp only [if_pos hcorrect]
        exact exec_recalculate_locked hlock ⟨rfl, rfl, rfl⟩
      · simp only [if_neg hcorrect, exec_pure, Recalculation.run, Option.map_some]

/-- `patch` leaves the type alone, sets it, or adds or takes the solve with it. -/
theorem exec_patch (submissionId : Nat) (correct : Option Bool) :
    (patch mode submissionId correct).exec db =
      ((ScoringRequest.patch submissionId correct).result mode db).map ((), ·) := by
  unfold patch ScoringRequest.result ScoringRequest.op
  simp only [exec_bind, exec_query, exec_getOr, Option.bind_some]
  cases hsubmission : db.submission submissionId with
  | none =>
    cases correct with
    | none => rfl
    | some correct =>
      simp [ScoringOp.commit, ScoringOp.write, ScoringOp.plan, ScoringOp.retypeSubmission.plan,
        hsubmission]
  | some submission =>
    cases correct with
    | none => rfl
    | some correct =>
      unfold ScoringOp.commit ScoringOp.write ScoringOp.plan ScoringOp.retypeSubmission.plan
      simp only [Option.map_some, Option.bind_some, exec_lockChallenge, hsubmission,
        Option.bind_eq_bind]
      cases hlock : db.lockChallenge submission.challenge_id with
      | none => rfl
      | some challenge =>
        simp only [Option.map_some, Option.bind_some, hsubmission]
        by_cases hwas : submission.type = .correct
        · cases correct with
          | true => simp [patchSolve, hwas, Plan.apply, Recalculation.run]
          | false =>
            simp only [patchSolve, hwas, exec_bind, exec_update, ne_eq, not_true_eq_false,
              Bool.false_eq_true, and_false, and_true, not_false_eq_true, if_true, if_false,
              Option.map_some, Option.bind_some, exec_pure, true_ne_false]
            exact exec_recalculate_locked hlock ⟨rfl, rfl, rfl⟩
        · cases correct with
          | true =>
            simp only [patchSolve, hwas, exec_bind, ne_eq, not_false_eq_true, and_self, if_true,
              if_false, exec_validateSolveAccount, false_ne_true]
            cases db.validateSolveAccount mode submission.user_id submission.team_id with
            | none => rfl
            | some teamId =>
              simp only [Option.map_some, Option.bind_some, exec_refuseSolved]
              by_cases hexisting : db.existingSolve submission.challenge_id submission.user_id
                  teamId = true
              · simp only [if_pos hexisting, Option.bind_none, Option.map_none]
              · simp only [if_neg hexisting, Option.bind_some, exec_update, Plan.apply]
                cases hinsert : db.insertSolve
                    ⟨submission.id, submission.challenge_id, submission.user_id, teamId⟩ with
                | none => rfl
                | some solved =>
                  obtain ⟨husers, hteams, hchallenges⟩ := (Db.insertSolve_eq_some hinsert).1
                  exact exec_recalculate_locked hlock ⟨husers, hteams, hchallenges⟩
          | false => simp [patchSolve, hwas, Plan.apply, Recalculation.run]

end ScoringProgram

namespace ScoringRequest

variable {mode : AccountMode} {db t : Db} {request : ScoringRequest} {answers : Nat → Answer}

theorem exec_body (request : ScoringRequest) :
    (request.method mode).body.exec db = (request.result mode db).map ((), ·) := by
  cases request with
  | post type challengeId userId teamId =>
    exact ScoringProgram.exec_post type challengeId userId teamId
  | patch submissionId correct => exact ScoringProgram.exec_patch submissionId correct
  | delete submissionId => exact ScoringProgram.exec_delete submissionId
  | solve userId challengeId => exact ScoringProgram.exec_solve userId challengeId

theorem exec_body_eq_some {reply : Unit} :
    (request.method mode).body.exec db = some (reply, t) ↔ request.result mode db = some t := by
  rw [exec_body]
  simp

/-! ### What a request changes -/

/-- Only a change to the type that is there leaves the submissions as they are. -/
theorem submissions_ne (h : request.result mode db = some t) (hnot : ¬ request.KeepsType db) :
    t.submissions ≠ db.submissions := by
  obtain ⟨op, hop, hcommit⟩ := Option.bind_eq_some_iff.mp h
  cases request with
  | post type challengeId userId teamId =>
    obtain ⟨type, -, rfl⟩ := Option.map_eq_some_iff.mp hop
    obtain ⟨row, hadds, -⟩ := ScoringOp.adds_createSubmission hcommit
    rw [hadds]
    exact List.cons_ne_self row db.submissions
  | solve userId challengeId =>
    obtain rfl := Option.some.inj hop
    obtain ⟨row, -, hadds, -⟩ := ScoringOp.adds_solve hcommit
    rw [hadds]
    exact List.cons_ne_self row db.submissions
  | delete submissionId =>
    obtain rfl := Option.some.inj hop
    obtain ⟨sub, hsub, hsubmissions⟩ := ScoringOp.submissions_deleteSubmission hcommit
    intro hsame
    have hmem := ScoringOp.submission_mem hsub
    rw [← hsame, hsubmissions] at hmem
    simpa using (List.mem_filter.mp hmem).2
  | patch submissionId correct =>
    obtain ⟨correct, rfl, rfl⟩ := Option.map_eq_some_iff.mp hop
    obtain ⟨-, sub, teamId, hsub, -, hsubmissions⟩ := ScoringOp.commit_retypeSubmission hcommit
    intro hsame
    -- the submission's own row would have to have the new type already
    have hmem : { sub with type := if correct then .correct else .incorrect, team_id := teamId } ∈
        db.submissions := by
      rw [← hsame, hsubmissions]
      apply List.mem_map.mpr
      exact ⟨sub, ScoringOp.submission_mem hsub, by simp⟩
    have hrow := List.inj_on_of_nodup_map db.submissions_pk hmem (ScoringOp.submission_mem hsub) rfl
    apply hnot
    refine ⟨sub, hsub, ?_⟩
    have htype := congrArg Submission.type hrow
    cases correct with
    | true => exact .inl ⟨rfl, htype.symm⟩
    | false => exact .inr ⟨rfl, htype.symm⟩

theorem setSubmission_same {sub : Submission} (hmem : sub ∈ db.submissions) :
    SameScores db (db.setSubmission sub.id sub.type sub.team_id) := by
  refine ⟨?_, rfl, rfl⟩
  have hself : ∀ row ∈ db.submissions,
      ({ row with
        type := if row.id = sub.id then sub.type else row.type
        team_id := if row.id = sub.id then sub.team_id else row.team_id } : Submission) = row := by
    intro row hrow
    by_cases hid : row.id = sub.id
    · obtain rfl := List.inj_on_of_nodup_map db.submissions_pk hrow hmem hid
      simp
    · simp [hid]
  exact (List.map_congr_left hself).trans (List.map_id db.submissions)

theorem same_of_keepsType (h : request.result mode db = some t) (hkeeps : request.KeepsType db) :
    SameScores db t := by
  cases request with
  | post | delete | solve => cases hkeeps
  | patch submissionId correct =>
    obtain ⟨sub, hsub, hsame⟩ := hkeeps
    have hsub : db.submission submissionId = some sub := hsub
    obtain ⟨op, hop, hcommit⟩ := Option.bind_eq_some_iff.mp h
    obtain ⟨correct, rfl, rfl⟩ := Option.map_eq_some_iff.mp hop
    obtain ⟨⟨written, r⟩, hwrite, hrun⟩ := Option.bind_eq_some_iff.mp hcommit
    obtain ⟨plan, hplan, happly⟩ := Option.bind_eq_some_iff.mp hwrite
    have hretype : plan = .retype sub sub.type := by
      simp only [ScoringOp.plan, ScoringOp.retypeSubmission.plan, hsub, Option.bind_eq_bind,
        Option.bind_some] at hplan
      obtain ⟨_, -, hplan⟩ := Option.bind_eq_some_iff.mp hplan
      rcases hsame with ⟨hcorrect, htype⟩ | ⟨hcorrect, htype⟩
      · obtain rfl : correct = true := Option.some.inj hcorrect
        simpa [htype, eq_comm] using hplan
      · obtain rfl : correct = false := Option.some.inj hcorrect
        simpa [htype, eq_comm] using hplan
    subst hretype
    cases happly
    obtain rfl := Option.some.inj hrun
    exact setSubmission_same (ScoringOp.submission_mem hsub)

/-! ### Atomicity -/

theorem SameScores.refl (db : Db) : SameScores db db := ⟨rfl, rfl, rfl⟩

/-- An error after the commit of a change is answered although the change is there. -/
theorem not_atomic_of_late (hchanges : request.Changes mode db)
    (hreaches : (request.method mode).Reaches answers db)
    (hlate : (request.method mode).LateError answers db) : ¬ request.Atomic mode db answers := by
  intro hatomic
  obtain ⟨t, ht⟩ := Option.isSome_iff_exists.mp hchanges.1
  have hexec : (request.method mode).body.exec db = some ((), t) := exec_body_eq_some.mpr ht
  unfold Atomic at hatomic
  rw [Method.perform_late hexec hreaches hlate] at hatomic
  exact submissions_ne ht hchanges.2 hatomic.submissions

/-- A team of one member with an incorrect submission. -/
def oneIncorrect : Db where
  users := [⟨1, some 1, false, false⟩]
  teams := [⟨1, some 1, false, false⟩]
  challenges := [⟨5, 9, .standard, some 100, none, false, some 0⟩]
  submissions := [⟨1, 5, some 1, some 1, .incorrect⟩]
  solves := []
  nextId := 2
  challenges_pk := by decide
  submissions_pk := by decide
  submissions_lt := by decide
  solves_keys := twoTeams.solves_keys
  solves_fk := by decide

/-- The call after the commit, which reads the row for the response, fails. -/
def failsAfterCommit (call : Nat) : Answer := if call = 10 then .error else .ok

end ScoringRequest

end Fctf
