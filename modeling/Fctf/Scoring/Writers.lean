import Fctf.Scoring.Dynamic

/-!
The operations that change solves, accounts or scoring configurations, each as
one committed transaction: what its statements write, and which challenge it
recalculates before it commits. An operation that answers with an error, or
that finds nothing to do, writes nothing and is `none`. The operations on
submissions lock their challenge, check, and only then write: their checks end
in a `Plan`, which is applied to the state that the writes meet.
-/

namespace Fctf

/-- What a transaction recalculates at its end, and which side does it. -/
inductive Recalculation
  | none
  | contestant (challengeId : Nat)
  | management (challengeId : Nat)
  deriving Repr, DecidableEq

namespace Db

/-- `RecalculateDynamicChallengeValue`. -/
def recalculateDynamicChallengeValue (mode : AccountMode) (db : Db) (challengeId : Nat) :
    Option Db := do
  let challenge ← db.challenge challengeId
  if challenge.type ≠ .dynamic then
    if challenge.value.any (· < 0) then none else some db
  else
    let config ← challenge.dynamic
    let newValue ← calculateValue config (db.solveCount mode challengeId)
    some (db.setValue challengeId newValue)

/-- `recalculate` of `scoring.py`. -/
def recalculate (mode : AccountMode) (db : Db) (challengeId : Nat) : Option Db := do
  let challenge ← db.challenge challengeId
  if challenge.type = .dynamic then
    let config ← challenge.dynamic
    let value ← dynamicValue config (db.solveCount mode challengeId)
    some (db.setValue challengeId value)
  else
    let _ ← scoreInteger 0 challenge.value
    some db

/-- `lock_challenge`: a dynamic challenge without its own row is not found. -/
def lockChallenge (db : Db) (challengeId : Nat) : Option Challenge :=
  (db.challenge challengeId).filter fun c => c.type ≠ .dynamic ∨ c.dynamic.isSome

/-- `validate_solve_account`: the team that the submission is recorded for. -/
def validateSolveAccount (mode : AccountMode) (db : Db) (userId teamId : Option Nat) :
    Option (Option Nat) := do
  let user ← userId.bind db.user
  let teamId := if mode = .teams ∧ teamId = none then user.team_id else teamId
  if mode = .teams ∧ teamId = none then none
  else if teamId.isSome ∧ (teamId.bind db.team = none ∨ user.team_id ≠ teamId) then none
  else some teamId

/-- The team's captain, else its first member. -/
def captainOrMember (db : Db) (teamId : Nat) : Option Nat :=
  ((db.team teamId).bind Team.captain_id).or
    ((db.users.filter fun u => u.team_id = some teamId).map User.id).min?

end Db

/-- The operations, with what the request or the administrator chooses. -/
inductive ScoringOp
  /-- `Attempt` of the contestant backend, with a correct flag. -/
  | attempt (userId challengeId : Nat)
  /-- `BaseChallenge.solve`. -/
  | solve (userId challengeId : Nat)
  /-- `POST`, `PATCH` and `DELETE` on submissions. -/
  | createSubmission (type : SubmissionType) (challengeId : Nat) (userId teamId : Option Nat)
  | retypeSubmission (submissionId : Nat) (correct : Bool)
  | deleteSubmission (submissionId : Nat)
  /-- `LockScoreAsync`, when KYPO reports all phases as completed. -/
  | lockScore (challengeId teamId : Nat)
  | patchUser (userId : Nat) (hidden banned : Option Bool)
  | deleteUser (userId : Nat)
  | patchTeam (teamId : Nat) (hidden banned : Option Bool)
  | deleteTeam (teamId : Nat)
  | removeMember (teamId userId : Nat)
  /-- `PATCH` on a challenge; `scoringType` is the field `scoring-type-radio`. -/
  | patchChallenge (challengeId : Nat) (scoringType : Option ChallengeType) (data : ScoringData)

/-- What an operation on submissions is about to write once its checks have passed. -/
inductive Plan
  /-- A correct submission and its solve. -/
  | solve (challengeId : Nat) (userId teamId : Option Nat) (recalculation : Recalculation)
  /-- A submission of another type. -/
  | submit (type : SubmissionType) (challengeId : Nat) (userId teamId : Option Nat)
  /-- `PATCH`: the submission becomes correct, stops being correct, or neither. -/
  | toCorrect (submission : Submission) (teamId : Option Nat)
  | toIncorrect (submission : Submission)
  | retype (submission : Submission) (type : SubmissionType)
  | delete (submission : Submission)
  deriving Repr, DecidableEq

namespace Plan

/-- The statements of a plan, and what the transaction recalculates after them. -/
def apply (db : Db) : Plan → Option (Db × Recalculation)
  | .solve challengeId userId teamId recalculation =>
    (db.insertCorrect challengeId userId teamId).map (·, recalculation)
  | .submit type challengeId userId teamId =>
    (db.insertSubmission challengeId userId teamId type).map (·, .none)
  | .toCorrect sub teamId =>
    (db.insertSolve ⟨sub.id, sub.challenge_id, sub.user_id, teamId⟩).map fun db =>
      (db.setSubmission sub.id .correct teamId, .management sub.challenge_id)
  | .toIncorrect sub =>
    some ((db.deleteSolves fun s => s.id == sub.id).setSubmission sub.id .incorrect sub.team_id,
      .management sub.challenge_id)
  | .retype sub type => some (db.setSubmission sub.id type sub.team_id, .none)
  | .delete sub =>
    some (db.deleteSubmissions fun s => s.id == sub.id,
      if sub.type = .correct then .management sub.challenge_id else .none)

end Plan

namespace ScoringOp

def attempt.plan (db : Db) (userId challengeId : Nat) : Option Plan := do
  let user ← db.user userId
  let team ← user.team_id.bind db.team
  let _ ← db.challenge challengeId
  if db.existingSolve challengeId (some userId) (some team.id) then none
  else some (.solve challengeId (some userId) (some team.id) (.contestant challengeId))

def solve.plan (mode : AccountMode) (db : Db) (userId challengeId : Nat) : Option Plan := do
  let user ← db.user userId
  let challenge ← db.lockChallenge challengeId
  if challenge.type ≠ .dynamic ∧ scoreInteger 0 challenge.value = none then none
  else
    let teamId ← db.validateSolveAccount mode (some userId) user.team_id
    if db.existingSolve challengeId (some userId) teamId then none
    else some (.solve challengeId (some userId) teamId (.management challengeId))

def createSubmission.plan (mode : AccountMode) (db : Db) (type : SubmissionType)
    (challengeId : Nat) (userId teamId : Option Nat) : Option Plan := do
  let _ ← db.lockChallenge challengeId
  let teamId ← db.validateSolveAccount mode userId teamId
  if type = .correct then
    if db.existingSolve challengeId userId teamId then none
    else some (.solve challengeId userId teamId (.management challengeId))
  else some (.submit type challengeId userId teamId)

def retypeSubmission.plan (mode : AccountMode) (db : Db) (submissionId : Nat) (correct : Bool) :
    Option Plan := do
  let submission ← db.submission submissionId
  let _ ← db.lockChallenge submission.challenge_id
  if correct then
    if submission.type = .correct then some (.retype submission .correct)
    else
      let teamId ← db.validateSolveAccount mode submission.user_id submission.team_id
      if db.existingSolve submission.challenge_id submission.user_id teamId then none
      else some (.toCorrect submission teamId)
  else if submission.type = .correct then some (.toIncorrect submission)
  else some (.retype submission .incorrect)

def deleteSubmission.plan (db : Db) (submissionId : Nat) : Option Plan := do
  let submission ← db.submission submissionId
  let _ ← db.lockChallenge submission.challenge_id
  some (.delete submission)

/-- The checks of an operation on submissions. -/
def plan (mode : AccountMode) (db : Db) : ScoringOp → Option Plan
  | .attempt userId challengeId => attempt.plan db userId challengeId
  | .solve userId challengeId => solve.plan mode db userId challengeId
  | .createSubmission type challengeId userId teamId =>
    createSubmission.plan mode db type challengeId userId teamId
  | .retypeSubmission submissionId correct => retypeSubmission.plan mode db submissionId correct
  | .deleteSubmission submissionId => deleteSubmission.plan db submissionId
  | _ => none

/-- The two saves of `InsertSolveAsync`; the first one stays when the second fails. -/
def lockScore.write (db : Db) (challengeId teamId : Nat) : Option (Db × Recalculation) := do
  let challenge ← db.challenge challengeId
  if challenge.kypoConfig = false ∨ db.existingSolve challengeId none (some teamId) then none
  else
    let userId ← db.captainOrMember teamId
    let saved ← db.insertSubmission challengeId (some userId) (some teamId) .correct
    let solved := saved.insertSolve ⟨db.nextId, challengeId, some userId, some teamId⟩
    some (solved.getD saved, .none)

def patchUser.write (db : Db) (userId : Nat) (hidden banned : Option Bool) :
    Option (Db × Recalculation) := do
  let _ ← db.user userId
  some ({ db with
    users := db.users.map fun u =>
      if u.id = userId then
        { u with hidden := hidden.getD u.hidden, banned := banned.getD u.banned }
      else u }, .none)

/-- `_purge_user_references` and the deletion of the row. The challenges that the
user wrote refer to the user as well. -/
def deleteUser.write (db : Db) (userId : Nat) : Option (Db × Recalculation) := do
  let _ ← db.user userId
  let purged := (db.deleteSubmissions fun sub => sub.user_id == some userId).deleteSolves
    fun s => s.user_id == some userId
  let purged := purged.deleteChallenges fun c => c.user_id == userId
  some ({ purged with
    users := db.users.filter fun u => u.id ≠ userId
    teams := db.teams.map fun t =>
      if t.captain_id = some userId then { t with captain_id := none } else t }, .none)

def patchTeam.write (db : Db) (teamId : Nat) (hidden banned : Option Bool) :
    Option (Db × Recalculation) := do
  let _ ← db.team teamId
  some ({ db with
    teams := db.teams.map fun t =>
      if t.id = teamId then
        { t with hidden := hidden.getD t.hidden, banned := banned.getD t.banned }
      else t }, .none)

/-- The team's submissions and solves are deleted by their references. -/
def deleteTeam.write (db : Db) (teamId : Nat) : Option (Db × Recalculation) := do
  let _ ← db.team teamId
  let purged := (db.deleteSubmissions fun sub => sub.team_id == some teamId).deleteSolves
    fun s => s.team_id == some teamId
  some ({ purged with
    teams := db.teams.filter fun t => t.id ≠ teamId
    users := db.users.map fun u =>
      if u.team_id = some teamId then { u with team_id := none } else u }, .none)

/-- The endpoint is there in team mode only. -/
def removeMember.write (mode : AccountMode) (db : Db) (teamId userId : Nat) :
    Option (Db × Recalculation) := do
  let _ ← db.team teamId
  let user ← db.user userId
  if mode ≠ .teams ∨ user.team_id ≠ some teamId then none
  else
    some ({ db.deleteSubmissions fun sub => sub.user_id == some userId with
      users := db.users.map fun u => if u.id = userId then { u with team_id := none } else u },
      .none)

/-- The configuration of a request that leads to a dynamic challenge is validated first. -/
def patchChallenge.config (challenge : Challenge) (scoringType : Option ChallengeType)
    (data : ScoringData) : Option (Option DynamicConfig) :=
  if scoringType.getD challenge.type = .dynamic then
    (dynamicConfig data (challenge.dynamic.filter fun _ => challenge.type = .dynamic)).map some
  else some none

/-- A dynamic challenge that stays one takes the validated configuration and is
recalculated; the two conversions change the type and the dynamic row. -/
def patchChallenge.write (db : Db) (challengeId : Nat) (scoringType : Option ChallengeType)
    (data : ScoringData) : Option (Db × Recalculation) := do
  let challenge ← db.lockChallenge challengeId
  if scoringType.any fun t => t ≠ .standard ∧ t ≠ .dynamic then none
  else if data.value.isSome ∧ scoreInteger 0 data.value = none then none
  else
    let config ← patchChallenge.config challenge scoringType data
    let value := data.value.or challenge.value
    if challenge.type = .dynamic ∧ scoringType ≠ some .standard then
      some (db.updateChallenge challengeId fun c => { c with value := value, dynamic := config },
        .management challengeId)
    else if challenge.type = .dynamic then
      some (db.updateChallenge challengeId fun c =>
        { c with type := .standard, value := value, dynamic := none }, .none)
    else if challenge.type = .standard ∧ scoringType = some .dynamic then
      some (db.updateChallenge challengeId fun c =>
        { c with type := .dynamic, value := value, dynamic := config }, .management challengeId)
    else some (db.updateChallenge challengeId fun c => { c with value := value }, .none)

/-- The statements of an operation, when nothing comes between its checks and them. -/
def write (mode : AccountMode) (db : Db) (op : ScoringOp) : Option (Db × Recalculation) :=
  match op with
  | .attempt .. | .solve .. | .createSubmission .. | .retypeSubmission .. | .deleteSubmission _ =>
    (op.plan mode db).bind fun plan => plan.apply db
  | .lockScore challengeId teamId => lockScore.write db challengeId teamId
  | .patchUser userId hidden banned => patchUser.write db userId hidden banned
  | .deleteUser userId => deleteUser.write db userId
  | .patchTeam teamId hidden banned => patchTeam.write db teamId hidden banned
  | .deleteTeam teamId => deleteTeam.write db teamId
  | .removeMember teamId userId => removeMember.write mode db teamId userId
  | .patchChallenge challengeId scoringType data =>
    patchChallenge.write db challengeId scoringType data

end ScoringOp

namespace Recalculation

def run (mode : AccountMode) (db : Db) : Recalculation → Option Db
  | .none => some db
  | .contestant challengeId => db.recalculateDynamicChallengeValue mode challengeId
  | .management challengeId => db.recalculate mode challengeId

end Recalculation

/-- A committed operation: its statements and then its recalculation. -/
def ScoringOp.commit (mode : AccountMode) (db : Db) (op : ScoringOp) : Option Db :=
  (op.write mode db).bind fun (written, recalculation) => recalculation.run mode written

namespace Plan

variable {db written : Db} {r : Recalculation}

/-- The submission that a plan is about. -/
def submission : Plan → Option Submission
  | .toCorrect sub _ | .toIncorrect sub | .retype sub _ | .delete sub => some sub
  | .solve .. | .submit .. => none

/-- The challenge that the operation has locked. -/
def challenge : Plan → Nat
  | .solve challengeId .. | .submit _ challengeId .. => challengeId
  | .toCorrect sub _ | .toIncorrect sub | .retype sub _ | .delete sub => sub.challenge_id

theorem apply_frame {plan : Plan} (h : plan.apply db = some (written, r)) :
    Db.Frame db written := by
  cases plan with
  | solve =>
    obtain ⟨_, hinsert, h⟩ := Option.map_eq_some_iff.mp h
    cases h
    exact (Db.insertCorrect_eq_some hinsert).1
  | submit =>
    obtain ⟨_, hinsert, h⟩ := Option.map_eq_some_iff.mp h
    cases h
    exact (Db.insertSubmission_eq_some hinsert).1
  | toCorrect =>
    obtain ⟨_, hsolved, h⟩ := Option.map_eq_some_iff.mp h
    cases h
    obtain ⟨husers, hteams, hchallenges⟩ := (Db.insertSolve_eq_some hsolved).1
    exact ⟨husers, hteams, hchallenges⟩
  | toIncorrect | retype | delete =>
    cases h
    exact ⟨rfl, rfl, rfl⟩

end Plan

namespace ScoringOp

variable {mode : AccountMode} {db : Db} {plan : Plan}

theorem attempt_plan {userId challengeId : Nat}
    (h : attempt.plan db userId challengeId = some plan) :
    ∃ userId teamId, plan = .solve challengeId userId teamId (.contestant challengeId) := by
  simp only [attempt.plan, bind, Option.bind_eq_some_iff] at h
  obtain ⟨user, -, team, -, challenge, -, h⟩ := h
  split at h
  · cases h
  · cases h
    exact ⟨_, _, rfl⟩

theorem solve_plan {userId challengeId : Nat}
    (h : solve.plan mode db userId challengeId = some plan) :
    ∃ userId teamId, plan = .solve challengeId userId teamId (.management challengeId) := by
  simp only [solve.plan, bind, Option.bind_eq_some_iff] at h
  obtain ⟨user, -, challenge, -, h⟩ := h
  split at h
  · cases h
  obtain ⟨teamId, -, h⟩ := Option.bind_eq_some_iff.mp h
  split at h
  · cases h
  · cases h
    exact ⟨_, _, rfl⟩

end ScoringOp

end Fctf
