import Fctf.Lib.Expiring
import Fctf.Lib.Run
import Fctf.Scoring.Writers

/-!
Attempts and their limit. The contestant backend counts a team's incorrect
submissions twice and passes the second count to a Redis script, which keeps the
number of admitted attempts in a counter that expires; the management platform
only counts the rows, and its administrators change them. Each statement, script
and Redis command is one step, so that steps of different requests interleave.

The checks that do not look at attempts (pause, captain, cooldown, state,
prerequisites, the rate of the user) can only turn a request away. A request that
they turn away fails here.
-/

namespace Fctf

open Expiring

/-- The counter `attempt_count_{challenge}_{team}`. -/
structure AttemptKey where
  challengeId : Nat
  teamId : Nat
  deriving Repr, DecidableEq

/-- `CheckAndIncrementAttemptsAsync`. -/
def checkAndIncrementAttempts (counters : Store AttemptKey Int) (now : Int) (key : AttemptKey)
    (maxAttempts actualDbCount : Int) : Store AttemptKey Int × Int :=
  let (counters, currentCount) :=
    match counters.find now key with
    | none => (counters.setEx now key 86400 actualDbCount, actualDbCount)
    | some cell =>
      (if cell.deadline = none then counters.expire now key 86400 else counters, cell.value)
  if maxAttempts ≤ currentCount then (counters, -1)
  else
    let counters := counters.modify now key (· + 1)
    if maxAttempts < currentCount + 1 then (counters, -1) else (counters, currentCount + 1)

/-- `DECR`, which takes a missing key for zero. -/
def decr (counters : Store AttemptKey Int) (now : Int) (key : AttemptKey) :
    Store AttemptKey Int × Int :=
  match counters.get now key with
  | some value => (counters.modify now key (· - 1), value - 1)
  | none => (counters.set key (-1), -1)

namespace Db

def maxAttempts (db : Db) (challengeId : Nat) : Option Int :=
  (db.challenge challengeId).bind Challenge.max_attempts

/-- The incorrect submissions of a challenge that `owner` picks out. -/
def incorrectCount (db : Db) (challengeId : Nat) (owner : Submission → Bool) : Nat :=
  db.submissions.countP fun sub =>
    sub.challenge_id == challengeId && sub.type == .incorrect && owner sub

/-- `Fails` and `Solves` filtered by `account_id`. -/
def fails (mode : AccountMode) (db : Db) (challengeId userId : Nat) (teamId : Option Nat) : Nat :=
  match mode with
  | .users => db.incorrectCount challengeId fun sub => sub.user_id == some userId
  | .teams => db.incorrectCount challengeId fun sub => sub.team_id == teamId

def solvedBy (mode : AccountMode) (db : Db) (challengeId userId : Nat) (teamId : Option Nat) :
    Bool :=
  match mode with
  | .users => db.existingSolve challengeId (some userId) none
  | .teams => db.existingSolve challengeId none teamId

end Db

inductive AttemptStage
  /-- `Attempt` of the contestant backend: the team has not solved the challenge. -/
  | opened
  /-- The count of the pre-check was below the limit and the flag is wrong. -/
  | checked
  /-- The second count has been read, the script not yet run. -/
  | counted (actualDbCount : Nat)
  /-- `ChallengeAttempt.post` of the management platform: `fails` has been read. -/
  | failsRead (fails : Nat)
  /-- The flag is right; before the transaction of the solve, on either side. -/
  | portalSolving
  | platformSolving
  /-- Let through; before the incorrect submission is inserted. -/
  | recording

/-- A request to one of the attempt endpoints, and whether its flag is right. -/
structure Attempt where
  userId : Nat
  teamId : Option Nat
  challengeId : Nat
  correct : Bool
  stage : AttemptStage

/-- An administrator's `DELETE` on a submission. -/
inductive Deletion
  /-- `submission_info` has been captured, without a lock. -/
  | captured (info : Submission)
  /-- The deletion of an incorrect submission has committed; before `EXISTS`. -/
  | committed (key : AttemptKey)
  /-- Before `DECR`. -/
  | counterSeen (key : AttemptKey)
  /-- Before `DEL`. -/
  | counterSpent (key : AttemptKey)

structure AttemptSite where
  db : Db
  /-- The submissions that the attempt endpoints have inserted. No step reads this history. -/
  recorded : List Nat
  now : Int
  counters : Store AttemptKey Int
  attempts : List Attempt
  deletions : List Deletion

inductive AttemptAction
  /-- A request to the contestant backend or to the management platform. -/
  | portal (userId challengeId : Nat) (correct : Bool)
  | platform (userId challengeId : Nat) (correct : Bool)
  /-- Attempt `i` takes its next step, up to the insertion. -/
  | advance (i : Nat)
  /-- The insertion of attempt `i`. -/
  | record (i : Nat)
  /-- The platform finds the user of attempt `i` too fast. -/
  | tooFast (i : Nat)
  /-- Attempt `i` is turned away by another check, or dies. -/
  | fail (i : Nat)
  /-- `POST` and `PATCH` on submissions. -/
  | create (type : SubmissionType) (challengeId : Nat) (userId teamId : Option Nat)
  | retype (submissionId : Nat) (correct : Bool)
  | delete (submissionId : Nat)
  /-- Deletion `i` takes its next step, or dies. -/
  | advanceDelete (i : Nat)
  | failDelete (i : Nat)
  | tick (seconds : Nat)
  /-- Redis loses a counter. -/
  | lose (key : AttemptKey)

namespace AttemptSite

/-- The solve check of the contestant backend. -/
def portal (s : AttemptSite) (userId challengeId : Nat) (correct : Bool) : Option Attempt := do
  let user ← s.db.user userId
  let team ← user.team_id.bind s.db.team
  let _ ← s.db.challenge challengeId
  if s.db.existingSolve challengeId none (some team.id) then none
  else some ⟨userId, some team.id, challengeId, correct, .opened⟩

/-- The management platform starts with `fails`. -/
def platform (mode : AccountMode) (s : AttemptSite) (userId challengeId : Nat) (correct : Bool) :
    Option Attempt := do
  let user ← s.db.user userId
  let _ ← s.db.challenge challengeId
  let teamId := (user.team_id.bind s.db.team).map Team.id
  if mode = .teams ∧ teamId = none then none
  else
    some ⟨userId, teamId, challengeId, correct,
      .failsRead (s.db.fails mode challengeId userId teamId)⟩

/-- Both endpoints insert the submission with the team that they have read. -/
def insertIncorrect (s : AttemptSite) (w : Attempt) : Option AttemptSite :=
  (s.db.insertSubmission w.challengeId (some w.userId) w.teamId .incorrect).map fun db =>
    { s with db := db, recorded := s.db.nextId :: s.recorded }

/-- The transaction of a solve. -/
def solve (mode : AccountMode) (s : AttemptSite) (op : ScoringOp) : AttemptSite :=
  match op.commit mode s.db with
  | some db => { s with db := db, recorded := s.db.nextId :: s.recorded }
  | none => s

/-- The call of the script, for an attempt of a team. -/
def runScript (s : AttemptSite) (w : Attempt) (teamId : Nat) (maxAttempts actualDbCount : Int) :
    AttemptSite × Option AttemptStage :=
  let (counters, result) :=
    checkAndIncrementAttempts s.counters s.now ⟨w.challengeId, teamId⟩ maxAttempts actualDbCount
  ({ s with counters := counters }, if result = -1 then none else some .recording)

/-- The next step of an attempt, and where it stands then. -/
def next (mode : AccountMode) (s : AttemptSite) (w : Attempt) : AttemptSite × Option AttemptStage :=
  let limit := (s.db.maxAttempts w.challengeId).filter (0 < ·)
  let failCount := s.db.incorrectCount w.challengeId fun sub => sub.team_id == w.teamId
  match w.stage with
  | .opened =>
    (s,
      if limit.any (· ≤ (failCount : Int)) then none
      else if w.correct then some .portalSolving
      else some .checked)
  | .checked => (s, if limit.isSome then some (.counted failCount) else some .recording)
  | .counted actualDbCount =>
    match limit, w.teamId with
    | some maxAttempts, some teamId => s.runScript w teamId maxAttempts actualDbCount
    | _, _ => (s, none)
  | .failsRead fails =>
    (s,
      if s.db.solvedBy mode w.challengeId w.userId w.teamId then none
      else if (s.db.maxAttempts w.challengeId).any fun m =>
          m ≠ 0 ∧ m ≤ (fails : Int) ∧ 0 ≤ m then none
      else if w.correct then some .platformSolving
      else some .recording)
  | .portalSolving => (s.solve mode (.attempt w.userId w.challengeId), none)
  | .platformSolving => (s.solve mode (.solve w.userId w.challengeId), none)
  -- what is left of it is the insertion
  | .recording => (s, some .recording)

/-- The next step of a deletion, and where it stands then. -/
def nextDelete (mode : AccountMode) (s : AttemptSite) :
    Deletion → AttemptSite × Option Deletion
  | .captured info =>
    match (ScoringOp.deleteSubmission info.id).commit mode s.db with
    | some db =>
      ({ s with db := db },
        if info.type = .incorrect then info.team_id.map fun t => .committed ⟨info.challenge_id, t⟩
        else none)
    | none => (s, none)
  | .committed key => (s, if s.counters.contains s.now key then some (.counterSeen key) else none)
  | .counterSeen key =>
    let (counters, value) := decr s.counters s.now key
    ({ s with counters := counters }, if value ≤ 0 then some (.counterSpent key) else none)
  | .counterSpent key => ({ s with counters := s.counters.del key }, none)

end AttemptSite

/-- Puts `new` in the place of element `i`. -/
def replaceAt {α : Type} (l : List α) (i : Nat) (new : Option α) : List α :=
  l.take i ++ new.toList ++ l.drop (i + 1)

namespace AttemptSite

def step (mode : AccountMode) (s : AttemptSite) : AttemptAction → Option AttemptSite
  | .portal userId challengeId correct =>
    (s.portal userId challengeId correct).map fun w => { s with attempts := w :: s.attempts }
  | .platform userId challengeId correct =>
    (s.platform mode userId challengeId correct).map fun w =>
      { s with attempts := w :: s.attempts }
  | .advance i => do
    let w ← s.attempts[i]?
    let (t, stage) := s.next mode w
    some { t with
      attempts := replaceAt s.attempts i (stage.map fun stage => { w with stage := stage }) }
  | .record i => do
    let w ← s.attempts[i]?
    match w.stage with
    | .recording =>
      let t := (s.insertIncorrect w).getD s
      some { t with attempts := replaceAt s.attempts i none }
    | _ => none
  | .tooFast i => do
    let w ← s.attempts[i]?
    match w.stage with
    | .failsRead _ =>
      let t := (s.insertIncorrect w).getD s
      some { t with attempts := replaceAt s.attempts i none }
    | _ => none
  | .fail i => do
    let _ ← s.attempts[i]?
    some { s with attempts := replaceAt s.attempts i none }
  | .create type challengeId userId teamId =>
    ((ScoringOp.createSubmission type challengeId userId teamId).commit mode s.db).map fun db =>
      { s with db := db }
  | .retype submissionId correct =>
    ((ScoringOp.retypeSubmission submissionId correct).commit mode s.db).map fun db =>
      { s with db := db }
  | .delete submissionId =>
    (s.db.submission submissionId).map fun info =>
      { s with deletions := .captured info :: s.deletions }
  | .advanceDelete i => do
    let d ← s.deletions[i]?
    let (t, next) := s.nextDelete mode d
    some { t with deletions := replaceAt s.deletions i next }
  | .failDelete i => do
    let _ ← s.deletions[i]?
    some { s with deletions := replaceAt s.deletions i none }
  | .tick seconds => some { s with now := s.now + seconds }
  | .lose key => some { s with counters := s.counters.del key }

end AttemptSite

end Fctf
