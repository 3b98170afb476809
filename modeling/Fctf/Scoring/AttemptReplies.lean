import Fctf.Access.Registration
import Fctf.Scoring.Atomicity
import Fctf.Scoring.AttemptChecks

/-!
The replies of `Attempt` in the contestant backend, and what the request has committed before each
of them. Other requests may change the database between two calls; a call finds it as it is
committed then, and every call may fail.
-/

namespace Fctf.AttemptReplies

open AttemptChecks
open Registration (containsIgnoreCase)

/-! ### What the calls answer -/

structure ChallengeAttemptRequest where
  challengeId : Option Int
  submission : Option String

/-- The columns of a challenge that scoring does not read. -/
structure ChallengeInfo where
  category : Option String := none
  state : Option String := some "visible"
  cooldown : Option Int := none
  /-- The prerequisites of `Requirements`, if these can be read. -/
  prerequisites : List Nat := []

structure AttemptDTO where
  status : Bool
  configuration_error : Bool := false
  message : Option String

inductive Fault
  | dbUpdate (message : String)
  /-- The connection breaks after the statement had its effect. -/
  | lost
  | other
  deriving DecidableEq

/-- A statement that finds the committed database `db`. -/
structure Call where
  db : Db
  fault : Option Fault := none

/-- What the calls of a request are answered, in their order. `none` is an exception. -/
structure Calls where
  user : Call
  challenge : Call
  info : ChallengeInfo := {}
  paused : Option Bool := some false
  ctfName : Option String := some "FCTF"
  captainOnly : Option Bool := some false
  nowSeconds : Int := 0
  cooldownCheck : Option Int := some (-1)
  hiddenCategories : Option (List String) := some []
  prerequisites : Call
  preSolves : Call
  preFails : Call
  /-- `ChallengeHelper.Attempt`. -/
  attempt : Option AttemptDTO
  /-- `AcquireLock`, by the number of the attempt. -/
  acquire : Nat → Option Bool := fun _ => some true
  begins : Bool := true
  lockRow : Call
  solves : Call
  save : Call
  config : Call
  userMode : Option (Option String) := some none
  count : Call
  update : Call
  commit : Call
  /-- The rollback, where a transaction ends without a commit. -/
  disposes : Bool := true
  kpmLimit : Option Int := some 10
  kpmCount : Option Int := some 1
  fails : Call
  script : Option Int := some 1
  insert : Call

/-! ### Replies -/

inductive RefusedStatus
  | paused | invalid | forbidden | ratelimited | error | busy
  deriving DecidableEq

/-- A reply that says nothing about the flag. -/
inductive Refusal
  | status (code : Nat) (success : Bool) (status : RefusedStatus) (message : Option String)
    (cooldown : Option Int := none)
  | error (code : Nat) (error : String)
  | message (code : Nat) (message : String)
  | empty (code : Nat)
  /-- An exception that the endpoint does not catch. -/
  | raised
  deriving DecidableEq

inductive Reply
  | correct (message : Option String) (value : Int)
  | alreadySolved
  | incorrect (message : Option String) (cooldown : Int)
  /-- Status "incorrect" with "You have 0 tries remaining". -/
  | noTries
  | refused (refusal : Refusal)
  deriving DecidableEq

/-- The reply, the database before and after what the request has committed, and the database that
the call which decided on the reply found. -/
structure Outcome where
  reply : Reply
  change : Option (Db × Db) := none
  found : Option Db := none

def raised : Outcome := ⟨.refused .raised, none, none⟩

def refuse (refusal : Refusal) : Outcome := ⟨.refused refusal, none, none⟩

/-! ### The checks before the flag -/

structure Admitted where
  user : User
  team : Team
  challenge : Challenge
  submission : String

def read {α : Type} (call : Call) (query : Db → α) : Except Refusal α :=
  if call.fault = none then .ok (query call.db) else .error .raised

def value {α : Type} (answer : Option α) : Except Refusal α :=
  match answer with
  | some a => .ok a
  | none => .error .raised

def orElse {α : Type} (refusal : Refusal) (answer : Option α) : Except Refusal α :=
  match answer with
  | some a => .ok a
  | none => .error refusal

def checkCooldown (c : Calls) : Except Refusal Unit := do
  if 0 < c.info.cooldown.getD 0 then
    let cooldownCheck ← value c.cooldownCheck
    match remainingCooldown c.info.cooldown cooldownCheck c.nowSeconds with
    | some left => .error (.status 429 true .ratelimited (some (pleaseWait left)) (some left))
    | none => .ok ()
  else .ok ()

def checkState (c : Calls) : Except Refusal Unit := do
  let hidden ←
    if c.info.state = some "hidden" then .ok true
    else
      match c.info.category with
      | none => .ok false
      | some category =>
        if isNullOrWhiteSpace category then .ok false
        else (value c.hiddenCategories).map (trim category ∈ ·)
  if hidden then .error (.empty 404)
  else if c.info.state = some "locked" then .error (.empty 403)
  else .ok ()

/-- An exception of the queries is caught, and the request goes on. -/
def checkPrerequisites (user : User) (c : Calls) : Except Refusal Unit :=
  let db := c.prerequisites.db
  let solveIds := (db.solves.filter fun s => s.team_id = user.team_id).map Solf.challenge_id
  let prereqs := c.info.prerequisites.filter fun id => (db.challenge id).isSome
  if c.prerequisites.fault = none ∧ ¬ ∀ id ∈ prereqs, id ∈ solveIds then
    .error (.message 403 prerequisitesMissing)
  else .ok ()

def checkRequest (userId : Nat) (request : ChallengeAttemptRequest) (c : Calls) :
    Except Refusal Admitted := do
  let user ← read c.user (·.user userId)
  let challengeId ← orElse (.error 400 positiveIdRequired)
    (request.challengeId.filter (0 < ·))
  let user ← orElse (.error 401 userNotFound) user
  let challenge ← read c.challenge (·.challenge challengeId.toNat)
  let challenge ← orElse (.error 404 challengeNotFound) challenge
  let paused ← value c.paused
  if paused then
    let ctfName ← value c.ctfName
    .error (.status 403 true .paused (some (isPaused ctfName)))
  let team ← orElse (.error 403 teamRequired)
    (user.team_id.bind c.user.db.team)
  let submission := trim (request.submission.getD "")
  if (submissionRefusal submission).isSome then
    .error (.status 400 false .invalid (submissionRefusal submission))
  let captainOnlySubmit ← value c.captainOnly
  if captainOnlySubmit ∧ team.captain_id ≠ some user.id then
    .error (.status 403 false .forbidden (some captainOnly))
  checkCooldown c
  checkState c
  checkPrerequisites user c
  .ok ⟨user, team, challenge, submission⟩

/-! ### The checks on the team's earlier attempts -/

namespace Admitted

variable (a : Admitted)

/-- `challenge.MaxAttempts`, where it is set to a limit. -/
def maxAttempts : Option Int := a.challenge.max_attempts.filter (0 < ·)

def failCount (db : Db) : Int :=
  db.incorrectCount a.challenge.id fun sub => sub.team_id == some a.team.id

/-- A solve of the challenge by the user or the user's team. -/
def solvedIn (db : Db) : Bool :=
  db.existingSolve a.challenge.id (some a.user.id) (some a.team.id)

end Admitted

def preCheck (a : Admitted) (c : Calls) : Except Outcome Unit :=
  if c.preSolves.fault ≠ none then .error raised
  else if c.preSolves.db.existingSolve a.challenge.id none (some a.team.id) then
    .error ⟨.alreadySolved, none, some c.preSolves.db⟩
  else
    match a.maxAttempts with
    | none => .ok ()
    | some maxAttempts =>
      if c.preFails.fault ≠ none then .error raised
      else if maxAttempts ≤ a.failCount c.preFails.db then .error ⟨.noTries, none, none⟩
      else .ok ()

/-- Up to the comparison with the flags. -/
def flagged (userId : Nat) (request : ChallengeAttemptRequest) (c : Calls) :
    Except Outcome (Admitted × AttemptDTO) :=
  match checkRequest userId request c with
  | .error refusal => .error (refuse refusal)
  | .ok a =>
    match preCheck a c with
    | .error outcome => .error outcome
    | .ok () =>
      match c.attempt with
      | none => .error raised
      | some dto =>
        if dto.configuration_error then .error (refuse (.status 400 false .error dto.message))
        else .ok (a, dto)

/-! ### A correct flag -/

/-- `AcquireWithRetry`. -/
def acquireWithRetry (acquire : Nat → Option Bool) : Nat → Nat → Option Bool
  | 0, _ => some false
  | retry + 1, i =>
    match acquire i with
    | some false => acquireWithRetry acquire retry (i + 1)
    | answer => answer

def isDuplicateKey (message : String) : Bool :=
  containsIgnoreCase message "duplicate" || containsIgnoreCase message "unique" ||
    containsIgnoreCase message "constraint"

/-- The transaction is disposed without a commit. -/
def rolledBack (c : Calls) (reply : Reply) (found : Option Db := none) : Outcome :=
  if c.disposes then ⟨reply, none, found⟩ else raised

def failedToRecord : Reply :=
  .refused (.error 500 notRecorded)

/-- The lock in Redis, the lock of the row, and the look for a solve under it. -/
def openTransaction (a : Admitted) (c : Calls) : Except Outcome Unit :=
  let acquired :=
    if a.challenge.type = .dynamic then acquireWithRetry c.acquire 10 0 else some true
  match acquired with
  | none => .error raised
  | some false => .error (refuse (.status 503 false .busy (some scoringBusy)))
  | some true =>
    if !c.begins then .error raised
    else if c.lockRow.fault ≠ none ∨ c.lockRow.db.challenge a.challenge.id = none ∨
        c.solves.fault ≠ none then .error (rolledBack c failedToRecord)
    else if a.solvedIn c.solves.db then
      .error (rolledBack c .alreadySolved (some c.solves.db))
    else .ok ()

/-- The submission and its solve. -/
def insertCorrect (a : Admitted) (db : Db) : Option Db :=
  db.insertCorrect a.challenge.id (some a.user.id) (some a.team.id)

/-- The exception of `SaveChangesAsync`. A reference to a row that is gone and a key that is taken
are told apart by the beginning of their messages. -/
def saveFault (a : Admitted) (c : Calls) : Option Fault :=
  if c.save.fault ≠ none then c.save.fault
  else if (insertCorrect a c.save.db).isSome then none
  else if (c.save.db.insertSubmission a.challenge.id (some a.user.id) (some a.team.id)
      .correct).isSome then some (.dbUpdate "Duplicate entry")
  else some (.dbUpdate "Cannot add or update a child row: a foreign key constraint fails")

inductive RecalculationFault
  | scoringConfiguration
  | other
  deriving DecidableEq

/-- `GetSolveCount`, where the transaction sees its own solve. -/
def getSolveCount (a : Admitted) (c : Calls) : Except RecalculationFault Nat :=
  match c.userMode with
  | none => .error .other
  | some mode =>
    if mode.getD "users" ≠ "teams" ∧ mode.getD "users" ≠ "users" then .error .scoringConfiguration
    else
      match c.count.fault, insertCorrect a c.count.db with
      | none, some db =>
        .ok (db.solveCount (if mode.getD "users" = "teams" then .teams else .users) a.challenge.id)
      | _, _ => .error .other

/-- `RecalculateDynamicChallengeValue`: the value, and the one that is written. -/
def recalculate (a : Admitted) (c : Calls) : Except RecalculationFault (Int × Option Int) :=
  if c.config.fault ≠ none then .error .other
  else
    match c.config.db.challenge a.challenge.id with
    | none => .error .other
    | some challenge =>
      if challenge.type ≠ .dynamic then
        if challenge.value.any (· < 0) then .error .scoringConfiguration
        else .ok (challenge.value.getD 0, none)
      else
        match challenge.dynamic with
        | none => .error .scoringConfiguration
        | some config =>
          match getSolveCount a c with
          | .error fault => .error fault
          | .ok solveCount =>
            match calculateValue config solveCount with
            | none => .error .scoringConfiguration
            | some newValue =>
              if c.update.fault ≠ none then .error .other else .ok (newValue, some newValue)

/-- What the commit makes of the database. -/
def committed (a : Admitted) (written : Option Int) (db : Db) : Option Db :=
  (insertCorrect a db).map fun db => written.elim db fun newValue =>
    db.setValue a.challenge.id newValue

/-- From `SaveChangesAsync` on. What comes after the commit keeps its exceptions to itself. -/
def saveAndCommit (a : Admitted) (dto : AttemptDTO) (c : Calls) : Outcome :=
  match saveFault a c with
  | some (.dbUpdate message) =>
    if isDuplicateKey message then rolledBack c .alreadySolved (some c.save.db)
    else rolledBack c failedToRecord
  | some _ => rolledBack c failedToRecord
  | none =>
    match recalculate a c with
    | .error .scoringConfiguration => rolledBack c (.refused (.error 400 scoringInvalid))
    | .error .other => rolledBack c failedToRecord
    | .ok (scoredValue, written) =>
      match c.commit.fault, committed a written c.commit.db with
      | none, some after =>
        ⟨.correct dto.message scoredValue, some (c.commit.db, after), some c.commit.db⟩
      | some .lost, some after =>
        { rolledBack c failedToRecord with change := some (c.commit.db, after) }
      | _, _ => rolledBack c failedToRecord

def solve (a : Admitted) (dto : AttemptDTO) (c : Calls) : Outcome :=
  match openTransaction a c with
  | .error outcome => outcome
  | .ok () => saveAndCommit a dto c

/-! ### A wrong flag -/

/-- `CheckAndIncrementKpmAsync`, and the answer to a user that is too fast. -/
def checkKpm (c : Calls) : Except Outcome Unit :=
  match c.kpmLimit with
  | none => .error raised
  | some limit =>
    if limit ≤ 0 then .ok ()
    else
      match c.kpmCount with
      | none => .error raised
      | some count =>
        if limit < count then
          .error (refuse (.status 429 true .ratelimited (some (tooFast count limit)) (some 0)))
        else .ok ()

/-- The limit of attempts, and how many of them the team has used with this one. -/
def checkAttempts (a : Admitted) (c : Calls) : Except Outcome (Option (Int × Int)) :=
  match a.maxAttempts with
  | none => .ok none
  | some maxAttempts =>
    if c.fails.fault ≠ none then .error raised
    else
      match c.script with
      | none => .error raised
      | some result =>
        if result = -1 then .error ⟨.noTries, none, none⟩ else .ok (some (maxAttempts, result))

/-- The message with the attempts that are left. -/
def incorrectMessage (message : Option String) (tries : Option (Int × Int)) : Option String :=
  match tries with
  | none => message
  | some (maxAttempts, failsCount) =>
    some (remainingMessage (message.getD "") maxAttempts failsCount)

def insertIncorrect (a : Admitted) (db : Db) : Option Db :=
  db.insertSubmission a.challenge.id (some a.user.id) (some a.team.id) .incorrect

def record (a : Admitted) (dto : AttemptDTO) (tries : Option (Int × Int)) (c : Calls) : Outcome :=
  match c.insert.fault, insertIncorrect a c.insert.db with
  | none, some after =>
    ⟨.incorrect (incorrectMessage dto.message tries) (c.info.cooldown.getD 0),
      some (c.insert.db, after), some c.insert.db⟩
  | some .lost, some after => { raised with change := some (c.insert.db, after) }
  | _, _ => raised

def reject (a : Admitted) (dto : AttemptDTO) (c : Calls) : Outcome :=
  match checkKpm c with
  | .error outcome => outcome
  | .ok () =>
    match checkAttempts a c with
    | .error outcome => outcome
    | .ok tries => record a dto tries c

def attempt (userId : Nat) (request : ChallengeAttemptRequest) (c : Calls) : Outcome :=
  match flagged userId request c with
  | .error outcome => outcome
  | .ok (a, dto) => if dto.status then solve a dto c else reject a dto c

/-! ### What a reply says -/

/-- One correct submission more with its solve, and the recalculated value. -/
structure Solved (a : Admitted) (c : Calls) (scoredValue : Int) (before after : Db) : Prop where
  submissions : after.submissions = ⟨before.nextId, a.challenge.id, some a.user.id,
    some a.team.id, .correct⟩ :: before.submissions
  solves : after.solves =
    ⟨before.nextId, a.challenge.id, some a.user.id, some a.team.id⟩ :: before.solves
  value : ∃ written, recalculate a c = .ok (scoredValue, written) ∧
    after.challenges = written.elim before.challenges fun newValue =>
      (before.setValue a.challenge.id newValue).challenges

/-- One incorrect submission more, and nothing else. -/
structure Recorded (a : Admitted) (before after : Db) : Prop where
  submissions : after.submissions = ⟨before.nextId, a.challenge.id, some a.user.id,
    some a.team.id, .incorrect⟩ :: before.submissions
  solves : after.solves = before.solves
  challenges : after.challenges = before.challenges

/-- The reply tells what has become of the request. -/
structure Truthful (userId : Nat) (request : ChallengeAttemptRequest) (c : Calls) (o : Outcome) :
    Prop where
  correct : ∀ message scoredValue, o.reply = .correct message scoredValue →
    ∃ a before after, checkRequest userId request c = .ok a ∧
      o.change = some (before, after) ∧
      Solved a c scoredValue before after
  alreadySolved : o.reply = .alreadySolved →
    ∃ a db, checkRequest userId request c = .ok a ∧ o.found = some db ∧ a.solvedIn db = true
  incorrect : ∀ message cooldown, o.reply = .incorrect message cooldown →
    ∃ a before after, checkRequest userId request c = .ok a ∧
      o.change = some (before, after) ∧
      Recorded a before after
  other : (∀ message scoredValue, o.reply ≠ .correct message scoredValue) →
    (∀ message cooldown, o.reply ≠ .incorrect message cooldown) →
      ∀ before after, o.change = some (before, after) → SameScores before after

/-- The request meets no error that misleads it: what `SaveChangesAsync` raises reads like a
duplicate key only if the account has a solve, and what is stored is acknowledged. -/
structure NotMisled (userId : Nat) (request : ChallengeAttemptRequest) (c : Calls) : Prop where
  save : ∀ a dto message, flagged userId request c = .ok (a, dto) → dto.status = true →
    openTransaction a c = .ok () → saveFault a c = some (.dbUpdate message) →
      isDuplicateKey message = true → c.disposes = true → a.solvedIn c.save.db = true
  commit : ∀ a dto recalculated, flagged userId request c = .ok (a, dto) → dto.status = true →
    openTransaction a c = .ok () → saveFault a c = none → recalculate a c = .ok recalculated →
      (insertCorrect a c.commit.db).isSome = true → c.commit.fault ≠ some .lost
  insert : ∀ a dto tries, flagged userId request c = .ok (a, dto) → dto.status = false →
    checkKpm c = .ok () → checkAttempts a c = .ok tries →
      (insertIncorrect a c.insert.db).isSome = true → c.insert.fault ≠ some .lost

variable {userId : Nat} {request : ChallengeAttemptRequest} {c : Calls} {a : Admitted}
  {dto : AttemptDTO} {o : Outcome}

/-! ### Exits that commit nothing -/

inductive Idle (a : Admitted) : Outcome → Prop
  | refused (refusal : Refusal) (found : Option Db) : Idle a ⟨.refused refusal, none, found⟩
  | noTries : Idle a ⟨.noTries, none, none⟩
  | solved {db : Db} (h : a.solvedIn db = true) : Idle a ⟨.alreadySolved, none, some db⟩

theorem Idle.raised : Idle a raised := .refused .raised none

theorem Idle.rolledBack {reply : Reply} {found : Option Db}
    (h : Idle a ⟨reply, none, found⟩) : Idle a (rolledBack c reply found) := by
  unfold AttemptReplies.rolledBack
  split
  · exact h
  · exact .raised

theorem Idle.failed : Idle a (AttemptReplies.rolledBack c failedToRecord) :=
  Idle.rolledBack (.refused _ none)

theorem Idle.truthful (h : Idle a o) (hchecked : checkRequest userId request c = .ok a) :
    Truthful userId request c o := by
  cases h with
  | refused refusal found => exact ⟨nofun, nofun, nofun, fun _ _ _ _ hchange => nomatch hchange⟩
  | noTries => exact ⟨nofun, nofun, nofun, fun _ _ _ _ hchange => nomatch hchange⟩
  | solved hsolved =>
    exact ⟨nofun, fun _ => ⟨a, _, hchecked, rfl, hsolved⟩, nofun,
      fun _ _ _ _ hchange => nomatch hchange⟩

theorem truthful_refuse (refusal : Refusal) :
    Truthful userId request c (refuse refusal) :=
  ⟨nofun, nofun, nofun, fun _ _ _ _ hchange => nomatch hchange⟩

theorem solvedIn_of_team {db : Db}
    (h : db.existingSolve a.challenge.id none (some a.team.id) = true) : a.solvedIn db = true := by
  obtain ⟨s, hs, hkeys⟩ := List.any_eq_true.mp h
  refine List.any_eq_true.mpr ⟨s, hs, ?_⟩
  simp only [sameKey, Option.isSome_none, Bool.false_and, Bool.false_or] at hkeys
  simp only [sameKey, Bool.and_eq_true, Bool.or_eq_true] at hkeys ⊢
  exact ⟨hkeys.1, Or.inr hkeys.2⟩

theorem idle_of_preCheck (h : preCheck a c = .error o) : Idle a o := by
  unfold preCheck at h
  split at h
  · cases h
    exact .raised
  · split at h
    · rename_i hsolved
      cases h
      exact .solved (solvedIn_of_team hsolved)
    · split at h
      · cases h
      · split at h
        · cases h
          exact .raised
        · split at h <;> cases h
          exact .noTries

theorem idle_of_openTransaction (h : openTransaction a c = .error o) : Idle a o := by
  unfold openTransaction at h
  dsimp only at h
  split at h
  · cases h
    exact .raised
  · cases h
    exact .refused _ _
  · split_ifs at h with hbegins hfault hsolved <;> cases h
    · exact .raised
    · exact .failed
    · exact Idle.rolledBack (.solved hsolved)

theorem idle_of_checkKpm (h : checkKpm c = .error o) : Idle a o := by
  unfold checkKpm at h
  split at h
  · cases h
    exact .raised
  · split_ifs at h
    split at h
    · cases h
      exact .raised
    · split_ifs at h
      cases h
      exact .refused _ _

theorem idle_of_checkAttempts (h : checkAttempts a c = .error o) : Idle a o := by
  unfold checkAttempts at h
  split at h
  · cases h
  · split_ifs at h
    · cases h
      exact .raised
    · split at h
      · cases h
        exact .raised
      · split_ifs at h
        cases h
        exact .noTries

theorem checkRequest_of_flagged (h : flagged userId request c = .ok (a, dto)) :
    checkRequest userId request c = .ok a := by
  unfold flagged at h
  split at h
  · cases h
  · rename_i hchecked
    split at h
    · cases h
    · split at h
      · cases h
      · split_ifs at h
        cases h
        exact hchecked

theorem truthful_of_flagged_error (h : flagged userId request c = .error o) :
    Truthful userId request c o := by
  unfold flagged at h
  split at h
  · cases h
    exact truthful_refuse _
  · rename_i hchecked
    split at h
    · rename_i hcheck
      cases h
      exact (idle_of_preCheck hcheck).truthful hchecked
    · split at h
      · cases h
        exact truthful_refuse _
      · split_ifs at h
        cases h
        exact truthful_refuse _

/-! ### Exits that commit -/

theorem solved_of_committed {scoredValue : Int} {written : Option Int} {before after : Db}
    (hvalue : recalculate a c = .ok (scoredValue, written))
    (h : committed a written before = some after) : Solved a c scoredValue before after := by
  obtain ⟨db, hdb, rfl⟩ := Option.map_eq_some_iff.mp h
  obtain ⟨hframe, hsolves, hsubmissions, -⟩ := Db.insertCorrect_eq_some hdb
  cases written with
  | none => exact ⟨hsubmissions, hsolves, none, hvalue, hframe.challenges⟩
  | some newValue =>
    refine ⟨hsubmissions, hsolves, some newValue, hvalue, ?_⟩
    simp only [Option.elim_some, Db.setValue, Db.updateChallenge, hframe.challenges]

theorem not_sameScores_of_committed {written : Option Int} {before after : Db}
    (h : committed a written before = some after) : ¬ SameScores before after := by
  obtain ⟨db, hdb, rfl⟩ := Option.map_eq_some_iff.mp h
  obtain ⟨-, -, hsubmissions, -⟩ := Db.insertCorrect_eq_some hdb
  intro hsame
  have hlength := congrArg List.length hsame.submissions
  cases written <;> simp [Db.setValue, Db.updateChallenge, hsubmissions] at hlength

theorem recorded_of_insert {before after : Db} (h : insertIncorrect a before = some after) :
    Recorded a before after := by
  obtain ⟨hframe, hsolves, -, hsubmissions⟩ := Db.insertSubmission_eq_some h
  exact ⟨hsubmissions, hsolves, hframe.challenges⟩

theorem Recorded.not_sameScores {before after : Db} (h : Recorded a before after) :
    ¬ SameScores before after := by
  intro hsame
  have hlength := congrArg List.length hsame.submissions
  simp [h.submissions] at hlength

theorem truthful_saveAndCommit (hchecked : checkRequest userId request c = .ok a)
    (hsave : ∀ message, saveFault a c = some (.dbUpdate message) →
      isDuplicateKey message = true → c.disposes = true → a.solvedIn c.save.db = true)
    (hcommit : saveFault a c = none → ∀ recalculated, recalculate a c = .ok recalculated →
      (insertCorrect a c.commit.db).isSome = true → c.commit.fault ≠ some .lost) :
    Truthful userId request c (saveAndCommit a dto c) := by
  unfold saveAndCommit
  split
  · rename_i message hmessage
    split
    · rename_i hduplicate
      unfold rolledBack
      split
      · rename_i hdisposes
        exact (Idle.solved (hsave message hmessage hduplicate hdisposes)).truthful hchecked
      · exact Idle.raised.truthful hchecked
    · exact Idle.failed.truthful hchecked
  · exact Idle.failed.truthful hchecked
  · rename_i hsaved
    split
    · exact (Idle.rolledBack (.refused _ none)).truthful hchecked
    · exact Idle.failed.truthful hchecked
    · rename_i scoredValue written hvalue
      split
      · rename_i after _ hafter
        refine ⟨?_, nofun, nofun, fun hcorrect => absurd rfl (hcorrect _ _)⟩
        intro message value heq
        obtain ⟨-, rfl⟩ := Reply.correct.inj heq
        exact ⟨a, _, after, hchecked, rfl, solved_of_committed hvalue hafter⟩
      · rename_i after hlost hafter
        refine absurd hlost (hcommit hsaved _ hvalue ?_)
        obtain ⟨db, hdb, -⟩ := Option.map_eq_some_iff.mp hafter
        rw [hdb]
        rfl
      · exact Idle.failed.truthful hchecked

theorem truthful_record (hchecked : checkRequest userId request c = .ok a)
    {tries : Option (Int × Int)}
    (hinsert : (insertIncorrect a c.insert.db).isSome = true → c.insert.fault ≠ some .lost) :
    Truthful userId request c (record a dto tries c) := by
  unfold record
  split
  · rename_i after _ hafter
    refine ⟨nofun, nofun, ?_, fun _ hincorrect => absurd rfl (hincorrect _ _)⟩
    intro message cooldown _
    exact ⟨a, _, after, hchecked, rfl, recorded_of_insert hafter⟩
  · rename_i after hlost hafter
    refine absurd hlost (hinsert ?_)
    rw [hafter]
    rfl
  · exact Idle.raised.truthful hchecked

theorem truthful_of_notMisled (h : NotMisled userId request c) :
    Truthful userId request c (attempt userId request c) := by
  unfold attempt
  split
  · rename_i hflagged
    exact truthful_of_flagged_error hflagged
  · rename_i a dto hflagged
    have hchecked := checkRequest_of_flagged hflagged
    split
    · rename_i hstatus
      unfold solve
      split
      · rename_i hopen
        exact (idle_of_openTransaction hopen).truthful hchecked
      · rename_i hopen
        exact truthful_saveAndCommit hchecked
          (fun message => h.save a dto message hflagged hstatus hopen)
          fun hsaved recalculated => h.commit a dto recalculated hflagged hstatus hopen hsaved
    · rename_i hstatus
      unfold reject
      split
      · rename_i hkpm
        exact (idle_of_checkKpm hkpm).truthful hchecked
      · rename_i hkpm
        split
        · rename_i hattempts
          exact (idle_of_checkAttempts hattempts).truthful hchecked
        · rename_i tries hattempts
          exact truthful_record hchecked
            (h.insert a dto tries hflagged (Bool.eq_false_iff.mpr hstatus) hkpm hattempts)

/-! ### Replies that mislead -/

theorem attempt_of_correct (hflagged : flagged userId request c = .ok (a, dto))
    (hstatus : dto.status = true) (hopen : openTransaction a c = .ok ()) :
    attempt userId request c = saveAndCommit a dto c := by
  simp only [attempt, hflagged, hstatus, if_true, solve, hopen]

theorem attempt_of_incorrect {tries : Option (Int × Int)}
    (hflagged : flagged userId request c = .ok (a, dto)) (hstatus : dto.status = false)
    (hkpm : checkKpm c = .ok ()) (hattempts : checkAttempts a c = .ok tries) :
    attempt userId request c = record a dto tries c := by
  simp only [attempt, hflagged, hstatus, Bool.false_eq_true, if_false, reject, hkpm, hattempts]

/-- What was stored without an acknowledgement is answered with an error. -/
theorem reply_rolledBack_failed :
    ∃ refusal, (rolledBack c failedToRecord).reply = .refused refusal := by
  unfold rolledBack
  split
  · exact ⟨_, rfl⟩
  · exact ⟨_, rfl⟩

theorem notMisled_of_truthful
    (h : Truthful userId request c (attempt userId request c)) : NotMisled userId request c where
  save a dto message hflagged hstatus hopen hmessage hduplicate hdisposes := by
    have hattempt : attempt userId request c = ⟨.alreadySolved, none, some c.save.db⟩ := by
      simp only [attempt_of_correct hflagged hstatus hopen, saveAndCommit, hmessage, hduplicate,
        if_true, rolledBack, hdisposes]
    rw [hattempt] at h
    obtain ⟨a', db, hchecked, hfound, hsolved⟩ := h.alreadySolved rfl
    obtain rfl := Except.ok.inj ((checkRequest_of_flagged hflagged).symm.trans hchecked)
    obtain rfl := Option.some.inj hfound
    exact hsolved
  commit a dto recalculated hflagged hstatus hopen hsaved hvalue hinsert hlost := by
    obtain ⟨scoredValue, written⟩ := recalculated
    obtain ⟨db, hdb⟩ := Option.isSome_iff_exists.mp hinsert
    obtain ⟨after, hafter⟩ : ∃ after, committed a written c.commit.db = some after := by
      rw [committed, hdb]
      exact ⟨_, rfl⟩
    have hattempt : attempt userId request c =
        { rolledBack c failedToRecord with change := some (c.commit.db, after) } := by
      simp only [attempt_of_correct hflagged hstatus hopen, saveAndCommit, hsaved, hvalue, hlost,
        hafter]
    rw [hattempt] at h
    obtain ⟨refusal, hreply⟩ := reply_rolledBack_failed (c := c)
    refine not_sameScores_of_committed hafter (h.other ?_ ?_ _ _ rfl)
    · intro message scoredValue hcorrect
      cases hreply.symm.trans hcorrect
    · intro message cooldown hincorrect
      cases hreply.symm.trans hincorrect
  insert a dto tries hflagged hstatus hkpm hattempts hinsert hlost := by
    obtain ⟨after, hafter⟩ := Option.isSome_iff_exists.mp hinsert
    have hattempt : attempt userId request c =
        { raised with change := some (c.insert.db, after) } := by
      simp only [attempt_of_incorrect hflagged hstatus hkpm hattempts, record, hlost, hafter]
    rw [hattempt] at h
    exact (recorded_of_insert hafter).not_sameScores (h.other nofun nofun _ _ rfl)

/-- A key that is taken is the key of a solve of the account. -/
theorem solvedIn_of_taken {db saved : Db}
    (hsaved : db.insertSubmission a.challenge.id (some a.user.id) (some a.team.id) .correct =
      some saved) (h : insertCorrect a db = none) : a.solvedIn db = true := by
  obtain ⟨-, hsolves, -, hsubmissions⟩ := Db.insertSubmission_eq_some hsaved
  rw [insertCorrect, Db.insertCorrect, hsaved, Option.bind_some, Db.insertSolve] at h
  split at h
  · cases h
  · rename_i hclash
    have hrow : ∃ sub ∈ saved.submissions, sub.id = db.nextId ∧
        sub.challenge_id = a.challenge.id := by
      rw [hsubmissions]
      exact ⟨_, List.mem_cons_self, rfl, rfl⟩
    rw [not_and_or, not_forall] at hclash
    obtain ⟨s, hs⟩ := hclash.resolve_left (not_not.mpr hrow)
    rw [Classical.not_imp, hsolves, Bool.not_eq_false] at hs
    obtain ⟨hmem, hsame⟩ := hs
    obtain ⟨sub, hsub, hid, -⟩ := db.solves_fk s hmem
    have hlt := db.submissions_lt sub hsub
    have hne : db.nextId ≠ s.id := by omega
    refine List.any_eq_true.mpr ⟨s, hmem, ?_⟩
    simp only [Solf.clashes, beq_eq_false_iff_ne.mpr hne, Bool.false_or, Bool.and_eq_true,
      beq_iff_eq] at hsame
    simp only [Bool.and_eq_true, beq_iff_eq]
    exact ⟨hsame.1.symm, hsame.2⟩

/-- The replies of a request tell the truth exactly when no error misleads it: an exception of
`SaveChangesAsync` that reads like a duplicate key comes with a solve of the account, and no commit
or insertion is stored without an acknowledgement. -/
theorem truthful_iff (userId : Nat) (request : ChallengeAttemptRequest) (c : Calls) :
    Truthful userId request c (attempt userId request c) ↔ NotMisled userId request c :=
  ⟨notMisled_of_truthful, truthful_of_notMisled⟩

def before : Db where
  users := [⟨3, some 7, false, false⟩]
  teams := [⟨7, some 3, false, false⟩]
  challenges := [⟨1, 9, .standard, some 100, none, false, some 0⟩]
  submissions := []
  solves := []
  nextId := 1
  challenges_pk := by decide
  submissions_pk := twoTeams.submissions_pk
  submissions_lt := twoTeams.submissions_lt
  solves_keys := twoTeams.solves_keys
  solves_fk := twoTeams.solves_fk

/-- An administrator has deleted the user. -/
def userDeleted : Db := { before with users := [] }

/-- The user is deleted after the request has read it and before it saves a correct flag. -/
def deletedMeanwhile : Calls where
  user := ⟨before, none⟩
  challenge := ⟨before, none⟩
  prerequisites := ⟨before, none⟩
  preSolves := ⟨before, none⟩
  preFails := ⟨before, none⟩
  attempt := some ⟨true, false, some "Correct"⟩
  lockRow := ⟨before, none⟩
  solves := ⟨before, none⟩
  save := ⟨userDeleted, none⟩
  config := ⟨userDeleted, none⟩
  count := ⟨userDeleted, none⟩
  update := ⟨userDeleted, none⟩
  commit := ⟨userDeleted, none⟩
  fails := ⟨userDeleted, none⟩
  insert := ⟨userDeleted, none⟩

/-- The broken reference is taken for a duplicate key: the reply is that the challenge is solved
already, and nobody has solved it. -/
theorem solved_by_nobody :
    ¬ Truthful 3 ⟨some 1, some "flag"⟩ deletedMeanwhile
      (attempt 3 ⟨some 1, some "flag"⟩ deletedMeanwhile) := by
  intro h
  have hreply : (attempt 3 ⟨some 1, some "flag"⟩ deletedMeanwhile).reply = .alreadySolved := by
    decide +kernel
  have hsolves : (attempt 3 ⟨some 1, some "flag"⟩ deletedMeanwhile).found.map Db.solves =
      some [] := by
    decide +kernel
  obtain ⟨a, db, -, hfound, hsolved⟩ := h.alreadySolved hreply
  rw [hfound] at hsolves
  rw [Admitted.solvedIn, Db.existingSolve, Option.some.inj hsolves] at hsolved
  cases hsolved

end Fctf.AttemptReplies
