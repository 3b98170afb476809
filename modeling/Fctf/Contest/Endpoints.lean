import Fctf.Contest.Catalog
import Fctf.Contest.HintUnlock
import Fctf.Scoring.AttemptChecks

/-!
The contestants' endpoints: what a request is answered with, and what it writes. What the
services outside answer in the course of a request is a parameter.
-/

namespace Fctf.Contest

open HintService ChallengeService

/-! ### Files -/

structure FileResult where
  fileName : String
  content : String
  deriving Repr, DecidableEq

namespace FileService

variable (platform : Platform)

/-- The prerequisites as `JsonDocument` has them. -/
def readPrerequisites (requirements : String) : Option (List Int) := do
  match ← (← platform.parse requirements).tryGetProperty "prerequisites" with
  | none => some []
  | some prereqEl => (← prereqEl.enumerateArray).mapM JsonElement.getInt32

/-- The prerequisites of a challenge whose file is asked for with a token of a team. -/
def prerequisitesMet (db : Db) (challenge : Challenge) (teamId : Option Nat) : Bool :=
  match challenge.requirements with
  | none => true
  | some requirements =>
    if isNullOrWhiteSpace requirements then true
    else if teamId.isNone then false
    else
      match readPrerequisites platform requirements with
      | none => false
      | some prerequisites =>
        (prerequisites.filter (isChallenge db)).all (solved db teamId)

/-- The access control of challenge files; other files have none. -/
def isAllowed (db : Db) (file : File) (teamId : Option Nat) : Bool :=
  if file.type.any (equalsIgnoreCase · "challenge") then
    match file.challengeId.bind db.challenge with
    | none => false
    | some challenge =>
      !equalsIgnoreCase challenge.state "hidden" && prerequisitesMet platform db challenge teamId
  else true

/-- The look for the file of a token. -/
def findFile (db : Db) (path : String) (fileId : Nat) : Option File :=
  db.files.find? fun f => f.location.any (platform.collation.eq · path) && f.id = fileId

/-- The checks of the token and of the path. -/
def checkToken (path token : String) (userId : Nat) : Except String FileToken :=
  match platform.loads token with
  | .error message => .error ("Error retrieving file: " ++ message)
  | .ok none => .error "Invalid or expired token"
  | .ok (some fileToken) =>
    if fileToken.userId ≠ userId then .error "Invalid or expired token"
    else if isNullOrWhiteSpace path then .error "File path is required"
    else if !equalsIgnoreCase (String.ofList (path.toList.take 5)) "file/" then
      .error "Access denied"
    else .ok fileToken

/-- The path begins with that of the mounted directory. -/
def isMounted (fullPath : String) : Bool :=
  equalsIgnoreCase (String.ofList (fullPath.toList.take platform.mountPath.length))
    platform.mountPath

def read (p : Portal) (path : String) : Except String FileResult :=
  let fullPath := platform.fullPath path
  if isMounted platform fullPath then
    match p.disk fullPath with
    | none => .error "File not found"
    | some content => .ok ⟨platform.fileName fullPath, content⟩
  else .error "Invalid file path"

/-- `GetFileAsync`. -/
def getFile (p : Portal) (path token : String) (userId : Nat) : Except String FileResult := do
  let fileToken ← checkToken platform path token userId
  match findFile platform p.db path fileToken.fileId with
  | none => .error "File not found"
  | some file =>
    if isAllowed platform p.db file fileToken.teamId then read platform p path
    else .error "Access denied"

end FileService

/-! ### What requests are answered with -/

structure HintSummaryDTO where
  id : Nat
  cost : Option Int
  isUnlocked : Bool
  deriving Repr, DecidableEq

structure AttemptResponse where
  status : String
  message : Option String := none
  value : Option Int := none
  cooldown : Option Int := none
  deriving Repr, DecidableEq

inductive Response
  | refused (status : Nat) (message : String)
  | challenge (data : ChallengeDataDto) (started : Option StartedView)
  | challenges (items : List ChallengeByCategoryDTO)
  | instances (items : List ChallengeInstanceDTO)
  | deployment (dto : ChallengeDeployResponeDTO)
  | hints (hints : List HintSummaryDTO)
  | hint (dto : HintResponseDTO)
  | unlock (row : Unlock)
  | file (result : FileResult)
  | attempt (status : Nat) (data : AttemptResponse)
  deriving Repr, DecidableEq

/-- What a request writes. -/
inductive Effect
  /-- KYPO creates or resumes a run of the team. -/
  | trainingRun (challengeId teamId : Nat)
  | started (entry : ChallengeDeploymentCacheDTO)
  | tracked (challengeId teamId : Nat)
  | charged (unlock : Unlock) (award : Board.Award)
  | recorded (submission : Submission)
  deriving Repr, DecidableEq

/-- The challenge that an effect is about. -/
def Effect.challengeId (db : Db) : Effect → Option Nat
  | .trainingRun challengeId _ => some challengeId
  | .started entry => some entry.challenge_id
  | .tracked challengeId _ => some challengeId
  | .charged unlock _ => (unlock.target.bind db.hint).bind Hint.challengeId
  | .recorded submission => submission.challengeId

/-- `GlobalExceptionFilter`. -/
def onException : Fault → Response
  | .invalidOperation message => .refused 400 message
  | .unauthorizedAccess message => .refused 401 message
  | .keyNotFound message => .refused 404 message
  | .other => .refused 500 "Internal server error"

/-- `GetKeycloakTokenAsync`: an exception, no token, or the fields of one, as they are put into
the address. -/
inductive TokenReply
  | failed (fault : Fault)
  | refused
  | token (fields : String)
  deriving Repr, DecidableEq

/-- An exception on the way to a token. -/
def TokenReply.throws : TokenReply → Bool
  | .failed _ => true
  | _ => false

/-- `AcquireLock`. -/
inductive LockReply
  | acquired
  | taken
  | failed (fault : Fault)
  deriving Repr, DecidableEq

/-- `SaveChangesAsync`. -/
inductive SaveReply
  | saved
  /-- The exception may come after the rows are written. -/
  | failed (written : Bool) (fault : Fault)
  deriving Repr, DecidableEq

def SaveReply.written : SaveReply → Bool
  | .saved => true
  | .failed written _ => written

/-- How the transaction of a correct attempt ends. -/
inductive CommitReply
  | committed (scoredValue : Int)
  | duplicateKey
  | scoringConfiguration
  | failed (written : Bool)
  deriving Repr, DecidableEq

/-- The answers to a request from Redis' scripts and counters, from the database to its writes,
from Keycloak and from the deployment service. -/
structure Answers where
  keycloak : TokenReply := .refused
  lock : LockReply := .acquired
  save : SaveReply := .saved
  /-- The exception of `ReleaseLock`, if it throws one. -/
  release : Option Fault := none
  commit : CommitReply := .failed false
  /-- `CheckAndUpdateCooldownAsync`. -/
  cooldownCheck : Int := -1
  /-- The submissions of this minute. -/
  kpmCount : Int := 1
  /-- `CheckAndIncrementAttemptsAsync`. -/
  attemptsCheck : Int := 1
  deploymentCheck : DeploymentCheckResult := .Pass
  /-- `ChallengeStart`, unless it throws. -/
  deployReply : Option ChallengeDeployResponeDTO := none
  deriving Repr, DecidableEq

/-- Whose request it is, as the access token has it. -/
structure Session where
  userId : Nat
  teamId : Nat
  deriving Repr, DecidableEq

/-- A request with what it was answered with and what it wrote. -/
abbrev Outcome := Response × List Effect

/-- A response that has written nothing. -/
def only (response : Response) : Outcome := (response, [])

section Endpoints

variable (platform : Platform) (answers : Answers) (p : Portal)

/-! ### Hints -/

/-- `GetHintsByChallengeId`. -/
def getHintsByChallengeId (challengeId userId : Nat) : List HintSummaryDTO :=
  match p.db.challenge challengeId with
  | none => []
  | some challenge =>
    if isVisible platform p.db challenge then
      (p.db.hints.filter fun h => h.challengeId = some challengeId).map fun h => {
        id := h.id
        cost := h.cost
        isUnlocked := h.cost.getD 0 ≤ 0 || (p.db.user userId).any (unlocked platform p.db h) }
    else []

/-- The save of an unlock; what the table does not take is refused with a `DbUpdateException`. -/
def saveUnlock (type : String) (hint : Hint) (user : Board.User) : Outcome :=
  let row := storedUnlock p.db user hint type
  (match answers.save, row with
    | .saved, some row => .unlock { row with type := some type }
    | .saved, none => onException .other
    | .failed _ fault, _ => onException fault,
    if answers.save.written then
      (row.map fun row => .charged row (hintAward p.db p.now user hint)).toList
    else [])

/-- `UnlockHint` past the prerequisites of the challenge. -/
def unlockPast (type : String) (hint : Hint) (user : Board.User) : Outcome :=
  match ensureUnlockable platform p.db hint type user with
  | .error fault => only (onException fault)
  | .ok () => saveUnlock answers p type hint user

/-- `UnlockHint` inside the lock. -/
def unlockLocked (type : String) (hint : Hint) (challenge : Challenge) (user : Board.User) :
    Outcome :=
  match ensureChallengePrerequisitesUnlocked platform p.db challenge user with
  | .error fault => only (onException fault)
  | .ok () => unlockPast platform answers p type hint user

/-- The `finally` block: an exception of the release takes the place of the result. -/
def releaseLock (outcome : Outcome) : Outcome :=
  match answers.release with
  | none => outcome
  | some fault => (onException fault, outcome.2)

/-- `UnlockHint` from the lock on. -/
def unlockHint (type : String) (hint : Hint) (challenge : Challenge) (user : Board.User) :
    Outcome :=
  match answers.lock with
  | .failed fault => only (onException fault)
  | .taken =>
    only (onException
      (.invalidOperation "Another unlock operation is in progress. Please try again."))
  | .acquired => releaseLock answers (unlockLocked platform answers p type hint challenge user)

/-- `PostUnlock`. -/
def postUnlock (session : Session) (type : String) (target : Nat) : Outcome :=
  if session.teamId = 0 || session.userId = 0 then only (.refused 401 "PermisUnlockHintsion denied")
  else
    match p.db.hint target with
    | none => only (.refused 400 "Invalid challenge or hint")
    | some hint =>
      match p.db.challengeOf hint with
      | none => only (.refused 400 "Invalid challenge or hint")
      | some challenge =>
        if challenge.state = "hidden" || isHiddenCategory platform p.db challenge.category then
          only (.refused 400 "Challenge is hidden")
        else if solved p.db (some session.teamId) challenge.id then
          only (.refused 400 "Challenge already solved")
        else if !isVisible platform p.db challenge then only (.refused 400 "Unable to unlock hint")
        else
          match p.db.user session.userId with
          | none => only (onException (.invalidOperation "User not found"))
          | some user => unlockHint platform answers p type hint challenge user

/-! ### Starting a challenge -/

/-- The prerequisites as `StartChallenge` and `Attempt` check them. -/
def requirementsMet (db : Db) (challenge : Challenge) (teamId : Option Nat) : Bool :=
  match challenge.requirements with
  | none => true
  | some requirements =>
    if requirements = "" then true
    else
      match platform.deserialize requirements with
      -- the exception is logged
      | none => true
      | some requirementsObj =>
        (((requirementsObj.bind (·.prerequisites)).getD []).filter (isChallenge db)).all
          (solved db teamId)

/-- `baseUrl`. -/
def kypoBaseUrl (config : Option KypoChallengeConfig) : String :=
  match config.bind (·.baseUrl) with
  | some url => if url = "" then "https://vuontre.iahn.hanoi.vn" else trimEndSlash url
  | none => "https://vuontre.iahn.hanoi.vn"

/-- The team has an account with KYPO. -/
def hasKypoAccount (db : Db) (teamId : Nat) : Bool :=
  (db.kypoAccounts.find? fun k => k.teamId = teamId).any fun k =>
    k.username.isSome && k.password.isSome

/-- The address that the team is sent to, and the run that is made for it. -/
def kypoBridge (config : Option KypoChallengeConfig) (challengeId teamId : Nat) :
    Except Fault (String × List Effect) :=
  let baseUrl := kypoBaseUrl config
  if hasKypoAccount p.db teamId then
    match answers.keycloak with
    | .failed fault => .error fault
    | .refused => .ok (baseUrl ++ "/run", [])
    | .token fields =>
      let accessToken := (config.bind (·.accessToken)).getD ""
      let instanceType := (config.map (·.instanceType)).getD "linear"
      let redirectTo := if accessToken = "" then "/run"
        else "/run/" ++ instanceType ++ "/" ++ accessToken ++ "/access"
      .ok (baseUrl ++ "/bridge.html#" ++ fields ++ "&redirect_to=" ++
          platform.escapeDataString redirectTo,
        if accessToken = "" then [] else [.trainingRun challengeId teamId])
  else .ok (baseUrl ++ "/run", [])

/-- The end of a deployment that begins now. -/
def timeFinished (challenge : Challenge) : Int :=
  match challenge.timeLimit with
  | some minutes => if 0 < minutes then p.now + minutes * 60 else 0
  | none => 0

/-- The minutes that are left of a deployment. -/
def minutesLeft (time_finished : Int) : Int := ((timeRemaining p time_finished).getD 0) / 60

/-- `StartChallenge` for a challenge of KYPO. -/
def startKypo (user : Board.User) (teamId : Nat) (challenge : Challenge)
    (config : Option KypoChallengeConfig) : Outcome :=
  if challenge.state = "hidden" then only (.refused 400 "This challenge is not available.")
  else
    match kypoBridge platform answers p config challenge.id teamId with
    | .error fault => only (onException fault)
    | .ok (bridgeUrl, runs) =>
      match p.getFromCache challenge.id teamId with
      | some existing =>
        (.deployment { status := 200, success := true, challengeType := some "kypo",
                       challengeUrl := existing.challenge_url,
                       timeLimit := minutesLeft p existing.time_finished }, runs)
      | none =>
        let hasOpenTracking := p.db.trackings.any fun t =>
          t.challengeId = challenge.id && t.teamId = some teamId && !t.stopped
        let entry : ChallengeDeploymentCacheDTO :=
          { challenge_id := challenge.id, user_id := user.id, team_id := teamId,
            challenge_url := some bridgeUrl, time_finished := timeFinished p challenge,
            status := some .RUNING, ready := true }
        (.deployment { status := 200, success := true, challengeType := some "kypo",
                       challengeUrl := some bridgeUrl },
          runs ++ [.started entry] ++
            if hasOpenTracking || !answers.save.written then [] else [.tracked challenge.id teamId])

/-- What a start is answered with when the deployment is there already. -/
def alreadyExists (challengeId teamId : Nat) : Response :=
  let cached := p.getFromCache challengeId teamId
  match cached.bind (·.status) with
  | some .INITIAL =>
    .refused 400 ("Your previous challenge deployment is still in progress. Please wait until " ++
      "it is completed before starting a new one.")
  | some .PENDING =>
    .deployment { status := 200, success := true, message := some "Challenge is deploying." }
  | some .DELETING =>
    .refused 400 "Challenge is being deleted. Please wait a moment before starting again."
  | some .RUNING =>
    .deployment { status := 200, success := true, message := some "Challenge is running.",
                  challengeUrl := cached.bind (·.challenge_url),
                  timeLimit := minutesLeft p ((cached.map (·.time_finished)).getD 0) }
  | _ => .refused 400 "You have already started this challenge."

/-- How often the team has failed. -/
def incorrectCount (db : Db) (challengeId : Nat) (teamId : Option Nat) : Nat :=
  db.submissions.countP fun s =>
    s.challengeId = some challengeId && s.teamId = teamId && s.type = .incorrect

/-- A limit of which nothing is left. -/
def isUsedUp (limit : Option Int) (used : Nat) : Bool :=
  limit.any fun limit => 0 < limit && limit ≤ (used : Int)

/-- The checks of an ordinary start, in their order: the refusal of the first that fails. -/
def startRefusal (db : Db) (user : Board.User) (teamId : Nat) (challenge : Challenge) :
    Option Response :=
  if !challenge.requireDeploy then some (.refused 400 "This challenge does not require deploy")
  else if challenge.state = "hidden" || isHiddenCategory platform db challenge.category ||
      challenge.sharedInstant then
    some (.refused 400 "This challenge is not available for deployment")
  else if !requirementsMet platform db challenge (some teamId) then
    some (.refused 403 ("You don't have the permission to start this challenge. " ++
      "Please complete the required challenges first."))
  else if isUsedUp challenge.maxAttempts (incorrectCount db challenge.id (some teamId)) then
    some (.refused 400 "You have 0 tries remaining. You cannot start this challenge.")
  else if isUsedUp challenge.maxDeployCount (db.trackings.countP fun t =>
      t.challengeId = challenge.id && t.teamId = some teamId) then
    some (.refused 400 ("You have reached the maximum number of deployments for this challenge. " ++
      "You cannot start this challenge."))
  else if solved db (some teamId) challenge.id then
    some (.refused 400 ("Your team has already solved this challenge. " ++
      "You cannot start this challenge."))
  else if db.config.captainOnlyStart.getD true && some user.id ≠ db.captain teamId then
    some (.refused 400 ("Contact the organizers to select a team captain. Only the team captain " ++
      "has the permission to start the challenge."))
  else none

/-- `StartChallenge` for a challenge of the cluster. -/
def startOrdinary (user : Board.User) (teamId : Nat) (challenge : Challenge) : Outcome :=
  match startRefusal platform p.db user teamId challenge with
  | some refusal => only refusal
  | none =>
    match answers.deploymentCheck with
    | .LimitExceeded =>
      only (.refused 400 ("You have reached the maximum limit of " ++
        toString p.db.config.limitChallenges ++ " concurrent challenges."))
    | .AlreadyExists => only (alreadyExists p challenge.id teamId)
    | .Pass =>
      match answers.deployReply with
      | none => only (.refused 400 "Failed to connect to start API")
      | some response =>
        -- the slot is given back when the reply is no success
        (.deployment response, if response.status = 200 then
          [.started { challenge_id := challenge.id, user_id := user.id, team_id := teamId,
                      status := some .INITIAL }] else [])

/-- `StartChallenge`. -/
def startChallenge (session : Session) (challengeId : Nat) : Outcome :=
  match p.db.user session.userId with
  | none => only (.refused 404 "Team not found")
  | some user =>
    match p.db.teamOf user with
    | none => only (.refused 404 "Team not found")
    | some team =>
      match p.db.challenge challengeId with
      | none => only (.refused 404 "Challenge not found")
      | some challenge =>
        let config := p.db.kypoConfigs.find? fun k => k.challengeId = challenge.id
        if isSandbox challenge || config.isSome then
          startKypo platform answers p user team.id challenge config
        else startOrdinary platform answers p user team.id challenge

/-! ### Attempts -/

/-- `FlagException` with its message, or whether the flag is the one provided. -/
def compareFlag (flag : Flag) (provided : String) : Except String Bool :=
  match flag.content with
  | none => .error "Flag configuration is invalid. Please contact an administrator."
  | some saved =>
    let ignoreCase : Bool := flag.data = some "case_insensitive"
    if isNullOrWhiteSpace saved then
      .error "Flag configuration is invalid. Please contact an administrator."
    else if flag.type.any (equalsIgnoreCase · "static") then
      let fold := if ignoreCase then platform.toLowerInvariant else id
      .ok (saved.toList.map fold = provided.toList.map fold)
    else if flag.type.any (equalsIgnoreCase · "regex") then
      match platform.regexMatch ignoreCase saved provided with
      | none => .error "Regex parse error occured"
      | some isMatch => .ok isMatch
    else .error "Flag type is unavailable. Please contact an administrator."

/-- `ChallengeHelper.Attempt` on the flags that are left, with the message of the last flag that
is misconfigured: a status, and whether the message is an error of the configuration. -/
def tryFlags (provided : String) : List Flag → Option String → Bool × Bool × String
  | [], configurationError =>
    (false, configurationError.isSome, configurationError.getD "Incorrect")
  | flag :: flags, configurationError =>
    match compareFlag platform flag provided with
    | .ok true => (true, false, "Correct")
    | .ok false => tryFlags provided flags configurationError
    | .error message => tryFlags provided flags (some message)

def alreadySolved : Response :=
  .attempt 200 {
    status := "already_solved"
    message := some "You or your teammate already solved this" }

/-- An attempt with the right flag. -/
def correctAttempt (user : Board.User) (challenge : Challenge) (submission message : String) :
    Outcome :=
  if challenge.type = some "dynamic" && answers.lock ≠ .acquired then
    match answers.lock with
    | .failed fault => only (onException fault)
    | _ =>
      only (.attempt 503 { status := "busy", message := some AttemptChecks.scoringBusy })
  else if p.db.board.solves.any fun s => s.challengeId = some challenge.id &&
      (s.userId = some user.id || user.teamId.isSome && s.teamId = user.teamId) then
    only alreadySolved
  else
    match answers.commit with
    | .committed scoredValue =>
      (.attempt 200 { status := "correct", message := some message, value := some scoredValue },
        [.recorded ⟨some challenge.id, some user.id, user.teamId, .correct, some submission⟩])
    | .duplicateKey => only alreadySolved
    | .scoringConfiguration => only (.refused 400 AttemptChecks.scoringInvalid)
    | .failed written =>
      (.refused 500 AttemptChecks.notRecorded, if written then
        [.recorded ⟨some challenge.id, some user.id, user.teamId, .correct, some submission⟩]
        else [])

/-- The message of a failed attempt, with the tries that are left. -/
def failedMessage (challenge : Challenge) (message : String) : String :=
  match challenge.maxAttempts with
  | some maxAttempts =>
    if 0 < maxAttempts then
      AttemptChecks.remainingMessage message maxAttempts answers.attemptsCheck
    else message
  | none => message

def noTries : Response :=
  .attempt 400 { status := "incorrect", message := some AttemptChecks.noTriesRemaining }

/-- An attempt with a wrong flag. -/
def incorrectAttempt (user : Board.User) (challenge : Challenge) (submission message : String) :
    Outcome :=
  let kpmLimit := p.db.config.incorrectSubmissionsPerMin.getD 10
  if 0 < kpmLimit && kpmLimit < answers.kpmCount then
    only (.attempt 429 {
      status := "ratelimited"
      message := some (AttemptChecks.tooFast answers.kpmCount kpmLimit)
      cooldown := some 0 })
  else if challenge.maxAttempts.any (0 < ·) && answers.attemptsCheck = -1 then only noTries
  else
    (match answers.save with
      | .saved => .attempt 200 {
          status := "incorrect"
          message := some (failedMessage answers challenge message)
          cooldown := some (challenge.cooldown.getD 0) }
      | .failed _ fault => onException fault,
      if answers.save.written then
        [.recorded ⟨some challenge.id, some user.id, user.teamId, .incorrect, some submission⟩]
      else [])

/-- The checks of an attempt before the challenge itself is looked at. -/
def attemptRefusal (db : Db) (user : Board.User) (submission : String) : Option Response :=
  if db.config.paused then
    some (.attempt 403 {
      status := "paused"
      message := some (AttemptChecks.isPaused db.config.ctfName) })
  else
    match db.teamOf user with
    | none => some (.refused 403 AttemptChecks.teamRequired)
    | some team =>
      if (AttemptChecks.submissionRefusal submission).isSome then
        some (.attempt 400 {
          status := "invalid"
          message := AttemptChecks.submissionRefusal submission })
      else if db.config.captainOnlySubmit.getD false && db.captain team.id ≠ some user.id then
        some (.attempt 403 {
          status := "forbidden"
          message := some AttemptChecks.captainOnly })
      else none

/-- The seconds that are left of the cooldown. -/
def cooldownLeft (challenge : Challenge) : Option Int :=
  AttemptChecks.remainingCooldown challenge.cooldown answers.cooldownCheck p.now

/-- `Attempt`. -/
def attempt (session : Session) (challengeId : Nat) (submission : Option String) : Outcome :=
  if challengeId = 0 then only (.refused 400 AttemptChecks.positiveIdRequired)
  else
    match p.db.user session.userId with
    | none => only (.refused 401 AttemptChecks.userNotFound)
    | some user =>
      match p.db.challenge challengeId with
      | none => only (.refused 404 AttemptChecks.challengeNotFound)
      | some challenge =>
        let submission := trim (submission.getD "")
        match attemptRefusal p.db user submission with
        | some refusal => only refusal
        | none =>
          match cooldownLeft answers p challenge with
          | some left =>
            only (.attempt 429 {
              status := "ratelimited"
              message := some (AttemptChecks.pleaseWait left)
              cooldown := some left })
          | none =>
            if challenge.state = "hidden" || isHiddenCategory platform p.db challenge.category then
              only (.refused 404 "")
            else if challenge.state = "locked" then only (.refused 403 "")
            else if !requirementsMet platform p.db challenge user.teamId then
              only (.refused 403 AttemptChecks.prerequisitesMissing)
            else if solved p.db user.teamId challenge.id then only alreadySolved
            else if isUsedUp challenge.maxAttempts
                (incorrectCount p.db challenge.id user.teamId) then only noTries
            else
              let flags := p.db.flags.filter fun f => f.challengeId = some challenge.id
              match tryFlags platform submission flags none with
              | (_, true, message) =>
                only (.attempt 400 { status := "error", message := some message })
              | (true, false, message) => correctAttempt answers p user challenge submission message
              | (false, false, message) =>
                incorrectAttempt answers p user challenge submission message

/-! ### All of them -/

inductive ContestRequest
  | list (categoryName : String)
  | detail (challengeId : Nat)
  | instances
  | status (challengeId : Nat)
  | hints (challengeId : Nat)
  | hint (hintId : Nat)
  | unlock (type : String) (target : Nat)
  | file (path token : String)
  | start (challengeId : Nat)
  | attempt (challengeId : Nat) (submission : Option String)
  deriving Repr, DecidableEq

/-- `CheckChallengeStatus`. -/
def checkStatus (session : Session) (challengeId : Nat) : Response :=
  match (p.db.user session.userId).bind p.db.teamOf with
  | none => .deployment { status := 400, success := false, message := some "User no join team",
                          podStatus := some .Failed }
  | some team =>
    match p.db.challenge challengeId with
    | none => .deployment { status := 400, success := false, message := some "Challenge not found",
                            podStatus := some .Failed }
    | some challenge =>
      .deployment (checkChallengeStart platform p challenge.id
        (if challenge.sharedInstant then -2 else team.id))

/-- The answer to a request and what it writes. -/
def respond (session : Session) : ContestRequest → Outcome
  | .list categoryName =>
    only (.challenges (getChallengeByCategories platform p categoryName session.teamId))
  | .detail challengeId =>
    only (match p.db.user session.userId with
      | none => .refused 404 "User not found"
      | some user =>
        match getById platform p challengeId user with
        | .error (status, message) => .refused status message
        | .ok (data, started) => .challenge data started)
  | .instances => only (.instances (getAllInstances platform p session.teamId))
  | .status challengeId => only (checkStatus platform p session challengeId)
  | .hints challengeId =>
    only (.hints (getHintsByChallengeId platform p challengeId session.userId))
  | .hint hintId =>
    only (match getHintById platform p.db hintId session.userId with
      | none => .refused 404 "Hint not found"
      | some dto => .hint dto)
  | .unlock type target => postUnlock platform answers p session type target
  | .file path token =>
    only (match FileService.getFile platform p path token session.userId with
      | .error message => .refused (if hasSubstring message "not found" then 404 else 400) message
      | .ok result => .file result)
  | .start challengeId => startChallenge platform answers p session challengeId
  | .attempt challengeId submission => attempt platform answers p session challengeId submission

/-! ### Which challenges are written about -/

variable {platform answers p}

theorem challenge_id {db : Db} {id : Nat} {c : Challenge} (hc : db.challenge id = some c) :
    c.id = id := by
  simpa using List.find?_some hc

theorem TokenReply.throws_iff {reply : TokenReply} :
    reply.throws = true ↔ ∃ fault, reply = .failed fault := by
  cases reply <;> simp [TokenReply.throws]

/-- A start at KYPO fails with the exception on the way to a token. -/
theorem kypoBridge_of_failed {config : Option KypoChallengeConfig} {challengeId teamId : Nat}
    {fault : Fault} (haccount : hasKypoAccount p.db teamId = true)
    (hfailed : answers.keycloak = .failed fault) :
    kypoBridge platform answers p config challengeId teamId = .error fault := by
  unfold kypoBridge
  simp only [haccount, hfailed, if_true]

theorem kypoBridge_isOk (platform : Platform) (config : Option KypoChallengeConfig)
    (challengeId : Nat) {teamId : Nat}
    (h : ¬ (hasKypoAccount p.db teamId = true ∧ answers.keycloak.throws = true)) :
    ∃ bridge, kypoBridge platform answers p config challengeId teamId = .ok bridge := by
  unfold kypoBridge
  simp only
  split
  · rename_i haccount
    cases hkeycloak : answers.keycloak with
    | failed fault => exact absurd ⟨haccount, by rw [hkeycloak]; rfl⟩ h
    | refused => exact ⟨_, rfl⟩
    | token fields => exact ⟨_, rfl⟩
  · exact ⟨_, rfl⟩

theorem effects_startKypo {user : Board.User} {teamId : Nat} {challenge : Challenge}
    {config : Option KypoChallengeConfig} {e : Effect}
    (he : e ∈ (startKypo platform answers p user teamId challenge config).2) :
    e.challengeId p.db = some challenge.id := by
  unfold startKypo at he
  split at he
  · cases he
  split at he
  · cases he
  rename_i bridgeUrl runs hbridge
  have hruns : ∀ e ∈ runs, e.challengeId p.db = some challenge.id := by
    intro e he
    unfold kypoBridge at hbridge
    simp only at hbridge
    split at hbridge
    · split at hbridge
      · cases hbridge
      · obtain ⟨-, rfl⟩ := Prod.mk.inj (Except.ok.inj hbridge)
        cases he
      · obtain ⟨-, rfl⟩ := Prod.mk.inj (Except.ok.inj hbridge)
        split at he
        · cases he
        · obtain rfl := List.mem_singleton.mp he
          rfl
    · obtain ⟨-, rfl⟩ := Prod.mk.inj (Except.ok.inj hbridge)
      cases he
  split at he
  · exact hruns e he
  · simp only [List.mem_append, List.mem_singleton] at he
    rcases he with (he | rfl) | he
    · exact hruns e he
    · rfl
    · split at he
      · cases he
      · obtain rfl := List.mem_singleton.mp he
        rfl

theorem effects_startOrdinary {user : Board.User} {teamId : Nat} {challenge : Challenge}
    {e : Effect} (he : e ∈ (startOrdinary platform answers p user teamId challenge).2) :
    e.challengeId p.db = some challenge.id := by
  unfold startOrdinary at he
  split at he
  · cases he
  split at he
  · cases he
  · cases he
  · split at he
    · cases he
    · simp only at he
      split at he
      · obtain rfl := List.mem_singleton.mp he
        rfl
      · cases he

/-- A start writes about the challenge that is started. -/
theorem effects_startChallenge {session : Session} {challengeId : Nat} {e : Effect}
    (he : e ∈ (startChallenge platform answers p session challengeId).2) :
    e.challengeId p.db = some challengeId := by
  unfold startChallenge at he
  split at he
  · cases he
  split at he
  · cases he
  split at he
  · cases he
  rename_i challenge hc
  rw [← challenge_id hc]
  simp only at he
  split at he
  · exact effects_startKypo he
  · exact effects_startOrdinary he

/-- An attempt is recorded for the challenge that it is made at. -/
theorem effects_attempt {session : Session} {challengeId : Nat} {submission : Option String}
    {e : Effect} (he : e ∈ (attempt platform answers p session challengeId submission).2) :
    e.challengeId p.db = some challengeId := by
  unfold attempt at he
  split at he
  · cases he
  split at he
  · cases he
  split at he
  · cases he
  rename_i challenge hc
  rw [← challenge_id hc]
  simp only at he
  split at he
  · cases he
  split at he
  · cases he
  split at he
  · cases he
  split at he
  · cases he
  split at he
  · cases he
  split at he
  · cases he
  split at he
  · cases he
  split at he
  · cases he
  · unfold correctAttempt at he
    split at he
    · split at he <;> cases he
    split at he
    · cases he
    split at he
    · obtain rfl := List.mem_singleton.mp he
      rfl
    · cases he
    · cases he
    · simp only at he
      split at he
      · obtain rfl := List.mem_singleton.mp he
        rfl
      · cases he
  · unfold incorrectAttempt at he
    simp only at he
    split at he
    · cases he
    split at he
    · cases he
    simp only at he
    split at he
    · obtain rfl := List.mem_singleton.mp he
      rfl
    · cases he

/-- What is written while the lock is held stays written. -/
@[simp] theorem releaseLock_effects (outcome : Outcome) :
    (releaseLock answers outcome).2 = outcome.2 := by
  unfold releaseLock
  split <;> rfl

/-- An unlock charges the hint for the team, and writes no more. -/
theorem effects_unlockHint {type : String} {hint : Hint} {challenge : Challenge}
    {user : Board.User} {e : Effect}
    (he : e ∈ (unlockHint platform answers p type hint challenge user).2) :
    ∃ row award, e = .charged row award ∧ row.target = some hint.id := by
  unfold unlockHint at he
  split at he
  · cases he
  · cases he
  rw [releaseLock_effects] at he
  unfold unlockLocked at he
  split at he
  · cases he
  unfold unlockPast at he
  split at he
  · cases he
  unfold saveUnlock at he
  simp only at he
  split at he
  · obtain ⟨row, hrow, rfl⟩ := Option.map_eq_some_iff.mp (Option.mem_toList.mp he)
    refine ⟨row, _, rfl, ?_⟩
    obtain ⟨stored, -, hstored⟩ := Option.bind_eq_some_iff.mp hrow
    simp only at hstored
    split at hstored
    · cases hstored
    · obtain rfl := Option.some.inj hstored
      rfl
  · cases he

/-- An unlock charges the hint that it is asked for, whose challenge is visible. -/
theorem effects_postUnlock {session : Session} {type : String} {target : Nat} {e : Effect}
    (he : e ∈ (postUnlock platform answers p session type target).2) :
    ∃ hint challenge, p.db.hint target = some hint ∧ p.db.challengeOf hint = some challenge ∧
      isVisible platform p.db challenge = true ∧ e.challengeId p.db = some challenge.id := by
  unfold postUnlock at he
  split at he
  · cases he
  split at he
  · cases he
  rename_i hint hhint
  split at he
  · cases he
  rename_i challenge hc
  split at he
  · cases he
  split at he
  · cases he
  split at he
  · cases he
  rename_i hvisible
  split at he
  · cases he
  obtain ⟨row, award, rfl, htarget⟩ := effects_unlockHint he
  refine ⟨hint, challenge, hhint, hc, by simpa using hvisible, ?_⟩
  have hid : hint.id = target := by simpa using List.find?_some hhint
  obtain ⟨id, hchallengeId, hfind⟩ := Option.bind_eq_some_iff.mp hc
  unfold Effect.challengeId
  simp only [htarget, hid, hhint, Option.bind_some]
  rw [challenge_id hfind]
  exact hchallengeId

end Endpoints

end Fctf.Contest
