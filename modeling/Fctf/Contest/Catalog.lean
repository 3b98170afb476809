import Fctf.Contest.Hint

/-!
`ChallengeService`: what contestants are shown of the challenges and their deployments.
-/

namespace Fctf.Contest

/-- An entry of the deployment cache in Redis. -/
structure ChallengeDeploymentCacheDTO where
  challenge_id : Nat
  user_id : Nat := 0
  team_id : Int := 0
  challenge_url : Option String := none
  time_finished : Int := 0
  status : Option DeploymentStatus
  ready : Bool := false
  deriving Repr, DecidableEq

/-- A key of the deployment cache. Every writer stores an entry of the challenge that the key is
made from; a value that cannot be read has no `dto`. -/
structure CacheEntry where
  challengeId : Nat
  teamId : Int
  dto : Option ChallengeDeploymentCacheDTO
  own : ∀ d ∈ dto, d.challenge_id = challengeId := by simp

/-- What the services read: the clock, the database, the deployment cache and, by their full
paths, the files of the mounted directory. -/
@[ext]
structure Portal where
  now : Int := 0
  db : Db
  deployments : List CacheEntry := []
  disk : String → Option String := fun _ => none

namespace Portal

variable (p : Portal)

def entry (challengeId : Nat) (teamId : Int) : Option CacheEntry :=
  p.deployments.find? fun e => e.challengeId = challengeId && e.teamId = teamId

/-- `KeyExistsAsync` for `GetCacheKey`. -/
def keyExists (challengeId : Nat) (teamId : Int) : Bool := (p.entry challengeId teamId).isSome

/-- `GetFromCacheAsync` for `GetCacheKey`. -/
def getFromCache (challengeId : Nat) (teamId : Int) : Option ChallengeDeploymentCacheDTO :=
  (p.entry challengeId teamId).bind CacheEntry.dto

end Portal

structure FileLink where
  location : Option String
  token : FileToken
  deriving Repr, DecidableEq

structure ChallengeDataDto where
  id : Nat
  name : String
  description : Option String
  maxAttempts : Option Int
  attempts : Nat
  maxDeployCount : Option Int
  deployedCount : Nat
  category : Option String
  timeLimit : Option Int
  requireDeploy : Bool
  connectionProtocol : String
  type : Option String
  nextId : Option Nat
  nextName : Option String
  solveByMyteam : Bool
  kypoSubmitted : Bool
  files : List FileLink
  isCaptain : Bool
  captainOnlyStart : Bool
  captainOnlySubmit : Bool
  difficulty : Option Int
  sharedInstance : Bool
  deriving Repr, DecidableEq

/-- The part of the answer about a deployment that has started. -/
structure StartedView where
  message : String
  podStatus : Option DeploymentStatus
  challengeUrl : Option String
  timeRemaining : Option Int
  deriving Repr, DecidableEq

structure ChallengeByCategoryDTO where
  id : Nat
  name : String
  nextId : Option Nat
  maxAttempts : Option Int
  value : Option Int
  category : Option String
  timeLimit : Option Int
  connectionProtocol : String
  type : Option String
  requirements : Option ChallengeRequirementsDTO
  solveByMyteam : Bool
  kypoSubmitted : Bool
  podStatus : Option DeploymentStatus
  difficulty : Option Int
  deriving Repr, DecidableEq

structure ChallengeInstanceDTO where
  challengeId : Nat
  challengeName : String
  category : String
  status : Option DeploymentStatus
  challengeUrl : String
  ready : Bool
  expiresAt : Option Int
  deriving Repr, DecidableEq

/-- `Enums.DeploymentStatusEnum`, in the values that the endpoints answer with. -/
inductive DeploymentStatusEnum
  | Pending | Running | Deleting | Failed | PENDING_DEPLOY | NOT_FOUND
  deriving Repr, DecidableEq

structure ChallengeDeployResponeDTO where
  status : Nat
  success : Bool
  message : Option String := none
  challengeUrl : Option String := none
  timeLimit : Int := 0
  podStatus : Option DeploymentStatusEnum := none
  challengeType : Option String := none
  deriving Repr, DecidableEq

/-- `ChallengeHelper.ModifyDescription`. -/
def modifyDescription (challenge : Challenge) : Option String :=
  match challenge.description with
  | none => none
  | some text =>
    if !isNullOrWhiteSpace text && challenge.type = some "multiple_choice" then
      let lines := ((trim text).splitOn "\n").map trim
      let options := (lines.filter (hasPrefix · "* ()")).map fun line =>
        trim (String.ofList (line.toList.drop 4))
      let question := (lines.filter fun line => !hasPrefix line "* ()").foldl
        (fun question line => if question = "" then line else question ++ " " ++ line) ""
      if question = "" || options.isEmpty then some text
      else some (head (trim question) ++ String.join (options.zipIdx.map radio) ++ "</div>")
    else some text
where
  head (question : String) : String :=
    "<div className=\"space-y-4\">\r\n                        " ++
      "<p className=\"text-lg font-medium mb-4\">" ++ question ++ "<br /></p>"
  radio : String × Nat → String
    | (option, idx) =>
      "\r\n                    <div className=\"flex items-center\"><input \r\n" ++
      "                            type=\"radio\" \r\n" ++
      "                            name=\"radio-group\" \r\n" ++
      "                            value=\"" ++ option ++ "\" \r\n" ++
      "                            className=\"w-4 h-4 text-blue-600 border-gray-300 " ++
      "focus:ring-blue-500\" \r\n" ++
      "                        /><label \r\n" ++
      "                            htmlFor=\"option-" ++ Nat.repr idx ++ "\" \r\n" ++
      "                            className=\"ml-2 text-sm text-gray-700\"\r\n" ++
      "                        > " ++ option ++ "</label></div>"

namespace ChallengeService

variable (platform : Platform)

/-- `TryParseRequirements`. -/
def tryParseRequirements (requirements : Option String) : Option ChallengeRequirementsDTO :=
  match requirements with
  | none => none
  | some text =>
    if isNullOrWhiteSpace text then none else (platform.deserializeObject text).join

section Tables

variable (db : Db)

/-- Whether an id is among the challenges. -/
def isChallenge (id : Int) : Bool := db.challenges.any fun c => (c.id : Int) = id

/-- Whether a challenge is among the solves of a team; without a team, among those of none. -/
def solved (teamId : Option Nat) (id : Int) : Bool :=
  db.board.solves.any fun s => s.teamId = teamId && s.challengeId.any fun c => (c : Int) = id

/-- `IsUnlockedByPrerequisites`. -/
def isUnlockedByPrerequisites (requirements : Option ChallengeRequirementsDTO)
    (teamId : Option Nat) : Bool :=
  ((requirements.bind (·.prerequisites)).getD []).all fun id =>
    !isChallenge db id || solved db teamId id

/-- The challenge is neither locked nor left out of what the team sees. -/
def isShown (challenge : Challenge) (teamId : Option Nat) : Bool :=
  let requirements := tryParseRequirements platform challenge.requirements
  isUnlockedByPrerequisites db requirements teamId ||
    requirements.bind (·.anonymize) = some true

def isSandbox (challenge : Challenge) : Bool :=
  challenge.type.any (equalsIgnoreCase · "sandbox")

/-- `kypo_submitted`. -/
def kypoSubmitted (challenge : Challenge) (teamId : Option Nat) : Bool :=
  !solved db teamId challenge.id && isSandbox challenge && teamId.isSome &&
    db.trackings.any fun t => t.challengeId = challenge.id && t.teamId = teamId && t.stopped

/-- `http` unless there is another protocol. -/
def protocol (challenge : Challenge) : String :=
  if isNullOrWhiteSpace challenge.connectionProtocol then "http" else challenge.connectionProtocol

/-- `next_name`. -/
def nextName (challenge : Challenge) : Option String := do
  let next ← challenge.nextId.bind db.challenge
  if isHiddenCategory platform db next.category then none else next.name

def challengeData (challenge : Challenge) (user : Board.User) (team : Board.Account) :
    ChallengeDataDto where
  id := challenge.id
  name := challenge.name.getD ""
  description := modifyDescription challenge
  maxAttempts := challenge.maxAttempts
  attempts := db.submissions.countP fun s =>
    s.challengeId = some challenge.id && s.teamId = user.teamId
  maxDeployCount := challenge.maxDeployCount
  deployedCount := db.trackings.countP fun t =>
    t.challengeId = challenge.id && t.teamId = user.teamId
  category := challenge.category
  timeLimit := challenge.timeLimit
  requireDeploy := challenge.requireDeploy
  connectionProtocol := protocol challenge
  type := challenge.type
  nextId := challenge.nextId
  nextName := nextName platform db challenge
  solveByMyteam := solved db user.teamId challenge.id
  kypoSubmitted := kypoSubmitted db challenge user.teamId
  files := (db.files.filter fun f => f.challengeId = some challenge.id).map fun f =>
    { location := f.location, token := ⟨user.id, user.teamId, f.id⟩ }
  isCaptain := some user.id = db.captain team.id
  captainOnlyStart := db.config.captainOnlyStart.getD true
  captainOnlySubmit := db.config.captainOnlySubmit.getD true
  difficulty := if db.config.difficultyVisible then challenge.difficulty else none
  sharedInstance := challenge.sharedInstant

end Tables

variable (p : Portal)

/-- Seconds that are left; none where there is no limit. -/
def timeRemaining (time_finished : Int) : Option Int :=
  if 0 < time_finished then some (max (time_finished - p.now) 0) else none

/-- The team in the key of the deployment that a user is shown. -/
def instanceTeam (challenge : Challenge) (user : Board.User) : Int :=
  if challenge.sharedInstant then -2 else user.teamId.getD 0

/-- `GetById`: the data of the challenge, and what there is of its deployment; or a status and a
message. -/
def getById (challengeId : Nat) (user : Board.User) :
    Except (Nat × String) (ChallengeDataDto × Option StartedView) :=
  match p.db.challenge challengeId with
  | none => .error (404, "Challenge not found")
  | some challenge =>
    if challenge.state = "hidden" || isHiddenCategory platform p.db challenge.category then
      .error (404, "Challenge now is not available")
    else if !isShown platform p.db challenge user.teamId then
      .error (403, "You don't have the permission to access this challenge. " ++
        "Complete the required challenges first.")
    else
      match p.db.teamOf user with
      | none => .error nullReference
      | some team =>
        let data := challengeData platform p.db challenge user team
        match p.getFromCache challenge.id (instanceTeam challenge user) with
        | none => .ok (data, none)
        | some cached =>
          if cached.challenge_id = challenge.id then
            match p.db.user cached.user_id with
            | none => .error nullReference
            | some starter => .ok (data, some {
                message := "Challenge was started by: " ++ starter.name.getD ""
                podStatus := cached.status
                challengeUrl := cached.challenge_url
                timeRemaining := timeRemaining p cached.time_finished })
          else .ok (data, none)
where
  -- the controller answers every exception so
  nullReference : Nat × String :=
    (400, "An error occurred Object reference not set to an instance of an object.")

/-- The challenges of a category that a team is shown. -/
def listed (categoryName : String) (teamId : Nat) : List Challenge :=
  let challenges := p.db.challenges.filter fun c =>
    c.category.any (platform.collation.eq · categoryName) &&
      !platform.collation.eq c.state "hidden"
  challenges.filter fun c => isShown platform p.db c (some teamId)

def listItem (teamId : Nat) (challenge : Challenge) : ChallengeByCategoryDTO where
  id := challenge.id
  name := challenge.name.getD ""
  nextId := challenge.nextId
  maxAttempts := challenge.maxAttempts
  value := challenge.value
  category := challenge.category
  timeLimit := challenge.timeLimit
  connectionProtocol := protocol challenge
  type := challenge.type
  requirements := (tryParseRequirements platform challenge.requirements).map fun r =>
    { r with prerequisites := r.prerequisites.map (·.filter (isChallenge p.db)) }
  solveByMyteam := solved p.db (some teamId) challenge.id
  kypoSubmitted := kypoSubmitted p.db challenge (some teamId)
  podStatus :=
    if challenge.requireDeploy then (p.getFromCache challenge.id teamId).bind (·.status) else none
  difficulty := if p.db.config.difficultyVisible then challenge.difficulty else none

/-- `GetChallengeByCategories`. -/
def getChallengeByCategories (categoryName : String) (teamId : Nat) :
    List ChallengeByCategoryDTO :=
  if isHiddenCategory platform p.db (some categoryName) then []
  else (listed platform p categoryName teamId).map (listItem platform p teamId)

/-- A deployment in the list of instances, unless its category is hidden. -/
def instanceItem (e : CacheEntry) : Option ChallengeInstanceDTO := do
  let cached ← e.dto
  let challenge ← p.db.challenge cached.challenge_id
  if isHiddenCategory platform p.db challenge.category then none
  else some {
    challengeId := cached.challenge_id
    challengeName := challenge.name.getD ""
    category := challenge.category.getD ""
    status := cached.status
    challengeUrl := cached.challenge_url.getD "N/A"
    ready := cached.ready
    expiresAt := some cached.time_finished |>.filter (0 < ·) }

/-- `GetAllInstances`. -/
def getAllInstances (teamId : Nat) : List ChallengeInstanceDTO :=
  (p.deployments.filter fun e => e.teamId = (teamId : Int)).filterMap (instanceItem platform p)

/-- `CheckChallengeStart`. -/
def checkChallengeStart (challengeId : Nat) (teamId : Int) : ChallengeDeployResponeDTO :=
  match p.db.challenge challengeId with
  | none => notFound
  | some challenge =>
    if challenge.state = "hidden" || isHiddenCategory platform p.db challenge.category then notFound
    else
      match p.getFromCache challengeId teamId with
      | none => { status := 200, success := false, message := some "No deployment info found.",
                  podStatus := some .NOT_FOUND }
      | some deploymentCache =>
        if deploymentCache.status = some .PENDING_DEPLOY then
          { status := 200, success := false, message := some "Challenge is waitting to deploy",
            podStatus := some .PENDING_DEPLOY }
        else if deploymentCache.status = some .PENDING then
          { status := 200, success := false, message := some "Challenge is currently deploying",
            podStatus := some .Pending }
        else if deploymentCache.status = some .RUNING && deploymentCache.ready then
          { status := 200, success := true, message := some "Pod is running.",
            challengeUrl := deploymentCache.challenge_url,
            timeLimit := challenge.timeLimit.getD (-1), podStatus := some .Running }
        else if deploymentCache.status = some .DELETING then
          { status := 200, success := true, message := some "Pod is deleting.",
            podStatus := some .Deleting }
        else
          { status := 404, success := false, message := some "Pod is not running.",
            podStatus := some .Failed }
where
  notFound : ChallengeDeployResponeDTO :=
    { status := 404, success := false, message := some "Challenge not found.",
      podStatus := some .Failed }

end ChallengeService

end Fctf.Contest
