import Fctf.Kypo.Api

/-!
The two writers of KYPO solves: `KypoScoreLockService`, which credits one team
when its session ends, and the poller of the management platform, which goes
through all participants of an instance. Both look only at the answers of KYPO.
-/

namespace Fctf

open JsonElement KypoApiClient

structure KypoChallengeConfig where
  challengeId : Nat
  kypoBaseUrl : Option String
  kypoInstanceId : Int
  deriving Repr, DecidableEq

structure KypoTeamAccount where
  teamId : Int
  kypoUserId : Option String
  deriving Repr, DecidableEq

inductive KypoLockResult
  | Solved | AlreadySolved | NotDone | ApiError
  deriving Repr, DecidableEq

/-- Everything that one `LockScoreAsync` reads: the database, the caches, and the answers
of KYPO and Keycloak. -/
structure LockInput where
  config : Option KypoChallengeConfig
  alreadySolved : Bool
  progress : HttpReply
  accounts : List KypoTeamAccount
  /-- `_runTeamCache`. -/
  runTeam : Int → Option Int
  runSub : Int → Option String
  participant : Int → HttpReply
  subKeycloak : String → Option String
  users : String → HttpReply
  levelCount : Option Int
  trainingInstance : HttpReply
  trainingDefinition : Int → HttpReply
  captain : Option Nat
  /-- Whether `InsertSolveAsync` gets through. -/
  inserts : Bool

/-- How an attempt ends: its result, `none` for an exception, and the run that the solve
is inserted for. -/
structure LockOutcome where
  result : Option KypoLockResult
  credited : Option KypoProgressEntry := none

namespace LockInput

/-- `ToDictionary` over the accounts with a user id; an exception when two have the same. -/
def keycloakIdToTeam (accounts : List KypoTeamAccount) : Option (String → Option Int) :=
  let pairs := accounts.filterMap fun a =>
    (a.kypoUserId.filter (· ≠ "")).map fun id => (id, a.teamId)
  if (pairs.map Prod.fst).Nodup then
    some fun id => (pairs.find? fun p => p.1 == id).map Prod.snd
  else none

/-- The team that an entry is mapped to. -/
def teamOf (input : LockInput) (teams : String → Option Int) (runId : Int) : Option Int :=
  if 0 < runId then
    match input.runTeam runId with
    | some teamId => some teamId
    | none => do
      let sub ← (getParticipantSub (input.runSub runId) (input.participant runId)).filter (· ≠ "")
      let id ← (getKeycloakUserIdBySub (input.subKeycloak sub) (input.users sub)).filter (· ≠ "")
      (teams id).filter (· ≠ 0)
  else none

/-- The first of the entries with the highest run id. -/
def newest : List KypoProgressEntry → Option KypoProgressEntry
  | [] => none
  | entry :: entries =>
    match newest entries with
    | some best => if entry.runId < best.runId then some best else some entry
    | none => some entry

/-- `expectedLevelCount`; an exception leaves it 0. -/
def expectedLevelCount (input : LockInput) : Int :=
  (getTrainingDefinitionLevelCount input.levelCount input.trainingInstance
    input.trainingDefinition).getD 0

/-- `allDone`. -/
def allDone (input : LockInput) (entry : KypoProgressEntry) : Bool :=
  let levelCountOk := input.expectedLevelCount ≤ 0 || input.expectedLevelCount ≤ entry.levels.length
  0 < entry.levels.length && entry.levels.all (·.isCompleted) && levelCountOk

section Lock

variable (tryParse : String → Option Int)

/-- The entry of the team's newest run, as far as the steps before the completion check
get to one. The other outcome ends the attempt. -/
def teamEntry (input : LockInput) (teamId : Int) :
    Except (Option KypoLockResult) KypoProgressEntry :=
  match input.config with
  | none => .error (some .NotDone)
  | some config =>
    if input.alreadySolved then .error (some .AlreadySolved)
    else if isNullOrWhiteSpace (config.kypoBaseUrl.getD "") then .error (some .NotDone)
    else
      match getInstanceProgress tryParse input.progress with
      | none => .error (some .ApiError)
      | some progressList =>
        match keycloakIdToTeam input.accounts with
        | none => .error none
        | some teams =>
          match newest (progressList.filter fun entry =>
              input.teamOf teams entry.runId = some teamId) with
          | none => .error (some .NotDone)
          | some entry => .ok entry

/-- `LockScoreAsync`. -/
def lockScore (input : LockInput) (teamId : Int) : LockOutcome :=
  match input.teamEntry tryParse teamId with
  | .error result => { result }
  | .ok entry =>
    if !input.allDone entry then { result := some .NotDone }
    else
      match input.captain with
      | none => { result := some .NotDone }
      | some _ =>
        if input.inserts then { result := some .Solved, credited := some entry }
        else { result := some .ApiError }

end Lock

end LockInput

/-! ### The poller -/

namespace Poller

/-- Python's truth value. -/
def truthy : JsonElement → Bool
  | .null => false
  | .bool b => b
  | .integer n => n ≠ 0
  | .decimal truncated => truncated ≠ 0
  | .string s => s ≠ ""
  | .array items => !items.isEmpty
  | .object members => !members.isEmpty

/-- `dict.get`, with null for a missing key. -/
def get (e : JsonElement) (name : String) : Option JsonElement :=
  (e.tryGetProperty name).map (·.getD .null)

/-- The items of `events or []`. -/
def eventsOf (level : JsonElement) : Option (List JsonElement) := do
  let events ← get level "events"
  if truthy events then
    match events with
    | .array items => some items
    -- the keys of a dict and the characters of a text have no `get`
    | _ => none
  else some []

/-- `"LevelCompleted" in (e.get("type") or "")`. -/
def isCompletedEvent (event : JsonElement) : Option Bool := do
  let type ← get event "type"
  if truthy type then
    match type with
    | .string s => some (hasSubstring s "LevelCompleted")
    | .array items => some (items.any fun item =>
        match item with
        | .string s => s == "LevelCompleted"
        | _ => false)
    | .object members => some (members.any fun m => m.1 == "LevelCompleted")
    | _ => none
  else some false

/-- `any`, which looks no further than the first hit. -/
def anyCompletedEvent : List JsonElement → Option Bool
  | [] => some false
  | event :: events => do
    if ← isCompletedEvent event then some true else anyCompletedEvent events

section Python

-- what stands for `str.upper` and for `int`
variable (upper : String → String) (int : JsonElement → Option Int)

/-- `(level.get("state") or "").upper()`. -/
def stateOf (level : JsonElement) : Option String := do
  let state ← get level "state"
  if truthy state then
    match state with
    | .string s => some (upper s)
    | _ => none
  else some ""

/-- `_get_level_score`. -/
def getLevelScore (level : JsonElement) : Option Int := do
  let events ← eventsOf level
  let completed ← events.filterM isCompletedEvent
  match completed.getLast? with
  | some event => int (orZero (← get event "actual_score_in_level"))
  | none =>
    match ← get level "score" with
    | .null => some 0
    | direct => int (orZero direct)
where
  orZero (value : JsonElement) : JsonElement := if truthy value then value else .integer 0

/-- `_level_is_completed`. -/
def levelIsCompleted (level : JsonElement) : Option Bool := do
  if (← stateOf upper level) = "FINISHED" then some true
  else anyCompletedEvent (← eventsOf level)

/-- `all`, which looks no further than the first miss. -/
def allCompleted : List JsonElement → Option Bool
  | [] => some true
  | level :: levels => do
    if ← levelIsCompleted upper level then allCompleted levels else some false

inductive RunStatus
  | NOT_STARTED | IN_PROGRESS | FINISHED
  deriving Repr, DecidableEq

/-- `_calc_status_and_score`. -/
def calcStatusAndScore (levels : JsonElement) : Option (RunStatus × Int) :=
  if !truthy levels then some (.NOT_STARTED, 0)
  else
    match levels with
    | .array levels => do
      let total := (← levels.mapM (getLevelScore int)).sum
      let states ← levels.mapM (stateOf upper)
      if ← allCompleted upper levels then return (.FINISHED, total)
      else if states.any fun s => s = "RUNNING" || s = "FINISHED" then return (.IN_PROGRESS, total)
      else return (.NOT_STARTED, total)
    | _ => none

/-- What one poll of an instance reads: the body, the lookup of a participant's name, whether
Redis takes a team's progress, which teams have a solve, and whether the database takes a
team's rows. -/
structure PollInput where
  progress : HttpReply
  teamOf : JsonElement → Option (Option Int)
  cached : Int → Bool
  solved : Int → Bool
  inserts : Int → Bool

/-- What the loop makes of a participant: its team, and its status. An exception is `none`. -/
def participantStatus (input : PollInput) (participant : JsonElement) :
    Option (Option (Int × RunStatus)) := do
  let name := (← participant.tryGetProperty "name").getD (.string "")
  match ← input.teamOf name with
  | none => some none
  | some teamId =>
    let (status, _) ← calcStatusAndScore upper int (← get participant "levels")
    if input.cached teamId then some (some (teamId, status)) else none

/-- The loop over the participants: those that a solve is inserted for. An exception ends
the loop; `_insert_solve` inserts nothing for a team with a solve. -/
def creditedAmong (input : PollInput) (solved : Int → Bool) : List JsonElement → List JsonElement
  | [] => []
  | participant :: participants =>
    match participantStatus upper int input participant with
    | none => []
    | some (some (teamId, .FINISHED)) =>
      if !solved teamId && input.inserts teamId then
        participant :: creditedAmong input (fun t => t = teamId || solved t) participants
      else creditedAmong input solved participants
    | some _ => creditedAmong input solved participants

/-- The participants of the body. -/
def participantsOf (reply : HttpReply) : List JsonElement :=
  match reply.json.bind fun data => get data "progress" with
  | some (.array participants) => participants
  | _ => []

/-- `_sync_instance`. -/
def syncInstance (input : PollInput) : List JsonElement :=
  creditedAmong upper int input input.solved (participantsOf input.progress)

end Python

end Poller

end Fctf
