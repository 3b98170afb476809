import Fctf.Deploy.Data
import Fctf.Kypo.Api
import Fctf.Scoring.Database
import Fctf.Scoring.ScoreHelper

/-!
The tables behind the contestants' endpoints, and what the endpoints take from .NET and from
the database: how texts compare and how a JSON text is read.
-/

namespace Fctf.Contest

structure Challenge where
  id : Nat
  name : Option String := none
  description : Option String := none
  category : Option String := none
  type : Option String := some "standard"
  state : String := "visible"
  /-- A JSON text. -/
  requirements : Option String := none
  maxAttempts : Option Int := some 0
  value : Option Int := none
  nextId : Option Nat := none
  timeLimit : Option Int := none
  requireDeploy : Bool := false
  cooldown : Option Int := none
  maxDeployCount : Option Int := none
  difficulty : Option Int := none
  sharedInstant : Bool := false
  connectionProtocol : String := ""
  deriving Repr, DecidableEq

structure File where
  id : Nat
  type : Option String := some "challenge"
  location : Option String
  challengeId : Option Nat
  deriving Repr, DecidableEq

structure Flag where
  id : Nat
  challengeId : Option Nat
  type : Option String := some "static"
  content : Option String
  data : Option String := none
  deriving Repr, DecidableEq

/-- A row of `challenge_start_tracking`. -/
structure StartTracking where
  challengeId : Nat
  teamId : Option Nat
  stopped : Bool
  deriving Repr, DecidableEq

structure Submission where
  challengeId : Option Nat
  userId : Option Nat
  teamId : Option Nat
  type : SubmissionType
  provided : Option String
  deriving Repr, DecidableEq

structure KypoChallengeConfig where
  challengeId : Nat
  accessToken : Option String
  instanceType : String := "linear"
  baseUrl : Option String := none
  deriving Repr, DecidableEq

structure KypoTeamAccount where
  teamId : Nat
  username : Option String
  /-- As it is stored, encrypted. -/
  password : Option String
  deriving Repr, DecidableEq

/-- What `ConfigHelper` reads; a value that is missing is `none`. -/
structure Config where
  paused : Bool := false
  captainOnlyStart : Option Bool := none
  captainOnlySubmit : Option Bool := none
  difficultyVisible : Bool := false
  incorrectSubmissionsPerMin : Option Int := none
  limitChallenges : Int := 3
  ctfName : String := ""
  deriving Repr, DecidableEq

structure Hint where
  id : Nat
  type : Option String := some "standard"
  challengeId : Option Nat
  content : Option String
  cost : Option Int
  /-- A JSON text. -/
  requirements : Option String := none
  deriving Repr, DecidableEq

structure Unlock where
  id : Nat
  userId : Option Nat
  teamId : Option Nat
  target : Option Nat
  type : Option String
  deriving Repr, DecidableEq

structure ChallengeRequirementsDTO where
  prerequisites : Option (List Int)
  anonymize : Option Bool := none
  deriving Repr, DecidableEq

/-- What a link to a file signs. -/
structure FileToken where
  userId : Nat
  teamId : Option Nat
  fileId : Nat
  deriving Repr, DecidableEq

/-- What the services use of .NET and of the database. A reader's `none` is an exception. -/
structure Platform where
  collation : Collation
  /-- `StringComparer.OrdinalIgnoreCase`. -/
  ignoreCase : String → String → Bool
  /-- `System.Text.Json.JsonSerializer.Deserialize`. -/
  deserialize : String → Option (Option ChallengeRequirementsDTO)
  /-- `Newtonsoft.Json.JsonConvert.DeserializeObject`. -/
  deserializeObject : String → Option (Option ChallengeRequirementsDTO)
  /-- `System.Text.Json.JsonDocument.Parse`. -/
  parse : String → Option JsonElement
  /-- `ItsDangerousCompatHelper.Loads`: a signed token, or the message of an exception. -/
  loads : String → Except String (Option FileToken)
  /-- `NFS_MOUNT_PATH`. -/
  mountPath : String
  /-- `Path.GetFullPath` of a path below the mounted directory. -/
  fullPath : String → String
  /-- `FileInfo.Name`. -/
  fileName : String → String
  /-- `Uri.EscapeDataString`. -/
  escapeDataString : String → String
  /-- `char.ToLowerInvariant`. -/
  toLowerInvariant : Char → Char
  /-- `Regex.Match`: whether a pattern, regardless of case or not, matches the whole text. -/
  regexMatch : Bool → String → String → Option Bool

/-- MySQL and .NET on texts that differ in their cases only; no text is read as JSON, as a token
or as a pattern. -/
def plainPlatform : Platform where
  collation := .ignoreCase
  ignoreCase := Collation.ignoreCase.eq
  deserialize := fun _ => none
  deserializeObject := fun _ => none
  parse := fun _ => none
  loads := fun _ => .ok none
  mountPath := "/mnt/"
  fullPath := fun path => "/mnt/" ++ path
  fileName := fun path => path
  escapeDataString := fun text => text
  toLowerInvariant := Char.toLower
  regexMatch := fun _ _ _ => none

/-- The database. Users, teams, solves and awards are those of the standings. -/
@[ext]
structure Db where
  board : Board.Db
  /-- `ConfigHelper.HiddenCategories`. -/
  hiddenCategories : List String := []
  challenges : List Challenge := []
  hints : List Hint := []
  unlocks : List Unlock := []
  files : List File := []
  flags : List Flag := []
  trackings : List StartTracking := []
  /-- The columns of `submissions` beside those of the standings. -/
  submissions : List Submission := []
  kypoConfigs : List KypoChallengeConfig := []
  kypoAccounts : List KypoTeamAccount := []
  /-- `Team.CaptainId`. -/
  captain : Nat → Option Nat := fun _ => none
  config : Config := {}
  files_pk : (files.map File.id).Nodup := by decide

namespace Db

variable (db : Db)

def challenge (id : Nat) : Option Challenge := db.challenges.find? fun c => c.id = id

def hint (id : Nat) : Option Hint := db.hints.find? fun h => h.id = id

def user (id : Nat) : Option Board.User := db.board.users.find? fun u => u.id = id

/-- `challenge` of a hint. -/
def challengeOf (hint : Hint) : Option Challenge := hint.challengeId.bind db.challenge

/-- `user.Team`. -/
def teamOf (user : Board.User) : Option Board.Account :=
  user.teamId.bind fun id => db.board.teams.find? fun t => t.id = id

end Db

/-- `IsHiddenCategory`. -/
def isHiddenCategory (platform : Platform) (db : Db) : Option String → Bool
  | none => false
  | some category =>
    !isNullOrWhiteSpace category && db.hiddenCategories.any (platform.ignoreCase (trim category))

end Fctf.Contest
