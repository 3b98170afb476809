import Std.Data.String.ToInt
import Mathlib.Data.Int.Basic
import Mathlib.Data.List.Basic
import Fctf.Text

/-!
The data that the deployment services exchange: the cache entry of a
deployment, its status, the access token handed to the contestant, and the
names of the Redis keys. Times are whole Unix seconds.
-/

namespace Fctf

/-- `Enums.DeploymentStatus`. -/
inductive DeploymentStatus
  | INITIAL | PENDING | RUNING | STOPPED | DELETING | FAILED | SUCCEEDED
  | PENDING_DEPLOY | DEPLOY_FAILED | DEPLOY_SUCCEEDED
  deriving Repr, DecidableEq

/-- `Enums.DeploymentCheckResult`, in the values that the script returns. -/
inductive DeploymentCheckResult
  | Pass | LimitExceeded | AlreadyExists
  deriving Repr, DecidableEq

/-- What a challenge token signs. -/
structure Payload where
  exp : Int
  route : String
  deployment_key : String
  deriving Repr, DecidableEq

/-- A token with a valid signature. Signatures cannot be forged, so such a
token is as good as the payload it was made for. -/
structure Token where
  payload : Payload
  deriving Repr, DecidableEq

/-- `ChallengeDeploymentCacheDTO`. An empty `challenge_url` is `none`. The last
field is no part of the entry: it records for which start of the challenge the
entry was first written, and no code reads it. -/
structure ChallengeDeploymentCacheDTO where
  challenge_id : Nat := 0
  team_id : Int := 0
  _namespace : String := ""
  pod_id : String := ""
  workflow_name : String := ""
  challenge_url : Option Token := none
  time_finished : Int := 0
  status : DeploymentStatus
  ready : Bool := false
  origin : Nat := 0
  deriving Repr, DecidableEq

/-- A row of `challenge_start_tracking`. A session of a KYPO challenge has the label
`kypo`, a Kubernetes deployment its namespace. -/
structure ChallengeStartTracking where
  id : Nat
  userId : Option Nat := none
  teamId : Option Int
  challengeId : Nat
  startedAt : Int
  stoppedAt : Option Int := none
  label : Option String
  deriving Repr, DecidableEq

/-- `ChallengeHelper.GetCacheKey`. -/
def getCacheKey (challengeId : Nat) (teamId : Int) : String :=
  "deploy_challenge_" ++ Nat.repr challengeId ++ "_" ++ toString teamId

/-- `ChallengeHelper.GetZSetKKey`. -/
def getZSetKKey (teamId : Int) : String := "active_deploys_team_" ++ toString teamId

/-- `ChallengeHelper.GenerateChallengeToken`. -/
def generateChallengeToken (routeInfo : String) (expiryUtc : Int) (deploymentKey : String) :
    Token :=
  ⟨{ exp := expiryUtc, route := routeInfo, deployment_key := deploymentKey }⟩

/-- The key of a route's tombstone. -/
def revokedKey (route : String) : String := "fctf:gateway:revoked:" ++ route

/-- A key of a deployment tells its challenge and its team. -/
theorem getCacheKey_eq {c c' : Nat} {teamId teamId' : Int} :
    getCacheKey c teamId = getCacheKey c' teamId' ↔ c = c' ∧ teamId = teamId' :=
  idKey_inj

@[simp] theorem getZSetKKey_inj {teamId teamId' : Int} :
    getZSetKKey teamId = getZSetKKey teamId' ↔ teamId = teamId' :=
  (String.append_right_inj _).trans Int.repr_inj

@[simp] theorem revokedKey_inj {route route' : String} :
    revokedKey route = revokedKey route' ↔ route = route' :=
  String.append_right_inj _

end Fctf
