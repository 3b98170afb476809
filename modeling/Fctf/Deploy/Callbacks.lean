import Fctf.Lib.Table
import Fctf.Text

/-!
The callbacks of a workflow that deploys a challenge. The status of the workflow is translated
before it is compared, and the comparison is with the words from before the translation.
-/

namespace Fctf.Callbacks

/-! ### The words of `Enums` -/

namespace ChallengeState

def VISIBLE : String := "visible"
def HIDDEN : String := "hidden"

end ChallengeState

namespace DeploymentStatus

def FAILED : String := "Failed"
def SUCCEEDED : String := "Succeeded"
def PENDING_DEPLOY : String := "PENDING_DEPLOY"
def DEPLOY_FAILED : String := "DEPLOY_FAILED"
def DEPLOY_SUCCEEDED : String := "DEPLOY_SUCCEEDED"

end DeploymentStatus

open DeploymentStatus

def getDeploymentStatus (status : String) : String :=
  if isNullOrWhiteSpace status then PENDING_DEPLOY
  else if equalsIgnoreCase status FAILED then DEPLOY_FAILED
  else if equalsIgnoreCase status SUCCEEDED then DEPLOY_SUCCEEDED
  else PENDING_DEPLOY

/-! ### The handler -/

structure Challenge where
  id : Nat
  state : String
  deployStatus : Option String := none

structure DeployHistory where
  challengeId : Nat
  deployStatus : String
  deployAt : Int
  logContent : Option String

structure Database where
  challenges : Table Challenge.id
  deployHistories : List DeployHistory := []

structure WorkflowStatusDTO where
  challengeId : Option Nat
  status : Option String
  workFlowName : Option String := none

structure BaseResponseDTO where
  success : Bool
  message : String
  httpStatusCode : Nat
  deriving DecidableEq, Repr

/-- A callback, when it comes, and whether the database saves what it changes. -/
structure Callback where
  message : WorkflowStatusDTO
  now : Int := 0
  saved : Bool := true

/-- What the two branches make of the state of a challenge and of the status for the history. -/
def applyStatus (deployStatus state : String) : String × String :=
  if deployStatus = SUCCEEDED then (ChallengeState.VISIBLE, DEPLOY_SUCCEEDED)
  else if deployStatus = FAILED then (ChallengeState.HIDDEN, DEPLOY_FAILED)
  else (state, deployStatus)

def handleMessageUpChallenge (db : Database) (callback : Callback) : Database × BaseResponseDTO :=
  let message := callback.message
  match message.challengeId.bind db.challenges.find with
  | none => (db, ⟨false, "Challenge not found", 404⟩)
  | some challenge =>
    let deployStatus := getDeploymentStatus (message.status.getD "")
    let (state, historyStatus) := applyStatus deployStatus challenge.state
    let history : DeployHistory :=
      ⟨challenge.id, historyStatus, callback.now, message.workFlowName⟩
    if callback.saved then
      (⟨db.challenges.update challenge.id
          (fun c => { c with state := state, deployStatus := some deployStatus }) (fun _ => rfl),
        db.deployHistories ++ [history]⟩,
        ⟨true, "Message from Argo processed successfully", 200⟩)
    else (db, ⟨false, "Internal server error", 500⟩)

/-- The database after callbacks, one after the other. -/
def afterCallbacks (db : Database) (callbacks : List Callback) : Database :=
  callbacks.foldl (fun db callback => (handleMessageUpChallenge db callback).1) db

/-! ### Terminal statuses -/

/-- The state that a status demands, when it is terminal: the reading of `getDeploymentStatus`. -/
def demandedState (status : String) : Option String :=
  if getDeploymentStatus status = DEPLOY_SUCCEEDED then some ChallengeState.VISIBLE
  else if getDeploymentStatus status = DEPLOY_FAILED then some ChallengeState.HIDDEN
  else none

/-- What the latest terminal status for a challenge demands. -/
def latestDemand (demanded : String → Option String) (id : Nat) (callbacks : List Callback) :
    Option String :=
  (callbacks.filter fun c => c.message.challengeId = some id).reverse.findSome? fun c =>
    demanded (c.message.status.getD "")

/-! ### The branches -/

/-- No status is translated to one of the two words that the branches ask for. -/
theorem getDeploymentStatus_ne (status : String) :
    getDeploymentStatus status ≠ SUCCEEDED ∧ getDeploymentStatus status ≠ FAILED := by
  unfold getDeploymentStatus
  split_ifs <;> decide

theorem applyStatus_getDeploymentStatus (status state : String) :
    applyStatus (getDeploymentStatus status) state = (state, getDeploymentStatus status) := by
  obtain ⟨hsucceeded, hfailed⟩ := getDeploymentStatus_ne status
  rw [applyStatus, if_neg hsucceeded, if_neg hfailed]

theorem find_state_update {challenges : Table Challenge.id} {challenge : Challenge}
    (deployStatus : Option String) (id : Nat)
    (hfind : challenges.find challenge.id = some challenge) :
    ((challenges.update challenge.id
        (fun c => { c with state := challenge.state, deployStatus := deployStatus })
        (fun _ => rfl)).find id).map Challenge.state =
      (challenges.find id).map Challenge.state := by
  rw [Table.find_update]
  split_ifs with hid
  · rw [hid, hfind]
    rfl
  · rfl

/-- One callback leaves the state of every challenge. -/
theorem handleMessageUpChallenge_state (db : Database) (callback : Callback) (id : Nat) :
    ((handleMessageUpChallenge db callback).1.challenges.find id).map Challenge.state =
      (db.challenges.find id).map Challenge.state := by
  cases hfound : callback.message.challengeId.bind db.challenges.find with
  | none => simp only [handleMessageUpChallenge, hfound]
  | some challenge =>
    obtain ⟨challengeId, -, hfind⟩ := Option.bind_eq_some_iff.mp hfound
    obtain rfl := Table.key_of_find hfind
    simp only [handleMessageUpChallenge, hfound, applyStatus_getDeploymentStatus]
    split_ifs with hsaved
    · exact find_state_update _ id hfind
    · rfl

theorem afterCallbacks_state (db : Database) (callbacks : List Callback) (id : Nat) :
    ((afterCallbacks db callbacks).challenges.find id).map Challenge.state =
      (db.challenges.find id).map Challenge.state := by
  induction callbacks generalizing db with
  | nil => rfl
  | cons callback callbacks ih =>
    rw [afterCallbacks, List.foldl_cons]
    exact (ih _).trans (handleMessageUpChallenge_state db callback id)

/-- After all callbacks a challenge is as the latest terminal status demands exactly when it was
so before them, whichever statuses count as terminal. -/
theorem visibility_iff (demanded : String → Option String) (db : Database)
    (callbacks : List Callback) (id : Nat) :
    ((afterCallbacks db callbacks).challenges.find id).map Challenge.state =
        (db.challenges.find id).map (fun c => (latestDemand demanded id callbacks).getD c.state) ↔
      ∀ c ∈ db.challenges.find id, ∀ state ∈ latestDemand demanded id callbacks,
        c.state = state := by
  rw [afterCallbacks_state]
  cases db.challenges.find id with
  | none => simp
  | some c => cases latestDemand demanded id callbacks <;> simp

/-- A challenge stays hidden when it has been deployed. -/
theorem deployed_hidden : ¬ ∀ (db : Database) (callbacks : List Callback) (id : Nat),
    ((afterCallbacks db callbacks).challenges.find id).map Challenge.state =
      (db.challenges.find id).map
        fun c => (latestDemand demandedState id callbacks).getD c.state := by
  intro h
  have hstate := h ⟨⟨[⟨3, "hidden", none⟩], by simp⟩, []⟩
    [⟨⟨some 3, some "Succeeded", none⟩, 0, true⟩] 3
  rw [afterCallbacks_state] at hstate
  exact absurd hstate (by decide)

/-- Beside the state, a callback that is saved does leave its status with the challenge. -/
theorem handleMessageUpChallenge_deployStatus (db : Database) (callback : Callback)
    (challenge : Challenge) (hsaved : callback.saved = true)
    (hfind : callback.message.challengeId.bind db.challenges.find = some challenge) :
    (((handleMessageUpChallenge db callback).1.challenges.find challenge.id).bind
        Challenge.deployStatus) =
      some (getDeploymentStatus (callback.message.status.getD "")) := by
  obtain ⟨challengeId, -, hfound⟩ := Option.bind_eq_some_iff.mp hfind
  obtain rfl := Table.key_of_find hfound
  simp only [handleMessageUpChallenge, hfind, hsaved, if_true, Table.find_update, hfound,
    applyStatus_getDeploymentStatus, Option.map_some, Option.bind_some]

end Fctf.Callbacks
