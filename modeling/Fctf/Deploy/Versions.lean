import Fctf.Lib.Snapshot
import Fctf.Lib.Table

/-!
The image of a challenge and its versions. The upload of an archive, the removal of a deployment,
the rollback to a version and the edit of a challenge change them, each in one transaction. What
a transaction reads is as old as its first query; its statements change the rows as they are now,
and of an object only the columns that it has changed.
-/

namespace Fctf.Versions

/-! ### Rows -/

/-- What a challenge and a version say about the pods. -/
structure Config where
  cpuLimit : Option Nat := none
  cpuRequest : Option Nat := none
  memoryLimit : Option Nat := none
  memoryRequest : Option Nat := none
  useGvisor : Option Bool := none
  hardenContainer : Option Bool := some true
  maxDeployCount : Option Nat := some 0
  deriving DecidableEq, Repr

structure Challenge where
  id : Nat
  sandbox : Bool := false
  state : String := "visible"
  requireDeploy : Bool := false
  deployStatus : Option String := some "CREATED"
  imageLink : Option String := none
  deployFile : Option String := none
  config : Config := {}
  deriving DecidableEq, Repr

structure ChallengeVersion where
  id : Nat
  challengeId : Nat
  versionNumber : Nat := 1
  imageLink : Option String := none
  deployFile : Option String := none
  config : Config := {}
  isActive : Bool := false
  deriving DecidableEq, Repr

/-- The row after the versions of a challenge are set inactive. -/
def ChallengeVersion.deactivated (challengeId : Nat) (v : ChallengeVersion) : ChallengeVersion :=
  { v with isActive := v.isActive && decide (v.challengeId ≠ challengeId) }

/-- The row after a version is set active. -/
def ChallengeVersion.activated (id : Nat) (v : ChallengeVersion) : ChallengeVersion :=
  { v with isActive := v.isActive || decide (v.id = id) }

/-- Every version is one of a challenge that is there. -/
structure Database where
  challenges : Table Challenge.id := {}
  versions : Table ChallengeVersion.id := {}
  references : ∀ v ∈ versions.rows, (challenges.find v.challengeId).isSome = true := by decide

/-! ### Statements -/

section Flush

/-- A column of an object is written when it is not as it was loaded. -/
def written {α : Type} [DecidableEq α] (loaded changed current : α) : α :=
  if changed = loaded then current else changed

def Config.flush (loaded changed current : Config) : Config where
  cpuLimit := written loaded.cpuLimit changed.cpuLimit current.cpuLimit
  cpuRequest := written loaded.cpuRequest changed.cpuRequest current.cpuRequest
  memoryLimit := written loaded.memoryLimit changed.memoryLimit current.memoryLimit
  memoryRequest := written loaded.memoryRequest changed.memoryRequest current.memoryRequest
  useGvisor := written loaded.useGvisor changed.useGvisor current.useGvisor
  hardenContainer := written loaded.hardenContainer changed.hardenContainer current.hardenContainer
  maxDeployCount := written loaded.maxDeployCount changed.maxDeployCount current.maxDeployCount

def Challenge.flush (loaded changed current : Challenge) : Challenge where
  id := current.id
  sandbox := current.sandbox
  state := written loaded.state changed.state current.state
  requireDeploy := written loaded.requireDeploy changed.requireDeploy current.requireDeploy
  deployStatus := written loaded.deployStatus changed.deployStatus current.deployStatus
  imageLink := written loaded.imageLink changed.imageLink current.imageLink
  deployFile := written loaded.deployFile changed.deployFile current.deployFile
  config := loaded.config.flush changed.config current.config

theorem Challenge.flush_id (loaded changed current : Challenge) :
    (loaded.flush changed current).id = current.id := rfl

end Flush

namespace Database

variable (db : Database)

/-- `UPDATE challenges`, for an object that was loaded and changed. -/
def flush (loaded changed : Challenge) : Database where
  challenges := db.challenges.update loaded.id (loaded.flush changed)
    (Challenge.flush_id loaded changed)
  versions := db.versions
  references := by
    intro v hv
    rw [Table.find_update]
    split
    · simpa using db.references v hv
    · exact db.references v hv

/-- `UPDATE challenge_versions SET is_active = false`, for a challenge. -/
def deactivate (challengeId : Nat) : Database where
  challenges := db.challenges
  versions := db.versions.modify (ChallengeVersion.deactivated challengeId) fun _ => rfl
  references := by
    intro v hv
    obtain ⟨w, hw, rfl⟩ := Table.mem_modify.mp hv
    exact db.references w hw

/-- `UPDATE challenge_versions SET is_active = true`, for a version. -/
def activate (id : Nat) : Database where
  challenges := db.challenges
  versions := db.versions.modify (ChallengeVersion.activated id) fun _ => rfl
  references := by
    intro v hv
    obtain ⟨w, hw, rfl⟩ := Table.mem_modify.mp hv
    exact db.references w hw

/-- The key of the challenge has to be there. -/
def addVersion (version : Nat → ChallengeVersion) (hid : ∀ n, (version n).id = n) : Database :=
  if hkey : (db.challenges.find (version db.versions.nextKey).challengeId).isSome = true then
    { challenges := db.challenges
      versions := db.versions.add version hid
      references := by
        intro v hv
        rcases Table.mem_add.mp hv with hv | rfl
        · exact db.references v hv
        · exact hkey }
  else db

/-- The new row of a challenge may have another id, when that is free and no version is in the
way. -/
def Replaces (id : Nat) (c : Challenge) : Prop :=
  c.id = id ∨
    ((db.challenges.find c.id).isNone = true ∧ ∀ v ∈ db.versions.rows, v.challengeId ≠ id)

instance decidableReplaces (id : Nat) (c : Challenge) : Decidable (db.Replaces id c) :=
  inferInstanceAs (Decidable (_ ∨ (_ ∧ _)))

def replace (id : Nat) (c : Challenge) : Database :=
  if hreplaces : db.Replaces id c then
    { challenges := (db.challenges.filter fun d => decide (d.id ≠ id)).put c
      versions := db.versions
      references := by
        intro v hv
        have hsome := db.references v hv
        rw [Table.find_put, Table.find_filter]
        split
        · rfl
        · rename_i hother
          have hne : v.challengeId ≠ id := by
            rcases hreplaces with hid | ⟨-, hfree⟩
            · rwa [hid] at hother
            · exact hfree v hv
          obtain ⟨d, hd⟩ := Option.isSome_iff_exists.mp hsome
          have hkey : d.id = v.challengeId := Table.key_of_find hd
          simp [hd, hkey, hne] }
  else db

def versionsOf (challengeId : Nat) : List ChallengeVersion :=
  db.versions.rows.filter fun v => decide (v.challengeId = challengeId)

/-- One more than the greatest number of a version, as the transaction sees them. -/
def nextVersion (challengeId : Nat) : Nat :=
  match ((db.versionsOf challengeId).map ChallengeVersion.versionNumber).max? with
  | some latest => latest + 1
  | none => 1

end Database

/-! ### Requests -/

/-- How the saving of a version ends: an exception in it is caught. -/
inductive Saving
  | saved
  | failedBeforeDeactivation
  | failedAfterDeactivation
  deriving DecidableEq, Repr

/-- How the upload of an archive ends. -/
inductive Outcome
  | refused
  /-- An exception; the folder may be copied by then. -/
  | failed (deployFile : Option String)
  | deployed (deployFile imageLink : String) (saving : Saving)
  deriving DecidableEq, Repr

/-- Python's `json`, and its dictionaries as lists of items. -/
structure Json where
  Value : Type
  loads : String → Option Value
  dict : Value → Option (List (String × Value))
  str : String → Value
  dumps : List (String × Value) → String

/-- The body of an edit: the columns that it names are set, `expose_port` goes into the image. -/
structure Edit where
  accepted : Bool := true
  exposePort : Option String := none
  imageLink : Option (Option String) := none
  columns : Challenge → Challenge := id

inductive Request
  | upload (challengeId : Nat) (outcome : Outcome)
  | clear (challengeId : Nat)
  | rollback (challengeId versionId : Nat)
  | edit (challengeId : Nat) (body : Edit)

def Request.challengeId : Request → Nat
  | .upload challengeId _ | .clear challengeId | .rollback challengeId _ | .edit challengeId _ =>
    challengeId

/-- Assigning to a key of a dictionary. -/
def setItem {V : Type} (items : List (String × V)) (key : String) (value : V) :
    List (String × V) :=
  if items.any fun item => item.1 = key then
    items.map fun item => if item.1 = key then (key, value) else item
  else items ++ [(key, value)]

/-- The image link with a port. -/
def withPort (json : Json) (imageLink : Option String) (port : String) : String :=
  let imageObj :=
    match imageLink with
    | none | some "" => []
    | some text => ((json.loads text).bind json.dict).getD [("imageLink", json.str text)]
  json.dumps (setItem imageObj "exposedPort" (json.str port))

/-- `BaseChallenge.update`. A sandbox challenge drops what belongs to deployments. -/
def Edit.update (json : Json) (body : Edit) (c : Challenge) : Challenge :=
  let edited := body.columns c
  if c.sandbox then { c with id := edited.id, state := edited.state }
  else
    { edited with
      sandbox := c.sandbox
      imageLink := body.imageLink.getD
        ((body.exposePort.map (withPort json c.imageLink)).or c.imageLink) }

def uploadFailed (deployFile : Option String) (c : Challenge) : Challenge :=
  { c with
    state := "hidden", deployStatus := some "FILE_UPLOAD_FAILED"
    deployFile := deployFile.or c.deployFile }

def deployed (deployFile imageLink : String) (c : Challenge) : Challenge :=
  { c with
    state := "hidden", requireDeploy := true, deployStatus := some "PENDING_DEPLOY"
    imageLink := some imageLink, deployFile := some deployFile }

def cleared (c : Challenge) : Challenge :=
  { c with
    imageLink := none, deployStatus := some "CREATED", requireDeploy := false, deployFile := none }

/-- The values of a version where it has them. -/
def Config.over (version c : Config) : Config where
  cpuLimit := version.cpuLimit.or c.cpuLimit
  cpuRequest := version.cpuRequest.or c.cpuRequest
  memoryLimit := version.memoryLimit.or c.memoryLimit
  memoryRequest := version.memoryRequest.or c.memoryRequest
  useGvisor := version.useGvisor.or c.useGvisor
  hardenContainer := version.hardenContainer.or c.hardenContainer
  maxDeployCount := version.maxDeployCount.or c.maxDeployCount

/-- A text that Python takes for true. -/
def truthy (text : Option String) : Bool := text.any fun t => t ≠ ""

def rolledBack (v : ChallengeVersion) (c : Challenge) : Challenge :=
  { c with
    imageLink := v.imageLink
    deployFile := if truthy v.deployFile then v.deployFile else c.deployFile
    config := v.config.over c.config
    deployStatus := some "DEPLOY_SUCCESS" }

/-- The version that an upload saves for a changed challenge. -/
def newVersion (number : Nat) (imageLink : String) (c : Challenge) (id : Nat) : ChallengeVersion :=
  { id, challengeId := c.id, versionNumber := number, imageLink := some imageLink
    deployFile := c.deployFile, config := c.config, isActive := true }

namespace Database

variable (db seen : Database)

/-- The statements after the challenge's own are in a `try` of their own. -/
def saveVersion (c : Challenge) (imageLink : String) : Saving → Database
  | .saved =>
    (db.deactivate c.id).addVersion (newVersion (seen.nextVersion c.id) imageLink c) fun _ => rfl
  | .failedBeforeDeactivation => db
  | .failedAfterDeactivation => db.deactivate c.id

/-- `handle_challenge_upload`. -/
def upload (c : Challenge) : Outcome → Database
  | .refused => db
  | .failed deployFile => db.flush c (uploadFailed deployFile c)
  | .deployed deployFile imageLink saving =>
    if c.deployStatus = some "PENDING_DEPLOY" then db
    else
      let changed := deployed deployFile imageLink c
      (db.flush c changed).saveVersion seen changed imageLink saving

/-- The version that a rollback goes to: one of the challenge, not active and with an image. -/
def target (c : Challenge) (versionId : Nat) : Option ChallengeVersion :=
  (seen.versions.find versionId).filter fun v =>
    decide (v.challengeId = c.id) && !v.isActive && truthy v.imageLink

/-- `ChallengeVersionRollback.post`. -/
def rollback (c : Challenge) (versionId : Nat) : Database :=
  match seen.target c versionId with
  | none => db
  | some v => ((db.deactivate c.id).activate v.id).flush c (rolledBack v c)

/-- An edit reads the row again and locks it. -/
def edit (json : Json) (body : Edit) (current : Challenge) : Database :=
  if body.accepted then db.replace current.id (body.update json current) else db

end Database

/-- What a request makes of the database, when it has seen an older one. Without the row of the
challenge nothing can be written. -/
def commit (json : Json) (request : Request) (seen db : Database) : Database :=
  match seen.challenges.find request.challengeId, db.challenges.find request.challengeId with
  | some c, some current =>
    match request with
    | .upload _ outcome => db.upload seen c outcome
    | .clear _ => db.flush c (cleared c)
    | .rollback _ versionId => db.rollback seen c versionId
    | .edit _ body => db.edit json body current
  | _, _ => db

/-! ### Integrity -/

/-- A challenge has one active version at most, its versions have different numbers, and the image
of the active one is the challenge's. -/
structure Database.Integrity (db : Database) : Prop where
  active : ∀ v ∈ db.versions.rows, ∀ w ∈ db.versions.rows, v.challengeId = w.challengeId →
    v.isActive = true → w.isActive = true → v = w
  numbers : ∀ v ∈ db.versions.rows, ∀ w ∈ db.versions.rows, v.challengeId = w.challengeId →
    v.versionNumber = w.versionNumber → v = w
  image : ∀ v ∈ db.versions.rows, v.isActive = true →
    ∀ c ∈ db.challenges.find v.challengeId, v.imageLink = c.imageLink

instance decidableIntegrity (db : Database) : Decidable db.Integrity :=
  decidable_of_iff
    ((∀ v ∈ db.versions.rows, ∀ w ∈ db.versions.rows, v.challengeId = w.challengeId →
        v.isActive = true → w.isActive = true → v = w) ∧
      (∀ v ∈ db.versions.rows, ∀ w ∈ db.versions.rows, v.challengeId = w.challengeId →
        v.versionNumber = w.versionNumber → v = w) ∧
      ∀ v ∈ db.versions.rows, v.isActive = true →
        ∀ c ∈ db.challenges.find v.challengeId, v.imageLink = c.imageLink)
    ⟨fun h => ⟨h.1, h.2.1, h.2.2⟩, fun h => ⟨h.active, h.numbers, h.image⟩⟩

end Fctf.Versions
