import Fctf.Deploy.Versions
import Fctf.Text

/-!
The upload of an archive with the sources of a challenge. The folder of the sources is replaced,
a build is submitted to a service, Redis is told its name, and the database is written last; each
of these steps can fail. What a step finds and answers is given with the call.
-/

namespace Fctf.Upload

open Versions

/-! ### The world -/

/-- A directory below a folder, with its files; the folder itself has the empty path. -/
structure Directory where
  path : String
  files : List (String × List UInt8)
  deriving DecidableEq

/-- The directories of a folder, in the order of `os.walk`. -/
abbrev Folder := List Directory

/-- A build that the service runs. -/
structure Build where
  challengeId : Nat
  challengePath : String
  imageTag : String
  deriving DecidableEq

structure World where
  db : Database
  folders : String → Option Folder
  redis : String → Option String
  builds : List Build

def World.replaceFolder (w : World) (path : String) (folder : Option Folder) : World :=
  { w with folders := Function.update w.folders path folder }

/-! ### What the call is given -/

/-- `NFS_MOUNT_PATH`, `DOCKER_USERNAME`, `IMAGE_REPO` and `json.dumps` of an object of texts. -/
structure Platform where
  nfsMountPath : String
  dockerUsername : String
  imageRepo : String
  dumps : List (String × String) → String

inductive Archive
  | badZipFile
  /-- `testzip` finds a bad file. -/
  | corrupt
  /-- Any other exception up to the end of the extraction. -/
  | unreadable (message : String)
  | extracted (folder : Folder)
  deriving DecidableEq

/-- What becomes of a folder that is removed or copied. An exception leaves a part of it, or
nothing. -/
inductive FolderStep
  | done
  | failed (message : String) (left : Option Folder)
  deriving DecidableEq

inductive ServiceAnswer
  | exception (message : String)
  | refused (text : String)
  | accepted (workflowName : String)
  deriving DecidableEq

/-- A request to the service may start a build whatever becomes of the answer. -/
structure Submission where
  started : Bool
  answer : ServiceAnswer
  deriving DecidableEq

/-- What each step of the call finds and answers; an exception is `some` message. -/
structure Answers where
  cacheFault : Bool := false
  fileExists : Bool := true
  archive : Archive
  makedirsFault : Option String := none
  rmtree : FolderStep := .done
  copytree : FolderStep := .done
  unixTime : Nat
  submission : Submission
  redisFault : Option String := none
  /-- `none` when the status cannot be had. -/
  workflowPhase : Option String
  saving : Saving := .saved
  commitFault : Option String := none
  /-- The commit that records a failure raises. -/
  recordFault : Bool := false

inductive Reply
  | success (workflowName : String)
  | error (message : String) (status : Nat)
  | raised
  deriving DecidableEq

def Reply.isSuccess : Reply → Bool
  | .success _ => true
  | _ => false

/-! ### Names -/

/-- `os.path.splitext(name)[0]`: a leading dot is no extension. -/
def stem (name : List Char) : List Char :=
  let base := (name.reverse.dropWhile (· ≠ '.')).drop 1
  if base.all (· = '.') then name else base.reverse

/-- The characters of a file name that are kept; names are in ASCII. -/
def safeChar (c : Char) : Char :=
  if c.isAlphanum || c = '-' || c = '_' then c else '_'

def safeFolderName (zipFilename : String) (challengeId : Nat) : String :=
  String.ofList
    ((stem zipFilename.toList ++ ("-" ++ toString challengeId).toList).map safeChar)

/-- The path of the directory with the first Dockerfile, below the mount. -/
def dockerfilePath (folderName : String) (folder : Folder) : Option String :=
  (folder.find? fun d => d.files.any fun file => file.1 = "Dockerfile").map fun d =>
    "challenges/" ++ folderName ++ if d.path = "" then "" else "/" ++ d.path

def workflowKey (challengeId : Nat) : String := "challenge_up_workflow_" ++ toString challengeId

def cacheKeyPrefix (challengeId : Nat) : String :=
  "deploy_challenge_" ++ toString challengeId ++ "_"

/-- `allowed_file(file_path) and file_path.endswith(".zip")`; the first has any case. -/
def isZip (zipFilename : String) : Bool := ".zip".toList.isSuffixOf zipFilename.toList

def imageTag (zipFilename : String) (challengeId unixTime : Nat) : String :=
  "challenge-" ++ toString challengeId ++ "-" ++
    (safeFolderName zipFilename challengeId).toLower ++ "-" ++ toString unixTime

namespace Platform

variable (p : Platform)

def destination (zipFilename : String) (challengeId : Nat) : String :=
  p.nfsMountPath ++ "/challenges/" ++ safeFolderName zipFilename challengeId

/-- The image link of a challenge is an object with the link and the port. -/
def objectImage (imageTag exposePort : String) : String :=
  p.dumps [("imageLink", p.dockerUsername ++ "/" ++ p.imageRepo ++ "/" ++ imageTag ++ ":latest"),
    ("exposedPort", exposePort)]

end Platform

/-! ### The call -/

section Call

variable (p : Platform) (a : Answers)

/-- Removes the folder that is there and copies the new one; an exception has a message. -/
def replaceSources (w : World) (destination : String) (folder : Folder) :
    World × Option String :=
  let removed :=
    if (w.folders destination).isSome then
      match a.rmtree with
      | .done => (w.replaceFolder destination none, none)
      | .failed message left => (w.replaceFolder destination left, some message)
    else (w, none)
  match removed with
  | (w, some message) => (w, some message)
  | (w, none) =>
    match a.copytree with
    | .done => (w.replaceFolder destination (some folder), none)
    | .failed message left => (w.replaceFolder destination left, some message)

/-- The `except` around the whole. -/
def recordFailure (w : World) (c : Versions.Challenge) (message : String) : World × Reply :=
  if a.recordFault then (w, .raised)
  else
    ({ w with db := w.db.upload w.db c (.failed none) },
      .error ("Error processing challenge upload: " ++ message) 500)

/-- From the submission on, with the `except` that rolls back. -/
def deploy (w : World) (c : Versions.Challenge)
    (destination dockerfilePath imageTag objectImage : String) :
    World × Reply :=
  let caught (w : World) (message : String) : World × Reply :=
    (w, .error ("Error updating challenge status: " ++ message) 500)
  let w :=
    if a.submission.started then { w with builds := w.builds ++ [⟨c.id, dockerfilePath, imageTag⟩] }
    else w
  match a.submission.answer with
  | .exception message => caught w message
  | .refused text => (w, .error ("Deployment service error: " ++ text) 500)
  | .accepted workflowName =>
    match a.redisFault with
    | some message => caught w message
    | none =>
      let w := { w with redis := Function.update w.redis (workflowKey c.id) (some workflowName) }
      match a.workflowPhase with
      | none => (w, .error "Error getting workflow status" 500)
      | some _ =>
        match a.commitFault with
        | some message => caught w message
        | none =>
          ({ w with db := w.db.upload w.db c (.deployed destination objectImage a.saving) },
            .success workflowName)

/-- `handle_challenge_upload`. -/
def handleChallengeUpload (w : World) (c : Versions.Challenge) (zipFilename : String)
    (exposePort : Option String) : World × Reply :=
  let folderName := safeFolderName zipFilename c.id
  match a.archive with
  | .badZipFile => (w, .error "Invalid zip file format" 400)
  | .corrupt => (w, .error "Invalid Zip file" 400)
  | .unreadable message => recordFailure a w c message
  | .extracted folder =>
    match a.makedirsFault with
    | some message => recordFailure a w c message
    | none =>
      let destination := p.destination zipFilename c.id
      match replaceSources a w destination folder with
      | (w, some message) => recordFailure a w c message
      | (w, none) =>
        match dockerfilePath folderName folder, exposePort with
        | none, _ => (w, .error "Dockerfile not found in challenge folder" 400)
        | some _, none => (w, .error "No exposed port found" 400)
        | some path, some port =>
          if c.deployStatus = some "PENDING_DEPLOY" then
            (w, .error "Challenge already pending deploy" 400)
          else
            let imageTag := imageTag zipFilename c.id a.unixTime
            deploy a w c destination path imageTag (p.objectImage imageTag port)

/-- `upload_file`; the columns of a challenge that is not there cannot be read. -/
def uploadFile (w : World) (challengeId : Nat) (zipFilename : String)
    (exposePort : Option String) : World × Reply :=
  if a.cacheFault then (w, .raised)
  else
    let w := { w with
      redis := fun key => if hasPrefix key (cacheKeyPrefix challengeId) then none else w.redis key }
    if !a.fileExists then (w, .error "File not found" 400)
    else if !isZip zipFilename then
      (w, .error "File type not allowed. Only zip files are allowed." 400)
    else
      match w.db.challenges.find challengeId with
      | none => (w, .raised)
      | some c => handleChallengeUpload p a w c zipFilename exposePort

end Call

/-! ### All or nothing -/

def World.imageLink (w : World) (challengeId : Nat) : Option (Option String) :=
  (w.db.challenges.find challengeId).map Versions.Challenge.imageLink

def World.activeVersions (w : World) (challengeId : Nat) : List ChallengeVersion :=
  (w.db.versionsOf challengeId).filter ChallengeVersion.isActive

/-- The folder that the challenge's deploy file names. -/
def World.sourcePath (w : World) (challengeId : Nat) : Option String :=
  (w.db.challenges.find challengeId).bind Versions.Challenge.deployFile

/-- Nothing of the upload is there. -/
structure Unchanged (challengeId : Nat) (before after : World) : Prop where
  imageLink : after.imageLink challengeId = before.imageLink challengeId
  active : after.activeVersions challengeId = before.activeVersions challengeId
  sources : ∀ path ∈ before.sourcePath challengeId, after.folders path = before.folders path
  builds : after.builds = before.builds

/-- Everything is that of the upload. -/
structure Replaced (challengeId : Nat) (destination objectImage workflowName : String)
    (folder : Folder) (before after : World) : Prop where
  imageLink : after.imageLink challengeId = some (some objectImage)
  active : ∃ v, after.activeVersions challengeId = [v] ∧ v ∉ before.db.versions.rows ∧
    v.imageLink = some objectImage ∧ v.deployFile = some destination
  workflow : after.redis (workflowKey challengeId) = some workflowName
  sourcePath : after.sourcePath challengeId = some destination
  sources : after.folders destination = some folder

section Condition

variable (p : Platform) (a : Answers) (w : World) (challengeId : Nat) (zipFilename : String)
  (exposePort : Option String)

/-- The call is all or nothing: what it reports is what it has done. -/
def AllOrNothing : Prop :=
  match uploadFile p a w challengeId zipFilename exposePort with
  | (after, .success workflowName) =>
    ∃ folder port, a.archive = .extracted folder ∧ exposePort = some port ∧
      Replaced challengeId (p.destination zipFilename challengeId)
        (p.objectImage (imageTag zipFilename challengeId a.unixTime) port) workflowName folder
        w after
  | (after, _) => Unchanged challengeId w after

/-- The call gets as far as the sources. -/
structure Starts (c : Versions.Challenge) (folder : Folder) : Prop where
  cache : a.cacheFault = false
  file : a.fileExists = true
  zip : isZip zipFilename = true
  row : w.db.challenges.find challengeId = some c
  archive : a.archive = .extracted folder
  makedirs : a.makedirsFault = none

/-- The folder of the sources can be replaced: none is there or it can be removed, and the new one
can be copied. -/
def Replaceable : Prop :=
  ((w.folders (p.destination zipFilename challengeId)).isSome = true → a.rmtree = .done) ∧
    a.copytree = .done

/-- A build is submitted: the sources have a Dockerfile, a port is given, and the challenge is not
pending. -/
def Submits (c : Versions.Challenge) (folder : Folder) : Prop :=
  Replaceable p a w challengeId zipFilename ∧
    (dockerfilePath (safeFolderName zipFilename challengeId) folder).isSome = true ∧
    exposePort.isSome = true ∧ c.deployStatus ≠ some "PENDING_DEPLOY"

/-- The service, Redis and the database answer. -/
def Answered : Prop :=
  (∃ name, a.submission.answer = .accepted name) ∧ a.redisFault = none ∧
    a.workflowPhase.isSome = true ∧ a.commitFault = none

/-- What is in the folder of the sources afterwards. -/
def leftovers (folder : Folder) : Option Folder :=
  match (w.folders (p.destination zipFilename challengeId)).isSome, a.rmtree with
  | true, .failed _ left => left
  | _, _ =>
    match a.copytree with
    | .failed _ left => left
    | .done => some folder

/-- Nothing that the call has done when it fails can be seen: the challenge's sources are in
another folder, or are what is left of the new ones, and no build has been started. -/
def Traceless (c : Versions.Challenge) (folder : Folder) : Prop :=
  (c.deployFile = some (p.destination zipFilename challengeId) →
      leftovers p a w challengeId zipFilename folder =
        w.folders (p.destination zipFilename challengeId)) ∧
    (Submits p a w challengeId zipFilename exposePort c folder → a.submission.started = false)

end Condition

/-! ### The rows -/

section Rows

variable {w after : World} {c : Versions.Challenge}

theorem written_self {α : Type} [DecidableEq α] (loaded changed : α) :
    written loaded changed loaded = changed := by
  rw [written]
  split_ifs with h
  · exact h.symm
  · rfl

theorem flush_self (loaded changed : Versions.Challenge) :
    loaded.flush changed loaded = { changed with id := loaded.id, sandbox := loaded.sandbox } := by
  simp only [Versions.Challenge.flush, Config.flush, written_self]

theorem find_flush (hrow : w.db.challenges.find c.id = some c) (changed : Versions.Challenge) :
    (w.db.flush c changed).challenges.find c.id =
      some { changed with id := c.id, sandbox := c.sandbox } := by
  have hfind := Table.find_update w.db.challenges c.id (c.flush changed)
    (Versions.Challenge.flush_id c changed) c.id
  rw [if_pos rfl, hrow, Option.map_some, flush_self] at hfind
  exact hfind

/-- A failure that is recorded leaves the image and the versions. -/
theorem rows_unchanged (hrow : w.db.challenges.find c.id = some c)
    (hdb : after.db = w.db ∨ after.db = w.db.upload w.db c (.failed none)) :
    after.imageLink c.id = w.imageLink c.id ∧
      after.activeVersions c.id = w.activeVersions c.id := by
  rcases hdb with hdb | hdb
  · simp only [World.imageLink, World.activeVersions, hdb, and_self]
  · refine ⟨?_, ?_⟩
    · rw [World.imageLink, World.imageLink, hdb, Database.upload, find_flush hrow, hrow]
      rfl
    · rw [World.activeVersions, World.activeVersions, hdb]
      rfl

/-- What can be seen of a failed call, if it has changed one folder at most. -/
theorem unchanged_iff (hrow : w.db.challenges.find c.id = some c)
    (hdb : after.db = w.db ∨ after.db = w.db.upload w.db c (.failed none)) {path : String}
    {left : Option Folder} (hfolders : after.folders = Function.update w.folders path left) :
    Unchanged c.id w after ↔
      (c.deployFile = some path → left = w.folders path) ∧ after.builds = w.builds := by
  obtain ⟨himage, hactive⟩ := rows_unchanged hrow hdb
  have hsource : w.sourcePath c.id = c.deployFile := by rw [World.sourcePath, hrow]; rfl
  constructor
  · intro h
    refine ⟨fun hpath => ?_, h.builds⟩
    have hsame := h.sources path (by rw [hsource, hpath]; rfl)
    rwa [hfolders, Function.update_self] at hsame
  · rintro ⟨hleft, hbuilds⟩
    refine ⟨himage, hactive, fun other hother => ?_, hbuilds⟩
    rw [hsource] at hother
    rw [hfolders]
    rcases eq_or_ne other path with rfl | hne
    · rw [Function.update_self, hleft hother]
    · rw [Function.update_of_ne hne]

/-- Nothing but what Redis holds and the record of a failure is different. -/
theorem unchanged_of_folders (hrow : w.db.challenges.find c.id = some c)
    (hdb : after.db = w.db ∨ after.db = w.db.upload w.db c (.failed none))
    (hfolders : after.folders = w.folders) (hbuilds : after.builds = w.builds) :
    Unchanged c.id w after := by
  obtain ⟨himage, hactive⟩ := rows_unchanged hrow hdb
  exact ⟨himage, hactive, fun _ _ => by rw [hfolders], hbuilds⟩

/-- The version that is saved is the only active one of its challenge. -/
theorem activeVersions_saved {destination objectImage : String}
    (hrow : w.db.challenges.find c.id = some c)
    (hpending : c.deployStatus ≠ some "PENDING_DEPLOY")
    (hdb : after.db = w.db.upload w.db c (.deployed destination objectImage .saved)) :
    ∃ v, after.activeVersions c.id = [v] ∧ v ∉ w.db.versions.rows ∧
      v.imageLink = some objectImage ∧ v.deployFile = some destination := by
  let changed := deployed destination objectImage c
  let version := newVersion (w.db.nextVersion c.id) objectImage changed
  let inactive := (w.db.flush c changed).deactivate c.id
  have hkey : (inactive.challenges.find (version inactive.versions.nextKey).challengeId).isSome =
      true := by
    have hfind : inactive.challenges.find c.id = _ := find_flush hrow changed
    change (inactive.challenges.find c.id).isSome = true
    rw [hfind]
    rfl
  have hrows : after.db.versions.rows =
      w.db.versions.rows.map (ChallengeVersion.deactivated c.id) ++
        [version inactive.versions.nextKey] := by
    have hadded : after.db = inactive.addVersion version fun _ => rfl := by
      rw [hdb, Database.upload, if_neg hpending]
      rfl
    rw [hadded]
    unfold Database.addVersion
    rw [dif_pos hkey]
    rfl
  refine ⟨version inactive.versions.nextKey, ?_, ?_, rfl, rfl⟩
  · have hold : (w.db.versions.rows.map (ChallengeVersion.deactivated c.id)).filter
        (fun v => decide (v.challengeId = c.id) && v.isActive) = [] := by
      rw [List.filter_eq_nil_iff]
      intro v hv
      obtain ⟨u, -, rfl⟩ := List.mem_map.mp hv
      simp +contextual [ChallengeVersion.deactivated]
    have hnew : [version inactive.versions.nextKey].filter
        (fun v => decide (v.challengeId = c.id) && v.isActive) =
          [version inactive.versions.nextKey] := by
      simp [version, changed, newVersion, deployed]
    rw [World.activeVersions, Database.versionsOf, List.filter_filter]
    simp only [Bool.and_comm _ (decide _)]
    rw [hrows, List.filter_append, hold, hnew, List.nil_append]
  · intro hmem
    have hmem' : (version inactive.versions.nextKey).deactivated c.id ∈ inactive.versions.rows :=
      List.mem_map_of_mem hmem
    exact absurd (Table.lt_nextKey hmem') (Nat.lt_irrefl _)

theorem find_deployed {destination objectImage : String} {saving : Saving}
    (hrow : w.db.challenges.find c.id = some c)
    (hpending : c.deployStatus ≠ some "PENDING_DEPLOY")
    (hdb : after.db = w.db.upload w.db c (.deployed destination objectImage saving)) :
    after.db.challenges.find c.id = some (deployed destination objectImage c) := by
  have hchallenges : after.db.challenges =
      (w.db.flush c (deployed destination objectImage c)).challenges := by
    rw [hdb, Database.upload, if_neg hpending]
    cases saving with
    | saved =>
      simp only [Database.saveVersion]
      unfold Database.addVersion
      split_ifs <;> rfl
    | failedBeforeDeactivation => rfl
    | failedAfterDeactivation => rfl
  rw [hchallenges, find_flush hrow]
  rfl

/-- Without the new version, none of the active ones is new. -/
theorem activeVersions_unsaved {destination objectImage : String} {saving : Saving}
    (hsaving : saving ≠ .saved)
    (hdb : after.db = w.db.upload w.db c (.deployed destination objectImage saving)) :
    ∀ v ∈ after.activeVersions c.id, v ∈ w.db.versions.rows := by
  intro v hv
  obtain ⟨hof, hactive⟩ := List.mem_filter.mp hv
  obtain ⟨hmem, hid⟩ := List.mem_filter.mp hof
  rw [hdb, Database.upload] at hmem
  split_ifs at hmem with hpending
  · exact hmem
  · cases saving with
    | saved => exact absurd rfl hsaving
    | failedBeforeDeactivation => exact hmem
    | failedAfterDeactivation =>
      obtain ⟨u, -, rfl⟩ := List.mem_map.mp hmem
      have hother := (Bool.and_eq_true_iff.mp hactive).2
      exact absurd (of_decide_eq_true hid) (of_decide_eq_true hother)

end Rows

/-! ### The steps -/

section Steps

variable (p : Platform) (a : Answers) (w : World) (c : Versions.Challenge) (zipFilename : String)

/-- The sources are replaced by what the steps leave of the new ones. -/
theorem replaceSources_spec (challengeId : Nat) (folder : Folder) :
    ∃ fault, replaceSources a w (p.destination zipFilename challengeId) folder =
        (w.replaceFolder (p.destination zipFilename challengeId)
          (leftovers p a w challengeId zipFilename folder), fault) ∧
      (fault = none ↔ Replaceable p a w challengeId zipFilename) := by
  have htwice : ∀ first second, (w.replaceFolder (p.destination zipFilename challengeId)
      first).replaceFolder (p.destination zipFilename challengeId) second =
        w.replaceFolder (p.destination zipFilename challengeId) second := by
    intro first second
    simp only [World.replaceFolder, Function.update_idem]
  rw [replaceSources, leftovers, Replaceable]
  cases hthere : (w.folders (p.destination zipFilename challengeId)).isSome with
  | false => cases a.copytree <;> simp
  | true =>
    cases a.rmtree with
    | failed message left => simp
    | done => cases a.copytree <;> simp [htwice]

/-- A submission that is not answered to the end changes no row, and no folder. -/
theorem deploy_unanswered (destination path tag image : String) (h : ¬ Answered a) :
    ∃ after reply, deploy a w c destination path tag image = (after, reply) ∧
      reply.isSuccess = false ∧ after.db = w.db ∧ after.folders = w.folders ∧
      (after.builds = w.builds ↔ a.submission.started = false) := by
  have hbuilds : ∀ build : Build, w.builds ++ [build] ≠ w.builds := by
    intro build heq
    exact absurd (List.append_right_eq_self.mp heq) (List.cons_ne_nil _ _)
  have hsubmitted : ∀ w' : World, w' =
      (if a.submission.started then { w with builds := w.builds ++ [⟨c.id, path, tag⟩] } else w) →
      w'.db = w.db ∧ w'.folders = w.folders ∧
        (w'.builds = w.builds ↔ a.submission.started = false) := by
    rintro w' rfl
    split_ifs with hstarted
    · refine ⟨rfl, rfl, ?_⟩
      rw [hstarted]
      exact iff_of_false (hbuilds _) (by simp)
    · exact ⟨rfl, rfl, iff_of_true rfl (by simpa using hstarted)⟩
  simp only [deploy]
  generalize hw' : (if a.submission.started = true then
    { w with builds := w.builds ++ [⟨c.id, path, tag⟩] } else w) = w'
  have hspec := hsubmitted w' hw'.symm
  cases hanswer : a.submission.answer with
  | exception message => exact ⟨w', _, rfl, rfl, hspec⟩
  | refused text => exact ⟨w', _, rfl, rfl, hspec⟩
  | accepted name =>
    cases hredis : a.redisFault with
    | some message => exact ⟨w', _, rfl, rfl, hspec⟩
    | none =>
      cases hphase : a.workflowPhase with
      | none => exact ⟨_, _, rfl, rfl, hspec⟩
      | some phase =>
        cases hcommit : a.commitFault with
        | some message => exact ⟨_, _, rfl, rfl, hspec⟩
        | none =>
          exact absurd ⟨⟨name, hanswer⟩, hredis, by rw [hphase]; rfl, hcommit⟩ h

/-- With all answers there are, the rows are written. -/
theorem deploy_answered (destination path tag image : String) (h : Answered a) :
    ∃ after name, deploy a w c destination path tag image = (after, .success name) ∧
      after.db = w.db.upload w.db c (.deployed destination image a.saving) ∧
      after.folders = w.folders ∧ after.redis (workflowKey c.id) = some name := by
  obtain ⟨⟨name, hanswer⟩, hredis, hphase, hcommit⟩ := h
  obtain ⟨phase, hphase⟩ := Option.isSome_iff_exists.mp hphase
  simp only [deploy, hanswer, hredis, hphase, hcommit]
  refine ⟨_, name, rfl, ?_, ?_, Function.update_self ..⟩ <;> split_ifs <;> rfl

end Steps

/-! ### When a call is all or nothing -/

section AllOrNothing

variable {p : Platform} {a : Answers} {w : World} {challengeId : Nat} {zipFilename : String}
  {exposePort : Option String}

theorem allOrNothing_of_failure {after : World} {reply : Reply}
    (h : uploadFile p a w challengeId zipFilename exposePort = (after, reply))
    (hreply : reply.isSuccess = false) :
    AllOrNothing p a w challengeId zipFilename exposePort ↔ Unchanged challengeId w after := by
  rw [AllOrNothing, h]
  cases reply with
  | success name => cases hreply
  | error message status => exact Iff.rfl
  | raised => exact Iff.rfl

theorem recordFailure_spec (a : Answers) (w : World) (c : Versions.Challenge) (message : String) :
    ∃ after reply, recordFailure a w c message = (after, reply) ∧ reply.isSuccess = false ∧
      (after.db = w.db ∨ after.db = w.db.upload w.db c (.failed none)) ∧
      after.folders = w.folders ∧ after.builds = w.builds := by
  rw [recordFailure]
  split_ifs
  · exact ⟨w, .raised, rfl, rfl, .inl rfl, rfl, rfl⟩
  · exact ⟨_, _, rfl, rfl, .inr rfl, rfl, rfl⟩

/-- The world once the entries of the cache are deleted. -/
def World.withoutCache (w : World) (challengeId : Nat) : World :=
  { w with
    redis := fun key => if hasPrefix key (cacheKeyPrefix challengeId) then none else w.redis key }

section WithoutCache

variable (w : World) (challengeId : Nat)

@[simp] theorem withoutCache_db : (w.withoutCache challengeId).db = w.db := by
  simp only [World.withoutCache]

@[simp] theorem withoutCache_folders : (w.withoutCache challengeId).folders = w.folders := by
  simp only [World.withoutCache]

@[simp] theorem withoutCache_builds : (w.withoutCache challengeId).builds = w.builds := by
  simp only [World.withoutCache]

end WithoutCache

theorem unchanged_early {after : World} (hdb : after.db = w.db)
    (hfolders : after.folders = w.folders)
    (hbuilds : after.builds = w.builds) : Unchanged challengeId w after :=
  ⟨by simp only [World.imageLink, hdb], by simp only [World.activeVersions, hdb],
    fun _ _ => by rw [hfolders], hbuilds⟩

/-- A call that does not get to the sources changes nothing that counts. -/
theorem allOrNothing_early (h : ∀ c folder, ¬ Starts a w challengeId zipFilename c folder) :
    AllOrNothing p a w challengeId zipFilename exposePort := by
  have hnothing : Unchanged challengeId w (w.withoutCache challengeId) :=
    unchanged_early (withoutCache_db w _) (withoutCache_folders w _) (withoutCache_builds w _)
  cases hcache : a.cacheFault with
  | true =>
    have hcall : uploadFile p a w challengeId zipFilename exposePort = (w, .raised) := by
      rw [uploadFile, hcache, if_pos rfl]
    exact (allOrNothing_of_failure hcall rfl).mpr (unchanged_early rfl rfl rfl)
  | false =>
    let w' := w.withoutCache challengeId
    cases hfile : a.fileExists with
    | false =>
      have hcall : uploadFile p a w challengeId zipFilename exposePort =
          (w', .error "File not found" 400) := by
        rw [uploadFile, hcache, hfile]
        rfl
      exact (allOrNothing_of_failure hcall rfl).mpr hnothing
    | true =>
      cases hzip : isZip zipFilename with
      | false =>
        have hcall : uploadFile p a w challengeId zipFilename exposePort =
            (w', .error "File type not allowed. Only zip files are allowed." 400) := by
          rw [uploadFile, hcache, hfile, hzip]
          rfl
        exact (allOrNothing_of_failure hcall rfl).mpr hnothing
      | true =>
        cases hrow : w.db.challenges.find challengeId with
        | none =>
          have hcall : uploadFile p a w challengeId zipFilename exposePort = (w', .raised) := by
            simp only [uploadFile, hcache, hfile, hzip, hrow]
            rfl
          exact (allOrNothing_of_failure hcall rfl).mpr hnothing
        | some c =>
          obtain rfl : c.id = challengeId := Table.key_of_find hrow
          have hcall : uploadFile p a w c.id zipFilename exposePort =
              handleChallengeUpload p a w' c zipFilename exposePort := by
            simp only [uploadFile, hcache, hfile, hzip, hrow]
            rfl
          have hrecorded : ∀ message, handleChallengeUpload p a w' c zipFilename exposePort =
              recordFailure a w' c message →
                AllOrNothing p a w c.id zipFilename exposePort := by
            intro message heq
            obtain ⟨after, reply, hrecord, hreply, hdb, hfolders, hbuilds⟩ :=
              recordFailure_spec a w' c message
            apply (allOrNothing_of_failure (hcall.trans (heq.trans hrecord)) hreply).mpr
            rw [withoutCache_db] at hdb
            exact unchanged_of_folders hrow hdb (hfolders.trans (withoutCache_folders w _))
              (hbuilds.trans (withoutCache_builds w _))
          cases harchive : a.archive with
          | badZipFile =>
            have heq : handleChallengeUpload p a w' c zipFilename exposePort =
                (w', .error "Invalid zip file format" 400) := by
              rw [handleChallengeUpload, harchive]
            exact (allOrNothing_of_failure (hcall.trans heq) rfl).mpr
              hnothing
          | corrupt =>
            have heq : handleChallengeUpload p a w' c zipFilename exposePort =
                (w', .error "Invalid Zip file" 400) := by
              rw [handleChallengeUpload, harchive]
            exact (allOrNothing_of_failure (hcall.trans heq) rfl).mpr
              hnothing
          | unreadable message =>
            apply hrecorded message
            rw [handleChallengeUpload, harchive]
          | extracted folder =>
            cases hdirs : a.makedirsFault with
            | some message =>
              apply hrecorded message
              simp only [handleChallengeUpload, harchive, hdirs]
            | none =>
              exact absurd ⟨hcache, hfile, hzip, hrow, harchive, hdirs⟩ (h c folder)

section Started

variable {c : Versions.Challenge} {folder : Folder}

/-- The world once the sources are replaced, as far as they can be. -/
def World.withSources (p : Platform) (a : Answers) (w : World) (zipFilename : String)
    (c : Versions.Challenge) (folder : Folder) : World :=
  (w.withoutCache c.id).replaceFolder (p.destination zipFilename c.id)
    (leftovers p a w c.id zipFilename folder)

theorem replaceSources_withoutCache (p : Platform) (a : Answers) (w : World)
    (zipFilename : String) (c : Versions.Challenge) (folder : Folder) :
    ∃ fault, replaceSources a (w.withoutCache c.id) (p.destination zipFilename c.id) folder =
        (w.withSources p a zipFilename c folder, fault) ∧
      (fault = none ↔ Replaceable p a w c.id zipFilename) :=
  replaceSources_spec p a (w.withoutCache c.id) zipFilename c.id folder

section WithSources

variable (p : Platform) (a : Answers) (w : World) (zipFilename : String) (c : Versions.Challenge)
  (folder : Folder)

@[simp] theorem withSources_db : (w.withSources p a zipFilename c folder).db = w.db := by
  simp only [World.withSources, World.replaceFolder, withoutCache_db]

@[simp] theorem withSources_builds :
    (w.withSources p a zipFilename c folder).builds = w.builds := by
  simp only [World.withSources, World.replaceFolder, withoutCache_builds]

theorem withSources_folders : (w.withSources p a zipFilename c folder).folders =
    Function.update w.folders (p.destination zipFilename c.id)
      (leftovers p a w c.id zipFilename folder) := by
  simp only [World.withSources, World.replaceFolder, withoutCache_folders]

end WithSources

theorem uploadFile_starts (h : Starts a w c.id zipFilename c folder) :
    uploadFile p a w c.id zipFilename exposePort =
      handleChallengeUpload p a (w.withoutCache c.id) c zipFilename exposePort := by
  simp only [uploadFile, h.cache, h.file, h.zip, h.row]
  rfl

/-- A call that submits nothing has changed the sources at most. -/
theorem call_unsubmitted (h : Starts a w c.id zipFilename c folder)
    (hnot : ¬ Submits p a w c.id zipFilename exposePort c folder) :
    ∃ after reply, uploadFile p a w c.id zipFilename exposePort = (after, reply) ∧
      reply.isSuccess = false ∧
      (after.db = w.db ∨ after.db = w.db.upload w.db c (.failed none)) ∧
      after.folders = (w.withSources p a zipFilename c folder).folders ∧
      after.builds = w.builds := by
  obtain ⟨fault, hsources, hfault⟩ := replaceSources_withoutCache p a w zipFilename c folder
  rw [uploadFile_starts h]
  simp only [handleChallengeUpload, h.archive, h.makedirs, hsources]
  cases fault with
  | some message =>
    have hrecord := recordFailure_spec a (w.withSources p a zipFilename c folder) c message
    rwa [withSources_db, withSources_builds] at hrecord
  | none =>
    have hcan := hfault.mp rfl
    have hends : ∀ message status, ∀ result : World × Reply, result =
        (w.withSources p a zipFilename c folder, .error message status) →
          ∃ after reply, result = (after, reply) ∧ reply.isSuccess = false ∧
            (after.db = w.db ∨ after.db = w.db.upload w.db c (.failed none)) ∧
            after.folders = (w.withSources p a zipFilename c folder).folders ∧
            after.builds = w.builds := by
      rintro message status result rfl
      exact ⟨_, _, rfl, rfl, .inl (withSources_db ..), rfl, withSources_builds ..⟩
    cases hdocker : dockerfilePath (safeFolderName zipFilename c.id) folder with
    | none => exact hends _ _ _ rfl
    | some path =>
      cases hport : exposePort with
      | none => exact hends _ _ _ rfl
      | some port =>
        have hpending : c.deployStatus = some "PENDING_DEPLOY" := by
          by_contra hother
          exact hnot ⟨hcan, by rw [hdocker]; rfl, by rw [hport]; rfl, hother⟩
        simp only [if_pos hpending]
        exact hends _ _ _ rfl

/-- A call that submits goes on with the build. -/
theorem call_submitted (h : Starts a w c.id zipFilename c folder)
    (hsub : Submits p a w c.id zipFilename exposePort c folder) :
    ∃ path port, exposePort = some port ∧
      uploadFile p a w c.id zipFilename exposePort =
        deploy a (w.withSources p a zipFilename c folder) c (p.destination zipFilename c.id) path
          (imageTag zipFilename c.id a.unixTime)
          (p.objectImage (imageTag zipFilename c.id a.unixTime) port) := by
  obtain ⟨fault, hsources, hfault⟩ := replaceSources_withoutCache p a w zipFilename c folder
  obtain ⟨hcan, hdocker, hport, hpending⟩ := hsub
  obtain ⟨path, hdocker⟩ := Option.isSome_iff_exists.mp hdocker
  obtain ⟨port, rfl⟩ := Option.isSome_iff_exists.mp hport
  refine ⟨path, port, rfl, ?_⟩
  rw [uploadFile_starts h]
  simp only [handleChallengeUpload, h.archive, h.makedirs, hsources, hfault.mpr hcan, hdocker,
    if_neg hpending]

theorem leftovers_of_replaceable (h : Replaceable p a w challengeId zipFilename)
    (folder : Folder) : leftovers p a w challengeId zipFilename folder = some folder := by
  rw [leftovers, h.2]
  cases hthere : (w.folders (p.destination zipFilename challengeId)).isSome with
  | false => rfl
  | true => rw [h.1 hthere]

/-- An answered call has replaced everything exactly if the version has been saved. -/
theorem allOrNothing_answered (h : Starts a w c.id zipFilename c folder)
    (hsub : Submits p a w c.id zipFilename exposePort c folder) (hanswered : Answered a) :
    AllOrNothing p a w c.id zipFilename exposePort ↔ a.saving = .saved := by
  obtain ⟨path, port, rfl, hcall⟩ := call_submitted h hsub
  obtain ⟨after, name, hresult, hdb, hfolders, hworkflow⟩ :=
    deploy_answered a (w.withSources p a zipFilename c folder) c
      (p.destination zipFilename c.id) path (imageTag zipFilename c.id a.unixTime)
      (p.objectImage (imageTag zipFilename c.id a.unixTime) port) hanswered
  rw [withSources_db] at hdb
  rw [AllOrNothing, hcall, hresult]
  constructor
  · rintro ⟨_, _, _, _, hnew⟩
    by_contra hunsaved
    obtain ⟨v, hactive, hfresh, -, -⟩ := hnew.active
    exact hfresh (activeVersions_unsaved hunsaved hdb v (hactive ▸ List.mem_singleton_self v))
  · intro hsaved
    rw [hsaved] at hdb
    have hrow : after.db.challenges.find c.id = some (deployed (p.destination zipFilename c.id)
        (p.objectImage (imageTag zipFilename c.id a.unixTime) port) c) :=
      find_deployed h.row hsub.2.2.2 hdb
    refine ⟨folder, port, h.archive, rfl, by rw [World.imageLink, hrow]; rfl,
      activeVersions_saved h.row hsub.2.2.2 hdb, hworkflow,
      by rw [World.sourcePath, hrow]; rfl, ?_⟩
    rw [hfolders, withSources_folders, leftovers_of_replaceable hsub.1 folder,
      Function.update_self]

/-- A call that fails after the sources is all or nothing exactly if it leaves no trace. -/
theorem allOrNothing_failed (h : Starts a w c.id zipFilename c folder)
    (hfailed : ¬ (Submits p a w c.id zipFilename exposePort c folder ∧ Answered a)) :
    AllOrNothing p a w c.id zipFilename exposePort ↔
      Traceless p a w c.id zipFilename exposePort c folder := by
  have hreplaced := withSources_folders p a w zipFilename c folder
  by_cases hsub : Submits p a w c.id zipFilename exposePort c folder
  · obtain ⟨path, port, rfl, hcall⟩ := call_submitted h hsub
    obtain ⟨after, reply, hresult, hreply, hdb, hfolders, hbuilds⟩ :=
      deploy_unanswered a (w.withSources p a zipFilename c folder) c
        (p.destination zipFilename c.id) path (imageTag zipFilename c.id a.unixTime)
        (p.objectImage (imageTag zipFilename c.id a.unixTime) port)
        fun hanswered => hfailed ⟨hsub, hanswered⟩
    rw [withSources_db] at hdb
    rw [withSources_builds] at hbuilds
    rw [allOrNothing_of_failure (hcall.trans hresult) hreply,
      unchanged_iff h.row (.inl hdb) (hfolders.trans hreplaced), Traceless]
    exact and_congr_right' (hbuilds.trans ⟨fun hunstarted _ => hunstarted, fun hno => hno hsub⟩)
  · obtain ⟨after, reply, hresult, hreply, hdb, hfolders, hbuilds⟩ := call_unsubmitted h hsub
    rw [allOrNothing_of_failure hresult hreply,
      unchanged_iff h.row hdb (hfolders.trans hreplaced), Traceless]
    exact and_congr_right' (iff_of_true hbuilds fun hyes => absurd hyes hsub)

end Started

/-- An upload is all or nothing exactly if, once it has got to the sources: when it goes through,
the version is saved; and when it fails, the challenge's sources were elsewhere or were what is
left of the new ones, and no build has been started. -/
theorem allOrNothing_iff (p : Platform) (a : Answers) (w : World) (challengeId : Nat)
    (zipFilename : String) (exposePort : Option String) :
    AllOrNothing p a w challengeId zipFilename exposePort ↔
      ∀ c folder, Starts a w challengeId zipFilename c folder →
        (Submits p a w challengeId zipFilename exposePort c folder ∧ Answered a →
          a.saving = .saved) ∧
        (¬ (Submits p a w challengeId zipFilename exposePort c folder ∧ Answered a) →
          Traceless p a w challengeId zipFilename exposePort c folder) := by
  by_cases hstarts : ∃ c folder, Starts a w challengeId zipFilename c folder
  · obtain ⟨c, folder, h⟩ := hstarts
    obtain rfl : c.id = challengeId := Table.key_of_find h.row
    have honly : ∀ d other, Starts a w c.id zipFilename d other → d = c ∧ other = folder := by
      intro d other hother
      exact ⟨Option.some.inj (hother.row.symm.trans h.row),
        Archive.extracted.inj (hother.archive.symm.trans h.archive)⟩
    by_cases hall : Submits p a w c.id zipFilename exposePort c folder ∧ Answered a
    · rw [allOrNothing_answered h hall.1 hall.2]
      constructor
      · intro hsaved d other hother
        obtain ⟨rfl, rfl⟩ := honly d other hother
        exact ⟨fun _ => hsaved, fun hnot => absurd hall hnot⟩
      · exact fun hcondition => (hcondition c folder h).1 hall
    · rw [allOrNothing_failed h hall]
      constructor
      · intro htraceless d other hother
        obtain ⟨rfl, rfl⟩ := honly d other hother
        exact ⟨fun hboth => absurd hboth hall, fun _ => htraceless⟩
      · exact fun hcondition => (hcondition c folder h).2 hall
  · have hnone : ∀ c folder, ¬ Starts a w challengeId zipFilename c folder :=
      fun c folder h => hstarts ⟨c, folder, h⟩
    exact iff_of_true (allOrNothing_early hnone) fun c folder h => absurd h (hnone c folder)

end AllOrNothing

/-! ### An archive without a Dockerfile -/

def mount : Platform := ⟨"/mnt", "team", "web", fun _ => ""⟩

/-- A challenge that has been deployed from an archive `web.zip`. -/
def webChallenge : Versions.Challenge :=
  { id := 1, deployFile := some (mount.destination "web.zip" 1) }

def webSources : Folder := [⟨"", [("Dockerfile", [1])]⟩]

def webDeployed : World where
  db := {
    challenges := ⟨[webChallenge], List.nodup_singleton _⟩
    versions := { rows := [], nodup := List.nodup_nil } }
  folders path := if path = mount.destination "web.zip" 1 then some webSources else none
  redis _ := none
  builds := []

/-- Another archive of this name, with a single file. -/
def noDockerfile : Answers where
  archive := .extracted [⟨"", [("notes", [2])]⟩]
  unixTime := 0
  submission := ⟨false, .exception ""⟩
  workflowPhase := none

theorem noDockerfile_starts : Starts noDockerfile webDeployed 1 "web.zip" webChallenge
    [⟨"", [("notes", [2])]⟩] where
  cache := rfl
  file := rfl
  zip := by decide
  row := rfl
  archive := rfl
  makedirs := rfl

/-- The archive is refused, and the sources that the challenge runs with are gone. -/
theorem refused_archive_replaces : ¬ ∀ (p : Platform) (a : Answers) (w : World)
    (challengeId : Nat) (zipFilename : String) (exposePort : Option String),
    AllOrNothing p a w challengeId zipFilename exposePort := by
  intro h
  have hfailed : ¬ (Submits mount noDockerfile webDeployed 1 "web.zip" (some "80") webChallenge
      [⟨"", [("notes", [2])]⟩] ∧ Answered noDockerfile) := fun hboth =>
    absurd hboth.1.2.1 (by decide)
  have htraceless := (allOrNothing_failed (c := webChallenge) noDockerfile_starts hfailed).mp
    (h mount noDockerfile webDeployed 1 "web.zip" (some "80"))
  have hleft := htraceless.1 rfl
  have hthere : webDeployed.folders (mount.destination "web.zip" webChallenge.id) =
      some webSources := by
    simp only [webDeployed, webChallenge, if_pos]
  rw [leftovers_of_replaceable ⟨fun _ => rfl, rfl⟩, hthere] at hleft
  exact absurd (Option.some.inj hleft) (by decide)

end Fctf.Upload
