import Fctf.Contest.StoredFiles
import Fctf.Lib.Closure
import Fctf.Lib.Table

/-!
The endpoints of the management API through which a challenge writer or a jury member changes
challenges, flags, files, versions and the source folders of deployed challenges. The checks of a
body that need none of these tables are one Boolean of the request; the ids of new rows are given
by the database.
-/

namespace Fctf.Authorship

inductive Role
  | challengeWriter
  | jury
  deriving DecidableEq, Repr

inductive ChallengeState
  | visible
  | hidden
  | locked
  deriving DecidableEq, Repr

/-- A path in the file system, by its parts. -/
abbrev Path := List String

def under (folder path : Path) : Bool := folder.isPrefixOf path

theorem under_append (folder path : Path) : under folder (folder ++ path) = true := by
  induction folder with
  | nil => rfl
  | cons part rest ih => simp [under]

/-- Where an uploaded file is kept: a directory and a name in it. -/
abbrev Location := String × String

/-- A challenge; `usable` says that its type is registered and has its own row. -/
structure Challenge (X : Type) where
  id : Nat
  userId : Nat
  state : ChallengeState := .visible
  prerequisites : List Nat := []
  nextId : Option Nat := none
  requireDeploy : Bool := false
  deployFile : Option Path := none
  deployStatus : Option String := some "CREATED"
  imageLink : Option String := none
  usable : Bool := true
  rest : X
  deriving DecidableEq

structure Flag (X : Type) where
  id : Nat
  challengeId : Option Nat
  content : X
  deriving DecidableEq

abbrev File (X : Type) := StoredFiles.FileRow Location X

/-- The location as the database has it. -/
def locationText (location : Location) : String := "file/" ++ location.1 ++ "/" ++ location.2

/-- The comparison of locations in the database. -/
def sameLocation (collation : Collation) (location other : Location) : Bool :=
  collation.eq (locationText location) (locationText other)

structure Version (X : Type) where
  id : Nat
  challengeId : Nat
  isActive : Bool
  info : X
  deriving DecidableEq

/-- The table of files and what the uploader keeps. -/
structure FileStore (X : Type) where
  files : Table (StoredFiles.FileRow.id (L := Location) (H := X)) := {}
  uploads : Table (Prod.fst : Location × X → Location) := {}

/-- The tables, the uploaded files and the files in the source folders. -/
structure Site (X : Type) extends FileStore X where
  challenges : Table (Challenge.id (X := X)) := {}
  flags : Table (Flag.id (X := X)) := {}
  versions : Table (Version.id (X := X)) := {}
  sources : Table (Prod.fst : Path × X → Path) := {}

variable {X : Type}

/-- The body of `PATCH /challenges/<id>`: `edit` sets every attribute that it names. -/
structure ChallengePatch (X : Type) where
  accepted : Bool := true
  state : Option ChallengeState := none
  edit : Challenge X → Challenge X := id

/-- The body for a flag. Besides `challenge_id` the schema takes the relationship `challenge`,
and that one counts when the row is written. -/
structure FlagBody (X : Type) where
  accepted : Bool := true
  challengeId : Option (Option Nat) := none
  challenge : Option (Option Nat) := none
  edit : X → X := id

/-- How the upload of a source archive ends. -/
inductive DeployOutcome (X : Type)
  | refused
  /-- The folder is replaced, and the row is not saved. -/
  | unsaved (tree : Table (Prod.fst : Path × X → Path))
  /-- An exception: the folder may be replaced by then, and its name taken over. -/
  | failed (tree : Option (Table (Prod.fst : Path × X → Path))) (copied : Bool)
  | deployed (tree : Table (Prod.fst : Path × X → Path)) (imageLink : String) (version : X)

/-- The archive of the form's field `deploy_file`. -/
structure DeployFile (X : Type) where
  name : String
  outcome : DeployOutcome X

/-- A file of the form; `place` is the location that the uploader makes up. -/
structure Upload (X : Type) where
  place : Location
  content : X
  sha1sum : X

/-- The form of `POST /files`. -/
structure FilesForm (X : Type) where
  accepted : Bool := true
  /-- The form has the field, with or without a file in it. -/
  deployField : Bool := false
  deployFile : Option (DeployFile X) := none
  requireDeploy : Bool := false
  challengeId : Option Nat := none
  challenge : Option Nat := none
  challengeType : Bool := false
  description : Bool := false
  location : Option Location := none
  files : List (Upload X) := []

inductive Request (X : Type)
  | patchChallenge (id : Nat) (body : ChallengePatch X)
  | deleteChallenge (id : Nat)
  | postFiles (form : FilesForm X)
  | deleteFile (id : Nat)
  | postFlag (body : FlagBody X) (content : X)
  | patchFlag (id : Nat) (body : FlagBody X)
  | deleteFlag (id : Nat)
  | rollback (challengeId versionId : Nat)

section Cascade

/-- The ids of the challenges that require a challenge and are not hidden. -/
def dependents (challenges : List (Challenge X)) (current : Nat) : List Nat :=
  (challenges.filter fun dep =>
    decide (dep.state ≠ .hidden) && decide (current ∈ dep.prerequisites)).map Challenge.id

/-- `_cascade_hide_dependents`: hides the challenges that require a challenge, and so on. -/
def cascadeHideDependents (challenges : Table (Challenge.id (X := X))) (id : Nat) :
    Table (Challenge.id (X := X)) :=
  let seen := Closure.collect (dependents challenges.rows) (challenges.rows.length + 1) [id] [id]
  challenges.modify
    (fun c => if c.id ∈ seen ∧ c.id ≠ id then { c with state := .hidden } else c)
    fun c => by split <;> rfl

end Cascade

/-- The database sets `next_id` to null where it names a deleted challenge. -/
def Challenge.unlink (id : Nat) (d : Challenge X) : Challenge X :=
  if d.nextId = some id then { d with nextId := none } else d

theorem Challenge.unlink_id (id : Nat) (d : Challenge X) : (d.unlink id).id = d.id := by
  rw [unlink]
  split <;> rfl

theorem Challenge.unlink_userId (id : Nat) (d : Challenge X) :
    (d.unlink id).userId = d.userId := by
  rw [unlink]
  split <;> rfl

theorem Challenge.unlink_nextId (id : Nat) (d : Challenge X) :
    (d.unlink id).nextId ≠ some id := by
  rw [unlink]
  split
  · simp
  · assumption

namespace Site

variable (s : Site X)

/-- Whether a prerequisite of a challenge is hidden. -/
def hiddenPrerequisite (challenges : List (Challenge X)) (c : Challenge X) : Bool :=
  challenges.any fun p => decide (p.id ∈ c.prerequisites) && decide (p.state = .hidden)

/-- The author's edit of a challenge. -/
def patched (u : Nat) (body : ChallengePatch X) (c : Challenge X) : Challenge X :=
  { body.edit c with userId := u, state := body.state.getD c.state }

/-- The challenges with the edit; the edit may name another id. -/
def withPatched (u : Nat) (body : ChallengePatch X) (c : Challenge X) :
    Table (Challenge.id (X := X)) :=
  (s.challenges.filter fun d => decide (d.id ≠ c.id)).put (patched u body c)

/-- No row refers to a challenge. -/
def Unreferenced (id : Nat) : Prop :=
  (∀ d ∈ s.challenges.rows, d.nextId ≠ some id) ∧ (∀ f ∈ s.flags.rows, f.challengeId ≠ some id) ∧
    (∀ f ∈ s.files.rows, f.challenge_id ≠ some id) ∧ ∀ v ∈ s.versions.rows, v.challengeId ≠ id

instance decidableUnreferenced (id : Nat) : Decidable (s.Unreferenced id) :=
  inferInstanceAs (Decidable (_ ∧ _ ∧ _ ∧ _))

/-- The keys of the database hold after the edit: the next challenge is there, and only an id to
which no row refers becomes another one, and one that is free. -/
def KeysHold (u : Nat) (body : ChallengePatch X) (c : Challenge X) : Prop :=
  (∀ next ∈ (patched u body c).nextId, ((s.withPatched u body c).find next).isSome = true) ∧
    ((patched u body c).id = c.id ∨
      ((s.challenges.find (patched u body c).id).isNone = true ∧ s.Unreferenced c.id))

instance decidableKeysHold (u : Nat) (body : ChallengePatch X) (c : Challenge X) :
    Decidable (s.KeysHold u body c) :=
  inferInstanceAs (Decidable ((∀ _ ∈ _, _) ∧ (_ ∨ _)))

/-- The edit is saved: the user is a challenge writer and the author. -/
def Patches (role : Role) (u : Nat) (body : ChallengePatch X) (c : Challenge X) : Prop :=
  body.accepted = true ∧ role = .challengeWriter ∧ c.userId = u ∧ c.usable = true ∧
    s.KeysHold u body c

instance decidablePatches (role : Role) (u : Nat) (body : ChallengePatch X) (c : Challenge X) :
    Decidable (s.Patches role u body c) :=
  inferInstanceAs (Decidable (_ ∧ _ ∧ _ ∧ _ ∧ _))

/-- The edit hides the challenge, or it is hidden because a prerequisite is. -/
def Hides (u : Nat) (body : ChallengePatch X) (c : Challenge X) : Prop :=
  (body.state = some .hidden ∧ c.state ≠ .hidden) ∨
    (hiddenPrerequisite (s.withPatched u body c).rows (patched u body c) = true ∧
      (patched u body c).state ≠ .hidden)

instance decidableHides (u : Nat) (body : ChallengePatch X) (c : Challenge X) :
    Decidable (s.Hides u body c) :=
  inferInstanceAs (Decidable ((_ ∧ _) ∨ (_ ∧ _)))

/-- Hides a challenge and those that depend on it. -/
def hidePatched (challenges : Table (Challenge.id (X := X))) (c : Challenge X) :
    Table (Challenge.id (X := X)) :=
  cascadeHideDependents (challenges.put { c with state := .hidden }) c.id

/-- `PATCH /challenges/<id>`: the only endpoint that looks at the author. -/
def patchChallenge (role : Role) (u id : Nat) (body : ChallengePatch X) : Site X :=
  match s.challenges.find id with
  | none => s
  | some c =>
    if s.Patches role u body c then
      { s with challenges :=
          if s.Hides u body c then hidePatched (s.withPatched u body c) (patched u body c)
          else s.withPatched u body c }
    else s

/-- Deletes what lies below a folder. -/
def deleteFolder (sources : Table (Prod.fst : Path × X → Path)) :
    Option Path → Table (Prod.fst : Path × X → Path)
  | none => sources
  | some folder => sources.filter fun a => !(under folder a.1 && decide (a.1 ≠ folder))

/-- An uploaded file is deleted together with its directory. -/
def deleteUpload (uploads : Table (Prod.fst : Location × X → Location)) (location : Location) :
    Table (Prod.fst : Location × X → Location) :=
  if (uploads.find location).isSome = true then
    uploads.filter fun a => decide (a.1.1 ≠ location.1)
  else uploads

/-- `ChallengeFiles.query`: the rows of its own type. -/
def filesOf (id : Nat) : List (File X) :=
  s.files.rows.filter fun f => decide (f.type = .challenge) && decide (f.challenge_id = some id)

/-- `DELETE /challenges/<id>` looks at no author. -/
def deleteChallenge (id : Nat) : Site X :=
  match s.challenges.find id with
  | none => s
  | some c =>
    if c.usable then
      { challenges := (s.challenges.filter fun d => decide (d.id ≠ id)).modify
          (Challenge.unlink id) (Challenge.unlink_id id)
        flags := s.flags.filter fun f => decide (f.challengeId ≠ some id)
        files := s.files.filter fun f => decide (f.challenge_id ≠ some id)
        versions := s.versions.filter fun v => decide (v.challengeId ≠ id)
        uploads := (s.filesOf id).foldl (fun uploads f => deleteUpload uploads f.location) s.uploads
        sources := if c.requireDeploy then deleteFolder s.sources c.deployFile else s.sources }
    else s

def deleteFile (id : Nat) : Site X :=
  match s.files.find id with
  | none => s
  | some f =>
    { s with
      uploads := deleteUpload s.uploads f.location
      files := s.files.filter fun g => decide (g.id ≠ id) }

/-- The challenge that a `challenge_id` of a body names has to be there. -/
def Known (challengeId : Option (Option Nat)) : Prop :=
  ∀ id ∈ challengeId.join, (s.challenges.find id).isSome = true

instance decidableKnown (challengeId : Option (Option Nat)) : Decidable (s.Known challengeId) :=
  inferInstanceAs (Decidable (∀ _ ∈ _, _))

end Site

/-- The challenge of a flag after the body. -/
def FlagBody.challengeOf (body : FlagBody X) (old : Option Nat) : Option Nat :=
  body.challenge.getD (body.challengeId.getD old)

def FlagBody.apply (body : FlagBody X) (f : Flag X) : Flag X :=
  { f with challengeId := body.challengeOf f.challengeId, content := body.edit f.content }

/-- The files of a form are files of a challenge. -/
def FilesForm.isChallenge (form : FilesForm X) : Bool := form.challengeType || form.description

/-- The challenge that the form names. -/
def FilesForm.named (form : FilesForm X) : Option Nat := form.challengeId.or form.challenge

/-- The challenge that a new file gets. -/
def FilesForm.target (form : FilesForm X) : Option Nat :=
  if form.isChallenge then form.named else none

/-- The attributes that a file of the form gives to its row. -/
def FilesForm.modelArgs (form : FilesForm X) (location : Location) (file : Upload X) :
    StoredFiles.ModelArgs Location X where
  type := if form.isChallenge then .challenge else .standard
  location := location
  sha1sum := file.sha1sum
  challenge_id := form.target

namespace Site

variable (s : Site X)

def postFlag (body : FlagBody X) (content : X) : Site X :=
  if body.accepted = true ∧ s.Known body.challengeId then
    { s with flags :=
        s.flags.add (fun id => ⟨id, body.challengeOf none, content⟩) fun _ => rfl }
  else s

def patchFlag (id : Nat) (body : FlagBody X) : Site X :=
  match s.flags.find id with
  | none => s
  | some f =>
    if body.accepted = true ∧ s.Known body.challengeId then
      { s with flags := s.flags.put (body.apply f) }
    else s

def deleteFlag (id : Nat) : Site X :=
  { s with flags := s.flags.filter fun f => decide (f.id ≠ id) }

/-- `POST /files` from the deploy tab without `require_deploy` clears the deployment. -/
def cleared (c : Challenge X) : Challenge X :=
  { c with
    imageLink := none, deployStatus := some "CREATED", requireDeploy := false, deployFile := none }

def clearDeployment (c : Challenge X) : Site X :=
  { s with
    sources := deleteFolder s.sources c.deployFile
    challenges := s.challenges.put (cleared c) }

def uploadFailed (folder : Option Path) (c : Challenge X) : Challenge X :=
  { c with
    state := .hidden, deployStatus := some "FILE_UPLOAD_FAILED"
    deployFile := folder.or c.deployFile }

def deployed (imageLink : String) (folder : Path) (c : Challenge X) : Challenge X :=
  { c with
    state := .hidden, deployStatus := some "PENDING_DEPLOY", requireDeploy := true
    imageLink := some imageLink, deployFile := some folder }

/-- The versions of a challenge that gets a new one are not active. -/
def superseded (challengeId : Nat) (v : Version X) : Version X :=
  if v.challengeId = challengeId then { v with isActive := false } else v

theorem superseded_id (challengeId : Nat) (v : Version X) :
    (superseded challengeId v).id = v.id := by
  rw [superseded]
  split <;> rfl

/-- Replaces a folder by the files of an archive. -/
def replaceFolder (sources tree : Table (Prod.fst : Path × X → Path)) (folder : Path) :
    Table (Prod.fst : Path × X → Path) where
  rows := (sources.rows.filter fun a => !under folder a.1) ++
    tree.rows.map fun a => (folder ++ a.1, a.2)
  nodup := by
    rw [List.map_append, List.map_map]
    refine List.nodup_append'.mpr ⟨?_, ?_, ?_⟩
    · exact sources.nodup.sublist (List.filter_sublist.map _)
    · have hkeys : tree.rows.map (Prod.fst ∘ fun a : Path × X => (folder ++ a.1, a.2)) =
          (tree.rows.map Prod.fst).map (folder ++ ·) := by
        rw [List.map_map]
        rfl
      rw [hkeys]
      exact tree.nodup.map (List.append_right_injective folder)
    · intro path hold hnew
      obtain ⟨a, ha, rfl⟩ := List.mem_map.mp hold
      obtain ⟨b, -, hb⟩ := List.mem_map.mp hnew
      have hunder := (List.mem_filter.mp ha).2
      have hb : folder ++ b.1 = a.1 := hb
      rw [← hb, under_append] at hunder
      cases hunder

/-- `handle_challenge_upload`. -/
def deploy (destination : String → Nat → Path) (c : Challenge X) (file : DeployFile X) : Site X :=
  let folder := destination file.name c.id
  match file.outcome with
  | .refused => s
  | .unsaved tree => { s with sources := replaceFolder s.sources tree folder }
  | .failed tree copied =>
    { s with
      sources := tree.elim s.sources fun tree => replaceFolder s.sources tree folder
      challenges := s.challenges.put (uploadFailed (if copied then some folder else none) c) }
  | .deployed tree imageLink version =>
    { s with
      sources := replaceFolder s.sources tree folder
      challenges := s.challenges.put (deployed imageLink folder c)
      versions := (s.versions.modify (superseded c.id) (superseded_id c.id)).add
        (fun id => ⟨id, c.id, true, version⟩) fun _ => rfl }

end Site

namespace FileStore

variable (collation : Collation) (store : FileStore X)

/-- What `upload_file` leaves of a file that it takes. -/
def create (form : FilesForm X) (location : Location) (file : Upload X) : FileStore X where
  uploads := store.uploads.put (location, file.content)
  files := (StoredFiles.recordFile (sameLocation collation) store.files
    (form.modelArgs location file)).2

/-- The locations that the uploader makes up are random, and so in use nowhere. -/
def Unused (files : List (Upload X)) : Prop :=
  (files.map Upload.place).Pairwise (fun p q => sameLocation collation p q = false) ∧
    ∀ file ∈ files, store.uploads.find file.place = none ∧
      ∀ f ∈ store.files.rows, sameLocation collation f.location file.place = false

instance decidableUnused (files : List (Upload X)) : Decidable (store.Unused collation files) :=
  have : ∀ file : Upload X, Decidable (store.uploads.find file.place = none) :=
    fun _ => inferInstance
  inferInstanceAs (Decidable (_ ∧ _))

/-- The files of a form one after the other; only a single file may have a location. -/
def createAll (form : FilesForm X) : FileStore X :=
  match form.location, form.files with
  | some location, [file] => store.create collation form location file
  | some _, _ => store
  | none, files =>
    files.foldl (fun store file => store.create collation form file.place file) store

end FileStore

namespace Site

variable (collation : Collation) (s : Site X)

/-- Whether `upload_file` takes the files: the challenge that the form names is there. -/
def Takes (form : FilesForm X) : Prop :=
  ((form.named.isSome || form.isChallenge) = true →
    (form.named.bind s.challenges.find).isSome = true) ∧
      (form.location = none → s.Unused collation form.files)

instance decidableTakes (form : FilesForm X) : Decidable (s.Takes collation form) :=
  inferInstanceAs (Decidable (_ ∧ _))

def createFiles (form : FilesForm X) : Site X :=
  if s.Takes collation form then
    { s with toFileStore := s.toFileStore.createAll collation form }
  else s

def postFiles (destination : String → Nat → Path) (form : FilesForm X) : Site X :=
  if form.accepted = false then s
  else
    match form.challengeId.bind s.challenges.find with
    | none =>
      if form.challengeId.isSome || form.deployFile.isSome || form.challengeType ||
          (form.deployField && !form.requireDeploy) then s
      else s.createFiles collation form
    | some c =>
      if form.deployField && !form.requireDeploy then
        if form.files.isEmpty then s.clearDeployment c
        else (s.clearDeployment c).createFiles collation form
      else
        match form.deployFile, form.requireDeploy, form.location, form.files with
        | some _, true, some _, _ :: _ :: _ => s
        | some file, true, _, _ => s.deploy destination c file
        | _, _, _, _ => s.createFiles collation form

/-- The endpoints. Only an admin rolls back to a version. -/
def step (destination : String → Nat → Path) (role : Role) (u : Nat) : Request X → Site X
  | .patchChallenge id body => s.patchChallenge role u id body
  | .deleteChallenge id => s.deleteChallenge id
  | .postFiles form => s.postFiles collation destination form
  | .deleteFile id => s.deleteFile id
  | .postFlag body content => s.postFlag body content
  | .patchFlag id body => s.patchFlag id body
  | .deleteFlag id => s.deleteFlag id
  | .rollback _ _ => s

end Site

end Fctf.Authorship
