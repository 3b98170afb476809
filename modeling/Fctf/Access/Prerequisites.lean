import Fctf.Lib.Requirement
import Fctf.Lib.Run
import Fctf.Access.AuthorRespect
import Fctf.Deploy.Callbacks

/-!
What hides and shows challenges, beside the challenges that require one another. Only the edit of
a challenge runs the cascade over its dependents; a new challenge, an uploaded archive and the
poll of a deployment set the state alone.
-/

namespace Fctf.Authorship

open Site

variable {X : Type}

/-- Who edits a challenge. -/
inductive Editor
  | admin
  | challengeWriter (userId : Nat)
  | jury

def Editor.mayPatch (c : Challenge X) : Editor → Bool
  | .admin => true
  | .challengeWriter userId => decide (c.userId = userId)
  | .jury => false

/-- The body of `POST /challenges`. The id is named by the body or given by the database. -/
structure NewChallenge (X : Type) where
  accepted : Bool := true
  id : Nat
  row : Challenge X

def NewChallenge.challenge (body : NewChallenge X) : Challenge X := { body.row with id := body.id }

/-- The body of `PATCH /challenges/<id>`, with the prerequisites that it names. -/
structure ChallengeEdit (X : Type) extends ChallengePatch X where
  requirements : Option (List Nat) := none

def ChallengeEdit.toPatch (body : ChallengeEdit X) : ChallengePatch X :=
  { body.toChallengePatch with
    edit := fun c =>
      { body.edit c with prerequisites := body.requirements.getD c.prerequisites } }

inductive Action (X : Type)
  | create (body : NewChallenge X)
  | patch (editor : Editor) (id : Nat) (body : ChallengeEdit X)
  | delete (id : Nat)
  | upload (form : FilesForm X)
  /-- The poll of a deployment; without a phase its status could not be read. -/
  | poll (id : Nat) (phase : Option String)
  /-- A callback of the workflow to the deployment center. -/
  | workflowStatus (challengeId : Option Nat) (status : Option String) (saved : Bool)
  /-- A callback to the management platform. -/
  | updateInfo (challengeId : Nat) (status : String) (imageLink : Option String) (saved : Bool)

/-- An archive is deployed only when no deployment is pending. -/
def DeployOutcome.Occurs (c : Challenge X) : DeployOutcome X → Prop
  | .deployed _ _ _ => c.deployStatus ≠ some "PENDING_DEPLOY"
  | _ => True

instance decidableOccurs (c : Challenge X) : ∀ outcome : DeployOutcome X,
    Decidable (outcome.Occurs c)
  | .deployed _ _ _ => inferInstanceAs (Decidable (_ ≠ _))
  | .refused | .unsaved _ | .failed _ _ => inferInstanceAs (Decidable True)

namespace Site

variable (s : Site X)

/-- `ChallengeRequirementsValidator`: the prerequisites are unique, and they are there. -/
def Admits (prerequisites : List Nat) : Prop :=
  prerequisites.Nodup ∧ ∀ id ∈ prerequisites, (s.challenges.find id).isSome = true

instance decidableAdmits (prerequisites : List Nat) : Decidable (s.Admits prerequisites) :=
  inferInstanceAs (Decidable (_ ∧ _))

/-- A new challenge is saved: its id is free, and the next challenge is there. -/
def Creates (body : NewChallenge X) : Prop :=
  body.accepted = true ∧ s.Admits body.row.prerequisites ∧
    (s.challenges.find body.id).isNone = true ∧
      ∀ next ∈ body.row.nextId, next = body.id ∨ (s.challenges.find next).isSome = true

instance decidableCreates (body : NewChallenge X) : Decidable (s.Creates body) :=
  inferInstanceAs (Decidable (_ ∧ _ ∧ _ ∧ ∀ _ ∈ _, _))

/-- `POST /challenges` asks for no state of the prerequisites. -/
def createChallenge (body : NewChallenge X) : Site X :=
  if s.Creates body then { s with challenges := s.challenges.put body.challenge } else s

/-- The editor may edit the challenge, and the prerequisites are admitted. -/
def MayEdit (editor : Editor) (body : ChallengeEdit X) (c : Challenge X) : Prop :=
  editor.mayPatch c = true ∧ ∀ ids ∈ body.requirements, s.Admits ids

instance decidableMayEdit (editor : Editor) (body : ChallengeEdit X) (c : Challenge X) :
    Decidable (s.MayEdit editor body c) :=
  inferInstanceAs (Decidable (_ ∧ ∀ _ ∈ _, _))

/-- `PATCH /challenges/<id>`. The edit of an admin keeps the author, and so it is the one that
the author makes. -/
def editChallenge (editor : Editor) (id : Nat) (body : ChallengeEdit X) : Site X :=
  match s.challenges.find id with
  | none => s
  | some c =>
    if s.MayEdit editor body c then s.patchChallenge .challengeWriter c.userId id body.toPatch
    else s

/-- `GET /challenges/<id>/deploy-duration`. -/
def pollDeployment (id : Nat) (phase : Option String) : Site X :=
  match s.challenges.find id with
  | none => s
  | some c =>
    if c.requireDeploy = false then s
    else if phase = some "Succeeded" then
      { s with challenges := s.challenges.put { c with deployStatus := some "DEPLOY_SUCCESS" } }
    else if phase = some "Failed" ∨ phase = some "Error" then
      { s with challenges :=
          s.challenges.put { c with deployStatus := some "DEPLOY_FAILED", state := .hidden } }
    else s

/-- The state that `HandleMessageUpChallenge` gives a challenge. -/
def stateAfter (deployStatus : String) (state : ChallengeState) : ChallengeState :=
  if deployStatus = Callbacks.DeploymentStatus.SUCCEEDED then .visible
  else if deployStatus = Callbacks.DeploymentStatus.FAILED then .hidden
  else state

/-- `HandleMessageUpChallenge`. -/
def workflowStatus (challengeId : Option Nat) (status : Option String) (saved : Bool) : Site X :=
  match challengeId.bind s.challenges.find with
  | none => s
  | some c =>
    let deployStatus := Callbacks.getDeploymentStatus (status.getD "")
    if saved then
      { s with challenges :=
          s.challenges.put { c with
            deployStatus := some deployStatus, state := stateAfter deployStatus c.state } }
    else s

/-- `update_challenge_info`. -/
def updateChallengeInfo (challengeId : Nat) (status : String) (imageLink : Option String)
    (saved : Bool) : Site X :=
  match s.challenges.find challengeId with
  | none => s
  | some c =>
    if saved then
      { s with challenges :=
          s.challenges.put { c with deployStatus := some status, imageLink := imageLink } }
    else s

/-- An archive of the form ends in a way that it can for its challenge. -/
def Uploads (form : FilesForm X) : Prop :=
  ∀ c ∈ form.challengeId.bind s.challenges.find, ∀ file ∈ form.deployFile, file.outcome.Occurs c

instance decidableUploads (form : FilesForm X) : Decidable (s.Uploads form) :=
  inferInstanceAs (Decidable (∀ _ ∈ _, ∀ _ ∈ _, _))

def act (collation : Collation) (destination : String → Nat → Path) :
    Action X → Option (Site X)
  | .create body => some (s.createChallenge body)
  | .patch editor id body => some (s.editChallenge editor id body)
  | .delete id => some (s.deleteChallenge id)
  | .upload form =>
    if s.Uploads form then some (s.postFiles collation destination form) else none
  | .poll id phase => some (s.pollDeployment id phase)
  | .workflowStatus challengeId status saved => some (s.workflowStatus challengeId status saved)
  | .updateInfo challengeId status imageLink saved =>
    some (s.updateChallengeInfo challengeId status imageLink saved)

/-- No visible challenge has a prerequisite that is hidden. -/
def NoHiddenPrerequisite : Prop :=
  ∀ c ∈ s.challenges.rows, c.state = .visible →
    ∀ p ∈ s.challenges.rows, p.id ∈ c.prerequisites → p.state ≠ .hidden

/-- Every prerequisite of a visible challenge is visible. -/
def PrerequisitesVisible : Prop :=
  ∀ c ∈ s.challenges.rows, c.state = .visible →
    ∀ p ∈ s.challenges.rows, p.id ∈ c.prerequisites → p.state = .visible

instance decidableNoHiddenPrerequisite : Decidable s.NoHiddenPrerequisite :=
  inferInstanceAs (Decidable (∀ _ ∈ _, _))

instance decidablePrerequisitesVisible : Decidable s.PrerequisitesVisible :=
  inferInstanceAs (Decidable (∀ _ ∈ _, _))

end Site

section Gates

open Requirement

/-- What the rule looks at in a challenge. -/
def Challenge.gate (c : Challenge X) : Entry Nat ChallengeState := ⟨c.state, c.prerequisites⟩

/-- The entries of a table of challenges. -/
def gates (challenges : Table (Challenge.id (X := X))) (id : Nat) :
    Option (Entry Nat ChallengeState) :=
  (challenges.find id).map Challenge.gate

abbrev Shows (entries : Nat → Option (Entry Nat ChallengeState)) : Prop :=
  Coherent ChallengeState.visible .hidden entries

variable {s : Site X} {challenges : Table (Challenge.id (X := X))} {c : Challenge X}

theorem visible_ne_hidden : ChallengeState.visible ≠ .hidden := by decide

theorem gates_of_mem (hc : c ∈ challenges.rows) : gates challenges c.id = some c.gate := by
  rw [gates, Table.find_key hc, Option.map_some]

theorem mem_gates {id : Nat} {e : Entry Nat ChallengeState} :
    e ∈ gates challenges id ↔ ∃ c ∈ challenges.rows, c.id = id ∧ c.gate = e := by
  simp only [gates, Option.mem_def, Option.map_eq_some_iff, Table.find_eq_some, and_assoc]

theorem noHiddenPrerequisite_iff_shows : s.NoHiddenPrerequisite ↔ Shows (gates s.challenges) := by
  constructor
  · intro h id d hd hvisible p hp e he
    obtain ⟨c, hc, -, rfl⟩ := mem_gates.mp hd
    obtain ⟨q, hq, rfl, rfl⟩ := mem_gates.mp he
    exact h c hc hvisible q hq hp
  · intro h c hc hvisible p hp hrequired
    exact h c.id c.gate (gates_of_mem hc) hvisible p.id hrequired p.gate (gates_of_mem hp)

theorem Site.PrerequisitesVisible.noHiddenPrerequisite (h : s.PrerequisitesVisible) :
    s.NoHiddenPrerequisite := by
  intro c hc hvisible p hp hrequired hhidden
  have hstate := (h c hc hvisible p hp hrequired).symm.trans hhidden
  exact visible_ne_hidden hstate

theorem gates_put (c : Challenge X) :
    gates (challenges.put c) = Function.update (gates challenges) c.id (some c.gate) := by
  funext id
  rw [gates, Table.find_put, Function.update_apply]
  split <;> rfl

theorem gates_erase (id : Nat) :
    gates (challenges.filter fun d => decide (d.id ≠ id)) =
      Function.update (gates challenges) id none := by
  funext other
  rw [gates, Table.find_filter, Function.update_apply]
  cases hfind : challenges.find other with
  | none => simp [gates, hfind]
  | some d =>
    have hkey : d.id = other := Table.key_of_find hfind
    by_cases hid : other = id <;> simp [gates, hfind, hkey, hid]

theorem gates_modify {f : Challenge X → Challenge X} (hid : ∀ c, (f c).id = c.id)
    (hgate : ∀ c, (f c).gate = c.gate) : gates (challenges.modify f hid) = gates challenges := by
  funext id
  rw [gates, Table.find_modify, Option.map_map]
  exact congrArg (Option.map · _) (funext hgate)

end Gates

section Cascade

open Requirement

variable {challenges : Table (Challenge.id (X := X))}

theorem gates_cascade (id : Nat) :
    gates (cascadeHideDependents challenges id) =
      Requirement.hideAll .hidden (fun k => k ∈ Closure.collect (dependents challenges.rows)
        (challenges.rows.length + 1) [id] [id] ∧ k ≠ id) (gates challenges) := by
  funext k
  rw [gates, cascadeHideDependents, Table.find_modify, Requirement.hideAll, gates,
    Option.map_map, Option.map_map]
  refine Option.map_congr fun c hc => ?_
  have hkey : c.id = k := Table.key_of_find hc
  simp only [Function.comp_apply, hkey]
  split <;> rfl

/-- When only the hidden challenge that the cascade begins with is in the way, nothing is in the
way after it. -/
theorem shows_cascade {id : Nat} (h : Shows (Function.update (gates challenges) id none))
    (hhidden : ∀ e ∈ gates challenges id, e.state = .hidden) :
    Shows (gates (cascadeHideDependents challenges id)) := by
  rw [gates_cascade]
  have hother : ∀ k, ∀ d ∈ gates challenges k, d.state = .visible → k ≠ id := by
    rintro k d hd hvisible rfl
    exact visible_ne_hidden (hvisible.symm.trans (hhidden d hd))
  have hstep : ∀ k, ∀ d ∈ gates challenges k, d.state = .visible → ∀ p ∈ d.requires,
      p ∈ Closure.collect (dependents challenges.rows) (challenges.rows.length + 1) [id] [id] →
        k ∈ Closure.collect (dependents challenges.rows)
          (challenges.rows.length + 1) [id] [id] := by
    intro k d hd hvisible p hp hseen
    rw [mem_cascade_seen] at hseen ⊢
    refine hseen.tail ?_
    obtain ⟨c, hc, hid, rfl⟩ := mem_gates.mp hd
    refine mem_dependents.mpr ⟨c, hc, hid, fun hstate => ?_, hp⟩
    exact visible_ne_hidden (hvisible.symm.trans hstate)
  apply coherent_hideAll visible_ne_hidden
  · intro k d hd hvisible p hp e he hstate
    have hk := hother k d hd hvisible
    refine ⟨hstep k d hd hvisible p hp ?_, hk⟩
    -- Without the first challenge all is well, so it is the one that is required.
    by_cases hpid : p = id
    · rw [hpid, mem_cascade_seen]
    · refine absurd hstate (h k d ?_ hvisible p hp e ?_)
      · rwa [Function.update_of_ne hk]
      · rwa [Function.update_of_ne hpid]
  · intro k d hd hvisible p hp hreached
    exact ⟨hstep k d hd hvisible p hp hreached.1, hother k d hd hvisible⟩

end Cascade

section Conditions

open Requirement

variable (s : Site X)

/-- Another challenge that is visible requires the challenge. -/
abbrev Site.RequiredBy (id : Nat) : Prop := Required ChallengeState.visible (gates s.challenges) id

/-- A new challenge is not visible before its prerequisites, nor hidden under an id that a visible
challenge requires. -/
def Site.KeepsOnCreate (body : NewChallenge X) : Prop :=
  s.Creates body →
    (body.row.state = .visible →
      Showable .hidden (gates s.challenges) body.id body.row.gate) ∧
        (body.row.state = .hidden → ¬ s.RequiredBy body.id)

/-- An edit does not bring a hidden challenge to an id that a visible challenge requires. -/
def Site.KeepsOnPatch (editor : Editor) (id : Nat) (body : ChallengeEdit X) : Prop :=
  ∀ c ∈ s.challenges.find id, s.MayEdit editor body c →
    s.Patches .challengeWriter c.userId body.toPatch c → ¬ s.Hides c.userId body.toPatch c →
      (patched c.userId body.toPatch c).state = .hidden →
        ¬ s.RequiredBy (patched c.userId body.toPatch c).id

/-- The archive that `POST /files` deploys. -/
def FilesForm.archive (form : FilesForm X) : Option (DeployFile X) :=
  if form.deployField && !form.requireDeploy then none
  else
    match form.deployFile, form.requireDeploy, form.location, form.files with
    | some _, true, some _, _ :: _ :: _ => none
    | some file, true, _, _ => some file
    | _, _, _, _ => none

/-- The outcomes that hide the challenge. -/
def DeployOutcome.hides : DeployOutcome X → Bool
  | .refused | .unsaved _ => false
  | .failed _ _ | .deployed _ _ _ => true

/-- No visible challenge requires the one whose archive is uploaded. -/
def Site.KeepsOnUpload (form : FilesForm X) : Prop :=
  form.accepted = true → ∀ file ∈ form.archive, file.outcome.hides = true →
    ∀ c ∈ form.challengeId.bind s.challenges.find, ¬ s.RequiredBy c.id

/-- No visible challenge requires the one whose deployment has failed. -/
def Site.KeepsOnPoll (id : Nat) (phase : Option String) : Prop :=
  phase = some "Failed" ∨ phase = some "Error" →
    ∀ c ∈ s.challenges.find id, c.requireDeploy = true → ¬ s.RequiredBy id

/-- What an action has to keep to, where no cascade follows it. -/
def Site.KeepsOn : Action X → Prop
  | .create body => s.KeepsOnCreate body
  | .patch editor id body => s.KeepsOnPatch editor id body
  | .upload form => s.Uploads form → s.KeepsOnUpload form
  | .poll id phase => s.KeepsOnPoll id phase
  | .delete _ | .workflowStatus _ _ _ | .updateInfo _ _ _ _ => True

end Conditions

section Actions

open Requirement

variable {s : Site X} (h : Shows (gates s.challenges))

include h

theorem shows_put_iff (c : Challenge X) :
    Shows (gates (s.challenges.put c)) ↔
      (c.state = .visible → Showable .hidden (gates s.challenges) c.id c.gate) ∧
        (c.state = .hidden → ¬ s.RequiredBy c.id) := by
  rw [gates_put]
  exact h.put_iff visible_ne_hidden c.id c.gate

/-- A challenge that is hidden without a cascade. -/
theorem shows_hide_iff (c : Challenge X) (hhidden : c.state = .hidden) :
    Shows (gates (s.challenges.put c)) ↔ ¬ s.RequiredBy c.id := by
  rw [gates_put]
  exact h.hide_iff visible_ne_hidden c.id c.gate hhidden

/-- A change that leaves the state and the prerequisites of a challenge. -/
theorem shows_put {c : Challenge X} (c' : Challenge X) (hc : c ∈ s.challenges.rows)
    (hid : c'.id = c.id) (hgate : c'.gate = c.gate) : Shows (gates (s.challenges.put c')) := by
  rwa [gates_put, hid, hgate, ← gates_of_mem hc, Function.update_eq_self]

theorem shows_create_iff {body : NewChallenge X} :
    Shows (gates (s.createChallenge body).challenges) ↔ s.KeepsOnCreate body := by
  rw [createChallenge, KeepsOnCreate]
  split
  · rename_i hcreates
    rw [forall_prop_of_true hcreates]
    exact shows_put_iff h body.challenge
  · rename_i hrefused
    exact iff_of_true h fun hcreates => absurd hcreates hrefused

theorem shows_deploy_iff {destination : String → Nat → Path} {c : Challenge X}
    {file : DeployFile X} :
    Shows (gates (s.deploy destination c file).challenges) ↔
      (file.outcome.hides = true → ¬ s.RequiredBy c.id) := by
  rw [deploy]
  cases file.outcome with
  | refused => exact iff_of_true h Bool.noConfusion
  | unsaved tree => exact iff_of_true h Bool.noConfusion
  | failed tree copied =>
    rw [DeployOutcome.hides, forall_prop_of_true rfl]
    exact shows_hide_iff h (uploadFailed _ c) rfl
  | deployed tree imageLink version =>
    rw [DeployOutcome.hides, forall_prop_of_true rfl]
    exact shows_hide_iff h (deployed imageLink _ c) rfl

omit h in
theorem createFiles_challenges {collation : Collation} {form : FilesForm X} :
    (s.createFiles collation form).challenges = s.challenges := by
  rw [createFiles]
  split <;> rfl

theorem shows_postFiles_iff {collation : Collation} {destination : String → Nat → Path}
    {form : FilesForm X} :
    Shows (gates (s.postFiles collation destination form).challenges) ↔ s.KeepsOnUpload form := by
  rw [postFiles, KeepsOnUpload]
  cases haccepted : form.accepted with
  | false => simpa using h
  | true =>
    rw [if_neg Bool.noConfusion, forall_prop_of_true rfl]
    cases hnamed : form.challengeId.bind s.challenges.find with
    | none =>
      dsimp only
      split
      · simpa using h
      · rw [createFiles_challenges]
        simpa using h
    | some c =>
      obtain ⟨id, -, hfind⟩ := Option.bind_eq_some_iff.mp hnamed
      have hc := Table.mem_of_find hfind
      simp only [Option.mem_def, Option.some.injEq, forall_eq', FilesForm.archive]
      split
      · have hcleared : Shows (gates (s.clearDeployment c).challenges) :=
          shows_put h (cleared c) hc rfl rfl
        split
        · simpa using hcleared
        · rw [createFiles_challenges]
          simpa using hcleared
      · have hcreate : Shows (gates (s.createFiles collation form).challenges) := by
          rwa [createFiles_challenges]
        rcases form.deployFile with _ | file
        · simpa using hcreate
        · cases form.requireDeploy with
          | false => simpa using hcreate
          | true =>
            rcases form.location with _ | location
            · simpa using shows_deploy_iff h
            · rcases form.files with _ | ⟨first, _ | ⟨second, rest⟩⟩
              · simpa using shows_deploy_iff h
              · simpa using shows_deploy_iff h
              · simpa using h

theorem shows_poll_iff {id : Nat} {phase : Option String} :
    Shows (gates (s.pollDeployment id phase).challenges) ↔ s.KeepsOnPoll id phase := by
  rw [pollDeployment, KeepsOnPoll]
  cases hfind : s.challenges.find id with
  | none => simpa using h
  | some c =>
    have hc := Table.mem_of_find hfind
    have hkey : c.id = id := Table.key_of_find hfind
    simp only [Option.mem_def, Option.some.injEq, forall_eq']
    split
    · rename_i hdeploy
      simpa [hdeploy] using h
    · rename_i hdeploy
      rw [Bool.not_eq_false] at hdeploy
      split
      · rename_i hphase
        refine iff_of_true (shows_put h _ hc rfl rfl) fun hfailed => ?_
        simp [hphase] at hfailed
      · split
        · rename_i hphase
          rw [forall_prop_of_true hphase, forall_prop_of_true hdeploy, ← hkey]
          exact shows_hide_iff h
            { c with deployStatus := some "DEPLOY_FAILED", state := .hidden } rfl
        · rename_i hphase
          exact iff_of_true h fun hfailed => absurd hfailed hphase

theorem shows_delete {id : Nat} : Shows (gates (s.deleteChallenge id).challenges) := by
  rw [deleteChallenge]
  cases hfind : s.challenges.find id with
  | none => exact h
  | some c =>
    dsimp only
    split
    · rw [gates_modify, gates_erase]
      · exact h.erase id
      · intro d
        rw [Challenge.unlink]
        split <;> rfl
    · exact h

omit h in
/-- The words that `HandleMessageUpChallenge` compares with are none that a status gets. -/
theorem stateAfter_getDeploymentStatus (status : String) (state : ChallengeState) :
    stateAfter (Callbacks.getDeploymentStatus status) state = state := by
  obtain ⟨hsucceeded, hfailed⟩ := Callbacks.getDeploymentStatus_ne status
  rw [stateAfter, if_neg hsucceeded, if_neg hfailed]

theorem shows_workflowStatus {challengeId : Option Nat} {status : Option String} {saved : Bool} :
    Shows (gates (s.workflowStatus challengeId status saved).challenges) := by
  rw [workflowStatus]
  cases hnamed : challengeId.bind s.challenges.find with
  | none => exact h
  | some c =>
    obtain ⟨id, -, hfind⟩ := Option.bind_eq_some_iff.mp hnamed
    simp only [stateAfter_getDeploymentStatus]
    split
    · exact shows_put h _ (Table.mem_of_find hfind) rfl rfl
    · exact h

theorem shows_updateInfo {challengeId : Nat} {status : String} {imageLink : Option String}
    {saved : Bool} :
    Shows (gates (s.updateChallengeInfo challengeId status imageLink saved).challenges) := by
  rw [updateChallengeInfo]
  cases hfind : s.challenges.find challengeId with
  | none => exact h
  | some c =>
    dsimp only
    split
    · exact shows_put h _ (Table.mem_of_find hfind) rfl rfl
    · exact h

end Actions

section Edit

open Requirement

variable {s : Site X} {u : Nat} {body : ChallengePatch X} {c : Challenge X}

theorem gates_withPatched :
    gates (s.withPatched u body c) =
      Function.update (Function.update (gates s.challenges) c.id none) (patched u body c).id
        (some (patched u body c).gate) := by
  rw [withPatched, gates_put, gates_erase]

/-- A hidden challenge is none of those that are visible and require something. -/
theorem required_erase_iff (hc : c ∈ s.challenges.rows) (hstate : c.state ≠ .visible) (id : Nat) :
    Required .visible (Function.update (gates s.challenges) c.id none) id ↔ s.RequiredBy id := by
  refine exists_congr fun j => and_congr_right fun _ => ?_
  by_cases hj : j = c.id
  · subst hj
    rw [Function.update_self, gates_of_mem hc]
    simp [Challenge.gate, hstate]
  · rw [Function.update_of_ne hj]

/-- An edit that hides nothing leaves nothing hidden that the edited challenge requires. -/
theorem showable_patched (hshows : ¬ s.Hides u body c)
    (hvisible : (patched u body c).state = .visible) :
    Showable .hidden (Function.update (gates s.challenges) c.id none) (patched u body c).id
      (patched u body c).gate := by
  have hnone : hiddenPrerequisite (s.withPatched u body c).rows (patched u body c) = false := by
    rw [← Bool.not_eq_true]
    intro hrequires
    refine hshows (Or.inr ⟨hrequires, fun hhidden => ?_⟩)
    exact visible_ne_hidden (hvisible.symm.trans hhidden)
  intro p hp hne e he hhidden
  have hmem : e ∈ gates (s.withPatched u body c) p := by
    rwa [gates_withPatched, Function.update_of_ne hne]
  obtain ⟨q, hq, rfl, rfl⟩ := mem_gates.mp hmem
  have hall := List.any_eq_false.mp hnone q hq
  simp only [Bool.and_eq_true, decide_eq_true_eq, not_and] at hall
  exact hall hp hhidden

variable (h : Shows (gates s.challenges))

include h

theorem shows_withPatched_iff (hc : c ∈ s.challenges.rows) (hshows : ¬ s.Hides u body c) :
    Shows (gates (s.withPatched u body c)) ↔
      ((patched u body c).state = .hidden → ¬ s.RequiredBy (patched u body c).id) := by
  rw [gates_withPatched]
  refine ((h.erase c.id).put_iff visible_ne_hidden _ _).trans ?_
  refine (and_iff_right (showable_patched hshows)).trans ?_
  refine forall_congr' fun hhidden => not_congr (required_erase_iff hc ?_ _)
  -- The edit did not hide the challenge, so that it was hidden before.
  intro hvisible
  refine hshows (Or.inl ⟨?_, fun hstate => visible_ne_hidden (hvisible.symm.trans hstate)⟩)
  cases hnamed : body.state with
  | none =>
    simp only [patched, hnamed, Option.getD_none] at hhidden
    exact absurd (hvisible.symm.trans hhidden) visible_ne_hidden
  | some state =>
    simp only [patched, hnamed, Option.getD_some] at hhidden
    exact congrArg some hhidden

theorem shows_hidePatched :
    Shows (gates (hidePatched (s.withPatched u body c) (patched u body c))) := by
  rw [hidePatched]
  apply shows_cascade
  · rw [gates_put, gates_withPatched, Function.update_idem, Function.update_idem]
    exact (h.erase c.id).erase _
  · intro e he
    rw [gates_put, Function.update_self] at he
    obtain rfl := Option.some.inj he
    rfl

theorem shows_edit_iff {editor : Editor} {id : Nat} {body : ChallengeEdit X} :
    Shows (gates (s.editChallenge editor id body).challenges) ↔ s.KeepsOnPatch editor id body := by
  rw [editChallenge, KeepsOnPatch]
  cases hfind : s.challenges.find id with
  | none => simpa using h
  | some c =>
    have hc := Table.mem_of_find hfind
    simp only [Option.mem_def, Option.some.injEq, forall_eq']
    split
    · rename_i hmay
      rw [forall_prop_of_true hmay, patchChallenge, hfind]
      dsimp only
      split
      · rename_i hpatches
        rw [forall_prop_of_true hpatches]
        split
        · rename_i hhides
          exact iff_of_true (shows_hidePatched h) fun hshows => absurd hhides hshows
        · rename_i hshows
          rw [forall_prop_of_true hshows]
          exact shows_withPatched_iff h hc hshows
      · rename_i hrefused
        exact iff_of_true h fun hpatches => absurd hpatches hrefused
    · rename_i hrefused
      exact iff_of_true h fun hmay => absurd hmay hrefused

end Edit

section Runs

variable {collation : Collation} {destination : String → Nat → Path}

/-- The step lemma: one action keeps visible challenges off hidden prerequisites exactly when it
keeps to its condition. -/
theorem noHiddenPrerequisite_act_iff {s : Site X} (h : s.NoHiddenPrerequisite)
    (action : Action X) :
    (∀ t, s.act collation destination action = some t → t.NoHiddenPrerequisite) ↔
      s.KeepsOn action := by
  simp only [noHiddenPrerequisite_iff_shows] at h ⊢
  cases action with
  | create body => simpa [act, KeepsOn] using shows_create_iff h
  | patch editor id body => simpa [act, KeepsOn] using shows_edit_iff h
  | delete id => simpa [act, KeepsOn] using shows_delete h
  | upload form =>
    by_cases huploads : s.Uploads form
    · simpa [act, KeepsOn, huploads] using shows_postFiles_iff h
    · simp [act, KeepsOn, huploads]
  | poll id phase => simpa [act, KeepsOn] using shows_poll_iff h
  | workflowStatus challengeId status saved =>
    simpa [act, KeepsOn] using shows_workflowStatus h
  | updateInfo challengeId status imageLink saved =>
    simpa [act, KeepsOn] using shows_updateInfo h

/-- All along a run no visible challenge requires a hidden one exactly when every action keeps to
its condition; only the edits are made to do so. -/
theorem noHiddenPrerequisite_iff (collation : Collation) (destination : String → Nat → Path)
    (s : Site X) (hstart : s.PrerequisitesVisible) (actions : List (Action X)) :
    (∀ t ∈ Run.visited (fun s => s.act collation destination) s actions, t.NoHiddenPrerequisite) ↔
      Run.Meets (fun s => s.act collation destination) (fun s => s.KeepsOn) s actions := by
  have hinv : ∀ (s : Site X) (action : Action X) (t : Site X),
      True → s.act collation destination action = some t → True := fun _ _ _ _ _ => trivial
  exact Run.forall_visited_iff_meets (I := fun _ => True) hinv
    (fun s action _ h => noHiddenPrerequisite_act_iff h action) actions trivial
    hstart.noHiddenPrerequisite

/-- The challenge 2 requires the challenge 1, which is deployed; both are visible. -/
def twoChallenges : Site Unit where
  challenges := { rows := [
    { id := 1, userId := 1, requireDeploy := true, rest := () },
    { id := 2, userId := 1, prerequisites := [1], rest := () }] }
  files := { nodup := oneFlag.files.nodup }
  uploads := { nodup := oneFlag.uploads.nodup }
  versions := { nodup := oneFlag.versions.nodup }
  sources := { nodup := oneFlag.sources.nodup }

/-- An admin hides the first challenge, and the second one goes with it. -/
theorem noHiddenPrerequisite_hide : twoChallenges.PrerequisitesVisible ∧
    ∀ t ∈ Run.visited (fun s => s.act .ignoreCase fun _ _ => []) twoChallenges
      [.patch .admin 1 { state := some .hidden }], t.NoHiddenPrerequisite := by
  have hstart : twoChallenges.PrerequisitesVisible := by decide
  refine ⟨hstart, (noHiddenPrerequisite_iff _ _ _ hstart _).mpr ⟨?_, fun _ _ => trivial⟩⟩
  intro c hc _ _ hshows
  have hvisible : ∀ c ∈ twoChallenges.challenges.find 1, c.state ≠ .hidden := by decide
  exact absurd (Or.inl ⟨rfl, hvisible c hc⟩) hshows

/-- A build of the first challenge fails, and the poll hides it alone. -/
theorem failed_build_hides_one : ¬ ∀ (collation : Collation)
    (destination : String → Nat → Path) (s : Site Unit) (actions : List (Action Unit)),
    s.PrerequisitesVisible →
      ∀ t ∈ Run.visited (fun s => s.act collation destination) s actions,
        t.NoHiddenPrerequisite := by
  intro hall
  have hpolled := hall .ignoreCase (fun _ _ => []) twoChallenges [.poll 1 (some "Failed")]
    (by decide)
    (twoChallenges.pollDeployment 1 (some "Failed")) (by simp [Run.visited, act])
  exact absurd hpolled (by decide)

end Runs

end Fctf.Authorship
