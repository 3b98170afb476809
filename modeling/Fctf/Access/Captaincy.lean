import Fctf.Lib.Run
import Fctf.Lib.Table

/-!
Teams, their members and their captains. A member's row names the team, the team's row
names the captain, and each is written by endpoints of its own. Requests that a decorator
turns away, or that fail before they write, leave both tables as they are.
-/

namespace Fctf

open Run

namespace Roster

structure User where
  id : Nat
  team_id : Option Nat := none
  verified : Bool := false
  deriving Repr, DecidableEq

structure Team where
  id : Nat
  captain_id : Option Nat := none
  deriving Repr, DecidableEq

/-- The tables `users` and `teams`. -/
structure Accounts where
  users : Table User.id := {}
  teams : Table Team.id := {}

/-- A member of a request body that refers to a row, as `reference` and `positive_id`
tell the cases apart. -/
inductive Reference
  | absent | null | malformed
  | id (value : Nat)
  deriving Repr, DecidableEq

/-- What the platform is configured for. `allowsNull` says whether the schemas load a null
into a nullable column. -/
structure Settings where
  teamsMode : Bool := true
  allowsNull : Bool := true
  disbandingDisabled : Bool := false
  deriving Repr, DecidableEq

/-- What a validated request does with a column. -/
inductive Change
  | keep
  | set (value : Option Nat)
  deriving Repr, DecidableEq

def Change.apply (change : Change) (value : Option Nat) : Option Nat :=
  match change with
  | keep => value
  | set new => new

/-- `reference` with `nullable`, what the schema asks of the referenced row, and the field of
the schema. `none` is a validation error. -/
def Reference.load (settings : Settings) (valid : Nat → Bool) : Reference → Option Change
  | absent => some .keep
  | null => if settings.allowsNull then some (.set none) else none
  | malformed => none
  | id value => if valid value then some (.set (some value)) else none

namespace Accounts

variable (db : Accounts)

/-- The team that a user's row names. -/
def teamOf (userId : Nat) : Option Nat := (db.users.find userId).bind User.team_id

/-- The captain that a team's row names. -/
def captainOf (teamId : Nat) : Option Nat := (db.teams.find teamId).bind Team.captain_id

def setTeam (userId : Nat) (teamId : Option Nat) : Accounts :=
  { db with
    users := db.users.update userId (fun user => { user with team_id := teamId }) fun _ => rfl }

def setCaptain (teamId : Nat) (captainId : Option Nat) : Accounts :=
  { db with
    teams := db.teams.update teamId
      (fun team => { team with captain_id := captainId }) fun _ => rfl }

end Accounts

/-- The requests with what they carry. `loads` says whether the rest of the body is valid, an
`id` is the key that the database gives to a new row. -/
inductive Request
  /-- `TeamList.post` -/
  | createTeam (id : Nat) (captain_id : Reference) (loads : Bool)
  /-- A row of `load_teams_csv` -/
  | importTeam (id : Nat) (captain_id : Reference) (loads : Bool)
  /-- `TeamPublic.patch` -/
  | patchTeam (team_id : Nat) (captain_id : Reference) (loads : Bool)
  /-- `TeamPrivate.patch` -/
  | patchOwnTeam (session : Nat) (captain_id : Reference) (loads : Bool)
  /-- `TeamMembers.post` -/
  | addMember (team_id user_id : Nat)
  /-- `TeamMembers.delete` -/
  | removeMember (team_id user_id : Nat)
  /-- `UserList.post`, and a row of `load_users_csv` or `load_users_and_teams_csv` -/
  | createUser (id : Nat) (team_id : Reference) (verified loads : Bool)
  /-- `UserPublic.patch` -/
  | patchUser (user_id : Nat) (team_id : Reference) (verified : Option Bool) (loads : Bool)
  /-- `UserPrivate.patch`; a new email address may have to be verified. -/
  | patchOwnUser (session : Nat) (team_id : Reference) (newEmail loads : Bool)
  /-- `UserPublic.delete` -/
  | deleteUser (session user_id : Nat)
  /-- `TeamPublic.delete` -/
  | deleteTeam (team_id : Nat)
  /-- `TeamPrivate.delete` -/
  | deleteOwnTeam (session : Nat) (performedActions : Bool)
  deriving Repr, DecidableEq

section Handlers

variable (settings : Settings) (db : Accounts)

/-- The row of the session's team, if the session's user is its captain. -/
def ownTeam (session : Nat) : Option Team := do
  let team ← (db.teamOf session).bind db.teams.find
  guard (team.captain_id = some session)
  some team

/-- What the schema asks of the captain of a new team. -/
def captainFree (captain : Nat) : Bool :=
  (db.users.find captain).any fun user => user.team_id = none

def createTeam (id : Nat) (captain_id : Reference) (loads : Bool) : Option Accounts := do
  let change ← captain_id.load settings (captainFree db)
  guard loads
  let captain := change.apply none
  if hnew : db.teams.find id = none then
    let db' := { db with teams := db.teams.insert ⟨id, captain⟩ hnew }
    some <| match captain with
      | some userId => db'.setTeam userId (some id)
      | none => db'
  else none

def importTeam (id : Nat) (captain_id : Reference) (loads : Bool) : Option Accounts := do
  let change ← captain_id.load settings (captainFree db)
  guard loads
  if hnew : db.teams.find id = none then
    some { db with teams := db.teams.insert ⟨id, change.apply none⟩ hnew }
  else none

def patchTeam (team_id : Nat) (captain_id : Reference) (loads : Bool) : Option Accounts := do
  let team ← db.teams.find team_id
  let change ← captain_id.load settings fun captain => db.teamOf captain = some team.id
  guard loads
  some (db.setCaptain team.id (change.apply team.captain_id))

def patchOwnTeam (session : Nat) (captain_id : Reference) (loads : Bool) : Option Accounts := do
  let team ← ownTeam db session
  patchTeam settings db team.id captain_id loads

def addMember (team_id user_id : Nat) : Option Accounts := do
  let team ← db.teams.find team_id
  let user ← db.users.find user_id
  guard (user.verified ∧ user.team_id = none)
  some (db.setTeam user.id (some team.id))

def removeMember (team_id user_id : Nat) : Option Accounts := do
  let team ← db.teams.find team_id
  let user ← db.users.find user_id
  guard (user.team_id = some team.id)
  some (db.setTeam user.id none)

def createUser (id : Nat) (team_id : Reference) (verified loads : Bool) : Option Accounts := do
  let change ← team_id.load settings fun team => (db.teams.find team).isSome
  guard loads
  if hnew : db.users.find id = none then
    some { db with users := db.users.insert ⟨id, change.apply none, verified⟩ hnew }
  else none

def patchUser (user_id : Nat) (team_id : Reference) (verified : Option Bool) (loads : Bool) :
    Option Accounts := do
  let user ← db.users.find user_id
  let change ← team_id.load settings fun team => (db.teams.find team).isSome
  guard loads
  some { db with
    users := db.users.update user.id (fun user =>
      { user with
        team_id := change.apply user.team_id
        verified := verified.getD user.verified }) fun _ => rfl }

/-- `_purge_user_references` sets `captain_id` to null. -/
def deleteUser (session user_id : Nat) : Option Accounts := do
  guard (user_id ≠ session)
  let user ← db.users.find user_id
  some
    { users := db.users.filter fun row => row.id ≠ user.id
      teams := db.teams.modify (fun team =>
        if team.captain_id = some user.id then { team with captain_id := none } else team)
        fun team => by split <;> rfl }

def deleteTeam (team_id : Nat) : Option Accounts := do
  let team ← db.teams.find team_id
  some
    { users := db.users.modify (fun user =>
        if user.team_id = some team.id then { user with team_id := none } else user)
        fun user => by split <;> rfl
      teams := db.teams.filter fun row => row.id ≠ team.id }

def deleteOwnTeam (session : Nat) (performedActions : Bool) : Option Accounts := do
  guard (settings.disbandingDisabled = false)
  let team ← ownTeam db session
  guard (performedActions = false)
  deleteTeam db team.id

/-- The tables after a request, `none` if it is turned away. -/
def handle : Request → Option Accounts
  | .createTeam id captain_id loads => do
    guard settings.teamsMode
    createTeam settings db id captain_id loads
  | .importTeam id captain_id loads => importTeam settings db id captain_id loads
  | .patchTeam team_id captain_id loads => do
    guard settings.teamsMode
    patchTeam settings db team_id captain_id loads
  | .patchOwnTeam session captain_id loads => do
    guard settings.teamsMode
    patchOwnTeam settings db session captain_id loads
  | .addMember team_id user_id => do
    guard settings.teamsMode
    addMember db team_id user_id
  | .removeMember team_id user_id => do
    guard settings.teamsMode
    removeMember db team_id user_id
  | .createUser id team_id verified loads => createUser settings db id team_id verified loads
  | .patchUser user_id team_id verified loads =>
    patchUser settings db user_id team_id verified loads
  | .patchOwnUser session team_id newEmail loads =>
    patchUser settings db session team_id (if newEmail then some false else none) loads
  | .deleteUser session user_id => deleteUser db session user_id
  | .deleteTeam team_id => do
    guard settings.teamsMode
    deleteTeam db team_id
  | .deleteOwnTeam session performedActions => do
    guard settings.teamsMode
    deleteOwnTeam settings db session performedActions

def step (a : Request) : Option Accounts := some ((handle settings db a).getD db)

end Handlers

/-! ### The captain's checks of the contestants' backend -/

/-- The team that a user acts for, if the check of the captain lets the user through. -/
def captainOnlyCheck (captainOnly : Bool) (db : Accounts) (userId : Nat) : Option Nat := do
  let user ← db.users.find userId
  let team ← user.team_id.bind db.teams.find
  guard (captainOnly = false ∨ team.captain_id = some user.id)
  some team.id

/-- `Attempt` with its `captain_only_submit_challenge`. -/
def attemptTeam (captainOnlySubmit : Bool) (db : Accounts) (userId : Nat) : Option Nat :=
  captainOnlyCheck captainOnlySubmit db userId

/-- `StartChallenge` with its `captain_only_start_challenge`. -/
def startTeam (captainOnlyStart : Bool) (db : Accounts) (userId : Nat) : Option Nat :=
  captainOnlyCheck captainOnlyStart db userId

/-- `StopChallengeByUser` asks for a team, but not for its captain. -/
def stopTeam (db : Accounts) (userId : Nat) : Option Nat :=
  captainOnlyCheck false db userId

/-- The captain of a team is in the team, and only a team's members get through the checks
of a start, a stop and a submission. -/
structure Captained (db : Accounts) : Prop where
  member : ∀ teamId userId, db.captainOf teamId = some userId → db.teamOf userId = some teamId
  start : ∀ captainOnly userId teamId, startTeam captainOnly db userId = some teamId →
    db.teamOf userId = some teamId
  stop : ∀ userId teamId, stopTeam db userId = some teamId → db.teamOf userId = some teamId
  attempt : ∀ captainOnly userId teamId, attemptTeam captainOnly db userId = some teamId →
    db.teamOf userId = some teamId

/-- No team is imported with a captain, no captain is removed from the team, and no captain's
own row is given another team. -/
def KeepsCaptain (settings : Settings) (db : Accounts) : Request → Prop
  | .importTeam id captain_id loads =>
    loads = true → db.teams.find id = none →
      ∀ change ∈ captain_id.load settings (captainFree db), change.apply none = none
  | .removeMember team_id user_id =>
    settings.teamsMode = true → db.teamOf user_id = some team_id →
      db.captainOf team_id ≠ some user_id
  | .patchUser user_id team_id _ loads | .patchOwnUser user_id team_id _ loads =>
    loads = true → ∀ change ∈ team_id.load settings fun team => (db.teams.find team).isSome,
      ∀ team ∈ db.teams.rows, team.captain_id = some user_id →
        change.apply (some team.id) = some team.id
  | _ => True

instance decidableKeepsCaptain (settings : Settings) (db : Accounts) (a : Request) :
    Decidable (KeepsCaptain settings db a) := by
  cases a <;> (delta KeepsCaptain; infer_instance)

section Effects

variable {settings : Settings} {db db' : Accounts} {userId teamId : Nat}

theorem captainOnlyCheck_teamOf {captainOnly : Bool}
    (h : captainOnlyCheck captainOnly db userId = some teamId) :
    db.teamOf userId = some teamId := by
  simp only [captainOnlyCheck, Option.bind_eq_bind, Option.bind_eq_some_iff] at h
  obtain ⟨user, huser, team, ⟨id, hid, hteam⟩, -, -, hid'⟩ := h
  obtain rfl := Option.some.inj hid'
  rw [Accounts.teamOf, huser, Option.bind_some, hid, Table.key_of_find hteam]

theorem captained_iff : Captained db ↔
    ∀ teamId userId, db.captainOf teamId = some userId → db.teamOf userId = some teamId := by
  constructor
  · exact Captained.member
  · intro h
    exact ⟨h, fun _ _ _ => captainOnlyCheck_teamOf, fun _ _ => captainOnlyCheck_teamOf,
      fun _ _ _ => captainOnlyCheck_teamOf⟩

theorem captainOf_of_mem {team : Team} (h : team ∈ db.teams.rows) :
    db.captainOf team.id = team.captain_id := by
  rw [Accounts.captainOf, Table.find_key h, Option.bind_some]

theorem exists_of_captainOf (h : db.captainOf teamId = some userId) :
    ∃ team ∈ db.teams.rows, team.id = teamId ∧ team.captain_id = some userId := by
  obtain ⟨team, hteam, hcaptain⟩ := Option.bind_eq_some_iff.mp h
  exact ⟨team, Table.mem_of_find hteam, Table.key_of_find hteam, hcaptain⟩

instance decidableCaptained (db : Accounts) : Decidable (Captained db) :=
  decidable_of_iff
    (∀ team ∈ db.teams.rows, ∀ userId ∈ team.captain_id, db.teamOf userId = some team.id) <| by
    rw [captained_iff]
    constructor
    · intro h t u ht
      obtain ⟨team, hteam, rfl, hcaptain⟩ := exists_of_captainOf ht
      exact h team hteam u hcaptain
    · intro h team hteam u hcaptain
      apply h
      rw [captainOf_of_mem hteam]
      exact hcaptain

theorem teamOf_setTeam {user : User} (huser : db.users.find userId = some user)
    (value : Option Nat) (other : Nat) :
    (db.setTeam userId value).teamOf other = if other = userId then value else db.teamOf other := by
  rw [Accounts.teamOf, Accounts.setTeam, Table.find_update]
  split
  · rename_i heq
    rw [heq, huser]
    rfl
  · rfl

@[simp] theorem captainOf_setTeam (userId : Nat) (value : Option Nat) (teamId : Nat) :
    (db.setTeam userId value).captainOf teamId = db.captainOf teamId := rfl

@[simp] theorem teamOf_setCaptain (teamId : Nat) (value : Option Nat) (userId : Nat) :
    (db.setCaptain teamId value).teamOf userId = db.teamOf userId := rfl

theorem captainOf_setCaptain {team : Team} (hteam : db.teams.find teamId = some team)
    (value : Option Nat) (other : Nat) :
    (db.setCaptain teamId value).captainOf other =
      if other = teamId then value else db.captainOf other := by
  rw [Accounts.captainOf, Accounts.setCaptain, Table.find_update]
  split
  · rename_i heq
    rw [heq, hteam]
    rfl
  · rfl

/-- Where only one user's team changes, only this user's captaincy is at stake. -/
theorem captained_of_moved (h : Captained db)
    (hcaptain : ∀ t, db'.captainOf t = db.captainOf t)
    (hother : ∀ other, other ≠ userId → db'.teamOf other = db.teamOf other) :
    Captained db' ↔ ∀ t, db.captainOf t = some userId → db'.teamOf userId = some t := by
  rw [captained_iff]
  constructor
  · intro h' t ht
    exact h' t userId ((hcaptain t).trans ht)
  · intro hmoved t u ht
    rw [hcaptain] at ht
    by_cases hu : u = userId
    · rw [hu] at ht ⊢
      exact hmoved t ht
    · rw [hother u hu]
      exact h.member t u ht

/-- A reference that is loaded keeps the column, empties it, or passes the check. -/
theorem Reference.load_eq_some {reference : Reference} {valid : Nat → Bool} {change : Change}
    (h : reference.load settings valid = some change) {value : Nat} {old : Option Nat}
    (hvalue : change.apply old = some value) : old = some value ∨ valid value = true := by
  unfold Reference.load at h
  split at h
  · obtain rfl := Option.some.inj h
    exact .inl hvalue
  · split at h
    · obtain rfl := Option.some.inj h
      cases hvalue
    · cases h
  · cases h
  · split at h
    · rename_i hvalid
      obtain rfl := Option.some.inj h
      obtain rfl := Option.some.inj hvalue
      exact .inr hvalid
    · cases h

/-- A team that is added names its own captain. -/
theorem captainOf_insert {team : Team} (hnew : db.teams.find team.id = none) (t : Nat) :
    Accounts.captainOf { db with teams := db.teams.insert team hnew } t =
      if t = team.id then team.captain_id else db.captainOf t := by
  rw [Accounts.captainOf, Table.find_insert]
  split
  · rfl
  · rfl

theorem teamOf_of_captainFree {captain : Nat} (h : captainFree db captain = true) :
    db.teamOf captain = none := by
  obtain ⟨user, huser, hfree⟩ := (Option.any_eq_true _ _).mp h
  rw [Accounts.teamOf, huser]
  exact of_decide_eq_true hfree

theorem captained_createTeam (h : Captained db) {id : Nat} {captain_id : Reference} {loads : Bool}
    (hcreate : createTeam settings db id captain_id loads = some db') : Captained db' := by
  simp only [createTeam, Option.bind_eq_bind, Option.bind_eq_some_iff] at hcreate
  obtain ⟨change, hload, -, -, hcreate⟩ := hcreate
  split at hcreate
  · rename_i hnew
    obtain rfl := Option.some.inj hcreate
    rw [captained_iff]
    cases hcaptain : change.apply none with
    | none =>
      intro t u ht
      simp only [captainOf_insert] at ht
      split at ht
      · cases ht
      · exact h.member t u ht
    | some captain =>
      -- the new captain had no team, so no other team loses its captain
      have hvalid := (Reference.load_eq_some hload hcaptain).resolve_left nofun
      have hnone : db.teamOf captain = none := teamOf_of_captainFree hvalid
      obtain ⟨user, huser, -⟩ := (Option.any_eq_true _ _).mp hvalid
      intro t u ht
      simp only [captainOf_setTeam, captainOf_insert] at ht
      dsimp only
      rw [teamOf_setTeam (by exact huser)]
      split at ht
      · rename_i ht'
        obtain rfl := Option.some.inj ht
        rw [if_pos rfl, ht']
      · have hmember := h.member t u ht
        rw [if_neg]
        · exact hmember
        · rintro rfl
          rw [hnone] at hmember
          cases hmember
  · cases hcreate

/-- A team that is imported with a captain is not the captain's team. -/
theorem captained_importTeam (h : Captained db) {id : Nat} {captain_id : Reference} {loads : Bool}
    (himport : importTeam settings db id captain_id loads = some db') :
    Captained db' ↔
      ∀ change ∈ captain_id.load settings (captainFree db), change.apply none = none := by
  simp only [importTeam, Option.bind_eq_bind, Option.bind_eq_some_iff] at himport
  obtain ⟨change, hload, -, -, himport⟩ := himport
  split at himport
  · rename_i hnew
    obtain rfl := Option.some.inj himport
    simp only [hload, Option.mem_some_iff, forall_eq']
    rw [captained_iff]
    simp only [captainOf_insert]
    constructor
    · intro hmember
      cases hcaptain : change.apply none with
      | none => rfl
      | some captain =>
        have hvalid := (Reference.load_eq_some hload hcaptain).resolve_left nofun
        have hteamOf := hmember id captain (by rw [if_pos rfl]; exact hcaptain)
        exact absurd (hteamOf.symm.trans (teamOf_of_captainFree hvalid)) nofun
    · intro hnone t u ht
      split at ht
      · rw [hnone] at ht
        cases ht
      · exact h.member t u ht
  · cases himport

theorem captained_patchTeam (h : Captained db) {captain_id : Reference} {loads : Bool}
    (hpatch : patchTeam settings db teamId captain_id loads = some db') : Captained db' := by
  simp only [patchTeam, Option.bind_eq_bind, Option.bind_eq_some_iff] at hpatch
  obtain ⟨team, hteam, change, hload, -, -, hdb'⟩ := hpatch
  obtain rfl := Option.some.inj hdb'
  obtain rfl := Table.key_of_find hteam
  rw [captained_iff]
  intro t u ht
  rw [captainOf_setCaptain hteam] at ht
  rw [teamOf_setCaptain]
  split at ht
  · rename_i heq
    subst heq
    rcases Reference.load_eq_some hload ht with hold | hvalid
    · apply h.member
      rw [captainOf_of_mem (Table.mem_of_find hteam)]
      exact hold
    · simpa using hvalid
  · exact h.member t u ht

theorem captained_addMember (h : Captained db)
    (hadd : addMember db teamId userId = some db') : Captained db' := by
  simp only [addMember, Option.bind_eq_bind, Option.bind_eq_some_iff, Option.guard_eq_some'] at hadd
  obtain ⟨team, hteam, user, huser, -, hguard, hdb'⟩ := hadd
  obtain rfl := Option.some.inj hdb'
  obtain rfl := Table.key_of_find huser
  have hnone : db.teamOf user.id = none := by
    rw [Accounts.teamOf, huser]
    exact hguard.2
  have hother : ∀ other, other ≠ user.id →
      (db.setTeam user.id (some team.id)).teamOf other = db.teamOf other := by
    intro other hne
    rw [teamOf_setTeam huser, if_neg hne]
  apply (captained_of_moved h (captainOf_setTeam user.id _) hother).mpr
  intro t ht
  rw [h.member t _ ht] at hnone
  cases hnone

theorem captained_removeMember (h : Captained db)
    (hremove : removeMember db teamId userId = some db') :
    Captained db' ↔ db.captainOf teamId ≠ some userId := by
  simp only [removeMember, Option.bind_eq_bind, Option.bind_eq_some_iff,
    Option.guard_eq_some'] at hremove
  obtain ⟨team, hteam, user, huser, -, hguard, hdb'⟩ := hremove
  obtain rfl := Option.some.inj hdb'
  obtain rfl := Table.key_of_find huser
  obtain rfl := Table.key_of_find hteam
  have hmember : db.teamOf user.id = some team.id := by
    rw [Accounts.teamOf, huser]
    exact hguard
  have hother : ∀ other, other ≠ user.id →
      (db.setTeam user.id none).teamOf other = db.teamOf other := by
    intro other hne
    rw [teamOf_setTeam huser, if_neg hne]
  rw [captained_of_moved h (captainOf_setTeam user.id _) hother, teamOf_setTeam huser, if_pos rfl]
  constructor
  · intro hnone hcaptain
    cases hnone team.id hcaptain
  · intro hne t ht
    have hsame := hmember.symm.trans (h.member t _ ht)
    obtain rfl := Option.some.inj hsame
    exact absurd ht hne

theorem captained_createUser (h : Captained db) {id : Nat} {team_id : Reference}
    {verified loads : Bool}
    (hcreate : createUser settings db id team_id verified loads = some db') : Captained db' := by
  simp only [createUser, Option.bind_eq_bind, Option.bind_eq_some_iff] at hcreate
  obtain ⟨change, -, -, -, hcreate⟩ := hcreate
  split at hcreate
  · rename_i hnew
    obtain rfl := Option.some.inj hcreate
    have hnone : db.teamOf id = none := by
      rw [Accounts.teamOf, hnew]
      rfl
    rw [captained_iff]
    intro t u ht
    have hmember := h.member t u ht
    rw [Accounts.teamOf, Table.find_insert, if_neg]
    · exact hmember
    · rintro rfl
      rw [hnone] at hmember
      cases hmember
  · cases hcreate

/-- What a user's own row may change. -/
theorem captained_patchUser (h : Captained db) {team_id : Reference} {verified : Option Bool}
    {loads : Bool} (hpatch : patchUser settings db userId team_id verified loads = some db') :
    Captained db' ↔ ∀ change ∈ team_id.load settings fun team => (db.teams.find team).isSome,
      ∀ team ∈ db.teams.rows, team.captain_id = some userId →
        change.apply (some team.id) = some team.id := by
  simp only [patchUser, Option.bind_eq_bind, Option.bind_eq_some_iff] at hpatch
  obtain ⟨user, huser, change, hload, -, -, hdb'⟩ := hpatch
  obtain rfl := Option.some.inj hdb'
  obtain rfl := Table.key_of_find huser
  simp only [hload, Option.mem_some_iff, forall_eq']
  let db' : Accounts := { db with
    users := db.users.update user.id (fun row =>
      { row with
        team_id := change.apply row.team_id
        verified := verified.getD row.verified }) fun _ => rfl }
  have hother : ∀ other, other ≠ user.id → db'.teamOf other = db.teamOf other := by
    intro other hne
    rw [Accounts.teamOf, Table.find_update, if_neg hne]
    rfl
  have hown : db'.teamOf user.id = change.apply (db.teamOf user.id) := by
    rw [Accounts.teamOf, Table.find_update, if_pos rfl, Accounts.teamOf, huser]
    rfl
  rw [captained_of_moved h (fun t => (rfl : db'.captainOf t = db.captainOf t)) hother, hown]
  constructor
  · intro hkept team hteam hcaptain
    have hcaptainOf : db.captainOf team.id = some user.id := by
      rw [captainOf_of_mem hteam, hcaptain]
    rw [← h.member team.id user.id hcaptainOf]
    exact (hkept team.id hcaptainOf).trans (h.member team.id user.id hcaptainOf).symm
  · intro hkept t ht
    obtain ⟨team, hteam, rfl, hcaptain⟩ := exists_of_captainOf ht
    rw [h.member team.id user.id ht]
    exact hkept team hteam hcaptain

theorem captained_deleteUser (h : Captained db) {session : Nat}
    (hdelete : deleteUser db session userId = some db') : Captained db' := by
  simp only [deleteUser, Option.bind_eq_bind, Option.bind_eq_some_iff,
    Option.guard_eq_some'] at hdelete
  obtain ⟨-, -, user, huser, hdb'⟩ := hdelete
  obtain rfl := Option.some.inj hdb'
  obtain rfl := Table.key_of_find huser
  rw [captained_iff]
  intro t u ht
  simp only [Accounts.captainOf, Table.find_modify] at ht
  cases hteam : db.teams.find t with
  | none => simp [hteam] at ht
  | some team =>
    simp only [hteam, Option.map_some, Option.bind_some] at ht
    split at ht
    · cases ht
    · rename_i hne
      have hmember : db.teamOf u = some t := by
        apply h.member
        rw [Accounts.captainOf, hteam]
        exact ht
      have hu : u ≠ user.id := by
        rintro rfl
        exact hne ht
      obtain ⟨member, hfind, hteamOf⟩ := Option.bind_eq_some_iff.mp hmember
      rw [Accounts.teamOf, Table.find_filter, hfind, Option.filter_some, if_pos]
      · exact hteamOf
      · rw [Table.key_of_find hfind]
        exact decide_eq_true hu

theorem captained_deleteTeam (h : Captained db)
    (hdelete : deleteTeam db teamId = some db') : Captained db' := by
  simp only [deleteTeam, Option.bind_eq_bind, Option.bind_eq_some_iff] at hdelete
  obtain ⟨team, hteam, hdb'⟩ := hdelete
  obtain rfl := Option.some.inj hdb'
  obtain rfl := Table.key_of_find hteam
  rw [captained_iff]
  intro t u ht
  simp only [Accounts.captainOf, Table.find_filter] at ht
  obtain ⟨kept, hkept, hcaptain⟩ := Option.bind_eq_some_iff.mp ht
  obtain ⟨hfind, hother⟩ := Option.filter_eq_some_iff.mp hkept
  have hmember : db.teamOf u = some t := by
    apply h.member
    rw [Accounts.captainOf, hfind]
    exact hcaptain
  have ht' : t ≠ team.id := by
    rw [← Table.key_of_find hfind]
    exact of_decide_eq_true hother
  obtain ⟨member, huser, hteamOf⟩ := Option.bind_eq_some_iff.mp hmember
  rw [Accounts.teamOf, Table.find_modify, huser, Option.map_some, Option.bind_some, if_neg]
  · exact hteamOf
  · rw [hteamOf]
    exact fun heq => ht' (Option.some.inj heq)

end Effects

/-- What a request writes, if it is let through in team mode. -/
theorem guarded_eq_some {p : Prop} [Decidable p] {result : Option Accounts} {db : Accounts}
    (h : (do guard p; result) = some db) : result = some db := by
  simp only [Option.bind_eq_bind, Option.bind_eq_some_iff] at h
  obtain ⟨-, -, hresult⟩ := h
  exact hresult

theorem captained_getD {db : Accounts} (h : Captained db) {result : Option Accounts}
    (hresult : ∀ db', result = some db' → Captained db') : Captained (result.getD db) := by
  cases result with
  | none => exact h
  | some db' => exact hresult db' rfl

theorem captained_removeMember_step {settings : Settings} {db : Accounts} (h : Captained db)
    (team_id user_id : Nat) :
    Captained ((handle settings db (.removeMember team_id user_id)).getD db) ↔
      KeepsCaptain settings db (.removeMember team_id user_id) := by
  by_cases hremoves : settings.teamsMode = true ∧ db.teamOf user_id = some team_id ∧
      (db.teams.find team_id).isSome
  · obtain ⟨hmode, hteamOf, hsome⟩ := hremoves
    obtain ⟨team, hteam⟩ := Option.isSome_iff_exists.mp hsome
    obtain ⟨user, huser, hmember⟩ := Option.bind_eq_some_iff.mp hteamOf
    have hremove : removeMember db team_id user_id = some (db.setTeam user.id none) := by
      simp [removeMember, hteam, huser, hmember, Table.key_of_find hteam]
    have hhandle : handle settings db (.removeMember team_id user_id) =
        some (db.setTeam user.id none) := by
      simp [handle, hmode, hremove]
    rw [hhandle, Option.getD_some, captained_removeMember h hremove]
    constructor
    · intro hne _ _
      exact hne
    · intro hkeeps
      exact hkeeps hmode hteamOf
  · have hkeeps : KeepsCaptain settings db (.removeMember team_id user_id) := by
      intro hmode hteamOf hcaptain
      obtain ⟨team, hteam, -⟩ := Option.bind_eq_some_iff.mp hcaptain
      exact hremoves ⟨hmode, hteamOf, by rw [hteam]; rfl⟩
    refine iff_of_true (captained_getD h fun db' hdb' => ?_) hkeeps
    have hremove := guarded_eq_some hdb'
    rw [captained_removeMember h hremove]
    simp only [handle, removeMember, Option.bind_eq_bind, Option.bind_eq_some_iff,
      Option.guard_eq_some'] at hdb'
    obtain ⟨-, hmode, team, hteam, user, huser, -, hmember, -⟩ := hdb'
    rw [Table.key_of_find hteam] at hmember
    exact hkeeps hmode (Option.bind_eq_some_iff.mpr ⟨user, huser, hmember⟩)

theorem captained_importTeam_step {settings : Settings} {db : Accounts} (h : Captained db)
    (id : Nat) (captain_id : Reference) (loads : Bool) :
    Captained ((importTeam settings db id captain_id loads).getD db) ↔
      KeepsCaptain settings db (.importTeam id captain_id loads) := by
  cases himport : importTeam settings db id captain_id loads with
  | some db' =>
    have hpremises : loads = true ∧ db.teams.find id = none := by
      simp only [importTeam, Option.bind_eq_bind, Option.bind_eq_some_iff,
        Option.guard_eq_some'] at himport
      obtain ⟨change, -, -, hloads, himport⟩ := himport
      split at himport
      · rename_i hnew
        exact ⟨hloads, hnew⟩
      · cases himport
    rw [Option.getD_some, captained_importTeam h himport]
    constructor
    · intro hkept _ _
      exact hkept
    · intro hkeeps
      exact hkeeps hpremises.1 hpremises.2
  | none =>
    refine iff_of_true h ?_
    intro hloads hnew change hchange
    simp [importTeam, Option.mem_def.mp hchange, hloads, hnew] at himport

theorem captained_patchUser_step {settings : Settings} {db : Accounts} (h : Captained db)
    (user_id : Nat) (team_id : Reference) (verified : Option Bool) (loads : Bool) :
    Captained ((patchUser settings db user_id team_id verified loads).getD db) ↔
      KeepsCaptain settings db (.patchUser user_id team_id verified loads) := by
  cases hpatch : patchUser settings db user_id team_id verified loads with
  | some db' =>
    have hloads : loads = true := by
      simp only [patchUser, Option.bind_eq_bind, Option.bind_eq_some_iff,
        Option.guard_eq_some'] at hpatch
      obtain ⟨-, -, -, -, -, hloads, -⟩ := hpatch
      exact hloads
    rw [Option.getD_some, captained_patchUser h hpatch]
    constructor
    · intro hkept _
      exact hkept
    · intro hkeeps
      exact hkeeps hloads
  | none =>
    refine iff_of_true h ?_
    intro hloads change hchange team hteam hcaptain
    have hcaptainOf : db.captainOf team.id = some user_id := by
      rw [captainOf_of_mem hteam, hcaptain]
    obtain ⟨user, huser, -⟩ := Option.bind_eq_some_iff.mp (h.member _ _ hcaptainOf)
    simp [patchUser, huser, Option.mem_def.mp hchange, hloads] at hpatch

/-- A request keeps the captains in their teams exactly under the condition. -/
theorem captained_step_iff {settings : Settings} {db : Accounts} (h : Captained db) (a : Request) :
    Captained ((handle settings db a).getD db) ↔ KeepsCaptain settings db a := by
  cases a with
  | createTeam id captain_id loads =>
    refine iff_of_true (captained_getD h fun db' hdb' => ?_) trivial
    exact captained_createTeam h (guarded_eq_some hdb')
  | importTeam id captain_id loads => exact captained_importTeam_step h id captain_id loads
  | patchTeam team_id captain_id loads =>
    refine iff_of_true (captained_getD h fun db' hdb' => ?_) trivial
    exact captained_patchTeam h (guarded_eq_some hdb')
  | patchOwnTeam session captain_id loads =>
    refine iff_of_true (captained_getD h fun db' hdb' => ?_) trivial
    have hpatch := guarded_eq_some hdb'
    simp only [patchOwnTeam, Option.bind_eq_bind, Option.bind_eq_some_iff] at hpatch
    obtain ⟨team, -, hpatch⟩ := hpatch
    exact captained_patchTeam h hpatch
  | addMember team_id user_id =>
    refine iff_of_true (captained_getD h fun db' hdb' => ?_) trivial
    exact captained_addMember h (guarded_eq_some hdb')
  | removeMember team_id user_id => exact captained_removeMember_step h team_id user_id
  | createUser id team_id verified loads =>
    refine iff_of_true (captained_getD h fun db' hdb' => ?_) trivial
    exact captained_createUser h hdb'
  | patchUser user_id team_id verified loads =>
    exact captained_patchUser_step h user_id team_id verified loads
  | patchOwnUser session team_id newEmail loads =>
    exact captained_patchUser_step h session team_id _ loads
  | deleteUser session user_id =>
    refine iff_of_true (captained_getD h fun db' hdb' => ?_) trivial
    exact captained_deleteUser h hdb'
  | deleteTeam team_id =>
    refine iff_of_true (captained_getD h fun db' hdb' => ?_) trivial
    exact captained_deleteTeam h (guarded_eq_some hdb')
  | deleteOwnTeam session performedActions =>
    refine iff_of_true (captained_getD h fun db' hdb' => ?_) trivial
    have hdelete := guarded_eq_some hdb'
    simp only [deleteOwnTeam, Option.bind_eq_bind, Option.bind_eq_some_iff] at hdelete
    obtain ⟨-, -, team, -, -, -, hdelete⟩ := hdelete
    exact captained_deleteTeam h hdelete

/-- All along a run the captains are members of their teams exactly when no request of the run
imports a team with a captain, removes a captain, or gives a captain's row another team. -/
theorem captains_kept_iff {settings : Settings} {db : Accounts} (h : Captained db)
    (as : List Request) :
    (∀ s ∈ visited (step settings) db as, Captained s) ↔
      Meets (step settings) (KeepsCaptain settings) db as := by
  apply forall_visited_iff_meets (I := fun _ => True)
  · exact fun _ _ _ _ _ => trivial
  · intro s a _ hs
    rw [← captained_step_iff hs a]
    simp [step]
  · trivial
  · exact h

/-- A team of two and a user without a team. -/
def twoAndOne : Accounts where
  users := { rows := [⟨5, some 1, true⟩, ⟨6, some 1, true⟩, ⟨7, none, true⟩] }
  teams := { rows := [⟨1, some 5⟩] }

/-- The captain hands the team over and leaves, the third user founds a team and takes the old
captain in, and the old team's captain is deleted. -/
theorem captains_kept_handed_over : Captained twoAndOne ∧
    ∀ s ∈ visited (step {}) twoAndOne
      [.patchOwnTeam 5 (.id 6) true, .removeMember 1 5, .createTeam 2 (.id 7) true,
        .addMember 2 5, .deleteUser 3 6], Captained s :=
  ⟨by decide, (captains_kept_iff (by decide) _).mpr (by decide)⟩

/-- An admin removes the captain from the team, whose row still names the captain. -/
theorem captain_of_left_team :
    ¬ ∀ (settings : Settings) (db s : Accounts), Captained db →
      Reach (step settings) always db s → Captained s := by
  intro hkept
  obtain ⟨s, hreach, hs⟩ := exists_reach_of_exec (step {}) always twoAndOne
    [.removeMember 1 5] (p := fun s => !decide (Captained s)) (meets_always ..) (by decide)
  have hcaptained : Captained s := hkept {} twoAndOne s (by decide) hreach
  simp only [Bool.not_eq_true', decide_eq_false_iff_not] at hs
  exact hs hcaptained

end Roster

end Fctf
