import Mathlib.Data.List.Nodup
import Mathlib.Data.List.Basic

/-!
The tables that scoring reads and writes, with the keys that the schema puts on
them, and the SQL statements of the writers. A statement that violates a key
ends with an error, which is the answer `none`.
-/

namespace Fctf

/-- `user_mode`: whether users or teams are the accounts that score. -/
inductive AccountMode
  | users | teams
  deriving Repr, DecidableEq

inductive ChallengeType
  | standard | dynamic | multiple_choice | sandbox
  deriving Repr, DecidableEq

inductive SubmissionType
  | correct | incorrect | discard
  deriving Repr, DecidableEq

structure User where
  id : Nat
  team_id : Option Nat
  hidden : Bool := false
  banned : Bool := false
  deriving Repr, DecidableEq

structure Team where
  id : Nat
  captain_id : Option Nat
  hidden : Bool := false
  banned : Bool := false
  deriving Repr, DecidableEq

/-- The row of `dynamic_challenge`. -/
structure DynamicConfig where
  initial : Option Int
  minimum : Option Int
  decay : Option Int
  function : Option String
  deriving Repr, DecidableEq

structure Challenge where
  id : Nat
  /-- The author. -/
  user_id : Nat
  type : ChallengeType
  value : Option Int
  dynamic : Option DynamicConfig := none
  /-- Whether `kypo_challenge_configs` has a row for it. -/
  kypoConfig : Bool := false
  max_attempts : Option Int := some 0
  deriving Repr, DecidableEq

structure Submission where
  id : Nat
  challenge_id : Nat
  user_id : Option Nat
  team_id : Option Nat
  type : SubmissionType
  deriving Repr, DecidableEq

/-- A row of `solves`, which extends the submission of the same id. -/
structure Solf where
  id : Nat
  challenge_id : Nat
  user_id : Option Nat
  team_id : Option Nat
  deriving Repr, DecidableEq

/-- Two NULLs do not clash in a unique key. -/
def sameKey (x y : Option Nat) : Bool := x.isSome && x == y

/-- Two rows that the keys of `solves` do not admit together: `id`,
`(challenge_id, user_id)` and `(challenge_id, team_id)` are unique. -/
def Solf.clashes (s t : Solf) : Bool :=
  s.id == t.id ||
    (s.challenge_id == t.challenge_id &&
      (sameKey s.user_id t.user_id || sameKey s.team_id t.team_id))

/-- A state of the database. A solve refers to its submission and shares its
challenge; submission ids are handed out in increasing order. -/
structure Db where
  users : List User
  teams : List Team
  challenges : List Challenge
  submissions : List Submission
  solves : List Solf
  nextId : Nat
  challenges_pk : (challenges.map Challenge.id).Nodup
  submissions_pk : (submissions.map Submission.id).Nodup
  submissions_lt : ∀ s ∈ submissions, s.id < nextId
  solves_keys : solves.Pairwise fun s t => s.clashes t = false
  solves_fk : ∀ s ∈ solves, ∃ sub ∈ submissions,
    sub.id = s.id ∧ sub.challenge_id = s.challenge_id

namespace Db

def user (db : Db) (id : Nat) : Option User := db.users.find? (·.id == id)

def team (db : Db) (id : Nat) : Option Team := db.teams.find? (·.id == id)

def challenge (db : Db) (id : Nat) : Option Challenge := db.challenges.find? (·.id == id)

def submission (db : Db) (id : Nat) : Option Submission := db.submissions.find? (·.id == id)

/-- The account that a solve counts for is there and neither hidden nor banned. -/
def visible (db : Db) (mode : AccountMode) (s : Solf) : Bool :=
  match mode with
  | .users => s.user_id.any fun id => (db.user id).any fun u => !u.hidden && !u.banned
  | .teams => s.team_id.any fun id => (db.team id).any fun t => !t.hidden && !t.banned

/-- `GetSolveCount` and `get_solve_count`. -/
def solveCount (db : Db) (mode : AccountMode) (challengeId : Nat) : Nat :=
  db.solves.countP fun s => s.challenge_id == challengeId && db.visible mode s

/-- The look for an earlier solve of the user or the team. -/
def existingSolve (db : Db) (challengeId : Nat) (userId teamId : Option Nat) : Bool :=
  db.solves.any fun s =>
    s.challenge_id == challengeId && (sameKey userId s.user_id || sameKey teamId s.team_id)

/-- `INSERT INTO submissions`; the references have to exist. -/
def insertSubmission (db : Db) (challengeId : Nat) (userId teamId : Option Nat)
    (type : SubmissionType) : Option Db :=
  if (db.challenge challengeId).isSome ∧ (∀ id ∈ userId, (db.user id).isSome) ∧
      (∀ id ∈ teamId, (db.team id).isSome) then
    some { db with
      submissions := ⟨db.nextId, challengeId, userId, teamId, type⟩ :: db.submissions
      nextId := db.nextId + 1
      submissions_pk := by
        rw [List.map_cons, List.nodup_cons]
        refine ⟨fun hmem => ?_, db.submissions_pk⟩
        obtain ⟨s, hs, hid⟩ := List.mem_map.mp hmem
        have hlt := db.submissions_lt s hs
        simp only at hid
        omega
      submissions_lt := by
        intro s hs
        rcases List.mem_cons.mp hs with rfl | hs
        · exact Nat.lt_succ_self _
        · exact Nat.lt_succ_of_lt (db.submissions_lt s hs)
      solves_fk := by
        intro s hs
        obtain ⟨sub, hsub, hshared⟩ := db.solves_fk s hs
        exact ⟨sub, List.mem_cons_of_mem _ hsub, hshared⟩ }
  else none

/-- `INSERT INTO solves` for a stored submission. -/
def insertSolve (db : Db) (row : Solf) : Option Db :=
  if h : (∃ sub ∈ db.submissions, sub.id = row.id ∧ sub.challenge_id = row.challenge_id) ∧
      ∀ s ∈ db.solves, row.clashes s = false then
    some { db with
      solves := row :: db.solves
      solves_keys := List.pairwise_cons.mpr ⟨h.2, db.solves_keys⟩
      solves_fk := by
        intro s hs
        rcases List.mem_cons.mp hs with rfl | hs
        · exact h.1
        · exact db.solves_fk s hs }
  else none

/-- A correct submission with its solve, as the ORMs insert the two. -/
def insertCorrect (db : Db) (challengeId : Nat) (userId teamId : Option Nat) : Option Db :=
  (db.insertSubmission challengeId userId teamId .correct).bind fun db' =>
    db'.insertSolve ⟨db.nextId, challengeId, userId, teamId⟩

/-- Deletes solves and leaves their submissions. -/
def deleteSolves (db : Db) (p : Solf → Bool) : Db :=
  { db with
    solves := db.solves.filter fun s => !p s
    solves_keys := db.solves_keys.filter _
    solves_fk := fun s hs => db.solves_fk s (List.mem_of_mem_filter hs) }

/-- Deletes submissions; the solves that refer to them go with them. -/
def deleteSubmissions (db : Db) (p : Submission → Bool) : Db :=
  { db with
    submissions := db.submissions.filter fun sub => !p sub
    solves := db.solves.filter fun s => !db.submissions.any fun sub => sub.id == s.id && p sub
    submissions_pk := db.submissions_pk.sublist (List.filter_sublist.map _)
    submissions_lt := fun s hs => db.submissions_lt s (List.mem_of_mem_filter hs)
    solves_keys := db.solves_keys.filter _
    solves_fk := by
      intro s hs
      obtain ⟨hmem, hkept⟩ := List.mem_filter.mp hs
      obtain ⟨sub, hsub, hid, hshared⟩ := db.solves_fk s hmem
      refine ⟨sub, List.mem_filter.mpr ⟨hsub, ?_⟩, hid, hshared⟩
      simp only [Bool.not_eq_true', List.any_eq_false, Bool.and_eq_true, beq_iff_eq] at hkept
      simpa [hid] using hkept sub hsub }

/-- `UPDATE submissions SET type = .., team_id = .. WHERE id = ..`. -/
def setSubmission (db : Db) (id : Nat) (type : SubmissionType) (teamId : Option Nat) : Db :=
  { db with
    submissions := db.submissions.map fun sub =>
      { sub with
        type := if sub.id = id then type else sub.type
        team_id := if sub.id = id then teamId else sub.team_id }
    submissions_pk := by
      rw [List.map_map]
      exact db.submissions_pk
    submissions_lt := by
      intro s hs
      obtain ⟨sub, hsub, rfl⟩ := List.mem_map.mp hs
      exact db.submissions_lt sub hsub
    solves_fk := by
      intro s hs
      obtain ⟨sub, hsub, hid, hshared⟩ := db.solves_fk s hs
      exact ⟨_, List.mem_map_of_mem hsub, hid, hshared⟩ }

/-- What `UPDATE` on a challenge changes; the id stays. -/
def updateChallenge (db : Db) (id : Nat) (f : Challenge → Challenge) : Db :=
  { db with
    challenges := db.challenges.map fun c => if c.id = id then { f c with id := c.id } else c
    challenges_pk := by
      have hids : (db.challenges.map fun c => if c.id = id then { f c with id := c.id } else c).map
          Challenge.id = db.challenges.map Challenge.id := by
        rw [List.map_map]
        apply List.map_congr_left
        intro c _
        simp only [Function.comp_apply]
        split <;> rfl
      rw [hids]
      exact db.challenges_pk }

def setValue (db : Db) (id : Nat) (value : Int) : Db :=
  db.updateChallenge id fun c => { c with value := some value }

/-- Deletes challenges; their submissions and solves go with them. -/
def deleteChallenges (db : Db) (p : Challenge → Bool) : Db :=
  { db.deleteSubmissions fun sub => db.challenges.any fun c => c.id == sub.challenge_id && p c with
    challenges := db.challenges.filter fun c => !p c
    challenges_pk := db.challenges_pk.sublist (List.filter_sublist.map _) }

/-- The statements that lie between two states leave accounts and challenges alone. -/
structure Frame (db db' : Db) : Prop where
  users : db'.users = db.users
  teams : db'.teams = db.teams
  challenges : db'.challenges = db.challenges

section Spec

variable {db db' : Db} {challengeId : Nat} {userId teamId : Option Nat} {type : SubmissionType}
  {row : Solf}

theorem Frame.refl (db : Db) : Frame db db := ⟨rfl, rfl, rfl⟩

theorem Frame.trans {db'' : Db} (h : Frame db db') (h' : Frame db' db'') : Frame db db'' :=
  ⟨h'.users.trans h.users, h'.teams.trans h.teams, h'.challenges.trans h.challenges⟩

theorem Frame.visible (h : Frame db db') : db'.visible = db.visible := by
  funext mode s
  simp only [Db.visible, user, team, h.users, h.teams]

theorem insertSubmission_eq_some
    (h : db.insertSubmission challengeId userId teamId type = some db') :
    Frame db db' ∧ db'.solves = db.solves ∧ db'.nextId = db.nextId + 1 ∧
      db'.submissions = ⟨db.nextId, challengeId, userId, teamId, type⟩ :: db.submissions := by
  unfold insertSubmission at h
  split at h
  · obtain rfl := Option.some.inj h
    exact ⟨⟨rfl, rfl, rfl⟩, rfl, rfl, rfl⟩
  · cases h

theorem insertSolve_eq_some (h : db.insertSolve row = some db') :
    Frame db db' ∧ db'.solves = row :: db.solves ∧ db'.submissions = db.submissions ∧
      db'.nextId = db.nextId ∧ ∀ s ∈ db.solves, row.clashes s = false := by
  unfold insertSolve at h
  split at h
  · rename_i hkeys
    obtain rfl := Option.some.inj h
    exact ⟨⟨rfl, rfl, rfl⟩, rfl, rfl, rfl, hkeys.2⟩
  · cases h

theorem insertCorrect_eq_some (h : db.insertCorrect challengeId userId teamId = some db') :
    Frame db db' ∧ db'.solves = ⟨db.nextId, challengeId, userId, teamId⟩ :: db.solves ∧
      db'.submissions = ⟨db.nextId, challengeId, userId, teamId, .correct⟩ :: db.submissions ∧
      db'.nextId = db.nextId + 1 := by
  obtain ⟨saved, hsaved, hsolved⟩ := Option.bind_eq_some_iff.mp h
  obtain ⟨hframe, hsolves, hnext, hsubmissions⟩ := insertSubmission_eq_some hsaved
  obtain ⟨hframe', hsolves', hsubmissions', hnext', -⟩ := insertSolve_eq_some hsolved
  exact ⟨hframe.trans hframe', by rw [hsolves', hsolves], by rw [hsubmissions', hsubmissions],
    by rw [hnext', hnext]⟩

theorem challenge_eq_some {id : Nat} {c : Challenge} :
    db.challenge id = some c ↔ c ∈ db.challenges ∧ c.id = id := by
  unfold challenge
  constructor
  · intro h
    exact ⟨List.mem_of_find?_eq_some h, by simpa using List.find?_some h⟩
  · rintro ⟨hmem, rfl⟩
    have hfound : (db.challenges.find? (·.id == c.id)).isSome := by
      rw [List.find?_isSome]
      exact ⟨c, hmem, by simp⟩
    obtain ⟨c', hc'⟩ := Option.isSome_iff_exists.mp hfound
    have hsame : c' = c := by
      apply List.inj_on_of_nodup_map db.challenges_pk (List.mem_of_find?_eq_some hc') hmem
      simpa using List.find?_some hc'
    rw [hc', hsame]

theorem mem_updateChallenge {id : Nat} {f : Challenge → Challenge} {c : Challenge}
    (h : c ∈ (db.updateChallenge id f).challenges) :
    (c ∈ db.challenges ∧ c.id ≠ id) ∨
      ∃ old, db.challenge id = some old ∧ c = { f old with id := id } := by
  obtain ⟨old, hold, rfl⟩ := List.mem_map.mp h
  by_cases hid : old.id = id
  · right
    refine ⟨old, challenge_eq_some.mpr ⟨hold, hid⟩, ?_⟩
    rw [if_pos hid, hid]
  · left
    rw [if_neg hid]
    exact ⟨hold, hid⟩

end Spec

end Db

end Fctf
