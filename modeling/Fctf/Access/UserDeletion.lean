import Mathlib.Algebra.BigOperators.Group.List.Basic
import Fctf.Lib.Table

/-!
`DELETE /api/v1/users/<user_id>`: the purge of what refers to the user, and the row of the user.
The purge looks at one table after the other, those that depend on others first, and at the rule
that the schema gives for each key to `users.id`; what the database does with the keys to a
deleted row is part of the deletion. Of the tables there are those that make up the scores.
-/

namespace Fctf.UserDeletion

variable {X : Type}

/-- `user_mode`. -/
inductive UserMode
  | users
  | teams
  deriving DecidableEq, Repr

def UserMode.accountId (mode : UserMode) (userId teamId : Option Nat) : Option Nat :=
  match mode with
  | .users => userId
  | .teams => teamId

structure User (X : Type) where
  id : Nat
  teamId : Option Nat := none
  rest : X
  deriving DecidableEq

structure Team (X : Type) where
  id : Nat
  captainId : Option Nat := none
  rest : X
  deriving DecidableEq

structure Challenge (X : Type) where
  id : Nat
  userId : Nat
  nextId : Option Nat := none
  value : Option Int := none
  rest : X
  deriving DecidableEq

structure Submission (X : Type) where
  id : Nat
  challengeId : Option Nat
  userId : Option Nat
  teamId : Option Nat := none
  rest : X
  deriving DecidableEq

/-- The row of a solve besides its submission, which has the same id. -/
structure Solve where
  id : Nat
  challengeId : Option Nat
  userId : Option Nat
  teamId : Option Nat := none
  deriving DecidableEq

structure Award (X : Type) where
  id : Nat
  userId : Option Nat
  teamId : Option Nat := none
  value : Option Int := none
  rest : X
  deriving DecidableEq

structure Unlock (X : Type) where
  id : Nat
  userId : Option Nat
  teamId : Option Nat := none
  rest : X
  deriving DecidableEq

/-- A row of `deploy_histories`. -/
structure DeployedChallenge where
  id : Nat
  challengeId : Nat
  deriving DecidableEq

def User.accountId (mode : UserMode) (u : User X) : Option Nat :=
  mode.accountId (some u.id) u.teamId

def Submission.accountId (mode : UserMode) (s : Submission X) : Option Nat :=
  mode.accountId s.userId s.teamId

def Solve.accountId (mode : UserMode) (s : Solve) : Option Nat := mode.accountId s.userId s.teamId

def Award.accountId (mode : UserMode) (a : Award X) : Option Nat := mode.accountId a.userId a.teamId

def Unlock.accountId (mode : UserMode) (a : Unlock X) : Option Nat :=
  mode.accountId a.userId a.teamId

structure Db (X : Type) where
  users : Table (User.id (X := X)) := {}
  teams : Table (Team.id (X := X)) := {}
  challenges : Table (Challenge.id (X := X)) := {}
  submissions : Table (Submission.id (X := X)) := {}
  solves : Table Solve.id := {}
  awards : Table (Award.id (X := X)) := {}
  unlocks : Table (Unlock.id (X := X)) := {}
  deployHistories : Table DeployedChallenge.id := {}

/-! ### The keys to the users -/

inductive OnDelete
  | cascade
  | setNull
  | restrict
  deriving DecidableEq, Repr

section UserKey

variable {α : Type} {key : α → Nat}

/-- A foreign key to `users.id`: its column, its rule, and how a nullable column is cleared. -/
structure UserKey (key : α → Nat) where
  column : α → Option Nat
  ondelete : Option OnDelete
  cleared : Option {f : α → α // ∀ a, key (f a) = key a}

/-- The key is cleared; otherwise the row is deleted, whatever the rule. -/
def UserKey.setsNull (k : UserKey key) : Option {f : α → α // ∀ a, key (f a) = key a} :=
  if k.ondelete = some .setNull then k.cleared else none

/-- `table.update()` of the loop. -/
def UserKey.update (k : UserKey key) (userId : Nat) (t : Table key) : Table key :=
  match k.setsNull with
  | some f =>
    t.modify (fun a => if k.column a = some userId then f.1 a else a) fun a => by
      split
      · exact f.2 a
      · rfl
  | none => t

/-- `delete_conditions` of the loop. -/
def UserKey.deletes (k : UserKey key) (userId : Nat) (a : α) : Bool :=
  k.setsNull.isNone && decide (k.column a = some userId)

/-- The body of the loop for a table to whose rows no other table has a key. -/
def UserKey.purgeTable (k : UserKey key) (userId : Nat) (t : Table key) : Table key :=
  (k.update userId t).filter fun a => !k.deletes userId a

end UserKey

def Solve.userKey : UserKey Solve.id where
  column := Solve.userId
  ondelete := some .cascade
  cleared := some ⟨fun s => { s with userId := none }, fun _ => rfl⟩

def Submission.userKey : UserKey (Submission.id (X := X)) where
  column := Submission.userId
  ondelete := some .cascade
  cleared := some ⟨fun s => { s with userId := none }, fun _ => rfl⟩

def Unlock.userKey : UserKey (Unlock.id (X := X)) where
  column := Unlock.userId
  ondelete := some .cascade
  cleared := some ⟨fun s => { s with userId := none }, fun _ => rfl⟩

def Award.userKey : UserKey (Award.id (X := X)) where
  column := Award.userId
  ondelete := some .cascade
  cleared := some ⟨fun s => { s with userId := none }, fun _ => rfl⟩

def Team.captainKey : UserKey (Team.id (X := X)) where
  column := Team.captainId
  ondelete := some .setNull
  cleared := some ⟨fun s => { s with captainId := none }, fun _ => rfl⟩

/-- The author of a challenge: the key is not nullable, and the schema gives no rule for it. -/
def Challenge.userKey : UserKey (Challenge.id (X := X)) where
  column := fun c => some c.userId
  ondelete := none
  cleared := none

/-! ### Deleting rows -/

/-- How the request is refused. -/
inductive Refusal
  | yourself
  | notFound
  /-- A key without a rule still refers to a row that is deleted. -/
  | integrity
  deriving DecidableEq, Repr

namespace Db

/-- `DELETE FROM submissions`; the solves go with their submissions. -/
def deleteSubmissions (p : Submission X → Bool) (db : Db X) : Db X :=
  { db with
    submissions := db.submissions.filter fun m => !p m
    solves := db.solves.filter fun s => !db.submissions.rows.any fun m => m.id = s.id && p m }

/-- `DELETE FROM challenges`: the submissions and the solves go with their challenges, `next_id`
is cleared, and a challenge that was ever deployed stays. -/
def deleteChallenges (p : Challenge X → Bool) (db : Db X) : Except Refusal (Db X) :=
  let gone (id : Option Nat) : Bool := db.challenges.rows.any fun c => p c && id = some c.id
  if db.deployHistories.rows.any fun d => gone (some d.challengeId) then .error .integrity
  else
    let db' := db.deleteSubmissions fun m => gone m.challengeId
    .ok { db' with
      solves := db'.solves.filter fun s => !gone s.challengeId
      challenges := (db.challenges.filter fun c => !p c).modify
        (fun c => if gone c.nextId then { c with nextId := none } else c)
        fun c => by split <;> rfl }

/-- `_purge_user_references`. -/
def purgeUserReferences (userId : Nat) (db : Db X) : Except Refusal (Db X) :=
  let db := { db with solves := Solve.userKey.purgeTable userId db.solves }
  let db := { db with submissions := Submission.userKey.update userId db.submissions }
  let db := db.deleteSubmissions (Submission.userKey.deletes userId)
  let db := { db with unlocks := Unlock.userKey.purgeTable userId db.unlocks }
  let db := { db with awards := Award.userKey.purgeTable userId db.awards }
  let db := { db with teams := Team.captainKey.purgeTable userId db.teams }
  let db := { db with challenges := Challenge.userKey.update userId db.challenges }
  db.deleteChallenges (Challenge.userKey.deletes userId)

/-- `UserPublic.delete`, for an admin whose session is `session`. -/
def deleteUser (session userId : Nat) (db : Db X) : Except Refusal (Db X) :=
  if userId = session then .error .yourself
  else
    match db.users.find userId with
    | none => .error .notFound
    | some _ => do
      let db ← db.purgeUserReferences userId
      .ok { db with users := db.users.filter fun u => decide (u.id ≠ userId) }

/-- The user wrote the challenge with this id. -/
def wrote (db : Db X) (userId : Nat) (challengeId : Option Nat) : Bool :=
  db.challenges.rows.any fun c => decide (c.userId = userId) && challengeId = some c.id

/-- The account that a user plays for. -/
def accountOf (db : Db X) (mode : UserMode) (userId : Nat) : Option Nat :=
  (db.users.find userId).bind (User.accountId mode)

/-- The value of a solve: that of its challenge. -/
def valueOf (db : Db X) (challengeId : Option Nat) : Int :=
  ((challengeId.bind db.challenges.find).bind Challenge.value).getD 0

/-- The score of an account: the values of its solves and of its awards. -/
def score (db : Db X) (mode : UserMode) (account : Nat) : Int :=
  ((db.solves.rows.filter fun s => s.accountId mode = some account).map
      fun s => db.valueOf s.challengeId).sum +
    ((db.awards.rows.filter fun a => a.accountId mode = some account).map
      fun a => a.value.getD 0).sum

end Db

/-! ### What is left of the tables -/

section Purge

variable {db db' : Db X} {session userId : Nat}

@[simp] theorem Db.wrote_none : db.wrote userId none = false := by
  simp [Db.wrote]

section UserKey

variable {α : Type} {key : α → Nat} {k : UserKey key} {t : Table key}

theorem UserKey.update_eq (h : k.setsNull = none) (userId : Nat) (t : Table key) :
    k.update userId t = t := by
  simp [UserKey.update, h]

theorem UserKey.not_deletes_iff (h : k.setsNull = none) {a : α} :
    k.deletes userId a = false ↔ k.column a ≠ some userId := by
  simp [UserKey.deletes, h]

theorem UserKey.mem_purgeTable (h : k.setsNull = none) {a : α} :
    a ∈ (k.purgeTable userId t).rows ↔ a ∈ t.rows ∧ k.column a ≠ some userId := by
  rw [UserKey.purgeTable, UserKey.update_eq h userId t, Table.mem_filter, Bool.not_eq_true',
    UserKey.not_deletes_iff h]

end UserKey

/-- The rows that are left, table by table. -/
structure Purged (userId : Nat) (db db' : Db X) : Prop where
  submissions : ∀ m, m ∈ db'.submissions.rows ↔ m ∈ db.submissions.rows ∧
    m.userId ≠ some userId ∧ db.wrote userId m.challengeId = false
  solves : ∀ s, s ∈ db'.solves.rows ↔ s ∈ db.solves.rows ∧
    s.userId ≠ some userId ∧ db.wrote userId s.challengeId = false ∧
      ∀ m ∈ db.submissions.rows, m.id = s.id →
        m.userId ≠ some userId ∧ db.wrote userId m.challengeId = false
  awards : ∀ a, a ∈ db'.awards.rows ↔ a ∈ db.awards.rows ∧ a.userId ≠ some userId
  unlocks : ∀ a, a ∈ db'.unlocks.rows ↔ a ∈ db.unlocks.rows ∧ a.userId ≠ some userId
  challenges : ∀ c, c ∈ db'.challenges.rows ↔ ∃ b ∈ db.challenges.rows, b.userId ≠ userId ∧
    (if db.wrote userId b.nextId then { b with nextId := none } else b) = c

theorem mem_deleteSubmissions {p : Submission X → Bool} {m : Submission X} :
    m ∈ (db.deleteSubmissions p).submissions.rows ↔ m ∈ db.submissions.rows ∧ p m = false := by
  simp [Db.deleteSubmissions, Table.mem_filter]

theorem mem_solves_deleteSubmissions {p : Submission X → Bool} {s : Solve} :
    s ∈ (db.deleteSubmissions p).solves.rows ↔ s ∈ db.solves.rows ∧
      ∀ m ∈ db.submissions.rows, m.id = s.id → p m = false := by
  simp [Db.deleteSubmissions, Table.mem_filter]

/-- What goes with some challenges. -/
theorem deleteChallenges_spec {p : Challenge X → Bool} {gone : Option Nat → Bool}
    (hgone : ∀ id, gone id = db.challenges.rows.any fun c => p c && id = some c.id)
    (h : db.deleteChallenges p = .ok db') :
    db'.awards = db.awards ∧ db'.unlocks = db.unlocks ∧
      (∀ m, m ∈ db'.submissions.rows ↔ m ∈ db.submissions.rows ∧ gone m.challengeId = false) ∧
      (∀ s, s ∈ db'.solves.rows ↔ s ∈ db.solves.rows ∧ gone s.challengeId = false ∧
        ∀ m ∈ db.submissions.rows, m.id = s.id → gone m.challengeId = false) ∧
      ∀ c, c ∈ db'.challenges.rows ↔ ∃ b ∈ db.challenges.rows, p b = false ∧
        (if gone b.nextId then { b with nextId := none } else b) = c := by
  unfold Db.deleteChallenges at h
  extract_lets gone' db₁ at h
  obtain rfl : gone = gone' := funext hgone
  split_ifs at h
  obtain rfl := Except.ok.inj h
  refine ⟨rfl, rfl, fun m => mem_deleteSubmissions, fun s => ?_, fun c => ?_⟩
  · dsimp only
    rw [Table.mem_filter, mem_solves_deleteSubmissions]
    simp only [Bool.not_eq_true']
    tauto
  · dsimp only
    rw [Table.mem_modify]
    simp only [Table.mem_filter, Bool.not_eq_true', and_assoc]

theorem purged_of_purge (h : db.purgeUserReferences userId = .ok db') : Purged userId db db' := by
  unfold Db.purgeUserReferences at h
  extract_lets db₁ db₂ db₃ db₄ db₅ db₆ db₇ at h
  have hchallenges : db₇.challenges = db.challenges :=
    Challenge.userKey.update_eq rfl userId db.challenges
  have hdeletes (c : Challenge X) :
      Challenge.userKey.deletes userId c = decide (c.userId = userId) := by
    simp [UserKey.deletes, Challenge.userKey, UserKey.setsNull]
  have hgone (id : Option Nat) : db.wrote userId id =
      db₇.challenges.rows.any fun c => Challenge.userKey.deletes userId c && id = some c.id := by
    simp only [hchallenges, hdeletes]
    rfl
  have hdb₂ : db₂.submissions = db.submissions :=
    Submission.userKey.update_eq rfl userId db.submissions
  have hmade (m : Submission X) : m ∈ db₇.submissions.rows ↔
      m ∈ db.submissions.rows ∧ m.userId ≠ some userId := by
    rw [← hdb₂]
    exact mem_deleteSubmissions.trans
      (and_congr_right fun _ => Submission.userKey.not_deletes_iff rfl)
  have hsolved (s : Solve) : s ∈ db₇.solves.rows ↔ (s ∈ db.solves.rows ∧ s.userId ≠ some userId) ∧
      ∀ m ∈ db.submissions.rows, m.id = s.id → m.userId ≠ some userId := by
    rw [← hdb₂]
    refine mem_solves_deleteSubmissions.trans (and_congr ?_ ?_)
    · exact Solve.userKey.mem_purgeTable rfl
    · exact forall₃_congr fun m _ _ => Submission.userKey.not_deletes_iff rfl
  obtain ⟨hawards, hunlocks, hsubmissions, hsolves, hleft⟩ := deleteChallenges_spec hgone h
  refine ⟨fun m => ?_, fun s => ?_, fun a => ?_, fun a => ?_, fun c => ?_⟩
  · rw [hsubmissions, hmade, and_assoc]
  · rw [hsolves, hsolved]
    constructor
    · rintro ⟨⟨⟨hs, huser⟩, hof⟩, hleft, hfor⟩
      exact ⟨hs, huser, hleft, fun m hm hid =>
        ⟨hof m hm hid, hfor m ((hmade m).mpr ⟨hm, hof m hm hid⟩) hid⟩⟩
    · rintro ⟨hs, huser, hleft, hof⟩
      exact ⟨⟨⟨hs, huser⟩, fun m hm hid => (hof m hm hid).1⟩, hleft, fun m hm hid =>
        (hof m ((hmade m).mp hm).1 hid).2⟩
  · rw [hawards]
    exact Award.userKey.mem_purgeTable rfl
  · rw [hunlocks]
    exact Unlock.userKey.mem_purgeTable rfl
  · rw [hleft, hchallenges]
    simp only [hdeletes, decide_eq_false_iff_not, ne_eq]

theorem purged_of_deleteUser (h : db.deleteUser session userId = .ok db') :
    Purged userId db db' := by
  unfold Db.deleteUser at h
  split_ifs at h
  split at h
  · cases h
  · cases hpurge : db.purgeUserReferences userId with
    | error refusal =>
      rw [hpurge] at h
      cases h
    | ok purged =>
      rw [hpurge] at h
      obtain rfl := Except.ok.inj h
      exact { purged_of_purge hpurge with }

end Purge

/-! ### The other accounts -/

/-- An account, and not `own`. -/
def IsOther (own account : Option Nat) : Prop := account ≠ none ∧ account ≠ own

instance (own account : Option Nat) : Decidable (IsOther own account) :=
  inferInstanceAs (Decidable (_ ∧ _))

section Untouched

variable {mode : UserMode} {own : Option Nat} {session userId : Nat} {db db' : Db X}

/-- A solve of the challenge is by another account. -/
def Db.SolvedByOther (mode : UserMode) (own : Option Nat) (db : Db X) (c : Challenge X) : Prop :=
  ∃ s ∈ db.solves.rows, IsOther own (s.accountId mode) ∧ s.challengeId = some c.id

instance (c : Challenge X) : Decidable (db.SolvedByOther mode own c) :=
  inferInstanceAs (Decidable (∃ s ∈ db.solves.rows, _ ∧ _))

/-- What belongs to the other accounts is as it was. -/
structure Untouched (mode : UserMode) (own : Option Nat) (db db' : Db X) : Prop where
  submissions : Table.Keeps (fun m => IsOther own (m.accountId mode)) db.submissions db'.submissions
  solves : Table.Keeps (fun s => IsOther own (s.accountId mode)) db.solves db'.solves
  awards : Table.Keeps (fun a => IsOther own (a.accountId mode)) db.awards db'.awards
  unlocks : Table.Keeps (fun a => IsOther own (a.accountId mode)) db.unlocks db'.unlocks
  challenges : Table.Keeps (db.SolvedByOther mode own) db.challenges db'.challenges
  scores : ∀ account, IsOther own (some account) → db'.score mode account = db.score mode account

/-- No row of another account was made by the user, or is for a challenge that the user wrote,
and no challenge that another account has solved leads to one. -/
structure Separate (mode : UserMode) (own : Option Nat) (userId : Nat) (db : Db X) : Prop where
  submissions : ∀ m ∈ db.submissions.rows, IsOther own (m.accountId mode) →
    m.userId ≠ some userId ∧ db.wrote userId m.challengeId = false
  solves : ∀ s ∈ db.solves.rows, IsOther own (s.accountId mode) →
    s.userId ≠ some userId ∧ db.wrote userId s.challengeId = false ∧
      ∀ m ∈ db.submissions.rows, m.id = s.id →
        m.userId ≠ some userId ∧ db.wrote userId m.challengeId = false
  awards : ∀ a ∈ db.awards.rows, IsOther own (a.accountId mode) → a.userId ≠ some userId
  unlocks : ∀ a ∈ db.unlocks.rows, IsOther own (a.accountId mode) → a.userId ≠ some userId
  challenges : ∀ c ∈ db.challenges.rows, db.SolvedByOther mode own c →
    c.userId ≠ userId ∧ db.wrote userId c.nextId = false

theorem keeps_challenges_iff (h : Purged userId db db') :
    Table.Keeps (db.SolvedByOther mode own) db.challenges db'.challenges ↔
      ∀ c ∈ db.challenges.rows, db.SolvedByOther mode own c →
        c.userId ≠ userId ∧ db.wrote userId c.nextId = false := by
  constructor
  · intro hkeeps c hc hsolved
    obtain ⟨b, hb, huser, heq⟩ := (h.challenges c).mp ((hkeeps c hsolved).mpr hc)
    split_ifs at heq with hnext
    · obtain rfl := Table.eq_of_key hb hc (by rw [← heq])
      exact ⟨huser, by rw [← heq, Db.wrote_none]⟩
    · subst heq
      exact ⟨huser, Bool.not_eq_true _ ▸ hnext⟩
  · intro hseparate c hsolved
    rw [h.challenges]
    constructor
    · rintro ⟨b, hb, huser, heq⟩
      have hid : b.id = c.id := by
        rw [← heq]
        split <;> rfl
      obtain ⟨s, hs, hother, hfor⟩ := hsolved
      obtain ⟨-, hnext⟩ := hseparate b hb ⟨s, hs, hother, by rw [hfor, hid]⟩
      rw [hnext] at heq
      exact heq ▸ hb
    · intro hc
      obtain ⟨huser, hnext⟩ := hseparate c hc hsolved
      exact ⟨c, hc, huser, by simp [hnext]⟩

/-- A challenge that another account has solved has the value it had. -/
theorem valueOf_eq
    (hchallenges : Table.Keeps (db.SolvedByOther mode own) db.challenges db'.challenges)
    {s : Solve} (hs : s ∈ db.solves.rows) (hother : IsOther own (s.accountId mode)) :
    db'.valueOf s.challengeId = db.valueOf s.challengeId := by
  have hfind : s.challengeId.bind db'.challenges.find = s.challengeId.bind db.challenges.find := by
    ext c
    simp only [Option.bind_eq_some_iff, Table.find_eq_some]
    refine exists_congr fun id => and_congr_right fun hid => and_congr_left fun hc => ?_
    exact hchallenges c ⟨s, hs, hother, by rw [hid, hc]⟩
  rw [Db.valueOf, Db.valueOf, hfind]

theorem score_eq (hsolves : Table.Keeps (fun s => IsOther own (s.accountId mode)) db.solves
      db'.solves)
    (hawards : Table.Keeps (fun a => IsOther own (a.accountId mode)) db.awards db'.awards)
    (hchallenges : Table.Keeps (db.SolvedByOther mode own) db.challenges db'.challenges)
    {account : Nat} (hother : IsOther own (some account)) :
    db'.score mode account = db.score mode account := by
  have hof (s : Solve) (hs : decide (s.accountId mode = some account) = true) :
      IsOther own (s.accountId mode) := of_decide_eq_true hs ▸ hother
  have hofAward (a : Award X) (ha : decide (a.accountId mode = some account) = true) :
      IsOther own (a.accountId mode) := of_decide_eq_true ha ▸ hother
  unfold Db.score
  congr 1
  · rw [← ((hsolves.perm_filter hof).map _).sum_eq]
    refine congrArg List.sum (List.map_congr_left fun s hs => ?_)
    obtain ⟨hs, hacct⟩ := List.mem_filter.mp hs
    exact valueOf_eq hchallenges ((hsolves s (hof s hacct)).mp hs) (hof s hacct)
  · exact ((hawards.perm_filter hofAward).map _).sum_eq

end Untouched

/-! ### A contest -/

section Contest

/-- The admin 1, the author 2 of a challenge, and the contestant 3 who has solved it. -/
def authored : Db Unit where
  users := { rows := [{ id := 1, rest := () }, { id := 2, rest := () }, { id := 3, rest := () }] }
  challenges := { rows := [{ id := 7, userId := 2, value := some 100, rest := () }] }
  submissions := { rows := [{ id := 4, challengeId := some 7, userId := some 3, rest := () }] }
  solves := { rows := [{ id := 4, challengeId := some 7, userId := some 3 }] }

/-- The same with the challenge written by the admin. -/
def administered : Db Unit :=
  { authored with
    challenges := { rows := [{ id := 7, userId := 1, value := some 100, rest := () }] } }

end Contest

end Fctf.UserDeletion
