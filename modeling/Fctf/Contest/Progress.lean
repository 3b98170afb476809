import Fctf.Contest.Topics
import Fctf.Lib.Run
import Fctf.Lib.Unlocking

/-!
The progress of a team: what it may attempt next depends on what it has solved before. Attempts of
all teams interleave; each goes by the tables as they were when it read them.
-/

namespace Fctf.Contest

/-! ### Attempts that are recorded -/

/-- An id that no submission has. -/
def nextSubmission (board : Board.Db) : Nat :=
  (board.submissions.map Board.Submission.id).foldr max 0 + 1

theorem lt_nextSubmission (board : Board.Db) :
    ∀ id ∈ board.submissions.map Board.Submission.id, id < nextSubmission board := by
  rw [nextSubmission]
  induction board.submissions.map Board.Submission.id with
  | nil => exact List.forall_mem_nil _
  | cons first rest ih =>
    rw [List.foldr_cons]
    rintro id (_ | ⟨_, hid⟩)
    · omega
    · have := ih id hid
      omega

/-- A row with the keys of a new one. -/
def clashes (challengeId : Nat) (userId teamId : Option Nat) (s : Board.Solf) : Bool :=
  s.challengeId = some challengeId &&
    (userId.isSome && s.userId = userId || teamId.isSome && s.teamId = teamId)

def insertSubmission (board : Board.Db) (date : Option Int) : Board.Db :=
  { board with
    submissions := board.submissions ++ [⟨nextSubmission board, date⟩]
    submissions_pk := by
      rw [List.map_append, List.map_singleton, List.nodup_append]
      refine ⟨board.submissions_pk, List.nodup_singleton _, ?_⟩
      intro id hid id' hid'
      obtain rfl := List.mem_singleton.mp hid'
      exact Nat.ne_of_lt (lt_nextSubmission board id hid)
    solves_fk := by
      intro s hs
      obtain ⟨hid, hchallenge⟩ := board.solves_fk s hs
      rw [List.map_append]
      exact ⟨List.mem_append_left _ hid, hchallenge⟩ }

/-- The solve of the submission that has just been inserted. -/
def insertSolve (board : Board.Db) (date : Option Int) (challengeId : Nat)
    (userId teamId : Option Nat) : Option Board.Db :=
  if h : challengeId ∈ board.challenges.map Board.Challenge.id ∧
      board.solves.any (clashes challengeId userId teamId) = false then
    let saved := insertSubmission board date
    some { saved with
      solves := board.solves ++ [⟨nextSubmission board, some challengeId, userId, teamId⟩]
      solves_fk := by
        intro s hs
        rcases List.mem_append.mp hs with hs | hs
        · exact saved.solves_fk s hs
        · obtain rfl := List.mem_singleton.mp hs
          refine ⟨?_, ?_⟩
          · rw [show saved.submissions =
              board.submissions ++ [⟨nextSubmission board, date⟩] from rfl,
              List.map_append]
            exact List.mem_append_right _ (List.mem_singleton_self _)
          · rintro id ⟨⟩
            exact h.1
      solves_pos := by
        intro s hs
        rcases List.mem_append.mp hs with hs | hs
        · exact board.solves_pos s hs
        · obtain rfl := List.mem_singleton.mp hs
          exact Nat.succ_pos _ }
  else none

/-- What is saved of an attempt; a correct one has a solve. -/
def Db.record (db : Db) (date : Option Int) (s : Submission) : Option Db :=
  match s.type, s.challengeId with
  | .correct, some challengeId =>
    (insertSolve db.board date challengeId s.userId s.teamId).map fun board =>
      { db with board := board, submissions := db.submissions ++ [s] }
  | _, _ =>
    some { db with board := insertSubmission db.board date, submissions := db.submissions ++ [s] }

/-- What an attempt writes. -/
def Portal.apply (p : Portal) : Effect → Option Portal
  | .recorded s => (p.db.record (some (p.now * 1000000)) s).map fun db => { p with db := db }
  | _ => some p

/-- An attempt at a challenge, by the tables as they were at one of the times so far. -/
structure Attempt where
  session : Session
  challengeId : Nat
  submission : Option String
  answers : Answers
  seen : Nat

/-- What the tables are, and were, the latest first. -/
structure Course where
  portal : Portal
  before : List Portal

namespace Course

variable (platform : Platform) (s : Course)

/-- What a dynamic challenge is worth is left as it is. -/
def step (a : Attempt) : Option Course :=
  s.before[a.seen]?.bind fun seen =>
    ((attempt platform a.answers seen a.session a.challengeId a.submission).2.foldlM
      Portal.apply s.portal).map fun portal => ⟨portal, portal :: s.before⟩

def start (p : Portal) : Course := ⟨p, [p]⟩

/-- The attempt does not record a wrong flag. -/
def Right (s : Course) (a : Attempt) : Prop :=
  ∀ seen ∈ s.before[a.seen]?, ∀ sub,
    Effect.recorded sub ∈
      (attempt platform a.answers seen a.session a.challengeId a.submission).2 →
    sub.type = .correct

end Course

/-! ### What a team can come to solve -/

open ChallengeService

/-- The prerequisites of a challenge that are there. -/
def required (platform : Platform) (db : Db) (c : Challenge) : List Int :=
  match c.requirements with
  | none => []
  | some requirements =>
    if requirements = "" then []
    else match platform.deserialize requirements with
      | none => []
      | some requirementsObj =>
        ((requirementsObj.bind (·.prerequisites)).getD []).filter (isChallenge db)

def prerequisites (platform : Platform) (db : Db) (id : Int) : List Int :=
  ((db.challenges.find? fun c => (c.id : Int) = id).map (required platform db)).getD []

/-- What an attempt with the right flag has to pass, beside the prerequisites. -/
structure Scores (platform : Platform) (p : Portal) (user : Board.User) (challenge : Challenge)
    (submission message : String) : Prop where
  positive : challenge.id ≠ 0
  refusal : attemptRefusal p.db user submission = none
  state : challenge.state ≠ "hidden" ∧ challenge.state ≠ "locked"
  category : isHiddenCategory platform p.db challenge.category = false
  attempts : isUsedUp challenge.maxAttempts (incorrectCount p.db challenge.id user.teamId) = false
  flag : tryFlags platform submission (p.db.flags.filter fun f => f.challengeId = some challenge.id)
    none = (true, false, message)
  unsolved : p.db.board.solves.any (clashes challenge.id (some user.id) user.teamId) = false

/-- Someone of the team could solve the challenge if it required nothing. -/
def Opens (platform : Platform) (p : Portal) (teamId : Nat) (id : Int) : Prop :=
  ∃ challenge user raw message, (challenge.id : Int) = id ∧
    p.db.challenge challenge.id = some challenge ∧ p.db.user user.id = some user ∧
      user.teamId = some teamId ∧ Scores platform p user challenge (trim raw) message

/-- The team can come to solve a challenge, as far as its prerequisites go. -/
def Solvable (platform : Platform) (p : Portal) (teamId : Nat) : Int → Prop :=
  Unlocking.Grounded (prerequisites platform p.db) (Opens platform p teamId)
    fun id => solved p.db (some teamId) id = true

section Progress

variable {platform : Platform} {p q r : Portal} {user : Board.User} {challenge : Challenge}
  {teamId : Nat}

theorem requirementsMet_eq (db : Db) (c : Challenge) (team : Option Nat) :
    requirementsMet platform db c team = (required platform db c).all (solved db team) := by
  unfold requirementsMet required
  cases c.requirements with
  | none => rfl
  | some requirements =>
    by_cases hempty : requirements = ""
    · simp only [hempty, if_true]
      rfl
    · simp only [hempty, if_false]
      cases platform.deserialize requirements <;> rfl

theorem prerequisites_eq (hc : p.db.challenge challenge.id = some challenge) :
    prerequisites platform p.db challenge.id = required platform p.db challenge := by
  have hfind : (p.db.challenges.find? fun c => (c.id : Int) = challenge.id) = some challenge := by
    rw [← hc, Db.challenge]
    congr 1
    funext c
    simp
  rw [prerequisites, hfind, Option.map_some, Option.getD_some]

theorem clashes_eq (id userId : Nat) (team : Option Nat) :
    clashes id (some userId) team = fun s => s.challengeId = some id &&
      (s.userId = some userId || team.isSome && s.teamId = team) := by
  funext s
  simp [clashes]

/-- What was checked before a right flag was recorded. -/
theorem scores_of_attempt {answers : Answers} {session : Session} {id : Nat}
    {submission : Option String} {sub : Submission}
    (he : .recorded sub ∈ (attempt platform answers p session id submission).2)
    (htype : sub.type = .correct) :
    ∃ user challenge message, p.db.user session.userId = some user ∧
      p.db.challenge id = some challenge ∧
        Scores platform p user challenge (trim (submission.getD "")) message ∧
          requirementsMet platform p.db challenge user.teamId = true ∧
            sub = ⟨some challenge.id, some user.id, user.teamId, .correct,
              some (trim (submission.getD ""))⟩ := by
  unfold attempt at he
  split at he
  · cases he
  rename_i hpositive
  split at he
  · cases he
  rename_i user huser
  split at he
  · cases he
  rename_i challenge hc
  refine ⟨user, challenge, ?_⟩
  simp only at he
  split at he
  · cases he
  rename_i hrefusal
  split at he
  · cases he
  split at he
  · cases he
  rename_i hhidden
  split at he
  · cases he
  rename_i hlocked
  split at he
  · cases he
  rename_i hmet
  split at he
  · cases he
  split at he
  · cases he
  rename_i hattempts
  split at he
  · cases he
  · rename_i message hflag
    unfold correctAttempt at he
    split at he
    · split at he <;> cases he
    split at he
    · cases he
    rename_i hunsolved
    have hsub : sub = ⟨some challenge.id, some user.id, user.teamId, .correct,
        some (trim (submission.getD ""))⟩ := by
      split at he
      · exact Effect.recorded.inj (List.mem_singleton.mp he)
      · cases he
      · cases he
      · simp only at he
        split at he
        · exact Effect.recorded.inj (List.mem_singleton.mp he)
        · cases he
    rw [Bool.or_eq_true, not_or] at hhidden
    refine
      ⟨message, huser, hc, ⟨?_, hrefusal, ⟨?_, ?_⟩, ?_, ?_, hflag, ?_⟩, by simpa using hmet, hsub⟩
    · rw [challenge_id hc]
      exact hpositive
    · simpa using hhidden.1
    · simpa using hlocked
    · simpa using hhidden.2
    · simpa using hattempts
    · rw [← Bool.not_eq_true, clashes_eq]
      exact hunsolved
  · unfold incorrectAttempt at he
    simp only at he
    split at he
    · cases he
    split at he
    · cases he
    simp only at he
    split at he
    · obtain rfl : sub = _ := Effect.recorded.inj (List.mem_singleton.mp he)
      cases htype
    · cases he

/-- Answers that let a right flag through. -/
def granting : Answers := { commit := .committed 0 }

theorem attempt_of_scores {raw message : String} (hc : p.db.challenge challenge.id = some challenge)
    (huser : p.db.user user.id = some user)
    (h : Scores platform p user challenge (trim raw) message)
    (hmet : requirementsMet platform p.db challenge user.teamId = true)
    (hunsolved : solved p.db user.teamId challenge.id = false) :
    (attempt platform granting p ⟨user.id, 0⟩ challenge.id (some raw)).2 =
      [.recorded ⟨some challenge.id, some user.id, user.teamId, .correct, some (trim raw)⟩] := by
  have hrows := h.unsolved
  rw [clashes_eq] at hrows
  have hcooldown : cooldownLeft granting p challenge = none := by
    simp [cooldownLeft, AttemptChecks.remainingCooldown, granting]
  unfold attempt
  simp only [h.positive, if_false, huser, hc, Option.getD_some, h.refusal, hcooldown, h.state.1,
    h.state.2, h.category, hmet, hunsolved, h.attempts, h.flag, Bool.or_false, decide_false,
    Bool.not_true, Bool.false_eq_true]
  simp only [correctAttempt, hrows, granting, ne_eq, not_true_eq_false, decide_false,
    Bool.and_false, Bool.false_eq_true, if_false]

/-- The tables that attempts leave as they are, and those that they add to. -/
structure Extends (p q : Portal) : Prop where
  challenges : q.db.challenges = p.db.challenges
  flags : q.db.flags = p.db.flags
  config : q.db.config = p.db.config
  captain : q.db.captain = p.db.captain
  hidden : q.db.hiddenCategories = p.db.hiddenCategories
  users : q.db.board.users = p.db.board.users
  teams : q.db.board.teams = p.db.board.teams
  board : q.db.board.challenges = p.db.board.challenges
  solves : p.db.board.solves ⊆ q.db.board.solves
  submissions : p.db.submissions.Sublist q.db.submissions

theorem Extends.refl (p : Portal) : Extends p p :=
  ⟨rfl, rfl, rfl, rfl, rfl, rfl, rfl, rfl, List.Subset.refl _, List.Sublist.refl _⟩

theorem Extends.trans (h : Extends p q) (h' : Extends q r) : Extends p r where
  challenges := h'.challenges.trans h.challenges
  flags := h'.flags.trans h.flags
  config := h'.config.trans h.config
  captain := h'.captain.trans h.captain
  hidden := h'.hidden.trans h.hidden
  users := h'.users.trans h.users
  teams := h'.teams.trans h.teams
  board := h'.board.trans h.board
  solves := List.Subset.trans h.solves h'.solves
  submissions := h.submissions.trans h'.submissions

namespace Extends

theorem challenge_eq (h : Extends p q) (id : Nat) : q.db.challenge id = p.db.challenge id := by
  rw [Db.challenge, Db.challenge, h.challenges]

theorem user_eq (h : Extends p q) (id : Nat) : q.db.user id = p.db.user id := by
  rw [Db.user, Db.user, h.users]

theorem isChallenge (h : Extends p q) (id : Int) :
    ChallengeService.isChallenge q.db id = ChallengeService.isChallenge p.db id := by
  rw [ChallengeService.isChallenge, ChallengeService.isChallenge, h.challenges]

theorem required (h : Extends p q) (c : Challenge) :
    required platform q.db c = required platform p.db c := by
  have hchallenge : ChallengeService.isChallenge q.db = ChallengeService.isChallenge p.db :=
    funext h.isChallenge
  unfold Contest.required
  rw [hchallenge]

theorem solved (h : Extends p q) {team : Option Nat} {id : Int}
    (hsolved : ChallengeService.solved p.db team id = true) :
    ChallengeService.solved q.db team id = true := by
  rw [ChallengeService.solved, List.any_eq_true] at hsolved ⊢
  obtain ⟨s, hs, hmatch⟩ := hsolved
  exact ⟨s, h.solves hs, hmatch⟩

theorem isHiddenCategory (h : Extends p q) (category : Option String) :
    Contest.isHiddenCategory platform q.db category =
      Contest.isHiddenCategory platform p.db category := by
  cases category with
  | none => rfl
  | some category => rw [Contest.isHiddenCategory, Contest.isHiddenCategory, h.hidden]

theorem attemptRefusal (h : Extends p q) (user : Board.User) (submission : String) :
    Contest.attemptRefusal q.db user submission = Contest.attemptRefusal p.db user submission := by
  unfold Contest.attemptRefusal Db.teamOf
  rw [h.config, h.teams, h.captain]

theorem counts (h : Extends p q) (c : Challenge) :
    ChallengeService.counts platform q.db c = ChallengeService.counts platform p.db c := by
  rw [ChallengeService.counts, ChallengeService.counts, h.isHiddenCategory]

theorem orderly (h : Extends p q) (horderly : Orderly platform p.db)
    (hsolves : ∀ s ∈ q.db.board.solves, ∃ c ∈ p.db.challenges, s.challengeId = some c.id) :
    Orderly platform q.db where
  challenges_pk := h.challenges ▸ horderly.challenges_pk
  board := by
    rw [h.challenges, h.board]
    exact horderly.board
  solves_fk := by
    rw [h.challenges]
    exact hsolves
  named := h.challenges ▸ horderly.named
  spelled := by
    rw [h.challenges]
    exact horderly.spelled

end Extends

/-- What an effect adds to the tables. -/
structure Adds (effects : List Effect) (p q : Portal) : Prop extends Extends p q where
  rows : ∀ row ∈ q.db.board.solves, row ∈ p.db.board.solves ∨ ∃ sub, .recorded sub ∈ effects ∧
    sub.type = .correct ∧ row.challengeId = sub.challengeId ∧ row.userId = sub.userId ∧
      row.teamId = sub.teamId
  counts : (∀ sub, .recorded sub ∈ effects → sub.type = .correct) → ∀ id team,
    incorrectCount q.db id team = incorrectCount p.db id team

theorem adds_record {s : Submission} {date : Option Int} {db : Db}
    (h : p.db.record date s = some db) : Adds [.recorded s] p { p with db := db } := by
  have hcounts : (∀ sub, Effect.recorded sub ∈ [Effect.recorded s] → sub.type = .correct) →
      ∀ id team, (p.db.submissions ++ [s]).countP (fun s => s.challengeId = some id &&
        s.teamId = team && s.type = .incorrect) = incorrectCount p.db id team := by
    intro hright id team
    rw [List.countP_append, List.countP_singleton, if_neg]
    · rfl
    · simp [hright s (List.mem_singleton_self _)]
  unfold Db.record at h
  split at h
  · rename_i challengeId htype hid
    obtain ⟨board, hboard, rfl⟩ := Option.map_eq_some_iff.mp h
    unfold insertSolve at hboard
    split_ifs at hboard
    obtain rfl := Option.some.inj hboard
    refine ⟨⟨rfl, rfl, rfl, rfl, rfl, rfl, rfl, rfl, List.subset_append_left _ _,
      List.sublist_append_left _ _⟩, ?_, hcounts⟩
    intro row hrow
    rcases List.mem_append.mp hrow with hrow | hrow
    · exact .inl hrow
    · obtain rfl := List.mem_singleton.mp hrow
      exact .inr ⟨s, List.mem_singleton_self _, htype, hid.symm, rfl, rfl⟩
  · obtain rfl := Option.some.inj h
    exact ⟨⟨rfl, rfl, rfl, rfl, rfl, rfl, rfl, rfl, List.Subset.refl _,
      List.sublist_append_left _ _⟩, fun row hrow => .inl hrow, hcounts⟩

/-- A right flag is recorded unless a row has its keys. -/
theorem record_correct (provided : Option String) (date : Option Int) {id : Nat}
    {userId teamId : Option Nat} (hid : id ∈ p.db.board.challenges.map Board.Challenge.id)
    (hfree : p.db.board.solves.any (clashes id userId teamId) = false) :
    ∃ db, p.db.record date ⟨some id, userId, teamId, .correct, provided⟩ = some db ∧
      ∃ row ∈ db.board.solves, row.challengeId = some id ∧ row.teamId = teamId := by
  have hboard : ∃ board, insertSolve p.db.board date id userId teamId = some board ∧
      ⟨nextSubmission p.db.board, some id, userId, teamId⟩ ∈ board.solves := by
    rw [insertSolve, dif_pos ⟨hid, hfree⟩]
    exact ⟨_, rfl, List.mem_append_right _ (List.mem_singleton_self _)⟩
  obtain ⟨board, hboard, hrow⟩ := hboard
  refine ⟨{ p.db with
    board := board
    submissions := p.db.submissions ++ [⟨some id, userId, teamId, .correct, provided⟩] }, ?_, _,
    hrow, rfl, rfl⟩
  simp only [Db.record, hboard, Option.map_some]

theorem Extends.incorrectCount_le (h : Extends p q) (id : Nat) (team : Option Nat) :
    incorrectCount p.db id team ≤ incorrectCount q.db id team :=
  h.submissions.countP_le

theorem isUsedUp_mono {limit : Option Int} {m n : Nat} (hle : m ≤ n)
    (h : isUsedUp limit n = false) : isUsedUp limit m = false := by
  cases limit with
  | none => rfl
  | some limit =>
    simp only [isUsedUp, Option.any_some, Bool.and_eq_false_iff, decide_eq_false_iff_not] at h ⊢
    omega

theorem Adds.refl (p : Portal) : Adds [] p p :=
  ⟨.refl p, fun _ hrow => .inl hrow, fun _ _ _ => rfl⟩

theorem Adds.mono {effects effects' : List Effect} (h : Adds effects p q)
    (hsub : effects ⊆ effects') : Adds effects' p q where
  toExtends := h.toExtends
  rows := fun row hrow => (h.rows row hrow).imp_right fun hsome =>
    hsome.imp fun _ hadded => ⟨hsub hadded.1, hadded.2⟩
  counts := fun hright => h.counts fun sub hmem => hright sub (hsub hmem)

theorem Adds.trans {effects : List Effect} (h : Adds effects p q) (h' : Adds effects q r) :
    Adds effects p r where
  toExtends := h.toExtends.trans h'.toExtends
  rows := fun row hrow => (h'.rows row hrow).elim (h.rows row) .inr
  counts := fun hright id team => (h'.counts hright id team).trans (h.counts hright id team)

theorem adds_apply {e : Effect} (h : p.apply e = some q) : Adds [e] p q := by
  cases e with
  | recorded s =>
    obtain ⟨db, hdb, rfl⟩ := Option.map_eq_some_iff.mp h
    exact adds_record hdb
  | trainingRun challengeId team | started entry | tracked challengeId team
  | charged unlock award =>
    cases h
    exact (Adds.refl p).mono (List.nil_subset _)

/-- What several effects add is what each of them adds. -/
theorem adds_all {effects : List Effect} (h : effects.foldlM Portal.apply p = some q) :
    Adds effects p q := by
  induction effects generalizing p with
  | nil =>
    cases h
    exact .refl _
  | cons e rest ih =>
    obtain ⟨mid, hmid, hrest⟩ := Option.bind_eq_some_iff.mp h
    have hfirst := (adds_apply hmid).mono (List.cons_subset_cons e (List.nil_subset rest))
    exact hfirst.trans ((ih hrest).mono (List.subset_cons_self _ _))

theorem solved_of_row {row : Board.Solf} {id : Nat} (hrow : row ∈ p.db.board.solves)
    (hid : row.challengeId = some id) : solved p.db row.teamId id = true := by
  rw [solved, List.any_eq_true]
  refine ⟨row, hrow, ?_⟩
  rw [hid]
  simp

/-- A challenge that a team has solved, and that was not solved before, has a new row. -/
theorem solved_adds {effects : List Effect} (h : Adds effects p q) {id : Int}
    (hsolved : solved q.db (some teamId) id = true) : solved p.db (some teamId) id = true ∨
      ∃ (sub : Submission) (challengeId : Nat), .recorded sub ∈ effects ∧ sub.type = .correct ∧
        sub.challengeId = some challengeId ∧ (challengeId : Int) = id ∧
          sub.teamId = some teamId := by
  rw [solved, List.any_eq_true] at hsolved
  obtain ⟨row, hrow, hmatch⟩ := hsolved
  rw [Bool.and_eq_true, decide_eq_true_eq] at hmatch
  cases hid : row.challengeId with
  | none =>
    rw [hid] at hmatch
    cases hmatch.2
  | some challengeId =>
    rw [hid] at hmatch
    have hcast : (challengeId : Int) = id := of_decide_eq_true hmatch.2
    rcases h.rows row hrow with hold | ⟨sub, hsub, htype, hchallenge, -, hteam⟩
    · left
      rw [← hmatch.1, ← hcast]
      exact solved_of_row hold hid
    · exact .inr ⟨sub, challengeId, hsub, htype, hchallenge.symm.trans hid, hcast,
        hteam.symm.trans hmatch.1⟩

/-- What could be attempted later could have been attempted before. -/
theorem Scores.before {submission message : String} (h : Extends p q)
    (hscores : Scores platform q user challenge submission message) :
    Scores platform p user challenge submission message where
  positive := hscores.positive
  refusal := (h.attemptRefusal user submission).symm.trans hscores.refusal
  state := hscores.state
  category := (h.isHiddenCategory _).symm.trans hscores.category
  attempts := isUsedUp_mono (h.incorrectCount_le _ _) hscores.attempts
  flag := h.flags ▸ hscores.flag
  unsolved := by
    have hlater := hscores.unsolved
    rw [List.any_eq_false] at hlater ⊢
    exact fun s hs => hlater s (h.solves hs)

end Progress

namespace Course

variable {platform : Platform} {s t : Course} {p : Portal} {teamId : Nat}

theorem step_eq_some {a : Attempt} (h : s.step platform a = some t) :
    t.before = t.portal :: s.before ∧ ∃ seen ∈ s.before[a.seen]?,
      Adds (attempt platform a.answers seen a.session a.challengeId a.submission).2
        s.portal t.portal := by
  obtain ⟨seen, hseen, hmap⟩ := Option.bind_eq_some_iff.mp h
  obtain ⟨portal, hfold, rfl⟩ := Option.map_eq_some_iff.mp hmap
  exact ⟨rfl, seen, hseen, adds_all hfold⟩

/-- All that the tables have been is what they were at the start and what has been added; what the
team has solved was solvable. -/
structure Grown (platform : Platform) (p : Portal) (teamId : Nat) (s : Course) : Prop where
  now : s.portal ∈ s.before
  grown : ∀ q ∈ s.before, Extends p q
  solves : ∀ q ∈ s.before, ∀ row ∈ q.db.board.solves,
    row ∈ p.db.board.solves ∨ ∃ user challenge, p.db.user user.id = some user ∧
      challenge ∈ p.db.challenges ∧ row.challengeId = some challenge.id ∧
        row.userId = some user.id ∧ row.teamId = user.teamId
  solvable : ∀ q ∈ s.before, ∀ id, solved q.db (some teamId) id = true →
    Solvable platform p teamId id

theorem grown_start (p : Portal) : Grown platform p teamId (start p) where
  now := List.mem_singleton_self p
  grown := List.forall_mem_singleton.mpr (.refl p)
  solves := List.forall_mem_singleton.mpr fun _ hrow => .inl hrow
  solvable := List.forall_mem_singleton.mpr fun _ hsolved => .done hsolved

theorem Grown.step (hs : Grown platform p teamId s) {a : Attempt}
    (h : s.step platform a = some t) : Grown platform p teamId t := by
  obtain ⟨hbefore, seen, hseen, hadds⟩ := step_eq_some h
  have hmem : seen ∈ s.before := List.mem_of_getElem? hseen
  have hext := hs.grown seen hmem
  have hright : ∀ sub, .recorded sub ∈
      (attempt platform a.answers seen a.session a.challengeId a.submission).2 →
      sub.type = .correct → ∃ user challenge message,
        p.db.user user.id = some user ∧ p.db.challenge challenge.id = some challenge ∧
        Scores platform p user challenge (trim (a.submission.getD "")) message ∧
        requirementsMet platform seen.db challenge user.teamId = true ∧
        sub.challengeId = some challenge.id ∧ sub.userId = some user.id ∧
        sub.teamId = user.teamId := by
    intro sub hsub htype
    obtain ⟨user, challenge, message, huser, hc, hscores, hmet, rfl⟩ := scores_of_attempt hsub htype
    rw [hext.user_eq] at huser
    rw [hext.challenge_eq] at hc
    have huserId : user.id = a.session.userId := by simpa using List.find?_some huser
    exact ⟨user, challenge, message, huserId ▸ huser, (challenge_id hc) ▸ hc, hscores.before hext,
      hmet, rfl, rfl, rfl⟩
  refine ⟨?_, ?_, ?_, ?_⟩
  all_goals rw [hbefore]
  · exact List.mem_cons_self
  · exact List.forall_mem_cons.mpr ⟨(hs.grown _ hs.now).trans hadds.toExtends, hs.grown⟩
  · refine List.forall_mem_cons.mpr ⟨?_, hs.solves⟩
    intro row hrow
    rcases hadds.rows row hrow with hold | ⟨sub, hsub, htype, hchallenge, huserId, hteam⟩
    · exact hs.solves _ hs.now row hold
    · obtain ⟨user, challenge, -, huser, hc, -, -, hid, hsubUser, hsubTeam⟩ := hright sub hsub htype
      exact .inr ⟨user, challenge, huser, List.mem_of_find?_eq_some hc, hchallenge.trans hid,
        huserId.trans hsubUser, hteam.trans hsubTeam⟩
  · refine List.forall_mem_cons.mpr ⟨?_, hs.solvable⟩
    intro id hsolved
    rcases solved_adds hadds hsolved with hold | ⟨sub, challengeId, hsub, htype, hid, rfl, hteam⟩
    · exact hs.solvable _ hs.now id hold
    · obtain ⟨user, challenge, message, huser, hc, hscores, hmet, hchallenge, -, hsubTeam⟩ :=
        hright sub hsub htype
      have hmember : user.teamId = some teamId := hsubTeam.symm.trans hteam
      obtain rfl : challenge.id = challengeId := Option.some.inj (hchallenge.symm.trans hid)
      refine .opened ⟨challenge, user, _, message, rfl, hc, huser, hmember, hscores⟩ ?_
      rw [prerequisites_eq hc, ← hext.required]
      rw [requirementsMet_eq, hmember, List.all_eq_true] at hmet
      exact fun b hb => hs.solvable seen hmem b (hmet b hb)

theorem grown_of_reach {cond : Course → Attempt → Prop} (teamId : Nat)
    (h : Run.Reach (step platform) cond (start p) s) : Grown platform p teamId s :=
  h.invariant (Grown platform p teamId) (grown_start p) fun _ _ _ hs _ hstep => hs.step hstep

theorem Grown.orderly (hs : Grown platform p teamId s) (h : Orderly platform p.db) :
    Orderly platform s.portal.db := by
  refine (hs.grown _ hs.now).orderly h ?_
  intro row hrow
  rcases hs.solves _ hs.now row hrow with hold | ⟨_, challenge, _, hc, hid, _⟩
  · exact h.solves_fk row hold
  · exact ⟨challenge, hc, hid⟩

theorem extends_of_reach {cond : Course → Attempt → Prop}
    (h : Run.Reach (step platform) cond s t) : Extends s.portal t.portal := by
  refine h.invariant (fun t => Extends s.portal t.portal) (.refl _) ?_
  intro t a u ht _ hstep
  obtain ⟨_, _, _, hadds⟩ := step_eq_some hstep
  exact ht.trans hadds.toExtends

theorem incorrectCount_of_right (h : Run.Reach (step platform) (Right platform) s t) (id : Nat)
    (team : Option Nat) :
    incorrectCount t.portal.db id team = incorrectCount s.portal.db id team := by
  refine h.invariant (fun t => incorrectCount t.portal.db id team =
    incorrectCount s.portal.db id team) rfl ?_
  intro t a u ht hright hstep
  obtain ⟨_, seen, hseen, hadds⟩ := step_eq_some hstep
  exact (hadds.counts (hright seen hseen) id team).trans ht

theorem head_of_reach {cond : Course → Attempt → Prop}
    (h : Run.Reach (step platform) cond (start p) s) : s.before[0]? = some s.portal := by
  refine h.invariant (fun s => s.before[0]? = some s.portal) rfl ?_
  intro s a t _ _ hstep
  rw [(step_eq_some hstep).1]
  rfl

/-- Whatever is open and has its prerequisites solved can be solved next. -/
theorem exists_solve (horderly : Orderly platform p.db)
    (h : Run.Reach (step platform) (Right platform) (start p) s) {id : Int}
    (hopen : Opens platform p teamId id)
    (hrequires : ∀ b ∈ prerequisites platform p.db id,
      solved s.portal.db (some teamId) b = true) :
    ∃ t, Run.Reach (step platform) (Right platform) s t ∧
      solved t.portal.db (some teamId) id = true := by
  by_cases hsolved : solved s.portal.db (some teamId) id = true
  · exact ⟨s, .start, hsolved⟩
  obtain ⟨challenge, user, raw, message, rfl, hc, huser, hmember, hscores⟩ := hopen
  have hgrown := grown_of_reach teamId h
  have hext := hgrown.grown _ hgrown.now
  have hc' : s.portal.db.challenge challenge.id = some challenge := (hext.challenge_eq _).trans hc
  have hfree : s.portal.db.board.solves.any (clashes challenge.id (some user.id) user.teamId) =
      false := by
    rw [List.any_eq_false]
    intro row hrow hclash
    have hteam : row.teamId ≠ user.teamId ∨ row.challengeId ≠ some challenge.id := by
      by_contra hboth
      rw [not_or, not_not, not_not] at hboth
      have hdone := solved_of_row hrow hboth.2
      rw [hboth.1, hmember] at hdone
      exact hsolved hdone
    rw [clashes_eq] at hclash
    simp only [Bool.and_eq_true, Bool.or_eq_true, decide_eq_true_eq] at hclash
    have hother := hteam.resolve_right fun hne => hne hclash.1
    have hown := hclash.2.resolve_right fun hsame => hother hsame.2
    rcases hgrown.solves _ hgrown.now row hrow with hold | ⟨user', _, huser', _, _, hid, hteam'⟩
    · have hclear := List.any_eq_false.mp hscores.unsolved row hold
      rw [clashes_eq] at hclear
      exact hclear (by simp [hclash.1, hown])
    · have hsame : user'.id = user.id := Option.some.inj (hid.symm.trans hown)
      rw [hsame, huser] at huser'
      obtain rfl := Option.some.inj huser'
      exact hother hteam'
  have hscores' : Scores platform s.portal user challenge (trim raw) message :=
    { positive := hscores.positive
      refusal := (hext.attemptRefusal _ _).trans hscores.refusal
      state := hscores.state
      category := (hext.isHiddenCategory _).trans hscores.category
      attempts := by
        rw [incorrectCount_of_right h]
        exact hscores.attempts
      flag := by
        rw [hext.flags]
        exact hscores.flag
      unsolved := hfree }
  have hmet : requirementsMet platform s.portal.db challenge user.teamId = true := by
    rw [requirementsMet_eq, hext.required, hmember, List.all_eq_true]
    rw [prerequisites_eq hc] at hrequires
    exact hrequires
  have heffects := attempt_of_scores hc' ((hext.user_eq _).trans huser) hscores' hmet
    (by rw [hmember]; simpa using hsolved)
  have hid : challenge.id ∈ s.portal.db.board.challenges.map Board.Challenge.id := by
    rw [hext.board]
    exact horderly.board challenge (List.mem_of_find?_eq_some hc)
  obtain ⟨db, hrecord, row, hrow, hrowId, hrowTeam⟩ := record_correct (p := s.portal)
    (some (trim raw)) (some (s.portal.now * 1000000)) hid hfree
  refine ⟨⟨{ s.portal with db := db }, { s.portal with db := db } :: s.before⟩,
    .next (a := ⟨⟨user.id, 0⟩, challenge.id, some raw, granting, 0⟩) .start ?_ ?_, ?_⟩
  · intro seen hseen sub hsub
    rw [head_of_reach h] at hseen
    obtain rfl := Option.some.inj hseen
    rw [heffects] at hsub
    obtain rfl := Effect.recorded.inj (List.mem_singleton.mp hsub)
    rfl
  · simp only [step, head_of_reach h, Option.bind_some, heffects, List.foldlM_cons, List.foldlM_nil,
      Portal.apply, hrecord, Option.map_some, Option.bind_eq_bind, Option.pure_def]
  · have hdone := solved_of_row (p := { s.portal with db := db }) hrow hrowId
    rw [hrowTeam, hmember] at hdone
    exact hdone

/-- A team can come to have all topics cleared exactly when all that counts for them is solvable:
every chain of prerequisites ends, at challenges that someone of the team could solve. And as long
as no wrong flag is recorded, no order of solving takes that from it. -/
theorem clearable_iff (h : Orderly platform p.db) (teamId : Nat) :
    ((∃ s, Run.Reach (step platform) Run.always (start p) s ∧
        AllCleared platform s.portal.db teamId) ↔
      ∀ c ∈ p.db.challenges, counts platform p.db c = true → Solvable platform p teamId c.id) ∧
    ((∃ s, Run.Reach (step platform) Run.always (start p) s ∧
        AllCleared platform s.portal.db teamId) →
      ∀ s, Run.Reach (step platform) (Right platform) (start p) s →
        ∃ t, Run.Reach (step platform) (Right platform) s t ∧
          AllCleared platform t.portal.db teamId) := by
  have hforward : (∃ s, Run.Reach (step platform) Run.always (start p) s ∧
      AllCleared platform s.portal.db teamId) →
      ∀ c ∈ p.db.challenges, counts platform p.db c = true → Solvable platform p teamId c.id := by
    rintro ⟨s, hreach, hcleared⟩ c hc hcounts
    have hgrown := grown_of_reach teamId hreach
    have hext := hgrown.grown _ hgrown.now
    rw [allCleared_iff (hgrown.orderly h), hext.challenges] at hcleared
    exact hgrown.solvable _ hgrown.now _ (hcleared c hc ((hext.counts c).trans hcounts))
  have hbackward : (∀ c ∈ p.db.challenges, counts platform p.db c = true →
      Solvable platform p teamId c.id) →
      ∀ s, Run.Reach (step platform) (Right platform) (start p) s →
        ∃ t, Run.Reach (step platform) (Right platform) s t ∧
          AllCleared platform t.portal.db teamId := by
    intro hsolvable s hs
    have hkeep : ∀ {s t : Course}, Run.Reach (step platform) (Right platform) s t → ∀ id,
        solved s.portal.db (some teamId) id = true → solved t.portal.db (some teamId) id = true :=
      fun hreach _ => (extends_of_reach hreach).solved
    have hone : ∀ id ∈ (p.db.challenges.filter (counts platform p.db)).map
        (fun c => (c.id : Int)), ∀ s, Run.Reach (step platform) (Right platform) (start p) s →
          ∃ t, Run.Reach (step platform) (Right platform) s t ∧
            solved t.portal.db (some teamId) id = true := by
      intro id hid
      obtain ⟨c, hc, rfl⟩ := List.mem_map.mp hid
      obtain ⟨hc, hcounts⟩ := List.mem_filter.mp hc
      exact (hsolvable c hc hcounts).reachable (Run.Reach (step platform) (Right platform))
        (fun s id => solved s.portal.db (some teamId) id = true) (fun _ => .start)
        (fun hst htu => hst.trans htu) hkeep (start p)
        fun _ hs _ hopen hrequires => exists_solve h hs hopen hrequires
    obtain ⟨t, ht, hall⟩ := Unlocking.exists_all (Run.Reach (step platform) (Right platform))
      (fun s id => solved s.portal.db (some teamId) id = true) (fun _ => .start)
      (fun hst htu => hst.trans htu) hkeep (start p) _ hone s hs
    have hgrown := grown_of_reach teamId (hs.trans ht)
    have hext := hgrown.grown _ hgrown.now
    refine ⟨t, ht, (allCleared_iff (hgrown.orderly h)).mpr ?_⟩
    intro c hc hcounts
    rw [hext.challenges] at hc
    rw [hext.counts] at hcounts
    exact hall _ (List.mem_map.mpr ⟨c, List.mem_filter.mpr ⟨hc, hcounts⟩, rfl⟩)
  refine ⟨⟨hforward, fun hsolvable => ?_⟩, fun hsome => hbackward (hforward hsome)⟩
  obtain ⟨t, ht, hcleared⟩ := hbackward hsolvable (start p) .start
  refine ⟨t, ?_, hcleared⟩
  exact ht.invariant (Run.Reach (step platform) Run.always (start p)) .start
    fun _ _ _ hreach _ hstep => .next hreach trivial hstep

end Course

end Fctf.Contest
