import Fctf.Contest.Hint
import Fctf.Lib.Lease
import Fctf.Lib.Run
import Fctf.Scoring.Place

/-!
Unlock requests of the members of one team, in any interleaving. Each request is a job of its
own, which holds a token of its own; its reads and its save are single steps, and each of its
calls may fail.
-/

namespace Fctf.Contest

open Run Expiring HintService

/-- What `UnlockHint` does next. In `release`, whether the rows are committed and whether the
request has a result to report. -/
inductive UnlockStage
  | acquire
  | prerequisites
  | existing
  | score
  | save
  | release (committed reported : Bool)
  deriving Repr, DecidableEq

/-- The lock guards what follows. -/
def UnlockStage.critical : UnlockStage → Bool
  | .acquire | .release _ _ => false
  | _ => true

structure UnlockJob where
  user : Board.User
  /-- `req.Type`. -/
  type : String
  hint : Hint
  stage : UnlockStage
  deriving Repr, DecidableEq

/-- How `SaveChangesAsync` ends. -/
inductive SaveOutcome
  | committed | rolledBack
  /-- The rows are committed, but the reply is lost. -/
  | replyLost
  deriving Repr, DecidableEq

structure HintSite where
  now : Int := 0
  locks : Store String Nat := .empty
  db : Db
  /-- The requests under way, by their tokens. -/
  jobs : Nat → Option UnlockJob := fun _ => none
  nextToken : Nat := 0

inductive UnlockAction
  | tick (seconds : Nat)
  | request (userId : Nat) (type : Option String) (target : Nat)
  | acquire (token : Nat) (executed replied : Bool)
  | read (token : Nat) (answered : Bool)
  | save (token : Nat) (outcome : SaveOutcome)
  | release (token : Nat) (executed replied : Bool)
  deriving Repr, DecidableEq

/-- `lockKey`, in team mode. -/
def unlockKey (teamId : Nat) : String := "hint:unlock:team:" ++ Nat.repr teamId

/-- `lockExpiry`. -/
def lockExpiry : Int := 30

namespace Db

/-- The costs of hints are `int`s, and none is negative. -/
def CostsFit (db : Db) : Prop := ∀ hint ∈ db.hints, ∀ cost ∈ hint.cost, 0 ≤ cost ∧ Word.Fits cost

/-- The two inserts, which are committed together. -/
def insertUnlock (db : Db) (now : Int) (user : Board.User) (hint : Hint) (unlock : Unlock) : Db :=
  { db with
    board := { db.board with
      awards := db.board.awards ++ [hintAward db now user hint]
      awards_pos := by
        intro award haward
        rcases List.mem_append.mp haward with haward | haward
        · exact db.board.awards_pos award haward
        · rw [List.mem_singleton.mp haward]
          exact Nat.succ_pos _ }
    unlocks := db.unlocks ++ [unlock] }

end Db

namespace HintSite

/-- The job of a token goes on at a stage. -/
def goOn (s : HintSite) (token : Nat) (job : UnlockJob) (stage : UnlockStage) : HintSite :=
  { s with jobs := Function.update s.jobs token (some { job with stage := stage }) }

/-- The request of a token has its answer. -/
def finish (s : HintSite) (token : Nat) : HintSite :=
  { s with jobs := Function.update s.jobs token none }

section Steps

variable (platform : Platform) (teamId : Nat)

/-- The stage after a check; one that throws goes to the release. -/
def pass (check : Except Fault Unit) (stage : UnlockStage) : UnlockStage :=
  if check.isOk then stage else .release false false

/-- The stage after a read that is answered. -/
def afterRead (db : Db) (job : UnlockJob) : Option UnlockStage :=
  match job.stage with
  | .prerequisites =>
    (db.challengeOf job.hint).map fun challenge => pass (do
      ensureChallengePrerequisitesUnlocked platform db challenge job.user
      ensureHintPrerequisitesUnlocked platform db job.hint job.user) .existing
  | .existing =>
    if (existing platform db job.hint.id job.type job.user).isSome then some (.release false false)
    else some .score
  | .score => some (pass (ensureAffordable db job.hint job.user) .save)
  | _ => none

/-- The row that a save writes. -/
def saved (db : Db) (job : UnlockJob) (outcome : SaveOutcome) : Option Unlock :=
  if outcome = .rolledBack then none else storedUnlock db job.user job.hint job.type

def step (s : HintSite) : UnlockAction → Option HintSite
  | .tick seconds => some { s with now := s.now + seconds }
  | .request userId type target =>
    match s.db.user userId with
    | some user =>
      if user.teamId = some teamId then
        -- a body without a type is not admitted
        match type, unlockTarget platform s.db user target with
        | some type, some hint =>
          some { s with
            jobs := Function.update s.jobs s.nextToken (some ⟨user, type, hint, .acquire⟩)
            nextToken := s.nextToken + 1 }
        | _, _ => some s
      else none
    | none => none
  | .acquire token executed replied =>
    match s.jobs token with
    | some job =>
      if job.stage = .acquire then
        if executed then
          let acquired := Lease.acquire s.locks s.now (unlockKey teamId) token lockExpiry
          let s' := { s with locks := acquired.2 }
          if replied && acquired.1 then some (s'.goOn token job .prerequisites)
          else some (s'.finish token)
        else some (s.finish token)
      else none
    | none => none
  | .read token answered =>
    match s.jobs token with
    | some job =>
      match afterRead platform s.db job with
      | some stage => some (s.goOn token job (if answered then stage else .release false false))
      | none => none
    | none => none
  | .save token outcome =>
    match s.jobs token with
    | some job =>
      if job.stage = .save then
        match saved s.db job outcome with
        | some unlock =>
          some ({ s with db := s.db.insertUnlock s.now job.user job.hint unlock }.goOn token job
            (.release true (decide (outcome = SaveOutcome.committed))))
        | none => some (s.goOn token job (.release false false))
      else none
    | none => none
  | .release token executed _ =>
    match s.jobs token with
    | some job =>
      match job.stage with
      | .release _ _ =>
        let locks := if executed then Lease.release s.locks s.now (unlockKey teamId) token
          else s.locks
        some ({ s with locks := locks }.finish token)
      | _ => none
    | none => none

end Steps

section Property

variable (platform : Platform) (teamId : Nat)

/-- The members of the team. -/
def members (s : HintSite) : List Board.User :=
  s.db.board.users.filter fun user => user.teamId = some teamId

/-- `GetHintById` shows the content to every member. -/
def Shown (s : HintSite) (hint : Hint) : Prop :=
  ∀ user ∈ s.members teamId, ∃ dto, getHintById platform s.db hint.id user.id = some dto ∧
    dto.content = hint.content ∧ dto.view = "unlocked"

def score (s : HintSite) : Option Int :=
  Board.ScoreHelper.getTeamScore s.db.board teamId true

/-- The history: the hints that were charged. -/
def observe (charged : List Nat) (s : HintSite) (a : UnlockAction) (t : HintSite) : List Nat :=
  match a with
  | .save token _ =>
    if t.db.board.awards.length = s.db.board.awards.length then charged
    else charged ++ ((s.jobs token).map fun job => job.hint.id).toList
  | _ => charged

/-- What a step may do to the rows: nothing, or one unlock that the team pays for and sees. -/
inductive Charges (s t : HintSite) : Prop
  | nothing (hunlocks : t.db.unlocks = s.db.unlocks)
      (hawards : t.db.board.awards = s.db.board.awards)
  | grant (hint : Hint) (unlock : Unlock) (award : Board.Award)
      (hunlocks : t.db.unlocks = s.db.unlocks ++ [unlock])
      (hawards : t.db.board.awards = s.db.board.awards ++ [award])
      (htarget : unlock.target = some hint.id ∧ unlock.teamId = some teamId)
      (hvalue : award.value = some (-hint.cost.getD 0) ∧ award.teamId = some teamId)
      (hlocked : ∀ user ∈ s.members teamId, unlocked platform s.db hint user = false)
      (score : Int) (htold : s.score teamId = some score)
      (hcost : ∀ cost ∈ hint.cost, cost ≤ score)
      (hscore : ∀ after ∈ t.score teamId,
        after = score - hint.cost.getD 0 ∧ (0 ≤ score → 0 ≤ after))
      (hshown : t.Shown platform teamId hint)

/-- Unlocking is safe at a state and in the step from there. -/
structure Safe (p : HintSite × List Nat) (a : UnlockAction) : Prop where
  charges : ∀ t, step platform teamId p.1 a = some t → Charges platform teamId p.1 t
  /-- What is shown stays so. -/
  shown : ∀ t, step platform teamId p.1 a = some t → ∀ hint, p.1.Shown platform teamId hint →
    t.Shown platform teamId hint
  once : p.2.Nodup
  /-- A request that ends without a result to report has left nothing. -/
  clean : ∀ token executed replied job committed reported, a = .release token executed replied →
    p.1.jobs token = some job → job.stage = .release committed reported →
    (reported && replied) = false → committed = false

/-- The lease of a job in its critical section does not run out. -/
def WithinLease (p : HintSite × List Nat) : UnlockAction → Prop
  | .tick seconds => ∀ token < p.1.nextToken, ∀ job ∈ p.1.jobs token, job.stage.critical = true →
      Lease.Holds p.1.locks (p.1.now + seconds) (unlockKey teamId) token
  | _ => True

instance decidableWithinLease (p : HintSite × List Nat) (a : UnlockAction) :
    Decidable (WithinLease teamId p a) := by
  cases a <;> (delta WithinLease; infer_instance)

/-- A save that commits stores a type that the database takes for `hints`, and its reply is not
lost; nor does the release after it fail. -/
def Recorded (p : HintSite × List Nat) : UnlockAction → Prop
  | .save token outcome => ∀ job ∈ p.1.jobs token, job.stage = .save →
      ∀ unlock ∈ saved p.1.db job outcome,
        sameType platform unlock hintUnlockType = true ∧ outcome = .committed
  | .release token _ replied => ∀ job ∈ p.1.jobs token, job.stage = .release true true →
      replied = true
  | _ => True

instance decidableRecorded (p : HintSite × List Nat) (a : UnlockAction) :
    Decidable (Recorded platform p a) := by
  cases a <;> (delta Recorded; infer_instance)

def Keeps (p : HintSite × List Nat) (a : UnlockAction) : Prop :=
  WithinLease teamId p a ∧ Recorded platform p a

instance decidableKeeps (p : HintSite × List Nat) (a : UnlockAction) :
    Decidable (Keeps platform teamId p a) := inferInstanceAs (Decidable (_ ∧ _))

end Property

section Proof

variable {platform : Platform} {teamId : Nat} {s t : HintSite} {token : Nat} {job : UnlockJob}

/-! ### What a save changes -/

theorem points_insertUnlock (db : Db) (now : Int) {user : Board.User} (hint : Hint)
    (unlock : Unlock) (huser : user ∈ db.board.users) (hteam : user.teamId = some teamId)
    (hcost : Word.Fits (-hint.cost.getD 0)) :
    Board.points (db.insertUnlock now user hint unlock).board
        (Board.byMembers (db.insertUnlock now user hint unlock).board true teamId) =
      Board.points db.board (Board.byMembers db.board true teamId) - hint.cost.getD 0 := by
  have hmember : user.id ∈ Board.ScoreHelper.memberIds db.board.users teamId :=
    List.mem_map_of_mem (List.mem_filter.mpr ⟨huser, by simpa using hteam⟩)
  have hcounts :
      (Board.byMembers db.board true teamId).awards (hintAward db now user hint) = true := by
    simp [Board.byMembers, hintAward, hmember, Board.ScoreHelper.notFrozen,
      Board.ScoreHelper.freezeOf]
  have hpoints : Board.points (db.insertUnlock now user hint unlock).board
      (Board.byMembers (db.insertUnlock now user hint unlock).board true teamId) =
      Board.solvePoints db.board (Board.byMembers db.board true teamId) +
        (((db.board.awards ++ [hintAward db now user hint]).filter
          (Board.byMembers db.board true teamId).awards).map fun award => award.value.getD 0).sum :=
    rfl
  have hnew : [hintAward db now user hint].filter (Board.byMembers db.board true teamId).awards =
      [hintAward db now user hint] := by
    simp [hcounts]
  have hvalue : (hintAward db now user hint).value.getD 0 = -hint.cost.getD 0 :=
    Word.wrap_of_fits hcost
  rw [hpoints, List.filter_append, hnew, Board.points, Board.awardPoints]
  simp only [List.map_append, List.map_cons, List.map_nil, List.sum_append, List.sum_cons,
    List.sum_nil, hvalue]
  omega

/-- A score that covers the cost goes down by it. -/
theorem score_insertUnlock {db : Db} {now : Int} {user : Board.User} {hint : Hint}
    {unlock : Unlock} {score after : Int} (huser : user ∈ db.board.users)
    (hteam : user.teamId = some teamId)
    (hcost : ∀ cost ∈ hint.cost, 0 ≤ cost ∧ Word.Fits cost ∧ cost ≤ score)
    (hbefore : Board.ScoreHelper.getTeamScore db.board teamId true = some score)
    (hafter : Board.ScoreHelper.getTeamScore (db.insertUnlock now user hint unlock).board teamId
      true = some after) :
    after = score - hint.cost.getD 0 := by
  obtain ⟨-, rfl⟩ := (Board.getTeamScore_eq_some_iff _ _ _ _).mp hbefore
  obtain ⟨-, rfl⟩ := (Board.getTeamScore_eq_some_iff _ _ _ _).mp hafter
  have hscore := Word.fits_wrap (Board.points db.board (Board.byMembers db.board true teamId))
  have hprice : Word.Fits (-hint.cost.getD 0) ∧
      Word.Fits (Board.intPoints db.board (Board.byMembers db.board true teamId) -
        hint.cost.getD 0) := by
    unfold Board.intPoints at hcost ⊢
    unfold Word.Fits at hcost hscore ⊢
    cases hpaid : hint.cost with
    | none => simpa using hscore
    | some cost =>
      have hcost := hcost cost hpaid
      simp only [Option.getD_some]
      omega
  rw [Board.intPoints, points_insertUnlock db now hint unlock huser hteam hprice.1,
    Word.wrap_eq_iff]
  refine ⟨hprice.2, ?_⟩
  have hdvd := Word.dvd_wrap_sub (Board.points db.board (Board.byMembers db.board true teamId))
  rw [Board.intPoints]
  omega

theorem find?_user {db : Db} {user : Board.User} (huser : user ∈ db.board.users) :
    db.user user.id = some user :=
  Query.find?_eq_of_unique db.board.users_pk huser rfl

/-- An unlock of the hint that the team owns is found for every member. -/
theorem unlocked_of_mem {db : Db} {hint : Hint} {user : Board.User} {u : Unlock}
    (hmode : db.board.userMode = .teams) (hteam : user.teamId = some teamId) (hu : u ∈ db.unlocks)
    (htarget : u.target = some hint.id) (hown : u.teamId = some teamId)
    (htype : sameType platform u hintUnlockType = true) :
    unlocked platform db hint user = true := by
  unfold unlocked ownedBy
  simp only [hmode, hteam, Bool.and_eq_true, List.any_eq_true]
  refine ⟨rfl, u, hu, ?_⟩
  simp [hown, htarget, isHintUnlock, htype]

/-- A hint that the team has unlocked is shown to it. -/
theorem shown_of_unlocked {hint : Hint} (hhint : s.db.hint hint.id = some hint)
    (hvisible : ∃ c, s.db.challengeOf hint = some c ∧ isVisible platform s.db c = true)
    (hunlocked : ∀ user ∈ s.members teamId, unlocked platform s.db hint user = true) :
    s.Shown platform teamId hint := by
  obtain ⟨c, hc, hvisible⟩ := hvisible
  intro user huser
  have hfind : s.db.user user.id = some user := find?_user (List.mem_filter.mp huser).1
  refine ⟨getHintById.answer hint "unlocked", ?_, rfl, rfl⟩
  simp [getHintById, hhint, hc, hvisible, hfind, hunlocked user huser]

/-- What is shown depends on the unlocks only where they grow. -/
theorem Shown.insert {hint hint' : Hint} {unlock : Unlock} {user : Board.User}
    (h : s.Shown platform teamId hint) (hdb : t.db = s.db.insertUnlock s.now user hint' unlock) :
    t.Shown platform teamId hint := by
  intro member hmember
  have hmember' : member ∈ s.members teamId := by
    unfold members at hmember ⊢
    rw [hdb] at hmember
    exact hmember
  obtain ⟨dto, hdto, hcontent, hview⟩ := h member hmember'
  have hmore : ∀ hint'', unlocked platform s.db hint'' member = true →
      unlocked platform t.db hint'' member = true := by
    intro hint'' hunlocked
    unfold unlocked at hunlocked ⊢
    rw [hdb]
    simp only [Db.insertUnlock, Bool.and_eq_true, List.any_append, Bool.or_eq_true] at hunlocked ⊢
    exact ⟨hunlocked.1, .inl hunlocked.2⟩
  have hhint : t.db.hint = s.db.hint := by rw [hdb]; rfl
  have hchallenge : t.db.challengeOf = s.db.challengeOf := by rw [hdb]; rfl
  have hvisible : isVisible platform t.db = isVisible platform s.db := by rw [hdb]; rfl
  have huser : t.db.user = s.db.user := by rw [hdb]; rfl
  unfold getHintById at hdto ⊢
  rw [hhint, hchallenge, hvisible, huser]
  cases hfound : s.db.hint hint.id with
  | none => simp [hfound] at hdto
  | some found =>
    cases hc : s.db.challengeOf found with
    | none => simp [hfound, hc] at hdto
    | some c =>
      cases hv : isVisible platform s.db c with
      | false => simp [hfound, hc, hv] at hdto
      | true =>
        have hu : s.db.user member.id = some member := find?_user (List.mem_filter.mp hmember').1
        simp only [hfound, hc, hv, hu, Option.bind_eq_bind, Option.bind_some, if_true,
          Option.some.injEq] at hdto ⊢
        refine ⟨_, rfl, ?_⟩
        subst hdto
        by_cases hfree : (decide (0 < found.cost.getD 0) && !unlocked platform s.db found member) =
            true
        · rw [if_pos hfree] at hview
          exact absurd (show "locked" = "unlocked" from hview) (by decide)
        · have hfree' : ¬ (decide (0 < found.cost.getD 0) &&
              !unlocked platform t.db found member) = true := by
            intro h
            rw [Bool.and_eq_true, Bool.not_eq_true'] at h
            apply hfree
            rw [Bool.and_eq_true, Bool.not_eq_true']
            refine ⟨h.1, ?_⟩
            by_contra hlocked
            rw [hmore found (by simpa using hlocked)] at h
            cases h.2
          rw [if_neg hfree] at hcontent
          rw [if_neg hfree']
          exact ⟨hcontent, rfl⟩

/-! ### The requests under way -/

/-- What holds of a request while it is under way. -/
structure JobOk (platform : Platform) (teamId : Nat) (s : HintSite) (token : Nat)
    (job : UnlockJob) : Prop where
  issued : token < s.nextToken
  member : job.user ∈ s.members teamId
  hint : s.db.hint job.hint.id = some job.hint
  visible : ∃ c, s.db.challengeOf job.hint = some c ∧ isVisible platform s.db c = true
  leased : job.stage.critical = true → Lease.Holds s.locks s.now (unlockKey teamId) token
  paid : job.stage = .save → ensureAffordable s.db job.hint job.user = .ok ()
  answered : ∀ reported, job.stage = .release true reported → reported = true

/-- The rows may stay as they are, or the job is at a stage at which it has read none. -/
theorem JobOk.frame (h : JobOk platform teamId s token job) (hnext : s.nextToken ≤ t.nextToken)
    (hmembers : t.members teamId = s.members teamId) (hhint : t.db.hint = s.db.hint)
    (hchallenge : t.db.challengeOf = s.db.challengeOf)
    (hvisible : isVisible platform t.db = isVisible platform s.db)
    (hrest : t.db = s.db ∨ job.stage.critical = false)
    (hleased : job.stage.critical = true → Lease.Holds t.locks t.now (unlockKey teamId) token) :
    JobOk platform teamId t token job where
  issued := Nat.lt_of_lt_of_le h.issued hnext
  member := by rw [hmembers]; exact h.member
  hint := by rw [hhint]; exact h.hint
  visible := by rw [hchallenge, hvisible]; exact h.visible
  leased := hleased
  paid := by
    intro hstage
    rcases hrest with hdb | hcritical
    · rw [hdb]
      exact h.paid hstage
    · rw [hstage] at hcritical
      exact absurd hcritical (by decide)
  answered := h.answered

theorem JobOk.sameRows (h : JobOk platform teamId s token job) (hnext : s.nextToken ≤ t.nextToken)
    (hdb : t.db = s.db)
    (hleased : job.stage.critical = true → Lease.Holds t.locks t.now (unlockKey teamId) token) :
    JobOk platform teamId t token job := by
  apply h.frame hnext _ _ _ _ (.inl hdb) hleased
  · unfold members
    rw [hdb]
  all_goals rw [hdb]

/-- A save leaves alone the jobs outside their critical sections. -/
theorem JobOk.insert {now : Int} {user : Board.User} {hint : Hint} {unlock : Unlock}
    (h : JobOk platform teamId s token job) (hnext : s.nextToken ≤ t.nextToken)
    (hdb : t.db = s.db.insertUnlock now user hint unlock) (hstage : job.stage.critical = false) :
    JobOk platform teamId t token job := by
  apply h.frame hnext _ _ _ _ (.inr hstage)
  · intro hcritical
    rw [hstage] at hcritical
    cases hcritical
  · unfold members
    rw [hdb]
    rfl
  all_goals rw [hdb]; rfl

/-- The job goes on at a stage. -/
theorem JobOk.goOn {stage : UnlockStage} (h : JobOk platform teamId s token job)
    (hcritical : stage.critical = true → Lease.Holds s.locks s.now (unlockKey teamId) token)
    (hpaid : stage = .save → ensureAffordable s.db job.hint job.user = .ok ())
    (hanswered : ∀ reported, stage = .release true reported → reported = true) :
    JobOk platform teamId (s.goOn token job stage) token { job with stage := stage } where
  issued := h.issued
  member := h.member
  hint := h.hint
  visible := h.visible
  leased := hcritical
  paid := hpaid
  answered := hanswered

/-- The state between two steps, with the hints that were charged. -/
structure Inv (platform : Platform) (teamId : Nat) (p : HintSite × List Nat) : Prop where
  mode : p.1.db.board.userMode = .teams
  costs : p.1.db.CostsFit
  jobs : ∀ token job, p.1.jobs token = some job → JobOk platform teamId p.1 token job
  nodup : p.2.Nodup
  rows : ∀ id ∈ p.2, ∃ u ∈ p.1.db.unlocks, u.target = some id ∧ u.teamId = some teamId

/-- A step that touches one job and no rows. -/
theorem Inv.update {charged : List Nat} (token : Nat) (next : Option UnlockJob)
    (h : Inv platform teamId (s, charged)) (hdb : t.db = s.db) (hnext : s.nextToken ≤ t.nextToken)
    (hjobs : t.jobs = Function.update s.jobs token next)
    (hleased : ∀ other, other ≠ token → Lease.Holds s.locks s.now (unlockKey teamId) other →
      Lease.Holds t.locks t.now (unlockKey teamId) other)
    (hjob : ∀ job, next = some job → JobOk platform teamId t token job) :
    Inv platform teamId (t, charged) where
  mode := by rw [hdb]; exact h.mode
  costs := by rw [hdb]; exact h.costs
  jobs := by
    intro other job hother
    rw [hjobs] at hother
    by_cases htoken : other = token
    · subst htoken
      rw [Function.update_self] at hother
      exact hjob job hother
    · rw [Function.update_of_ne htoken] at hother
      have hok := h.jobs other job hother
      exact hok.sameRows hnext hdb fun hcritical => hleased other htoken (hok.leased hcritical)
  nodup := h.nodup
  rows := by rw [hdb]; exact h.rows

/-! ### Steps that touch no rows -/

variable {charged : List Nat}

theorem Inv.tick {seconds : Nat} (h : Inv platform teamId (s, charged))
    (hkeeps : Keeps platform teamId (s, charged) (.tick seconds)) :
    Inv platform teamId ({ s with now := s.now + seconds }, charged) where
  mode := h.mode
  costs := h.costs
  jobs := by
    intro token job hjob
    have hok := h.jobs token job hjob
    exact hok.sameRows (Nat.le_refl _) rfl
      fun hcritical => hkeeps.1 token hok.issued job hjob hcritical
  nodup := h.nodup
  rows := h.rows

theorem unlockTarget_some {db : Db} {user : Board.User} {target : Nat} {hint : Hint}
    (h : unlockTarget platform db user target = some hint) :
    db.hint hint.id = some hint ∧
      ∃ c, db.challengeOf hint = some c ∧ isVisible platform db c = true := by
  unfold unlockTarget at h
  obtain ⟨found, hfound, h⟩ := Option.bind_eq_some_iff.mp h
  obtain ⟨c, hc, h⟩ := Option.bind_eq_some_iff.mp h
  split at h
  · cases h
  split at h
  · cases h
  split at h
  · rename_i hvisible
    obtain rfl := Option.some.inj h
    have hid : found.id = target := by simpa using List.find?_some hfound
    constructor
    · rw [hid]
      exact hfound
    · exact ⟨c, hc, hvisible⟩
  · cases h

theorem Inv.request {userId target : Nat} {type : Option String}
    (h : Inv platform teamId (s, charged))
    (hstep : step platform teamId s (.request userId type target) = some t) :
    Inv platform teamId (t, charged) ∧ t.db = s.db := by
  unfold step at hstep
  simp only at hstep
  split at hstep
  · rename_i user huser
    split at hstep
    · rename_i hteam
      split at hstep
      · rename_i type hint htarget
        obtain rfl := Option.some.inj hstep
        obtain ⟨hhint, hvisible⟩ := unlockTarget_some htarget
        refine ⟨h.update s.nextToken (some ⟨user, type, hint, .acquire⟩) rfl
          (Nat.le_succ _) rfl (fun _ _ hheld => hheld) ?_, rfl⟩
        intro job hjob
        obtain rfl := Option.some.inj hjob
        exact {
          issued := Nat.lt_succ_self _
          member := List.mem_filter.mpr ⟨List.mem_of_find?_eq_some huser, by simpa using hteam⟩
          hint := hhint
          visible := hvisible
          leased := by intro hcritical; exact absurd hcritical Bool.false_ne_true
          paid := by intro hstage; cases hstage
          answered := by intro reported hstage; cases hstage }
      · obtain rfl := Option.some.inj hstep
        exact ⟨h, rfl⟩
    · cases hstep
  · cases hstep

/-- A request that has its answer is under way no more. -/
theorem Inv.finish {locks : Store String Nat} (h : Inv platform teamId (s, charged))
    (hleased : ∀ other, other ≠ token → Lease.Holds s.locks s.now (unlockKey teamId) other →
      Lease.Holds locks s.now (unlockKey teamId) other) :
    Inv platform teamId ({ s with locks := locks }.finish token, charged) := by
  refine h.update token none rfl (Nat.le_refl _) rfl hleased ?_
  intro job hjob
  cases hjob

theorem Inv.acquire {executed replied : Bool} (h : Inv platform teamId (s, charged))
    (hstep : step platform teamId s (.acquire token executed replied) = some t) :
    Inv platform teamId (t, charged) ∧ t.db = s.db := by
  unfold step at hstep
  simp only at hstep
  split at hstep
  · rename_i job hjob
    split at hstep
    · have hothers : ∀ other, other ≠ token → Lease.Holds s.locks s.now (unlockKey teamId) other →
          Lease.Holds (Lease.acquire s.locks s.now (unlockKey teamId) token lockExpiry).2 s.now
            (unlockKey teamId) other := fun other _ hheld => hheld.acquire
      split at hstep
      · split at hstep
        · rename_i hacquired
          rw [Bool.and_eq_true] at hacquired
          obtain rfl := Option.some.inj hstep
          have hheld := (Lease.acquire_true hacquired.2 (by decide)).1
          refine ⟨h.update token (some { job with stage := .prerequisites }) rfl
            (Nat.le_refl _) rfl hothers ?_, rfl⟩
          intro job' hjob'
          obtain rfl := Option.some.inj hjob'
          have hok := h.jobs token job hjob
          exact {
            issued := hok.issued
            member := hok.member
            hint := hok.hint
            visible := hok.visible
            leased := fun _ => hheld
            paid := by intro hstage; cases hstage
            answered := by intro reported hstage; cases hstage }
        · obtain rfl := Option.some.inj hstep
          exact ⟨h.finish hothers, rfl⟩
      · obtain rfl := Option.some.inj hstep
        exact ⟨h.finish fun _ _ hheld => hheld, rfl⟩
    · cases hstep
  · cases hstep

/-- What an answered read has seen. -/
theorem afterRead_some {db : Db} {stage : UnlockStage}
    (h : afterRead platform db job = some stage) :
    job.stage.critical = true ∧
      (stage = .save → ensureAffordable db job.hint job.user = .ok ()) ∧
      ∀ reported, stage ≠ .release true reported := by
  unfold afterRead at h
  split at h
  · rename_i hstage
    obtain ⟨challenge, -, rfl⟩ := Option.map_eq_some_iff.mp h
    rw [hstage]
    unfold pass
    split <;> simp [UnlockStage.critical]
  · rename_i hstage
    rw [hstage]
    split at h <;> (obtain rfl := Option.some.inj h; simp [UnlockStage.critical])
  · rename_i hstage
    obtain rfl := Option.some.inj h
    rw [hstage]
    unfold pass
    cases haffordable : ensureAffordable db job.hint job.user with
    | error fault => simp [UnlockStage.critical, Except.isOk, Except.toBool]
    | ok done => simp [UnlockStage.critical, Except.isOk, Except.toBool]
  · cases h

theorem Inv.read {answered : Bool} (h : Inv platform teamId (s, charged))
    (hstep : step platform teamId s (.read token answered) = some t) :
    Inv platform teamId (t, charged) ∧ t.db = s.db := by
  unfold step at hstep
  simp only at hstep
  split at hstep
  · rename_i job hjob
    split at hstep
    · rename_i stage hstage
      obtain rfl := Option.some.inj hstep
      obtain ⟨hcritical, hpaid, hrelease⟩ := afterRead_some hstage
      have hok := h.jobs token job hjob
      refine ⟨h.update token
        (some { job with stage := if answered then stage else .release false false }) rfl
        (Nat.le_refl _) rfl (fun _ _ hheld => hheld) ?_, rfl⟩
      intro job' hjob'
      obtain rfl := Option.some.inj hjob'
      cases answered with
      | false =>
        apply hok.goOn
        · intro hcritical
          exact absurd hcritical Bool.false_ne_true
        · intro hstage
          cases hstage
        · intro reported hstage
          cases hstage
      | true =>
        apply hok.goOn (fun _ => hok.leased hcritical) hpaid
        intro reported hstage
        exact absurd hstage (hrelease reported)
    · cases hstep
  · cases hstep

theorem Inv.release {executed replied : Bool} (h : Inv platform teamId (s, charged))
    (hstep : step platform teamId s (.release token executed replied) = some t) :
    Inv platform teamId (t, charged) ∧ t.db = s.db := by
  unfold step at hstep
  simp only at hstep
  split at hstep
  · split at hstep
    · obtain rfl := Option.some.inj hstep
      refine ⟨h.finish ?_, rfl⟩
      intro other hother hheld
      cases executed with
      | false => exact hheld
      | true => exact hheld.release hother
    · cases hstep
  · cases hstep

/-! ### Saves -/

/-- Two jobs are not in their critical sections at once. -/
theorem Inv.alone (h : Inv platform teamId (s, charged)) (hjob : s.jobs token = some job)
    (hcritical : job.stage.critical = true) {other : Nat} (hother : other ≠ token)
    {job' : UnlockJob} (hjob' : s.jobs other = some job') : job'.stage.critical = false := by
  cases hcritical' : job'.stage.critical with
  | false => rfl
  | true =>
    have hheld := (h.jobs token job hjob).leased hcritical
    have hheld' := (h.jobs other job' hjob').leased hcritical'
    exact absurd (hheld'.unique hheld) hother

/-- What a save writes is a new unlock of the hint, the only one of the team. -/
theorem saved_some {db : Db} {outcome : SaveOutcome} {unlock : Unlock}
    (h : saved db job outcome = some unlock) (hteam : job.user.teamId = some teamId) :
    (unlock.target = some job.hint.id ∧ unlock.teamId = some teamId) ∧
      ∀ u ∈ db.unlocks, u.target = some job.hint.id → u.teamId ≠ some teamId := by
  unfold saved at h
  split at h
  · cases h
  obtain ⟨type, -, h⟩ := Option.bind_eq_some_iff.mp h
  simp only at h
  split at h
  · cases h
  rename_i hunique
  obtain rfl := Option.some.inj h
  refine ⟨⟨rfl, hteam⟩, ?_⟩
  intro u hu htarget hown
  apply hunique
  rw [List.any_eq_true]
  exact ⟨u, hu, by simp [hintUnlock, htarget, hown, hteam]⟩

theorem teamOf_id {db : Db} {user : Board.User} {team : Board.Account}
    (hteam : db.teamOf user = some team) : user.teamId = some team.id := by
  obtain ⟨id, hid, hfind⟩ := Option.bind_eq_some_iff.mp hteam
  have : team.id = id := by simpa using List.find?_some hfind
  rw [this]
  exact hid

theorem score_of_affordable {db : Db} {hint : Hint} {user : Board.User}
    (hmember : user.teamId = some teamId) (h : ensureAffordable db hint user = .ok ()) :
    ∃ score, Board.ScoreHelper.getTeamScore db.board teamId true = some score ∧
      ∀ cost ∈ hint.cost, cost ≤ score := by
  unfold ensureAffordable at h
  cases hteam : db.teamOf user with
  | none =>
    rw [hteam] at h
    cases h
  | some team =>
    have hid : team.id = teamId := Option.some.inj ((teamOf_id hteam).symm.trans hmember)
    simp only [hteam, hid] at h
    cases hscore : Board.ScoreHelper.getTeamScore db.board teamId true with
    | none =>
      simp only [hscore] at h
      cases h
    | some score =>
      simp only [hscore] at h
      split at h
      · cases h
      · rename_i hpays
        refine ⟨score, rfl, ?_⟩
        intro cost hcost
        rw [hcost] at hpays
        simpa using hpays

/-- What a save leads to. -/
theorem step_save {outcome : SaveOutcome}
    (hstep : step platform teamId s (.save token outcome) = some t) :
    ∃ job, s.jobs token = some job ∧ job.stage = .save ∧
      ((∃ unlock, saved s.db job outcome = some unlock ∧
          t = { s with db := s.db.insertUnlock s.now job.user job.hint unlock }.goOn token job
            (.release true (decide (outcome = SaveOutcome.committed)))) ∨
        t = s.goOn token job (.release false false)) := by
  unfold step at hstep
  simp only at hstep
  split at hstep
  · rename_i job hjob
    split at hstep
    · rename_i hstage
      refine ⟨job, hjob, hstage, ?_⟩
      split at hstep
      · rename_i unlock hsaved
        exact .inl ⟨unlock, hsaved, (Option.some.inj hstep).symm⟩
      · exact .inr (Option.some.inj hstep).symm
    · cases hstep
  · cases hstep

/-- The unlock of a save that goes through. -/
theorem grant_of_save {stage : UnlockStage} {outcome : SaveOutcome} {unlock : Unlock}
    (h : Inv platform teamId (s, charged)) (hjob : s.jobs token = some job)
    (hstage : job.stage = .save) (hsaved : saved s.db job outcome = some unlock)
    (htype : sameType platform unlock hintUnlockType = true) :
    Charges platform teamId s
      ({ s with db := s.db.insertUnlock s.now job.user job.hint unlock }.goOn token job stage) := by
  have hok := h.jobs token job hjob
  have hmode : s.db.board.userMode = .teams := h.mode
  have huser := (List.mem_filter.mp hok.member).1
  have hmember : job.user.teamId = some teamId := by simpa using (List.mem_filter.mp hok.member).2
  obtain ⟨hrow, hnone⟩ := saved_some hsaved hmember
  obtain ⟨score, hscore, hcost⟩ := score_of_affordable hmember (hok.paid hstage)
  have hfit : ∀ cost ∈ job.hint.cost, 0 ≤ cost ∧ Word.Fits cost :=
    h.costs job.hint (List.mem_of_find?_eq_some hok.hint)
  have hvalue : Word.wrap (-job.hint.cost.getD 0) = -job.hint.cost.getD 0 := by
    apply Word.wrap_of_fits
    cases hpaid : job.hint.cost with
    | none => exact Word.fits_zero
    | some cost =>
      have := hfit cost hpaid
      unfold Word.Fits at this ⊢
      simp only [Option.getD_some]
      omega
  refine .grant job.hint unlock (hintAward s.db s.now job.user job.hint) rfl rfl hrow
    ⟨congrArg some hvalue, hmember⟩ ?_ score hscore hcost ?_ ?_
  · intro user huser
    have hteam : user.teamId = some teamId := by simpa using (List.mem_filter.mp huser).2
    by_contra hunlocked
    have hunlocked : unlocked platform s.db job.hint user = true := by simpa using hunlocked
    unfold unlocked at hunlocked
    rw [Bool.and_eq_true, List.any_eq_true] at hunlocked
    obtain ⟨-, u, hu, hmatch⟩ := hunlocked
    simp only [Bool.and_eq_true, ownedBy, hmode, decide_eq_true_eq] at hmatch
    exact hnone u hu hmatch.1.2 (hmatch.1.1.trans hteam)
  · intro after hafter
    have hdown : after = score - job.hint.cost.getD 0 :=
      score_insertUnlock huser hmember
        (fun cost hpaid => ⟨(hfit cost hpaid).1, (hfit cost hpaid).2, hcost cost hpaid⟩)
        hscore hafter
    refine ⟨hdown, fun hnonneg => ?_⟩
    rw [hdown]
    cases hpaid : job.hint.cost with
    | none => simpa using hnonneg
    | some cost => simpa using hcost cost hpaid
  · refine shown_of_unlocked hok.hint hok.visible ?_
    intro user huser
    have hteam : user.teamId = some teamId := by simpa using (List.mem_filter.mp huser).2
    exact unlocked_of_mem h.mode hteam (List.mem_append_right _ (List.mem_singleton_self _))
      hrow.1 hrow.2 htype

theorem Inv.save {outcome : SaveOutcome} (h : Inv platform teamId (s, charged))
    (hkeeps : Keeps platform teamId (s, charged) (.save token outcome))
    (hstep : step platform teamId s (.save token outcome) = some t) :
    Inv platform teamId (t, observe charged s (.save token outcome) t) ∧
      Charges platform teamId s t ∧
      ∀ hint, s.Shown platform teamId hint → t.Shown platform teamId hint := by
  obtain ⟨job, hjob, hstage, ⟨unlock, hsaved, rfl⟩ | rfl⟩ := step_save hstep
  · obtain ⟨htype, houtcome⟩ := hkeeps.2 job hjob hstage unlock hsaved
    have hok := h.jobs token job hjob
    have hmember : job.user.teamId = some teamId := by
      simpa using (List.mem_filter.mp hok.member).2
    obtain ⟨hrow, hnone⟩ := saved_some hsaved hmember
    have hobserve : observe charged s (.save token outcome)
        ({ s with db := s.db.insertUnlock s.now job.user job.hint unlock }.goOn token job
          (.release true (decide (outcome = SaveOutcome.committed)))) =
        charged ++ [job.hint.id] := by
      simp [observe, HintSite.goOn, Db.insertUnlock, hjob]
    refine ⟨?_, grant_of_save h hjob hstage hsaved htype, fun hint hshown => hshown.insert rfl⟩
    rw [hobserve]
    exact {
      mode := h.mode
      costs := h.costs
      jobs := by
        intro other job' hother
        by_cases htoken : other = token
        · subst htoken
          obtain rfl : { job with stage := _ } = job' := by
            simpa [HintSite.goOn] using hother
          have hdone : JobOk platform teamId s other { job with stage := .release true true } := {
            issued := hok.issued
            member := hok.member
            hint := hok.hint
            visible := hok.visible
            leased := fun hcritical => absurd hcritical Bool.false_ne_true
            paid := by intro hstage; cases hstage
            answered := by intro reported hstage; cases hstage; rfl }
          have hafter : JobOk platform teamId
              { s with db := s.db.insertUnlock s.now job.user job.hint unlock } other
              { job with stage := .release true true } :=
            hdone.insert (Nat.le_refl _) rfl rfl
          rw [houtcome]
          exact hafter.sameRows (Nat.le_refl _) rfl hafter.leased
        · have hjob' : s.jobs other = some job' := by
            simpa [HintSite.goOn, Function.update_of_ne htoken] using hother
          exact (h.jobs other job' hjob').insert (Nat.le_refl _) rfl
            (h.alone hjob (by rw [hstage]; rfl) htoken hjob')
      nodup := by
        apply h.nodup.append (List.nodup_singleton _)
        rw [List.disjoint_singleton]
        intro hcharged
        obtain ⟨u, hu, htarget, hown⟩ := h.rows _ hcharged
        exact hnone u hu htarget hown
      rows := by
        intro id hid
        rcases List.mem_append.mp hid with hid | hid
        · obtain ⟨u, hu, hrow⟩ := h.rows id hid
          exact ⟨u, List.mem_append_left _ hu, hrow⟩
        · obtain rfl := List.mem_singleton.mp hid
          exact ⟨unlock, List.mem_append_right _ (List.mem_singleton_self _), hrow⟩ }
  · have hobserve : observe charged s (.save token outcome)
        (s.goOn token job (.release false false)) = charged := by
      simp [observe, HintSite.goOn]
    rw [hobserve]
    refine ⟨h.update token (some { job with stage := .release false false }) rfl
      (Nat.le_refl _) rfl (fun _ _ hheld => hheld) ?_, .nothing rfl rfl, fun _ hshown => hshown⟩
    intro job' hjob'
    obtain rfl := Option.some.inj hjob'
    apply (h.jobs token job hjob).goOn
    · intro hcritical
      exact absurd hcritical Bool.false_ne_true
    · intro hstage
      cases hstage
    · intro reported hstage
      cases hstage

/-! ### Whole runs -/

/-- What every step under the condition keeps and does. -/
theorem Inv.step {a : UnlockAction} (h : Inv platform teamId (s, charged))
    (hkeeps : Keeps platform teamId (s, charged) a) (hstep : step platform teamId s a = some t) :
    Inv platform teamId (t, observe charged s a t) ∧ Charges platform teamId s t ∧
      ∀ hint, s.Shown platform teamId hint → t.Shown platform teamId hint := by
  have hquiet : Inv platform teamId (t, charged) ∧ t.db = s.db →
      observe charged s a t = charged →
      Inv platform teamId (t, observe charged s a t) ∧ Charges platform teamId s t ∧
        ∀ hint, s.Shown platform teamId hint → t.Shown platform teamId hint := by
    rintro ⟨hinv, hdb⟩ hobserve
    rw [hobserve]
    refine ⟨hinv, .nothing (by rw [hdb]) (by rw [hdb]), ?_⟩
    intro hint hshown
    unfold Shown members at hshown ⊢
    rw [hdb]
    exact hshown
  cases a with
  | tick seconds =>
    obtain rfl := Option.some.inj hstep
    exact hquiet ⟨h.tick hkeeps, rfl⟩ rfl
  | request userId type target => exact hquiet (h.request hstep) rfl
  | acquire token executed replied => exact hquiet (h.acquire hstep) rfl
  | read token answered => exact hquiet (h.read hstep) rfl
  | save token outcome => exact h.save hkeeps hstep
  | release token executed replied => exact hquiet (h.release hstep) rfl

theorem Inv.safe {p : HintSite × List Nat} {a : UnlockAction} (h : Inv platform teamId p)
    (hkeeps : Keeps platform teamId p a) : Safe platform teamId p a where
  charges := fun _ hstep => (h.step hkeeps hstep).2.1
  shown := fun _ hstep => (h.step hkeeps hstep).2.2
  once := h.nodup
  clean := by
    rintro token executed replied job committed reported rfl hjob hstage hfails
    cases committed with
    | false => rfl
    | true =>
      have hreported := (h.jobs token job hjob).answered reported hstage
      subst hreported
      have hreplied : replied = true := hkeeps.2 job hjob hstage
      rw [hreplied] at hfails
      cases hfails

end Proof

/-- In a run of a team's unlock requests whose steps meet the condition, every hint is charged at
most once, within the team's score, and is shown from then on; failed requests leave nothing. -/
theorem unlocks_safe {platform : Platform} {teamId : Nat} {start : HintSite}
    (hmode : start.db.board.userMode = .teams) (hcosts : start.db.CostsFit)
    (hidle : ∀ token, start.jobs token = none)
    {p : HintSite × List Nat} {a : UnlockAction}
    (h : Reach (monitored (step platform teamId) observe) (Keeps platform teamId) (start, []) p)
    (hkeeps : Keeps platform teamId p a) : Safe platform teamId p a := by
  have hstart : Inv platform teamId (start, []) := by
    constructor
    · exact hmode
    · exact hcosts
    · intro token job hjob
      rw [hidle token] at hjob
      cases hjob
    · exact List.nodup_nil
    · intro id hid
      cases hid
  apply Inv.safe _ hkeeps
  apply h.invariant (Inv platform teamId) hstart
  rintro ⟨s, charged⟩ a ⟨t, charged'⟩ hinv hcond hstep
  obtain ⟨hnext, hhistory⟩ := monitored_eq_some.mp hstep
  have hnew := (hinv.step hcond hnext).1
  simp only at hhistory
  rw [hhistory]
  exact hnew

theorem oneMember_pos :
    ∀ user ∈ [({ id := 1, teamId := some 1 } : Board.User)], 0 < user.id := by decide

/-- A team of one member with 100 points, and a hint for 30 of them. -/
def thirtyPoints : HintSite where
  db := {
    board := {
      teams := [{ id := 1 }]
      users := [{ id := 1, teamId := some 1 }]
      awards := [⟨1, some 1, some 1, some 100, some 0⟩]
      teams_pk := Board.memberLeft.teams_pk
      users_pk := Board.memberLeft.users_pk
      users_pos := oneMember_pos
      brackets_pk := Board.unsetFlag.brackets_pk
      challenges_pk := Board.unsetFlag.challenges_pk
      submissions_pk := Board.unsetFlag.submissions_pk
      solves_fk := Board.unsetFlag.solves_fk
      solves_pos := Board.unsetFlag.solves_pos }
    challenges := [{ id := 1 }]
    hints := [{ id := 5, challengeId := some 1, content := some "look left", cost := some 30 }] }

/-- A request of the member, up to its save. -/
def unlockRun (token : Nat) (type : String) : List UnlockAction :=
  [.request 1 (some type) 5, .acquire token true true, .read token true, .read token true,
    .read token true]

theorem thirtyPoints_costs : thirtyPoints.db.CostsFit := by
  simp [Db.CostsFit, thirtyPoints, Word.Fits]

theorem unlocks_safe_thirty :
    ∃ p, Safe plainPlatform 1 p (.save 0 .committed) ∧
      (p.1.jobs 0).map UnlockJob.stage = some .save := by
  obtain ⟨p, hreach, hp⟩ := exists_reach_of_exec (monitored (step plainPlatform 1) observe)
    (Keeps plainPlatform 1) (thirtyPoints, []) (unlockRun 0 "hints")
    (p := fun p => decide ((p.1.jobs 0).map UnlockJob.stage = some .save) &&
      decide (Keeps plainPlatform 1 p (.save 0 .committed))) (by decide) (by decide)
  simp only [Bool.and_eq_true, decide_eq_true_eq] at hp
  exact ⟨p, unlocks_safe rfl thirtyPoints_costs (fun _ => rfl) hreach hp.2, hp.1⟩

/-- The member unlocks the hint as `x`, pays, and does not get to see it. -/
theorem unlock_not_shown :
    ¬ ∀ (platform : Platform) (teamId : Nat) (start : HintSite) (p : HintSite × List Nat)
      (a : UnlockAction), start.db.board.userMode = .teams → start.db.CostsFit →
      (∀ token, start.jobs token = none) →
      Reach (monitored (step platform teamId) observe) (WithinLease teamId) (start, []) p →
      WithinLease teamId p a → Safe platform teamId p a := by
  intro hall
  obtain ⟨p, hreach, hp⟩ := exists_reach_of_exec (monitored (step plainPlatform 1) observe)
    (WithinLease 1) (thirtyPoints, []) (unlockRun 0 "x")
    (p := fun p : HintSite × List Nat =>
      (step plainPlatform 1 p.1 (.save 0 .committed)).any fun t : HintSite =>
        decide (t.db.unlocks ≠ p.1.db.unlocks) &&
          decide (∀ unlock ∈ t.db.unlocks, unlock.target = some 5) &&
          decide (∃ user ∈ t.members 1, ∃ dto ∈ getHintById plainPlatform t.db 5 user.id,
            dto.view = "locked")) (by decide) (by decide)
  obtain ⟨t, hstep, ht⟩ := (Option.any_eq_true _ _).mp hp
  simp only [Bool.and_eq_true, decide_eq_true_eq] at ht
  obtain ⟨⟨hgrown, htargets⟩, user, huser, shown, hshown', hlocked⟩ := ht
  have hsafe := hall plainPlatform 1 thirtyPoints p (.save 0 .committed) rfl thirtyPoints_costs
    (fun _ => rfl) hreach trivial
  cases hsafe.charges t hstep with
  | nothing hunlocks => exact hgrown hunlocks
  | grant hint unlock award hunlocks hawards htarget hvalue hcharged score htold hcost hscore
      hshown =>
    have hmem : unlock ∈ t.db.unlocks := by
      rw [hunlocks]
      exact List.mem_append_right _ (List.mem_singleton_self _)
    have hid : hint.id = 5 := Option.some.inj (htarget.1.symm.trans (htargets unlock hmem))
    obtain ⟨dto, hdto, -, hview⟩ := hshown user huser
    rw [hid] at hdto
    obtain rfl : dto = shown := Option.some.inj (hdto.symm.trans hshown')
    exact absurd (hview.symm.trans hlocked) (by decide)

end HintSite

end Fctf.Contest
