import Fctf.Lib.Traverse
import Fctf.Scoring.Scoreboard
import Mathlib.Algebra.BigOperators.Group.List.Basic

/-!
The score and the place that an account is told, against the contestants' scoreboard. They come
from other queries: a team's score is that of its present members, and a place is found among
all accounts, by the score alone.
-/

namespace Fctf.Board

open Query Ranking ScoreHelper Traverse Word

/-- A choice of solves and awards. -/
structure Pick where
  solves : Solf → Bool
  awards : Award → Bool

/-- What the first choice has over the second one. -/
def Pick.without (p q : Pick) : Pick where
  solves solve := p.solves solve && !q.solves solve
  awards award := p.awards award && !q.awards award

section Property

variable (db : Db)

def solvePoints (pick : Pick) : Int := ((db.solves.filter pick.solves).map (solveValue db)).sum

def awardPoints (pick : Pick) : Int :=
  ((db.awards.filter pick.awards).map fun award => award.value.getD 0).sum

/-- The points of the solves and awards that are chosen. -/
def points (pick : Pick) : Int := solvePoints db pick + awardPoints db pick

/-- The points of the solves and those of the awards are `int`s. -/
def PointsFit (pick : Pick) : Prop := Fits (solvePoints db pick) ∧ Fits (awardPoints db pick)

/-- What an `int` keeps of the points. -/
def intPoints (pick : Pick) : Int := wrap (points db pick)

/-- What a team's present members have, as far as the score's own freeze lets it count. -/
def byMembers (admin : Bool) (teamId : Nat) : Pick where
  solves s := s.userId.any (· ∈ memberIds db.users teamId) &&
    notFrozen (freezeOf db admin) (solveDate db s)
  awards a := a.userId.any (· ∈ memberIds db.users teamId) && notFrozen (freezeOf db admin) a.date

/-- What a user has, as far as the score's own freeze lets it count. -/
def byUser (admin : Bool) (userId : Nat) : Pick where
  solves s := decide (s.userId = some userId) && notFrozen (freezeOf db admin) (solveDate db s)
  awards a := decide (a.userId = some userId) && notFrozen (freezeOf db admin) a.date

/-- What the contestants' scoreboard counts for an account. -/
def onBoard (mode : AccountMode) (account : Nat) : Pick where
  solves s := decide (solveAccount mode s = some account) && counts db false (solveDate db s)
  awards a := decide (awardAccount mode a = some account) && counts db false a.date

/-- Neither hidden nor banned. -/
def Visible (t : Account) : Prop := t.hidden ≠ some true ∧ t.banned ≠ some true

instance decidableVisible (t : Account) : Decidable (Visible t) :=
  inferInstanceAs (Decidable (_ ∧ _))

def inBracket (bracketId : Option Nat) (t : Account) : Bool :=
  bracketId.all fun id => t.bracketId = some id

/-- A score and a place are told, and are those of the standings that are shown. -/
def Agrees (standings : Option (List StandingDto)) (id : Nat) (score : Option Int)
    (place : Option (Option Nat)) : Prop :=
  ∃ list, standings = some list ∧
    score = some (((list.find? fun x => x.accountId = id).map StandingDto.score).getD 0) ∧
    place = some (some ((list.map StandingDto.accountId).idxOf id + 1))

/-- Every visible team is told what the scoreboard of its bracket shows. The place reads the
members in an order of its own. -/
def TeamsAgree (admin : Bool) (bracketId : Option Nat) (teams teams' : Scan db.teams)
    (members : Scan db.users) : Prop :=
  ∀ t ∈ db.teams, Visible t → inBracket bracketId t →
    Agrees ((freezeUtc db).bind fun freeze =>
        getTeamStandings db teams' none bracketId false freeze) t.id
      (getTeamScore db t.id admin) (getTeamPlace db teams members t.id admin bracketId)

/-- Every visible user is told what the scoreboard shows, whoever is asked for beside. -/
def UsersAgree (admin : Bool) (users users' : Scan db.users) : Prop :=
  ∀ user ∈ db.users, Visible user.toAccount → ∀ asked, (∀ u ∈ asked, u ∈ db.users) →
    user ∈ asked →
      Agrees ((freezeUtc db).bind fun freeze =>
          getUserStandings db users' none none false freeze) user.id
        ((getUsersScore db asked admin).map fun scores => scoreOf scores user.id)
        (getUserPlace db users user.id admin)

/-- What the score, the place and the scoreboard of a team add up on the way are `int`s. -/
structure TeamCounted (admin : Bool) (bracketId : Option Nat) (members : Scan db.users)
    (t : Account) : Prop where
  freeze : ∀ seconds ∈ db.freeze, seconds ≤ maxSeconds
  board : SumsFit db .teams false
  score : PointsFit db (byMembers db admin t.id)
  users : ∀ u ∈ db.teams, inBracket bracketId u → ∀ id ∈ memberIds db.users u.id,
    PointsFit db (byUser db admin id)
  /-- The members' scores are added up one by one. -/
  totals : ∀ u ∈ db.teams, inBracket bracketId u →
    ∀ front ∈ ((memberIds members.rows u.id).map fun id => intPoints db (byUser db admin id)).inits,
      Fits front.sum

/-- What the scores, the places and the scoreboard of the users add up on the way are `int`s. -/
structure UsersCounted (admin : Bool) : Prop where
  freeze : ∀ seconds ∈ db.freeze, seconds ≤ maxSeconds
  board : SumsFit db .users false
  users : ∀ user ∈ db.users, PointsFit db (byUser db admin user.id)

/-- The states in which scores and places agree with the scoreboard, as far as they are told.
The place is found among `rows` by the points of `pick`, the scoreboard is read from `rows'`. -/
structure Matches (mode : AccountMode) (pick : Nat → Pick) (bracketId : Option Nat)
    (table rows rows' : List Account) : Prop where
  /-- What counts for the score only and what counts on the scoreboard only have the same
  points, up to what an `int` forgets. -/
  scores : ∀ t ∈ table, Visible t → inBracket bracketId t →
    4294967296 ∣ points db ((pick t.id).without (onBoard db mode t.id)) -
      points db ((onBoard db mode t.id).without (pick t.id))
  /-- No hidden or banned account is placed before a visible one. -/
  others : ∀ t ∈ table, Visible t → inBracket bracketId t →
    ∀ u ∈ table, ¬ Visible u → inBracket bracketId u →
      intPoints db (pick u.id) < intPoints db (pick t.id) ∨
        intPoints db (pick u.id) = intPoints db (pick t.id) ∧ Before rows t u
  /-- Visible accounts with the same points are read in the order of the scoreboard. -/
  ties : ∀ t ∈ table, Visible t → inBracket bracketId t →
    ∀ u ∈ table, Visible u → inBracket bracketId u → t ≠ u →
      intPoints db (onBoard db mode t.id) = intPoints db (onBoard db mode u.id) →
        (Before rows t u ↔ BeforeBy db mode false (shownDate db mode false) rows' t u)

end Property

section Proof

variable (db : Db)

theorem points_sub (p q : Pick) :
    points db p - points db q = points db (p.without q) - points db (q.without p) := by
  have hsolves := sum_filter_sub (solveValue db) p.solves q.solves db.solves
  have hawards := sum_filter_sub (fun award : Award => award.value.getD 0) p.awards q.awards
    db.awards
  unfold points solvePoints awardPoints Pick.without
  simp only
  omega

theorem intPoints_eq_iff (p q : Pick) :
    intPoints db p = intPoints db q ↔
      4294967296 ∣ points db (p.without q) - points db (q.without p) := by
  rw [intPoints, intPoints, wrap_eq_wrap_iff, points_sub]

/-! ### The score on the scoreboard -/

/-- The sum over the scored rows of an account. -/
theorem sum_scored_rows {α : Type} (table : List α) (accountId : α → Option Nat)
    (value : α → Option Int) (id : α → Nat) (date : α → Option Int) (account : Nat)
    (keep : Option Int → Bool) :
    ((((table.filterMap fun row =>
        match accountId row with
        | some accountId =>
          if (value row).getD 0 ≠ 0 then
            some (⟨accountId, (value row).getD 0, id row, date row⟩ : ScoreRow Nat)
          else none
        | none => none).filter fun row => keep row.lastDate).filter (·.account = account)).map
        ScoreRow.score).sum =
      ((table.filter fun row => decide (accountId row = some account) && keep (date row)).map
        fun row => (value row).getD 0).sum := by
  induction table with
  | nil => rfl
  | cons row table ih =>
    rw [List.filterMap_cons, List.filter_cons]
    cases haccount : accountId row with
    | none => simpa using ih
    | some accountId =>
      by_cases hzero : (value row).getD 0 = 0
      · by_cases hsame : accountId = account <;> cases hkeep : keep (date row) <;>
          simpa [hzero, hsame, hkeep] using ih
      · by_cases hsame : accountId = account <;> cases hkeep : keep (date row) <;>
          simpa [hzero, hsame, hkeep] using ih

/-- The joins find the challenge and the submission of a solve. -/
theorem sum_joinedSolves (keep : Solf → Option Int → Bool) :
    ((db.joinedSolves.filter fun row => keep row.1 row.2.2.date).map
        fun row => row.2.1.value.getD 0).sum =
      ((db.solves.filter fun solve => keep solve (solveDate db solve)).map
        (solveValue db)).sum := by
  rw [Db.joinedSolves, List.filter_flatMap, sum_flatMap, sum_filter]
  apply congrArg List.sum
  apply List.map_congr_left
  intro solve hsolve
  have hsubmission : ∃ submission,
      db.submissions.find? (fun submission => submission.id = solve.id) =
      some submission := by
    obtain ⟨submission, hmem, hid⟩ := List.mem_map.mp (db.solves_fk solve hsolve).1
    exact ⟨submission, find?_eq_of_unique db.submissions_pk hmem hid⟩
  obtain ⟨submission, hfind⟩ := hsubmission
  have hchallenges : (db.challenges.filter fun challenge => some challenge.id = solve.challengeId) =
      (db.challenges.find? fun challenge => some challenge.id = solve.challengeId).toList := by
    apply filter_eq_toList
    cases hid : solve.challengeId with
    | none => simp
    | some id => simpa using length_filter_le_one db.challenges_pk id
  have hsubmissions : (db.submissions.filter fun submission => submission.id = solve.id) =
      [submission] := by
    rw [filter_eq_toList (length_filter_le_one db.submissions_pk solve.id), hfind]
    rfl
  have hdate : solveDate db solve = submission.date := by
    rw [solveDate, hfind]
    rfl
  rw [hchallenges, hsubmissions, hdate, solveValue]
  cases db.challenges.find? fun challenge => some challenge.id = solve.challengeId with
  | none => simp
  | some challenge => cases hkeep : keep solve submission.date <;> simp [hkeep]

/-- The score of a ledger, whether or not the freeze counts. -/
theorem ledger_score_eq (mode : AccountMode) (admin : Bool) (account : Nat) :
    (ledger db mode admin account).score = points db
      ⟨fun s => decide (solveAccount mode s = some account) && counts db admin (solveDate db s),
        fun a => decide (awardAccount mode a = some account) && counts db admin a.date⟩ := by
  have hsolves := sum_scored_rows db.joinedSolves (fun row => solveAccount mode row.1)
    (fun row => row.2.1.value) (fun row => row.1.id) (fun row => row.2.2.date) account
    (counts db admin)
  have hawards := sum_scored_rows db.awards (awardAccount mode) Award.value Award.id Award.date
    account (counts db admin)
  rw [sum_joinedSolves db fun solve date =>
    decide (solveAccount mode solve = some account) && counts db admin date] at hsolves
  rw [ledger, aggregate, List.map_append, List.sum_append, solveLedger, awardLedger, frozen_eq,
    frozen_eq]
  exact congrArg₂ (· + ·) hsolves hawards

theorem ledger_score (mode : AccountMode) (account : Nat) :
    (ledger db mode false account).score = points db (onBoard db mode account) :=
  ledger_score_eq db mode false account

theorem shownScore_eq (mode : AccountMode) (account : Nat) :
    shownScore db mode false account = intPoints db (onBoard db mode account) := by
  rw [shownScore, ledger_score, intPoints]

/-! ### The score that is told -/

/-- What a dictionary of sums by user has for one user. -/
theorem scoreOf_groupBy {α : Type} (table : List α) (userId : α → Option Nat) (value : α → Int)
    (contains : Option Nat → Bool) (keep : α → Bool) (id : Nat) (hid : contains (some id) = true)
    (honly : ∀ u, contains u = true → u.getD 0 = id → u = some id) :
    scoreOf ((groupBy (fun row => (userId row).getD 0)
        (table.filter fun row => contains (userId row) && keep row)).map
        fun (userId, group) => (userId, (group.map value).sum)) id =
      ((table.filter fun row => decide (userId row = some id) && keep row).map value).sum := by
  have hrows : ((table.filter fun row => contains (userId row) && keep row).filter
      fun row => (userId row).getD 0 = id) =
      table.filter fun row => decide (userId row = some id) && keep row := by
    rw [List.filter_filter]
    apply List.filter_congr
    intro row _
    by_cases huser : userId row = some id
    · simp [huser, hid]
    · have hother : (contains (userId row) && decide ((userId row).getD 0 = id)) = false := by
        rw [Bool.and_eq_false_iff, ← Bool.not_eq_true]
        by_cases hcontains : contains (userId row) = true
        · exact .inr (by simpa using mt (honly _ hcontains) huser)
        · exact .inl hcontains
      rw [← Bool.and_assoc, Bool.and_comm (decide _), hother]
      simp [huser]
  have hfind := find?_map_groupBy (fun row => (userId row).getD 0) (Prod.fst : Nat × Int → Nat)
    (fun g => (g.1, (g.2.map value).sum)) (fun _ => rfl)
    (table.filter fun row => contains (userId row) && keep row) id
  rw [hrows] at hfind
  unfold scoreOf
  rw [hfind]
  split
  · rename_i hempty
    simp [hempty]
  · rfl

/-- A dictionary of sums is read when the sums of the users in it are `int`s. -/
theorem readDictionary_eq_some_iff {α : Type} (table : List α) (userId : α → Option Nat)
    (value : α → Int) {contains : Option Nat → Bool} (keep : α → Bool) {ids : List Nat}
    (hcontains : ∀ u, contains u = true ↔ ∃ id ∈ ids, u = some id) (scores : List (Nat × Int)) :
    readDictionary ((groupBy (fun row => (userId row).getD 0)
        (table.filter fun row => contains (userId row) && keep row)).map
        fun (userId, group) => (userId, (group.map value).sum)) = some scores ↔
      (∀ id ∈ ids, Fits ((table.filter fun row =>
          decide (userId row = some id) && keep row).map value).sum) ∧
        scores = (groupBy (fun row => (userId row).getD 0)
          (table.filter fun row => contains (userId row) && keep row)).map
            fun (userId, group) => (userId, (group.map value).sum) := by
  have hgroup : ∀ id ∈ ids, (table.filter fun row => contains (userId row) && keep row).filter
      (fun row => (userId row).getD 0 = id) =
        table.filter fun row => decide (userId row = some id) && keep row := by
    intro id hid
    rw [List.filter_filter]
    apply List.filter_congr
    intro row _
    by_cases huser : userId row = some id
    · simp [huser, (hcontains (some id)).mpr ⟨id, hid, rfl⟩]
    · have hother : ¬ ((userId row).getD 0 = id ∧ contains (userId row) = true) := by
        rintro ⟨hkey, hmem⟩
        obtain ⟨id', -, heq⟩ := (hcontains _).mp hmem
        rw [heq, Option.getD_some] at hkey
        exact huser (hkey ▸ heq)
      have hnone : (decide ((userId row).getD 0 = id) && contains (userId row)) = false := by
        simpa using hother
      rw [← Bool.and_assoc, hnone]
      simp [huser]
  have hfits : (∀ entry ∈ (groupBy (fun row => (userId row).getD 0)
        (table.filter fun row => contains (userId row) && keep row)).map
          (fun (userId, group) => (userId, (group.map value).sum)), Fits entry.2) ↔
      ∀ id ∈ ids, Fits ((table.filter fun row =>
        decide (userId row = some id) && keep row).map value).sum := by
    rw [List.forall_mem_map]
    constructor
    · intro h id hid
      by_cases hempty : (table.filter fun row => decide (userId row = some id) && keep row) = []
      · rw [hempty]
        exact fits_zero
      · exact h (id, _) ((mem_groupBy _).mpr ⟨(hgroup id hid).symm, by rwa [hgroup id hid]⟩)
    · intro h group hmem
      obtain ⟨hrows, hne⟩ := (mem_groupBy _).mp hmem
      obtain ⟨row, hrow⟩ := List.exists_mem_of_ne_nil _ hne
      obtain ⟨hrow, hkey⟩ := List.mem_filter.mp hrow
      obtain ⟨id, hid, huser⟩ := (hcontains _).mp
        (Bool.and_eq_true_iff.mp (List.mem_filter.mp hrow).2).1
      obtain rfl : id = group.1 := by simpa [huser] using hkey
      have hsum := h group.1 hid
      rw [← hgroup group.1 hid, ← hrows] at hsum
      exact hsum
  rw [← hfits]
  unfold readDictionary
  split
  · rename_i h
    rw [and_iff_right h, Option.some_inj, eq_comm]
  · rename_i h
    exact iff_of_false (by simp) fun hread => h hread.1

section Dictionaries

variable {contains : Option Nat → Bool} {ids : List Nat}
  (hcontains : ∀ u, contains u = true ↔ ∃ id ∈ ids, u = some id) (admin : Bool)

include hcontains

/-- Both dictionaries are read when all their users have `int`s. -/
theorem dictionaries_isSome_iff :
    (∃ solves awards, solvesScores db contains (freezeOf db admin) = some solves ∧
        awardsScores db contains (freezeOf db admin) = some awards) ↔
      ∀ id ∈ ids, PointsFit db (byUser db admin id) := by
  have hsolves := readDictionary_eq_some_iff db.solves Solf.userId (solveValue db)
    (fun s => notFrozen (freezeOf db admin) (solveDate db s)) hcontains
  have hawards := readDictionary_eq_some_iff db.awards Award.userId (fun a => a.value.getD 0)
    (fun a => notFrozen (freezeOf db admin) a.date) hcontains
  constructor
  · rintro ⟨solves, awards, hs, ha⟩ id hid
    exact ⟨((hsolves _).mp hs).1 id hid, ((hawards _).mp ha).1 id hid⟩
  · intro h
    exact ⟨_, _, (hsolves _).mpr ⟨fun id hid => (h id hid).1, rfl⟩,
      (hawards _).mpr ⟨fun id hid => (h id hid).2, rfl⟩⟩

/-- The score of a user in the dictionaries. -/
theorem scoreIn_eq {solves awards : List (Nat × Int)}
    (hsolves : solvesScores db contains (freezeOf db admin) = some solves)
    (hawards : awardsScores db contains (freezeOf db admin) = some awards) {id : Nat}
    (hid : id ∈ ids) : scoreIn solves awards id = intPoints db (byUser db admin id) := by
  have hmem : contains (some id) = true := (hcontains _).mpr ⟨id, hid, rfl⟩
  have honly : ∀ u, contains u = true → u.getD 0 = id → u = some id := by
    intro u hu hget
    obtain ⟨id', -, rfl⟩ := (hcontains u).mp hu
    exact congrArg some hget
  obtain ⟨-, rfl⟩ := (readDictionary_eq_some_iff db.solves Solf.userId (solveValue db)
    (fun s => notFrozen (freezeOf db admin) (solveDate db s)) hcontains _).mp hsolves
  obtain ⟨-, rfl⟩ := (readDictionary_eq_some_iff db.awards Award.userId (fun a => a.value.getD 0)
    (fun a => notFrozen (freezeOf db admin) a.date) hcontains _).mp hawards
  rw [scoreIn, scoreOf_groupBy db.solves Solf.userId (solveValue db) contains
      (fun s => notFrozen (freezeOf db admin) (solveDate db s)) id hmem honly,
    scoreOf_groupBy db.awards Award.userId (fun award => award.value.getD 0) contains
      (fun a => notFrozen (freezeOf db admin) a.date) id hmem honly]
  rfl

end Dictionaries

theorem getTeamScore_eq_some_iff (teamId : Nat) (admin : Bool) (score : Int) :
    getTeamScore db teamId admin = some score ↔
      PointsFit db (byMembers db admin teamId) ∧
        score = intPoints db (byMembers db admin teamId) := by
  unfold getTeamScore
  simp only
  split
  · rename_i hempty
    have hnone : memberIds db.users teamId = [] := List.length_eq_zero_iff.mp hempty
    have hno : ∀ u : Option Nat, u.any (· ∈ memberIds db.users teamId) = false := by
      intro u
      cases u <;> simp [hnone]
    have hsolves : solvePoints db (byMembers db admin teamId) = 0 := by
      simp [solvePoints, byMembers, hno]
    have hawards : awardPoints db (byMembers db admin teamId) = 0 := by
      simp [awardPoints, byMembers, hno]
    rw [intPoints, points, PointsFit, hsolves, hawards, and_iff_right ⟨fits_zero, fits_zero⟩,
      Option.some_inj, eq_comm]
    rfl
  · constructor
    · intro h
      obtain ⟨solves, hsolves, h⟩ := Option.bind_eq_some_iff.mp h
      obtain ⟨awards, hawards, h⟩ := Option.bind_eq_some_iff.mp h
      obtain ⟨hsolvesFit, rfl⟩ := (checked_eq_some_iff _ _).mp hsolves
      obtain ⟨hawardsFit, rfl⟩ := (checked_eq_some_iff _ _).mp hawards
      exact ⟨⟨hsolvesFit, hawardsFit⟩, (Option.some.inj h).symm⟩
    · rintro ⟨⟨hsolves, hawards⟩, rfl⟩
      exact Option.bind_eq_some_iff.mpr ⟨_, (checked_eq_some_iff _ _).mpr ⟨hsolves, rfl⟩,
        Option.bind_eq_some_iff.mpr ⟨_, (checked_eq_some_iff _ _).mpr ⟨hawards, rfl⟩, rfl⟩⟩

theorem memberIds_nodup (teamId : Nat) : (memberIds db.users teamId).Nodup :=
  db.users_pk.sublist (List.filter_sublist.map _)

/-- The members' points add up to the team's. -/
theorem sum_members (admin : Bool) (teamId : Nat) :
    ((memberIds db.users teamId).map fun id => points db (byUser db admin id)).sum =
      points db (byMembers db admin teamId) := by
  have hone : ∀ id ∈ memberIds db.users teamId,
      points db (byUser db admin id) =
        (((db.solves.filter fun s => notFrozen (freezeOf db admin) (solveDate db s)).filter
            fun s => s.userId = some id).map (solveValue db)).sum +
          (((db.awards.filter fun a => notFrozen (freezeOf db admin) a.date).filter
            fun a => a.userId = some id).map fun award => award.value.getD 0).sum := by
    intro id _
    rw [List.filter_filter, List.filter_filter]
    rfl
  rw [List.map_congr_left hone, List.sum_map_add, sum_groups _ _ (memberIds_nodup db teamId),
    sum_groups _ _ (memberIds_nodup db teamId), List.filter_filter, List.filter_filter]
  rfl

/-- The members' scores, added up one by one in any order. -/
theorem checkedSum_members (admin : Bool) (teamId : Nat) (members : Scan db.users) (score : Int) :
    checkedSum ((memberIds members.rows teamId).map fun id => intPoints db (byUser db admin id)) =
        some score ↔
      score = intPoints db (byMembers db admin teamId) ∧
        ∀ front ∈ ((memberIds members.rows teamId).map fun id =>
          intPoints db (byUser db admin id)).inits, Fits front.sum := by
  have hperm : (memberIds members.rows teamId).Perm (memberIds db.users teamId) :=
    (members.perm.filter _).map _
  have htotal : wrap ((memberIds members.rows teamId).map fun id =>
      intPoints db (byUser db admin id)).sum = intPoints db (byMembers db admin teamId) := by
    unfold intPoints
    rw [wrap_sum_map, (hperm.map _).sum_eq, sum_members]
  rw [checkedSum_eq_some_iff]
  refine and_congr_left fun hfronts => ?_
  have hfits := hfronts _ ((List.mem_inits _ _).mpr List.prefix_rfl)
  rw [← htotal, wrap_of_fits hfits]

theorem placeIn_eq (scores : List (Nat × Int)) (id : Nat) :
    placeIn scores id =
      if id ∈ scores.map Prod.fst then
        some (((orderBy (fun x => -x.2) scores).map Prod.fst).idxOf id + 1)
      else none := by
  have hmem : id ∈ (orderBy (fun x : Nat × Int => -x.2) scores).map Prod.fst ↔
      id ∈ scores.map Prod.fst := ((orderBy_perm _ scores).map _).mem_iff
  have hfind := find?_zipIdx Prod.fst (orderBy (fun x : Nat × Int => -x.2) scores) id 0
  simp only [hmem] at hfind
  unfold placeIn
  simp only
  rw [List.find?_map, Option.map_map]
  split
  · rename_i hin
    rw [if_pos hin] at hfind
    have hplace := congrArg (Option.map (· + 1)) hfind
    simpa [Function.comp_def] using hplace
  · rename_i hout
    rw [if_neg hout] at hfind
    have hplace := congrArg (Option.map (· + 1)) hfind
    simpa [Function.comp_def] using hplace

/-! ### When they agree -/

theorem listed_iff (bracketId : Option Nat) (t : Account) :
    listed false bracketId t = true ↔ Visible t ∧ inBracket bracketId t = true := by
  unfold listed inBracket Visible
  rcases t.hidden with _ | _ | _ <;> rcases t.banned with _ | _ | _ <;> simp

section Agreement

variable (mode : AccountMode) (pick : Nat → Pick) (bracketId : Option Nat)
  {table rows rows' : List Account}

/-- The accounts in the order of their places. -/
def placed (rows : List Account) : List Account :=
  orderBy (fun t => -intPoints db (pick t.id)) (rows.filter (inBracket bracketId))

/-- The accounts in the order of the scoreboard. -/
def board (rows : List Account) : List Account :=
  orderBy (rankKey db mode false (shownScore db mode false) (shownDate db mode false))
    (rows.filter (listed false bracketId))

/-- What is placed first. -/
theorem before_placed (hrows : rows.Nodup) {t u : Account} (ht : t ∈ rows) (hu : u ∈ rows)
    (htb : inBracket bracketId t) (hub : inBracket bracketId u) (hne : t ≠ u) :
    Before (placed db pick bracketId rows) t u ↔
      intPoints db (pick u.id) < intPoints db (pick t.id) ∨
        intPoints db (pick u.id) = intPoints db (pick t.id) ∧ Before rows t u := by
  unfold placed
  rw [before_orderBy _ (hrows.filter _) (List.mem_filter.mpr ⟨ht, htb⟩)
    (List.mem_filter.mpr ⟨hu, hub⟩) hne, before_filter _ htb hub]
  simp only [Int.neg_lt_neg_iff, Int.neg_inj, eq_comm]

/-- Scores and places agree with the scoreboard exactly in the states of `Matches`. -/
theorem matches_iff (htable : (table.map Account.id).Nodup) (hrows : rows.Perm table)
    (hrows' : rows'.Perm table) :
    (∀ t ∈ table, Visible t → inBracket bracketId t →
      intPoints db (pick t.id) = shownScore db mode false t.id ∧
        (placed db pick bracketId rows).idxOf t = (board db mode bracketId rows').idxOf t) ↔
      Matches db mode pick bracketId table rows rows' := by
  have hnodup : rows.Nodup := hrows.nodup_iff.mpr htable.of_map
  have hnodup' : rows'.Nodup := hrows'.nodup_iff.mpr htable.of_map
  have hplaced : (placed db pick bracketId rows).Nodup :=
    (orderBy_perm ..).nodup_iff.mpr (hnodup.filter _)
  have hboard : (board db mode bracketId rows').Nodup :=
    (orderBy_perm ..).nodup_iff.mpr (hnodup'.filter _)
  have hmem : ∀ {t}, t ∈ board db mode bracketId rows' ↔
      t ∈ table ∧ Visible t ∧ inBracket bracketId t = true := by
    intro t
    rw [board, mem_orderBy, List.mem_filter, hrows'.mem_iff, listed_iff]
  have hmem' : ∀ {t}, t ∈ placed db pick bracketId rows ↔
      t ∈ table ∧ inBracket bracketId t = true := by
    intro t
    rw [placed, mem_orderBy, List.mem_filter, hrows.mem_iff]
  have hlisted := (idxOf_eq_iff_placed (l := placed db pick bracketId rows) hboard fun t ht =>
    hmem'.mpr ⟨(hmem.mp ht).1, (hmem.mp ht).2.2⟩).trans
      (prefix_iff_before hboard hplaced fun t ht => hmem'.mpr ⟨(hmem.mp ht).1, (hmem.mp ht).2.2⟩)
  have hplaces : (∀ t ∈ table, Visible t → inBracket bracketId t →
      (placed db pick bracketId rows).idxOf t = (board db mode bracketId rows').idxOf t) ↔
      ∀ t ∈ board db mode bracketId rows',
        (placed db pick bracketId rows).idxOf t = (board db mode bracketId rows').idxOf t := by
    constructor
    · intro h t ht
      obtain ⟨ht, hv, hb⟩ := hmem.mp ht
      exact h t ht hv hb
    · intro h t ht hv hb
      exact h t (hmem.mpr ⟨ht, hv, hb⟩)
  rw [hlisted] at hplaces
  -- two visible accounts on the scoreboard, with the scores agreeing
  have hsame : (∀ t ∈ table, Visible t → inBracket bracketId t →
      intPoints db (pick t.id) = intPoints db (onBoard db mode t.id)) →
      ∀ t ∈ table, Visible t → inBracket bracketId t → ∀ u ∈ table, Visible u →
        inBracket bracketId u → t ≠ u →
        ((Before (placed db pick bracketId rows) t u ↔ Before (board db mode bracketId rows') t u) ↔
          (intPoints db (onBoard db mode t.id) = intPoints db (onBoard db mode u.id) →
            (Before rows t u ↔ BeforeBy db mode false (shownDate db mode false) rows' t u))) := by
    intro hscores t ht htv htb u hu huv hub hne
    have hbefore := before_ranked db false mode (shownScore db mode false)
      (shownDate db mode false) hnodup'
      (List.mem_filter.mpr ⟨hrows'.mem_iff.mpr ht, (listed_iff bracketId t).mpr ⟨htv, htb⟩⟩)
      (List.mem_filter.mpr ⟨hrows'.mem_iff.mpr hu, (listed_iff bracketId u).mpr ⟨huv, hub⟩⟩) hne
    rw [before_placed db pick bracketId hnodup (hrows.mem_iff.mpr ht) (hrows.mem_iff.mpr hu) htb hub
      hne, board, hbefore, hscores t ht htv htb, hscores u hu huv hub, shownScore_eq, shownScore_eq]
    rcases lt_trichotomy (intPoints db (onBoard db mode u.id))
      (intPoints db (onBoard db mode t.id)) with
      hlt | heq | hlt
    · simp [hlt, hlt.ne']
    · simp [heq]
    · simp [hlt.not_gt, hlt.ne, hlt.ne']
  constructor
  · intro h
    have hscores : ∀ t ∈ table, Visible t → inBracket bracketId t →
        intPoints db (pick t.id) = intPoints db (onBoard db mode t.id) := by
      intro t ht hv hb
      rw [(h t ht hv hb).1, shownScore_eq]
    obtain ⟨hothers, hties⟩ := hplaces.mp fun t ht hv hb => (h t ht hv hb).2
    constructor
    · intro t ht hv hb
      exact (intPoints_eq_iff db _ _).mp (hscores t ht hv hb)
    · intro t ht hv hb u hu huv hub
      have hne : t ≠ u := by
        rintro rfl
        exact huv hv
      have hbefore := hothers t (hmem.mpr ⟨ht, hv, hb⟩) u (hmem'.mpr ⟨hu, hub⟩)
        fun hub => huv (hmem.mp hub).2.1
      exact (before_placed db pick bracketId hnodup (hrows.mem_iff.mpr ht) (hrows.mem_iff.mpr hu)
        hb hub hne).mp hbefore
    · intro t ht hv hb u hu huv hub hne
      exact (hsame hscores t ht hv hb u hu huv hub hne).mp
        (hties t (hmem.mpr ⟨ht, hv, hb⟩) u (hmem.mpr ⟨hu, huv, hub⟩) hne)
  · intro h
    have hscores : ∀ t ∈ table, Visible t → inBracket bracketId t →
        intPoints db (pick t.id) = intPoints db (onBoard db mode t.id) := by
      intro t ht hv hb
      exact (intPoints_eq_iff db _ _).mpr (h.scores t ht hv hb)
    have hidx := hplaces.mpr ⟨fun t ht u hu hub => by
      obtain ⟨ht, hv, hb⟩ := hmem.mp ht
      obtain ⟨hu, hubr⟩ := hmem'.mp hu
      have huv : ¬ Visible u := fun huv => hub (hmem.mpr ⟨hu, huv, hubr⟩)
      have hne : t ≠ u := by
        rintro rfl
        exact huv hv
      exact (before_placed db pick bracketId hnodup (hrows.mem_iff.mpr ht) (hrows.mem_iff.mpr hu)
        hb hubr hne).mpr (h.others t ht hv hb u hu huv hubr), fun t ht u hu hne => by
      obtain ⟨ht, hv, hb⟩ := hmem.mp ht
      obtain ⟨hu, huv, hub⟩ := hmem.mp hu
      exact (hsame hscores t ht hv hb u hu huv hub hne).mpr
        (h.ties t ht hv hb u hu huv hub hne)⟩
    intro t ht hv hb
    constructor
    · rw [shownScore_eq]
      exact hscores t ht hv hb
    · exact hidx t ht hv hb

/-- The place that is found among the accounts' points. -/
theorem placeIn_points (hrows : (rows.map Account.id).Nodup) {t : Account} (ht : t ∈ rows)
    (hb : inBracket bracketId t) :
    placeIn ((rows.filter (inBracket bracketId)).map
      fun t => (t.id, intPoints db (pick t.id))) t.id =
      some ((placed db pick bracketId rows).idxOf t + 1) := by
  have hsorted : (orderBy (fun x : Nat × Int => -x.2) ((rows.filter (inBracket bracketId)).map
      fun t => (t.id, intPoints db (pick t.id)))).map Prod.fst =
      (placed db pick bracketId rows).map Account.id := by
    rw [orderBy_map, List.map_map]
    rfl
  have hin : t.id ∈ ((rows.filter (inBracket bracketId)).map
      fun t => (t.id, intPoints db (pick t.id))).map Prod.fst := by
    rw [List.map_map]
    exact List.mem_map.mpr ⟨t, List.mem_filter.mpr ⟨ht, hb⟩, rfl⟩
  rw [placeIn_eq, if_pos hin, hsorted, idxOf_map]
  intro u hu hid
  have hu : u ∈ rows := List.mem_of_mem_filter ((mem_orderBy _).mp hu)
  exact List.inj_on_of_nodup_map hrows hu ht hid

/-- What a list of standings shows of an account. -/
theorem agrees_iff (standings : List StandingDto) (htable : (table.map Account.id).Nodup)
    (hrows' : rows'.Perm table)
    (hstandings : standings.map (fun x => (x.accountId, x.score)) =
      (board db mode bracketId rows').map (scored (shownScore db mode false)))
    {t : Account} (ht : t ∈ board db mode bracketId rows') (score : Int) (place : Nat) :
    Agrees (some standings) t.id (some score) (some (some (place + 1))) ↔
      score = shownScore db mode false t.id ∧
        place = (board db mode bracketId rows').idxOf t := by
  have hboard : ∀ {u}, u ∈ board db mode bracketId rows' → u ∈ table := by
    intro u hu
    exact hrows'.mem_iff.mp (List.mem_of_mem_filter ((mem_orderBy _).mp hu))
  have hids : standings.map StandingDto.accountId =
      (board db mode bracketId rows').map Account.id := by
    have h := congrArg (List.map Prod.fst) hstandings
    simpa [List.map_map, Function.comp_def, scored] using h
  have hidx : (standings.map StandingDto.accountId).idxOf t.id =
      (board db mode bracketId rows').idxOf t := by
    rw [hids, idxOf_map]
    intro u hu hid
    exact List.inj_on_of_nodup_map htable (hboard hu) (hboard ht) hid
  have hscore : (standings.find? fun x => x.accountId = t.id).map StandingDto.score =
      some (shownScore db mode false t.id) := by
    have hkeys : (((board db mode bracketId rows').map (scored (shownScore db mode false))).map
        Prod.fst).Nodup := by
      have hperm : (board db mode bracketId rows').Perm (rows'.filter (listed false bracketId)) :=
        orderBy_perm ..
      have hnodup : ((rows'.filter (listed false bracketId)).map Account.id).Nodup :=
        ((hrows'.map _).nodup_iff.mpr htable).sublist (List.filter_sublist.map _)
      rw [List.map_map]
      exact (hperm.map Account.id).nodup_iff.mpr hnodup
    have hfind := find?_eq_of_unique hkeys (List.mem_map_of_mem ht) (k := t.id) rfl
    rw [← hstandings, List.find?_map] at hfind
    have h := congrArg (Option.map Prod.snd) hfind
    simpa [Option.map_map, Function.comp_def, scored] using h
  constructor
  · rintro ⟨list, hlist, hs, hp⟩
    obtain rfl := Option.some.inj hlist
    rw [hscore] at hs
    rw [hidx] at hp
    exact ⟨Option.some.inj hs, by simpa using hp⟩
  · rintro ⟨rfl, rfl⟩
    exact ⟨standings, rfl, by rw [hscore]; rfl, by rw [hidx]⟩

end Agreement

section TeamPlace

variable (teams : Scan db.teams) (members : Scan db.users) (admin : Bool) (bracketId : Option Nat)

/-- The users whose scores the places of the teams are made of. -/
theorem mem_allUserIds (id : Nat) :
    id ∈ ((teamsWithMembers db teams members bracketId).flatMap (·.2)).dedup ↔
      ∃ u ∈ db.teams, inBracket bracketId u = true ∧ id ∈ memberIds db.users u.id := by
  have hmembers : ∀ teamId, id ∈ memberIds members.rows teamId ↔ id ∈ memberIds db.users teamId :=
    fun teamId => ((members.perm.filter _).map _).mem_iff
  rw [List.mem_dedup, List.mem_flatMap]
  constructor
  · rintro ⟨team, hteam, hid⟩
    obtain ⟨u, hu, rfl⟩ := List.mem_map.mp hteam
    obtain ⟨hu, hub⟩ := List.mem_filter.mp hu
    exact ⟨u, teams.perm.mem_iff.mp hu, hub, (hmembers _).mp hid⟩
  · rintro ⟨u, hu, hub, hid⟩
    exact ⟨_, List.mem_map_of_mem (List.mem_filter.mpr ⟨teams.perm.mem_iff.mpr hu, hub⟩),
      (hmembers _).mpr hid⟩

/-- The scores that the teams are placed by. -/
theorem teamScores_eq_some_iff {solves awards : List (Nat × Int)}
    (hscores : ∀ id ∈ ((teamsWithMembers db teams members bracketId).flatMap (·.2)).dedup,
      scoreIn solves awards id = intPoints db (byUser db admin id))
    (scores : List (Nat × Int)) :
    (teamsWithMembers db teams members bracketId).mapM (teamScore solves awards) = some scores ↔
      (∀ u ∈ db.teams, inBracket bracketId u →
          ∀ front ∈ ((memberIds members.rows u.id).map fun id =>
            intPoints db (byUser db admin id)).inits, Fits front.sum) ∧
        scores = (teams.rows.filter (inBracket bracketId)).map fun u =>
          (u.id, intPoints db (byMembers db admin u.id)) := by
  have hone : ∀ u ∈ teams.rows.filter (inBracket bracketId), ∀ score,
      teamScore solves awards (u.id, memberIds members.rows u.id) = some score ↔
        score = (u.id, intPoints db (byMembers db admin u.id)) ∧
          ∀ front ∈ ((memberIds members.rows u.id).map fun id =>
            intPoints db (byUser db admin id)).inits, Fits front.sum := by
    intro u hu score
    have hmap : (memberIds members.rows u.id).map (scoreIn solves awards) =
        (memberIds members.rows u.id).map fun id => intPoints db (byUser db admin id) := by
      apply List.map_congr_left
      intro id hid
      exact hscores id (List.mem_dedup.mpr (List.mem_flatMap.mpr ⟨_, List.mem_map_of_mem hu, hid⟩))
    rw [teamScore, hmap, Option.map_eq_some_iff]
    simp only [checkedSum_members]
    constructor
    · rintro ⟨total, ⟨rfl, hfronts⟩, rfl⟩
      exact ⟨rfl, hfronts⟩
    · rintro ⟨rfl, hfronts⟩
      exact ⟨_, ⟨rfl, hfronts⟩, rfl⟩
  have hgives : ∀ info ∈ teamsWithMembers db teams members bracketId, ∀ score,
      teamScore solves awards info = some score →
        score = (info.1, intPoints db (byMembers db admin info.1)) := by
    intro info hinfo score hscore
    obtain ⟨u, hu, rfl⟩ := List.mem_map.mp hinfo
    exact ((hone u hu score).mp hscore).1
  rw [mapM_eq_some_iff_of hgives]
  apply and_congr
  · unfold teamsWithMembers
    rw [List.forall_mem_map]
    constructor
    · intro h u hu hub
      have hmem := List.mem_filter.mpr ⟨teams.perm.mem_iff.mpr hu, hub⟩
      obtain ⟨score, hscore⟩ := Option.isSome_iff_exists.mp (h u hmem)
      exact ((hone u hmem score).mp hscore).2
    · intro h u hu
      obtain ⟨hrow, hub⟩ := List.mem_filter.mp hu
      rw [(hone u hu _).mpr ⟨rfl, h u (teams.perm.mem_iff.mp hrow) hub⟩]
      rfl
  · unfold teamsWithMembers
    rw [List.map_map]
    rfl

theorem getTeamPlace_eq_some_iff {t : Account} (ht : t ∈ db.teams) (hb : inBracket bracketId t)
    (place : Option Nat) :
    getTeamPlace db teams members t.id admin bracketId = some place ↔
      ((∀ u ∈ db.teams, inBracket bracketId u → ∀ id ∈ memberIds db.users u.id,
            PointsFit db (byUser db admin id)) ∧
          ∀ u ∈ db.teams, inBracket bracketId u →
            ∀ front ∈ ((memberIds members.rows u.id).map fun id =>
              intPoints db (byUser db admin id)).inits, Fits front.sum) ∧
        place = some ((placed db (byMembers db admin) bracketId teams.rows).idxOf t + 1) := by
  have hcontains : ∀ u : Option Nat,
      u.any (· ∈ ((teamsWithMembers db teams members bracketId).flatMap (·.2)).dedup) = true ↔
        ∃ id ∈ ((teamsWithMembers db teams members bracketId).flatMap (·.2)).dedup,
          u = some id := by
    intro u
    cases u <;> simp
  have hread := dictionaries_isSome_iff db hcontains admin
  have husers : (∀ id ∈ ((teamsWithMembers db teams members bracketId).flatMap (·.2)).dedup,
      PointsFit db (byUser db admin id)) ↔
        ∀ u ∈ db.teams, inBracket bracketId u → ∀ id ∈ memberIds db.users u.id,
          PointsFit db (byUser db admin id) := by
    simp only [mem_allUserIds]
    constructor
    · intro h u hu hub id hid
      exact h id ⟨u, hu, hub, hid⟩
    · rintro h id ⟨u, hu, hub, hid⟩
      exact h u hu hub id hid
  have hplace := placeIn_points db (byMembers db admin) bracketId
    ((teams.perm.map _).nodup_iff.mpr db.teams_pk) (teams.perm.mem_iff.mpr ht) hb
  rw [← hplace, ← husers, ← hread]
  constructor
  · intro h
    obtain ⟨solves, hsolves, h⟩ := Option.bind_eq_some_iff.mp h
    obtain ⟨awards, hawards, h⟩ := Option.bind_eq_some_iff.mp h
    obtain ⟨scores, hscores, h⟩ := Option.bind_eq_some_iff.mp h
    obtain ⟨hfronts, rfl⟩ := (teamScores_eq_some_iff db teams members admin bracketId
      (fun id hid => scoreIn_eq db hcontains admin hsolves hawards hid) scores).mp hscores
    exact ⟨⟨⟨solves, awards, hsolves, hawards⟩, hfronts⟩, (Option.some.inj h).symm⟩
  · rintro ⟨⟨⟨solves, awards, hsolves, hawards⟩, hfronts⟩, rfl⟩
    exact Option.bind_eq_some_iff.mpr ⟨solves, hsolves, Option.bind_eq_some_iff.mpr
      ⟨awards, hawards, Option.bind_eq_some_iff.mpr
        ⟨_, (teamScores_eq_some_iff db teams members admin bracketId
          (fun id hid => scoreIn_eq db hcontains admin hsolves hawards hid) _).mpr
            ⟨hfronts, rfl⟩, rfl⟩⟩⟩

/-- Every visible team is told its score and place on the scoreboard exactly in the states of
`Matches`, if what is added up on the way is counted. -/
theorem teamsAgree_iff (teams' : Scan db.teams) :
    TeamsAgree db admin bracketId teams teams' members ↔
      (∀ t ∈ db.teams, Visible t → inBracket bracketId t →
          TeamCounted db admin bracketId members t) ∧
        Matches db .teams (byMembers db admin) bracketId db.teams teams.rows teams'.rows := by
  rw [← matches_iff db .teams (byMembers db admin) bracketId db.teams_pk teams.perm teams'.perm]
  rw [← forall₂_and]
  refine forall₂_congr fun t ht => ?_
  rw [← forall₂_and]
  refine forall₂_congr fun hv hb => ?_
  have hboard : t ∈ board db .teams bracketId teams'.rows := by
    rw [board, mem_orderBy, List.mem_filter, teams'.perm.mem_iff, listed_iff]
    exact ⟨ht, hv, hb⟩
  have hagrees := fun (list : List StandingDto) hlist => agrees_iff db .teams bracketId list
    db.teams_pk teams'.perm hlist hboard (intPoints db (byMembers db admin t.id))
      ((placed db (byMembers db admin) bracketId teams.rows).idxOf t)
  constructor
  · intro h
    obtain ⟨list, hlist, hscore, hplace⟩ := h
    obtain ⟨freeze, hfreeze, hstandings⟩ := Option.bind_eq_some_iff.mp hlist
    obtain ⟨rfl, hrange⟩ := (freezeUtc_eq_some_iff db freeze).mp hfreeze
    obtain ⟨hsums, hmap⟩ := standings_eq_some db .teams false bracketId hstandings
    obtain ⟨hfit, hscore⟩ := (getTeamScore_eq_some_iff db t.id admin _).mp hscore
    obtain ⟨⟨husers, htotals⟩, hplace⟩ := (getTeamPlace_eq_some_iff db teams members admin
      bracketId ht hb _).mp hplace
    refine ⟨⟨hrange, hsums, hfit, husers, htotals⟩, (hagrees list hmap).mp ?_⟩
    exact ⟨list, rfl, congrArg some hscore.symm, congrArg some hplace.symm⟩
  · rintro ⟨hcounted, hsame⟩
    obtain ⟨list, hstandings⟩ := standings_isSome db .teams false bracketId teams'.rows
      (fun t => t.bracketId.bind fun id =>
        (db.brackets.find? fun bracket => bracket.id = id).bind Bracket.name) hcounted.board
    have hmap := (standings_eq_some db .teams false bracketId hstandings).2
    have hlist : ((freezeUtc db).bind fun freeze =>
        getTeamStandings db teams' none bracketId false freeze) = some list := by
      rw [(freezeUtc_eq_some_iff db _).mpr ⟨rfl, hcounted.freeze⟩]
      exact hstandings
    rw [hlist, (getTeamScore_eq_some_iff db t.id admin _).mpr ⟨hcounted.score, rfl⟩,
      (getTeamPlace_eq_some_iff db teams members admin bracketId ht hb _).mpr
        ⟨⟨hcounted.users, hcounted.totals⟩, rfl⟩]
    exact (hagrees list hmap).mpr hsame

end TeamPlace

section UserPlace

variable (users users' : Scan db.users) (admin : Bool)

theorem getUserPlace_eq_some_iff {user : User} (huser : user ∈ db.users) (place : Option Nat) :
    getUserPlace db users user.id admin = some place ↔
      (∀ user ∈ db.users, PointsFit db (byUser db admin user.id)) ∧
        place = some ((placed db (byUser db admin) none (users.rows.map User.toAccount)).idxOf
          user.toAccount + 1) := by
  have hcontains : ∀ u : Option Nat, u.any (· ∈ users.rows.map fun user => user.id) = true ↔
      ∃ id ∈ users.rows.map (fun user => user.id), u = some id := by
    intro u
    cases u <;> simp
  have hread := dictionaries_isSome_iff db hcontains admin
  have husers : (∀ id ∈ users.rows.map (fun user => user.id), PointsFit db (byUser db admin id)) ↔
      ∀ user ∈ db.users, PointsFit db (byUser db admin user.id) := by
    simp only [List.forall_mem_map, users.perm.mem_iff]
  have hkeys : ((users.rows.map User.toAccount).map Account.id).Nodup := by
    rw [List.map_map]
    exact (users.perm.map _).nodup_iff.mpr db.users_pk
  have hplace := placeIn_points db (byUser db admin) none hkeys
    (List.mem_map_of_mem (users.perm.mem_iff.mpr huser)) rfl
  have hall : (users.rows.map User.toAccount).filter (inBracket none) =
      users.rows.map User.toAccount := List.filter_eq_self.mpr fun _ _ => rfl
  rw [hall, List.map_map] at hplace
  have hscores : ∀ {solves awards : List (Nat × Int)},
      solvesScores db (fun u => u.any (· ∈ users.rows.map fun user => user.id))
          (freezeOf db admin) = some solves →
      awardsScores db (fun u => u.any (· ∈ users.rows.map fun user => user.id))
          (freezeOf db admin) = some awards →
        placeIn ((users.rows.map fun user => user.id).map fun id =>
          (id, scoreIn solves awards id)) user.id =
            some ((placed db (byUser db admin) none (users.rows.map User.toAccount)).idxOf
              user.toAccount + 1) := by
    intro solves awards hsolves hawards
    rw [← hplace, List.map_map]
    refine congrArg (placeIn · user.id) (List.map_congr_left fun u hu => ?_)
    exact congrArg (Prod.mk u.id)
      (scoreIn_eq db hcontains admin hsolves hawards (List.mem_map_of_mem hu))
  rw [← husers, ← hread]
  constructor
  · intro h
    obtain ⟨solves, hsolves, h⟩ := Option.bind_eq_some_iff.mp h
    obtain ⟨awards, hawards, h⟩ := Option.bind_eq_some_iff.mp h
    exact ⟨⟨solves, awards, hsolves, hawards⟩,
      (Option.some.inj h).symm.trans (hscores hsolves hawards)⟩
  · rintro ⟨⟨solves, awards, hsolves, hawards⟩, rfl⟩
    exact Option.bind_eq_some_iff.mpr ⟨solves, hsolves, Option.bind_eq_some_iff.mpr
      ⟨awards, hawards, congrArg some (hscores hsolves hawards)⟩⟩

theorem getUsersScore_eq_some_iff {asked : List User} (hasked : ∀ u ∈ asked, u ∈ db.users)
    {user : User} (huser : user ∈ asked) (score : Int) :
    (getUsersScore db asked admin).map (fun scores => scoreOf scores user.id) = some score ↔
      (∀ u ∈ asked, PointsFit db (byUser db admin u.id)) ∧
        score = intPoints db (byUser db admin user.id) := by
  have hcontains : ∀ u : Option Nat,
      decide (u.getD 0 ∈ asked.map fun user => user.id) = true ↔
        ∃ id ∈ asked.map (fun user => user.id), u = some id := by
    intro u
    cases u with
    | none =>
      -- no user has the id that stands for NULL
      have hno : 0 ∉ asked.map fun user => user.id := by
        intro hmem
        obtain ⟨u, hu, hid⟩ := List.mem_map.mp hmem
        exact absurd hid (db.users_pos u (hasked u hu)).ne'
      simpa using hno
    | some id => simp
  have hread := dictionaries_isSome_iff db hcontains admin
  have husers : (∀ id ∈ asked.map (fun user => user.id), PointsFit db (byUser db admin id)) ↔
      ∀ u ∈ asked, PointsFit db (byUser db admin u.id) := List.forall_mem_map
  have hmem : user.id ∈ asked.map fun user => user.id := List.mem_map_of_mem huser
  have hscore : ∀ {solves awards : List (Nat × Int)},
      scoreOf ((asked.map fun user => user.id).map fun id => (id, scoreIn solves awards id))
        user.id = scoreIn solves awards user.id := by
    intro solves awards
    unfold scoreOf
    rw [List.find?_map]
    cases hfound : (asked.map fun user => user.id).find? ((fun entry : Nat × Int =>
        decide (entry.1 = user.id)) ∘ fun id => (id, scoreIn solves awards id)) with
    | none => simpa using List.find?_eq_none.mp hfound user.id hmem
    | some id =>
      obtain rfl : id = user.id := by simpa using List.find?_some hfound
      rfl
  rw [← husers, ← hread, Option.map_eq_some_iff]
  constructor
  · rintro ⟨scores, h, rfl⟩
    obtain ⟨solves, hsolves, h⟩ := Option.bind_eq_some_iff.mp h
    obtain ⟨awards, hawards, h⟩ := Option.bind_eq_some_iff.mp h
    obtain rfl := Option.some.inj h
    exact ⟨⟨solves, awards, hsolves, hawards⟩,
      hscore.trans (scoreIn_eq db hcontains admin hsolves hawards hmem)⟩
  · rintro ⟨⟨solves, awards, hsolves, hawards⟩, rfl⟩
    refine ⟨_, Option.bind_eq_some_iff.mpr ⟨solves, hsolves, Option.bind_eq_some_iff.mpr
      ⟨awards, hawards, rfl⟩⟩, ?_⟩
    exact hscore.trans (scoreIn_eq db hcontains admin hsolves hawards hmem)

/-- Every visible user is told the score and place of the scoreboard exactly in the states of
`Matches`, if what is added up on the way is counted. -/
theorem usersAgree_iff :
    UsersAgree db admin users users' ↔
      (∀ user ∈ db.users, Visible user.toAccount → UsersCounted db admin) ∧
        Matches db .users (byUser db admin) none (db.users.map User.toAccount)
          (users.rows.map User.toAccount) (users'.rows.map User.toAccount) := by
  have hkeys : ((db.users.map User.toAccount).map Account.id).Nodup := by
    rw [List.map_map]
    exact db.users_pk
  rw [← matches_iff db .users (byUser db admin) none hkeys (users.perm.map _) (users'.perm.map _),
    List.forall_mem_map, ← forall₂_and]
  refine forall₂_congr fun user huser => ?_
  have htrue : inBracket none user.toAccount = true := rfl
  rw [← forall_and]
  refine forall_congr' fun hv => ?_
  simp only [htrue, forall_const]
  have hboard : user.toAccount ∈ board db .users none (users'.rows.map User.toAccount) := by
    rw [board, mem_orderBy, List.mem_filter, listed_iff]
    exact ⟨List.mem_map_of_mem (users'.perm.mem_iff.mpr huser), hv, rfl⟩
  have hagrees := fun (list : List StandingDto) hlist => agrees_iff db .users none list hkeys
    (users'.perm.map _) hlist hboard (intPoints db (byUser db admin user.id))
      ((placed db (byUser db admin) none (users.rows.map User.toAccount)).idxOf user.toAccount)
  constructor
  · intro h
    obtain ⟨list, hlist, hscore, hplace⟩ := h [user] (by simpa using huser) List.mem_cons_self
    obtain ⟨freeze, hfreeze, hstandings⟩ := Option.bind_eq_some_iff.mp hlist
    obtain ⟨rfl, hrange⟩ := (freezeUtc_eq_some_iff db freeze).mp hfreeze
    obtain ⟨hsums, hmap⟩ := standings_eq_some db .users false none hstandings
    obtain ⟨-, hscore⟩ := (getUsersScore_eq_some_iff db admin (by simpa using huser)
      List.mem_cons_self _).mp hscore
    obtain ⟨hfit, hplace⟩ := (getUserPlace_eq_some_iff db users admin huser _).mp hplace
    refine ⟨⟨hrange, hsums, hfit⟩, (hagrees list hmap).mp ?_⟩
    exact ⟨list, rfl, congrArg some hscore.symm, congrArg some hplace.symm⟩
  · rintro ⟨hcounted, hsame⟩ asked hasked hmem
    obtain ⟨list, hstandings⟩ := standings_isSome db .users false none
      (users'.rows.map User.toAccount) (fun _ => none) hcounted.board
    have hmap := (standings_eq_some db .users false none hstandings).2
    have hlist : ((freezeUtc db).bind fun freeze =>
        getUserStandings db users' none none false freeze) = some list := by
      rw [(freezeUtc_eq_some_iff db _).mpr ⟨rfl, hcounted.freeze⟩]
      exact hstandings
    rw [hlist, (getUsersScore_eq_some_iff db admin hasked hmem _).mpr
        ⟨fun u hu => hcounted.users u (hasked u hu), rfl⟩,
      (getUserPlace_eq_some_iff db users admin huser _).mpr ⟨hcounted.users, rfl⟩]
    exact (hagrees list hmap).mpr hsame

end UserPlace

end Proof

/-- A team whose only member has solved a challenge and left. -/
def memberLeft : Db where
  teams := [{ id := 1 }]
  users := [{ id := 1 }]
  challenges := [⟨1, some 100⟩]
  submissions := [⟨1, some 5⟩]
  solves := [⟨1, some 1, some 1, some 1⟩]
  brackets_pk := unsetFlag.brackets_pk
  awards_pos := unsetFlag.awards_pos

end Fctf.Board
