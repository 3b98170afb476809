import Fctf.Rewards.Spec
import Fctf.Scoring.Place

/-!
The team query of the rewards without filters, over the rows of the database: each of its common
tables, the joins of `team_agg`, the ranking and the rows that are returned. Every row of the
database counts once, apart from first bloods that share a date.
-/

namespace Fctf.Aggregates

open Query Ranking

inductive SubmissionType
  | correct
  | incorrect
  | other (name : String)
  deriving DecidableEq, Repr

structure Challenge where
  id : Nat
  value : Option Int
  category : Option String
  deriving DecidableEq, Repr

structure Submission where
  id : Nat
  challengeId : Option Nat
  teamId : Option Nat
  type : SubmissionType
  date : Option Int
  deriving DecidableEq, Repr

structure Hint where
  id : Nat
  challengeId : Option Nat
  deriving DecidableEq, Repr

structure Unlock where
  teamId : Option Nat
  target : Option Nat
  type : Option String
  deriving DecidableEq, Repr

/-- The tables with their keys. A solve extends a correct submission, whose challenge and team it
repeats. -/
structure Db where
  freeze : Option Nat := none
  teams : List Board.Account := []
  brackets : List Board.Bracket := []
  challenges : List Challenge := []
  submissions : List Submission := []
  solves : List Board.Solf := []
  awards : List Board.Award := []
  hints : List Hint := []
  unlocks : List Unlock := []
  teams_pk : (teams.map Board.Account.id).Nodup := by decide
  brackets_pk : (brackets.map Board.Bracket.id).Nodup := by decide
  challenges_pk : (challenges.map Challenge.id).Nodup := by decide
  submissions_pk : (submissions.map Submission.id).Nodup := by decide
  solves_pk : (solves.map Board.Solf.id).Nodup := by decide
  solves_submission : ∀ solve ∈ solves, ∃ s ∈ submissions, s.id = solve.id ∧ s.type = .correct ∧
    s.challengeId = solve.challengeId ∧ s.teamId = solve.teamId := by decide
  solves_challenge : ∀ solve ∈ solves, ∃ c ∈ challenges, some c.id = solve.challengeId := by decide
  solves_pos : ∀ solve ∈ solves, 0 < solve.id := by decide
  awards_pos : ∀ award ∈ awards, 0 < award.id := by decide

/-- What the scoreboard reads of it, in team mode. -/
def Db.board (db : Db) : Board.Db where
  freeze := db.freeze
  teams := db.teams
  brackets := db.brackets
  challenges := db.challenges.map fun c => ⟨c.id, c.value⟩
  submissions := db.submissions.map fun s => ⟨s.id, s.date⟩
  solves := db.solves
  awards := db.awards
  teams_pk := db.teams_pk
  users_pk := Board.unsetFlag.users_pk
  users_pos := Board.unsetFlag.users_pos
  brackets_pk := db.brackets_pk
  challenges_pk := by simpa [Function.comp_def] using db.challenges_pk
  submissions_pk := by simpa [Function.comp_def] using db.submissions_pk
  solves_fk solve hsolve := by
    obtain ⟨s, hs, hid, -⟩ := db.solves_submission solve hsolve
    obtain ⟨c, hc, hchallenge⟩ := db.solves_challenge solve hsolve
    constructor
    · exact List.mem_map.mpr ⟨⟨s.id, s.date⟩, List.mem_map_of_mem hs, hid⟩
    · intro id hsome
      obtain rfl : c.id = id := Option.some.inj (hchallenge.trans hsome)
      exact List.mem_map.mpr ⟨⟨c.id, c.value⟩, List.mem_map_of_mem hc, rfl⟩
  solves_pos := db.solves_pos
  awards_pos := db.awards_pos

/-! ### The common tables -/

structure BaseSolve where
  solveId : Nat
  teamId : Option Nat
  challengeId : Option Nat
  solveDate : Option Int
  challengeValue : Option Int
  category : Option String
  deriving DecidableEq, Repr

structure EnrichedSolve extends BaseSolve where
  /-- NULL, when there is no date, counts as false. -/
  isFirstBlood : Bool
  hintUsed : Bool
  deriving DecidableEq, Repr

section Tables

variable (db : Db)

/-- The submissions that are solves. -/
def solved : List (Submission × Board.Solf) :=
  join (fun s sol => sol.id = s.id) db.submissions db.solves

def baseSolves : List BaseSolve :=
  ((join (fun row c => some c.id = row.1.challengeId) (solved db) db.challenges).filter
    fun row => row.1.1.type = .correct).map
    fun ((s, _), c) => ⟨s.id, s.teamId, s.challengeId, s.date, c.value, c.category⟩

/-- Each challenge with the date of its first solve. -/
def firstBloods : List (Option Nat × Option Int) :=
  (groupBy BaseSolve.challengeId (baseSolves db)).map fun (challengeId, group) =>
    (challengeId, minOf (group.map BaseSolve.solveDate))

/-- The teams and the challenges with a hint that they have unlocked. -/
def hintUsage : List (Option Nat × Option Nat) :=
  (groupBy (fun row => (row.1.teamId, row.2.challengeId))
    ((join (fun (u : Unlock) (h : Hint) => some h.id = u.target) db.unlocks db.hints).filter
      fun row => row.1.type = some "hints")).map Prod.fst

def solvesEnriched : List EnrichedSolve :=
  (leftJoin (fun row hu => sqlEq hu.2 row.1.challengeId && sqlEq hu.1 row.1.teamId)
    (leftJoin (fun b fb => sqlEq fb.1 b.challengeId) (baseSolves db) (firstBloods db))
    (hintUsage db)).map fun ((b, fb), hu) =>
      { b with isFirstBlood := sqlEq b.solveDate (fb.bind Prod.snd), hintUsed := hu.isSome }

def teamAwards : List (Option Nat × Int) :=
  (groupBy Board.Award.teamId (db.awards.filter fun award =>
    award.teamId.isSome && award.value.any (· ≠ 0))).map fun (teamId, group) =>
      (teamId, (group.map fun award => award.value.getD 0).sum)

def wrongTeam : List (Option Nat × Nat) :=
  (groupBy Submission.teamId (db.submissions.filter fun s => s.type = .incorrect)).map
    fun (teamId, group) => (teamId, group.length)

/-- `w` is an incorrect submission of the team to the challenge, and before `s`. -/
def wrongBeforeOn (s w : Submission) : Bool :=
  sqlEq w.challengeId s.challengeId && w.type = .incorrect &&
    s.date.any (fun date => Board.dateBefore date w.date) && sqlEq w.teamId s.teamId

def wrongBefore : List (Nat × Nat) :=
  (groupBy (fun row => row.1.1.id)
    (leftJoin (fun row w => wrongBeforeOn row.1 w) (solved db) db.submissions)).map
    fun (id, group) => (id, (group.filterMap Prod.snd).length)

/-! ### The teams -/

structure TeamAgg where
  entityId : Nat
  entityName : Option String
  solvedCount : Nat
  totalScore : Int
  firstBloodCount : Nat
  categoryClearCount : Nat
  perfectSolveCount : Nat
  wrongCount : Nat
  lastSolveDate : Option Int
  deriving DecidableEq, Repr

/-- A team with a solve, its incorrect submissions, those before the solve, and its awards. -/
abbrev AggRow :=
  (((Board.Account × Option EnrichedSolve) × Option (Option Nat × Nat)) × Option (Nat × Nat)) ×
    Option (Option Nat × Int)

namespace AggRow

variable (row : AggRow)

def team : Board.Account := row.1.1.1.1

def solve : Option EnrichedSolve := row.1.1.1.2

def wrongCount : Option Nat := row.1.1.2.map Prod.snd

def wrongBefore : Option Nat := row.1.2.map Prod.snd

def awardValue : Option Int := row.2.map Prod.snd

end AggRow

def aggRows : List AggRow :=
  leftJoin (fun row ta => sqlEq ta.1 (some row.1.1.1.id))
    (leftJoin (fun row wb => sqlEq (some wb.1) (row.1.2.map fun sf => sf.solveId))
      (leftJoin (fun row wt => sqlEq wt.1 (some row.1.id))
        (leftJoin (fun t sf => sqlEq sf.teamId (some t.id)) db.teams (solvesEnriched db))
        (wrongTeam db))
      (wrongBefore db))
    (teamAwards db)

def teamAgg : List TeamAgg :=
  (groupBy (fun row : AggRow => (row.team.id, row.team.name, row.wrongCount, row.awardValue))
    (aggRows db)).map fun ((id, name, wrongCount, awardValue), group) =>
      let solves := group.filterMap AggRow.solve
      { entityId := id
        entityName := name
        solvedCount := solves.length
        totalScore := (solves.map fun sf => sf.challengeValue.getD 0).sum + awardValue.getD 0
        firstBloodCount := group.countP fun row => row.solve.any EnrichedSolve.isFirstBlood
        categoryClearCount := (solves.filterMap fun sf => sf.category).dedup.length
        perfectSolveCount := group.countP fun row =>
          row.solve.isSome && row.wrongBefore.getD 0 = 0
        wrongCount := wrongCount.getD 0
        lastSolveDate := maxOf (solves.map fun sf => sf.solveDate) }

end Tables

/-! ### The rows of the result -/

open Rewards (Metric)

namespace TeamAgg

/-- The column of a metric. -/
def metric (ta : TeamAgg) : Metric → Int
  | .teamTotalScore => ta.totalScore
  | .teamSolvedCount => ta.solvedCount
  | .teamFirstBloodCount | .firstBlood => ta.firstBloodCount
  | .wrongSubmissionCount => ta.wrongCount
  | .teamCategoryClearCount => ta.categoryClearCount
  | .teamPerfectSolveCount => ta.perfectSolveCount

/-- The column that decides between teams with the same metric. -/
def tieBreak (ta : TeamAgg) : Metric → Int
  | .teamTotalScore => ta.solvedCount
  | _ => ta.totalScore

/-- What the rank is ordered by; MariaDB puts NULLs first. -/
def rankOrder (metric : Metric) (ta : TeamAgg) : Int ×ₗ (Int ×ₗ (WithBot Int ×ₗ Nat)) :=
  toLex (-ta.metric metric, toLex (-ta.tieBreak metric,
    toLex (nullsFirst ta.lastSolveDate, ta.entityId)))

end TeamAgg

structure TeamRow where
  entityId : Nat
  entityName : Option String
  metricValue : Int
  lastSolveDate : Option Int
  solvedCount : Nat
  rank : Nat
  deriving DecidableEq, Repr

/-- The rows for a metric of teams, which first bloods of single solves are not. -/
def teamQuery (db : Db) (metric : Metric) (limit : Nat) : Option (List TeamRow) :=
  if metric = .firstBlood then none
  else
    let ranked := (teamAgg db).map fun ta =>
      (ta, (teamAgg db).countP (fun other => other.rankOrder metric < ta.rankOrder metric) + 1)
    let shown := ranked.filter fun (ta, _) => 0 < ta.metric metric
    some (((orderBy (fun (ta, rank) => toLex (rank, ta.entityId)) shown).take limit).map
      fun (ta, rank) => ⟨ta.entityId, ta.entityName, ta.metric metric, ta.lastSolveDate,
        ta.solvedCount, rank⟩)

/-! ### What the columns are for -/

section Property

variable (db : Db) (team : Board.Account)

def Db.solvesOf : List Board.Solf := db.solves.filter fun solve => solve.teamId = some team.id

def Db.awardsOf : List Board.Award := db.awards.filter fun award => award.teamId = some team.id

/-- The team has submitted nothing incorrect to the challenge before it solved it. -/
def Perfect (solve : Board.Solf) : Prop :=
  ∀ w ∈ db.submissions, w.type = .incorrect → w.teamId = some team.id →
    w.challengeId = solve.challengeId →
      ∀ date ∈ Board.ScoreHelper.solveDate db.board solve, Board.dateBefore date w.date = false

instance decidablePerfect (solve : Board.Solf) : Decidable (Perfect db team solve) :=
  inferInstanceAs (Decidable (∀ w ∈ db.submissions, w.type = .incorrect → w.teamId = some team.id →
    w.challengeId = solve.challengeId →
      ∀ date ∈ Board.ScoreHelper.solveDate db.board solve, Board.dateBefore date w.date = false))

/-- The columns count each row of a team once. -/
structure Counts (ta : TeamAgg) : Prop where
  solved : ta.solvedCount = (db.solvesOf team).length
  score : ta.totalScore = ((db.solvesOf team).map (Board.ScoreHelper.solveValue db.board)).sum +
    ((db.awardsOf team).map fun award => award.value.getD 0).sum
  /-- The organisers' standings. -/
  standings : ∀ models : Board.Scan db.board.accounts, ∃ standings,
    Board.Scores.getStandings db.board models none none true = some standings ∧
      (team.id, ta.totalScore) ∈ standings.map fun x => (x.accountId, x.score)
  wrong : ta.wrongCount =
    (db.submissions.filter fun s => s.teamId = some team.id ∧ s.type = .incorrect).length
  perfect : ta.perfectSolveCount = ((db.solvesOf team).filter fun solve =>
    Perfect db team solve).length

/-- What the query returns counts each row once, and a challenge has one first blood at most. -/
structure CountedOnce : Prop where
  rows : ∀ metric limit, ∀ rows ∈ teamQuery db metric limit, ∀ row ∈ rows, ∃ team ∈ db.teams,
    ∃ ta, Counts db team ta ∧ row.entityId = team.id ∧ row.solvedCount = ta.solvedCount ∧
      row.metricValue = ta.metric metric
  firstBlood : ∀ sf ∈ solvesEnriched db, ∀ sf' ∈ solvesEnriched db,
    sf.challengeId = sf'.challengeId → sf.isFirstBlood = true → sf'.isFirstBlood = true →
      sf.solveId = sf'.solveId

/-- A solve is the first of its challenge, or one of several with the first date. -/
def IsFirst (solve : Board.Solf) : Prop :=
  ∃ date, Board.ScoreHelper.solveDate db.board solve = some date ∧
    ∀ other ∈ db.solves, other.challengeId = solve.challengeId →
      ∀ date' ∈ Board.ScoreHelper.solveDate db.board other, date ≤ date'

/-- No two solves of a challenge share the date of its first solve. -/
def NoTies : Prop :=
  ∀ solve ∈ db.solves, ∀ solve' ∈ db.solves, solve.challengeId = solve'.challengeId →
    IsFirst db solve → IsFirst db solve' → solve = solve'

end Property

section Proof

variable (db : Db)

/-! ### The solves -/

/-- The submission that a solve extends. -/
def submissionOf (solve : Board.Solf) : Submission :=
  (db.submissions.find? fun s => s.id = solve.id).getD
    ⟨solve.id, solve.challengeId, solve.teamId, .correct, none⟩

def challengeOf (solve : Board.Solf) : Challenge :=
  (db.challenges.find? fun c => some c.id = solve.challengeId).getD ⟨0, none, none⟩

variable {db} {solve : Board.Solf}

theorem find?_submissionOf (hsolve : solve ∈ db.solves) :
    db.submissions.find? (fun s => s.id = solve.id) = some (submissionOf db solve) := by
  obtain ⟨s, hs, hid, -⟩ := db.solves_submission solve hsolve
  rw [submissionOf, find?_eq_of_unique db.submissions_pk hs hid]
  rfl

theorem filter_submissions (hsolve : solve ∈ db.solves) :
    (db.submissions.filter fun s => solve.id = s.id) = [submissionOf db solve] := by
  have hfilter := filter_eq_toList (length_filter_le_one db.submissions_pk solve.id)
  rw [find?_submissionOf hsolve] at hfilter
  simpa [eq_comm] using hfilter

theorem submissionOf_spec (hsolve : solve ∈ db.solves) :
    (submissionOf db solve).id = solve.id ∧ (submissionOf db solve).type = .correct ∧
      (submissionOf db solve).challengeId = solve.challengeId ∧
      (submissionOf db solve).teamId = solve.teamId := by
  obtain ⟨s, hs, hid, hspec⟩ := db.solves_submission solve hsolve
  have hfound : submissionOf db solve = s := by
    rw [submissionOf, find?_eq_of_unique db.submissions_pk hs hid]
    rfl
  rw [hfound]
  exact ⟨hid, hspec⟩

theorem filter_challenges (hsolve : solve ∈ db.solves) :
    (db.challenges.filter fun c => some c.id = solve.challengeId) = [challengeOf db solve] := by
  obtain ⟨c, hc, hid⟩ := db.solves_challenge solve hsolve
  have hfilter := filter_eq_toList (length_filter_le_one db.challenges_pk c.id)
  have hfind := find?_eq_of_unique db.challenges_pk hc rfl
  rw [hfind] at hfilter
  simpa [challengeOf, ← hid, hfind] using hfilter

theorem solveDate_eq (hsolve : solve ∈ db.solves) :
    Board.ScoreHelper.solveDate db.board solve = (submissionOf db solve).date := by
  have hfind := find?_submissionOf hsolve
  simp only [Board.ScoreHelper.solveDate, Db.board, List.find?_map, Function.comp_def, hfind,
    Option.map_some, Option.bind_some]

theorem solveValue_eq (solve : Board.Solf) :
    Board.ScoreHelper.solveValue db.board solve = (challengeOf db solve).value.getD 0 := by
  simp only [Board.ScoreHelper.solveValue, Db.board, List.find?_map, Function.comp_def,
    challengeOf]
  cases db.challenges.find? fun c => some c.id = solve.challengeId <;> rfl

variable (db) in
/-- Every solve comes once, with its submission. -/
theorem solved_perm :
    (solved db).Perm (db.solves.map fun solve => (submissionOf db solve, solve)) := by
  have hone : join (fun (solve : Board.Solf) (s : Submission) => decide (solve.id = s.id))
      db.solves db.submissions = db.solves.map fun solve => (solve, submissionOf db solve) :=
    join_eq_map fun solve hsolve => filter_submissions hsolve
  have hswap := join_swap (fun (s : Submission) (solve : Board.Solf) => decide (solve.id = s.id))
    db.submissions db.solves
  rw [hone, List.map_map] at hswap
  exact hswap

variable (db) in
/-- The row of `base_solves` of a solve. -/
def baseOf (solve : Board.Solf) : BaseSolve :=
  ⟨solve.id, solve.teamId, solve.challengeId, (submissionOf db solve).date,
    (challengeOf db solve).value, (challengeOf db solve).category⟩

/-- `c.id = s.challenge_id` -/
def onChallenge (row : Submission × Board.Solf) (c : Challenge) : Bool :=
  some c.id = row.1.challengeId

/-- The columns of `base_solves` of a joined row. -/
def baseColumns (row : (Submission × Board.Solf) × Challenge) : BaseSolve :=
  ⟨row.1.1.id, row.1.1.teamId, row.1.1.challengeId, row.1.1.date, row.2.value, row.2.category⟩

variable (db) in
theorem baseSolves_perm : (baseSolves db).Perm (db.solves.map (baseOf db)) := by
  have hjoin :
      join onChallenge (db.solves.map fun solve => (submissionOf db solve, solve)) db.challenges =
      db.solves.map fun solve => ((submissionOf db solve, solve), challengeOf db solve) := by
    have hone : ∀ row ∈ db.solves.map fun solve => (submissionOf db solve, solve),
        db.challenges.filter (onChallenge row) = [challengeOf db row.2] := by
      intro row hrow
      obtain ⟨solve, hsolve, rfl⟩ := List.mem_map.mp hrow
      have hfilter := filter_challenges hsolve
      rw [← (submissionOf_spec hsolve).2.2.1] at hfilter
      exact hfilter
    rw [join_eq_map hone, List.map_map]
    rfl
  have hrows : (join onChallenge (solved db) db.challenges).Perm
      (db.solves.map fun solve => ((submissionOf db solve, solve), challengeOf db solve)) := by
    rw [← hjoin]
    exact (solved_perm db).flatMap_right _
  have hbase := (hrows.filter fun row => row.1.1.type = .correct).map baseColumns
  have hcorrect : ((db.solves.map fun solve =>
      ((submissionOf db solve, solve), challengeOf db solve)).filter
        fun row => row.1.1.type = .correct).map baseColumns = db.solves.map (baseOf db) := by
    rw [List.filter_eq_self.mpr, List.map_map]
    · apply List.map_congr_left
      intro solve hsolve
      obtain ⟨hid, -, hchallenge, hteam⟩ := submissionOf_spec hsolve
      simp only [Function.comp_apply, baseColumns, baseOf, hid, hchallenge, hteam]
    · intro row hrow
      obtain ⟨solve, hsolve, rfl⟩ := List.mem_map.mp hrow
      exact decide_eq_true (submissionOf_spec hsolve).2.1
  rw [hcorrect] at hbase
  exact hbase

/-! ### First bloods -/

variable (db) in
/-- The row of `solves_enriched`: the joins find one partner at most. -/
def enrich (b : BaseSolve) : EnrichedSolve :=
  { b with
    isFirstBlood := sqlEq b.solveDate
      (((firstBloods db).find? fun fb => sqlEq fb.1 b.challengeId).bind Prod.snd)
    hintUsed := ((hintUsage db).find? fun hu =>
      sqlEq hu.2 b.challengeId && sqlEq hu.1 b.teamId).isSome }

theorem firstBloods_keys_nodup : ((firstBloods db).map Prod.fst).Nodup := by
  rw [firstBloods, List.map_map]
  exact groupBy_keys_nodup BaseSolve.challengeId (baseSolves db)

theorem hintUsage_nodup : (hintUsage db).Nodup :=
  groupBy_keys_nodup _ _

variable (db) in
theorem solvesEnriched_eq : solvesEnriched db = (baseSolves db).map (enrich db) := by
  rw [solvesEnriched, leftJoin_eq_map, leftJoin_eq_map, List.map_map, List.map_map]
  · rfl
  · intro b _
    exact length_filter_sqlEq_le_one firstBloods_keys_nodup b.challengeId
  · rintro ⟨b, fb⟩ _
    cases hchallenge : b.challengeId with
    | none => simp
    | some c =>
      cases hteam : b.teamId with
      | none => simp
      | some t =>
        have hkeys : ((hintUsage db).map id).Nodup := by
          rw [List.map_id]
          exact hintUsage_nodup
        have hlength := length_filter_le_one hkeys (some t, some c)
        simpa [hchallenge, hteam, Prod.ext_iff, and_comm, Bool.and_comm] using hlength

theorem find?_firstBloods {b : BaseSolve} (hb : b ∈ baseSolves db) {c : Nat}
    (hchallenge : b.challengeId = some c) :
    (firstBloods db).find? (fun fb => sqlEq fb.1 b.challengeId) =
      some (some c, minOf (((baseSolves db).filter fun b => b.challengeId = some c).map
        BaseSolve.solveDate)) := by
  have hfind := find?_map_groupBy BaseSolve.challengeId (Prod.fst : Option Nat × Option Int → _)
    (fun g => (g.1, minOf (g.2.map BaseSolve.solveDate))) (fun _ => rfl) (baseSolves db) (some c)
  have hne : (baseSolves db).filter (fun b => b.challengeId = some c) ≠ [] :=
    List.ne_nil_of_mem (List.mem_filter.mpr ⟨hb, decide_eq_true hchallenge⟩)
  rw [if_neg hne] at hfind
  simp only [hchallenge, sqlEq_some]
  exact hfind

theorem mem_baseSolves {b : BaseSolve} :
    b ∈ baseSolves db ↔ ∃ solve ∈ db.solves, baseOf db solve = b := by
  rw [(baseSolves_perm db).mem_iff, List.mem_map]

/-- A solve counts as first blood when its date is the first of its challenge. -/
theorem isFirstBlood_iff (hsolve : solve ∈ db.solves) :
    (enrich db (baseOf db solve)).isFirstBlood = true ↔ IsFirst db solve := by
  obtain ⟨challenge, -, hid⟩ := db.solves_challenge solve hsolve
  have hchallenge : (baseOf db solve).challengeId = some challenge.id := hid.symm
  have hmem : baseOf db solve ∈ baseSolves db := mem_baseSolves.mpr ⟨solve, hsolve, rfl⟩
  have hdates : ∀ date, some date ∈ ((baseSolves db).filter fun b =>
      b.challengeId = some challenge.id).map BaseSolve.solveDate ↔
      ∃ other ∈ db.solves, other.challengeId = solve.challengeId ∧
        Board.ScoreHelper.solveDate db.board other = some date := by
    intro date
    constructor
    · intro hdate
      obtain ⟨b, hb, hdate⟩ := List.mem_map.mp hdate
      obtain ⟨hbase, hsame⟩ := List.mem_filter.mp hb
      obtain ⟨other, hother, rfl⟩ := mem_baseSolves.mp hbase
      refine ⟨other, hother, (of_decide_eq_true hsame).trans hid, ?_⟩
      rw [solveDate_eq hother]
      exact hdate
    · rintro ⟨other, hother, hsame, hdate⟩
      rw [solveDate_eq hother] at hdate
      refine List.mem_map.mpr ⟨baseOf db other, List.mem_filter.mpr ⟨?_, ?_⟩, hdate⟩
      · exact mem_baseSolves.mpr ⟨other, hother, rfl⟩
      · exact decide_eq_true (hsame.trans hid.symm)
  have hfirst : ∀ date, minOf (((baseSolves db).filter fun b =>
      b.challengeId = some challenge.id).map BaseSolve.solveDate) = some date ↔
      (∃ other ∈ db.solves, other.challengeId = solve.challengeId ∧
        Board.ScoreHelper.solveDate db.board other = some date) ∧
      ∀ other ∈ db.solves, other.challengeId = solve.challengeId →
        ∀ date' ∈ Board.ScoreHelper.solveDate db.board other, date ≤ date' := by
    intro date
    rw [minOf_eq_some, hdates]
    refine and_congr_right fun _ => ?_
    constructor
    · intro hle other hother hsame date' hdate'
      exact hle date' ((hdates date').mpr ⟨other, hother, hsame, hdate'⟩)
    · intro hle date' hdate'
      obtain ⟨other, hother, hsame, hdate'⟩ := (hdates date').mp hdate'
      exact hle other hother hsame date' hdate'
  have henriched : (enrich db (baseOf db solve)).isFirstBlood =
      sqlEq (Board.ScoreHelper.solveDate db.board solve) (minOf (((baseSolves db).filter fun b =>
        b.challengeId = some challenge.id).map BaseSolve.solveDate)) := by
    rw [solveDate_eq hsolve, enrich, find?_firstBloods hmem hchallenge]
    rfl
  rw [henriched]
  constructor
  · intro hsame
    obtain ⟨date, hdate, hmin⟩ := (Option.any_eq_true ..).mp hsame
    exact ⟨date, hdate, ((hfirst date).mp (of_decide_eq_true hmin)).2⟩
  · rintro ⟨date, hdate, hle⟩
    have hmin := (hfirst date).mpr ⟨⟨solve, hsolve, rfl, hdate⟩, hle⟩
    rw [hmin, hdate, sqlEq_some]
    exact decide_eq_true rfl

theorem mem_solvesEnriched {sf : EnrichedSolve} :
    sf ∈ solvesEnriched db ↔ ∃ solve ∈ db.solves, enrich db (baseOf db solve) = sf := by
  rw [solvesEnriched_eq, List.mem_map]
  constructor
  · rintro ⟨b, hb, rfl⟩
    obtain ⟨solve, hsolve, rfl⟩ := mem_baseSolves.mp hb
    exact ⟨solve, hsolve, rfl⟩
  · rintro ⟨solve, hsolve, rfl⟩
    exact ⟨baseOf db solve, mem_baseSolves.mpr ⟨solve, hsolve, rfl⟩, rfl⟩

variable (db) in
/-- A challenge has one first blood at most exactly when no solves tie for it. -/
theorem firstBlood_iff_noTies :
    (∀ sf ∈ solvesEnriched db, ∀ sf' ∈ solvesEnriched db, sf.challengeId = sf'.challengeId →
      sf.isFirstBlood = true → sf'.isFirstBlood = true → sf.solveId = sf'.solveId) ↔
      NoTies db := by
  constructor
  · intro h solve hsolve solve' hsolve' hsame hfirst hfirst'
    have hid : solve.id = solve'.id :=
      h _ (mem_solvesEnriched.mpr ⟨solve, hsolve, rfl⟩) _
        (mem_solvesEnriched.mpr ⟨solve', hsolve', rfl⟩) hsame ((isFirstBlood_iff hsolve).mpr hfirst)
        ((isFirstBlood_iff hsolve').mpr hfirst')
    exact List.inj_on_of_nodup_map db.solves_pk hsolve hsolve' hid
  · intro h sf hsf sf' hsf' hsame hfirst hfirst'
    obtain ⟨solve, hsolve, rfl⟩ := mem_solvesEnriched.mp hsf
    obtain ⟨solve', hsolve', rfl⟩ := mem_solvesEnriched.mp hsf'
    have heq : solve = solve' := h solve hsolve solve' hsolve' hsame
      ((isFirstBlood_iff hsolve).mp hfirst) ((isFirstBlood_iff hsolve').mp hfirst')
    rw [heq]

/-! ### The tables that are joined to the teams -/

variable (db) in
theorem find?_wrongTeam (t : Nat) :
    (((wrongTeam db).find? fun wt => sqlEq wt.1 (some t)).map Prod.snd).getD 0 =
      (db.submissions.filter fun s => s.teamId = some t ∧ s.type = .incorrect).length := by
  have hfind := find?_map_groupBy Submission.teamId (Prod.fst : Option Nat × Nat → _)
    (fun g => (g.1, g.2.length)) (fun _ => rfl)
    (db.submissions.filter fun s => s.type = .incorrect) (some t)
  have hrows : ((db.submissions.filter fun s => s.type = .incorrect).filter
      fun s => s.teamId = some t) =
      db.submissions.filter fun s => s.teamId = some t ∧ s.type = .incorrect := by
    rw [List.filter_filter]
    simp only [Bool.decide_and]
  rw [hrows] at hfind
  simp only [sqlEq_some]
  refine (congrArg (fun wt => (wt.map Prod.snd).getD 0) hfind).trans ?_
  split
  · rename_i hempty
    rw [hempty]
    rfl
  · rfl

variable (db) in
theorem find?_teamAwards (t : Nat) :
    (((teamAwards db).find? fun ta => sqlEq ta.1 (some t)).map Prod.snd).getD 0 =
      ((db.awards.filter fun award => award.teamId = some t).map
        fun award => award.value.getD 0).sum := by
  have hfind := find?_map_groupBy Board.Award.teamId (Prod.fst : Option Nat × Int → _)
    (fun g => (g.1, (g.2.map fun award => award.value.getD 0).sum)) (fun _ => rfl)
    (db.awards.filter fun award => award.teamId.isSome && award.value.any (· ≠ 0)) (some t)
  have hsum : (((db.awards.filter fun award =>
      award.teamId.isSome && award.value.any (· ≠ 0)).filter
        fun award => award.teamId = some t).map fun award => award.value.getD 0).sum =
      ((db.awards.filter fun award => award.teamId = some t).map
        fun award => award.value.getD 0).sum := by
    rw [List.filter_filter, sum_filter, sum_filter]
    apply congrArg List.sum
    apply List.map_congr_left
    intro award _
    by_cases hteam : award.teamId = some t
    · cases hvalue : award.value with
      | none => simp [hteam]
      | some value =>
        by_cases hzero : value = 0
        · simp [hteam, hzero]
        · simp [hteam, hzero]
    · simp [hteam]
  simp only [sqlEq_some]
  refine (congrArg (fun ta => (ta.map Prod.snd).getD 0) hfind).trans ?_
  rw [← hsum]
  split
  · rename_i hempty
    rw [hempty]
    rfl
  · rfl

variable (db) in
theorem solved_ids : (((solved db).map fun row => row.1.id)).Nodup := by
  have hids : (db.solves.map fun solve => (submissionOf db solve).id) =
      db.solves.map Board.Solf.id :=
    List.map_congr_left fun solve hsolve => (submissionOf_spec hsolve).1
  have hperm := (solved_perm db).map fun row => row.1.id
  rw [List.map_map] at hperm
  rw [hperm.nodup_iff]
  exact hids ▸ db.solves_pk

variable (db) in
/-- The groups of `wrong_before` are the solves. -/
theorem wrongBefore_eq : wrongBefore db = (solved db).map fun row =>
    (row.1.id, (db.submissions.filter (wrongBeforeOn row.1)).length) := by
  rw [wrongBefore, leftJoin_eq_flatMap,
    groupBy_flatMap _ (solved_ids db) (fun row _ => leftJoin_ne_nil _ row _), List.map_map]
  · apply List.map_congr_left
    intro row _
    simp only [Function.comp_apply]
    rw [partners_leftJoin]
  · intro row _ r hr
    rw [fst_of_mem_leftJoin hr]

theorem wrongBefore_keys_nodup : ((wrongBefore db).map Prod.fst).Nodup := by
  rw [wrongBefore_eq, List.map_map]
  exact solved_ids db

theorem find?_wrongBefore (hsolve : solve ∈ db.solves) :
    (wrongBefore db).find? (fun wb => wb.1 = solve.id) = some (solve.id,
      (db.submissions.filter (wrongBeforeOn (submissionOf db solve))).length) := by
  have hrow : (solve.id, (db.submissions.filter (wrongBeforeOn (submissionOf db solve))).length) ∈
      wrongBefore db := by
    rw [wrongBefore_eq, List.mem_map]
    refine ⟨(submissionOf db solve, solve), ?_, ?_⟩
    · exact (solved_perm db).mem_iff.mpr (List.mem_map_of_mem hsolve)
    · rw [(submissionOf_spec hsolve).1]
  exact find?_eq_of_unique wrongBefore_keys_nodup hrow rfl

/-- No wrong submission is counted before a solve exactly when it is a perfect one. -/
theorem perfect_iff {team : Board.Account} (hsolve : solve ∈ db.solves)
    (hteam : solve.teamId = some team.id) :
    (db.submissions.filter (wrongBeforeOn (submissionOf db solve))).length = 0 ↔
      Perfect db team solve := by
  obtain ⟨-, -, hchallenge, hsubmission⟩ := submissionOf_spec hsolve
  obtain ⟨c, -, hid⟩ := db.solves_challenge solve hsolve
  rw [List.length_eq_zero_iff, List.filter_eq_nil_iff]
  unfold Perfect wrongBeforeOn
  rw [solveDate_eq hsolve, hchallenge, hsubmission, hteam, ← hid]
  cases (submissionOf db solve).date with
  | none => simp
  | some date => simp +contextual [imp.swap]

/-! ### The groups are the teams -/

/-- The solves that are joined to a team. -/
def ofTeam (t : Board.Account) (sf : EnrichedSolve) : Bool := sqlEq sf.teamId (some t.id)

variable (db) in
/-- A row with its partners from the tables that have one row for a team or for a solve. -/
def widen (row : Board.Account × Option EnrichedSolve) : AggRow :=
  (((row, (wrongTeam db).find? fun wt => sqlEq wt.1 (some row.1.id)),
      (wrongBefore db).find? fun wb => sqlEq (some wb.1) (row.2.map fun sf => sf.solveId)),
    (teamAwards db).find? fun ta => sqlEq ta.1 (some row.1.id))

variable (db) in
/-- The joins of `team_agg` over solves that may be some of them only. -/
def joinedTeams (solves : List EnrichedSolve) : List AggRow :=
  leftJoin (fun row ta => sqlEq ta.1 (some row.1.1.1.id))
    (leftJoin (fun row wb => sqlEq (some wb.1) (row.1.2.map fun sf => sf.solveId))
      (leftJoin (fun row wt => sqlEq wt.1 (some row.1.id))
        (leftJoin (fun t sf => sqlEq sf.teamId (some t.id)) db.teams solves)
        (wrongTeam db))
      (wrongBefore db))
    (teamAwards db)

variable (db) in
/-- The joined rows of a team. -/
def teamBlock (solves : List EnrichedSolve) (t : Board.Account) : List AggRow :=
  (leftJoin ofTeam [t] solves).map (widen db)

theorem team_of_mem_teamBlock {solves : List EnrichedSolve} {t : Board.Account} {row : AggRow}
    (h : row ∈ teamBlock db solves t) : row.team = t := by
  obtain ⟨r, hr, rfl⟩ := List.mem_map.mp h
  exact fst_of_mem_leftJoin hr

variable (db) in
theorem joinedTeams_eq (solves : List EnrichedSolve) :
    joinedTeams db solves = db.teams.flatMap (teamBlock db solves) := by
  have hteam : ∀ t : Board.Account, ((wrongTeam db).filter fun wt =>
      sqlEq wt.1 (some t.id)).length ≤ 1 := by
    intro t
    apply length_filter_sqlEq_le_one
    rw [wrongTeam, List.map_map]
    exact groupBy_keys_nodup Submission.teamId _
  have haward : ∀ t : Board.Account, ((teamAwards db).filter fun ta =>
      sqlEq ta.1 (some t.id)).length ≤ 1 := by
    intro t
    apply length_filter_sqlEq_le_one
    rw [teamAwards, List.map_map]
    exact groupBy_keys_nodup Board.Award.teamId _
  have hbefore : ∀ solveId : Option Nat, ((wrongBefore db).filter fun wb =>
      sqlEq (some wb.1) solveId).length ≤ 1 := by
    intro solveId
    apply length_filter_sqlEq_le_one
    have hkeys := wrongBefore_keys_nodup.map (Option.some_injective Nat)
      (l := (wrongBefore db).map Prod.fst)
    rwa [List.map_map] at hkeys
  rw [joinedTeams, leftJoin_eq_map fun row _ => haward row.1.1.1,
    leftJoin_eq_map fun row _ => hbefore (row.1.2.map fun sf => sf.solveId),
    leftJoin_eq_map fun row _ => hteam row.1, List.map_map, List.map_map, leftJoin_eq_flatMap,
    List.map_flatMap]
  rfl

variable (db) in
theorem aggRows_eq : aggRows db = db.teams.flatMap (teamBlock db (solvesEnriched db)) :=
  joinedTeams_eq db (solvesEnriched db)

variable (db) in
/-- The key of the group of a team. -/
def teamKey (t : Board.Account) : Nat × Option String × Option Nat × Option Int :=
  (t.id, t.name, ((wrongTeam db).find? fun wt => sqlEq wt.1 (some t.id)).map Prod.snd,
    ((teamAwards db).find? fun ta => sqlEq ta.1 (some t.id)).map Prod.snd)

/-- Each of some teams is a group of its own, with all its rows. -/
theorem groupBy_teams {teams : List Board.Account} (hteams : (teams.map Board.Account.id).Nodup)
    (solves : List EnrichedSolve) :
    groupBy (fun row : AggRow => (row.team.id, row.team.name, row.wrongCount, row.awardValue))
      (teams.flatMap (teamBlock db solves)) =
        teams.map fun t => (teamKey db t, teamBlock db solves t) := by
  have hkeys : (teams.map (teamKey db)).Nodup := by
    refine List.Nodup.of_map Prod.fst ?_
    rw [List.map_map]
    exact hteams
  have hblock : ∀ t ∈ teams, teamBlock db solves t ≠ [] := by
    intro t _
    rw [teamBlock, ne_eq, List.map_eq_nil_iff]
    exact leftJoin_ne_nil ofTeam t _
  have hkey : ∀ t ∈ teams, ∀ row ∈ teamBlock db solves t,
      (row.team.id, row.team.name, row.wrongCount, row.awardValue) = teamKey db t := by
    intro t _ row hrow
    obtain ⟨r, hr, rfl⟩ := List.mem_map.mp hrow
    obtain rfl := fst_of_mem_leftJoin hr
    rfl
  exact groupBy_flatMap _ hkeys hblock hkey

variable (db) in
/-- What is aggregated for a team. -/
def aggOf (t : Board.Account) : TeamAgg :=
  let group := (leftJoin ofTeam [t] (solvesEnriched db)).map (widen db)
  let solves := group.filterMap AggRow.solve
  let awardValue := ((teamAwards db).find? fun ta => sqlEq ta.1 (some t.id)).map Prod.snd
  let wrongCount := ((wrongTeam db).find? fun wt => sqlEq wt.1 (some t.id)).map Prod.snd
  { entityId := t.id
    entityName := t.name
    solvedCount := solves.length
    totalScore := (solves.map fun sf => sf.challengeValue.getD 0).sum + awardValue.getD 0
    firstBloodCount := group.countP fun row => row.solve.any EnrichedSolve.isFirstBlood
    categoryClearCount := (solves.filterMap fun sf => sf.category).dedup.length
    perfectSolveCount := group.countP fun row => row.solve.isSome && row.wrongBefore.getD 0 = 0
    wrongCount := wrongCount.getD 0
    lastSolveDate := maxOf (solves.map fun sf => sf.solveDate) }

variable (db) in
theorem teamAgg_eq : teamAgg db = db.teams.map (aggOf db) := by
  rw [teamAgg, aggRows_eq, groupBy_teams db.teams_pk, List.map_map]
  rfl

/-! ### What the aggregates count -/

section Counts

variable {t : Board.Account}

variable (db t) in
theorem group_solves (solves : List EnrichedSolve) :
    ((leftJoin ofTeam [t] solves).map (widen db)).filterMap AggRow.solve =
      solves.filter (ofTeam t) := by
  rw [List.filterMap_map]
  exact partners_leftJoin ofTeam t solves

variable (db t) in
/-- The solves of a group are those of the team. -/
theorem group_perm : ((solvesEnriched db).filter (ofTeam t)).Perm
    ((db.solvesOf t).map fun solve => enrich db (baseOf db solve)) := by
  have hperm := ((baseSolves_perm db).map (enrich db)).filter (ofTeam t)
  rw [← solvesEnriched_eq, List.map_map, List.filter_map] at hperm
  have hteam : (ofTeam t ∘ enrich db ∘ baseOf db) = fun solve : Board.Solf =>
      decide (solve.teamId = some t.id) := by
    funext solve
    exact sqlEq_some solve.teamId t.id
  rw [hteam] at hperm
  exact hperm

theorem mem_solvesOf : solve ∈ db.solvesOf t ↔ solve ∈ db.solves ∧ solve.teamId = some t.id := by
  simp [Db.solvesOf]

variable (db t) in
theorem solvedCount_aggOf : (aggOf db t).solvedCount = (db.solvesOf t).length := by
  simp only [aggOf, group_solves, (group_perm db t).length_eq, List.length_map]

variable (db t) in
theorem totalScore_aggOf : (aggOf db t).totalScore =
    ((db.solvesOf t).map (Board.ScoreHelper.solveValue db.board)).sum +
      ((db.awardsOf t).map fun award => award.value.getD 0).sum := by
  have hsolves := ((group_perm db t).map fun sf => sf.challengeValue.getD 0).sum_eq
  have hvalues : (((db.solvesOf t).map fun solve => enrich db (baseOf db solve)).map
      fun sf => sf.challengeValue.getD 0) =
      (db.solvesOf t).map (Board.ScoreHelper.solveValue db.board) := by
    rw [List.map_map]
    apply List.map_congr_left
    intro solve _
    rw [solveValue_eq]
    rfl
  rw [hvalues] at hsolves
  simp only [aggOf, group_solves]
  rw [hsolves, find?_teamAwards db t.id]
  rfl

variable (db t) in
theorem wrongCount_aggOf : (aggOf db t).wrongCount =
    (db.submissions.filter fun s => s.teamId = some t.id ∧ s.type = .incorrect).length :=
  find?_wrongTeam db t.id

variable (db) in
/-- Whether a solve of a group is a perfect one. -/
def countsPerfect (sf : EnrichedSolve) : Bool :=
  (((wrongBefore db).find? fun wb => wb.1 = sf.solveId).map Prod.snd).getD 0 = 0

theorem countsPerfect_enrich (hsolve : solve ∈ db.solvesOf t) :
    countsPerfect db (enrich db (baseOf db solve)) = decide (Perfect db t solve) := by
  obtain ⟨hmem, hteam⟩ := mem_solvesOf.mp hsolve
  have hid : (enrich db (baseOf db solve)).solveId = solve.id := rfl
  rw [countsPerfect, hid, find?_wrongBefore hmem]
  exact decide_eq_decide.mpr (perfect_iff hmem hteam)

variable (db t) in
theorem perfectSolveCount_aggOf : (aggOf db t).perfectSolveCount =
    ((db.solvesOf t).filter fun solve => Perfect db t solve).length := by
  have hrow : ∀ row : Board.Account × Option EnrichedSolve,
      ((widen db row).solve.isSome && decide ((widen db row).wrongBefore.getD 0 = 0)) =
        (row.2.map (countsPerfect db)).getD false := by
    rintro ⟨team, _ | sf⟩
    · rfl
    · simp [widen, AggRow.solve, AggRow.wrongBefore, countsPerfect]
  calc
    (aggOf db t).perfectSolveCount =
        (leftJoin ofTeam [t] (solvesEnriched db)).countP
          fun row => (row.2.map (countsPerfect db)).getD false := by
      simp only [aggOf, List.countP_map, Function.comp_def, hrow]
    _ = ((solvesEnriched db).filter (ofTeam t)).countP (countsPerfect db) := by
      rw [← List.countP_filterMap, partners_leftJoin]
    _ = (db.solvesOf t).countP fun solve => countsPerfect db (enrich db (baseOf db solve)) := by
      rw [(group_perm db t).countP_eq, List.countP_map]
      rfl
    _ = (db.solvesOf t).countP fun solve => Perfect db t solve := by
      apply List.countP_congr
      intro solve hsolve
      rw [countsPerfect_enrich hsolve]
    _ = ((db.solvesOf t).filter fun solve => Perfect db t solve).length :=
      List.countP_eq_length_filter

/-- The organisers' standings have the same score. -/
theorem score_mem_standings (ht : t ∈ db.teams) (models : Board.Scan db.board.accounts) :
    ∃ standings, Board.Scores.getStandings db.board models none none true = some standings ∧
      (t.id, (aggOf db t).totalScore) ∈ standings.map fun x => (x.accountId, x.score) := by
  have hscore : (aggOf db t).totalScore = (Board.ledger db.board .teams true t.id).score := by
    rw [totalScore_aggOf, Board.ledger_score_eq]
    simp only [Board.points, Board.solvePoints, Board.awardPoints, Board.counts, Bool.true_or,
      Bool.and_true]
    rfl
  obtain ⟨standings, hstandings, hmap⟩ := Option.map_eq_some_iff.mp
    (Board.scores_getStandings db.board true none models fun hadmin => by cases hadmin)
  refine ⟨standings, hstandings, ?_⟩
  rw [hmap, List.mem_map, hscore]
  refine ⟨t, ?_, rfl⟩
  rw [(orderBy_perm _ _).mem_iff, List.mem_filter]
  exact ⟨models.perm.mem_iff.mpr ht, rfl⟩

theorem counts_aggOf (ht : t ∈ db.teams) : Counts db t (aggOf db t) where
  solved := solvedCount_aggOf db t
  score := totalScore_aggOf db t
  standings := score_mem_standings ht
  wrong := wrongCount_aggOf db t
  perfect := perfectSolveCount_aggOf db t

end Counts

/-- Every row that is returned is that of a team. -/
theorem row_of_teamQuery {metric : Rewards.Metric} {limit : Nat} {rows : List TeamRow}
    (hrows : rows ∈ teamQuery db metric limit) {row : TeamRow} (hrow : row ∈ rows) :
    ∃ t ∈ db.teams, row.entityId = t.id ∧ row.solvedCount = (aggOf db t).solvedCount ∧
      row.metricValue = (aggOf db t).metric metric := by
  unfold teamQuery at hrows
  split at hrows
  · cases hrows
  · obtain rfl := Option.some.inj hrows
    obtain ⟨⟨ta, rank⟩, hlimited, rfl⟩ := List.mem_map.mp hrow
    have hordered := List.mem_of_mem_take hlimited
    have hshown := (List.mem_filter.mp ((orderBy_perm _ _).mem_iff.mp hordered)).1
    obtain ⟨ta', hmem, heq⟩ := List.mem_map.mp hshown
    obtain rfl : ta' = ta := congrArg Prod.fst heq
    rw [teamAgg_eq] at hmem
    obtain ⟨t, ht, rfl⟩ := List.mem_map.mp hmem
    exact ⟨t, ht, rfl, rfl, rfl⟩

end Proof

/-- The columns of a team always count each row once; a challenge has one first blood at most
exactly when no two of its solves share the first date. -/
theorem countedOnce_iff (db : Db) : CountedOnce db ↔ NoTies db := by
  constructor
  · intro h
    exact (firstBlood_iff_noTies db).mp h.firstBlood
  · intro h
    refine ⟨?_, (firstBlood_iff_noTies db).mpr h⟩
    intro metric limit rows hrows row hrow
    obtain ⟨t, ht, hentity, hsolved, hmetric⟩ := row_of_teamQuery hrows hrow
    exact ⟨t, ht, aggOf db t, counts_aggOf ht, hentity, hsolved, hmetric⟩

/-- Two teams solve a challenge at the same time. -/
def tied : Db where
  teams := [{ id := 1 }, { id := 2 }]
  challenges := [⟨1, some 100, none⟩]
  submissions := [⟨1, some 1, some 1, .correct, some 10⟩, ⟨2, some 1, some 2, .correct, some 10⟩]
  solves := [⟨1, some 1, some 1, some 1⟩, ⟨2, some 1, some 2, some 2⟩]
  brackets_pk := Board.unsetFlag.brackets_pk
  awards_pos := Board.unsetFlag.awards_pos

theorem tied_twoFirstBloods : ¬ ∀ db, CountedOnce db := by
  intro h
  have hdates : ∀ solve ∈ tied.solves,
      Board.ScoreHelper.solveDate tied.board solve = some 10 := by decide
  have hfirst : ∀ solve ∈ tied.solves, IsFirst tied solve := by
    intro solve hsolve
    refine ⟨10, hdates solve hsolve, fun other hother _ date' hdate' => ?_⟩
    rw [hdates other hother] at hdate'
    exact (Option.some.inj hdate').le
  have hsame := (firstBlood_iff_noTies tied).mp (h tied).firstBlood ⟨1, some 1, some 1, some 1⟩
    (by decide) ⟨2, some 1, some 2, some 2⟩ (by decide) rfl (hfirst _ (by decide))
    (hfirst _ (by decide))
  exact absurd hsame (by decide)

end Fctf.Aggregates
