import Fctf.Lib.Query
import Fctf.Lib.Ranking
import Fctf.Lib.Word
import Fctf.Scoring.Database
import Mathlib

/-!
`ScoreHelper`: the standings, the scores and the places of teams and users. Dates are counted in
microseconds. A query without `ORDER BY` returns a table in an order that the database chooses,
which the functions below take as an argument. The database adds up numbers of any size; a sum
that is no `int` makes the reader throw, and what the backend adds to it wraps around. Of the
functions below, `none` is an exception.
-/

namespace Fctf.Board

open Query Ranking Word

/-- The columns that teams and users have in common. -/
structure Account where
  id : Nat
  oauthId : Option Nat := none
  name : Option String := none
  bracketId : Option Nat := none
  hidden : Option Bool := some false
  banned : Option Bool := some false
  deriving DecidableEq, Repr

structure User extends Account where
  teamId : Option Nat := none
  deriving DecidableEq, Repr

structure Bracket where
  id : Nat
  name : Option String
  deriving DecidableEq, Repr

structure Challenge where
  id : Nat
  value : Option Int
  deriving DecidableEq, Repr

structure Submission where
  id : Nat
  date : Option Int
  deriving DecidableEq, Repr

/-- A row of `solves`, which extends the submission of the same id. -/
structure Solf where
  id : Nat
  challengeId : Option Nat
  userId : Option Nat
  teamId : Option Nat
  deriving DecidableEq, Repr

structure Award where
  id : Nat
  userId : Option Nat
  teamId : Option Nat
  value : Option Int
  date : Option Int
  deriving DecidableEq, Repr

/-- The tables with their keys. Ids that the database hands out start at 1; `freeze` is the
number of seconds that the configuration holds, if it holds one. -/
structure Db where
  userMode : AccountMode := .teams
  freeze : Option Nat := none
  teams : List Account := []
  users : List User := []
  brackets : List Bracket := []
  challenges : List Challenge := []
  submissions : List Submission := []
  solves : List Solf := []
  awards : List Award := []
  teams_pk : (teams.map Account.id).Nodup := by decide
  users_pk : (users.map fun user => user.id).Nodup := by decide
  users_pos : ∀ user ∈ users, 0 < user.id := by decide
  brackets_pk : (brackets.map Bracket.id).Nodup := by decide
  challenges_pk : (challenges.map Challenge.id).Nodup := by decide
  submissions_pk : (submissions.map Submission.id).Nodup := by decide
  solves_fk : ∀ solve ∈ solves, solve.id ∈ submissions.map Submission.id ∧
    ∀ id ∈ solve.challengeId, id ∈ challenges.map Challenge.id := by decide
  solves_pos : ∀ solve ∈ solves, 0 < solve.id := by decide
  awards_pos : ∀ award ∈ awards, 0 < award.id := by decide

/-- The rows of a table in the order in which a query returns them. -/
structure Scan {α : Type} (table : List α) where
  rows : List α
  perm : rows.Perm table

/-- The order in which the rows were inserted. -/
def Scan.inOrder {α : Type} (table : List α) : Scan table where
  rows := table
  perm := .refl _

/-- So many seconds after 1970. -/
def unixSeconds (seconds : Nat) : Int := seconds * 1000000

/-- The last second of the year 9999. -/
def maxSeconds : Nat := 253402300799

/-- `DateTimeOffset.FromUnixTimeSeconds`, which throws for what comes after the year 9999. -/
def fromUnixTimeSeconds (seconds : Nat) : Option Int :=
  if seconds ≤ maxSeconds then some (unixSeconds seconds) else none

/-- `date < freeze` in SQL, where a date that is missing is not before anything. -/
def dateBefore (freeze : Int) (date : Option Int) : Bool := date.any (· < freeze)

/-- What counts for an account: a scored row, or the sum of several. -/
structure ScoreRow (κ : Type) where
  account : κ
  score : Int
  lastId : Nat
  lastDate : Option Int
  deriving DecidableEq, Repr

/-- The aggregates of the rows of one account. -/
def aggregate {κ : Type} (account : κ) (rows : List (ScoreRow κ)) : ScoreRow κ where
  account := account
  score := (rows.map ScoreRow.score).sum
  lastId := (rows.map ScoreRow.lastId).max?.getD 0
  lastDate := maxOf (rows.map ScoreRow.lastDate)

/-- `SELECT account, SUM(score), MAX(id), MAX(date) ... GROUP BY account`. -/
def sumScores {κ : Type} [DecidableEq κ] (rows : List (ScoreRow κ)) : List (ScoreRow κ) :=
  (groupBy ScoreRow.account rows).map fun (account, group) => aggregate account group

namespace Db

variable (db : Db)

/-- The solves with their challenges and submissions. -/
def joinedSolves : List (Solf × Challenge × Submission) :=
  db.solves.flatMap fun solve =>
    (db.challenges.filter fun challenge => some challenge.id = solve.challengeId).flatMap
      fun challenge => (db.submissions.filter fun submission => submission.id = solve.id).map
        fun submission => (solve, challenge, submission)

end Db

namespace ScoreHelper

section Standings

variable (db : Db)

def solveQuery (account : Solf → Option Nat) : List (ScoreRow Nat) :=
  db.joinedSolves.filterMap fun (solve, challenge, submission) =>
    match account solve with
    | some accountId =>
      if challenge.value.getD 0 ≠ 0 then
        some ⟨accountId, challenge.value.getD 0, solve.id, submission.date⟩
      else none
    | none => none

def awardQuery (account : Award → Option Nat) : List (ScoreRow Nat) :=
  db.awards.filterMap fun award =>
    match account award with
    | some accountId =>
      if award.value.getD 0 ≠ 0 then
        some ⟨accountId, award.value.getD 0, award.id, award.date⟩
      else none
    | none => none

/-- `Where(x => x.Date < freezeUtc.Value)`, which the admin's view leaves out. -/
def frozen (admin : Bool) (freezeUtc : Option Int) (rows : List (ScoreRow Nat)) :
    List (ScoreRow Nat) :=
  match freezeUtc with
  | some freeze => if admin then rows else rows.filter fun row => dateBefore freeze row.lastDate
  | none => rows

/-- `ToListAsync` of sums, each of which is read as an `int`. -/
def readScores (rows : List (ScoreRow Nat)) : Option (List (ScoreRow Nat)) :=
  if ∀ row ∈ rows, Fits row.score then some rows else none

/-- `e.LastDate > a.LastDate ? e.LastDate : a.LastDate`: a comparison with null is false. -/
def later (e a : Option Int) : Option Int :=
  match e, a with
  | some x, some y => if x > y then some x else some y
  | _, a => a

/-- The dictionary of the account's score, filled by the solves and then by the awards. -/
def scoreMap (solvesByAccount awardsByAccount : List (ScoreRow Nat)) :
    Nat → Option (ScoreRow Nat) :=
  awardsByAccount.foldl (put ScoreRow.account fun a e =>
      match e with
      | some e => ⟨a.account, wrap (e.score + a.score), max e.lastId a.lastId,
          later e.lastDate a.lastDate⟩
      | none => a)
    (solvesByAccount.foldl (put ScoreRow.account fun s _ => s) fun _ => none)

structure StandingDto where
  accountId : Nat
  oauthId : Option Nat
  name : Option String
  bracketId : Option Nat
  bracketName : Option String
  score : Int
  lastId : Nat
  lastDate : Option Int
  hidden : Option Bool
  banned : Option Bool
  deriving DecidableEq, Repr

/-- `OrderByDescending(Score).ThenBy(LastDate).ThenBy(LastId)`; null is the least date. -/
def StandingDto.key (x : StandingDto) : Int ×ₗ (WithBot Int ×ₗ Nat) :=
  toLex (-x.score, toLex (nullsFirst x.lastDate, x.lastId))

/-- The filters on the table of the accounts. -/
def listed (admin : Bool) (bracketId : Option Nat) (account : Account) : Bool :=
  (admin || !(account.hidden.getD false) && !(account.banned.getD false)) &&
    bracketId.all fun id => account.bracketId = some id

/-- What the two standings have in common. -/
def standings (rows : List Account) (solveAccount : Solf → Option Nat)
    (awardAccount : Award → Option Nat) (bracketName : Account → Option String)
    (count bracketId : Option Nat) (admin : Bool) (freezeUtc : Option Int) :
    Option (List StandingDto) := do
  let solvesByAccount ← readScores (sumScores (frozen admin freezeUtc (solveQuery db solveAccount)))
  let awardsByAccount ← readScores (sumScores (frozen admin freezeUtc (awardQuery db awardAccount)))
  let scores := scoreMap solvesByAccount awardsByAccount
  let result := (rows.filter (listed admin bracketId)).map fun t =>
    let s := (scores t.id).getD ⟨t.id, 0, 0, none⟩
    { accountId := t.id, oauthId := t.oauthId, name := t.name, bracketId := t.bracketId,
      bracketName := bracketName t, score := s.score, lastId := s.lastId,
      lastDate := s.lastDate, hidden := t.hidden, banned := t.banned : StandingDto }
  let sorted := orderBy StandingDto.key result
  return match count with
  | some count => sorted.take count
  | none => sorted

def getTeamStandings (teams : Scan db.teams) (count bracketId : Option Nat) (admin : Bool)
    (freezeUtc : Option Int) : Option (List StandingDto) :=
  standings db teams.rows Solf.teamId Award.teamId
    (fun t => t.bracketId.bind fun id =>
      (db.brackets.find? fun bracket => bracket.id = id).bind Bracket.name)
    count bracketId admin freezeUtc

def getUserStandings (users : Scan db.users) (count bracketId : Option Nat) (admin : Bool)
    (freezeUtc : Option Int) : Option (List StandingDto) :=
  standings db (users.rows.map User.toAccount) Solf.userId Award.userId (fun _ => none)
    count bracketId admin freezeUtc

/-- The freeze that `GetStandings` hands on: `ToLong` is 0 when nothing is configured. -/
def freezeUtc : Option (Option Int) :=
  let freeze := db.freeze.getD 0
  if freeze > 0 then (fromUnixTimeSeconds freeze).map some else some none

def getStandings (teams : Scan db.teams) (users : Scan db.users) (count bracketId : Option Nat)
    (admin : Bool) : Option (List StandingDto) := do
  let freezeUtc ← freezeUtc db
  match db.userMode with
  | .teams => getTeamStandings db teams count bracketId admin freezeUtc
  | .users => getUserStandings db users count bracketId admin freezeUtc

end Standings

section Scores

variable (db : Db)

/-- The freeze as the functions below read it themselves, with `int.TryParse`. -/
def freezeOf (admin : Bool) : Option Int :=
  if admin then none
  else (db.freeze.filter (· < 2 ^ 31)).bind fromUnixTimeSeconds

/-- `s.Challenge.Value ?? 0`, with no challenge as well. -/
def solveValue (solve : Solf) : Int :=
  ((db.challenges.find? fun challenge => some challenge.id = solve.challengeId).bind
    Challenge.value).getD 0

/-- `s.IdNavigation.Date`. -/
def solveDate (solve : Solf) : Option Int :=
  (db.submissions.find? fun submission => submission.id = solve.id).bind Submission.date

/-- `!freeze.HasValue || date < freeze.Value`. -/
def notFrozen (freeze date : Option Int) : Bool :=
  freeze.all fun freeze => dateBefore freeze date

/-- The ids of a team's members among the rows of the users. -/
def memberIds (rows : List User) (teamId : Nat) : List Nat :=
  (rows.filter fun user => user.teamId = some teamId).map fun user => user.id

def getTeamScore (teamId : Nat) (admin : Bool) : Option Int :=
  let freeze := freezeOf db admin
  let teamMemberIds := memberIds db.users teamId
  if teamMemberIds.length = 0 then some 0
  else do
    let solvesScore ← checked ((db.solves.filter fun s => s.userId.any (· ∈ teamMemberIds) &&
      notFrozen freeze (solveDate db s)).map (solveValue db)).sum
    let awardsScore ← checked ((db.awards.filter fun a => a.userId.any (· ∈ teamMemberIds) &&
      notFrozen freeze a.date).map fun a => a.value.getD 0).sum
    return wrap (solvesScore + awardsScore)

/-- `ToDictionaryAsync` of the sums by user, each of which is read as an `int`. -/
def readDictionary (scores : List (Nat × Int)) : Option (List (Nat × Int)) :=
  if ∀ entry ∈ scores, Fits entry.2 then some scores else none

/-- `GroupBy(s => s.UserId)` with the sums, as a dictionary by user. -/
def solvesScores (contains : Option Nat → Bool) (freeze : Option Int) : Option (List (Nat × Int)) :=
  readDictionary ((groupBy (fun s : Solf => s.userId.getD 0) (db.solves.filter fun s =>
      contains s.userId && notFrozen freeze (solveDate db s))).map
    fun (userId, group) => (userId, (group.map (solveValue db)).sum))

def awardsScores (contains : Option Nat → Bool) (freeze : Option Int) : Option (List (Nat × Int)) :=
  readDictionary ((groupBy (fun a : Award => a.userId.getD 0) (db.awards.filter fun a =>
      contains a.userId && notFrozen freeze a.date)).map
    fun (userId, group) => (userId, (group.map fun a => a.value.getD 0).sum))

/-- What a dictionary has for a user, 0 when it has nothing. -/
def scoreOf (scores : List (Nat × Int)) (userId : Nat) : Int :=
  ((scores.find? fun entry => entry.1 = userId).map (·.2)).getD 0

/-- `solvesScores[id] + awardsScores[id]`, with 0 for what is missing. -/
def scoreIn (solvesScores awardsScores : List (Nat × Int)) (userId : Nat) : Int :=
  wrap (scoreOf solvesScores userId + scoreOf awardsScores userId)

/-- The score of each of the users that are asked for: `userIds.Contains(s.UserId ?? 0)`. -/
def getUsersScore (users : List User) (admin : Bool) : Option (List (Nat × Int)) := do
  let freeze := freezeOf db admin
  let userIds := users.map fun user => user.id
  let solvesScores ← solvesScores db (fun userId => userId.getD 0 ∈ userIds) freeze
  let awardsScores ← awardsScores db (fun userId => userId.getD 0 ∈ userIds) freeze
  return userIds.map fun id => (id, scoreIn solvesScores awardsScores id)

/-- `OrderByDescending(x => x.Score)` and the place of an id in it. -/
def placeIn (scores : List (Nat × Int)) (id : Nat) : Option Nat :=
  let standings := (orderBy (fun x => -x.2) scores).zipIdx.map fun (x, idx) => (x.1, idx + 1)
  (standings.find? fun x => x.1 = id).map (·.2)

def getUserPlace (users : Scan db.users) (userId : Nat) (admin : Bool) : Option (Option Nat) := do
  let freeze := freezeOf db admin
  let userIds := users.rows.map fun user => user.id
  let solvesScores ← solvesScores db (fun userId => userId.any (· ∈ userIds)) freeze
  let awardsScores ← awardsScores db (fun userId => userId.any (· ∈ userIds)) freeze
  return placeIn (userIds.map fun id => (id, scoreIn solvesScores awardsScores id)) userId

/-- The teams of the bracket, with their members in the order of the query. -/
def teamsWithMembers (teams : Scan db.teams) (users : Scan db.users) (bracketId : Option Nat) :
    List (Nat × List Nat) :=
  (teams.rows.filter fun t => bracketId.all fun id => t.bracketId = some id).map fun t =>
    (t.id, memberIds users.rows t.id)

/-- `teamInfo.MemberIds.Sum(...)`. -/
def teamScore (solvesScores awardsScores : List (Nat × Int)) (teamInfo : Nat × List Nat) :
    Option (Nat × Int) :=
  (checkedSum (teamInfo.2.map (scoreIn solvesScores awardsScores))).map fun score =>
    (teamInfo.1, score)

def getTeamPlace (teams : Scan db.teams) (users : Scan db.users) (teamId : Nat) (admin : Bool)
    (bracketId : Option Nat) : Option (Option Nat) := do
  let freeze := freezeOf db admin
  let teamsWithMembers := teamsWithMembers db teams users bracketId
  let allUserIds := (teamsWithMembers.flatMap (·.2)).dedup
  let solvesScores ← solvesScores db (fun userId => userId.any (· ∈ allUserIds)) freeze
  let awardsScores ← awardsScores db (fun userId => userId.any (· ∈ allUserIds)) freeze
  let teamScores ← teamsWithMembers.mapM (teamScore solvesScores awardsScores)
  return placeIn teamScores teamId

end Scores

end ScoreHelper

end Fctf.Board
