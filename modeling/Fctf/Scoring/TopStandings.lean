import Fctf.Scoring.Place

/-!
`GetTopStandings` of the contestants' `ScoreboardService`: the first accounts of the standings,
with what each of them has solved and been given over time.
-/

namespace Fctf.Board.ScoreboardService

open Query Ranking ScoreHelper Word

structure SolveEntryDTO where
  challengeId : Option Nat
  accountId : Option Nat
  teamId : Option Nat
  userId : Option Nat
  value : Option Int
  date : Option Int
  deriving DecidableEq, Repr

structure ScoreboardEntryDTO where
  id : Nat
  accountUrl : String
  name : Option String
  score : Int
  bracketId : Option Nat
  bracketName : Option String
  solves : List SolveEntryDTO
  deriving DecidableEq, Repr

section Service

variable (db : Db)

def modeName : AccountMode → String
  | .teams => "teams"
  | .users => "users"

def ofSolve (s : Solf) : SolveEntryDTO where
  challengeId := s.challengeId
  accountId := solveAccount db.userMode s
  teamId := s.teamId
  userId := s.userId
  value :=
    match db.challenges.find? fun challenge => some challenge.id = s.challengeId with
    | some challenge => challenge.value
    | none => some 0
  date := solveDate db s

def ofAward (a : Award) : SolveEntryDTO where
  challengeId := none
  accountId := awardAccount db.userMode a
  teamId := a.teamId
  userId := a.userId
  value := a.value
  date := a.date

/-- One turn of the loops that fill `solvesMapper`. -/
def addEntry (solvesMapper : Nat → Option (List SolveEntryDTO)) (entry : SolveEntryDTO) :
    Nat → Option (List SolveEntryDTO) :=
  match entry.accountId with
  | none => solvesMapper
  | some accId =>
    Function.update solvesMapper accId (some ((solvesMapper accId).getD [] ++ [entry]))

/-- `OrderBy(s => s.Date)`. -/
def byDate (entries : List SolveEntryDTO) : List SolveEntryDTO :=
  orderBy (fun entry => nullsFirst entry.date) entries

def getTopStandings (teams : Scan db.teams) (users : Scan db.users) (solves : Scan db.solves)
    (awards : Scan db.awards) (count : Nat) (bracketId : Option Nat) :
    Option (List ScoreboardEntryDTO) := do
  let standings ← getStandings db teams users (some count) bracketId false
  let freezeUtc ← freezeUtc db
  let accountIds := standings.map StandingDto.accountId
  let solvesQuery := solves.rows.filter fun s =>
    (solveAccount db.userMode s).any (· ∈ accountIds) &&
      notFrozen freezeUtc (solveDate db s)
  let awardsQuery := awards.rows.filter fun a =>
    (awardAccount db.userMode a).any (· ∈ accountIds) &&
      notFrozen freezeUtc a.date
  let solvesMapper := (solvesQuery.map (ofSolve db)).foldl addEntry fun _ => none
  let solvesMapper := (awardsQuery.map (ofAward db)).foldl addEntry solvesMapper
  let solvesMapper := fun id => (solvesMapper id).map byDate
  return standings.map fun team =>
    { id := team.accountId
      accountUrl := "/" ++ modeName db.userMode ++ "/" ++ toString team.accountId
      name := team.name
      score := team.score
      bracketId := team.bracketId
      bracketName := team.bracketName
      solves := (solvesMapper team.accountId).getD [] }

/-- The solves and awards that count for an account. -/
def history (account : Nat) : List SolveEntryDTO :=
  (db.solves.filter (onBoard db db.userMode account).solves).map (ofSolve db) ++
    (db.awards.filter (onBoard db db.userMode account).awards).map (ofAward db)

end Service

/-! ### The entries of an account -/

/-- The loops collect the entries of each account in their order. -/
theorem foldl_addEntry (entries : List SolveEntryDTO)
    (solvesMapper : Nat → Option (List SolveEntryDTO)) (account : Nat) :
    (entries.foldl addEntry solvesMapper account).getD [] =
      (solvesMapper account).getD [] ++
        entries.filter fun entry => entry.accountId = some account := by
  induction entries generalizing solvesMapper with
  | nil => simp
  | cons entry entries ih =>
    rw [List.foldl_cons, ih, List.filter_cons]
    unfold addEntry
    cases haccount : entry.accountId with
    | none => simp
    | some accId =>
      by_cases hsame : accId = account
      · subst hsame
        simp
      · simp [hsame, Function.update_of_ne (Ne.symm hsame)]

theorem getD_map_byDate (entries : Option (List SolveEntryDTO)) :
    (entries.map byDate).getD [] = byDate (entries.getD []) := by
  cases entries <;> rfl

section Adds

variable (db : Db)

theorem value_ofSolve (s : Solf) : (ofSolve db s).value.getD 0 = solveValue db s := by
  unfold ofSolve solveValue
  cases db.challenges.find? fun challenge => some challenge.id = s.challengeId <;> rfl

/-- What counts for an account adds up to its score on the board. -/
theorem sum_history (account : Nat) :
    ((history db account).map fun entry => entry.value.getD 0).sum =
      (ledger db db.userMode false account).score := by
  rw [ledger_score, history, List.map_append, List.sum_append, List.map_map, List.map_map]
  simp only [Function.comp_def, value_ofSolve]
  rfl

theorem standings_take (rows : List Account) (solveAccount : Solf → Option Nat)
    (awardAccount : Award → Option Nat) (bracketName : Account → Option String) (count : Nat)
    (bracketId : Option Nat) (freezeUtc : Option Int) :
    standings db rows solveAccount awardAccount bracketName (some count) bracketId false freezeUtc =
      (standings db rows solveAccount awardAccount bracketName none bracketId false freezeUtc).map
        (List.take count) := by
  unfold standings
  cases readScores (sumScores (frozen false freezeUtc (solveQuery db solveAccount))) with
  | none => rfl
  | some solvesByAccount =>
    cases readScores (sumScores (frozen false freezeUtc (awardQuery db awardAccount))) with
    | none => rfl
    | some awardsByAccount => rfl

theorem getStandings_take (teams : Scan db.teams) (users : Scan db.users) (count : Nat)
    (bracketId : Option Nat) : getStandings db teams users (some count) bracketId false =
      (getStandings db teams users none bracketId false).map (List.take count) := by
  unfold getStandings getTeamStandings getUserStandings
  cases freezeUtc db with
  | none => rfl
  | some freeze =>
    cases db.userMode with
    | teams => exact standings_take ..
    | users => exact standings_take ..

theorem getStandings_score {teams : Scan db.teams} {users : Scan db.users} {count : Nat}
    {bracketId : Option Nat} {list : List StandingDto}
    (hlist : getStandings db teams users (some count) bracketId false = some list)
    {x : StandingDto} (hx : x ∈ list) :
    x.score = wrap (ledger db db.userMode false x.accountId).score := by
  rw [getStandings_take] at hlist
  obtain ⟨all, hall, rfl⟩ := Option.map_eq_some_iff.mp hlist
  have hmap := congrArg (Option.map (List.map fun x => (x.accountId, x.score))) hall
  obtain ⟨-, -, hscores⟩ := (getStandings_eq_some_iff db false bracketId teams users _).mp hmap
  have hmem := List.mem_map_of_mem (f := fun x : StandingDto => (x.accountId, x.score))
    (List.mem_of_mem_take hx)
  rw [hscores] at hmem
  obtain ⟨t, -, ht⟩ := List.mem_map.mp hmem
  obtain ⟨hid, hscore⟩ := Prod.mk.inj ht
  rw [← hid, ← hscore]
  rfl

/-- What an entry of the answer tells about an account of the standings. -/
structure AddsUp (x : StandingDto) (entry : ScoreboardEntryDTO) : Prop where
  id : entry.id = x.accountId
  score : entry.score = x.score
  sorted : entry.solves.Pairwise fun a b => nullsFirst a.date ≤ nullsFirst b.date
  solves : entry.solves.Perm (history db entry.id)
  /-- As far as an `int` holds the total. -/
  total : wrap (entry.solves.map fun solve => solve.value.getD 0).sum = entry.score

/-- The entries that the queries and the loops find for a listed account. -/
theorem filter_entries {α : Type} {table : List α} (rows : Scan table) (account : α → Option Nat)
    (keep : α → Bool) (entry : α → SolveEntryDTO)
    (hentry : ∀ row, (entry row).accountId = account row)
    {accountIds : List Nat} {id : Nat} (hid : id ∈ accountIds) :
    (((rows.rows.filter fun row => (account row).any (· ∈ accountIds) && keep row).map entry).filter
        fun e => e.accountId = some id).Perm
      ((table.filter fun row => decide (account row = some id) && keep row).map entry) := by
  rw [List.filter_map, List.filter_filter]
  have hsame : ∀ row ∈ rows.rows,
      (((fun e : SolveEntryDTO => decide (e.accountId = some id)) ∘ entry) row &&
        ((account row).any (· ∈ accountIds) && keep row)) =
      (decide (account row = some id) && keep row) := by
    intro row _
    by_cases haccount : account row = some id
    · simp [hentry, haccount, hid]
    · simp [hentry, haccount]
  rw [List.filter_congr hsame]
  exact (rows.perm.filter _).map entry

/-- Every account that is shown comes with all that counts for it up to the freeze, in the order
in which it came, and it adds up to the score that is shown. -/
theorem top_standings_add_up (teams : Scan db.teams) (users : Scan db.users)
    (solves : Scan db.solves) (awards : Scan db.awards) (count : Nat) (bracketId : Option Nat) :
    Option.Rel (List.Forall₂ (AddsUp db)) (getStandings db teams users (some count) bracketId false)
      (getTopStandings db teams users solves awards count bracketId) := by
  unfold getTopStandings
  cases hlist : getStandings db teams users (some count) bracketId false with
  | none => exact .none
  | some list =>
    have hfreeze : freezeUtc db = some (freezeDate db) := by
      rw [getStandings_take] at hlist
      obtain ⟨all, hall, -⟩ := Option.map_eq_some_iff.mp hlist
      have hmap := congrArg (Option.map (List.map fun x => (x.accountId, x.score))) hall
      obtain ⟨hrange, -⟩ := (getStandings_eq_some_iff db false bracketId teams users _).mp hmap
      exact (freezeUtc_eq_some_iff db _).mpr ⟨rfl, hrange⟩
    rw [hfreeze]
    simp only [Option.bind_eq_bind, Option.bind_some, Option.pure_def]
    apply Option.Rel.some
    rw [List.forall₂_map_right_iff, List.forall₂_same]
    intro x hx
    have hid : x.accountId ∈ list.map StandingDto.accountId := List.mem_map_of_mem hx
    have hcounts : ∀ date, notFrozen (freezeDate db) date = counts db false date :=
      fun date => (Bool.false_or _).symm
    have hsolves := filter_entries solves (solveAccount db.userMode)
      (fun s => counts db false (solveDate db s)) (ofSolve db) (fun _ => rfl) hid
    have hawards := filter_entries awards (awardAccount db.userMode)
      (fun a => counts db false a.date) (ofAward db) (fun _ => rfl) hid
    have hperm := hsolves.append hawards
    simp only [hcounts]
    refine ⟨rfl, rfl, ?_, ?_, ?_⟩
    all_goals
      simp only [getD_map_byDate, foldl_addEntry, Option.getD_none, List.nil_append]
    · exact List.pairwise_insertionSort _ _
    · exact (orderBy_perm _ _).trans hperm
    · rw [getStandings_score db hlist hx, ← sum_history]
      exact congrArg wrap (((orderBy_perm _ _).trans hperm).map _).sum_eq

end Adds

end Fctf.Board.ScoreboardService
