import Fctf.Rewards.Aggregates
import Fctf.Rewards.Scope

/-!
What a compiled query returns of the rows of the database: the conditions of its filters on the
solves, on the ranked teams and on the rows of solves, in each of its three shapes.
-/

namespace Fctf.Rewards

open Query Ranking
open Aggregates (EnrichedSolve AggRow)

/-! ### Conditions on a row -/

/-- What a column has. -/
inductive Cell
  | null
  | bool (b : Bool)
  | int (n : Int)
  | text (s : String)
  /-- `UNIX_TIMESTAMP` of a date. -/
  | seconds (date : Int)
  deriving DecidableEq, Repr

/-- An id. -/
def idCell (id : Nat) : Cell := .int id

/-- A column that may be NULL. -/
def Cell.nullable {α : Type} (cell : α → Cell) (value : Option α) : Cell :=
  (value.map cell).getD .null

/-- What the query leaves to the database. -/
structure Dbms where
  /-- A column and a bound value. -/
  compare : Operator → Cell → Value → Bool
  /-- The place of a text in the order of the collation. -/
  place : String → Nat

def boundTo (params : List (String × Value)) (name : String) : Value :=
  (Dict.get params name).getD .null

section Condition

variable (dbms : Dbms) (params : List (String × Value)) (cell : String → Option Cell)

/-- A condition on the columns of a row, under their names. -/
def Condition.holds : Condition → Bool
  | .compare column operator param => (cell column.name).any fun x =>
      if operator = .isIn then (boundTo params param).items.any (dbms.compare .eq x)
      else dbms.compare operator x (boundTo params param)
  | .among column names => (cell column.name).any fun x =>
      names.any fun name => dbms.compare .eq x (boundTo params name)
  | .fullClearPass => cell "full_clear_pass" = some (.int 1)

/-- `t.bracket_id = :param`, if there is a filter by brackets. -/
def inBracket (bracketFilter : Option String) (team : Option Board.Account) : Bool :=
  bracketFilter.all fun param =>
    team.any fun t =>
      dbms.compare .eq (.nullable idCell t.bracketId) (boundTo params param)

end Condition

/-- The columns of `solves_enriched` that filters name. -/
def solveCell (sf : EnrichedSolve) : String → Option Cell
  | "category" => some (.nullable .text sf.category)
  | "solve_time" => some (.nullable .seconds sf.solveDate)
  | "is_first_blood" => some (if sf.solveDate.isSome then .bool sf.isFirstBlood else .null)
  | "hint_used" => some (.bool sf.hintUsed)
  | "team_id" => some (.nullable idCell sf.teamId)
  | "challenge_id" => some (.nullable idCell sf.challengeId)
  | _ => none

/-! ### The tables -/

section Tables

variable (dbms : Dbms) (params : List (String × Value)) (db : Aggregates.Db)

def filteredSolves (baseConditions : List Condition) : List EnrichedSolve :=
  (Aggregates.solvesEnriched db).filter fun sf =>
    baseConditions.all fun condition => condition.holds dbms params (solveCell sf)

def Value.isNull : Value → Bool
  | null => true
  | _ => false

/-- `:full_clear_category IS NOT NULL AND category = :full_clear_category` -/
def inCategory (fullClearCategory : Value) (category : Option String) : Bool :=
  !fullClearCategory.isNull && dbms.compare .eq (.nullable .text category) fullClearCategory

/-- `team_agg` with the columns of a category. -/
structure TeamColumns extends Aggregates.TeamAgg where
  categorySolvedCount : Nat
  categoryTotalCount : Nat
  categoryFullClearDate : Option Int
  deriving DecidableEq, Repr

variable (solves : List EnrichedSolve)

/-- The challenges of the category. `category_totals` has one row for all of them. -/
def categoryTotal (fullClearCategory : Value) : Nat :=
  (db.challenges.filter fun c => inCategory dbms fullClearCategory c.category).length

/-- The row of a group. -/
def columnsOf (fullClearCategory : Value) (id : Nat) (name : Option String)
    (wrongCount : Option Nat) (awardValue : Option Int) (group : List AggRow) : TeamColumns :=
  let solves := group.filterMap AggRow.solve
  let cleared := solves.filter fun sf => inCategory dbms fullClearCategory sf.category
  { entityId := id
    entityName := name
    solvedCount := solves.length
    totalScore := (solves.map fun sf => sf.challengeValue.getD 0).sum + awardValue.getD 0
    firstBloodCount := group.countP fun row => row.solve.any EnrichedSolve.isFirstBlood
    categoryClearCount := (solves.filterMap fun sf => sf.category).dedup.length
    perfectSolveCount := group.countP fun row => row.solve.isSome && row.wrongBefore.getD 0 = 0
    wrongCount := wrongCount.getD 0
    lastSolveDate := maxOf (solves.map fun sf => sf.solveDate)
    categorySolvedCount := (cleared.filterMap fun sf => sf.challengeId).dedup.length
    categoryTotalCount := categoryTotal dbms db fullClearCategory
    categoryFullClearDate := maxOf (cleared.map fun sf => sf.solveDate) }

def aggregatedTeams (bracketFilter : Option String) (fullClearCategory : Value) :
    List TeamColumns :=
  (groupBy (fun row : AggRow => (row.team.id, row.team.name, row.wrongCount, row.awardValue))
    ((Aggregates.joinedTeams db solves).filter fun row =>
      inBracket dbms params bracketFilter (some row.team))).map
    fun ((id, name, wrongCount, awardValue), group) =>
      columnsOf dbms db fullClearCategory id name wrongCount awardValue group

/-- `category_totals` -/
def challengeCounts : List (Option String × Nat) :=
  (groupBy Aggregates.Challenge.category db.challenges).map fun (category, group) =>
    (category, (group.map Aggregates.Challenge.id).dedup.length)

/-- A row of `team_category_completion`. -/
structure Completion where
  entityId : Nat
  entityName : Option String
  category : Option String
  solvedCount : Nat
  fullClearDate : Option Int
  totalChallenges : Nat
  deriving DecidableEq, Repr

def completions (bracketFilter : Option String) : List Completion :=
  let joined := join (fun (row : Board.Account × EnrichedSolve) ct => sqlEq ct.1 row.2.category)
    (join (fun t sf => sqlEq sf.teamId (some t.id)) db.teams solves) (challengeCounts db)
  ((groupBy (fun row => (row.1.1.id, row.1.1.name, row.1.2.category, row.2.2))
    (joined.filter fun row => inBracket dbms params bracketFilter (some row.1.1))).map
      fun ((id, name, category, total), group) =>
        { entityId := id
          entityName := name
          category := category
          solvedCount := (group.filterMap fun row => row.1.2.challengeId).dedup.length
          fullClearDate := maxOf (group.map fun row => row.1.2.solveDate)
          totalChallenges := total }).filter
    fun x => x.totalChallenges ≤ x.solvedCount

end Tables

/-! ### The shapes -/

/-- A row of `ranked`. -/
structure RankedTeam where
  columns : TeamColumns
  fullClearPass : Bool
  rank : Nat
  deriving DecidableEq, Repr

/-- The columns of `ranked` that filters name. -/
def RankedTeam.cell (row : RankedTeam) : String → Option Cell
  | "solved_count" => some (.int row.columns.solvedCount)
  | "wrong_count" => some (.int row.columns.wrongCount)
  | "total_score" => some (.int row.columns.totalScore)
  | "first_blood_count" => some (.int row.columns.firstBloodCount)
  | "category_clear_count" => some (.int row.columns.categoryClearCount)
  | "full_clear_pass" => some (.int (if row.fullClearPass then 1 else 0))
  | "rank" => some (.int row.rank)
  | _ => none

/-- A row of `solve_rows` with its team. -/
structure SolveRow where
  solve : EnrichedSolve
  entityName : Option String
  wrongBefore : Nat
  team : Option Board.Account
  deriving DecidableEq, Repr

/-- The column of `solve_rows` that filters of rows name. -/
def SolveRow.cell (row : SolveRow) : String → Option Cell
  | "wrong_before" => some (.int row.wrongBefore)
  | _ => none

/-- The value of a metric of solves. -/
def SolveRow.metric (row : SolveRow) : Metric → Nat
  | .firstBlood => if row.solve.isFirstBlood then 1 else 0
  | _ => row.wrongBefore

inductive ResultRow
  | team (row : RankedTeam)
  | firstClear (row : Completion)
  | solve (row : SolveRow)
  deriving DecidableEq, Repr

/-- The rows that `LIMIT` leaves. -/
def rowLimit : Value → Nat
  | .int n => n.toNat
  | _ => 0

section Shapes

variable (dbms : Dbms) (params : List (String × Value)) (db : Aggregates.Db)
  (names : Option Nat → Option String) (spec : QuerySpec) (c : Compiled)

/-- The order of the ranks. -/
def TeamColumns.before (a b : TeamColumns) : Bool :=
  if byFullClearDate spec.order c.fullClearCategory then
    toLex (nullsFirst a.categoryFullClearDate, a.entityId) <
      toLex (nullsFirst b.categoryFullClearDate, b.entityId)
  else a.rankOrder spec.metric < b.rankOrder spec.metric

def ranked (teams : List TeamColumns) : List RankedTeam :=
  teams.map fun ta =>
    { columns := ta
      fullClearPass := c.fullClearCategory.isNull ||
        0 < ta.categoryTotalCount && ta.categoryTotalCount ≤ ta.categorySolvedCount
      rank := teams.countP (fun other => other.before spec c ta) + 1 }

def teamRows : List RankedTeam :=
  let teams := aggregatedTeams dbms params db (filteredSolves dbms params db c.baseConditions)
    c.bracketFilter c.fullClearCategory
  let shown := (ranked spec c teams).filter fun row =>
    (c.rankConditions ++ c.aggConditions).all (fun condition =>
      condition.holds dbms params row.cell) && 0 < row.columns.metric spec.metric
  (orderBy (fun row => toLex (row.rank, row.columns.entityId)) shown).take (rowLimit spec.limit)

/-- The first to complete each category. -/
def firstClearRows : List Completion :=
  let completed := completions dbms params db
    (filteredSolves dbms params db c.baseConditions) c.bracketFilter
  let shown := completed.filter fun x => completed.countP (fun other =>
    other.category = x.category && toLex (nullsFirst other.fullClearDate, other.entityId) <
      toLex (nullsFirst x.fullClearDate, x.entityId)) + 1 = 1
  (orderBy (fun x => toLex (nullsFirst (x.category.map dbms.place), x.entityId)) shown).take
    (rowLimit spec.limit)

/-- `ORDER BY` of the rows of solves, whose names are those of their challenges. -/
def SolveRow.before (a b : SolveRow) : Bool :=
  match spec.order.field with
  | some .entityName =>
    nullsFirst (a.entityName.map dbms.place) < nullsFirst (b.entityName.map dbms.place)
  | some .metricValue => a.metric spec.metric < b.metric spec.metric
  | _ => a.solve.solveId < b.solve.solveId

def SolveRow.notAfter (a b : SolveRow) : Bool :=
  let before := fun x y : SolveRow =>
    if spec.order.direction = .asc then x.before dbms spec y else y.before dbms spec x
  before a b || !before b a && a.solve.solveId ≤ b.solve.solveId

def solveRowsOf : List SolveRow :=
  let rows := (leftJoin (fun row (t : Board.Account) => sqlEq (some t.id) row.1.teamId)
    (leftJoin (fun sf wb => sqlEq (some wb.1) (some sf.solveId))
      (filteredSolves dbms params db c.baseConditions) (Aggregates.wrongBefore db))
    db.teams).map fun ((sf, wb), t) =>
      { solve := sf
        entityName := names sf.challengeId
        wrongBefore := (wb.map Prod.snd).getD 0
        team := t : SolveRow }
  let shown := rows.filter fun row =>
    inBracket dbms params c.bracketFilter row.team &&
      (c.rankConditions ++ c.aggConditions).all fun condition =>
        condition.holds dbms params row.cell
  (shown.insertionSort fun a b => SolveRow.notAfter dbms spec a b = true).take
    (rowLimit spec.limit)

/-- The rows of `compiledSql`. -/
def evaluate : List ResultRow :=
  match spec.entity with
  | .team =>
    if c.firstClearEachCategory then
      (firstClearRows dbms params db spec c).map .firstClear
    else (teamRows dbms params db spec c).map .team
  | .solve => (solveRowsOf dbms params db names spec c).map .solve

/-- The rows of `execute_query`; none when the specification or its query is refused. -/
def executeQuery (intOfText : String → Option Int) (dialect : Dialect) :
    Option (List ResultRow) :=
  match compileQuery intOfText dialect spec,
    compileFilters intOfText spec.entity 0 spec.filters {} with
  | .ok q, .ok c =>
    if q.query.wellScoped schema && q.query.fits (operands q.params) then
      some (evaluate dbms q.params db names spec c)
    else none
  | _, _ => none

end Shapes

/-! ### The rows of teams -/

section Teams

open Aggregates (widen ofTeam)

variable (dbms : Dbms) (params : List (String × Value)) (db : Aggregates.Db)
  (solves : List EnrichedSolve) (bracketFilter : Option String) (fullClearCategory : Value)

/-- The row of a team. -/
def teamColumns (t : Board.Account) : TeamColumns :=
  columnsOf dbms db fullClearCategory t.id t.name
    (((Aggregates.wrongTeam db).find? fun wt => sqlEq wt.1 (some t.id)).map Prod.snd)
    (((Aggregates.teamAwards db).find? fun ta => sqlEq ta.1 (some t.id)).map Prod.snd)
    ((leftJoin ofTeam [t] solves).map (widen db))

/-- Every team of the bracket has one row. -/
theorem aggregatedTeams_eq :
    aggregatedTeams dbms params db solves bracketFilter fullClearCategory =
      (db.teams.filter fun t => inBracket dbms params bracketFilter (some t)).map
        (teamColumns dbms db solves fullClearCategory) := by
  have hshown : ((Aggregates.joinedTeams db solves).filter fun row =>
        inBracket dbms params bracketFilter (some row.team)) =
      (db.teams.filter fun t => inBracket dbms params bracketFilter (some t)).flatMap
        (Aggregates.teamBlock db solves) := by
    rw [Aggregates.joinedTeams_eq]
    refine filter_blocks (fun t row hrow => ?_) db.teams
    rw [Aggregates.team_of_mem_teamBlock hrow]
  have hteams := db.teams_pk.sublist ((List.filter_sublist
    (p := fun t => inBracket dbms params bracketFilter (some t))).map Board.Account.id)
  rw [aggregatedTeams, hshown, Aggregates.groupBy_teams hteams, List.map_map]
  rfl

/-- Without filters, the teams are those of the query that has none. -/
theorem aggregatedTeams_unfiltered :
    (aggregatedTeams dbms params db (Aggregates.solvesEnriched db) none .null).map
      TeamColumns.toTeamAgg = Aggregates.teamAgg db := by
  have hall : (db.teams.filter fun t => inBracket dbms params none (some t)) = db.teams :=
    List.filter_eq_self.mpr fun _ _ => rfl
  rw [aggregatedTeams_eq, hall, List.map_map, Aggregates.teamAgg_eq]
  rfl

variable {solves} (t : Board.Account)

theorem categorySolvedCount_teamColumns :
    (teamColumns dbms db solves fullClearCategory t).categorySolvedCount =
      (((solves.filter (ofTeam t)).filter fun sf =>
        inCategory dbms fullClearCategory sf.category).filterMap
          fun sf => sf.challengeId).dedup.length := by
  simp only [teamColumns, columnsOf, Aggregates.group_solves]

/-- What the columns of a team count that has no solves. -/
structure Unsolved (ta : TeamColumns) : Prop where
  solved : ta.solvedCount = 0
  firstBlood : ta.firstBloodCount = 0
  categories : ta.categoryClearCount = 0
  perfect : ta.perfectSolveCount = 0
  categorySolved : ta.categorySolvedCount = 0
  score : ta.totalScore = ((db.awardsOf t).map fun award => award.value.getD 0).sum
  wrong : ta.wrongCount =
    (db.submissions.filter fun s => s.teamId = some t.id ∧ s.type = .incorrect).length

variable {t} in
theorem unsolved_teamColumns (h : solves.filter (ofTeam t) = []) :
    Unsolved db t (teamColumns dbms db solves fullClearCategory t) := by
  have hgroup : ((leftJoin ofTeam [t] solves).map (widen db)).filterMap AggRow.solve = [] := by
    rw [Aggregates.group_solves, h]
  have hnone : ∀ row ∈ (leftJoin ofTeam [t] solves).map (widen db), row.solve = none :=
    List.filterMap_eq_nil_iff.mp hgroup
  constructor
  · simp only [teamColumns, columnsOf, hgroup, List.length_nil]
  · refine List.countP_eq_zero.mpr fun row hrow => ?_
    rw [hnone row hrow]
    exact Bool.false_ne_true
  · simp only [teamColumns, columnsOf, hgroup, List.filterMap_nil, List.dedup_nil, List.length_nil]
  · refine List.countP_eq_zero.mpr fun row hrow => ?_
    rw [hnone row hrow]
    exact Bool.false_ne_true
  · rw [categorySolvedCount_teamColumns, h]
    rfl
  · simp only [teamColumns, columnsOf, hgroup, List.map_nil, List.sum_nil, Int.zero_add]
    exact Aggregates.find?_teamAwards db t.id
  · exact Aggregates.find?_wrongTeam db t.id

end Teams

end Fctf.Rewards
