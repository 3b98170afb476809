import Fctf.Lib.Dict
import Fctf.Lib.Sql
import Fctf.Rewards.Spec

/-!
`compile_query`: a specification becomes a query and the values of its parameters.
-/

namespace Fctf.Rewards

open Sql (Column Expr Item Select Source)

/-! ### The schema -/

/-- The tables of the models that a query reads. -/
def schema : Sql.Schema :=
  [("submissions", ["id", "challenge_id", "user_id", "team_id", "ip", "provided", "type", "date"]),
    ("solves", ["id", "challenge_id", "user_id", "team_id"]),
    ("challenges", ["id", "name", "description", "connection_info", "next_id", "max_attempts",
      "value", "category", "type", "state", "requirements", "time_limit", "time_finished",
      "start_time", "user_id", "cooldown", "require_deploy", "deploy_status", "last_update",
      "image_link", "deploy_file", "cpu_limit", "cpu_request", "memory_limit", "memory_request",
      "use_gvisor", "harden_container", "max_deploy_count", "difficulty", "shared_instant",
      "connection_protocol"]),
    ("unlocks", ["id", "user_id", "team_id", "target", "date", "type"]),
    ("hints", ["id", "type", "challenge_id", "content", "cost", "requirements"]),
    ("awards", ["id", "user_id", "team_id", "type", "name", "description", "date", "value",
      "category", "icon", "requirements", "request_key", "request_hash"]),
    ("teams", ["id", "oauth_id", "name", "email", "password", "secret", "website", "affiliation",
      "country", "bracket_id", "hidden", "banned", "captain_id", "created"])]

def requireColumns (tableName : String) (columns : List String) : Except Fault Unit :=
  let existing := (schema.lookup tableName).getD []
  let missing := columns.filter fun col => !existing.contains col
  if missing = [] then .ok ()
  else .error (.querySpecError ("Schema mismatch: missing columns in " ++ tableName ++ ": " ++
    ", ".intercalate missing) none)

def assertSchema (entity : Entity) : Except Fault Unit := do
  requireColumns "submissions" ["id", "team_id", "user_id", "challenge_id", "date", "type"]
  requireColumns "solves" ["id"]
  requireColumns "challenges" ["id", "value", "category", "name"]
  requireColumns "unlocks" ["team_id", "user_id", "target", "type"]
  requireColumns "hints" ["id", "challenge_id"]
  requireColumns "awards" ["id", "team_id", "user_id", "value", "date"]
  if entity = .team then requireColumns "teams" ["id", "name"] else .ok ()

theorem assertSchema_ok (entity : Entity) : assertSchema entity = .ok () := by
  cases entity <;> rfl

/-! ### Filters -/

/-- A condition that a filter becomes. -/
inductive Condition
  | compare (column : Column) (operator : Operator) (param : String)
  | among (column : Column) (params : List String)
  | fullClearPass

def qualified (source name : String) : Column := ⟨some source, name⟩

def bare (name : String) : Column := ⟨none, name⟩

def Condition.expr : Condition → Expr
  | compare column .isIn param => .isInBound (.column column) param
  | compare column operator param => .binary operator.name (.column column) (.bound param)
  | among column params => .isIn (.column column) params
  | fullClearPass => .binary "=" (.column (bare "full_clear_pass")) (.constant "1")

/-- The variables of the loop over the filters. -/
structure Compiled where
  params : List (String × Value) := []
  baseConditions : List Condition := []
  aggConditions : List Condition := []
  rankConditions : List Condition := []
  bracketFilter : Option String := none
  fullClearCategory : Value := .null
  firstClearEachCategory : Bool := false

def paramKey (idx : Nat) : String := "param_" ++ Nat.repr idx

def itemKey (idx j : Nat) : String := paramKey idx ++ "_" ++ Nat.repr j

/-- `params[key] = value` -/
def Compiled.bind (c : Compiled) (key : String) (value : Value) : Compiled :=
  { c with params := c.params ++ [(key, value)] }

def Compiled.base (c : Compiled) (condition : Condition) : Compiled :=
  { c with baseConditions := c.baseConditions ++ [condition] }

def Compiled.agg (c : Compiled) (condition : Condition) : Compiled :=
  { c with aggConditions := c.aggConditions ++ [condition] }

/-- A filter of rows of solves, whose list has a parameter for each element. -/
def Compiled.amongItems (c : Compiled) (idx : Nat) (name : String) (values : List Value) :
    Compiled :=
  let items := values.mapIdx fun j v => (itemKey idx j, v)
  Compiled.base { c with params := c.params ++ items }
    (.among (qualified "sf" name) (items.map Prod.fst))

variable (intOfText : String → Option Int)

/-- `int(value)` -/
def asInt (value : Value) : Except Fault Value :=
  match value.toInt intOfText with
  | some n => .ok (.int n)
  | none => .error .other

variable (entity : Entity)

/-- One turn of the loop over the filters. -/
def compileFilter (idx : Nat) (f : FilterSpec) (c : Compiled) : Except Fault Compiled :=
  let key := paramKey idx
  let compared := fun name : String => Condition.compare (bare name) f.operator key
  match f.field with
  | .category =>
    if f.operator = .isIn then .ok (c.amongItems idx "category" f.value.items)
    else .ok ((c.bind key f.value).base (.compare (qualified "sf" "category") f.operator key))
  | .solveTime =>
    .ok ((c.bind key f.value).base (.compare (qualified "sf" "solve_time") f.operator key))
  | .firstBlood =>
    .ok ((c.bind key (.bool f.value.truth)).base
      (.compare (qualified "sf" "is_first_blood") .eq key))
  | .hintUsed =>
    .ok ((c.bind key (.bool f.value.truth)).base (.compare (qualified "sf" "hint_used") .eq key))
  | .solvedCount => .ok ((c.bind key f.value).agg (compared "solved_count"))
  | .wrongCount =>
    .ok ((c.bind key f.value).agg
      (compared (if entity = .solve then "wrong_before" else "wrong_count")))
  | .rank =>
    if entity = .team then
      .ok { c.bind key f.value with rankConditions := c.rankConditions ++ [compared "rank"] }
    else .error (.querySpecError "rank filter only supported for team entities" none)
  | .totalScore => .ok ((c.bind key f.value).agg (compared "total_score"))
  | .firstBloodCount => .ok ((c.bind key f.value).agg (compared "first_blood_count"))
  | .categoryClearCount => .ok ((c.bind key f.value).agg (compared "category_clear_count"))
  | .teamId => do
    let value ← asInt intOfText f.value
    .ok ((c.bind key value).base (.compare (qualified "sf" "team_id") .eq key))
  | .challengeId =>
    if f.operator = .isIn then do
      let values ← f.value.items.mapM (asInt intOfText)
      .ok (c.amongItems idx "challenge_id" values)
    else do
      let value ← asInt intOfText f.value
      .ok ((c.bind key value).base (.compare (qualified "sf" "challenge_id") f.operator key))
  | .bracketId => do
    let value ← asInt intOfText f.value
    .ok { c.bind key value with bracketFilter := some key }
  | .fullClearCategory =>
    .ok { (c.bind key f.value).agg .fullClearPass with fullClearCategory := f.value }
  | .firstClearEachCategory => .ok { c with firstClearEachCategory := f.value.truth }

/-- The loop over the filters, from an index on. -/
def compileFilters : Nat → List FilterSpec → Compiled → Except Fault Compiled
  | _, [], c => .ok c
  | idx, f :: filters, c => do
    let c ← compileFilter intOfText entity idx f c
    compileFilters (idx + 1) filters c

/-! ### The tables of `WITH` -/

def col (source name : String) : Expr := .column (qualified source name)

def equal (left right : Expr) : Expr := .binary "=" left right

def plain (source name : String) : Item := .expr (col source name) none

def labelled (e : Expr) (label : String) : Item := .expr e (some label)

def zeroExpr : Expr := .constant "0"

def oneExpr : Expr := .constant "1"

/-- `CASE WHEN condition THEN 1 ELSE 0 END` -/
def indicator (condition : Expr) : Expr :=
  .case (.whenThen condition oneExpr (.elseThen zeroExpr))

/-- The dialect of the database; `postgresql` stands for every other name as well. -/
inductive Dialect
  | mysql
  | mariadb
  | postgresql
  deriving DecidableEq

def solveTimeExpr : Dialect → Expr
  | .mysql | .mariadb => .call "UNIX_TIMESTAMP(" (col "s" "date")
  | .postgresql => .call "EXTRACT(EPOCH FROM" (col "s" "date")

def baseSolves (dialect : Dialect) : Select where
  items := [labelled (col "s" "id") "solve_id", plain "s" "team_id", plain "s" "user_id",
    plain "s" "challenge_id", labelled (col "s" "date") "solve_date",
    labelled (col "c" "value") "challenge_value", labelled (col "c" "category") "category",
    labelled (col "c" "name") "challenge_name", labelled (solveTimeExpr dialect) "solve_time"]
  source := ⟨"submissions", "s"⟩
  joins := [⟨false, ⟨"solves", "sol"⟩, [equal (col "sol" "id") (col "s" "id")]⟩,
    ⟨false, ⟨"challenges", "c"⟩, [equal (col "c" "id") (col "s" "challenge_id")]⟩]
  conditions := [equal (col "s" "type") (.constant "'correct'")]

def firstBloods : Select where
  items := [.expr (.column (bare "challenge_id")) none,
    labelled (.aggregate "MIN" false (.column (bare "solve_date"))) "first_blood_date"]
  source := { table := "base_solves" }
  groupBy := [bare "challenge_id"]

def hintUsage : Select where
  items := [plain "u" "team_id", plain "h" "challenge_id"]
  source := ⟨"unlocks", "u"⟩
  joins := [⟨false, ⟨"hints", "h"⟩, [equal (col "h" "id") (col "u" "target")]⟩]
  conditions := [equal (col "u" "type") (.constant "'hints'")]
  groupBy := [qualified "u" "team_id", qualified "h" "challenge_id"]

def solvesEnriched : Select where
  items := [.star (some "b"),
    labelled (.call "(" (equal (col "b" "solve_date") (col "fb" "first_blood_date")))
      "is_first_blood",
    labelled (.case (.whenThen (.isNull false (col "hu" "challenge_id")) (.constant "FALSE")
      (.elseThen (.constant "TRUE")))) "hint_used"]
  source := ⟨"base_solves", "b"⟩
  joins := [⟨true, ⟨"first_bloods", "fb"⟩,
      [equal (col "fb" "challenge_id") (col "b" "challenge_id")]⟩,
    ⟨true, ⟨"hint_usage", "hu"⟩, [equal (col "hu" "challenge_id") (col "b" "challenge_id"),
      equal (col "hu" "team_id") (col "b" "team_id")]⟩]

def solvesFiltered (baseConditions : List Condition) : Select where
  items := [.star none]
  source := ⟨"solves_enriched", "sf"⟩
  conditions := baseConditions.map Condition.expr

def categoryTotals : Select where
  items := [plain "c" "category",
    labelled (.aggregate "COUNT" true (col "c" "id")) "total_challenges"]
  source := ⟨"challenges", "c"⟩
  groupBy := [qualified "c" "category"]

def teamAwards : Select where
  items := [.expr (.column (bare "team_id")) none,
    labelled (.coalesce (.aggregate "SUM" false (.column (bare "value"))) zeroExpr) "award_value"]
  source := { table := "awards" }
  conditions := [.isNull true (.column (bare "team_id")),
    .binary "!=" (.column (bare "value")) zeroExpr]
  groupBy := [bare "team_id"]

def wrongTeam : Select where
  items := [.expr (.column (bare "team_id")) none, labelled .count "wrong_count"]
  source := { table := "submissions" }
  conditions := [equal (.column (bare "type")) (.constant "'incorrect'")]
  groupBy := [bare "team_id"]

def wrongBefore : Select where
  items := [labelled (col "s" "id") "solve_id",
    labelled (.aggregate "COUNT" false (col "w" "id")) "wrong_before"]
  source := ⟨"submissions", "s"⟩
  joins := [⟨false, ⟨"solves", "sol"⟩, [equal (col "sol" "id") (col "s" "id")]⟩,
    ⟨true, ⟨"submissions", "w"⟩, [equal (col "w" "challenge_id") (col "s" "challenge_id"),
      equal (col "w" "type") (.constant "'incorrect'"),
      .binary "<" (col "w" "date") (col "s" "date"),
      equal (col "w" "team_id") (col "s" "team_id")]⟩]
  groupBy := [qualified "s" "id"]

def baseCtes (dialect : Dialect) (baseConditions : List Condition) : List (String × Select) :=
  [("base_solves", baseSolves dialect), ("first_bloods", firstBloods),
    ("hint_usage", hintUsage), ("solves_enriched", solvesEnriched),
    ("solves_filtered", solvesFiltered baseConditions), ("category_totals", categoryTotals),
    ("team_awards", teamAwards), ("wrong_team", wrongTeam), ("wrong_before", wrongBefore)]

/-! ### The shapes of a query -/

def bracketCondition (bracketFilter : Option String) : List Expr :=
  bracketFilter.toList.map fun param => equal (col "t" "bracket_id") (.bound param)

def teamCategoryCompletion (bracketFilter : Option String) : Select where
  items := [labelled (col "t" "id") "entity_id", labelled (col "t" "name") "entity_name",
    labelled (col "sf" "category") "category",
    labelled (.aggregate "COUNT" true (col "sf" "challenge_id")) "solved_count",
    labelled (.aggregate "MAX" false (col "sf" "solve_date")) "full_clear_date",
    plain "ct" "total_challenges"]
  source := ⟨"teams", "t"⟩
  joins := [⟨false, ⟨"solves_filtered", "sf"⟩, [equal (col "sf" "team_id") (col "t" "id")]⟩,
    ⟨false, ⟨"category_totals", "ct"⟩, [equal (col "ct" "category") (col "sf" "category")]⟩]
  conditions := bracketCondition bracketFilter
  groupBy := [qualified "t" "id", qualified "t" "name", qualified "sf" "category",
    qualified "ct" "total_challenges"]
  having := [.binary ">=" (.aggregate "COUNT" true (col "sf" "challenge_id"))
    (col "ct" "total_challenges")]

def rankedCompletion : Select where
  items := [.star (some "tcc"),
    labelled (.rank [qualified "tcc" "category"]
      [(qualified "tcc" "full_clear_date", "ASC"), (qualified "tcc" "entity_id", "ASC")]) "rank"]
  source := ⟨"team_category_completion", "tcc"⟩

def firstClearBody : Select where
  items := [.expr (.column (bare "entity_id")) none, .expr (.column (bare "entity_name")) none,
    .expr (.column (bare "category")) none,
    labelled (.column (bare "solved_count")) "metric_value",
    labelled (.column (bare "full_clear_date")) "last_solve_date",
    .expr (.column (bare "rank")) none]
  source := { table := "ranked" }
  conditions := [equal (.column (bare "rank")) oneExpr]
  orderBy := [(bare "category", "ASC"), (bare "entity_id", "ASC")]
  limit := some "limit"

/-- What the team's solves of the category in question have in common. -/
def ofFullClearCategory (value : Expr) : Expr :=
  .case (.whenThen (.binary "AND" (.isNull true (.bound "full_clear_category"))
    (equal (col "sf" "category") (.bound "full_clear_category"))) value .noElse)

def teamAgg (bracketFilter : Option String) : Select where
  items := [labelled (col "t" "id") "entity_id", labelled (col "t" "name") "entity_name",
    labelled (.aggregate "COUNT" false (col "sf" "solve_id")) "solved_count",
    labelled (.aggregate "COUNT" true (ofFullClearCategory (col "sf" "challenge_id")))
      "category_solved_count",
    labelled (.coalesce (.lookUp (col "ct" "total_challenges") "category_totals" "ct"
      (equal (col "ct" "category") (.bound "full_clear_category"))) zeroExpr)
      "category_total_count",
    labelled (.aggregate "MAX" false (ofFullClearCategory (col "sf" "solve_date")))
      "category_full_clear_date",
    labelled (.binary "+"
      (.coalesce (.aggregate "SUM" false (col "sf" "challenge_value")) zeroExpr)
      (.coalesce (col "ta" "award_value") zeroExpr)) "total_score",
    labelled (.aggregate "MIN" false (col "sf" "solve_time")) "fastest_solve",
    labelled (.aggregate "AVG" false (col "sf" "solve_time")) "avg_solve_time",
    labelled (.coalesce (.aggregate "SUM" false (indicator (col "sf" "is_first_blood"))) zeroExpr)
      "first_blood_count",
    labelled (.aggregate "COUNT" true (col "sf" "category")) "category_clear_count",
    labelled (.coalesce (.aggregate "SUM" false (indicator (.binary "AND"
      (.isNull true (col "sf" "solve_id"))
      (equal (.coalesce (col "wb" "wrong_before") zeroExpr) zeroExpr)))) zeroExpr)
      "perfect_solve_count",
    labelled (.coalesce (col "wt" "wrong_count") zeroExpr) "wrong_count",
    labelled (.aggregate "MAX" false (col "sf" "solve_date")) "last_solve_date"]
  source := ⟨"teams", "t"⟩
  joins := [⟨true, ⟨"solves_filtered", "sf"⟩, [equal (col "sf" "team_id") (col "t" "id")]⟩,
    ⟨true, ⟨"wrong_team", "wt"⟩, [equal (col "wt" "team_id") (col "t" "id")]⟩,
    ⟨true, ⟨"wrong_before", "wb"⟩, [equal (col "wb" "solve_id") (col "sf" "solve_id")]⟩,
    ⟨true, ⟨"team_awards", "ta"⟩, [equal (col "ta" "team_id") (col "t" "id")]⟩]
  conditions := bracketCondition bracketFilter
  groupBy := [qualified "t" "id", qualified "t" "name", qualified "wt" "wrong_count",
    qualified "ta" "award_value"]

/-- The column of a metric of teams. -/
def teamMetric : Metric → String
  | .teamTotalScore => "total_score"
  | .teamSolvedCount => "solved_count"
  | .teamFirstBloodCount | .firstBlood => "first_blood_count"
  | .wrongSubmissionCount => "wrong_count"
  | .teamCategoryClearCount => "category_clear_count"
  | .teamPerfectSolveCount => "perfect_solve_count"

/-- The column that decides between teams with the same metric. -/
def tieBreak : Metric → String
  | .teamTotalScore => "solved_count"
  | _ => "total_score"

/-- The full clears of a category are ranked by their dates. -/
def byFullClearDate (order : Order) (fullClearCategory : Value) : Bool :=
  fullClearCategory.truth && order.field = some .lastSolveDate && order.direction = .asc

def rankOrderExpr (metric : Metric) (order : Order) (fullClearCategory : Value) :
    List (Column × String) :=
  if byFullClearDate order fullClearCategory then
    [(qualified "ta" "category_full_clear_date", "ASC"), (qualified "ta" "entity_id", "ASC")]
  else
    [(qualified "ta" (teamMetric metric), "DESC"), (qualified "ta" (tieBreak metric), "DESC"),
      (qualified "ta" "last_solve_date", "ASC"), (qualified "ta" "entity_id", "ASC")]

def rankedTeams (rankOrder : List (Column × String)) : Select where
  items := [.star (some "ta"),
    labelled (.case (.whenThen (.isNull false (.bound "full_clear_category")) oneExpr
      (.whenThen (.binary "AND" (.binary ">" (col "ta" "category_total_count") zeroExpr)
        (.binary ">=" (col "ta" "category_solved_count") (col "ta" "category_total_count")))
        oneExpr (.elseThen zeroExpr)))) "full_clear_pass",
    labelled (.rank [] rankOrder) "rank"]
  source := ⟨"team_agg", "ta"⟩

/-- The conditions on the rows of the result. -/
def finalConditions (metric : Metric) (c : Compiled) : List Expr :=
  (c.rankConditions ++ c.aggConditions).map Condition.expr ++
    if entity = .team then [.binary ">" (.column (bare (teamMetric metric))) zeroExpr] else []

def teamBody (metric : Metric) (c : Compiled) : Select where
  items := [.expr (.column (bare "entity_id")) none, .expr (.column (bare "entity_name")) none,
    labelled (.column (bare (teamMetric metric))) "metric_value",
    labelled (.coalesce (.column (bare "category_full_clear_date"))
      (.column (bare "last_solve_date"))) "last_solve_date",
    .expr (.column (bare "solved_count")) none, .expr (.column (bare "rank")) none]
  source := { table := "ranked" }
  conditions := finalConditions .team metric c
  orderBy := [(bare "rank", "ASC"), (bare "entity_id", "ASC")]
  limit := some "limit"

def solveRows : Select where
  items := [labelled (col "sf" "solve_id") "entity_id",
    labelled (col "sf" "challenge_name") "entity_name", labelled (col "sf" "category") "category",
    plain "sf" "solve_time", plain "sf" "is_first_blood", plain "sf" "hint_used",
    plain "sf" "team_id", plain "sf" "user_id",
    labelled (.coalesce (col "wb" "wrong_before") zeroExpr) "wrong_before"]
  source := ⟨"solves_filtered", "sf"⟩
  joins := [⟨true, ⟨"wrong_before", "wb"⟩, [equal (col "wb" "solve_id") (col "sf" "solve_id")]⟩]

/-- The value of a metric of solves. -/
def solveMetric : Metric → Expr
  | .firstBlood => indicator (.column (bare "is_first_blood"))
  | _ => .coalesce (.column (bare "wrong_before")) zeroExpr

def orderClause (order : Order) : List (Column × String) :=
  match order.field with
  | some field =>
    [(bare field.name, if order.direction = .asc then "ASC" else "DESC"),
      (bare "entity_id", "ASC")]
  | none => [(bare "entity_id", "ASC")]

def solveBody (metric : Metric) (order : Order) (c : Compiled) : Select where
  items := [plain "sr" "entity_id", plain "sr" "entity_name", plain "sr" "category",
    labelled (solveMetric metric) "metric_value", labelled (col "t" "name") "team_name"]
  source := ⟨"solve_rows", "sr"⟩
  joins := [⟨true, ⟨"teams", "t"⟩, [equal (col "t" "id") (col "sr" "team_id")]⟩]
  conditions := bracketCondition c.bracketFilter ++ finalConditions .solve metric c
  orderBy := orderClause order
  limit := some "limit"

/-! ### Compiling -/

structure CompiledQuery where
  query : Sql.Query
  params : List (String × Value)

def compiledSql (dialect : Dialect) (spec : QuerySpec) (c : Compiled) : Sql.Query :=
  let base := baseCtes dialect c.baseConditions
  match spec.entity with
  | .team =>
    if c.firstClearEachCategory then
      ⟨base ++ [("team_category_completion", teamCategoryCompletion c.bracketFilter),
        ("ranked", rankedCompletion)], firstClearBody⟩
    else
      ⟨base ++ [("team_agg", teamAgg c.bracketFilter),
        ("ranked", rankedTeams (rankOrderExpr spec.metric spec.order c.fullClearCategory))],
        teamBody spec.metric c⟩
  | .solve => ⟨base ++ [("solve_rows", solveRows)], solveBody spec.metric spec.order c⟩

section Shapes

variable {spec : QuerySpec} {c : Compiled} (dialect : Dialect)

theorem compiledSql_firstClear (hentity : spec.entity = .team)
    (hfirst : c.firstClearEachCategory = true) :
    compiledSql dialect spec c =
      ⟨baseCtes dialect c.baseConditions ++
        [("team_category_completion", teamCategoryCompletion c.bracketFilter),
          ("ranked", rankedCompletion)], firstClearBody⟩ := by
  simp only [compiledSql, hentity, hfirst, if_true]

theorem compiledSql_team (hentity : spec.entity = .team)
    (hfirst : c.firstClearEachCategory = false) :
    compiledSql dialect spec c =
      ⟨baseCtes dialect c.baseConditions ++ [("team_agg", teamAgg c.bracketFilter),
        ("ranked", rankedTeams (rankOrderExpr spec.metric spec.order c.fullClearCategory))],
        teamBody spec.metric c⟩ := by
  simp only [compiledSql, hentity, hfirst, Bool.false_eq_true, if_false]

theorem compiledSql_solve (hentity : spec.entity = .solve) :
    compiledSql dialect spec c =
      ⟨baseCtes dialect c.baseConditions ++ [("solve_rows", solveRows)],
        solveBody spec.metric spec.order c⟩ := by
  simp only [compiledSql, hentity]

end Shapes

/-- Whether the metric is one of the entity's. -/
def checkMetric (metric : Metric) : Except Fault Unit :=
  match entity with
  | .solve =>
    if metric = .firstBlood ∨ metric = .wrongSubmissionCount then .ok ()
    else .error (.querySpecError
      ("Metric " ++ metric.name ++ " is not supported for solve entities") none)
  | .team =>
    if metric = .firstBlood then
      .error (.querySpecError
        ("Metric " ++ metric.name ++ " is not supported for " ++ Entity.name .team ++
          " entities") none)
    else .ok ()

def compileQuery (dialect : Dialect) (spec : QuerySpec) : Except Fault CompiledQuery := do
  assertSchema spec.entity
  checkMetric spec.entity spec.metric
  let c ← compileFilters intOfText spec.entity 0 spec.filters {}
  .ok ⟨compiledSql dialect spec c,
    c.params ++ [("limit", spec.limit), ("full_clear_category", c.fullClearCategory)]⟩

end Fctf.Rewards
