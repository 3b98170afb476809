import Fctf.Lib.Record
import Mathlib.Data.Rat.Floor

/-!
The specification of a reward query: the payload of a request and `validate_query_spec`.
-/

namespace Fctf.Rewards

/-- A number with a point in JSON, or one of the three words that Python reads too. -/
inductive FloatValue
  | finite (q : ℚ)
  | infinite (negative : Bool)
  | nan
  deriving DecidableEq

/-- A value of a payload. -/
inductive Value
  | null
  | bool (b : Bool)
  | int (n : Int)
  | float (x : FloatValue)
  | str (s : String)
  | list (items : List Value)
  | dict (entries : List (String × Value))

namespace Value

/-- Python's `bool`. -/
def truth : Value → Bool
  | null => false
  | bool b => b
  | int n => n ≠ 0
  | float (.finite q) => q ≠ 0
  | float _ => true
  | str s => s ≠ ""
  | list items => !items.isEmpty
  | dict entries => !entries.isEmpty

/-- Python's `int`; what it reads in a text is a parameter. -/
def toInt (intOfText : String → Option Int) : Value → Option Int
  | bool b => some b.toInt
  | int n => some n
  | float (.finite q) => some (if 0 ≤ q then ⌊q⌋ else ⌈q⌉)
  | str s => intOfText s
  | _ => none

/-- `isinstance(value, int) and value > 0`, where a `bool` is an `int`. -/
def isPositive : Value → Bool
  | bool b => b
  | int n => 0 < n
  | _ => false

def isList : Value → Bool
  | list _ => true
  | _ => false

/-- The elements of a list. -/
def items : Value → List Value
  | list items => items
  | _ => []

end Value

inductive Entity
  | team
  | solve
  deriving DecidableEq

inductive Metric
  | teamTotalScore
  | teamSolvedCount
  | firstBlood
  | teamFirstBloodCount
  | wrongSubmissionCount
  | teamCategoryClearCount
  | teamPerfectSolveCount
  deriving DecidableEq

inductive FilterField
  | category
  | rank
  | solvedCount
  | wrongCount
  | solveTime
  | firstBlood
  | hintUsed
  | totalScore
  | firstBloodCount
  | categoryClearCount
  | teamId
  | challengeId
  | bracketId
  | fullClearCategory
  | firstClearEachCategory
  deriving DecidableEq

inductive Operator
  | eq
  | isIn
  | le
  | ge
  | lt
  | gt
  deriving DecidableEq

inductive OrderField
  | entityId
  | entityName
  | metricValue
  | lastSolveDate
  deriving DecidableEq

inductive Direction
  | asc
  | desc
  deriving DecidableEq

/-! ### Names -/

def Entity.name : Entity → String
  | .team => "team"
  | .solve => "solve"

def allowedEntities : List Entity := [.team, .solve]

def Metric.name : Metric → String
  | .teamTotalScore => "TEAM_TOTAL_SCORE"
  | .teamSolvedCount => "TEAM_SOLVED_COUNT"
  | .firstBlood => "FIRST_BLOOD"
  | .teamFirstBloodCount => "TEAM_FIRST_BLOOD_COUNT"
  | .wrongSubmissionCount => "WRONG_SUBMISSION_COUNT"
  | .teamCategoryClearCount => "TEAM_CATEGORY_CLEAR_COUNT"
  | .teamPerfectSolveCount => "TEAM_PERFECT_SOLVE_COUNT"

def allowedMetrics : List Metric :=
  [.teamTotalScore, .teamSolvedCount, .firstBlood, .teamFirstBloodCount, .wrongSubmissionCount,
    .teamCategoryClearCount, .teamPerfectSolveCount]

def FilterField.name : FilterField → String
  | .category => "category"
  | .rank => "rank"
  | .solvedCount => "solved_count"
  | .wrongCount => "wrong_count"
  | .solveTime => "solve_time"
  | .firstBlood => "first_blood"
  | .hintUsed => "hint_used"
  | .totalScore => "total_score"
  | .firstBloodCount => "first_blood_count"
  | .categoryClearCount => "category_clear_count"
  | .teamId => "team_id"
  | .challengeId => "challenge_id"
  | .bracketId => "bracket_id"
  | .fullClearCategory => "full_clear_category"
  | .firstClearEachCategory => "first_clear_each_category"

def filterFields : List FilterField :=
  [.category, .rank, .solvedCount, .wrongCount, .solveTime, .firstBlood, .hintUsed, .totalScore,
    .firstBloodCount, .categoryClearCount, .teamId, .challengeId, .bracketId, .fullClearCategory,
    .firstClearEachCategory]

def Operator.name : Operator → String
  | .eq => "="
  | .isIn => "IN"
  | .le => "<="
  | .ge => ">="
  | .lt => "<"
  | .gt => ">"

def filterOperators : List Operator := [.eq, .isIn, .le, .ge, .lt, .gt]

def OrderField.name : OrderField → String
  | .entityId => "entity_id"
  | .entityName => "entity_name"
  | .metricValue => "metric_value"
  | .lastSolveDate => "last_solve_date"

def orderFields : List OrderField := [.entityId, .entityName, .metricValue, .lastSolveDate]

def Direction.name : Direction → String
  | .asc => "asc"
  | .desc => "desc"

def orderDirections : List Direction := [.asc, .desc]

/-! ### Validation -/

structure FilterSpec where
  field : FilterField
  operator : Operator
  value : Value
  in_list : operator = .isIn → value.isList = true

structure Order where
  field : Option OrderField := none
  direction : Direction := .asc
  deriving DecidableEq

structure QuerySpec where
  rule : String
  entity : Entity
  metric : Metric
  filters : List FilterSpec
  limit : Value
  order : Order
  limit_positive : limit.isPositive = true

/-- What validation and compilation raise: `QuerySpecError` with its text, and the value after
it, or any other exception. -/
inductive Fault
  | querySpecError (message : String) (value : Option Value)
  | other

/-- A member of a set of names, by its name; what has no hash is no text either. -/
def lookUp {α : Type} (name : α → String) (allowed : List α) (message : String) (value : Value) :
    Except Fault α :=
  match value with
  | .str s =>
    match allowed.find? fun a => name a == s with
    | some a => .ok a
    | none => .error (.querySpecError message (some value))
  | .list _ => .error .other
  | .dict _ => .error .other
  | _ => .error (.querySpecError message (some value))

def parseFilter (f : Value) : Except Fault FilterSpec :=
  match f with
  | .dict entries => do
    let field ← lookUp FilterField.name filterFields "Invalid filter field: "
      ((Record.get entries "field").getD .null)
    let operator ← lookUp Operator.name filterOperators "Invalid filter operator: "
      ((Record.get entries "operator").getD .null)
    let value := (Record.get entries "value").getD .null
    if h : operator = .isIn → value.isList = true then .ok ⟨field, operator, value, h⟩
    else .error (.querySpecError "IN operator requires a list value" none)
  | _ => .error .other

def parseFilters (filters : List Value) : Except Fault (List FilterSpec) :=
  filters.mapM parseFilter

def parseOrder (order : Value) : Except Fault Order :=
  match order with
  | .dict entries => do
    let field ←
      match (Record.get entries "field").getD .null with
      | .null => .ok none
      | value => (lookUp OrderField.name orderFields "Invalid order field: " value).map some
    let direction ← lookUp Direction.name orderDirections "Invalid order direction: "
      ((Record.get entries "direction").getD (.str "asc"))
    .ok { field, direction }
  | _ => .error .other

def parseRule (rule : Value) : Except Fault String :=
  match rule with
  | .str s => if s = "" then .error (.querySpecError "Missing or invalid rule" none) else .ok s
  | _ => .error (.querySpecError "Missing or invalid rule" none)

def validateQuerySpec (payload : Record Value) : Except Fault QuerySpec := do
  let rule ← parseRule ((payload.get "rule").getD .null)
  let entity ← lookUp Entity.name allowedEntities "Invalid entity: "
    ((payload.get "entity").getD .null)
  let metric ← lookUp Metric.name allowedMetrics "Invalid metric: "
    ((payload.get "metric").getD .null)
  match (payload.get "filters").getD (.list []) with
  | .list filters =>
    let limit := (payload.get "limit").getD (.int 500)
    if h : limit.isPositive = true then do
      let order ← parseOrder ((payload.get "order").getD (.dict []))
      let parsedFilters ← parseFilters filters
      .ok ⟨rule, entity, metric, parsedFilters, limit, order, h⟩
    else .error (.querySpecError "limit must be a positive integer" none)
  | _ => .error (.querySpecError "filters must be a list" none)

/-! ### What is accepted -/

theorem lookUp_name {α : Type} [DecidableEq α] {name : α → String} {allowed : List α}
    {message : String} {a : α} (ha : a ∈ allowed)
    (hname : ∀ b ∈ allowed, name b = name a → b = a) :
    lookUp name allowed message (.str (name a)) = .ok a := by
  have hfind : allowed.find? (fun b => name b == name a) = some a := by
    cases h : allowed.find? (fun b => name b == name a) with
    | none =>
      have hne := List.find?_eq_none.mp h a ha
      simp at hne
    | some b =>
      have hb := hname b (List.mem_of_find?_eq_some h) (by simpa using List.find?_some h)
      rw [hb]
  rw [lookUp, hfind]

def FilterSpec.payload (f : FilterSpec) : Value :=
  .dict [("field", .str f.field.name), ("operator", .str f.operator.name), ("value", f.value)]

def Order.payload (order : Order) : Value :=
  .dict [("field", (order.field.map fun field => .str field.name).getD .null),
    ("direction", .str order.direction.name)]

/-- A payload of the specification. -/
def QuerySpec.payload (spec : QuerySpec) : Record Value :=
  [("rule", .str spec.rule), ("entity", .str spec.entity.name), ("metric", .str spec.metric.name),
    ("filters", .list (spec.filters.map FilterSpec.payload)), ("limit", spec.limit),
    ("order", spec.order.payload)]

theorem parseFilter_payload (f : FilterSpec) : parseFilter f.payload = .ok f := by
  obtain ⟨field, operator, value, hin⟩ := f
  have hfield : lookUp FilterField.name filterFields "Invalid filter field: "
      (.str field.name) = .ok field := by
    apply lookUp_name
    · cases field <;> decide
    · cases field <;> decide
  have hoperator : lookUp Operator.name filterOperators "Invalid filter operator: "
      (.str operator.name) = .ok operator := by
    apply lookUp_name
    · cases operator <;> decide
    · cases operator <;> decide
  have hget : parseFilter (FilterSpec.payload ⟨field, operator, value, hin⟩) =
      (lookUp FilterField.name filterFields "Invalid filter field: " (.str field.name)).bind
        fun field =>
          (lookUp Operator.name filterOperators "Invalid filter operator: "
            (.str operator.name)).bind fun operator =>
              if h : operator = .isIn → value.isList = true then .ok ⟨field, operator, value, h⟩
              else .error (.querySpecError "IN operator requires a list value" none) := rfl
  rw [hget, hfield, hoperator]
  exact dif_pos hin

theorem parseFilters_payload (filters : List FilterSpec) :
    parseFilters (filters.map FilterSpec.payload) = .ok filters := by
  rw [parseFilters]
  induction filters with
  | nil => rfl
  | cons f filters ih =>
    rw [List.map_cons, List.mapM_cons, parseFilter_payload, ih]
    rfl

theorem parseOrder_payload (order : Order) : parseOrder order.payload = .ok order := by
  obtain ⟨field, direction⟩ := order
  have hdirection : lookUp Direction.name orderDirections "Invalid order direction: "
      (.str direction.name) = .ok direction := by
    apply lookUp_name
    · cases direction <;> decide
    · cases direction <;> decide
  cases field with
  | none =>
    have hget : parseOrder (Order.payload ⟨none, direction⟩) =
        (lookUp Direction.name orderDirections "Invalid order direction: "
          (.str direction.name)).bind fun direction => .ok ⟨none, direction⟩ := rfl
    rw [hget, hdirection]
    rfl
  | some field =>
    have hfield : lookUp OrderField.name orderFields "Invalid order field: "
        (.str field.name) = .ok field := by
      apply lookUp_name
      · cases field <;> decide
      · cases field <;> decide
    have hget : parseOrder (Order.payload ⟨some field, direction⟩) =
        ((lookUp OrderField.name orderFields "Invalid order field: " (.str field.name)).map
          some).bind fun field =>
            (lookUp Direction.name orderDirections "Invalid order direction: "
              (.str direction.name)).bind fun direction => .ok ⟨field, direction⟩ := rfl
    rw [hget, hfield, hdirection]
    rfl

/-- Every specification comes from a payload that is accepted. -/
theorem validateQuerySpec_payload (spec : QuerySpec) (hrule : spec.rule ≠ "") :
    validateQuerySpec spec.payload = .ok spec := by
  obtain ⟨rule, entity, metric, filters, limit, order, hlimit⟩ := spec
  have hentity : lookUp Entity.name allowedEntities "Invalid entity: " (.str entity.name) =
      .ok entity := by
    apply lookUp_name
    · cases entity <;> decide
    · cases entity <;> decide
  have hmetric : lookUp Metric.name allowedMetrics "Invalid metric: " (.str metric.name) =
      .ok metric := by
    apply lookUp_name
    · cases metric <;> decide
    · cases metric <;> decide
  have hruleok : parseRule (.str rule) = .ok rule := if_neg hrule
  have hget : validateQuerySpec (QuerySpec.payload ⟨rule, entity, metric, filters, limit, order,
      hlimit⟩) =
      (parseRule (.str rule)).bind fun rule =>
          (lookUp Entity.name allowedEntities "Invalid entity: " (.str entity.name)).bind
            fun entity =>
          (lookUp Metric.name allowedMetrics "Invalid metric: " (.str metric.name)).bind
            fun metric =>
            if h : limit.isPositive = true then
              (parseOrder order.payload).bind fun order =>
                (parseFilters (filters.map FilterSpec.payload)).bind fun filters =>
                  .ok ⟨rule, entity, metric, filters, limit, order, h⟩
            else .error (.querySpecError "limit must be a positive integer" none) := rfl
  rw [hget, hruleok, hentity, hmetric, parseOrder_payload, parseFilters_payload]
  exact dif_pos hlimit

end Fctf.Rewards
