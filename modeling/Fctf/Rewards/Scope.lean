import Fctf.Rewards.Parameters

/-!
Which specifications become queries that a database can parse: every name is in scope where it
is used, and every operator has an operand of its shape.
-/

namespace Fctf.Rewards

open Sql (Expr Schema Select)
open Traverse

/-! ### Operands -/

namespace Value

/-- What the driver writes as one literal. -/
def isScalar : Value → Bool
  | float (.finite _) => true
  | null | bool _ | int _ | str _ => true
  | float _ | list _ | dict _ => false

/-- What the driver writes as a list of literals, which must not be empty. -/
def isScalarList : Value → Bool
  | list items => !items.isEmpty && items.all isScalar
  | _ => false

/-- What `LIMIT` takes. -/
def isRowCount : Value → Bool
  | int n => 0 ≤ n && n < 2 ^ 64
  | _ => false

end Value

/-- What the parameters of a query can stand for. -/
def operands (params : List (String × Value)) : Sql.Operands where
  scalar name := (Dict.get params name).any Value.isScalar
  list name := (Dict.get params name).any Value.isScalarList
  number name := (Dict.get params name).any Value.isRowCount

/-! ### Specifications in scope -/

namespace QuerySpec

variable (spec : QuerySpec)

/-- The query returns the first clear of each category. -/
def firstClear : Bool :=
  spec.entity = .team && ((spec.filters.filterMap fun f =>
    if f.field = .firstClearEachCategory then some f.value.truth else none).getLast?).getD false

/-- The value of the last filter by a category that is cleared. -/
def fullClear : Value :=
  ((spec.filters.filterMap fun f =>
    if f.field = .fullClearCategory then some f.value else none).getLast?).getD .null

end QuerySpec

/-- The value has the shape that the operator needs. -/
def FilterSpec.shaped (f : FilterSpec) : Bool :=
  if f.operator = .isIn then f.value.isScalarList else f.value.isScalar

/-- The filter has a column in its query and a value of the right shape. -/
def FilterSpec.inScope (spec : QuerySpec) (f : FilterSpec) : Bool :=
  match f.field with
  | .category | .solveTime => f.shaped
  | .challengeId => f.operator ≠ .isIn || !f.value.items.isEmpty
  | .wrongCount | .rank => spec.firstClear || f.shaped
  | .solvedCount | .totalScore | .firstBloodCount | .categoryClearCount =>
    spec.firstClear || spec.entity = .team && f.shaped
  | .fullClearCategory => spec.firstClear || spec.entity = .team
  | .firstBlood | .hintUsed | .teamId | .bracketId | .firstClearEachCategory => true

/-- What a specification must be for its query to be parsed. -/
structure QuerySpec.InScope (spec : QuerySpec) : Prop where
  limit : spec.limit.isRowCount = true
  order : spec.entity = .solve → spec.order.field ≠ some .lastSolveDate
  filters : ∀ f ∈ spec.filters, f.inScope spec = true
  fullClear : spec.entity = .team → spec.firstClear = true ∨ spec.fullClear.isScalar = true

/-! ### Conditions in scope -/

section Conditions

variable (schema scope : Schema)

theorem condition_compare (column : Sql.Column) (operator : Operator) (param : String) :
    (Condition.compare column operator param).expr.condition schema scope = scope.has column := by
  cases operator <;> simp [Condition.expr, Expr.condition, Expr.scoped, Expr.rowwise]

theorem condition_among (column : Sql.Column) (params : List String) :
    (Condition.among column params).expr.condition schema scope = scope.has column := by
  simp [Condition.expr, Expr.condition, Expr.scoped, Expr.rowwise]

end Conditions

section Numbered

variable {filters : List FilterSpec}

theorem mem_of_numbered {p : FilterSpec × Nat} (h : p ∈ numbered filters) : p.1 ∈ filters :=
  map_fst_numbered filters ▸ List.mem_map_of_mem h

theorem exists_numbered {f : FilterSpec} (h : f ∈ filters) :
    ∃ idx, (f, idx) ∈ numbered filters := by
  rw [← map_fst_numbered filters] at h
  obtain ⟨⟨f', idx⟩, hp, rfl⟩ := List.mem_map.mp h
  exact ⟨idx, hp⟩

end Numbered

/-! ### The tables -/

section Tables

def baseSolvesColumns : List String :=
  ["solve_id", "team_id", "user_id", "challenge_id", "solve_date", "challenge_value", "category",
    "challenge_name", "solve_time"]

def enrichedColumns : List String := baseSolvesColumns ++ ["is_first_blood", "hint_used"]

def enrichedSchema : Schema :=
  [("solves_enriched", enrichedColumns), ("hint_usage", ["team_id", "challenge_id"]),
    ("first_bloods", ["challenge_id", "first_blood_date"]),
    ("base_solves", baseSolvesColumns)] ++ schema

/-- The tables that every query has. -/
def baseSchema : Schema :=
  [("wrong_before", ["solve_id", "wrong_before"]), ("wrong_team", ["team_id", "wrong_count"]),
    ("team_awards", ["team_id", "award_value"]),
    ("category_totals", ["category", "total_challenges"]),
    ("solves_filtered", enrichedColumns)] ++ enrichedSchema

/-- The source of the filtered solves. -/
def filteredScope : Schema := [("sf", enrichedColumns)]

theorem has_filteredScope : ∀ name ∈ ["category", "solve_time", "is_first_blood", "hint_used",
    "team_id", "challenge_id"], filteredScope.has (qualified "sf" name) = true := by
  decide

theorem condition_baseOf {idx : Nat} {f : FilterSpec} {condition : Condition}
    (h : condition ∈ baseOf idx f) :
    condition.expr.condition enrichedSchema filteredScope = true := by
  obtain ⟨field, operator, value, hin⟩ := f
  cases field with
  | category | challengeId =>
    by_cases hop : operator = .isIn
    · simp only [baseOf, hop, if_true, List.mem_singleton] at h
      rw [h, condition_among]
      exact has_filteredScope _ (by simp)
    · simp only [baseOf, hop, if_false, List.mem_singleton] at h
      rw [h, condition_compare]
      exact has_filteredScope _ (by simp)
  | solveTime | firstBlood | hintUsed | teamId =>
    rw [List.mem_singleton.mp h, condition_compare]
    exact has_filteredScope _ (by simp)
  | _ => cases h

theorem Collected.condition_base {intOfText : String → Option Int} {entity : Entity}
    {filters : List FilterSpec} {c : Compiled} (hc : Collected intOfText entity filters c) :
    ∀ condition ∈ c.baseConditions,
      condition.expr.condition enrichedSchema filteredScope = true := by
  intro condition h
  rw [hc.base] at h
  obtain ⟨p, -, h⟩ := List.mem_flatMap.mp h
  exact condition_baseOf h

theorem extend_baseCtes (dialect : Dialect) {conditions : List Condition}
    (h : ∀ condition ∈ conditions,
      condition.expr.condition enrichedSchema filteredScope = true) :
    schema.extend (baseCtes dialect conditions) = some baseSchema := by
  have hfirst : schema.extend ((baseCtes dialect []).take 4) = some enrichedSchema := by
    cases dialect <;> decide
  have hbase : schema.extend (baseCtes .mysql []) = some baseSchema := by decide
  have hscope : (solvesFiltered []).scope enrichedSchema = some filteredScope := by decide
  have hcolumns : (solvesFiltered conditions).columns enrichedSchema =
      (solvesFiltered []).columns enrichedSchema := by
    refine Select.columns_eq (s := solvesFiltered conditions) hscope fun e he => ?_
    obtain ⟨condition, hcondition, rfl⟩ := List.mem_map.mp he
    exact h condition hcondition
  have hsplit : baseCtes dialect conditions = (baseCtes dialect []).take 4 ++
      ("solves_filtered", solvesFiltered conditions) :: (baseCtes dialect []).drop 5 := rfl
  have hsplit' : baseCtes .mysql [] = (baseCtes .mysql []).take 4 ++
      ("solves_filtered", solvesFiltered []) :: (baseCtes dialect []).drop 5 := rfl
  have hfirst' : schema.extend ((baseCtes .mysql []).take 4) = some enrichedSchema := by
    decide
  rw [hsplit', Sql.Schema.extend_append, hfirst', Option.bind_some, Schema.extend] at hbase
  rw [hsplit, Sql.Schema.extend_append, hfirst, Option.bind_some, Schema.extend, hcolumns]
  exact hbase

/-- A query with these tables after the common ones. -/
theorem wellScoped_query {dialect : Dialect} {conditions : List Condition}
    (h : ∀ condition ∈ conditions, condition.expr.condition enrichedSchema filteredScope = true)
    {tables : List (String × Select)} {schema' : Schema}
    (htables : baseSchema.extend tables = some schema') (body : Select) :
    Sql.Query.wellScoped schema ⟨baseCtes dialect conditions ++ tables, body⟩ =
      body.wellScoped schema' := by
  rw [Sql.Query.wellScoped, Sql.Schema.extend_append, extend_baseCtes dialect h, Option.bind_some,
    htables]

end Tables

/-! ### Queries of teams -/

section Teams

variable {idx : Nat} {f : FilterSpec} {condition : Condition}

theorem condition_bracket {schema scope : Schema}
    (h : scope.has (qualified "t" "bracket_id") = true) (bracketFilter : Option String) :
    ∀ e ∈ bracketCondition bracketFilter, e.condition schema scope = true := by
  intro e he
  obtain ⟨param, -, rfl⟩ := List.mem_map.mp he
  simpa [equal, col, Expr.condition, Expr.scoped, Expr.rowwise] using h

/-- The columns of the teams with what they have solved. -/
def teamAggColumns : List String :=
  ["entity_id", "entity_name", "solved_count", "category_solved_count", "category_total_count",
    "category_full_clear_date", "total_score", "fastest_solve", "avg_solve_time",
    "first_blood_count", "category_clear_count", "perfect_solve_count", "wrong_count",
    "last_solve_date"]

/-- The columns of the ranked teams. -/
def rankedColumns : List String := teamAggColumns ++ ["full_clear_pass", "rank"]

def rankedSchema : Schema := ("ranked", rankedColumns) :: ("team_agg", teamAggColumns) :: baseSchema

theorem columns_teamAgg (bracketFilter : Option String) :
    (teamAgg bracketFilter).columns baseSchema = some teamAggColumns := by
  have hclosed : (teamAgg none).columns baseSchema = some teamAggColumns := by decide
  obtain ⟨scope, hscope, hhas⟩ : ∃ scope, (teamAgg none).scope baseSchema = some scope ∧
      scope.has (qualified "t" "bracket_id") = true := by
    refine ⟨((teamAgg none).scope baseSchema).getD [], ?_, ?_⟩ <;> decide
  rw [← hclosed]
  exact Select.columns_eq (s := teamAgg bracketFilter) hscope (condition_bracket hhas _)

theorem columns_rankedTeams {order : List (Sql.Column × String)}
    (h : ∀ o ∈ order, Schema.has [("ta", teamAggColumns)] o.1 = true) :
    (rankedTeams order).columns (("team_agg", teamAggColumns) :: baseSchema) =
      some rankedColumns := by
  have hclosed : (rankedTeams []).columns (("team_agg", teamAggColumns) :: baseSchema) =
      some rankedColumns := by decide
  have horder : (order.all fun o => Schema.has [("ta", teamAggColumns)] o.1) = true :=
    List.all_eq_true.mpr h
  have hscope : ∀ order, (rankedTeams order).scope (("team_agg", teamAggColumns) :: baseSchema) =
      some [("ta", teamAggColumns)] := fun _ => rfl
  have hrank : (rankedTeams order).itemScoped (("team_agg", teamAggColumns) :: baseSchema)
      [("ta", teamAggColumns)] (labelled (.rank [] order) "rank") =
        (rankedTeams []).itemScoped (("team_agg", teamAggColumns) :: baseSchema)
          [("ta", teamAggColumns)] (labelled (.rank [] []) "rank") := by
    have hgrouped : (rankedTeams order).isGrouped = false := rfl
    have hgrouped' : (rankedTeams []).isGrouped = false := rfl
    simp only [labelled, Select.itemScoped, Expr.scoped, horder, hgrouped, hgrouped', List.all_nil]
    rfl
  have hskeleton : (rankedTeams order).skeletonScoped (("team_agg", teamAggColumns) :: baseSchema)
      [("ta", teamAggColumns)] = (rankedTeams []).skeletonScoped
        (("team_agg", teamAggColumns) :: baseSchema) [("ta", teamAggColumns)] := by
    have hitems : ∀ order, (rankedTeams order).items =
        (rankedTeams []).items.take 2 ++ [labelled (.rank [] order) "rank"] := fun _ => rfl
    rw [Select.skeletonScoped, Select.skeletonScoped, hitems order, hitems [], List.all_append,
      List.all_append, List.all_cons, List.all_cons, hrank]
    rfl
  rw [← hclosed, Select.columns, Select.columns, Select.wellScoped, Select.wellScoped,
    hscope order, hscope []]
  simp only [hskeleton]
  rfl

theorem has_rankOrderExpr (metric : Metric) (order : Order) (value : Value) :
    ∀ o ∈ rankOrderExpr metric order value, Schema.has [("ta", teamAggColumns)] o.1 = true := by
  unfold rankOrderExpr
  split
  · decide
  · cases metric <;> decide

theorem extend_teams (bracketFilter : Option String) (metric : Metric) (order : Order)
    (value : Value) :
    baseSchema.extend [("team_agg", teamAgg bracketFilter),
      ("ranked", rankedTeams (rankOrderExpr metric order value))] = some rankedSchema := by
  rw [Schema.extend, columns_teamAgg]
  simp only
  rw [Schema.extend, columns_rankedTeams (has_rankOrderExpr metric order value)]
  rfl

theorem has_rankedColumns : ∀ name ∈ ["solved_count", "wrong_count", "total_score",
    "first_blood_count", "category_clear_count", "full_clear_pass", "rank",
    "perfect_solve_count"], Schema.has [("ranked", rankedColumns)] (bare name) = true := by
  decide

/-- What a filter of teams becomes is a condition on the ranked teams. -/
theorem condition_aggOf_team (h : condition ∈ aggOf .team idx f) :
    condition.expr.condition rankedSchema [("ranked", rankedColumns)] = true := by
  obtain ⟨field, operator, value, hin⟩ := f
  cases field with
  | solvedCount | wrongCount | totalScore | firstBloodCount | categoryClearCount =>
    rw [List.mem_singleton.mp h, condition_compare]
    exact has_rankedColumns _ (by simp)
  | fullClearCategory =>
    obtain rfl := List.mem_singleton.mp h
    have hhas := has_rankedColumns "full_clear_pass" (by simp)
    simpa [Condition.expr, Expr.condition, Expr.scoped, Expr.rowwise] using hhas
  | _ => cases h

theorem condition_rankOf (h : condition ∈ rankOf idx f) :
    condition.expr.condition rankedSchema [("ranked", rankedColumns)] = true := by
  obtain ⟨field, operator, value, hin⟩ := f
  cases field with
  | rank =>
    rw [List.mem_singleton.mp h, condition_compare]
    exact has_rankedColumns _ (by simp)
  | _ => cases h

variable {intOfText : String → Option Int} {filters : List FilterSpec} {c : Compiled}

theorem wellScoped_teamBody (metric : Metric) (hc : Collected intOfText .team filters c) :
    (teamBody metric c).wellScoped rankedSchema = true := by
  have hscope : (teamBody metric c).scope rankedSchema = some [("ranked", rankedColumns)] := rfl
  have hbare : (teamBody metric {}).unconditioned.wellScoped rankedSchema = true := by
    cases metric <;> decide
  rw [Select.wellScoped_iff hscope]
  refine ⟨hbare, fun e he => ?_⟩
  rcases List.mem_append.mp he with he | he
  · obtain ⟨condition, hcondition, rfl⟩ := List.mem_map.mp he
    rw [List.mem_append, hc.rank, hc.agg] at hcondition
    rcases hcondition with hcondition | hcondition
    · obtain ⟨p, -, hcondition⟩ := List.mem_flatMap.mp hcondition
      exact condition_rankOf hcondition
    · obtain ⟨p, -, hcondition⟩ := List.mem_flatMap.mp hcondition
      exact condition_aggOf_team hcondition
  · obtain rfl := List.mem_singleton.mp he
    have hhas : Schema.has [("ranked", rankedColumns)] (bare (teamMetric metric)) = true := by
      apply has_rankedColumns
      cases metric <;> simp [teamMetric]
    simpa [zeroExpr, Expr.condition, Expr.scoped, Expr.rowwise] using hhas

theorem wellScoped_firstClear (bracketFilter : Option String) :
    ∃ schema', baseSchema.extend
      [("team_category_completion", teamCategoryCompletion bracketFilter),
        ("ranked", rankedCompletion)] = some schema' ∧
      firstClearBody.wellScoped schema' = true := by
  have hcolumns : (teamCategoryCompletion bracketFilter).columns baseSchema =
      (teamCategoryCompletion none).columns baseSchema := by
    obtain ⟨scope, hscope, hhas⟩ : ∃ scope, (teamCategoryCompletion none).scope baseSchema =
        some scope ∧ scope.has (qualified "t" "bracket_id") = true := by
      refine ⟨((teamCategoryCompletion none).scope baseSchema).getD [], ?_, ?_⟩ <;> decide
    exact Select.columns_eq (s := teamCategoryCompletion bracketFilter) hscope
      (condition_bracket hhas _)
  have hextend : baseSchema.extend
      [("team_category_completion", teamCategoryCompletion bracketFilter),
        ("ranked", rankedCompletion)] = baseSchema.extend
          [("team_category_completion", teamCategoryCompletion none),
            ("ranked", rankedCompletion)] := by
    rw [Schema.extend, hcolumns]
    rfl
  rw [hextend]
  refine ⟨(baseSchema.extend [("team_category_completion", teamCategoryCompletion none),
    ("ranked", rankedCompletion)]).getD [], ?_, ?_⟩ <;> decide

/-- Every name in a query of teams is in scope. -/
theorem wellScoped_teams {dialect : Dialect} {spec : QuerySpec} (hentity : spec.entity = .team)
    (hc : Collected intOfText .team spec.filters c) :
    (compiledSql dialect spec c).wellScoped schema = true := by
  cases hfirst : c.firstClearEachCategory with
  | true =>
    obtain ⟨schema', hextend, hbody⟩ := wellScoped_firstClear c.bracketFilter
    rw [compiledSql_firstClear dialect hentity hfirst, wellScoped_query hc.condition_base hextend]
    exact hbody
  | false =>
    rw [compiledSql_team dialect hentity hfirst,
      wellScoped_query hc.condition_base (extend_teams ..)]
    exact wellScoped_teamBody spec.metric hc

end Teams

/-! ### Queries of solves -/

section Solves

variable {idx : Nat} {f : FilterSpec} {condition : Condition}

def solveRowsColumns : List String :=
  ["entity_id", "entity_name", "category", "solve_time", "is_first_blood", "hint_used", "team_id",
    "user_id", "wrong_before"]

def solveRowsSchema : Schema := ("solve_rows", solveRowsColumns) :: baseSchema

def solveScope : Schema :=
  [("sr", solveRowsColumns), ("t", (schema.lookup "teams").getD [])]

/-- The fields that only teams have a column for. -/
def FilterField.ofTeams : FilterField → Bool
  | .solvedCount | .totalScore | .firstBloodCount | .categoryClearCount | .fullClearCategory => true
  | _ => false

theorem condition_aggOf_solve : (∀ condition ∈ aggOf .solve idx f,
    condition.expr.condition solveRowsSchema solveScope = true) ↔ f.field.ofTeams = false := by
  have hwrong : solveScope.has (bare "wrong_before") = true := by decide
  have hnot : ∀ name ∈ ["solved_count", "total_score", "first_blood_count",
      "category_clear_count", "full_clear_pass"], solveScope.has (bare name) = false := by
    decide
  obtain ⟨field, operator, value, hin⟩ := f
  cases field with
  | wrongCount =>
    simp [aggOf, condition_compare, hwrong, FilterField.ofTeams]
  | solvedCount | totalScore | firstBloodCount | categoryClearCount =>
    simp [aggOf, condition_compare, hnot _ (List.mem_cons_self), hnot, FilterField.ofTeams]
  | fullClearCategory =>
    simp [aggOf, Condition.expr, Expr.condition, Expr.scoped, Expr.rowwise, hnot,
      FilterField.ofTeams]
  | _ => simp [aggOf, FilterField.ofTeams]

theorem wellScoped_unconditioned (metric : Metric) (order : Order) (c : Compiled) :
    (solveBody metric order c).unconditioned.wellScoped solveRowsSchema = true ↔
      order.field ≠ some .lastSolveDate := by
  have hbody : (solveBody metric order c).unconditioned =
      (solveBody metric order {}).unconditioned := rfl
  have hmetric : solveBody metric order {} = solveBody .firstBlood order {} ∨
      solveBody metric order {} = solveBody .wrongSubmissionCount order {} := by
    cases metric with
    | firstBlood => exact .inl rfl
    | _ => exact .inr rfl
  obtain ⟨field, direction⟩ := order
  rw [hbody]
  rcases hmetric with hmetric | hmetric <;> rw [hmetric] <;> cases field with
  | none => cases direction <;> decide
  | some field => cases field <;> cases direction <;> decide

variable {intOfText : String → Option Int} {filters : List FilterSpec} {c : Compiled}

theorem wellScoped_solveBody (metric : Metric) (order : Order)
    (hc : Collected intOfText .solve filters c) (hrank : ∀ f ∈ filters, f.field ≠ .rank) :
    (solveBody metric order c).wellScoped solveRowsSchema = true ↔
      order.field ≠ some .lastSolveDate ∧ ∀ f ∈ filters, f.field.ofTeams = false := by
  have hscope : (solveBody metric order c).scope solveRowsSchema = some solveScope := by
    change (solveBody .firstBlood {} {}).scope solveRowsSchema = some solveScope
    decide
  have hbracket : solveScope.has (qualified "t" "bracket_id") = true := by decide
  rw [Select.wellScoped_iff hscope, wellScoped_unconditioned]
  refine and_congr_right fun _ => ?_
  have hconditions : (solveBody metric order c).conditions =
      bracketCondition c.bracketFilter ++
        (c.rankConditions ++ c.aggConditions).map Condition.expr :=
    congrArg (bracketCondition c.bracketFilter ++ ·) (List.append_nil _)
  have hnone : c.rankConditions = [] := by
    rw [hc.rank, List.flatMap_eq_nil_iff]
    intro p hp
    have hfield := hrank p.1 (mem_of_numbered hp)
    unfold rankOf
    split
    · rename_i hrankField
      exact absurd hrankField hfield
    · rfl
  rw [hconditions, List.forall_mem_append, hnone, List.nil_append, hc.agg, List.forall_mem_map]
  rw [and_iff_right (condition_bracket hbracket _)]
  simp only [List.mem_flatMap, forall_exists_index, and_imp]
  constructor
  · intro h f hf
    obtain ⟨idx, hp⟩ := exists_numbered hf
    exact condition_aggOf_solve.mp fun condition hcondition => h condition _ hp hcondition
  · intro h condition p hp hcondition
    exact condition_aggOf_solve.mpr (h p.1 (mem_of_numbered hp)) condition hcondition

/-- Names in scope are all that a query of solves can lack. -/
theorem wellScoped_solves {dialect : Dialect} {spec : QuerySpec} (hentity : spec.entity = .solve)
    (hc : Collected intOfText .solve spec.filters c)
    (hrank : ∀ f ∈ spec.filters, f.field ≠ .rank) :
    (compiledSql dialect spec c).wellScoped schema = true ↔
      spec.order.field ≠ some .lastSolveDate ∧ ∀ f ∈ spec.filters, f.field.ofTeams = false := by
  have hrows : baseSchema.extend [("solve_rows", solveRows)] = some solveRowsSchema := by
    decide
  rw [compiledSql_solve dialect hentity, wellScoped_query hc.condition_base hrows,
    wellScoped_solveBody spec.metric spec.order hc hrank]

end Solves

/-! ### Shapes of operands -/

section Shapes

variable {intOfText : String → Option Int} {entity : Entity} {filters : List FilterSpec}

/-- What a parameter of a filter stands for. -/
theorem get_param {c : Compiled} (hc : Collected intOfText entity filters c)
    (hvalues : ∀ p ∈ numbered filters, (assignments intOfText entity p.2 p.1).isSome = true)
    (common : List (String × Value)) (hcommon : common.map Prod.fst = commonNames)
    {p : FilterSpec × Nat} (hp : p ∈ numbered filters) {ps : List (String × Value)}
    (hps : assignments intOfText entity p.2 p.1 = some ps) {name : String} {value : Value}
    (h : (name, value) ∈ ps) : Dict.get (c.params ++ common) name = some value := by
  apply Dict.get_of_mem
  · rw [List.map_append, keys_params hc hvalues, hcommon, List.nodup_append']
    exact ⟨allKeys_nodup filters, by decide,
      fun _ hname hshared => common_notMem_allKeys filters hshared hname⟩
  · rw [List.mem_append, hc.params, List.mem_flatMap]
    exact .inl ⟨p, hp, by rwa [hps]⟩

/-- The shape that a filter of rows of solves needs. -/
def FilterSpec.baseShaped (f : FilterSpec) : Bool :=
  match f.field with
  | .category | .solveTime => f.shaped
  | .challengeId => f.operator ≠ .isIn || !f.value.items.isEmpty
  | _ => true

/-- The shape that a filter of rows of the result needs. -/
def FilterSpec.finalShaped (f : FilterSpec) : Bool :=
  match f.field with
  | .wrongCount | .rank | .solvedCount | .totalScore | .firstBloodCount | .categoryClearCount =>
    f.shaped
  | _ => true

variable {params : List (String × Value)} {idx : Nat} {f : FilterSpec}

theorem fits_compare (column : Sql.Column) (operator : Operator) {key : String} {value : Value}
    (h : Dict.get params key = some value) :
    (Condition.compare column operator key).expr.fits (operands params) =
      if operator = .isIn then value.isScalarList else value.isScalar := by
  cases operator <;> simp [Condition.expr, Expr.fits, operands, h]

theorem fits_among (column : Sql.Column) (keys : List String) :
    (Condition.among column keys).expr.fits (operands params) =
      (!keys.isEmpty && keys.all fun key => (Dict.get params key).any Value.isScalar) := by
  simp [Condition.expr, Expr.fits, operands]

/-- A list with a parameter for each element. -/
theorem fits_items (column : Sql.Column) (values : List Value)
    (h : ∀ j (hj : j < values.length), Dict.get params (itemKey idx j) = some values[j]) :
    (Condition.among column ((List.range values.length).map (itemKey idx))).expr.fits
      (operands params) = (Value.list values).isScalarList := by
  have hall : ((List.range values.length).map (itemKey idx)).all (fun key =>
      (Dict.get params key).any Value.isScalar) = values.all Value.isScalar := by
    rw [Bool.eq_iff_iff, List.all_eq_true, List.all_eq_true]
    simp only [List.forall_mem_map, List.mem_range, List.forall_mem_iff_getElem]
    exact forall₂_congr fun j hj => by rw [h j hj]; rfl
  have hempty : ((List.range values.length).map (itemKey idx)).isEmpty = values.isEmpty := by
    cases values <;> simp [List.range_succ_eq_map]
  rw [fits_among, hall, hempty]
  rfl

theorem isScalarList_ints (ns : List Int) :
    (Value.list (ns.map Value.int)).isScalarList = !ns.isEmpty := by
  cases ns <;> simp [Value.isScalarList, Value.isScalar]

variable {ps : List (String × Value)} (hps : assignments intOfText entity idx f = some ps)
  (hget : ∀ p ∈ ps, Dict.get params p.1 = some p.2)

include hps hget

theorem fits_baseOf : (∀ condition ∈ baseOf idx f, condition.expr.fits (operands params) = true) ↔
    f.baseShaped = true := by
  obtain ⟨field, operator, value, hin⟩ := f
  cases field with
  | category =>
    by_cases hop : operator = .isIn
    · obtain ⟨values, rfl⟩ : ∃ values, value = .list values := by
        have hlist := hin hop
        cases value with
        | list values => exact ⟨values, rfl⟩
        | _ => cases hlist
      obtain rfl : values.mapIdx (fun j v => (itemKey idx j, v)) = ps := by
        simpa [assignments, hop, Value.items] using hps
      have hitems := @fits_items params idx (qualified "sf" "category") values fun j hj =>
        hget _ (List.mem_mapIdx.mpr ⟨j, hj, rfl⟩)
      simpa [baseOf, hop, keysOf, Value.items, FilterSpec.baseShaped, FilterSpec.shaped] using
        Bool.eq_iff_iff.mp hitems
    · obtain rfl : [(paramKey idx, value)] = ps := by simpa [assignments, hop] using hps
      have hvalue := hget _ (List.mem_singleton_self _)
      simp [baseOf, hop, fits_compare _ _ hvalue, FilterSpec.baseShaped, FilterSpec.shaped]
  | challengeId =>
    by_cases hop : operator = .isIn
    · obtain ⟨ns, hns, rfl⟩ : ∃ ns, value.items.mapM (Value.toInt intOfText) = some ns ∧
          ns.mapIdx (fun j n => (itemKey idx j, Value.int n)) = ps := by
        simpa [assignments, hop] using hps
      have hlength := length_of_mapM hns
      have hitems := @fits_items params idx (qualified "sf" "challenge_id") (ns.map Value.int)
        fun j hj => by
          rw [List.getElem_map]
          exact hget _ (List.mem_mapIdx.mpr ⟨j, by simpa using hj, rfl⟩)
      rw [isScalarList_ints, List.length_map, hlength] at hitems
      have hempty : ns.isEmpty = value.items.isEmpty := by
        rw [Bool.eq_iff_iff, List.isEmpty_iff_length_eq_zero, List.isEmpty_iff_length_eq_zero,
          hlength]
      simpa [baseOf, hop, keysOf, FilterSpec.baseShaped, hempty] using Bool.eq_iff_iff.mp hitems
    · obtain ⟨n, hn, rfl⟩ : ∃ n, value.toInt intOfText = some n ∧
          [(paramKey idx, Value.int n)] = ps := by
        simpa [assignments, hop] using hps
      have hvalue := hget _ (List.mem_singleton_self _)
      simp [baseOf, hop, fits_compare _ _ hvalue, FilterSpec.baseShaped, Value.isScalar]
  | solveTime =>
    obtain rfl : [(paramKey idx, value)] = ps := by simpa [assignments] using hps
    have hvalue := hget _ (List.mem_singleton_self _)
    simp [baseOf, fits_compare _ _ hvalue, FilterSpec.baseShaped, FilterSpec.shaped]
  | firstBlood | hintUsed =>
    obtain rfl : [(paramKey idx, Value.bool value.truth)] = ps := by
      simpa [assignments] using hps
    have hvalue := hget _ (List.mem_singleton_self _)
    simp [baseOf, fits_compare _ _ hvalue, FilterSpec.baseShaped, Value.isScalar]
  | teamId =>
    obtain ⟨n, hn, rfl⟩ : ∃ n, value.toInt intOfText = some n ∧
        [(paramKey idx, Value.int n)] = ps := by
      simpa [assignments] using hps
    have hvalue := hget _ (List.mem_singleton_self _)
    simp [baseOf, fits_compare _ _ hvalue, FilterSpec.baseShaped, Value.isScalar]
  | _ => simp [baseOf, FilterSpec.baseShaped]

theorem fits_finalOf :
    (∀ condition ∈ rankOf idx f ++ aggOf entity idx f,
      condition.expr.fits (operands params) = true) ↔ f.finalShaped = true := by
  obtain ⟨field, operator, value, hin⟩ := f
  cases field with
  | rank =>
    obtain rfl : [(paramKey idx, value)] = ps := by
      cases entity with
      | team => simpa [assignments] using hps
      | solve => cases hps
    have hvalue := hget _ (List.mem_singleton_self _)
    simp [rankOf, aggOf, fits_compare _ _ hvalue, FilterSpec.finalShaped, FilterSpec.shaped]
  | wrongCount | solvedCount | totalScore | firstBloodCount | categoryClearCount =>
    obtain rfl : [(paramKey idx, value)] = ps := by simpa [assignments] using hps
    have hvalue := hget _ (List.mem_singleton_self _)
    simp [rankOf, aggOf, fits_compare _ _ hvalue, FilterSpec.finalShaped, FilterSpec.shaped]
  | fullClearCategory =>
    simp [rankOf, aggOf, Condition.expr, Expr.fits, FilterSpec.finalShaped]
  | _ => simp [rankOf, aggOf, FilterSpec.finalShaped]

end Shapes

/-! ### Queries that fit -/

section Fits

variable (ops : Sql.Operands)

theorem fits_baseCtes (dialect : Dialect) (conditions : List Condition) :
    ((baseCtes dialect conditions).all fun t => t.2.fits ops) = true ↔
      ∀ condition ∈ conditions, condition.expr.fits ops = true := by
  have hfirst : (baseSolves dialect).fits ops = true := by cases dialect <;> rfl
  have hrest : ([firstBloods, hintUsage, solvesEnriched].all fun s => s.fits ops) = true := rfl
  have hlater : ([categoryTotals, teamAwards, wrongTeam, wrongBefore].all fun s => s.fits ops) =
    true := rfl
  have hfiltered : (solvesFiltered conditions).fits ops = true ↔
      ∀ condition ∈ conditions, condition.expr.fits ops = true := by
    have hbare : (solvesFiltered []).fits ops = true := rfl
    rw [Select.fits_iff]
    exact (and_iff_right hbare).trans List.forall_mem_map
  simp only [List.all_cons, List.all_nil, Bool.and_true, Bool.and_eq_true] at hrest hlater
  obtain ⟨hbloods, hhints, henriched⟩ := hrest
  obtain ⟨htotals, hawards, hteam, hbefore⟩ := hlater
  rw [← hfiltered]
  simp only [baseCtes, List.all_cons, List.all_nil, hfirst, hbloods, hhints, henriched, htotals,
    hawards, hteam, hbefore, Bool.true_and, Bool.and_true]

theorem fits_teamAgg (bracketFilter : Option String)
    (hbracket : ∀ e ∈ bracketCondition bracketFilter, e.fits ops = true) :
    (teamAgg bracketFilter).fits ops = ops.scalar "full_clear_category" := by
  have hbare : (teamAgg none).fits ops = ops.scalar "full_clear_category" := by
    cases h : ops.scalar "full_clear_category" <;>
      simp [Select.fits, teamAgg, labelled, Expr.fits, ofFullClearCategory, equal, col, indicator,
        zeroExpr, oneExpr, bracketCondition, h]
  rw [← hbare, Bool.eq_iff_iff, Select.fits_iff]
  exact and_iff_left hbracket

theorem fits_rankedTeams (order : List (Sql.Column × String)) :
    (rankedTeams order).fits ops = ops.scalar "full_clear_category" := by
  simp [Select.fits, rankedTeams, labelled, Expr.fits, col, zeroExpr, oneExpr]

theorem fits_teamBody (metric : Metric) (c : Compiled) : (teamBody metric c).fits ops = true ↔
    ops.number "limit" = true ∧
      ∀ condition ∈ c.rankConditions ++ c.aggConditions, condition.expr.fits ops = true := by
  have hbare : (teamBody metric c).unconditioned.fits ops = ops.number "limit" := by
    simp [Select.fits, Select.unconditioned, teamBody, labelled, Expr.fits]
  rw [Select.fits_iff, hbare]
  refine and_congr_right fun _ => ?_
  change (∀ e ∈ (c.rankConditions ++ c.aggConditions).map Condition.expr ++ _, _) ↔ _
  rw [List.forall_mem_append, List.forall_mem_map, and_iff_left]
  intro e he
  obtain rfl := List.mem_singleton.mp he
  rfl

theorem fits_solveBody (metric : Metric) (order : Order) (c : Compiled)
    (hbracket : ∀ e ∈ bracketCondition c.bracketFilter, e.fits ops = true) :
    (solveBody metric order c).fits ops = true ↔ ops.number "limit" = true ∧
      ∀ condition ∈ c.rankConditions ++ c.aggConditions, condition.expr.fits ops = true := by
  have hmetric : (solveMetric metric).fits ops = true := by cases metric <;> rfl
  have hbare : (solveBody metric order c).unconditioned.fits ops = ops.number "limit" := by
    simp [Select.fits, Select.unconditioned, solveBody, labelled, plain, Expr.fits, hmetric, equal,
      col]
  rw [Select.fits_iff, hbare]
  refine and_congr_right fun _ => ?_
  change (∀ e ∈ bracketCondition c.bracketFilter ++
    ((c.rankConditions ++ c.aggConditions).map Condition.expr ++ []), _) ↔ _
  rw [List.append_nil, List.forall_mem_append, List.forall_mem_map, and_iff_right hbracket]

theorem fits_completion (bracketFilter : Option String)
    (hbracket : ∀ e ∈ bracketCondition bracketFilter, e.fits ops = true) :
    (teamCategoryCompletion bracketFilter).fits ops = true := by
  have hbare : (teamCategoryCompletion none).fits ops = true := rfl
  rw [Select.fits_iff]
  exact ⟨hbare, hbracket⟩

theorem fits_compiledSql {dialect : Dialect} {spec : QuerySpec} {c : Compiled}
    (hbracket : ∀ e ∈ bracketCondition c.bracketFilter, e.fits ops = true) :
    (compiledSql dialect spec c).fits ops = true ↔
      (∀ condition ∈ c.baseConditions, condition.expr.fits ops = true) ∧
        ops.number "limit" = true ∧
        (spec.entity = .team ∧ c.firstClearEachCategory = true ∨
          (∀ condition ∈ c.rankConditions ++ c.aggConditions,
              condition.expr.fits ops = true) ∧
            (spec.entity = .team → ops.scalar "full_clear_category" = true)) := by
  have hranked : rankedCompletion.fits ops = true := rfl
  have hbody : firstClearBody.fits ops = ops.number "limit" := by
    simp [Select.fits, firstClearBody, labelled, Expr.fits, equal, oneExpr]
  have hrows : solveRows.fits ops = true := rfl
  cases hentity : spec.entity with
  | team =>
    cases hfirst : c.firstClearEachCategory with
    | true =>
      rw [compiledSql_firstClear dialect hentity hfirst, Sql.Query.fits, List.all_append,
        Bool.and_eq_true, Bool.and_eq_true, fits_baseCtes]
      simp [fits_completion ops _ hbracket, hranked, hbody]
    | false =>
      rw [compiledSql_team dialect hentity hfirst, Sql.Query.fits, List.all_append,
        Bool.and_eq_true, Bool.and_eq_true, fits_baseCtes, fits_teamBody]
      simp only [List.all_cons, List.all_nil, Bool.and_true, Bool.and_self,
        fits_teamAgg ops _ hbracket, fits_rankedTeams, Bool.false_eq_true, and_false, false_or,
        true_implies]
      tauto
  | solve =>
    rw [compiledSql_solve dialect hentity, Sql.Query.fits, List.all_append, Bool.and_eq_true,
      Bool.and_eq_true, fits_baseCtes, fits_solveBody ops _ _ _ hbracket]
    simp [hrows]

end Fits

/-! ### The specifications that are well scoped -/

section Spec

variable {intOfText : String → Option Int} {dialect : Dialect} {spec : QuerySpec} {c : Compiled}

theorem filterMap_numbered {β : Type} (g : FilterSpec → Option β) (filters : List FilterSpec) :
    ((numbered filters).filterMap fun p => g p.1) = filters.filterMap g := by
  conv_rhs => rw [← map_fst_numbered filters, List.filterMap_map]
  rfl

theorem firstClear_iff (hc : Collected intOfText spec.entity spec.filters c) :
    spec.firstClear = true ↔ spec.entity = .team ∧ c.firstClearEachCategory = true := by
  rw [hc.firstClear, QuerySpec.firstClear, Bool.and_eq_true, decide_eq_true_iff,
    filterMap_numbered fun f => if f.field = .firstClearEachCategory then some f.value.truth
      else none]

theorem fullClear_eq (hc : Collected intOfText spec.entity spec.filters c) :
    c.fullClearCategory = spec.fullClear := by
  rw [hc.fullClear, QuerySpec.fullClear,
    filterMap_numbered fun f => if f.field = .fullClearCategory then some f.value else none]

theorem FilterSpec.inScope_iff {f : FilterSpec} : f.inScope spec = true ↔
    f.baseShaped = true ∧ (spec.firstClear = true ∨
      f.finalShaped = true ∧ (spec.entity = .team ∨ f.field.ofTeams = false)) := by
  obtain ⟨field, operator, value, hin⟩ := f
  cases field <;> simp [inScope, baseShaped, finalShaped, FilterField.ofTeams, and_comm]

section Operands

variable {params : List (String × Value)}
  (hget : ∀ p ∈ numbered spec.filters, ∃ ps, assignments intOfText spec.entity p.2 p.1 = some ps ∧
    ∀ q ∈ ps, Dict.get params q.1 = some q.2)
  (hc : Collected intOfText spec.entity spec.filters c)

include hget hc

theorem fits_base : (∀ condition ∈ c.baseConditions,
    condition.expr.fits (operands params) = true) ↔
      ∀ f ∈ spec.filters, f.baseShaped = true := by
  simp only [hc.base, List.mem_flatMap, forall_exists_index, and_imp]
  constructor
  · intro h f hf
    obtain ⟨idx, hp⟩ := exists_numbered hf
    obtain ⟨ps, hps, hvalues⟩ := hget _ hp
    exact (fits_baseOf hps hvalues).mp fun condition hcondition => h condition _ hp hcondition
  · intro h condition p hp hcondition
    obtain ⟨ps, hps, hvalues⟩ := hget p hp
    exact (fits_baseOf hps hvalues).mpr (h p.1 (mem_of_numbered hp)) condition hcondition

theorem fits_final : (∀ condition ∈ c.rankConditions ++ c.aggConditions,
    condition.expr.fits (operands params) = true) ↔
      ∀ f ∈ spec.filters, f.finalShaped = true := by
  simp only [hc.rank, hc.agg, List.mem_append, List.mem_flatMap]
  constructor
  · intro h f hf
    obtain ⟨idx, hp⟩ := exists_numbered hf
    obtain ⟨ps, hps, hvalues⟩ := hget _ hp
    refine (fits_finalOf hps hvalues).mp fun condition hcondition => h condition ?_
    exact (List.mem_append.mp hcondition).imp (fun hmem => ⟨_, hp, hmem⟩) fun hmem => ⟨_, hp, hmem⟩
  · rintro h condition (⟨p, hp, hcondition⟩ | ⟨p, hp, hcondition⟩) <;>
      obtain ⟨ps, hps, hvalues⟩ := hget p hp
    · exact (fits_finalOf hps hvalues).mpr (h p.1 (mem_of_numbered hp)) condition
        (List.mem_append_left _ hcondition)
    · exact (fits_finalOf hps hvalues).mpr (h p.1 (mem_of_numbered hp)) condition
        (List.mem_append_right _ hcondition)

theorem fits_bracket :
    ∀ e ∈ bracketCondition c.bracketFilter, e.fits (operands params) = true := by
  intro e he
  obtain ⟨name, hname, rfl⟩ := List.mem_map.mp he
  rw [Option.mem_toList, hc.bracket] at hname
  obtain ⟨p, hp, hkey⟩ := List.mem_filterMap.mp (List.mem_of_getLast? hname)
  split_ifs at hkey with hfield
  obtain rfl := Option.some.inj hkey
  obtain ⟨ps, hps, hvalues⟩ := hget p hp
  obtain ⟨n, hn, rfl⟩ : ∃ n, p.1.value.toInt intOfText = some n ∧
      [(paramKey p.2, Value.int n)] = ps := by
    simpa [assignments, hfield] using hps
  have hvalue := hvalues _ (List.mem_singleton_self _)
  simp [equal, col, Expr.fits, operands, hvalue, Value.isScalar]

end Operands

/-- A query that is compiled has only names that are in scope and operands of the right shape
exactly if its specification says nothing about solves that only teams have, no value has the
wrong shape, and the limit is a number of rows. -/
theorem wellScoped_iff_inScope {q : CompiledQuery}
    (h : compileQuery intOfText dialect spec = .ok q) :
    q.query.wellScoped schema = true ∧ q.query.fits (operands q.params) = true ↔ spec.InScope := by
  have hok := ((compileQuery_isOk_iff spec).mp ⟨q, h⟩).2
  obtain ⟨-, hvalues, rfl⟩ := (compileQuery_ok intOfText).mp h
  have hc := collected_spec intOfText spec.entity spec.filters
  revert hc
  generalize collected intOfText spec.entity 0 spec.filters {} = c
  intro hc
  have hget : ∀ p ∈ numbered spec.filters, ∃ ps,
      assignments intOfText spec.entity p.2 p.1 = some ps ∧
        ∀ r ∈ ps, Dict.get (finished dialect spec c).params r.1 = some r.2 := by
    intro p hp
    obtain ⟨ps, hps⟩ := Option.isSome_iff_exists.mp (hvalues p hp)
    exact ⟨ps, hps, fun r hr => get_param hc hvalues _ rfl hp hps hr⟩
  have hlimit : (operands (finished dialect spec c).params).number "limit" =
      spec.limit.isRowCount := by
    simp only [operands, finished, Dict.get_append]
    rfl
  have hclear : (operands (finished dialect spec c).params).scalar "full_clear_category" =
      spec.fullClear.isScalar := by
    simp only [operands, finished, Dict.get_append, fullClear_eq hc]
    rfl
  rw [show (finished dialect spec c).query = compiledSql dialect spec c from rfl,
    fits_compiledSql _ (fits_bracket hget hc), fits_base hget hc, fits_final hget hc, hlimit,
      hclear,
    ← firstClear_iff hc]
  cases hentity : spec.entity with
  | team =>
    have hscoped : (compiledSql dialect spec c).wellScoped schema = true :=
      wellScoped_teams hentity (hentity ▸ hc)
    constructor
    · rintro ⟨-, hbase, hlimit, hfinal⟩
      refine ⟨hlimit, fun hsolve => ?_, fun f hf => ?_, fun _ => ?_⟩
      · rw [hentity] at hsolve
        cases hsolve
      · exact FilterSpec.inScope_iff.mpr
          ⟨hbase f hf, hfinal.imp_right fun hfinal => ⟨hfinal.1 f hf, .inl hentity⟩⟩
      · exact hfinal.imp_right fun hfinal => hfinal.2 rfl
    · rintro ⟨hlimit, -, hfilters, hfull⟩
      have hscope f hf := FilterSpec.inScope_iff.mp (hfilters f hf)
      refine ⟨hscoped, fun f hf => (hscope f hf).1, hlimit, ?_⟩
      rcases hfull hentity with hfirst | hfull
      · exact .inl hfirst
      · by_cases hfirst : spec.firstClear = true
        · exact .inl hfirst
        · exact .inr ⟨fun f hf => ((hscope f hf).2.resolve_left hfirst).1, fun _ => hfull⟩
  | solve =>
    have hfirst : spec.firstClear = false := by simp [QuerySpec.firstClear, hentity]
    have hrank : ∀ f ∈ spec.filters, f.field ≠ .rank := by
      intro f hf hfield
      have hteam := (hok f hf).1 hfield
      rw [hentity] at hteam
      cases hteam
    have hscoped := @wellScoped_solves _ c dialect spec hentity (hentity ▸ hc) hrank
    rw [hscoped, hfirst]
    constructor
    · rintro ⟨⟨horder, hteams⟩, hbase, hlimit, hfinal⟩
      have hfinal := hfinal.resolve_left Bool.false_ne_true
      refine ⟨hlimit, fun _ => horder, fun f hf => ?_, fun hteam => ?_⟩
      · exact FilterSpec.inScope_iff.mpr ⟨hbase f hf, .inr ⟨hfinal.1 f hf, .inr (hteams f hf)⟩⟩
      · rw [hentity] at hteam
        cases hteam
    · rintro ⟨hlimit, horder, hfilters, -⟩
      have hscope f hf := FilterSpec.inScope_iff.mp (hfilters f hf)
      rw [hfirst, hentity] at hscope
      have hfinal f hf := (hscope f hf).2.resolve_left Bool.false_ne_true
      have hsolve : Entity.solve ≠ .team := by decide
      exact ⟨⟨horder hentity, fun f hf => (hfinal f hf).2.resolve_left hsolve⟩,
        fun f hf => (hscope f hf).1, hlimit,
          .inr ⟨fun f hf => (hfinal f hf).1, fun hteam => absurd hteam hsolve⟩⟩

/-- The ten teams of bracket 3 with the most solves in a category. -/
theorem wellScoped_bracketSpec : ∃ q, compileQuery (fun s => signedDecimal s.toList) .mariadb
    (bracketSpec "web" 3 10 (by decide)) = .ok q ∧
      q.query.wellScoped schema = true ∧ q.query.fits (operands q.params) = true := by
  have hscope : (bracketSpec "web" 3 10 (by decide)).InScope := by
    refine ⟨rfl, fun h => Entity.noConfusion h, fun f hf => ?_, fun _ => .inr rfl⟩
    rcases List.mem_pair.mp hf with rfl | rfl <;> rfl
  exact ⟨_, rfl, (@wellScoped_iff_inScope (fun s => signedDecimal s.toList) _ _ _ rfl).mpr hscope⟩

/-- First bloods with a condition on a number of solves, which only teams have. -/
def solvedCountSpec : QuerySpec where
  rule := "first bloods of the teams with a solve"
  entity := .solve
  metric := .firstBlood
  filters := [⟨.solvedCount, .ge, .int 1, Operator.noConfusion⟩]
  limit := .int 500
  order := {}
  limit_positive := rfl

theorem solvedCountSpec_not_wellScoped :
    validateQuerySpec solvedCountSpec.payload = .ok solvedCountSpec ∧
      ∃ q, compileQuery (fun s => signedDecimal s.toList) .mariadb solvedCountSpec = .ok q ∧
        q.query.wellScoped schema = false :=
  ⟨validateQuerySpec_payload _ (by decide), _, rfl, by decide⟩

end Spec

end Fctf.Rewards
