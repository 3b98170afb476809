import Fctf.Rewards.Evaluate

/-!
Filters are conjunctive where each of them is compared as it is written and none replaces another:
every row that a query returns then meets every filter of its specification.
-/

namespace Fctf.Rewards

open Query Ranking Traverse
open Aggregates (EnrichedSolve ofTeam)

/-! ### What a filter says of a row -/

/-- The column of solves that has a field. -/
def FilterField.solveColumn : FilterField → Option String
  | .category => some "category"
  | .solveTime => some "solve_time"
  | .firstBlood => some "is_first_blood"
  | .hintUsed => some "hint_used"
  | .teamId => some "team_id"
  | .challengeId => some "challenge_id"
  | _ => none

/-- The column of the result that has a field. -/
def FilterField.resultColumn (entity : Entity) : FilterField → Option String
  | .solvedCount => some "solved_count"
  | .wrongCount => some (if entity = .solve then "wrong_before" else "wrong_count")
  | .rank => some "rank"
  | .totalScore => some "total_score"
  | .firstBloodCount => some "first_blood_count"
  | .categoryClearCount => some "category_clear_count"
  | _ => none

section Reading

variable (dbms : Dbms) (db : Aggregates.Db)

/-- `field operator value`, with what the row has in the field. -/
def FilterSpec.holds (f : FilterSpec) (x : Cell) : Bool :=
  if f.operator = .isIn then f.value.items.any (dbms.compare .eq x)
  else dbms.compare f.operator x f.value

def FilterSpec.holdsOfSolve (f : FilterSpec) (sf : EnrichedSolve) : Prop :=
  ∃ x ∈ f.field.solveColumn.bind (solveCell sf), f.holds dbms x = true

/-- There are challenges of the category, and the team has solved them all. -/
def Clears (f : FilterSpec) (teamId : Nat) : Prop :=
  (∃ c ∈ db.challenges, f.holds dbms (.nullable .text c.category) = true) ∧
    ∀ c ∈ db.challenges, f.holds dbms (.nullable .text c.category) = true →
      ∃ sf ∈ Aggregates.solvesEnriched db,
        sf.teamId = some teamId ∧ sf.challengeId = some c.id

/-- What a row is about: its team, a solve, its columns, and whether it is the first clear of a
category. -/
structure Subject where
  teamId : Option Nat
  solve : Option EnrichedSolve
  column : FilterField → Option Cell
  firstClear : Bool

/-- The row meets the filter, read as `field operator value` on its team or solve. -/
def Meets (subject : Subject) (f : FilterSpec) : Prop :=
  match f.field with
  | .category | .solveTime | .firstBlood | .hintUsed | .challengeId =>
    ∃ sf ∈ subject.solve, f.holdsOfSolve dbms sf
  | .teamId => f.holds dbms (.nullable idCell subject.teamId) = true
  | .bracketId => ∃ t ∈ db.teams, subject.teamId = some t.id ∧
      f.holds dbms (.nullable idCell t.bracketId) = true
  | .fullClearCategory => ∃ id ∈ subject.teamId, Clears dbms db f id
  | .firstClearEachCategory => f.operator = .eq ∧ f.value.truth = subject.firstClear
  | .rank | .solvedCount | .wrongCount | .totalScore | .firstBloodCount | .categoryClearCount =>
    ∃ x ∈ subject.column f.field, f.holds dbms x = true

/-- The subject of a row. A row of a team stands for one of its solves, if it has any; the columns
of a first clear are those of its team in the ranking. -/
inductive Subject.Of (teams : List RankedTeam) : ResultRow → Subject → Prop
  | team (row : RankedTeam) (sf : Option EnrichedSolve)
      (hsf : ∀ s ∈ sf, s ∈ Aggregates.solvesEnriched db ∧ s.teamId = some row.columns.entityId) :
      Of teams (.team row) ⟨some row.columns.entityId, sf,
        fun field => (field.resultColumn .team).bind row.cell, false⟩
  | firstClear (row : Completion) (sf : Option EnrichedSolve)
      (hsf : ∀ s ∈ sf, s ∈ Aggregates.solvesEnriched db ∧ s.teamId = some row.entityId) :
      Of teams (.firstClear row) ⟨some row.entityId, sf,
        fun field => (teams.find? fun t => t.columns.entityId = row.entityId).bind fun t =>
          (field.resultColumn .team).bind t.cell, true⟩
  | solve (row : SolveRow) :
      Of teams (.solve row) ⟨row.solve.teamId, some row.solve,
        fun field => (field.resultColumn .solve).bind row.cell, false⟩

end Reading

section Property

variable (dbms : Dbms) (intOfText : String → Option Int) (dialect : Dialect)
  (db : Aggregates.Db) (names : Option Nat → Option String) (spec : QuerySpec)

/-- The teams of a query before any condition on them. -/
def standings : List RankedTeam :=
  match compileQuery intOfText dialect spec,
    compileFilters intOfText spec.entity 0 spec.filters {} with
  | .ok q, .ok c => ranked spec c (aggregatedTeams dbms q.params db
      (filteredSolves dbms q.params db c.baseConditions) c.bracketFilter c.fullClearCategory)
  | _, _ => []

/-- The comparisons of a condition with parameters. -/
def Condition.comparisons : Condition → List (Operator × String)
  | .compare _ operator param => [(operator, param)]
  | .among _ params => params.map fun param => (.isIn, param)
  | .fullClearPass => []

/-- The comparisons of a query with the parameters of its filters. -/
def Compiled.comparisons (c : Compiled) : List (Operator × String) :=
  (c.baseConditions ++ (c.rankConditions ++ c.aggConditions)).flatMap Condition.comparisons ++
    c.bracketFilter.toList.map (fun param => (.eq, param)) ++ [(.eq, "full_clear_category")]

/-- The parameters that are compared for a filter. -/
def FilterSpec.comparedKeys (idx : Nat) (f : FilterSpec) : List String :=
  if f.field = .fullClearCategory then ["full_clear_category"] else keysOf idx f

/-- Every row that is returned meets every filter, and no filter is compared with an operator other
than its own. -/
structure Conjunctive : Prop where
  rows : ∀ rows, executeQuery dbms db names spec intOfText dialect = some rows → ∀ row ∈ rows,
    ∃ subject, Subject.Of db (standings dbms intOfText dialect db spec) row subject ∧
      ∀ f ∈ spec.filters, Meets dbms db subject f
  operators : ∀ c, compileFilters intOfText spec.entity 0 spec.filters {} = .ok c →
    ∀ p ∈ numbered spec.filters, ∀ comparison ∈ c.comparisons,
      comparison.2 ∈ p.1.comparedKeys p.2 → comparison.1 = p.1.operator

/-! ### When filters are conjunctive -/

/-- Fields that are compared with `=` only. -/
def FilterField.equated : FilterField → Bool
  | .firstBlood | .hintUsed | .teamId | .bracketId | .fullClearCategory
  | .firstClearEachCategory => true
  | _ => false

/-- The values that a filter compares with. -/
def FilterSpec.operands (f : FilterSpec) : List Value :=
  if f.operator = .isIn then f.value.items else [f.value]

/-- The operator between a column and one of these values. -/
def FilterSpec.comparison (f : FilterSpec) : Operator :=
  if f.operator = .isIn then .eq else f.operator

/-- A filter is compared with its own operator and value. -/
structure FilterSpec.Kept (f : FilterSpec) : Prop where
  operator : f.field.equated = true → f.operator = .eq
  /-- Python's `int` is the number that the database takes a value for, where it has an id. -/
  number : f.field = .teamId ∨ f.field = .challengeId ∨ f.field = .bracketId →
    ∀ value ∈ f.operands, ∀ n, value.toInt intOfText = some n → ∀ id : Option Nat,
      dbms.compare f.comparison (.nullable idCell id) (.int n) =
        dbms.compare f.comparison (.nullable idCell id) value
  /-- Python's `bool` is the truth that it takes a value for, where it has one. -/
  truth : f.field = .firstBlood ∨ f.field = .hintUsed →
    ∀ sf : EnrichedSolve, ∀ x ∈ f.field.solveColumn.bind (solveCell sf),
      dbms.compare .eq x (.bool f.value.truth) = dbms.compare .eq x f.value

/-- What the columns of a team have that has no solves. -/
def unsolvedCell (t : Board.Account) : FilterField → Option Cell
  | .solvedCount | .firstBloodCount | .categoryClearCount => some (.int 0)
  | .totalScore => some (.int ((db.awardsOf t).map fun award => award.value.getD 0).sum)
  | .wrongCount => some (.int
      (db.submissions.filter fun s => s.teamId = some t.id ∧ s.type = .incorrect).length)
  | _ => none

/-- Its metric. -/
def unsolvedMetric (t : Board.Account) : Metric → Int
  | .teamTotalScore => ((db.awardsOf t).map fun award => award.value.getD 0).sum
  | .wrongSubmissionCount =>
    (db.submissions.filter fun s => s.teamId = some t.id ∧ s.type = .incorrect).length
  | _ => 0

/-- A team may be returned without a solve. -/
structure ShownUnsolved (t : Board.Account) : Prop where
  metric : 0 < unsolvedMetric db t spec.metric
  bracket : ∀ f ∈ spec.filters, f.field = .bracketId →
    f.holds dbms (.nullable idCell t.bracketId) = true
  columns : ∀ f ∈ spec.filters, ∀ x ∈ unsolvedCell db t f.field, f.holds dbms x = true
  notCleared : ∀ f ∈ spec.filters, f.field ≠ .fullClearCategory

/-- A team that may be returned without a solve has one that meets the filters of solves, unless
there are none but for its id. -/
def TeamsMatched : Prop :=
  ∀ t ∈ db.teams, ShownUnsolved dbms db spec t →
    (∃ sf ∈ Aggregates.solvesEnriched db, sf.teamId = some t.id ∧
      ∀ f ∈ spec.filters, f.field.solveColumn.isSome = true → f.holdsOfSolve dbms sf) ∨
    ∀ f ∈ spec.filters, f.field.solveColumn.isSome = true →
      f.field = .teamId ∧ f.holds dbms (idCell t.id) = true

/-- Each filter is compared as it is written, none replaces another, and the query has conditions
for all of them. -/
structure FiltersKept : Prop where
  kept : ∀ f ∈ spec.filters, f.Kept dbms intOfText
  bracket : ∀ f ∈ spec.filters, ∀ g ∈ spec.filters, f.field = .bracketId → g.field = .bracketId →
    f.value.toInt intOfText = g.value.toInt intOfText
  fullClear : ∀ f ∈ spec.filters, f.field = .fullClearCategory →
    f.value = spec.fullClear ∧ f.value.isNull = false
  firstClear : ∀ f ∈ spec.filters, f.field = .firstClearEachCategory →
    f.value.truth = spec.firstClear
  shape : spec.firstClear = true → ∀ f ∈ spec.filters,
    f.field.resultColumn .team = none ∧ f.field ≠ .fullClearCategory
  matched : spec.entity = .team → spec.firstClear = false → TeamsMatched dbms db spec

end Property

/-! ### The conditions of a filter -/

section Conditions

variable {dbms : Dbms} {intOfText : String → Option Int} {entity : Entity}
  {params : List (String × Value)} {idx : Nat} {f : FilterSpec} {cell : String → Option Cell}

theorem FilterSpec.holds_isIn (hop : f.operator = .isIn) :
    f.holds dbms = fun x => f.value.items.any (dbms.compare .eq x) := by
  funext x
  exact if_pos hop

theorem FilterSpec.holds_of_ne (hop : f.operator ≠ .isIn) :
    f.holds dbms = fun x => dbms.compare f.operator x f.value := by
  funext x
  exact if_neg hop

theorem holds_own (column : Sql.Column) (hvalue : Dict.get params (paramKey idx) = some f.value) :
    (Condition.compare column f.operator (paramKey idx)).holds dbms params cell =
      (cell column.name).any (f.holds dbms) := by
  simp only [Condition.holds, boundTo, hvalue, Option.getD_some]
  rfl

/-- A comparison with `=`, where the value that is bound stands for that of the filter. -/
theorem holds_equated (column : Sql.Column) (hop : f.operator = .eq) {value : Value}
    (hvalue : Dict.get params (paramKey idx) = some value)
    (hsame : ∀ x ∈ cell column.name, dbms.compare .eq x value = dbms.compare .eq x f.value) :
    (Condition.compare column .eq (paramKey idx)).holds dbms params cell =
      (cell column.name).any (f.holds dbms) := by
  rw [FilterSpec.holds_of_ne (hop ▸ Operator.noConfusion), hop]
  simp only [Condition.holds, boundTo, hvalue, Option.getD_some, reduceCtorEq, if_false]
  cases hcell : cell column.name with
  | none => rfl
  | some x => exact hsame x hcell

/-- A list with a parameter for each element. -/
theorem any_items (values : List Value)
    (h : ∀ j (hj : j < values.length), Dict.get params (itemKey idx j) = some values[j])
    (p : Value → Bool) :
    (((List.range values.length).map (itemKey idx)).any fun name => p (boundTo params name)) =
      values.any p := by
  rw [Bool.eq_iff_iff, List.any_eq_true, List.any_eq_true]
  constructor
  · rintro ⟨name, hname, hp⟩
    obtain ⟨j, hj, rfl⟩ := List.mem_map.mp hname
    rw [List.mem_range] at hj
    rw [boundTo, h j hj] at hp
    exact ⟨_, List.getElem_mem hj, hp⟩
  · rintro ⟨value, hvalue, hp⟩
    obtain ⟨j, hj, rfl⟩ := List.mem_iff_getElem.mp hvalue
    refine ⟨_, List.mem_map_of_mem (List.mem_range.mpr hj), ?_⟩
    rw [boundTo, h j hj]
    exact hp

theorem any_of_mapM {values : List Value} {ns : List Int}
    (h : values.mapM (Value.toInt intOfText) = some ns) {p : Value → Bool}
    (hp : ∀ value ∈ values, ∀ n, value.toInt intOfText = some n → p (.int n) = p value) :
    (ns.map Value.int).any p = values.any p := by
  induction values generalizing ns with
  | nil =>
    obtain rfl : [] = ns := by simpa using h
    rfl
  | cons value values ih =>
    rw [List.mapM_cons] at h
    simp only [Option.bind_eq_bind, Option.bind_eq_some_iff] at h
    obtain ⟨n, hn, rest, hrest, h⟩ := h
    obtain rfl : n :: rest = ns := by simpa using h
    rw [List.forall_mem_cons] at hp
    rw [List.map_cons, List.any_cons, List.any_cons, hp.1 n hn, ih hrest hp.2]

variable {ps : List (String × Value)} (hps : assignments intOfText entity idx f = some ps)
  (hget : ∀ p ∈ ps, Dict.get params p.1 = some p.2) (hkept : f.Kept dbms intOfText)

include hps hget hkept

/-- A filter of solves is one condition on its column. -/
theorem holds_baseOf {name : String} (hname : f.field.solveColumn = some name) :
    ∃ condition, baseOf idx f = [condition] ∧ ∀ sf : EnrichedSolve,
      condition.holds dbms params (solveCell sf) = (solveCell sf name).any (f.holds dbms) := by
  obtain ⟨field, operator, value, hin⟩ := f
  cases field with
  | category =>
    obtain rfl := Option.some.inj hname
    by_cases hop : operator = .isIn
    · obtain rfl : value.items.mapIdx (fun j v => (itemKey idx j, v)) = ps := by
        simpa [assignments, hop] using hps
      have hitems := @any_items params idx value.items fun j hj =>
        hget _ (List.mem_mapIdx.mpr ⟨j, hj, rfl⟩)
      refine ⟨_, if_pos hop, fun sf => ?_⟩
      rw [FilterSpec.holds_isIn hop]
      simp only [Condition.holds, keysOf, hop, if_true, hitems, qualified]
    · obtain rfl : [(paramKey idx, value)] = ps := by simpa [assignments, hop] using hps
      exact ⟨_, if_neg hop, fun sf =>
        holds_own (f := ⟨.category, operator, value, hin⟩) _ (hget _ (List.mem_singleton_self _))⟩
  | challengeId =>
    obtain rfl := Option.some.inj hname
    by_cases hop : operator = .isIn
    · obtain ⟨ns, hns, rfl⟩ : ∃ ns, value.items.mapM (Value.toInt intOfText) = some ns ∧
          ns.mapIdx (fun j n => (itemKey idx j, Value.int n)) = ps := by
        simpa [assignments, hop] using hps
      have hlength := length_of_mapM hns
      have hitems := @any_items params idx (ns.map Value.int) fun j hj => by
        rw [List.getElem_map]
        exact hget _ (List.mem_mapIdx.mpr ⟨j, by simpa using hj, rfl⟩)
      rw [List.length_map, hlength] at hitems
      refine ⟨_, if_pos hop, fun sf => ?_⟩
      have hsame : (ns.map Value.int).any (dbms.compare .eq (.nullable idCell sf.challengeId)) =
          value.items.any (dbms.compare .eq (.nullable idCell sf.challengeId)) := by
        refine any_of_mapM hns fun v hv n hn => ?_
        have hv' : v ∈ FilterSpec.operands ⟨.challengeId, operator, value, hin⟩ := by
          simpa only [FilterSpec.operands, hop, if_true] using hv
        have hnumber := hkept.number (.inr (.inl rfl)) v hv' n hn sf.challengeId
        simpa only [FilterSpec.comparison, hop, if_true] using hnumber
      rw [FilterSpec.holds_isIn hop]
      simp only [Condition.holds, keysOf, hop, if_true, hitems, solveCell, Option.any_some, hsame,
        qualified]
    · obtain ⟨n, hn, rfl⟩ : ∃ n, value.toInt intOfText = some n ∧
          [(paramKey idx, Value.int n)] = ps := by
        simpa [assignments, hop] using hps
      have hvalue := hget _ (List.mem_singleton_self _)
      have hown : value ∈ FilterSpec.operands ⟨.challengeId, operator, value, hin⟩ := by
        simp only [FilterSpec.operands, hop, if_false, List.mem_singleton]
      refine ⟨_, if_neg hop, fun sf => ?_⟩
      have hsame := hkept.number (.inr (.inl rfl)) value hown n hn sf.challengeId
      simp only [FilterSpec.comparison, hop, if_false] at hsame
      rw [FilterSpec.holds_of_ne hop]
      simp only [Condition.holds, boundTo, hvalue, Option.getD_some, hop, if_false, solveCell,
        Option.any_some, hsame, qualified]
  | solveTime =>
    obtain rfl := Option.some.inj hname
    obtain rfl : [(paramKey idx, value)] = ps := by simpa [assignments] using hps
    exact ⟨_, rfl, fun sf =>
      holds_own (f := ⟨.solveTime, operator, value, hin⟩) _ (hget _ (List.mem_singleton_self _))⟩
  | firstBlood =>
    obtain rfl := Option.some.inj hname
    obtain rfl : [(paramKey idx, Value.bool value.truth)] = ps := by
      simpa [assignments] using hps
    exact ⟨_, rfl, fun sf => holds_equated _ (hkept.operator rfl)
      (hget _ (List.mem_singleton_self _)) (hkept.truth (.inl rfl) sf)⟩
  | hintUsed =>
    obtain rfl := Option.some.inj hname
    obtain rfl : [(paramKey idx, Value.bool value.truth)] = ps := by
      simpa [assignments] using hps
    exact ⟨_, rfl, fun sf => holds_equated _ (hkept.operator rfl)
      (hget _ (List.mem_singleton_self _)) (hkept.truth (.inr rfl) sf)⟩
  | teamId =>
    obtain rfl := Option.some.inj hname
    obtain ⟨n, hn, rfl⟩ : ∃ n, value.toInt intOfText = some n ∧
        [(paramKey idx, Value.int n)] = ps := by
      simpa [assignments] using hps
    have hop : operator = .eq := hkept.operator rfl
    have hown : value ∈ FilterSpec.operands ⟨.teamId, operator, value, hin⟩ := by
      simp only [FilterSpec.operands, hop, reduceCtorEq, if_false, List.mem_singleton]
    refine ⟨_, rfl, fun sf => holds_equated _ hop (hget _ (List.mem_singleton_self _)) ?_⟩
    intro x hx
    obtain rfl : Cell.nullable idCell sf.teamId = x := Option.some.inj hx
    have hnumber := hkept.number (.inl rfl) value hown n hn sf.teamId
    simpa only [FilterSpec.comparison, hop, reduceCtorEq, if_false] using hnumber
  | _ => cases hname

omit hkept in
/-- A filter of the result has a condition on its column. -/
theorem holds_finalOf {name : String} (hname : f.field.resultColumn entity = some name) :
    ∃ condition ∈ rankOf idx f ++ aggOf entity idx f,
      ∀ cell, condition.holds dbms params cell = (cell name).any (f.holds dbms) := by
  obtain ⟨field, operator, value, hin⟩ := f
  have hbound : ps = [(paramKey idx, value)] → Dict.get params (paramKey idx) = some value := by
    rintro rfl
    exact hget _ (List.mem_singleton_self _)
  cases field with
  | rank =>
    obtain rfl := Option.some.inj hname
    have hvalue : Dict.get params (paramKey idx) = some value := by
      cases entity with
      | team => exact hbound (Option.some.inj hps).symm
      | solve => cases hps
    exact ⟨_, List.mem_append_left _ (List.mem_singleton_self _), fun cell =>
      holds_own (f := ⟨.rank, operator, value, hin⟩) _ hvalue⟩
  | solvedCount | wrongCount | totalScore | firstBloodCount | categoryClearCount =>
    obtain rfl := Option.some.inj hname
    exact ⟨_, List.mem_append_right _ (List.mem_singleton_self _), fun cell =>
      holds_own (f := ⟨_, operator, value, hin⟩) _ (hbound (Option.some.inj hps).symm)⟩
  | _ => cases hname

end Conditions

/-! ### The compiled query -/

section Compiled

variable {dbms : Dbms} {intOfText : String → Option Int} {dialect : Dialect}
  {db : Aggregates.Db} {names : Option Nat → Option String} {spec : QuerySpec} {c : Compiled}
  {params : List (String × Value)}

/-- The variables and the parameters that a specification is compiled to. -/
structure Compiles (intOfText : String → Option Int) (spec : QuerySpec) (c : Compiled)
    (params : List (String × Value)) : Prop where
  collected : Collected intOfText spec.entity spec.filters c
  bound : ∀ p ∈ numbered spec.filters, ∃ ps, assignments intOfText spec.entity p.2 p.1 = some ps ∧
    ∀ r ∈ ps, Dict.get params r.1 = some r.2
  scope : spec.InScope

theorem executeQuery_spec {rows : List ResultRow}
    (h : executeQuery dbms db names spec intOfText dialect = some rows) :
    ∃ c params, Compiles intOfText spec c params ∧
      rows = evaluate dbms params db names spec c := by
  unfold executeQuery at h
  cases hq : compileQuery intOfText dialect spec with
  | error fault =>
    rw [hq] at h
    cases h
  | ok q =>
    cases hc : compileFilters intOfText spec.entity 0 spec.filters {} with
    | error fault =>
      rw [hq, hc] at h
      cases h
    | ok c =>
      rw [hq, hc] at h
      simp only [Bool.and_eq_true] at h
      split_ifs at h with hfits
      refine ⟨c, q.params, ?_, (Option.some.inj h).symm⟩
      have hscope := (wellScoped_iff_inScope hq).mp hfits
      obtain ⟨-, hvalues, hq⟩ := (compileQuery_ok intOfText).mp hq
      have hlast := ((compileFilters_ok intOfText spec.entity).mp hc).2
      have hcollected := collected_spec intOfText spec.entity spec.filters
      rw [hlast] at hq hcollected
      refine ⟨hcollected, fun p hp => ?_, hscope⟩
      obtain ⟨ps, hps⟩ := Option.isSome_iff_exists.mp (hvalues p hp)
      refine ⟨ps, hps, fun r hr => ?_⟩
      rw [← hq]
      exact get_param hcollected hvalues _ rfl hp hps hr

variable (hc : Compiles intOfText spec c params) (hkept : FiltersKept dbms intOfText db spec)

include hc hkept

/-- The solves that are left are those that every filter of solves holds of. -/
theorem mem_filteredSolves {sf : EnrichedSolve} :
    sf ∈ filteredSolves dbms params db c.baseConditions ↔
      sf ∈ Aggregates.solvesEnriched db ∧
        ∀ f ∈ spec.filters, f.field.solveColumn.isSome = true → f.holdsOfSolve dbms sf := by
  have hfilter : ∀ p ∈ numbered spec.filters,
      (∀ condition ∈ baseOf p.2 p.1, condition.holds dbms params (solveCell sf) = true) ↔
        (p.1.field.solveColumn.isSome = true → p.1.holdsOfSolve dbms sf) := by
    rintro ⟨f, idx⟩ hp
    obtain ⟨ps, hps, hget⟩ := hc.bound _ hp
    cases hname : f.field.solveColumn with
    | none =>
      have hnone : baseOf idx f = [] := by
        obtain ⟨field, operator, value, hin⟩ := f
        cases field <;> first | rfl | cases hname
      simp [hnone]
    | some name =>
      obtain ⟨condition, hbase, hholds⟩ :=
        holds_baseOf hps hget (hkept.kept f (mem_of_numbered hp)) hname
      rw [hbase, List.forall_mem_singleton, hholds, Option.any_eq_true]
      simp [FilterSpec.holdsOfSolve, hname]
  rw [filteredSolves, List.mem_filter, List.all_eq_true, hc.collected.base]
  refine and_congr_right fun _ => ?_
  simp only [List.mem_flatMap, forall_exists_index, and_imp]
  constructor
  · intro h f hf
    obtain ⟨idx, hp⟩ := exists_numbered hf
    exact (hfilter _ hp).mp fun condition hcondition => h condition _ hp hcondition
  · intro h condition p hp hcondition
    exact (hfilter p hp).mpr (h p.1 (mem_of_numbered hp)) condition hcondition

/-- A team of the bracket meets every filter by brackets. -/
theorem holds_bracket {team : Option Board.Account}
    (hteam : inBracket dbms params c.bracketFilter team = true) {f : FilterSpec}
    (hf : f ∈ spec.filters) (hfield : f.field = .bracketId) :
    ∃ t ∈ team, f.holds dbms (.nullable idCell t.bracketId) = true := by
  have hop : f.operator = .eq := (hkept.kept f hf).operator (by rw [hfield]; rfl)
  obtain ⟨idx, hp⟩ := exists_numbered hf
  have hne : ((numbered spec.filters).filterMap fun p =>
      if p.1.field = .bracketId then some (paramKey p.2) else none) ≠ [] :=
    List.ne_nil_of_mem (List.mem_filterMap.mpr ⟨_, hp, if_pos hfield⟩)
  obtain ⟨key, hkey⟩ := Option.isSome_iff_exists.mp (List.getLast?_isSome.mpr hne)
  obtain ⟨⟨g, idx'⟩, hp', hset⟩ := List.mem_filterMap.mp (List.mem_of_getLast? hkey)
  split_ifs at hset with hfield'
  change g.field = .bracketId at hfield'
  obtain rfl := Option.some.inj hset
  obtain ⟨ps, hps, hget⟩ := hc.bound _ hp'
  obtain ⟨n, hn, rfl⟩ : ∃ n, g.value.toInt intOfText = some n ∧
      [(paramKey idx', Value.int n)] = ps := by
    simpa [assignments, hfield'] using hps
  have hvalue := hget _ (List.mem_singleton_self _)
  have hn' : f.value.toInt intOfText = some n :=
    (hkept.bracket f hf g (mem_of_numbered hp') hfield hfield').trans hn
  have hown : f.value ∈ f.operands := by
    simp only [FilterSpec.operands, hop, reduceCtorEq, if_false, List.mem_singleton]
  rw [hc.collected.bracket, hkey] at hteam
  simp only [inBracket, Option.all_some, Option.any_eq_true, boundTo, hvalue,
    Option.getD_some] at hteam
  obtain ⟨t, ht, hholds⟩ := hteam
  have hsame := (hkept.kept f hf).number (.inr (.inr hfield)) f.value hown n hn' t.bracketId
  simp only [FilterSpec.comparison, hop, reduceCtorEq, if_false] at hsame
  rw [hsame] at hholds
  refine ⟨t, ht, ?_⟩
  simpa only [FilterSpec.holds, hop, reduceCtorEq, if_false] using hholds

omit hkept in
/-- Each filter of the result is met by the rows for which the collected conditions hold. -/
theorem holds_result {cell : String → Option Cell}
    (h : ∀ condition ∈ c.rankConditions ++ c.aggConditions,
      condition.holds dbms params cell = true) {f : FilterSpec} (hf : f ∈ spec.filters)
    {name : String} (hname : f.field.resultColumn spec.entity = some name) :
    ∃ x ∈ cell name, f.holds dbms x = true := by
  obtain ⟨idx, hp⟩ := exists_numbered hf
  obtain ⟨ps, hps, hget⟩ := hc.bound _ hp
  obtain ⟨condition, hcondition, hholds⟩ : ∃ condition ∈ rankOf idx f ++ aggOf spec.entity idx f,
      ∀ cell, condition.holds dbms params cell = (cell name).any (f.holds dbms) :=
    holds_finalOf hps hget hname
  have hmem : condition ∈ c.rankConditions ++ c.aggConditions := by
    rw [List.mem_append, hc.collected.rank, hc.collected.agg, List.mem_flatMap, List.mem_flatMap]
    exact (List.mem_append.mp hcondition).imp (fun hmem => ⟨_, hp, hmem⟩) fun hmem => ⟨_, hp, hmem⟩
  have hrow := h condition hmem
  rw [hholds, Option.any_eq_true] at hrow
  exact hrow

end Compiled

/-! ### Full clears -/

section FullClear

variable {dbms : Dbms} {db : Aggregates.Db} {solves : List EnrichedSolve} {t : Board.Account}

theorem challenge_of_enriched {sf : EnrichedSolve} (h : sf ∈ Aggregates.solvesEnriched db) :
    ∃ c ∈ db.challenges, sf.challengeId = some c.id ∧ sf.category = c.category := by
  obtain ⟨solve, hsolve, rfl⟩ := Aggregates.mem_solvesEnriched.mp h
  have hone := Aggregates.filter_challenges hsolve
  have hmem : Aggregates.challengeOf db solve ∈
      db.challenges.filter fun c => some c.id = solve.challengeId := by
    rw [hone]
    exact List.mem_singleton_self _
  obtain ⟨hchallenge, hid⟩ := List.mem_filter.mp hmem
  exact ⟨_, hchallenge, (of_decide_eq_true hid).symm, rfl⟩

/-- As many challenges as there are in the category are all of them. -/
theorem solved_of_total (hsolves : ∀ sf ∈ solves, sf ∈ Aggregates.solvesEnriched db) {value : Value}
    (htotal : (teamColumns dbms db solves value t).categoryTotalCount ≤
      (teamColumns dbms db solves value t).categorySolvedCount) :
    ∀ c ∈ db.challenges, inCategory dbms value c.category = true →
      ∃ sf ∈ solves, sf.teamId = some t.id ∧ sf.challengeId = some c.id := by
  let cleared := (solves.filter (ofTeam t)).filter fun sf => inCategory dbms value sf.category
  let all := db.challenges.filter fun c => inCategory dbms value c.category
  have hsub : (cleared.filterMap fun sf => sf.challengeId).dedup ⊆
      all.map Aggregates.Challenge.id := by
    intro id hid
    obtain ⟨sf, hsf, hid⟩ := List.mem_filterMap.mp (List.mem_dedup.mp hid)
    obtain ⟨hsf, hcategory⟩ := List.mem_filter.mp hsf
    obtain ⟨c, hchallenge, hchallengeId, hsame⟩ :=
      challenge_of_enriched (hsolves sf (List.mem_filter.mp hsf).1)
    obtain rfl : c.id = id := Option.some.inj (hchallengeId.symm.trans hid)
    rw [hsame] at hcategory
    exact List.mem_map_of_mem (List.mem_filter.mpr ⟨hchallenge, hcategory⟩)
  have hlength : (all.map Aggregates.Challenge.id).length ≤
      (cleared.filterMap fun sf => sf.challengeId).dedup.length := by
    rw [List.length_map, ← categorySolvedCount_teamColumns]
    exact htotal
  have hperm := (List.subperm_of_subset (List.nodup_dedup _) hsub).perm_of_length_le hlength
  intro c hchallenge hcategory
  have hid : c.id ∈ all.map Aggregates.Challenge.id :=
    List.mem_map_of_mem (List.mem_filter.mpr ⟨hchallenge, hcategory⟩)
  obtain ⟨sf, hsf, hid⟩ := List.mem_filterMap.mp (List.mem_dedup.mp (hperm.mem_iff.mpr hid))
  obtain ⟨hsf, hteam⟩ := List.mem_filter.mp (List.mem_filter.mp hsf).1
  rw [ofTeam, sqlEq_some, decide_eq_true_iff] at hteam
  exact ⟨sf, hsf, hteam, hid⟩

end FullClear

/-! ### The rows of each shape -/

section Rows

variable {dbms : Dbms} {params : List (String × Value)} {db : Aggregates.Db}
  {names : Option Nat → Option String} {spec : QuerySpec} {c : Compiled}

/-- A row of the ranking is that of a team. -/
structure OfTeam (dbms : Dbms) (params : List (String × Value)) (db : Aggregates.Db)
    (spec : QuerySpec) (c : Compiled) (row : RankedTeam) (t : Board.Account) : Prop where
  team : t ∈ db.teams
  bracket : inBracket dbms params c.bracketFilter (some t) = true
  columns : row.columns = teamColumns dbms db (filteredSolves dbms params db c.baseConditions)
    c.fullClearCategory t
  cleared : row.fullClearPass = true → c.fullClearCategory.isNull = true ∨
    0 < row.columns.categoryTotalCount ∧
      row.columns.categoryTotalCount ≤ row.columns.categorySolvedCount
  conditions : ∀ condition ∈ c.rankConditions ++ c.aggConditions,
    condition.holds dbms params row.cell = true
  metric : 0 < row.columns.metric spec.metric

theorem of_mem_teamRows {row : RankedTeam} (h : row ∈ teamRows dbms params db spec c) :
    ∃ t, OfTeam dbms params db spec c row t := by
  have hordered := List.mem_of_mem_take h
  obtain ⟨hranked, hshown⟩ := List.mem_filter.mp ((orderBy_perm _ _).mem_iff.mp hordered)
  rw [Bool.and_eq_true, List.all_eq_true, decide_eq_true_iff] at hshown
  obtain ⟨ta, hta, rfl⟩ := List.mem_map.mp hranked
  rw [aggregatedTeams_eq] at hta
  obtain ⟨t, ht, rfl⟩ := List.mem_map.mp hta
  obtain ⟨hteam, hbracket⟩ := List.mem_filter.mp ht
  refine ⟨t, hteam, hbracket, rfl, fun hpass => ?_, hshown.1, hshown.2⟩
  simpa only [Bool.or_eq_true, Bool.and_eq_true, decide_eq_true_iff] using hpass

/-- The first clear of a category is that of a team of the bracket with a solve that is left. -/
theorem of_mem_firstClearRows {row : Completion}
    (h : row ∈ firstClearRows dbms params db spec c) :
    ∃ t ∈ db.teams, inBracket dbms params c.bracketFilter (some t) = true ∧
      row.entityId = t.id ∧ ∃ sf ∈ filteredSolves dbms params db c.baseConditions,
        sf.teamId = some t.id := by
  have hordered := List.mem_of_mem_take h
  have hshown := (List.mem_filter.mp ((orderBy_perm _ _).mem_iff.mp hordered)).1
  obtain ⟨g, hg, rfl⟩ := List.mem_map.mp (List.mem_filter.mp hshown).1
  obtain ⟨-, hne⟩ := (mem_groupBy _).mp hg
  obtain ⟨⟨⟨t, sf⟩, ct⟩, hjoined⟩ := List.exists_mem_of_ne_nil _ hne
  obtain ⟨hjoined, hkey⟩ := List.mem_filter.mp hjoined
  obtain ⟨hjoined, hbracket⟩ := List.mem_filter.mp hjoined
  obtain ⟨hteam, hsf, hon⟩ := mem_join.mp (mem_join.mp hjoined).1
  rw [sqlEq_some, decide_eq_true_iff] at hon
  have hid : t.id = g.1.1 := congrArg Prod.fst (of_decide_eq_true hkey)
  exact ⟨t, hteam, hbracket, hid.symm, sf, hsf, hon⟩

/-- A row of solves is that of a solve that is left, with its team. -/
theorem of_mem_solveRowsOf {row : SolveRow} (h : row ∈ solveRowsOf dbms params db names spec c) :
    row.solve ∈ filteredSolves dbms params db c.baseConditions ∧
      (∀ t ∈ row.team, t ∈ db.teams ∧ row.solve.teamId = some t.id) ∧
      inBracket dbms params c.bracketFilter row.team = true ∧
      ∀ condition ∈ c.rankConditions ++ c.aggConditions,
        condition.holds dbms params row.cell = true := by
  have hordered := List.mem_of_mem_take h
  obtain ⟨hrow, hshown⟩ :=
    List.mem_filter.mp ((List.perm_insertionSort _ _).mem_iff.mp hordered)
  rw [Bool.and_eq_true, List.all_eq_true] at hshown
  obtain ⟨⟨⟨sf, wb⟩, t⟩, hjoined, rfl⟩ := List.mem_map.mp hrow
  obtain ⟨hsf, hteam⟩ := of_mem_leftJoin hjoined
  refine ⟨(of_mem_leftJoin hsf).1, fun t' ht' => ?_, hshown⟩
  obtain ⟨hmem, hon⟩ := hteam t' ht'
  obtain ⟨id, hid, hsame⟩ := (Option.any_eq_true ..).mp hon
  obtain rfl := Option.some.inj hid
  exact ⟨hmem, of_decide_eq_true hsame⟩

end Rows

/-! ### Every row meets every filter -/

section Meets

variable {dbms : Dbms} {intOfText : String → Option Int} {dialect : Dialect}
  {db : Aggregates.Db} {names : Option Nat → Option String} {spec : QuerySpec} {c : Compiled}
  {params : List (String × Value)}

theorem meets_of_solve {subject : Subject} {sf : EnrichedSolve} (hsf : subject.solve = some sf)
    (hteam : subject.teamId = sf.teamId) {f : FilterSpec}
    (hname : f.field.solveColumn.isSome = true) (hholds : f.holdsOfSolve dbms sf) :
    Meets dbms db subject f := by
  cases hfield : f.field with
  | category | solveTime | firstBlood | hintUsed | challengeId =>
    simp only [Meets, hfield]
    exact ⟨sf, hsf, hholds⟩
  | teamId =>
    simp only [Meets, hfield]
    obtain ⟨x, hx, hholds⟩ := hholds
    rw [hfield] at hx
    obtain rfl : Cell.nullable idCell sf.teamId = x := Option.some.inj hx
    rw [hteam]
    exact hholds
  | _ =>
    rw [hfield] at hname
    cases hname

variable (hc : Compiles intOfText spec c params) (hkept : FiltersKept dbms intOfText db spec)

include hc hkept

/-- What the conditions of a query leave to show of a row. -/
theorem meets_all {subject : Subject} {team : Option Board.Account}
    (hbracket : inBracket dbms params c.bracketFilter team = true)
    (hteam : ∀ t ∈ team, t ∈ db.teams ∧ subject.teamId = some t.id)
    (hfirst : spec.firstClear = subject.firstClear)
    (hsolve : ∀ f ∈ spec.filters, f.field.solveColumn.isSome = true → Meets dbms db subject f)
    (hresult : ∀ f ∈ spec.filters, (f.field.resultColumn spec.entity).isSome = true →
      ∃ x ∈ subject.column f.field, f.holds dbms x = true)
    (hclear : ∀ f ∈ spec.filters, f.field = .fullClearCategory →
      ∃ id ∈ subject.teamId, Clears dbms db f id) :
    ∀ f ∈ spec.filters, Meets dbms db subject f := by
  intro f hf
  cases hfield : f.field with
  | category | solveTime | firstBlood | hintUsed | challengeId | teamId =>
    exact hsolve f hf (by rw [hfield]; rfl)
  | bracketId =>
    simp only [Meets, hfield]
    obtain ⟨t, ht, hholds⟩ := holds_bracket hc hkept hbracket hf hfield
    exact ⟨t, (hteam t ht).1, (hteam t ht).2, hholds⟩
  | fullClearCategory =>
    simp only [Meets, hfield]
    exact hclear f hf hfield
  | firstClearEachCategory =>
    simp only [Meets, hfield]
    exact ⟨(hkept.kept f hf).operator (by rw [hfield]; rfl),
      (hkept.firstClear f hf hfield).trans hfirst⟩
  | rank | solvedCount | wrongCount | totalScore | firstBloodCount | categoryClearCount =>
    have hrow := hresult f hf (by rw [hfield]; rfl)
    rw [hfield] at hrow
    simp only [Meets, hfield]
    exact hrow

section Team

variable {row : RankedTeam} {t : Board.Account} (h : OfTeam dbms params db spec c row t)

include h

/-- A filter by a full clear leaves the teams that have solved all challenges of the category. -/
theorem OfTeam.total_le {f : FilterSpec} (hf : f ∈ spec.filters)
    (hfield : f.field = .fullClearCategory) :
    c.fullClearCategory = f.value ∧ 0 < row.columns.categoryTotalCount ∧
      row.columns.categoryTotalCount ≤ row.columns.categorySolvedCount := by
  obtain ⟨hlast, hnull⟩ := hkept.fullClear f hf hfield
  have hvalue : c.fullClearCategory = f.value := (fullClear_eq hc.collected).trans hlast.symm
  obtain ⟨idx, hp⟩ := exists_numbered hf
  have hmem : Condition.fullClearPass ∈ c.rankConditions ++ c.aggConditions := by
    rw [List.mem_append, hc.collected.agg]
    exact .inr (List.mem_flatMap.mpr ⟨_, hp, by simp [aggOf, hfield]⟩)
  have hpass : row.fullClearPass = true := by
    have hcondition := h.conditions _ hmem
    simp only [Condition.holds, RankedTeam.cell, decide_eq_true_iff] at hcondition
    by_contra hnot
    rw [if_neg hnot] at hcondition
    exact absurd hcondition (by decide)
  refine ⟨hvalue, (h.cleared hpass).resolve_left ?_⟩
  rw [hvalue, hnull]
  exact Bool.false_ne_true

theorem OfTeam.clears {f : FilterSpec} (hf : f ∈ spec.filters)
    (hfield : f.field = .fullClearCategory) : Clears dbms db f t.id := by
  obtain ⟨hvalue, hpos, hle⟩ := h.total_le hc hkept hf hfield
  have hop : f.operator = .eq := (hkept.kept f hf).operator (by rw [hfield]; rfl)
  have hcategory : ∀ category : Option String, inCategory dbms c.fullClearCategory category =
      f.holds dbms (.nullable .text category) := by
    intro category
    simp only [inCategory, FilterSpec.holds, hop, hvalue, (hkept.fullClear f hf hfield).2,
      Bool.not_false, Bool.true_and, reduceCtorEq, if_false]
  rw [h.columns] at hpos hle
  constructor
  · obtain ⟨challenge, hmem⟩ := List.exists_mem_of_length_pos hpos
    obtain ⟨hchallenge, hin⟩ := List.mem_filter.mp hmem
    exact ⟨challenge, hchallenge, hcategory _ ▸ hin⟩
  · intro challenge hchallenge hin
    rw [← hcategory] at hin
    obtain ⟨sf, hsf, hteam, hid⟩ := solved_of_total
      (fun sf hsf => ((mem_filteredSolves hc hkept).mp hsf).1) hle challenge hchallenge hin
    exact ⟨sf, ((mem_filteredSolves hc hkept).mp hsf).1, hteam, hid⟩

/-- A team of the result without a solve that is left. -/
theorem OfTeam.shownUnsolved (hentity : spec.entity = .team)
    (hown : (filteredSolves dbms params db c.baseConditions).filter (ofTeam t) = []) :
    ShownUnsolved dbms db spec t := by
  have hunsolved := unsolved_teamColumns dbms db c.fullClearCategory hown
  rw [← h.columns] at hunsolved
  constructor
  · have hmetric := h.metric
    cases hcase : spec.metric with
    | teamTotalScore =>
      rw [hcase] at hmetric
      simpa only [Aggregates.TeamAgg.metric, hunsolved.score, unsolvedMetric] using hmetric
    | wrongSubmissionCount =>
      rw [hcase] at hmetric
      simpa only [Aggregates.TeamAgg.metric, hunsolved.wrong, unsolvedMetric] using hmetric
    | _ =>
      rw [hcase] at hmetric
      simp only [Aggregates.TeamAgg.metric, hunsolved.solved, hunsolved.firstBlood,
        hunsolved.categories, hunsolved.perfect] at hmetric
      exact absurd hmetric (by decide)
  · intro f hf hfield
    obtain ⟨t', ht', hholds⟩ := holds_bracket hc hkept h.bracket hf hfield
    obtain rfl := Option.some.inj ht'
    exact hholds
  · intro f hf x hx
    obtain ⟨name, hname, hcell⟩ : ∃ name, f.field.resultColumn spec.entity = some name ∧
        row.cell name = some x := by
      rw [hentity]
      cases hfield : f.field with
      | solvedCount | firstBloodCount | categoryClearCount | totalScore | wrongCount =>
        rw [hfield] at hx
        refine ⟨_, rfl, ?_⟩
        rw [← hx]
        simp [RankedTeam.cell, unsolvedCell, hunsolved.solved, hunsolved.firstBlood,
          hunsolved.categories, hunsolved.score, hunsolved.wrong]
      | _ =>
        rw [hfield] at hx
        cases hx
    obtain ⟨x', hx', hholds⟩ := holds_result hc h.conditions hf hname
    obtain rfl := Option.some.inj (hcell.symm.trans hx')
    exact hholds
  · intro f hf hfield
    obtain ⟨-, hpos, hle⟩ := h.total_le hc hkept hf hfield
    rw [hunsolved.categorySolved] at hle
    exact absurd (hpos.trans_le hle) (lt_irrefl 0)

theorem OfTeam.meets (hentity : spec.entity = .team) (hfirst : spec.firstClear = false)
    (teams : List RankedTeam) : ∃ subject, Subject.Of db teams (.team row) subject ∧
      ∀ f ∈ spec.filters, Meets dbms db subject f := by
  have hid : row.columns.entityId = t.id := by
    rw [h.columns]
    rfl
  have hresult : ∀ f ∈ spec.filters, (f.field.resultColumn spec.entity).isSome = true →
      ∃ x ∈ (f.field.resultColumn .team).bind row.cell, f.holds dbms x = true := by
    intro f hf hsome
    obtain ⟨name, hname⟩ := Option.isSome_iff_exists.mp hsome
    rw [← hentity, hname]
    exact holds_result hc h.conditions hf hname
  have hclear : ∀ f ∈ spec.filters, f.field = .fullClearCategory →
      ∃ id ∈ some row.columns.entityId, Clears dbms db f id :=
    fun f hf hfield => ⟨t.id, congrArg some hid, h.clears hc hkept hf hfield⟩
  have hteam : ∀ t' ∈ some t, t' ∈ db.teams ∧ some row.columns.entityId = some t'.id := by
    intro t' ht'
    obtain rfl := Option.some.inj ht'
    exact ⟨h.team, congrArg some hid⟩
  have hmatched : (∃ sf ∈ Aggregates.solvesEnriched db, sf.teamId = some t.id ∧
      ∀ f ∈ spec.filters, f.field.solveColumn.isSome = true → f.holdsOfSolve dbms sf) ∨
      ∀ f ∈ spec.filters, f.field.solveColumn.isSome = true →
        f.field = .teamId ∧ f.holds dbms (idCell t.id) = true := by
    cases hown : (filteredSolves dbms params db c.baseConditions).filter (ofTeam t) with
    | nil => exact hkept.matched hentity hfirst t h.team (h.shownUnsolved hc hkept hentity hown)
    | cons sf rest =>
      have hmem := List.mem_filter.mp (hown ▸ List.mem_cons_self : sf ∈ _)
      obtain ⟨hsf, hholds⟩ := (mem_filteredSolves hc hkept).mp hmem.1
      rw [ofTeam, sqlEq_some, decide_eq_true_iff] at hmem
      exact .inl ⟨sf, hsf, hmem.2, hholds⟩
  rcases hmatched with ⟨sf, hsf, hsfTeam, hholds⟩ | hnone
  · have hof : ∀ s ∈ some sf, s ∈ Aggregates.solvesEnriched db ∧
        s.teamId = some row.columns.entityId := by
      intro s hs
      obtain rfl := Option.some.inj hs
      exact ⟨hsf, hid ▸ hsfTeam⟩
    refine ⟨_, .team row (some sf) hof, meets_all hc hkept h.bracket hteam hfirst ?_ hresult hclear⟩
    exact fun f hf hname => meets_of_solve rfl ((congrArg some hid).trans hsfTeam.symm) hname
      (hholds f hf hname)
  · have hof : ∀ s ∈ (none : Option EnrichedSolve), s ∈ Aggregates.solvesEnriched db ∧
        s.teamId = some row.columns.entityId := fun s hs => by cases hs
    refine ⟨_, .team row none hof, meets_all hc hkept h.bracket hteam hfirst ?_ hresult hclear⟩
    intro f hf hname
    obtain ⟨hfield, hholds⟩ := hnone f hf hname
    simp only [Meets, hfield, hid]
    exact hholds

end Team

theorem meets_firstClear (hfirst : spec.firstClear = true) {row : Completion}
    (h : row ∈ firstClearRows dbms params db spec c) (teams : List RankedTeam) :
    ∃ subject, Subject.Of db teams (.firstClear row) subject ∧
      ∀ f ∈ spec.filters, Meets dbms db subject f := by
  obtain ⟨t, ht, hbracket, hid, sf, hsf, hsfTeam⟩ := of_mem_firstClearRows h
  obtain ⟨hsf, hholds⟩ := (mem_filteredSolves hc hkept).mp hsf
  have hentity : spec.entity = .team := ((firstClear_iff hc.collected).mp hfirst).1
  have hteam : ∀ t' ∈ some t, t' ∈ db.teams ∧ some row.entityId = some t'.id := by
    intro t' ht'
    obtain rfl := Option.some.inj ht'
    exact ⟨ht, congrArg some hid⟩
  have hof : ∀ s ∈ some sf, s ∈ Aggregates.solvesEnriched db ∧ s.teamId = some row.entityId := by
    intro s hs
    obtain rfl := Option.some.inj hs
    exact ⟨hsf, hid ▸ hsfTeam⟩
  refine ⟨_, .firstClear row (some sf) hof, meets_all hc hkept hbracket hteam hfirst ?_ ?_ ?_⟩
  · exact fun f hf hname => meets_of_solve rfl ((congrArg some hid).trans hsfTeam.symm) hname
      (hholds f hf hname)
  · intro f hf hsome
    rw [hentity, (hkept.shape hfirst f hf).1] at hsome
    cases hsome
  · exact fun f hf hfield => absurd hfield (hkept.shape hfirst f hf).2

theorem meets_solve (hentity : spec.entity = .solve) {row : SolveRow}
    (h : row ∈ solveRowsOf dbms params db names spec c) (teams : List RankedTeam) :
    ∃ subject, Subject.Of db teams (.solve row) subject ∧
      ∀ f ∈ spec.filters, Meets dbms db subject f := by
  obtain ⟨hsf, hteam, hbracket, hconditions⟩ := of_mem_solveRowsOf h
  obtain ⟨-, hholds⟩ := (mem_filteredSolves hc hkept).mp hsf
  have hfirst : spec.firstClear = false := by
    simp [QuerySpec.firstClear, hentity]
  refine ⟨_, .solve row, meets_all hc hkept hbracket hteam hfirst ?_ ?_ ?_⟩
  · exact fun f hf hname => meets_of_solve rfl rfl hname (hholds f hf hname)
  · intro f hf hsome
    obtain ⟨name, hname⟩ := Option.isSome_iff_exists.mp hsome
    simp only [← hentity, hname]
    exact holds_result hc hconditions hf hname
  · intro f hf hfield
    have hscope := hc.scope.filters f hf
    simp [FilterSpec.inScope, hfield, hfirst, hentity] at hscope

end Meets

/-! ### Operators -/

section Operators

variable {dbms : Dbms} {intOfText : String → Option Int} {entity : Entity} {idx : Nat}
  {f : FilterSpec} {comparison : Operator × String}

/-- The conditions of a filter compare its own parameters, with its own operator where it is
kept. -/
theorem comparison_own {condition : Condition}
    (h : condition ∈ baseOf idx f ++ (rankOf idx f ++ aggOf entity idx f))
    (hcomparison : comparison ∈ condition.comparisons) (hkept : f.Kept dbms intOfText) :
    IsKeyOf idx comparison.2 ∧ comparison.1 = f.operator := by
  have hsingle : ∀ operator column, comparison ∈
      (Condition.compare column operator (paramKey idx)).comparisons → operator = f.operator →
        IsKeyOf idx comparison.2 ∧ comparison.1 = f.operator := by
    intro operator column hmem hsame
    obtain rfl := List.mem_singleton.mp hmem
    exact ⟨.inl rfl, hsame⟩
  have hitems : ∀ column, comparison ∈ (Condition.among column (keysOf idx f)).comparisons →
      f.operator = .isIn → IsKeyOf idx comparison.2 ∧ comparison.1 = f.operator := by
    intro column hmem hop
    obtain ⟨param, hparam, rfl⟩ := List.mem_map.mp hmem
    exact ⟨isKeyOf_keysOf hparam, hop.symm⟩
  obtain ⟨field, operator, value, hin⟩ := f
  cases field with
  | category | challengeId =>
    by_cases hop : operator = .isIn
    · simp only [baseOf, rankOf, aggOf, hop, if_true, List.append_nil, List.mem_singleton] at h
      subst h
      subst hop
      exact hitems _ hcomparison rfl
    · simp only [baseOf, rankOf, aggOf, hop, if_false, List.append_nil, List.mem_singleton] at h
      subst h
      exact hsingle _ _ hcomparison rfl
  | solveTime | rank | solvedCount | wrongCount | totalScore | firstBloodCount
  | categoryClearCount =>
    obtain rfl := List.mem_singleton.mp h
    exact hsingle _ _ hcomparison rfl
  | firstBlood | hintUsed | teamId =>
    obtain rfl := List.mem_singleton.mp h
    exact hsingle _ _ hcomparison (hkept.operator rfl).symm
  | fullClearCategory =>
    obtain rfl := List.mem_singleton.mp h
    cases hcomparison
  | bracketId | firstClearEachCategory => cases h

theorem operators_of_kept {spec : QuerySpec} {c : Compiled}
    (hc : Collected intOfText spec.entity spec.filters c)
    (hkept : ∀ f ∈ spec.filters, f.Kept dbms intOfText) {p : FilterSpec × Nat}
    (hp : p ∈ numbered spec.filters) (hcomparison : comparison ∈ c.comparisons)
    (hkey : comparison.2 ∈ p.1.comparedKeys p.2) : comparison.1 = p.1.operator := by
  have hequated : p.1.field.equated = true → p.1.operator = .eq :=
    (hkept p.1 (mem_of_numbered hp)).operator
  have hcommon : ∀ idx, ¬ IsKeyOf idx "full_clear_category" := by
    intro idx h
    exact absurd h.prefixed (by decide)
  have hown : ∀ p' ∈ numbered spec.filters, IsKeyOf p'.2 comparison.2 → p = p' := by
    intro p' hp' hkey'
    unfold FilterSpec.comparedKeys at hkey
    split_ifs at hkey with hfield
    · rw [List.mem_singleton.mp hkey] at hkey'
      exact absurd hkey' (hcommon _)
    · exact List.inj_on_of_nodup_map (numbered_indices_nodup spec.filters) hp hp'
        ((isKeyOf_keysOf hkey).idx_eq hkey')
  rcases List.mem_append.mp hcomparison with hcomparison | hfull
  · rcases List.mem_append.mp hcomparison with hcondition | hbracket
    · obtain ⟨condition, hmem, hcomparison⟩ := List.mem_flatMap.mp hcondition
      obtain ⟨p', hp', hmem⟩ : ∃ p' ∈ numbered spec.filters,
          condition ∈ baseOf p'.2 p'.1 ++ (rankOf p'.2 p'.1 ++ aggOf spec.entity p'.2 p'.1) := by
        simp only [hc.base, hc.rank, hc.agg, List.mem_append, List.mem_flatMap] at hmem ⊢
        rcases hmem with ⟨p', hp', h⟩ | ⟨p', hp', h⟩ | ⟨p', hp', h⟩
        · exact ⟨p', hp', .inl h⟩
        · exact ⟨p', hp', .inr (.inl h)⟩
        · exact ⟨p', hp', .inr (.inr h)⟩
      obtain ⟨hkey', hsame⟩ := comparison_own hmem hcomparison (hkept p'.1 (mem_of_numbered hp'))
      rw [hown p' hp' hkey']
      exact hsame
    · obtain ⟨param, hparam, rfl⟩ := List.mem_map.mp hbracket
      rw [Option.mem_toList, hc.bracket] at hparam
      obtain ⟨p', hp', hset⟩ := List.mem_filterMap.mp (List.mem_of_getLast? hparam)
      split_ifs at hset with hfield
      obtain rfl := Option.some.inj hset
      obtain rfl := hown p' hp' (.inl rfl)
      exact (hequated (by rw [hfield]; rfl)).symm
  · obtain rfl := List.mem_singleton.mp hfull
    unfold FilterSpec.comparedKeys at hkey
    split_ifs at hkey with hfield
    · exact (hequated (by rw [hfield]; rfl)).symm
    · exact absurd (isKeyOf_keysOf hkey) (hcommon _)

end Operators

theorem rows_of_kept {dbms : Dbms} {intOfText : String → Option Int} {dialect : Dialect}
    {db : Aggregates.Db} {names : Option Nat → Option String} {spec : QuerySpec}
    (h : FiltersKept dbms intOfText db spec) {rows : List ResultRow}
    (hrows : executeQuery dbms db names spec intOfText dialect = some rows) {row : ResultRow}
    (hrow : row ∈ rows) (teams : List RankedTeam) :
    ∃ subject, Subject.Of db teams row subject ∧ ∀ f ∈ spec.filters, Meets dbms db subject f := by
  obtain ⟨c, params, hc, rfl⟩ := executeQuery_spec hrows
  have hshape := firstClear_iff hc.collected
  unfold evaluate at hrow
  split at hrow
  · rename_i hentity
    split_ifs at hrow with hfirst
    · obtain ⟨x, hx, rfl⟩ := List.mem_map.mp hrow
      exact meets_firstClear hc h (hshape.mpr ⟨hentity, hfirst⟩) hx teams
    · obtain ⟨x, hx, rfl⟩ := List.mem_map.mp hrow
      obtain ⟨t, ht⟩ := of_mem_teamRows hx
      have hnot : spec.firstClear = false :=
        Bool.eq_false_iff.mpr fun htrue => hfirst (hshape.mp htrue).2
      exact ht.meets hc h hentity hnot teams
  · rename_i hentity
    obtain ⟨x, hx, rfl⟩ := List.mem_map.mp hrow
    exact meets_solve hc h hentity hx teams

/-- Where each filter is compared as it is written and none replaces another, every row that a
query returns meets all of them. -/
theorem conjunctive_of_kept {dbms : Dbms} {intOfText : String → Option Int}
    {db : Aggregates.Db} {spec : QuerySpec} (h : FiltersKept dbms intOfText db spec)
    (dialect : Dialect) (names : Option Nat → Option String) :
    Conjunctive dbms intOfText dialect db names spec := by
  constructor
  · intro rows hrows row hrow
    exact rows_of_kept h hrows hrow _
  · intro c hc p hp comparison hcomparison hkey
    have hlast := ((compileFilters_ok intOfText spec.entity).mp hc).2
    have hcollected := collected_spec intOfText spec.entity spec.filters
    rw [hlast] at hcollected
    exact operators_of_kept hcollected h.kept hp hcomparison hkey

/-! ### Two brackets -/

/-- The order of numbers and of texts. -/
def Operator.test (operator : Operator) (order : Ordering) : Bool :=
  match operator with
  | .eq | .isIn => order = .eq
  | .le => order ≠ .gt
  | .ge => order ≠ .lt
  | .lt => order = .lt
  | .gt => order = .gt

/-- A database that compares numbers with numbers and texts with texts. -/
def mariadb : Dbms where
  compare operator x value :=
    match x, value with
    | .int m, .int n => operator.test (Ord.compare m n)
    | .text s, .str s' => operator.test (Ord.compare s s')
    | .bool b, .bool b' => operator.test (Ord.compare b.toInt b'.toInt)
    | _, _ => false
  place _ := 0

/-- A team of bracket 3 has solved a challenge of the web. -/
def oneSolve : Aggregates.Db where
  teams := [{ id := 1, bracketId := some 3 }, { id := 2, bracketId := some 4 }]
  challenges := [⟨1, some 100, some "web"⟩]
  submissions := [⟨1, some 1, some 1, .correct, some 10⟩]
  solves := [⟨1, some 1, some 1, some 1⟩]
  brackets_pk := Aggregates.tied.brackets_pk
  solves_pos := Board.memberLeft.solves_pos
  awards_pos := Aggregates.tied.awards_pos

theorem conjunctive_oneSolve :
    (executeQuery mariadb oneSolve (fun _ => none) (bracketSpec "web" 3 10 (by decide))
      (fun s => signedDecimal s.toList) .mariadb).map List.length = some 1 ∧
    Conjunctive mariadb (fun s => signedDecimal s.toList) .mariadb oneSolve (fun _ => none)
      (bracketSpec "web" 3 10 (by decide)) := by
  refine ⟨by decide +kernel, conjunctive_of_kept ?_ _ _⟩
  have hfilters : ∀ f ∈ (bracketSpec "web" 3 10 (by decide)).filters,
      f = ⟨.category, .isIn, .list [.str "web"], fun _ => rfl⟩ ∨
        f = ⟨.bracketId, .eq, .int 3, Operator.noConfusion⟩ :=
    fun f hf => List.mem_pair.mp hf
  constructor
  · intro f hf
    rcases hfilters f hf with rfl | rfl
    · exact ⟨nofun, nofun, nofun⟩
    · refine ⟨fun _ => rfl, fun _ value hvalue n hn id => ?_, nofun⟩
      obtain rfl := List.mem_singleton.mp hvalue
      obtain rfl := Option.some.inj hn
      rfl
  · intro f hf g hg hfield hfield'
    rcases hfilters f hf with rfl | rfl
    · cases hfield
    · rcases hfilters g hg with rfl | rfl
      · cases hfield'
      · rfl
  · intro f hf hfield
    rcases hfilters f hf with rfl | rfl <;> cases hfield
  · intro f hf hfield
    rcases hfilters f hf with rfl | rfl <;> cases hfield
  · intro hfirst
    cases hfirst
  · intro _ _ t _ hshown
    exact absurd hshown.metric (lt_irrefl 0)

/-- The teams of two brackets at once, which no team is. -/
def twoBracketsSpec : QuerySpec where
  rule := "top"
  entity := .team
  metric := .teamSolvedCount
  filters := [⟨.bracketId, .eq, .int 4, Operator.noConfusion⟩,
    ⟨.bracketId, .eq, .int 3, Operator.noConfusion⟩]
  limit := .int 500
  order := {}
  limit_positive := solvedCountSpec.limit_positive

/-- The team of bracket 3 is returned. -/
theorem twoBracketsSpec_not_conjunctive :
    validateQuerySpec twoBracketsSpec.payload = .ok twoBracketsSpec ∧
      ¬ Conjunctive mariadb (fun s => signedDecimal s.toList) .mariadb oneSolve (fun _ => none)
        twoBracketsSpec := by
  refine ⟨validateQuerySpec_payload _ (by decide), fun h => ?_⟩
  obtain ⟨rows, hrows, hteam⟩ : ∃ rows, executeQuery mariadb oneSolve (fun _ => none)
      twoBracketsSpec (fun s => signedDecimal s.toList) .mariadb = some rows ∧
        ∃ row : RankedTeam, .team row ∈ rows ∧ row.columns.entityId = 1 := by
    have hcolumns : executeQuery mariadb oneSolve (fun _ => none) twoBracketsSpec
        (fun s => signedDecimal s.toList) .mariadb =
          some [.team ⟨⟨⟨1, none, 1, 100, 1, 1, 1, 0, some 10⟩, 0, 0, none⟩, true, 1⟩] := by
      decide +kernel
    exact ⟨_, hcolumns, _, List.mem_singleton_self _, rfl⟩
  obtain ⟨row, hrow, hid⟩ := hteam
  obtain ⟨subject, hof, hmeets⟩ := h.rows rows hrows _ hrow
  cases hof with
  | team row sf hsf =>
    obtain ⟨t, ht, hteam, hholds⟩ := hmeets _ List.mem_cons_self
    have hid' : t.id = 1 := (Option.some.inj hteam).symm.trans hid
    have hnone : ∀ t ∈ oneSolve.teams, t.id = 1 → FilterSpec.holds mariadb
        ⟨.bracketId, .eq, .int 4, Operator.noConfusion⟩ (.nullable idCell t.bracketId) = false := by
      decide
    rw [hnone t ht hid'] at hholds
    cases hholds

end Fctf.Rewards
