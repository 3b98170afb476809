import Fctf.Rewards.Spec
import Mathlib.Data.List.Dedup
import Mathlib.Data.List.Sort

/-!
`MultiCriteriaExecutor`: the rules of a query are executed one after the other, and their results,
which the executor keeps, are combined by the id of the entity.
-/

namespace Fctf.Rewards

/-- Python's arithmetic; there is none between some numbers, such as a decimal and a float. -/
structure Arithmetic (N : Type) where
  zero : N
  isZero : N → Bool
  mul : N → N → Option N
  add : N → N → Option N
  le : N → N → Bool

structure CriteriaRule (Params N : Type) where
  templateId : String
  params : Params
  weight : N

/-- A row of a result: its entity is a team or a solve, by its query. -/
structure Row (N X : Type) where
  entity : Entity
  entityId : Nat
  metricValue : Option N
  combinedScore : Option N
  rest : X

inductive CombineMethod
  | intersection
  | union
  | weightedScore
  | unknown (name : String)

structure MultiCriteriaQuery (Params N : Type) where
  rules : List (CriteriaRule Params N)
  combineMethod : CombineMethod

/-- What an execution raises. -/
inductive ExecutionFault
  | templateNotFound (templateId : String)
  | query (fault : Fault)
  | unknownMethod (name : String)
  | typeError

/-- The templates, and the queries on a database that nothing changes. -/
structure Engine (Params N X : Type) where
  buildQueryFromTemplate : String → Params → Option (Record Value)
  executeQuery : QuerySpec → Except Fault (List (Row N X))
  entity_eq : ∀ spec rows, executeQuery spec = .ok rows → ∀ row ∈ rows, row.entity = spec.entity

structure RuleDetail (N : Type) where
  template : String
  weight : Option N
  matched : Nat

structure Summary (N : Type) where
  logic : String
  totalMatched : Nat
  ruleDetails : List (RuleDetail N)

/-- A combined result; where no rule was executed there is only a description. -/
structure Combined (N X : Type) where
  result : List (Row N X)
  description : String
  summary : Option (Summary N)

variable {Params N X : Type}

/-- The entity of a row. -/
def Row.key (row : Row N X) : Entity × Nat := (row.entity, row.entityId)

abbrev RuleResult (Params N X : Type) := CriteriaRule Params N × List (Row N X)

structure Executor (Params N X : Type) where
  query : MultiCriteriaQuery Params N
  ruleResults : List (RuleResult Params N X) := []

namespace Executor

/-! ### Combining -/

def noRules : Combined N X := ⟨[], "No rules executed", none⟩

def details (weighted : Bool) (ruleResults : List (RuleResult Params N X)) :
    List (RuleDetail N) :=
  ruleResults.map fun rr =>
    ⟨rr.1.templateId, if weighted then some rr.1.weight else none, rr.2.length⟩

def entityIds (rows : List (Row N X)) : List Nat := rows.map (·.entityId)

def combineIntersection (rules : Nat) (ruleResults : List (RuleResult Params N X)) :
    Combined N X :=
  match ruleResults with
  | [] => noRules
  | first :: _ =>
    let combined := first.2.filter fun r =>
      ruleResults.all fun rr => (entityIds rr.2).contains r.entityId
    ⟨combined, "Entities matching ALL " ++ toString rules ++ " criteria",
      some ⟨"AND", combined.length, details false ruleResults⟩⟩

/-- The dictionary of the first row of every id. -/
def seenEntities (seen : List (Row N X)) (rows : List (Row N X)) : List (Row N X) :=
  rows.foldl (fun seen row =>
    if (entityIds seen).contains row.entityId then seen else seen ++ [row]) seen

def combineUnion (rules : Nat) (ruleResults : List (RuleResult Params N X)) : Combined N X :=
  match ruleResults with
  | [] => noRules
  | _ =>
    let combined := ruleResults.foldl (fun seen rr => seenEntities seen rr.2) []
    ⟨combined, "Entities matching ANY of " ++ toString rules ++ " criteria",
      some ⟨"OR", combined.length, details false ruleResults⟩⟩

variable (arith : Arithmetic N)

/-- `row.get("metric_value", 0) or 0`. -/
def metricValue (row : Row N X) : N :=
  match row.metricValue with
  | some m => if arith.isZero m then arith.zero else m
  | none => arith.zero

/-- The scores by id, each with the first row of the id. -/
abbrev Scores (N X : Type) := List (Row N X × N)

/-- `entity_scores[entity_id] += metric_value * weight`. -/
def addScore (weight : N) (scores : Scores N X) (row : Row N X) : Option (Scores N X) :=
  (arith.mul (metricValue arith row) weight).bind fun product =>
    match scores.find? fun s => s.1.entityId = row.entityId with
    | some s =>
      (arith.add s.2 product).map fun score =>
        scores.map fun s => if s.1.entityId = row.entityId then (s.1, score) else s
    | none => (arith.add arith.zero product).map fun score => scores ++ [(row, score)]

def addRule (scores : Scores N X) (rr : RuleResult Params N X) : Option (Scores N X) :=
  rr.2.foldlM (addScore arith rr.1.weight) scores

def combineWeightedScore (rules : Nat) (ruleResults : List (RuleResult Params N X)) :
    Except ExecutionFault (Combined N X) :=
  match ruleResults with
  | [] => .ok noRules
  | _ =>
    match ruleResults.foldlM (addRule arith) [] with
    | none => .error .typeError
    | some scores =>
      let combined := scores.map fun s =>
        { s.1 with combinedScore := some s.2, metricValue := some s.2 }
      let sorted := combined.mergeSort fun a b =>
        arith.le (b.combinedScore.getD arith.zero) (a.combinedScore.getD arith.zero)
      .ok ⟨sorted, "Entities scored by weighted combination of " ++ toString rules ++ " criteria",
        some ⟨"WEIGHTED", combined.length, details true ruleResults⟩⟩

/-! ### Executing -/

variable (engine : Engine Params N X)

def runRule (rule : CriteriaRule Params N) : Except ExecutionFault (List (Row N X)) :=
  match engine.buildQueryFromTemplate rule.templateId rule.params with
  | none => .error (.templateNotFound rule.templateId)
  | some config =>
    match validateQuerySpec config with
    | .error fault => .error (.query fault)
    | .ok spec =>
      match engine.executeQuery spec with
      | .error fault => .error (.query fault)
      | .ok rows => .ok rows

/-- The loop over the rules: the results so far, and the exception that ended it. -/
def runRules (ruleResults : List (RuleResult Params N X)) :
    List (CriteriaRule Params N) → List (RuleResult Params N X) × Option ExecutionFault
  | [] => (ruleResults, none)
  | rule :: rules =>
    match runRule engine rule with
    | .error fault => (ruleResults, some fault)
    | .ok rows => runRules (ruleResults ++ [(rule, rows)]) rules

def combine (query : MultiCriteriaQuery Params N) (ruleResults : List (RuleResult Params N X)) :
    Except ExecutionFault (Combined N X) :=
  match query.combineMethod with
  | .intersection => .ok (combineIntersection query.rules.length ruleResults)
  | .union => .ok (combineUnion query.rules.length ruleResults)
  | .weightedScore => combineWeightedScore arith query.rules.length ruleResults
  | .unknown name => .error (.unknownMethod name)

def execute (executor : Executor Params N X) :
    Executor Params N X × Except ExecutionFault (Combined N X) :=
  let (ruleResults, fault) := runRules engine executor.ruleResults executor.query.rules
  match fault with
  | some fault => ({ executor with ruleResults }, .error fault)
  | none => ({ executor with ruleResults }, combine arith executor.query ruleResults)

/-- The executor after a number of executions. -/
def executed (query : MultiCriteriaQuery Params N) : Nat → Executor Params N X
  | 0 => { query }
  | n + 1 => (execute arith engine (executed query n)).1

/-- What the execution after `n` others returns. -/
def outcome (query : MultiCriteriaQuery Params N) (n : Nat) :
    Except ExecutionFault (Combined N X) :=
  (execute arith engine (executed arith engine query n)).2

/-! ### Repeated executions -/

section Repeated

variable (rules : List (CriteriaRule Params N))

/-- The rows of a rule, where it can be run. -/
def rowsOf (rule : CriteriaRule Params N) : List (Row N X) :=
  match runRule engine rule with
  | .ok rows => rows
  | .error _ => []

def results : List (RuleResult Params N X) := rules.map fun rule => (rule, rowsOf engine rule)

/-- The rules that are run, and the exception of the next one. -/
theorem runRules_eq (ruleResults : List (RuleResult Params N X)) :
    runRules engine ruleResults rules =
      (ruleResults ++ (runRules engine [] rules).1, (runRules engine [] rules).2) := by
  induction rules generalizing ruleResults with
  | nil => simp [runRules]
  | cons rule rules ih =>
    rw [runRules, runRules]
    cases hrun : runRule engine rule with
    | error fault => simp
    | ok rows =>
      simp only [List.nil_append]
      rw [ih (ruleResults ++ [(rule, rows)]), ih [(rule, rows)], List.append_assoc]

theorem runRules_ok (h : (runRules engine [] rules).2 = none) :
    (runRules engine [] rules).1 = results engine rules ∧
      ∀ rule ∈ rules, runRule engine rule = .ok (rowsOf engine rule) := by
  induction rules with
  | nil => exact ⟨rfl, fun rule hrule => absurd hrule List.not_mem_nil⟩
  | cons rule rules ih =>
    rw [runRules] at h ⊢
    cases hrun : runRule engine rule with
    | error fault => simp [hrun] at h
    | ok rows =>
      have hrows : rowsOf engine rule = rows := by rw [rowsOf, hrun]
      simp only [hrun, List.nil_append] at h ⊢
      rw [runRules_eq] at h ⊢
      obtain ⟨hresults, hok⟩ := ih h
      refine ⟨?_, ?_⟩
      · rw [hresults, results, results, List.map_cons, hrows]
        rfl
      · rw [List.forall_mem_cons, hrows]
        exact ⟨hrun, hok⟩

variable (query : MultiCriteriaQuery Params N)

/-- The results that the executor has kept. -/
theorem executed_ruleResults (n : Nat) :
    executed arith engine query n =
      { query, ruleResults := (List.replicate n (runRules engine [] query.rules).1).flatten } := by
  induction n with
  | zero => rfl
  | succ n ih =>
    rw [executed, ih, execute, runRules_eq, List.replicate_succ', List.flatten_append]
    simp only [List.flatten_singleton]
    cases (runRules engine [] query.rules).2 <;> rfl

theorem outcome_eq (n : Nat) :
    outcome arith engine query n =
      match (runRules engine [] query.rules).2 with
      | some fault => .error fault
      | none =>
        combine arith query (List.replicate (n + 1) (results engine query.rules)).flatten := by
  rw [outcome, executed_ruleResults, execute, runRules_eq]
  cases hfault : (runRules engine [] query.rules).2 with
  | some fault => rfl
  | none =>
    have hresults := (runRules_ok engine query.rules hfault).1
    simp only [hresults, List.replicate_succ', List.flatten_append, List.flatten_singleton]

theorem mem_repeated {base : List (RuleResult Params N X)} {n : Nat}
    {rr : RuleResult Params N X} :
    rr ∈ (List.replicate (n + 1) base).flatten ↔ rr ∈ base := by
  simp [List.mem_flatten, List.mem_replicate]

/-- The details of a combined result are those of all the results that were kept. -/
theorem combine_details {ruleResults : List (RuleResult Params N X)} (hne : ruleResults ≠ [])
    {r : Combined N X} (h : combine arith query ruleResults = .ok r) :
    r.summary.map (fun s => s.ruleDetails.length) = some ruleResults.length := by
  obtain ⟨first, rest, rfl⟩ := List.exists_cons_of_ne_nil hne
  unfold combine at h
  split at h
  · cases h
    simp [combineIntersection, details]
  · cases h
    simp [combineUnion, details]
  · unfold combineWeightedScore at h
    cases hscores : (first :: rest).foldlM (addRule arith) [] with
    | none => simp [hscores] at h
    | some scores =>
      simp only [hscores, Except.ok.injEq] at h
      rw [← h]
      simp [details]
  · cases h

theorem combine_error_append {base : List (RuleResult Params N X)} {fault : ExecutionFault}
    (h : combine arith query base = .error fault) (more : List (RuleResult Params N X)) :
    combine arith query (base ++ more) = .error fault := by
  unfold combine at h ⊢
  split at h
  · cases h
  · cases h
  · cases base with
    | nil => cases h
    | cons first rest =>
      unfold combineWeightedScore at h ⊢
      cases hscores : (first :: rest).foldlM (addRule arith) [] with
      | none =>
        simp only [hscores, Except.error.injEq] at h
        rw [List.cons_append, ← List.cons_append, List.foldlM_append, hscores, ← h]
        rfl
      | some scores => simp [hscores] at h
  · exact h

/-- An execution returns what the first one returned if and only if there is no rule, or no
execution returns at all. -/
theorem repeated_iff_error :
    (∀ n, outcome arith engine query n = outcome arith engine query 0) ↔
      query.rules = [] ∨ ∃ fault, outcome arith engine query 0 = .error fault := by
  constructor
  · intro h
    by_contra hnot
    rw [not_or] at hnot
    obtain ⟨hrules, hfault⟩ := hnot
    have htwice := h 1
    cases hfirst : outcome arith engine query 0 with
    | error fault => exact hfault ⟨fault, hfirst⟩
    | ok r =>
      rw [hfirst] at htwice
      rw [outcome_eq] at hfirst htwice
      cases hrun : (runRules engine [] query.rules).2 with
      | some fault => simp [hrun] at hfirst
      | none =>
        have hlen : (results engine query.rules).length = query.rules.length := List.length_map _
        have hpos : 0 < query.rules.length := List.length_pos_of_ne_nil hrules
        have hbase : results engine query.rules ≠ [] := by
          rw [← List.length_pos_iff, hlen]
          exact hpos
        simp only [hrun, List.replicate_succ, List.replicate_zero, List.flatten_cons,
          List.flatten_nil, List.append_nil] at hfirst htwice
        have honce := combine_details arith query hbase hfirst
        rw [combine_details arith query (List.append_ne_nil_of_left_ne_nil hbase _) htwice,
          Option.some.injEq, List.length_append, hlen] at honce
        omega
  · rintro (hrules | ⟨fault, hfault⟩) n
    · rw [outcome_eq, outcome_eq, hrules]
      simp [results]
    · rw [hfault]
      rw [outcome_eq] at hfault ⊢
      cases hrun : (runRules engine [] query.rules).2 with
      | some fault' => simpa [hrun] using hfault
      | none =>
        simp only [hrun, List.replicate_succ, List.replicate_zero, List.flatten_cons,
          List.flatten_nil, List.append_nil] at hfault ⊢
        exact combine_error_append arith query hfault _

end Repeated

/-! ### Which entities are returned -/

/-- An id belongs to one kind of entity in the rows. -/
def OneKind (rows : List (Row N X)) : Prop :=
  ∀ r ∈ rows, ∀ r' ∈ rows, r.entityId = r'.entityId → r.entity = r'.entity

theorem mem_entityIds {rows : List (Row N X)} {id : Nat} :
    id ∈ entityIds rows ↔ ∃ r ∈ rows, r.entityId = id :=
  List.mem_map

theorem mem_keys {rows : List (Row N X)} {e : Entity × Nat} :
    e ∈ rows.map Row.key ↔ ∃ r ∈ rows, r.entity = e.1 ∧ r.entityId = e.2 := by
  rw [List.mem_map]
  refine exists_congr fun r => and_congr_right fun _ => ?_
  rw [Row.key, Prod.ext_iff]

/-- One row of every id of the rows. -/
structure Picks (rows result : List (Row N X)) : Prop where
  nodup : (entityIds result).Nodup
  ids : ∀ id, id ∈ entityIds result ↔ id ∈ entityIds rows
  keys : ∀ r ∈ result, r.key ∈ rows.map Row.key

theorem Picks.nodup_keys {rows result : List (Row N X)} (h : Picks rows result) :
    (result.map Row.key).Nodup := by
  apply List.Nodup.of_map Prod.snd
  rw [List.map_map]
  exact h.nodup

/-- The rows that are picked stand for all entities if and only if no id belongs to two kinds. -/
theorem Picks.keys_iff {rows result : List (Row N X)} (h : Picks rows result) :
    (∀ e, e ∈ result.map Row.key ↔ e ∈ rows.map Row.key) ↔ OneKind rows := by
  constructor
  · intro heq r hr r' hr' hid
    obtain ⟨q, hq, hqkind, hqid⟩ := mem_keys.mp ((heq r.key).mpr (List.mem_map_of_mem hr))
    obtain ⟨q', hq', hqkind', hqid'⟩ := mem_keys.mp ((heq r'.key).mpr (List.mem_map_of_mem hr'))
    have hsame : q = q' := by
      apply List.inj_on_of_nodup_map h.nodup hq hq'
      rw [hqid, hqid']
      exact hid
    rw [hsame, hqkind'] at hqkind
    exact hqkind.symm
  · intro hone e
    constructor
    · intro he
      obtain ⟨q, hq, rfl⟩ := List.mem_map.mp he
      exact h.keys q hq
    · intro he
      obtain ⟨r, hr, rfl⟩ := List.mem_map.mp he
      obtain ⟨q, hq, hqid⟩ := mem_entityIds.mp ((h.ids r.entityId).mpr (List.mem_map_of_mem hr))
      obtain ⟨r', hr', hkind, hid⟩ := mem_keys.mp (h.keys q hq)
      refine mem_keys.mpr ⟨q, hq, ?_, hqid⟩
      change r'.entity = q.entity at hkind
      rw [← hkind]
      exact hone r' hr' r hr (hid.trans hqid)

/-- The rows of all results. -/
def allRows (ruleResults : List (RuleResult Params N X)) : List (Row N X) :=
  ruleResults.flatMap (·.2)

theorem mem_allRows {ruleResults : List (RuleResult Params N X)} {row : Row N X} :
    row ∈ allRows ruleResults ↔ ∃ rr ∈ ruleResults, row ∈ rr.2 :=
  List.mem_flatMap

theorem Picks.of_perm {rows result result' : List (Row N X)} (h : Picks rows result)
    (hperm : (result'.map Row.key).Perm (result.map Row.key)) : Picks rows result' := by
  have hids : (entityIds result').Perm (entityIds result) := by
    have hsnd := hperm.map Prod.snd
    rwa [List.map_map, List.map_map] at hsnd
  refine ⟨hids.nodup_iff.mpr h.nodup, fun id => hids.mem_iff.trans (h.ids id), ?_⟩
  intro r hr
  obtain ⟨r', hr', hkey⟩ := List.mem_map.mp (hperm.mem_iff.mp (List.mem_map_of_mem hr))
  rw [← hkey]
  exact h.keys r' hr'

/-- A row of an id that is there already. -/
theorem Picks.skip {rows result : List (Row N X)} (h : Picks rows result) {row : Row N X}
    (hrow : row.entityId ∈ entityIds result) : Picks (rows ++ [row]) result where
  nodup := h.nodup
  ids := by
    intro id
    rw [h.ids, entityIds, entityIds, List.map_append, List.mem_append, List.map_singleton,
      List.mem_singleton]
    constructor
    · exact .inl
    · rintro (hid | rfl)
      · exact hid
      · exact (h.ids _).mp hrow
  keys := by
    intro r hr
    rw [List.map_append]
    exact List.mem_append_left _ (h.keys r hr)

/-- A row of a new id. -/
theorem Picks.push {rows result : List (Row N X)} (h : Picks rows result) {row : Row N X}
    (hrow : row.entityId ∉ entityIds result) : Picks (rows ++ [row]) (result ++ [row]) where
  nodup := by
    rw [entityIds, List.map_append, List.nodup_append]
    refine ⟨h.nodup, List.nodup_singleton _, ?_⟩
    rintro a ha b hb rfl
    rw [List.map_singleton, List.mem_singleton] at hb
    exact hrow (hb ▸ ha)
  ids := by
    intro id
    simp only [entityIds, List.map_append, List.mem_append]
    exact or_congr_left (h.ids id)
  keys := by
    intro r hr
    rw [List.map_append, List.mem_append]
    rcases List.mem_append.mp hr with hr | hr
    · exact .inl (h.keys r hr)
    · exact .inr (List.mem_map_of_mem hr)

theorem seenEntities_picks {done seen : List (Row N X)} (h : Picks done seen)
    (rows : List (Row N X)) : Picks (done ++ rows) (seenEntities seen rows) := by
  induction rows generalizing done seen with
  | nil => simpa [seenEntities] using h
  | cons row rows ih =>
    have hstep : Picks (done ++ [row])
        (if (entityIds seen).contains row.entityId then seen else seen ++ [row]) := by
      split_ifs with hseen
      · exact h.skip (List.contains_iff_mem.mp hseen)
      · exact h.push fun hmem => hseen (List.contains_iff_mem.mpr hmem)
    have hrest := ih hstep
    rw [List.append_assoc, List.singleton_append] at hrest
    exact hrest

/-- The union has one row of every id. -/
theorem combineUnion_picks (rules : Nat) (ruleResults : List (RuleResult Params N X)) :
    Picks (allRows ruleResults) (combineUnion rules ruleResults).result := by
  have hfold : ∀ (ruleResults : List (RuleResult Params N X)) (done seen : List (Row N X)),
      Picks done seen → Picks (done ++ allRows ruleResults)
        (ruleResults.foldl (fun seen rr => seenEntities seen rr.2) seen) := by
    intro ruleResults
    induction ruleResults with
    | nil => simp [allRows]
    | cons rr ruleResults ih =>
      intro done seen h
      rw [List.foldl_cons, allRows, List.flatMap_cons, ← List.append_assoc]
      exact ih _ _ (seenEntities_picks h rr.2)
  have hnil : Picks ([] : List (Row N X)) [] :=
    ⟨List.nodup_nil, fun _ => Iff.rfl, fun r hr => absurd hr List.not_mem_nil⟩
  cases ruleResults with
  | nil => exact hnil
  | cons rr ruleResults => exact hfold (rr :: ruleResults) [] [] hnil

/-- The ids that every result has. -/
def Common (ruleResults : List (RuleResult Params N X)) (id : Nat) : Prop :=
  ∀ rr ∈ ruleResults, id ∈ entityIds rr.2

/-- The rows of a result are of one kind. -/
def Uniform (ruleResults : List (RuleResult Params N X)) : Prop :=
  ∀ rr ∈ ruleResults, ∀ r ∈ rr.2, ∀ r' ∈ rr.2, r.entity = r'.entity

theorem mem_combineIntersection {rules : Nat} {first : RuleResult Params N X}
    {rest : List (RuleResult Params N X)} {row : Row N X} :
    row ∈ (combineIntersection rules (first :: rest)).result ↔
      row ∈ first.2 ∧ Common (first :: rest) row.entityId := by
  rw [combineIntersection, List.mem_filter, List.all_eq_true]
  simp only [List.contains_iff_mem]
  rfl

/-- The intersection is what every rule returned if and only if no id that all rules returned
belongs to two kinds. -/
theorem combineIntersection_iff (rules : Nat) {first : RuleResult Params N X}
    {rest : List (RuleResult Params N X)} (huniform : Uniform (first :: rest)) :
    (∀ e, e ∈ (combineIntersection rules (first :: rest)).result.map Row.key ↔
      ∀ rr ∈ first :: rest, e ∈ rr.2.map Row.key) ↔
      ∀ r ∈ allRows (first :: rest), ∀ r' ∈ allRows (first :: rest),
        Common (first :: rest) r.entityId → r.entityId = r'.entityId → r.entity = r'.entity := by
  constructor
  · intro heq r hr r' hr' hcommon hid
    obtain ⟨q, hq, hqid⟩ := mem_entityIds.mp (hcommon first List.mem_cons_self)
    have hresult : q ∈ (combineIntersection rules (first :: rest)).result :=
      mem_combineIntersection.mpr ⟨hq, hqid ▸ hcommon⟩
    have hevery := (heq q.key).mp (List.mem_map_of_mem hresult)
    have hkind : ∀ p ∈ allRows (first :: rest), p.entity = q.entity := by
      intro p hp
      obtain ⟨rr, hrr, hp⟩ := mem_allRows.mp hp
      obtain ⟨p', hp', hp'kind, -⟩ := mem_keys.mp (hevery rr hrr)
      rw [huniform rr hrr p hp p' hp']
      exact hp'kind
    rw [hkind r hr, hkind r' hr']
  · intro hone e
    constructor
    · intro he rr hrr
      obtain ⟨r, hr, rfl⟩ := List.mem_map.mp he
      obtain ⟨hfirst, hcommon⟩ := mem_combineIntersection.mp hr
      obtain ⟨r', hr', hid⟩ := mem_entityIds.mp (hcommon rr hrr)
      refine mem_keys.mpr ⟨r', hr', ?_, hid⟩
      exact (hone r (mem_allRows.mpr ⟨first, List.mem_cons_self, hfirst⟩) r'
        (mem_allRows.mpr ⟨rr, hrr, hr'⟩) hcommon hid.symm).symm
    · intro he
      obtain ⟨r, hr, rfl⟩ := List.mem_map.mp (he first List.mem_cons_self)
      refine List.mem_map_of_mem (mem_combineIntersection.mpr ⟨hr, ?_⟩)
      intro rr hrr
      obtain ⟨r', hr', -, hid⟩ := mem_keys.mp (he rr hrr)
      exact mem_entityIds.mpr ⟨r', hr', hid⟩

/-- An entity comes once in the intersection if and only if it comes once in the first result. -/
theorem combineIntersection_nodup_iff (rules : Nat) {first : RuleResult Params N X}
    {rest : List (RuleResult Params N X)} (huniform : Uniform (first :: rest)) :
    ((combineIntersection rules (first :: rest)).result.map Row.key).Nodup ↔
      ∀ id, Common (first :: rest) id → (entityIds first.2).count id ≤ 1 := by
  let common (id : Nat) : Bool := (first :: rest).all fun rr => (entityIds rr.2).contains id
  have hcommon : ∀ id, common id = true ↔ Common (first :: rest) id := by
    intro id
    simp only [common, List.all_eq_true, List.contains_iff_mem]
    rfl
  have hids : entityIds (combineIntersection rules (first :: rest)).result =
      (entityIds first.2).filter common := by
    rw [entityIds, entityIds, List.filter_map]
    rfl
  have hkeys : ((combineIntersection rules (first :: rest)).result.map Row.key).Nodup ↔
      (entityIds (combineIntersection rules (first :: rest)).result).Nodup := by
    rw [entityIds, List.Nodup, List.Nodup, List.pairwise_map, List.pairwise_map]
    constructor
    · intro h
      refine h.imp_of_mem fun hr hr' hne hid => hne (Prod.ext ?_ hid)
      exact huniform first List.mem_cons_self _ (mem_combineIntersection.mp hr).1 _
        (mem_combineIntersection.mp hr').1
    · exact fun h => h.imp fun hne heq => hne (congrArg Prod.snd heq)
  rw [hkeys, hids, List.nodup_iff_count_le_one]
  refine forall_congr' fun id => ?_
  rw [← hcommon]
  cases hid : common id with
  | true => simp [List.count_filter hid]
  | false =>
    have hnone : id ∉ (entityIds first.2).filter common := by
      rw [List.mem_filter, hid]
      exact fun h => Bool.false_ne_true h.2
    simp [List.count_eq_zero_of_not_mem hnone]

/-! ### Scores -/

/-- The rows of all results with the weights of their rules. -/
def contributions (ruleResults : List (RuleResult Params N X)) : List (N × Row N X) :=
  ruleResults.flatMap fun rr => rr.2.map fun row => (rr.1.weight, row)

/-- A score with one more row of its entity. -/
def addProduct (score : N) (c : N × Row N X) : Option N :=
  (arith.mul (metricValue arith c.2) c.1).bind (arith.add score)

/-- The weighted sum over some of the rows. -/
def weightedSum (p : Row N X → Bool) (cs : List (N × Row N X)) : Option N :=
  (cs.filter fun c => p c.2).foldlM (addProduct arith) arith.zero

theorem weightedSum_concat (p : Row N X → Bool) (cs : List (N × Row N X)) (c : N × Row N X) :
    weightedSum arith p (cs ++ [c]) =
      if p c.2 then (weightedSum arith p cs).bind fun score => addProduct arith score c
      else weightedSum arith p cs := by
  rw [weightedSum, weightedSum, List.filter_append]
  split_ifs with hp
  · rw [List.filter_singleton, hp, cond_true, List.foldlM_append]
    cases (cs.filter fun c => p c.2).foldlM (addProduct arith) arith.zero with
    | none => rfl
    | some score => simp [bind]
  · rw [List.filter_singleton, Bool.eq_false_of_not_eq_true hp, cond_false, List.append_nil]

/-- The sum by id, as the dictionary has it. -/
def sumOf (cs : List (N × Row N X)) (id : Nat) : Option N :=
  weightedSum arith (fun row => row.entityId = id) cs

/-- The scores after some of the rows. -/
structure Scored (cs : List (N × Row N X)) (scores : Scores N X) : Prop where
  picks : Picks (cs.map (·.2)) (scores.map (·.1))
  sums : ∀ s ∈ scores, sumOf arith cs s.1.entityId = some s.2

theorem foldlM_addRule (ruleResults : List (RuleResult Params N X)) (scores : Scores N X) :
    ruleResults.foldlM (addRule arith) scores =
      (contributions ruleResults).foldlM
        (fun scores c => addScore arith c.1 scores c.2) scores := by
  induction ruleResults generalizing scores with
  | nil => rfl
  | cons rr ruleResults ih =>
    rw [List.foldlM_cons, contributions, List.flatMap_cons, List.foldlM_append, addRule,
      List.foldlM_map]
    congr 1
    funext scores
    exact ih scores

variable {arith}

theorem sumOf_of_notMem {cs : List (N × Row N X)} {id : Nat}
    (h : id ∉ entityIds (cs.map (·.2))) : sumOf arith cs id = some arith.zero := by
  have hnone : (cs.filter fun c => decide (c.2.entityId = id)) = [] := by
    rw [List.filter_eq_nil_iff]
    intro c hc hid
    exact h (mem_entityIds.mpr ⟨c.2, List.mem_map_of_mem hc, of_decide_eq_true hid⟩)
  rw [sumOf, weightedSum, hnone]
  rfl

/-- The score that the dictionary has for an id, or the zero that it puts there. -/
theorem Scored.sumOf_eq {cs : List (N × Row N X)} {scores : Scores N X}
    (h : Scored arith cs scores) (id : Nat) :
    sumOf arith cs id = some (match scores.find? fun s => s.1.entityId = id with
      | some s => s.2
      | none => arith.zero) := by
  cases hfind : scores.find? fun s => s.1.entityId = id with
  | some s =>
    have hid : s.1.entityId = id := by simpa using List.find?_some hfind
    rw [← hid]
    exact h.sums s (List.mem_of_find?_eq_some hfind)
  | none =>
    apply sumOf_of_notMem
    rw [← h.picks.ids, mem_entityIds]
    rintro ⟨r, hr, hid⟩
    obtain ⟨s, hs, rfl⟩ := List.mem_map.mp hr
    simpa [hid] using List.find?_eq_none.mp hfind s hs

/-- One more row: the dictionary has the sums with it, or there is no sum for its entity. -/
theorem Scored.addScore {cs : List (N × Row N X)} {scores : Scores N X}
    (h : Scored arith cs scores) (c : N × Row N X) :
    (Executor.addScore arith c.1 scores c.2 = none ↔
      sumOf arith (cs ++ [c]) c.2.entityId = none) ∧
    ∀ scores', Executor.addScore arith c.1 scores c.2 = some scores' →
      Scored arith (cs ++ [c]) scores' := by
  have hsum := h.sumOf_eq c.2.entityId
  have hsame : sumOf arith (cs ++ [c]) c.2.entityId =
      (sumOf arith cs c.2.entityId).bind fun score => addProduct arith score c := by
    rw [sumOf, weightedSum_concat, if_pos (by simp)]
    rfl
  have hother : ∀ id, id ≠ c.2.entityId → sumOf arith (cs ++ [c]) id = sumOf arith cs id := by
    intro id hid
    rw [sumOf, weightedSum_concat, if_neg (by simpa using Ne.symm hid)]
    rfl
  rw [hsum, Option.bind_some, addProduct] at hsame
  rw [hsame, Executor.addScore]
  cases hproduct : arith.mul (metricValue arith c.2) c.1 with
  | none => simp
  | some product =>
    simp only [Option.bind_some, hproduct] at hsame ⊢
    cases hfind : scores.find? fun s => s.1.entityId = c.2.entityId with
    | some s =>
      have hid : s.1.entityId = c.2.entityId := by simpa using List.find?_some hfind
      simp only [hfind] at hsame ⊢
      cases hscore : arith.add s.2 product with
      | none => simp
      | some score =>
        simp only [Option.map_some, reduceCtorEq, Option.some.injEq, forall_eq']
        refine ⟨trivial, ?_, ?_⟩
        · have hrows : (scores.map fun s => if s.1.entityId = c.2.entityId then (s.1, score)
              else s).map (·.1) = scores.map (·.1) := by
            rw [List.map_map]
            refine List.map_congr_left fun s _ => ?_
            simp only [Function.comp_def]
            split_ifs <;> rfl
          rw [hrows, List.map_append]
          exact h.picks.skip (mem_entityIds.mpr
            ⟨s.1, List.mem_map_of_mem (List.mem_of_find?_eq_some hfind), hid⟩)
        · intro s' hs'
          obtain ⟨s₀, hs₀, rfl⟩ := List.mem_map.mp hs'
          split_ifs with hid₀
          · rw [hid₀, hsame, hscore]
          · rw [hother _ hid₀]
            exact h.sums s₀ hs₀
    | none =>
      have hnew : ∀ s ∈ scores, s.1.entityId ≠ c.2.entityId := by
        intro s hs hid
        simpa [hid] using List.find?_eq_none.mp hfind s hs
      simp only [hfind] at hsame ⊢
      cases hscore : arith.add arith.zero product with
      | none => simp
      | some score =>
        simp only [Option.map_some, reduceCtorEq, Option.some.injEq, forall_eq']
        refine ⟨trivial, ?_, ?_⟩
        · rw [List.map_append, List.map_append]
          apply h.picks.push
          rw [mem_entityIds]
          rintro ⟨r, hr, hid⟩
          obtain ⟨s, hs, rfl⟩ := List.mem_map.mp hr
          exact hnew s hs hid
        · intro s' hs'
          rcases List.mem_append.mp hs' with hs' | hs'
          · rw [hother _ (hnew s' hs')]
            exact h.sums s' hs'
          · rw [List.mem_singleton.mp hs', hsame, hscore]

theorem sumOf_append_none {cs : List (N × Row N X)} {id : Nat} (h : sumOf arith cs id = none)
    (more : List (N × Row N X)) : sumOf arith (cs ++ more) id = none := by
  rw [sumOf, weightedSum] at h ⊢
  rw [List.filter_append, List.foldlM_append, h]
  rfl

theorem Scored.foldlM {done : List (N × Row N X)} {scores : Scores N X}
    (h : Scored arith done scores) (cs : List (N × Row N X)) :
    (cs.foldlM (fun scores c => Executor.addScore arith c.1 scores c.2) scores = none ↔
      ∃ id, sumOf arith (done ++ cs) id = none) ∧
    ∀ scores', cs.foldlM (fun scores c => Executor.addScore arith c.1 scores c.2) scores =
      some scores' → Scored arith (done ++ cs) scores' := by
  induction cs generalizing done scores with
  | nil =>
    rw [List.append_nil]
    constructor
    · refine iff_of_false (by simp) ?_
      rintro ⟨id, hid⟩
      rw [h.sumOf_eq] at hid
      cases hid
    · intro scores' hscores
      cases hscores
      exact h
  | cons c cs ih =>
    obtain ⟨hnone, hsome⟩ := h.addScore c
    have hsplit : done ++ c :: cs = (done ++ [c]) ++ cs := by simp
    rw [List.foldlM_cons, hsplit]
    cases hstep : Executor.addScore arith c.1 scores c.2 with
    | none =>
      constructor
      · exact iff_of_true rfl ⟨c.2.entityId, sumOf_append_none (hnone.mp hstep) cs⟩
      · intro scores' hscores
        cases hscores
    | some scores₁ => exact ih (hsome scores₁ hstep)

theorem scored_nil (arith : Arithmetic N) : Scored arith ([] : List (N × Row N X)) [] where
  picks := ⟨List.nodup_nil, fun _ => Iff.rfl, fun _ hr => absurd hr List.not_mem_nil⟩
  sums := fun _ hs => absurd hs List.not_mem_nil

theorem contributions_rows (ruleResults : List (RuleResult Params N X)) :
    (contributions ruleResults).map (·.2) = allRows ruleResults := by
  rw [contributions, List.map_flatMap, allRows]
  refine List.flatMap_congr fun rr _ => ?_
  simp [List.map_map, Function.comp_def]

/-- The weighted sum of an entity's scores in the rules that returned it. -/
def combinedScore (arith : Arithmetic N) (ruleResults : List (RuleResult Params N X))
    (e : Entity × Nat) : Option N :=
  weightedSum arith (fun row => row.key = e) (contributions ruleResults)

theorem combinedScore_eq_sumOf {ruleResults : List (RuleResult Params N X)}
    (hone : OneKind (allRows ruleResults)) {r : Row N X} (hr : r ∈ allRows ruleResults) :
    combinedScore arith ruleResults r.key = sumOf arith (contributions ruleResults) r.entityId := by
  have hfilter : ((contributions ruleResults).filter fun c => decide (c.2.key = r.key)) =
      (contributions ruleResults).filter fun c => decide (c.2.entityId = r.entityId) := by
    refine List.filter_congr fun c hc => ?_
    rw [decide_eq_decide]
    constructor
    · exact congrArg Prod.snd
    · intro hid
      have hmem : c.2 ∈ allRows ruleResults := by
        rw [← contributions_rows]
        exact List.mem_map_of_mem hc
      exact Prod.ext (hone c.2 hmem r hr hid) hid
  rw [combinedScore, sumOf, weightedSum, weightedSum, hfilter]

/-- The weighted combination fails if and only if some sum cannot be computed; else it has one
row of every id, with the sum of the id. -/
theorem combineWeightedScore_spec (rules : Nat) (ruleResults : List (RuleResult Params N X)) :
    (combineWeightedScore arith rules ruleResults = .error .typeError ↔
      ∃ id, sumOf arith (contributions ruleResults) id = none) ∧
    ∀ r, combineWeightedScore arith rules ruleResults = .ok r →
      Picks (allRows ruleResults) r.result ∧
      ∀ row ∈ r.result, row.combinedScore =
        sumOf arith (contributions ruleResults) row.entityId := by
  obtain ⟨hnone, hsome⟩ := (scored_nil arith).foldlM (contributions ruleResults)
  rw [List.nil_append, ← foldlM_addRule] at hnone hsome
  cases ruleResults with
  | nil =>
    constructor
    · refine iff_of_false (fun h => by cases h) ?_
      rw [← hnone]
      exact fun h => by cases h
    · intro r h
      cases h
      exact ⟨(scored_nil arith).picks, fun row hrow => absurd hrow List.not_mem_nil⟩
  | cons first rest =>
    unfold combineWeightedScore
    cases hscores : (first :: rest).foldlM (addRule arith) [] with
    | none => exact ⟨iff_of_true rfl (hnone.mp hscores), fun r h => by cases h⟩
    | some scores =>
      constructor
      · refine iff_of_false (fun h => by cases h) ?_
        rw [← hnone, hscores]
        exact fun h => by cases h
      · intro r h
        have hscored := hsome scores hscores
        let withScore (s : Row N X × N) : Row N X :=
          { s.1 with combinedScore := some s.2, metricValue := some s.2 }
        have hresult : r.result = (scores.map withScore).mergeSort fun a b =>
            arith.le (b.combinedScore.getD arith.zero) (a.combinedScore.getD arith.zero) := by
          cases h
          rfl
        have hperm : r.result.Perm (scores.map withScore) := hresult ▸ List.mergeSort_perm _ _
        constructor
        · rw [← contributions_rows]
          apply hscored.picks.of_perm
          have hkeys := hperm.map Row.key
          rwa [List.map_map] at hkeys ⊢
        · intro row hrow
          obtain ⟨s, hs, rfl⟩ := List.mem_map.mp (hperm.mem_iff.mp hrow)
          exact (hscored.sums s hs).symm

/-! ### What the executions return -/

section Outcomes

variable (arith) (query : MultiCriteriaQuery Params N)

/-- The entities that a rule returns. -/
def Returns (rule : CriteriaRule Params N) (e : Entity × Nat) : Prop :=
  e ∈ (rowsOf engine rule).map Row.key

/-- The rules and the method for which an execution raises: a rule that cannot be run, a method
that is none, or an id whose weighted sum cannot be computed. -/
inductive Raises : Prop
  | rule (rule : CriteriaRule Params N) (hrule : rule ∈ query.rules) (fault : ExecutionFault)
      (hrun : runRule engine rule = .error fault)
  | method (name : String) (hmethod : query.combineMethod = .unknown name)
  | sum (hmethod : query.combineMethod = .weightedScore) (id : Nat)
      (hsum : sumOf arith (contributions (results engine query.rules)) id = none)

/-- The rows that the rules return. -/
def ruleRows : List (Row N X) := allRows (results engine query.rules)

/-- An id that all rules return. -/
def CommonId (id : Nat) : Prop := Common (results engine query.rules) id

theorem exists_returns_iff {e : Entity × Nat} :
    (∃ rule ∈ query.rules, Returns engine rule e) ↔ e ∈ (ruleRows engine query).map Row.key := by
  rw [ruleRows, allRows, results, List.flatMap_map, List.map_flatMap, List.mem_flatMap]
  rfl

theorem forall_returns_iff {e : Entity × Nat} :
    (∀ rule ∈ query.rules, Returns engine rule e) ↔
      ∀ rr ∈ results engine query.rules, e ∈ rr.2.map Row.key := by
  rw [results, List.forall_mem_map]
  rfl

theorem rowsOf_uniform (rule : CriteriaRule Params N) :
    ∀ r ∈ rowsOf engine rule, ∀ r' ∈ rowsOf engine rule, r.entity = r'.entity := by
  unfold rowsOf runRule
  cases engine.buildQueryFromTemplate rule.templateId rule.params with
  | none => simp
  | some config =>
    cases hspec : validateQuerySpec config with
    | error fault => simp [hspec]
    | ok spec =>
      cases hrows : engine.executeQuery spec with
      | error fault => simp [hspec, hrows]
      | ok rows =>
        simp only [hspec, hrows]
        intro r hr r' hr'
        rw [engine.entity_eq spec rows hrows r hr, engine.entity_eq spec rows hrows r' hr']

variable {query}

/-- The results over which an execution that returns has combined. -/
theorem outcome_ok {n : Nat} {r : Combined N X} (h : outcome arith engine query n = .ok r) :
    combine arith query (List.replicate (n + 1) (results engine query.rules)).flatten = .ok r := by
  rw [outcome_eq] at h
  cases hrun : (runRules engine [] query.rules).2 with
  | some fault => simp [hrun] at h
  | none => simpa [hrun] using h

theorem mem_allRows_repeated {n : Nat} {row : Row N X} :
    row ∈ allRows (List.replicate (n + 1) (results engine query.rules)).flatten ↔
      row ∈ ruleRows engine query := by
  simp only [mem_allRows, ruleRows, mem_repeated]

theorem mem_keys_repeated {n : Nat} {e : Entity × Nat} :
    e ∈ (allRows (List.replicate (n + 1) (results engine query.rules)).flatten).map Row.key ↔
      e ∈ (ruleRows engine query).map Row.key := by
  simp only [List.mem_map, mem_allRows_repeated]

theorem oneKind_repeated {n : Nat} :
    OneKind (allRows (List.replicate (n + 1) (results engine query.rules)).flatten) ↔
      OneKind (ruleRows engine query) := by
  simp only [OneKind, mem_allRows_repeated]

theorem union_iff {n : Nat} {r : Combined N X} (h : outcome arith engine query n = .ok r)
    (hmethod : query.combineMethod = .union) :
    ((∀ e, e ∈ r.result.map Row.key ↔ ∃ rule ∈ query.rules, Returns engine rule e) ∧
      (r.result.map Row.key).Nodup) ↔ OneKind (ruleRows engine query) := by
  have hcombine := outcome_ok arith engine h
  rw [combine, hmethod, Except.ok.injEq] at hcombine
  have hpicks := combineUnion_picks query.rules.length
    (List.replicate (n + 1) (results engine query.rules)).flatten
  rw [hcombine] at hpicks
  rw [and_iff_left hpicks.nodup_keys, ← oneKind_repeated engine, ← hpicks.keys_iff]
  simp only [exists_returns_iff, mem_keys_repeated]

theorem intersection_iff {n : Nat} {r : Combined N X} (h : outcome arith engine query n = .ok r)
    (hmethod : query.combineMethod = .intersection) :
    ((∀ e, e ∈ r.result.map Row.key ↔ ∀ rule ∈ query.rules, Returns engine rule e) ∧
      (r.result.map Row.key).Nodup) ↔
      query.rules ≠ [] ∧
      (∀ row ∈ ruleRows engine query, ∀ row' ∈ ruleRows engine query,
        CommonId engine query row.entityId → row.entityId = row'.entityId →
          row.entity = row'.entity) ∧
      ∀ rule ∈ query.rules.head?, ∀ id, CommonId engine query id →
        (entityIds (rowsOf engine rule)).count id ≤ 1 := by
  have hcombine := outcome_ok arith engine h
  rw [combine, hmethod, Except.ok.injEq] at hcombine
  cases hrules : query.rules with
  | nil =>
    rw [hrules] at hcombine
    have hempty : r.result = [] := by
      rw [← hcombine]
      simp [results, combineIntersection, noRules]
    rw [hempty]
    refine iff_of_false (fun hreturned => ?_) fun hne => hne.1 rfl
    have hnone := (hreturned.1 (.team, 0)).mpr fun rule hrule => absurd hrule List.not_mem_nil
    exact List.not_mem_nil hnone
  | cons rule rules =>
    have hsplit : (List.replicate (n + 1) (results engine query.rules)).flatten =
        (rule, rowsOf engine rule) :: (results engine rules ++
          (List.replicate n (results engine query.rules)).flatten) := by
      rw [List.replicate_succ, List.flatten_cons, hrules]
      rfl
    have huniform : Uniform (List.replicate (n + 1) (results engine query.rules)).flatten := by
      intro rr hrr
      rw [mem_repeated, results] at hrr
      obtain ⟨rule', -, rfl⟩ := List.mem_map.mp hrr
      exact rowsOf_uniform engine rule'
    have hcommon : ∀ id, Common (List.replicate (n + 1) (results engine query.rules)).flatten id ↔
        CommonId engine query id := by
      intro id
      simp only [Common, CommonId, mem_repeated]
    rw [hsplit] at hcombine huniform
    have hkeys := combineIntersection_iff query.rules.length huniform
    have hnodup := combineIntersection_nodup_iff query.rules.length huniform
    rw [hcombine, ← hsplit] at hkeys hnodup
    simp only [mem_repeated, hcommon, mem_allRows_repeated] at hkeys hnodup
    rw [← hrules]
    simp only [forall_returns_iff]
    rw [hkeys, hnodup, hrules]
    simp

theorem weightedScore_iff {r : Combined N X} (h : outcome arith engine query 0 = .ok r)
    (hmethod : query.combineMethod = .weightedScore) :
    ((∀ e, e ∈ r.result.map Row.key ↔ ∃ rule ∈ query.rules, Returns engine rule e) ∧
      (r.result.map Row.key).Nodup ∧
      ∀ row ∈ r.result, row.combinedScore =
        combinedScore arith (results engine query.rules) row.key) ↔
      OneKind (ruleRows engine query) := by
  have hcombine := outcome_ok arith engine h
  simp only [combine, hmethod, List.replicate_succ, List.replicate_zero, List.flatten_cons,
    List.flatten_nil, List.append_nil] at hcombine
  obtain ⟨hpicks, hscores⟩ := (combineWeightedScore_spec query.rules.length _).2 r hcombine
  have hkeys := hpicks.keys_iff
  simp only [exists_returns_iff]
  constructor
  · exact fun hreturned => hkeys.mp hreturned.1
  · intro hone
    refine ⟨hkeys.mpr hone, hpicks.nodup_keys, ?_⟩
    intro row hrow
    obtain ⟨row', hrow', hkey⟩ := List.mem_map.mp (hpicks.keys row hrow)
    have hid : row'.entityId = row.entityId := congrArg Prod.snd hkey
    rw [hscores row hrow, ← hkey, combinedScore_eq_sumOf hone hrow', hid]

variable (query)

theorem runRules_none (rules : List (CriteriaRule Params N))
    (h : ∀ rule ∈ rules, ∃ rows, runRule engine rule = .ok rows) :
    (runRules engine [] rules).2 = none := by
  induction rules with
  | nil => rfl
  | cons rule rules ih =>
    rw [List.forall_mem_cons] at h
    obtain ⟨⟨rows, hrows⟩, hrest⟩ := h
    rw [runRules, hrows]
    simp only [List.nil_append]
    rw [runRules_eq]
    exact ih hrest

theorem outcome_of_run (hrun : ∀ rule ∈ query.rules, ∃ rows, runRule engine rule = .ok rows) :
    outcome arith engine query 0 = combine arith query (results engine query.rules) := by
  rw [outcome_eq, runRules_none engine query.rules hrun]
  simp only [List.replicate_succ, List.replicate_zero, List.flatten_cons, List.flatten_nil,
    List.append_nil]

/-- Where all rules can be run, the weighted combination fails for the first time if and only if
there is an id whose sum cannot be computed. -/
theorem weightedScore_typeError_iff (hmethod : query.combineMethod = .weightedScore)
    (hrun : ∀ rule ∈ query.rules, ∃ rows, runRule engine rule = .ok rows) :
    outcome arith engine query 0 = .error .typeError ↔
      ∃ id, sumOf arith (contributions (results engine query.rules)) id = none := by
  rw [outcome_of_run arith engine query hrun, combine, hmethod]
  exact (combineWeightedScore_spec query.rules.length _).1

theorem outcome_error_iff :
    (∃ fault, outcome arith engine query 0 = .error fault) ↔ Raises arith engine query := by
  by_cases hrun : ∀ rule ∈ query.rules, ∃ rows, runRule engine rule = .ok rows
  · constructor
    · rintro ⟨fault, hfault⟩
      rw [outcome_of_run arith engine query hrun, combine] at hfault
      cases hmethod : query.combineMethod with
      | intersection | union => simp [hmethod] at hfault
      | unknown name => exact .method name hmethod
      | weightedScore =>
        simp only [hmethod] at hfault
        cases fault with
        | typeError =>
          obtain ⟨id, hsum⟩ := (combineWeightedScore_spec query.rules.length _).1.mp hfault
          exact .sum hmethod id hsum
        | _ =>
          unfold combineWeightedScore at hfault
          split at hfault
          · cases hfault
          · split at hfault <;> cases hfault
    · rintro (⟨rule, hrule, fault, hfault⟩ | ⟨name, hmethod⟩ | ⟨hmethod, id, hsum⟩)
      · obtain ⟨rows, hrows⟩ := hrun rule hrule
        exact absurd (hrows.symm.trans hfault) (by simp)
      · exact ⟨_, by rw [outcome_of_run arith engine query hrun, combine, hmethod]⟩
      · exact ⟨_, (weightedScore_typeError_iff arith engine query hmethod hrun).mpr ⟨id, hsum⟩⟩
  · have hfault : (runRules engine [] query.rules).2 ≠ none := fun hnone =>
      hrun fun rule hrule => ⟨_, (runRules_ok engine query.rules hnone).2 rule hrule⟩
    obtain ⟨fault, hfault⟩ := Option.ne_none_iff_exists'.mp hfault
    refine iff_of_true ⟨fault, by rw [outcome_eq, hfault]⟩ ?_
    push Not at hrun
    obtain ⟨rule, hrule, hrows⟩ := hrun
    cases hone : runRule engine rule with
    | error fault => exact .rule rule hrule fault hone
    | ok rows => exact absurd hone (hrows rows)

/-- An execution returns what the first one returned if and only if there is no rule, or the
executions raise. -/
theorem repeated_iff :
    (∀ n, outcome arith engine query n = outcome arith engine query 0) ↔
      query.rules = [] ∨ Raises arith engine query := by
  rw [repeated_iff_error, outcome_error_iff]

end Outcomes

/-- Executions return the same only where there is no rule or they raise, since every one of them
adds its results to those of the ones before. What each one returns are the entities of the rules,
where ids do not belong to two kinds of entities and, for an intersection, do not come twice in
the first result; and the first one has the weighted sums. -/
theorem multiCriteria_iff (arith : Arithmetic N) (engine : Engine Params N X)
    (query : MultiCriteriaQuery Params N) :
    ((∀ n, outcome arith engine query n = outcome arith engine query 0) ↔
      query.rules = [] ∨ Raises arith engine query) ∧
    (∀ n r, outcome arith engine query n = .ok r → query.combineMethod = .intersection →
      (((∀ e, e ∈ r.result.map Row.key ↔ ∀ rule ∈ query.rules, Returns engine rule e) ∧
        (r.result.map Row.key).Nodup) ↔
        query.rules ≠ [] ∧
        (∀ row ∈ ruleRows engine query, ∀ row' ∈ ruleRows engine query,
          CommonId engine query row.entityId → row.entityId = row'.entityId →
            row.entity = row'.entity) ∧
        ∀ rule ∈ query.rules.head?, ∀ id, CommonId engine query id →
          (entityIds (rowsOf engine rule)).count id ≤ 1)) ∧
    (∀ n r, outcome arith engine query n = .ok r → query.combineMethod = .union →
      (((∀ e, e ∈ r.result.map Row.key ↔ ∃ rule ∈ query.rules, Returns engine rule e) ∧
        (r.result.map Row.key).Nodup) ↔ OneKind (ruleRows engine query))) ∧
    (∀ r, outcome arith engine query 0 = .ok r → query.combineMethod = .weightedScore →
      (((∀ e, e ∈ r.result.map Row.key ↔ ∃ rule ∈ query.rules, Returns engine rule e) ∧
        (r.result.map Row.key).Nodup ∧
        ∀ row ∈ r.result, row.combinedScore =
          combinedScore arith (results engine query.rules) row.key) ↔
        OneKind (ruleRows engine query))) ∧
    (query.combineMethod = .weightedScore →
      (∀ rule ∈ query.rules, ∃ rows, runRule engine rule = .ok rows) →
      (outcome arith engine query 0 = .error .typeError ↔
        ∃ id, sumOf arith (contributions (results engine query.rules)) id = none)) := by
  refine ⟨repeated_iff arith engine query, ?_, ?_, ?_, ?_⟩
  · exact fun n r h hmethod => intersection_iff arith engine h hmethod
  · exact fun n r h hmethod => union_iff arith engine h hmethod
  · exact fun r h hmethod => weightedScore_iff arith engine h hmethod
  · exact weightedScore_typeError_iff arith engine query

/-! ### A second execution -/

def intArithmetic : Arithmetic Int where
  zero := 0
  isZero n := n = 0
  mul n m := some (n * m)
  add n m := some (n + m)
  le n m := n ≤ m

/-- One template, and a query that returns team 5 with the metric 3. -/
def oneTeamEngine : Engine Unit Int Unit where
  buildQueryFromTemplate _ _ := some
    [("rule", .str "top"), ("entity", .str "team"), ("metric", .str "TEAM_TOTAL_SCORE")]
  executeQuery spec := .ok [⟨spec.entity, 5, some 3, none, ()⟩]
  entity_eq := by
    intro spec rows h row hrow
    cases h
    rw [List.mem_singleton.mp hrow]

/-- The second execution doubles the score. -/
theorem second_execution_doubles :
    let query : MultiCriteriaQuery Unit Int := ⟨[⟨"top_teams_by_score", (), 2⟩], .weightedScore⟩
    ∃ first second, outcome intArithmetic oneTeamEngine query 0 = .ok first ∧
      outcome intArithmetic oneTeamEngine query 1 = .ok second ∧
      first.result.map (fun row => (row.entityId, row.combinedScore)) = [(5, some 6)] ∧
      second.result.map (fun row => (row.entityId, row.combinedScore)) = [(5, some 12)] := by
  refine ⟨_, _, rfl, rfl, ?_, ?_⟩
  · simp [metricValue, intArithmetic]
  · simp [metricValue, intArithmetic]

end Executor

end Fctf.Rewards
