import Fctf.Rewards.Filters

/-!
The values of a specification are bound to the parameters of its query and leave no trace in the
query's text.
-/

namespace Fctf.Rewards

open Sql (Expr Select Token)
open Traverse

/-! ### Texts of one form -/

/-- Filters that have the same text. -/
structure SameFilter (f f' : FilterSpec) : Prop where
  field : f.field = f'.field
  operator : f.operator = f'.operator
  items : f.operator = .isIn → f.value.items.length = f'.value.items.length
  truth : f.field = .fullClearCategory ∨ f.field = .firstClearEachCategory →
    f.value.truth = f'.value.truth

/-- Specifications that differ in their values at most. -/
structure SameForm (spec spec' : QuerySpec) : Prop where
  entity : spec.entity = spec'.entity
  metric : spec.metric = spec'.metric
  order : spec.order = spec'.order
  filters : List.Forall₂ SameFilter spec.filters spec'.filters

theorem exists_sameFilter {filters filters' : List FilterSpec}
    (h : List.Forall₂ SameFilter filters filters') {f' : FilterSpec} (hf' : f' ∈ filters') :
    ∃ f ∈ filters, SameFilter f f' := by
  induction h with
  | nil => exact absurd hf' List.not_mem_nil
  | cons hhead _ ih =>
    rcases List.mem_cons.mp hf' with rfl | hf'
    · exact ⟨_, List.mem_cons_self, hhead⟩
    · obtain ⟨f, hf, hsame⟩ := ih hf'
      exact ⟨f, List.mem_cons_of_mem _ hf, hsame⟩

section Form

variable {f f' : FilterSpec} (h : SameFilter f f') (entity : Entity) (idx : Nat)

include h

theorem SameFilter.keysOf_eq : keysOf idx f = keysOf idx f' := by
  unfold keysOf
  rw [h.field, h.operator]
  split
  · split
    · rename_i hop
      rw [h.items (h.operator.trans hop)]
    · rfl
  · split
    · rename_i hop
      rw [h.items (h.operator.trans hop)]
    · rfl
  · rfl
  · rfl

theorem SameFilter.baseOf_eq : baseOf idx f = baseOf idx f' := by
  unfold baseOf
  rw [h.field, h.operator, h.keysOf_eq]

theorem SameFilter.aggOf_eq : aggOf entity idx f = aggOf entity idx f' := by
  unfold aggOf
  rw [h.field, h.operator]

theorem SameFilter.rankOf_eq : rankOf idx f = rankOf idx f' := by
  unfold rankOf
  rw [h.field, h.operator]

end Form

/-- Filters of the same form, one after the other, look the same to what only sees their form. -/
theorem map_numbered_congr {β : Type} {g : FilterSpec × Nat → β}
    (hg : ∀ f f' idx, SameFilter f f' → g (f, idx) = g (f', idx))
    {filters filters' : List FilterSpec}
    (h : List.Forall₂ SameFilter filters filters') :
    (numbered filters).map g = (numbered filters').map g := by
  unfold numbered
  generalize 0 = idx
  induction h generalizing idx with
  | nil => rfl
  | cons hhead _ ih => rw [List.zipIdx_cons, List.zipIdx_cons, List.map_cons, List.map_cons, ih,
      hg _ _ idx hhead]

theorem flatMap_numbered_congr {β : Type} {g : FilterSpec × Nat → List β}
    (hg : ∀ f f' idx, SameFilter f f' → g (f, idx) = g (f', idx))
    {filters filters' : List FilterSpec}
    (h : List.Forall₂ SameFilter filters filters') :
    (numbered filters).flatMap g = (numbered filters').flatMap g := by
  rw [List.flatMap_def, List.flatMap_def, map_numbered_congr hg h]

theorem filterMap_numbered_congr {β : Type} {g : FilterSpec × Nat → Option β}
    (hg : ∀ f f' idx, SameFilter f f' → g (f, idx) = g (f', idx))
    {filters filters' : List FilterSpec}
    (h : List.Forall₂ SameFilter filters filters') :
    (numbered filters).filterMap g = (numbered filters').filterMap g := by
  have hmap := congrArg (List.filterMap id) (map_numbered_congr hg h)
  simpa [List.filterMap_map] using hmap

variable {intOfText : String → Option Int} {entity : Entity}

theorem compiledSql_congr (dialect : Dialect) {spec spec' : QuerySpec} (h : SameForm spec spec')
    {c c' : Compiled} (hc : Collected intOfText spec.entity spec.filters c)
    (hc' : Collected intOfText spec'.entity spec'.filters c') :
    compiledSql dialect spec c = compiledSql dialect spec' c' := by
  have hbase : c.baseConditions = c'.baseConditions := by
    rw [hc.base, hc'.base]
    exact flatMap_numbered_congr (fun f f' idx hf => hf.baseOf_eq idx) h.filters
  have hagg : c.aggConditions = c'.aggConditions := by
    rw [hc.agg, hc'.agg, ← h.entity]
    exact flatMap_numbered_congr (fun f f' idx hf => hf.aggOf_eq spec.entity idx) h.filters
  have hrank : c.rankConditions = c'.rankConditions := by
    rw [hc.rank, hc'.rank]
    exact flatMap_numbered_congr (fun f f' idx hf => hf.rankOf_eq idx) h.filters
  have hbracket : c.bracketFilter = c'.bracketFilter := by
    rw [hc.bracket, hc'.bracket]
    congr 1
    exact filterMap_numbered_congr (fun f f' idx hf => by simp only [hf.field]) h.filters
  have hfirst : c.firstClearEachCategory = c'.firstClearEachCategory := by
    rw [hc.firstClear, hc'.firstClear]
    congr 2
    refine filterMap_numbered_congr (fun f f' idx hf => ?_) h.filters
    by_cases hfield : f.field = .firstClearEachCategory
    · simp [← hf.field, hfield, hf.truth (.inr hfield)]
    · simp [← hf.field, hfield]
  have hfull : c.fullClearCategory.truth = c'.fullClearCategory.truth := by
    have htruth : ∀ values : List Value,
        (values.getLast?.getD .null).truth = ((values.map Value.truth).getLast?).getD false := by
      intro values
      rw [List.getLast?_map]
      cases values.getLast? <;> rfl
    rw [hc.fullClear, hc'.fullClear, htruth, htruth, List.map_filterMap, List.map_filterMap]
    congr 2
    refine filterMap_numbered_congr (fun f f' idx hf => ?_) h.filters
    by_cases hfield : f.field = .fullClearCategory
    · simp [← hf.field, hfield, hf.truth (.inl hfield)]
    · simp [← hf.field, hfield]
  have hrankOrder : rankOrderExpr spec.metric spec.order c.fullClearCategory =
      rankOrderExpr spec'.metric spec'.order c'.fullClearCategory := by
    unfold rankOrderExpr byFullClearDate
    rw [hfull, h.metric, h.order]
  unfold compiledSql teamBody solveBody finalConditions
  rw [hbase, hagg, hrank, hbracket, hfirst, hrankOrder, h.entity, h.metric, h.order]

/-! ### Conditions -/

section Conditions

theorem plainName_key {idx : Nat} {name : String} (h : IsKeyOf idx name) :
    Sql.plainName name = true := by
  have hdigit : ∀ n : Nat, ∀ d ∈ (Nat.repr n).toList, Sql.isWordChar d = true := by
    intro n d hd
    have := isDigit_of_mem_repr hd
    simp [Sql.isWordChar, Char.isAlphanum, this]
  have hbegins : ∀ d ∈ "param_".toList, Sql.isWordChar d = true := by simp [Sql.isWordChar]
  rw [Sql.plainName, List.all_eq_true]
  rcases h with rfl | ⟨j, rfl⟩
  · rw [toList_paramKey]
    intro d hd
    rcases List.mem_append.mp hd with hd | hd
    · exact hbegins d hd
    · exact hdigit idx d hd
  · rw [toList_itemKey]
    intro d hd
    rcases List.mem_append.mp hd with hd | hd
    · exact hbegins d hd
    · rcases List.mem_append.mp hd with hd | hd
      · exact hdigit idx d hd
      · rcases List.mem_cons.mp hd with rfl | hd
        · decide
        · exact hdigit j d hd

/-- A condition on the parameters of one filter. -/
structure OwnParams (idx : Nat) (f : FilterSpec) (condition : Condition) : Prop where
  plain : condition.expr.plain = true
  names : ∀ name ∈ condition.expr.names, name ∈ keysOf idx f

variable {idx : Nat} {f : FilterSpec} {column : Sql.Column} (hcolumn : column.plain = true)

include hcolumn in
theorem OwnParams.compare (operator : Operator) (hkey : paramKey idx ∈ keysOf idx f) :
    OwnParams idx f (.compare column operator (paramKey idx)) := by
  have hname : Sql.plainName (paramKey idx) = true := plainName_key (.inl rfl)
  constructor
  · cases operator <;> simp +decide [Condition.expr, Expr.plain, hcolumn, hname, Operator.name]
  · cases operator <;> simpa [Condition.expr, Expr.names] using hkey

include hcolumn in
theorem OwnParams.among : OwnParams idx f (.among column (keysOf idx f)) where
  plain := by
    have hnames : ∀ name ∈ keysOf idx f, Sql.plainName name = true :=
      fun name hname => plainName_key (isKeyOf_keysOf hname)
    simpa [Condition.expr, Expr.plain, hcolumn] using hnames
  names := by simp [Condition.expr, Expr.names]

theorem ownParams_baseOf {condition : Condition} (h : condition ∈ baseOf idx f) :
    OwnParams idx f condition := by
  obtain ⟨field, operator, value, hin⟩ := f
  cases field with
  | category | challengeId =>
    by_cases hop : operator = .isIn
    · simp only [baseOf, hop, if_true, List.mem_singleton] at h
      subst h
      subst hop
      exact .among (by decide)
    · simp only [baseOf, hop, if_false, List.mem_singleton] at h
      subst h
      exact .compare (by decide) operator (by simp [keysOf, hop])
  | solveTime | firstBlood | hintUsed | teamId =>
    obtain rfl := List.mem_singleton.mp h
    exact .compare (by decide) _ List.mem_cons_self
  | _ => cases h

theorem ownParams_aggOf {entity : Entity} {condition : Condition}
    (h : condition ∈ aggOf entity idx f) : OwnParams idx f condition := by
  obtain ⟨field, operator, value, hin⟩ := f
  cases field with
  | wrongCount =>
    obtain rfl := List.mem_singleton.mp h
    cases entity with
    | team => exact .compare (by decide) _ List.mem_cons_self
    | solve => exact .compare (by decide) _ List.mem_cons_self
  | solvedCount | totalScore | firstBloodCount | categoryClearCount =>
    obtain rfl := List.mem_singleton.mp h
    exact .compare (by decide) _ List.mem_cons_self
  | fullClearCategory =>
    obtain rfl := List.mem_singleton.mp h
    exact ⟨by decide, fun name hname => absurd hname List.not_mem_nil⟩
  | _ => cases h

theorem ownParams_rankOf {condition : Condition} (h : condition ∈ rankOf idx f) :
    OwnParams idx f condition := by
  obtain ⟨field, operator, value, hin⟩ := f
  cases field with
  | rank =>
    obtain rfl := List.mem_singleton.mp h
    exact .compare (by decide) _ List.mem_cons_self
  | _ => cases h

end Conditions

/-! ### The query -/

section Query

variable {intOfText : String → Option Int} {entity : Entity} {filters : List FilterSpec}
  {c : Compiled}

/-- The parameters of all filters. -/
def allKeys (filters : List FilterSpec) : List String :=
  (numbered filters).flatMap fun p => keysOf p.2 p.1

/-- Every condition that the loop has collected is on parameters of a filter. -/
theorem Collected.conditions (hc : Collected intOfText entity filters c) {condition : Condition}
    (h : condition ∈ c.baseConditions ∨ condition ∈ c.rankConditions ++ c.aggConditions) :
    condition.expr.plain = true ∧ ∀ name ∈ condition.expr.names, name ∈ allKeys filters := by
  have hown : ∃ p ∈ numbered filters, OwnParams p.2 p.1 condition := by
    rw [List.mem_append, hc.base, hc.rank, hc.agg] at h
    rcases h with h | h | h <;> obtain ⟨p, hp, h⟩ := List.mem_flatMap.mp h
    · exact ⟨p, hp, ownParams_baseOf h⟩
    · exact ⟨p, hp, ownParams_rankOf h⟩
    · exact ⟨p, hp, ownParams_aggOf h⟩
  obtain ⟨p, hp, hown⟩ := hown
  exact ⟨hown.plain, fun name hname => List.mem_flatMap.mpr ⟨p, hp, hown.names name hname⟩⟩

theorem Collected.bracketFilter (hc : Collected intOfText entity filters c) {name : String}
    (h : name ∈ c.bracketFilter) : Sql.plainName name = true ∧ name ∈ allKeys filters := by
  rw [hc.bracket] at h
  obtain ⟨p, hp, hname⟩ := List.mem_filterMap.mp (List.mem_of_getLast? h)
  split at hname
  · rename_i hfield
    obtain rfl := Option.some.inj hname
    exact ⟨plainName_key (.inl rfl),
      List.mem_flatMap.mpr ⟨p, hp, by simp [keysOf, hfield]⟩⟩
  · cases hname

/-- The expressions of a list are plain and have placeholders of those names only. -/
def Within (names : List String) (es : List Expr) : Prop :=
  ∀ e ∈ es, e.plain = true ∧ ∀ name ∈ e.names, name ∈ names

theorem Collected.within_base (hc : Collected intOfText entity filters c) :
    Within (allKeys filters) (c.baseConditions.map Condition.expr) := by
  intro e he
  obtain ⟨condition, hcondition, rfl⟩ := List.mem_map.mp he
  exact hc.conditions (.inl hcondition)

theorem Collected.within_bracket (hc : Collected intOfText entity filters c) :
    Within (allKeys filters) (bracketCondition c.bracketFilter) := by
  intro e he
  obtain ⟨name, hname, rfl⟩ := List.mem_map.mp he
  obtain ⟨hplain, hkey⟩ := hc.bracketFilter (Option.mem_toList.mp hname)
  refine ⟨?_, ?_⟩
  · simp +decide [equal, Expr.plain, hplain]
  · simpa [equal, col, Expr.names] using hkey

theorem Collected.within_final (hc : Collected intOfText entity filters c) (metric : Metric) :
    Within (allKeys filters) (finalConditions entity metric c) := by
  intro e he
  rcases List.mem_append.mp he with he | he
  · obtain ⟨condition, hcondition, rfl⟩ := List.mem_map.mp he
    exact hc.conditions (.inr hcondition)
  · split at he
    · obtain rfl := List.mem_singleton.mp he
      refine ⟨?_, fun name hname => absurd hname List.not_mem_nil⟩
      cases metric <;> decide
    · cases he

/-- The parameters that every query may have besides. -/
def commonNames : List String := ["limit", "full_clear_category"]

/-- A selection is plain and has placeholders of those names only. -/
structure SelectWithin (names : List String) (s : Select) : Prop where
  plain : s.plain = true
  names : ∀ name ∈ s.names, name ∈ names ++ commonNames

theorem SelectWithin.of_conditions {names : List String} {s : Select}
    (hplain : s.unconditioned.plain = true)
    (hnames : ∀ name ∈ s.unconditioned.names, name ∈ commonNames)
    (hconditions : Within names s.conditions) : SelectWithin names s where
  plain := s.plain_iff.mpr ⟨hplain, fun e he => (hconditions e he).1⟩
  names := by
    intro name hname
    rw [List.mem_append]
    rcases s.mem_names_iff.mp hname with hname | ⟨e, he, hname⟩
    · exact .inr (hnames name hname)
    · exact .inl ((hconditions e he).2 name hname)

theorem SelectWithin.of_static {names : List String} {s : Select} (hplain : s.plain = true)
    (hnames : ∀ name ∈ s.names, name ∈ commonNames) : SelectWithin names s where
  plain := hplain
  names name hname := List.mem_append_right _ (hnames name hname)

theorem within_baseCtes (dialect : Dialect) (hc : Collected intOfText entity filters c) :
    ∀ t ∈ baseCtes dialect c.baseConditions,
      Sql.plainWord t.1 = true ∧ SelectWithin (allKeys filters) t.2 := by
  have hbase : SelectWithin (allKeys filters) (baseSolves dialect) := by
    apply SelectWithin.of_static
    · cases dialect <;> decide +kernel
    · cases dialect <;> decide
  have hfiltered : SelectWithin (allKeys filters) (solvesFiltered c.baseConditions) := by
    have hplain : (solvesFiltered []).plain = true := by decide
    exact .of_conditions hplain (fun name hname => absurd hname List.not_mem_nil) hc.within_base
  rw [baseCtes]
  repeat rw [List.forall_mem_cons]
  have hname : Sql.plainWord "base_solves" = true ∧ Sql.plainWord "solves_filtered" = true := by
    decide
  exact ⟨⟨hname.1, hbase⟩, ⟨by decide, .of_static (by decide +kernel) (by decide)⟩,
    ⟨by decide, .of_static (by decide +kernel) (by decide)⟩,
    ⟨by decide, .of_static (by decide +kernel) (by decide)⟩, ⟨hname.2, hfiltered⟩,
    ⟨by decide, .of_static (by decide +kernel) (by decide)⟩,
    ⟨by decide, .of_static (by decide +kernel) (by decide)⟩,
    ⟨by decide, .of_static (by decide +kernel) (by decide)⟩,
    ⟨by decide, .of_static (by decide +kernel) (by decide)⟩,
    fun t ht => absurd ht List.not_mem_nil⟩

/-- The columns and directions of an order are plain. -/
def plainOrder (order : List (Sql.Column × String)) : Bool :=
  order.all fun o => o.1.plain && Sql.plainWord o.2

theorem plain_rankedTeams (order : List (Sql.Column × String)) :
    (rankedTeams order).plain = (plainOrder order && (rankedTeams []).plain) := by
  simp only [Select.plain, rankedTeams, labelled, List.all_cons, List.all_nil, Sql.Item.plain,
    Expr.plain, Bool.and_true, Bool.true_and, plainOrder]
  cases order.all fun o => o.1.plain && Sql.plainWord o.2 <;> simp

theorem plain_teamBody (metric : Metric) (c : Compiled) :
    (teamBody metric c).unconditioned.plain =
      (Sql.plainWord (teamMetric metric) && (teamBody .teamTotalScore {}).unconditioned.plain) := by
  have hscore : Sql.plainWord (teamMetric .teamTotalScore) = true := by decide
  simp only [Select.plain, Select.unconditioned, teamBody, labelled, List.all_cons, List.all_nil,
    Sql.Item.plain, Expr.plain, Bool.and_true, Bool.true_and, Sql.Column.plain, bare, hscore,
    Option.all_none]
  cases Sql.plainWord (teamMetric metric) <;> simp

theorem plain_solveBody (metric : Metric) (order : Order) (c : Compiled) :
    (solveBody metric order c).unconditioned.plain =
      ((solveMetric metric).plain && plainOrder (orderClause order) &&
        (solveBody .firstBlood {} {}).unconditioned.plain) := by
  have hblood : (solveMetric .firstBlood).plain = true := by decide
  have hid : plainOrder (orderClause {}) = true := by decide
  unfold plainOrder at hid ⊢
  simp only [Select.plain, Select.unconditioned, solveBody, labelled, List.all_cons, List.all_nil,
    Sql.Item.plain, Bool.and_true, Bool.true_and, hblood, hid]
  cases (solveMetric metric).plain <;>
    cases (orderClause order).all fun o => o.1.plain && Sql.plainWord o.2 <;> simp

theorem within_rankedTeams {names : List String} (metric : Metric) (order : Order) (value : Value) :
    SelectWithin names (rankedTeams (rankOrderExpr metric order value)) := by
  have hnames : ∀ name ∈ (rankedTeams []).names, name ∈ commonNames := by decide
  refine .of_static ?_ hnames
  rw [plain_rankedTeams, Bool.and_eq_true]
  refine ⟨?_, by decide +kernel⟩
  unfold rankOrderExpr
  split
  · decide
  · cases metric <;> decide

theorem within_teamBody (metric : Metric) (hc : Collected intOfText .team filters c) :
    SelectWithin (allKeys filters) (teamBody metric c) := by
  have hnames : ∀ name ∈ (teamBody metric {}).unconditioned.names, name ∈ commonNames := by
    cases metric <;> decide
  refine .of_conditions ?_ hnames (hc.within_final metric)
  rw [plain_teamBody, Bool.and_eq_true]
  refine ⟨?_, by decide +kernel⟩
  cases metric <;> decide

theorem within_solveBody (metric : Metric) (order : Order)
    (hc : Collected intOfText .solve filters c) :
    SelectWithin (allKeys filters) (solveBody metric order c) := by
  have hnames : ∀ name ∈ (solveBody metric {} {}).unconditioned.names, name ∈ commonNames := by
    cases metric <;> decide
  refine .of_conditions ?_ hnames ?_
  · rw [plain_solveBody, Bool.and_eq_true, Bool.and_eq_true]
    refine ⟨⟨?_, ?_⟩, by decide +kernel⟩
    · cases metric <;> decide
    · obtain ⟨field, direction⟩ := order
      cases field with
      | none => rfl
      | some field => cases field <;> cases direction <;> decide
  · intro e he
    rcases List.mem_append.mp he with he | he
    · exact hc.within_bracket e he
    · exact hc.within_final metric e he

/-- A query is plain, and its placeholders are parameters of the filters or common ones. -/
theorem within_compiledSql (dialect : Dialect) (spec : QuerySpec)
    (hc : Collected intOfText spec.entity spec.filters c) :
    (compiledSql dialect spec c).plain = true ∧
      ∀ name ∈ (compiledSql dialect spec c).names, name ∈ allKeys spec.filters ++ commonNames := by
  have hselects : (∀ t ∈ (compiledSql dialect spec c).tables,
      Sql.plainWord t.1 = true ∧ SelectWithin (allKeys spec.filters) t.2) ∧
        SelectWithin (allKeys spec.filters) (compiledSql dialect spec c).body := by
    have hbase := within_baseCtes dialect hc
    cases hentity : spec.entity with
    | team =>
      rw [hentity] at hc
      cases hfirst : c.firstClearEachCategory with
      | true =>
        rw [compiledSql_firstClear dialect hentity hfirst]
        have hbody : firstClearBody.plain = true := by decide +kernel
        have hbodyNames : ∀ name ∈ firstClearBody.names, name ∈ commonNames := by decide
        refine ⟨List.forall_mem_append.mpr ⟨hbase, ?_⟩, .of_static hbody hbodyNames⟩
        rw [List.forall_mem_cons, List.forall_mem_cons]
        have hname : Sql.plainWord "team_category_completion" = true := by decide
        have hplain : (teamCategoryCompletion none).plain = true := by decide +kernel
        have hnames : ∀ name ∈ (teamCategoryCompletion none).names, name ∈ commonNames := by decide
        exact ⟨⟨hname, .of_conditions hplain hnames hc.within_bracket⟩,
          ⟨by decide, .of_static (by decide +kernel) (by decide)⟩,
          fun t ht => absurd ht List.not_mem_nil⟩
      | false =>
        rw [compiledSql_team dialect hentity hfirst]
        refine ⟨List.forall_mem_append.mpr ⟨hbase, ?_⟩, within_teamBody spec.metric hc⟩
        rw [List.forall_mem_cons, List.forall_mem_cons]
        have hname : Sql.plainWord "team_agg" = true ∧ Sql.plainWord "ranked" = true := by decide
        have hplain : (teamAgg none).plain = true := by decide +kernel
        have hnames : ∀ name ∈ (teamAgg none).names, name ∈ commonNames := by decide
        exact ⟨⟨hname.1, .of_conditions hplain hnames hc.within_bracket⟩,
          ⟨hname.2, within_rankedTeams ..⟩, fun t ht => absurd ht List.not_mem_nil⟩
    | solve =>
      rw [hentity] at hc
      rw [compiledSql_solve dialect hentity]
      refine ⟨List.forall_mem_append.mpr ⟨hbase, ?_⟩, within_solveBody spec.metric spec.order hc⟩
      rw [List.forall_mem_cons]
      exact ⟨⟨by decide, .of_static (by decide +kernel) (by decide)⟩,
        fun t ht => absurd ht List.not_mem_nil⟩
  obtain ⟨htables, hbody⟩ := hselects
  constructor
  · rw [Sql.Query.plain, Bool.and_eq_true, List.all_eq_true]
    exact ⟨fun t ht => Bool.and_eq_true_iff.mpr ⟨(htables t ht).1, (htables t ht).2.plain⟩,
      hbody.plain⟩
  · intro name hname
    rcases List.mem_append.mp hname with hname | hname
    · obtain ⟨t, ht, hname⟩ := List.mem_flatMap.mp hname
      exact (htables t ht).2.names name hname
    · exact hbody.names name hname

end Query

/-! ### Bound values -/

section Bound

variable {intOfText : String → Option Int} {dialect : Dialect}

/-- The values that `int` takes, where it is called. -/
def Convertible (intOfText : String → Option Int) (f : FilterSpec) : Prop :=
  match f.field with
  | .teamId | .bracketId => (f.value.toInt intOfText).isSome = true
  | .challengeId =>
    if f.operator = .isIn then ∀ v ∈ f.value.items, (v.toInt intOfText).isSome = true
    else (f.value.toInt intOfText).isSome = true
  | _ => True

theorem assignments_isSome (entity : Entity) (idx : Nat) (f : FilterSpec) :
    (assignments intOfText entity idx f).isSome = true ↔
      (f.field = .rank → entity = .team) ∧ Convertible intOfText f := by
  obtain ⟨field, operator, value, hin⟩ := f
  cases field with
  | category =>
    by_cases hop : operator = .isIn <;> simp [assignments, Convertible, hop]
  | challengeId =>
    by_cases hop : operator = .isIn <;> simp [assignments, Convertible, hop, mapM_isSome]
  | rank => cases entity <;> simp [assignments, Convertible]
  | _ => simp [assignments, Convertible]

/-- The specifications that are compiled. -/
theorem compileQuery_isOk_iff (spec : QuerySpec) :
    (∃ q, compileQuery intOfText dialect spec = .ok q) ↔
      checkMetric spec.entity spec.metric = .ok () ∧
        ∀ f ∈ spec.filters, (f.field = .rank → spec.entity = .team) ∧ Convertible intOfText f := by
  simp only [compileQuery_ok, assignments_isSome]
  have hfilters : (∀ p ∈ numbered spec.filters, (p.1.field = .rank → spec.entity = .team) ∧
      Convertible intOfText p.1) ↔
        ∀ f ∈ spec.filters, (f.field = .rank → spec.entity = .team) ∧ Convertible intOfText f := by
    conv_rhs => rw [← map_fst_numbered spec.filters]
    simp only [List.forall_mem_map]
  rw [hfilters]
  exact ⟨fun ⟨_, h⟩ => ⟨h.1, h.2.1⟩, fun h => ⟨_, h.1, h.2, rfl⟩⟩

/-- The names that the filters assign values to. -/
theorem keys_params {entity : Entity} {filters : List FilterSpec} {c : Compiled}
    (hc : Collected intOfText entity filters c)
    (h : ∀ p ∈ numbered filters, (assignments intOfText entity p.2 p.1).isSome = true) :
    c.params.map Prod.fst = allKeys filters := by
  rw [hc.params, allKeys, List.map_flatMap]
  apply List.flatMap_congr
  intro p hp
  obtain ⟨ps, hps⟩ := Option.isSome_iff_exists.mp (h p hp)
  rw [hps]
  exact keys_assignments hps

theorem allKeys_nodup (filters : List FilterSpec) : (allKeys filters).Nodup := by
  rw [allKeys, List.nodup_flatMap]
  refine ⟨fun p _ => keysOf_nodup p.2 p.1, ?_⟩
  have hidx : (numbered filters).Pairwise fun p p' => p.2 ≠ p'.2 :=
    List.pairwise_map.mp (numbered_indices_nodup filters)
  refine hidx.imp fun {p p'} hne name hname hname' => ?_
  exact hne ((isKeyOf_keysOf hname).idx_eq (isKeyOf_keysOf hname'))

theorem common_notMem_allKeys (filters : List FilterSpec) {name : String}
    (h : name ∈ commonNames) : name ∉ allKeys filters := by
  intro hname
  obtain ⟨p, -, hname⟩ := List.mem_flatMap.mp hname
  have hcommon : ∀ name ∈ commonNames, hasPrefix name "param_" = false := by decide
  have hprefixed := (isKeyOf_keysOf hname).prefixed
  rw [hcommon name h] at hprefixed
  cases hprefixed

/-- A query's text is the same for all values of one form, and what its placeholders stand for is
bound, each under a name of its own. -/
theorem parameterised {intOfText : String → Option Int} {dialect : Dialect} {spec : QuerySpec}
    {q : CompiledQuery} (h : compileQuery intOfText dialect spec = .ok q) :
    (∀ spec' q', SameForm spec spec' → compileQuery intOfText dialect spec' = .ok q' →
      q'.query.text = q.query.text) ∧
    (∀ spec', SameForm spec spec' → ((∃ q', compileQuery intOfText dialect spec' = .ok q') ↔
      ∀ f ∈ spec'.filters, Convertible intOfText f)) ∧
    (q.params.map Prod.fst).Nodup ∧
    ∀ name ∈ Sql.placeholders q.query.text, name ∈ q.params.map Prod.fst := by
  obtain ⟨hmetric, hvalues, rfl⟩ := (compileQuery_ok intOfText).mp h
  have hc := collected_spec intOfText spec.entity spec.filters
  have hkeys :
      (finished dialect spec (collected intOfText spec.entity 0 spec.filters {})).params.map
      Prod.fst = allKeys spec.filters ++ commonNames := by
    rw [finished, List.map_append, keys_params hc hvalues]
    rfl
  refine ⟨?_, ?_, ?_, ?_⟩
  · intro spec' q' hsame h'
    obtain ⟨-, -, rfl⟩ := (compileQuery_ok intOfText).mp h'
    have hc' := collected_spec intOfText spec'.entity spec'.filters
    exact congrArg Sql.Query.text (compiledSql_congr dialect hsame hc hc').symm
  · intro spec' hsame
    have hrank : ∀ f' ∈ spec'.filters, f'.field = .rank → spec'.entity = .team := by
      have hall := ((compileQuery_isOk_iff spec).mp ⟨_, h⟩).2
      intro f' hf' hfield
      rw [← hsame.entity]
      obtain ⟨f, hf, hff'⟩ := exists_sameFilter hsame.filters hf'
      exact (hall f hf).1 (hff'.field.trans hfield)
    rw [compileQuery_isOk_iff, ← hsame.entity, ← hsame.metric]
    constructor
    · exact fun ⟨_, hall⟩ f' hf' => (hall f' hf').2
    · exact fun hall => ⟨hmetric, fun f' hf' => ⟨fun hfield =>
        hsame.entity.trans (hrank f' hf' hfield), hall f' hf'⟩⟩
  · rw [hkeys, List.nodup_append']
    exact ⟨allKeys_nodup spec.filters, by decide,
      fun name hname hcommon => common_notMem_allKeys spec.filters hcommon hname⟩
  · obtain ⟨hplain, hnames⟩ := within_compiledSql dialect spec hc
    intro name hname
    rw [hkeys]
    exact hnames name (Sql.Query.placeholders_text hplain ▸ hname)

/-- The teams of a bracket with solves of a category. -/
def bracketSpec (category : String) (bracket limit : Int) (h : 0 < limit) : QuerySpec where
  rule := "top"
  entity := .team
  metric := .teamSolvedCount
  filters := [⟨.category, .isIn, .list [.str category], fun _ => rfl⟩,
    ⟨.bracketId, .eq, .int bracket, Operator.noConfusion⟩]
  limit := .int limit
  order := {}
  limit_positive := decide_eq_true h

/-- Values that look like SQL leave the text as it is. -/
theorem parameterised_bracketSpec :
    ∃ q q', compileQuery (fun s => signedDecimal s.toList) .mariadb
        (bracketSpec "web" 3 10 (by decide)) = .ok q ∧
      compileQuery (fun s => signedDecimal s.toList) .mariadb
        (bracketSpec "') OR 1 = 1 -- :limit" 7 500 (by decide)) = .ok q' ∧
      q'.query.text = q.query.text ∧ (q.params.map Prod.fst).Nodup ∧
      ∀ name ∈ Sql.placeholders q.query.text, name ∈ q.params.map Prod.fst := by
  have hfirst : compileQuery (fun s => signedDecimal s.toList) .mariadb
      (bracketSpec "web" 3 10 (by decide)) = .ok (finished .mariadb
        (bracketSpec "web" 3 10 (by decide))
        (collected (fun s => signedDecimal s.toList) .team 0
          (bracketSpec "web" 3 10 (by decide)).filters {})) := rfl
  obtain ⟨htext, -, hnodup, hbound⟩ := parameterised hfirst
  have hsame : SameForm (bracketSpec "web" 3 10 (by decide))
      (bracketSpec "') OR 1 = 1 -- :limit" 7 500 (by decide)) := by
    refine ⟨rfl, rfl, rfl, .cons ⟨rfl, rfl, fun _ => rfl, ?_⟩ (.cons ⟨rfl, rfl, ?_, ?_⟩ .nil)⟩
    · rintro (h | h) <;> cases h
    · exact fun h => Operator.noConfusion h
    · rintro (h | h) <;> cases h
  exact ⟨_, _, hfirst, rfl, htext _ _ hsame rfl, hnodup, hbound⟩

end Bound

end Fctf.Rewards
