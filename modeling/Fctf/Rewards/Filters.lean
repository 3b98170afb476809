import Fctf.Rewards.Compile
import Fctf.Lib.Traverse
import Fctf.Text
import Mathlib.Data.List.Nodup

/-!
What the loop over the filters of a specification leaves behind: each filter adds its own
parameters and conditions, and some of them set a variable that the next one sets again.
-/

namespace Fctf.Rewards

open Sql (Column Expr)
open Traverse

/-! ### What a filter adds -/

section Parts

variable (intOfText : String → Option Int) (entity : Entity) (idx : Nat) (f : FilterSpec)

/-- The values of its parameters, where it has them. -/
def assignments : Option (List (String × Value)) :=
  let key := paramKey idx
  match f.field with
  | .category =>
    if f.operator = .isIn then some (f.value.items.mapIdx fun j v => (itemKey idx j, v))
    else some [(key, f.value)]
  | .challengeId =>
    if f.operator = .isIn then
      (f.value.items.mapM (Value.toInt intOfText)).map fun ns =>
        ns.mapIdx fun j n => (itemKey idx j, .int n)
    else (f.value.toInt intOfText).map fun n => [(key, .int n)]
  | .teamId | .bracketId => (f.value.toInt intOfText).map fun n => [(key, .int n)]
  | .firstBlood | .hintUsed => some [(key, .bool f.value.truth)]
  | .rank => if entity = .team then some [(key, f.value)] else none
  | .firstClearEachCategory => some []
  | .solveTime | .solvedCount | .wrongCount | .totalScore | .firstBloodCount
  | .categoryClearCount | .fullClearCategory => some [(key, f.value)]

/-- The names of its parameters. -/
def keysOf : List String :=
  match f.field with
  | .category | .challengeId =>
    if f.operator = .isIn then (List.range f.value.items.length).map (itemKey idx)
    else [paramKey idx]
  | .firstClearEachCategory => []
  | _ => [paramKey idx]

def baseOf : List Condition :=
  let key := paramKey idx
  match f.field with
  | .category =>
    if f.operator = .isIn then [.among (qualified "sf" "category") (keysOf idx f)]
    else [.compare (qualified "sf" "category") f.operator key]
  | .challengeId =>
    if f.operator = .isIn then [.among (qualified "sf" "challenge_id") (keysOf idx f)]
    else [.compare (qualified "sf" "challenge_id") f.operator key]
  | .solveTime => [.compare (qualified "sf" "solve_time") f.operator key]
  | .firstBlood => [.compare (qualified "sf" "is_first_blood") .eq key]
  | .hintUsed => [.compare (qualified "sf" "hint_used") .eq key]
  | .teamId => [.compare (qualified "sf" "team_id") .eq key]
  | _ => []

def aggOf : List Condition :=
  let compared := fun name : String => [Condition.compare (bare name) f.operator (paramKey idx)]
  match f.field with
  | .solvedCount => compared "solved_count"
  | .wrongCount => compared (if entity = .solve then "wrong_before" else "wrong_count")
  | .totalScore => compared "total_score"
  | .firstBloodCount => compared "first_blood_count"
  | .categoryClearCount => compared "category_clear_count"
  | .fullClearCategory => [.fullClearPass]
  | _ => []

def rankOf : List Condition :=
  match f.field with
  | .rank => [.compare (bare "rank") f.operator (paramKey idx)]
  | _ => []

/-- The variables after a turn of the loop with these parameters. -/
def Compiled.after (c : Compiled) (ps : List (String × Value)) : Compiled where
  params := c.params ++ ps
  baseConditions := c.baseConditions ++ baseOf idx f
  aggConditions := c.aggConditions ++ aggOf entity idx f
  rankConditions := c.rankConditions ++ rankOf idx f
  bracketFilter := if f.field = .bracketId then some (paramKey idx) else c.bracketFilter
  fullClearCategory := if f.field = .fullClearCategory then f.value else c.fullClearCategory
  firstClearEachCategory :=
    if f.field = .firstClearEachCategory then f.value.truth else c.firstClearEachCategory

theorem asInt_bind {α : Type} (value : Value) (k : Value → Except Fault α) (a : α) :
    (asInt intOfText value).bind k = .ok a ↔
      ∃ n, value.toInt intOfText = some n ∧ k (.int n) = .ok a := by
  unfold asInt
  cases value.toInt intOfText <;> simp [Except.bind]

theorem mapM_asInt (values : List Value) (values' : List Value) :
    values.mapM (asInt intOfText) = .ok values' ↔
      ∃ ns, values.mapM (Value.toInt intOfText) = some ns ∧ ns.map Value.int = values' := by
  induction values generalizing values' with
  | nil => simp [pure, Except.pure, eq_comm]
  | cons value values ih =>
    rw [List.mapM_cons, List.mapM_cons]
    change (asInt intOfText value).bind (fun v => (values.mapM (asInt intOfText)).bind fun vs =>
      .ok (v :: vs)) = _ ↔ _
    rw [asInt_bind]
    cases hrest : values.mapM (asInt intOfText) with
    | error fault =>
      have hnone : values.mapM (Value.toInt intOfText) = none := by
        cases h : values.mapM (Value.toInt intOfText) with
        | none => rfl
        | some ns => simp [(ih (ns.map Value.int)).mpr ⟨ns, h, rfl⟩] at hrest
      simp [Except.bind, hnone]
    | ok vs =>
      obtain ⟨ns, hns, rfl⟩ := (ih vs).mp hrest
      cases hvalue : value.toInt intOfText <;> simp [Except.bind, hns]

theorem keys_mapIdx {α : Type} (g : α → Value) (values : List α) :
    (values.mapIdx fun j v => (itemKey idx j, g v)).map Prod.fst =
      (List.range values.length).map (itemKey idx) := by
  apply List.ext_getElem
  · simp
  · intro n h h'
    simp

/-- What one turn of the loop does. -/
theorem compileFilter_ok {c c' : Compiled} :
    compileFilter intOfText entity idx f c = .ok c' ↔
      ∃ ps, assignments intOfText entity idx f = some ps ∧ c.after entity idx f ps = c' := by
  obtain ⟨field, operator, value, hin⟩ := f
  cases field with
  | category =>
    by_cases hop : operator = .isIn
    · simp [compileFilter, assignments, Compiled.after, Compiled.amongItems, Compiled.base, baseOf,
        aggOf, rankOf, keysOf, hop, keys_mapIdx idx fun v => v]
    · simp [compileFilter, assignments, Compiled.after, Compiled.base, Compiled.bind, baseOf,
        aggOf, rankOf, hop]
  | challengeId =>
    by_cases hop : operator = .isIn
    · have hbind : compileFilter intOfText entity idx ⟨.challengeId, operator, value, hin⟩ c =
          (value.items.mapM (asInt intOfText)).bind fun values =>
            .ok (c.amongItems idx "challenge_id" values) := by simp [compileFilter, hop, Bind.bind]
      rw [hbind]
      cases hvalues : value.items.mapM (asInt intOfText) with
      | error fault =>
        have hnone : value.items.mapM (Value.toInt intOfText) = none := by
          cases h : value.items.mapM (Value.toInt intOfText) with
          | none => rfl
          | some ns =>
            simp [(mapM_asInt intOfText _ (ns.map Value.int)).mpr ⟨ns, h, rfl⟩] at hvalues
        simp [Except.bind, assignments, hop, hnone]
      | ok values =>
        obtain ⟨ns, hns, rfl⟩ := (mapM_asInt intOfText _ _).mp hvalues
        have hitems : (ns.map Value.int).mapIdx (fun j v => (itemKey idx j, v)) =
            ns.mapIdx fun j n => (itemKey idx j, .int n) := by
          apply List.ext_getElem
          · simp
          · intro n h h'
            simp
        simp [Except.bind, assignments, hop, hns, Compiled.after, Compiled.amongItems,
          Compiled.base, baseOf, aggOf, rankOf, keysOf, hitems, keys_mapIdx, length_of_mapM hns]
    · simp [compileFilter, Bind.bind, asInt_bind, assignments, Compiled.after, Compiled.base,
        Compiled.bind, baseOf, aggOf, rankOf, hop]
  | teamId =>
    simp [compileFilter, Bind.bind, asInt_bind, assignments, Compiled.after, Compiled.base,
      Compiled.bind, baseOf, aggOf, rankOf]
  | bracketId =>
    simp [compileFilter, Bind.bind, asInt_bind, assignments, Compiled.after, Compiled.bind, baseOf,
      aggOf, rankOf]
  | rank =>
    cases entity <;> simp [compileFilter, assignments, Compiled.after, Compiled.bind, baseOf, aggOf,
      rankOf]
  | _ =>
    simp [compileFilter, assignments, Compiled.after, Compiled.agg, Compiled.base, Compiled.bind,
      baseOf, aggOf, rankOf]

end Parts

/-! ### The loop -/

section Loop

variable {σ ι β : Type} (step : σ → ι → σ)

/-- A list to which every turn adds something. -/
theorem foldl_flatMap (g : σ → List β) (added : ι → List β)
    (h : ∀ s i, g (step s i) = g s ++ added i) (items : List ι) (s : σ) :
    g (items.foldl step s) = g s ++ items.flatMap added := by
  induction items generalizing s with
  | nil => simp
  | cons i items ih => rw [List.foldl_cons, ih, h, List.flatMap_cons, List.append_assoc]

/-- A variable that some turns set. -/
theorem foldl_last (g : σ → β) (set : ι → Option β)
    (h : ∀ s i, g (step s i) = (set i).getD (g s)) (items : List ι) (s : σ) :
    g (items.foldl step s) = ((items.filterMap set).getLast?).getD (g s) := by
  induction items generalizing s with
  | nil => rfl
  | cons i items ih =>
    rw [List.foldl_cons, ih, h, List.filterMap_cons]
    cases set i with
    | none => rfl
    | some b => rw [List.getLast?_cons]; simp

end Loop

section Filters

variable (intOfText : String → Option Int) (entity : Entity)

def collected (idx : Nat) (filters : List FilterSpec) (c : Compiled) : Compiled :=
  (filters.zipIdx idx).foldl (fun c p =>
    c.after entity p.2 p.1 ((assignments intOfText entity p.2 p.1).getD [])) c

theorem compileFilters_ok {idx : Nat} {filters : List FilterSpec} {c c' : Compiled} :
    compileFilters intOfText entity idx filters c = .ok c' ↔
      (∀ p ∈ filters.zipIdx idx, (assignments intOfText entity p.2 p.1).isSome = true) ∧
        collected intOfText entity idx filters c = c' := by
  induction filters generalizing idx c with
  | nil => simp [compileFilters, collected]
  | cons f filters ih =>
    have hstep : compileFilters intOfText entity idx (f :: filters) c =
        (compileFilter intOfText entity idx f c).bind fun c =>
          compileFilters intOfText entity (idx + 1) filters c := rfl
    rw [hstep, List.zipIdx_cons, List.forall_mem_cons]
    cases hturn : compileFilter intOfText entity idx f c with
    | error fault =>
      have hnone : assignments intOfText entity idx f = none := by
        cases h : assignments intOfText entity idx f with
        | none => rfl
        | some ps =>
          rw [(compileFilter_ok intOfText entity idx f).mpr ⟨ps, h, rfl⟩] at hturn
          cases hturn
      simp [Except.bind, hnone]
    | ok c₁ =>
      obtain ⟨ps, hps, rfl⟩ := (compileFilter_ok intOfText entity idx f).mp hturn
      change compileFilters intOfText entity (idx + 1) filters _ = _ ↔ _
      rw [ih, collected, collected, List.zipIdx_cons, List.foldl_cons, hps]
      simp

variable (filters : List FilterSpec)

/-- The filters with their indices. -/
def numbered : List (FilterSpec × Nat) := filters.zipIdx

/-- What the loop has collected at its end. -/
structure Collected (c : Compiled) : Prop where
  params : c.params = (numbered filters).flatMap fun p =>
    (assignments intOfText entity p.2 p.1).getD []
  base : c.baseConditions = (numbered filters).flatMap fun p => baseOf p.2 p.1
  agg : c.aggConditions = (numbered filters).flatMap fun p => aggOf entity p.2 p.1
  rank : c.rankConditions = (numbered filters).flatMap fun p => rankOf p.2 p.1
  bracket : c.bracketFilter = ((numbered filters).filterMap fun p =>
    if p.1.field = .bracketId then some (paramKey p.2) else none).getLast?
  fullClear : c.fullClearCategory = (((numbered filters).filterMap fun p =>
    if p.1.field = .fullClearCategory then some p.1.value else none).getLast?).getD .null
  firstClear : c.firstClearEachCategory = (((numbered filters).filterMap fun p =>
    if p.1.field = .firstClearEachCategory then some p.1.value.truth else none).getLast?).getD
      false

theorem collected_spec :
    Collected intOfText entity filters (collected intOfText entity 0 filters {}) := by
  constructor
  · exact foldl_flatMap _ Compiled.params _ (fun _ _ => rfl) _ _
  · exact foldl_flatMap _ Compiled.baseConditions _ (fun _ _ => rfl) _ _
  · exact foldl_flatMap _ Compiled.aggConditions _ (fun _ _ => rfl) _ _
  · exact foldl_flatMap _ Compiled.rankConditions _ (fun _ _ => rfl) _ _
  · have hlast := foldl_last (fun c (p : FilterSpec × Nat) =>
      Compiled.after entity p.2 p.1 c ((assignments intOfText entity p.2 p.1).getD []))
      Compiled.bracketFilter
      (fun p => (if p.1.field = .bracketId then some (paramKey p.2) else none).map some)
      (fun c p => by simp only [Compiled.after]; split <;> rfl) filters.zipIdx {}
    rw [collected, hlast, ← List.map_filterMap, List.getLast?_map, numbered]
    generalize (List.filterMap _ _).getLast? = last
    cases last <;> rfl
  · refine foldl_last _ Compiled.fullClearCategory _ (fun c p => ?_) _ _
    simp only [Compiled.after]
    split <;> rfl
  · refine foldl_last _ Compiled.firstClearEachCategory _ (fun c p => ?_) _ _
    simp only [Compiled.after]
    split <;> rfl

theorem map_fst_numbered : (numbered filters).map Prod.fst = filters := by
  rw [numbered, List.zipIdx_map_fst]

theorem numbered_indices_nodup : ((numbered filters).map Prod.snd).Nodup := by
  rw [numbered, List.zipIdx_map_snd]
  exact List.nodup_range'

/-- What is compiled from the variables at the end of the loop. -/
def finished (dialect : Dialect) (spec : QuerySpec) (c : Compiled) : CompiledQuery :=
  ⟨compiledSql dialect spec c,
    c.params ++ [("limit", spec.limit), ("full_clear_category", c.fullClearCategory)]⟩

theorem compileQuery_ok {dialect : Dialect} {spec : QuerySpec} {q : CompiledQuery} :
    compileQuery intOfText dialect spec = .ok q ↔
      checkMetric spec.entity spec.metric = .ok () ∧
        (∀ p ∈ numbered spec.filters,
          (assignments intOfText spec.entity p.2 p.1).isSome = true) ∧
        finished dialect spec (collected intOfText spec.entity 0 spec.filters {}) = q := by
  have hbind : compileQuery intOfText dialect spec =
      (checkMetric spec.entity spec.metric).bind fun _ =>
        (compileFilters intOfText spec.entity 0 spec.filters {}).bind fun c =>
          .ok (finished dialect spec c) := by
    unfold compileQuery
    rw [assertSchema_ok]
    rfl
  rw [hbind]
  cases hmetric : checkMetric spec.entity spec.metric with
  | error fault => simp [Except.bind]
  | ok u =>
    cases hloop : compileFilters intOfText spec.entity 0 spec.filters {} with
    | error fault =>
      have hnot : ¬∀ p ∈ numbered spec.filters,
          (assignments intOfText spec.entity p.2 p.1).isSome = true := by
        intro hvalues
        rw [(compileFilters_ok intOfText spec.entity).mpr ⟨hvalues, rfl⟩] at hloop
        cases hloop
      simp only [Except.bind, hnot, false_and, and_false, reduceCtorEq]
    | ok c =>
      obtain ⟨hvalues, rfl⟩ := (compileFilters_ok intOfText spec.entity).mp hloop
      simp only [Except.bind, Except.ok.injEq]
      exact ⟨fun h => ⟨trivial, hvalues, h⟩, fun h => h.2.2⟩

end Filters

/-! ### Names -/

section Names

theorem toList_paramKey (idx : Nat) :
    (paramKey idx).toList = "param_".toList ++ (Nat.repr idx).toList := by
  rw [paramKey, String.toList_append]

theorem toList_itemKey (idx j : Nat) :
    (itemKey idx j).toList =
      "param_".toList ++ ((Nat.repr idx).toList ++ '_' :: (Nat.repr j).toList) := by
  have hsep : "_".toList = ['_'] := by simp
  rw [itemKey, String.toList_append, String.toList_append, toList_paramKey, hsep,
    List.append_assoc, List.append_assoc, List.singleton_append]

theorem paramKey_inj {idx idx' : Nat} (h : paramKey idx = paramKey idx') : idx = idx' := by
  have hlist := congrArg String.toList h
  rw [toList_paramKey, toList_paramKey, List.append_cancel_left_eq] at hlist
  exact Nat.repr_inj.mp (String.toList_inj.mp hlist)

theorem itemKey_inj {idx idx' j j' : Nat} (h : itemKey idx j = itemKey idx' j') :
    idx = idx' ∧ j = j' := by
  obtain ⟨hidx, hj⟩ := (@idKey_inj "param_" idx idx' j j').mp h
  exact ⟨hidx, Int.ofNat_inj.mp hj⟩

theorem paramKey_ne_itemKey (idx idx' j : Nat) : paramKey idx ≠ itemKey idx' j := by
  intro h
  have hlist := congrArg String.toList h
  rw [toList_paramKey, toList_itemKey, List.append_cancel_left_eq] at hlist
  apply underscore_notMem_repr idx
  rw [hlist]
  simp

/-- A parameter of the filter with that index. -/
def IsKeyOf (idx : Nat) (name : String) : Prop := name = paramKey idx ∨ ∃ j, name = itemKey idx j

theorem IsKeyOf.idx_eq {idx idx' : Nat} {name : String} (h : IsKeyOf idx name)
    (h' : IsKeyOf idx' name) : idx = idx' := by
  rcases h with rfl | ⟨j, rfl⟩ <;> rcases h' with h' | ⟨j', h'⟩
  · exact paramKey_inj h'
  · exact absurd h' (paramKey_ne_itemKey _ _ _)
  · exact absurd h'.symm (paramKey_ne_itemKey _ _ _)
  · exact (itemKey_inj h').1

/-- No filter has a parameter of that name. -/
theorem IsKeyOf.prefixed {idx : Nat} {name : String} (h : IsKeyOf idx name) :
    hasPrefix name "param_" = true := by
  rw [hasPrefix, List.isPrefixOf_iff_prefix]
  rcases h with rfl | ⟨j, rfl⟩
  · exact ⟨_, (toList_paramKey idx).symm⟩
  · exact ⟨_, (toList_itemKey idx j).symm⟩

theorem isKeyOf_keysOf {idx : Nat} {f : FilterSpec} {name : String} (h : name ∈ keysOf idx f) :
    IsKeyOf idx name := by
  unfold keysOf at h
  have hitems : name ∈ (List.range f.value.items.length).map (itemKey idx) → IsKeyOf idx name := by
    intro h
    obtain ⟨j, -, rfl⟩ := List.mem_map.mp h
    exact .inr ⟨j, rfl⟩
  split at h
  · split at h
    · exact hitems h
    · exact .inl (List.mem_singleton.mp h)
  · split at h
    · exact hitems h
    · exact .inl (List.mem_singleton.mp h)
  · cases h
  · exact .inl (List.mem_singleton.mp h)

theorem keysOf_nodup (idx : Nat) (f : FilterSpec) : (keysOf idx f).Nodup := by
  have hitems : ((List.range f.value.items.length).map (itemKey idx)).Nodup :=
    List.nodup_range.map fun j j' h => (itemKey_inj h).2
  unfold keysOf
  split
  · split
    · exact hitems
    · exact List.nodup_singleton _
  · split
    · exact hitems
    · exact List.nodup_singleton _
  · exact List.nodup_nil
  · exact List.nodup_singleton _

variable {intOfText : String → Option Int} {entity : Entity}

theorem keys_assignments {idx : Nat} {f : FilterSpec} {ps : List (String × Value)}
    (h : assignments intOfText entity idx f = some ps) : ps.map Prod.fst = keysOf idx f := by
  obtain ⟨field, operator, value, hin⟩ := f
  cases field with
  | category =>
    by_cases hop : operator = .isIn
    · simp only [assignments, hop, if_true, Option.some.injEq] at h
      subst h
      simp [keysOf, hop, keys_mapIdx idx fun v => v]
    · simp only [assignments, hop, if_false, Option.some.injEq] at h
      subst h
      simp [keysOf, hop]
  | challengeId =>
    by_cases hop : operator = .isIn
    · simp only [assignments, hop, if_true, Option.map_eq_some_iff] at h
      obtain ⟨ns, hns, rfl⟩ := h
      simp [keysOf, hop, keys_mapIdx, length_of_mapM hns]
    · simp only [assignments, hop, if_false, Option.map_eq_some_iff] at h
      obtain ⟨n, -, rfl⟩ := h
      simp [keysOf, hop]
  | teamId | bracketId =>
    simp only [assignments, Option.map_eq_some_iff] at h
    obtain ⟨n, -, rfl⟩ := h
    rfl
  | rank =>
    cases entity with
    | team =>
      cases h
      rfl
    | solve => cases h
  | _ =>
    cases h
    rfl

end Names

end Fctf.Rewards
