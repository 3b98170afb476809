import Mathlib.Data.List.Dedup
import Mathlib.Data.List.Nodup
import Mathlib.Data.List.Perm.Basic
import Mathlib.Data.List.ReduceOption
import Mathlib.Logic.Function.Basic
import Mathlib.Order.MinMax
import Mathlib.Order.WithBot
import Mathlib.Algebra.Order.Ring.Int

/-!
The clauses of a query over lists of rows: grouping, sums, `MAX` and `MIN`, joins, and a
dictionary that is filled row by row. Each comes with what a look-up by key finds afterwards.
-/

namespace Query

variable {α β κ : Type*}

/-- The only row with a key. -/
theorem find?_eq_of_unique [DecidableEq κ] {key : α → κ} {rows : List α}
    (hkeys : (rows.map key).Nodup) {row : α} (hrow : row ∈ rows) {k : κ} (hk : key row = k) :
    rows.find? (fun r => key r = k) = some row := by
  cases hfind : rows.find? (fun r => key r = k) with
  | none =>
    have hnone := List.find?_eq_none.mp hfind row hrow
    exact absurd (by simpa using hk) hnone
  | some found =>
    have hkey : key found = key row := by
      rw [hk]
      simpa using List.find?_some hfind
    rw [List.inj_on_of_nodup_map hkeys (List.mem_of_find?_eq_some hfind) hrow hkey]

section GroupBy

variable [DecidableEq κ] (key : α → κ)

/-- `GROUP BY`: every key that occurs, with its rows. -/
def groupBy (rows : List α) : List (κ × List α) :=
  (rows.map key).dedup.map fun k => (k, rows.filter fun row => key row = k)

theorem groupBy_keys (rows : List α) : (groupBy key rows).map (·.1) = (rows.map key).dedup := by
  simp [groupBy, Function.comp_def]

theorem groupBy_keys_nodup (rows : List α) : ((groupBy key rows).map (·.1)).Nodup := by
  rw [groupBy_keys]
  exact List.nodup_dedup _

theorem mem_groupBy {rows : List α} {g : κ × List α} :
    g ∈ groupBy key rows ↔
      g.2 = rows.filter (fun row => key row = g.1) ∧
        rows.filter (fun row => key row = g.1) ≠ [] := by
  obtain ⟨k, group⟩ := g
  simp only [groupBy, List.mem_map, List.mem_dedup, Prod.mk.injEq, ne_eq, List.filter_eq_nil_iff,
    decide_eq_true_eq, not_forall, not_not, exists_prop]
  constructor
  · rintro ⟨k', ⟨row, hrow, rfl⟩, rfl, rfl⟩
    exact ⟨rfl, row, hrow, rfl⟩
  · rintro ⟨hgroup, hrow⟩
    exact ⟨k, hrow, rfl, hgroup.symm⟩

/-- What an aggregate query over groups has for a key. -/
theorem find?_map_groupBy (key' : β → κ) (aggregate : κ × List α → β)
    (hkey : ∀ g, key' (aggregate g) = g.1) (rows : List α) (k : κ) :
    ((groupBy key rows).map aggregate).find? (fun b => key' b = k) =
      if rows.filter (fun row => key row = k) = [] then none
      else some (aggregate (k, rows.filter fun row => key row = k)) := by
  split
  · rename_i hempty
    rw [List.find?_eq_none]
    intro b hb hbk
    obtain ⟨g, hg, rfl⟩ := List.mem_map.mp hb
    have hgk : g.1 = k := (hkey g).symm.trans (of_decide_eq_true hbk)
    have hne := ((mem_groupBy key).mp hg).2
    rw [hgk] at hne
    exact hne hempty
  · rename_i hne
    have hkeys : (((groupBy key rows).map aggregate).map key').Nodup := by
      simpa [Function.comp_def, hkey] using groupBy_keys_nodup key rows
    apply find?_eq_of_unique hkeys
    · exact List.mem_map_of_mem ((mem_groupBy key).mpr ⟨rfl, hne⟩)
    · exact hkey _

/-- Blocks of rows, each with a key of its own, are the groups. -/
theorem groupBy_flatMap (key : β → κ) {of : α → κ} {block : α → List β} {rows : List α}
    (hof : (rows.map of).Nodup) (hblock : ∀ row ∈ rows, block row ≠ [])
    (hkey : ∀ row ∈ rows, ∀ b ∈ block row, key b = of row) :
    groupBy key (rows.flatMap block) = rows.map fun row => (of row, block row) := by
  have hkeys : ((rows.flatMap block).map key).dedup = rows.map of := by
    induction rows with
    | nil => rfl
    | cons row rows ih =>
      rw [List.forall_mem_cons] at hblock hkey
      obtain ⟨hnot, hof⟩ := List.nodup_cons.mp hof
      have hblockKeys : (block row).map key = List.replicate (block row).length (of row) :=
        List.eq_replicate_iff.mpr ⟨List.length_map _, by simpa using hkey.1⟩
      have hdisjoint : List.Disjoint ((block row).map key) ((rows.flatMap block).map key) := by
        rw [hblockKeys]
        intro k hk hrest
        obtain ⟨-, rfl⟩ := List.mem_replicate.mp hk
        obtain ⟨b, hb, hbk⟩ := List.mem_map.mp hrest
        obtain ⟨row', hrow', hb⟩ := List.mem_flatMap.mp hb
        rw [hkey.2 row' hrow' b hb] at hbk
        exact hnot (hbk ▸ List.mem_map_of_mem hrow')
      have hlength : (block row).length ≠ 0 := fun h => hblock.1 (List.length_eq_zero_iff.mp h)
      rw [List.flatMap_cons, List.map_append, hdisjoint.dedup_append, hblockKeys,
        List.replicate_dedup hlength, ih hof hblock.2 hkey.2]
      rfl
  have hgroup : ∀ row ∈ rows,
      ((rows.flatMap block).filter fun b => key b = of row) = block row := by
    intro row hrow
    obtain ⟨before, after, rfl⟩ := List.append_of_mem hrow
    have hother : ∀ row' ∈ before ++ after,
        ((block row').filter fun b => key b = of row) = [] := by
      intro row' hrow'
      rw [List.filter_eq_nil_iff]
      intro b hb hsame
      have hmem : row' ∈ before ++ row :: after := by
        rw [List.mem_append] at hrow' ⊢
        exact hrow'.imp_right (List.mem_cons_of_mem _)
      rw [hkey row' hmem b hb, decide_eq_true_iff] at hsame
      rw [List.map_append, List.map_cons, List.nodup_middle, ← List.map_append] at hof
      exact (List.nodup_cons.mp hof).1 (hsame ▸ List.mem_map_of_mem hrow')
    have hown : ((block row).filter fun b => key b = of row) = block row :=
      List.filter_eq_self.mpr fun b hb => decide_eq_true (hkey row hrow b hb)
    have hnil : ∀ rows' ⊆ before ++ after,
        ((rows'.flatMap block).filter fun b => key b = of row) = [] := by
      intro rows' hsub
      rw [List.filter_flatMap, List.flatMap_eq_nil_iff]
      exact fun row' hrow' => hother row' (hsub hrow')
    rw [List.flatMap_append, List.flatMap_cons, List.filter_append, List.filter_append, hown,
      hnil before (List.subset_append_left ..), hnil after (List.subset_append_right ..),
      List.nil_append, List.append_nil]
  rw [groupBy, hkeys, List.map_map]
  exact List.map_congr_left fun row hrow => congrArg (Prod.mk (of row)) (hgroup row hrow)

/-- A selection of blocks of rows. -/
theorem filter_blocks {p : β → Bool} {q : α → Bool} {block : α → List β}
    (h : ∀ row, ∀ b ∈ block row, p b = q row) (rows : List α) :
    (rows.flatMap block).filter p = (rows.filter q).flatMap block := by
  induction rows with
  | nil => rfl
  | cons row rows ih =>
    rw [List.flatMap_cons, List.filter_append, ih, List.filter_cons]
    by_cases hrow : q row = true
    · rw [if_pos hrow, List.flatMap_cons]
      congr 1
      exact List.filter_eq_self.mpr fun b hb => (h row b hb).trans hrow
    · rw [if_neg hrow, List.filter_eq_nil_iff.mpr fun b hb => by rwa [h row b hb], List.nil_append]

end GroupBy

section Sum

variable [DecidableEq κ] (f : α → Int)

/-- A selection in two parts. -/
theorem sum_filter_split (p q : α → Bool) (rows : List α) :
    ((rows.filter p).map f).sum =
      ((rows.filter fun row => p row && q row).map f).sum +
        ((rows.filter fun row => p row && !q row).map f).sum := by
  induction rows with
  | nil => rfl
  | cons row rows ih =>
    cases hp : p row <;> cases hq : q row <;> simp [hp, hq, ih] <;> omega

/-- Two selections differ by what only one of them has. -/
theorem sum_filter_sub (p q : α → Bool) (rows : List α) :
    ((rows.filter p).map f).sum - ((rows.filter q).map f).sum =
      ((rows.filter fun row => p row && !q row).map f).sum -
        ((rows.filter fun row => q row && !p row).map f).sum := by
  have hp := sum_filter_split f p q rows
  have hq := sum_filter_split f q p rows
  have hboth : (rows.filter fun row => q row && p row) = rows.filter fun row => p row && q row := by
    simp only [Bool.and_comm]
  rw [hboth] at hq
  omega

/-- Summing group by group is summing over all rows with one of the keys. -/
theorem sum_groups (key : α → Option κ) {keys : List κ} (hkeys : keys.Nodup) (rows : List α) :
    (keys.map fun k => ((rows.filter fun row => key row = some k).map f).sum).sum =
      ((rows.filter fun row => (key row).any (· ∈ keys)).map f).sum := by
  induction keys with
  | nil => simp
  | cons k keys ih =>
    obtain ⟨hnot, hkeys⟩ := List.nodup_cons.mp hkeys
    rw [List.map_cons, List.sum_cons, ih hkeys,
      sum_filter_split f (fun row => (key row).any (· ∈ k :: keys)) (fun row => key row = some k)]
    congr 3
    · apply List.filter_congr
      intro row _
      cases key row with
      | none => simp
      | some k' => simpa using fun h : k' = k => Or.inl h
    · apply List.filter_congr
      intro row _
      cases hrow : key row with
      | none => simp
      | some k' =>
        by_cases hk : k' = k
        · simp [hk, hnot]
        · simp [hk]

theorem sum_flatMap {β : Type*} (g : β → List α) (l : List β) :
    ((l.flatMap g).map f).sum = (l.map fun b => ((g b).map f).sum).sum := by
  induction l with
  | nil => rfl
  | cons b l ih => simp [ih]

theorem sum_filter (p : α → Bool) (rows : List α) :
    ((rows.filter p).map f).sum = (rows.map fun row => if p row then f row else 0).sum := by
  induction rows with
  | nil => rfl
  | cons row rows ih => cases hp : p row <;> simp [hp, ih]

end Sum

section Max

variable [LinearOrder α]

/-- `MAX`, which does not look at NULLs. -/
def maxOf (values : List (Option α)) : Option α := values.reduceOption.max?

theorem max?_append (l l' : List α) : (l ++ l').max? = Option.merge max l.max? l'.max? := by
  induction l with
  | nil => simp
  | cons a l ih =>
    rw [List.cons_append, List.max?_cons, List.max?_cons, ih]
    cases l.max? <;> cases l'.max? <;> simp [max_assoc]

theorem maxOf_append (l l' : List (Option α)) :
    maxOf (l ++ l') = Option.merge max (maxOf l) (maxOf l') := by
  rw [maxOf, List.reduceOption_append, max?_append]
  rfl

@[simp] theorem maxOf_nil : maxOf ([] : List (Option α)) = none := rfl

@[simp] theorem maxOf_singleton (a : Option α) : maxOf [a] = a := by
  cases a <;> rfl

end Max

section Min

variable [LinearOrder α]

/-- `MIN`, which does not look at NULLs. -/
def minOf (values : List (Option α)) : Option α := values.reduceOption.min?

theorem minOf_eq_some {values : List (Option α)} {a : α} :
    minOf values = some a ↔ some a ∈ values ∧ ∀ b, some b ∈ values → a ≤ b := by
  have : Std.LawfulOrderMin α :=
    { le_min_iff := fun _ _ _ => le_min_iff, min_eq_or := min_choice }
  rw [minOf, List.min?_eq_some_iff]
  simp only [List.reduceOption_mem_iff]

end Min

/-- A column as it is sorted: NULLs come before every value. -/
def nullsFirst (value : Option α) : WithBot α := value

@[simp] theorem nullsFirst_none : nullsFirst (none : Option α) = ⊥ := rfl

@[simp] theorem nullsFirst_some (a : α) : nullsFirst (some a) = (a : WithBot α) := rfl

section Join

/-- `JOIN`. -/
def join (on : α → β → Bool) (rows : List α) (others : List β) : List (α × β) :=
  rows.flatMap fun row => (others.filter (on row)).map fun other => (row, other)

theorem mem_join {on : α → β → Bool} {rows : List α} {others : List β} {r : α × β} :
    r ∈ join on rows others ↔ r.1 ∈ rows ∧ r.2 ∈ others ∧ on r.1 r.2 = true := by
  obtain ⟨row, other⟩ := r
  simp only [join, List.mem_flatMap, List.mem_map, List.mem_filter, Prod.mk.injEq]
  constructor
  · rintro ⟨row', hrow, other', hother, rfl, rfl⟩
    exact ⟨hrow, hother⟩
  · rintro ⟨hrow, hother⟩
    exact ⟨row, hrow, other, hother, rfl, rfl⟩

/-- It does not matter which table comes first. -/
theorem join_swap (on : α → β → Bool) (rows : List α) (others : List β) :
    (join on rows others).Perm
      ((join (fun other row => on row other) others rows).map Prod.swap) := by
  induction rows with
  | nil => simp [join]
  | cons row rows ih =>
    have hsplit : (join (fun other row => on row other) others (row :: rows)).map Prod.swap =
        others.flatMap fun other => (if on row other then [(row, other)] else []) ++
          ((rows.filter fun row => on row other).map fun row => (row, other)) := by
      rw [join, List.map_flatMap]
      apply List.flatMap_congr
      intro other _
      by_cases h : on row other = true <;> simp [h, Function.comp_def]
    have hfirst : ((others.filter (on row)).map fun other => (row, other)) =
        others.flatMap fun other => if on row other then [(row, other)] else [] := by
      clear ih hsplit
      induction others with
      | nil => rfl
      | cons other others ih =>
        by_cases h : on row other = true
        · simpa [h] using ih
        · simpa [h] using ih
    have hrest : (join (fun other row => on row other) others rows).map Prod.swap =
        others.flatMap fun other => (rows.filter fun row => on row other).map
          fun row => (row, other) := by
      rw [join, List.map_flatMap]
      apply List.flatMap_congr
      intro other _
      simp [Function.comp_def]
    rw [hsplit]
    rw [hrest] at ih
    refine List.Perm.trans ?_ (List.flatMap_append_perm ..)
    rw [← hfirst]
    exact ih.append_left _

/-- With exactly one match for each row, every row comes once. -/
theorem join_eq_map {on : α → β → Bool} {rows : List α} {others : List β} {partner : α → β}
    (h : ∀ row ∈ rows, others.filter (on row) = [partner row]) :
    join on rows others = rows.map fun row => (row, partner row) := by
  rw [join, List.map_eq_flatMap]
  apply List.flatMap_congr
  intro row hrow
  rw [h row hrow]
  rfl

end Join

section LeftJoin

/-- `LEFT OUTER JOIN`. -/
def leftJoin (on : α → β → Bool) (rows : List α) (others : List β) : List (α × Option β) :=
  rows.flatMap fun row =>
    match others.filter (on row) with
    | [] => [(row, none)]
    | matching => matching.map fun other => (row, some other)

/-- A selection of at most one row. -/
theorem filter_eq_toList {p : β → Bool} {others : List β} (h : (others.filter p).length ≤ 1) :
    others.filter p = (others.find? p).toList := by
  rw [← List.head?_filter]
  cases hfilter : others.filter p with
  | nil => rfl
  | cons other rest =>
    rw [hfilter] at h
    obtain rfl : rest = [] := by simpa using h
    rfl

/-- With at most one match for each row, every row comes once. -/
theorem leftJoin_eq_map {on : α → β → Bool} {rows : List α} {others : List β}
    (h : ∀ row ∈ rows, (others.filter (on row)).length ≤ 1) :
    leftJoin on rows others = rows.map fun row => (row, others.find? (on row)) := by
  rw [leftJoin, List.map_eq_flatMap]
  apply List.flatMap_congr
  intro row hrow
  rw [filter_eq_toList (h row hrow)]
  cases others.find? (on row) <;> rfl

/-- A join by a key that is unique in the other table. -/
theorem length_filter_le_one [DecidableEq κ] {key : β → κ} {others : List β}
    (hkeys : (others.map key).Nodup) (k : κ) :
    (others.filter fun other => key other = k).length ≤ 1 := by
  induction others with
  | nil => simp
  | cons other others ih =>
    obtain ⟨hnot, hkeys⟩ := List.nodup_cons.mp hkeys
    by_cases hk : key other = k
    · have hnone : others.filter (fun o => key o = k) = [] := by
        rw [List.filter_eq_nil_iff]
        intro o ho hok
        apply hnot
        rw [hk, ← of_decide_eq_true hok]
        exact List.mem_map_of_mem ho
      simp [hk, hnone]
    · simpa [hk] using ih hkeys

/-- The partners in a left join of one row are its matches. -/
theorem partners_leftJoin (on : α → β → Bool) (row : α) (others : List β) :
    (leftJoin on [row] others).filterMap Prod.snd = others.filter (on row) := by
  rw [leftJoin, List.flatMap_singleton]
  cases others.filter (on row) with
  | nil => rfl
  | cons other others => simp [List.filterMap_map]

theorem leftJoin_ne_nil (on : α → β → Bool) (row : α) (others : List β) :
    leftJoin on [row] others ≠ [] := by
  rw [leftJoin, List.flatMap_singleton]
  cases others.filter (on row) with
  | nil => simp
  | cons other others => simp

theorem fst_of_mem_leftJoin {on : α → β → Bool} {row : α} {others : List β} {r : α × Option β}
    (h : r ∈ leftJoin on [row] others) : r.1 = row := by
  rw [leftJoin, List.flatMap_singleton] at h
  cases hmatching : others.filter (on row) with
  | nil =>
    rw [hmatching] at h
    rw [List.mem_singleton.mp h]
  | cons other rest =>
    rw [hmatching] at h
    obtain ⟨partner, -, rfl⟩ := List.mem_map.mp h
    rfl

/-- What a row of a left join is joined to is a match. -/
theorem of_mem_leftJoin {on : α → β → Bool} {rows : List α} {others : List β} {r : α × Option β}
    (h : r ∈ leftJoin on rows others) :
    r.1 ∈ rows ∧ ∀ other ∈ r.2, other ∈ others ∧ on r.1 other = true := by
  rw [leftJoin, List.mem_flatMap] at h
  obtain ⟨row, hrow, hr⟩ := h
  cases hmatching : others.filter (on row) with
  | nil =>
    rw [hmatching] at hr
    obtain rfl := List.mem_singleton.mp hr
    exact ⟨hrow, fun other hother => by cases hother⟩
  | cons first rest =>
    simp only [hmatching] at hr
    rw [← hmatching] at hr
    obtain ⟨other, hother, rfl⟩ := List.mem_map.mp hr
    refine ⟨hrow, fun other' hother' => ?_⟩
    obtain rfl := Option.some.inj hother'
    exact List.mem_filter.mp hother

theorem leftJoin_eq_flatMap (on : α → β → Bool) (rows : List α) (others : List β) :
    leftJoin on rows others = rows.flatMap fun row => leftJoin on [row] others := by
  simp [leftJoin]

end LeftJoin

section Null

variable [DecidableEq κ]

/-- Equality of two columns; NULL equals nothing. -/
def sqlEq (a b : Option κ) : Bool := a.any fun x => b = some x

@[simp] theorem sqlEq_some (a : Option κ) (k : κ) : sqlEq a (some k) = decide (a = some k) := by
  cases a with
  | none => rfl
  | some x => simp [sqlEq, eq_comm]

@[simp] theorem sqlEq_none (a : Option κ) : sqlEq a none = false := by
  cases a <;> rfl

/-- A left join by a key that is unique in the other table. -/
theorem length_filter_sqlEq_le_one {key : β → Option κ} {others : List β}
    (hkeys : (others.map key).Nodup) (k : Option κ) :
    (others.filter fun other => sqlEq (key other) k).length ≤ 1 := by
  cases k with
  | none => simp
  | some k => simpa using length_filter_le_one hkeys (some k)

end Null

section Dictionary

variable [DecidableEq κ]

/-- One turn of a loop that writes under the row's key what it makes of the row and of what is
there. -/
def put (key : α → κ) (value : α → Option β → β) (dict : κ → Option β) (row : α) :
    κ → Option β :=
  Function.update dict (key row) (some (value row (dict (key row))))

/-- After a loop over rows with different keys, a key has what its row wrote. -/
theorem foldl_put {key : α → κ} {value : α → Option β → β} {rows : List α}
    (hkeys : (rows.map key).Nodup) (dict : κ → Option β) (k : κ) :
    rows.foldl (put key value) dict k =
      match rows.find? fun row => key row = k with
      | some row => some (value row (dict k))
      | none => dict k := by
  induction rows generalizing dict with
  | nil => rfl
  | cons row rows ih =>
    obtain ⟨hnot, hkeys⟩ := List.nodup_cons.mp hkeys
    rw [List.foldl_cons, ih hkeys]
    by_cases hk : key row = k
    · have hnone : rows.find? (fun r => key r = k) = none := by
        rw [List.find?_eq_none]
        intro r hr hrk
        apply hnot
        rw [hk, ← of_decide_eq_true hrk]
        exact List.mem_map_of_mem hr
      simp [hnone, hk, put]
    · have hother : put key value dict row k = dict k := Function.update_of_ne (Ne.symm hk) ..
      simp [hk, hother]

end Dictionary

end Query
