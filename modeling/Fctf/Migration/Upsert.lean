import Fctf.Migration.RoundTrip

/-!
An upsert task whose statements are all carried out, and what it counts when it is run once more.
The rows of a batch are compared with what the task has for them: the mapped values and, for a
required column without one, the filler.
-/

namespace Fctf.Migration

/-- What `_execute_batch` returns. -/
structure Counts where
  inserted : Nat := 0
  updated : Nat := 0
  unchanged : Nat := 0
  deriving DecidableEq, Repr

def Counts.add (x y : Counts) : Counts :=
  ⟨x.inserted + y.inserted, x.updated + y.updated, x.unchanged + y.unchanged⟩

theorem Column.filler_cases {X : Type} (c : Column X) :
    c.filler = .text "" ∨ c.filler = .int 0 := by
  unfold Column.filler
  repeat' split
  all_goals simp

section Faultless

variable {X : Type} [DecidableEq X] {pk : List String}

/-- The counts of a batch of an upsert. -/
def countBatch (target : Rows X pk) (batch : List (Record (Value X))) : Counts where
  inserted := batch.countP fun d => (target.find (Record.key pk d)).isNone
  updated := batch.countP fun d =>
    (target.find (Record.key pk d)).any fun existing => hasChanges pk existing d
  unchanged := batch.countP fun d =>
    (target.find (Record.key pk d)).any fun existing => !hasChanges pk existing d

def countBatches (columns : List (Column X)) :
    Rows X pk → List (List (Record (Value X))) → Counts
  | _, [] => {}
  | target, batch :: rest =>
    (countBatch target batch).add
      (countBatches columns (executeBatch .upsert columns target {} batch).1 rest)

/-- A row is written unless it is there and nothing changes. -/
def Writes (target : Rows X pk) (d : Record (Value X)) : Prop :=
  ∀ existing ∈ target.find (Record.key pk d), hasChanges pk existing d = true

theorem hasChanges_eq_false {existing d : Record (Value X)} :
    hasChanges pk existing d = false ↔
      ∀ p ∈ d, p.1 ∉ pk → ∀ old ∈ existing.get p.1, old = p.2 := by
  rw [hasChanges, List.any_eq_false]
  refine forall₂_congr fun p _ => ?_
  cases existing.get p.1 with
  | none => simp
  | some old => simp

theorem executed_updates (target : Rows X pk) (rows : List (Record (Value X))) (i : Nat) :
    executed target {} i (rows.map .update) = (rows, false) := by
  induction rows generalizing i with
  | nil => rfl
  | cons row rest ih => simp [executed, ih]

/-- Without a fault the server takes the new rows and the changed ones. -/
theorem executed_faultless (target : Rows X pk) (batch : List (Record (Value X))) :
    executed target {} 0 (statements .upsert target batch) =
      (batch.filter (fun d => (target.find (Record.key pk d)).isNone) ++
        batch.filter (fun d =>
          (target.find (Record.key pk d)).any fun existing => hasChanges pk existing d),
        false) := by
  have hfree : ((batch.filter fun d => (target.find (Record.key pk d)).isNone).takeWhile
      fun d => (target.find (Record.key pk d)).isNone) =
      batch.filter fun d => (target.find (Record.key pk d)).isNone :=
    List.takeWhile_eq_self_iff.mpr fun d hd => (List.mem_filter.mp hd).2
  simp only [statements, executed, reduceCtorEq, if_false]
  split
  · rename_i hnone
    rw [List.nil_append, executed_updates, hnone, List.nil_append]
  · rw [List.singleton_append, executed, hfree]
    simp only [reduceCtorEq, if_false, if_true, executed_updates]

theorem mem_executed_faultless {target : Rows X pk} {batch : List (Record (Value X))}
    {d : Record (Value X)} :
    d ∈ (executed target {} 0 (statements .upsert target batch)).1 ↔
      d ∈ batch ∧ Writes target d := by
  rw [executed_faultless, List.mem_append, List.mem_filter, List.mem_filter, Writes]
  cases target.find (Record.key pk d) with
  | none => simp
  | some existing => simp

theorem saved_faultless (start : Rows X pk) (i : Nat) (bs : List (List (Record (Value X)))) :
    (saved .upsert start (fun _ => {}) i bs).2 = false ∧
      ∀ d, d ∈ (saved .upsert start (fun _ => {}) i bs).1 ↔ d ∈ bs.flatten ∧ Writes start d := by
  induction bs generalizing i with
  | nil => simp [saved]
  | cons batch rest ih =>
    obtain ⟨hlost, hmem⟩ := ih (i + 1)
    have hrolled : (executed start {} 0 (statements .upsert start batch)).2 = false := by
      rw [executed_faultless]
    constructor
    · simp [saved, hrolled, hlost]
    · intro d
      simp only [saved, hrolled, hlost, Bool.or_self, Bool.false_eq_true, if_false,
        List.mem_append, mem_executed_faultless, hmem, List.flatten_cons]
      exact or_and_right.symm

/-- Batches of rows that are there and that nothing changes. -/
theorem countBatches_unchanged (columns : List (Column X)) (target : Rows X pk)
    (bs : List (List (Record (Value X)))) (h : ∀ d ∈ bs.flatten, ¬ Writes target d) :
    (countBatches columns target bs).inserted = 0 ∧
      (countBatches columns target bs).updated = 0 := by
  induction bs with
  | nil => exact ⟨rfl, rfl⟩
  | cons batch rest ih =>
    rw [List.flatten_cons] at h
    have hrest := ih fun d hd => h d (List.mem_append_right _ hd)
    have hnone : (executed target {} 0 (statements .upsert target batch)).1 = [] := by
      rw [List.eq_nil_iff_forall_not_mem]
      intro d hd
      obtain ⟨hbatch, hwrites⟩ := mem_executed_faultless.mp hd
      exact h d (List.mem_append_left _ hbatch) hwrites
    have hsame : (executeBatch .upsert columns target {} batch).1 = target := by
      simp only [executeBatch, hnone, List.foldl_nil]
    rw [countBatches, hsame]
    rw [executed_faultless, List.append_eq_nil_iff] at hnone
    refine ⟨?_, ?_⟩
    · simp only [Counts.add, countBatch, hrest.1, Nat.add_zero, List.countP_eq_length_filter,
        hnone.1, List.length_nil]
    · simp only [Counts.add, countBatch, hrest.2, Nat.add_zero, List.countP_eq_length_filter,
        hnone.2, List.length_nil]

end Faultless

/-- An upsert task with what its target holds; the columns of a table have different names and
every row has a value for each of them. -/
structure Upsert (X : Type) [DecidableEq X] (pks : String → List String) (direction : Direction)
    extends Job X pks direction where
  mode_eq : mode = .upsert := by rfl
  names_nodup : (reflected.map Column.name).Nodup := by decide
  before : Rows X (pks target)
  conforms : ∀ r ∈ before.rows, ∀ c ∈ reflected, (r.get c.name).isSome = true := by decide

namespace Upsert

variable {X : Type} [DecidableEq X] {pks : String → List String} {direction : Direction}
variable (u : Upsert X pks direction)

/-- What the mapping has for a column. -/
def mappedValue (row : Record (Value X)) (name : String) : Option (Value X) :=
  (Record.get u.columns name).bind (·.value row)

/-- The counts of a run from some content of the target. -/
def counts (target : Rows X (pks u.target)) : Counts :=
  if u.rows = [] then {} else countBatches u.targetColumns (u.start target) u.batches

/-- What an upsert is to leave in its target, and that it finds nothing to do a second time. -/
structure Upserts (after : Rows X (pks u.target)) : Prop where
  mapped : ∀ row ∈ u.rows, ∃ cells ∈ after.find (Record.key u.sourcePk row),
    ∀ c ∈ u.targetColumns, ∀ v ∈ u.mappedValue row c.name, cells.get c.name = some v
  others : ∀ k, (∀ row ∈ u.rows, Record.key u.sourcePk row ≠ k) → after.find k = u.before.find k
  unnamed : ∀ row ∈ u.rows, ∀ old ∈ u.before.find (Record.key u.sourcePk row),
    ∃ new ∈ after.find (Record.key u.sourcePk row), ∀ c ∈ u.targetColumns,
      Record.get u.columns c.name = none → ∀ v ∈ old.get c.name, new.get c.name = some v
  again : (u.counts after).inserted = 0 ∧ (u.counts after).updated = 0

/-- A row that was there has the filler already in every required column that the mapping does not
name; a target that is created anew was empty and stays so. -/
def Spares : Prop :=
  if u.Rebuilds then u.rows = [] ∧ u.before.rows = []
  else ∀ row ∈ u.rows, ∀ old ∈ u.before.find (Record.key u.sourcePk row), ∀ c ∈ u.targetColumns,
    Record.get u.columns c.name = none → c.required = true → ∀ v ∈ old.get c.name, v = c.filler

/-! ### What a task has for a row -/

theorem targetColumns_nodup : (u.targetColumns.map Column.name).Nodup := by
  rw [Job.targetColumns]
  split
  · simp [dynamicChallengeColumns]
  · exact u.names_nodup

theorem findColumn_name {c : Column X} (hc : c ∈ u.targetColumns) :
    findColumn u.targetColumns c.name = some c :=
  Query.find?_eq_of_unique u.targetColumns_nodup hc rfl

theorem get_data {c : Column X} (hc : c ∈ u.targetColumns) (row : Record (Value X)) :
    (u.data row).get c.name =
      (u.mappedValue row c.name).or (if c.required then some c.filler else none) := by
  rw [Job.get_data u.toJob u.targetColumns_nodup, u.findColumn_name hc]
  rfl

theorem isSome_defaults {c : Column X} (hc : c ∈ u.targetColumns) :
    ((defaults u.targetColumns).get c.name).isSome = true := by
  rw [get_defaults, u.findColumn_name hc]
  rfl

/-- A mapping has at most one value for a column, and the fillers are for the others. -/
theorem data_nodup (row : Record (Value X)) : ((u.data row).map Prod.fst).Nodup := by
  have hmapped : ((mapRow u.columns u.targetColumns row).map Prod.fst).Nodup := by
    refine u.columns_nodup.sublist (Record.names_filterMap_sublist ?_ u.columns)
    intro p q hq
    obtain ⟨v, -, rfl⟩ := Option.map_eq_some_iff.mp hq
    rfl
  rw [Job.data, targetData, List.map_append]
  refine List.nodup_append'.mpr ⟨hmapped, ?_, ?_⟩
  · refine u.targetColumns_nodup.sublist (Record.names_filterMap_sublist ?_ u.targetColumns)
    intro c q hq
    split at hq
    · obtain rfl := Option.some.inj hq
      rfl
    · cases hq
  · intro name hname hfiller
    obtain ⟨q, hq, rfl⟩ := List.mem_map.mp hfiller
    obtain ⟨c, -, hc⟩ := List.mem_filterMap.mp hq
    split at hc
    · rename_i hnone
      obtain rfl := Option.some.inj hc
      obtain ⟨p, hp, hpname⟩ := List.mem_map.mp hname
      rw [Bool.and_eq_true, Option.isNone_iff_eq_none] at hnone
      have hsome := Record.get_of_mem hmapped (show (p.1, p.2) ∈ _ from hp)
      rw [hpname, hnone.1] at hsome
      cases hsome
    · cases hc

theorem mem_batches {row : Record (Value X)} (hrow : row ∈ u.rows) :
    u.data row ∈ u.batches.flatten := by
  rw [Job.flatten_jobBatches]
  exact List.mem_map_of_mem hrow

/-! ### A run -/

section Run

variable (hrebuilds : ¬ u.Rebuilds)

theorem start_eq (hrebuilds : ¬ u.Rebuilds) (target : Rows X (pks u.target)) :
    u.start target = target := if_neg hrebuilds

/-- The rows after the batches. -/
def after : Rows X (pks u.target) :=
  executeBatches .upsert u.targetColumns (fun _ => {}) u.before 0 u.before u.batches

theorem body_eq (hrebuilds : ¬ u.Rebuilds) (challenges : List (Record (Value X))) :
    u.body challenges {} u.before = .ok u.after := by
  have honce : ¬ u.Reinserts {} := fun h => hrebuilds h.1
  by_cases hrows : u.rows = []
  · have hnone : u.batches = [] := by simp [Job.batches, hrows, batches]
    simp [Job.body, hrebuilds, hrows, start_eq, after, hnone, executeBatches]
  · simp [Job.body, hrebuilds, hrows, start_eq, after, honce, u.mode_eq]

theorem find_after_of_ne {k : List (Option (Value X))}
    (hk : ∀ row ∈ u.rows, Record.key u.sourcePk row ≠ k) : u.after.find k = u.before.find k := by
  have hbatches : ∀ d ∈ u.batches.flatten, Record.key (pks u.target) d ≠ k := by
    intro d hd
    rw [Job.flatten_jobBatches] at hd
    obtain ⟨row, hrow, rfl⟩ := List.mem_map.mp hd
    rw [u.key_data hrow]
    exact hk row hrow
  rw [after, find_executeBatches_of_ne .upsert u.targetColumns _ u.pk_columns' u.separate_batches
    (fun _ _ => rfl) hbatches, (saved_faultless u.before 0 u.batches).1]
  rfl

/-- A row is written over what was there, or it stays as it was. -/
theorem find_after {row : Record (Value X)} (hrow : row ∈ u.rows) :
    (Writes u.before (u.data row) → u.after.find (Record.key u.sourcePk row) =
      some (stored u.targetColumns u.before (u.data row))) ∧
    (¬ Writes u.before (u.data row) → u.after.find (Record.key u.sourcePk row) =
      u.before.find (Record.key u.sourcePk row)) := by
  have hmem := u.mem_batches hrow
  have hfind := find_executeBatches .upsert u.targetColumns (fun _ => {}) (i := 0) u.pk_columns'
    u.separate_batches (fun _ _ => rfl : AgreeOn u.before u.before _) hmem
  rw [u.key_data hrow] at hfind
  have hsaved := (saved_faultless u.before 0 u.batches).2 (u.data row)
  constructor
  · intro hwrites
    rw [after, hfind, if_pos (hsaved.mpr ⟨hmem, hwrites⟩)]
  · intro hkeeps
    rw [after, hfind, if_neg fun h => hkeeps (hsaved.mp h).2]

theorem exists_unchanged {row : Record (Value X)} (hrow : row ∈ u.rows)
    (hkeeps : ¬ Writes u.before (u.data row)) :
    ∃ existing, u.before.find (Record.key u.sourcePk row) = some existing ∧
      hasChanges (pks u.target) existing (u.data row) = false := by
  rw [Writes, u.key_data hrow] at hkeeps
  push Not at hkeeps
  obtain ⟨existing, hexisting, hsame⟩ := hkeeps
  exact ⟨existing, hexisting, by simpa using hsame⟩

/-- What a row that stays has in the columns of the task. -/
theorem get_unchanged {row existing : Record (Value X)} (hrow : row ∈ u.rows)
    (hrebuilds : ¬ u.Rebuilds)
    (hexisting : u.before.find (Record.key u.sourcePk row) = some existing)
    (hsame : hasChanges (pks u.target) existing (u.data row) = false) {c : Column X}
    (hc : c ∈ u.targetColumns) {v : Value X} (hv : (u.data row).get c.name = some v) :
    existing.get c.name = some v := by
  obtain ⟨hmem, hkey⟩ := Table.find_eq_some.mp hexisting
  by_cases hpk : c.name ∈ pks u.target
  · rw [← u.key_data hrow] at hkey
    rw [Record.get_of_key hkey hpk, hv]
  · have hreflected : c ∈ u.reflected := by
      rw [Job.targetColumns, if_neg hrebuilds] at hc
      exact hc
    obtain ⟨w, hw⟩ := Option.isSome_iff_exists.mp (u.conforms existing hmem c hreflected)
    rw [hw, hasChanges_eq_false.mp hsame (c.name, v) (Record.mem_of_get hv) hpk w hw]

/-- Whatever happens to a row, in the end it has what the task has for it. -/
theorem get_after {row : Record (Value X)} (hrow : row ∈ u.rows) (hrebuilds : ¬ u.Rebuilds) :
    ∃ cells ∈ u.after.find (Record.key u.sourcePk row), ∀ c ∈ u.targetColumns,
      ∀ v ∈ (u.data row).get c.name, cells.get c.name = some v := by
  by_cases hwrites : Writes u.before (u.data row)
  · refine ⟨_, (u.find_after hrow).1 hwrites, fun c hc v hv => ?_⟩
    exact (Record.get_write_of_new hv _).mpr (u.isSome_defaults hc)
  · obtain ⟨existing, hexisting, hsame⟩ := u.exists_unchanged hrow hwrites
    refine ⟨existing, ?_, fun c hc v hv => u.get_unchanged hrow hrebuilds hexisting hsame hc hv⟩
    rw [(u.find_after hrow).2 hwrites]
    exact hexisting

/-- A second run finds every row as it would write it. -/
theorem not_writes_after {row : Record (Value X)} (hrow : row ∈ u.rows) :
    ¬ Writes u.after (u.data row) := by
  rw [Writes, u.key_data hrow]
  push Not
  by_cases hwrites : Writes u.before (u.data row)
  · refine ⟨_, (u.find_after hrow).1 hwrites, ?_⟩
    rw [ne_eq, Bool.not_eq_true, hasChanges_eq_false]
    intro p hp _ old hold
    have hget := Record.get_of_mem (u.data_nodup row) (show (p.1, p.2) ∈ _ from hp)
    rw [stored, Record.get_write, hget] at hold
    obtain ⟨-, -, rfl⟩ := Option.map_eq_some_iff.mp hold
    rfl
  · obtain ⟨existing, hexisting, hsame⟩ := u.exists_unchanged hrow hwrites
    refine ⟨existing, ?_, by simp [hsame]⟩
    rw [(u.find_after hrow).2 hwrites]
    exact hexisting

/-- A column that the mapping does not name keeps its value unless it is filled. -/
theorem unnamed_after {row old : Record (Value X)} (hrow : row ∈ u.rows) (hrebuilds : ¬ u.Rebuilds)
    (hold : u.before.find (Record.key u.sourcePk row) = some old) {new : Record (Value X)}
    (hnew : u.after.find (Record.key u.sourcePk row) = some new) {c : Column X}
    (hc : c ∈ u.targetColumns) (hunnamed : Record.get u.columns c.name = none) {v : Value X}
    (hv : old.get c.name = some v) :
    new.get c.name = some v ↔ (c.required = true → v = c.filler) := by
  have hdata := u.get_data hc row
  rw [mappedValue, hunnamed, Option.bind_none, Option.none_or] at hdata
  by_cases hrequired : c.required = true
  · rw [if_pos hrequired] at hdata
    obtain ⟨cells, hcells, hget⟩ := u.get_after hrow hrebuilds
    obtain rfl : new = cells := Option.some.inj (hnew.symm.trans hcells)
    rw [hget c hc c.filler hdata, Option.some.injEq]
    simp [hrequired, eq_comm]
  · rw [if_neg hrequired] at hdata
    refine iff_of_true ?_ fun h => absurd h hrequired
    by_cases hwrites : Writes u.before (u.data row)
    · obtain rfl := Option.some.inj (hnew.symm.trans ((u.find_after hrow).1 hwrites))
      obtain ⟨d, hd⟩ := Option.isSome_iff_exists.mp (u.isSome_defaults hc)
      rw [stored, Record.get_write, hd, hdata, u.key_data hrow, hold]
      simp [hv]
    · have hsame := (u.find_after hrow).2 hwrites
      rw [hnew, hold] at hsame
      obtain rfl := Option.some.inj hsame
      exact hv

theorem upserts_after_iff (hrebuilds : ¬ u.Rebuilds) : u.Upserts u.after ↔ u.Spares := by
  rw [Spares, if_neg hrebuilds]
  constructor
  · intro h row hrow old hold c hc hunnamed hrequired v hv
    obtain ⟨new, hnew, hkept⟩ := h.unnamed row hrow old hold
    exact (u.unnamed_after hrow hrebuilds hold hnew hc hunnamed hv).mp
      (hkept c hc hunnamed v hv) hrequired
  · intro h
    refine ⟨fun row hrow => ?_, fun k hk => u.find_after_of_ne hk, fun row hrow old hold => ?_, ?_⟩
    · obtain ⟨cells, hcells, hget⟩ := u.get_after hrow hrebuilds
      refine ⟨cells, hcells, fun c hc v hv => hget c hc v ?_⟩
      rw [u.get_data hc, Option.mem_def.mp hv]
      rfl
    · obtain ⟨new, hnew, -⟩ := u.get_after hrow hrebuilds
      refine ⟨new, hnew, fun c hc hunnamed v hv => ?_⟩
      exact (u.unnamed_after hrow hrebuilds hold hnew hc hunnamed hv).mpr
        fun hrequired => h row hrow old hold c hc hunnamed hrequired v hv
    · rw [counts]
      split
      · exact ⟨rfl, rfl⟩
      · rw [u.start_eq hrebuilds]
        refine countBatches_unchanged u.targetColumns u.after u.batches fun d hd => ?_
        rw [Job.flatten_jobBatches] at hd
        obtain ⟨row, hrow, rfl⟩ := List.mem_map.mp hd
        exact u.not_writes_after hrow

end Run

/-- A run into a table that is created anew inserts all its rows. -/
theorem inserted_rebuilt (columns : List (Column X)) {pk : List String}
    (bs : List (List (Record (Value X))))
    (h : (countBatches columns ({} : Rows X pk) bs).inserted = 0) : bs.flatten = [] := by
  induction bs with
  | nil => rfl
  | cons batch rest ih =>
    rw [countBatches, Counts.add] at h
    obtain ⟨hbatch, hrest⟩ := Nat.add_eq_zero_iff.mp h
    have hempty : batch = [] := by
      simpa [countBatch] using hbatch
    subst hempty
    rw [List.flatten_cons, List.nil_append]
    refine ih ?_
    simpa [executeBatch, statements, executed] using hrest

theorem upserts_rebuilt_iff (hrebuilds : u.Rebuilds) (challenges : List (Record (Value X))) :
    (∃ target, u.body challenges {} u.before = .ok target ∧ u.Upserts target) ↔ u.Spares := by
  have hstart : ∀ target, u.start target = {} := fun _ => if_pos hrebuilds
  rw [Spares, if_pos hrebuilds]
  constructor
  · rintro ⟨target, hbody, h⟩
    have hrows : u.rows = [] := by
      by_contra hne
      have hagain := h.again.1
      rw [counts, if_neg hne, hstart] at hagain
      have hnone := inserted_rebuilt u.targetColumns u.batches hagain
      rw [Job.flatten_jobBatches, List.map_eq_nil_iff] at hnone
      exact hne hnone
    refine ⟨hrows, ?_⟩
    have htarget : target = {} := by
      simpa [Job.body, hrows, hstart, eq_comm] using hbody
    rw [List.eq_nil_iff_forall_not_mem]
    intro r hr
    have hkey := h.others (Record.key (pks u.target) r) (by simp [hrows])
    rw [htarget, Table.find_key hr] at hkey
    cases hkey
  · rintro ⟨hrows, hbefore⟩
    refine ⟨{}, by simp [Job.body, hrows, hstart], ?_⟩
    have hnone : ∀ k, u.before.find k = none := by
      intro k
      rw [Table.find_eq_none, hbefore]
      exact fun a ha => absurd ha List.not_mem_nil
    refine ⟨?_, fun k _ => (hnone k).symm, ?_, ?_⟩
    · simp [hrows]
    · simp [hrows]
    · simp [counts, hrows]

/-- A task whose statements are all carried out does what an upsert is for if and only if the
required columns that its mapping does not name have the filler already in every row that it
finds; where it creates the table anew, only if there is nothing to do. -/
theorem upserts_iff (challenges : List (Record (Value X))) :
    (∃ target, u.body challenges {} u.before = .ok target ∧ u.Upserts target) ↔ u.Spares := by
  by_cases hrebuilds : u.Rebuilds
  · exact u.upserts_rebuilt_iff hrebuilds challenges
  · rw [u.body_eq hrebuilds]
    simp only [Except.ok.injEq, exists_eq_left']
    exact u.upserts_after_iff hrebuilds

section Example

/-- One tag whose colour only the target has. -/
def coloredTag : Upsert Empty (fun _ => ["id"]) .fctfToCtfd where
  source := "tags"
  target := "tags"
  sourcePk := ["id"]
  columns := [("id", .fromColumn "id"), ("value", .fromColumn "value")]
  reflected := [⟨"id", "INTEGER", false, none⟩, ⟨"value", "VARCHAR(80)", true, none⟩,
    ⟨"color", "VARCHAR(20)", false, none⟩]
  rows := [[("id", .int 1), ("value", .text "web")]]
  before := { rows := [[("id", .int 1), ("value", .text "web"), ("color", .text "red")]] }
  columns_nodup := tagsJob.columns_nodup
  pk_ne_nil := Copy.id_ne_nil
  pk_mapped := tagsJob.pk_mapped

/-- The colour is replaced by the empty text. -/
theorem filler_overwrites : ¬ ∀ (u : Upsert Empty (fun _ => ["id"]) .fctfToCtfd)
    (challenges : List (Record (Value Empty))),
      ∃ target, u.body challenges {} u.before = .ok target ∧ u.Upserts target := by
  intro h
  obtain ⟨target, hbody, hupserts⟩ := h coloredTag []
  have hrebuilds : ¬ coloredTag.Rebuilds := by decide
  rw [coloredTag.body_eq hrebuilds] at hbody
  obtain rfl := Except.ok.inj hbody
  have hspares := (coloredTag.upserts_after_iff hrebuilds).mp hupserts
  rw [Spares, if_neg hrebuilds] at hspares
  have hcolumn : (⟨"color", "VARCHAR(20)", false, none⟩ : Column Empty) ∈
      coloredTag.targetColumns := by
    rw [Job.targetColumns, if_neg hrebuilds]
    exact List.mem_cons_of_mem _ (List.mem_cons_of_mem _ List.mem_cons_self)
  have hfiller := hspares [("id", .int 1), ("value", .text "web")] (by decide)
    [("id", .int 1), ("value", .text "web"), ("color", .text "red")] (by decide)
    _ hcolumn (by decide) (by decide) (.text "red") (by decide)
  rcases Column.filler_cases ⟨"color", "VARCHAR(20)", false, none⟩ with h | h
  · rw [h] at hfiller
    exact absurd hfiller (by decide)
  · rw [h] at hfiller
    cases hfiller

end Example

end Upsert

end Fctf.Migration
