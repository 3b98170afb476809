import Fctf.Migration.Batch

/-!
Whether a migration that reports success has moved every row. A batch that fails is logged and
the task goes on, so success says nothing about it: a row is moved when its own statement is
carried out and no later batch loses the transaction.
-/

namespace Fctf.Migration

variable {X : Type} {pks : String → List String} {direction : Direction}

/-- The value that a column is mapped from. -/
def Mapping.sourceValue (row : Record (Value X)) : Mapping X → Option (Value X)
  | .fromColumn column => row.get column
  | .const _ => none

namespace Job

section Mapped

variable (j : Job X pks direction)

/-- The target has every column that a value of the row is mapped to. -/
def HasColumns (row : Record (Value X)) : Prop :=
  ∀ p ∈ j.columns, ∀ _v ∈ p.2.sourceValue row,
    ((defaults j.targetColumns).get p.1).isSome = true

instance decidableHasColumns [DecidableEq X] (row : Record (Value X)) :
    Decidable (j.HasColumns row) :=
  inferInstanceAs (Decidable (∀ _ ∈ _, _))

theorem pk_columns' : ∀ c ∈ pks j.target, ((defaults j.targetColumns).get c).isSome = true :=
  j.pk_columns

theorem get_mapRow {mapping : List (String × Mapping X)} (h : (mapping.map Prod.fst).Nodup)
    (columns : List (Column X)) (row : Record (Value X)) (c : String) :
    (mapRow mapping columns row).get c = if ((defaults columns).get c).isSome = true
      then (Record.get mapping c).bind (·.value row) else none := by
  rw [mapRow, Record.get_filterMap h fun c m =>
    if ((defaults columns).get c).isSome = true then m.value row else none]
  split
  · rfl
  · cases Record.get mapping c <;> rfl

/-- The key of a mapped row is the key of the row. -/
theorem key_mapped (row : Record (Value X)) :
    Record.key (pks j.target) (j.mapped row) = Record.key j.sourcePk row := by
  have hvalues := congrArg (List.map fun m => m.bind fun m => m.value row) j.pk_mapped
  rw [List.map_map, List.map_map] at hvalues
  refine Eq.trans (List.map_congr_left fun c hc => ?_) hvalues
  rw [mapped, get_mapRow j.columns_nodup, if_pos (j.pk_columns' c hc)]
  rfl

theorem get_data_of_mapped {row : Record (Value X)} {c : String} {v : Value X}
    (h : (j.mapped row).get c = some v) : (j.data row).get c = some v := by
  have hmapped : (mapRow j.columns j.targetColumns row).get c = some v := h
  simp only [data, targetData]
  rw [Record.get_append, hmapped, Option.some_or]

theorem keyed_mapped {row : Record (Value X)} (hrow : row ∈ j.rows) :
    Record.Keyed (pks j.target) (j.mapped row) := by
  intro c hc
  have hmem : (j.mapped row).get c ∈ Record.key j.sourcePk row := by
    rw [← j.key_mapped]
    exact List.mem_map_of_mem hc
  obtain ⟨s, hs, hget⟩ := List.mem_map.mp hmem
  rw [← hget]
  exact j.rows_pk row hrow s hs

theorem key_data {row : Record (Value X)} (hrow : row ∈ j.rows) :
    Record.key (pks j.target) (j.data row) = Record.key j.sourcePk row := by
  rw [← j.key_mapped]
  refine Record.key_congr fun c hc => ?_
  obtain ⟨v, hv⟩ := Option.isSome_iff_exists.mp (j.keyed_mapped hrow c hc)
  rw [hv]
  exact j.get_data_of_mapped hv

/-- A value that is mapped goes into the column's data when the target has the column. -/
theorem get_mapped {row : Record (Value X)} {p : String × Mapping X} (hp : p ∈ j.columns)
    {v : Value X} (hv : p.2.sourceValue row = some v)
    (hcolumn : ((defaults j.targetColumns).get p.1).isSome = true) :
    (j.mapped row).get p.1 = some v := by
  rw [mapped, get_mapRow j.columns_nodup, if_pos hcolumn,
    Record.get_of_mem j.columns_nodup (show (p.1, p.2) ∈ j.columns from hp)]
  cases hm : p.2 with
  | fromColumn column =>
    rw [hm] at hv
    exact hv
  | const value =>
    rw [hm] at hv
    cases hv

theorem separate_of_keys {f : Record (Value X) → Record (Value X)}
    (hkeyed : ∀ row ∈ j.rows, Record.Keyed (pks j.target) (f row))
    (hkey : ∀ row ∈ j.rows, Record.key (pks j.target) (f row) = Record.key j.sourcePk row) :
    Record.Separate (pks j.target) (j.rows.map f) where
  keyed := by
    intro d hd
    obtain ⟨row, hrow, rfl⟩ := List.mem_map.mp hd
    exact hkeyed row hrow
  nodup := by
    rw [List.map_map]
    have hkeys := List.map_congr_left hkey
    exact (congrArg List.Nodup hkeys).mpr j.rows_nodup

theorem separate_mapped : Record.Separate (pks j.target) (j.rows.map j.mapped) :=
  j.separate_of_keys (fun _ => j.keyed_mapped) fun row _ => j.key_mapped row

theorem flatten_jobBatches : j.batches.flatten = j.rows.map j.data :=
  flatten_batches 5000 [] _

theorem separate_batches : Record.Separate (pks j.target) j.batches.flatten := by
  rw [flatten_jobBatches]
  refine j.separate_of_keys ?_ fun _ => j.key_data
  intro row hrow c hc
  obtain ⟨v, hv⟩ := Option.isSome_iff_exists.mp (j.keyed_mapped hrow c hc)
  rw [j.get_data_of_mapped hv]
  rfl

end Mapped

variable [DecidableEq X] (j : Job X pks direction)

/-- The row is in the target under its primary key, and every mapped column has the value that it
is mapped from. -/
def Present (target : Rows X (pks j.target)) (row : Record (Value X)) : Prop :=
  ∃ cells ∈ target.find (Record.key j.sourcePk row),
    ∀ p ∈ j.columns, ∀ v ∈ p.2.sourceValue row, cells.get p.1 = some v

instance decidablePresent (target : Rows X (pks j.target)) (row : Record (Value X)) :
    Decidable (j.Present target row) :=
  inferInstanceAs (Decidable (∃ _ ∈ _, _))

/-- Either the statement of the row is carried out and stays, or the row was right already. Rows
that are inserted again need their challenge in the target. -/
def Moved (challenges : List (Record (Value X))) (f : Faults) (target : Rows X (pks j.target))
    (row : Record (Value X)) : Prop :=
  if j.Reinserts f then j.keepsRow challenges row = true ∧ j.HasColumns row
  else if j.data row ∈ (saved j.mode (j.start target) f.batch 0 j.batches).1 then j.HasColumns row
  else j.Present (j.start target) row

instance decidableMoved (challenges : List (Record (Value X))) (f : Faults)
    (target : Rows X (pks j.target)) (row : Record (Value X)) :
    Decidable (j.Moved challenges f target row) :=
  inferInstanceAs (Decidable (ite _ _ _))

/-- A row that is written is right exactly when the target has its columns. -/
theorem present_write {target : Rows X (pks j.target)} {row data old : Record (Value X)}
    (hdata : ∀ c v, (j.mapped row).get c = some v → data.get c = some v)
    (hfind : target.find (Record.key j.sourcePk row) =
      some (Record.write (defaults j.targetColumns) data old)) :
    j.Present target row ↔ j.HasColumns row := by
  constructor
  · rintro ⟨cells, hcells, hvalues⟩ p hp v hv
    obtain rfl : _ = cells := Option.some.inj (hfind.symm.trans hcells)
    have hget := hvalues p hp v hv
    rw [Record.get_write] at hget
    obtain ⟨default, hdefault, -⟩ := Option.map_eq_some_iff.mp hget
    rw [hdefault]
    rfl
  · intro hcolumns
    refine ⟨_, hfind, fun p hp v hv => ?_⟩
    have hcolumn := hcolumns p hp v hv
    exact (Record.get_write_of_new (hdata _ _ (j.get_mapped hp hv hcolumn)) old).mpr hcolumn

theorem present_reinserted (challenges : List (Record (Value X))) {row : Record (Value X)}
    (hrow : row ∈ j.rows) :
    j.Present (j.reinserted challenges) row ↔
      j.keepsRow challenges row = true ∧ j.HasColumns row := by
  have hseparate : Record.Separate (pks j.target)
      ((j.rows.filter (j.keepsRow challenges)).map j.mapped) :=
    j.separate_mapped.sublist (List.filter_sublist.map _)
  by_cases hkeeps : j.keepsRow challenges row = true
  · have hmem : j.mapped row ∈ (j.rows.filter (j.keepsRow challenges)).map j.mapped :=
      List.mem_map_of_mem (List.mem_filter.mpr ⟨hrow, hkeeps⟩)
    have hfind := find_foldl_store j.pk_columns' hseparate {} hmem
    rw [key_mapped] at hfind
    exact (j.present_write (fun _ _ h => h) hfind).trans (by simp [hkeeps])
  · have hnone : (j.reinserted challenges).find (Record.key j.sourcePk row) = none := by
      refine (find_foldl_store_of_ne j.pk_columns' hseparate.keyed {} ?_).trans rfl
      intro d hd heq
      obtain ⟨row', hrow', rfl⟩ := List.mem_map.mp hd
      obtain ⟨hrow', hkeeps'⟩ := List.mem_filter.mp hrow'
      rw [key_mapped] at heq
      obtain rfl := List.inj_on_of_nodup_map j.rows_nodup hrow' hrow heq
      exact hkeeps hkeeps'
    simp [Present, hnone, hkeeps]

theorem present_executeBatches (fault : Nat → BatchFault) (target : Rows X (pks j.target))
    {row : Record (Value X)} (hrow : row ∈ j.rows) :
    j.Present (executeBatches j.mode j.targetColumns fault target 0 target j.batches) row ↔
      if j.data row ∈ (saved j.mode target fault 0 j.batches).1 then j.HasColumns row
      else j.Present target row := by
  have hmem : j.data row ∈ j.batches.flatten := by
    rw [flatten_jobBatches]
    exact List.mem_map_of_mem hrow
  have hfind := find_executeBatches j.mode j.targetColumns fault (i := 0) j.pk_columns'
    j.separate_batches (fun _ _ => rfl : AgreeOn target target _) hmem
  rw [j.key_data hrow] at hfind
  split
  · rename_i hsaved
    rw [if_pos hsaved] at hfind
    exact j.present_write (fun _ _ => j.get_data_of_mapped) hfind
  · rename_i hsaved
    rw [if_neg hsaved] at hfind
    rw [Present, Present, hfind]

/-- What a task that returns `True` leaves. -/
theorem body_eq_ok {challenges : List (Record (Value X))} {f : Faults}
    {target target' : Rows X (pks j.target)} (h : j.body challenges f target = .ok target') :
    j.rows = [] ∨ (j.Reinserts f ∧ target' = j.reinserted challenges) ∨
      (¬ j.Reinserts f ∧ target' = executeBatches j.mode j.targetColumns f.batch
        (j.start target) 0 (j.start target) j.batches) := by
  unfold body at h
  split at h
  · cases h
  · split at h
    · cases h
    · split at h
      · exact Or.inl ‹_›
      · split at h
        · cases h
        · split at h
          · split at h
            · cases h
            · exact Or.inr (Or.inl ⟨‹_›, (Except.ok.inj h).symm⟩)
          · split at h
            · cases h
            · exact Or.inr (Or.inr ⟨‹_›, (Except.ok.inj h).symm⟩)

/-- A task that returns `True` has moved exactly the rows that meet the condition. -/
theorem present_body {challenges : List (Record (Value X))} {f : Faults}
    {target target' : Rows X (pks j.target)} (h : j.body challenges f target = .ok target')
    {row : Record (Value X)} (hrow : row ∈ j.rows) :
    j.Present target' row ↔ j.Moved challenges f target row := by
  rcases j.body_eq_ok h with hnone | ⟨hagain, rfl⟩ | ⟨honce, rfl⟩
  · rw [hnone] at hrow
    cases hrow
  · rw [Moved, if_pos hagain]
    exact j.present_reinserted challenges hrow
  · rw [Moved, if_neg honce]
    exact j.present_executeBatches f.batch (j.start target) hrow

end Job

/-- What every call keeps, the repeated calls keep. -/
theorem retry_keeps {σ α : Type} {call : Nat → σ → σ × Outcome α} {P : σ → Prop}
    (h : ∀ attempt s, P s → P (call attempt s).1) (left attempt : Nat) {s : σ} (hs : P s) :
    P (retry call left attempt s).1 := by
  induction left generalizing attempt s with
  | zero => exact hs
  | succ left ih =>
    have hcall := h attempt s hs
    rw [retry]
    split
    · rename_i heq
      rw [heq] at hcall
      exact ih (attempt + 1) hcall
    · exact hcall

section Migrate

variable [DecidableEq X]

/-- The rows meet the condition in the attempt that is not repeated. -/
def AttemptsMeet (j : Job X pks direction) (faults : Nat → Faults) :
    Nat → Nat → Database X pks → Prop
  | 0, _, _ => True
  | left + 1, attempt, db =>
    if (attemptTask j (faults attempt) db).2 = .connectionError then
      AttemptsMeet j faults left (attempt + 1) (attemptTask j (faults attempt) db).1
    else ∀ row ∈ j.rows, j.Moved (db "challenges").rows (faults attempt) (db j.target) row

instance decidableAttemptsMeet (j : Job X pks direction) (faults : Nat → Faults) :
    (left attempt : Nat) → (db : Database X pks) → Decidable (AttemptsMeet j faults left attempt db)
  | 0, _, _ => inferInstanceAs (Decidable True)
  | left + 1, attempt, db =>
    have := decidableAttemptsMeet j faults left (attempt + 1) (attemptTask j (faults attempt) db).1
    inferInstanceAs (Decidable (ite _ _ _))

/-- Every task meets the condition in the database that it finds. -/
def Meets (faults : Nat → Nat → Faults) :
    Nat → List (Job X pks direction) → Database X pks → Prop
  | _, [], _ => True
  | i, j :: rest, db =>
    AttemptsMeet j (faults i) 3 0 db ∧ Meets faults (i + 1) rest (processTask j (faults i) db).1

instance decidableMeets (faults : Nat → Nat → Faults) :
    (i : Nat) → (jobs : List (Job X pks direction)) → (db : Database X pks) →
      Decidable (Meets faults i jobs db)
  | _, [], _ => inferInstanceAs (Decidable True)
  | i, j :: rest, db =>
    have := decidableMeets faults (i + 1) rest (processTask j (faults i) db).1
    inferInstanceAs (Decidable (_ ∧ _))

theorem attemptTask_of_ne (j : Job X pks direction) (f : Faults) (db : Database X pks)
    {name : String} (h : name ≠ j.target) : (attemptTask j f db).1 name = db name := by
  rw [attemptTask]
  split
  · exact Function.update_of_ne h _ _
  · exact Function.update_of_ne h _ _

/-- A task changes its own target only. -/
theorem processTask_of_ne (j : Job X pks direction) (faults : Nat → Faults) (db : Database X pks)
    {name : String} (h : name ≠ j.target) : (processTask j faults db).1 name = db name :=
  retry_keeps (P := fun db' => db' name = db name)
    (fun attempt db' hdb' => (attemptTask_of_ne j (faults attempt) db' h).trans hdb') 3 0 rfl

theorem migrate_of_notMem (faults : Nat → Nat → Faults) (i : Nat)
    (jobs : List (Job X pks direction)) (db : Database X pks) (name : String)
    (h : ∀ j ∈ jobs, name ≠ j.target) : (migrate faults i jobs db).1 name = db name := by
  induction jobs generalizing i db with
  | nil => rfl
  | cons j rest ih =>
    have hfirst := processTask_of_ne j (faults i) db (h j List.mem_cons_self)
    have hrest := fun db => ih (i + 1) db fun j hj => h j (List.mem_cons_of_mem _ hj)
    rw [migrate]
    split
    · rename_i db' success heq
      rw [heq] at hfirst
      exact (hrest db').trans hfirst
    · rename_i db' outcome _ heq
      rw [heq] at hfirst
      exact hfirst

/-- What a task leaves that reports success. -/
theorem present_attempts {j : Job X pks direction} {faults : Nat → Faults} {left attempt : Nat}
    {db db' : Database X pks}
    (h : retry (fun attempt => attemptTask j (faults attempt)) left attempt db =
      (db', .returned true)) :
    (∀ row ∈ j.rows, j.Present (db' j.target) row) ↔ AttemptsMeet j faults left attempt db := by
  induction left generalizing attempt db with
  | zero => cases h
  | succ left ih =>
    rw [retry] at h
    rw [AttemptsMeet]
    split at h
    · rename_i heq
      rw [if_pos (congrArg Prod.snd heq), heq]
      exact ih h
    · rename_i hdone
      have hnot : (attemptTask j (faults attempt) db).2 ≠ .connectionError := by
        rw [h]
        nofun
      rw [if_neg hnot]
      cases hbody : j.body (db "challenges").rows (faults attempt) (db j.target) with
      | ok target =>
        rw [attemptTask, hbody] at h
        obtain rfl : Function.update db j.target target = db' := congrArg Prod.fst h
        rw [Function.update_self]
        exact forall₂_congr fun row hrow => j.present_body hbody hrow
      | error target =>
        rw [attemptTask, hbody] at h
        have houtcome := congrArg Prod.snd h
        cases hrollback : (faults attempt).rollback <;> simp [hrollback] at houtcome

/-- A run that reports success goes through all its tasks. -/
theorem migrate_cons {faults : Nat → Nat → Faults} {i : Nat} {j : Job X pks direction}
    {rest : List (Job X pks direction)} {db : Database X pks}
    (h : (migrate faults i (j :: rest) db).2 = true) :
    processTask j (faults i) db = ((processTask j (faults i) db).1, .returned true) ∧
      migrate faults i (j :: rest) db =
        migrate faults (i + 1) rest (processTask j (faults i) db).1 := by
  rw [migrate] at h ⊢
  rcases htask : processTask j (faults i) db with ⟨db', outcome⟩
  rw [htask] at h
  cases outcome with
  | returned success =>
    obtain ⟨hsuccess, hothers⟩ := Bool.and_eq_true_iff.mp h
    subst hsuccess
    refine ⟨rfl, ?_⟩
    rfl
  | connectionError => cases h
  | raised => cases h

/-- When each task returns, its rows are in its target. -/
def PresentInTurn (faults : Nat → Nat → Faults) :
    Nat → List (Job X pks direction) → Database X pks → Prop
  | _, [], _ => True
  | i, j :: rest, db =>
    (∀ row ∈ j.rows, j.Present ((processTask j (faults i) db).1 j.target) row) ∧
      PresentInTurn faults (i + 1) rest (processTask j (faults i) db).1

theorem presentInTurn_iff {faults : Nat → Nat → Faults} {jobs : List (Job X pks direction)}
    {i : Nat} {db : Database X pks} (hsuccess : (migrate faults i jobs db).2 = true) :
    PresentInTurn faults i jobs db ↔ Meets faults i jobs db := by
  induction jobs generalizing i db with
  | nil => rfl
  | cons j rest ih =>
    obtain ⟨hfirst, heq⟩ := migrate_cons hsuccess
    rw [heq] at hsuccess
    rw [PresentInTurn, Meets, present_attempts hfirst, ih hsuccess]

/-- What no later task has for its target stays as it is. -/
theorem present_final_iff {faults : Nat → Nat → Faults} {jobs : List (Job X pks direction)}
    {i : Nat} {db : Database X pks} (htargets : (jobs.map fun j => j.target).Nodup)
    (hsuccess : (migrate faults i jobs db).2 = true) :
    (∀ j ∈ jobs, ∀ row ∈ j.rows, j.Present ((migrate faults i jobs db).1 j.target) row) ↔
      PresentInTurn faults i jobs db := by
  induction jobs generalizing i db with
  | nil => simp [PresentInTurn]
  | cons j rest ih =>
    obtain ⟨-, heq⟩ := migrate_cons hsuccess
    rw [List.map_cons, List.nodup_cons] at htargets
    have hkept := migrate_of_notMem faults (i + 1) rest (processTask j (faults i) db).1 j.target
      fun j' hj' heq => htargets.1 (List.mem_map.mpr ⟨j', hj', heq.symm⟩)
    rw [heq] at hsuccess ⊢
    rw [List.forall_mem_cons, hkept, ih htargets.2 hsuccess, PresentInTurn]

/-- When a run reports success, the rows of every task are in its target under their keys with
the values they are mapped to, if and only if every row's own statement was carried out or was
not needed. Where no two tasks have one target this is also what the run leaves. -/
theorem migrated_iff (faults : Nat → Nat → Faults) (jobs : List (Job X pks direction))
    (db : Database X pks) (hsuccess : (migrate faults 0 jobs db).2 = true) :
    (PresentInTurn faults 0 jobs db ↔ Meets faults 0 jobs db) ∧
      ((jobs.map fun j => j.target).Nodup →
        ((∀ j ∈ jobs, ∀ row ∈ j.rows, j.Present ((migrate faults 0 jobs db).1 j.target) row) ↔
          Meets faults 0 jobs db)) := by
  have hturn := presentInTurn_iff hsuccess
  exact ⟨hturn, fun htargets => (present_final_iff htargets hsuccess).trans hturn⟩

end Migrate

section Example

/-- Two tags. -/
def tagsJob : Job Empty (fun _ => ["id"]) .fctfToCtfd where
  source := "tags"
  target := "tags"
  sourcePk := ["id"]
  columns := [("id", .fromColumn "id"), ("value", .fromColumn "value")]
  reflected := [⟨"id", "INTEGER", false, none⟩, ⟨"value", "VARCHAR(80)", true, none⟩]
  rows := [[("id", .int 1), ("value", .text "web")], [("id", .int 2), ("value", .text "pwn")]]

/-- The first tag is in the target with another value. -/
def oldTag : Database Empty fun _ => ["id"] := fun name =>
  if name = "tags" then { rows := [[("id", .int 1), ("value", .text "misc")]] } else {}

/-- The second tag is inserted, and the update of the first one is refused. The attempt may lose
the connection at its COMMIT. -/
def refusedUpdate (lost : Bool) (_ attempt : Nat) : Faults :=
  if attempt = 0 then
    { batch := fun _ => { refused := some 2 }, commit := lost, rollback := .connectionError }
  else {}

/-- The attempt that follows a lost connection updates the tag; without one there is none. -/
theorem migrated_tags :
    ((migrate (refusedUpdate true) 0 [tagsJob] oldTag).2 = true ∧
      ∀ j ∈ [tagsJob], ∀ row ∈ j.rows, j.Present
        ((migrate (refusedUpdate true) 0 [tagsJob] oldTag).1 j.target) row) ∧
    (migrate (refusedUpdate false) 0 [tagsJob] oldTag).2 = true ∧
      ¬ ∀ j ∈ [tagsJob], ∀ row ∈ j.rows, j.Present
        ((migrate (refusedUpdate false) 0 [tagsJob] oldTag).1 j.target) row := by
  refine ⟨⟨by decide, ?_⟩, by decide, ?_⟩
  · have hiff := (migrated_iff (refusedUpdate true) [tagsJob] oldTag (by decide)).2 (by decide)
    exact hiff.mpr (by decide)
  · have hiff := (migrated_iff (refusedUpdate false) [tagsJob] oldTag (by decide)).2 (by decide)
    exact fun hpresent => absurd (hiff.mp hpresent) (by decide)

/-- The look-up for the only batch fails, and the migration reports success. -/
theorem failed_batch_reported :
    ¬ ∀ (faults : Nat → Nat → Faults) (jobs : List (Job Empty (fun _ => ["id"]) .fctfToCtfd))
      (db : Database Empty fun _ => ["id"]), (jobs.map fun j => j.target).Nodup →
        (migrate faults 0 jobs db).2 = true → ∀ j ∈ jobs, ∀ row ∈ j.rows,
          j.Present ((migrate faults 0 jobs db).1 j.target) row := by
  intro h
  have hpresent := h (fun _ _ => { batch := fun _ => { refused := some 0 } }) [tagsJob]
    (fun _ => {}) (by decide) (by decide)
  exact absurd hpresent (by decide)

end Example

end Fctf.Migration
