import Fctf.Migration.Mappings
import Mathlib.Data.List.TakeWhile

/-!
A run to CTFd and a run back, when nothing fails. A run into empty tables copies every row column
by column, so that the two runs compose row by row, and a value comes back unless the table in
between does not have its column.
-/

namespace Fctf.Migration

variable {X : Type}

section Columns

def findColumn (columns : List (Column X)) (name : String) : Option (Column X) :=
  columns.find? fun c => c.name = name

/-- What a row gets in a column that nothing is mapped to. -/
def Column.omitted (c : Column X) : Value X := if c.required then c.filler else c.stored

theorem get_defaults (columns : List (Column X)) (name : String) :
    (defaults columns).get name = (findColumn columns name).map Column.stored := by
  induction columns with
  | nil => rfl
  | cons c rest ih =>
    rw [defaults, List.map_cons, Record.get_cons, findColumn, List.find?_cons]
    by_cases hname : name = c.name
    · simp [hname]
    · rw [if_neg hname]
      have hne : decide (c.name = name) = false := decide_eq_false fun h => hname h.symm
      rw [hne]
      exact ih

theorem get_fillers {columns : List (Column X)} (hnames : (columns.map Column.name).Nodup)
    (p : Column X → Bool) (name : String) :
    Record.get (columns.filterMap fun c => if p c then some (c.name, c.filler) else none) name =
      (findColumn columns name).bind fun c => if p c then some c.filler else none := by
  induction columns with
  | nil => rfl
  | cons c rest ih =>
    rw [List.map_cons, List.nodup_cons] at hnames
    have ih := ih hnames.2
    rw [findColumn, List.find?_cons]
    by_cases hname : c.name = name
    · have habsent : findColumn rest name = none := by
        rw [findColumn, List.find?_eq_none]
        intro c' hc' heq
        rw [decide_eq_true_eq] at heq
        exact hnames.1 (List.mem_map.mpr ⟨c', hc', heq.trans hname.symm⟩)
      rw [habsent, Option.bind_none] at ih
      by_cases hp : p c = true
      · simp [hp, hname, Record.get_cons]
      · simp [hp, hname, ih]
    · have hne : ¬ name = c.name := fun h => hname h.symm
      by_cases hp : p c = true
      · simp [hp, hname, hne, Record.get_cons, ih, findColumn]
      · simp [hp, hname, ih, findColumn]

end Columns

/-- What a task has for a column of its target: the value it is mapped to, and for a required
column that has none the filler. -/
theorem Job.get_data {pks : String → List String} {direction : Direction}
    (j : Job X pks direction) (hnames : (j.targetColumns.map Column.name).Nodup)
    (row : Record (Value X)) (name : String) :
    (j.data row).get name = (findColumn j.targetColumns name).bind fun c =>
      ((Record.get j.columns name).bind (·.value row)).or
        (if c.required then some c.filler else none) := by
  have hmapped : (mapRow j.columns j.targetColumns row).get name =
      if (findColumn j.targetColumns name).isSome = true
        then (Record.get j.columns name).bind (·.value row) else none := by
    rw [get_mapRow j.columns_nodup, get_defaults, Option.isSome_map]
  rw [data, targetData, Record.get_append, get_fillers hnames, hmapped]
  cases hcolumn : findColumn j.targetColumns name with
  | none => rfl
  | some c =>
    have hname : c.name = name := by simpa using List.find?_some hcolumn
    rw [hcolumn] at hmapped
    simp only [Option.isSome_some, if_true] at hmapped
    simp only [Option.isSome_some, if_true, Option.bind_some, hname, hmapped]
    cases (Record.get j.columns name).bind (·.value row) with
    | none => simp
    | some v => simp

/-- The row that is stored for a row of the source when the target has none. -/
def Job.copied {pks : String → List String} {direction : Direction} (j : Job X pks direction)
    (row : Record (Value X)) : Record (Value X) :=
  Record.write (defaults j.targetColumns) (j.data row) []

theorem Job.get_copied {pks : String → List String} {direction : Direction}
    (j : Job X pks direction) (hnames : (j.targetColumns.map Column.name).Nodup)
    (row : Record (Value X)) (name : String) :
    (j.copied row).get name = (findColumn j.targetColumns name).map fun c =>
      ((Record.get j.columns name).bind (·.value row)).getD c.omitted := by
  rw [copied, Record.get_write, get_defaults, Option.map_map, j.get_data hnames]
  cases findColumn j.targetColumns name with
  | none => rfl
  | some c =>
    simp only [Option.map_some, Function.comp_apply, Record.get_nil, Option.getD_none,
      Option.bind_some]
    cases (Record.get j.columns name).bind (·.value row) with
    | none =>
      by_cases hrequired : c.required = true
      · simp [Column.omitted, hrequired]
      · simp [Column.omitted, hrequired]
    | some v => simp

section Clean

variable [DecidableEq X] {pk : List String}

@[simp] theorem find_empty (k : List (Option (Value X))) : ({} : Rows X pk).find k = none := rfl

theorem executed_clean (batch : List (Record (Value X))) :
    executed ({} : Rows X pk) {} 0 (statements .upsert ({} : Rows X pk) batch) =
      (batch, false) := by
  have hfree : (batch.takeWhile fun _ => true) = batch :=
    List.takeWhile_eq_self_iff.mpr fun _ _ => rfl
  by_cases hbatch : batch = []
  · simp [statements, executed, hbatch]
  · simp [statements, executed, hbatch, hfree]

theorem saved_clean (i : Nat) (bs : List (List (Record (Value X)))) :
    saved .upsert ({} : Rows X pk) (fun _ => {}) i bs = (bs.flatten, false) := by
  induction bs generalizing i with
  | nil => rfl
  | cons batch rest ih => simp [saved, executed_clean, ih]

/-- The rows after batches that go into an empty table. -/
theorem mem_executeBatches_clean {columns : List (Column X)}
    (hpk : ∀ c ∈ pk, ((defaults columns).get c).isSome = true)
    {bs : List (List (Record (Value X)))} (hbs : Record.Separate pk bs.flatten)
    (r : Record (Value X)) :
    r ∈ (executeBatches .upsert columns (fun _ => {}) ({} : Rows X pk) 0 {} bs).rows ↔
      ∃ d ∈ bs.flatten, r = Record.write (defaults columns) d [] := by
  have hagree : AgreeOn ({} : Rows X pk) {} bs.flatten := fun _ _ => rfl
  have hfind : ∀ d ∈ bs.flatten,
      (executeBatches .upsert columns (fun _ => {}) ({} : Rows X pk) 0 {} bs).find
        (Record.key pk d) = some (Record.write (defaults columns) d []) := by
    intro d hd
    rw [find_executeBatches .upsert columns _ hpk hbs hagree hd, saved_clean, if_pos hd]
    rfl
  constructor
  · intro hr
    have hself := Table.find_key hr
    by_cases hkey : ∃ d ∈ bs.flatten, Record.key pk d = Record.key pk r
    · obtain ⟨d, hd, hkey⟩ := hkey
      rw [← hkey, hfind d hd] at hself
      exact ⟨d, hd, (Option.some.inj hself).symm⟩
    · have hne : ∀ d ∈ bs.flatten, Record.key pk d ≠ Record.key pk r :=
        fun d hd heq => hkey ⟨d, hd, heq⟩
      rw [find_executeBatches_of_ne .upsert columns _ hpk hbs hagree hne, saved_clean] at hself
      cases hself
  · rintro ⟨d, hd, rfl⟩
    exact Table.mem_of_find (hfind d hd)

variable {pks : String → List String} {direction : Direction}

theorem Job.body_clean (j : Job X pks direction) (hmode : j.mode = .upsert)
    (challenges : List (Record (Value X))) :
    ∃ target, j.body challenges {} {} = .ok target ∧
      ∀ r, r ∈ target.rows ↔ ∃ row ∈ j.rows, r = j.copied row := by
  have hstart : j.start {} = {} := by simp [start]
  by_cases hrows : j.rows = []
  · refine ⟨{}, ?_, ?_⟩
    · simp [body, hrows, hstart]
    · simp [hrows]
  · refine ⟨executeBatches .upsert j.targetColumns (fun _ => {}) {} 0 {} j.batches, ?_, ?_⟩
    · have honce : ¬ j.Reinserts {} := by simp [Reinserts]
      simp [body, hrows, hstart, honce, hmode]
    · intro r
      rw [mem_executeBatches_clean j.pk_columns' j.separate_batches, flatten_jobBatches]
      simp only [List.mem_map, exists_exists_and_eq_and]
      rfl

/-- A run into empty tables succeeds and copies the rows of every task. -/
theorem migrate_clean (jobs : List (Job X pks direction)) (hmode : ∀ j ∈ jobs, j.mode = .upsert)
    (htargets : (jobs.map fun j => j.target).Nodup) (i : Nat) (db : Database X pks)
    (hempty : ∀ j ∈ jobs, db j.target = {}) :
    (migrate (fun _ _ => {}) i jobs db).2 = true ∧
      ∀ j ∈ jobs, ∀ r, r ∈ ((migrate (fun _ _ => {}) i jobs db).1 j.target).rows ↔
        ∃ row ∈ j.rows, r = j.copied row := by
  induction jobs generalizing i db with
  | nil => exact ⟨rfl, fun j hj => absurd hj List.not_mem_nil⟩
  | cons j rest ih =>
    rw [List.map_cons, List.nodup_cons] at htargets
    obtain ⟨target, hbody, hrows⟩ :=
      j.body_clean (hmode j List.mem_cons_self) (db "challenges").rows
    have htask : processTask j (fun _ => {}) db =
        (Function.update db j.target target, .returned true) := by
      rw [← hempty j List.mem_cons_self] at hbody
      simp only [processTask, retry, attemptTask, hbody]
    have hne : ∀ j' ∈ rest, j'.target ≠ j.target := by
      intro j' hj' heq
      exact htargets.1 (List.mem_map.mpr ⟨j', hj', heq⟩)
    have hrest : ∀ j' ∈ rest, Function.update db j.target target j'.target = {} := by
      intro j' hj'
      rw [Function.update_of_ne (hne j' hj')]
      exact hempty j' (List.mem_cons_of_mem _ hj')
    obtain ⟨hsuccess, hothers⟩ := ih (fun j' hj' => hmode j' (List.mem_cons_of_mem _ hj'))
      htargets.2 (i + 1) _ hrest
    have hcons : migrate (fun _ _ => {}) i (j :: rest) db =
        migrate (fun _ _ => {}) (i + 1) rest (Function.update db j.target target) := by
      rw [migrate, htask]
      simp
    rw [hcons]
    refine ⟨hsuccess, fun j' hj' => ?_⟩
    rcases List.mem_cons.mp hj' with rfl | hj'
    · rw [migrate_of_notMem _ _ _ _ j'.target fun j'' hj'' heq => hne j'' hj'' heq.symm,
        Function.update_self]
      exact hrows
    · exact hothers j' hj'

end Clean

section Run

variable [DecidableEq X] (direction : Direction) (file : MappingFile X) (source : Content X)
variable (target : Schema X)

def jobs : List (Job X ids direction) := file.tasks.map fun t => t.job direction source target

theorem jobs_targets : ((jobs direction file source target).map fun j => j.target).Nodup := by
  rw [jobs, List.map_map]
  exact file.nodup

/-- A run into the empty tables of a schema in which every statement succeeds. -/
def migrated : Database X ids × Bool :=
  migrate (fun _ _ => {}) 0 (jobs direction file source target) fun _ => {}

theorem migrated_clean : (migrated direction file source target).2 = true ∧
    ∀ t ∈ file.tasks, ∀ r, r ∈ ((migrated direction file source target).1 t.table).rows ↔
      ∃ row ∈ (source.rows t.table).rows, r = (t.job direction source target).copied row := by
  have hmode : ∀ j ∈ jobs direction file source target, j.mode = .upsert := by
    intro j hj
    obtain ⟨t, -, rfl⟩ := List.mem_map.mp hj
    rfl
  obtain ⟨hsuccess, hrows⟩ := migrate_clean (jobs direction file source target) hmode
    (jobs_targets direction file source target) 0 (fun _ => {}) fun _ _ => rfl
  exact ⟨hsuccess, fun t ht => hrows _ (List.mem_map_of_mem ht)⟩

/-- The target after a run. -/
def run : Content X where
  schema := target.after direction
  rows := (migrated direction file source target).1
  shaped := by
    intro table r hr c
    by_cases htable : ∃ t ∈ file.tasks, t.table = table
    · obtain ⟨t, ht, rfl⟩ := htable
      obtain ⟨row, -, rfl⟩ := ((migrated_clean direction file source target).2 t ht r).mp hr
      rw [Job.get_copied _ ((target.after direction).nodup t.table), get_defaults,
        Option.isSome_map, Option.isSome_map]
      rfl
    · have hnone : (migrated direction file source target).1 table = {} := by
        refine migrate_of_notMem _ _ _ _ table fun j hj heq => htable ?_
        obtain ⟨t, ht, rfl⟩ := List.mem_map.mp hj
        exact ⟨t, ht, heq.symm⟩
      rw [hnone] at hr
      cases hr

theorem mem_run {t : Copy X} (ht : t ∈ file.tasks) (r : Record (Value X)) :
    r ∈ ((run direction file source target).rows t.table).rows ↔
      ∃ row ∈ (source.rows t.table).rows, r = (t.job direction source target).copied row :=
  (migrated_clean direction file source target).2 t ht r

theorem get_copied_job (t : Copy X) {p : String × String} (hp : p ∈ t.sources)
    (row : Record (Value X)) :
    ((t.job direction source target).copied row).get p.1 =
      (findColumn ((target.after direction).columns t.table) p.1).map fun c =>
        (row.get p.2).getD c.omitted := by
  rw [Job.get_copied _ ((target.after direction).nodup t.table)]
  have hget : Record.get (t.job direction source target).columns p.1 = some (.fromColumn p.2) :=
    t.get_columns hp
  rw [hget]
  rfl

end Run

section Tables

/-- The two tasks of every table. -/
def tables (X : Type) : List (Copy X × Copy X) :=
  mappingFctfToCtfd.tasks.zip mappingCtfdToFctf.tasks

/-- The FCTF columns that the first task reads and the second one writes with a `from` entry. -/
def sharedColumns (p : Copy X × Copy X) : List String :=
  (p.2.sources.map Prod.fst).filter fun c => c ∈ p.1.sources.map Prod.snd

theorem mem_same {names : List String} {a b : String} :
    (a, b) ∈ same names ↔ a ∈ names ∧ a = b := by
  simp only [same, List.mem_map, Prod.mk.injEq]
  constructor
  · rintro ⟨c, hc, rfl, rfl⟩
    exact ⟨hc, rfl⟩
  · rintro ⟨ha, rfl⟩
    exact ⟨a, ha, rfl, rfl⟩

theorem mem_zip_mapping {challenges challenges' dynamic dynamic' : Copy X} :
    ∀ p ∈ (mapping challenges dynamic).zip (mapping challenges' dynamic'),
      p = (challenges, challenges') ∨ p = (dynamic, dynamic') ∨
        (p.1 = p.2 ∧ p.1.table ≠ "dynamic_challenge" ∧ ∀ q ∈ p.1.sources, q.1 = q.2) := by
  simp [mapping, mem_same]

/-- All tasks but those for `dynamic_challenge` copy columns into columns of the same names. -/
theorem tables_cases {p : Copy X × Copy X} (hp : p ∈ tables X) :
    p = (dynamicChallengeToCtfd, dynamicChallengeToFctf) ∨
      (p.2.table = p.1.table ∧ p.1.table ≠ "dynamic_challenge" ∧
        ∀ c ∈ sharedColumns p, (c, c) ∈ p.1.sources ∧ (c, c) ∈ p.2.sources) := by
  have hshared : p.1.sources = p.2.sources → (∀ q ∈ p.1.sources, q.1 = q.2) →
      ∀ c ∈ sharedColumns p, (c, c) ∈ p.1.sources ∧ (c, c) ∈ p.2.sources := by
    intro hsources hsame c hc
    obtain ⟨q, hq, rfl⟩ := List.mem_map.mp (List.mem_of_mem_filter hc)
    rw [← hsources] at hq ⊢
    have hqq : q = (q.1, q.1) := Prod.ext rfl (hsame q hq).symm
    rw [hqq] at hq
    exact ⟨hq, hq⟩
  rcases mem_zip_mapping p hp with rfl | rfl | ⟨heq, htable, hsame⟩
  · refine Or.inr ⟨rfl, by simp [challengesToCtfd], hshared rfl ?_⟩
    rintro ⟨a, b⟩ hq
    exact (mem_same.mp hq).2
  · exact Or.inl rfl
  · exact Or.inr ⟨congrArg Copy.table heq.symm, htable,
      hshared (congrArg Copy.sources heq) hsame⟩

theorem tables_mem {p : Copy X × Copy X} (hp : p ∈ tables X) :
    p.1 ∈ mappingFctfToCtfd.tasks ∧ p.2 ∈ mappingCtfdToFctf.tasks ∧ p.2.table = p.1.table := by
  obtain ⟨hfirst, hsecond⟩ := List.of_mem_zip hp
  refine ⟨hfirst, hsecond, ?_⟩
  rcases tables_cases hp with rfl | ⟨htable, -, -⟩
  · rfl
  · exact htable

theorem id_shared (p : Copy X × Copy X) : "id" ∈ sharedColumns p := by
  refine List.mem_filter.mpr ⟨List.mem_map_of_mem p.2.id, ?_⟩
  exact decide_eq_true (List.mem_map_of_mem p.1.id)

/-- The table in between does not have the column that the second task reads. -/
def Lost (ctfd : Schema X) (table c : String) : Prop :=
  if table = "dynamic_challenge" then c ≠ "id" else findColumn (ctfd.columns table) c = none

instance decidableLost (ctfd : Schema X) (table c : String) :
    Decidable (Lost ctfd table c) :=
  inferInstanceAs (Decidable (ite _ _ _))

theorem not_lost_id (ctfd : Schema X) (table : String) : ¬ Lost ctfd table "id" := by
  intro h
  unfold Lost at h
  split at h
  · exact h rfl
  · have hid := ctfd.id table
    rw [get_defaults, h] at hid
    cases hid

/-- The columns that the second file reads are not those of the table created anew. -/
theorem dynamicChallenge_missing : ∀ q ∈ (dynamicChallengeToFctf (X := X)).sources, q.1 ≠ "id" →
    findColumn (X := X) dynamicChallengeColumns q.2 = none := by
  simp [dynamicChallengeToFctf, dynamicChallengeColumns, findColumn]

end Tables

section RoundTrip

variable [DecidableEq X] (fctf : Content X) (ctfd : Schema X)

/-- The CTFd database after the first run. -/
def ctfdContent : Content X := run .fctfToCtfd mappingFctfToCtfd fctf ctfd

/-- The FCTF database after a run to CTFd and a run back into an empty FCTF schema. -/
def roundTrip : Content X :=
  run .ctfdToFctf mappingCtfdToFctf (ctfdContent fctf ctfd) fctf.schema

/-- The table has the same rows as before on the shared columns. -/
def Reproduced (p : Copy X × Copy X) : Prop :=
  ∀ values : List (Option (Value X)),
    (∃ r ∈ (fctf.rows p.1.table).rows, Record.key (sharedColumns p) r = values) ↔
      ∃ r ∈ ((roundTrip fctf ctfd).rows p.2.table).rows, Record.key (sharedColumns p) r = values

variable (p : Copy X × Copy X)

/-- The row that both runs make of a row. -/
def bothCopied (r : Record (Value X)) : Record (Value X) :=
  (p.2.job .ctfdToFctf (ctfdContent fctf ctfd) fctf.schema).copied
    ((p.1.job .fctfToCtfd fctf ctfd).copied r)

theorem mem_roundTrip (hp : p ∈ tables X) (r' : Record (Value X)) :
    r' ∈ ((roundTrip fctf ctfd).rows p.2.table).rows ↔
      ∃ r ∈ (fctf.rows p.1.table).rows, r' = bothCopied fctf ctfd p r := by
  obtain ⟨hfirst, hsecond, htable⟩ := tables_mem hp
  rw [roundTrip, mem_run _ _ _ _ hsecond, htable]
  constructor
  · rintro ⟨row, hrow, rfl⟩
    obtain ⟨r, hr, rfl⟩ := (mem_run _ _ _ _ hfirst row).mp hrow
    exact ⟨r, hr, rfl⟩
  · rintro ⟨r, hr, rfl⟩
    exact ⟨_, (mem_run _ _ _ _ hfirst _).mpr ⟨r, hr, rfl⟩, rfl⟩

variable {p}

/-- A column that is mapped through a column of the same name in between. -/
theorem get_bothCopied_same {c : String} (hfirst : (c, c) ∈ p.1.sources)
    (hsecond : (c, c) ∈ p.2.sources) (htable : p.2.table = p.1.table) {r : Record (Value X)}
    (hr : r ∈ (fctf.rows p.1.table).rows) :
    (bothCopied fctf ctfd p r).get c =
      if findColumn ((ctfd.after .fctfToCtfd).columns p.1.table) c = none then
        (findColumn (fctf.schema.columns p.1.table) c).map Column.omitted
      else r.get c := by
  have hshape := fctf.shaped p.1.table r hr c
  rw [get_defaults, Option.isSome_map] at hshape
  have hafter : (fctf.schema.after .ctfdToFctf).columns p.2.table =
      fctf.schema.columns p.1.table := by
    rw [htable]
    simp [Schema.after]
  rw [bothCopied, get_copied_job _ _ _ p.2 hsecond, get_copied_job _ _ _ p.1 hfirst, hafter]
  cases hbetween : findColumn ((ctfd.after .fctfToCtfd).columns p.1.table) c with
  | none => simp
  | some column =>
    cases hown : findColumn (fctf.schema.columns p.1.table) c with
    | none =>
      rw [hown] at hshape
      have hnone : r.get c = none := by simpa using hshape
      simp [hnone]
    | some own =>
      rw [hown] at hshape
      obtain ⟨v, hv⟩ := Option.isSome_iff_exists.mp hshape
      simp [hv]

/-- What a row has in a shared column after both runs. -/
theorem get_bothCopied (hp : p ∈ tables X) {c : String} (hc : c ∈ sharedColumns p)
    {r : Record (Value X)} (hr : r ∈ (fctf.rows p.1.table).rows) :
    (bothCopied fctf ctfd p r).get c =
      if Lost ctfd p.1.table c then
        (findColumn (fctf.schema.columns p.1.table) c).map Column.omitted
      else r.get c := by
  rcases tables_cases hp with rfl | ⟨htable, hdynamic, hsources⟩
  · by_cases hid : c = "id"
    · subst hid
      rw [get_bothCopied_same fctf ctfd (Copy.id _) (Copy.id _) rfl hr, if_neg (not_lost_id _ _)]
      rfl
    · obtain ⟨q, hq, rfl⟩ := List.mem_map.mp (List.mem_of_mem_filter hc)
      have hmissing :
          ((dynamicChallengeToCtfd.job .fctfToCtfd fctf ctfd).copied r).get q.2 = none := by
        rw [Job.get_copied _ ((ctfd.after .fctfToCtfd).nodup "dynamic_challenge")]
        exact congrArg (Option.map _) (dynamicChallenge_missing q hq hid)
      have hlost : Lost ctfd "dynamic_challenge" q.1 := hid
      refine Eq.trans ?_ (if_pos hlost).symm
      rw [bothCopied, get_copied_job _ _ _ _ hq, hmissing]
      rfl
  · obtain ⟨hfirst, hsecond⟩ := hsources c hc
    rw [get_bothCopied_same fctf ctfd hfirst hsecond htable hr]
    simp [Schema.after, hdynamic, Lost]

/-- A database comes back from CTFd, table by table and on every column that both files carry,
if and only if every value of a lost column is what FCTF puts there on its own. -/
theorem roundTrip_iff :
    (∀ p ∈ tables X, Reproduced fctf ctfd p) ↔
      ∀ p ∈ tables X, ∀ c ∈ sharedColumns p, Lost ctfd p.1.table c →
        ∀ r ∈ (fctf.rows p.1.table).rows,
          r.get c = (findColumn (fctf.schema.columns p.1.table) c).map Column.omitted := by
  refine forall₂_congr fun p hp => ?_
  constructor
  · intro hsame c hc hlost r hr
    -- The id finds the row that a copied row equals.
    obtain ⟨r', hr', hkey⟩ := (hsame (Record.key (sharedColumns p) (bothCopied fctf ctfd p r))).mpr
      ⟨_, (mem_roundTrip fctf ctfd p hp _).mpr ⟨r, hr, rfl⟩, rfl⟩
    have hid := Record.get_of_key hkey (id_shared p)
    rw [get_bothCopied fctf ctfd hp (id_shared p) hr, if_neg (not_lost_id ctfd _)] at hid
    obtain rfl : r' = r := List.inj_on_of_nodup_map (fctf.rows p.1.table).nodup hr' hr
      (congrArg (fun value => [value]) hid)
    have hvalue := Record.get_of_key hkey hc
    rw [get_bothCopied fctf ctfd hp hc hr', if_pos hlost] at hvalue
    exact hvalue
  · intro hvalues
    have hkey : ∀ r ∈ (fctf.rows p.1.table).rows,
        Record.key (sharedColumns p) (bothCopied fctf ctfd p r) =
          Record.key (sharedColumns p) r := by
      intro r hr
      refine Record.key_congr fun c hc => ?_
      rw [get_bothCopied fctf ctfd hp hc hr]
      split
      · rename_i hlost
        exact (hvalues c hc hlost r hr).symm
      · rfl
    intro values
    constructor
    · rintro ⟨r, hr, rfl⟩
      exact ⟨_, (mem_roundTrip fctf ctfd p hp _).mpr ⟨r, hr, rfl⟩, hkey r hr⟩
    · rintro ⟨r', hr', rfl⟩
      obtain ⟨r, hr, rfl⟩ := (mem_roundTrip fctf ctfd p hp r').mp hr'
      exact ⟨r, hr, (hkey r hr).symm⟩

end RoundTrip

section Example

/-- Both databases with the columns of the mapping files. -/
def mappedSchema : Schema Empty where
  columns table :=
    match (mappingFctfToCtfd (X := Empty)).tasks.find? fun t => t.table = table with
    | some t => t.sources.map fun q => { name := q.1, type := "TEXT" }
    | none => [⟨"id", "INTEGER", false, none⟩]
  nodup := by
    intro table
    split
    · rename_i t _
      simpa [Function.comp_def] using (List.nodup_append'.mp t.nodup).1
    · simp
  id := by
    intro table
    split
    · rename_i t _
      rw [Record.isSome_get_congr (s := t.sources) (by simp [defaults])]
      exact List.lookup_isSome_iff.mpr ⟨_, t.id, by simp⟩
    · rfl

/-- Challenge 1 is dynamic and starts with 500 points. -/
def oneDynamicChallenge : Content Empty where
  schema := mappedSchema
  rows table :=
    if table = "challenges" then
      { rows := [[("id", .int 1), ("name", .text "rsa"), ("description", .null),
          ("max_attempts", .int 0), ("value", .int 500), ("category", .text "crypto"),
          ("type", .text "dynamic"), ("state", .text "visible"), ("requirements", .null),
          ("connection_info", .null), ("next_id", .null)]] }
    else if table = "dynamic_challenge" then
      { rows := [[("id", .int 1), ("initial", .int 500), ("minimum", .int 100), ("decay", .int 20),
          ("function", .text "linear")]] }
    else {}
  shaped := by
    intro table r hr c
    split at hr
    · rename_i htable
      subst htable
      obtain rfl := List.mem_singleton.mp hr
      exact Record.isSome_get_congr (by decide) c
    · split at hr
      · rename_i htable
        subst htable
        obtain rfl := List.mem_singleton.mp hr
        exact Record.isSome_get_congr (by decide) c
      · cases hr

/-- Challenge 1 comes back without its points. -/
theorem points_not_reproduced :
    ¬ ∀ (fctf : Content Empty) (ctfd : Schema Empty), ∀ p ∈ tables Empty,
      Reproduced fctf ctfd p := by
  intro h
  have hmem : (dynamicChallengeToCtfd, dynamicChallengeToFctf) ∈ tables Empty := by
    simp [tables, mappingFctfToCtfd, mappingCtfdToFctf, mapping]
  obtain ⟨r', hr', hkey⟩ := (h oneDynamicChallenge mappedSchema _ hmem _).mp
    ⟨_, List.mem_singleton_self _, rfl⟩
  obtain ⟨r, hr, rfl⟩ := (mem_roundTrip _ _ _ hmem r').mp hr'
  obtain rfl := List.mem_singleton.mp hr
  exact absurd hkey (by decide)

end Example

end Fctf.Migration
