import Fctf.Migration.Moved

/-!
The two mapping files. Every task copies a table into the table of the same name by its `id`; the
files differ in the tasks for `challenges` and `dynamic_challenge`.
-/

namespace Fctf.Migration

/-- Every table has the primary key `id`. -/
def ids : String → List String := fun _ => ["id"]

/-- Columns that are mapped from the columns of the same names. -/
def same (names : List String) : List (String × String) := names.map fun c => (c, c)

/-- A task of the mapping files: the columns with a `from` entry, each with its source column,
and those with a `const` entry. -/
structure Copy (X : Type) where
  table : String
  sources : List (String × String)
  consts : List (String × Value X) := []
  nodup : (sources.map Prod.fst ++ consts.map Prod.fst).Nodup := by simp [same]
  id : ("id", "id") ∈ sources := by simp [same]

namespace Copy

variable {X : Type} (t : Copy X)

def columns : List (String × Mapping X) :=
  t.sources.map (fun p => (p.1, .fromColumn p.2)) ++ t.consts.map fun p => (p.1, .const p.2)

theorem columns_nodup : (t.columns.map Prod.fst).Nodup := by
  have hnames : t.columns.map Prod.fst = t.sources.map Prod.fst ++ t.consts.map Prod.fst := by
    simp [columns, Function.comp_def]
  rw [hnames]
  exact t.nodup

theorem get_columns {p : String × String} (hp : p ∈ t.sources) :
    Record.get t.columns p.1 = some (.fromColumn p.2) :=
  Record.get_of_mem t.columns_nodup
    (List.mem_append_left _ (List.mem_map.mpr ⟨p, hp, rfl⟩))

theorem id_ne_nil : (["id"] : List String) ≠ [] := List.cons_ne_nil _ _

def task : Task X ids where
  source := t.table
  target := t.table
  sourcePk := ["id"]
  columns := t.columns
  columns_nodup := t.columns_nodup
  pk_ne_nil := id_ne_nil
  pk_mapped := congrArg (fun m => [m]) (t.get_columns t.id)

end Copy

section Files

variable {X : Type}

/-- The columns of `challenges` that both files map. -/
def challengeColumns : List (String × String) :=
  same ["id", "name", "description", "max_attempts", "value", "category", "type", "state",
    "requirements", "connection_info", "next_id"]

def challengesToCtfd : Copy X where
  table := "challenges"
  sources := challengeColumns
  consts := [("require_deploy", .int 0), ("deploy_status", .text "CREATED"), ("user_id", .int 1),
    ("time_limit", .int (-1)), ("initial", .null), ("minimum", .null), ("decay", .null),
    ("function", .null), ("attribution", .null), ("logic", .text "")]
  nodup := by simp [challengeColumns, same]
  id := by simp [challengeColumns, same]

def challengesToFctf : Copy X where
  table := "challenges"
  sources := challengeColumns
  consts := [("require_deploy", .int 0), ("deploy_status", .text "CREATED"), ("user_id", .int 1)]
  nodup := by simp [challengeColumns, same]
  id := by simp [challengeColumns, same]

def dynamicChallengeToCtfd : Copy X where
  table := "dynamic_challenge"
  sources := same ["id", "initial", "minimum", "decay", "function"]

def dynamicChallengeToFctf : Copy X where
  table := "dynamic_challenge"
  sources := [("id", "id"), ("initial", "dynamic_initial"), ("minimum", "dynamic_minimum"),
    ("decay", "dynamic_decay"), ("function", "dynamic_function")]

/-- The tasks of both files in their order. -/
def mapping (challenges dynamicChallenge : Copy X) : List (Copy X) :=
  [{ table := "brackets", sources := same ["id", "name", "description", "type"] },
    { table := "config", sources := same ["id", "key", "value"] },
    { table := "teams",
      sources := same ["id", "oauth_id", "name", "email", "password", "secret", "website",
        "affiliation", "country", "bracket_id", "hidden", "banned", "captain_id", "created"] },
    { table := "users",
      sources := same ["id", "oauth_id", "name", "password", "email", "type", "secret", "website",
        "affiliation", "country", "hidden", "banned", "verified", "team_id", "created",
        "language", "bracket_id"] },
    challenges,
    dynamicChallenge,
    { table := "flags", sources := same ["id", "challenge_id", "type", "content", "data"] },
    { table := "hints",
      sources := same ["id", "challenge_id", "content", "cost", "requirements", "type"] },
    { table := "tags", sources := same ["id", "challenge_id", "value"] },
    { table := "topics", sources := same ["id", "value"] },
    { table := "challenge_topics", sources := same ["id", "challenge_id", "topic_id"] },
    { table := "submissions",
      sources := same ["id", "challenge_id", "user_id", "team_id", "ip", "provided", "type",
        "date"] },
    { table := "solves", sources := same ["id", "challenge_id", "user_id", "team_id"] },
    { table := "unlocks", sources := same ["id", "user_id", "team_id", "target", "date", "type"] },
    { table := "awards",
      sources := same ["id", "user_id", "team_id", "type", "name", "description", "date", "value",
        "category", "icon", "requirements"] },
    { table := "comments",
      sources := same ["id", "type", "content", "date", "author_id", "challenge_id", "user_id",
        "team_id"] },
    { table := "fields",
      sources := same ["id", "name", "type", "field_type", "description", "required", "public",
        "editable"] },
    { table := "field_entries",
      sources := same ["id", "type", "field_id", "value", "user_id", "team_id"] },
    { table := "files", sources := same ["id", "type", "location", "challenge_id", "sha1sum"] },
    { table := "tracking", sources := same ["id", "type", "ip", "user_id", "date"] }]

/-- A mapping file; its tasks are for different tables. -/
structure MappingFile (X : Type) where
  tasks : List (Copy X)
  nodup : (tasks.map Copy.table).Nodup

def mappingFctfToCtfd : MappingFile X where
  tasks := mapping challengesToCtfd dynamicChallengeToCtfd
  nodup := by simp [mapping, challengesToCtfd, dynamicChallengeToCtfd]

def mappingCtfdToFctf : MappingFile X where
  tasks := mapping challengesToFctf dynamicChallengeToFctf
  nodup := by simp [mapping, challengesToFctf, dynamicChallengeToFctf]

end Files

/-- The columns of every table. -/
structure Schema (X : Type) where
  columns : String → List (Column X)
  nodup : ∀ table, ((columns table).map Column.name).Nodup
  id : ∀ table, ((defaults (columns table)).get "id").isSome = true

/-- A database: every row has the columns of its table. -/
structure Content (X : Type) [DecidableEq X] where
  schema : Schema X
  rows : Database X ids
  shaped : ∀ table, ∀ r ∈ (rows table).rows, ∀ c,
    (r.get c).isSome = ((defaults (schema.columns table)).get c).isSome

/-- The columns after a run: `dynamic_challenge` is created anew on one side. -/
def Schema.after {X : Type} (s : Schema X) (direction : Direction) : Schema X where
  columns table :=
    if table = "dynamic_challenge" ∧ direction = .fctfToCtfd then dynamicChallengeColumns
    else s.columns table
  nodup := by
    intro table
    split
    · simp [dynamicChallengeColumns]
    · exact s.nodup table
  id := by
    intro table
    split
    · rfl
    · exact s.id table

/-- A task with the rows of its source and the columns of its target. -/
def Copy.job {X : Type} [DecidableEq X] (t : Copy X) (direction : Direction) (source : Content X)
    (target : Schema X) : Job X ids direction where
  toTask := t.task
  reflected := target.columns t.table
  rows := (source.rows t.table).rows
  rows_pk := by
    intro row hrow c hc
    obtain rfl := List.mem_singleton.mp hc
    rw [source.shaped t.table row hrow]
    exact source.schema.id t.table
  rows_nodup := (source.rows t.table).nodup
  pk_columns := by
    intro c hc
    obtain rfl := List.mem_singleton.mp hc
    exact (target.after direction).id t.table

end Fctf.Migration
