import Fctf.Lib.Record
import Fctf.Lib.Table
import Mathlib.Logic.Function.Basic

/-!
The migration tool. A task copies one table: its rows are mapped column by column, collected in
batches and stored with an INSERT for the new ones and an UPDATE for each changed one. What the
server refuses is chosen from outside, statement by statement. The `preSQL` and `postSQL` of the
mapping files only switch the foreign key checks of the session.
-/

namespace Fctf.Migration

inductive Direction
  | fctfToCtfd
  | ctfdToFctf
  deriving DecidableEq, Repr

/-- What a cell holds. Python takes `False`, `0` and `0.0` for equal. -/
inductive Value (X : Type)
  | null
  | int (n : Int)
  | text (s : String)
  /-- A date, a document, any other kind of value. -/
  | other (x : X)
  deriving DecidableEq, Repr

/-- The entry of a target column in a mapping file. -/
inductive Mapping (X : Type)
  | fromColumn (column : String)
  | const (value : Value X)
  deriving DecidableEq, Repr

inductive Mode
  | insert
  | upsert
  | other
  deriving DecidableEq, Repr

/-- A reflected column. -/
structure Column (X : Type) where
  name : String
  type : String
  nullable : Bool := true
  serverDefault : Option (Value X) := none

/-- A task of a mapping file; `pks` has the primary key of every target table. The key of the
target is mapped from the key of the source. -/
structure Task (X : Type) (pks : String → List String) where
  source : String
  target : String
  sourcePk : List String
  mode : Mode := .upsert
  columns : List (String × Mapping X)
  columns_nodup : (columns.map Prod.fst).Nodup := by decide
  pk_ne_nil : pks target ≠ [] := by decide
  pk_mapped : (pks target).map (Record.get columns) =
    sourcePk.map fun c => some (.fromColumn c) := by decide

/-- The table that is dropped and created anew before it is filled. -/
def dynamicChallengeColumns {X : Type} : List (Column X) :=
  [⟨"id", "INTEGER", false, none⟩, ⟨"initial", "INTEGER", true, none⟩,
    ⟨"minimum", "INTEGER", true, none⟩, ⟨"decay", "INTEGER", true, none⟩,
    ⟨"function", "VARCHAR(32)", true, none⟩]

section Columns

variable {X : Type}

/-- The value for a required column that has none. -/
def Column.filler (c : Column X) : Value X :=
  if c.type.startsWith "VARCHAR" || c.type.startsWith "TEXT" then .text ""
  else if c.type.startsWith "INT" || c.type.startsWith "BIGINT" then .int 0
  else if c.type.startsWith "FLOAT" || c.type.startsWith "DECIMAL" then .int 0
  else if c.type.startsWith "BOOL" then .int 0
  else .text ""

def Column.required (c : Column X) : Bool := !c.nullable && c.serverDefault.isNone

/-- What the server puts into a column that a statement does not name. -/
def Column.stored (c : Column X) : Value X := c.serverDefault.getD .null

def defaults (columns : List (Column X)) : Record (Value X) :=
  columns.map fun c => (c.name, c.stored)

def Mapping.value (row : Record (Value X)) : Mapping X → Option (Value X)
  | .fromColumn column => row.get column
  | .const value => some value

/-- `_map_rows_for_target` for one row: a column that the target or the source does not have is
skipped. -/
def mapRow (mapping : List (String × Mapping X)) (columns : List (Column X))
    (row : Record (Value X)) : Record (Value X) :=
  mapping.filterMap fun p =>
    (if ((defaults columns).get p.1).isSome then p.2.value row else none).map fun v => (p.1, v)

def targetData (mapping : List (String × Mapping X)) (columns : List (Column X))
    (row : Record (Value X)) : Record (Value X) :=
  let mapped := mapRow mapping columns row
  mapped ++ columns.filterMap fun c =>
    if (mapped.get c.name).isNone && c.required then some (c.name, c.filler) else none

/-- Rows are collected until a batch is full; the last batch may be smaller. -/
def batches (size : Nat) : List (Record (Value X)) → List (Record (Value X)) →
    List (List (Record (Value X)))
  | [], [] => []
  | batch, [] => [batch]
  | batch, data :: rest =>
    if size ≤ (batch ++ [data]).length then (batch ++ [data]) :: batches size [] rest
    else batches size (batch ++ [data]) rest

end Columns

/-- A statement of `_execute_batch`. -/
inductive Statement (X : Type)
  | check
  | insert (rows : List (Record (Value X)))
  | update (row : Record (Value X))

/-- What the server does to the statements of a batch: it refuses one of them. A refused INSERT
may have stored its first rows, and with the error the server may roll the transaction back. -/
structure BatchFault where
  refused : Option Nat := none
  stored : Nat := 0
  rollsBack : Bool := false

section Batch

variable {X : Type} [DecidableEq X] {pk : List String}

abbrev Rows (X : Type) [DecidableEq X] (pk : List String) : Type :=
  Table (Record.key (V := Value X) pk)

def hasChanges (pk : List String) (existing data : Record (Value X)) : Bool :=
  data.any fun p => decide (p.1 ∉ pk) && (existing.get p.1).any fun old => decide (old ≠ p.2)

/-- The statements for a batch, which is never empty, classified by the rows that exist. -/
def statements (mode : Mode) (target : Rows X pk) (batch : List (Record (Value X))) :
    List (Statement X) :=
  match mode with
  | .insert => [.insert batch]
  | .upsert =>
    let toInsert := batch.filter fun d => (target.find (Record.key pk d)).isNone
    let toUpdate := batch.filter fun d =>
      (target.find (Record.key pk d)).any fun existing => hasChanges pk existing d
    .check :: ((if toInsert = [] then [] else [.insert toInsert]) ++ toUpdate.map .update)
  | .other => []

/-- The rows that the server takes from the statements, from the `i`th on, and whether it rolls
the transaction back. An INSERT fails at a key that is taken; the error of a statement ends the
batch and goes no further. -/
def executed (target : Rows X pk) (fault : BatchFault) :
    Nat → List (Statement X) → List (Record (Value X)) × Bool
  | _, [] => ([], false)
  | i, .check :: rest =>
    if fault.refused = some i then ([], fault.rollsBack) else executed target fault (i + 1) rest
  | i, .insert rows :: rest =>
    let free := rows.takeWhile fun d => (target.find (Record.key pk d)).isNone
    if fault.refused = some i then (free.take fault.stored, fault.rollsBack)
    else if free = rows then
      let (later, rolledBack) := executed target fault (i + 1) rest
      (rows ++ later, rolledBack)
    else (free.take fault.stored, false)
  | i, .update row :: rest =>
    if fault.refused = some i then ([], fault.rollsBack)
    else
      let (later, rolledBack) := executed target fault (i + 1) rest
      (row :: later, rolledBack)

/-- An INSERT where the key is free and an UPDATE where it is taken. -/
def store (columns : List (Column X)) (target : Rows X pk) (data : Record (Value X)) : Rows X pk :=
  target.put (Record.write (defaults columns) data ((target.find (Record.key pk data)).getD []))

def executeBatch (mode : Mode) (columns : List (Column X)) (target : Rows X pk)
    (fault : BatchFault) (batch : List (Record (Value X))) : Rows X pk × Bool :=
  let (rows, rolledBack) := executed target fault 0 (statements mode target batch)
  (rows.foldl (store columns) target, rolledBack)

/-- The batches in one transaction that began with the rows `start`. -/
def executeBatches (mode : Mode) (columns : List (Column X)) (fault : Nat → BatchFault)
    (start : Rows X pk) : Nat → Rows X pk → List (List (Record (Value X))) → Rows X pk
  | _, target, [] => target
  | i, target, batch :: rest =>
    let (target', rolledBack) := executeBatch mode columns target (fault i) batch
    executeBatches mode columns fault start (i + 1) (if rolledBack then start else target') rest

end Batch

/-- The answer of `information_schema` for the foreign key of `dynamic_challenge`. -/
inductive ForeignKey
  | present
  | absent
  /-- The table is missing or its tablespace is. -/
  | broken
  | error
  deriving DecidableEq, Repr

inductive Rollback
  | ok
  | connectionError
  | otherError
  deriving DecidableEq, Repr

/-- What fails while a task is processed once. Where the table is created anew, the error comes
before or after the `DROP`. -/
structure Faults where
  rebuild : Option Bool := none
  read : Bool := false
  batch : Nat → BatchFault := fun _ => {}
  commit : Bool := false
  foreignKey : ForeignKey := .present
  again : Option Bool := none
  rollback : Rollback := .ok

/-- A task with what it finds: the columns of its target and the rows of its source. -/
structure Job (X : Type) (pks : String → List String) (direction : Direction) extends
    Task X pks where
  reflected : List (Column X)
  rows : List (Record (Value X))
  rows_pk : ∀ row ∈ rows, ∀ c ∈ sourcePk, (row.get c).isSome = true := by decide
  rows_nodup : (rows.map (Record.key sourcePk)).Nodup := by decide
  pk_columns : ∀ c ∈ pks target, (Record.get (defaults
    (if target = "dynamic_challenge" ∧ direction = .fctfToCtfd then dynamicChallengeColumns
      else reflected)) c).isSome = true := by decide

namespace Job

variable {X : Type} [DecidableEq X] {pks : String → List String} {direction : Direction}
variable (j : Job X pks direction)

/-- The table is dropped and created anew. -/
def Rebuilds : Prop := j.target = "dynamic_challenge" ∧ direction = .fctfToCtfd

instance decidableRebuilds : Decidable j.Rebuilds := inferInstanceAs (Decidable (_ ∧ _))

def targetColumns : List (Column X) :=
  if j.Rebuilds then dynamicChallengeColumns else j.reflected

def data (row : Record (Value X)) : Record (Value X) :=
  targetData j.columns j.targetColumns row

def mapped (row : Record (Value X)) : Record (Value X) := mapRow j.columns j.targetColumns row

def batches : List (List (Record (Value X))) := Migration.batches 5000 [] (j.rows.map j.data)

/-- Whether the rows of `dynamic_challenge` are inserted again into a new table. -/
def Reinserts (f : Faults) : Prop :=
  j.Rebuilds ∧ (f.foreignKey = .absent ∨ f.foreignKey = .broken)

instance decidableReinserts (f : Faults) : Decidable (j.Reinserts f) :=
  inferInstanceAs (Decidable (_ ∧ _))

/-- `_filter_dynamic_rows_to_existing_challenges` for one row. -/
def keepsRow (challenges : List (Record (Value X))) (row : Record (Value X)) : Bool :=
  ((j.mapped row).get "id").any fun id =>
    decide (id ≠ .null) && challenges.any fun c => decide (c.get "id" = some id)

def reinserted (challenges : List (Record (Value X))) : Rows X (pks j.target) :=
  ((j.rows.filter (j.keepsRow challenges)).map j.mapped).foldl (store j.targetColumns) {}

/-- The rows that the transaction of the batches starts with. -/
def start (target : Rows X (pks j.target)) : Rows X (pks j.target) :=
  if j.Rebuilds then {} else target

/-- The `try` block of `_process_task`: the target when it returns `True`, and the target that
the rollback leaves when it raises. -/
def body (challenges : List (Record (Value X))) (f : Faults) (target : Rows X (pks j.target)) :
    Except (Rows X (pks j.target)) (Rows X (pks j.target)) :=
  match if j.Rebuilds then f.rebuild else none with
  | some dropped => .error (if dropped then {} else target)
  | none =>
    if f.read then .error (j.start target)
    else if j.rows = [] then .ok (j.start target)
    else
      let stored := executeBatches j.mode j.targetColumns f.batch (j.start target) 0
        (j.start target) j.batches
      if f.commit then .error (j.start target)
      else if j.Reinserts f then
        match f.again with
        | some dropped => .error (if dropped then {} else stored)
        | none => .ok (j.reinserted challenges)
      else if j.Rebuilds ∧ f.foreignKey = .error then .error stored
      else .ok stored

end Job

/-- How a call ends. -/
inductive Outcome (α : Type)
  | returned (a : α)
  | connectionError
  | raised
  deriving DecidableEq, Repr

/-- `retry_on_connection_error`: a call that ends with a connection error is made again. -/
def retry {σ α : Type} (call : Nat → σ → σ × Outcome α) : Nat → Nat → σ → σ × Outcome α
  | 0, _, s => (s, .connectionError)
  | left + 1, attempt, s =>
    match call attempt s with
    | (s', .connectionError) => retry call left (attempt + 1) s'
    | done => done

/-- The rows of every table. -/
abbrev Database (X : Type) [DecidableEq X] (pks : String → List String) : Type :=
  (name : String) → Rows X (pks name)

section Migrate

variable {X : Type} [DecidableEq X] {pks : String → List String} {direction : Direction}

/-- `_process_task` once: every exception is caught, but the rollback after it may raise. -/
def attemptTask (j : Job X pks direction) (f : Faults) (db : Database X pks) :
    Database X pks × Outcome Bool :=
  match j.body (db "challenges").rows f (db j.target) with
  | .ok target => (Function.update db j.target target, .returned true)
  | .error target => (Function.update db j.target target,
      match f.rollback with
      | .ok => .returned false
      | .connectionError => .connectionError
      | .otherError => .raised)

def processTask (j : Job X pks direction) (faults : Nat → Faults) (db : Database X pks) :
    Database X pks × Outcome Bool :=
  retry (fun attempt => attemptTask j (faults attempt)) 3 0 db

/-- The tasks in their order, and whether none has failed. -/
def migrate (faults : Nat → Nat → Faults) :
    Nat → List (Job X pks direction) → Database X pks → Database X pks × Bool
  | _, [], db => (db, true)
  | i, j :: rest, db =>
    match processTask j (faults i) db with
    | (db', .returned success) =>
      let (final, others) := migrate faults (i + 1) rest db'
      (final, success && others)
    | (db', _) => (db', false)

end Migrate

end Fctf.Migration
