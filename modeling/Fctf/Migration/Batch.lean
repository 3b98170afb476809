import Fctf.Migration.Migrator

/-!
What the batches of a task leave in its target. Keys of different rows differ, so a batch
changes what is found under the keys of its own rows only, and a row that the server takes is
found afterwards with its new values unless the transaction is rolled back.
-/

namespace Fctf.Migration

variable {X : Type}

section Batches

theorem flatten_batches (size : Nat) (batch rows : List (Record (Value X))) :
    (batches size batch rows).flatten = batch ++ rows := by
  induction rows generalizing batch with
  | nil =>
    cases batch with
    | nil => rfl
    | cons data rest => simp [batches]
  | cons data rest ih =>
    rw [batches]
    split
    · rw [List.flatten_cons, ih, List.nil_append, List.append_assoc, List.singleton_append]
    · rw [ih, List.append_assoc, List.singleton_append]

end Batches

variable [DecidableEq X] {pk : List String}

section Store

variable {columns : List (Column X)} (hpk : ∀ c ∈ pk, ((defaults columns).get c).isSome = true)

/-- What is stored for a row. -/
def stored (columns : List (Column X)) (target : Rows X pk) (data : Record (Value X)) :
    Record (Value X) :=
  Record.write (defaults columns) data ((target.find (Record.key pk data)).getD [])

include hpk

theorem find_store {data : Record (Value X)} (hdata : Record.Keyed pk data) (target : Rows X pk)
    (k : List (Option (Value X))) :
    (store columns target data).find k =
      if k = Record.key pk data then some (stored columns target data) else target.find k := by
  rw [store, Table.find_put, Record.key_write hpk hdata]
  rfl

theorem find_foldl_store_of_ne {rows : List (Record (Value X))}
    (hrows : ∀ d ∈ rows, Record.Keyed pk d) (target : Rows X pk) {k : List (Option (Value X))}
    (hk : ∀ d ∈ rows, Record.key pk d ≠ k) :
    (rows.foldl (store columns) target).find k = target.find k := by
  induction rows generalizing target with
  | nil => rfl
  | cons d rest ih =>
    have hd := hrows d List.mem_cons_self
    have hne : k ≠ Record.key pk d := fun h => hk d List.mem_cons_self h.symm
    rw [List.foldl_cons, ih (fun d' h => hrows d' (List.mem_cons_of_mem _ h)) _
      (fun d' h => hk d' (List.mem_cons_of_mem _ h)), find_store hpk hd, if_neg hne]

theorem find_foldl_store {rows : List (Record (Value X))} (hrows : Record.Separate pk rows)
    (target : Rows X pk) {d : Record (Value X)} (hd : d ∈ rows) :
    (rows.foldl (store columns) target).find (Record.key pk d) =
      some (stored columns target d) := by
  induction rows generalizing target with
  | nil => cases hd
  | cons d' rest ih =>
    have hsplit : Record.Separate pk ([d'] ++ rest) := hrows
    have hd' := hrows.keyed d' List.mem_cons_self
    rw [List.foldl_cons]
    rcases List.mem_cons.mp hd with rfl | hd
    · have hne : ∀ d' ∈ rest, Record.key pk d' ≠ Record.key pk d :=
        fun d' hmem => (hsplit.ne (List.mem_singleton_self _) hmem).symm
      rw [find_foldl_store_of_ne hpk hsplit.right.keyed _ hne, find_store hpk hd', if_pos rfl]
    · have hne := (hsplit.ne (List.mem_singleton_self d') hd).symm
      rw [ih hsplit.right _ hd, stored, find_store hpk hd', if_neg hne]
      rfl

end Store

section Executed

def Statement.rows : Statement X → List (Record (Value X))
  | .check => []
  | .insert rows => rows
  | .update row => [row]

/-- The server takes nothing but rows of the statements, each once. -/
theorem executed_sublist (target : Rows X pk) (fault : BatchFault) (i : Nat)
    (sts : List (Statement X)) :
    (executed target fault i sts).1.Sublist (sts.flatMap Statement.rows) := by
  induction sts generalizing i with
  | nil => exact List.Sublist.refl []
  | cons st rest ih =>
    rw [List.flatMap_cons]
    cases st with
    | check =>
      rw [executed]
      split
      · exact List.nil_sublist _
      · exact (ih (i + 1)).trans (List.sublist_append_right _ _)
    | insert rows =>
      have htaken : ∀ n,
          ((rows.takeWhile fun d => (target.find (Record.key pk d)).isNone).take n).Sublist
          (rows ++ rest.flatMap Statement.rows) := by
        intro n
        exact ((List.take_sublist _ _).trans (List.takeWhile_sublist _)).trans
          (List.sublist_append_left _ _)
      rw [executed]
      split
      · exact htaken _
      · split
        · exact (List.Sublist.refl rows).append (ih (i + 1))
        · exact htaken _
    | update row =>
      rw [executed]
      split
      · exact List.nil_sublist _
      · exact (ih (i + 1)).cons_cons row

theorem rows_upsert (target : Rows X pk) (batch : List (Record (Value X))) :
    (statements .upsert target batch).flatMap Statement.rows =
      batch.filter (fun d => (target.find (Record.key pk d)).isNone) ++
        batch.filter (fun d =>
          (target.find (Record.key pk d)).any fun existing => hasChanges pk existing d) := by
  have hupdates : ∀ rows : List (Record (Value X)),
      (rows.map Statement.update).flatMap Statement.rows = rows := by
    intro rows
    simp [List.flatMap_map, Statement.rows]
  simp only [statements, List.flatMap_cons, List.flatMap_append, hupdates]
  split
  · rename_i hnone
    rw [hnone]
    rfl
  · simp [Statement.rows]

/-- Every row of a batch is in at most one of its statements. -/
theorem rows_statements (mode : Mode) (target : Rows X pk) {batch : List (Record (Value X))}
    (hbatch : Record.Separate pk batch) :
    (((statements mode target batch).flatMap Statement.rows).map (Record.key pk)).Nodup ∧
      ∀ d ∈ (statements mode target batch).flatMap Statement.rows, d ∈ batch := by
  have hkeys := hbatch.nodup
  cases mode with
  | insert => simpa [statements, Statement.rows] using hkeys
  | upsert =>
    rw [rows_upsert, List.map_append]
    constructor
    · refine List.nodup_append'.mpr
        ⟨hkeys.sublist (List.filter_sublist.map _), hkeys.sublist (List.filter_sublist.map _), ?_⟩
      intro k hinsert hupdate
      obtain ⟨d, hd, rfl⟩ := List.mem_map.mp hinsert
      obtain ⟨d', hd', hkey⟩ := List.mem_map.mp hupdate
      have hfree := (List.mem_filter.mp hd).2
      have htaken := (List.mem_filter.mp hd').2
      rw [hkey, Option.isNone_iff_eq_none.mp hfree] at htaken
      cases htaken
    · intro d hd
      rcases List.mem_append.mp hd with h | h
      · exact List.mem_of_mem_filter h
      · exact List.mem_of_mem_filter h
  | other => simp [statements]

theorem mem_of_executed {mode : Mode} {target : Rows X pk} {fault : BatchFault}
    {batch : List (Record (Value X))} (hbatch : Record.Separate pk batch) {d : Record (Value X)}
    (hd : d ∈ (executed target fault 0 (statements mode target batch)).1) : d ∈ batch :=
  (rows_statements mode target hbatch).2 d ((executed_sublist target fault 0 _).subset hd)

theorem executed_separate (mode : Mode) (target : Rows X pk) (fault : BatchFault)
    {batch : List (Record (Value X))} (hbatch : Record.Separate pk batch) :
    Record.Separate pk (executed target fault 0 (statements mode target batch)).1 where
  keyed d hd := hbatch.keyed d (mem_of_executed hbatch hd)
  nodup := (rows_statements mode target hbatch).1.sublist
    ((executed_sublist target fault 0 _).map _)

end Executed

section Agree

/-- Two targets with the same rows under the keys of some data. -/
def AgreeOn (target target' : Rows X pk) (rows : List (Record (Value X))) : Prop :=
  ∀ d ∈ rows, target.find (Record.key pk d) = target'.find (Record.key pk d)

variable {target target' : Rows X pk}

theorem AgreeOn.mono {rows rows' : List (Record (Value X))} (h : AgreeOn target target' rows')
    (hsub : ∀ d ∈ rows, d ∈ rows') : AgreeOn target target' rows :=
  fun d hd => h d (hsub d hd)

theorem statements_congr (mode : Mode) {batch : List (Record (Value X))}
    (h : AgreeOn target target' batch) :
    statements mode target batch = statements mode target' batch := by
  cases mode with
  | insert => rfl
  | upsert =>
    have hinsert : batch.filter (fun d => (target.find (Record.key pk d)).isNone) =
        batch.filter fun d => (target'.find (Record.key pk d)).isNone :=
      List.filter_congr fun d hd => by rw [h d hd]
    have hupdate : (batch.filter fun d =>
          (target.find (Record.key pk d)).any fun existing => hasChanges pk existing d) =
        batch.filter fun d =>
          (target'.find (Record.key pk d)).any fun existing => hasChanges pk existing d :=
      List.filter_congr fun d hd => by rw [h d hd]
    simp only [statements, hinsert, hupdate]
  | other => rfl

theorem takeWhile_free_congr {rows : List (Record (Value X))} (h : AgreeOn target target' rows) :
    (rows.takeWhile fun d => (target.find (Record.key pk d)).isNone) =
      rows.takeWhile fun d => (target'.find (Record.key pk d)).isNone := by
  induction rows with
  | nil => rfl
  | cons d rest ih =>
    rw [List.takeWhile_cons, List.takeWhile_cons, h d List.mem_cons_self,
      ih (h.mono fun d' hd' => List.mem_cons_of_mem _ hd')]

theorem executed_congr (fault : BatchFault) (i : Nat) {sts : List (Statement X)}
    (h : AgreeOn target target' (sts.flatMap Statement.rows)) :
    executed target fault i sts = executed target' fault i sts := by
  induction sts generalizing i with
  | nil => rfl
  | cons st rest ih =>
    rw [List.flatMap_cons] at h
    have ih := fun i => ih i (h.mono fun d hd => List.mem_append_right _ hd)
    cases st with
    | check => rw [executed, executed, ih]
    | insert rows =>
      have hrows : AgreeOn target target' rows := h.mono fun d hd => List.mem_append_left _ hd
      rw [executed, executed, ih, takeWhile_free_congr hrows]
    | update row => rw [executed, executed, ih]

theorem executed_statements_congr (mode : Mode) (fault : BatchFault)
    {batch : List (Record (Value X))} (hbatch : Record.Separate pk batch)
    (h : AgreeOn target target' batch) :
    executed target fault 0 (statements mode target batch) =
      executed target' fault 0 (statements mode target' batch) := by
  rw [statements_congr mode h]
  exact executed_congr fault 0 (h.mono (rows_statements mode target' hbatch).2)

end Agree

section Saved

/-- The rows whose statements are carried out and not rolled back later, and whether the
transaction is rolled back; every batch is classified by the rows at the start. -/
def saved (mode : Mode) (start : Rows X pk) (fault : Nat → BatchFault) :
    Nat → List (List (Record (Value X))) → List (Record (Value X)) × Bool
  | _, [] => ([], false)
  | i, batch :: rest =>
    let (rows, rolledBack) := executed start (fault i) 0 (statements mode start batch)
    let (later, lost) := saved mode start fault (i + 1) rest
    (if rolledBack || lost then later else rows ++ later, rolledBack || lost)

variable {mode : Mode} {columns : List (Column X)} {fault : Nat → BatchFault} {start : Rows X pk}

theorem mem_of_saved {i : Nat} {bs : List (List (Record (Value X)))}
    (hbs : Record.Separate pk bs.flatten) {d : Record (Value X)}
    (hd : d ∈ (saved mode start fault i bs).1) : d ∈ bs.flatten := by
  induction bs generalizing i with
  | nil => exact hd
  | cons batch rest ih =>
    rw [List.flatten_cons] at hbs ⊢
    simp only [saved] at hd
    split at hd
    · exact List.mem_append_right _ (ih hbs.right hd)
    · rcases List.mem_append.mp hd with h | h
      · exact List.mem_append_left _ (mem_of_executed hbs.left h)
      · exact List.mem_append_right _ (ih hbs.right h)

theorem mem_saved_first {i : Nat} {batch : List (Record (Value X))}
    {rest : List (List (Record (Value X)))} (hbs : Record.Separate pk (batch ++ rest.flatten))
    {d : Record (Value X)} (hd : d ∈ batch) :
    d ∈ (saved mode start fault i (batch :: rest)).1 ↔
      (saved mode start fault (i + 1) rest).2 = false ∧
        (executed start (fault i) 0 (statements mode start batch)).2 = false ∧
        d ∈ (executed start (fault i) 0 (statements mode start batch)).1 := by
  have hlater : d ∉ (saved mode start fault (i + 1) rest).1 := by
    intro h
    exact hbs.ne hd (mem_of_saved hbs.right h) rfl
  simp only [saved]
  split
  · rename_i h
    rw [Bool.or_eq_true] at h
    constructor
    · intro hmem
      exact absurd hmem hlater
    · rintro ⟨hkept, hrolled, -⟩
      rw [hkept, hrolled] at h
      simp at h
  · rename_i h
    rw [Bool.not_eq_true, Bool.or_eq_false_iff] at h
    rw [List.mem_append]
    constructor
    · rintro (hmem | hmem)
      · exact ⟨h.2, h.1, hmem⟩
      · exact absurd hmem hlater
    · rintro ⟨-, -, hmem⟩
      exact Or.inl hmem

theorem mem_saved_rest {i : Nat} {batch : List (Record (Value X))}
    {rest : List (List (Record (Value X)))} (hbs : Record.Separate pk (batch ++ rest.flatten))
    {d : Record (Value X)} (hd : d ∈ rest.flatten) :
    d ∈ (saved mode start fault i (batch :: rest)).1 ↔
      d ∈ (saved mode start fault (i + 1) rest).1 := by
  have hfirst : d ∉ (executed start (fault i) 0 (statements mode start batch)).1 := by
    intro h
    exact hbs.ne (mem_of_executed hbs.left h) hd rfl
  simp only [saved]
  split
  · rfl
  · rw [List.mem_append]
    constructor
    · rintro (h | h)
      · exact absurd h hfirst
      · exact h
    · intro h
      exact Or.inr h

/-- The rows that the next batch finds. -/
def afterBatch (mode : Mode) (columns : List (Column X)) (f : BatchFault)
    (start target : Rows X pk) (batch : List (Record (Value X))) : Rows X pk :=
  if (executeBatch mode columns target f batch).2 then start
  else (executeBatch mode columns target f batch).1

variable (mode columns fault)
variable (hpk : ∀ c ∈ pk, ((defaults columns).get c).isSome = true)

include hpk

theorem find_afterBatch_of_ne {f : BatchFault} {target : Rows X pk}
    {batch : List (Record (Value X))} (hbatch : Record.Separate pk batch)
    (hagree : AgreeOn target start batch) {k : List (Option (Value X))}
    (hk : ∀ d ∈ batch, Record.key pk d ≠ k) :
    (afterBatch mode columns f start target batch).find k =
      if (executed start f 0 (statements mode start batch)).2 then start.find k
      else target.find k := by
  rw [← executed_statements_congr mode f hbatch hagree, afterBatch, apply_ite (Table.find · k)]
  congr 1
  exact find_foldl_store_of_ne hpk (executed_separate mode target f hbatch).keyed target
    fun d hd => hk d (mem_of_executed hbatch hd)

/-- What is found after a batch under the key of one of its rows. -/
theorem find_afterBatch {f : BatchFault} {target : Rows X pk}
    {batch : List (Record (Value X))} (hbatch : Record.Separate pk batch)
    (hagree : AgreeOn target start batch) {d : Record (Value X)} (hd : d ∈ batch) :
    (afterBatch mode columns f start target batch).find (Record.key pk d) =
      if (executed start f 0 (statements mode start batch)).2 = false ∧
        d ∈ (executed start f 0 (statements mode start batch)).1
      then some (stored columns start d) else start.find (Record.key pk d) := by
  rw [← executed_statements_congr mode f hbatch hagree, afterBatch]
  have hstored : stored columns target d = stored columns start d := by
    rw [stored, stored, hagree d hd]
  cases hrolled : (executeBatch mode columns target f batch).2 with
  | true =>
    have hrolled : (executed target f 0 (statements mode target batch)).2 = true := hrolled
    simp [hrolled]
  | false =>
    have hrolled : (executed target f 0 (statements mode target batch)).2 = false := hrolled
    rw [if_neg (by simp)]
    by_cases hmem : d ∈ (executed target f 0 (statements mode target batch)).1
    · rw [if_pos ⟨hrolled, hmem⟩, ← hstored]
      exact find_foldl_store hpk (executed_separate mode target f hbatch) target hmem
    · rw [if_neg (fun h => hmem h.2), ← hagree d hd]
      refine find_foldl_store_of_ne hpk (executed_separate mode target f hbatch).keyed target ?_
      intro d' hd' heq
      exact hmem (hbatch.inj (mem_of_executed hbatch hd') hd heq ▸ hd')

theorem agree_afterBatch {f : BatchFault} {target : Rows X pk}
    {batch rest : List (Record (Value X))} (hrows : Record.Separate pk (batch ++ rest))
    (hagree : AgreeOn target start (batch ++ rest)) :
    AgreeOn (afterBatch mode columns f start target batch) start rest := by
  intro d hd
  rw [find_afterBatch_of_ne mode columns hpk hrows.left
    (hagree.mono fun d hd => List.mem_append_left _ hd)
    fun d' hd' => hrows.ne hd' hd]
  split
  · rfl
  · exact hagree d (List.mem_append_right _ hd)

/-- What the batches leave under a key that none of their rows has. -/
theorem find_executeBatches_of_ne {i : Nat} {target : Rows X pk}
    {bs : List (List (Record (Value X)))} (hbs : Record.Separate pk bs.flatten)
    (hagree : AgreeOn target start bs.flatten) {k : List (Option (Value X))}
    (hk : ∀ d ∈ bs.flatten, Record.key pk d ≠ k) :
    (executeBatches mode columns fault start i target bs).find k =
      if (saved mode start fault i bs).2 then start.find k else target.find k := by
  induction bs generalizing i target with
  | nil => rfl
  | cons batch rest ih =>
    rw [List.flatten_cons] at hbs hk hagree
    have hfirst := find_afterBatch_of_ne mode columns (f := fault i) hpk hbs.left
      (hagree.mono fun d hd => List.mem_append_left _ hd)
      fun d hd => hk d (List.mem_append_left _ hd)
    have hlater := ih (i := i + 1) hbs.right
      (agree_afterBatch mode columns (f := fault i) hpk hbs hagree)
      fun d hd => hk d (List.mem_append_right _ hd)
    rw [hfirst] at hlater
    refine hlater.trans ?_
    simp only [saved]
    by_cases hlost : (saved mode start fault (i + 1) rest).2 = true
    · simp [hlost]
    · by_cases hrolled : (executed start (fault i) 0 (statements mode start batch)).2 = true
      · simp [hlost, hrolled]
      · simp [hlost, hrolled]

/-- What the batches leave under the key of a row. -/
theorem find_executeBatches {i : Nat} {target : Rows X pk}
    {bs : List (List (Record (Value X)))} (hbs : Record.Separate pk bs.flatten)
    (hagree : AgreeOn target start bs.flatten) {d : Record (Value X)} (hd : d ∈ bs.flatten) :
    (executeBatches mode columns fault start i target bs).find (Record.key pk d) =
      if d ∈ (saved mode start fault i bs).1 then some (stored columns start d)
      else start.find (Record.key pk d) := by
  induction bs generalizing i target with
  | nil => cases hd
  | cons batch rest ih =>
    rw [List.flatten_cons] at hbs hd hagree
    have hbatch : AgreeOn target start batch := hagree.mono fun d hd => List.mem_append_left _ hd
    have hnext := agree_afterBatch mode columns (f := fault i) hpk hbs hagree
    rcases List.mem_append.mp hd with hd | hd
    · have hlater := find_executeBatches_of_ne mode columns fault (i := i + 1) hpk hbs.right
        hnext fun d' hd' => (hbs.ne hd hd').symm
      rw [find_afterBatch mode columns hpk hbs.left hbatch hd] at hlater
      refine hlater.trans ?_
      simp only [mem_saved_first hbs hd]
      by_cases hlost : (saved mode start fault (i + 1) rest).2 = true
      · simp [hlost]
      · simp [hlost]
    · refine (ih (i := i + 1) hbs.right hnext hd).trans ?_
      simp only [mem_saved_rest hbs hd]

end Saved

end Fctf.Migration
