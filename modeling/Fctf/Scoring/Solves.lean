import Fctf.Lib.Run
import Fctf.Scoring.Pairing

/-!
Solves and correct submissions. The writers that keep both in one transaction
hold their challenge's row lock from their checks to the commit, and a failure
in between rolls them back. KYPO's score lock takes no lock and saves the
submission and the solve separately. The poller takes none either; it inserts
the submission and leaves it to `INSERT IGNORE` whether the solve follows.
-/

namespace Fctf

open Run

/-- Where a writer stands, with the values it has read. -/
inductive SolveWriter
  /-- Under the lock, its checks passed; before its statements commit. -/
  | transaction (plan : Plan)
  /-- `LockScoreAsync`: no solve of the team was found. -/
  | lockChecked (challengeId teamId : Nat)
  /-- The captain is known; before the first save of `InsertSolveAsync`. -/
  | lockResolved (challengeId teamId userId : Nat)
  /-- Between the two saves. -/
  | lockSaved (row : Solf)
  /-- `_insert_solve`: the captain is known, then no solve of the team was found. -/
  | pollResolved (challengeId teamId : Nat) (userId : Option Nat)
  | pollChecked (challengeId teamId : Nat) (userId : Option Nat)
  deriving Repr, DecidableEq

/-- The challenge whose row lock the writer holds. -/
def SolveWriter.locked : SolveWriter → Option Nat
  | .transaction plan => some plan.challenge
  | _ => none

/-- The committed database and the writers under way. -/
structure ScoringSite where
  db : Db
  writers : List SolveWriter

inductive SolveAction
  /-- An operation on submissions gets the lock and passes its checks. -/
  | begin (op : ScoringOp)
  | lockScore (challengeId teamId : Nat)
  | poll (challengeId teamId : Nat)
  /-- Writer `i` takes its next step. -/
  | advance (i : Nat)
  /-- Writer `i` fails or dies; what it has not committed is lost. -/
  | fail (i : Nat)

/-- `INSERT INTO submissions` and `INSERT IGNORE INTO solves`, committed together. -/
def Db.pollInsert (db : Db) (challengeId teamId : Nat) (userId : Option Nat) : Option Db :=
  (db.insertSubmission challengeId userId (some teamId) .correct).map fun saved =>
    (saved.insertSolve ⟨db.nextId, challengeId, userId, some teamId⟩).getD saved

/-- The next step of a writer: what it commits, and where it stands then. A step
that fails ends the writer. -/
def SolveWriter.next (mode : AccountMode) (db : Db) : SolveWriter → Db × Option SolveWriter
  | .transaction plan => ((plan.commit mode db).getD db, none)
  | .lockChecked challengeId teamId =>
    (db, (db.captainOrMember teamId).map (.lockResolved challengeId teamId))
  | .lockResolved challengeId teamId userId =>
    match db.insertSubmission challengeId (some userId) (some teamId) .correct with
    | some saved => (saved, some (.lockSaved ⟨db.nextId, challengeId, some userId, some teamId⟩))
    | none => (db, none)
  | .lockSaved row => ((db.insertSolve row).getD db, none)
  | .pollResolved challengeId teamId userId =>
    (db, if db.existingSolve challengeId none (some teamId) then none
      else some (.pollChecked challengeId teamId userId))
  | .pollChecked challengeId teamId userId =>
    ((db.pollInsert challengeId teamId userId).getD db, none)

namespace ScoringSite

def step (mode : AccountMode) (s : ScoringSite) : SolveAction → Option ScoringSite
  | .begin op =>
    ((op.plan mode s.db).filter fun plan =>
        s.writers.all fun w => w.locked != some plan.challenge).map fun plan =>
      { s with writers := .transaction plan :: s.writers }
  | .lockScore challengeId teamId =>
    if (s.db.challenge challengeId).any Challenge.kypoConfig ∧
        s.db.existingSolve challengeId none (some teamId) = false then
      some { s with writers := .lockChecked challengeId teamId :: s.writers }
    else none
  | .poll challengeId teamId =>
    if (s.db.challenge challengeId).any Challenge.kypoConfig then
      some { s with
        writers := .pollResolved challengeId teamId (s.db.captainOrMember teamId) :: s.writers }
    else none
  | .advance i =>
    s.writers[i]?.map fun w =>
      let (db, next) := w.next mode s.db
      ⟨db, s.writers.take i ++ next.toList ++ s.writers.drop (i + 1)⟩
  | .fail i => s.writers[i]?.map fun _ => { s with writers := s.writers.eraseIdx i }

end ScoringSite

/-- When the writer's next step leaves every correct submission with its solve:
a score lock must not get to its first save, nor complete one that was broken
off, and the poller's insert must not be ignored. -/
def SolveWriter.Keeps (db : Db) : SolveWriter → Prop
  | .lockResolved challengeId teamId userId =>
    (db.insertSubmission challengeId (some userId) (some teamId) .correct).isNone
  | .lockSaved row => (db.insertSolve row).isNone
  | .pollChecked challengeId teamId userId =>
    (db.insertSubmission challengeId userId (some teamId) .correct).isSome →
      db.existingSolve challengeId userId (some teamId) = false
  | .transaction _ | .lockChecked .. | .pollResolved .. => True

def SolveAction.Keeps (s : ScoringSite) : SolveAction → Prop
  | .advance i => ∀ w ∈ s.writers[i]?, w.Keeps s.db
  | .begin _ | .lockScore .. | .poll .. | .fail _ => True

instance (db : Db) : ∀ w, Decidable (SolveWriter.Keeps db w)
  | .lockResolved .. | .lockSaved _ => inferInstanceAs (Decidable (_ = true))
  | .pollChecked .. => inferInstanceAs (Decidable (_ → _))
  | .transaction _ | .lockChecked .. | .pollResolved .. => inferInstanceAs (Decidable True)

instance (s : ScoringSite) : ∀ a, Decidable (SolveAction.Keeps s a)
  | .advance i => inferInstanceAs (Decidable (∀ w ∈ s.writers[i]?, w.Keeps s.db))
  | .begin _ | .lockScore .. | .poll .. | .fail _ => inferInstanceAs (Decidable True)

namespace SolveWriter

variable {mode : AccountMode} {db : Db} {w : SolveWriter}

/-- A writer under way stays valid until its transaction commits. -/
def Valid (db : Db) (w : SolveWriter) : Prop := ∀ plan, w = .transaction plan → plan.Valid db

/-- What a writer commits keeps the pairing exactly under its condition. -/
theorem paired_next_iff (hvalid : w.Valid db) (h : db.Paired) :
    (w.next mode db).1.Paired ↔ w.Keeps db := by
  cases w with
  | transaction plan =>
    refine iff_of_true ?_ trivial
    simp only [next]
    cases hcommit : plan.commit mode db with
    | none => exact h
    | some t => exact plan.paired_commit (hvalid plan rfl) h hcommit
  | lockChecked | pollResolved =>
    exact iff_of_true h trivial
  | lockResolved challengeId teamId userId =>
    simp only [next, Keeps]
    cases hsaved : db.insertSubmission challengeId (some userId) (some teamId) .correct with
    | none => simpa using h
    | some saved => simpa using Db.not_paired_of_saved hsaved
  | lockSaved row =>
    simp only [next, Keeps]
    cases hsolved : db.insertSolve row with
    | none => simpa using h
    | some solved => simpa using Db.not_paired_of_solved h hsolved
  | pollChecked challengeId teamId userId =>
    simp only [next, Keeps, Db.pollInsert]
    cases hsaved : db.insertSubmission challengeId userId (some teamId) .correct with
    | none => simpa using h
    | some saved =>
      simp only [Option.map_some, Option.getD_some, Option.isSome_some, true_imp_iff]
      rw [← Db.insertSolve_saved hsaved]
      cases hsolved : saved.insertSolve ⟨db.nextId, challengeId, userId, some teamId⟩ with
      | none => simpa using Db.not_paired_of_saved hsaved
      | some solved =>
        have hinsert : db.insertCorrect challengeId userId (some teamId) = some solved := by
          rw [Db.insertCorrect, hsaved, Option.bind_some, hsolved]
        simpa using h.insertCorrect hinsert

/-- No step goes on to a transaction. -/
theorem locked_next {w' : SolveWriter} (h : (w.next mode db).2 = some w') : w'.locked = none := by
  cases w with
  | transaction | lockSaved | pollChecked => cases h
  | lockChecked =>
    obtain ⟨userId, -, rfl⟩ := Option.map_eq_some_iff.mp h
    rfl
  | lockResolved =>
    simp only [next] at h
    split at h
    · cases h
      rfl
    · cases h
  | pollResolved =>
    simp only [next] at h
    split at h
    · cases h
    · cases h
      rfl

/-- A step changes submissions only of the challenge whose lock the writer holds. -/
theorem mem_next (hvalid : w.Valid db) {sub : Submission} (hmem : sub ∈ db.submissions)
    (hother : w.locked ≠ some sub.challenge_id) : sub ∈ (w.next mode db).1.submissions := by
  have hinsert : ∀ {db' : Db} {challengeId : Nat} {userId teamId : Option Nat},
      db.insertSubmission challengeId userId teamId .correct = some db' →
        sub ∈ db'.submissions := by
    intro db' challengeId userId teamId h
    rw [(Db.insertSubmission_eq_some h).2.2.2]
    exact List.mem_cons_of_mem _ hmem
  have hsolve : ∀ {db' : Db} {row : Solf}, sub ∈ db'.submissions →
      sub ∈ ((db'.insertSolve row).getD db').submissions := by
    intro db' row hmem'
    cases hsolved : db'.insertSolve row with
    | none => exact hmem'
    | some solved =>
      rw [Option.getD_some, (Db.insertSolve_eq_some hsolved).2.2.1]
      exact hmem'
  cases w with
  | transaction plan =>
    simp only [next]
    cases hcommit : plan.commit mode db with
    | none => exact hmem
    | some t =>
      obtain ⟨⟨written, r⟩, happly, hrun⟩ := Option.bind_eq_some_iff.mp hcommit
      rw [Option.getD_some, (Recalculation.run_rows hrun).1]
      apply plan.mem_apply (hvalid plan rfl) happly hmem
      intro heq
      exact hother (congrArg some heq.symm)
  | lockChecked | pollResolved => exact hmem
  | lockResolved =>
    simp only [next]
    split
    · rename_i hsaved
      exact hinsert hsaved
    · exact hmem
  | lockSaved row => exact hsolve hmem
  | pollChecked challengeId teamId userId =>
    simp only [next, Db.pollInsert]
    cases hsaved : db.insertSubmission challengeId userId (some teamId) .correct with
    | none => exact hmem
    | some saved => exact hsolve (hinsert hsaved)

/-- No lock is held by both. -/
def Apart (v w : SolveWriter) : Prop := ∀ c, v.locked = some c → w.locked ≠ some c

theorem Apart.symm {v w : SolveWriter} (h : v.Apart w) : w.Apart v := by
  intro c hw hv
  exact h c hv hw

theorem apart_of_free {v w : SolveWriter} (h : v.locked = none) : v.Apart w := by
  intro c hv
  rw [h] at hv
  cases hv

/-- What a writer has checked stands when another one commits. -/
theorem Valid.next {v : SolveWriter} (hv : v.Valid db) (hw : w.Valid db) (hapart : v.Apart w) :
    v.Valid (w.next mode db).1 := by
  rintro plan rfl
  apply (hv plan rfl).mono
  intro sub hmem hchallenge
  apply mem_next hw hmem
  rw [hchallenge]
  exact hapart plan.challenge rfl

end SolveWriter

namespace ScoringSite

variable {mode : AccountMode} {s t : ScoringSite} {a : SolveAction}

/-- The row locks: no two writers hold the same one, and what a holder has
checked still stands. -/
structure Locks (s : ScoringSite) : Prop where
  exclusive : s.writers.Pairwise SolveWriter.Apart
  valid : ∀ w ∈ s.writers, w.Valid s.db

/-- A writer joins that is apart from those under way. -/
theorem Locks.cons {w : SolveWriter} (h : s.Locks) (hapart : ∀ v ∈ s.writers, w.Apart v)
    (hvalid : w.Valid s.db) : Locks { s with writers := w :: s.writers } := by
  constructor
  · exact List.pairwise_cons.mpr ⟨hapart, h.exclusive⟩
  · exact List.forall_mem_cons.mpr ⟨hvalid, h.valid⟩

theorem Locks.cons_free {w : SolveWriter} (h : s.Locks) (hw : w.locked = none) :
    Locks { s with writers := w :: s.writers } := by
  apply h.cons
  · intro v _
    exact SolveWriter.apart_of_free hw
  · rintro plan rfl
    cases hw

theorem Locks.advance {i : Nat} {w : SolveWriter} (h : s.Locks) (hw : s.writers[i]? = some w) :
    Locks ⟨(w.next mode s.db).1,
      s.writers.take i ++ (w.next mode s.db).2.toList ++ s.writers.drop (i + 1)⟩ := by
  obtain ⟨hi, hget⟩ := List.getElem?_eq_some_iff.mp hw
  have hsplit : s.writers = s.writers.take i ++ w :: s.writers.drop (i + 1) := by
    rw [← hget, ← List.drop_eq_getElem_cons hi, List.take_append_drop]
  have hwvalid : w.Valid s.db := h.valid w (List.mem_of_getElem? hw)
  have hexclusive := h.exclusive
  rw [hsplit, List.pairwise_append, List.pairwise_cons] at hexclusive
  obtain ⟨hbefore, ⟨hafter, hrest⟩, hcross⟩ := hexclusive
  have hfree : ∀ w' ∈ (w.next mode s.db).2.toList, w'.locked = none := by
    intro w' hw'
    exact SolveWriter.locked_next (Option.mem_toList.mp hw')
  constructor
  · have hnext : (w.next mode s.db).2.toList.Pairwise SolveWriter.Apart := by
      cases (w.next mode s.db).2 <;> simp
    rw [List.pairwise_append, List.pairwise_append]
    refine ⟨⟨hbefore, hnext, ?_⟩, hrest, ?_⟩
    · intro v _ w' hw'
      exact (SolveWriter.apart_of_free (hfree w' hw')).symm
    · intro v hv w' hw'
      rcases List.mem_append.mp hv with hv | hv
      · exact hcross v hv w' (List.mem_cons_of_mem _ hw')
      · exact SolveWriter.apart_of_free (hfree v hv)
  · intro v hv
    rcases List.mem_append.mp hv with hv | hv
    · rcases List.mem_append.mp hv with hv | hv
      · apply (h.valid v (List.mem_of_mem_take hv)).next hwvalid
        exact hcross v hv w List.mem_cons_self
      · rintro plan rfl
        cases hfree _ hv
    · apply (h.valid v (List.mem_of_mem_drop hv)).next hwvalid
      exact (hafter v hv).symm

theorem Locks.step (h : s.Locks) (ht : step mode s a = some t) : t.Locks := by
  cases a with
  | begin op =>
    obtain ⟨plan, hplan, rfl⟩ := Option.map_eq_some_iff.mp ht
    obtain ⟨hplan, hlock⟩ := Option.filter_eq_some_iff.mp hplan
    apply h.cons
    · rintro v hv c ⟨⟩
      simpa using List.all_eq_true.mp hlock v hv
    · rintro plan' ⟨⟩
      exact ScoringOp.plan_valid hplan
  | lockScore challengeId teamId =>
    simp only [ScoringSite.step] at ht
    split at ht
    · cases ht
      exact h.cons_free rfl
    · cases ht
  | poll challengeId teamId =>
    simp only [ScoringSite.step] at ht
    split at ht
    · cases ht
      exact h.cons_free rfl
    · cases ht
  | advance i =>
    obtain ⟨w, hw, rfl⟩ := Option.map_eq_some_iff.mp ht
    exact h.advance hw
  | fail i =>
    obtain ⟨w, hw, rfl⟩ := Option.map_eq_some_iff.mp ht
    constructor
    · exact h.exclusive.sublist (List.eraseIdx_sublist _ _)
    · intro v hv
      exact h.valid v ((List.eraseIdx_sublist _ _).mem hv)

/-- One step leaves solves and correct submissions one to one exactly when it
meets its condition. -/
theorem oneToOne_step_iff (hlocks : s.Locks) (h : s.db.OneToOne mode) :
    (∀ t, step mode s a = some t → t.db.OneToOne mode) ↔ a.Keeps s := by
  cases a with
  | begin | fail =>
    refine iff_of_true (fun t ht => ?_) trivial
    obtain ⟨_, -, rfl⟩ := Option.map_eq_some_iff.mp ht
    exact h
  | lockScore | poll =>
    refine iff_of_true (fun t ht => ?_) trivial
    simp only [step] at ht
    split at ht
    · cases ht
      exact h
    · cases ht
  | advance i =>
    simp only [step, SolveAction.Keeps]
    cases hw : s.writers[i]? with
    | none => simp
    | some w =>
      simp only [Option.map_some, Option.some.injEq, forall_eq', Option.mem_some_iff]
      rw [Db.oneToOne_iff]
      exact SolveWriter.paired_next_iff (hlocks.valid w (List.mem_of_getElem? hw))
        (Db.oneToOne_iff.mp h)

end ScoringSite

/-- In a run from a state with matching solves and submissions they match in
every committed state exactly when every step of a writer meets its condition. -/
theorem oneToOne_iff_keeps {mode : AccountMode} {s : ScoringSite} (h : s.db.OneToOne mode)
    (hidle : s.writers = []) (as : List SolveAction) :
    (∀ t ∈ visited (ScoringSite.step mode) s as, t.db.OneToOne mode) ↔
      Meets (ScoringSite.step mode) (fun s a => a.Keeps s) s as := by
  apply forall_visited_iff_meets (I := ScoringSite.Locks)
    (P := fun s : ScoringSite => s.db.OneToOne mode) _ _ as _ h
  · intro _ _ _ hlocks ht
    exact hlocks.step ht
  · intro _ _ hlocks hs
    exact ScoringSite.oneToOne_step_iff hlocks hs
  · constructor
    · rw [hidle]
      exact List.Pairwise.nil
    · rw [hidle]
      exact nofun

/-- A team with a sandbox challenge that it has completed in KYPO. -/
def completedSandbox : ScoringSite where
  db := {
    users := [⟨1, some 1, false, false⟩]
    teams := [⟨1, some 1, false, false⟩]
    challenges := [⟨7, 9, .sandbox, some 100, none, true, some 0⟩]
    submissions := []
    solves := []
    nextId := 1
    challenges_pk := by decide
    submissions_pk := twoTeams.submissions_pk
    submissions_lt := twoTeams.submissions_lt
    solves_keys := twoTeams.solves_keys
    solves_fk := twoTeams.solves_fk }
  writers := []

/-- Two score locks of one team at once. Both find no solve and save a
submission; the second solve violates the unique key. -/
def doubleLockRun : List SolveAction :=
  [.lockScore 7 1, .lockScore 7 1, .advance 0, .advance 1, .advance 0, .advance 1,
    .advance 0, .advance 0]

theorem submission_without_solve :
    ¬ ∀ (mode : AccountMode) (s : ScoringSite), s.db.OneToOne mode → s.writers = [] →
      ∀ as : List SolveAction, ∀ t ∈ visited (ScoringSite.step mode) s as, t.db.OneToOne mode := by
  intro honeToOne
  have hall := honeToOne .teams completedSandbox (by decide) rfl doubleLockRun
  revert hall
  decide

/-- The mismatch stays when no writer is left. -/
example : (exec (ScoringSite.step .teams) completedSandbox doubleLockRun).any
    (fun s => s.writers.isEmpty && s.db.submissions.length == 2 && s.db.solves.length == 1) =
      true := by
  decide

theorem oneToOne_iff_keeps_polled :
    completedSandbox.writers = [] ∧ ∀ t ∈ visited (ScoringSite.step .teams) completedSandbox
      [.poll 7 1, .poll 7 1, .advance 0, .advance 0, .advance 0, .begin (.deleteSubmission 1),
        .advance 0, .begin (.solve 1 7), .begin (.attempt 1 7), .advance 0], t.db.OneToOne .teams :=
  ⟨rfl, (oneToOne_iff_keeps (by decide) rfl _).mpr (by decide)⟩

end Fctf
