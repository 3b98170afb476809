import Fctf.Scoring.AttemptLimit

/-!
What stands behind the attempt counter. Each attempt that it counts is an incorrect submission
of the team, an attempt that is let through and not inserted yet, or a deletion that has
committed and has its `DECR` before it. A step that takes one of these away and leaves the
counter as it is takes an attempt away from the team.
-/

namespace Fctf

open Expiring Run

/-- The counter that an incorrect submission is counted in. -/
def Submission.attemptKey (sub : Submission) : Option AttemptKey :=
  if sub.type = .incorrect then sub.team_id.map fun t => ⟨sub.challenge_id, t⟩ else none

/-- The counter that an attempt which is let through is counted in. -/
def Attempt.attemptKey (w : Attempt) : Option AttemptKey :=
  if w.stage.isRecording then w.teamId.map fun t => ⟨w.challengeId, t⟩ else none

/-- The counter that a deletion has yet to lower. -/
def Deletion.attemptKey : Deletion → Option AttemptKey
  | .committed key | .counterSeen key => some key
  | .captured _ | .counterSpent _ => none

/-- A call of the script. -/
structure AttemptCheck where
  key : AttemptKey
  maxAttempts : Int
  actualDbCount : Nat

namespace AttemptSite

/-- The incorrect submissions that the database holds. -/
def rows (s : AttemptSite) (key : AttemptKey) : Nat :=
  s.db.incorrectCount key.challengeId fun sub => sub.team_id == some key.teamId

/-- The deletions that have yet to lower the counter. -/
def owed (s : AttemptSite) (key : AttemptKey) : Nat :=
  s.deletions.countP fun d => d.attemptKey == some key

def backing (s : AttemptSite) (key : AttemptKey) : Nat :=
  s.rows key + s.waiting key.challengeId key.teamId + s.owed key

/-- No counter counts more than there is. -/
def Backed (s : AttemptSite) : Prop :=
  ∀ key v, s.counters.get s.now key = some v → v ≤ s.backing key

/-- The call of the script that is the attempt's next step. -/
def check (s : AttemptSite) (w : Attempt) : Option AttemptCheck :=
  match w.stage with
  | .counted actualDbCount => do
    let maxAttempts ← (s.db.maxAttempts w.challengeId).filter (0 < ·)
    let teamId ← w.teamId
    some ⟨⟨w.challengeId, teamId⟩, maxAttempts, actualDbCount⟩
  | _ => none

/-- What the script compares with the limit. -/
def currentCount (s : AttemptSite) (call : AttemptCheck) : Int :=
  (s.counters.get s.now call.key).getD call.actualDbCount

/-- The script finds that the counter has reached the limit. -/
def Refuses (s : AttemptSite) (call : AttemptCheck) : Prop :=
  call.maxAttempts ≤ s.currentCount call

instance decidableRefuses (s : AttemptSite) (call : AttemptCheck) : Decidable (s.Refuses call) :=
  inferInstanceAs (Decidable (call.maxAttempts ≤ s.currentCount call))

/-- An attempt that is refused for the counter is one too many. -/
def NoneTaken (s : AttemptSite) : AttemptAction → Prop
  | .advance i => ∀ w ∈ s.attempts[i]?, ∀ call ∈ s.check w, s.Refuses call →
      call.maxAttempts ≤ s.rows call.key + s.waiting call.key.challengeId call.key.teamId
  | _ => True

/-- A missing counter is restored from a count that there is still something behind, and no
script refuses an attempt between the commit of a deletion and its `DECR`. -/
def Sees (s : AttemptSite) (call : AttemptCheck) : Prop :=
  (s.counters.get s.now call.key = none → call.actualDbCount ≤ s.backing call.key) ∧
    (s.Refuses call → s.owed call.key = 0)

instance decidableSees (s : AttemptSite) (call : AttemptCheck) : Decidable (s.Sees call) :=
  inferInstanceAs (Decidable ((_ → _) ∧ (_ → _)))

/-- The counter counts less than there is. -/
def Spares (s : AttemptSite) (key : AttemptKey) : Prop :=
  ∀ v ∈ s.counters.get s.now key, v < s.backing key

instance decidableSpares (s : AttemptSite) (key : AttemptKey) : Decidable (s.Spares key) :=
  inferInstanceAs (Decidable (∀ v ∈ s.counters.get s.now key, v < (s.backing key : Int)))

end AttemptSite

/-- The counter that a step takes something from behind: an attempt that was let through fails, an
incorrect submission is retyped, or it is deleted and was not captured as such, or its deletion
ends before the `DECR`. -/
def AttemptAction.loss (mode : AccountMode) (s : AttemptSite) :
    AttemptAction → Option AttemptKey
  | .fail i => s.attempts[i]?.bind Attempt.attemptKey
  | .retype submissionId true =>
    if ((ScoringOp.retypeSubmission submissionId true).commit mode s.db).isSome then
      (s.db.submission submissionId).bind Submission.attemptKey
    else none
  | .advanceDelete i =>
    s.deletions[i]?.bind fun
      | .captured info =>
        if ((ScoringOp.deleteSubmission info.id).commit mode s.db).isSome then
          ((s.db.submission info.id).bind Submission.attemptKey).filter
            (some · ≠ info.attemptKey)
        else none
      | _ => none
  | .failDelete i => s.deletions[i]?.bind Deletion.attemptKey
  | _ => none

/-- A step leaves the counter no more than there is behind it, and finds it so. -/
def AttemptAction.KeepsBacked (mode : AccountMode) (s : AttemptSite) (a : AttemptAction) : Prop :=
  (∀ key ∈ a.loss mode s, s.Spares key) ∧
    match a with
    | .advance i => ∀ w ∈ s.attempts[i]?, ∀ call ∈ s.check w, s.Sees call
    | _ => True

instance AttemptAction.decidableKeepsBacked (mode : AccountMode) (s : AttemptSite)
    (a : AttemptAction) : Decidable (a.KeepsBacked mode s) := by
  cases a <;> (delta AttemptAction.KeepsBacked; infer_instance)

/-! ### What is behind a counter -/

theorem Submission.attemptKey_eq_some {sub : Submission} {key : AttemptKey} :
    sub.attemptKey = some key ↔
      (sub.challenge_id = key.challengeId ∧ sub.type = .incorrect) ∧
        sub.team_id = some key.teamId := by
  obtain ⟨c, k⟩ := key
  unfold attemptKey
  split
  · rename_i htype
    cases sub.team_id <;> simp [htype]
  · rename_i htype
    simp [htype]

theorem Attempt.attemptKey_eq_some {w : Attempt} {key : AttemptKey} :
    w.attemptKey = some key ↔ w.waits key.challengeId key.teamId = true := by
  obtain ⟨c, k⟩ := key
  rw [waits_iff, attemptKey]
  split
  · rename_i hstage
    cases w.teamId <;> simp [hstage]
  · rename_i hstage
    simp [hstage]

namespace AttemptSite

variable {mode : AccountMode} {s t : AttemptSite} {w : Attempt} {l : Option AttemptKey}

theorem rows_eq (s : AttemptSite) (key : AttemptKey) :
    s.rows key = s.db.submissions.countP fun sub => sub.attemptKey == some key := by
  apply List.countP_congr
  intro sub _
  simp only [Bool.and_eq_true, beq_iff_eq, Submission.attemptKey_eq_some]

theorem rows_adds {row : Submission} (h : ScoringOp.Adds s.db t.db row) (key : AttemptKey) :
    t.rows key = s.rows key + if row.attemptKey = some key then 1 else 0 := by
  rw [rows_eq, rows_eq, h.1, List.countP_cons]
  simp only [beq_iff_eq]

theorem rows_retyped {submissionId : Nat} {sub : Submission} {type : SubmissionType}
    {teamId : Option Nat} (hsub : s.db.submission submissionId = some sub)
    (hsubmissions : t.db.submissions = (s.db.setSubmission sub.id type teamId).submissions)
    (key : AttemptKey) :
    t.rows key + (if sub.attemptKey = some key then 1 else 0) = s.rows key +
      if ({ sub with type := type, team_id := teamId } : Submission).attemptKey = some key then 1
      else 0 := by
  have hupdate := Submission.countP_map_update s.db.submissions_pk
    (ScoringOp.submission_mem hsub)
    (fun x => { x with
      type := if x.id = sub.id then type else x.type
      team_id := if x.id = sub.id then teamId else x.team_id })
    (by intro x _ hne; simp [hne]) (fun x => x.attemptKey == some key)
  rw [rows_eq, rows_eq, hsubmissions]
  simpa [Db.setSubmission] using hupdate

/-- The steps that leave no less behind the counters than there was, but for one loss. -/
def Covers (s t : AttemptSite) (l : Option AttemptKey) : Prop :=
  ∀ key, s.backing key ≤ t.backing key + if l = some key then 1 else 0

theorem covers_of_rows (hrows : ∀ key, s.rows key ≤ t.rows key +
    if l = some key then 1 else 0) (hattempts : t.attempts = s.attempts)
    (hdeletions : t.deletions = s.deletions) : s.Covers t l := by
  intro key
  have hle := hrows key
  simp only [backing, waiting, owed, hattempts, hdeletions]
  omega

/-- What stays behind a counter that no step raises still covers it. -/
theorem Backed.of_covers (h : s.Backed) (hcovers : s.Covers t l)
    (hloss : ∀ key ∈ l, s.Spares key)
    (hcounters : ∀ key v, t.counters.get t.now key = some v →
      s.counters.get s.now key = some v) : t.Backed := by
  intro key v hv
  have hbefore := hcounters key v hv
  have hle := h key v hbefore
  have hcover := hcovers key
  split_ifs at hcover with hkey
  · have hlt : v < s.backing key := hloss key hkey v hbefore
    omega
  · omega

/-! ### Attempts -/

theorem rows_next (mode : AccountMode) (s : AttemptSite) (w : Attempt) (key : AttemptKey) :
    (s.next mode w).1.rows key = s.rows key := by
  obtain ⟨hdb, -⟩ | ⟨row, htype, hadds, -⟩ := next_writes mode s w
  · rw [rows, rows, hdb]
  · have hkey : row.attemptKey ≠ some key := by
      intro hkey
      rw [Submission.attemptKey_eq_some, htype] at hkey
      cases hkey.1.2
    rw [rows_adds hadds, if_neg hkey, Nat.add_zero]

theorem deletions_next (mode : AccountMode) (s : AttemptSite) (w : Attempt) :
    (s.next mode w).1.deletions = s.deletions := by
  obtain ⟨db, recorded, counters, heq⟩ := next_eq mode s w
  rw [heq]

/-- An attempt that is let through is one more behind its counter. -/
theorem backing_advance {i : Nat} (hw : s.attempts[i]? = some w) (key : AttemptKey) :
    backing { (s.next mode w).1 with
        attempts := replaceAt s.attempts i
          ((s.next mode w).2.map fun stage => { w with stage := stage }) } key =
      s.backing key +
        if (w.challengeId = key.challengeId ∧ w.teamId = some key.teamId) ∧ s.lets mode w
        then 1 else 0 := by
  have hused := @used_advance mode s w i hw key.challengeId key.teamId
  have hheld := next_held mode s w key.challengeId key.teamId
  have hrows := rows_next mode s w key
  have hdeletions := deletions_next mode s w
  change (s.next mode w).1.held key.challengeId key.teamId + (replaceAt _ _ _).countP _ =
    s.held key.challengeId key.teamId + s.waiting key.challengeId key.teamId + _ at hused
  change (s.next mode w).1.rows key + (replaceAt _ _ _).countP _ +
    (s.next mode w).1.deletions.countP _ =
      s.rows key + s.waiting key.challengeId key.teamId + s.deletions.countP _ + _
  rw [hrows, hdeletions]
  omega

/-- An attempt leaves; what was behind its counter goes with it unless it is inserted. -/
theorem covers_insert (hsound : s.Sound) {i : Nat} (hw : s.attempts[i]? = some w) :
    s.Covers
      { (s.insertIncorrect w).getD s with attempts := replaceAt s.attempts i none } none := by
  intro key
  obtain ⟨u, hu, hattempts, -, hadds⟩ := insert_known hsound (List.mem_of_getElem? hw)
  have hdeletions : u.deletions = s.deletions := by
    obtain ⟨db, -, rfl⟩ := Option.map_eq_some_iff.mp hu
    rfl
  have hrows := rows_adds hadds key
  have hwaiting := countP_replaceAt hw none (·.waits key.challengeId key.teamId)
  simp only [Submission.attemptKey_eq_some, Option.any_none, Attempt.waits_iff, and_true]
    at hrows hwaiting
  rw [hu]
  change s.rows key + s.waiting key.challengeId key.teamId + s.owed key ≤
    u.rows key + (replaceAt _ _ _).countP _ + u.deletions.countP _ + _
  rw [hdeletions, hrows]
  simp only [waiting, owed]
  split_ifs at hwaiting ⊢ <;> first | omega | tauto

theorem covers_fail {i : Nat} (hw : s.attempts[i]? = some w) :
    s.Covers { s with attempts := replaceAt s.attempts i none } w.attemptKey := by
  intro key
  have hwaiting := countP_replaceAt hw none (·.waits key.challengeId key.teamId)
  simp only [Option.any_none, Bool.false_eq_true, if_false, ← Attempt.attemptKey_eq_some]
    at hwaiting
  simp only [backing, waiting, owed, rows]
  omega

/-! ### Administrators -/

theorem covers_retype {submissionId : Nat} {correct : Bool} {db : Db}
    (hcommit : (ScoringOp.retypeSubmission submissionId correct).commit mode s.db = some db) :
    s.Covers { s with db := db } ((AttemptAction.retype submissionId correct).loss mode s) := by
  obtain ⟨-, sub, teamId, hsub, hteam, hsubmissions⟩ := ScoringOp.commit_retypeSubmission hcommit
  apply covers_of_rows
  · intro key
    have hrows := rows_retyped (t := { s with db := db }) hsub hsubmissions key
    cases correct with
    | true =>
      have hnew : ({ sub with type := .correct, team_id := teamId } : Submission).attemptKey ≠
          some key := by
        simp [Submission.attemptKey]
      rw [if_pos rfl, if_neg hnew] at hrows
      rw [AttemptAction.loss, hcommit, hsub]
      simp only [Option.isSome_some, if_true, Option.bind_some]
      omega
    | false =>
      obtain rfl := hteam rfl
      have hkeep : sub.attemptKey = some key →
          ({ sub with type := .incorrect, team_id := sub.team_id } : Submission).attemptKey =
            some key := by
        intro hkey
        rw [Submission.attemptKey_eq_some] at hkey ⊢
        exact ⟨⟨hkey.1.1, rfl⟩, hkey.2⟩
      simp only [Bool.false_eq_true, if_false] at hrows
      split_ifs at hrows with h1 h2 h2
      · omega
      · exact absurd (hkeep h1) h2
      · omega
      · omega
  · rfl
  · rfl

/-- A deletion takes one row away. -/
theorem rows_deleted {submissionId : Nat} {db : Db}
    (hcommit : (ScoringOp.deleteSubmission submissionId).commit mode s.db = some db)
    (key : AttemptKey) :
    s.rows key = rows { s with db := db } key +
      if (s.db.submission submissionId).bind Submission.attemptKey = some key then 1 else 0 := by
  obtain ⟨sub, hsub, hsubmissions⟩ := ScoringOp.submissions_deleteSubmission hcommit
  have hremoved := Submission.countP_filter_id s.db.submissions_pk (ScoringOp.submission_mem hsub)
    fun x => x.attemptKey == some key
  rw [rows_eq, rows_eq, hsubmissions, hsub, Option.bind_some, hremoved]
  simp only [beq_iff_eq]

/-- The deletion that comes to its next step, and what it is then. -/
theorem owed_replaceAt {i : Nat} {d : Deletion} (hd : s.deletions[i]? = some d)
    (next : Option Deletion) (key : AttemptKey) :
    (replaceAt s.deletions i next).countP (fun d => d.attemptKey == some key) +
        (if d.attemptKey = some key then 1 else 0) =
      s.owed key + if next.bind Deletion.attemptKey = some key then 1 else 0 := by
  have hcount := countP_replaceAt hd next fun d => d.attemptKey == some key
  cases next <;> simpa [owed] using hcount

/-- A deletion that comes off the list is a loss if the counter waits for it. -/
theorem covers_deletion {i : Nat} {d : Deletion} (hd : s.deletions[i]? = some d)
    {next : Option Deletion} (hdb : t.db = s.db) (hattempts : t.attempts = s.attempts)
    (hdeletions : t.deletions = replaceAt s.deletions i next)
    (hkey : ∀ key, d.attemptKey = some key →
      next.bind Deletion.attemptKey = some key ∨ l = some key) : s.Covers t l := by
  intro key
  have howed := owed_replaceAt hd next key
  have hcount : t.owed key =
      (replaceAt s.deletions i next).countP fun d => d.attemptKey == some key := by
    rw [owed, hdeletions]
  simp only [backing, rows, waiting, hdb, hattempts, hcount]
  by_cases hd : d.attemptKey = some key
  · rw [if_pos hd] at howed
    rcases hkey key hd with hnext | hloss
    · rw [if_pos hnext] at howed
      omega
    · rw [if_pos hloss]
      omega
  · rw [if_neg hd] at howed
    omega

/-- A captured submission that is deleted leaves its row to the `DECR`. -/
theorem covers_captured {i : Nat} {info : Submission}
    (hd : s.deletions[i]? = some (.captured info)) :
    s.Covers { (s.nextDelete mode (.captured info)).1 with
        deletions := replaceAt s.deletions i (s.nextDelete mode (.captured info)).2 }
      ((AttemptAction.advanceDelete i).loss mode s) := by
  cases hcommit : (ScoringOp.deleteSubmission info.id).commit mode s.db with
  | none =>
    simp only [nextDelete, hcommit]
    apply covers_deletion hd
    · rfl
    · rfl
    · rfl
    · intro key hkey
      cases hkey
  | some db =>
    intro key
    have howed := owed_replaceAt hd (s.nextDelete mode (.captured info)).2 key
    rw [if_neg (by simp [Deletion.attemptKey]), Nat.add_zero] at howed
    rw [AttemptAction.loss, hd, Option.bind_some]
    change s.rows key + s.waiting _ _ + s.owed key ≤
      rows (s.nextDelete mode (.captured info)).1 key +
        waiting (s.nextDelete mode (.captured info)).1 _ _ + (replaceAt _ _ _).countP _ + _
    rw [howed]
    have hrows := rows_deleted hcommit key
    have hnext : (s.nextDelete mode (.captured info)).2.bind Deletion.attemptKey =
        info.attemptKey := by
      simp only [nextDelete, hcommit, Submission.attemptKey]
      split
      · cases info.team_id <;> rfl
      · rfl
    rw [hnext, hrows]
    simp only [nextDelete, hcommit, Option.isSome_some, if_true, Option.filter_eq_some_iff,
      decide_eq_true_eq, waiting]
    split_ifs with h1 h2 h3 h3 <;> first | omega | skip
    exact absurd ⟨h1, fun h => h2 h.symm⟩ h3

theorem decr_counter (counters : Store AttemptKey Int) (now : Int) (key key' : AttemptKey) :
    (decr counters now key).1.get now key' =
      if key' = key then some ((counters.get now key).getD 0 - 1)
      else counters.get now key' := by
  unfold decr
  by_cases hkey : key' = key
  · subst hkey
    rw [if_pos rfl]
    cases hget : counters.get now key' with
    | none => simp [Store.get]
    | some v =>
      obtain ⟨cell, hcell, rfl⟩ := Store.get_eq_some.mp hget
      simp [Store.get, Store.find_modify_self, hcell]
  · rw [if_neg hkey]
    cases counters.get now key <;> simp [Store.get, hkey]

/-- The `DECR` takes from the counter what the deletion took from the rows. -/
theorem Backed.lowered (h : s.Backed) {i : Nat} {key : AttemptKey}
    (hd : s.deletions[i]? = some (.counterSeen key)) :
    Backed { (s.nextDelete mode (.counterSeen key)).1 with
      deletions := replaceAt s.deletions i (s.nextDelete mode (.counterSeen key)).2 } := by
  intro key' v hv
  have howed := owed_replaceAt hd (s.nextDelete mode (.counterSeen key)).2 key'
  have hnext : (s.nextDelete mode (.counterSeen key)).2.bind Deletion.attemptKey = none := by
    simp only [nextDelete]
    split <;> rfl
  have hwas : (Deletion.counterSeen key).attemptKey = some key := rfl
  have hnone : ¬(none : Option AttemptKey) = some key' := Option.some_ne_none key' ∘ Eq.symm
  rw [hnext, hwas, if_neg hnone, Nat.add_zero] at howed
  change (decr s.counters s.now key).1.get s.now key' = some v at hv
  change v ≤ ((s.rows key' + s.waiting _ _ + (replaceAt _ _ _).countP _ : Nat) : Int)
  rw [decr_counter] at hv
  by_cases hkey : key' = key
  · subst hkey
    rw [if_pos rfl, Option.some.injEq] at hv
    rw [if_pos rfl] at howed
    cases hget : s.counters.get s.now key' with
    | none =>
      rw [hget, Option.getD_none] at hv
      omega
    | some value =>
      have hle := h key' value hget
      rw [hget, Option.getD_some] at hv
      rw [backing] at hle
      push_cast at hle ⊢
      omega
  · rw [if_neg hkey] at hv
    rw [if_neg (fun hsame => hkey (Option.some.inj hsame).symm), Nat.add_zero] at howed
    have hle := h key' v hv
    rw [backing, ← howed] at hle
    exact hle

/-- A deletion takes its next step. -/
theorem Backed.advanceDelete (h : s.Backed) {i : Nat} {d : Deletion}
    (hd : s.deletions[i]? = some d)
    (hloss : ∀ key ∈ (AttemptAction.advanceDelete i).loss mode s, s.Spares key) :
    Backed { (s.nextDelete mode d).1 with
      deletions := replaceAt s.deletions i (s.nextDelete mode d).2 } := by
  cases d with
  | captured info =>
    apply h.of_covers (covers_captured hd) hloss
    intro key v hv
    simp only [nextDelete] at hv
    split at hv <;> exact hv
  | counterSeen key => exact h.lowered hd
  | committed key =>
    -- a counter that is not there has nothing to be behind it
    apply h.of_covers (l := if s.counters.contains s.now key then none else some key)
    · apply covers_deletion hd
      · rfl
      · rfl
      · rfl
      · rintro key' ⟨⟩
        simp only [nextDelete]
        cases s.counters.contains s.now key with
        | true => exact .inl rfl
        | false => exact .inr rfl
    · intro key' hkey' v hv
      split at hkey'
      · cases hkey'
      · rename_i habsent
        obtain rfl := Option.some.inj hkey'
        obtain ⟨cell, hcell, -⟩ := Store.get_eq_some.mp hv
        exact absurd (Store.contains_iff.mpr ⟨cell, hcell⟩) habsent
    · exact fun _ _ hv => hv
  | counterSpent key =>
    apply h.of_covers (l := none)
    · apply covers_deletion hd
      · rfl
      · rfl
      · rfl
      · intro key' hkey
        cases hkey
    · intro key' hkey
      cases hkey
    · intro key' v hv
      by_cases hkey : key' = key
      · simp [nextDelete, Store.get, hkey] at hv
      · simpa [nextDelete, Store.get, hkey] using hv

/-! ### The script -/

theorem check_eq_some {call : AttemptCheck} (h : s.check w = some call) :
    w.stage = .counted call.actualDbCount ∧ w.challengeId = call.key.challengeId ∧
      w.teamId = some call.key.teamId ∧
        (s.db.maxAttempts call.key.challengeId).filter (0 < ·) = some call.maxAttempts := by
  unfold check at h
  split at h
  · rename_i n hstage
    simp only [bind, Option.bind_eq_some_iff] at h
    obtain ⟨m, hm, k, hk, h⟩ := h
    cases h
    exact ⟨hstage, rfl, hk, hm⟩
  · cases h

/-- The script compares the counter with no more than there is behind it. -/
theorem Backed.currentCount_le (h : s.Backed) {call : AttemptCheck} (hsees : s.Sees call) :
    s.currentCount call ≤ s.backing call.key := by
  unfold currentCount
  cases hget : s.counters.get s.now call.key with
  | none =>
    have hle := hsees.1 hget
    rw [Option.getD_none]
    omega
  | some v => exact h _ v hget

theorem Backed.noneTaken (h : s.Backed) {a : AttemptAction} (hkeeps : a.KeepsBacked mode s) :
    s.NoneTaken a := by
  cases a with
  | advance i =>
    intro w hw call hcall hrefuses
    have hsees : s.Sees call := hkeeps.2 w hw call hcall
    have hle := h.currentCount_le hsees
    have howed := hsees.2 hrefuses
    have hlimit : call.maxAttempts ≤ s.currentCount call := hrefuses
    rw [backing, howed] at hle
    push_cast at hle
    omega
  | _ => trivial

/-- A call of the script: the counter and what is behind it go up together. -/
theorem Backed.advance (h : s.Backed) {i : Nat} (hw : s.attempts[i]? = some w)
    (hsees : ∀ call ∈ s.check w, s.Sees call) :
    Backed { (s.next mode w).1 with
      attempts := replaceAt s.attempts i
        ((s.next mode w).2.map fun stage => { w with stage := stage }) } := by
  intro key v hv
  have hbacking := @backing_advance mode s w i hw key
  change (s.next mode w).1.counters.get (s.next mode w).1.now key = some v at hv
  rw [next_now] at hv
  rw [hbacking]
  cases hcheck : s.check w with
  | none =>
    have hsame : (s.next mode w).1.counters = s.counters := by
      cases hstage : w.stage with
      | counted n =>
        simp only [next, hstage]
        split
        · rename_i m k hm hk
          simp [check, hstage, hm, hk] at hcheck
        · rfl
      | _ =>
        apply next_counters
        rw [hstage]
        intro n hn
        cases hn
    rw [hsame] at hv
    have hle := h key v hv
    omega
  | some call =>
    obtain ⟨hstage, hchallenge, hteam, hlimit⟩ := check_eq_some hcheck
    have hle := h.currentCount_le (hsees call hcheck)
    have hcounters : (s.next mode w).1.counters.get s.now key =
        if key = call.key then some (s.currentCount call +
          if s.currentCount call < call.maxAttempts then 1 else 0)
        else s.counters.get s.now key := by
      simp only [next, hstage, hlimit, hteam, runScript, script_counter, hchallenge]
      rfl
    rw [hcounters] at hv
    by_cases hkey : key = call.key
    · subst hkey
      rw [if_pos rfl, Option.some.injEq] at hv
      have hlets : s.lets mode w =
          decide (s.currentCount call < call.maxAttempts ∧ s.currentCount call ≠ -2) := by
        simp only [lets, hstage, hteam, hlimit, Option.any_some, hchallenge]
        rfl
      simp only [hlets, hchallenge, hteam, and_self, true_and, decide_eq_true_eq]
      split_ifs at hv ⊢ <;> push_cast <;> omega
    · rw [if_neg hkey] at hv
      have hbefore := h key v hv
      omega

/-! ### Runs -/

theorem Backed.step (hsound : s.Sound) (h : s.Backed) {a : AttemptAction}
    (hkeeps : a.KeepsBacked mode s) (hstep : step mode s a = some t) : t.Backed := by
  cases a with
  | portal | platform =>
    obtain ⟨w, hw, rfl⟩ := Option.map_eq_some_iff.mp hstep
    apply h.of_covers (l := none)
    · intro key
      have hwaiting : s.waiting key.challengeId key.teamId ≤
          waiting { s with attempts := w :: s.attempts } key.challengeId key.teamId :=
        (List.sublist_cons_self w s.attempts).countP_le
      change s.rows key + s.waiting _ _ + s.owed key ≤
        s.rows key + waiting { s with attempts := w :: s.attempts } _ _ + s.owed key + _
      omega
    · exact nofun
    · exact fun _ _ hv => hv
  | advance i =>
    obtain ⟨w, hw, hstep⟩ := Option.bind_eq_some_iff.mp hstep
    cases hstep
    exact h.advance hw (hkeeps.2 w hw)
  | record i | tooFast i =>
    obtain ⟨w, hw, hstep⟩ := Option.bind_eq_some_iff.mp hstep
    split at hstep
    · cases hstep
      apply h.of_covers (covers_insert hsound hw)
      · exact nofun
      · intro key v hv
        obtain ⟨u, hu, -⟩ := insert_known hsound (List.mem_of_getElem? hw)
        obtain ⟨db, -, rfl⟩ := Option.map_eq_some_iff.mp hu
        rw [hu] at hv
        exact hv
    · cases hstep
  | fail i =>
    obtain ⟨w, hw, hstep⟩ := Option.bind_eq_some_iff.mp hstep
    cases hstep
    apply h.of_covers (covers_fail hw)
    · intro key hkey
      exact hkeeps.1 key (Option.bind_eq_some_iff.mpr ⟨w, hw, hkey⟩)
    · exact fun _ _ hv => hv
  | create =>
    obtain ⟨db, hcommit, rfl⟩ := Option.map_eq_some_iff.mp hstep
    obtain ⟨row, hadds⟩ := ScoringOp.adds_createSubmission hcommit
    apply h.of_covers (l := none)
    · apply covers_of_rows
      · intro key
        rw [rows_adds (t := { s with db := db }) hadds]
        omega
      · rfl
      · rfl
    · exact nofun
    · exact fun _ _ hv => hv
  | retype =>
    obtain ⟨db, hcommit, rfl⟩ := Option.map_eq_some_iff.mp hstep
    exact h.of_covers (covers_retype hcommit) hkeeps.1 fun _ _ hv => hv
  | delete =>
    obtain ⟨info, -, rfl⟩ := Option.map_eq_some_iff.mp hstep
    apply h.of_covers (l := none)
    · intro key
      have howed : s.owed key ≤ owed { s with deletions := .captured info :: s.deletions } key :=
        (List.sublist_cons_self _ s.deletions).countP_le
      change s.rows key + s.waiting _ _ + s.owed key ≤
        s.rows key + s.waiting _ _ + owed { s with deletions := _ :: s.deletions } key + _
      omega
    · exact nofun
    · exact fun _ _ hv => hv
  | advanceDelete i =>
    obtain ⟨d, hd, hstep⟩ := Option.bind_eq_some_iff.mp hstep
    cases hstep
    exact h.advanceDelete hd hkeeps.1
  | failDelete i =>
    obtain ⟨d, hd, hstep⟩ := Option.bind_eq_some_iff.mp hstep
    cases hstep
    apply h.of_covers (l := d.attemptKey)
    · apply covers_deletion hd
      · rfl
      · rfl
      · rfl
      · exact fun _ hkey => .inr hkey
    · intro key hkey
      exact hkeeps.1 key (Option.bind_eq_some_iff.mpr ⟨d, hd, hkey⟩)
    · exact fun _ _ hv => hv
  | tick seconds =>
    cases hstep
    apply h.of_covers (l := none)
    · exact fun _ => Nat.le_add_right _ _
    · exact nofun
    · exact fun key v hv => Store.get_earlier hv (by simp)
  | lose key =>
    cases hstep
    apply h.of_covers (l := none)
    · exact fun _ => Nat.le_add_right _ _
    · exact nofun
    · intro key' v hv
      by_cases hkey : key' = key
      · simp [Store.get, hkey] at hv
      · simpa [Store.get, hkey] using hv

end AttemptSite

/-- From a state without attempts and deletions under way, whose counters count no more than the
rows, no attempt is refused before the limit in a run whose steps keep the counters backed. -/
theorem no_attempt_taken {mode : AccountMode} {start : AttemptSite} (hidle : start.attempts = [])
    (hrecorded : start.recorded = [])
    (hcounters : ∀ key v, start.counters.get start.now key = some v → v ≤ start.rows key)
    {s : AttemptSite}
    (hreach : Reach (AttemptSite.step mode) (fun s a => a.KeepsBacked mode s) start s)
    {a : AttemptAction} (hkeeps : a.KeepsBacked mode s) : s.NoneTaken a := by
  have hbacked : s.Sound ∧ s.Backed := by
    apply hreach.invariant (fun s => s.Sound ∧ s.Backed)
    · refine ⟨AttemptSite.sound_of_idle hidle hrecorded, ?_⟩
      intro key v hv
      have hle := hcounters key v hv
      rw [AttemptSite.backing]
      push_cast
      omega
    · intro s a t hs ha hstep
      exact ⟨(hs.1.step hstep).2, hs.2.step hs.1 ha hstep⟩
  exact hbacked.2.noneTaken hkeeps

theorem teamOfTwo_counters (key : AttemptKey) (v : Int)
    (h : teamOfTwo.counters.get teamOfTwo.now key = some v) : v ≤ teamOfTwo.rows key := by
  cases h

/-- The insertion fails after the script has counted the attempt, and the next one is refused. -/
theorem attempt_taken :
    ¬∀ (mode : AccountMode) (start : AttemptSite), start.attempts = [] → start.recorded = [] →
      (∀ key v, start.counters.get start.now key = some v → v ≤ start.rows key) →
      ∀ s, Reach (AttemptSite.step mode) always start s → ∀ a, s.NoneTaken a := by
  intro hnoneTaken
  obtain ⟨s, hreach, hrefused⟩ := exists_reach_of_exec (AttemptSite.step .teams) always teamOfTwo
    [.portal 1 5 false, .advance 0, .advance 0, .advance 0, .fail 0, .portal 1 5 false,
      .advance 0, .advance 0]
    (p := fun s => s.attempts[0]?.any fun w => (s.check w).any fun call =>
      decide (s.Refuses call) &&
        decide (s.rows call.key + s.waiting call.key.challengeId call.key.teamId <
          call.maxAttempts))
    (meets_always _ _ _) (by decide)
  obtain ⟨w, hw, hrefused⟩ := (Option.any_eq_true _ _).mp hrefused
  obtain ⟨call, hcall, hrefused⟩ := (Option.any_eq_true _ _).mp hrefused
  simp only [Bool.and_eq_true, decide_eq_true_eq] at hrefused
  have hnone := hnoneTaken .teams teamOfTwo rfl rfl teamOfTwo_counters s hreach (.advance 0) w hw
    call hcall hrefused.1
  omega

/-- Two members at once: the attempt of one is counted and inserted, the other's is refused. -/
theorem no_attempt_taken_refused :
    teamOfTwo.attempts = [] ∧ ∃ s,
      Reach (AttemptSite.step .teams) (fun s a => a.KeepsBacked .teams s) teamOfTwo s ∧
        (s.attempts[0]?.any fun w => (s.check w).any fun call => decide (s.Refuses call)) = true ∧
          s.NoneTaken (.advance 0) := by
  refine ⟨rfl, ?_⟩
  obtain ⟨s, hreach, hend⟩ := exists_reach_of_exec (AttemptSite.step .teams)
    (fun s a => a.KeepsBacked .teams s) teamOfTwo
    [.portal 1 5 false, .portal 2 5 false, .advance 0, .advance 1, .advance 0, .advance 1,
      .advance 1, .record 1]
    (p := fun s => decide (AttemptAction.KeepsBacked .teams s (.advance 0)) &&
      s.attempts[0]?.any fun w => (s.check w).any fun call => decide (s.Refuses call))
    (by decide) (by decide)
  rw [Bool.and_eq_true, decide_eq_true_eq] at hend
  exact ⟨s, hreach, hend.2, no_attempt_taken rfl rfl teamOfTwo_counters hreach hend.1⟩

end Fctf
