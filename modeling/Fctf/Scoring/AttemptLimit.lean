import Fctf.Scoring.AttemptRows

/-!
The limit on incorrect attempts. What a team has used up are the submissions
that the attempt endpoints have recorded and the attempts that they have let
through without recording them yet. Only three kinds of step use up more: a check
that lets an attempt through, the record of a too fast attempt, and the retyping
of a recorded submission to incorrect.
-/

namespace Fctf

open Expiring Run

/-! ### What a team has used up -/

def AttemptStage.isRecording : AttemptStage → Bool
  | .recording => true
  | _ => false

/-- Let through for the team, and not recorded yet. -/
def Attempt.waits (w : Attempt) (challengeId teamId : Nat) : Bool :=
  w.challengeId == challengeId && w.teamId == some teamId && w.stage.isRecording

theorem Attempt.waits_iff {w : Attempt} {c k : Nat} :
    w.waits c k = true ↔ (w.challengeId = c ∧ w.teamId = some k) ∧ w.stage.isRecording = true := by
  simp [Attempt.waits]

namespace AttemptSite

/-- The incorrect submissions of the team that came in through the attempt endpoints. -/
def counts (s : AttemptSite) (challengeId teamId : Nat) (sub : Submission) : Bool :=
  sub.challenge_id == challengeId && sub.type == .incorrect &&
    (sub.team_id == some teamId && s.recorded.contains sub.id)

def held (s : AttemptSite) (challengeId teamId : Nat) : Nat :=
  s.db.submissions.countP (s.counts challengeId teamId)

def waiting (s : AttemptSite) (challengeId teamId : Nat) : Nat :=
  s.attempts.countP (·.waits challengeId teamId)

def used (s : AttemptSite) (challengeId teamId : Nat) : Nat :=
  s.held challengeId teamId + s.waiting challengeId teamId

/-- No team holds more incorrect submissions than a challenge with a limit admits. -/
def Within (s : AttemptSite) : Prop :=
  ∀ c t, ∀ m ∈ s.db.maxAttempts c, 0 < m → (s.held c t : Int) ≤ m

/-- The same with the attempts that have been let through. -/
def Reserved (s : AttemptSite) : Prop :=
  ∀ c t, ∀ m ∈ s.db.maxAttempts c, 0 < m → (s.used c t : Int) ≤ m

/-- The limit of the challenge leaves the team another attempt. -/
def Below (s : AttemptSite) (c t : Nat) : Prop :=
  ∀ m ∈ s.db.maxAttempts c, 0 < m → (s.used c t : Int) < m

instance decidableBelow (s : AttemptSite) (c t : Nat) : Decidable (s.Below c t) :=
  inferInstanceAs (Decidable (∀ m ∈ s.db.maxAttempts c, 0 < m → (s.used c t : Int) < m))

/-- The check that an attempt stands before finds the limit not reached: the
script compares the counter, or the earlier count when the counter is missing;
the platform compares its earlier count. -/
def lets (mode : AccountMode) (s : AttemptSite) (w : Attempt) : Bool :=
  let limit := (s.db.maxAttempts w.challengeId).filter (0 < ·)
  match w.stage with
  | .checked => limit.isNone
  | .counted actualDbCount =>
    w.teamId.any fun t => limit.any fun m =>
      let current := (s.counters.get s.now ⟨w.challengeId, t⟩).getD actualDbCount
      -- the script answers -1 for a refusal
      current < m ∧ current ≠ -2
  | .failsRead fails =>
    !s.db.solvedBy mode w.challengeId w.userId w.teamId && limit.all (fun m => (fails : Int) < m) &&
      !w.correct
  | _ => false

/-- What the two endpoints have looked up when an attempt begins. -/
def Known (db : Db) (w : Attempt) : Prop :=
  (db.challenge w.challengeId).isSome ∧ (db.user w.userId).isSome ∧
    ∀ t ∈ w.teamId, (db.team t).isSome

/-- Nothing that the attempt endpoints recorded has an id still to come, and the
attempts under way are about accounts and challenges that exist. -/
structure Sound (s : AttemptSite) : Prop where
  recorded : ∀ id ∈ s.recorded, id < s.db.nextId
  known : ∀ w ∈ s.attempts, Known s.db w

end AttemptSite

/-- One more attempt of the team, if there is a team and the step is `admitted`. -/
def gainOf (admitted : Bool) (challengeId : Nat) (teamId : Option Nat) : Option (Nat × Nat) :=
  if admitted then teamId.map (challengeId, ·) else none

theorem gainOf_eq_some {admitted : Bool} {challengeId c k : Nat} {teamId : Option Nat} :
    gainOf admitted challengeId teamId = some (c, k) ↔
      (challengeId = c ∧ teamId = some k) ∧ admitted = true := by
  cases admitted with
  | false => simp [gainOf]
  | true => cases teamId <;> simp [gainOf]

/-- The challenge and the team for which a step uses up another attempt. -/
def AttemptAction.gain (mode : AccountMode) (s : AttemptSite) :
    AttemptAction → Option (Nat × Nat)
  | .advance i =>
    s.attempts[i]?.bind fun w => gainOf (s.lets mode w) w.challengeId w.teamId
  | .tooFast i =>
    s.attempts[i]?.bind fun w => gainOf (w.stage matches .failsRead _) w.challengeId w.teamId
  | .retype submissionId false =>
    (s.db.submission submissionId).bind fun sub =>
      gainOf (((ScoringOp.retypeSubmission submissionId false).commit mode s.db).isSome &&
        s.recorded.contains sub.id && sub.type != .incorrect) sub.challenge_id sub.team_id
  | _ => none

/-- A step that uses up another attempt finds one left. -/
def AttemptAction.Keeps (mode : AccountMode) (s : AttemptSite) (a : AttemptAction) : Prop :=
  ∀ p ∈ a.gain mode s, s.Below p.1 p.2

instance AttemptAction.decidableKeeps (mode : AccountMode) (s : AttemptSite) (a : AttemptAction) :
    Decidable (a.Keeps mode s) :=
  inferInstanceAs (Decidable (∀ p ∈ a.gain mode s, s.Below p.1 p.2))

namespace AttemptSite

variable {mode : AccountMode} {s t : AttemptSite} {w : Attempt}

/-- A submission that an attempt endpoint inserts counts if it is incorrect. -/
theorem held_recorded {row : Submission} (hadds : ScoringOp.Adds s.db t.db row)
    (hrecorded : t.recorded = s.db.nextId :: s.recorded) (c k : Nat) :
    t.held c k = s.held c k +
      if row.challenge_id = c ∧ row.type = .incorrect ∧ row.team_id = some k then 1 else 0 := by
  obtain ⟨hsubmissions, hid, -, -⟩ := hadds
  have hrow : t.counts c k row =
      decide (row.challenge_id = c ∧ row.type = .incorrect ∧ row.team_id = some k) := by
    simp [counts, hrecorded, hid, Bool.and_assoc, Bool.decide_and, beq_eq_decide]
  have hrest : s.db.submissions.countP (t.counts c k) = s.held c k := by
    apply List.countP_congr
    intro sub hsub
    have hne : sub.id ≠ s.db.nextId := (s.db.submissions_lt sub hsub).ne
    simp [counts, hrecorded, hne]
  rw [held, hsubmissions, List.countP_cons, hrest, hrow]
  simp

theorem counts_congr (hrecorded : t.recorded = s.recorded) (c k : Nat) :
    t.counts c k = s.counts c k := by
  funext sub
  rw [counts, counts, hrecorded]

/-- A submission that an administrator inserts does not count. -/
theorem held_created (hsound : s.Sound) {row : Submission}
    (hadds : ScoringOp.Adds s.db t.db row) (hrecorded : t.recorded = s.recorded) (c k : Nat) :
    t.held c k = s.held c k := by
  obtain ⟨hsubmissions, hid, -, -⟩ := hadds
  have hfresh : row.id ∉ s.recorded := by
    intro hmem
    exact absurd (hsound.recorded row.id hmem) (by omega)
  have hrow : s.counts c k row = false := by
    simp [counts, hfresh]
  rw [held, hsubmissions, counts_congr hrecorded, List.countP_cons, hrow]
  rfl

/-- Retyping exchanges one submission in the count. -/
theorem held_retyped {submissionId : Nat} {sub : Submission} {type : SubmissionType}
    {teamId : Option Nat} (hsub : s.db.submission submissionId = some sub)
    (hsubmissions : t.db.submissions = (s.db.setSubmission sub.id type teamId).submissions)
    (hrecorded : t.recorded = s.recorded) (c k : Nat) :
    t.held c k + (if s.counts c k sub then 1 else 0) = s.held c k +
      if s.counts c k { sub with type := type, team_id := teamId } then 1 else 0 := by
  have hmem : sub ∈ s.db.submissions := ScoringOp.submission_mem hsub
  have hupdate := Submission.countP_map_update s.db.submissions_pk hmem
    (fun x => { x with
      type := if x.id = sub.id then type else x.type
      team_id := if x.id = sub.id then teamId else x.team_id })
    (by intro x _ hne; simp [hne]) (s.counts c k)
  rw [held, hsubmissions, counts_congr hrecorded]
  simpa [held, Db.setSubmission] using hupdate

/-! ### The steps of an attempt -/

/-- A step before the insertion writes nothing, or it is the transaction of a solve. -/
theorem next_writes (mode : AccountMode) (s : AttemptSite) (w : Attempt) :
    ((s.next mode w).1.db = s.db ∧ (s.next mode w).1.recorded = s.recorded) ∨
      ∃ row : Submission, row.type = .correct ∧ ScoringOp.Adds s.db (s.next mode w).1.db row ∧
        (s.next mode w).1.recorded = s.db.nextId :: s.recorded := by
  cases hstage : w.stage with
  | opened | checked | failsRead | recording =>
    left
    simp [next, hstage]
  | counted =>
    left
    simp only [next, hstage]
    split <;> simp [runScript]
  | portalSolving =>
    simp only [next, hstage, solve]
    split
    · rename_i hcommit
      obtain ⟨row, htype, hadds⟩ := ScoringOp.adds_attempt hcommit
      exact .inr ⟨row, htype, hadds, rfl⟩
    · exact .inl ⟨rfl, rfl⟩
  | platformSolving =>
    simp only [next, hstage, solve]
    split
    · rename_i hcommit
      obtain ⟨row, htype, hadds⟩ := ScoringOp.adds_solve hcommit
      exact .inr ⟨row, htype, hadds, rfl⟩
    · exact .inl ⟨rfl, rfl⟩

theorem next_held (mode : AccountMode) (s : AttemptSite) (w : Attempt) (c k : Nat) :
    (s.next mode w).1.held c k = s.held c k := by
  obtain ⟨hdb, hrecorded⟩ | ⟨row, htype, hadds, hrecorded⟩ := next_writes mode s w
  · rw [held, held, hdb, counts_congr hrecorded]
  · rw [held_recorded hadds hrecorded, htype]
    simp

/-- The script lets an attempt through when the value that it compares is below
the limit. -/
theorem script_admits (counters : Store AttemptKey Int) (now : Int) (key : AttemptKey)
    (m n : Int) :
    (checkAndIncrementAttempts counters now key m n).2 ≠ -1 ↔
      (counters.get now key).getD n < m ∧ (counters.get now key).getD n ≠ -2 := by
  rw [checkAndIncrementAttempts, Store.get]
  cases counters.find now key with
  | none =>
    simp only [Option.map_none, Option.getD_none]
    split_ifs <;> omega
  | some cell =>
    simp only [Option.map_some, Option.getD_some]
    split_ifs <;> omega

theorem next_recording (mode : AccountMode) (s : AttemptSite) (w : Attempt) :
    (s.next mode w).2.any AttemptStage.isRecording = (s.lets mode w || w.stage.isRecording) := by
  cases hstage : w.stage with
  | opened =>
    simp only [next, lets, hstage]
    split_ifs <;> rfl
  | checked =>
    simp only [next, lets, hstage]
    cases Option.filter _ _ <;> rfl
  | counted n =>
    simp only [next, lets, hstage]
    cases Option.filter _ _ with
    | none => cases w.teamId <;> rfl
    | some m =>
      cases w.teamId with
      | none => rfl
      | some k =>
        have hscript := script_admits s.counters s.now ⟨w.challengeId, k⟩ m n
        simp only [runScript]
        split_ifs with hresult
        · have hrefused : ¬_ := fun h => hscript.mpr h hresult
          simpa [AttemptStage.isRecording] using hrefused
        · have hadmitted := hscript.mp hresult
          simpa [AttemptStage.isRecording] using hadmitted
  | failsRead fails =>
    simp only [next, lets, hstage]
    have hlimit :
        ((s.db.maxAttempts w.challengeId).any fun m => m ≠ 0 ∧ m ≤ (fails : Int) ∧ 0 ≤ m) =
        !((s.db.maxAttempts w.challengeId).filter (0 < ·)).all fun m => (fails : Int) < m := by
      cases s.db.maxAttempts w.challengeId with
      | none => rfl
      | some m =>
        by_cases hm : 0 < m
        · have hlt : decide (m ≤ (fails : Int)) = !decide ((fails : Int) < m) := by
            rw [← decide_not, decide_eq_decide]
            omega
          simp [Option.filter, hm, hm.le, hm.ne', hlt]
        · simp only [Option.filter, hm, decide_false, Bool.false_eq_true, if_false, Option.any_some,
            Option.all_none, Bool.not_true, decide_eq_false_iff_not]
          omega
    rw [hlimit]
    cases s.db.solvedBy mode w.challengeId w.userId w.teamId <;>
      cases ((s.db.maxAttempts w.challengeId).filter (0 < ·)).all (fun m => (fails : Int) < m) <;>
        cases w.correct <;> rfl
  | portalSolving | platformSolving => simp [next, lets, hstage, AttemptStage.isRecording]
  | recording => simp [next, lets, hstage, AttemptStage.isRecording]

/-- How far a step before the insertion changes what is let through. -/
theorem waits_next (mode : AccountMode) (s : AttemptSite) (w : Attempt) (c k : Nat) :
    ((s.next mode w).2.map fun stage => { w with stage := stage }).any (·.waits c k) =
      (w.challengeId == c && w.teamId == some k && (s.lets mode w || w.stage.isRecording)) := by
  rw [← next_recording]
  cases (s.next mode w).2 with
  | none => simp
  | some stage => rfl

/-- A check lets an attempt through once. -/
theorem not_recording_of_lets (h : s.lets mode w = true) : w.stage.isRecording = false := by
  cases hstage : w.stage with
  | recording => simp [lets, hstage] at h
  | _ => rfl

theorem used_advance {i : Nat} (hw : s.attempts[i]? = some w) (c k : Nat) :
    used { (s.next mode w).1 with
        attempts := replaceAt s.attempts i
          ((s.next mode w).2.map fun stage => { w with stage := stage }) } c k =
      s.used c k + if (w.challengeId = c ∧ w.teamId = some k) ∧ s.lets mode w then 1 else 0 := by
  have hheld := next_held mode s w c k
  have hwaiting := countP_replaceAt hw
    ((s.next mode w).2.map fun stage => { w with stage := stage }) (·.waits c k)
  rw [waits_next] at hwaiting
  change (s.next mode w).1.held c k + (replaceAt _ _ _).countP _ = _
  rw [hheld, used, waiting]
  simp only [Attempt.waits_iff, Bool.and_eq_true, Bool.or_eq_true, beq_iff_eq] at hwaiting
  cases hlets : s.lets mode w with
  | false =>
    simp only [hlets, Bool.false_eq_true, false_or, and_false, if_false] at hwaiting ⊢
    omega
  | true =>
    simp only [hlets, not_recording_of_lets hlets, Bool.false_eq_true, or_false, and_false,
      and_true, if_false] at hwaiting ⊢
    omega

/-! ### The insertion -/

/-- The insertion of an attempt under way goes through. -/
theorem insert_known (hsound : s.Sound) (hmem : w ∈ s.attempts) :
    ∃ t, s.insertIncorrect w = some t ∧ t.attempts = s.attempts ∧
      t.recorded = s.db.nextId :: s.recorded ∧
      ScoringOp.Adds s.db t.db
        ⟨s.db.nextId, w.challengeId, some w.userId, w.teamId, .incorrect⟩ := by
  obtain ⟨hchallenge, huser, hteam⟩ := hsound.known w hmem
  have hinsert :
      (s.db.insertSubmission w.challengeId (some w.userId) w.teamId .incorrect).isSome := by
    rw [Db.insertSubmission, if_pos ⟨hchallenge, by simpa using huser, hteam⟩]
    rfl
  obtain ⟨db, hdb⟩ := Option.isSome_iff_exists.mp hinsert
  have hrun : s.insertIncorrect w =
      some { s with db := db, recorded := s.db.nextId :: s.recorded } := by
    rw [insertIncorrect, hdb, Option.map_some]
  exact ⟨_, hrun, rfl, rfl, ScoringOp.adds_insertSubmission hdb⟩

theorem held_inserted (hsound : s.Sound) (hmem : w ∈ s.attempts) (c k : Nat) :
    ((s.insertIncorrect w).getD s).held c k =
      s.held c k + if w.challengeId = c ∧ w.teamId = some k then 1 else 0 := by
  obtain ⟨t, ht, -, hrecorded, hadds⟩ := insert_known hsound hmem
  rw [ht, Option.getD_some, held_recorded hadds hrecorded]
  simp

/-- The insertion uses up what was let through before; a too fast attempt was not. -/
theorem used_inserted (hsound : s.Sound) {i : Nat} (hw : s.attempts[i]? = some w) (c k : Nat) :
    used { (s.insertIncorrect w).getD s with attempts := replaceAt s.attempts i none } c k =
      s.used c k +
        if (w.challengeId = c ∧ w.teamId = some k) ∧ w.stage.isRecording = false then 1 else 0 := by
  have hheld := held_inserted hsound (List.mem_of_getElem? hw) c k
  have hwaiting := countP_replaceAt hw none (·.waits c k)
  change ((s.insertIncorrect w).getD s).held c k + (replaceAt _ _ _).countP _ = _
  rw [hheld, used, waiting]
  simp only [Attempt.waits_iff, Option.any_none, Bool.false_eq_true, if_false] at hwaiting
  cases hstage : w.stage.isRecording with
  | false =>
    simp only [hstage, Bool.false_eq_true, and_false, and_true, if_false] at hwaiting ⊢
    omega
  | true =>
    simp only [hstage, Bool.true_eq_false, and_false, and_true, if_false] at hwaiting ⊢
    omega

/-! ### One step -/

/-- What a step uses up, for a team and a challenge. -/
def Uses (s t : AttemptSite) (gain : Option (Nat × Nat)) : Prop :=
  ∀ c k, t.used c k ≤ s.used c k + (if gain = some (c, k) then 1 else 0) ∧
    (gain = some (c, k) → t.used c k = s.used c k + 1)

/-- A step that lets nothing through uses up nothing. -/
theorem uses_none (h : ∀ c k, t.used c k ≤ s.used c k) : Uses s t none := by
  intro c k
  exact ⟨Nat.le_add_right_of_le (h c k), nofun⟩

theorem uses_of_eq {gain : Option (Nat × Nat)} {P : Nat → Nat → Prop} [∀ c k, Decidable (P c k)]
    (hgain : ∀ c k, gain = some (c, k) ↔ P c k)
    (h : ∀ c k, t.used c k = s.used c k + if P c k then 1 else 0) : Uses s t gain := by
  intro c k
  have hused := h c k
  constructor
  · rw [hused, if_congr (hgain c k) rfl rfl]
  · intro hsome
    rw [hused, if_pos ((hgain c k).mp hsome)]

/-- Fewer attempts under way, or new ones that have not been let through. -/
theorem used_le (hdb : t.db = s.db) (hrecorded : t.recorded = s.recorded)
    (hwaiting : ∀ c k, t.waiting c k ≤ s.waiting c k) (c k : Nat) : t.used c k ≤ s.used c k := by
  have hheld : t.held c k = s.held c k := by
    rw [held, held, hdb, counts_congr hrecorded]
  rw [used, used, hheld]
  exact Nat.add_le_add_left (hwaiting c k) _

theorem used_held_le (hattempts : t.attempts = s.attempts) {c k : Nat}
    (hheld : t.held c k ≤ s.held c k) : t.used c k ≤ s.used c k := by
  rw [used, used, waiting, waiting, hattempts]
  exact Nat.add_le_add_right hheld _

theorem waiting_cons (hw : w.stage.isRecording = false) (c k : Nat) :
    waiting { s with attempts := w :: s.attempts } c k = s.waiting c k := by
  rw [waiting, List.countP_cons, Attempt.waits, hw]
  simp [waiting]

theorem portal_stage {userId challengeId : Nat} {correct : Bool}
    (h : s.portal userId challengeId correct = some w) : w.stage = .opened := by
  simp only [portal, bind, Option.bind_eq_some_iff] at h
  obtain ⟨user, -, team, -, challenge, -, h⟩ := h
  split at h
  · cases h
  · cases h
    rfl

theorem platform_stage {userId challengeId : Nat} {correct : Bool}
    (h : s.platform mode userId challengeId correct = some w) : ∃ n, w.stage = .failsRead n := by
  simp only [platform, bind, Option.bind_eq_some_iff] at h
  obtain ⟨user, -, challenge, -, h⟩ := h
  split at h
  · cases h
  · cases h
    exact ⟨_, rfl⟩

theorem used_retype {submissionId : Nat} {correct : Bool} {db : Db}
    (hcommit : (ScoringOp.retypeSubmission submissionId correct).commit mode s.db = some db) :
    Uses s { s with db := db } ((AttemptAction.retype submissionId correct).gain mode s) := by
  obtain ⟨-, sub, teamId, hsub, hteam, hsubmissions⟩ := ScoringOp.commit_retypeSubmission hcommit
  have hheld := held_retyped (t := { s with db := db }) hsub hsubmissions rfl
  cases correct with
  | true =>
    apply uses_none
    intro c k
    have hnew : s.counts c k { sub with type := .correct, team_id := teamId } = false := by
      simp [counts]
    apply used_held_le
    · rfl
    · have hcount := hheld c k
      rw [if_pos rfl, hnew] at hcount
      simp only [Bool.false_eq_true, if_false] at hcount
      omega
  | false =>
    obtain rfl := hteam rfl
    rw [AttemptAction.gain, hsub, hcommit]
    apply uses_of_eq (fun c k => gainOf_eq_some)
    intro c k
    have hcount := hheld c k
    change held _ c k + s.waiting c k = s.held c k + s.waiting c k + _
    by_cases hcounted : (sub.challenge_id = c ∧ sub.team_id = some k) ∧ sub.id ∈ s.recorded
    · obtain ⟨⟨hchallenge, hteam⟩, hrecorded⟩ := hcounted
      by_cases htype : sub.type = .incorrect
      · simp [counts, hchallenge, hteam, hrecorded, htype] at hcount ⊢
        omega
      · simp [counts, hchallenge, hteam, hrecorded, htype] at hcount ⊢
        omega
    · simp [counts] at hcount ⊢
      split_ifs at hcount ⊢ <;> first | omega | tauto

theorem used_nextDelete (mode : AccountMode) (s : AttemptSite) (d : Deletion) (c k : Nat) :
    (s.nextDelete mode d).1.used c k ≤ s.used c k := by
  cases d with
  | captured info =>
    simp only [nextDelete]
    split
    · rename_i db hcommit
      obtain ⟨-, hsublist⟩ := ScoringOp.commit_deleteSubmission hcommit
      apply used_held_le
      · rfl
      · exact hsublist.countP_le
    · exact Nat.le_refl _
  | committed | counterSeen | counterSpent => exact Nat.le_refl _

/-- The steps that use up an attempt are those with a gain. -/
theorem used_step (hsound : s.Sound) {a : AttemptAction} (hstep : step mode s a = some t) :
    Uses s t (a.gain mode s) := by
  cases a with
  | portal =>
    obtain ⟨w, hw, rfl⟩ := Option.map_eq_some_iff.mp hstep
    apply uses_none
    apply used_le
    · rfl
    · rfl
    · intro c k
      exact (waiting_cons (by rw [portal_stage hw]; rfl) c k).le
  | platform =>
    obtain ⟨w, hw, rfl⟩ := Option.map_eq_some_iff.mp hstep
    apply uses_none
    obtain ⟨n, hstage⟩ := platform_stage hw
    apply used_le
    · rfl
    · rfl
    · intro c k
      exact (waiting_cons (by rw [hstage]; rfl) c k).le
  | advance i =>
    obtain ⟨w, hw, hstep⟩ := Option.bind_eq_some_iff.mp hstep
    cases hstep
    rw [AttemptAction.gain, hw]
    apply uses_of_eq (fun c k => gainOf_eq_some)
    exact used_advance hw
  | record i =>
    obtain ⟨w, hw, hstep⟩ := Option.bind_eq_some_iff.mp hstep
    split at hstep
    · rename_i hstage
      cases hstep
      apply uses_none
      intro c k
      rw [used_inserted hsound hw, hstage]
      simp [AttemptStage.isRecording]
    · cases hstep
  | tooFast i =>
    obtain ⟨w, hw, hstep⟩ := Option.bind_eq_some_iff.mp hstep
    split at hstep
    · rename_i hstage
      cases hstep
      rw [AttemptAction.gain, hw]
      apply uses_of_eq (fun c k => gainOf_eq_some)
      intro c k
      rw [used_inserted hsound hw]
      simp [hstage, AttemptStage.isRecording]
    · cases hstep
  | fail i =>
    obtain ⟨w, hw, hstep⟩ := Option.bind_eq_some_iff.mp hstep
    cases hstep
    apply uses_none
    apply used_le
    · rfl
    · rfl
    · intro c k
      have hcount := countP_replaceAt hw none (·.waits c k)
      simp only [Option.any_none, Bool.false_eq_true, if_false] at hcount
      simp only [waiting]
      omega
  | create =>
    obtain ⟨db, hcommit, rfl⟩ := Option.map_eq_some_iff.mp hstep
    obtain ⟨row, hadds⟩ := ScoringOp.adds_createSubmission hcommit
    apply uses_none
    intro c k
    apply used_held_le
    · rfl
    · exact (held_created (t := { s with db := db }) hsound hadds rfl c k).le
  | retype =>
    obtain ⟨db, hcommit, rfl⟩ := Option.map_eq_some_iff.mp hstep
    exact used_retype hcommit
  | delete =>
    obtain ⟨info, -, rfl⟩ := Option.map_eq_some_iff.mp hstep
    apply uses_none
    exact fun _ _ => Nat.le_refl _
  | advanceDelete i =>
    obtain ⟨d, -, hstep⟩ := Option.bind_eq_some_iff.mp hstep
    cases hstep
    apply uses_none
    exact used_nextDelete mode s d
  | failDelete i =>
    obtain ⟨d, -, hstep⟩ := Option.bind_eq_some_iff.mp hstep
    cases hstep
    apply uses_none
    exact fun _ _ => Nat.le_refl _
  | tick | lose =>
    cases hstep
    apply uses_none
    exact fun _ _ => Nat.le_refl _

/-- A step that has something to use up is enabled. -/
theorem enabled_of_gain {a : AttemptAction} {p : Nat × Nat} (h : a.gain mode s = some p) :
    ∃ t, step mode s a = some t := by
  apply Option.isSome_iff_exists.mp
  obtain ⟨c, k⟩ := p
  cases a with
  | advance i =>
    obtain ⟨w, hw, -⟩ := Option.bind_eq_some_iff.mp h
    simp [step, hw]
  | tooFast i =>
    obtain ⟨w, hw, hgain⟩ := Option.bind_eq_some_iff.mp h
    obtain ⟨-, hstage⟩ := gainOf_eq_some.mp hgain
    split at hstage
    · rename_i hfails
      simp [step, hw, hfails]
    · cases hstage
  | retype submissionId correct =>
    cases correct with
    | true => cases h
    | false =>
      obtain ⟨sub, -, hgain⟩ := Option.bind_eq_some_iff.mp h
      obtain ⟨-, hcommit⟩ := gainOf_eq_some.mp hgain
      simp only [Bool.and_eq_true] at hcommit
      simp [step, hcommit.1.1]
  | _ => cases h

/-! ### Runs -/

/-- A step keeps the tables growing and the attempts sound. -/
def Follows (s t : AttemptSite) : Prop := s.db.Grows t.db ∧ t.Sound

theorem Sound.follows (h : s.Sound) (hgrows : s.db.Grows t.db)
    (hrecorded : ∀ id ∈ t.recorded, id ∈ s.recorded ∨ id < t.db.nextId)
    (hattempts : ∀ w ∈ t.attempts, ∃ v ∈ s.attempts, v.challengeId = w.challengeId ∧
      v.userId = w.userId ∧ v.teamId = w.teamId) : s.Follows t := by
  refine ⟨hgrows, ?_, ?_⟩
  · intro id hid
    rcases hrecorded id hid with hold | hnew
    · exact Nat.lt_of_lt_of_le (h.recorded id hold) hgrows.nextId
    · exact hnew
  · intro w hw
    obtain ⟨v, hv, hchallenge, huser, hteam⟩ := hattempts w hw
    rw [Known, hgrows.challenge_isSome, Db.user, hgrows.users, ← hchallenge, ← huser, ← hteam]
    simp only [Db.team, hgrows.teams]
    exact h.known v hv

theorem team_known {db : Db} {user : User} {team : Team}
    (h : user.team_id.bind db.team = some team) : (db.team team.id).isSome := by
  obtain ⟨id, -, hteam⟩ := Option.bind_eq_some_iff.mp h
  have hid : team.id = id := by simpa using List.find?_some hteam
  rw [hid, hteam]
  rfl

theorem portal_known {userId challengeId : Nat} {correct : Bool}
    (h : s.portal userId challengeId correct = some w) : Known s.db w := by
  simp only [portal, bind, Option.bind_eq_some_iff] at h
  obtain ⟨user, huser, team, hteam, challenge, hchallenge, h⟩ := h
  split at h
  · cases h
  · cases h
    refine ⟨by rw [hchallenge]; rfl, by rw [huser]; rfl, ?_⟩
    rintro _ ⟨⟩
    exact team_known (Option.bind_eq_some_iff.mpr hteam)

theorem platform_known {userId challengeId : Nat} {correct : Bool}
    (h : s.platform mode userId challengeId correct = some w) : Known s.db w := by
  simp only [platform, bind, Option.bind_eq_some_iff] at h
  obtain ⟨user, huser, challenge, hchallenge, h⟩ := h
  split at h
  · cases h
  · cases h
    refine ⟨by rw [hchallenge]; rfl, by rw [huser]; rfl, ?_⟩
    intro t ht
    obtain ⟨team, hteam, rfl⟩ := Option.map_eq_some_iff.mp ht
    exact team_known hteam

/-- An attempt begins. -/
theorem Sound.cons (h : s.Sound) (hw : Known s.db w) :
    s.Follows { s with attempts := w :: s.attempts } := by
  refine ⟨Db.Grows.refl _, ?_, ?_⟩
  · exact h.recorded
  · exact List.forall_mem_cons.mpr ⟨hw, h.known⟩

theorem replaced_from {i : Nat} (hw : s.attempts[i]? = some w) (stage : Option AttemptStage) :
    ∀ v ∈ replaceAt s.attempts i (stage.map fun stage => { w with stage := stage }),
      ∃ u ∈ s.attempts, u.challengeId = v.challengeId ∧ u.userId = v.userId ∧
        u.teamId = v.teamId := by
  intro v hv
  rcases mem_replaceAt hv with hold | hnew
  · exact ⟨v, hold, rfl, rfl, rfl⟩
  · obtain ⟨stage, -, rfl⟩ := Option.map_eq_some_iff.mp hnew
    exact ⟨w, List.mem_of_getElem? hw, rfl, rfl, rfl⟩

theorem Sound.advance (h : s.Sound) {i : Nat} (hw : s.attempts[i]? = some w) :
    s.Follows { (s.next mode w).1 with
      attempts := replaceAt s.attempts i
        ((s.next mode w).2.map fun stage => { w with stage := stage }) } := by
  obtain ⟨hdb, hrecorded⟩ | ⟨row, -, ⟨-, -, hgrows, hnext⟩, hrecorded⟩ := next_writes mode s w
  · apply h.follows
    · rw [hdb]
      exact Db.Grows.refl _
    · intro id hid
      exact .inl (hrecorded ▸ hid)
    · exact replaced_from hw _
  · apply h.follows
    · exact hgrows
    · intro id hid
      rcases List.mem_cons.mp (hrecorded ▸ hid) with rfl | hold
      · exact .inr hnext
      · exact .inl hold
    · exact replaced_from hw _

theorem Sound.insert (h : s.Sound) {i : Nat} (hw : s.attempts[i]? = some w) :
    s.Follows { (s.insertIncorrect w).getD s with attempts := replaceAt s.attempts i none } := by
  obtain ⟨t, ht, -, hrecorded, -, -, hgrows, hnext⟩ := insert_known h (List.mem_of_getElem? hw)
  rw [ht]
  apply h.follows
  · exact hgrows
  · intro id hid
    rcases List.mem_cons.mp (hrecorded ▸ hid) with rfl | hold
    · exact .inr hnext
    · exact .inl hold
  · exact replaced_from hw none

theorem nextDelete_grows (mode : AccountMode) (s : AttemptSite) (d : Deletion) :
    s.db.Grows (s.nextDelete mode d).1.db ∧ (s.nextDelete mode d).1.recorded = s.recorded ∧
      (s.nextDelete mode d).1.attempts = s.attempts := by
  cases d with
  | captured info =>
    simp only [nextDelete]
    split
    · rename_i hcommit
      exact ⟨(ScoringOp.commit_deleteSubmission hcommit).1, rfl, rfl⟩
    · exact ⟨Db.Grows.refl _, rfl, rfl⟩
  | committed | counterSeen | counterSpent => exact ⟨Db.Grows.refl _, rfl, rfl⟩

theorem Sound.same_attempts (h : s.Sound) (hgrows : s.db.Grows t.db)
    (hrecorded : t.recorded = s.recorded) (hattempts : t.attempts = s.attempts) : s.Follows t := by
  apply h.follows hgrows
  · intro id hid
    exact .inl (hrecorded ▸ hid)
  · intro w hw
    exact ⟨w, hattempts ▸ hw, rfl, rfl, rfl⟩

theorem Sound.step {a : AttemptAction} (h : s.Sound) (hstep : step mode s a = some t) :
    s.Follows t := by
  cases a with
  | portal =>
    obtain ⟨w, hw, rfl⟩ := Option.map_eq_some_iff.mp hstep
    exact h.cons (portal_known hw)
  | platform =>
    obtain ⟨w, hw, rfl⟩ := Option.map_eq_some_iff.mp hstep
    exact h.cons (platform_known hw)
  | advance i =>
    obtain ⟨w, hw, hstep⟩ := Option.bind_eq_some_iff.mp hstep
    cases hstep
    exact h.advance hw
  | record i | tooFast i =>
    obtain ⟨w, hw, hstep⟩ := Option.bind_eq_some_iff.mp hstep
    split at hstep
    · cases hstep
      exact h.insert hw
    · cases hstep
  | fail i =>
    obtain ⟨w, hw, hstep⟩ := Option.bind_eq_some_iff.mp hstep
    cases hstep
    apply h.follows
    · exact Db.Grows.refl _
    · exact fun id hid => .inl hid
    · exact replaced_from hw none
  | create =>
    obtain ⟨db, hcommit, rfl⟩ := Option.map_eq_some_iff.mp hstep
    obtain ⟨row, -, -, hgrows, -⟩ := ScoringOp.adds_createSubmission hcommit
    exact h.same_attempts hgrows rfl rfl
  | retype =>
    obtain ⟨db, hcommit, rfl⟩ := Option.map_eq_some_iff.mp hstep
    exact h.same_attempts (ScoringOp.commit_retypeSubmission hcommit).1 rfl rfl
  | delete =>
    obtain ⟨info, -, rfl⟩ := Option.map_eq_some_iff.mp hstep
    exact h.same_attempts (Db.Grows.refl _) rfl rfl
  | advanceDelete i =>
    obtain ⟨d, -, hstep⟩ := Option.bind_eq_some_iff.mp hstep
    cases hstep
    obtain ⟨hgrows, hrecorded, hattempts⟩ := nextDelete_grows mode s d
    exact h.same_attempts hgrows hrecorded hattempts
  | failDelete i =>
    obtain ⟨d, -, hstep⟩ := Option.bind_eq_some_iff.mp hstep
    cases hstep
    exact h.same_attempts (Db.Grows.refl _) rfl rfl
  | tick | lose =>
    cases hstep
    exact h.same_attempts (Db.Grows.refl _) rfl rfl

/-- A step keeps what is used up within the limits exactly when it meets its condition. -/
theorem reserved_step_iff (hsound : s.Sound) (h : s.Reserved) {a : AttemptAction} :
    (∀ t, step mode s a = some t → t.Reserved) ↔ a.Keeps mode s := by
  constructor
  · rintro hall ⟨c, k⟩ hgain m hm hpos
    obtain ⟨t, hstep⟩ := enabled_of_gain hgain
    have hlimit := (hsound.step hstep).1.maxAttempts c
    have hused := (used_step hsound hstep c k).2 hgain
    have hle := hall t hstep c k m (hlimit ▸ hm) hpos
    rw [hused] at hle
    change (s.used c k : Int) < m
    push_cast at hle
    omega
  · intro hkeeps t hstep c k m hm hpos
    rw [(hsound.step hstep).1.maxAttempts c] at hm
    have hused := (used_step hsound hstep c k).1
    have hbefore := h c k m hm hpos
    split at hused
    · rename_i hgain
      have hbelow : (s.used c k : Int) < m := hkeeps (c, k) hgain m hm hpos
      omega
    · omega

/-- The insertions of attempts that have been let through. -/
def completions (indices : List Nat) : List AttemptAction := indices.map .record

/-- The insertion of an attempt moves it from those let through to those held. -/
theorem record_waiting (mode : AccountMode) (hsound : s.Sound) {i c k : Nat}
    (hw : s.attempts[i]? = some w)
    (hwaits : w.waits c k = true) :
    ∃ t, step mode s (.record i) = some t ∧ t.used c k = s.used c k ∧
      t.waiting c k + 1 = s.waiting c k := by
  obtain ⟨-, hrecording⟩ := Attempt.waits_iff.mp hwaits
  have hstage : w.stage = .recording := by
    cases hstage : w.stage with
    | recording => rfl
    | _ => simp [hstage, AttemptStage.isRecording] at hrecording
  refine ⟨{ (s.insertIncorrect w).getD s with attempts := replaceAt s.attempts i none }, ?_, ?_, ?_⟩
  · simp [step, hw, hstage]
  · rw [used_inserted hsound hw, hrecording]
    simp
  · have hcount := countP_replaceAt hw none (·.waits c k)
    simpa [waiting, hwaits] using hcount

/-- Letting an attempt through does not show in the table, but its insertion
is not stopped any more. -/
theorem used_le_of_completed (mode : AccountMode) {m : Int} {c k : Nat} (hsound : s.Sound)
    (h : ∀ indices, ∀ t ∈ visited (step mode) s (completions indices), (t.held c k : Int) ≤ m) :
    (s.used c k : Int) ≤ m := by
  induction hn : s.waiting c k generalizing s with
  | zero =>
    have hheld := h [] s (by simp [visited, completions])
    rw [used, hn]
    simpa using hheld
  | succ n ih =>
    have hpos : 0 < s.waiting c k := by omega
    obtain ⟨w, hw, hwaits⟩ := List.countP_pos_iff.mp hpos
    obtain ⟨i, hi⟩ := List.getElem?_of_mem hw
    obtain ⟨t, hstep, hused, hwaiting⟩ := record_waiting mode hsound hi hwaits
    rw [← hused]
    apply ih (hsound.step hstep).2
    · intro indices u hu
      apply h (i :: indices)
      simp only [completions, List.map_cons, visited, hstep, Option.map_some, Option.getD_some]
      exact List.mem_cons_of_mem _ hu
    · omega

theorem meets_completions (indices : List Nat) :
    Meets (step mode) (fun s a => a.Keeps mode s) s (completions indices) := by
  induction indices generalizing s with
  | nil => trivial
  | cons i indices ih => exact ⟨nofun, fun t _ => ih⟩

theorem within_of_reserved (h : s.Reserved) : s.Within := by
  intro c k m hm hpos
  have hused := h c k m hm hpos
  rw [used] at hused
  omega

/-- The limits hold in every completion exactly when nothing is used up beyond them. -/
theorem completed_iff_reserved (hsound : s.Sound) :
    (∀ indices, ∀ t ∈ visited (step mode) s (completions indices), t.Within) ↔ s.Reserved := by
  constructor
  · intro h c k m hm hpos
    apply used_le_of_completed mode hsound
    intro indices t ht
    have hfollows : s.Follows t := by
      apply forall_visited (I := s.Follows) _ _ _ t ht
      · intro u a v hu hstep
        obtain ⟨hgrows, hv⟩ := hu.2.step hstep
        exact ⟨hu.1.trans hgrows, hv⟩
      · exact ⟨Db.Grows.refl _, hsound⟩
    apply h indices t ht c k m _ hpos
    rw [hfollows.1.maxAttempts c]
    exact hm
  · intro h indices t ht
    apply within_of_reserved
    apply (forall_visited_iff_meets (I := Sound) (P := Reserved) _ _ _ hsound h).mpr _ t ht
    · exact fun s a => a.Keeps mode s
    · exact fun _ _ _ hs hstep => (hs.step hstep).2
    · exact fun _ _ hs hreserved => reserved_step_iff hs hreserved
    · exact meets_completions indices

end AttemptSite

/-! ### The counter on its own -/

/-- The contestant backend's part of a run, with a Redis that loses counters: a
counter that is missing is restored from a count that is not behind. -/
def AttemptAction.Fresh (s : AttemptSite) : AttemptAction → Prop
  | .advance i => ∀ w ∈ s.attempts[i]?, ∀ n k, w.stage = .counted n → w.teamId = some k →
      s.counters.get s.now ⟨w.challengeId, k⟩ = none → s.used w.challengeId k ≤ n
  | .portal .. | .record _ | .fail _ | .tick _ | .lose _ => True
  | _ => False

namespace AttemptSite

variable {mode : AccountMode} {s t : AttemptSite} {w : Attempt}

/-- Where there is a limit, no counter is behind, and no attempt came in through
the platform. -/
structure Ahead (s : AttemptSite) : Prop where
  sound : s.Sound
  counter : ∀ c k, (∃ m ∈ s.db.maxAttempts c, 0 < m) →
    ∀ v, s.counters.get s.now ⟨c, k⟩ = some v → (s.used c k : Int) ≤ v
  portal : ∀ w ∈ s.attempts, ∀ n, w.stage ≠ .failsRead n

/-- What the script compares, and the store that holds it. -/
def restored (counters : Store AttemptKey Int) (now : Int) (key : AttemptKey) (n : Int) :
    Store AttemptKey Int :=
  match counters.find now key with
  | none => counters.setEx now key 86400 n
  | some cell => if cell.deadline = none then counters.expire now key 86400 else counters

theorem get_restored (counters : Store AttemptKey Int) (now : Int) (key key' : AttemptKey)
    (n : Int) :
    (restored counters now key n).get now key' =
      if key' = key then some ((counters.get now key).getD n) else counters.get now key' := by
  have hlive : now < now + 86400 := by omega
  by_cases hkey : key' = key
  · subst hkey
    rw [if_pos rfl, restored]
    cases hfind : counters.find now key' with
    | none => simp [Store.get, Store.find_setEx_self, hfind, hlive]
    | some cell =>
      simp only
      split
      · simp [Store.get, Store.find_expire_self, hfind, hlive]
      · simp [Store.get, hfind]
  · rw [if_neg hkey, restored]
    cases counters.find now key with
    | none => simp [Store.get, hkey]
    | some cell =>
      simp only
      split
      · simp [Store.get, hkey]
      · rfl

/-- The counter after the script: one more when the attempt is let through, else
what the script found or restored. Other counters stay. -/
theorem script_counter (counters : Store AttemptKey Int) (now : Int) (key key' : AttemptKey)
    (m n : Int) :
    (checkAndIncrementAttempts counters now key m n).1.get now key' =
      if key' = key then
        some ((counters.get now key).getD n +
          if (counters.get now key).getD n < m then 1 else 0)
      else counters.get now key' := by
  have hrestored := get_restored counters now key key' n
  have hscript : (checkAndIncrementAttempts counters now key m n).1 =
      if (counters.get now key).getD n < m then (restored counters now key n).modify now key (· + 1)
      else restored counters now key n := by
    rw [checkAndIncrementAttempts, restored, Store.get]
    cases counters.find now key with
    | none =>
      simp only [Option.map_none, Option.getD_none]
      split_ifs <;> first | rfl | omega
    | some cell =>
      simp only [Option.map_some, Option.getD_some]
      split_ifs <;> first | rfl | omega
  rw [hscript]
  by_cases hbelow : (counters.get now key).getD n < m
  · rw [if_pos hbelow]
    by_cases hkey : key' = key
    · subst hkey
      rw [if_pos rfl] at hrestored ⊢
      rw [Store.get, Store.find_modify_self, Option.map_map]
      obtain ⟨cell, hcell, hvalue⟩ := Store.get_eq_some.mp hrestored
      simp [hcell, hvalue, hbelow]
    · rw [if_neg hkey] at hrestored ⊢
      rw [← hrestored]
      simp [Store.get, hkey]
  · rw [if_neg hbelow, hrestored]
    simp [hbelow]

theorem Ahead.keeps (h : s.Ahead) {a : AttemptAction} (hfresh : a.Fresh s) : a.Keeps mode s := by
  rintro ⟨c, k⟩ hgain m hm hpos
  cases a with
  | advance i =>
    obtain ⟨w, hw, hgain⟩ := Option.bind_eq_some_iff.mp hgain
    obtain ⟨⟨rfl, hteam⟩, hlets⟩ := gainOf_eq_some.mp hgain
    cases hstage : w.stage with
    | counted n =>
      have hfilter : (s.db.maxAttempts w.challengeId).filter (0 < ·) = some m := by
        simp [Option.mem_def.mp hm, Option.filter, hpos]
      simp only [lets, hstage, hteam, hfilter, Option.any_some, decide_eq_true_eq] at hlets
      change (s.used w.challengeId k : Int) < m
      cases hcounter : s.counters.get s.now ⟨w.challengeId, k⟩ with
      | none =>
        have hle := hfresh w hw n k hstage hteam hcounter
        rw [hcounter, Option.getD_none] at hlets
        omega
      | some v =>
        have hle := h.counter w.challengeId k ⟨m, hm, hpos⟩ v hcounter
        rw [hcounter, Option.getD_some] at hlets
        omega
    | checked =>
      have hfilter : (s.db.maxAttempts w.challengeId).filter (0 < ·) = some m := by
        simp [Option.mem_def.mp hm, Option.filter, hpos]
      simp [lets, hstage, hfilter] at hlets
    | failsRead n => exact absurd hstage (h.portal w (List.mem_of_getElem? hw) n)
    | _ => simp [lets, hstage] at hlets
  | _ => first | cases hgain | cases hfresh

/-- Time and losses only take counters away, and no other step of the contestant
backend changes one. -/
theorem Ahead.of_counters (h : s.Ahead) (ht : s.Follows t)
    (hused : ∀ c k, (∃ m ∈ s.db.maxAttempts c, 0 < m) → t.used c k ≤ s.used c k)
    (hcounters : ∀ key v, t.counters.get t.now key = some v → s.counters.get s.now key = some v)
    (hportal : ∀ w ∈ t.attempts, ∀ n, w.stage ≠ .failsRead n) : t.Ahead := by
  refine ⟨ht.2, fun c k hlimit v hv => ?_, hportal⟩
  rw [ht.1.maxAttempts c] at hlimit
  have hle := h.counter c k hlimit v (hcounters _ v hv)
  have := hused c k hlimit
  omega

/-- The next step of an attempt writes rows and counters only. -/
theorem next_eq (mode : AccountMode) (s : AttemptSite) (w : Attempt) :
    ∃ db recorded counters, (s.next mode w).1 = { s with db, recorded, counters } := by
  cases hstage : w.stage with
  | counted =>
    simp only [next, hstage]
    split <;> exact ⟨_, _, _, rfl⟩
  | portalSolving | platformSolving =>
    simp only [next, hstage, solve]
    split <;> exact ⟨_, _, _, rfl⟩
  | _ =>
    simp only [next, hstage]
    exact ⟨_, _, _, rfl⟩

theorem next_now (mode : AccountMode) (s : AttemptSite) (w : Attempt) :
    (s.next mode w).1.now = s.now := by
  obtain ⟨db, recorded, counters, heq⟩ := next_eq mode s w
  rw [heq]

theorem next_counters (hstage : ∀ n, w.stage ≠ .counted n) :
    (s.next mode w).1.counters = s.counters := by
  cases hs : w.stage with
  | counted n => exact absurd hs (hstage n)
  | portalSolving | platformSolving =>
    simp only [next, hs, solve]
    split <;> rfl
  | _ => simp [next, hs]

theorem next_portal {stage : AttemptStage} (h : (s.next mode w).2 = some stage) (n : Nat) :
    stage ≠ .failsRead n := by
  rintro rfl
  cases hstage : w.stage with
  | counted =>
    simp only [next, hstage] at h
    split at h
    · simp only [runScript] at h
      split at h <;> cases h
    · cases h
  | opened | checked | failsRead =>
    simp only [next, hstage] at h
    split_ifs at h <;> cases h
  | portalSolving | platformSolving | recording =>
    simp only [next, hstage] at h
    cases h

/-- The script leaves its counter at what is used up, or ahead of it. -/
theorem counter_advance (h : s.Ahead) {i : Nat} (hfresh : (AttemptAction.advance i).Fresh s)
    (hw : s.attempts[i]? = some w) (c k : Nat) (hlimit : ∃ m ∈ s.db.maxAttempts c, 0 < m) (v : Int)
    (hv : (s.next mode w).1.counters.get s.now ⟨c, k⟩ = some v) :
    ((s.used c k + if (w.challengeId = c ∧ w.teamId = some k) ∧ s.lets mode w then 1 else 0 : Nat) :
      Int) ≤ v := by
  obtain ⟨m, hm, hpos⟩ := hlimit
  have hfilter : (s.db.maxAttempts c).filter (0 < ·) = some m := by
    simp [Option.mem_def.mp hm, Option.filter, hpos]
  by_cases hcounted : ∃ n, w.stage = .counted n
  · obtain ⟨n, hstage⟩ := hcounted
    by_cases hmatch : w.challengeId = c ∧ w.teamId = some k
    · obtain ⟨rfl, hteam⟩ := hmatch
      simp only [next, hstage, hfilter, hteam, runScript, script_counter, if_true,
        Option.some.injEq] at hv
      have hle : (s.used w.challengeId k : Int) ≤
          (s.counters.get s.now ⟨w.challengeId, k⟩).getD n := by
        cases hcounter : s.counters.get s.now ⟨w.challengeId, k⟩ with
        | none =>
          rw [Option.getD_none]
          exact_mod_cast hfresh w hw n k hstage hteam hcounter
        | some v => exact h.counter _ k ⟨m, hm, hpos⟩ v hcounter
      simp only [lets, hstage, hteam, hfilter, Option.any_some, decide_eq_true_eq, and_self,
        true_and]
      split_ifs at hv ⊢ <;> push_cast <;> omega
    · have hsame : s.counters.get s.now ⟨c, k⟩ = some v := by
        simp only [next, hstage] at hv
        split at hv
        · rename_i k' _ hteam
          have hother : (⟨c, k⟩ : AttemptKey) ≠ ⟨w.challengeId, k'⟩ := by
            rintro ⟨⟩
            exact hmatch ⟨rfl, hteam⟩
          simpa only [runScript, script_counter, if_neg hother] using hv
        · exact hv
      rw [if_neg (fun hlets => hmatch hlets.1)]
      exact h.counter c k ⟨m, hm, hpos⟩ v hsame
  · rw [next_counters (fun n hn => hcounted ⟨n, hn⟩)] at hv
    have hkept : ¬((w.challengeId = c ∧ w.teamId = some k) ∧ s.lets mode w = true) := by
      rintro ⟨⟨rfl, -⟩, hlets⟩
      cases hstage : w.stage with
      | checked => simp [lets, hstage, hfilter] at hlets
      | failsRead n => exact h.portal w (List.mem_of_getElem? hw) n hstage
      | counted n => exact hcounted ⟨n, hstage⟩
      | _ => simp [lets, hstage] at hlets
    rw [if_neg hkept]
    exact h.counter c k ⟨m, hm, hpos⟩ v hv

theorem Ahead.step {a : AttemptAction} (h : s.Ahead) (hfresh : a.Fresh s)
    (hstep : step mode s a = some t) : t.Ahead := by
  have hfollows : s.Follows t := h.sound.step hstep
  have hused := used_step h.sound hstep
  cases a with
  | advance i =>
    obtain ⟨w, hw, hstep⟩ := Option.bind_eq_some_iff.mp hstep
    cases hstep
    refine ⟨hfollows.2, ?_, ?_⟩
    · intro c k hlimit v hv
      rw [hfollows.1.maxAttempts c] at hlimit
      change (s.next mode w).1.counters.get (s.next mode w).1.now ⟨c, k⟩ = some v at hv
      rw [next_now] at hv
      have hle := counter_advance h hfresh hw c k hlimit v hv
      rw [← used_advance hw] at hle
      exact hle
    · intro u hu n
      rcases mem_replaceAt hu with hold | hnew
      · exact h.portal u hold n
      · obtain ⟨stage, hstage, rfl⟩ := Option.map_eq_some_iff.mp hnew
        exact next_portal hstage n
  | portal =>
    obtain ⟨w, hw, rfl⟩ := Option.map_eq_some_iff.mp hstep
    apply h.of_counters hfollows
    · intro c k _
      simpa [AttemptAction.gain] using (hused c k).1
    · exact fun _ _ hv => hv
    · intro u hu n
      rcases List.mem_cons.mp hu with rfl | hold
      · rw [portal_stage hw]
        nofun
      · exact h.portal u hold n
  | record i =>
    obtain ⟨w, hw, hstep⟩ := Option.bind_eq_some_iff.mp hstep
    obtain ⟨u, hu, -⟩ := insert_known h.sound (List.mem_of_getElem? hw)
    obtain ⟨db, -, hinserted⟩ := Option.map_eq_some_iff.mp hu
    split at hstep
    · rw [hu] at hstep
      subst hinserted
      cases hstep
      apply h.of_counters hfollows
      · intro c k _
        simpa [AttemptAction.gain] using (hused c k).1
      · exact fun _ _ hv => hv
      · intro v hv n
        exact h.portal v ((mem_replaceAt hv).resolve_right nofun) n
    · cases hstep
  | fail i =>
    obtain ⟨w, hw, hstep⟩ := Option.bind_eq_some_iff.mp hstep
    cases hstep
    apply h.of_counters hfollows
    · intro c k _
      simpa [AttemptAction.gain] using (hused c k).1
    · exact fun _ _ hv => hv
    · intro u hu n
      exact h.portal u ((mem_replaceAt hu).resolve_right nofun) n
  | tick seconds =>
    cases hstep
    apply h.of_counters hfollows
    · exact fun _ _ _ => Nat.le_refl _
    · intro key v hv
      exact Store.get_earlier hv (by simp)
    · exact h.portal
  | lose key =>
    cases hstep
    apply h.of_counters hfollows
    · exact fun _ _ _ => Nat.le_refl _
    · intro key' v hv
      by_cases hkey : key' = key
      · simp [Store.get, hkey] at hv
      · simpa [Store.get, hkey] using hv
    · exact h.portal
  | _ => cases hfresh

end AttemptSite

theorem AttemptSite.sound_of_idle {s : AttemptSite} (hidle : s.attempts = [])
    (hrecorded : s.recorded = []) : s.Sound := by
  constructor
  · rw [hrecorded]
    exact nofun
  · rw [hidle]
    exact nofun

theorem AttemptSite.used_of_idle {s : AttemptSite} (hidle : s.attempts = [])
    (hrecorded : s.recorded = []) (c k : Nat) : s.used c k = 0 := by
  simp [AttemptSite.used, AttemptSite.held, AttemptSite.waiting, AttemptSite.counts, hidle,
    hrecorded]

/-- From a state without attempts, the limits hold all along a run, and also when
the attempts let through by then are inserted, exactly when each step that uses
up another attempt finds one left. -/
theorem attemptLimit_iff_keeps {mode : AccountMode} {s : AttemptSite} (hidle : s.attempts = [])
    (hrecorded : s.recorded = []) (as : List AttemptAction) :
    (∀ t ∈ visited (AttemptSite.step mode) s as, ∀ indices,
        ∀ u ∈ visited (AttemptSite.step mode) t (AttemptSite.completions indices), u.Within) ↔
      Meets (AttemptSite.step mode) (fun s a => a.Keeps mode s) s as := by
  have hsound : s.Sound := AttemptSite.sound_of_idle hidle hrecorded
  have hreserved : s.Reserved := by
    intro c k m _ hpos
    rw [AttemptSite.used_of_idle hidle hrecorded]
    omega
  have hall : ∀ t ∈ visited (AttemptSite.step mode) s as, t.Sound :=
    forall_visited (fun _ _ _ hs hstep => (hs.step hstep).2) as hsound
  have hmeets : (∀ t ∈ visited (AttemptSite.step mode) s as, t.Reserved) ↔
      Meets (AttemptSite.step mode) (fun s a => a.Keeps mode s) s as := by
    apply forall_visited_iff_meets (I := AttemptSite.Sound) _ _ as hsound hreserved
    · exact fun _ _ _ hs hstep => (hs.step hstep).2
    · exact fun _ _ hs h => AttemptSite.reserved_step_iff hs h
  rw [← hmeets]
  apply forall₂_congr
  intro t ht
  exact AttemptSite.completed_iff_reserved (hall t ht)

/-- The contestant backend alone, whose counters are restored from counts that
are not behind, meets the condition: its script does what it is for. -/
theorem keeps_of_fresh {mode : AccountMode} {s : AttemptSite} (hidle : s.attempts = [])
    (hrecorded : s.recorded = []) (hcounters : s.counters = .empty) {as : List AttemptAction}
    (hfresh : Meets (AttemptSite.step mode) (fun s a => a.Fresh s) s as) :
    Meets (AttemptSite.step mode) (fun s a => a.Keeps mode s) s as := by
  apply hfresh.weaken (I := AttemptSite.Ahead)
  · exact fun _ _ _ h ha hstep => h.step ha hstep
  · exact fun _ _ h ha => h.keeps ha
  · refine ⟨AttemptSite.sound_of_idle hidle hrecorded, ?_, ?_⟩
    · intro c k _ v hv
      rw [hcounters] at hv
      cases hv
    · rw [hidle]
      exact nofun

/-- A team of two and a challenge that admits one attempt. -/
def teamOfTwo : AttemptSite where
  db := {
    users := [⟨1, some 1, false, false⟩, ⟨2, some 1, false, false⟩]
    teams := [⟨1, some 1, false, false⟩]
    challenges := [⟨5, 9, .standard, some 100, none, false, some 1⟩]
    submissions := []
    solves := []
    nextId := 1
    challenges_pk := by decide
    submissions_pk := twoTeams.submissions_pk
    submissions_lt := twoTeams.submissions_lt
    solves_keys := twoTeams.solves_keys
    solves_fk := twoTeams.solves_fk }
  recorded := []
  now := 0
  counters := .empty
  attempts := []
  deletions := []

/-- Two members use the management platform at once; both counts are zero. -/
theorem attempts_beyond_limit :
    ¬ ∀ (mode : AccountMode) (s : AttemptSite), s.attempts = [] → s.recorded = [] →
      ∀ as : List AttemptAction, ∀ t ∈ visited (AttemptSite.step mode) s as, t.Within := by
  intro hwithin
  have hall : ∀ t ∈ visited (AttemptSite.step .teams) teamOfTwo
      [.platform 1 5 false, .platform 2 5 false, .advance 0, .advance 1, .record 0, .record 0],
      (t.held 5 1 : Int) ≤ 1 := by
    intro t ht
    have hlimit : t.db.maxAttempts 5 = some 1 := by
      revert t
      decide
    exact hwithin .teams teamOfTwo rfl rfl _ t ht 5 1 1 hlimit one_pos
  revert hall
  decide

/-- One member's attempt uses up the limit; the counter and the count turn away the other's. -/
theorem attemptLimit_iff_keeps_portal :
    teamOfTwo.attempts = [] ∧ ∀ t ∈ visited (AttemptSite.step .teams) teamOfTwo
      [.portal 1 5 false, .portal 2 5 false, .advance 1, .advance 0, .advance 1, .advance 0,
        .advance 1, .advance 0, .record 0, .delete 1, .advanceDelete 0, .advanceDelete 0,
        .advanceDelete 0, .advanceDelete 0, .platform 2 5 false, .advance 0, .record 0],
      ∀ indices, ∀ u ∈ visited (AttemptSite.step .teams) t (AttemptSite.completions indices),
        u.Within :=
  ⟨rfl, (attemptLimit_iff_keeps rfl rfl _).mpr (by decide)⟩

end Fctf
