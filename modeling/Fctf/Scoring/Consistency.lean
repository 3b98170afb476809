import Fctf.Scoring.Writers

/-!
Whether the stored value of a dynamic challenge follows its solves, and what has
to hold after the statements of an operation for its recalculation to leave all
values right.
-/

namespace Fctf

namespace Db

/-- The value that a dynamic challenge should store. -/
def expectedValue (mode : AccountMode) (db : Db) (c : Challenge) : Option Int :=
  c.dynamic.bind fun config => calculateValue config (db.solveCount mode c.id)

/-- Every dynamic challenge stores the value of its configuration and of its
solves by accounts that are neither hidden nor banned. -/
def Consistent (mode : AccountMode) (db : Db) : Prop :=
  ∀ c ∈ db.challenges, c.type = .dynamic → c.value.isSome ∧ db.expectedValue mode c = c.value

instance (mode : AccountMode) (db : Db) : Decidable (db.Consistent mode) :=
  inferInstanceAs (Decidable (∀ c ∈ db.challenges, _ → _ ∧ _))

/-- The statements leave the challenge with a solve count of the same value. -/
def Unmoved (mode : AccountMode) (before after : Db) (c : Challenge) : Prop :=
  after.expectedValue mode c = before.expectedValue mode c

/-- Both sides compute the same value for the challenge. -/
def SameRounding (mode : AccountMode) (db : Db) (c : Challenge) : Prop :=
  (c.dynamic.bind fun config => dynamicValue config (db.solveCount mode c.id)) =
    db.expectedValue mode c

end Db

namespace Recalculation

/-- What has to hold of a dynamic challenge after the statements. -/
def Keeps (mode : AccountMode) (before after : Db) (c : Challenge) : Recalculation → Prop
  | .none => Db.Unmoved mode before after c
  | .contestant challengeId => c.id = challengeId ∨ Db.Unmoved mode before after c
  | .management challengeId =>
    (c.id = challengeId → Db.SameRounding mode after c) ∧
      (c.id ≠ challengeId → Db.Unmoved mode before after c)

/-- The challenge that is recalculated. -/
def target : Recalculation → Option Nat
  | .none => Option.none
  | .contestant challengeId | .management challengeId => some challengeId

end Recalculation

/-- The recalculation of the statements keeps every dynamic challenge, if it goes through. -/
def Recalculation.Settles (mode : AccountMode) (db : Db) (w : Option (Db × Recalculation)) : Prop :=
  ∀ p ∈ w, (p.2.run mode p.1).isSome →
    ∀ c ∈ p.1.challenges, c.type = .dynamic → p.2.Keeps mode db p.1 c

variable {mode : AccountMode} {db written t : Db} {op : ScoringOp} {r : Recalculation}

/-! ### Recalculation -/

/-- Storing a value settles the one challenge and leaves the others as they are. -/
theorem Db.consistent_setValue {id : Nat} {v : Int} :
    (db.setValue id v).Consistent mode ↔ ∀ c ∈ db.challenges, c.type = .dynamic →
      (c.id = id → db.expectedValue mode c = some v) ∧
        (c.id ≠ id → c.value.isSome ∧ db.expectedValue mode c = c.value) := by
  unfold Consistent
  constructor
  · intro h c hc htype
    have hmem := List.mem_map_of_mem (f := fun c : Challenge =>
      if c.id = id then { c with value := some v } else c) hc
    constructor
    · intro hid
      rw [if_pos hid] at hmem
      exact (h _ hmem htype).2
    · intro hid
      rw [if_neg hid] at hmem
      exact h _ hmem htype
  · intro h c hc htype
    rcases mem_updateChallenge hc with ⟨hold, hid⟩ | ⟨old, hold, rfl⟩
    · exact (h c hold htype).2 hid
    · obtain ⟨hmem, rfl⟩ := challenge_eq_some.mp hold
      exact ⟨rfl, (h old hmem htype).1 rfl⟩

/-- A recalculation stores a value for its challenge if that is dynamic. The value
is the expected one exactly when the recalculation keeps the challenge. -/
theorem Recalculation.run_cases (db : Db) {id : Nat} (htarget : r.target = some id)
    (hrun : r.run mode written = some t) :
    ∃ c, written.challenge id = some c ∧ ((c.type ≠ .dynamic ∧ t = written) ∨
      (c.type = .dynamic ∧ ∃ v, t = written.setValue id v ∧
        (r.Keeps mode db written c ↔ written.expectedValue mode c = some v))) := by
  cases r with
  | none => cases htarget
  | contestant challengeId =>
    obtain rfl := Option.some.inj htarget
    simp only [run, Db.recalculateDynamicChallengeValue, bind, Option.bind_eq_some_iff] at hrun
    obtain ⟨c, hfound, hrun⟩ := hrun
    have hid := (Db.challenge_eq_some.mp hfound).2
    refine ⟨c, hfound, ?_⟩
    split at hrun
    · rename_i htype
      left
      split at hrun
      · cases hrun
      · exact ⟨htype, (Option.some.inj hrun).symm⟩
    · rename_i htype
      right
      obtain ⟨config, hconfig, v, hv, rfl⟩ := by simpa [Option.bind_eq_some_iff] using hrun
      refine ⟨not_not.mp htype, v, rfl, ?_⟩
      have hvalue : written.expectedValue mode c = some v := by
        simp [Db.expectedValue, hconfig, hid, hv]
      simp [Keeps, hid, hvalue]
  | management challengeId =>
    obtain rfl := Option.some.inj htarget
    simp only [run, Db.recalculate, bind, Option.bind_eq_some_iff] at hrun
    obtain ⟨c, hfound, hrun⟩ := hrun
    have hid := (Db.challenge_eq_some.mp hfound).2
    refine ⟨c, hfound, ?_⟩
    split at hrun
    · rename_i htype
      right
      obtain ⟨config, hconfig, v, hv, rfl⟩ := by simpa [Option.bind_eq_some_iff] using hrun
      refine ⟨htype, v, rfl, ?_⟩
      have hvalue : (c.dynamic.bind fun config =>
          dynamicValue config (written.solveCount mode c.id)) = some v := by
        simp [hconfig, hid, hv]
      simp only [Keeps, hid, ne_eq, not_true_eq_false, false_imp_iff, and_true, true_imp_iff,
        Db.SameRounding]
      rw [← hid, hvalue]
      exact eq_comm
    · rename_i htype
      left
      obtain ⟨v, -, rfl⟩ := by simpa [Option.bind_eq_some_iff] using hrun
      exact ⟨htype, rfl⟩

/-- After an operation everything is right exactly when its recalculation keeps
every dynamic challenge. -/
theorem Recalculation.consistent_run
    (hold : ∀ c ∈ written.challenges, c.type = .dynamic → r.target ≠ some c.id → c ∈ db.challenges)
    (h : db.Consistent mode) (hrun : r.run mode written = some t) :
    t.Consistent mode ↔
      ∀ c ∈ written.challenges, c.type = .dynamic → r.Keeps mode db written c := by
  have hother : ∀ c ∈ written.challenges, c.type = .dynamic → r.target ≠ some c.id →
      ((c.value.isSome ∧ written.expectedValue mode c = c.value) ↔ r.Keeps mode db written c) := by
    intro c hc htype hne
    obtain ⟨hsome, hvalue⟩ := h c (hold c hc htype hne) htype
    have hkeeps : r.Keeps mode db written c ↔ Db.Unmoved mode db written c := by
      cases r with
      | none => exact Iff.rfl
      | contestant id =>
        have hid : c.id ≠ id := fun heq => hne (by rw [heq]; rfl)
        exact or_iff_right hid
      | management id =>
        have hid : c.id ≠ id := fun heq => hne (by rw [heq]; rfl)
        constructor
        · exact fun hkeeps => hkeeps.2 hid
        · exact fun hunmoved => ⟨fun heq => absurd heq hid, fun _ => hunmoved⟩
    rw [hkeeps, Db.Unmoved, hvalue]
    exact and_iff_right hsome
  cases htarget : r.target with
  | none =>
    have hsame : t = written := by
      cases r with
      | none => exact (Option.some.inj hrun).symm
      | contestant | management => cases htarget
    subst hsame
    apply forall₂_congr
    intro c hc
    apply imp_congr_right
    intro htype
    exact hother c hc htype (by simp [htarget])
  | some id =>
    obtain ⟨challenge, hfound, hcases⟩ := run_cases db htarget hrun
    have hunique : ∀ c ∈ written.challenges, c.id = id → c = challenge := by
      intro c hc hid
      have hc' := Db.challenge_eq_some.mpr ⟨hc, hid⟩
      exact Option.some.inj (hc'.symm.trans hfound)
    have hrest : ∀ c ∈ written.challenges, c.type = .dynamic → c.id ≠ id →
        ((c.value.isSome ∧ written.expectedValue mode c = c.value) ↔
          r.Keeps mode db written c) := by
      intro c hc htype hid
      apply hother c hc htype
      rw [htarget]
      exact fun heq => hid (Option.some.inj heq).symm
    rcases hcases with ⟨hstandard, rfl⟩ | ⟨-, v, rfl, hkeeps⟩
    · apply forall₂_congr
      intro c hc
      apply imp_congr_right
      intro htype
      apply hrest c hc htype
      rintro hid
      exact hstandard (hunique c hc hid ▸ htype)
    · rw [Db.consistent_setValue]
      apply forall₂_congr
      intro c hc
      apply imp_congr_right
      intro htype
      by_cases hid : c.id = id
      · obtain rfl := hunique c hc hid
        rw [hkeeps]
        simp [hid]
      · rw [← hrest c hc htype hid]
        simp [hid]

/-! ### The operations -/

namespace ScoringOp

theorem lockScore_write {challengeId teamId : Nat}
    (h : lockScore.write db challengeId teamId = some (written, r)) :
    Db.Frame db written ∧ r = .none := by
  simp only [lockScore.write, bind, Option.bind_eq_some_iff] at h
  obtain ⟨challenge, -, h⟩ := h
  split at h
  · cases h
  obtain ⟨userId, -, saved, hsaved, h⟩ := by simpa only [Option.bind_eq_some_iff] using h
  cases h
  have hframe := (Db.insertSubmission_eq_some hsaved).1
  refine ⟨?_, rfl⟩
  cases hsolved : saved.insertSolve ⟨db.nextId, challengeId, some userId, some teamId⟩ with
  | none => exact hframe
  | some solved => exact hframe.trans (Db.insertSolve_eq_some hsolved).1

theorem patchChallenge_write {challengeId : Nat} {scoringType : Option ChallengeType}
    {data : ScoringData}
    (h : patchChallenge.write db challengeId scoringType data = some (written, r)) :
    ∃ f, written = db.updateChallenge challengeId f ∧
      ((r = .management challengeId) ∨ (r = .none ∧ ∀ c ∈ db.challenges, c.id = challengeId →
        (f c).type ≠ .dynamic)) := by
  simp only [patchChallenge.write, bind, Option.bind_eq_some_iff] at h
  obtain ⟨challenge, hlocked, h⟩ := h
  have hfound := (Option.filter_eq_some_iff.mp hlocked).1
  split at h
  · cases h
  split at h
  · cases h
  obtain ⟨config, -, h⟩ := Option.bind_eq_some_iff.mp h
  split at h
  · cases h
    exact ⟨_, rfl, .inl rfl⟩
  rename_i hkept
  split at h
  · cases h
    exact ⟨_, rfl, .inr ⟨rfl, fun _ _ _ => by simp⟩⟩
  rename_i hother
  split at h
  · cases h
    exact ⟨_, rfl, .inl rfl⟩
  · cases h
    refine ⟨_, rfl, .inr ⟨rfl, fun c hc hid => ?_⟩⟩
    have hsame := hfound.symm.trans (Db.challenge_eq_some.mpr ⟨hc, hid⟩)
    exact Option.some.inj hsame ▸ hother

/-- A dynamic challenge that is not recalculated is the one that was there before. -/
theorem write_challenges (h : op.write mode db = some (written, r)) :
    ∀ c ∈ written.challenges, c.type = .dynamic → r.target ≠ some c.id → c ∈ db.challenges := by
  have of_frame : Db.Frame db written →
      ∀ c ∈ written.challenges, c.type = .dynamic → r.target ≠ some c.id → c ∈ db.challenges :=
    fun hframe c hc _ _ => hframe.challenges ▸ hc
  cases op with
  | attempt | solve | createSubmission | retypeSubmission | deleteSubmission =>
    obtain ⟨plan, -, happly⟩ := Option.bind_eq_some_iff.mp h
    exact of_frame (Plan.apply_frame happly)
  | lockScore => exact of_frame (lockScore_write h).1
  | patchUser | patchTeam | deleteTeam =>
    simp only [write, patchUser.write, patchTeam.write, deleteTeam.write, bind,
      Option.bind_eq_some_iff] at h
    obtain ⟨account, -, h⟩ := h
    cases h
    exact fun c hc _ _ => hc
  | deleteUser =>
    simp only [write, deleteUser.write, bind, Option.bind_eq_some_iff] at h
    obtain ⟨user, -, h⟩ := h
    cases h
    exact fun c hc _ _ => List.mem_of_mem_filter hc
  | removeMember =>
    simp only [write, removeMember.write, bind, Option.bind_eq_some_iff] at h
    obtain ⟨team, -, user, -, h⟩ := h
    split at h
    · cases h
    · cases h
      exact fun c hc _ _ => hc
  | patchChallenge challengeId =>
    obtain ⟨f, rfl, hr⟩ := patchChallenge_write h
    intro c hc htype hne
    rcases Db.mem_updateChallenge hc with ⟨hold, -⟩ | ⟨old, hold, rfl⟩
    · exact hold
    · rcases hr with rfl | ⟨rfl, hstandard⟩
      · exact absurd rfl hne
      · obtain ⟨hmem, hid⟩ := Db.challenge_eq_some.mp hold
        exact absurd htype (hstandard old hmem hid)

/-- One operation: it keeps all values right exactly when its recalculation does. -/
theorem consistent_commit_iff (h : db.Consistent mode) :
    (∀ t, op.commit mode db = some t → t.Consistent mode) ↔
      Recalculation.Settles mode db (op.write mode db) := by
  unfold commit Recalculation.Settles
  cases hwrite : op.write mode db with
  | none => simp
  | some p =>
    obtain ⟨written, r⟩ := p
    simp only [Option.bind_some, Option.mem_some_iff, forall_eq']
    cases hrun : r.run mode written with
    | none => simp
    | some t =>
      simp only [Option.some.injEq, forall_eq', Option.isSome_some, true_imp_iff]
      exact Recalculation.consistent_run (write_challenges hwrite) h hrun

end ScoringOp

/-- Two teams with one player each, and a linear challenge that nobody has solved. -/
def twoTeams : Db where
  users := [⟨1, some 1, false, false⟩, ⟨2, some 2, false, false⟩]
  teams := [⟨1, some 1, false, false⟩, ⟨2, some 2, false, false⟩]
  challenges := [⟨5, 9, .dynamic, some 100,
    some ⟨some 100, some 10, some 25, some "linear"⟩, false, some 0⟩]
  submissions := []
  solves := []
  nextId := 1
  challenges_pk := by decide
  submissions_pk := by decide
  submissions_lt := by decide
  solves_keys := by decide
  solves_fk := by decide

end Fctf
