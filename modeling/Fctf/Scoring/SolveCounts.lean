import Fctf.Lib.Run
import Fctf.Scoring.Decay
import Fctf.Scoring.Pairing

/-!
Which operations keep the stored values right, told from the state before them: by the
solves that they take away, add, hide and show again, and by what the decay function
makes of the number that counts afterwards.
-/

namespace Fctf

open Run

/-- The decay function has one value for two numbers of solves. -/
def Challenge.Flat (c : Challenge) (m n : Nat) : Prop :=
  ∀ config ∈ c.dynamic, calculateValue config m = calculateValue config n

/-- Where the management platform computes a value for a number of solves, the contestant
backend computes the same one. -/
def DynamicConfig.RoundsAlike (config : DynamicConfig) (n : Nat) : Prop :=
  ∀ v ∈ dynamicValue config n, calculateValue config n = some v

def Challenge.RoundsAlike (c : Challenge) (n : Nat) : Prop :=
  ∀ config ∈ c.dynamic, config.RoundsAlike n

instance (c : Challenge) (m n : Nat) : Decidable (c.Flat m n) :=
  inferInstanceAs (Decidable (∀ config ∈ c.dynamic, _ = _))

instance (config : DynamicConfig) (n : Nat) : Decidable (config.RoundsAlike n) :=
  inferInstanceAs (Decidable (∀ v ∈ dynamicValue config n, _ = _))

instance (c : Challenge) (n : Nat) : Decidable (c.RoundsAlike n) :=
  inferInstanceAs (Decidable (∀ config ∈ c.dynamic, config.RoundsAlike n))

namespace Db

/-- The solves of a challenge with a property. -/
def countWhere (db : Db) (challengeId : Nat) (p : Solf → Bool) : Nat :=
  db.solves.countP fun s => s.challenge_id == challengeId && p s

/-- The solve extends a submission with the property. -/
def ofSubmission (db : Db) (p : Submission → Bool) (s : Solf) : Bool :=
  db.submissions.any fun sub => sub.id == s.id && p sub

/-- The number of solves that count, with one more row and without some of them. -/
def solvesWith (mode : AccountMode) (db : Db) (row : Solf) : Nat :=
  db.solveCount mode row.challenge_id + (db.visible mode row).toNat

def solvesWithout (mode : AccountMode) (db : Db) (challengeId : Nat) (p : Solf → Bool) : Nat :=
  db.countWhere challengeId fun s => db.visible mode s && !p s

/-- The property holds of the challenge if it is there and dynamic. -/
def IfDynamic (db : Db) (challengeId : Nat) (P : Challenge → Prop) : Prop :=
  ∀ c ∈ db.challenge challengeId, c.type = .dynamic → P c

instance (db : Db) (challengeId : Nat) (P : Challenge → Prop) [DecidablePred P] :
    Decidable (db.IfDynamic challengeId P) :=
  inferInstanceAs (Decidable (∀ c ∈ db.challenge challengeId, c.type = .dynamic → P c))

end Db

/-- An operation of the management platform rounds like the contestant backend at the number
of solves that it leaves. A submission that is deleted while it is not correct is not
recalculated for, so that a solve that it may have must not show in the value. -/
def Plan.Keeps (mode : AccountMode) (db : Db) : Plan → Prop
  | .solve challengeId userId teamId (.management _) =>
    db.IfDynamic challengeId fun c =>
      c.RoundsAlike (db.solvesWith mode ⟨db.nextId, challengeId, userId, teamId⟩)
  | .toCorrect sub teamId =>
    (∀ s ∈ db.solves, s.id ≠ sub.id) → db.IfDynamic sub.challenge_id fun c =>
      c.RoundsAlike (db.solvesWith mode ⟨sub.id, sub.challenge_id, sub.user_id, teamId⟩)
  | .toIncorrect sub =>
    db.IfDynamic sub.challenge_id fun c =>
      c.RoundsAlike (db.solvesWithout mode sub.challenge_id fun s => s.id == sub.id)
  | .delete sub =>
    db.IfDynamic sub.challenge_id fun c =>
      if sub.type = .correct then
        c.RoundsAlike (db.solvesWithout mode sub.challenge_id fun s => s.id == sub.id)
      else
        c.Flat (db.solvesWithout mode sub.challenge_id fun s => s.id == sub.id)
          (db.solveCount mode sub.challenge_id)
  | .solve .. | .submit .. | .retype .. => True

namespace ScoringOp

/-- The score lock inserts a solve: the challenge is configured, the team has a captain or a
member, and neither of the two has solved the challenge. -/
structure lockScore.Inserts (db : Db) (challengeId teamId userId : Nat) : Prop where
  configured : (db.challenge challengeId).any Challenge.kypoConfig = true
  user : (db.user userId).isSome
  team : (db.team teamId).isSome
  unsolved : db.existingSolve challengeId (some userId) (some teamId) = false

instance (db : Db) (challengeId teamId userId : Nat) :
    Decidable (lockScore.Inserts db challengeId teamId userId) :=
  decidable_of_iff
    ((db.challenge challengeId).any Challenge.kypoConfig = true ∧ (db.user userId).isSome ∧
      (db.team teamId).isSome ∧ db.existingSolve challengeId (some userId) (some teamId) = false)
    ⟨fun ⟨hconfigured, huser, hteam, hunsolved⟩ => ⟨hconfigured, huser, hteam, hunsolved⟩,
      fun ⟨hconfigured, huser, hteam, hunsolved⟩ => ⟨hconfigured, huser, hteam, hunsolved⟩⟩

/-- An account counts with the flags of a request. -/
def shownWith (hidden banned : Option Bool) (wasHidden wasBanned : Bool) : Bool :=
  !hidden.getD wasHidden && !banned.getD wasBanned

/-- A solve still counts after an operation on accounts: its account is shown with the new
flags, and neither its row nor its submission is deleted. -/
def counts (mode : AccountMode) (db : Db) : ScoringOp → Solf → Bool
  | .patchUser userId hidden banned, s =>
    if mode = .users ∧ s.user_id = some userId then
      (db.user userId).any fun u => shownWith hidden banned u.hidden u.banned
    else db.visible mode s
  | .patchTeam teamId hidden banned, s =>
    if mode = .teams ∧ s.team_id = some teamId then
      (db.team teamId).any fun t => shownWith hidden banned t.hidden t.banned
    else db.visible mode s
  | .deleteUser userId, s =>
    db.visible mode s && !(s.user_id == some userId) &&
      !db.ofSubmission (fun sub => sub.user_id == some userId) s
  | .deleteTeam teamId, s =>
    db.visible mode s && !(s.team_id == some teamId) &&
      !db.ofSubmission (fun sub => sub.team_id == some teamId) s
  | .removeMember _ userId, s =>
    db.visible mode s && !db.ofSubmission (fun sub => sub.user_id == some userId) s
  | _, s => db.visible mode s

/-- No dynamic challenge that stays has a value in which the solves show that stop or begin to
count. -/
def FlatAll (mode : AccountMode) (db : Db) (op : ScoringOp) (stays : Challenge → Bool) : Prop :=
  ∀ c ∈ db.challenges, c.type = .dynamic → stays c →
    c.Flat (db.countWhere c.id (op.counts mode db)) (db.solveCount mode c.id)

instance (mode : AccountMode) (db : Db) (op : ScoringOp) (stays : Challenge → Bool) :
    Decidable (op.FlatAll mode db stays) :=
  inferInstanceAs (Decidable (∀ c ∈ db.challenges, _ → _ → _))

/-- Where the operation recalculates nothing, the solves that it moves do not show in the
values; where the management platform recalculates, the rounding does not. -/
def Keeps (mode : AccountMode) (db : Db) (op : ScoringOp) : Prop :=
  match op with
  | .attempt .. => True
  | .solve .. | .createSubmission .. | .retypeSubmission .. | .deleteSubmission _ =>
    ∀ plan ∈ op.plan mode db, plan.Keeps mode db
  | .lockScore challengeId teamId =>
    ∀ userId ∈ db.captainOrMember teamId, lockScore.Inserts db challengeId teamId userId →
      db.IfDynamic challengeId fun c =>
        c.Flat (db.solvesWith mode ⟨db.nextId, challengeId, some userId, some teamId⟩)
          (db.solveCount mode challengeId)
  | .patchUser userId _ _ => (db.user userId).isSome → op.FlatAll mode db fun _ => true
  | .deleteUser userId => (db.user userId).isSome → op.FlatAll mode db fun c => c.user_id ≠ userId
  | .patchTeam teamId _ _ | .deleteTeam teamId =>
    (db.team teamId).isSome → op.FlatAll mode db fun _ => true
  | .removeMember teamId userId =>
    mode = .teams ∧ (db.team teamId).isSome ∧
      (db.user userId).any (fun u => u.team_id = some teamId) → op.FlatAll mode db fun _ => true
  | .patchChallenge challengeId scoringType data =>
    ∀ c ∈ db.lockChallenge challengeId, c.type = .standard ∨ c.type = .dynamic →
      scoringType.getD c.type = .dynamic →
      (data.value.isSome → (scoreInteger 0 data.value).isSome) →
      ∀ config ∈ dynamicConfig data (c.dynamic.filter fun _ => c.type = .dynamic),
        config.RoundsAlike (db.solveCount mode challengeId)

end ScoringOp

instance Plan.decidableKeeps (mode : AccountMode) (db : Db) (plan : Plan) :
    Decidable (plan.Keeps mode db) := by
  cases plan with
  | solve _ _ _ r => cases r <;> (delta Plan.Keeps; infer_instance)
  | _ => delta Plan.Keeps; infer_instance

instance ScoringOp.decidableKeeps (mode : AccountMode) (db : Db) (op : ScoringOp) :
    Decidable (op.Keeps mode db) := by
  cases op <;> (delta ScoringOp.Keeps; infer_instance)

variable {mode : AccountMode} {db written : Db}

/-! ### Counting -/

namespace Db

theorem unmoved_iff_flat {c : Challenge} {n : Nat} (hcount : written.solveCount mode c.id = n) :
    Unmoved mode db written c ↔ c.Flat n (db.solveCount mode c.id) := by
  rw [Unmoved, expectedValue, expectedValue, hcount, Challenge.Flat]
  cases c.dynamic with
  | none => simp
  | some config => simp

theorem unmoved_of_count {c : Challenge}
    (hcount : written.solveCount mode c.id = db.solveCount mode c.id) :
    Unmoved mode db written c := by
  rw [Unmoved, expectedValue, expectedValue, hcount]

theorem solveCount_cons (hvisible : written.visible = db.visible) {row : Solf}
    (hsolves : written.solves = row :: db.solves) (challengeId : Nat) :
    written.solveCount mode challengeId =
      if row.challenge_id = challengeId then db.solvesWith mode row
      else db.solveCount mode challengeId := by
  rw [solveCount, hsolves, hvisible, List.countP_cons, solvesWith]
  by_cases hrow : row.challenge_id = challengeId
  · subst hrow
    cases hshown : db.visible mode row with
    | true => simp [solveCount]
    | false => simp [solveCount]
  · simp [hrow, solveCount]

theorem solveCount_filter (hvisible : written.visible = db.visible) {p : Solf → Bool}
    (hsolves : written.solves = db.solves.filter fun s => !p s) (challengeId : Nat) :
    written.solveCount mode challengeId = db.solvesWithout mode challengeId p := by
  rw [solveCount, hsolves, hvisible, List.countP_filter, solvesWithout, countWhere]
  apply List.countP_congr
  intro s _
  simp [and_assoc]

/-- A solve has the challenge of its submission. -/
theorem challenge_of_submission {s : Solf} {sub : Submission} (hs : s ∈ db.solves)
    (hsub : sub ∈ db.submissions) (hid : sub.id = s.id) : sub.challenge_id = s.challenge_id := by
  obtain ⟨sub', hsub', hid', hchallenge⟩ := db.solves_fk s hs
  have hsame : sub = sub' :=
    List.inj_on_of_nodup_map db.submissions_pk hsub hsub' (hid.trans hid'.symm)
  rw [hsame, hchallenge]

theorem challenge_updateChallenge {challengeId : Nat} {f : Challenge → Challenge} {c : Challenge}
    (h : db.challenge challengeId = some c) :
    (db.updateChallenge challengeId f).challenge challengeId =
      some { f c with id := challengeId } := by
  obtain ⟨hmem, hid⟩ := challenge_eq_some.mp h
  rw [challenge_eq_some]
  refine ⟨List.mem_map.mpr ⟨c, hmem, ?_⟩, rfl⟩
  rw [if_pos hid, hid]

/-- The solve of a submission counts for no other challenge. -/
theorem solvesWithout_of_ne {sub : Submission} (hsub : sub ∈ db.submissions) {challengeId : Nat}
    (hne : sub.challenge_id ≠ challengeId) :
    db.solvesWithout mode challengeId (fun s => s.id == sub.id) =
      db.solveCount mode challengeId := by
  apply List.countP_congr
  intro s hs
  by_cases hid : s.id = sub.id
  · have hchallenge := challenge_of_submission hs hsub hid.symm
    simp [← hchallenge, hne]
  · simp [hid]

/-- A stored submission can be given a solve unless it, its user or its team has one. -/
theorem insertSolve_isSome {sub : Submission} {teamId : Option Nat} (hsub : sub ∈ db.submissions)
    (hunsolved : db.existingSolve sub.challenge_id sub.user_id teamId = false) :
    (db.insertSolve ⟨sub.id, sub.challenge_id, sub.user_id, teamId⟩).isSome ↔
      ∀ s ∈ db.solves, s.id ≠ sub.id := by
  rw [existingSolve, List.any_eq_false] at hunsolved
  have hclash : (∀ s ∈ db.solves,
      Solf.clashes ⟨sub.id, sub.challenge_id, sub.user_id, teamId⟩ s = false) ↔
        ∀ s ∈ db.solves, s.id ≠ sub.id := by
    apply forall₂_congr
    intro s hs
    have hkeys := hunsolved s hs
    rw [Bool.not_eq_true, BEq.comm (b := sub.challenge_id)] at hkeys
    rw [Solf.clashes, hkeys, Bool.or_false, beq_eq_false_iff_ne]
    exact ne_comm
  rw [insertSolve, ← hclash]
  split
  · rename_i hkeys
    exact iff_of_true rfl hkeys.2
  · rename_i hkeys
    refine iff_of_false (by simp) fun hall => hkeys ⟨⟨sub, hsub, rfl, rfl⟩, hall⟩

theorem ofSubmission_id {sub : Submission} (hsub : sub ∈ db.submissions) (s : Solf) :
    db.ofSubmission (fun sub' => sub'.id == sub.id) s = (s.id == sub.id) := by
  rw [Bool.eq_iff_iff, ofSubmission, List.any_eq_true]
  simp only [Bool.and_eq_true, beq_iff_eq]
  constructor
  · rintro ⟨sub', -, hid, hid'⟩
    exact hid.symm.trans hid'
  · intro hid
    exact ⟨sub, hsub, hid.symm, rfl⟩

end Db

/-! ### Recalculations -/

namespace Recalculation

/-- Statements without a recalculation. -/
theorem settles_none (count : Nat → Nat)
    (hcount : ∀ c ∈ written.challenges, written.solveCount mode c.id = count c.id) :
    Settles mode db (some (written, .none)) ↔
      ∀ c ∈ written.challenges, c.type = .dynamic →
        c.Flat (count c.id) (db.solveCount mode c.id) := by
  simp only [Settles, Option.mem_some_iff, forall_eq', run, Option.isSome_some, true_imp_iff, Keeps]
  apply forall₂_congr
  intro c hc
  rw [Db.unmoved_iff_flat (hcount c hc)]

/-- Statements without a recalculation that move the solves of one challenge. -/
theorem settles_none_of_other {challengeId : Nat} (hframe : Db.Frame db written)
    (hother : ∀ id ≠ challengeId, written.solveCount mode id = db.solveCount mode id) :
    Settles mode db (some (written, .none)) ↔
      db.IfDynamic challengeId fun c =>
        c.Flat (written.solveCount mode challengeId) (db.solveCount mode challengeId) := by
  rw [settles_none (fun id => written.solveCount mode id) fun _ _ => rfl, hframe.challenges]
  constructor
  · intro h c hc htype
    obtain ⟨hmem, rfl⟩ := Db.challenge_eq_some.mp hc
    exact h c hmem htype
  · intro h c hc htype
    by_cases hid : c.id = challengeId
    · rw [hid]
      exact h c (Db.challenge_eq_some.mpr ⟨hc, hid⟩) htype
    · rw [hother c.id hid]
      intro config _
      rfl

/-- Statements after which the management platform recalculates their challenge. -/
theorem settles_management {challengeId : Nat}
    (hother : ∀ id ≠ challengeId, written.solveCount mode id = db.solveCount mode id) :
    Settles mode db (some (written, .management challengeId)) ↔
      written.IfDynamic challengeId fun c =>
        c.RoundsAlike (written.solveCount mode challengeId) := by
  simp only [Settles, Option.mem_some_iff, forall_eq', Keeps]
  constructor
  · intro h c hc htype config hconfig v hv
    rw [Option.mem_def] at hc hconfig hv
    obtain ⟨hmem, hid⟩ := Db.challenge_eq_some.mp hc
    have hrun : (run mode written (.management challengeId)).isSome := by
      simp only [run, Db.recalculate, hc, bind, Option.bind_some, if_pos htype, hconfig, hv,
        Option.isSome_some]
    have hsame := (h hrun c hmem htype).1 hid
    rw [Db.SameRounding, Db.expectedValue, hconfig, Option.bind_some, Option.bind_some, hid,
      hv] at hsame
    exact hsame.symm
  · intro h hrun c hc htype
    refine ⟨?_, fun hid => Db.unmoved_of_count (hother c.id hid)⟩
    intro hid
    have hfound := Db.challenge_eq_some.mpr ⟨hc, hid⟩
    obtain ⟨t, hrun⟩ := Option.isSome_iff_exists.mp hrun
    simp only [run, Db.recalculate, hfound, bind, Option.bind_some, if_pos htype,
      Option.bind_eq_some_iff] at hrun
    obtain ⟨config, hconfig, v, hv, -⟩ := hrun
    rw [Db.SameRounding, Db.expectedValue, hconfig, Option.bind_some, Option.bind_some, hid, hv]
    exact (h c hfound htype config hconfig v hv).symm

end Recalculation

/-! ### Operations on submissions -/

namespace Plan

variable {plan : Plan}

/-- What the checks have established for the inserts: the references exist, and neither the
user nor the team has solved the challenge, which is the one that is recalculated. -/
def Checked (db : Db) : Plan → Prop
  | .solve challengeId userId teamId recalculation =>
    recalculation.target = some challengeId ∧
      (db.insertSubmission challengeId userId teamId .correct).isSome ∧
      db.existingSolve challengeId userId teamId = false
  | .toCorrect sub teamId => db.existingSolve sub.challenge_id sub.user_id teamId = false
  | _ => True

theorem settles_solve {challengeId : Nat} {userId teamId : Option Nat}
    {recalculation : Recalculation}
    (hchecked : (Plan.solve challengeId userId teamId recalculation).Checked db) :
    Recalculation.Settles mode db ((Plan.solve challengeId userId teamId recalculation).apply db) ↔
      (Plan.solve challengeId userId teamId recalculation).Keeps mode db := by
  obtain ⟨htarget, hsome, hunsolved⟩ := hchecked
  obtain ⟨saved, hsaved⟩ := Option.isSome_iff_exists.mp hsome
  obtain ⟨written, hwritten⟩ :=
    Option.isSome_iff_exists.mp ((Db.insertSolve_saved hsaved).mpr hunsolved)
  have hinsert : db.insertCorrect challengeId userId teamId = some written := by
    rw [Db.insertCorrect, hsaved, Option.bind_some, hwritten]
  obtain ⟨hframe, hsolves, -⟩ := Db.insertCorrect_eq_some hinsert
  have hcount : ∀ id, written.solveCount mode id = if challengeId = id then
      db.solvesWith mode ⟨db.nextId, challengeId, userId, teamId⟩ else db.solveCount mode id :=
    Db.solveCount_cons hframe.visible hsolves
  have hother : ∀ id ≠ challengeId, written.solveCount mode id = db.solveCount mode id := by
    intro id hne
    rw [hcount, if_neg (Ne.symm hne)]
  have happly : (Plan.solve challengeId userId teamId recalculation).apply db =
      some (written, recalculation) := by
    rw [apply, hinsert, Option.map_some]
  rw [happly]
  cases recalculation with
  | none => cases htarget
  | contestant id =>
    obtain rfl := Option.some.inj htarget
    refine iff_of_true ?_ trivial
    rintro _ ⟨⟩ - c - -
    by_cases hid : c.id = id
    · exact .inl hid
    · exact .inr (Db.unmoved_of_count (hother c.id hid))
  | management id =>
    obtain rfl := Option.some.inj htarget
    rw [Recalculation.settles_management hother, hcount, if_pos rfl, Db.IfDynamic, Db.challenge,
      hframe.challenges]
    rfl

theorem settles_toCorrect {sub : Submission} {teamId : Option Nat} (hsub : sub ∈ db.submissions)
    (hchecked : (Plan.toCorrect sub teamId).Checked db) :
    Recalculation.Settles mode db ((Plan.toCorrect sub teamId).apply db) ↔
      (Plan.toCorrect sub teamId).Keeps mode db := by
  have hsolved := Db.insertSolve_isSome hsub hchecked
  cases hinsert : db.insertSolve ⟨sub.id, sub.challenge_id, sub.user_id, teamId⟩ with
  | none =>
    have hclash : ¬ ∀ s ∈ db.solves, s.id ≠ sub.id := by
      rw [← hsolved, hinsert]
      simp
    simp [Plan.apply, hinsert, Recalculation.Settles, Keeps, hclash]
  | some solved =>
    have hfree : ∀ s ∈ db.solves, s.id ≠ sub.id := by
      rw [← hsolved, hinsert]
      rfl
    have happly : (Plan.toCorrect sub teamId).apply db =
        some (solved.setSubmission sub.id .correct teamId, .management sub.challenge_id) := by
      rw [apply, hinsert, Option.map_some]
    have hframe := apply_frame happly
    have hcount : ∀ id, (solved.setSubmission sub.id .correct teamId).solveCount mode id =
        if sub.challenge_id = id then
          db.solvesWith mode ⟨sub.id, sub.challenge_id, sub.user_id, teamId⟩
        else db.solveCount mode id :=
      Db.solveCount_cons hframe.visible (Db.insertSolve_eq_some hinsert).2.1
    have hother : ∀ id ≠ sub.challenge_id,
        (solved.setSubmission sub.id .correct teamId).solveCount mode id =
          db.solveCount mode id := by
      intro id hne
      rw [hcount, if_neg (Ne.symm hne)]
    rw [happly, Recalculation.settles_management hother, hcount, if_pos rfl, Db.IfDynamic,
      Db.challenge, hframe.challenges]
    constructor
    · exact fun hkeeps _ => hkeeps
    · exact fun hkeeps => hkeeps hfree

theorem settles_toIncorrect {sub : Submission} (hsub : sub ∈ db.submissions) :
    Recalculation.Settles mode db ((Plan.toIncorrect sub).apply db) ↔
      (Plan.toIncorrect sub).Keeps mode db := by
  have hframe : Db.Frame db
      ((db.deleteSolves fun s => s.id == sub.id).setSubmission sub.id .incorrect sub.team_id) :=
    ⟨rfl, rfl, rfl⟩
  have hcount : ∀ id, Db.solveCount
      ((db.deleteSolves fun s => s.id == sub.id).setSubmission sub.id .incorrect sub.team_id)
      mode id = db.solvesWithout mode id fun s => s.id == sub.id :=
    Db.solveCount_filter hframe.visible rfl
  rw [apply, Recalculation.settles_management, hcount, Db.IfDynamic, Db.challenge,
    hframe.challenges]
  · rfl
  · intro id hne
    rw [hcount, Db.solvesWithout_of_ne hsub (Ne.symm hne)]

theorem settles_delete {sub : Submission} (hsub : sub ∈ db.submissions) :
    Recalculation.Settles mode db ((Plan.delete sub).apply db) ↔
      (Plan.delete sub).Keeps mode db := by
  have hframe : Db.Frame db (db.deleteSubmissions fun s => s.id == sub.id) := ⟨rfl, rfl, rfl⟩
  have hsolves : (db.deleteSubmissions fun s => s.id == sub.id).solves =
      db.solves.filter fun s => !(s.id == sub.id) := by
    apply List.filter_congr
    intro s _
    rw [← Db.ofSubmission_id hsub]
    rfl
  have hcount : ∀ id, (db.deleteSubmissions fun s => s.id == sub.id).solveCount mode id =
      db.solvesWithout mode id fun s => s.id == sub.id :=
    Db.solveCount_filter hframe.visible hsolves
  have hother : ∀ id ≠ sub.challenge_id,
      (db.deleteSubmissions fun s => s.id == sub.id).solveCount mode id =
        db.solveCount mode id := by
    intro id hne
    rw [hcount, Db.solvesWithout_of_ne hsub (Ne.symm hne)]
  rw [apply, Keeps]
  by_cases htype : sub.type = .correct
  · simp only [if_pos htype]
    rw [Recalculation.settles_management hother, hcount, Db.IfDynamic, Db.challenge,
      hframe.challenges]
    rfl
  · simp only [if_neg htype]
    rw [Recalculation.settles_none_of_other hframe hother, hcount]

/-- Statements that move no solve keep all values as they are. -/
theorem settles_of_solves (hframe : Db.Frame db written) (hsolves : written.solves = db.solves) :
    Recalculation.Settles mode db (some (written, .none)) := by
  rintro _ ⟨⟩ - c - -
  apply Db.unmoved_of_count
  rw [Db.solveCount, hsolves, hframe.visible]
  rfl

theorem settles_iff_keeps (hvalid : plan.Valid db) (hchecked : plan.Checked db) :
    Recalculation.Settles mode db (plan.apply db) ↔ plan.Keeps mode db := by
  cases plan with
  | solve => exact settles_solve hchecked
  | submit type challengeId userId teamId =>
    refine iff_of_true ?_ trivial
    cases hinsert : db.insertSubmission challengeId userId teamId type with
    | none => simp [apply, hinsert, Recalculation.Settles]
    | some saved =>
      obtain ⟨hframe, hsolves, -⟩ := Db.insertSubmission_eq_some hinsert
      rw [apply, hinsert, Option.map_some]
      exact settles_of_solves hframe hsolves
  | toCorrect sub => exact settles_toCorrect (hvalid.1 sub rfl) hchecked
  | toIncorrect sub => exact settles_toIncorrect (hvalid.1 sub rfl)
  | retype sub type =>
    exact iff_of_true (settles_of_solves ⟨rfl, rfl, rfl⟩ rfl) trivial
  | delete sub => exact settles_delete (hvalid.1 sub rfl)

end Plan

namespace Db

theorem insertSubmission_isSome {challengeId : Nat} {userId teamId : Option Nat}
    {type : SubmissionType} (hchallenge : (db.challenge challengeId).isSome)
    (huser : ∀ id ∈ userId, (db.user id).isSome) (hteam : ∀ id ∈ teamId, (db.team id).isSome) :
    (db.insertSubmission challengeId userId teamId type).isSome := by
  rw [insertSubmission, if_pos ⟨hchallenge, huser, hteam⟩]
  rfl

theorem isSome_of_lockChallenge {challengeId : Nat} {c : Challenge}
    (h : db.lockChallenge challengeId = some c) : (db.challenge challengeId).isSome := by
  rw [(Option.filter_eq_some_iff.mp h).1]
  rfl

/-- The user and the team that pass the check are there. -/
theorem validateSolveAccount_eq_some {userId teamId checked : Option Nat}
    (h : db.validateSolveAccount mode userId teamId = some checked) :
    (∀ id ∈ userId, (db.user id).isSome) ∧ ∀ id ∈ checked, (db.team id).isSome := by
  simp only [validateSolveAccount, bind, Option.bind_eq_some_iff] at h
  obtain ⟨user, ⟨id, rfl, huser⟩, h⟩ := h
  constructor
  · rintro _ ⟨⟩
    rw [huser]
    rfl
  · split_ifs at h with hmode hnone hteam hteam
    all_goals
      obtain rfl := Option.some.inj h
      intro team hid
      rw [Option.mem_def] at hid
      rw [hid] at hteam
      simp only [Option.isSome_some, Option.bind_some, true_and, not_or] at hteam
      exact Option.isSome_iff_ne_none.mpr hteam.1

end Db

namespace ScoringOp

variable {plan : Plan}

theorem attempt_checked {userId challengeId : Nat}
    (h : attempt.plan db userId challengeId = some plan) : plan.Checked db := by
  simp only [attempt.plan, bind, Option.bind_eq_some_iff] at h
  obtain ⟨user, huser, team, ⟨teamId, -, hteam⟩, challenge, hchallenge, h⟩ := h
  split at h
  · cases h
  rename_i hunsolved
  cases h
  have hid : team.id = teamId := by simpa using List.find?_some hteam
  refine ⟨rfl, Db.insertSubmission_isSome ?_ ?_ ?_, Bool.eq_false_iff.mpr hunsolved⟩
  · rw [hchallenge]
    rfl
  · rintro _ ⟨⟩
    rw [huser]
    rfl
  · rintro _ ⟨⟩
    rw [hid, hteam]
    rfl

theorem solve_checked {userId challengeId : Nat}
    (h : solve.plan mode db userId challengeId = some plan) : plan.Checked db := by
  simp only [solve.plan, bind, Option.bind_eq_some_iff] at h
  obtain ⟨user, -, challenge, hlock, h⟩ := h
  split at h
  · cases h
  obtain ⟨teamId, hteam, h⟩ := Option.bind_eq_some_iff.mp h
  split at h
  · cases h
  rename_i hunsolved
  cases h
  obtain ⟨husers, hteams⟩ := Db.validateSolveAccount_eq_some hteam
  exact ⟨rfl, Db.insertSubmission_isSome (Db.isSome_of_lockChallenge hlock) husers hteams,
    Bool.eq_false_iff.mpr hunsolved⟩

theorem createSubmission_checked {type : SubmissionType} {challengeId : Nat}
    {userId teamId : Option Nat}
    (h : createSubmission.plan mode db type challengeId userId teamId = some plan) :
    plan.Checked db := by
  simp only [createSubmission.plan, bind, Option.bind_eq_some_iff] at h
  obtain ⟨challenge, hlock, checked, hteam, h⟩ := h
  split at h
  · split at h
    · cases h
    rename_i hunsolved
    cases h
    obtain ⟨husers, hteams⟩ := Db.validateSolveAccount_eq_some hteam
    exact ⟨rfl, Db.insertSubmission_isSome (Db.isSome_of_lockChallenge hlock) husers hteams,
      Bool.eq_false_iff.mpr hunsolved⟩
  · cases h
    trivial

theorem retypeSubmission_checked {submissionId : Nat} {correct : Bool}
    (h : retypeSubmission.plan mode db submissionId correct = some plan) : plan.Checked db := by
  simp only [retypeSubmission.plan, bind, Option.bind_eq_some_iff] at h
  obtain ⟨sub, -, challenge, -, h⟩ := h
  split at h
  · split at h
    · cases h
      trivial
    · obtain ⟨teamId, -, h⟩ := Option.bind_eq_some_iff.mp h
      split at h
      · cases h
      rename_i hunsolved
      cases h
      exact Bool.eq_false_iff.mpr hunsolved
  · split at h
    · cases h
      trivial
    · cases h
      trivial

theorem plan_checked {op : ScoringOp} (h : op.plan mode db = some plan) : plan.Checked db := by
  cases op with
  | attempt => exact attempt_checked h
  | solve => exact solve_checked h
  | createSubmission => exact createSubmission_checked h
  | retypeSubmission => exact retypeSubmission_checked h
  | deleteSubmission =>
    simp only [ScoringOp.plan, deleteSubmission.plan, bind, Option.bind_eq_some_iff] at h
    obtain ⟨sub, -, challenge, -, h⟩ := h
    cases h
    trivial
  | _ => cases h

/-- What an operation on submissions writes settles if its plan keeps all values right. -/
theorem settles_plan {op : ScoringOp} (hwrite : op.write mode db =
      (op.plan mode db).bind fun plan => plan.apply db) :
    Recalculation.Settles mode db (op.write mode db) ↔
      ∀ plan ∈ op.plan mode db, plan.Keeps mode db := by
  rw [hwrite]
  cases hplan : op.plan mode db with
  | none => simp [Recalculation.Settles]
  | some plan =>
    rw [Option.bind_some, plan.settles_iff_keeps (plan_valid hplan) (plan_checked hplan)]
    simp

/-! ### Operations on accounts -/

section Accounts

variable {userId teamId : Nat} {hidden banned : Option Bool} {s : Solf}

/-- A row is found again by its id after an update that leaves the ids. -/
theorem find?_map_id {α : Type} (key : α → Nat) {f : α → α} (hf : ∀ a, key (f a) = key a)
    (l : List α) (id : Nat) :
    (l.map f).find? (fun a => key a == id) = (l.find? fun a => key a == id).map f := by
  rw [List.find?_map]
  congr 2
  funext a
  rw [Function.comp_apply, hf]

/-- The other rows are found again after a deletion. -/
theorem find?_filter_id {α : Type} (key : α → Nat) (l : List α) {k id : Nat} (hne : id ≠ k) :
    (l.filter fun a => key a ≠ k).find? (fun a => key a == id) =
      l.find? fun a => key a == id := by
  rw [List.find?_filter]
  congr 1
  funext a
  by_cases hid : key a = id
  · simp [hid, hne]
  · simp [hid]

/-- What a test says of the row of an id after an update of one row that leaves the ids. -/
theorem any_find?_update {α : Type} (key : α → Nat) {f : α → α} (hkey : ∀ a, key (f a) = key a)
    (test : α → Bool) (l : List α) (k id : Nat) :
    ((l.map fun a => if key a = k then f a else a).find? fun a => key a == id).any test =
      (l.find? fun a => key a == id).any fun a => if id = k then test (f a) else test a := by
  have hkeys : ∀ a, key (if key a = k then f a else a) = key a := by
    intro a
    split
    · exact hkey a
    · rfl
  rw [find?_map_id key hkeys, Option.any_map]
  cases ha : l.find? fun a => key a == id with
  | none => rfl
  | some a =>
    obtain rfl : key a = id := by simpa using List.find?_some ha
    simp only [Option.any_some, apply_ite test]

/-- An update that a test does not see. -/
theorem any_find?_map {α : Type} (key : α → Nat) {f : α → α} (hkey : ∀ a, key (f a) = key a)
    {test : α → Bool} (htest : ∀ a, test (f a) = test a) (l : List α) (id : Nat) :
    ((l.map f).find? fun a => key a == id).any test = (l.find? fun a => key a == id).any test := by
  simp only [find?_map_id key hkey, Option.any_map, htest]

theorem visible_patchUser {written : Db} {r : Recalculation}
    (h : patchUser.write db userId hidden banned = some (written, r)) (s : Solf) :
    written.visible mode s = (patchUser userId hidden banned).counts mode db s := by
  simp only [patchUser.write, bind, Option.bind_eq_some_iff] at h
  obtain ⟨_, -, h⟩ := h
  cases h
  cases mode with
  | teams => simp [counts, Db.visible, Db.team]
  | users =>
    cases hid : s.user_id with
    | none => simp [counts, Db.visible, hid]
    | some id =>
      simp only [counts, Db.visible, hid, Option.any_some, Db.user, Option.some.injEq, true_and]
      refine (any_find?_update User.id ?_ _ db.users userId id).trans ?_
      · intro u
        rfl
      · split
        · subst id
          rfl
        · rfl

theorem visible_patchTeam {written : Db} {r : Recalculation}
    (h : patchTeam.write db teamId hidden banned = some (written, r)) (s : Solf) :
    written.visible mode s = (patchTeam teamId hidden banned).counts mode db s := by
  simp only [patchTeam.write, bind, Option.bind_eq_some_iff] at h
  obtain ⟨_, -, h⟩ := h
  cases h
  cases mode with
  | users => simp [counts, Db.visible, Db.user]
  | teams =>
    cases hid : s.team_id with
    | none => simp [counts, Db.visible, hid]
    | some id =>
      simp only [counts, Db.visible, hid, Option.any_some, Db.team, Option.some.injEq, true_and]
      refine (any_find?_update Team.id ?_ _ db.teams teamId id).trans ?_
      · intro t
        rfl
      · split
        · subst id
          rfl
        · rfl

/-- Solves of other users are as visible as before when a user is deleted. -/
theorem visible_deleteUser {written : Db} {r : Recalculation}
    (h : deleteUser.write db userId = some (written, r)) (hother : s.user_id ≠ some userId) :
    written.visible mode s = db.visible mode s := by
  simp only [deleteUser.write, bind, Option.bind_eq_some_iff] at h
  obtain ⟨_, -, h⟩ := h
  cases h
  cases mode with
  | users =>
    cases hid : s.user_id with
    | none => simp [Db.visible, hid]
    | some id =>
      have hne : id ≠ userId := fun heq => hother (by rw [hid, heq])
      simp only [Db.visible, hid, Option.any_some, Db.user, find?_filter_id User.id db.users hne]
  | teams =>
    cases hid : s.team_id with
    | none => simp [Db.visible, hid]
    | some id =>
      simp only [Db.visible, hid, Option.any_some, Db.team]
      apply any_find?_map Team.id
      all_goals
        intro t
        split <;> rfl

/-- Solves of other teams are as visible as before when a team is deleted. -/
theorem visible_deleteTeam {written : Db} {r : Recalculation}
    (h : deleteTeam.write db teamId = some (written, r)) (hother : s.team_id ≠ some teamId) :
    written.visible mode s = db.visible mode s := by
  simp only [deleteTeam.write, bind, Option.bind_eq_some_iff] at h
  obtain ⟨_, -, h⟩ := h
  cases h
  cases mode with
  | teams =>
    cases hid : s.team_id with
    | none => simp [Db.visible, hid]
    | some id =>
      have hne : id ≠ teamId := fun heq => hother (by rw [hid, heq])
      simp only [Db.visible, hid, Option.any_some, Db.team, find?_filter_id Team.id db.teams hne]
  | users =>
    cases hid : s.user_id with
    | none => simp [Db.visible, hid]
    | some id =>
      simp only [Db.visible, hid, Option.any_some, Db.user]
      apply any_find?_map User.id
      all_goals
        intro u
        split <;> rfl

/-- The count of the state afterwards, from the rows of the state before. -/
theorem solveCount_of_filter {written : Db} {kept counted : Solf → Bool} {challengeId : Nat}
    (hsolves : written.solves = db.solves.filter kept)
    (h : ∀ s ∈ db.solves, s.challenge_id = challengeId →
      (written.visible mode s && kept s) = counted s) :
    written.solveCount mode challengeId = db.countWhere challengeId counted := by
  rw [Db.solveCount, hsolves, List.countP_filter]
  apply List.countP_congr
  intro s hs
  by_cases hid : s.challenge_id = challengeId
  · simp [hid, ← h s hs hid]
  · simp [hid]

theorem solveCount_patchUser {written : Db} {r : Recalculation}
    (h : patchUser.write db userId hidden banned = some (written, r)) (challengeId : Nat) :
    written.solveCount mode challengeId =
      db.countWhere challengeId ((patchUser userId hidden banned).counts mode db) := by
  have hsolves : written.solves = db.solves := by
    simp only [patchUser.write, bind, Option.bind_eq_some_iff] at h
    obtain ⟨_, -, h⟩ := h
    cases h
    rfl
  rw [Db.solveCount, hsolves, Db.countWhere]
  simp only [visible_patchUser h]

theorem solveCount_patchTeam {written : Db} {r : Recalculation}
    (h : patchTeam.write db teamId hidden banned = some (written, r)) (challengeId : Nat) :
    written.solveCount mode challengeId =
      db.countWhere challengeId ((patchTeam teamId hidden banned).counts mode db) := by
  have hsolves : written.solves = db.solves := by
    simp only [patchTeam.write, bind, Option.bind_eq_some_iff] at h
    obtain ⟨_, -, h⟩ := h
    cases h
    rfl
  rw [Db.solveCount, hsolves, Db.countWhere]
  simp only [visible_patchTeam h]

theorem solveCount_deleteTeam {written : Db} {r : Recalculation}
    (h : deleteTeam.write db teamId = some (written, r)) (challengeId : Nat) :
    written.solveCount mode challengeId =
      db.countWhere challengeId ((deleteTeam teamId).counts mode db) := by
  have hsolves : written.solves = db.solves.filter fun s =>
      !(s.team_id == some teamId) &&
        !db.ofSubmission (fun sub => sub.team_id == some teamId) s := by
    simp only [deleteTeam.write, bind, Option.bind_eq_some_iff] at h
    obtain ⟨_, -, h⟩ := h
    cases h
    exact List.filter_filter
  apply solveCount_of_filter hsolves
  intro s _ _
  by_cases hteam : s.team_id = some teamId
  · simp [counts, hteam]
  · rw [visible_deleteTeam h hteam, counts, Bool.and_assoc]

theorem solveCount_removeMember {written : Db} {r : Recalculation}
    (h : removeMember.write mode db teamId userId = some (written, r)) (challengeId : Nat) :
    written.solveCount mode challengeId =
      db.countWhere challengeId ((removeMember teamId userId).counts mode db) := by
  simp only [removeMember.write, bind, Option.bind_eq_some_iff] at h
  obtain ⟨_, -, _, -, h⟩ := h
  split at h
  · cases h
  rename_i hteams
  have hmode : mode = .teams := not_not.mp (not_or.mp hteams).1
  subst hmode
  cases h
  exact solveCount_of_filter (show _ = db.solves.filter _ from rfl) fun s _ _ => rfl

/-- A challenge that is left keeps the solves of the other users. -/
theorem solveCount_deleteUser {written : Db} {r : Recalculation}
    (h : deleteUser.write db userId = some (written, r)) {c : Challenge}
    (hc : c ∈ db.challenges) (hauthor : c.user_id ≠ userId) :
    written.solveCount mode c.id = db.countWhere c.id ((deleteUser userId).counts mode db) := by
  have hsolves : written.solves = db.solves.filter fun s =>
      !((db.submissions.filter fun sub => !(sub.user_id == some userId)).any fun sub =>
        sub.id == s.id && db.challenges.any fun c =>
          c.id == sub.challenge_id && c.user_id == userId) &&
      (!(s.user_id == some userId) &&
        !db.ofSubmission (fun sub => sub.user_id == some userId) s) := by
    simp only [deleteUser.write, bind, Option.bind_eq_some_iff] at h
    obtain ⟨_, -, h⟩ := h
    cases h
    simp only [Db.deleteChallenges, Db.deleteSolves, Db.deleteSubmissions, List.filter_filter]
    rfl
  apply solveCount_of_filter hsolves
  intro s hs hchallenge
  -- no solve of the challenge goes with a challenge of the user
  have hkept : (db.submissions.filter fun sub => !(sub.user_id == some userId)).any (fun sub =>
      sub.id == s.id && db.challenges.any fun c =>
        c.id == sub.challenge_id && c.user_id == userId) = false := by
    rw [List.any_eq_false]
    intro sub hsub
    simp only [Bool.and_eq_true, beq_iff_eq, List.any_eq_true, not_and, not_exists]
    rintro hid c' hc' hid' heq
    have hshared := Db.challenge_of_submission hs (List.mem_of_mem_filter hsub) hid
    have hsame : c' = c := by
      apply List.inj_on_of_nodup_map db.challenges_pk hc' hc
      rw [hid', hshared, hchallenge]
    exact hauthor (hsame ▸ heq)
  rw [hkept, Bool.not_false, Bool.true_and]
  by_cases huser : s.user_id = some userId
  · simp [counts, huser]
  · rw [visible_deleteUser h huser, counts, Bool.and_assoc]

end Accounts

/-- An operation on accounts that passes its check moves the solves that it is said to move. -/
theorem settles_accounts {op : ScoringOp} {stays : Challenge → Bool} {passes : Prop}
    (hpass : passes → ∃ written, op.write mode db = some (written, .none) ∧
      written.challenges = db.challenges.filter stays ∧
      ∀ c ∈ written.challenges,
        written.solveCount mode c.id = db.countWhere c.id (op.counts mode db))
    (hrefuse : ¬ passes → op.write mode db = none) :
    Recalculation.Settles mode db (op.write mode db) ↔ (passes → op.FlatAll mode db stays) := by
  by_cases h : passes
  · obtain ⟨written, hwrite, hchallenges, hcount⟩ := hpass h
    rw [hwrite, Recalculation.settles_none (fun id => db.countWhere id (op.counts mode db)) hcount,
      hchallenges, forall_prop_of_true h]
    simp only [FlatAll, List.mem_filter, and_imp]
    apply forall₂_congr
    intro c _
    exact forall_comm
  · rw [hrefuse h]
    exact iff_of_true (by simp [Recalculation.Settles]) fun hpasses => absurd hpasses h

theorem settles_patchUser {userId : Nat} {hidden banned : Option Bool} :
    Recalculation.Settles mode db ((patchUser userId hidden banned).write mode db) ↔
      (patchUser userId hidden banned).Keeps mode db := by
  apply settles_accounts
  · intro hpasses
    obtain ⟨user, huser⟩ := Option.isSome_iff_exists.mp hpasses
    have hwrite : ∃ written, patchUser.write db userId hidden banned = some (written, .none) ∧
        written.challenges = db.challenges := by
      rw [patchUser.write, huser]
      exact ⟨_, rfl, rfl⟩
    obtain ⟨written, hwrite, hchallenges⟩ := hwrite
    exact ⟨written, hwrite, by rw [hchallenges, List.filter_true],
      fun c _ => solveCount_patchUser hwrite c.id⟩
  · intro hrefused
    rw [Option.not_isSome_iff_eq_none] at hrefused
    simp [write, patchUser.write, hrefused]

theorem settles_patchTeam {teamId : Nat} {hidden banned : Option Bool} :
    Recalculation.Settles mode db ((patchTeam teamId hidden banned).write mode db) ↔
      (patchTeam teamId hidden banned).Keeps mode db := by
  apply settles_accounts
  · intro hpasses
    obtain ⟨team, hteam⟩ := Option.isSome_iff_exists.mp hpasses
    have hwrite : ∃ written, patchTeam.write db teamId hidden banned = some (written, .none) ∧
        written.challenges = db.challenges := by
      rw [patchTeam.write, hteam]
      exact ⟨_, rfl, rfl⟩
    obtain ⟨written, hwrite, hchallenges⟩ := hwrite
    exact ⟨written, hwrite, by rw [hchallenges, List.filter_true],
      fun c _ => solveCount_patchTeam hwrite c.id⟩
  · intro hrefused
    rw [Option.not_isSome_iff_eq_none] at hrefused
    simp [write, patchTeam.write, hrefused]

theorem settles_deleteTeam {teamId : Nat} :
    Recalculation.Settles mode db ((deleteTeam teamId).write mode db) ↔
      (deleteTeam teamId).Keeps mode db := by
  apply settles_accounts
  · intro hpasses
    obtain ⟨team, hteam⟩ := Option.isSome_iff_exists.mp hpasses
    have hwrite : ∃ written, deleteTeam.write db teamId = some (written, .none) ∧
        written.challenges = db.challenges := by
      rw [deleteTeam.write, hteam]
      exact ⟨_, rfl, rfl⟩
    obtain ⟨written, hwrite, hchallenges⟩ := hwrite
    exact ⟨written, hwrite, by rw [hchallenges, List.filter_true],
      fun c _ => solveCount_deleteTeam hwrite c.id⟩
  · intro hrefused
    rw [Option.not_isSome_iff_eq_none] at hrefused
    simp [write, deleteTeam.write, hrefused]

theorem settles_deleteUser {userId : Nat} :
    Recalculation.Settles mode db ((deleteUser userId).write mode db) ↔
      (deleteUser userId).Keeps mode db := by
  apply settles_accounts
  · intro hpasses
    obtain ⟨user, huser⟩ := Option.isSome_iff_exists.mp hpasses
    have hwrite : ∃ written, deleteUser.write db userId = some (written, .none) ∧
        written.challenges = db.challenges.filter fun c => !(c.user_id == userId) := by
      rw [deleteUser.write, huser]
      exact ⟨_, rfl, rfl⟩
    obtain ⟨written, hwrite, hchallenges⟩ := hwrite
    refine ⟨written, hwrite, ?_, fun c hc => ?_⟩
    · rw [hchallenges]
      apply List.filter_congr
      intro c _
      simp [Bool.beq_eq_decide_eq]
    · rw [hchallenges, List.mem_filter] at hc
      exact solveCount_deleteUser hwrite hc.1 (by simpa using hc.2)
  · intro hrefused
    rw [Option.not_isSome_iff_eq_none] at hrefused
    simp [write, deleteUser.write, hrefused]

theorem settles_removeMember {teamId userId : Nat} :
    Recalculation.Settles mode db ((removeMember teamId userId).write mode db) ↔
      (removeMember teamId userId).Keeps mode db := by
  apply settles_accounts
  · rintro ⟨rfl, hteam, huser⟩
    obtain ⟨team, hteam⟩ := Option.isSome_iff_exists.mp hteam
    obtain ⟨user, huser, hmember⟩ := (Option.any_eq_true _ _).mp huser
    have hwrite : ∃ written, removeMember.write .teams db teamId userId = some (written, .none) ∧
        written.challenges = db.challenges := by
      have hpasses : ¬ (AccountMode.teams ≠ .teams ∨ user.team_id ≠ some teamId) := by
        simpa using hmember
      simp only [removeMember.write, hteam, huser, bind, Option.bind_some, if_neg hpasses]
      exact ⟨_, rfl, rfl⟩
    obtain ⟨written, hwrite, hchallenges⟩ := hwrite
    exact ⟨written, hwrite, by rw [hchallenges, List.filter_true],
      fun c _ => solveCount_removeMember hwrite c.id⟩
  · intro hrefused
    simp only [write, removeMember.write, bind]
    cases hteam : db.team teamId with
    | none => rfl
    | some team =>
      cases huser : db.user userId with
      | none => rfl
      | some user =>
        have hrefuses : mode ≠ .teams ∨ user.team_id ≠ some teamId := by
          by_contra hpasses
          rw [not_or, not_not, not_not] at hpasses
          exact hrefused ⟨hpasses.1, by rw [hteam]; rfl, by simp [huser, hpasses.2]⟩
        simp only [Option.bind_some, if_pos hrefuses]

/-! ### The score lock -/

/-- What the score lock writes: a submission, and a solve if it can insert one. -/
theorem lockScore_cases {challengeId teamId : Nat} {written : Db} {r : Recalculation}
    (h : lockScore.write db challengeId teamId = some (written, r)) :
    ∃ userId, db.captainOrMember teamId = some userId ∧
      ((written.solves = db.solves ∧ ¬ lockScore.Inserts db challengeId teamId userId) ∨
        (written.solves = ⟨db.nextId, challengeId, some userId, some teamId⟩ :: db.solves ∧
          lockScore.Inserts db challengeId teamId userId)) := by
  simp only [lockScore.write, bind, Option.bind_eq_some_iff] at h
  obtain ⟨challenge, hchallenge, h⟩ := h
  split at h
  · cases h
  rename_i hchecked
  obtain ⟨userId, hcaptain, saved, hsaved, h⟩ := by simpa only [Option.bind_eq_some_iff] using h
  cases h
  have hsolves := (Db.insertSubmission_eq_some hsaved).2.1
  have hfree := Db.insertSolve_saved hsaved
  refine ⟨userId, hcaptain, ?_⟩
  cases hsolved : saved.insertSolve ⟨db.nextId, challengeId, some userId, some teamId⟩ with
  | none =>
    left
    refine ⟨hsolves, fun hinserts => ?_⟩
    have hsome := hfree.mpr hinserts.unsolved
    rw [hsolved] at hsome
    cases hsome
  | some solved =>
    right
    have hreferences : (db.challenge challengeId).isSome ∧
        (∀ id ∈ some userId, (db.user id).isSome) ∧ ∀ id ∈ some teamId, (db.team id).isSome := by
      by_contra hmissing
      rw [Db.insertSubmission, if_neg hmissing] at hsaved
      cases hsaved
    refine ⟨by rw [Option.getD_some, (Db.insertSolve_eq_some hsolved).2.1, hsolves], ?_⟩
    constructor
    · rw [hchallenge, Option.any_some]
      exact (Bool.not_eq_false _).mp (not_or.mp hchecked).1
    · exact hreferences.2.1 userId rfl
    · exact hreferences.2.2 teamId rfl
    · apply hfree.mp
      rw [hsolved]
      rfl

theorem lockScore_isSome {challengeId teamId userId : Nat}
    (hcaptain : db.captainOrMember teamId = some userId)
    (hinserts : lockScore.Inserts db challengeId teamId userId) :
    (lockScore.write db challengeId teamId).isSome := by
  obtain ⟨challenge, hchallenge, hconfigured⟩ := (Option.any_eq_true _ _).mp hinserts.configured
  have hunsolved : db.existingSolve challengeId none (some teamId) = false := by
    have hall := hinserts.unsolved
    simp only [Db.existingSolve, List.any_eq_false, Bool.and_eq_true, Bool.or_eq_true] at hall ⊢
    rintro s hs ⟨hid, hkey⟩
    exact hall s hs ⟨hid, hkey.imp (by simp [sameKey]) id⟩
  have hsaved : (db.insertSubmission challengeId (some userId) (some teamId) .correct).isSome := by
    apply Db.insertSubmission_isSome
    · rw [hchallenge]
      rfl
    · rintro _ ⟨⟩
      exact hinserts.user
    · rintro _ ⟨⟩
      exact hinserts.team
  obtain ⟨saved, hsaved⟩ := Option.isSome_iff_exists.mp hsaved
  simp [lockScore.write, hchallenge, hconfigured, hunsolved, hcaptain, hsaved]

theorem settles_lockScore {challengeId teamId : Nat} :
    Recalculation.Settles mode db (lockScore.write db challengeId teamId) ↔
      (lockScore challengeId teamId).Keeps mode db := by
  cases hwrite : lockScore.write db challengeId teamId with
  | none =>
    refine iff_of_true (by simp [Recalculation.Settles]) ?_
    intro userId hcaptain hinserts
    have hsome := lockScore_isSome hcaptain hinserts
    rw [hwrite] at hsome
    cases hsome
  | some p =>
    obtain ⟨written, r⟩ := p
    obtain ⟨hframe, rfl⟩ := lockScore_write hwrite
    obtain ⟨userId, hcaptain, ⟨hsolves, hnot⟩ | ⟨hsolves, hinserts⟩⟩ := lockScore_cases hwrite
    · refine iff_of_true (Plan.settles_of_solves hframe hsolves) ?_
      intro userId' hcaptain' hinserts
      rw [Option.mem_def, hcaptain] at hcaptain'
      exact absurd (Option.some.inj hcaptain' ▸ hinserts) hnot
    · have hcount : ∀ id, written.solveCount mode id = if challengeId = id then
          db.solvesWith mode ⟨db.nextId, challengeId, some userId, some teamId⟩
          else db.solveCount mode id := Db.solveCount_cons hframe.visible hsolves
      have hother : ∀ id ≠ challengeId,
          written.solveCount mode id = db.solveCount mode id := by
        intro id hne
        rw [hcount, if_neg (Ne.symm hne)]
      rw [Recalculation.settles_none_of_other hframe hother, hcount, if_pos rfl, Keeps]
      constructor
      · intro hflat userId' hcaptain' _
        rw [Option.mem_def, hcaptain] at hcaptain'
        exact Option.some.inj hcaptain' ▸ hflat
      · exact fun hkeeps => hkeeps userId hcaptain hinserts

/-! ### The configuration -/

section Configuration

variable {challengeId : Nat} {scoringType : Option ChallengeType} {data : ScoringData}

/-- The edit leads to a dynamic challenge: its checks pass, and the configuration is valid. -/
structure patchChallenge.Configures (db : Db) (challengeId : Nat)
    (scoringType : Option ChallengeType) (data : ScoringData) (c : Challenge)
    (config : DynamicConfig) : Prop where
  locked : db.lockChallenge challengeId = some c
  scored : c.type = .standard ∨ c.type = .dynamic
  dynamic : scoringType.getD c.type = .dynamic
  value : data.value.isSome → (scoreInteger 0 data.value).isSome
  config : dynamicConfig data (c.dynamic.filter fun _ => c.type = .dynamic) = some config

theorem keeps_patchChallenge : (patchChallenge challengeId scoringType data).Keeps mode db ↔
    ∀ c config, patchChallenge.Configures db challengeId scoringType data c config →
      config.RoundsAlike (db.solveCount mode challengeId) := by
  constructor
  · intro h c config hc
    exact h c hc.locked hc.scored hc.dynamic hc.value config hc.config
  · intro h c hlocked hscored hdynamic hvalue config hconfig
    exact h c config ⟨hlocked, hscored, hdynamic, hvalue, hconfig⟩

theorem patchChallenge_configures {c : Challenge} {config : DynamicConfig}
    (h : patchChallenge.Configures db challengeId scoringType data c config) :
    ∃ f : Challenge → Challenge, (f c).type = .dynamic ∧ (f c).dynamic = some config ∧
      patchChallenge.write db challengeId scoringType data =
        some (db.updateChallenge challengeId f, .management challengeId) := by
  have hknown : ¬ (scoringType.any fun t => t ≠ .standard ∧ t ≠ .dynamic) = true := by
    cases scoringType with
    | none => simp
    | some t => simp [show t = .dynamic from h.dynamic]
  have hvalue : ¬ (data.value.isSome ∧ scoreInteger 0 data.value = none) := by
    rintro ⟨hsome, hnone⟩
    have hvalid := h.value hsome
    rw [hnone] at hvalid
    cases hvalid
  have hconfig : patchChallenge.config c scoringType data = some (some config) := by
    rw [patchChallenge.config, if_pos h.dynamic, h.config, Option.map_some]
  simp only [patchChallenge.write, bind, h.locked, Option.bind_some, if_neg hknown, if_neg hvalue,
    hconfig]
  rcases h.scored with htype | htype
  · have hstandard : ¬ (c.type = .dynamic ∧ scoringType ≠ some .standard) := by simp [htype]
    have hother : ¬ c.type = .dynamic := by simp [htype]
    have hchange : scoringType = some .dynamic := by
      have hdynamic := h.dynamic
      cases scoringType with
      | none => rw [Option.getD_none, htype] at hdynamic; cases hdynamic
      | some t => rw [← hdynamic]; rfl
    rw [if_neg hstandard, if_neg hother, if_pos ⟨htype, hchange⟩]
    exact ⟨_, rfl, rfl, rfl⟩
  · have hstays : scoringType ≠ some .standard := by
      rintro rfl
      cases h.dynamic
    rw [if_pos ⟨htype, hstays⟩]
    exact ⟨_, htype, rfl, rfl⟩

theorem configures_of_write {written : Db}
    (h : patchChallenge.write db challengeId scoringType data =
      some (written, .management challengeId)) :
    ∃ c config, patchChallenge.Configures db challengeId scoringType data c config := by
  simp only [patchChallenge.write, bind, Option.bind_eq_some_iff] at h
  obtain ⟨c, hlocked, h⟩ := h
  split at h
  · cases h
  rename_i hknown
  split at h
  · cases h
  rename_i hvalue
  obtain ⟨stored, hstored, h⟩ := Option.bind_eq_some_iff.mp h
  have hscored : (c.type = .standard ∨ c.type = .dynamic) ∧
      scoringType.getD c.type = .dynamic := by
    split at h
    · rename_i htype
      refine ⟨.inr htype.1, ?_⟩
      cases scoringType with
      | none => exact htype.1
      | some t =>
        rw [Option.any_some, decide_eq_true_eq, not_and_not_right] at hknown
        exact hknown fun heq => htype.2 (congrArg some heq)
    split at h
    · cases h
    split at h
    · rename_i htype
      exact ⟨.inl htype.1, by rw [htype.2]; rfl⟩
    · cases h
  have hvalid : data.value.isSome → (scoreInteger 0 data.value).isSome := by
    intro hsome
    rw [Option.isSome_iff_ne_none]
    exact fun hnone => hvalue ⟨hsome, hnone⟩
  rw [patchChallenge.config, if_pos hscored.2] at hstored
  obtain ⟨config, hconfig, -⟩ := Option.map_eq_some_iff.mp hstored
  exact ⟨c, config, hlocked, hscored.1, hscored.2, hvalid, hconfig⟩

theorem settles_patchChallenge :
    Recalculation.Settles mode db (patchChallenge.write db challengeId scoringType data) ↔
      (patchChallenge challengeId scoringType data).Keeps mode db := by
  have hother : ∀ f, ∀ id ≠ challengeId,
      (db.updateChallenge challengeId f).solveCount mode id = db.solveCount mode id :=
    fun _ _ _ => rfl
  rw [keeps_patchChallenge]
  constructor
  · intro hsettles c config hc
    obtain ⟨f, htype, hdynamic, hwrite⟩ := patchChallenge_configures hc
    rw [hwrite, Recalculation.settles_management (hother f)] at hsettles
    have hfound := (Option.filter_eq_some_iff.mp hc.locked).1
    exact hsettles _ (Db.challenge_updateChallenge hfound) htype config hdynamic
  · intro h
    cases hwrite : patchChallenge.write db challengeId scoringType data with
    | none => simp [Recalculation.Settles]
    | some p =>
      obtain ⟨written, r⟩ := p
      obtain ⟨f, rfl, rfl | ⟨rfl, -⟩⟩ := patchChallenge_write hwrite
      · obtain ⟨c, config, hc⟩ := configures_of_write hwrite
        obtain ⟨g, -, hdynamic, hwrite'⟩ := patchChallenge_configures hc
        rw [← hwrite, hwrite', Recalculation.settles_management (hother g)]
        have hfound := (Option.filter_eq_some_iff.mp hc.locked).1
        intro c' hc' _ config' hconfig'
        rw [Option.mem_def, Db.challenge_updateChallenge hfound] at hc'
        obtain rfl := Option.some.inj hc'
        rw [Option.mem_def, hdynamic] at hconfig'
        exact Option.some.inj hconfig' ▸ h c config hc
      · rintro _ ⟨⟩ - c - -
        exact Db.unmoved_of_count rfl

end Configuration

/-- What an operation writes settles exactly under its condition. -/
theorem settles_iff_keeps (op : ScoringOp) :
    Recalculation.Settles mode db (op.write mode db) ↔ op.Keeps mode db := by
  cases op with
  | attempt userId challengeId =>
    refine iff_of_true ((settles_plan rfl).mpr ?_) trivial
    intro plan hplan
    obtain ⟨_, _, rfl⟩ := attempt_plan hplan
    trivial
  | solve | createSubmission | retypeSubmission | deleteSubmission => exact settles_plan rfl
  | lockScore => exact settles_lockScore
  | patchUser => exact settles_patchUser
  | deleteUser => exact settles_deleteUser
  | patchTeam => exact settles_patchTeam
  | deleteTeam => exact settles_deleteTeam
  | removeMember => exact settles_removeMember
  | patchChallenge => exact settles_patchChallenge

/-- A solve through the management platform keeps all values right on linear challenges and for
decays whose square is a double. -/
theorem keeps_solve {userId challengeId : Nat}
    (hexact : ∀ c ∈ db.challenge challengeId, ∀ config ∈ c.dynamic,
      config.function = some "linear" ∨ ∀ d ∈ config.decay, d ^ 2 < 2 ^ 53) :
    (ScoringOp.solve userId challengeId).Keeps mode db := by
  intro plan hplan
  obtain ⟨_, _, rfl⟩ := solve_plan hplan
  intro c hc _ config hconfig v hv
  exact calculateValue_eq_dynamicValue hv (hexact c hc config hconfig)

end ScoringOp

/-- Two numbers of solves show in a linear value unless they are the same after the first solve,
or the value is at its minimum for both. -/
theorem flat_linear_iff (config : ValidConfig) (hlinear : config.function = "linear")
    {c : Challenge} (hc : c.dynamic = some config.toConfig) (m n : Nat) :
    c.Flat m n ↔ m - 1 = n - 1 ∨
      (config.initial - config.decay * (m - 1 : Nat) ≤ config.minimum ∧
        config.initial - config.decay * (n - 1 : Nat) ≤ config.minimum) := by
  have hvalue : ∀ k, calculateValue config.toConfig k =
      some (max config.minimum (config.initial - config.decay * (k - 1 : Nat))) := by
    intro k
    have hlater : ValidConfig.later k = (k - 1 : Nat) := by
      rw [ValidConfig.later]
      omega
    rw [← calculateValueBy_ofRat, config.calculateValueBy_linear _ k hlinear, hlater]
  simp only [Challenge.Flat, hc, Option.mem_some_iff, forall_eq', hvalue, Option.some.injEq]
  constructor
  · intro heq
    by_cases hm : config.initial - config.decay * (m - 1 : Nat) ≤ config.minimum
    · right
      refine ⟨hm, ?_⟩
      rw [max_eq_left hm] at heq
      exact max_eq_left_iff.mp heq.symm
    · left
      have hsame : config.decay * (m - 1 : Nat) = config.decay * (n - 1 : Nat) := by omega
      have hpos := config.decay_pos
      have hcancel := mul_left_cancel₀ (by omega : config.decay ≠ 0) hsame
      exact_mod_cast hcancel
  · rintro (hsame | ⟨hm, hn⟩)
    · rw [hsame]
    · rw [max_eq_left hm, max_eq_left hn]

end Fctf
