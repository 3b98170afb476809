import Fctf.Deploy.Readiness

/-!
The rows of `challenge_start_tracking`. `HandleChallengeRunning` inserts one
whenever the finish time of its cache entry is not ahead, a Deleted event closes
one, and a start counts all of them. The history remembers the label of every
row, the deployments that became ready and those whose Deleted event is handled.
-/

namespace Fctf

open Run World

namespace Tracking

/-- `rows` has the labels of the rows of the slot's team and challenge, open and closed. A
deployment is `ready` from the first `HandleChallengeRunning` that its ready pod calls for. -/
structure History where
  events : Readiness.History := []
  rows : List String := []
  ready : List String := []
  deleted : List String := []

/-- The labels that a step adds to the table. -/
def inserted (w w' : World) : List String :=
  (w'.tracking.drop w.tracking.length).map Deployment.ns

/-- The deployment that becomes ready for the first time by the handled event. -/
def History.firstReady (h : History) : Option PodEvent → Option String
  | some ⟨ns, true⟩ => if ns ∈ h.ready then none else some ns
  | _ => none

/-- The deployment whose Deleted event a step finishes. The closing of an orphan's row
handles no event. -/
def History.finished (h : History) (w : World) : Action → Option String
  | .saveTracking i => (h.events.at i).bind fun _ =>
      match w.jobs[i]? with
      | some ⟨_, .closeTracking ns⟩ => some ns
      | _ => none
  | _ => none

def observe (h : History) (w : World) (a : Action) (w' : World) : History where
  events := Readiness.observe h.events w a w'
  rows := h.rows ++ inserted w w'
  ready :=
    match a with
    | .schedule .. => (h.firstReady (h.events.handled a)).toList ++ h.ready
    | _ => h.ready
  deleted := (h.finished w a).toList ++ h.deleted

/-- `currentDeployCount` of a start. -/
def History.currentDeployCount (h : History) : Nat := h.rows.length

/-- The check of `MaxDeployCount` when a team starts the challenge. -/
def History.maxDeployCountReached (h : History) : Option Int → Bool
  | some maxDeployCount => 0 < maxDeployCount && maxDeployCount ≤ h.currentDeployCount
  | none => false

/-- Each deployment has at most one row, none is open after its Deleted event, and the
rows are as many as the deployments that became ready. -/
structure OneRow (s : World × History) : Prop where
  once : ∀ ns, s.2.rows.count ns ≤ 1
  closed : ∀ ns ∈ s.2.deleted, ∀ t ∈ s.1.tracking, t.ns ≠ ns
  counted : s.2.currentDeployCount = s.2.ready.length

instance decidableOneRow (s : World × History) : Decidable (OneRow s) :=
  decidable_of_iff
    (s.2.rows.Nodup ∧ (∀ ns ∈ s.2.deleted, ∀ t ∈ s.1.tracking, t.ns ≠ ns) ∧
      s.2.currentDeployCount = s.2.ready.length)
    ⟨fun h => ⟨List.nodup_iff_count_le_one.mp h.1, h.2.1, h.2.2⟩,
      fun h => ⟨List.nodup_iff_count_le_one.mpr h.once, h.closed, h.counted⟩⟩

/-- The entry that `HandleChallengeRunning` is called with. -/
def running : Stage → Option ChallengeDeploymentCacheDTO
  | .running copy => some copy
  | _ => none

/-- A call of `HandleChallengeRunning` finds the finish time ahead, except when it handles
the first ready event of a deployment. Then the label of the entry has no row yet, and no
Deleted event of it was handled. -/
def InTime (s : World × History) : Action → Prop
  | .schedule i timeLimitMinutes ctfEnd =>
    ∀ job ∈ s.1.jobs[i]?, ∀ copy ∈ running job.stage,
      (s.1.redis.now < copy.time_finished ↔
        s.2.firstReady (s.2.events.handled (.schedule i timeLimitMinutes ctfEnd)) = none) ∧
      (copy.time_finished ≤ s.1.redis.now →
        copy._namespace ∉ s.2.rows ∧ copy._namespace ∉ s.2.deleted)
  | _ => True

instance decidableInTime (s : World × History) : DecidablePred (InTime s) := by
  rintro ⟨⟩ <;> (delta InTime; infer_instance)

section Rows

variable {α : Type*} {f : α → String} {l : List α}

/-- Where names do not repeat, no element of a name is left after the first one is erased. -/
theorem ne_of_mem_eraseP {a : String} (hnodup : (l.map f).Nodup) {x : α}
    (hx : x ∈ l.eraseP fun y => f y = a) : f x ≠ a := by
  induction l with
  | nil => cases hx
  | cons y l ih =>
    obtain ⟨hfresh, hrest⟩ := List.nodup_cons.mp hnodup
    by_cases hy : f y = a
    · rw [List.eraseP_cons_of_pos (by simpa using hy)] at hx
      intro hxa
      apply hfresh
      rw [hy, ← hxa]
      exact List.mem_map_of_mem hx
    · rw [List.eraseP_cons_of_neg (by simpa using hy)] at hx
      rcases List.mem_cons.mp hx with rfl | hx
      · exact hy
      · exact ih hrest hx

end Rows

variable {slot : Slot} {w w' : World} {h : History} {s t : World × History} {a : Action}

/-- A call of `HandleChallengeRunning` adds rows, any other step at most closes one. -/
theorem tracking_cases (hmove : Move slot w a w') :
    (∃ i timeLimitMinutes ctfEnd rows, a = .schedule i timeLimitMinutes ctfEnd ∧
      w'.tracking = w.tracking ++ rows) ∨
    ((∀ i timeLimitMinutes ctfEnd, a ≠ .schedule i timeLimitMinutes ctfEnd) ∧
      w'.tracking.Sublist w.tracking) := by
  cases hmove with
  | scheduled hjob hstage hfinish htracking =>
    left
    rcases htracking with rfl | rfl
    · exact ⟨_, _, _, [], rfl, by simp⟩
    · exact ⟨_, _, _, _, rfl, rfl⟩
  | saved => exact .inr ⟨nofun, List.eraseP_sublist⟩
  | _ => exact .inr ⟨nofun, .refl _⟩

theorem schedule_running (hteam : 0 < slot.team) {i : Nat} {job : Job}
    {copy : ChallengeDeploymentCacheDTO} (timeLimitMinutes ctfEnd : Int)
    (hjob : w.jobs[i]? = some job) (hstage : job.stage = .running copy) :
    ∃ w', step slot w (.schedule i timeLimitMinutes ctfEnd) = some w' ∧
      w'.tracking = w.tracking ++ if w.redis.now < copy.time_finished then []
        else [⟨copy._namespace, copy.origin⟩] := by
  have hreal : slot.team ≠ -1 ∧ slot.team ≠ -2 := by omega
  simp only [step, hjob, Option.bind_some, World.schedule, hstage, finishTime]
  by_cases hahead : w.redis.now < copy.time_finished
  · simp [hahead, goOn]
  · simp [hahead, hreal]

theorem inserted_of_le (hle : w'.tracking.length ≤ w.tracking.length) : inserted w w' = [] := by
  simp [inserted, List.drop_eq_nil_of_le hle]

theorem inserted_of_append {rows : List Deployment} (h : w'.tracking = w.tracking ++ rows) :
    inserted w w' = rows.map Deployment.ns := by
  simp [inserted, h]

/-- The open rows are rows. -/
def Recorded (s : World × History) : Prop :=
  (s.1.tracking.map Deployment.ns).Sublist s.2.rows

theorem recorded_step (hrecorded : Recorded s)
    (hstep : monitored (step slot) observe s a = some t) : Recorded t := by
  obtain ⟨hnext, hhistory⟩ := monitored_eq_some.mp hstep
  have hrows : t.2.rows = s.2.rows ++ inserted s.1 t.1 := by rw [hhistory]; rfl
  rw [Recorded, hrows]
  rcases tracking_cases (step_move hnext) with ⟨-, -, -, rows, -, hadded⟩ | ⟨-, hsub⟩
  · rw [inserted_of_append hadded, hadded, List.map_append]
    exact hrecorded.append (.refl _)
  · rw [inserted_of_le hsub.length_le, List.append_nil]
    exact (hsub.map _).trans hrecorded

/-- The step that finishes a Deleted event closes the first open row of the label. -/
theorem finished_erases {ns : String} (hns : h.finished w a = some ns)
    (hstep : step slot w a = some w') :
    w'.tracking = w.tracking.eraseP fun t => t.ns = ns := by
  unfold History.finished at hns
  split at hns
  · rename_i i
    obtain ⟨event, -, hns⟩ := Option.bind_eq_some_iff.mp hns
    split at hns
    · rename_i start label hjob
      obtain rfl := Option.some.inj hns
      simp only [step, hjob, Option.bind_some] at hstep
      obtain rfl := Option.some.inj hstep
      rfl
    · cases hns
  · cases hns

/-- A step that does not call `HandleChallengeRunning` keeps the property. -/
theorem oneRow_other (hrecorded : Recorded s) (hone : OneRow s)
    (ha : ∀ i timeLimitMinutes ctfEnd, a ≠ .schedule i timeLimitMinutes ctfEnd)
    (hstep : monitored (step slot) observe s a = some t) : OneRow t := by
  obtain ⟨hnext, hhistory⟩ := monitored_eq_some.mp hstep
  have hsub : t.1.tracking.Sublist s.1.tracking := by
    rcases tracking_cases (step_move hnext) with ⟨_, _, _, _, hschedule, -⟩ | ⟨-, hsub⟩
    · exact absurd hschedule (ha _ _ _)
    · exact hsub
  have hrows : t.2.rows = s.2.rows := by
    rw [hhistory]
    simp [observe, inserted_of_le hsub.length_le]
  have hready : t.2.ready = s.2.ready := by
    rw [hhistory]
    cases a <;> first | rfl | exact absurd rfl (ha _ _ _)
  have hdeleted : t.2.deleted = (s.2.finished s.1 a).toList ++ s.2.deleted := by rw [hhistory]; rfl
  constructor
  · rw [hrows]
    exact hone.once
  · intro ns hns open_ hopen
    rw [hdeleted] at hns
    rcases List.mem_append.mp hns with hfinished | hold
    · rw [finished_erases (Option.mem_toList.mp hfinished) hnext] at hopen
      have hnodup : s.2.rows.Nodup := List.nodup_iff_count_le_one.mpr hone.once
      exact ne_of_mem_eraseP (hnodup.sublist hrecorded) hopen
    · exact hone.closed ns hold open_ (hsub.subset hopen)
  · rw [History.currentDeployCount, hrows, hready]
    exact hone.counted

theorem count_append_singleton_le {l : List String} {x : String} (hl : ∀ y, l.count y ≤ 1) :
    (∀ y, (l ++ [x]).count y ≤ 1) ↔ x ∉ l := by
  constructor
  · intro h hmem
    have hpos := List.count_pos_iff.mpr hmem
    have hle := h x
    simp only [List.count_append, List.count_singleton_self] at hle
    omega
  · intro hx y
    rw [List.count_append, List.count_singleton]
    split
    · rename_i heq
      obtain rfl : x = y := by simpa using heq
      rw [List.count_eq_zero_of_not_mem hx]
    · exact hl y

/-- A call that finds the finish time ahead inserts no row. -/
theorem oneRow_ahead (hone : OneRow s) {first : Option String} (hrows : t.2.rows = s.2.rows)
    (htracking : t.1.tracking = s.1.tracking) (hready : t.2.ready = first.toList ++ s.2.ready)
    (hdeleted : t.2.deleted = s.2.deleted) : OneRow t ↔ first = none := by
  have hcounted := hone.counted
  constructor
  · intro h
    have hnew := h.counted
    rw [History.currentDeployCount, hrows, hready, List.length_append] at hnew
    cases first with
    | none => rfl
    | some ns =>
      rw [History.currentDeployCount] at hcounted
      simp only [Option.toList_some, List.length_singleton] at hnew
      omega
  · rintro rfl
    refine ⟨by rw [hrows]; exact hone.once, ?_, ?_⟩
    · rw [hdeleted, htracking]
      exact hone.closed
    · rw [History.currentDeployCount, hrows, hready]
      exact hcounted

/-- A call that finds no finish time ahead inserts one row. -/
theorem oneRow_inserted (row : Deployment) (hone : OneRow s) {first : Option String}
    (hrows : t.2.rows = s.2.rows ++ [row.ns]) (htracking : t.1.tracking = s.1.tracking ++ [row])
    (hready : t.2.ready = first.toList ++ s.2.ready) (hdeleted : t.2.deleted = s.2.deleted) :
    OneRow t ↔ first ≠ none ∧ row.ns ∉ s.2.rows ∧ row.ns ∉ s.2.deleted := by
  have hcounted := hone.counted
  rw [History.currentDeployCount] at hcounted
  constructor
  · intro h
    refine ⟨?_, ?_, ?_⟩
    · rintro rfl
      have hnew := h.counted
      rw [History.currentDeployCount, hrows, hready, List.length_append] at hnew
      simp only [Option.toList_none, List.nil_append, List.length_singleton] at hnew
      omega
    · have honce := h.once
      rw [hrows] at honce
      exact (count_append_singleton_le hone.once).mp honce
    · intro hmem
      apply h.closed row.ns (hdeleted ▸ hmem) row _ rfl
      rw [htracking]
      exact List.mem_append_right _ (List.mem_singleton_self row)
  · rintro ⟨hfirst, hfresh, hopen⟩
    obtain ⟨ns, rfl⟩ := Option.ne_none_iff_exists'.mp hfirst
    constructor
    · rw [hrows]
      exact (count_append_singleton_le hone.once).mpr hfresh
    · intro label hlabel row' hrow'
      rw [hdeleted] at hlabel
      rw [htracking] at hrow'
      rcases List.mem_append.mp hrow' with hold | hnew
      · exact hone.closed label hlabel row' hold
      · obtain rfl := List.mem_singleton.mp hnew
        rintro rfl
        exact hopen hlabel
    · rw [History.currentDeployCount, hrows, hready, List.length_append, hcounted]
      simp

theorem running_eq_some {stage : Stage} {copy : ChallengeDeploymentCacheDTO} :
    running stage = some copy ↔ stage = .running copy := by
  cases stage <;> simp [running]

/-- Without a job that is about to call `HandleChallengeRunning` there is no such step. -/
theorem schedule_idle {i : Nat} {timeLimitMinutes ctfEnd : Int}
    (hnone : ∀ job ∈ w.jobs[i]?, running job.stage = none) :
    step slot w (.schedule i timeLimitMinutes ctfEnd) = none := by
  cases hjob : w.jobs[i]? with
  | none => simp [step, hjob]
  | some job =>
    have hstage := hnone job hjob
    simp only [step, hjob, Option.bind_some, World.schedule]
    split
    · rename_i copy hrunning
      rw [hrunning] at hstage
      cases hstage
    · rfl

/-- What a call of `HandleChallengeRunning` keeps of the property. -/
theorem oneRow_schedule (hteam : 0 < slot.team) (hone : OneRow s) (i : Nat)
    (timeLimitMinutes ctfEnd : Int) :
    (∀ t, monitored (step slot) observe s (.schedule i timeLimitMinutes ctfEnd) = some t →
      OneRow t) ↔ InTime s (.schedule i timeLimitMinutes ctfEnd) := by
  by_cases hnone : ∀ job ∈ s.1.jobs[i]?, running job.stage = none
  · constructor
    · intro _ job hjob copy hcopy
      rw [hnone job hjob] at hcopy
      cases hcopy
    · intro _ t ht
      have hnext := (monitored_eq_some.mp ht).1
      rw [schedule_idle hnone] at hnext
      cases hnext
  · push Not at hnone
    obtain ⟨job, hjob, hsome⟩ := hnone
    obtain ⟨copy, hcopy⟩ := Option.ne_none_iff_exists'.mp hsome
    obtain ⟨w', hnext, htracking⟩ := schedule_running hteam timeLimitMinutes ctfEnd hjob
      (running_eq_some.mp hcopy)
    have hstep : monitored (step slot) observe s (.schedule i timeLimitMinutes ctfEnd) =
        some (w', observe s.2 s.1 (.schedule i timeLimitMinutes ctfEnd) w') :=
      monitored_eq_some.mpr ⟨hnext, rfl⟩
    simp only [InTime, Option.mem_def.mp hjob, hcopy, hstep, Option.some.injEq, forall_eq',
      Option.mem_some_iff]
    let action : Action := .schedule i timeLimitMinutes ctfEnd
    by_cases hahead : s.1.redis.now < copy.time_finished
    · rw [if_pos hahead, List.append_nil] at htracking
      have hrows : s.2.rows ++ inserted s.1 w' = s.2.rows := by
        rw [inserted_of_le (by rw [htracking]), List.append_nil]
      have hkept : OneRow (w', observe s.2 s.1 action w') ↔
          s.2.firstReady (s.2.events.handled action) = none :=
        oneRow_ahead hone hrows htracking rfl rfl
      rw [hkept, iff_true_left hahead]
      exact (and_iff_left fun hpast => absurd hahead (not_lt.mpr hpast)).symm
    · rw [if_neg hahead] at htracking
      have hrows : s.2.rows ++ inserted s.1 w' = s.2.rows ++ [copy._namespace] := by
        rw [inserted_of_append htracking]
        rfl
      have hkept : OneRow (w', observe s.2 s.1 action w') ↔
          s.2.firstReady (s.2.events.handled action) ≠ none ∧
            copy._namespace ∉ s.2.rows ∧ copy._namespace ∉ s.2.deleted :=
        oneRow_inserted ⟨copy._namespace, copy.origin⟩ hone hrows htracking rfl rfl
      rw [hkept, iff_false_left hahead, forall_prop_of_true (not_lt.mp hahead)]

/-- A team whose rows are counted right is turned away when as many of its deployments
became ready as the challenge allows. -/
theorem OneRow.maxDeployCountReached (hone : OneRow s) (maxDeployCount : Int) :
    s.2.maxDeployCountReached (some maxDeployCount) = true ↔
      0 < maxDeployCount ∧ maxDeployCount ≤ s.2.ready.length := by
  rw [History.maxDeployCountReached, hone.counted, Bool.and_eq_true, decide_eq_true_eq,
    decide_eq_true_eq]

/-- Each deployment has one row all along a run exactly when every call of
`HandleChallengeRunning` in the run is in time. -/
theorem rows_kept_iff {slot : Slot} (hteam : 0 < slot.team) (now : Int) (as : List Action) :
    (∀ s ∈ visited (monitored (step slot) observe) (World.init now, {}) as, OneRow s) ↔
      Meets (monitored (step slot) observe) InTime (World.init now, {}) as := by
  apply forall_visited_iff_meets (I := Recorded)
  · intro s a t hrecorded hstep
    exact recorded_step hrecorded hstep
  · intro s a hrecorded hone
    by_cases ha : ∃ i timeLimitMinutes ctfEnd, a = .schedule i timeLimitMinutes ctfEnd
    · obtain ⟨i, timeLimitMinutes, ctfEnd, rfl⟩ := ha
      exact oneRow_schedule hteam hone i timeLimitMinutes ctfEnd
    · push Not at ha
      constructor
      · intro _
        cases a <;> first | trivial | exact absurd rfl (ha _ _ _)
      · intro _ t hstep
        exact oneRow_other hrecorded hone ha hstep
  · exact List.nil_sublist _
  · constructor <;> simp [History.currentDeployCount]

open Readiness (deployedRun)

/-- The pod becomes ready, `StatusCheck` is called once, and the pod is deleted. -/
def trackedRun : List Action :=
  deployedRun "team-7-1-a" ++
    [.call 0 .none 0 true, .podState 0 .ready, .schedule 0 30 0, .issue 0, .call 0 .none 0 true,
      .statusCheck, .schedule 0 30 0, .issue 0, .call 0 .none 0 true,
      .podEvent 0 "uid-1" .deleted, .call 0 .none 0 true, .call 0 .none 0 true, .saveTracking 0]

theorem rows_kept_tracked : (0 : Int) < 7 ∧
    ∀ s ∈ visited (monitored (step { challenge := 1, team := 7 }) observe) (World.init 0, {})
      trackedRun, OneRow s :=
  ⟨by decide, (rows_kept_iff (by decide) 0 trackedRun).mpr (by decide)⟩

/-- The contest ends while the pod is being deployed. The finish time is capped at the end,
so a call of `StatusCheck` finds it passed and has another row inserted. The Deleted event
closes only one of them. -/
def contestEndRun : List Action :=
  deployedRun "team-7-1-a" ++
    [.tick 300, .call 0 .none 0 true, .podState 0 .ready, .schedule 0 30 200, .issue 0,
      .call 0 .none 0 true, .statusCheck, .schedule 0 30 200, .issue 0, .call 0 .none 0 true,
      .podEvent 0 "uid-1" .deleted, .call 0 .none 0 true, .call 0 .none 0 true, .saveTracking 0]

theorem tracked_twice_after_end :
    ¬ ∀ (slot : Slot) (now : Int) (s : World × History), 0 < slot.team →
      Reach (monitored (step slot) observe) always (World.init now, {}) s → OneRow s := by
  intro hall
  let slot : Slot := { challenge := 1, team := 7 }
  obtain ⟨s, hreach, hs⟩ := exists_reach_of_exec (monitored (step slot) observe) always
    (World.init 0, {}) contestEndRun
    (p := fun s => s.2.rows == ["team-7-1-a", "team-7-1-a"] && s.2.ready == ["team-7-1-a"] &&
      s.2.deleted == ["team-7-1-a"] && s.1.tracking.map Deployment.ns == ["team-7-1-a"])
    (meets_always ..) (by decide)
  simp only [Bool.and_eq_true, beq_iff_eq] at hs
  obtain ⟨⟨⟨hrows, -⟩, -⟩, -⟩ := hs
  have honce := (hall slot 0 s (by decide) hreach).once "team-7-1-a"
  rw [hrows] at honce
  exact absurd honce (by decide)

end Tracking

end Fctf
