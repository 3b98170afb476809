import Fctf.Lib.Run
import Fctf.Text
import Mathlib.Data.Nat.Basic

/-!
The worker's ticks and the limit on running workflows. A tick asks Argo for its
workflows, counts those that are running, and takes as many messages as the
limit then leaves; each message it takes may become another workflow. Workflows
change their phases at any time.
-/

namespace Fctf

open Run

structure ArgoWorkflowItem where
  /-- `Status.Phase`; null when there is no status yet. -/
  Phase : Option String
  deriving Repr, DecidableEq

/-- What the request for the workflows comes to. -/
inductive ArgoReply
  /-- An exception, another status code than success, or a body that cannot be read. -/
  | failed
  /-- A body, whose `Items` may be null. -/
  | body (Items : Option (List ArgoWorkflowItem))
  deriving Repr, DecidableEq

/-- `GetRunningWorkflowsCountAsync`. -/
def getRunningWorkflowsCount : ArgoReply → Nat
  | .failed => 30
  | .body items =>
    (items.map fun items =>
      items.countP fun x => x.Phase.any (equalsIgnoreCase · "Running")).getD 0

/-- `MAX_RUNNING_WORKFLOW` and `BATCH_SIZE`, which are taken from the environment
only when they are positive. -/
structure WorkerConfig where
  maxRunningWorkflow : Nat := 30
  batchSize : Nat := 20
  maxRunningWorkflow_pos : 0 < maxRunningWorkflow := by decide
  batchSize_pos : 0 < batchSize := by decide

/-- The phase of a workflow that the worker has submitted. -/
inductive WorkflowPhase
  | notStarted | pending | running | finished
  deriving Repr, DecidableEq

def WorkflowPhase.item : WorkflowPhase → ArgoWorkflowItem
  | .notStarted => ⟨none⟩
  | .pending => ⟨some "Pending"⟩
  | .running => ⟨some "Running"⟩
  | .finished => ⟨some "Succeeded"⟩

/-- Where the worker stands in its tick. -/
inductive WorkerTick
  | idle
  /-- The running workflows have been counted. -/
  | counted (runningWorkflow : Nat)
  /-- So many messages of the batch are still to be processed. -/
  | batch (left : Nat)
  deriving Repr, DecidableEq

structure WorkerSite where
  workflows : List WorkflowPhase
  /-- The messages in the worker's buffer. -/
  buffered : Nat
  tick : WorkerTick
  deriving Repr, DecidableEq

inductive WorkerAction
  /-- The count query fails, answers without items, or lists the workflows, those
  of others among them. -/
  | countFails
  | countBlank
  | count (others : List ArgoWorkflowItem)
  /-- The worker compares the count with the limit and takes its batch. -/
  | dequeue
  /-- A message becomes a workflow, or it does not. -/
  | submit
  | skip
  /-- The tick ends, with an exception or at the end of its batch. -/
  | done
  | enqueue
  | phase (i : Nat) (phase : WorkflowPhase)
  deriving Repr, DecidableEq

namespace WorkerSite

/-- How many messages the tick takes. -/
def batchSize (config : WorkerConfig) (s : WorkerSite) (runningWorkflow : Nat) : Nat :=
  if config.maxRunningWorkflow ≤ runningWorkflow then 0
  else
    let availableSlots := config.maxRunningWorkflow - runningWorkflow
    min s.buffered (min availableSlots config.batchSize)

def counted (s : WorkerSite) (reply : ArgoReply) : Option WorkerSite :=
  if s.tick = .idle then some { s with tick := .counted (getRunningWorkflowsCount reply) } else none

def step (config : WorkerConfig) (s : WorkerSite) : WorkerAction → Option WorkerSite
  | .countFails => s.counted .failed
  | .countBlank => s.counted (.body none)
  | .count others => s.counted (.body (some (others ++ s.workflows.map WorkflowPhase.item)))
  | .dequeue =>
    match s.tick with
    | .counted runningWorkflow =>
      let taken := s.batchSize config runningWorkflow
      some { s with buffered := s.buffered - taken, tick := .batch taken }
    | _ => none
  | .submit =>
    match s.tick with
    | .batch (left + 1) =>
      some { s with workflows := .notStarted :: s.workflows, tick := .batch left }
    | _ => none
  | .skip =>
    match s.tick with
    | .batch (left + 1) => some { s with tick := .batch left }
    | _ => none
  | .done =>
    match s.tick with
    | .batch _ => some { s with tick := .idle }
    | _ => none
  | .enqueue => some { s with buffered := s.buffered + 1 }
  | .phase i phase =>
    match s.workflows[i]? with
    | none | some .finished => none
    | some _ => some { s with workflows := s.workflows.set i phase }

/-- The workflows submitted and not finished. -/
def unfinished (s : WorkerSite) : Nat := s.workflows.countP (· ≠ .finished)

/-- The messages that the tick may still turn into workflows. -/
def left (s : WorkerSite) : Nat :=
  match s.tick with
  | .batch left => left
  | .idle | .counted _ => 0

end WorkerSite

namespace WorkerSite

/-- The count that the tick goes by. -/
def runningWorkflow (s : WorkerSite) : Option Nat :=
  match s.tick with
  | .counted runningWorkflow => some runningWorkflow
  | .idle | .batch _ => none

/-- With the workflows that the batch may still become. -/
def reserved (s : WorkerSite) : Nat := s.unfinished + s.left

end WorkerSite

/-- The batch that a tick takes fits into what the unfinished workflows leave. -/
def WorkerAction.Keeps (config : WorkerConfig) (s : WorkerSite) : WorkerAction → Prop
  | .dequeue => ∀ r ∈ s.runningWorkflow,
      s.unfinished + s.batchSize config r ≤ config.maxRunningWorkflow
  | _ => True

instance WorkerAction.decidableKeeps (config : WorkerConfig) (s : WorkerSite) (a : WorkerAction) :
    Decidable (a.Keeps config s) := by
  cases a <;> (delta WorkerAction.Keeps; infer_instance)

namespace WorkerSite

variable {config : WorkerConfig} {s t : WorkerSite} {a : WorkerAction}

theorem counted_eq_some {reply : ArgoReply} (h : s.counted reply = some t) :
    s.tick = .idle ∧ t = { s with tick := .counted (getRunningWorkflowsCount reply) } := by
  unfold counted at h
  split at h
  · rename_i hidle
    exact ⟨hidle, (Option.some.inj h).symm⟩
  · cases h

/-- A phase change finishes a workflow, or it does not. -/
theorem unfinished_phase {i : Nat} {phase old : WorkflowPhase} (hold : s.workflows[i]? = some old)
    (hne : old ≠ .finished) :
    unfinished { s with workflows := s.workflows.set i phase } ≤ s.unfinished := by
  obtain ⟨hi, hget⟩ := List.getElem?_eq_some_iff.mp hold
  have hpos : 0 < s.unfinished := by
    apply List.countP_pos_iff.mpr
    exact ⟨old, List.mem_of_getElem? hold, by simpa using hne⟩
  rw [unfinished, List.countP_set hi, hget, if_pos (by simpa using hne)]
  change s.unfinished - 1 + _ ≤ _
  split <;> omega

/-- Only the taking of a batch reserves more workflows. -/
theorem reserved_step (hstep : step config s a = some t) (hdequeue : a ≠ .dequeue) :
    t.reserved ≤ s.reserved := by
  cases a with
  | countFails | countBlank | count =>
    obtain ⟨hidle, rfl⟩ := counted_eq_some hstep
    simp [reserved, left, hidle, unfinished]
  | dequeue => exact absurd rfl hdequeue
  | submit =>
    simp only [step] at hstep
    split at hstep
    · rename_i left htick
      cases hstep
      simp [reserved, WorkerSite.left, htick, unfinished]
      omega
    · cases hstep
  | skip =>
    simp only [step] at hstep
    split at hstep
    · rename_i left htick
      cases hstep
      simp [reserved, WorkerSite.left, htick, unfinished]
    · cases hstep
  | done =>
    simp only [step] at hstep
    split at hstep
    · rename_i left htick
      cases hstep
      simp [reserved, WorkerSite.left, htick, unfinished]
    · cases hstep
  | enqueue =>
    cases hstep
    exact Nat.le_refl _
  | phase i phase =>
    simp only [step] at hstep
    split at hstep
    · cases hstep
    · cases hstep
    · rename_i old hne hold
      cases hstep
      apply Nat.add_le_add_right
      exact unfinished_phase hold (fun h => hne h)

theorem reserved_step_iff (h : s.reserved ≤ config.maxRunningWorkflow) :
    (∀ t, step config s a = some t → t.reserved ≤ config.maxRunningWorkflow) ↔
      a.Keeps config s := by
  by_cases hdequeue : a = .dequeue
  · subst hdequeue
    simp only [step, WorkerAction.Keeps, runningWorkflow]
    cases s.tick with
    | idle | batch => simp
    | counted r => simp [reserved, left, unfinished]
  · apply iff_of_true
    · intro t hstep
      exact Nat.le_trans (reserved_step hstep hdequeue) h
    · cases a with
      | dequeue => exact absurd rfl hdequeue
      | _ => trivial

/-- Every message that is left in the batch becomes a workflow. -/
theorem submit_all (config : WorkerConfig) (s : WorkerSite) :
    ∃ t ∈ visited (step config) s (List.replicate s.left .submit), t.unfinished = s.reserved := by
  induction hn : s.left generalizing s with
  | zero => exact ⟨s, by simp [visited], by rw [reserved, hn, Nat.add_zero]⟩
  | succ n ih =>
    have htick : s.tick = .batch (n + 1) := by
      cases htick : s.tick with
      | idle | counted => simp [left, htick] at hn
      | batch k =>
        simp only [left, htick] at hn
        rw [hn]
    have hstep : step config s .submit =
        some { s with workflows := .notStarted :: s.workflows, tick := .batch n } := by
      simp [step, htick]
    obtain ⟨t, ht, hunfinished⟩ :=
      ih { s with workflows := .notStarted :: s.workflows, tick := .batch n } rfl
    refine ⟨t, ?_, ?_⟩
    · rw [List.replicate_succ, visited, hstep]
      exact List.mem_cons_of_mem _ ht
    · rw [hunfinished, reserved, reserved, hn]
      simp [unfinished, left]
      omega

theorem reserved_iff_meets (h : s.reserved ≤ config.maxRunningWorkflow)
    (as : List WorkerAction) :
    (∀ t ∈ visited (step config) s as, t.reserved ≤ config.maxRunningWorkflow) ↔
      Meets (step config) (fun s a => a.Keeps config s) s as := by
  apply forall_visited_iff_meets (I := fun _ => True)
    (P := fun s : WorkerSite => s.reserved ≤ config.maxRunningWorkflow) _ _ as trivial h
  · intro _ _ _ _ _
    trivial
  · intro s a _ hs
    exact reserved_step_iff hs

theorem meets_submits (n : Nat) :
    Meets (step config) (fun s a => a.Keeps config s) s (List.replicate n .submit) := by
  induction n generalizing s with
  | zero => trivial
  | succ n ih => exact ⟨trivial, fun t _ => ih⟩

theorem completed_iff_reserved :
    (∀ n, ∀ t ∈ visited (step config) s (List.replicate n .submit),
        t.unfinished ≤ config.maxRunningWorkflow) ↔
      s.reserved ≤ config.maxRunningWorkflow := by
  constructor
  · intro h
    obtain ⟨t, ht, hunfinished⟩ := submit_all config s
    rw [← hunfinished]
    exact h s.left t ht
  · intro h n t ht
    have hreserved : t.reserved ≤ config.maxRunningWorkflow :=
      (reserved_iff_meets h _).mpr (meets_submits n) t ht
    exact Nat.le_trans (Nat.le_add_right _ _) hreserved

end WorkerSite

/-- From a worker that is between two ticks, the limit holds all along a run, and
also when all messages taken by then become workflows, exactly when every batch
that is taken fits into what the unfinished workflows leave. -/
theorem unfinished_le_iff_keeps (config : WorkerConfig) {s : WorkerSite} (hidle : s.tick = .idle)
    (hstart : s.unfinished ≤ config.maxRunningWorkflow) (as : List WorkerAction) :
    (∀ t ∈ visited (WorkerSite.step config) s as, ∀ n,
        ∀ u ∈ visited (WorkerSite.step config) t (List.replicate n .submit),
          u.unfinished ≤ config.maxRunningWorkflow) ↔
      Meets (WorkerSite.step config) (fun s a => a.Keeps config s) s as := by
  have hreserved : s.reserved ≤ config.maxRunningWorkflow := by
    simpa [WorkerSite.reserved, WorkerSite.left, hidle] using hstart
  simp only [WorkerSite.completed_iff_reserved]
  exact WorkerSite.reserved_iff_meets hreserved as

/-- The second tick counts before the first workflow has a phase. -/
theorem pending_not_counted :
    ¬ ∀ (config : WorkerConfig) (s : WorkerSite), s.tick = .idle →
      s.unfinished ≤ config.maxRunningWorkflow → ∀ as : List WorkerAction,
      ∀ t ∈ visited (WorkerSite.step config) s as, t.unfinished ≤ config.maxRunningWorkflow := by
  intro hlimited
  have hall := hlimited { maxRunningWorkflow := 1 } ⟨[], 2, .idle⟩ rfl (by decide)
    [.count [], .dequeue, .submit, .done, .count [], .dequeue, .submit]
  revert hall
  decide

theorem unfinished_le_iff_keeps_running :
    WorkerSite.unfinished ⟨[], 2, .idle⟩ ≤ 1 ∧
      ∀ t ∈ visited (WorkerSite.step { maxRunningWorkflow := 1 }) ⟨[], 2, .idle⟩
          [.count [], .dequeue, .submit, .done, .phase 0 .running, .count [], .dequeue, .done,
            .phase 0 .finished, .count [], .dequeue],
        ∀ n, ∀ u ∈ visited (WorkerSite.step { maxRunningWorkflow := 1 }) t
          (List.replicate n .submit), u.unfinished ≤ 1 :=
  ⟨by decide,
    (unfinished_le_iff_keeps { maxRunningWorkflow := 1 } rfl (by decide) _).mpr (by decide)⟩

/-! ### Ticks that go by a count that is not behind -/

/-- A query that fails while the limit is at most 30, or a listing in which no
unfinished workflow has yet to run. -/
def WorkerAction.Current (config : WorkerConfig) (s : WorkerSite) : WorkerAction → Prop
  | .countFails => config.maxRunningWorkflow ≤ 30
  | .countBlank => s.unfinished = 0
  | .count _ => ∀ w ∈ s.workflows, w = .running ∨ w = .finished
  | _ => True

namespace WorkerSite

variable {config : WorkerConfig} {s t : WorkerSite} {a : WorkerAction}

/-- The count is not behind, or it forbids the batch. -/
def Counted (config : WorkerConfig) (s : WorkerSite) : Prop :=
  ∀ r ∈ s.runningWorkflow, s.unfinished ≤ r ∨ config.maxRunningWorkflow ≤ r

/-- A listing counts every unfinished workflow when all of them run. -/
theorem unfinished_le_listed (others : List ArgoWorkflowItem)
    (h : ∀ w ∈ s.workflows, w = .running ∨ w = .finished) :
    s.unfinished ≤ getRunningWorkflowsCount
      (.body (some (others ++ s.workflows.map WorkflowPhase.item))) := by
  have hown : s.unfinished ≤ (s.workflows.map WorkflowPhase.item).countP
      fun x => x.Phase.any (equalsIgnoreCase · "Running") := by
    rw [List.countP_map, unfinished]
    apply List.countP_mono_left
    intro w hw hne
    rcases h w hw with rfl | rfl
    · decide
    · simp at hne
  rw [getRunningWorkflowsCount, Option.map_some, Option.getD_some, List.countP_append]
  omega

theorem Counted.step (h : s.Counted config) (hcurrent : a.Current config s)
    (hstep : step config s a = some t) : t.Counted config := by
  cases a with
  | countFails =>
    obtain ⟨-, rfl⟩ := counted_eq_some hstep
    rintro _ ⟨⟩
    exact .inr hcurrent
  | countBlank =>
    obtain ⟨-, rfl⟩ := counted_eq_some hstep
    rintro _ ⟨⟩
    exact .inl (Nat.le_of_eq hcurrent)
  | count others =>
    obtain ⟨-, rfl⟩ := counted_eq_some hstep
    rintro _ ⟨⟩
    exact .inl (unfinished_le_listed others hcurrent)
  | dequeue | submit | skip | done =>
    simp only [WorkerSite.step] at hstep
    split at hstep
    · cases hstep
      rintro _ ⟨⟩
    · cases hstep
  | enqueue =>
    cases hstep
    exact h
  | phase i phase =>
    simp only [WorkerSite.step] at hstep
    split at hstep
    · cases hstep
    · cases hstep
    · rename_i old hne hold
      cases hstep
      intro r hr
      have hle : unfinished { s with workflows := s.workflows.set i phase } ≤ s.unfinished :=
        unfinished_phase hold (fun hfinished => hne hfinished)
      exact (h r hr).imp_left (Nat.le_trans hle)

theorem Counted.keeps (h : s.Counted config) (hreserved : s.reserved ≤ config.maxRunningWorkflow) :
    a.Keeps config s := by
  cases a with
  | dequeue =>
    intro r hr
    have hcounted := h r hr
    have hunfinished : s.unfinished ≤ config.maxRunningWorkflow := by
      rw [reserved] at hreserved
      omega
    simp only [batchSize]
    split <;> omega
  | _ => trivial

end WorkerSite

/-- Ticks whose counts are current keep the limit. -/
theorem keeps_of_current {config : WorkerConfig} {s : WorkerSite} (hidle : s.tick = .idle)
    (hstart : s.unfinished ≤ config.maxRunningWorkflow) {as : List WorkerAction}
    (hcurrent : Meets (WorkerSite.step config) (fun s a => a.Current config s) s as) :
    Meets (WorkerSite.step config) (fun s a => a.Keeps config s) s as := by
  apply hcurrent.weaken
    (I := fun s => s.Counted config ∧ s.reserved ≤ config.maxRunningWorkflow)
  · intro s a t hs hcurrent hstep
    refine ⟨hs.1.step hcurrent hstep, ?_⟩
    exact (WorkerSite.reserved_step_iff hs.2).mpr (hs.1.keeps hs.2) t hstep
  · intro s a hs _
    exact hs.1.keeps hs.2
  · constructor
    · intro r hr
      simp [WorkerSite.runningWorkflow, hidle] at hr
    · simpa [WorkerSite.reserved, WorkerSite.left, hidle] using hstart

end Fctf
