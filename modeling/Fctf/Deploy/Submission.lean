import Fctf.Deploy.Effects

/-!
How many workflows a start leads to. A history beside the world counts the
submissions since the slot was last released, and notes which starts were
answered with a failure and whether one of them was submitted afterwards.
-/

namespace Fctf

open Expiring Run World

/-- A `Start` that has not published its message yet. -/
def Stage.publishes : Stage → Bool
  | .start _ .read | .start _ .removeFailed | .start _ .removeStopped
  | .start _ .releaseStopped | .start _ .enqueue => true
  | _ => false

/-- The message that a worker holds and has not submitted yet. -/
def Stage.message : Stage → Option Message
  | .workRead m | .workSubmit m _ => some m
  | _ => none

/-- A program that may still lead to a submission. -/
def Stage.submits (stage : Stage) : Bool := stage.publishes || stage.message.isSome

namespace Submission

structure History where
  since : Nat := 0
  submitted : List Nat := []
  failed : List Nat := []
  afterFailure : Bool := false

/-- The slot is taken: a team by its live reservation, a preview by its entry. -/
def held (slot : Slot) (w : World) : Bool :=
  if slot.team ≤ 0 then (w.cache slot).isSome
  else (w.redis.zscore (getZSetKKey slot.team) slot.challenge).any fun score => w.redis.now < score

/-- The start that a step answers with a failure. -/
def answersFailure (w : World) : Action → Option Nat
  | .call i _ _ _ =>
    w.jobs[i]?.bind fun job =>
      match job.stage with
      | .rollback | .start false .clear => some job.start
      | _ => none
  | _ => none

def submission (w : World) : Action → Option (Nat × Message)
  | .submit i _ _ _ => w.jobs[i]?.bind fun job => job.stage.message.map fun m => (job.start, m)
  | _ => none

/-- History: a submission is counted; the count begins anew when the slot is released. -/
def observe (slot : Slot) (h : History) (w : World) (a : Action) (w' : World) : History where
  since :=
    if held slot w && !held slot w' then 0
    else if (submission w a).isSome then h.since + 1
    else h.since
  submitted := (submission w a).toList.map (fun p => p.2.id) ++ h.submitted
  failed := (answersFailure w a).toList ++ h.failed
  afterFailure := h.afterFailure || (submission w a).any fun p => h.failed.contains p.1

/-- No message waits and no program may still lead to a submission. -/
def Idle (w : World) : Prop := (∀ j ∈ w.jobs, j.stage.submits = false) ∧ w.queue = []

instance (w : World) : Decidable (Idle w) := inferInstanceAs (Decidable (_ ∧ _))

/-- A start answered with a failure has left nothing behind that could be submitted. -/
def FailsClean (w : World) (g : Nat) : Prop :=
  (∀ j ∈ w.jobs, j.start = g → j.stage.submits = false) ∧ ∀ m ∈ w.queue, m.start ≠ g

instance (w : World) (g : Nat) : Decidable (FailsClean w g) :=
  inferInstanceAs (Decidable ((∀ j ∈ _, _ → _) ∧ ∀ m ∈ _, _))

/-- Starts begin when nothing of the earlier ones can still be submitted (a start
without a reservation also finds the slot free), a message is delivered again
only if no worker holds it or has submitted it, a worker submits only while the
slot is taken, and failures are answered clean. -/
def Orderly (slot : Slot) (s : World × History) : Action → Prop
  | .reserve maxLimit =>
    (s.1.redis.atomicCheckAndCreateDeploymentZSet slot.team slot.challenge maxLimit
      (initialEntry slot (s.1.starts + 1)) 300).2 = some .Pass → Idle s.1
  | .directStart readFails wfAlive =>
    (startDecision (if readFails then none else s.1.cache slot) wfAlive).isRight = true →
      Idle s.1 ∧ held slot s.1 = false
  | .requeue k =>
    ∀ m ∈ s.1.queue[k]?, m.id ∉ s.2.submitted ∧
      ∀ j ∈ s.1.jobs, ∀ m' ∈ j.stage.message, m'.id ≠ m.id
  | .submit .. => held slot s.1 = true
  | .call i fault lag wfAlive =>
    ∀ g ∈ answersFailure s.1 (.call i fault lag wfAlive), FailsClean s.1 g
  | _ => True

instance (slot : Slot) (s : World × History) : DecidablePred (Orderly slot s) := by
  rintro ⟨⟩ <;> (delta Orderly; infer_instance)

variable {slot : Slot} {s t : World × History} {w w' : World} {a : Action}

/-- The number of messages that are queued or still to be published. -/
def requests (w : World) : Nat := w.jobs.countP (fun j => j.stage.publishes) + w.queue.length

/-- What such a run keeps. There is at most one request in the system; what a
worker holds is that one message; once it has been submitted it is not ready
for delivery; and what was answered with a failure has left no request. -/
structure Inv (slot : Slot) (s : World × History) : Prop where
  numbered : Numbered slot s.1
  single : requests s.1 ≤ 1
  holding : ∀ j ∈ s.1.jobs, ∀ m ∈ j.stage.message,
    ∃ m' ∈ s.1.queue, m'.id = m.id ∧ m'.unacked = true
  holders : s.1.jobs.countP (fun j => j.stage.message.isSome) ≤ 1
  once : s.2.since ≤ 1
  done : s.2.since = 1 → (∀ j ∈ s.1.jobs, j.stage.submits = false) ∧
    ∀ m ∈ s.1.queue, m.unacked = true ∧ m.id ∈ s.2.submitted
  free : held slot s.1 = false → s.2.since = 0
  clean : ∀ g ∈ s.2.failed, g ≤ s.1.starts ∧ FailsClean s.1 g
  inOrder : s.2.afterFailure = false

theorem inv_init (slot : Slot) (now : Int) : Inv slot (World.init now, {}) where
  numbered := everywhere_init now
  single := by simp [requests, World.init]
  holding := by simp [World.init]
  holders := by simp [World.init]
  once := by simp
  done := by simp
  free := by simp
  clean := by simp
  inOrder := rfl

/-! ### Steps that bring no request -/

/-- The step brings no request: what may still be submitted was there before,
and no message that a worker holds has left the queue. -/
structure Calm (w w' : World) : Prop where
  publishing : w'.jobs.countP (fun j => j.stage.publishes) ≤
    w.jobs.countP (fun j => j.stage.publishes)
  holders : w'.jobs.countP (fun j => j.stage.message.isSome) ≤
    w.jobs.countP (fun j => j.stage.message.isSome)
  jobs : ∀ j ∈ w'.jobs, j.stage.submits = true → ∃ j' ∈ w.jobs, j'.start = j.start ∧
    j'.stage.message = j.stage.message ∧ j'.stage.submits = true
  queue : w'.queue.Sublist w.queue
  kept : ∀ j ∈ w'.jobs, ∀ m ∈ j.stage.message, ∀ m' ∈ w.queue, m'.id = m.id →
    m'.unacked = true → m' ∈ w'.queue
  starts : w'.starts = w.starts

/-- The stages that a program goes on in may only lead to a submission that its
own stage may lead to. -/
structure Successors (stage : Stage) (next : List Stage) : Prop where
  publishing : next.countP Stage.publishes ≤ if stage.publishes then 1 else 0
  holders : next.countP (fun s => s.message.isSome) ≤ if stage.message.isSome then 1 else 0
  submits : ∀ s ∈ next, s.submits = true → s.message = stage.message ∧ stage.submits = true

theorem countP_goOn (p : Stage → Bool) {i : Nat} (start : Nat) {job : Job} (next : List Stage)
    (hjob : w.jobs[i]? = some job) :
    (w.goOn i start next).jobs.countP (fun j => p j.stage) + (if p job.stage then 1 else 0) =
      w.jobs.countP (fun j => p j.stage) + next.countP p := by
  obtain ⟨hi, hget⟩ := List.getElem?_eq_some_iff.mp hjob
  have hperm := (List.getElem_cons_eraseIdx_perm hi).countP_eq fun j => p j.stage
  rw [hget, List.countP_cons] at hperm
  simp only [goOn, List.countP_append, List.countP_map]
  have hmap : next.countP ((fun j : Job => p j.stage) ∘ fun stage => ⟨start, stage⟩) =
      next.countP p := rfl
  rw [hmap]
  omega

theorem calm_goOn {i : Nat} {job : Job} {next : List Stage} {queue : List Message}
    {redis : Redis} {workflows names tracking : List Deployment}
    (hjob : w.jobs[i]? = some job) (hnext : Successors job.stage next)
    (hqueue : queue.Sublist w.queue)
    (hkept : ∀ j ∈ (w.goOn i job.start next).jobs, ∀ m ∈ j.stage.message, ∀ m' ∈ w.queue,
      m'.id = m.id → m'.unacked = true → m' ∈ queue) :
    Calm w { w.goOn i job.start next with
      queue := queue, redis := redis, workflows := workflows, names := names,
      tracking := tracking } where
  publishing := by
    have hcount := countP_goOn Stage.publishes job.start next hjob
    have hle := hnext.publishing
    simp only at hcount ⊢
    omega
  holders := by
    have hcount := countP_goOn (fun s => s.message.isSome) job.start next hjob
    have hle := hnext.holders
    simp only at hcount ⊢
    omega
  jobs := by
    intro j hj hsubmits
    rcases List.mem_append.mp hj with hold | hnew
    · exact ⟨j, List.mem_of_mem_eraseIdx hold, rfl, rfl, hsubmits⟩
    · obtain ⟨stage, hstage, rfl⟩ := List.mem_map.mp hnew
      obtain ⟨hmessage, hsubmits'⟩ := hnext.submits stage hstage hsubmits
      exact ⟨job, List.mem_of_getElem? hjob, rfl, hmessage.symm, hsubmits'⟩
  queue := hqueue
  kept := hkept
  starts := rfl

/-- Some jobs are gone and others have come that lead to no submission. -/
theorem calm_of_reaped {old new : List Job} (hold : old.Sublist w.jobs)
    (hjobs : w'.jobs = old ++ new) (hqueue : w'.queue = w.queue)
    (hnew : ∀ j ∈ new, j.stage.submits = false) (hstarts : w'.starts = w.starts) : Calm w w' where
  publishing := by
    have hzero : new.countP (fun j => j.stage.publishes) = 0 :=
      List.countP_eq_zero.mpr fun j hj => by simp [(Bool.or_eq_false_iff.mp (hnew j hj)).1]
    rw [hjobs, List.countP_append, hzero]
    exact hold.countP_le
  holders := by
    have hzero : new.countP (fun j => j.stage.message.isSome) = 0 :=
      List.countP_eq_zero.mpr fun j hj => by simp [(Bool.or_eq_false_iff.mp (hnew j hj)).2]
    rw [hjobs, List.countP_append, hzero]
    exact hold.countP_le
  jobs j hj h := by
    rw [hjobs] at hj
    rcases List.mem_append.mp hj with hj | hj
    · exact ⟨j, hold.subset hj, rfl, rfl, h⟩
    · rw [hnew j hj] at h
      cases h
  queue := hqueue ▸ .refl _
  kept _ _ _ _ _ hm _ _ := hqueue ▸ hm
  starts := hstarts

theorem calm_spawn {start : Nat} {stage : Stage} (h : stage.submits = false) :
    Calm w (w.spawn start stage) :=
  calm_of_reaped (.refl _) rfl rfl (by simpa using h) rfl

theorem calm_of_same_jobs (hjobs : w'.jobs = w.jobs) (hstarts : w'.starts = w.starts)
    (hqueue : w'.queue.Sublist w.queue)
    (hkept : ∀ m ∈ w.queue, m.unacked = true → m ∈ w'.queue) : Calm w w' where
  publishing := by rw [hjobs]
  holders := by rw [hjobs]
  jobs j hj h := ⟨j, hjobs ▸ hj, rfl, rfl, h⟩
  queue := hqueue
  kept _ _ _ _ m hm _ hunacked := hkept m hm hunacked
  starts := hstarts

theorem successors_of_quiet {stage : Stage} {next : List Stage}
    (h : ∀ s ∈ next, s.submits = false) : Successors stage next := by
  have hpub : next.countP Stage.publishes = 0 :=
    List.countP_eq_zero.mpr fun s hs => by simp [(Bool.or_eq_false_iff.mp (h s hs)).1]
  have hmsg : next.countP (fun s => s.message.isSome) = 0 :=
    List.countP_eq_zero.mpr fun s hs => by simp [(Bool.or_eq_false_iff.mp (h s hs)).2]
  refine ⟨by omega, by omega, fun s hs hsubmits => ?_⟩
  rw [h s hs] at hsubmits
  cases hsubmits

theorem successors_single {stage next : Stage}
    (hpub : next.publishes = true → stage.publishes = true)
    (hmsg : next.submits = true → next.message = stage.message ∧ stage.submits = true) :
    Successors stage [next] where
  publishing := by
    cases h : next.publishes with
    | false => simp [h]
    | true => simp [h, hpub h]
  holders := by
    cases h : next.message.isSome with
    | false => simp [h]
    | true =>
      have hsame := (hmsg (by simp [Stage.submits, h])).1
      rw [hsame] at h
      simp [hsame, h]
  submits := by
    intro s hs hsubmits
    obtain rfl := List.mem_singleton.mp hs
    exact hmsg hsubmits

theorem successors_disconnect {pc : StartPc} :
    Successors (.start true pc) [.start false pc, .rollback] := by
  have hkind : (Stage.start false pc).publishes = (Stage.start true pc).publishes := by
    cases pc <;> rfl
  refine ⟨?_, ?_, fun s hs hsubmits => ?_⟩
  · cases pc <;> simp [Stage.publishes, List.countP_cons]
  · simp [Stage.message]
  · rcases List.mem_pair.mp hs with rfl | rfl
    · exact ⟨rfl, by simpa [Stage.submits, hkind, Stage.message] using hsubmits⟩
    · cases hsubmits

theorem startAnswer_submits {waiting ok : Bool} {next : Stage}
    (h : startAnswer waiting ok = some next) : next.submits = false := by
  unfold startAnswer at h
  split at h <;> cases h
  rfl

/-- A program that goes on after a reply leads to no submission that its stage
did not lead to. -/
theorem successors_resume {now : Int} {wfAlive : Bool} {stage : Stage} {reply : Reply} :
    Successors stage (stage.resume now wfAlive reply).toList := by
  cases hnext : stage.resume now wfAlive reply with
  | none => exact successors_of_quiet (by simp)
  | some next =>
    simp only [Option.toList_some]
    unfold Stage.resume at hnext
    split at hnext
    case h_1 cache =>
      split at hnext
      · exact successors_of_quiet (by simp [startAnswer_submits hnext])
      · cases hnext
        refine successors_single (fun _ => rfl) fun h => ⟨rfl, rfl⟩
    case h_8 m entry =>
      cases hnext
      exact successors_single (by simp [Stage.publishes]) fun _ => ⟨rfl, rfl⟩
    case h_9 ns uid change cache =>
      refine successors_of_quiet ?_
      unfold podDecision at hnext
      repeat' split at hnext
      all_goals cases hnext <;> simp [Stage.submits, Stage.publishes, Stage.message]
    case h_5 => exact successors_of_quiet (by simp [startAnswer_submits hnext])
    case h_7 => exact successors_of_quiet (by simp [startAnswer_submits hnext])
    case h_2 | h_3 | h_4 =>
      cases hnext
      exact successors_single (fun _ => rfl) fun _ => ⟨rfl, rfl⟩
    all_goals
      cases hnext <;>
        exact successors_of_quiet (by simp [Stage.submits, Stage.publishes, Stage.message])

/-- The steps that begin, publish, deliver or submit a request. -/
def handlesRequest : Action → Bool
  | .reserve _ | .directStart .. | .publish .. | .deliver _ | .requeue _ | .submit .. => true
  | _ => false

theorem kept_all {queue : List Message} (hqueue : queue = w.queue) {jobs : List Job} :
    ∀ j ∈ jobs, ∀ m ∈ j.stage.message, ∀ m' ∈ w.queue, m'.id = m.id → m'.unacked = true →
      m' ∈ queue := by
  subst hqueue
  exact fun _ _ _ _ _ hm _ _ => hm

/-- When the only worker that holds a message lets go of it, nobody holds one. -/
theorem none_held {i : Nat} {job : Job} {next : List Stage} {m : Message}
    (hone : w.jobs.countP (fun j => j.stage.message.isSome) ≤ 1)
    (hjob : w.jobs[i]? = some job) (hmessage : job.stage.message = some m)
    (hnext : ∀ s ∈ next, s.message = none) :
    ∀ j ∈ (w.goOn i job.start next).jobs, j.stage.message = none := by
  have hcount := countP_goOn (fun s => s.message.isSome) job.start next hjob
  have hzero : next.countP (fun s => s.message.isSome) = 0 :=
    List.countP_eq_zero.mpr fun s hs => by simp [hnext s hs]
  simp only [hmessage, Option.isSome_some, if_true, hzero] at hcount
  have hnone : (w.goOn i job.start next).jobs.countP (fun j => j.stage.message.isSome) = 0 := by
    omega
  intro j hj
  simpa using List.countP_eq_zero.mp hnone j hj

theorem calm_of_move (hmove : Move slot w a w') (hkind : handlesRequest a = false)
    (hone : w.jobs.countP (fun j => j.stage.message.isSome) ≤ 1) : Calm w w' := by
  cases hmove with
  | refused | reserved | answered | started | published | unpublished | delivered | requeued
  | submitted => cases hkind
  | called hjob hcommand hrun hqueue =>
    rcases hqueue with ⟨-, rfl⟩ | ⟨m, hstage, rfl, rfl⟩
    · exact calm_goOn hjob successors_resume (.refl _) (kept_all rfl)
    · refine calm_goOn hjob successors_resume List.filter_sublist fun j hj m' hm' => ?_
      have hnone := none_held hone hjob (by rw [hstage]; rfl) (by simp [hstage, Stage.resume]) j hj
      rw [hnone] at hm'
      cases hm'
  | disconnected hjob hstage =>
    refine calm_goOn hjob ?_ (.refl _) (kept_all rfl)
    rw [hstage]
    exact successors_disconnect
  | expired hm hready =>
    refine calm_of_same_jobs rfl rfl (List.eraseIdx_sublist ..) fun m' hm' hunacked => ?_
    obtain ⟨n, hn, rfl⟩ := List.mem_iff_getElem.mp hm'
    refine List.mem_eraseIdx_iff_getElem.mpr ⟨n, hn, fun heq => ?_, rfl⟩
    subst heq
    rw [(List.getElem?_eq_some_iff.mp hm).2, hready] at hunacked
    cases hunacked
  | rejected hjob hstage =>
    refine calm_goOn hjob (successors_of_quiet (by simp)) List.filter_sublist fun j hj m' hm' => ?_
    have hnone := none_held hone hjob (by rw [hstage]; rfl) (by simp) j hj
    rw [hnone] at hm'
    cases hm'
  | podEvent | checked | stopping | listed => exact calm_spawn rfl
  | orphaned hjob hstage =>
    refine calm_of_reaped (List.eraseIdx_sublist ..) rfl rfl (fun j hj => ?_) rfl
    obtain ⟨t, -, rfl⟩ := List.mem_map.mp hj
    rfl
  | @podState _ _ ns cache state hjob hstage =>
    refine calm_goOn hjob (successors_of_quiet fun s hs => ?_) (.refl _) (kept_all rfl)
    have hs := Option.mem_toList.mp hs
    cases state <;> simp [podStateDecision] at hs
    · rw [← hs]; rfl
    · rw [← hs.2]; rfl
  | @podCleaned _ _ _ ok hjob | @stopForced _ _ _ ok hjob =>
    exact calm_goOn hjob (successors_of_quiet (by
      cases ok <;> simp [Stage.submits, Stage.publishes, Stage.message])) (.refl _) (kept_all rfl)
  | crashedStart hjob | crashed hjob | stopDeleted hjob | scheduled hjob | issued hjob
  | saved hjob =>
    exact calm_goOn hjob (successors_of_quiet (by
      simp [Stage.submits, Stage.publishes, Stage.message])) (.refl _) (kept_all rfl)
  | _ => exact calm_of_same_jobs rfl rfl (.refl _) fun _ hm _ => hm

section History

variable {h : History}

theorem since_observe (hsubmission : submission w a = none) :
    (observe slot h w a w').since = 0 ∨ (observe slot h w a w').since = h.since := by
  unfold observe
  rw [hsubmission]
  dsimp only
  split
  · exact .inl rfl
  · exact .inr rfl

/-- A slot that is free after the step has no submission since its release. -/
theorem since_of_free (hsubmission : submission w a = none)
    (hfree : held slot w = false → h.since = 0) (hafter : held slot w' = false) :
    (observe slot h w a w').since = 0 := by
  unfold observe
  rw [hsubmission, hafter]
  cases hheld : held slot w with
  | true => simp
  | false => simpa [hheld] using hfree hheld

theorem submitted_observe (hsubmission : submission w a = none) :
    (observe slot h w a w').submitted = h.submitted := by
  simp [observe, hsubmission]

theorem afterFailure_observe (hsubmission : submission w a = none) :
    (observe slot h w a w').afterFailure = h.afterFailure := by
  simp [observe, hsubmission]

end History

theorem FailsClean.calm {g : Nat} (h : FailsClean w g) (hcalm : Calm w w') : FailsClean w' g := by
  refine ⟨fun j hj hstart => Bool.eq_false_iff.mpr fun hsubmits => ?_,
    fun m hm => h.2 m (hcalm.queue.subset hm)⟩
  obtain ⟨j', hj', hstart', -, hsubmits'⟩ := hcalm.jobs j hj hsubmits
  rw [h.1 j' hj' (hstart'.trans hstart)] at hsubmits'
  cases hsubmits'

theorem submits_of_message {stage : Stage} {m : Message} (h : m ∈ stage.message) :
    stage.submits = true := by
  simp [Stage.submits, show stage.message = some m from h]

/-- A step that brings no request keeps the invariant. -/
theorem Inv.calm (h : Inv slot s) (hcalm : Calm s.1 w') (hnumbered : Numbered slot w')
    (hsubmission : submission s.1 a = none)
    (hfail : ∀ g ∈ answersFailure s.1 a, g ≤ s.1.starts ∧ FailsClean s.1 g) :
    Inv slot (w', observe slot s.2 s.1 a w') where
  numbered := hnumbered
  single := by
    have hsingle := h.single
    have hpublishing := hcalm.publishing
    have hqueue := hcalm.queue.length_le
    unfold requests at hsingle ⊢
    dsimp only
    omega
  holding j hj m hm := by
    obtain ⟨j', hj', -, hmessage, -⟩ := hcalm.jobs j hj (submits_of_message hm)
    obtain ⟨m', hm', hid, hunacked⟩ := h.holding j' hj' m (hmessage ▸ hm)
    exact ⟨m', hcalm.kept j hj m hm m' hm' hid hunacked, hid, hunacked⟩
  holders := hcalm.holders.trans h.holders
  once := by
    have hsince : (observe slot s.2 s.1 a w').since = 0 ∨ _ := since_observe hsubmission
    rcases hsince with hzero | hsame
    · simp [hzero]
    · simpa [hsame] using h.once
  done hone := by
    have hsince : (observe slot s.2 s.1 a w').since = 0 ∨ _ := since_observe hsubmission
    rcases hsince with hzero | hsame
    · simp [hzero] at hone
    · obtain ⟨hjobs, hqueue⟩ := h.done (hsame.symm.trans hone)
      refine ⟨fun j hj => Bool.eq_false_iff.mpr fun hsubmits => ?_, fun m hm => ?_⟩
      · obtain ⟨j', hj', -, -, hsubmits'⟩ := hcalm.jobs j hj hsubmits
        rw [hjobs j' hj'] at hsubmits'
        cases hsubmits'
      · rw [submitted_observe hsubmission]
        exact hqueue m (hcalm.queue.subset hm)
  free := since_of_free hsubmission h.free
  clean g hg := by
    rw [hcalm.starts]
    rcases List.mem_append.mp hg with hnew | hold
    · obtain ⟨hle, hclean⟩ := hfail g (Option.mem_toList.mp hnew)
      exact ⟨hle, hclean.calm hcalm⟩
    · obtain ⟨hle, hclean⟩ := h.clean g hold
      exact ⟨hle, hclean.calm hcalm⟩
  inOrder := by
    dsimp only
    rw [afterFailure_observe hsubmission]
    exact h.inOrder

/-! ### Steps that begin, pass on or submit the request -/

theorem quiet_message {stage : Stage} (h : stage.submits = false) : stage.message = none := by
  simpa using (Bool.or_eq_false_iff.mp h).2

theorem Idle.countP (h : Idle w) : w.jobs.countP (fun j => j.stage.publishes) = 0 ∧
    w.jobs.countP (fun j => j.stage.message.isSome) = 0 :=
  ⟨List.countP_eq_zero.mpr fun j hj => by simp [(Bool.or_eq_false_iff.mp (h.1 j hj)).1],
    List.countP_eq_zero.mpr fun j hj => by simp [quiet_message (h.1 j hj)]⟩

/-- A step without a submission leaves a count of zero at zero. -/
theorem since_zero {h : History} (hsubmission : submission w a = none) (hzero : h.since = 0) :
    (observe slot h w a w').since = 0 :=
  (since_observe hsubmission).elim (fun hstart => hstart) fun hsame => hsame.trans hzero

/-- A start that finds nothing under way and the slot free brings the only request. -/
theorem Inv.begin (h : Inv slot s) {redis : Redis} {waiting : Bool} {pc : StartPc}
    (hidle : Idle s.1) (hfree : held slot s.1 = false)
    (hworld : w' = World.spawn { s.1 with redis := redis, starts := s.1.starts + 1 }
      (s.1.starts + 1) (.start waiting pc))
    (hnumbered : Numbered slot w') (hsubmission : submission s.1 a = none)
    (hanswer : answersFailure s.1 a = none) :
    Inv slot (w', observe slot s.2 s.1 a w') := by
  obtain ⟨hpublishing, hholders⟩ := hidle.countP
  have hzero : (observe slot s.2 s.1 a w').since = 0 :=
    since_zero hsubmission (h.free hfree)
  have hmessage : (Stage.start waiting pc).message = none := rfl
  have hjobs : w'.jobs = s.1.jobs ++ [⟨s.1.starts + 1, .start waiting pc⟩] := by rw [hworld]; rfl
  have hqueue : w'.queue = [] := by rw [hworld]; exact hidle.2
  constructor
  case numbered => exact hnumbered
  case single =>
    have hone := List.countP_le_length (p := fun j : Job => j.stage.publishes)
      (l := [⟨s.1.starts + 1, .start waiting pc⟩])
    simpa [requests, hjobs, hqueue, hpublishing] using hone
  case holding =>
    intro j hj m hm
    rcases List.mem_append.mp (hjobs ▸ hj) with hold | hnew
    · rw [quiet_message (hidle.1 j hold)] at hm
      cases hm
    · obtain rfl := List.mem_singleton.mp hnew
      cases hm
  case holders => simp [hjobs, hholders, hmessage]
  case once => simp [hzero]
  case done => simp [hzero]
  case free => exact fun _ => hzero
  case clean =>
    intro g hg
    simp only [observe, hanswer, Option.toList_none, List.nil_append] at hg
    obtain ⟨hle, hclean⟩ := h.clean g hg
    refine ⟨by simp only [hworld, spawn]; omega, fun j hj hstart => ?_, by simp [hqueue]⟩
    rcases List.mem_append.mp (hjobs ▸ hj) with hold | hnew
    · exact hidle.1 j hold
    · obtain rfl := List.mem_singleton.mp hnew
      simp only at hstart
      omega
  case inOrder =>
    dsimp only
    rw [afterFailure_observe hsubmission]
    exact h.inOrder

/-- Where a request is still to be submitted, none has been since the last release. -/
theorem Inv.since_of_submits (h : Inv slot s) {j : Job} (hj : j ∈ s.1.jobs)
    (hsubmits : j.stage.submits = true) : s.2.since = 0 := by
  have honce := h.once
  by_contra hne
  have hdone := (h.done (by omega)).1 j hj
  rw [hsubmits] at hdone
  cases hdone

/-- A message in the queue is the only request. -/
theorem Inv.queue_eq (h : Inv slot s) {k : Nat} {m : Message} (hm : s.1.queue[k]? = some m) :
    k = 0 ∧ s.1.queue = [m] ∧ s.1.jobs.countP (fun j => j.stage.publishes) = 0 := by
  have hsingle := h.single
  unfold requests at hsingle
  cases hqueue : s.1.queue with
  | nil => simp [hqueue] at hm
  | cons first rest =>
    rw [hqueue, List.length_cons] at hsingle
    have hrest : rest = [] := List.length_eq_zero_iff.mp (by omega)
    subst hrest
    rw [hqueue] at hm
    cases k with
    | zero =>
      obtain rfl : first = m := by simpa using hm
      exact ⟨rfl, rfl, by omega⟩
    | succ k => simp at hm

/-- The only request becomes, or goes on as, the one message of the queue. -/
theorem Inv.pass (h : Inv slot s) {m : Message} (hzero : s.2.since = 0)
    (hnone : ∀ j ∈ s.1.jobs, j.stage.message = none) (hfailed : m.start ∉ s.2.failed)
    (hqueue : w'.queue = [m])
    (hjobs : ∀ j ∈ w'.jobs, j ∈ s.1.jobs ∨
      (j.start = m.start ∧ ∀ m' ∈ j.stage.message, m.id = m'.id ∧ m.unacked = true))
    (hpublishing : w'.jobs.countP (fun j => j.stage.publishes) = 0)
    (hholders : w'.jobs.countP (fun j => j.stage.message.isSome) ≤ 1)
    (hstarts : w'.starts = s.1.starts) (hnumbered : Numbered slot w')
    (hsubmission : submission s.1 a = none) (hanswer : answersFailure s.1 a = none) :
    Inv slot (w', observe slot s.2 s.1 a w') := by
  have hsince : (observe slot s.2 s.1 a w').since = 0 := since_zero hsubmission hzero
  constructor
  case numbered => exact hnumbered
  case single => simp [requests, hpublishing, hqueue]
  case holding =>
    intro j hj m' hm'
    rcases hjobs j hj with hold | ⟨-, hholds⟩
    · rw [hnone j hold] at hm'
      cases hm'
    · exact ⟨m, by simp [hqueue], hholds m' hm'⟩
  case holders => exact hholders
  case once => simp [hsince]
  case done => simp [hsince]
  case free => exact fun _ => hsince
  case clean =>
    intro g hg
    simp only [observe, hanswer, Option.toList_none, List.nil_append] at hg
    have hne : m.start ≠ g := fun heq => hfailed (heq ▸ hg)
    obtain ⟨hle, hclean⟩ := h.clean g hg
    refine ⟨hstarts ▸ hle, fun j hj hjstart => ?_, fun m' hm' => ?_⟩
    · rcases hjobs j hj with hold | ⟨hnew, -⟩
      · exact hclean.1 j hold hjstart
      · exact absurd (hnew.symm.trans hjstart) hne
    · obtain rfl : m' = m := by simpa [hqueue] using hm'
      exact hne
  case inOrder =>
    dsimp only
    rw [afterFailure_observe hsubmission]
    exact h.inOrder

theorem mem_goOn {i start : Nat} {next : List Stage} {j : Job}
    (hj : j ∈ (w.goOn i start next).jobs) :
    j ∈ w.jobs ∨ (j.start = start ∧ j.stage ∈ next) := by
  rcases List.mem_append.mp hj with hold | hnew
  · exact .inl (List.mem_of_mem_eraseIdx hold)
  · obtain ⟨stage, hstage, rfl⟩ := List.mem_map.mp hnew
    exact .inr ⟨rfl, hstage⟩

/-- Nobody holds a message when the queue has none that is unacknowledged. -/
theorem Inv.none_holds (h : Inv slot s) (hqueue : ∀ m ∈ s.1.queue, m.unacked = false) :
    ∀ j ∈ s.1.jobs, j.stage.message = none := by
  intro j hj
  refine Option.eq_none_iff_forall_ne_some.mpr fun m hm => ?_
  obtain ⟨m', hm', -, hunacked⟩ := h.holding j hj m hm
  rw [hqueue m' hm'] at hunacked
  cases hunacked

theorem Inv.not_failed (h : Inv slot s) {j : Job} (hj : j ∈ s.1.jobs)
    (hsubmits : j.stage.submits = true) : j.start ∉ s.2.failed := by
  intro hfailed
  have hclean := (h.clean j.start hfailed).2.1 j hj rfl
  rw [hsubmits] at hclean
  cases hclean

theorem Inv.published {i : Nat} {job : Job} {waiting confirmed : Bool} (h : Inv slot s)
    (hjob : s.1.jobs[i]? = some job) (hstage : job.stage = .start waiting .enqueue)
    (hmove : Move slot s.1 (.publish i true confirmed) w')
    (hworld : w' = { s.1.goOn i job.start
      [.start waiting (if confirmed then .mark (queuedCall slot job.start) else .clear)] with
        published := s.1.published + 1
        queue := s.1.queue ++
          [⟨s.1.published, job.start, s.1.redis.now + slot.expirySeconds, false⟩] }) :
    Inv slot (w', observe slot s.2 s.1 (.publish i true confirmed) w') := by
  have hmem := List.mem_of_getElem? hjob
  have hpublishes : job.stage.publishes = true := by rw [hstage]; rfl
  have hsubmits : job.stage.submits = true := by simp [Stage.submits, hpublishes]
  have hsingle := h.single
  unfold requests at hsingle
  have hcount := countP_goOn Stage.publishes job.start
    [.start waiting (if confirmed then .mark (queuedCall slot job.start) else .clear)] hjob
  have hnext : (Stage.start waiting
      (if confirmed then .mark (queuedCall slot job.start) else .clear)).publishes = false := by
    cases confirmed <;> rfl
  simp only [hpublishes, if_true, List.countP_singleton, hnext, Bool.false_eq_true, if_false,
    Nat.add_zero] at hcount
  have hempty : s.1.queue = [] := List.length_eq_zero_iff.mp (by omega)
  have hnone := h.none_holds (by simp [hempty])
  have hmessage : ∀ j ∈ w'.jobs, j.stage.message = none := by
    intro j hj
    rw [hworld] at hj
    rcases mem_goOn hj with hold | ⟨-, hnew⟩
    · exact hnone j hold
    · rw [List.mem_singleton.mp hnew]
      rfl
  refine h.pass (m := ⟨s.1.published, job.start, s.1.redis.now + slot.expirySeconds, false⟩)
    (h.since_of_submits hmem hsubmits) hnone (h.not_failed hmem hsubmits)
    (by simp [hworld, hempty]) (fun j hj => ?_) ?_ ?_ (by rw [hworld]; rfl)
    (hmove.numbered h.numbered) rfl rfl
  · rw [hworld] at hj
    refine (mem_goOn hj).imp_right fun ⟨hstart, hnew⟩ => ⟨hstart, fun m' hm' => ?_⟩
    rw [List.mem_singleton.mp hnew] at hm'
    cases hm'
  · have hjobs : w'.jobs = (s.1.goOn i job.start [.start waiting
        (if confirmed then .mark (queuedCall slot job.start) else .clear)]).jobs := by rw [hworld]
    rw [hjobs]
    omega
  · rw [List.countP_eq_zero.mpr fun j hj => by simp [hmessage j hj]]
    omega

theorem Inv.delivered {k : Nat} {m : Message} (h : Inv slot s) (hm : s.1.queue[k]? = some m)
    (hready : m.unacked = false) (hmove : Move slot s.1 (.deliver k) w')
    (hworld : w' = World.spawn
      { s.1 with queue := s.1.queue.set k { m with unacked := true } } m.start (.workRead m)) :
    Inv slot (w', observe slot s.2 s.1 (.deliver k) w') := by
  obtain ⟨rfl, hqueue, hpublishing⟩ := h.queue_eq hm
  have hmem : m ∈ s.1.queue := List.mem_of_getElem? hm
  have hnone := h.none_holds (by simpa [hqueue] using hready)
  have hzero : s.2.since = 0 := by
    have honce := h.once
    by_contra hne
    have hdone := ((h.done (by omega)).2 m hmem).1
    rw [hready] at hdone
    cases hdone
  have hjobs : w'.jobs = s.1.jobs ++ [⟨m.start, .workRead m⟩] := by rw [hworld]; rfl
  have hholders : s.1.jobs.countP (fun j => j.stage.message.isSome) = 0 :=
    List.countP_eq_zero.mpr fun j hj => by simp [hnone j hj]
  refine h.pass (m := { m with unacked := true }) hzero hnone (fun hfailed => ?_)
    (by rw [hworld]; simp [spawn, hqueue]) (fun j hj => ?_) ?_ ?_ (by rw [hworld]; rfl)
    (hmove.numbered h.numbered) rfl rfl
  · exact (h.clean m.start hfailed).2.2 m hmem rfl
  · rcases List.mem_append.mp (hjobs ▸ hj) with hold | hnew
    · exact .inl hold
    · obtain rfl := List.mem_singleton.mp hnew
      refine .inr ⟨rfl, fun m' hm' => ?_⟩
      obtain rfl := Option.some.inj hm'
      exact ⟨rfl, rfl⟩
  · rw [hjobs, List.countP_append, hpublishing]
    rfl
  · rw [hjobs, List.countP_append, hholders]
    exact Nat.le_refl 1

theorem Inv.requeued {k : Nat} {m : Message} (h : Inv slot s) (hm : s.1.queue[k]? = some m)
    (hcond : Orderly slot s (.requeue k)) (hmove : Move slot s.1 (.requeue k) w')
    (hworld : w' = { s.1 with queue := s.1.queue.set k { m with unacked := false } }) :
    Inv slot (w', observe slot s.2 s.1 (.requeue k) w') := by
  obtain ⟨hnew, hnobody⟩ := hcond m hm
  obtain ⟨rfl, hqueue, hpublishing⟩ := h.queue_eq hm
  have hmem : m ∈ s.1.queue := List.mem_of_getElem? hm
  have hnone : ∀ j ∈ s.1.jobs, j.stage.message = none := by
    intro j hj
    refine Option.eq_none_iff_forall_ne_some.mpr fun m' hm' => ?_
    obtain ⟨held, hheld, hid, -⟩ := h.holding j hj m' hm'
    obtain rfl : held = m := by simpa [hqueue] using hheld
    exact hnobody j hj m' hm' hid.symm
  have hzero : s.2.since = 0 := by
    have honce := h.once
    by_contra hne
    exact hnew ((h.done (by omega)).2 m hmem).2
  refine h.pass (m := { m with unacked := false }) hzero hnone (fun hfailed => ?_)
    (by rw [hworld]; simp [hqueue]) (fun j hj => .inl (by rwa [hworld] at hj)) ?_ ?_
    (by rw [hworld]) (hmove.numbered h.numbered) rfl rfl
  · exact (h.clean m.start hfailed).2.2 m hmem rfl
  · rw [hworld]
    exact hpublishing
  · rw [hworld]
    exact h.holders

/-- The submission of the only request: the count becomes one, and what remains
of the message is not delivered again. -/
theorem Inv.submitted {i : Nat} {job : Job} {m : Message} {copy : ChallengeDeploymentCacheDTO}
    {appName : String} {workflowName : Option String} {acked : Bool} {queue : List Message}
    (h : Inv slot s) (hjob : s.1.jobs[i]? = some job) (hstage : job.stage = .workSubmit m copy)
    (hqueue : queue = if acked then s.1.queue.filter fun m' => m'.id ≠ m.id else s.1.queue)
    (hheld : held slot s.1 = true)
    (hmove : Move slot s.1 (.submit i appName workflowName acked) w')
    (hworld : w' = { s.1.goOn i job.start (workflowName.map fun name =>
        Stage.workWrite (submittedCall slot copy appName name)).toList with
      workflows := s.1.workflows ++ [⟨appName, job.start⟩]
      names := s.1.names ++ [⟨appName, job.start⟩]
      queue := queue }) :
    Inv slot (w', observe slot s.2 s.1 (.submit i appName workflowName acked) w') := by
  have hmem := List.mem_of_getElem? hjob
  have hmessage : job.stage.message = some m := by rw [hstage]; rfl
  have hsubmits : job.stage.submits = true := submits_of_message hmessage
  have hzero := h.since_of_submits hmem hsubmits
  have hsubmission : submission s.1 (.submit i appName workflowName acked) =
      some (job.start, m) := by
    simp [submission, hjob, hmessage]
  have hnext : ∀ stage ∈ (workflowName.map fun name =>
      Stage.workWrite (submittedCall slot copy appName name)).toList, stage.submits = false := by
    intro stage hstage
    obtain ⟨name, -, rfl⟩ := Option.map_eq_some_iff.mp (Option.mem_toList.mp hstage)
    rfl
  have hnone : ∀ j ∈ w'.jobs, j.stage.message = none := by
    rw [hworld]
    exact none_held h.holders hjob hmessage fun stage hstage => quiet_message (hnext stage hstage)
  have hsublist : queue.Sublist s.1.queue := by
    subst hqueue
    cases acked with
    | false => exact .refl _
    | true => exact List.filter_sublist
  have hcalm : Calm s.1 w' := by
    rw [hworld]
    refine calm_goOn hjob (successors_of_quiet hnext) hsublist fun j hj m' hm' => ?_
    rw [hnone j (by rw [hworld]; exact hj)] at hm'
    cases hm'
  -- the held message is still queued, so nothing is left to be published
  obtain ⟨m', hm', hid, hunacked⟩ := h.holding job hmem m hmessage
  obtain ⟨n, hn⟩ := List.mem_iff_getElem?.mp hm'
  obtain ⟨-, hall, hpublishing⟩ := h.queue_eq hn
  have hnopublish : ∀ j ∈ w'.jobs, j.stage.publishes = false := by
    have hle := hcalm.publishing
    intro j hj
    simpa using List.countP_eq_zero.mp (show w'.jobs.countP (fun j => j.stage.publishes) = 0 by
      omega) j hj
  constructor
  case numbered => exact hmove.numbered h.numbered
  case single =>
    have hle := hcalm.publishing
    have hlength := hcalm.queue.length_le
    have hsingle := h.single
    unfold requests at hsingle ⊢
    dsimp only
    omega
  case holding =>
    intro j hj m'' hm''
    rw [hnone j hj] at hm''
    cases hm''
  case holders => exact hcalm.holders.trans h.holders
  case once =>
    simp only [observe, hsubmission, hzero, Option.isSome_some, if_true]
    split <;> omega
  case done =>
    intro _
    refine ⟨fun j hj => by simp [Stage.submits, hnopublish j hj, hnone j hj], fun m'' hm'' => ?_⟩
    obtain rfl : m'' = m' := by simpa [hall] using hcalm.queue.subset hm''
    exact ⟨hunacked, by simp [observe, hsubmission, hid]⟩
  case free =>
    intro hfree
    simp [observe, hheld, hfree]
  case clean =>
    intro g hg
    have hold : g ∈ s.2.failed := by simpa [observe, answersFailure] using hg
    obtain ⟨hle, hclean⟩ := h.clean g hold
    rw [hcalm.starts]
    exact ⟨hle, hclean.calm hcalm⟩
  case inOrder =>
    have hnot := h.not_failed hmem hsubmits
    simp [observe, hsubmission, h.inOrder, hnot]

theorem held_of_pass {maxLimit : Nat} {value : ChallengeDeploymentCacheDTO} {redis : Redis}
    (hteam : 0 < slot.team)
    (hcreate : w.redis.atomicCheckAndCreateDeploymentZSet slot.team slot.challenge maxLimit value
      300 = (redis, some .Pass)) : held slot w = false := by
  obtain ⟨-, -, ⟨hres, -⟩ | ⟨-, -, hscore, -⟩⟩ := Redis.create_cases hcreate
  · exact absurd rfl hres
  · rw [held, if_neg (by omega)]
    refine Bool.eq_false_iff.mpr fun hany => ?_
    obtain ⟨score, hold, hlive⟩ := (Option.any_eq_true _ _).mp hany
    have hpurged : SortedSet.score (w.redis.zset (getZSetKKey slot.team)) slot.challenge =
        some score := hold
    rw [SortedSet.score_removeUpTo, hpurged] at hscore
    simp [Option.filter, of_decide_eq_true hlive] at hscore

theorem answersFailure_eq_some {g : Nat} (h : answersFailure w a = some g) :
    ∃ i job fault lag wfAlive, a = .call i fault lag wfAlive ∧ w.jobs[i]? = some job ∧
      g = job.start := by
  unfold answersFailure at h
  split at h
  · rename_i i fault lag wfAlive
    obtain ⟨job, hjob, hstage⟩ := Option.bind_eq_some_iff.mp h
    refine ⟨i, job, fault, lag, wfAlive, rfl, hjob, ?_⟩
    split at hstage <;> cases hstage <;> rfl
  · cases h

theorem Inv.quiet_step (h : Inv slot s) (hcond : Orderly slot s a) (hmove : Move slot s.1 a w')
    (hkind : handlesRequest a = false) : Inv slot (w', observe slot s.2 s.1 a w') := by
  have hsubmission : submission s.1 a = none := by
    cases a <;> first | rfl | cases hkind
  refine h.calm (calm_of_move hmove hkind h.holders) (hmove.numbered h.numbered) hsubmission
    fun g hg => ?_
  obtain ⟨i, job, fault, lag, wfAlive, rfl, hjob, rfl⟩ := answersFailure_eq_some hg
  exact ⟨(h.numbered.at hjob).1, hcond _ hg⟩

/-- Every step of an orderly run keeps the invariant. -/
theorem inv_step (h : Inv slot s) (hcond : Orderly slot s a)
    (hstep : monitored (step slot) (observe slot) s a = some t) : Inv slot t := by
  obtain ⟨hworld, hhistory⟩ := monitored_eq_some.mp hstep
  obtain ⟨w', h'⟩ := t
  simp only at hworld hhistory
  subst hhistory
  have hmove := step_move hworld
  by_cases hkind : handlesRequest a = false
  · exact h.quiet_step hcond hmove hkind
  have hall := hmove
  cases hmove with
  | refused =>
    exact h.calm (calm_of_same_jobs rfl rfl (.refl _) fun _ hm _ => hm)
      (hall.numbered h.numbered) rfl (by simp [answersFailure])
  | answered =>
    exact h.calm (calm_of_same_jobs rfl rfl (.refl _) fun _ hm _ => hm)
      (hall.numbered h.numbered) rfl (by simp [answersFailure])
  | unpublished hjob hstage =>
    rename_i confirmed
    refine h.calm (calm_goOn hjob (successors_of_quiet ?_) (.refl _) (kept_all rfl))
      (hall.numbered h.numbered) rfl (by simp [answersFailure])
    cases confirmed <;> simp [Stage.submits, Stage.publishes, Stage.message]
  | reserved hteam hcreate =>
    have hidle : Idle s.1 := hcond (by rw [hcreate])
    exact h.begin hidle (held_of_pass hteam hcreate) rfl (hall.numbered h.numbered) rfl rfl
  | started hteam hdecision =>
    obtain ⟨hidle, hfree⟩ := hcond (by rw [hdecision]; rfl)
    exact h.begin hidle hfree rfl (hall.numbered h.numbered) rfl rfl
  | published hjob hstage => exact h.published hjob hstage hall rfl
  | delivered hm hready => exact h.delivered hm hready hall rfl
  | requeued hm => exact h.requeued hm hcond hall rfl
  | submitted hjob hstage _ hqueue => exact h.submitted hjob hstage hqueue hcond hall rfl
  | _ => exact absurd rfl hkind

/-- In an orderly run at most one workflow is submitted between two releases of
the slot, and none for a start that was answered with a failure. -/
theorem one_submission {slot : Slot} {now : Int} {s : World × History}
    (h : Reach (monitored (step slot) (observe slot)) (Orderly slot) (World.init now, {}) s) :
    s.2.since ≤ 1 ∧ s.2.afterFailure = false := by
  have hinv := h.invariant (Inv slot) (inv_init slot now) fun _ _ _ hinv hcond hstep =>
    inv_step hinv hcond hstep
  exact ⟨hinv.once, hinv.inOrder⟩

/-- A start up to its submission, whose acknowledgement is lost when `acked` is false. -/
def submittedRun (acked : Bool) : List Action :=
  [.reserve 3, .call 0 .none 0 true, .publish 0 true true, .call 0 .none 0 true,
    .deliver 0, .call 0 .none 0 true, .submit 0 "team-7-1-web-1" (some "wf-1") acked]

/-- The broker delivers the message again, and the worker finds the entry alive. -/
def redeliveredRun : List Action :=
  submittedRun false ++ [.call 0 .none 0 true, .requeue 0, .deliver 0, .call 0 .none 0 true,
    .submit 0 "team-7-1-web-2" (some "wf-2") true]

/-- The broker takes the message without confirming it. The start fails and is
rolled back; the next start's entry lets the first message through. -/
def unconfirmedRun : List Action :=
  [.reserve 3, .call 0 .none 0 true, .publish 0 true false, .call 0 .none 0 true,
    .call 0 .none 0 true, .reserve 3, .deliver 0, .call 1 .none 0 true,
    .submit 1 "team-7-1-web-1" (some "wf-1") true]

theorem submitted_again :
    ¬ ∀ (slot : Slot) (now : Int) (s : World × History),
      Reach (monitored (step slot) (observe slot)) always (World.init now, {}) s →
        s.2.since ≤ 1 ∧ s.2.afterFailure = false := by
  intro hsubmitted
  let slot : Slot := { challenge := 1, team := 7 }
  obtain ⟨s, hreach, hs⟩ := exists_reach_of_exec (monitored (step slot) (observe slot))
    always (World.init 0, {}) redeliveredRun (p := fun s => s.2.since == 2)
    (meets_always ..) (by decide)
  have honce := (hsubmitted slot 0 s hreach).1
  have htwice : s.2.since = 2 := by simpa using hs
  omega

/-- A start that has been given up is submitted, with no second submission. -/
theorem submitted_after_failure :
    ∃ s, Reach (monitored (step { challenge := 1, team := 7 })
        (observe { challenge := 1, team := 7 })) always (World.init 0, {}) s ∧
      s.2.afterFailure = true := by
  let slot : Slot := { challenge := 1, team := 7 }
  exact exists_reach_of_exec (monitored (step slot) (observe slot))
    always (World.init 0, {}) unconfirmedRun (p := fun s => s.2.afterFailure)
    (meets_always ..) (by decide)

theorem one_submission_orderly :
    ∃ s, Reach (monitored (step { challenge := 1, team := 7 })
        (observe { challenge := 1, team := 7 })) (Orderly { challenge := 1, team := 7 })
        (World.init 0, {}) s ∧ s.2.submitted = [0] ∧ s.2.since ≤ 1 ∧ s.2.afterFailure = false := by
  let slot : Slot := { challenge := 1, team := 7 }
  obtain ⟨s, hreach, hs⟩ := exists_reach_of_exec (monitored (step slot) (observe slot))
    (Orderly slot) (World.init 0, {}) (submittedRun true)
    (p := fun s => s.2.submitted == [0]) (by decide) (by decide)
  exact ⟨s, hreach, by simpa using hs, one_submission hreach⟩

end Submission

end Fctf
