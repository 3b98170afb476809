import Fctf.Deploy.Effects

/-!
Stopped sessions. A history beside the world notes for which starts `Stop` has
written the status Deleting, and whether a later write of such a start made the
session pending or running again or kept its entry beyond the Deleting TTL.
-/

namespace Fctf

open Expiring Run World

namespace Revival

/-- For a stopped start, when its Deleting entry expires; and whether a write of
a stopped start has revived its session. -/
structure History where
  deadline : Nat → Option Int := fun _ => none
  revived : Bool := false

/-- The write goes back to a stopped start: its program works for that start, or
the entry that it writes is that start's. -/
def History.Stopped (h : History) (job : Job) (call : UpdateCall) : Prop :=
  (h.deadline job.start).isSome ∨ (h.deadline call.value.origin).isSome

instance (h : History) (job : Job) (call : UpdateCall) : Decidable (h.Stopped job call) :=
  inferInstanceAs (Decidable (_ ∨ _))

/-- The entry would last beyond the Deleting entry of the stopped start. -/
def History.Outlasts (h : History) (job : Job) (call : UpdateCall) (now : Int) : Prop :=
  (∃ d ∈ h.deadline job.start, d < now + call.realTtl) ∨
    ∃ d ∈ h.deadline call.value.origin, d < now + call.realTtl

instance (h : History) (job : Job) (call : UpdateCall) (now : Int) :
    Decidable (h.Outlasts job call now) :=
  inferInstanceAs (Decidable ((∃ d ∈ _, _) ∨ ∃ d ∈ _, _))

def isStop : Stage → Bool
  | .stopWrite _ => true
  | _ => false

def observeUpdate (slot : Slot) (h : History) (r : Redis) (job : Job) (call : UpdateCall) :
    History :=
  if r.accepts slot.team slot.challenge call.value = false then h
  else if isStop job.stage then
    { h with
      deadline := Function.update h.deadline call.value.origin (some (r.now + call.realTtl)) }
  else if h.Stopped job call ∧ (call.value.status = .PENDING ∨ call.value.status = .RUNING ∨
      h.Outlasts job call r.now) then
    { h with revived := true }
  else h

def observe (slot : Slot) (h : History) (w : World) (a : Action) (_ : World) : History :=
  match executed w a with
  | some (job, .update call) => observeUpdate slot h w.redis job call
  | _ => h

/-- What a write of a stopped start may do when it executes: find the slot given
back; be a Ready write that the guard turns away or that meets its own start's
entry; or write Deleting once more without outlasting the Deleting entry. -/
def UpdateRespectsStop (slot : Slot) (s : World × History) (job : Job) (call : UpdateCall) : Prop :=
  isStop job.stage ∨ ¬ s.2.Stopped job call ∨
    (0 < slot.team ∧ s.1.redis.zscore (getZSetKKey slot.team) slot.challenge = none) ∨
    (call.value.status = .RUNING ∧
      (s.1.redis.lateReady slot.key call.value = true ∨
        ((s.2.deadline call.value.origin).isSome ∧
          ∀ e ∈ s.1.cache slot, e.origin = call.value.origin))) ∨
    (call.value.status = .DELETING ∧ ¬ s.2.Outlasts job call s.1.redis.now)

instance (slot : Slot) (s : World × History) (job : Job) (call : UpdateCall) :
    Decidable (UpdateRespectsStop slot s job call) :=
  inferInstanceAs (Decidable (_ ∨ ¬ _ ∨ (_ ∧ _) ∨ (_ ∧ (_ ∨ (_ ∧ ∀ e ∈ _, _))) ∨ (_ ∧ ¬ _)))

def CommandRespectsStop (slot : Slot) (s : World × History) : Option (Job × Command) → Prop
  | some (job, .update call) => UpdateRespectsStop slot s job call
  | _ => True

instance (slot : Slot) (s : World × History) : ∀ c, Decidable (CommandRespectsStop slot s c)
  | some (job, .update call) => inferInstanceAs (Decidable (UpdateRespectsStop slot s job call))
  | some (_, .get) | some (_, .remove) | some (_, .removeCache) | some (_, .revoke ..) | none =>
    inferInstanceAs (Decidable True)

def RespectsStop (slot : Slot) (s : World × History) (a : Action) : Prop :=
  CommandRespectsStop slot s (executed s.1 a)

instance (slot : Slot) (s : World × History) (a : Action) : Decidable (RespectsStop slot s a) :=
  inferInstanceAs (Decidable (CommandRespectsStop ..))

variable {slot : Slot} {s t : World × History} {a : Action}

/-- What such a run keeps: no entry or stopped start is ahead of the number of
starts, and the entry of a stopped start is Deleting. -/
structure Inv (slot : Slot) (s : World × History) : Prop where
  numbered : Numbered slot s.1
  known : ∀ g, (s.2.deadline g).isSome → g ≤ s.1.starts
  deleting : ∀ e ∈ s.1.cache slot, (s.2.deadline e.origin).isSome → e.status = .DELETING
  unrevived : s.2.revived = false

theorem inv_init (slot : Slot) (now : Int) : Inv slot (World.init now, {}) where
  numbered := everywhere_init now
  known := by simp
  deleting := by simp
  unrevived := rfl

theorem lateReady_of_deleting {r : Redis} {key : String} {value : ChallengeDeploymentCacheDTO}
    (hrunning : value.status = .RUNING)
    (hcache : ∀ e ∈ r.cache key, e.status = .DELETING) : r.lateReady key value = true := by
  cases hentry : r.cache key with
  | none => simp [Redis.lateReady, hrunning, hentry]
  | some e => simp [Redis.lateReady, hrunning, hentry, hcache e hentry]

/-- An update that passes the tests is Stop's, or of a start that is not stopped,
or writes Deleting within the Deleting TTL. -/
theorem accepted_cases (h : Inv slot s) {job : Job} {call : UpdateCall}
    (hcond : UpdateRespectsStop slot s job call)
    (haccepts : s.1.redis.accepts slot.team slot.challenge call.value = true) :
    isStop job.stage = true ∨ ¬ s.2.Stopped job call ∨
      (call.value.status = .DELETING ∧ ¬ s.2.Outlasts job call s.1.redis.now) := by
  obtain ⟨hguard, hreserved⟩ := Redis.accepts_eq_true.mp haccepts
  rcases hcond with hstop | hfree | ⟨hteam, hscore⟩ | ⟨hrunning, hlate | ⟨hstopped, hown⟩⟩ | hdel
  · exact .inl hstop
  · exact .inr (.inl hfree)
  · rcases hreserved with hpreview | ⟨old, hold⟩
    · omega
    · rw [hscore] at hold
      cases hold
  · rw [Slot.key, hguard] at hlate
    cases hlate
  · have hdeleting : ∀ e ∈ s.1.cache slot, e.status = .DELETING := by
      intro e he
      exact h.deleting e he (hown e he ▸ hstopped)
    have hlate := lateReady_of_deleting hrunning hdeleting
    rw [Slot.key, hguard] at hlate
    cases hlate
  · exact .inr (.inr hdel)

theorem status_of_isStop {job : Job} {call : UpdateCall} (hstop : isStop job.stage = true)
    (hcommand : job.stage.command = some (.update call)) : call.value.status = .DELETING := by
  cases hstage : job.stage <;> simp only [hstage, isStop, Bool.false_eq_true] at hstop
  rw [hstage] at hcommand
  cases hcommand
  rfl

/-- The history after an accepted update has nothing revived, notes at most the
start of the written entry as newly stopped, and then that entry is Deleting. -/
theorem observe_accepted (h : Inv slot s) {job : Job} {call : UpdateCall}
    (hcond : UpdateRespectsStop slot s job call)
    (hcommand : job.stage.command = some (.update call))
    (haccepts : s.1.redis.accepts slot.team slot.challenge call.value = true) :
    (observeUpdate slot s.2 s.1.redis job call).revived = false ∧
      (∀ g, ((observeUpdate slot s.2 s.1.redis job call).deadline g).isSome →
        (s.2.deadline g).isSome ∨ g = call.value.origin) ∧
      (((observeUpdate slot s.2 s.1.redis job call).deadline call.value.origin).isSome →
        call.value.status = .DELETING) := by
  have hcases := accepted_cases h hcond haccepts
  unfold observeUpdate
  rw [if_neg (by simp [haccepts])]
  split
  · rename_i hstop
    refine ⟨h.unrevived, fun g hg => ?_, fun _ => status_of_isStop hstop hcommand⟩
    by_cases hsame : g = call.value.origin
    · exact .inr hsame
    · exact .inl (by simpa [Function.update, hsame] using hg)
  rename_i hstop
  split
  · rename_i hrevives
    rcases hcases with hstop' | hfree | ⟨hdeleting, hwithin⟩
    · exact absurd hstop' hstop
    · exact absurd hrevives.1 hfree
    · rcases hrevives.2 with hpending | hrunning | houtlasts
      · rw [hdeleting] at hpending
        cases hpending
      · rw [hdeleting] at hrunning
        cases hrunning
      · exact absurd houtlasts hwithin
  · refine ⟨h.unrevived, fun g hg => .inl hg, fun hstopped => ?_⟩
    rcases hcases with hstop' | hfree | ⟨hdeleting, -⟩
    · exact absurd hstop' hstop
    · exact absurd (.inr hstopped) hfree
    · exact hdeleting

theorem observe_refused {job : Job} {call : UpdateCall} {h : History} {r : Redis}
    (haccepts : r.accepts slot.team slot.challenge call.value = false) :
    observeUpdate slot h r job call = h := by
  simp [observeUpdate, haccepts]

/-- Where no update is accepted, the history stays and the entry is an old one
or a new reservation's. -/
theorem Inv.of_kept {w' : World} (h : Inv slot s)
    (hnumbered : Numbered slot w')
    (hstarts : s.1.starts ≤ w'.starts)
    (hcache : ∀ e, w'.cache slot = some e → s.1.cache slot = some e ∨
      (w'.starts = s.1.starts + 1 ∧ e = initialEntry slot w'.starts)) :
    Inv slot (w', s.2) where
  numbered := hnumbered
  known g hg := (h.known g hg).trans hstarts
  deleting e he hstopped := by
    rcases hcache e he with hold | ⟨hnew, rfl⟩
    · exact h.deleting e hold hstopped
    · have hle : w'.starts ≤ s.1.starts := h.known w'.starts hstopped
      omega
  unrevived := h.unrevived

theorem inv_step (h : Inv slot s) (hcond : RespectsStop slot s a)
    (hstep : monitored (step slot) (observe slot) s a = some t) : Inv slot t := by
  obtain ⟨w, history⟩ := s
  obtain ⟨w', history'⟩ := t
  obtain ⟨hworld, hhistory⟩ := monitored_eq_some.mp hstep
  simp only at hworld hhistory
  subst hhistory
  have hmove := step_move hworld
  have hstarts := hmove.starts_le
  have hnumbered := hmove.numbered h.numbered
  by_cases hupdate : ∃ job call, executed w a = some (job, .update call) ∧
      w.redis.accepts slot.team slot.challenge call.value = true
  · obtain ⟨job, call, hexec, haccepts⟩ := hupdate
    obtain ⟨i, fault, lag, wfAlive, rfl, hjob, hcommand, hfault⟩ := executed_eq_some hexec
    have hentry := hmove.cache_of_accepted hexec haccepts
    rw [RespectsStop, hexec] at hcond
    obtain ⟨hrevived, hknown, hdeleting⟩ := observe_accepted h hcond hcommand haccepts
    simp only [observe, hexec]
    refine ⟨hnumbered, fun g hg => ?_, fun e he hstopped => ?_, hrevived⟩
    · rcases hknown g hg with hold | rfl
      · exact (h.known g hold).trans hstarts
      · exact hnumbered.cache _ hentry
    · obtain rfl := Option.some.inj (hentry.symm.trans he)
      exact hdeleting hstopped
  · have hkept : observe slot history w a w' = history := by
      unfold observe
      split
      · rename_i job call hexec
        refine observe_refused (Bool.eq_false_iff.mpr fun haccepts => ?_)
        exact hupdate ⟨job, call, hexec, haccepts⟩
      · rfl
    rw [hkept]
    refine h.of_kept hnumbered hstarts fun e he => ?_
    rcases hmove.cache he with hold | hnew | ⟨call, ⟨i, job, fault, lag, wfAlive, rfl, hjob,
      hcommand, hfault, haccepts⟩, -⟩
    · exact .inl hold
    · exact .inr hnew
    · exact absurd ⟨job, call, executed_call hjob hcommand hfault, haccepts⟩ hupdate

/-- In a run whose late writes respect Stop, no write of a stopped start makes
its session pending or running again or keeps its entry beyond the Deleting TTL. -/
theorem stopped_not_revived {slot : Slot} {now : Int} {s : World × History}
    (h : Reach (monitored (step slot) (observe slot)) (RespectsStop slot)
      (World.init now, {}) s) : s.2.revived = false :=
  (h.invariant (Inv slot) (inv_init slot now) fun _ _ _ hinv hcond hstep =>
    inv_step hinv hcond hstep).unrevived

/-- The worker has submitted the workflow when the session is stopped, and writes
its copy of the entry afterwards. -/
def lateSubmissionRun : List Action :=
  [.reserve 3, .call 0 .none 0 true, .publish 0 true true, .call 0 .none 0 true,
    .deliver 0, .call 0 .none 0 true, .submit 0 "team-7-1-web-1" (some "wf-1") true,
    .stop false, .call 1 .none 0 true, .call 1 .none 0 true, .call 0 .none 0 true]

theorem stopped_session_revived :
    ¬ ∀ (slot : Slot) (now : Int) (s : World × History),
      Reach (monitored (step slot) (observe slot)) always (World.init now, {}) s →
        s.2.revived = false := by
  intro hrevived
  let slot : Slot := { challenge := 1, team := 7 }
  obtain ⟨s, hreach, hs⟩ := exists_reach_of_exec (monitored (step slot) (observe slot))
    always (World.init 0, {}) lateSubmissionRun (p := fun s => s.2.revived)
    (meets_always ..) (by decide)
  rw [hrevived slot 0 s hreach] at hs
  cases hs

/-- A running session is stopped. Its namespace is revoked and the entry is
Deleting for 40 seconds. A pod event with a new uid reads that entry. -/
def restartAfterStopRun : List Action :=
  [.reserve 3, .call 0 .none 0 true, .publish 0 true true, .call 0 .none 0 true,
    .deliver 0, .call 0 .none 0 true, .submit 0 "team-7-1-web-1" (some "wf-1") true,
    .call 0 .none 0 true, .podCreated 0, .podEvent 0 "uid-1" .present, .call 0 .none 0 true,
    .podState 0 .ready, .schedule 0 30 0, .issue 0, .call 0 .none 0 true,
    .stop false, .call 0 .none 0 true, .call 0 .none 0 true,
    .podEvent 0 "uid-2" .present, .call 1 .none 0 true, .call 1 .none 0 true, .tick 1000]

/-- The restart handler writes the Deleting entry back for the rest of the
session's half hour. -/
theorem restart_outlasts_deleting :
    ∃ s, Reach (monitored (step { challenge := 1, team := 7 })
        (observe { challenge := 1, team := 7 })) always (World.init 0, {}) s ∧
      s.2.revived = true ∧
      (s.1.cache { challenge := 1, team := 7 }).map (·.status) = some .DELETING ∧
      s.1.redis.isRevoked "team-7-1-web-1" = true := by
  let slot : Slot := { challenge := 1, team := 7 }
  obtain ⟨s, hreach, hs⟩ := exists_reach_of_exec (monitored (step slot) (observe slot))
    always (World.init 0, {}) restartAfterStopRun
    (p := fun s => s.2.revived && ((s.1.cache slot).map (·.status) == some .DELETING) &&
      s.1.redis.isRevoked "team-7-1-web-1") (meets_always ..) (by decide)
  simp only [Bool.and_eq_true, beq_iff_eq] at hs
  exact ⟨s, hreach, hs.1.1, hs.1.2, hs.2⟩

theorem stopped_not_revived_ready :
    ∃ s, Reach (monitored (step { challenge := 1, team := 7 })
        (observe { challenge := 1, team := 7 })) (RespectsStop { challenge := 1, team := 7 })
        (World.init 0, {}) s ∧ s.2.deadline 1 = some 40 ∧ s.2.revived = false := by
  let slot : Slot := { challenge := 1, team := 7 }
  obtain ⟨s, hreach, hs⟩ := exists_reach_of_exec (monitored (step slot) (observe slot))
    (RespectsStop slot) (World.init 0, {})
    [.reserve 3, .call 0 .none 0 true, .publish 0 true true, .call 0 .none 0 true,
      .deliver 0, .call 0 .none 0 true, .submit 0 "team-7-1-web-1" (some "wf-1") true,
      .call 0 .none 0 true, .podCreated 0, .podEvent 0 "uid-1" .present, .call 0 .none 0 true,
      .podState 0 .ready, .schedule 0 30 0, .issue 0,
      -- Stop comes before the Ready write
      .stop false, .call 1 .none 0 true, .call 1 .none 0 true, .call 0 .none 0 true]
    (p := fun s => s.2.deadline 1 == some 40) (by decide) (by decide)
  exact ⟨s, hreach, by simpa using hs, stopped_not_revived hreach⟩

end Revival

end Fctf
