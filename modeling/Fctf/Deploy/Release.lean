import Fctf.Deploy.Effects

/-!
Who releases the slot. A release names only the challenge and the team. A
history beside the world notes whether a release ever took away a reservation
or a cache entry of another start than its own.
-/

namespace Fctf

open Expiring Run World

namespace Release

/-- The stages that release the slot because a start failed or a deployment ended. -/
def isRelease : Stage → Bool
  | .rollback | .start _ .clear | .podRemove .. | .orphan _ | .stopRemove | .stopRemoveCache => true
  | _ => false

/-- The command takes something of another start away. The reservation of a team
is always that of its newest granted start. -/
def takesForeign (slot : Slot) (w : World) (start : Nat) : Command → Bool
  | .remove =>
    ((w.redis.zscore (getZSetKKey slot.team) slot.challenge).isSome && w.starts != start) ||
      (w.cache slot).any fun e => e.origin != start
  | .removeCache => (w.cache slot).any fun e => e.origin != start
  | _ => false

/-- History: whether a release has taken something of another start away. -/
def observe (slot : Slot) (foreign : Bool) (w : World) (a : Action) (_ : World) : Bool :=
  match executed w a with
  | some (job, command) =>
    foreign || (isRelease job.stage && takesForeign slot w job.start command)
  | none => foreign

/-- Nothing of the earlier starts is under way. -/
structure Quiet (w : World) : Prop where
  jobs : w.jobs = []
  queue : w.queue = []
  workflows : w.workflows = []
  pods : w.pods = []
  tracking : w.tracking = []

instance (w : World) : Decidable (Quiet w) :=
  decidable_of_iff
    (w.jobs = [] ∧ w.queue = [] ∧ w.workflows = [] ∧ w.pods = [] ∧ w.tracking = [])
    ⟨fun ⟨hj, hq, hw, hp, ht⟩ => ⟨hj, hq, hw, hp, ht⟩,
      fun ⟨hj, hq, hw, hp, ht⟩ => ⟨hj, hq, hw, hp, ht⟩⟩

/-- A start begins only when the earlier ones have ended altogether; a start
without a reservation also finds no entry of theirs. -/
def StartsQuietly (slot : Slot) (s : World × Bool) : Action → Prop
  | .reserve maxLimit =>
    (s.1.redis.atomicCheckAndCreateDeploymentZSet slot.team slot.challenge maxLimit
      (initialEntry slot (s.1.starts + 1)) 300).2 = some .Pass → Quiet s.1
  | .directStart readFails wfAlive =>
    (startDecision (if readFails then none else s.1.cache slot) wfAlive).isRight = true →
      Quiet s.1 ∧ s.1.cache slot = none
  | _ => True

instance (slot : Slot) (s : World × Bool) : DecidablePred (StartsQuietly slot s) := by
  rintro ⟨⟩ <;> (delta StartsQuietly; infer_instance)

variable {slot : Slot} {s t : World × Bool} {w w' : World} {a : Action}

/-- Everything in the world is of the newest start, and no release was foreign. -/
structure Inv (slot : Slot) (s : World × Bool) : Prop where
  own : Everywhere slot (· = s.1.starts) (fun e => e.origin = s.1.starts) s.1
  unforeign : s.2 = false

theorem own_closed (slot : Slot) (n : Nat) : Closed slot (· = n) (fun e => e.origin = n) where
  origin _ h := h
  initial _ h := h
  queued _ h := h
  submitted _ _ _ h := h
  restarted _ _ h := h
  running _ _ h := h
  deleting _ h := h

/-- A world that was quiet carries only the start that has just begun. -/
theorem Quiet.everywhere (h : Quiet w) {redis : Redis} {waiting : Bool} {pc : StartPc}
    (hcache : ∀ e, redis.cache slot.key = some e → e.origin = w.starts + 1)
    (hpc : (Stage.start waiting pc).entries = []) :
    Everywhere slot (· = w.starts + 1) (fun e => e.origin = w.starts + 1)
      (World.spawn { w with redis := redis, starts := w.starts + 1 } (w.starts + 1)
        (.start waiting pc)) where
  cache := hcache
  jobs := by simp [spawn, h.jobs, hpc]
  queue := by simp [spawn, h.queue]
  workflows := by simp [spawn, h.workflows]
  pods := by simp [spawn, h.pods]
  tracking := by simp [spawn, h.tracking]

theorem everywhere_step (h : Everywhere slot (· = w.starts) (fun e => e.origin = w.starts) w)
    {foreign : Bool} (hcond : StartsQuietly slot (w, foreign) a) (hmove : Move slot w a w') :
    Everywhere slot (· = w'.starts) (fun e => e.origin = w'.starts) w' := by
  by_cases hstarts : w'.starts = w.starts
  · rw [hstarts]
    exact h.step (own_closed slot w.starts) hstarts hmove
  cases hmove with
  | reserved hteam hcreate =>
    have hquiet : Quiet w := hcond (by rw [hcreate])
    refine hquiet.everywhere (fun e he => ?_) rfl
    rcases Redis.cache_create hcreate with ⟨hres, -⟩ | ⟨-, hinitial⟩
    · exact absurd rfl hres
    · obtain rfl := Option.some.inj (hinitial.symm.trans he)
      rfl
  | started hteam hdecision =>
    obtain ⟨hquiet, hnone⟩ := hcond (by rw [hdecision]; rfl)
    refine hquiet.everywhere (fun e he => ?_) (startDecision_entries hdecision)
    rw [World.cache] at hnone
    rw [hnone] at he
    cases he
  | _ => exact absurd rfl hstarts

theorem takesForeign_own (h : Everywhere slot (· = w.starts) (fun e => e.origin = w.starts) w)
    (command : Command) : takesForeign slot w w.starts command = false := by
  have hcache : ((w.cache slot).any fun e => e.origin != w.starts) = false := by
    cases hentry : w.cache slot with
    | none => rfl
    | some e => simpa using h.cache e hentry
  cases command <;> simp [takesForeign, hcache]

theorem inv_step (h : Inv slot s) (hcond : StartsQuietly slot s a)
    (hstep : monitored (step slot) (observe slot) s a = some t) : Inv slot t := by
  obtain ⟨hworld, hhistory⟩ := monitored_eq_some.mp hstep
  refine ⟨everywhere_step h.own hcond (step_move hworld), ?_⟩
  rw [hhistory, observe]
  split
  · rename_i job command hexec
    obtain ⟨i, -, -, -, -, hjob, -⟩ := executed_eq_some hexec
    rw [(h.own.at hjob).1, takesForeign_own h.own, h.unforeign]
    simp
  · exact h.unforeign

/-- In a run whose starts begin only after the earlier ones have ended, every
release takes away only what belongs to its own start. -/
theorem release_own {slot : Slot} {now : Int} {s : World × Bool}
    (h : Reach (monitored (step slot) (observe slot)) (StartsQuietly slot)
      (World.init now, false) s) : s.2 = false :=
  (h.invariant (Inv slot) ⟨everywhere_init now, rfl⟩ fun _ _ _ hinv hcond hstep =>
    inv_step hinv hcond hstep).unforeign

/-- A session that ran and was stopped, up to its pod's Deleted event, which the
listener has read but not yet acted on. -/
def stoppedRun : List Action :=
  [.reserve 3, .call 0 .none 0 true, .publish 0 true true, .call 0 .none 0 true,
    .deliver 0, .call 0 .none 0 true, .submit 0 "team-7-1-web-1" (some "wf-1") true,
    .call 0 .none 0 true, .podCreated 0, .podEvent 0 "uid-1" .present, .call 0 .none 0 true,
    .podState 0 .ready, .schedule 0 30 0, .issue 0, .call 0 .none 0 true,
    .stop false, .call 0 .none 0 true, .call 0 .none 0 true, .deleteNamespace 0 true,
    .podEvent 0 "uid-1" .deleted, .podGone 0, .call 0 .none 0 true]

theorem later_start_released :
    ¬ ∀ (slot : Slot) (now : Int) (s : World × Bool),
      Reach (monitored (step slot) (observe slot)) always (World.init now, false) s →
        s.2 = false := by
  intro hreleased
  let slot : Slot := { challenge := 1, team := 7 }
  obtain ⟨s, hreach, hs⟩ := exists_reach_of_exec (monitored (step slot) (observe slot))
    always (World.init 0, false)
    -- the Deleting entry expires and the team starts the challenge again
    (stoppedRun ++ [.tick 41, .reserve 3, .call 0 .none 0 true])
    (p := fun s => s.2 && (s.1.cache slot).isNone) (meets_always ..) (by decide)
  rw [hreleased slot 0 s hreach] at hs
  cases hs

theorem release_own_restarted :
    ∃ s, Reach (monitored (step { challenge := 1, team := 7 })
        (observe { challenge := 1, team := 7 })) (StartsQuietly { challenge := 1, team := 7 })
        (World.init 0, false) s ∧ s.1.starts = 2 ∧ s.2 = false := by
  let slot : Slot := { challenge := 1, team := 7 }
  obtain ⟨s, hreach, hs⟩ := exists_reach_of_exec (monitored (step slot) (observe slot))
    (StartsQuietly slot) (World.init 0, false)
    (stoppedRun ++ [.call 0 .none 0 true, .saveTracking 0, .reserve 3])
    (p := fun s => s.1.starts == 2) (by decide) (by decide)
  exact ⟨s, hreach, by simpa using hs, release_own hreach⟩

end Release

end Fctf
