import Fctf.Deploy.World

/-!
What one step of the deployment world can do, said once: `Move` lists the steps
with their guards and the world after each of them. From it follow the rules for
Redis and for what the world carries, from which the invariants of the later
modules are derived.
-/

namespace Fctf

open Run

namespace World

/-- The steps of the world: guards, label, and the world after the step. -/
inductive Move (slot : Slot) (w : World) : Action → World → Prop
  | tick (seconds : Nat) : Move slot w (.tick seconds) { w with redis := w.redis.tick seconds }
  | refused {maxLimit : Nat} {redis : Redis} {res : Option DeploymentCheckResult}
      (hteam : 0 < slot.team)
      (hcreate : w.redis.atomicCheckAndCreateDeploymentZSet slot.team slot.challenge maxLimit
        (initialEntry slot (w.starts + 1)) 300 = (redis, res))
      (hres : res ≠ some .Pass) : Move slot w (.reserve maxLimit) { w with redis := redis }
  | reserved {maxLimit : Nat} {redis : Redis} (hteam : 0 < slot.team)
      (hcreate : w.redis.atomicCheckAndCreateDeploymentZSet slot.team slot.challenge maxLimit
        (initialEntry slot (w.starts + 1)) 300 = (redis, some .Pass)) :
      Move slot w (.reserve maxLimit) (World.spawn
        { w with redis := redis, starts := w.starts + 1 } (w.starts + 1) (.start true .read))
  | answered {readFails wfAlive ok : Bool} (hteam : slot.team ≤ 0)
      (hdecision : startDecision (if readFails then none else w.cache slot) wfAlive = .inl ok) :
      Move slot w (.directStart readFails wfAlive) w
  | started {readFails wfAlive : Bool} {pc : StartPc} (hteam : slot.team ≤ 0)
      (hdecision : startDecision (if readFails then none else w.cache slot) wfAlive = .inr pc) :
      Move slot w (.directStart readFails wfAlive) (World.spawn
        { w with starts := w.starts + 1 } (w.starts + 1) (.start false pc))
  | called {i : Nat} {job : Job} {command : Command} {fault : Fault} {lag : Nat}
      {wfAlive : Bool} {redis : Redis} {reply : Reply} {queue : List Message}
      (hjob : w.jobs[i]? = some job) (hcommand : job.stage.command = some command)
      (hrun : fault.run slot lag w.redis command = (redis, reply))
      -- the queue changes only where the worker finds no cache entry
      (hqueue : ((∀ m, job.stage = .workRead m → reply ≠ .entry none) ∧ queue = w.queue) ∨
        ∃ m, job.stage = .workRead m ∧ reply = .entry none ∧
          queue = w.queue.filter fun m' => m'.id ≠ m.id) :
      Move slot w (.call i fault lag wfAlive)
        { w.goOn i job.start (job.stage.resume w.redis.now wfAlive reply).toList with
          redis := redis, queue := queue }
  | published {i : Nat} {job : Job} {waiting confirmed : Bool}
      (hjob : w.jobs[i]? = some job) (hstage : job.stage = .start waiting .enqueue) :
      Move slot w (.publish i true confirmed)
        { w.goOn i job.start
            [.start waiting (if confirmed then .mark (queuedCall slot job.start) else .clear)] with
          published := w.published + 1
          queue := w.queue ++
            [⟨w.published, job.start, w.redis.now + slot.expirySeconds, false⟩] }
  | unpublished {i : Nat} {job : Job} {waiting confirmed : Bool}
      (hjob : w.jobs[i]? = some job) (hstage : job.stage = .start waiting .enqueue) :
      Move slot w (.publish i false confirmed) (w.goOn i job.start
        [.start waiting (if confirmed then .mark (queuedCall slot job.start) else .clear)])
  | disconnected {i : Nat} {job : Job} {pc : StartPc}
      (hjob : w.jobs[i]? = some job) (hstage : job.stage = .start true pc) :
      Move slot w (.disconnect i) (w.goOn i job.start [.start false pc, .rollback])
  | crashedStart {i : Nat} {job : Job} {pc : StartPc}
      (hjob : w.jobs[i]? = some job) (hstage : job.stage = .start true pc) :
      Move slot w (.crash i) (w.goOn i job.start [.rollback])
  | crashed {i : Nat} {job : Job} (hjob : w.jobs[i]? = some job) :
      Move slot w (.crash i) (w.goOn i job.start [])
  | delivered {k : Nat} {m : Message} (hm : w.queue[k]? = some m) (hready : m.unacked = false)
      (hfresh : w.redis.now ≤ m.expiry) :
      Move slot w (.deliver k) (World.spawn
        { w with queue := w.queue.set k { m with unacked := true } } m.start (.workRead m))
  | requeued {k : Nat} {m : Message} (hm : w.queue[k]? = some m) (hunacked : m.unacked = true) :
      Move slot w (.requeue k) { w with queue := w.queue.set k { m with unacked := false } }
  | expired {k : Nat} {m : Message} (hm : w.queue[k]? = some m) (hready : m.unacked = false)
      (hpast : m.expiry ≤ w.redis.now) :
      Move slot w (.expire k) { w with queue := w.queue.eraseIdx k }
  | rejected {i : Nat} {job : Job} {m : Message} {copy : ChallengeDeploymentCacheDTO}
      (hjob : w.jobs[i]? = some job) (hstage : job.stage = .workSubmit m copy) :
      Move slot w (.reject i) ((w.goOn i job.start []).settle m.id)
  | submitted {i : Nat} {job : Job} {m : Message} {copy : ChallengeDeploymentCacheDTO}
      {appName : String} {workflowName : Option String} {acked : Bool} {queue : List Message}
      (hjob : w.jobs[i]? = some job) (hstage : job.stage = .workSubmit m copy)
      (hname : w.FreshName appName job.start)
      (hqueue : queue = if acked then w.queue.filter fun m' => m'.id ≠ m.id else w.queue) :
      Move slot w (.submit i appName workflowName acked)
        { w.goOn i job.start (workflowName.map fun name =>
            Stage.workWrite (submittedCall slot copy appName name)).toList with
          workflows := w.workflows ++ [⟨appName, job.start⟩]
          names := w.names ++ [⟨appName, job.start⟩]
          queue := queue }
  | podCreated {k : Nat} {d : Deployment} (hd : w.workflows[k]? = some d) :
      Move slot w (.podCreated k)
        { w with workflows := w.workflows.eraseIdx k, pods := w.pods ++ [d] }
  | workflowFailed {k : Nat} :
      Move slot w (.workflowFailed k) { w with workflows := w.workflows.eraseIdx k }
  | podEvent {k : Nat} {d : Deployment} {uid : String} {change : PodChange}
      (hd : w.pods[k]? = some d) :
      Move slot w (.podEvent k uid change) (w.spawn d.start (.podRead d.ns uid change))
  | podGone {k : Nat} : Move slot w (.podGone k) { w with pods := w.pods.eraseIdx k }
  | podState {i : Nat} {job : Job} {ns : String} {cache : ChallengeDeploymentCacheDTO}
      {state : PodState} (hjob : w.jobs[i]? = some job) (hstage : job.stage = .podState ns cache) :
      Move slot w (.podState i state)
        (w.goOn i job.start (podStateDecision ns cache state).toList)
  | podCleaned {i : Nat} {job : Job} {ns : String} {ok : Bool} (hjob : w.jobs[i]? = some job)
      (hstage : job.stage = .podClean ns) :
      Move slot w (.deleteNamespace i ok)
        (w.goOn i job.start (if ok then [.podRemove ns false] else []))
  | stopForced {i : Nat} {job : Job} {ns : String} {ok : Bool} (hjob : w.jobs[i]? = some job)
      (hstage : job.stage = .stopForce ns) :
      Move slot w (.deleteNamespace i ok) (w.goOn i job.start (if ok then [.stopRemove] else []))
  | stopDeleted {i : Nat} {job : Job} {ns : String} {ok : Bool} (hjob : w.jobs[i]? = some job)
      (hstage : job.stage = .stopDelete ns) :
      Move slot w (.deleteNamespace i ok) (w.goOn i job.start [])
  | scheduled {i : Nat} {job : Job} {copy : ChallengeDeploymentCacheDTO} {finish : Int}
      {isNew : Bool} {timeLimitMinutes ctfEnd : Int} {tracking : List Deployment}
      (hjob : w.jobs[i]? = some job) (hstage : job.stage = .running copy)
      (hfinish :
        finishTime w.redis.now copy.time_finished timeLimitMinutes ctfEnd = (finish, isNew))
      (htracking : tracking = w.tracking ∨
        tracking = w.tracking ++ [⟨copy._namespace, copy.origin⟩]) :
      Move slot w (.schedule i timeLimitMinutes ctfEnd)
        { w.goOn i job.start [.issue copy finish] with tracking := tracking }
  | issued {i : Nat} {job : Job} {copy : ChallengeDeploymentCacheDTO} {finish : Int}
      (hjob : w.jobs[i]? = some job) (hstage : job.stage = .issue copy finish) :
      Move slot w (.issue i)
        (w.goOn i job.start [.runningWrite (runningCall slot copy finish w.redis.now)])
  | saved {i : Nat} {job : Job} {ns : String} (hjob : w.jobs[i]? = some job)
      (hstage : job.stage = .closeTracking ns) :
      Move slot w (.saveTracking i)
        { w.goOn i job.start [] with tracking := w.tracking.eraseP fun t => t.ns = ns }
  | checked {entry : ChallengeDeploymentCacheDTO} (hcache : w.cache slot = some entry)
      (hrunning : entry.status = .RUNING ∧ entry.ready = true) :
      Move slot w .statusCheck (w.spawn entry.origin (.running entry))
  | idle : Move slot w .statusCheck w
  | stopping {admin : Bool} {entry : ChallengeDeploymentCacheDTO}
      (hcache : w.cache slot = some entry) :
      Move slot w (.stop admin) (w.spawn entry.origin (.stopRevoke admin entry))
  | listed : Move slot w .listPods
      (w.spawn w.starts (.reconcile (w.pods.map Deployment.ns)))
  | orphaned {i : Nat} {job : Job} {activeNamespaces : List String}
      (hjob : w.jobs[i]? = some job) (hstage : job.stage = .reconcile activeNamespaces) :
      Move slot w (.findOrphans i)
        { w with
          jobs := w.jobs.eraseIdx i ++
            (w.tracking.filter fun t => t.ns ∉ activeNamespaces).map
              fun t => ⟨t.start, .orphan t⟩ }

variable {slot : Slot} {w w' : World} {a : Action}

private theorem move_reserve {maxLimit : Nat} (h : step slot w (.reserve maxLimit) = some w') :
    Move slot w (.reserve maxLimit) w' := by
  simp only [step] at h
  split at h
  · cases h
  rename_i hteam
  cases hcreate : w.redis.atomicCheckAndCreateDeploymentZSet slot.team slot.challenge maxLimit
    (initialEntry slot (w.starts + 1)) 300 with
  | mk redis res =>
    simp only [hcreate, Option.some.injEq] at h
    subst h
    by_cases hres : res = some .Pass
    · subst hres
      exact .reserved (by omega) hcreate
    · rw [if_neg hres]
      exact .refused (by omega) hcreate hres

private theorem move_directStart {readFails wfAlive : Bool}
    (h : step slot w (.directStart readFails wfAlive) = some w') :
    Move slot w (.directStart readFails wfAlive) w' := by
  simp only [step] at h
  split at h
  · cases h
  rename_i hteam
  split at h <;> rename_i hdecision <;> obtain rfl := Option.some.inj h
  · exact .answered (by omega) hdecision
  · exact .started (by omega) hdecision

private theorem move_call {i : Nat} {fault : Fault} {lag : Nat} {wfAlive : Bool}
    (h : step slot w (.call i fault lag wfAlive) = some w') :
    Move slot w (.call i fault lag wfAlive) w' := by
  obtain ⟨job, hjob, hcall⟩ := Option.bind_eq_some_iff.mp h
  obtain ⟨command, hcommand, rfl⟩ := Option.map_eq_some_iff.mp hcall
  cases hrun : fault.run slot lag w.redis command with
  | mk redis reply =>
    simp only
    split
    · rename_i m hstage
      exact .called hjob hcommand hrun (.inr ⟨m, hstage, rfl, rfl⟩)
    · rename_i hother
      exact .called hjob hcommand hrun (.inl ⟨fun m hm hreply => hother m hm hreply, rfl⟩)

private theorem move_publish {i : Nat} {taken confirmed : Bool}
    (h : step slot w (.publish i taken confirmed) = some w') :
    Move slot w (.publish i taken confirmed) w' := by
  obtain ⟨job, hjob, hpublish⟩ := Option.bind_eq_some_iff.mp h
  unfold publish at hpublish
  split at hpublish
  · rename_i hstage
    obtain rfl := Option.some.inj hpublish
    cases taken with
    | true => exact .published hjob hstage
    | false => exact .unpublished hjob hstage
  · cases hpublish

private theorem move_submit {i : Nat} {appName : String} {workflowName : Option String}
    {acked : Bool} (h : step slot w (.submit i appName workflowName acked) = some w') :
    Move slot w (.submit i appName workflowName acked) w' := by
  obtain ⟨job, hjob, hsubmit⟩ := Option.bind_eq_some_iff.mp h
  unfold submit at hsubmit
  split at hsubmit
  · rename_i hstage
    split at hsubmit
    · rename_i hname
      obtain rfl := Option.some.inj hsubmit
      cases acked <;> exact .submitted hjob hstage hname rfl
    · cases hsubmit
  · cases hsubmit

private theorem move_schedule {i : Nat} {timeLimitMinutes ctfEnd : Int}
    (h : step slot w (.schedule i timeLimitMinutes ctfEnd) = some w') :
    Move slot w (.schedule i timeLimitMinutes ctfEnd) w' := by
  obtain ⟨job, hjob, hschedule⟩ := Option.bind_eq_some_iff.mp h
  unfold schedule at hschedule
  split at hschedule
  · rename_i hstage
    obtain rfl := Option.some.inj hschedule
    split
    · exact .scheduled hjob hstage rfl (.inr rfl)
    · exact .scheduled hjob hstage rfl (.inl rfl)
  · cases hschedule

private theorem move_deleteNamespace {i : Nat} {ok : Bool}
    (h : step slot w (.deleteNamespace i ok) = some w') :
    Move slot w (.deleteNamespace i ok) w' := by
  obtain ⟨job, hjob, hdelete⟩ := Option.bind_eq_some_iff.mp h
  unfold deleteNamespace at hdelete
  split at hdelete
  case h_4 => cases hdelete
  all_goals
    rename_i hstage
    obtain rfl := Option.some.inj hdelete
  · exact .podCleaned hjob hstage
  · exact .stopForced hjob hstage
  · exact .stopDeleted hjob hstage

/-- Every step that the world takes is one of the listed moves. -/
theorem step_move (h : step slot w a = some w') : Move slot w a w' := by
  cases a with
  | tick seconds =>
    obtain rfl := Option.some.inj h
    exact .tick seconds
  | reserve => exact move_reserve h
  | directStart => exact move_directStart h
  | call => exact move_call h
  | publish => exact move_publish h
  | disconnect i =>
    obtain ⟨job, hjob, hdisconnect⟩ := Option.bind_eq_some_iff.mp h
    unfold disconnect at hdisconnect
    split at hdisconnect
    · rename_i hstage
      obtain rfl := Option.some.inj hdisconnect
      exact .disconnected hjob hstage
    · cases hdisconnect
  | crash i =>
    obtain ⟨job, hjob, rfl⟩ := Option.map_eq_some_iff.mp h
    unfold crash
    split
    · rename_i hstage
      exact .crashedStart hjob hstage
    · exact .crashed hjob
  | deliver k =>
    obtain ⟨m, hm, hdeliver⟩ := Option.bind_eq_some_iff.mp h
    split at hdeliver
    · cases hdeliver
    · rename_i hguard
      obtain rfl := Option.some.inj hdeliver
      exact .delivered hm (by simp_all) (by omega)
  | requeue k =>
    obtain ⟨m, hm, hrequeue⟩ := Option.bind_eq_some_iff.mp h
    split at hrequeue
    · rename_i hunacked
      obtain rfl := Option.some.inj hrequeue
      exact .requeued hm hunacked
    · cases hrequeue
  | expire k =>
    obtain ⟨m, hm, hexpire⟩ := Option.bind_eq_some_iff.mp h
    split at hexpire
    · cases hexpire
    · rename_i hguard
      obtain rfl := Option.some.inj hexpire
      exact .expired hm (by simp_all) (by omega)
  | reject i =>
    obtain ⟨job, hjob, hreject⟩ := Option.bind_eq_some_iff.mp h
    split at hreject
    · rename_i hstage
      obtain rfl := Option.some.inj hreject
      exact .rejected hjob hstage
    · cases hreject
  | submit => exact move_submit h
  | podCreated k =>
    obtain ⟨d, hd, rfl⟩ := Option.map_eq_some_iff.mp h
    exact .podCreated hd
  | workflowFailed k =>
    obtain ⟨d, -, rfl⟩ := Option.map_eq_some_iff.mp h
    exact .workflowFailed
  | podEvent k uid change =>
    obtain ⟨d, hd, rfl⟩ := Option.map_eq_some_iff.mp h
    exact .podEvent hd
  | podGone k =>
    obtain ⟨d, -, rfl⟩ := Option.map_eq_some_iff.mp h
    exact .podGone
  | podState i state =>
    obtain ⟨job, hjob, hstate⟩ := Option.bind_eq_some_iff.mp h
    split at hstate
    · rename_i hstage
      obtain rfl := Option.some.inj hstate
      exact .podState hjob hstage
    · cases hstate
  | deleteNamespace => exact move_deleteNamespace h
  | schedule => exact move_schedule h
  | issue i =>
    obtain ⟨job, hjob, hissue⟩ := Option.bind_eq_some_iff.mp h
    split at hissue
    · rename_i hstage
      obtain rfl := Option.some.inj hissue
      exact .issued hjob hstage
    · cases hissue
  | saveTracking i =>
    obtain ⟨job, hjob, hsave⟩ := Option.bind_eq_some_iff.mp h
    split at hsave
    · rename_i hstage
      obtain rfl := Option.some.inj hsave
      exact .saved hjob hstage
    · cases hsave
  | statusCheck =>
    obtain ⟨entry, hcache, rfl⟩ := Option.map_eq_some_iff.mp h
    split
    · rename_i hrunning
      exact .checked hcache hrunning
    · exact .idle
  | stop admin =>
    obtain ⟨entry, hcache, rfl⟩ := Option.map_eq_some_iff.mp h
    exact .stopping hcache
  | listPods =>
    obtain rfl := Option.some.inj h
    exact .listed
  | findOrphans i =>
    obtain ⟨job, hjob, horphans⟩ := Option.bind_eq_some_iff.mp h
    unfold findOrphans at horphans
    split at horphans
    · rename_i hstage
      obtain rfl := Option.some.inj horphans
      exact .orphaned hjob hstage
    · cases horphans

/-- The moves that change Redis. -/
inductive RedisStep (slot : Slot) (w : World) : Action → Redis → Prop
  | tick (seconds : Nat) : RedisStep slot w (.tick seconds) (w.redis.tick seconds)
  | reserve {maxLimit : Nat} {redis : Redis} {res : Option DeploymentCheckResult}
      (hteam : 0 < slot.team)
      (hcreate : w.redis.atomicCheckAndCreateDeploymentZSet slot.team slot.challenge maxLimit
        (initialEntry slot (w.starts + 1)) 300 = (redis, res)) :
      RedisStep slot w (.reserve maxLimit) redis
  | call {i : Nat} {job : Job} {command : Command} {fault : Fault} {lag : Nat} {wfAlive : Bool}
      {redis : Redis} {reply : Reply} (hjob : w.jobs[i]? = some job)
      (hcommand : job.stage.command = some command)
      (hrun : fault.run slot lag w.redis command = (redis, reply)) :
      RedisStep slot w (.call i fault lag wfAlive) redis

/-- Redis changes only by the clock, by a reservation, and by a command that a
program waits for. -/
theorem Move.redis (h : Move slot w a w') :
    w'.redis = w.redis ∨ RedisStep slot w a w'.redis := by
  cases h with
  | tick seconds => exact .inr (.tick seconds)
  | refused hteam hcreate hres => exact .inr (.reserve hteam hcreate)
  | reserved hteam hcreate => exact .inr (.reserve hteam hcreate)
  | called hjob hcommand hrun hqueue => exact .inr (.call hjob hcommand hrun)
  | _ => exact .inl rfl

/-- An update of the slot that the script has accepted. -/
def Accepted (slot : Slot) (w : World) (a : Action) (call : UpdateCall) : Prop :=
  ∃ i job fault lag wfAlive, a = .call i fault lag wfAlive ∧ w.jobs[i]? = some job ∧
    job.stage.command = some (.update call) ∧ fault ≠ .notExecuted ∧
    w.redis.accepts slot.team slot.challenge call.value = true

/-- The cache entry of the slot is the old one, a new reservation's, or the
value of an accepted update. -/
theorem Move.cache (h : Move slot w a w') {e : ChallengeDeploymentCacheDTO}
    (he : w'.cache slot = some e) :
    w.cache slot = some e ∨
      (w'.starts = w.starts + 1 ∧ e = initialEntry slot w'.starts) ∨
      ∃ call, Accepted slot w a call ∧ e = call.value := by
  cases h with
  | tick seconds => exact .inl (Redis.cache_of_tick he)
  | refused hteam hcreate hres =>
    rcases Redis.cache_create hcreate with ⟨-, hsame⟩ | ⟨hpass, -⟩
    · exact .inl (hsame.symm.trans he)
    · exact absurd hpass hres
  | reserved hteam hcreate =>
    rcases Redis.cache_create hcreate with ⟨hres, -⟩ | ⟨-, hinitial⟩
    · exact absurd rfl hres
    · exact .inr (.inl ⟨rfl, (Option.some.inj (hinitial.symm.trans he)).symm⟩)
  | @called i job command fault lag wfAlive redis reply queue hjob hcommand hrun hqueue =>
    rcases Fault.run_cases hrun with ⟨-, rfl, -⟩ | ⟨hfault, rfl, -⟩
    · exact .inl he
    · rcases (command.run_cacheStep slot lag w.redis).entry he with
        hold | ⟨call, rfl, haccepts, rfl⟩
      · exact .inl hold
      · exact .inr (.inr ⟨call,
          ⟨i, job, fault, lag, wfAlive, rfl, hjob, hcommand, hfault, haccepts⟩, rfl⟩)
  | _ => exact .inl he

/-- A property of start numbers and a property of cache entries that the
programs keep whenever they make or change an entry. -/
structure Closed (slot : Slot) (S : Nat → Prop) (P : ChallengeDeploymentCacheDTO → Prop) :
    Prop where
  origin : ∀ e, P e → S e.origin
  initial : ∀ g, S g → P (initialEntry slot g)
  queued : ∀ g, S g → P (queuedEntry slot g)
  submitted : ∀ e appName workflowName, P e → P (submittedEntry e appName workflowName)
  restarted : ∀ e uid, P e → P (restartedEntry e uid)
  running : ∀ e finish, P e → P (runningEntry slot e finish)
  deleting : ∀ e, P e → P (deletingEntry e)

/-- Every start number and every cache entry that the world carries has the property. -/
structure Everywhere (slot : Slot) (S : Nat → Prop) (P : ChallengeDeploymentCacheDTO → Prop)
    (w : World) : Prop where
  cache : ∀ e, w.cache slot = some e → P e
  jobs : ∀ j ∈ w.jobs, S j.start ∧ ∀ e ∈ j.stage.entries, P e
  queue : ∀ m ∈ w.queue, S m.start
  workflows : ∀ d ∈ w.workflows, S d.start
  pods : ∀ d ∈ w.pods, S d.start
  tracking : ∀ d ∈ w.tracking, S d.start

variable {S : Nat → Prop} {P : ChallengeDeploymentCacheDTO → Prop}

theorem everywhere_init (now : Int) : Everywhere slot S P (init now) := by
  constructor <;> simp [init, World.cache]

theorem Everywhere.mono {S' : Nat → Prop} {P' : ChallengeDeploymentCacheDTO → Prop}
    (h : Everywhere slot S P w) (hS : ∀ g, S g → S' g) (hP : ∀ e, P e → P' e) :
    Everywhere slot S' P' w where
  cache e he := hP e (h.cache e he)
  jobs j hj := ⟨hS _ (h.jobs j hj).1, fun e he => hP e ((h.jobs j hj).2 e he)⟩
  queue m hm := hS _ (h.queue m hm)
  workflows d hd := hS _ (h.workflows d hd)
  pods d hd := hS _ (h.pods d hd)
  tracking d hd := hS _ (h.tracking d hd)

theorem podDecision_entries (hclosed : Closed slot S P) {now : Int} {ns uid : String}
    {change : PodChange} {cache : Option ChallengeDeploymentCacheDTO} {next : Stage}
    (hcache : ∀ e, cache = some e → P e)
    (hnext : podDecision now ns uid change cache = some next) : ∀ e ∈ next.entries, P e := by
  unfold podDecision at hnext
  split at hnext
  · obtain rfl := Option.some.inj hnext
    simp [Stage.entries]
  · obtain rfl := Option.some.inj hnext
    simp [Stage.entries]
  · cases hnext
  · rename_i entry
    have hentry := hcache entry rfl
    split at hnext
    · obtain rfl := Option.some.inj hnext
      simpa [Stage.entries] using hentry
    · split at hnext <;> obtain rfl := Option.some.inj hnext <;>
        simpa [Stage.entries] using hclosed.restarted entry uid hentry

theorem startAnswer_entries {waiting ok : Bool} {next : Stage}
    (h : startAnswer waiting ok = some next) : next.entries = [] := by
  unfold startAnswer at h
  split at h <;> cases h
  rfl

theorem startDecision_entries {cache : Option ChallengeDeploymentCacheDTO}
    {wfAlive waiting : Bool} {pc : StartPc} (h : startDecision cache wfAlive = .inr pc) :
    (Stage.start waiting pc).entries = [] := by
  unfold startDecision at h
  repeat' split at h
  all_goals cases h <;> rfl

/-- What a program holds after a reply it held before, or made of it, or got by the reply. -/
theorem resume_entries (hclosed : Closed slot S P) {now : Int} {wfAlive : Bool}
    {stage next : Stage} {reply : Reply} (hstage : ∀ e ∈ stage.entries, P e)
    (hreply : ∀ e, reply = .entry (some e) → P e)
    (hnext : stage.resume now wfAlive reply = some next) : ∀ e ∈ next.entries, P e := by
  unfold Stage.resume at hnext
  split at hnext
  case h_1 cache =>
    split at hnext
    · simp [startAnswer_entries hnext]
    · rename_i pc hdecision
      obtain rfl := Option.some.inj hnext
      simp [startDecision_entries hdecision]
  case h_8 m entry =>
    obtain rfl := Option.some.inj hnext
    simpa [Stage.entries] using hreply entry rfl
  case h_9 ns uid change cache =>
    exact podDecision_entries hclosed (fun e he => hreply e (he ▸ rfl)) hnext
  case h_10 ns call =>
    obtain rfl := Option.some.inj hnext
    simpa [Stage.entries] using hstage
  case h_14 entry =>
    obtain rfl := Option.some.inj hnext
    have hentry : P entry := hstage entry (by simp [Stage.entries])
    simpa [Stage.entries] using hclosed.deleting entry hentry
  all_goals first
    | simp [startAnswer_entries hnext]
    | (cases hnext <;> simp [Stage.entries])

theorem jobs_goOn {Q : Job → Prop} {i start : Nat} {next : List Stage}
    (h : ∀ j ∈ w.jobs, Q j) (hnext : ∀ stage ∈ next, Q ⟨start, stage⟩) :
    ∀ j ∈ (w.goOn i start next).jobs, Q j := by
  intro j hj
  rcases List.mem_append.mp hj with hold | hnew
  · exact h j (List.mem_of_mem_eraseIdx hold)
  · obtain ⟨stage, hstage, rfl⟩ := List.mem_map.mp hnew
    exact hnext stage hstage

theorem jobs_spawn {Q : Job → Prop} {start : Nat} {stage : Stage}
    (h : ∀ j ∈ w.jobs, Q j) (hnew : Q ⟨start, stage⟩) :
    ∀ j ∈ (w.spawn start stage).jobs, Q j := by
  intro j hj
  rcases List.mem_append.mp hj with hold | hj
  · exact h j hold
  · obtain rfl := List.mem_singleton.mp hj
    exact hnew

/-- A reply that carries an entry was read from the slot. -/
theorem reply_entry {fault : Fault} {lag : Nat} {r redis : Redis} {command : Command}
    {reply : Reply} {e : ChallengeDeploymentCacheDTO}
    (hrun : fault.run slot lag r command = (redis, reply))
    (hreply : reply = .entry (some e)) : r.cache slot.key = some e := by
  rcases Fault.run_cases hrun with ⟨-, -, rfl⟩ | ⟨-, -, rfl | rfl⟩
  · cases command <;> cases hreply
  · cases command with
    | get => simpa [Command.run] using hreply
    | update call => simp [Command.run] at hreply
    | _ => cases hreply
  · cases command <;> cases hreply

theorem entries_start (waiting waiting' : Bool) (pc : StartPc) :
    (Stage.start waiting pc).entries = (Stage.start waiting' pc).entries := by
  cases pc <;> rfl

section Step

variable (hclosed : Closed slot S P) (h : Everywhere slot S P w) (hstarts : S w'.starts)
  (hmove : Move slot w a w')

include h

theorem Everywhere.at {i : Nat} {job : Job} (hjob : w.jobs[i]? = some job) :
    S job.start ∧ ∀ e ∈ job.stage.entries, P e :=
  h.jobs job (List.mem_of_getElem? hjob)

include hmove

include hclosed hstarts in
private theorem cache_kept : ∀ e, w'.cache slot = some e → P e := by
  intro e he
  rcases hmove.cache he with hold | ⟨-, rfl⟩ | ⟨call, ⟨i, job, -, -, -, -, hjob, hcommand, -⟩, rfl⟩
  · exact h.cache e hold
  · exact hclosed.initial _ hstarts
  · exact (h.at hjob).2 _ (Stage.mem_entries_of_update hcommand)

private theorem queue_kept : ∀ m ∈ w'.queue, S m.start := by
  cases hmove with
  | published hjob =>
    intro m hm
    rcases List.mem_append.mp hm with hold | hm
    · exact h.queue m hold
    · obtain rfl := List.mem_singleton.mp hm
      exact (h.at hjob).1
  | called hjob hcommand hrun hqueue =>
    rcases hqueue with ⟨-, rfl⟩ | ⟨m, -, -, rfl⟩
    · exact h.queue
    · exact fun m' hm' => h.queue m' (List.mem_of_mem_filter hm')
  | @delivered _ m hm =>
    intro m' hm'
    rcases List.mem_or_eq_of_mem_set hm' with hold | rfl
    · exact h.queue m' hold
    · exact h.queue m (List.mem_of_getElem? hm)
  | @requeued _ m hm =>
    intro m' hm'
    rcases List.mem_or_eq_of_mem_set hm' with hold | rfl
    · exact h.queue m' hold
    · exact h.queue m (List.mem_of_getElem? hm)
  | expired => exact fun m' hm' => h.queue m' (List.mem_of_mem_eraseIdx hm')
  | rejected => exact fun m' hm' => h.queue m' (List.mem_of_mem_filter hm')
  | @submitted _ _ _ _ _ _ acked _ _ _ _ hqueue =>
    subst hqueue
    cases acked with
    | false => exact h.queue
    | true => exact fun m' hm' => h.queue m' (List.mem_of_mem_filter hm')
  | _ => exact h.queue

private theorem workflows_kept : ∀ d ∈ w'.workflows, S d.start := by
  cases hmove with
  | submitted hjob =>
    intro d hd
    rcases List.mem_append.mp hd with hold | hd
    · exact h.workflows d hold
    · obtain rfl := List.mem_singleton.mp hd
      exact (h.at hjob).1
  | podCreated => exact fun d hd => h.workflows d (List.mem_of_mem_eraseIdx hd)
  | workflowFailed => exact fun d hd => h.workflows d (List.mem_of_mem_eraseIdx hd)
  | _ => exact h.workflows

private theorem pods_kept : ∀ d ∈ w'.pods, S d.start := by
  cases hmove with
  | podCreated hd =>
    intro d' hd'
    rcases List.mem_append.mp hd' with hold | hd'
    · exact h.pods d' hold
    · obtain rfl := List.mem_singleton.mp hd'
      exact h.workflows _ (List.mem_of_getElem? hd)
  | podGone => exact fun d hd => h.pods d (List.mem_of_mem_eraseIdx hd)
  | _ => exact h.pods

include hclosed in
private theorem tracking_kept : ∀ d ∈ w'.tracking, S d.start := by
  cases hmove with
  | @scheduled _ _ copy _ _ _ _ _ hjob hstage _ htracking =>
    rcases htracking with rfl | rfl
    · exact h.tracking
    · intro d hd
      rcases List.mem_append.mp hd with hold | hd
      · exact h.tracking d hold
      · obtain rfl := List.mem_singleton.mp hd
        exact hclosed.origin copy ((h.at hjob).2 copy (by simp [hstage, Stage.entries]))
  | saved => exact fun d hd => h.tracking d (List.mem_of_mem_eraseP hd)
  | _ => exact h.tracking

include hclosed hstarts in
private theorem jobs_kept : ∀ j ∈ w'.jobs, S j.start ∧ ∀ e ∈ j.stage.entries, P e := by
  cases hmove with
  | reserved => exact jobs_spawn h.jobs ⟨hstarts, by simp [Stage.entries]⟩
  | started hteam hdecision =>
    exact jobs_spawn h.jobs ⟨hstarts, by simp [startDecision_entries hdecision]⟩
  | called hjob hcommand hrun =>
    refine jobs_goOn h.jobs fun next hnext => ⟨(h.at hjob).1, ?_⟩
    exact resume_entries hclosed (h.at hjob).2 (fun e he => h.cache e (reply_entry hrun he))
      (Option.mem_toList.mp hnext)
  | @published _ job _ confirmed hjob | @unpublished _ job _ confirmed hjob =>
    refine jobs_goOn h.jobs fun next hnext => ⟨(h.at hjob).1, ?_⟩
    obtain rfl := List.mem_singleton.mp hnext
    cases confirmed with
    | true => simpa [Stage.entries, queuedCall] using hclosed.queued job.start (h.at hjob).1
    | false => simp [Stage.entries]
  | @disconnected _ _ pc hjob hstage =>
    refine jobs_goOn h.jobs fun next hnext => ⟨(h.at hjob).1, ?_⟩
    have hold := (h.at hjob).2
    rcases List.mem_pair.mp hnext with rfl | rfl
    · rwa [hstage, entries_start true false] at hold
    · simp [Stage.entries]
  | crashedStart hjob => exact jobs_goOn h.jobs (by simp [Stage.entries, (h.at hjob).1])
  | delivered hm =>
    exact jobs_spawn h.jobs ⟨h.queue _ (List.mem_of_getElem? hm), by simp [Stage.entries]⟩
  | crashed | rejected | stopDeleted | saved => exact jobs_goOn h.jobs (by simp)
  | @submitted _ _ _ copy appName workflowName _ _ hjob hstage =>
    refine jobs_goOn h.jobs fun next hnext => ⟨(h.at hjob).1, ?_⟩
    have hcopy := (h.at hjob).2 copy (by simp [hstage, Stage.entries])
    obtain ⟨name, -, rfl⟩ := Option.map_eq_some_iff.mp (Option.mem_toList.mp hnext)
    simpa [Stage.entries, submittedCall] using hclosed.submitted copy appName name hcopy
  | podEvent hd =>
    exact jobs_spawn h.jobs ⟨h.pods _ (List.mem_of_getElem? hd), by simp [Stage.entries]⟩
  | @podState _ _ ns cache state hjob hstage =>
    refine jobs_goOn h.jobs fun next hnext => ⟨(h.at hjob).1, ?_⟩
    have hentry := (h.at hjob).2 cache (by simp [hstage, Stage.entries])
    have hnext := Option.mem_toList.mp hnext
    cases state <;> simp [podStateDecision] at hnext
    · simp [← hnext, Stage.entries]
    · simpa [← hnext.2, Stage.entries] using hentry
  | @podCleaned _ _ _ ok hjob | @stopForced _ _ _ ok hjob =>
    exact jobs_goOn h.jobs (by cases ok <;> simp [Stage.entries, (h.at hjob).1])
  | @scheduled _ _ copy _ _ _ _ _ hjob hstage =>
    refine jobs_goOn h.jobs fun next hnext => ⟨(h.at hjob).1, ?_⟩
    obtain rfl := List.mem_singleton.mp hnext
    simpa [Stage.entries] using (h.at hjob).2 copy (by simp [hstage, Stage.entries])
  | @issued _ _ copy finish hjob hstage =>
    refine jobs_goOn h.jobs fun next hnext => ⟨(h.at hjob).1, ?_⟩
    obtain rfl := List.mem_singleton.mp hnext
    have hcopy := (h.at hjob).2 copy (by simp [hstage, Stage.entries])
    simpa [Stage.entries, runningCall] using hclosed.running copy finish hcopy
  | @checked entry hentry | @stopping _ entry hentry =>
    have hP := h.cache entry hentry
    exact jobs_spawn h.jobs ⟨hclosed.origin entry hP, by simpa [Stage.entries] using hP⟩
  | listed => exact jobs_spawn h.jobs ⟨hstarts, by simp [Stage.entries]⟩
  | orphaned =>
    intro j hj
    rcases List.mem_append.mp hj with hold | hnew
    · exact h.jobs j (List.mem_of_mem_eraseIdx hold)
    · obtain ⟨d, hd, rfl⟩ := List.mem_map.mp hnew
      exact ⟨h.tracking d (List.mem_of_mem_filter hd), by simp [Stage.entries]⟩
  | _ => exact h.jobs

include hclosed hstarts in
/-- Every move keeps such a property of what the world carries. -/
theorem Everywhere.step : Everywhere slot S P w' where
  cache := cache_kept hclosed h hstarts hmove
  jobs := jobs_kept hclosed h hstarts hmove
  queue := queue_kept h hmove
  workflows := workflows_kept h hmove
  pods := pods_kept h hmove
  tracking := tracking_kept hclosed h hmove

end Step

theorem Move.starts_le (h : Move slot w a w') : w.starts ≤ w'.starts := by
  cases h <;> first
    | exact Nat.le_refl _
    | exact Nat.le_succ _

/-- Nothing in the world is ahead of the number of starts. -/
abbrev Numbered (slot : Slot) (w : World) : Prop :=
  Everywhere slot (· ≤ w.starts) (fun e => e.origin ≤ w.starts) w

theorem numbered_closed (slot : Slot) (n : Nat) :
    Closed slot (· ≤ n) (fun e => e.origin ≤ n) where
  origin _ h := h
  initial _ h := h
  queued _ h := h
  submitted _ _ _ h := h
  restarted _ _ h := h
  running _ _ h := h
  deleting _ h := h

theorem Move.numbered (hmove : Move slot w a w') (h : Numbered slot w) : Numbered slot w' :=
  (h.mono (fun _ hg => hg.trans hmove.starts_le) fun _ he => he.trans hmove.starts_le).step
    (numbered_closed slot _) (Nat.le_refl _) hmove

/-- The job whose command the step gets executed, with the command. -/
def executed (w : World) : Action → Option (Job × Command)
  | .call i fault _ _ =>
    if fault = .notExecuted then none
    else w.jobs[i]?.bind fun job => job.stage.command.map fun command => (job, command)
  | _ => none

theorem executed_call {i : Nat} {job : Job} {command : Command} {fault : Fault} {lag : Nat}
    {wfAlive : Bool} (hjob : w.jobs[i]? = some job) (hcommand : job.stage.command = some command)
    (hfault : fault ≠ .notExecuted) :
    executed w (.call i fault lag wfAlive) = some (job, command) := by
  simp [executed, hfault, hjob, hcommand]

theorem executed_eq_some {job : Job} {command : Command}
    (h : executed w a = some (job, command)) :
    ∃ i fault lag wfAlive, a = .call i fault lag wfAlive ∧ w.jobs[i]? = some job ∧
      job.stage.command = some command ∧ fault ≠ .notExecuted := by
  unfold executed at h
  split at h
  · split at h
    · cases h
    · rename_i i fault lag wfAlive hfault
      obtain ⟨job', hjob, hmap⟩ := Option.bind_eq_some_iff.mp h
      obtain ⟨command', hcommand, heq⟩ := Option.map_eq_some_iff.mp hmap
      obtain ⟨rfl, rfl⟩ := Prod.mk.inj heq
      exact ⟨i, fault, lag, wfAlive, rfl, hjob, hcommand, hfault⟩
  · cases h

/-- The move of an executed command. -/
theorem Move.executed {job : Job} {command : Command} (h : Move slot w a w')
    (hexec : World.executed w a = some (job, command)) :
    ∃ lag, w'.redis = (command.run slot lag w.redis).1 := by
  obtain ⟨i, fault, lag, wfAlive, rfl, hjob, hcommand, hfault⟩ := executed_eq_some hexec
  cases h with
  | called hjob' hcommand' hrun =>
    obtain rfl := Option.some.inj (hjob.symm.trans hjob')
    obtain rfl := Option.some.inj (hcommand.symm.trans hcommand')
    rcases Fault.run_cases hrun with ⟨hnot, -⟩ | ⟨-, hredis, -⟩
    · exact absurd hnot hfault
    · exact ⟨lag, hredis⟩

/-- An accepted update becomes the entry of the slot. -/
theorem Move.cache_of_accepted {job : Job} {call : UpdateCall} (h : Move slot w a w')
    (hexec : World.executed w a = some (job, .update call))
    (haccepts : w.redis.accepts slot.team slot.challenge call.value = true) :
    w'.cache slot = some call.value := by
  obtain ⟨lag, hredis⟩ := h.executed hexec
  rw [World.cache, hredis]
  exact Command.run_update_cache haccepts

end World

end Fctf
