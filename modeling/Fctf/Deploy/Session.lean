import Fctf.Deploy.Scripts

/-!
The programs that work on one (challenge, team) slot, cut at the points where
they wait: for Redis, the message queue, Kubernetes, Argo or the database. A
`Stage` says where a program stands and holds its local variables. A stage that
waits for Redis names its `command`, and `resume` is what the program does with
the reply. What the other systems answer is an argument of the stage's own step.
-/

namespace Fctf

/-- A challenge of a team with the two configured waiting times, which both
services accept only when they are positive. -/
structure Slot where
  challenge : Nat
  team : Int
  queueTimeoutMinutes : Nat := 5
  argoDeployTtlMinutes : Nat := 6
  queueTimeout_pos : 0 < queueTimeoutMinutes := by decide
  argoDeployTtl_pos : 0 < argoDeployTtlMinutes := by decide

namespace Slot

def key (slot : Slot) : String := getCacheKey slot.challenge slot.team

def expirySeconds (slot : Slot) : Int := slot.queueTimeoutMinutes * 60

theorem expirySeconds_pos (slot : Slot) : 0 < slot.expirySeconds := by
  have hpos := slot.queueTimeout_pos
  unfold expirySeconds
  omega

def deployTtl (slot : Slot) : Int := slot.argoDeployTtlMinutes * 60

theorem deployTtl_pos (slot : Slot) : 0 < slot.deployTtl := by
  have hpos := slot.argoDeployTtl_pos
  unfold deployTtl
  omega

end Slot

/-- The arguments of an `AtomicUpdateExpiration` that a program is about to
send. No caller sends a TTL that is not positive. -/
structure UpdateCall where
  value : ChallengeDeploymentCacheDTO
  realTtl : Int
  realTtl_pos : 0 < realTtl

/-- The commands that the programs send to Redis. -/
inductive Command
  | get
  | update (call : UpdateCall)
  | remove
  | removeCache
  | revoke (route : String) (expiresAt : Int)

inductive Reply
  | entry (cache : Option ChallengeDeploymentCacheDTO)
  | flag (ok : Bool)

namespace Command

/-- One command on the slot. The expiry score of an update comes from a clock
reading that is `lag` seconds old when the script runs. -/
def run (slot : Slot) (lag : Nat) (r : Redis) : Command → Redis × Reply
  | get => (r, .entry (r.cache slot.key))
  | update call =>
    let (r', ok) := r.atomicUpdateExpiration slot.team slot.challenge call.realTtl
      (r.now - lag + call.realTtl) (some call.value)
    (r', .flag ok)
  | remove => (r.atomicRemoveDeploymentZSet slot.team slot.challenge, .flag true)
  | removeCache => (r.removeCache slot.key, .flag true)
  | revoke route expiresAt => (r.revokeGatewayRoute route expiresAt, .flag true)

/-- What the caller sees when Redis fails: the helpers turn the exception into
a missing entry or into false. -/
def failed : Command → Reply
  | get => .entry none
  | _ => .flag false

end Command

/-- A command may be executed and answered, executed with its reply lost, or
not executed at all. -/
inductive Fault
  | none | replyLost | notExecuted
  deriving Repr, DecidableEq

def Fault.run (fault : Fault) (slot : Slot) (lag : Nat) (r : Redis) (c : Command) :
    Redis × Reply :=
  match fault with
  | .none => c.run slot lag r
  | .replyLost => ((c.run slot lag r).1, c.failed)
  | .notExecuted => (r, c.failed)

theorem Fault.run_cases {fault : Fault} {slot : Slot} {lag : Nat} {r r' : Redis} {c : Command}
    {reply : Reply} (h : fault.run slot lag r c = (r', reply)) :
    (fault = .notExecuted ∧ r' = r ∧ reply = c.failed) ∨
      (fault ≠ .notExecuted ∧ r' = (c.run slot lag r).1 ∧
        (reply = (c.run slot lag r).2 ∨ reply = c.failed)) := by
  obtain ⟨rfl, rfl⟩ := (Prod.ext_iff.mp h)
  cases fault with
  | none => exact .inr ⟨by simp, rfl, .inl rfl⟩
  | replyLost => exact .inr ⟨by simp, rfl, .inr rfl⟩
  | notExecuted => exact .inl ⟨rfl, rfl, rfl⟩

/-- What a command does to the slot's cache. An update is either turned away, or
its value becomes the entry. -/
inductive Command.CacheStep (slot : Slot) (r : Redis) : Command → Redis → Prop
  | kept {c : Command} {r' : Redis} (hnow : r'.now = r.now) (hcaches : r'.caches = r.caches)
      (hrevoked : (∀ route expiresAt, c ≠ .revoke route expiresAt) → r'.revoked = r.revoked) :
      CacheStep slot r c r'
  | updated {call : UpdateCall} {r' : Redis}
      (haccepts : r.accepts slot.team slot.challenge call.value = true) (hnow : r'.now = r.now)
      (hrevoked : r'.revoked = r.revoked)
      (hcaches : r'.caches = r.caches.setEx r.now slot.key call.realTtl call.value) :
      CacheStep slot r (.update call) r'
  | removed {c : Command} {r' : Redis} (hnow : r'.now = r.now) (hrevoked : r'.revoked = r.revoked)
      (hcaches : r'.caches = r.caches.del slot.key)
      (hremove : c = .remove ∨ c = .removeCache) : CacheStep slot r c r'

theorem Command.run_cacheStep (slot : Slot) (lag : Nat) (r : Redis) (c : Command) :
    CacheStep slot r c (c.run slot lag r).1 := by
  cases c with
  | get => exact .kept rfl rfl fun _ => rfl
  | update call =>
    cases hupdate : r.atomicUpdateExpiration slot.team slot.challenge call.realTtl
      (r.now - lag + call.realTtl) (some call.value) with
    | mk r' ok =>
      have hr' : ((Command.update call).run slot lag r).1 = r' := by simp [run, hupdate]
      rw [hr']
      rcases Redis.cache_update call.realTtl_pos hupdate with
        ⟨-, rfl⟩ | ⟨-, haccepts, hnow, hrevoked, hcaches⟩
      · exact .kept rfl rfl fun _ => rfl
      · exact .updated haccepts hnow hrevoked hcaches
  | remove => exact .removed rfl rfl rfl (.inl rfl)
  | removeCache => exact .removed rfl rfl rfl (.inr rfl)
  | revoke route expiresAt =>
    refine .kept ?_ ?_ fun hne => absurd rfl (hne route expiresAt)
    all_goals
      simp only [run, Redis.revokeGatewayRoute]
      split <;> rfl

theorem Command.run_update_cache {slot : Slot} {lag : Nat} {r : Redis} {call : UpdateCall}
    (haccepts : r.accepts slot.team slot.challenge call.value = true) :
    ((Command.update call).run slot lag r).1.cache slot.key = some call.value := by
  cases hupdate : r.atomicUpdateExpiration slot.team slot.challenge call.realTtl
    (r.now - lag + call.realTtl) (some call.value) with
  | mk r' ok =>
    have hok : ok = true := by
      simpa [hupdate] using Redis.update_of_accepts (r.now - lag + call.realTtl)
        call.realTtl_pos haccepts
    have hr' : ((Command.update call).run slot lag r).1 = r' := by simp [run, hupdate]
    rw [hr']
    rcases Redis.cache_update call.realTtl_pos hupdate with ⟨hfalse, -⟩ | ⟨-, -, hnow, -, hcaches⟩
    · rw [hok] at hfalse
      cases hfalse
    · exact Redis.cache_setEx call.realTtl_pos hnow hcaches

/-- The slot's entry after a command is the old one or the value of an accepted update. -/
theorem Command.CacheStep.entry {slot : Slot} {r r' : Redis} {c : Command}
    {e : ChallengeDeploymentCacheDTO} (h : CacheStep slot r c r')
    (he : r'.cache slot.key = some e) :
    r.cache slot.key = some e ∨
      ∃ call, c = .update call ∧ r.accepts slot.team slot.challenge call.value = true ∧
        e = call.value := by
  cases h with
  | kept hnow hcaches => exact .inl (by simpa only [Redis.cache, hnow, hcaches] using he)
  | @updated call _ haccepts hnow _ hcaches =>
    have hvalue := Redis.cache_setEx call.realTtl_pos hnow hcaches
    exact .inr ⟨call, rfl, haccepts, (Option.some.inj (hvalue.symm.trans he)).symm⟩
  | removed hnow hrevoked hcaches =>
    simp [Redis.cache, Expiring.Store.get, hnow, hcaches] at he

/-- Commands touch no other entry. -/
theorem Command.CacheStep.entry_ne {slot : Slot} {r r' : Redis} {c : Command} {key : String}
    (h : CacheStep slot r c r') (hne : key ≠ slot.key) : r'.cache key = r.cache key := by
  cases h with
  | kept hnow hcaches => simp only [Redis.cache, hnow, hcaches]
  | updated _ hnow _ hcaches => exact Redis.cache_setEx_ne hne hnow hcaches
  | removed hnow _ hcaches => simp [Redis.cache, Expiring.Store.get, hnow, hcaches, hne]

/-- A deployment request in the queue. `start` is the number of the start that
published it. An unacknowledged message is in the hands of a consumer. -/
structure Message where
  id : Nat
  start : Nat
  expiry : Int
  unacked : Bool := false
  deriving Repr, DecidableEq

/-- A namespace with the number of the start it was deployed for. -/
structure Deployment where
  ns : String
  start : Nat
  deriving Repr, DecidableEq

/-- The entry that `StartChallenge` reserves the slot with. -/
def initialEntry (slot : Slot) (start : Nat) : ChallengeDeploymentCacheDTO where
  challenge_id := slot.challenge
  team_id := slot.team
  status := .INITIAL
  origin := start

/-- The entry that `Start` writes once the request is queued. -/
def queuedEntry (slot : Slot) (start : Nat) : ChallengeDeploymentCacheDTO where
  challenge_id := slot.challenge
  team_id := slot.team
  status := .PENDING_DEPLOY
  origin := start

/-- The worker's copy once the workflow is submitted. -/
def submittedEntry (copy : ChallengeDeploymentCacheDTO) (appName workflowName : String) :
    ChallengeDeploymentCacheDTO :=
  { copy with
    _namespace := appName, status := .PENDING, workflow_name := workflowName, time_finished := 0 }

/-- The listener's copy in `HandlePodRestart`. -/
def restartedEntry (copy : ChallengeDeploymentCacheDTO) (newUid : String) :
    ChallengeDeploymentCacheDTO :=
  { copy with pod_id := newUid, ready := false }

/-- The copy that `HandleChallengeRunning` writes. -/
def runningEntry (slot : Slot) (copy : ChallengeDeploymentCacheDTO) (finalUnixFinished : Int) :
    ChallengeDeploymentCacheDTO :=
  { copy with
    status := .RUNING
    challenge_url := some (generateChallengeToken copy._namespace finalUnixFinished slot.key)
    time_finished := finalUnixFinished
    ready := true }

/-- The copy that `Stop` writes. -/
def deletingEntry (copy : ChallengeDeploymentCacheDTO) : ChallengeDeploymentCacheDTO :=
  { copy with status := .DELETING, ready := false }

def queuedCall (slot : Slot) (start : Nat) : UpdateCall :=
  ⟨queuedEntry slot start, slot.expirySeconds, slot.expirySeconds_pos⟩

def submittedCall (slot : Slot) (copy : ChallengeDeploymentCacheDTO)
    (appName workflowName : String) : UpdateCall :=
  ⟨submittedEntry copy appName workflowName, slot.deployTtl, slot.deployTtl_pos⟩

def runningCall (slot : Slot) (copy : ChallengeDeploymentCacheDTO) (finalUnixFinished now : Int) :
    UpdateCall where
  value := runningEntry slot copy finalUnixFinished
  realTtl := if finalUnixFinished - now ≤ 0 then 60 else finalUnixFinished - now
  realTtl_pos := by split <;> omega

def deletingCall (copy : ChallengeDeploymentCacheDTO) : UpdateCall :=
  ⟨deletingEntry copy, 40, by decide⟩

/-- The watch events that the listener tells apart. -/
inductive PodChange
  | present | terminating | deleted
  deriving Repr, DecidableEq

/-- Where `DeployService.Start` stands. -/
inductive StartPc
  | read
  | removeFailed
  | removeStopped
  | releaseStopped
  | enqueue
  | mark (call : UpdateCall)
  | clear

inductive Stage
  /-- `DeployService.Start`; `waiting` while a contestant's request waits for its answer. -/
  | start (waiting : Bool) (pc : StartPc)
  /-- `StartChallenge` after a failed start: gives the slot back. -/
  | rollback
  /-- `Worker.ProcessAsync`: before its cache read, before the submission, and
  before its cache write. -/
  | workRead (m : Message)
  | workSubmit (m : Message) (deploymentCache : ChallengeDeploymentCacheDTO)
  | workWrite (call : UpdateCall)
  /-- `ProcessPodChangeAsync`: before its cache read, in `HandlePodRestart`, before the
  look at the pod's state, in `CleanupGhostResources`, before the removal, and before the
  tracking row is closed. -/
  | podRead (ns uid : String) (change : PodChange)
  | podRestart (ns : String) (call : UpdateCall)
  | podState (ns : String) (cache : ChallengeDeploymentCacheDTO)
  | podClean (ns : String)
  | podRemove (ns : String) (tracked : Bool)
  | closeTracking (ns : String)
  /-- `HandleChallengeRunning`: before the finish time is chosen, before the token is
  issued, and before the cache write. -/
  | running (deploymentCache : ChallengeDeploymentCacheDTO)
  | issue (deploymentCache : ChallengeDeploymentCacheDTO) (finalUnixFinished : Int)
  | runningWrite (call : UpdateCall)
  /-- `ReconcileOrphanedCachesAsync`: after the pods were listed, and for one orphan. -/
  | reconcile (activeNamespaces : List String)
  | orphan (tracking : Deployment)
  /-- `DeployService.Stop`. -/
  | stopRevoke (admin : Bool) (deployInfo : ChallengeDeploymentCacheDTO)
  | stopForce (ns : String)
  | stopRemove
  | stopRemoveCache
  | stopWrite (deployInfo : ChallengeDeploymentCacheDTO)
  | stopDelete (ns : String)

/-- The Redis command that a stage waits for. -/
def Stage.command : Stage → Option Command
  | .start _ .read => some .get
  | .start _ .removeFailed => some .removeCache
  | .start _ .removeStopped => some .removeCache
  | .start _ .releaseStopped => some .remove
  | .start _ .enqueue => none
  | .start _ (.mark call) => some (.update call)
  | .start _ .clear => some .removeCache
  | .rollback => some .remove
  | .workRead _ => some .get
  | .workSubmit .. => none
  | .workWrite call => some (.update call)
  | .podRead .. => some .get
  | .podRestart _ call => some (.update call)
  | .podState .. => none
  | .podClean _ => none
  | .podRemove .. => some .remove
  | .closeTracking _ => none
  | .running _ => none
  | .issue .. => none
  | .runningWrite call => some (.update call)
  | .reconcile _ => none
  | .orphan _ => some .remove
  | .stopRevoke _ deployInfo => some (.revoke deployInfo._namespace deployInfo.time_finished)
  | .stopForce _ => none
  | .stopRemove => some .remove
  | .stopRemoveCache => some .removeCache
  | .stopWrite deployInfo => some (.update (deletingCall deployInfo))
  | .stopDelete _ => none

/-- The cache entries that a program holds in its variables. -/
def Stage.entries : Stage → List ChallengeDeploymentCacheDTO
  | .start _ (.mark call) => [call.value]
  | .workSubmit _ entry => [entry]
  | .workWrite call => [call.value]
  | .podRestart _ call => [call.value]
  | .podState _ entry => [entry]
  | .running entry => [entry]
  | .issue entry _ => [entry]
  | .runningWrite call => [call.value]
  | .stopRevoke _ entry => [entry]
  | .stopWrite deployInfo => [deletingEntry deployInfo]
  | _ => []

theorem Stage.mem_entries_of_update {stage : Stage} {call : UpdateCall}
    (h : stage.command = some (.update call)) : call.value ∈ stage.entries := by
  unfold Stage.command at h
  split at h <;> cases h <;> simp [Stage.entries, deletingCall]

/-- What `Start` does with the cache entry it reads: answer at once, or go on.
`wfAlive` says whether Argo reports the entry's workflow as pending, running or
succeeded. -/
def startDecision (deploymentCache : Option ChallengeDeploymentCacheDTO) (wfAlive : Bool) :
    Bool ⊕ StartPc :=
  match deploymentCache with
  | none => .inr .enqueue
  | some cache =>
    match cache.status with
    | .PENDING =>
      if cache.workflow_name ≠ "" ∧ wfAlive = false then .inr .removeFailed else .inl true
    | .RUNING => .inl true
    | .DELETING => .inl false
    | .STOPPED => .inr .removeStopped
    | _ => .inr .enqueue

/-- A contestant whose start was not answered with OK gets its slot rolled back. -/
def startAnswer (waiting ok : Bool) : Option Stage :=
  if waiting && !ok then some .rollback else none

/-- `ProcessPodChangeAsync` after its cache read. -/
def podDecision (now : Int) (ns uid : String) (change : PodChange)
    (cache : Option ChallengeDeploymentCacheDTO) : Option Stage :=
  match change, cache with
  | .deleted, _ => some (.podRemove ns true)
  | _, none => some (.podClean ns)
  | .terminating, some _ => none
  | .present, some cache =>
    if cache.pod_id = uid then some (.podState ns cache)
    else if h : 0 < cache.time_finished - now then
      some (.podRestart ns ⟨restartedEntry cache uid, cache.time_finished - now, h⟩)
    else some (.podState ns (restartedEntry cache uid))

/-- What a program does with the reply. -/
def Stage.resume (now : Int) (wfAlive : Bool) : Stage → Reply → Option Stage
  | .start waiting .read, .entry cache =>
    match startDecision cache wfAlive with
    | .inl ok => startAnswer waiting ok
    | .inr pc => some (.start waiting pc)
  | .start waiting .removeFailed, _ => some (.start waiting .enqueue)
  | .start waiting .removeStopped, _ => some (.start waiting .releaseStopped)
  | .start waiting .releaseStopped, _ => some (.start waiting .enqueue)
  | .start waiting (.mark _), .flag true => startAnswer waiting true
  | .start waiting (.mark _), .flag false => some (.start waiting .clear)
  | .start waiting .clear, _ => startAnswer waiting false
  | .workRead m, .entry (some cache) => some (.workSubmit m cache)
  | .podRead ns uid change, .entry cache => podDecision now ns uid change cache
  | .podRestart ns call, _ => some (.podState ns call.value)
  | .podRemove ns true, _ => some (.closeTracking ns)
  | .orphan tracking, _ => some (.closeTracking tracking.ns)
  | .stopRevoke true deployInfo, .flag true => some (.stopForce deployInfo._namespace)
  | .stopRevoke false deployInfo, .flag true => some (.stopWrite deployInfo)
  | .stopRemove, _ => some .stopRemoveCache
  | .stopWrite deployInfo, .flag true => some (.stopDelete deployInfo._namespace)
  | _, _ => none

/-- The listener's look at a pod's state. -/
inductive PodState
  | stuck | ready | other
  deriving Repr, DecidableEq

/-- `ProcessPodChangeAsync` after a restart was handled, and `HandleRunningState`. -/
def podStateDecision (ns : String) (cache : ChallengeDeploymentCacheDTO) :
    PodState → Option Stage
  | .stuck => some (.podClean ns)
  | .ready => if cache.status ≠ .DELETING ∧ cache.ready = false then some (.running cache) else none
  | .other => none

/-- The finish time that `HandleChallengeRunning` chooses, and whether it is a new one. -/
def finishTime (now timeFinished timeLimitMinutes ctfEnd : Int) : Int × Bool :=
  if now < timeFinished then (timeFinished, false)
  else
    let finish := now + timeLimitMinutes * 60
    (if 0 < ctfEnd ∧ ctfEnd < finish then ctfEnd else finish, true)

end Fctf
