import Fctf.Deploy.Session
import Fctf.Lib.Run

/-!
All the programs at once, on one slot: contestants, DeploymentCenter, the
queue, the worker, Argo, Kubernetes, the listener and the gateway's Redis. Any
program may take the next step, any answer may be lost, and any program may
crash. Starts are numbered; every job, message, workflow, pod and tracking row
remembers the start it goes back to. The programs never read these numbers.
-/

namespace Fctf

open Run

structure Job where
  start : Nat
  stage : Stage

structure World where
  redis : Redis
  starts : Nat := 0
  jobs : List Job := []
  published : Nat := 0
  queue : List Message := []
  workflows : List Deployment := []
  pods : List Deployment := []
  tracking : List Deployment := []
  names : List Deployment := []

inductive Action
  | tick (seconds : Nat)
  /-- `StartChallenge` up to its reservation. -/
  | reserve (maxLimit : Nat)
  /-- A preview or shared start, which calls `Start` without a reservation. -/
  | directStart (readFails wfAlive : Bool)
  /-- Job `i` gets its Redis command executed. -/
  | call (i : Nat) (fault : Fault) (lag : Nat) (wfAlive : Bool)
  /-- `EnqueueDeploymentAsync`: whether the broker takes the message, and whether it says so. -/
  | publish (i : Nat) (taken confirmed : Bool)
  /-- The contestant's request for job `i` fails or times out while `Start` goes on. -/
  | disconnect (i : Nat)
  /-- The program of job `i` dies. -/
  | crash (i : Nat)
  | deliver (k : Nat)
  /-- The consumer's channel is lost with message `k` unacknowledged. -/
  | requeue (k : Nat)
  | expire (k : Nat)
  /-- The worker fails before its submission and rejects the message. -/
  | reject (i : Nat)
  /-- Argo takes the submission; `workflowName` is `none` when its answer is lost or unusable. -/
  | submit (i : Nat) (appName : String) (workflowName : Option String) (acked : Bool)
  | podCreated (k : Nat)
  | workflowFailed (k : Nat)
  | podEvent (k : Nat) (uid : String) (change : PodChange)
  | podGone (k : Nat)
  | podState (i : Nat) (state : PodState)
  /-- `DeleteNamespace` for job `i`. -/
  | deleteNamespace (i : Nat) (ok : Bool)
  | schedule (i : Nat) (timeLimitMinutes ctfEnd : Int)
  | issue (i : Nat)
  | saveTracking (i : Nat)
  | statusCheck
  | stop (admin : Bool)
  | listPods
  | findOrphans (i : Nat)

namespace World

def init (now : Int) : World := { redis := .empty now }

def cache (w : World) (slot : Slot) : Option ChallengeDeploymentCacheDTO :=
  w.redis.cache slot.key

/-- Job `i` goes on in the given stages. -/
def goOn (w : World) (i : Nat) (start : Nat) (next : List Stage) : World :=
  { w with jobs := w.jobs.eraseIdx i ++ next.map fun stage => ⟨start, stage⟩ }

def spawn (w : World) (start : Nat) (stage : Stage) : World :=
  { w with jobs := w.jobs ++ [⟨start, stage⟩] }

/-- `Ack` and `Nack` without requeue. -/
def settle (w : World) (id : Nat) : World :=
  { w with queue := w.queue.filter fun m => m.id ≠ id }

/-- Namespaces generated for different starts differ. -/
def FreshName (w : World) (ns : String) (start : Nat) : Prop :=
  isNullOrWhiteSpace ns = false ∧ ∀ d ∈ w.names, d.ns = ns → d.start = start

instance (w : World) (ns : String) (start : Nat) : Decidable (w.FreshName ns start) :=
  inferInstanceAs (Decidable (_ ∧ _))

/-- The command of job `i` and what its program does with the reply. A worker
that finds no cache entry rejects its message. -/
def call (slot : Slot) (w : World) (job : Job) (i : Nat) (fault : Fault) (lag : Nat)
    (wfAlive : Bool) : Option World :=
  job.stage.command.map fun command =>
    let (redis, reply) := fault.run slot lag w.redis command
    let w' := { w with redis := redis }.goOn i job.start
      (job.stage.resume w.redis.now wfAlive reply).toList
    match job.stage, reply with
    | .workRead m, .entry none => w'.settle m.id
    | _, _ => w'

def publish (slot : Slot) (w : World) (job : Job) (i : Nat) (taken confirmed : Bool) :
    Option World :=
  match job.stage with
  | .start waiting .enqueue =>
    let w' := w.goOn i job.start
      [.start waiting (if confirmed then .mark (queuedCall slot job.start) else .clear)]
    some <| if taken then
      { w' with
        published := w.published + 1
        queue := w.queue ++ [⟨w.published, job.start, w.redis.now + slot.expirySeconds, false⟩] }
    else w'
  | _ => none

def submit (slot : Slot) (w : World) (job : Job) (i : Nat) (appName : String)
    (workflowName : Option String) (acked : Bool) : Option World :=
  match job.stage with
  | .workSubmit m copy =>
    if w.FreshName appName job.start then
      let w' := w.goOn i job.start
        (workflowName.map fun name => .workWrite (submittedCall slot copy appName name)).toList
      let w' := { w' with
        workflows := w.workflows ++ [⟨appName, job.start⟩]
        names := w.names ++ [⟨appName, job.start⟩] }
      some <| if acked then w'.settle m.id else w'
    else none
  | _ => none

def schedule (slot : Slot) (w : World) (job : Job) (i : Nat) (timeLimitMinutes ctfEnd : Int) :
    Option World :=
  match job.stage with
  | .running copy =>
    let (finish, isNew) := finishTime w.redis.now copy.time_finished timeLimitMinutes ctfEnd
    let w' := w.goOn i job.start [.issue copy finish]
    -- previews and shared instances are not tracked
    some <| if isNew ∧ slot.team ≠ -1 ∧ slot.team ≠ -2 then
      { w' with tracking := w.tracking ++ [⟨copy._namespace, copy.origin⟩] }
    else w'
  | _ => none

def deleteNamespace (w : World) (job : Job) (i : Nat) (ok : Bool) : Option World :=
  match job.stage with
  | .podClean ns => some (w.goOn i job.start (if ok then [.podRemove ns false] else []))
  | .stopForce _ => some (w.goOn i job.start (if ok then [.stopRemove] else []))
  | .stopDelete _ => some (w.goOn i job.start [])
  | _ => none

def disconnect (w : World) (job : Job) (i : Nat) : Option World :=
  match job.stage with
  | .start true pc => some (w.goOn i job.start [.start false pc, .rollback])
  | _ => none

def crash (w : World) (job : Job) (i : Nat) : World :=
  match job.stage with
  | .start true _ => w.goOn i job.start [.rollback]
  | _ => w.goOn i job.start []

def findOrphans (w : World) (job : Job) (i : Nat) : Option World :=
  match job.stage with
  | .reconcile activeNamespaces =>
    some { w with
      jobs := w.jobs.eraseIdx i ++
        (w.tracking.filter fun t => t.ns ∉ activeNamespaces).map fun t => ⟨t.start, .orphan t⟩ }
  | _ => none

def step (slot : Slot) (w : World) : Action → Option World
  | .tick seconds => some { w with redis := w.redis.tick seconds }
  | .reserve maxLimit =>
    if slot.team ≤ 0 then none
    else
      let (redis, res) := w.redis.atomicCheckAndCreateDeploymentZSet slot.team slot.challenge
        maxLimit (initialEntry slot (w.starts + 1)) 300
      some <| if res = some .Pass then
        { w with redis := redis, starts := w.starts + 1 }.spawn (w.starts + 1) (.start true .read)
      else { w with redis := redis }
  | .directStart readFails wfAlive =>
    if 0 < slot.team then none
    else
      match startDecision (if readFails then none else w.cache slot) wfAlive with
      | .inl _ => some w
      | .inr pc => some <|
        { w with starts := w.starts + 1 }.spawn (w.starts + 1) (.start false pc)
  | .call i fault lag wfAlive =>
    w.jobs[i]?.bind fun job => call slot w job i fault lag wfAlive
  | .publish i taken confirmed => w.jobs[i]?.bind fun job => publish slot w job i taken confirmed
  | .disconnect i => w.jobs[i]?.bind fun job => disconnect w job i
  | .crash i => w.jobs[i]?.map fun job => crash w job i
  | .deliver k =>
    w.queue[k]?.bind fun m =>
      if m.unacked ∨ m.expiry < w.redis.now then none
      else some <|
        { w with queue := w.queue.set k { m with unacked := true } }.spawn m.start (.workRead m)
  | .requeue k =>
    w.queue[k]?.bind fun m =>
      if m.unacked then some { w with queue := w.queue.set k { m with unacked := false } }
      else none
  | .expire k =>
    w.queue[k]?.bind fun m =>
      if m.unacked ∨ w.redis.now < m.expiry then none
      else some { w with queue := w.queue.eraseIdx k }
  | .reject i =>
    w.jobs[i]?.bind fun job =>
      match job.stage with
      | .workSubmit m _ => some ((w.goOn i job.start []).settle m.id)
      | _ => none
  | .submit i appName workflowName acked =>
    w.jobs[i]?.bind fun job => submit slot w job i appName workflowName acked
  | .podCreated k =>
    w.workflows[k]?.map fun d =>
      { w with workflows := w.workflows.eraseIdx k, pods := w.pods ++ [d] }
  | .workflowFailed k =>
    w.workflows[k]?.map fun _ => { w with workflows := w.workflows.eraseIdx k }
  | .podEvent k uid change =>
    w.pods[k]?.map fun d => w.spawn d.start (.podRead d.ns uid change)
  | .podGone k => w.pods[k]?.map fun _ => { w with pods := w.pods.eraseIdx k }
  | .podState i state =>
    w.jobs[i]?.bind fun job =>
      match job.stage with
      | .podState ns cache => some (w.goOn i job.start (podStateDecision ns cache state).toList)
      | _ => none
  | .deleteNamespace i ok => w.jobs[i]?.bind fun job => deleteNamespace w job i ok
  | .schedule i timeLimitMinutes ctfEnd =>
    w.jobs[i]?.bind fun job => schedule slot w job i timeLimitMinutes ctfEnd
  | .issue i =>
    w.jobs[i]?.bind fun job =>
      match job.stage with
      | .issue copy finish =>
        some (w.goOn i job.start [.runningWrite (runningCall slot copy finish w.redis.now)])
      | _ => none
  | .saveTracking i =>
    w.jobs[i]?.bind fun job =>
      match job.stage with
      | .closeTracking ns => some
          { w.goOn i job.start [] with tracking := w.tracking.eraseP fun t => t.ns = ns }
      | _ => none
  | .statusCheck =>
    (w.cache slot).map fun entry =>
      if entry.status = .RUNING ∧ entry.ready then w.spawn entry.origin (.running entry) else w
  | .stop admin => (w.cache slot).map fun entry => w.spawn entry.origin (.stopRevoke admin entry)
  | .listPods => some (w.spawn w.starts (.reconcile (w.pods.map Deployment.ns)))
  | .findOrphans i => w.jobs[i]?.bind fun job => findOrphans w job i

end World

end Fctf
