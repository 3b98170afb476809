import Fctf.Deploy.Data
import Fctf.Kypo.Lock
import Fctf.Lib.Run

/-!
The sessions of one team on one KYPO challenge: its start, explicit stops, and the passes
of the timeout watcher, in any interleaving. Each of them may be cut off between two steps.
`LockScoreAsync` is one step; how its calls end is part of it.
-/

namespace Fctf

open Run KypoApiClient

structure KypoSlot where
  challengeId : Nat
  teamId : Int
  /-- `challenge.TimeLimit`, in minutes. -/
  timeLimit : Option Int

namespace KypoSlot

/-- The time limit, when there is one. -/
def limit (slot : KypoSlot) : Option Int := slot.timeLimit.filter (0 < ·)

end KypoSlot

inductive KypoJob
  /-- `StartChallenge`: before it stores the Redis key, and before it stores the tracking row. -/
  | startSet (userId : Nat)
  | startTrack (userId : Nat)
  /-- `StopChallengeByUser`: before its attempt, before the tracking rows are closed, and
  before the key is removed. -/
  | stopLock
  | stopClose
  | stopRemove
  /-- `ScanExpiredSessionsAsync`, for one expired row: before the row is marked, and before
  the attempt. -/
  | watchMark (id : Nat)
  | watchLock
  deriving Repr, DecidableEq

structure KypoSite where
  now : Int
  /-- The session's key in Redis, with its expiry. -/
  key : Option (Option Int) := none
  rows : List ChallengeStartTracking := []
  /-- `_progressCache`: its expiry and the answer it was read from. -/
  progressCache : Option (Int × HttpReply) := none
  jobs : List KypoJob := []

inductive KypoAction
  | tick (seconds : Nat)
  | start (userId : Nat)
  | set (i : Nat)
  /-- The tracking row, with the id that the table gives it. -/
  | track (i id : Nat) (saved : Bool)
  | stop
  | attempt (i : Nat) (input : LockInput)
  /-- Another attempt on the same instance has fetched its progress. -/
  | otherAttempt (progress : HttpReply)
  | close (i : Nat) (saved : Bool)
  | remove (i : Nat) (executed : Bool)
  | scan
  | mark (i : Nat) (saved : Bool)
  | crash (i : Nat)

namespace LockInput

/-- The progress call is made: the challenge is a KYPO challenge of an instance, and unsolved. -/
def asksKypo (input : LockInput) : Bool :=
  input.config.any (fun config => !isNullOrWhiteSpace (config.kypoBaseUrl.getD "")) &&
    !input.alreadySolved

end LockInput

namespace KypoSite

def keyExists (s : KypoSite) : Bool :=
  match s.key with
  | none => false
  | some none => true
  | some (some expiry) => s.now < expiry

def openRows (s : KypoSite) : List ChallengeStartTracking := s.rows.filter (·.stoppedAt.isNone)

/-- The rows that the watcher's query finds and takes for expired. -/
def expiredRows (slot : KypoSlot) (s : KypoSite) : List ChallengeStartTracking :=
  match slot.limit with
  | none => []
  | some minutes => s.openRows.filter fun t => t.startedAt + minutes * 60 ≤ s.now

/-- Job `i` goes on with the given jobs. -/
def goOn (s : KypoSite) (i : Nat) (next : List KypoJob) : KypoSite :=
  { s with jobs := s.jobs.eraseIdx i ++ next }

def spawn (s : KypoSite) (job : KypoJob) : KypoSite := { s with jobs := s.jobs ++ [job] }

/-- The answer in the progress cache. -/
def cachedProgress (s : KypoSite) : Option HttpReply :=
  (s.progressCache.filter fun c => s.now < c.1).map Prod.snd

/-- What an attempt gets to see: the cached progress before that of KYPO. -/
def seen (s : KypoSite) (input : LockInput) : LockInput :=
  { input with progress := s.cachedProgress.getD input.progress }

def stopRows (s : KypoSite) : KypoSite :=
  { s with rows := s.rows.map fun t =>
      if t.stoppedAt.isNone then { t with stoppedAt := some s.now } else t }

def markRow (s : KypoSite) (id : Nat) : KypoSite :=
  { s with rows := s.rows.map fun t =>
      if t.id = id && t.stoppedAt.isNone then { t with stoppedAt := some s.now } else t }

section Steps

variable (tryParse : String → Option Int) (slot : KypoSlot)

/-- A fetched progress is cached for 15 seconds. -/
def fetch (s : KypoSite) (progress : HttpReply) : KypoSite :=
  if s.cachedProgress.isNone && (getInstanceProgress tryParse progress).isSome then
    { s with progressCache := some (s.now + 15, progress) }
  else s

/-- `StartChallenge` stores the key, with two minutes beyond the time limit. -/
def setKey (s : KypoSite) (i userId : Nat) : KypoSite :=
  { s with key := some (slot.limit.map fun minutes => s.now + minutes * 60 + 120) }.goOn i
    [.startTrack userId]

def trackRow (s : KypoSite) (i userId id : Nat) : KypoSite :=
  if s.openRows.isEmpty then
    { s.goOn i [] with
      rows := s.rows ++ [{
        id := id, userId := some userId, teamId := some slot.teamId,
        challengeId := slot.challengeId, startedAt := s.now, label := some "kypo" }] }
  else s.goOn i []

/-- What the stop endpoint does with the result: `ApiError` and exceptions leave the session
open. -/
def afterLock (result : Option KypoLockResult) : List KypoJob :=
  if result = none ∨ result = some .ApiError then [] else [.stopClose]

def attempt (s : KypoSite) (i : Nat) (input : LockInput) : Option KypoSite :=
  let s' := if input.asksKypo then s.fetch tryParse input.progress else s
  match s.jobs[i]? with
  | some .stopLock =>
    some (s'.goOn i (afterLock ((s.seen input).lockScore tryParse slot.teamId).result))
  | some .watchLock => some (s'.goOn i [])
  | _ => none

def step (s : KypoSite) : KypoAction → Option KypoSite
  | .tick seconds => some { s with now := s.now + seconds }
  | .start userId => some (if s.keyExists then s else s.spawn (.startSet userId))
  | .set i =>
    match s.jobs[i]? with
    | some (.startSet userId) => some (s.setKey slot i userId)
    | _ => none
  | .track i id saved =>
    match s.jobs[i]? with
    | some (.startTrack userId) =>
      some (if saved then s.trackRow slot i userId id else s.goOn i [])
    | _ => none
  | .stop => some (if s.keyExists then s.spawn .stopLock else s)
  | .attempt i input => s.attempt tryParse slot i input
  | .otherAttempt progress => some (s.fetch tryParse progress)
  | .close i saved =>
    match s.jobs[i]? with
    | some .stopClose => some (if saved then s.stopRows.goOn i [.stopRemove] else s.goOn i [])
    | _ => none
  | .remove i executed =>
    match s.jobs[i]? with
    | some .stopRemove => some (if executed then { s.goOn i [] with key := none } else s.goOn i [])
    | _ => none
  | .scan => some { s with jobs := s.jobs ++ (s.expiredRows slot).map fun t => .watchMark t.id }
  | .mark i saved =>
    match s.jobs[i]? with
    | some (.watchMark id) =>
      some (if saved then (s.markRow id).goOn i [.watchLock] else s.goOn i [])
    | _ => none
  | .crash i => if i < s.jobs.length then some (s.goOn i []) else none

end Steps

end KypoSite

end Fctf
