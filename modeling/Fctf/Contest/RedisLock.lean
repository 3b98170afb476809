import Fctf.Lib.Lease
import Fctf.Lib.Run
import Mathlib.Logic.Embedding.Basic

/-!
`RedisLockHelper`: any number of clients, each with a token of its own and any number of calls
under way. Redis runs each command at once, but the call that sends it and the reply that it
waits for are steps of their own, so that a command may run long after its client has sent it.
-/

namespace Fctf.RedisLock

open Run Expiring

/-- The loop of `AcquireWithRetry`, in round `i`. -/
structure Retry where
  i : Int
  retry : Int
  /-- In milliseconds, as are all times here. -/
  delayMs : Int
  deriving Repr, DecidableEq

inductive Outcome
  | returned (acquired : Bool)
  /-- `ReleaseLock` returns nothing. -/
  | completed
  | exception
  deriving Repr, DecidableEq

/-- What a caller waits for. In the calls that acquire, `loop` is that of `AcquireWithRetry`. -/
inductive Call (κ : Type*)
  | ended (outcome : Option Outcome)
  /-- `StringSetAsync` is sent. -/
  | setting (key : κ) (expiry : Int) (loop : Option Retry)
  | set (key : κ) (expiry : Int) (loop : Option Retry) (acquired : Bool)
  /-- `Task.Delay`; one without an end waits for ever. -/
  | delaying (key : κ) (expiry : Int) (loop : Retry) (wake : Option Int)
  /-- The script of `ReleaseLock` is sent. -/
  | deleting (key : κ)
  | deleted
  deriving Repr, DecidableEq

inductive Action (γ κ : Type*)
  | acquireLock (caller : γ) (key : κ) (expiry : Int)
  | acquireWithRetry (caller : γ) (key : κ) (expiry : Int) (retry : Int := 5) (delayMs : Int := 20)
  | releaseLock (caller : γ) (key : κ)
  /-- Redis runs the command of a call. -/
  | execute (caller : γ)
  | reply (caller : γ)
  | wake (caller : γ)
  /-- A command ends with an exception, whether Redis has run it or not. -/
  | fail (caller : γ)
  | tick (milliseconds : Nat)
  /-- Redis deletes a key whose time has run out. -/
  | expire (key : κ)
  deriving Repr, DecidableEq

structure State (γ ι κ τ : Type*) where
  redis : Store κ τ
  now : Int
  calls : γ → Call κ
  /-- A history: when the last lease of a client on a key runs out, unless the client has released
  it since. -/
  granted : ι × κ → Option Int

variable {γ ι κ τ : Type*}

namespace State

/-- No client holds a lease yet; Redis may store anything. -/
def start (redis : Store κ τ) (now : Int) : State γ ι κ τ :=
  ⟨redis, now, fun _ => .ended none, fun _ => none⟩

/-- The client has a lease of the key that has not run out. -/
def HoldsLease (s : State γ ι κ τ) (key : κ) (client : ι) : Prop :=
  ∃ deadline ∈ s.granted (client, key), s.now < deadline

variable [DecidableEq γ]

def goOn (s : State γ ι κ τ) (caller : γ) (call : Call κ) : State γ ι κ τ :=
  { s with calls := Function.update s.calls caller call }

def finish (s : State γ ι κ τ) (caller : γ) (outcome : Outcome) : State γ ι κ τ :=
  s.goOn caller (.ended (some outcome))

/-- The head of the loop of `AcquireWithRetry`. -/
def round (s : State γ ι κ τ) (caller : γ) (key : κ) (expiry : Int) (loop : Retry) :
    State γ ι κ τ :=
  if loop.i < loop.retry then s.goOn caller (.setting key expiry (some loop))
  else s.finish caller (.returned false)

/-- `Task.Delay`. -/
def delay (s : State γ ι κ τ) (caller : γ) (key : κ) (expiry : Int) (loop : Retry) :
    State γ ι κ τ :=
  if loop.delayMs < -1 then s.finish caller .exception
  else s.goOn caller (.delaying key expiry loop
    (if loop.delayMs = -1 then none else some (s.now + loop.delayMs)))

end State

section Steps

variable [DecidableEq γ] [DecidableEq ι] [DecidableEq κ] [DecidableEq τ]
  (token : ι ↪ τ) (client : γ → ι)

/-- Redis runs the command that a call has sent. -/
def execute (s : State γ ι κ τ) (caller : γ) : Option (State γ ι κ τ) :=
  match s.calls caller with
  | .setting key expiry loop =>
    -- an expiry that is not positive is an error of the command
    if 0 < expiry then
      let acquired := Lease.acquire s.redis s.now key (token (client caller)) expiry
      let granted := if acquired.1 then
        Function.update s.granted (client caller, key) (some (s.now + expiry)) else s.granted
      some ({ s with redis := acquired.2, granted := granted }.goOn caller
        (.set key expiry loop acquired.1))
    else some (s.finish caller .exception)
  | .deleting key =>
    some ({ s with
      redis := Lease.release s.redis s.now key (token (client caller))
      granted := Function.update s.granted (client caller, key) none }.goOn caller .deleted)
  | _ => none

/-- A call goes on with the reply to its command. -/
def reply (s : State γ ι κ τ) (caller : γ) : Option (State γ ι κ τ) :=
  match s.calls caller with
  | .set _ _ none acquired => some (s.finish caller (.returned acquired))
  | .set key expiry (some loop) acquired =>
    if acquired then some (s.finish caller (.returned true))
    else some (s.delay caller key expiry loop)
  | .deleted => some (s.finish caller .completed)
  | _ => none

def wake (s : State γ ι κ τ) (caller : γ) : Option (State γ ι κ τ) :=
  match s.calls caller with
  | .delaying key expiry loop (some wake) =>
    if wake ≤ s.now then some (s.round caller key expiry { loop with i := loop.i + 1 }) else none
  | _ => none

/-- A command that is waited for fails. -/
def fail (s : State γ ι κ τ) (caller : γ) : Option (State γ ι κ τ) :=
  match s.calls caller with
  | .setting .. | .set .. | .deleting _ | .deleted => some (s.finish caller .exception)
  | _ => none

def step (s : State γ ι κ τ) : Action γ κ → Option (State γ ι κ τ)
  | .acquireLock caller key expiry =>
    match s.calls caller with
    | .ended _ => some (s.goOn caller (.setting key expiry none))
    | _ => none
  | .acquireWithRetry caller key expiry retry delayMs =>
    match s.calls caller with
    | .ended _ => some (s.round caller key expiry ⟨0, retry, delayMs⟩)
    | _ => none
  | .releaseLock caller key =>
    match s.calls caller with
    | .ended _ => some (s.goOn caller (.deleting key))
    | _ => none
  | .execute caller => execute token client s caller
  | .reply caller => reply s caller
  | .wake caller => wake s caller
  | .fail caller => fail s caller
  | .tick milliseconds => some { s with now := s.now + milliseconds }
  | .expire key =>
    if s.redis.contains s.now key then none else some { s with redis := s.redis.del key }

end Steps

section Property

variable [DecidableEq γ] [DecidableEq ι] [DecidableEq κ] [DecidableEq τ]
  (token : ι ↪ τ) (client : γ → ι)

/-- The locks exclude each other at a state, and no release takes a lease from another client. -/
structure Exclusive (s : State γ ι κ τ) : Prop where
  unique : ∀ key c c', s.HoldsLease key c → s.HoldsLease key c' → c = c'
  /-- The lease is the one that Redis stores. -/
  stored : ∀ key c, s.HoldsLease key c → Lease.Holds s.redis s.now key (token c)
  /-- Whichever lock Redis releases for a client, and however late. -/
  kept : ∀ caller key t, s.calls caller = .deleting key →
    step token client s (.execute caller) = some t → ∀ key' c, c ≠ client caller →
    s.HoldsLease key' c → t.HoldsLease key' c ∧ Lease.Holds t.redis t.now key' (token c)

end Property

section Proof

variable [DecidableEq γ] [DecidableEq ι] [DecidableEq κ] [DecidableEq τ]
  {token : ι ↪ τ} {client : γ → ι} {s t : State γ ι κ τ}

/-! ### What a step does to the locks -/

namespace State

omit [DecidableEq ι] [DecidableEq κ] [DecidableEq τ]

variable (s) (caller : γ) (key : κ) (expiry : Int) (loop : Retry)

theorem goOn_locks (call : Call κ) : (s.goOn caller call).redis = s.redis ∧
    (s.goOn caller call).now = s.now ∧ (s.goOn caller call).granted = s.granted :=
  ⟨rfl, rfl, rfl⟩

theorem round_locks : (s.round caller key expiry loop).redis = s.redis ∧
    (s.round caller key expiry loop).now = s.now ∧
    (s.round caller key expiry loop).granted = s.granted := by
  unfold State.round
  split
  · exact s.goOn_locks caller _
  · exact s.goOn_locks caller _

theorem delay_locks : (s.delay caller key expiry loop).redis = s.redis ∧
    (s.delay caller key expiry loop).now = s.now ∧
    (s.delay caller key expiry loop).granted = s.granted := by
  unfold State.delay
  split
  · exact s.goOn_locks caller _
  · exact s.goOn_locks caller _

end State

variable (token client) in
/-- What a step may do to the stored locks, the clock and the leases. -/
inductive Changes (s t : State γ ι κ τ) : Prop
  | nothing (hredis : t.redis = s.redis) (hnow : t.now = s.now) (hgranted : t.granted = s.granted)
  | tick (milliseconds : Nat) (hredis : t.redis = s.redis) (hnow : t.now = s.now + milliseconds)
      (hgranted : t.granted = s.granted)
  | expire (key : κ) (hgone : s.redis.contains s.now key = false)
      (hredis : t.redis = s.redis.del key) (hnow : t.now = s.now) (hgranted : t.granted = s.granted)
  | grant (c : ι) (key : κ) (expiry : Int) (hexpiry : 0 < expiry)
      (hacquired : (Lease.acquire s.redis s.now key (token c) expiry).1 = true)
      (hredis : t.redis = (Lease.acquire s.redis s.now key (token c) expiry).2)
      (hnow : t.now = s.now)
      (hgranted : t.granted = Function.update s.granted (c, key) (some (s.now + expiry)))
  | release (caller : γ) (key : κ) (hcall : s.calls caller = .deleting key)
      (hredis : t.redis = Lease.release s.redis s.now key (token (client caller)))
      (hnow : t.now = s.now)
      (hgranted : t.granted = Function.update s.granted (client caller, key) none)

omit [DecidableEq γ] in
theorem Changes.of_eq (h : t.redis = s.redis ∧ t.now = s.now ∧ t.granted = s.granted) :
    Changes token client s t :=
  .nothing h.1 h.2.1 h.2.2

theorem execute_changes {caller : γ} (h : execute token client s caller = some t) :
    Changes token client s t := by
  unfold execute at h
  split at h
  · rename_i key expiry loop _
    split at h
    · rename_i hexpiry
      obtain rfl := Option.some.inj h
      cases hacquired : (Lease.acquire s.redis s.now key (token (client caller)) expiry).1 with
      | false => exact .nothing (Lease.acquire_false hacquired) rfl (by simp [State.goOn])
      | true =>
        exact .grant (client caller) key expiry hexpiry hacquired rfl rfl
          (by simp [State.goOn])
    · obtain rfl := Option.some.inj h
      exact .of_eq (s.goOn_locks caller _)
  · rename_i key hcall
    obtain rfl := Option.some.inj h
    exact .release caller key hcall rfl rfl rfl
  · cases h

theorem reply_changes {caller : γ} (h : reply s caller = some t) : Changes token client s t := by
  unfold reply at h
  split at h
  · obtain rfl := Option.some.inj h
    exact .of_eq (s.goOn_locks caller _)
  · split at h
    · obtain rfl := Option.some.inj h
      exact .of_eq (s.goOn_locks caller _)
    · obtain rfl := Option.some.inj h
      exact .of_eq (s.delay_locks caller _ _ _)
  · obtain rfl := Option.some.inj h
    exact .of_eq (s.goOn_locks caller _)
  · cases h

theorem wake_changes {caller : γ} (h : wake s caller = some t) : Changes token client s t := by
  unfold wake at h
  split at h
  · split at h
    · obtain rfl := Option.some.inj h
      exact .of_eq (s.round_locks caller _ _ _)
    · cases h
  · cases h

theorem fail_changes {caller : γ} (h : fail s caller = some t) : Changes token client s t := by
  unfold fail at h
  split at h
  case h_5 => cases h
  all_goals
    obtain rfl := Option.some.inj h
    exact .of_eq (s.goOn_locks caller _)

/-- Every step, whatever the calls are at. -/
theorem step_changes {a : Action γ κ} (h : step token client s a = some t) :
    Changes token client s t := by
  cases a with
  | execute caller => exact execute_changes h
  | reply caller => exact reply_changes h
  | wake caller => exact wake_changes h
  | fail caller => exact fail_changes h
  | tick milliseconds =>
    obtain rfl := Option.some.inj h
    exact .tick milliseconds rfl rfl rfl
  | expire key =>
    simp only [step] at h
    split at h
    · cases h
    · rename_i hgone
      obtain rfl := Option.some.inj h
      exact .expire key (by simpa using hgone) rfl rfl rfl
  | acquireLock caller key expiry =>
    simp only [step] at h
    split at h
    · obtain rfl := Option.some.inj h
      exact .of_eq (s.goOn_locks caller _)
    · cases h
  | acquireWithRetry caller key expiry retry delayMs =>
    simp only [step] at h
    split at h
    · obtain rfl := Option.some.inj h
      exact .of_eq (s.round_locks caller _ _ _)
    · cases h
  | releaseLock caller key =>
    simp only [step] at h
    split at h
    · obtain rfl := Option.some.inj h
      exact .of_eq (s.goOn_locks caller _)
    · cases h

/-! ### Leases are backed by what Redis stores -/

/-- A lease that has not run out is stored, with its token and its end. -/
def Backed (token : ι ↪ τ) (s : State γ ι κ τ) : Prop :=
  ∀ key c, ∀ deadline ∈ s.granted (c, key), s.now < deadline →
    Lease.HoldsUntil s.redis s.now key (token c) deadline

omit [DecidableEq γ] in
theorem Changes.backed (h : Changes token client s t) (hs : Backed token s) : Backed token t := by
  intro key c deadline hgrant hlive
  cases h with
  | nothing hredis hnow hgranted =>
    rw [hgranted] at hgrant
    rw [hredis, hnow]
    exact hs key c deadline hgrant (by omega)
  | tick milliseconds hredis hnow hgranted =>
    rw [hgranted] at hgrant
    rw [hredis]
    exact (hs key c deadline hgrant (by omega)).lasts hlive
  | expire gone hgone hredis hnow hgranted =>
    rw [hgranted] at hgrant
    rw [hredis, hnow]
    exact (hs key c deadline hgrant (by omega)).expire hgone
  | grant c' key' expiry hexpiry hacquired hredis hnow hgranted =>
    rw [hgranted] at hgrant
    rw [hredis, hnow]
    by_cases hsame : (c, key) = (c', key')
    · obtain ⟨rfl, rfl⟩ := Prod.mk.inj hsame
      obtain rfl : s.now + expiry = deadline := by simpa using hgrant
      exact Lease.acquire_holdsUntil hacquired hexpiry
    · rw [Function.update_of_ne hsame] at hgrant
      exact (hs key c deadline hgrant (by omega)).acquire
  | release caller key' _ hredis hnow hgranted =>
    rw [hgranted] at hgrant
    rw [hredis, hnow]
    by_cases hsame : (c, key) = (client caller, key')
    · simp [hsame] at hgrant
    · rw [Function.update_of_ne hsame] at hgrant
      refine (hs key c deadline hgrant (by omega)).release ?_
      -- the tokens differ, because the clients do
      rintro rfl htoken
      exact hsame (by rw [token.injective htoken])

omit [DecidableEq γ] [DecidableEq ι] [DecidableEq κ] [DecidableEq τ] in
theorem Backed.stored (hs : Backed token s) {key : κ} {c : ι} (h : s.HoldsLease key c) :
    Lease.Holds s.redis s.now key (token c) := by
  obtain ⟨deadline, hgrant, hlive⟩ := h
  exact (hs key c deadline hgrant hlive).holds

/-- Another client's release leaves a lease as it is. -/
theorem State.HoldsLease.release {caller : γ} {key key' : κ} {c : ι} (h : s.HoldsLease key' c)
    (hne : c ≠ client caller) (hcall : s.calls caller = .deleting key)
    (hstep : step token client s (.execute caller) = some t) : t.HoldsLease key' c := by
  obtain ⟨deadline, hgrant, hlive⟩ := h
  simp only [step, execute, hcall] at hstep
  obtain rfl := Option.some.inj hstep
  have hother : (c, key') ≠ (client caller, key) := fun hsame => hne (Prod.mk.inj hsame).1
  refine ⟨deadline, ?_, hlive⟩
  change deadline ∈ Function.update s.granted (client caller, key) none (c, key')
  rw [Function.update_of_ne hother]
  exact hgrant

theorem Backed.exclusive (hs : Backed token s) : Exclusive token client s where
  unique key c c' h h' := token.injective ((hs.stored h).unique (hs.stored h'))
  stored key c h := hs.stored h
  kept caller key t hcall hstep key' c hne h := by
    have hlease : t.HoldsLease key' c := h.release hne hcall hstep
    exact ⟨hlease, ((step_changes hstep).backed hs).stored hlease⟩

omit [DecidableEq γ] [DecidableEq ι] [DecidableEq κ] [DecidableEq τ] in
theorem backed_start (redis : Store κ τ) (now : Int) :
    Backed token (State.start redis now : State γ ι κ τ) := by
  intro key c deadline hgrant
  cases hgrant

end Proof

/-- In every run, whatever Redis stores at first: one client at most holds a lease of a key, it is
the one whose token is stored, and it keeps the lease whoever else releases the lock. -/
theorem exclusive_of_run [DecidableEq γ] [DecidableEq ι] [DecidableEq κ] [DecidableEq τ]
    (token : ι ↪ τ) (client : γ → ι) (redis : Store κ τ) (now : Int) (run : List (Action γ κ)) :
    ∀ s ∈ visited (step token client) (State.start redis now) run, Exclusive token client s := by
  have hbacked : ∀ s ∈ visited (step token client) (State.start redis now) run, Backed token s :=
    forall_visited (fun s a t hs hstep => (step_changes hstep).backed hs) run
      (backed_start redis now)
  intro s hs
  exact (hbacked s hs).exclusive

/-- The script of client 0 comes after its lease has run out and client 1 has the lock. -/
def lateRelease : List (Action Nat String) :=
  [.acquireLock 0 "lock" 50, .execute 0, .reply 0, .releaseLock 0 "lock", .tick 50,
    .acquireWithRetry 1 "lock" 50, .execute 1, .execute 0]

def afterLateRelease : State Nat Nat String Nat :=
  (exec (step (Function.Embedding.refl Nat) id) (State.start .empty 0) lateRelease).get
    (by decide)

theorem exclusive_after_lateRelease :
    Exclusive (Function.Embedding.refl Nat) id afterLateRelease ∧
      Lease.Holds afterLateRelease.redis afterLateRelease.now "lock" 1 :=
  ⟨exclusive_of_run _ _ _ _ lateRelease _ (exec_mem_visited _), by decide⟩

end Fctf.RedisLock
