import Fctf.Lib.Expiring
import Fctf.Lib.Run
import Fctf.Lib.Slots

/-!
The connection limiters of the TCP gateway. A connection takes a slot for its address and one for
the whole when it is accepted, and one for its token once it has authenticated; each is counted
under a key of Redis that expires. Any number of gateways share the counters; the semaphore and
the accept loop are those of one gateway.
-/

namespace Fctf

open Expiring Run Slots

/-- `EnvInt` gives no number below one. -/
structure GatewayConfig where
  tcpMaxConns : Nat
  tcpMaxConnsPerIP : Nat
  tcpMaxConnsPerToken : Nat
  tcpConnTTLSeconds : Nat
  redisKeyPrefix : String
  redisFailClosed : Bool
  positive : 0 < tcpMaxConns ∧ 0 < tcpMaxConnsPerIP ∧ 0 < tcpMaxConnsPerToken ∧
    0 < tcpConnTTLSeconds

inductive ConnKey
  | ip (address : String)
  | token (tok : String)
  | global
  deriving DecidableEq

namespace ConnKey

/-- The empty text that an address has which does not parse. It is not limited. -/
def blank : ConnKey → Bool
  | .ip address => address = ""
  | .token tok => tok = ""
  | .global => false

def redisKey (config : GatewayConfig) : ConnKey → String
  | .ip address => config.redisKeyPrefix ++ (":tcp:conn:ip:" ++ address)
  | .token tok => config.redisKeyPrefix ++ (":tcp:conn:token:" ++ tok)
  | .global => config.redisKeyPrefix ++ ":tcp:conn:global:global"

def max (config : GatewayConfig) : ConnKey → Nat
  | .ip _ => config.tcpMaxConnsPerIP
  | .token _ => config.tcpMaxConnsPerToken
  | .global => config.tcpMaxConns

end ConnKey

/-- `redisConnAcquireScript`. -/
def acquireScript (counters : Store String Int) (now : Int) (key : String) (max ttl : Int) :
    Store String Int × Bool :=
  let counters := (counters.incrBy now key 1).expire now key ttl
  if max < counters.count now key then (counters.incrBy now key (-1), false) else (counters, true)

/-- `redisConnReleaseScript`. -/
def releaseScript (counters : Store String Int) (now : Int) (key : String) (ttl : Int) :
    Store String Int :=
  let counters := counters.incrBy now key (-1)
  if counters.count now key ≤ 0 then counters.del key else counters.expire now key ttl

/-- How the call of a script ends: an error may come before or after the script has run. -/
inductive ScriptReply
  | done
  | failed (ran : Bool)
  deriving DecidableEq

/-- What a connection does next. -/
inductive ConnStage
  | acquireIp
  | acquireGlobal
  | refused
  | waiting
  | authenticating
  | acquireToken (tok : String)
  | dialing (tok : String)
  | proxying (tok : String)
  | releaseToken (tok : String)
  | releaseGlobal
  | releaseIp
  | closed
  deriving DecidableEq

structure TcpConn where
  gateway : Nat
  ip : String
  stage : ConnStage
  deriving DecidableEq

namespace ConnStage

/-- The accept loop is busy with the connection. -/
def accepting : ConnStage → Bool
  | acquireIp | acquireGlobal | refused | waiting => true
  | _ => false

/-- The connection has its goroutine. -/
def handled : ConnStage → Bool
  | authenticating | acquireToken _ | dialing _ | proxying _ | releaseToken _ | releaseGlobal
  | releaseIp => true
  | _ => false

def holdsIp : ConnStage → Bool
  | acquireIp | closed => false
  | _ => true

def holdsGlobal : ConnStage → Bool
  | acquireIp | acquireGlobal | refused | releaseIp | closed => false
  | _ => true

def heldToken : ConnStage → Option String
  | dialing tok | proxying tok | releaseToken tok => some tok
  | _ => none

end ConnStage

namespace TcpConn

/-- The slots that a connection has to give back. -/
def holds (c : TcpConn) : ConnKey → Bool
  | .ip address => c.ip = address && c.stage.holdsIp
  | .token tok => c.stage.heldToken = some tok
  | .global => c.stage.holdsGlobal

/-- The connection is proxied, and the limit of the key is one for it. -/
def opens (c : TcpConn) : ConnKey → Bool
  | .ip address => c.ip = address && (match c.stage with | .proxying _ => true | _ => false)
  | .token tok => c.stage = .proxying tok
  | .global => match c.stage with | .proxying _ => true | _ => false

end TcpConn

structure ConnSite where
  now : Int
  counters : Store String Int
  conns : List TcpConn

inductive ConnAction
  | tick (seconds : Nat)
  | accept (gateway : Nat) (ip : String)
  /-- The next call of a limiter. -/
  | call (i : Nat) (reply : ScriptReply)
  | handle (i : Nat)
  /-- The token that the client sends and `Verify` and the rate limiter let pass, if any. -/
  | authenticate (i : Nat) (tok : Option String)
  /-- The access check and the dialing. -/
  | dial (i : Nat) (connected : Bool)
  | close (i : Nat)

namespace ConnSite

variable (config : GatewayConfig)

/-- `Acquire`. -/
def acquire (s : ConnSite) (key : ConnKey) (reply : ScriptReply) : Store String Int × Bool :=
  if key.blank then (s.counters, true)
  else
    let ran := acquireScript s.counters s.now (key.redisKey config) (key.max config)
      config.tcpConnTTLSeconds
    match reply with
    | .done => ran
    | .failed true => (ran.1, !config.redisFailClosed)
    | .failed false => (s.counters, !config.redisFailClosed)

/-- `Release`. -/
def release (s : ConnSite) (key : ConnKey) (reply : ScriptReply) : Store String Int :=
  if key.blank || reply = .failed false then s.counters
  else releaseScript s.counters s.now (key.redisKey config) config.tcpConnTTLSeconds

/-- The slot that a connection asks for, and what it does with the answer. -/
def asks (c : TcpConn) : Option (ConnKey × (Bool → ConnStage)) :=
  match c.stage with
  | .acquireIp => some (.ip c.ip, fun granted => if granted then .acquireGlobal else .closed)
  | .acquireGlobal => some (.global, fun granted => if granted then .waiting else .refused)
  | .acquireToken tok =>
    some (.token tok, fun granted => if granted then .dialing tok else .releaseGlobal)
  | _ => none

/-- The slot that a connection gives back, and what it does then. -/
def returns (c : TcpConn) : Option (ConnKey × ConnStage) :=
  match c.stage with
  | .refused => some (.ip c.ip, .closed)
  | .releaseToken tok => some (.token tok, .releaseGlobal)
  | .releaseGlobal => some (.global, .releaseIp)
  | .releaseIp => some (.ip c.ip, .closed)
  | _ => none

def goOn (s : ConnSite) (i : Nat) (c : TcpConn) (stage : ConnStage) : ConnSite :=
  { s with conns := s.conns.set i { c with stage := stage } }

def step (s : ConnSite) : ConnAction → Option ConnSite
  | .tick seconds => some { s with now := s.now + seconds }
  | .accept gateway ip =>
    if s.conns.any fun c => c.gateway = gateway && c.stage.accepting then none
    else some { s with conns := s.conns ++ [⟨gateway, ip, .acquireIp⟩] }
  | .call i reply => do
    let c ← s.conns[i]?
    match asks c with
    | some (key, next) =>
      let (counters, granted) := s.acquire config key reply
      some ({ s with counters := counters }.goOn i c (next granted))
    | none =>
      let (key, next) ← returns c
      some ({ s with counters := s.release config key reply }.goOn i c next)
  | .handle i => do
    let c ← s.conns[i]?
    -- the semaphore has a place for each connection that its gateway may handle
    if c.stage = .waiting ∧ (s.conns.countP fun other =>
        other.gateway = c.gateway && other.stage.handled) < config.tcpMaxConns then
      some (s.goOn i c .authenticating)
    else none
  | .authenticate i tok => do
    let c ← s.conns[i]?
    if c.stage = .authenticating then
      some (s.goOn i c (match tok.filter (· ≠ "") with
        | some tok => .acquireToken tok
        | none => .releaseGlobal))
    else none
  | .dial i connected => do
    let c ← s.conns[i]?
    match c.stage with
    | .dialing tok => some (s.goOn i c (if connected then .proxying tok else .releaseToken tok))
    | _ => none
  | .close i => do
    let c ← s.conns[i]?
    match c.stage with
    | .proxying tok => some (s.goOn i c (.releaseToken tok))
    | _ => none

/-- The number under the key's counter. -/
def counter (s : ConnSite) (key : ConnKey) : Int := s.counters.count s.now (key.redisKey config)

/-- The open connections that the key's limit is for. -/
def opened (s : ConnSite) (key : ConnKey) : Nat := s.conns.countP fun c => c.opens key

/-- No limit is exceeded and no counter is behind. -/
def Limited (s : ConnSite) : Prop :=
  ∀ key : ConnKey, key.blank = false →
    s.opened key ≤ key.max config ∧ (s.opened key : Int) ≤ s.counter config key

/-- No limiter call that asks for a slot fails, unless the limiter then refuses; and no counter
expires while a connection holds a slot that it counts. -/
def Keeps (s : ConnSite) : ConnAction → Prop
  | .call i reply => (∃ c ∈ s.conns[i]?, (asks c).isSome = true) →
      reply = .done ∨ config.redisFailClosed = true
  | .tick seconds => ∀ c ∈ s.conns, ∀ key ∈ [ConnKey.ip c.ip, .global] ++
      (c.stage.heldToken.map ConnKey.token).toList, key.blank = false → c.holds key = true →
        s.counters.contains (s.now + seconds) (key.redisKey config) = true
  | _ => True

instance decidableKeeps (s : ConnSite) (a : ConnAction) : Decidable (Keeps config s a) := by
  cases a <;> (delta Keeps; infer_instance)

/-! ### What a step keeps -/

section Proof

variable {config} {s t : ConnSite} {c : TcpConn} {key other : ConnKey}

theorem redisKey_inj (h : key.redisKey config = other.redisKey config) : key = other := by
  have htext := congrArg String.toList h
  cases key <;> cases other <;>
    simp [ConnKey.redisKey, String.toList_inj] at htext ⊢ <;> exact htext

theorem redisKey_ne (h : other ≠ key) : other.redisKey config ≠ key.redisKey config :=
  fun heq => h (redisKey_inj heq)

theorem acquireScript_spec (counters : Store String Int) (now : Int) (key : String) (max : Int)
    {ttl : Int} (httl : 0 < ttl) :
    (acquireScript counters now key max ttl).2 = decide (counters.count now key + 1 ≤ max) ∧
      (acquireScript counters now key max ttl).1.count now key =
        if counters.count now key + 1 ≤ max then counters.count now key + 1
        else counters.count now key := by
  have hcount : ((counters.incrBy now key 1).expire now key ttl).count now key =
      counters.count now key + 1 := by
    rw [Store.count_expire _ _ _ httl, Store.count_incrBy_self]
  simp only [acquireScript, hcount]
  by_cases hmax : counters.count now key + 1 ≤ max
  · rw [if_neg (Int.not_lt.mpr hmax), if_pos hmax]
    exact ⟨(decide_eq_true hmax).symm, hcount⟩
  · rw [if_pos (Int.not_le.mp hmax), if_neg hmax]
    refine ⟨(decide_eq_false hmax).symm, ?_⟩
    rw [Store.count_incrBy_self, hcount]
    omega

theorem acquireScript_other (counters : Store String Int) (now : Int) {key other : String}
    (max : Int) {ttl : Int} (httl : 0 < ttl) (h : other ≠ key) :
    (acquireScript counters now key max ttl).1.count now other = counters.count now other := by
  unfold acquireScript
  simp only
  split <;> simp [Store.count_expire _ _ _ httl, h]

theorem releaseScript_spec (counters : Store String Int) (now : Int) (key : String) {ttl : Int}
    (httl : 0 < ttl) :
    counters.count now key - 1 ≤ (releaseScript counters now key ttl).count now key := by
  have hcount : (counters.incrBy now key (-1)).count now key = counters.count now key - 1 :=
    Store.count_incrBy_self _ _ _ _
  simp only [releaseScript, hcount]
  split
  · rw [Store.count_del_self]
    assumption
  · rw [Store.count_expire _ _ _ httl, hcount]

theorem releaseScript_other (counters : Store String Int) (now : Int) {key other : String}
    {ttl : Int} (httl : 0 < ttl) (h : other ≠ key) :
    (releaseScript counters now key ttl).count now other = counters.count now other := by
  unfold releaseScript
  simp only
  split <;> simp [Store.count_expire _ _ _ httl, h]

/-- A granted slot is counted and within the limit; a refusal does not lower the counter. -/
theorem acquire_spec (s : ConnSite) (hkey : key.blank = false) {reply : ScriptReply}
    (hreply : reply = .done ∨ config.redisFailClosed = true) :
    ((s.acquire config key reply).2 = true → s.counter config key + 1 ≤ key.max config ∧
        s.counter config key + 1 ≤
          { s with counters := (s.acquire config key reply).1 }.counter config key) ∧
      s.counter config key ≤
        { s with counters := (s.acquire config key reply).1 }.counter config key := by
  have httl : (0 : Int) < config.tcpConnTTLSeconds := by
    exact_mod_cast config.positive.2.2.2
  obtain ⟨hgranted, hcount⟩ := acquireScript_spec s.counters s.now (key.redisKey config)
    (key.max config) httl
  have hmono : s.counters.count s.now (key.redisKey config) ≤
      (acquireScript s.counters s.now (key.redisKey config) (key.max config)
        config.tcpConnTTLSeconds).1.count s.now (key.redisKey config) := by
    rw [hcount]
    split <;> omega
  unfold acquire counter
  simp only [hkey, Bool.false_eq_true, if_false]
  cases reply with
  | done =>
    refine ⟨fun htrue => ?_, hmono⟩
    rw [hgranted, decide_eq_true_eq] at htrue
    exact ⟨htrue, by rw [hcount, if_pos htrue]⟩
  | failed ran =>
    have hclosed : config.redisFailClosed = true := hreply.resolve_left nofun
    cases ran with
    | true => exact ⟨fun htrue => by simp [hclosed] at htrue, hmono⟩
    | false => exact ⟨fun htrue => by simp [hclosed] at htrue, Int.le_refl _⟩

theorem acquire_other (s : ConnSite) (h : other ≠ key) (reply : ScriptReply) :
    { s with counters := (s.acquire config key reply).1 }.counter config other =
      s.counter config other := by
  have httl : (0 : Int) < config.tcpConnTTLSeconds := by
    exact_mod_cast config.positive.2.2.2
  have hne : other.redisKey config ≠ key.redisKey config := redisKey_ne h
  have hscript := acquireScript_other s.counters s.now (key.max config) httl hne
  unfold acquire counter
  split
  · rfl
  · cases reply with
    | done => exact hscript
    | failed ran =>
      cases ran with
      | true => exact hscript
      | false => rfl

theorem release_spec (s : ConnSite) (key : ConnKey) (reply : ScriptReply) :
    s.counter config key - 1 ≤
      { s with counters := s.release config key reply }.counter config key := by
  have httl : (0 : Int) < config.tcpConnTTLSeconds := by
    exact_mod_cast config.positive.2.2.2
  unfold release counter
  split
  · exact Int.sub_le_self _ (by decide)
  · exact releaseScript_spec _ _ _ httl

theorem release_other (s : ConnSite) (h : other ≠ key) (reply : ScriptReply) :
    { s with counters := s.release config key reply }.counter config other =
      s.counter config other := by
  have httl : (0 : Int) < config.tcpConnTTLSeconds := by
    exact_mod_cast config.positive.2.2.2
  unfold release counter
  split
  · rfl
  · exact releaseScript_other _ _ httl (redisKey_ne h)

/-- A connection that asks for a slot comes to hold that slot at most, and only if it is granted. -/
theorem holds_of_asks {next : Bool → ConnStage} (hasks : asks c = some (key, next)) {granted : Bool}
    (hother : granted = false ∨ other ≠ key)
    (hholds : TcpConn.holds { c with stage := next granted } other = true) :
    c.holds other = true := by
  obtain ⟨gateway, ip, stage⟩ := c
  cases stage with
  | acquireIp | acquireGlobal | acquireToken tok =>
    simp only [asks, Option.some.injEq, Prod.mk.injEq] at hasks
    obtain ⟨rfl, rfl⟩ := hasks
    cases granted <;> cases other <;>
      simp_all [TcpConn.holds, ConnStage.holdsIp, ConnStage.holdsGlobal, ConnStage.heldToken]
  | _ => cases hasks

/-- A connection that gives a slot back holds it until then, and takes no other. -/
theorem holds_of_returns {next : ConnStage} (hreturns : returns c = some (key, next)) :
    c.holds key = true ∧ TcpConn.holds { c with stage := next } key = false ∧
      ∀ other, other ≠ key → TcpConn.holds { c with stage := next } other = true →
        c.holds other = true := by
  obtain ⟨gateway, ip, stage⟩ := c
  cases stage with
  | refused | releaseToken tok | releaseGlobal | releaseIp =>
    simp only [returns, Option.some.injEq, Prod.mk.injEq] at hreturns
    obtain ⟨rfl, rfl⟩ := hreturns
    refine ⟨?_, ?_, fun other hne hholds => ?_⟩
    · simp [TcpConn.holds, ConnStage.holdsIp, ConnStage.holdsGlobal, ConnStage.heldToken]
    · simp [TcpConn.holds, ConnStage.holdsIp, ConnStage.holdsGlobal, ConnStage.heldToken]
    · cases other <;>
        simp_all [TcpConn.holds, ConnStage.holdsIp, ConnStage.holdsGlobal, ConnStage.heldToken]
  | _ => cases hreturns

/-- Every slot is within its limit and counted. -/
def Inv (config : GatewayConfig) (s : ConnSite) : Prop :=
  ∀ key : ConnKey, key.blank = false →
    Covered TcpConn.holds s.conns key (key.max config) (s.counter config key)

theorem holds_of_opens {key : ConnKey} (hopens : c.opens key = true) : c.holds key = true := by
  obtain ⟨gateway, ip, stage⟩ := c
  cases key <;> cases stage <;>
    simp_all [TcpConn.opens, TcpConn.holds, ConnStage.holdsIp, ConnStage.holdsGlobal,
      ConnStage.heldToken]

theorem Inv.limited (h : Inv config s) : s.Limited config := by
  intro key hkey
  have hle : s.opened key ≤ held TcpConn.holds s.conns key :=
    List.countP_mono_left fun c _ hopens => holds_of_opens hopens
  have hbounded := (h key hkey).bounded
  have hcounted := (h key hkey).counted
  exact ⟨by omega, by omega⟩

theorem inv_ask {i : Nat} {next : Bool → ConnStage} {reply : ScriptReply} (h : Inv config s)
    (hi : s.conns[i]? = some c) (hasks : asks c = some (key, next))
    (hreply : reply = .done ∨ config.redisFailClosed = true) :
    Inv config ({ s with counters := (s.acquire config key reply).1 }.goOn i c
      (next (s.acquire config key reply).2)) := by
  intro other hother
  change Covered TcpConn.holds (s.conns.set i _) other _
    ({ s with counters := (s.acquire config key reply).1 }.counter config other)
  by_cases hne : other = key
  · subst hne
    obtain ⟨htaken, hmono⟩ := s.acquire_spec hother hreply
    cases hgranted : (s.acquire config other reply).2 with
    | true =>
      obtain ⟨hwithin, hcounted⟩ := htaken hgranted
      exact (h other hother).take hi hwithin hcounted
    | false =>
      apply (h other hother).keep hi _ hmono
      exact holds_of_asks hasks (.inl rfl)
  · rw [acquire_other s hne]
    apply (h other hother).keep hi _ (Int.le_refl _)
    exact holds_of_asks hasks (.inr hne)

theorem inv_return {i : Nat} {next : ConnStage} (h : Inv config s)
    (hi : s.conns[i]? = some c) (hreturns : returns c = some (key, next)) (reply : ScriptReply) :
    Inv config ({ s with counters := s.release config key reply }.goOn i c next) := by
  obtain ⟨hheld, hgiven, hrest⟩ := holds_of_returns hreturns
  intro other hother
  change Covered TcpConn.holds (s.conns.set i _) other _
    ({ s with counters := s.release config key reply }.counter config other)
  by_cases hne : other = key
  · subst hne
    exact (h other hother).release hi hheld hgiven (s.release_spec other reply)
  · rw [release_other s hne]
    exact (h other hother).keep hi (hrest other hne) (Int.le_refl _)

/-- A connection goes on without a limiter. -/
theorem inv_goOn {i : Nat} {stage : ConnStage} (h : Inv config s) (hi : s.conns[i]? = some c)
    (hholds : ∀ key, TcpConn.holds { c with stage := stage } key = true → c.holds key = true) :
    Inv config (s.goOn i c stage) :=
  fun key hkey => (h key hkey).keep hi (hholds key) (Int.le_refl _)

theorem mem_keys (hholds : c.holds key = true) : key ∈ [ConnKey.ip c.ip, .global] ++
    (c.stage.heldToken.map ConnKey.token).toList := by
  cases key <;> simp_all [TcpConn.holds]

theorem inv_tick {seconds : Nat} (h : Inv config s)
    (hcond : Keeps config s (.tick seconds)) :
    Inv config { s with now := s.now + seconds } := by
  intro key hkey
  have hcovered := h key hkey
  rcases s.counters.count_later (key.redisKey config) (by omega : s.now ≤ s.now + seconds) with
    ⟨-, hsame⟩ | ⟨hgone, hzero⟩
  · exact ⟨hcovered.bounded, by rw [counter, hsame]; exact hcovered.counted⟩
  · have hnone : held TcpConn.holds s.conns key = 0 := by
      apply List.countP_eq_zero.mpr
      intro c hc hholds
      have hstays := hcond c hc key (mem_keys hholds) hkey hholds
      rw [hgone] at hstays
      cases hstays
    refine ⟨hcovered.bounded, ?_⟩
    rw [counter, hzero]
    exact Int.ofNat_le.mpr (Nat.le_of_eq hnone)

theorem inv_step (s : ConnSite) (a : ConnAction) (t : ConnSite) (h : Inv config s)
    (hcond : Keeps config s a) (hstep : step config s a = some t) : Inv config t := by
  cases a with
  | tick seconds =>
    obtain rfl := Option.some.inj hstep
    exact inv_tick h hcond
  | accept gateway ip =>
    simp only [step] at hstep
    split at hstep
    · cases hstep
    · obtain rfl := Option.some.inj hstep
      intro key hkey
      apply (h key hkey).join
      cases key <;> simp [TcpConn.holds, ConnStage.holdsIp, ConnStage.holdsGlobal,
        ConnStage.heldToken]
  | call i reply =>
    obtain ⟨c, hi, hstep⟩ := Option.bind_eq_some_iff.mp hstep
    cases hasks : asks c with
    | some asked =>
      obtain ⟨key, next⟩ := asked
      simp only [hasks] at hstep
      obtain rfl := Option.some.inj hstep
      exact inv_ask h hi hasks (hcond ⟨c, hi, by rw [hasks]; rfl⟩)
    | none =>
      simp only [hasks] at hstep
      obtain ⟨⟨key, next⟩, hreturns, hstep⟩ := Option.bind_eq_some_iff.mp hstep
      obtain rfl := Option.some.inj hstep
      exact inv_return h hi hreturns reply
  | handle i =>
    obtain ⟨c, hi, hstep⟩ := Option.bind_eq_some_iff.mp hstep
    split at hstep
    · rename_i hready
      obtain rfl := Option.some.inj hstep
      apply inv_goOn h hi
      intro key
      cases key <;> simp [TcpConn.holds, ConnStage.holdsIp, ConnStage.holdsGlobal,
        ConnStage.heldToken, hready.1]
    · cases hstep
  | authenticate i tok =>
    obtain ⟨c, hi, hstep⟩ := Option.bind_eq_some_iff.mp hstep
    split at hstep
    · rename_i hready
      obtain rfl := Option.some.inj hstep
      apply inv_goOn h hi
      intro key
      split <;> cases key <;> simp [TcpConn.holds, ConnStage.holdsIp, ConnStage.holdsGlobal,
        ConnStage.heldToken, hready]
    · cases hstep
  | dial i connected =>
    obtain ⟨c, hi, hstep⟩ := Option.bind_eq_some_iff.mp hstep
    split at hstep
    · rename_i tok hready
      obtain rfl := Option.some.inj hstep
      apply inv_goOn h hi
      intro key
      cases connected <;> cases key <;> simp [TcpConn.holds, ConnStage.holdsIp,
        ConnStage.holdsGlobal, ConnStage.heldToken, hready]
    · cases hstep
  | close i =>
    obtain ⟨c, hi, hstep⟩ := Option.bind_eq_some_iff.mp hstep
    split at hstep
    · rename_i tok hready
      obtain rfl := Option.some.inj hstep
      apply inv_goOn h hi
      intro key
      cases key <;> simp [TcpConn.holds, ConnStage.holdsIp, ConnStage.holdsGlobal,
        ConnStage.heldToken, hready]
    · cases hstep

end Proof

end ConnSite

open ConnSite

/-- From a state without connections, along any steps that keep, no limit is exceeded and no
counter is behind. -/
theorem connections_limited (config : GatewayConfig) {start s : ConnSite}
    (hidle : start.conns = []) (hcounters : ∀ key, 0 ≤ start.counter config key)
    (h : Reach (step config) (Keeps config) start s) : s.Limited config := by
  apply Inv.limited
  apply h.invariant (Inv config)
  · intro key _
    rw [hidle]
    exact covered_nil (hcounters key)
  · exact inv_step

/-- One connection for each token. -/
def onePerToken : GatewayConfig where
  tcpMaxConns := 4000
  tcpMaxConnsPerIP := 1000
  tcpMaxConnsPerToken := 1
  tcpConnTTLSeconds := 300
  redisKeyPrefix := "fctf:gateway"
  redisFailClosed := false
  positive := by decide

def quiet : ConnSite := ⟨0, .empty, []⟩

theorem quiet_counters (config : GatewayConfig) (key : ConnKey) : 0 ≤ quiet.counter config key :=
  Int.le_refl 0

/-- Connection `i` gets as far as a token's slot allows. -/
def connect (i : Nat) : List ConnAction :=
  [.accept 0 "10.0.0.7", .call i .done, .call i .done, .handle i, .authenticate i (some "t"),
    .call i .done]

theorem connections_limited_two :
    ∃ s, Reach (step onePerToken) (Keeps onePerToken) quiet s ∧
      s.conns.map TcpConn.stage = [.proxying "t", .releaseGlobal] ∧ s.Limited onePerToken := by
  obtain ⟨s, hreach, hstages⟩ := exists_reach_of_exec (step onePerToken) (Keeps onePerToken) quiet
    (connect 0 ++ [.dial 0 true, .tick 299] ++ connect 1)
    (p := fun s => s.conns.map TcpConn.stage = [.proxying "t", .releaseGlobal])
    (by decide) (by decide)
  exact ⟨s, hreach, of_decide_eq_true hstages,
    connections_limited onePerToken rfl (quiet_counters onePerToken) hreach⟩

/-- The counter of the token expires under its connection, and another one is let in. -/
theorem limit_exceeded :
    ¬ ∀ (config : GatewayConfig) (start : ConnSite), start.conns = [] →
      (∀ key, 0 ≤ start.counter config key) →
        ∀ s, Reach (step config) always start s → s.Limited config := by
  intro hlimited
  obtain ⟨s, hreach, hopened⟩ := exists_reach_of_exec (step onePerToken) always quiet
    (connect 0 ++ [.dial 0 true, .tick 300] ++ connect 1 ++ [.dial 1 true])
    (p := fun s => s.opened (.token "t") = 2) (meets_always _ _ _) (by decide)
  have hlimit := (hlimited onePerToken quiet rfl (quiet_counters onePerToken) s hreach
    (.token "t") rfl).1
  rw [of_decide_eq_true hopened] at hlimit
  exact absurd hlimit (by decide)

end Fctf
