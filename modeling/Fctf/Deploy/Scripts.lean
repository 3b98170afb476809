import Fctf.Deploy.Data
import Fctf.Lib.Expiring
import Fctf.Lib.SortedSet

/-!
The Redis scripts of `RedisHelper` and the access script of the gateway, each
one atomic step on the Redis state. The services and Redis read the same clock.

Redis drops a sorted set that became empty. Here it stays as an empty set: every
script that adds a member also gives the set a new expiry, so no reader can tell
the two apart.
-/

namespace Fctf

open Expiring

/-- The part of Redis that the deployment services use. -/
structure Redis where
  now : Int
  caches : Store String ChallengeDeploymentCacheDTO
  zsets : Store String (SortedSet Nat)
  revoked : Store String Unit

namespace Redis

def empty (now : Int) : Redis := ⟨now, .empty, .empty, .empty⟩

/-- The clock moves on by `seconds`; keys past their expiry are gone from then on. -/
def tick (r : Redis) (seconds : Nat) : Redis := { r with now := r.now + seconds }

def cache (r : Redis) (deploymentKey : String) : Option ChallengeDeploymentCacheDTO :=
  r.caches.get r.now deploymentKey

/-- A missing key reads as the empty set. -/
def zset (r : Redis) (zsetKey : String) : SortedSet Nat := (r.zsets.get r.now zsetKey).getD ∅

def zscore (r : Redis) (zsetKey : String) (uniqueId : Nat) : Option Int :=
  SortedSet.score (r.zset zsetKey) uniqueId

/-- `EXISTS` on the tombstone of a route. -/
def isRevoked (r : Redis) (route : String) : Bool :=
  r.revoked.contains r.now (revokedKey route)

/-- `AtomicCheckAndCreateDeploymentZSet`. `SETEX` refuses a TTL that is not
positive; the script then ends with an error, which is the answer `none`. -/
def atomicCheckAndCreateDeploymentZSet (r : Redis) (teamId : Int) (challengeId maxLimit : Nat)
    (deploymentValue : ChallengeDeploymentCacheDTO) (provisioningTtl : Int) :
    Redis × Option DeploymentCheckResult :=
  let zsetKey := getZSetKKey teamId
  let deploymentKey := getCacheKey challengeId teamId
  let tempScore := r.now + provisioningTtl
  -- A. ZREMRANGEBYSCORE keeps the expiry of the set
  let r := { r with
    zsets := r.zsets.modify r.now zsetKey fun z => SortedSet.removeUpTo z r.now }
  -- B. idempotency
  if (r.zscore zsetKey challengeId).isSome then (r, some .AlreadyExists)
  -- C. limit
  else if maxLimit ≤ SortedSet.card (r.zset zsetKey) then (r, some .LimitExceeded)
  -- D. reservation
  else if provisioningTtl ≤ 0 then (r, none)
  else
    ({ r with
        caches := r.caches.setEx r.now deploymentKey provisioningTtl deploymentValue
        zsets := r.zsets.setEx r.now zsetKey 1800
          (SortedSet.add (r.zset zsetKey) tempScore challengeId) },
      some .Pass)

/-- The guard at the head of `AtomicUpdateExpiration`: a late Ready event is turned away. -/
def lateReady (r : Redis) (deploymentKey : String) (incoming : ChallengeDeploymentCacheDTO) :
    Bool :=
  incoming.status == .RUNING &&
    match r.cache deploymentKey with
    | none => true
    | some current =>
      current.status == .DELETING || current.status == .STOPPED ||
        (incoming._namespace != "" &&
          (r.isRevoked incoming._namespace ||
            (current._namespace != "" && current._namespace != incoming._namespace)))

/-- `AtomicUpdateExpiration`. The score is computed by the caller, before the
script runs. As above, `SETEX` refuses a TTL that is not positive: the caller
sees an exception and answers false, with the score already written. -/
def atomicUpdateExpiration (r : Redis) (teamId : Int) (challengeId : Nat)
    (realTtl realExpiryScore : Int) (deploymentValue : Option ChallengeDeploymentCacheDTO) :
    Redis × Bool :=
  let zsetKey := getZSetKKey teamId
  let deploymentKey := getCacheKey challengeId teamId
  if deploymentValue.any (r.lateReady deploymentKey) then (r, false)
  -- previews have no reservation
  else if teamId ≤ 0 then
    match deploymentValue with
    | some value =>
      if realTtl ≤ 0 then (r, false)
      else ({ r with caches := r.caches.setEx r.now deploymentKey realTtl value }, true)
    | none => ({ r with caches := r.caches.expire r.now deploymentKey realTtl }, true)
  else
    match r.zscore zsetKey challengeId with
    | none => (r, false)
    | some _ =>
      let scored := SortedSet.add (r.zset zsetKey) realExpiryScore challengeId
      match deploymentValue with
      | some value =>
        if realTtl ≤ 0 then
          ({ r with zsets := r.zsets.modify r.now zsetKey fun _ => scored }, false)
        else
          ({ r with
              caches := r.caches.setEx r.now deploymentKey realTtl value
              zsets := r.zsets.setEx r.now zsetKey (realTtl + 3600) scored }, true)
      | none =>
        ({ r with
            caches := r.caches.expire r.now deploymentKey realTtl
            zsets := r.zsets.setEx r.now zsetKey (realTtl + 3600) scored }, true)

/-- The tests that an update has to pass: the guard and, for a real team, the
check that the challenge is still in the team's set. -/
def accepts (r : Redis) (teamId : Int) (challengeId : Nat) (value : ChallengeDeploymentCacheDTO) :
    Bool :=
  !r.lateReady (getCacheKey challengeId teamId) value &&
    (teamId ≤ 0 || (r.zscore (getZSetKKey teamId) challengeId).isSome)

/-- `AtomicRemoveDeploymentZSet`. -/
def atomicRemoveDeploymentZSet (r : Redis) (teamId : Int) (challengeId : Nat) : Redis :=
  { r with
    caches := r.caches.del (getCacheKey challengeId teamId)
    zsets := r.zsets.modify r.now (getZSetKKey teamId) fun z => SortedSet.remove z challengeId }

/-- `RemoveCacheAsync`. -/
def removeCache (r : Redis) (key : String) : Redis := { r with caches := r.caches.del key }

/-- The lifetime that `RevokeGatewayRouteAsync` gives a tombstone. -/
def tombstoneTtl (r : Redis) (expiresAt : Int) : Int := max 86400 (expiresAt - r.now + 3600)

/-- `RevokeGatewayRouteAsync`. -/
def revokeGatewayRoute (r : Redis) (route : String) (expiresAt : Int) : Redis :=
  if isNullOrWhiteSpace route then r
  else { r with
    revoked := r.revoked.setEx r.now (revokedKey route) (r.tombstoneTtl expiresAt) () }

/-- The gateway's `accessScript`. -/
def accessScript (r : Redis) (deploymentKey route : String) (tok : Token) : Bool :=
  if r.isRevoked route then false
  else
    match r.cache deploymentKey with
    | none => false
    | some session =>
      if session.status ≠ .RUNING ∨ session.ready ≠ true then false
      else if session._namespace ≠ route ∨ session.challenge_url ≠ some tok then false
      else true

/-- The gateway's `Check`: true when access is granted. -/
def check (r : Redis) (tok : Token) (p : Payload) : Bool :=
  if p.deployment_key = "" ∨ hasPrefix p.deployment_key "deploy_challenge_" = false ∨ p.exp ≤ r.now
  then false
  else r.accessScript p.deployment_key p.route tok

section Spec

variable {r : Redis} {teamId : Int} {challengeId maxLimit : Nat} {ttl score : Int}
  {value : ChallengeDeploymentCacheDTO}

theorem zset_modify {zsetKey : String} {f : SortedSet Nat → SortedSet Nat} (hempty : f ∅ = ∅) :
    ({ r with zsets := r.zsets.modify r.now zsetKey f } : Redis).zset zsetKey =
      f (r.zset zsetKey) := by
  simp only [zset, Store.get, Store.find_modify_self, Option.map_map]
  cases r.zsets.find r.now zsetKey with
  | none => simp [hempty]
  | some c => rfl

theorem zset_setEx {old : Store String (SortedSet Nat)} {zsetKey : String} {z : SortedSet Nat}
    {life : Int} (hlife : 0 < life) (hz : r.zsets = old.setEx r.now zsetKey life z) :
    r.zset zsetKey = z := by
  have hlive : r.now < r.now + life := by omega
  simp [zset, Store.get, hz, Store.find_setEx_self, hlive]

/-- What a reservation attempt can do. `z` is the team's set after the purge. -/
theorem create_cases {r' : Redis} {res : Option DeploymentCheckResult}
    (h : r.atomicCheckAndCreateDeploymentZSet teamId challengeId maxLimit value ttl = (r', res)) :
    let z := SortedSet.removeUpTo (r.zset (getZSetKKey teamId)) r.now
    r'.now = r.now ∧ r'.revoked = r.revoked ∧
      ((res ≠ some .Pass ∧ r'.caches = r.caches ∧ r'.zset (getZSetKKey teamId) = z) ∨
        (res = some .Pass ∧ 0 < ttl ∧ SortedSet.score z challengeId = none ∧
          SortedSet.card z < maxLimit ∧
          r'.caches = r.caches.setEx r.now (getCacheKey challengeId teamId) ttl value ∧
          r'.zset (getZSetKKey teamId) = SortedSet.add z (r.now + ttl) challengeId)) := by
  intro z
  have hpurge : ({ r with
      zsets := r.zsets.modify r.now (getZSetKKey teamId) fun z => SortedSet.removeUpTo z r.now } :
      Redis).zset (getZSetKKey teamId) = z := zset_modify rfl
  simp only [atomicCheckAndCreateDeploymentZSet, zscore, hpurge] at h
  split at h
  · obtain ⟨rfl, rfl⟩ := Prod.mk.injEq .. ▸ h
    exact ⟨rfl, rfl, .inl ⟨by simp, rfl, hpurge⟩⟩
  rename_i hfree
  split at h
  · obtain ⟨rfl, rfl⟩ := Prod.mk.injEq .. ▸ h
    exact ⟨rfl, rfl, .inl ⟨by simp, rfl, hpurge⟩⟩
  rename_i hroom
  split at h
  · obtain ⟨rfl, rfl⟩ := Prod.mk.injEq .. ▸ h
    exact ⟨rfl, rfl, .inl ⟨by simp, rfl, hpurge⟩⟩
  rename_i httl
  obtain ⟨rfl, rfl⟩ := Prod.mk.injEq .. ▸ h
  refine ⟨rfl, rfl, .inr ⟨rfl, by omega, by simpa using hfree, by omega, rfl, ?_⟩⟩
  exact zset_setEx (by decide : (0 : Int) < 1800) rfl

/-- What an update can do when its TTL is positive: it changes nothing and
answers false, or it passes the guard and writes the cache and, for a real team,
the score of a reservation that is still there. -/
theorem update_cases {r' : Redis} {value : Option ChallengeDeploymentCacheDTO} {ok : Bool}
    (httl : 0 < ttl)
    (h : r.atomicUpdateExpiration teamId challengeId ttl score value = (r', ok)) :
    (ok = false ∧ r' = r) ∨
      (ok = true ∧ value.any (r.lateReady (getCacheKey challengeId teamId)) = false ∧
        r'.now = r.now ∧ r'.revoked = r.revoked ∧
        r'.caches = (match value with
          | some v => r.caches.setEx r.now (getCacheKey challengeId teamId) ttl v
          | none => r.caches.expire r.now (getCacheKey challengeId teamId) ttl) ∧
        ((teamId ≤ 0 ∧ r'.zsets = r.zsets) ∨
          (0 < teamId ∧ ∃ old, r.zscore (getZSetKKey teamId) challengeId = some old ∧
            r'.zset (getZSetKKey teamId) =
              SortedSet.add (r.zset (getZSetKKey teamId)) score challengeId))) := by
  have hpos : ¬ ttl ≤ 0 := by omega
  have hlife : 0 < ttl + 3600 := by omega
  simp only [atomicUpdateExpiration, hpos, if_false] at h
  split at h
  · obtain ⟨rfl, rfl⟩ := Prod.mk.injEq .. ▸ h
    exact .inl ⟨rfl, rfl⟩
  rename_i hguard
  have hguard' := Bool.eq_false_iff.mpr hguard
  split at h
  · rename_i hteam
    cases value <;> obtain ⟨rfl, rfl⟩ := Prod.mk.injEq .. ▸ h
    all_goals exact .inr ⟨rfl, hguard', rfl, rfl, rfl, .inl ⟨hteam, rfl⟩⟩
  rename_i hteam
  split at h
  · obtain ⟨rfl, rfl⟩ := Prod.mk.injEq .. ▸ h
    exact .inl ⟨rfl, rfl⟩
  rename_i old hold
  cases value <;> obtain ⟨rfl, rfl⟩ := Prod.mk.injEq .. ▸ h
  all_goals
    exact .inr ⟨rfl, hguard', rfl, rfl, rfl, .inr ⟨by omega, old, hold, zset_setEx hlife rfl⟩⟩

theorem zset_remove : (r.atomicRemoveDeploymentZSet teamId challengeId).zset (getZSetKKey teamId) =
    SortedSet.remove (r.zset (getZSetKKey teamId)) challengeId :=
  zset_modify rfl

theorem zset_tick_of_live {zsetKey : String} {seconds : Nat} {c : Cell (SortedSet Nat)}
    (h : r.zsets.find (r.now + seconds) zsetKey = some c) :
    (r.tick seconds).zset zsetKey = r.zset zsetKey := by
  have hbefore := Store.find_earlier h (show r.now ≤ r.now + seconds by omega)
  simp [zset, tick, Store.get, h, hbefore]

end Spec

section Cache

variable {r r' : Redis} {teamId : Int} {challengeId maxLimit : Nat} {ttl score : Int}
  {value e : ChallengeDeploymentCacheDTO} {key : String}

@[simp] theorem cache_empty (now : Int) (key : String) : (empty now).cache key = none := rfl

theorem cache_of_tick {seconds : Nat} (h : (r.tick seconds).cache key = some e) :
    r.cache key = some e :=
  Store.get_earlier h (show r.now ≤ r.now + seconds by omega)

theorem cache_setEx (httl : 0 < ttl) (hnow : r'.now = r.now)
    (hcaches : r'.caches = r.caches.setEx r.now key ttl value) : r'.cache key = some value := by
  have hlive : r.now < r.now + ttl := by omega
  simp [cache, Store.get, hnow, hcaches, Store.find_setEx_self, hlive]

theorem cache_setEx_ne {key' : String} (hne : key' ≠ key) (hnow : r'.now = r.now)
    (hcaches : r'.caches = r.caches.setEx r.now key ttl value) :
    r'.cache key' = r.cache key' := by
  simp [cache, Store.get, hnow, hcaches, hne]

@[simp] theorem cache_removeCache : (r.removeCache key).cache key = none := by
  simp [cache, removeCache, Store.get]

@[simp] theorem cache_remove :
    (r.atomicRemoveDeploymentZSet teamId challengeId).cache (getCacheKey challengeId teamId) =
      none := by
  simp [cache, atomicRemoveDeploymentZSet, Store.get]

/-- The cache entry after a reservation attempt. -/
theorem cache_create {res : Option DeploymentCheckResult}
    (h : r.atomicCheckAndCreateDeploymentZSet teamId challengeId maxLimit value ttl = (r', res)) :
    (res ≠ some .Pass ∧ r'.cache (getCacheKey challengeId teamId) =
        r.cache (getCacheKey challengeId teamId)) ∨
      (res = some .Pass ∧ r'.cache (getCacheKey challengeId teamId) = some value) := by
  obtain ⟨hnow, -, ⟨hres, hcaches, -⟩ | ⟨hres, httl, -, -, hcaches, -⟩⟩ := create_cases h
  · exact .inl ⟨hres, by simp only [cache, hnow, hcaches]⟩
  · exact .inr ⟨hres, cache_setEx httl hnow hcaches⟩

theorem accepts_eq_true : r.accepts teamId challengeId value = true ↔
    r.lateReady (getCacheKey challengeId teamId) value = false ∧
      (teamId ≤ 0 ∨ ∃ old, r.zscore (getZSetKKey teamId) challengeId = some old) := by
  simp [accepts, Option.isSome_iff_exists]

/-- An update that answers true has passed the tests and written its entry; one
that answers false has changed nothing. -/
theorem cache_update {ok : Bool} (httl : 0 < ttl)
    (h : r.atomicUpdateExpiration teamId challengeId ttl score (some value) = (r', ok)) :
    (ok = false ∧ r' = r) ∨
      (ok = true ∧ r.accepts teamId challengeId value = true ∧ r'.now = r.now ∧
        r'.revoked = r.revoked ∧
        r'.caches = r.caches.setEx r.now (getCacheKey challengeId teamId) ttl value) := by
  obtain ⟨hok, hsame⟩ | ⟨hok, hguard, hnow, hrevoked, hcaches, hteam⟩ := update_cases httl h
  · exact .inl ⟨hok, hsame⟩
  · refine .inr ⟨hok, accepts_eq_true.mpr ⟨by simpa using hguard, ?_⟩, hnow, hrevoked, hcaches⟩
    exact hteam.imp And.left fun ⟨_, old, hold, _⟩ => ⟨old, hold⟩

/-- The tests are all that an update with a positive TTL has to pass. -/
theorem update_of_accepts (score : Int) (httl : 0 < ttl)
    (h : r.accepts teamId challengeId value = true) :
    (r.atomicUpdateExpiration teamId challengeId ttl score (some value)).2 = true := by
  obtain ⟨hguard, hteam⟩ := accepts_eq_true.mp h
  have hpos : ¬ ttl ≤ 0 := by omega
  simp only [atomicUpdateExpiration, Option.any_some, hguard, Bool.false_eq_true, if_false, hpos]
  split
  · rfl
  · rename_i hreal
    obtain ⟨old, hold⟩ := hteam.resolve_left hreal
    simp [hold]

end Cache

end Redis

end Fctf
