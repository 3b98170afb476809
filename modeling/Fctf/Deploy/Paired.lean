import Fctf.Deploy.Scripts
import Fctf.Lib.Run

/-!
The slots of the teams and the cache entries of their deployments, for every team and every
challenge at once. The scripts write both together; the management platform and the programs that
give up a start delete the cache entries alone.
-/

namespace Fctf

open Expiring Run

namespace Redis

variable (r : Redis)

/-- `delete_cached_files`: the keys that match `deploy_challenge_<id>_*`. -/
def deleteCachedFiles (challengeId : Nat) : Redis :=
  { r with caches := r.caches.delWhere fun key =>
      hasPrefix key ("deploy_challenge_" ++ Nat.repr challengeId ++ "_") }

end Redis

/-- The calls that reach the slots and the cache entries, and the clock. -/
inductive PairOp
  | tick (seconds : Nat)
  | start (teamId : Int) (challengeId maxLimit : Nat) (value : ChallengeDeploymentCacheDTO)
  /-- By the worker, the listener, the status check and `Stop`; none asks for less than a
  second. -/
  | update (teamId : Int) (challengeId : Nat) (realTtlSeconds : Int)
      (value : Option ChallengeDeploymentCacheDTO)
  | release (teamId : Int) (challengeId : Nat)
  /-- `RemoveCacheAsync`, when a start is given up or a pod is stuck. -/
  | removeCache (teamId : Int) (challengeId : Nat)
  /-- The upload of a deploy file. -/
  | uploadFile (challengeId : Nat)
  | deleteChallenge (challengeId : Nat) (requireDeploy : Bool)

namespace Redis

variable (r : Redis)

def pairStep : PairOp → Option Redis
  | .tick seconds => some (r.tick seconds)
  | .start teamId challengeId maxLimit value =>
    some (r.atomicCheckAndCreateDeploymentZSet teamId challengeId maxLimit value 300).1
  | .update teamId challengeId ttl value =>
    if ttl < 1 then none
    else some (r.atomicUpdateExpiration teamId challengeId ttl (r.now + ttl) value).1
  | .release teamId challengeId => some (r.atomicRemoveDeploymentZSet teamId challengeId)
  | .removeCache teamId challengeId => some (r.removeCache (getCacheKey challengeId teamId))
  | .uploadFile challengeId => some (r.deleteCachedFiles challengeId)
  | .deleteChallenge challengeId requireDeploy =>
    some (if requireDeploy then r.deleteCachedFiles challengeId else r)

/-- The score of a member that is still in the future. -/
def liveSlot (teamId : Int) (challengeId : Nat) : Option Int :=
  (r.zscore (getZSetKKey teamId) challengeId).filter fun score => decide (r.now < score)

/-- The cache entry of a deployment, with its deadline. -/
def session (teamId : Int) (challengeId : Nat) : Option (Cell ChallengeDeploymentCacheDTO) :=
  r.caches.find r.now (getCacheKey challengeId teamId)

/-- A real team has a slot for a challenge if and only if the cache entry is there. -/
def Paired : Prop :=
  ∀ teamId challengeId, 0 < teamId →
    ((r.liveSlot teamId challengeId).isSome = true ↔
      (r.cache (getCacheKey challengeId teamId)).isSome = true)

/-- A slot and a cache entry that are both there end together. -/
def Aligned : Prop :=
  ∀ teamId challengeId, 0 < teamId → ∀ score ∈ r.liveSlot teamId challengeId,
    ∀ c ∈ r.session teamId challengeId, c.deadline = some score

/-! ### Conditions -/

/-- No real team has a cache entry for the challenge. -/
def NoSession (challengeId : Nat) : Prop :=
  ∀ teamId, 0 < teamId → r.cache (getCacheKey challengeId teamId) = none

/-- What a call has to meet. The set of a team does not expire under a slot, an update that brings
no entry finds a slot, and an entry that is deleted alone is not one of a real team. -/
def KeepsPairs : PairOp → Prop
  | .tick seconds =>
    ∀ teamId challengeId, 0 < teamId → ∀ score ∈ r.liveSlot teamId challengeId,
      r.now + seconds < score →
        (r.zsets.find (r.now + seconds) (getZSetKKey teamId)).isSome = true
  | .update teamId challengeId ttl value =>
    1 ≤ ttl → 0 < teamId → value = none →
      (r.zscore (getZSetKKey teamId) challengeId).isSome = true →
        (r.liveSlot teamId challengeId).isSome = true
  | .removeCache teamId challengeId =>
    0 < teamId → r.cache (getCacheKey challengeId teamId) = none
  | .uploadFile challengeId => r.NoSession challengeId
  | .deleteChallenge challengeId requireDeploy => requireDeploy = true → r.NoSession challengeId
  | .start _ _ _ _ | .release _ _ => True

/-! ### One deployment -/

section Views

variable {r} {r' : Redis} {teamId : Int} {challengeId : Nat}

/-- The slot and the entry of a deployment are the same. -/
def Same (r r' : Redis) (teamId : Int) (challengeId : Nat) : Prop :=
  r'.liveSlot teamId challengeId = r.liveSlot teamId challengeId ∧
    r'.session teamId challengeId = r.session teamId challengeId

theorem isSome_cache (teamId : Int) (challengeId : Nat) :
    (r.cache (getCacheKey challengeId teamId)).isSome =
      (r.session teamId challengeId).isSome := by
  simp [cache, Store.get, session]

theorem cache_eq_none_iff (teamId : Int) (challengeId : Nat) :
    r.cache (getCacheKey challengeId teamId) = none ↔ r.session teamId challengeId = none := by
  simp [cache, Store.get, session]

/-- A call that reaches one deployment. -/
theorem paired_iff_of_others (h : r.Paired)
    (hothers : ∀ t c, 0 < t → ¬ (t = teamId ∧ c = challengeId) → Same r r' t c) :
    r'.Paired ↔ (0 < teamId → ((r'.liveSlot teamId challengeId).isSome = true ↔
      (r'.session teamId challengeId).isSome = true)) := by
  simp only [Paired, isSome_cache] at h ⊢
  constructor
  · exact fun h' => h' teamId challengeId
  · intro hself t c ht
    by_cases hsame : t = teamId ∧ c = challengeId
    · obtain ⟨rfl, rfl⟩ := hsame
      exact hself ht
    · obtain ⟨hslot, hsession⟩ := hothers t c ht hsame
      rw [hslot, hsession]
      exact h t c ht

theorem aligned_of_others (h : r.Aligned)
    (hothers : ∀ t c, 0 < t → ¬ (t = teamId ∧ c = challengeId) → Same r r' t c)
    (hself : ∀ score ∈ r'.liveSlot teamId challengeId, ∀ cell ∈ r'.session teamId challengeId,
      cell.deadline = some score) : r'.Aligned := by
  intro t c ht
  by_cases hsame : t = teamId ∧ c = challengeId
  · obtain ⟨rfl, rfl⟩ := hsame
    exact hself
  · obtain ⟨hslot, hsession⟩ := hothers t c ht hsame
    rw [hslot, hsession]
    exact h t c ht

/-- A call that changes no deployment of a real team. -/
theorem paired_of_same (h : r.Paired) (hsame : ∀ t c, 0 < t → Same r r' t c) : r'.Paired := by
  simp only [Paired, isSome_cache] at h ⊢
  intro t c ht
  rw [(hsame t c ht).1, (hsame t c ht).2]
  exact h t c ht

theorem aligned_of_same (h : r.Aligned) (hsame : ∀ t c, 0 < t → Same r r' t c) : r'.Aligned := by
  intro t c ht
  rw [(hsame t c ht).1, (hsame t c ht).2]
  exact h t c ht

theorem liveSlot_congr (hnow : r'.now = r.now)
    (hzset : r'.zset (getZSetKKey teamId) = r.zset (getZSetKKey teamId)) :
    r'.liveSlot teamId challengeId = r.liveSlot teamId challengeId := by
  simp only [liveSlot, zscore, hzset, hnow]

theorem zset_congr {zsetKey : String} (hnow : r'.now = r.now)
    (hfind : r'.zsets.find r.now zsetKey = r.zsets.find r.now zsetKey) :
    r'.zset zsetKey = r.zset zsetKey := by
  simp only [zset, Store.get, hnow, hfind]

end Views

/-! ### One call -/

section Calls

variable {r} {teamId : Int} {challengeId maxLimit : Nat} {ttl score : Int}
  {value : ChallengeDeploymentCacheDTO}

/-- Other deployments of the team, when the set is purged and a member gets a score. -/
theorem score_purged (z : SortedSet Nat) (now : Int) (c : Nat) :
    ((SortedSet.score (SortedSet.removeUpTo z now) c).filter fun score => decide (now < score)) =
      (SortedSet.score z c).filter fun score => decide (now < score) := by
  rw [SortedSet.score_removeUpTo, Option.filter_filter]
  simp

theorem session_setEx_ne {r' : Redis} {t : Int} {c : Nat} {life : Int}
    (hne : ¬ (t = teamId ∧ c = challengeId)) (hnow : r'.now = r.now)
    (hcaches : r'.caches = r.caches.setEx r.now (getCacheKey challengeId teamId) life value) :
    r'.session t c = r.session t c := by
  have hkey : getCacheKey c t ≠ getCacheKey challengeId teamId := by
    rw [Ne, getCacheKey_eq]
    exact fun h => hne h.symm
  simp only [session, hnow, hcaches]
  exact Store.find_setEx_ne _ _ _ _ _ hkey

theorem zset_start_ne {zsetKey : String} (hne : zsetKey ≠ getZSetKKey teamId) :
    (r.atomicCheckAndCreateDeploymentZSet teamId challengeId maxLimit value ttl).1.zset zsetKey =
      r.zset zsetKey := by
  simp only [atomicCheckAndCreateDeploymentZSet]
  split
  · exact zset_congr rfl (by simp [hne])
  · split
    · exact zset_congr rfl (by simp [hne])
    · split
      · exact zset_congr rfl (by simp [hne])
      · exact zset_congr rfl (by simp [hne])

/-- A start changes no deployment, or it gives one a slot and an entry that end together. -/
theorem start_cases (r : Redis) (teamId : Int) (challengeId maxLimit : Nat)
    (value : ChallengeDeploymentCacheDTO) :
    let r' := (r.atomicCheckAndCreateDeploymentZSet teamId challengeId maxLimit value 300).1
    (∀ t c, ¬ (t = teamId ∧ c = challengeId) → Same r r' t c) ∧
      (Same r r' teamId challengeId ∨
        (r'.liveSlot teamId challengeId = some (r.now + 300) ∧
          r'.session teamId challengeId = some ⟨value, some (r.now + 300)⟩)) := by
  intro r'
  have hcall : r.atomicCheckAndCreateDeploymentZSet teamId challengeId maxLimit value 300 =
      (r', (r.atomicCheckAndCreateDeploymentZSet teamId challengeId maxLimit value 300).2) := rfl
  have hother : ∀ t c, t ≠ teamId → r'.liveSlot t c = r.liveSlot t c := by
    intro t c hne
    refine liveSlot_congr (create_cases hcall).1 (zset_start_ne ?_)
    simpa using hne
  obtain ⟨hnow, -, ⟨-, hcaches, hzset⟩ | ⟨-, -, -, -, hcaches, hzset⟩⟩ := create_cases hcall
  · have hsame : ∀ t c, Same r r' t c := by
      intro t c
      constructor
      · by_cases ht : t = teamId
        · subst ht
          rw [liveSlot, liveSlot, zscore, zscore, hzset, hnow]
          exact score_purged _ _ _
        · exact hother t c ht
      · simp only [session, hnow, hcaches]
    exact ⟨fun t c _ => hsame t c, Or.inl (hsame _ _)⟩
  · have hlive : r.now < r.now + 300 := by omega
    refine ⟨fun t c hne => ⟨?_, session_setEx_ne hne hnow hcaches⟩, Or.inr ⟨?_, ?_⟩⟩
    · by_cases ht : t = teamId
      · subst ht
        have hc : c ≠ challengeId := fun hc => hne ⟨rfl, hc⟩
        rw [liveSlot, liveSlot, zscore, zscore, hzset, hnow, SortedSet.score_add_ne _ _ hc]
        exact score_purged _ _ _
      · exact hother t c ht
    · rw [liveSlot, zscore, hzset, hnow, SortedSet.score_add_self]
      simp [hlive]
    · simp [session, hnow, hcaches, Store.find_setEx_self, hlive]

theorem zset_update_ne {zsetKey : String} {value : Option ChallengeDeploymentCacheDTO}
    (hne : zsetKey ≠ getZSetKKey teamId) :
    (r.atomicUpdateExpiration teamId challengeId ttl score value).1.zset zsetKey =
      r.zset zsetKey := by
  simp only [atomicUpdateExpiration]
  split
  · rfl
  · split
    · split
      · split <;> rfl
      · rfl
    · split
      · rfl
      · split
        · split
          · exact zset_congr rfl (by simp [hne])
          · exact zset_congr rfl (by simp [hne])
        · exact zset_congr rfl (by simp [hne])

/-- An entry with the deadline that an update gives it. -/
def extended (deadline : Int) (value : Option ChallengeDeploymentCacheDTO)
    (c : Option (Cell ChallengeDeploymentCacheDTO)) : Option (Cell ChallengeDeploymentCacheDTO) :=
  match value with
  | some v => some ⟨v, some deadline⟩
  | none => c.map fun c => ⟨c.value, some deadline⟩

/-- An update changes no deployment of a real team, or it gives one that is in the team's set a
slot, and an entry that ends with it. -/
theorem update_pair_cases (r : Redis) (teamId : Int) (challengeId : Nat) {ttl : Int}
    (httl : 0 < ttl) (value : Option ChallengeDeploymentCacheDTO) :
    let r' := (r.atomicUpdateExpiration teamId challengeId ttl (r.now + ttl) value).1
    (∀ t c, 0 < t → ¬ (t = teamId ∧ c = challengeId) → Same r r' t c) ∧
      ((0 < teamId → Same r r' teamId challengeId) ∨
        (r.zscore (getZSetKKey teamId) challengeId).isSome = true ∧
        (r'.liveSlot teamId challengeId = some (r.now + ttl) ∧
          r'.session teamId challengeId =
            extended (r.now + ttl) value (r.session teamId challengeId))) := by
  intro r'
  have hlive : r.now < r.now + ttl := by omega
  have hcall : r.atomicUpdateExpiration teamId challengeId ttl (r.now + ttl) value =
      (r', (r.atomicUpdateExpiration teamId challengeId ttl (r.now + ttl) value).2) := rfl
  obtain ⟨-, hsame⟩ | ⟨-, -, hnow, -, hcaches, hzset⟩ := update_cases httl hcall
  · rw [hsame]
    exact ⟨fun _ _ _ _ => ⟨rfl, rfl⟩, Or.inl fun _ => ⟨rfl, rfl⟩⟩
  · have hslot : ∀ t c, t ≠ teamId → r'.liveSlot t c = r.liveSlot t c := by
      intro t c hne
      refine liveSlot_congr hnow (zset_update_ne ?_)
      simpa using hne
    have hsession : ∀ t c, ¬ (t = teamId ∧ c = challengeId) → r'.session t c = r.session t c := by
      intro t c hne
      have hkey : getCacheKey c t ≠ getCacheKey challengeId teamId := by
        rw [Ne, getCacheKey_eq]
        exact fun h => hne h.symm
      simp only [session, hnow, hcaches]
      cases value with
      | some v => exact Store.find_setEx_ne _ _ _ _ _ hkey
      | none => exact Store.find_expire_ne _ _ _ _ hkey
    rcases hzset with ⟨hteam, hzsets⟩ | ⟨hteam, old, hold, hzset⟩
    · refine ⟨fun t c ht hne => ⟨hslot t c ?_, hsession t c hne⟩, Or.inl fun hreal => ?_⟩
      · omega
      · omega
    · refine ⟨fun t c ht hne => ⟨?_, hsession t c hne⟩, Or.inr ⟨by simp [hold], ?_, ?_⟩⟩
      · by_cases htc : t = teamId
        · subst htc
          have hc : c ≠ challengeId := fun hc => hne ⟨rfl, hc⟩
          rw [liveSlot, liveSlot, zscore, zscore, hzset, hnow, SortedSet.score_add_ne _ _ hc]
        · exact hslot t c htc
      · rw [liveSlot, zscore, hzset, hnow, SortedSet.score_add_self]
        simp [hlive]
      · simp only [session, hnow, hcaches, extended]
        cases value with
        | some v => simp [Store.find_setEx_self, hlive]
        | none => simp [Store.find_expire_self, hlive]

/-- An update that brings no entry is refused only where the challenge is not in the set. -/
theorem liveSlot_update_none (hteam : 0 < teamId) (httl : 0 < ttl)
    (hmember : (r.zscore (getZSetKKey teamId) challengeId).isSome = true) :
    (r.atomicUpdateExpiration teamId challengeId ttl (r.now + ttl) none).1.liveSlot teamId
        challengeId = some (r.now + ttl) := by
  obtain ⟨old, hold⟩ := Option.isSome_iff_exists.mp hmember
  have hreal : ¬ teamId ≤ 0 := by omega
  have hlive : r.now < r.now + ttl := by omega
  have hlife : 0 < ttl + 3600 := by omega
  have hzset : (r.atomicUpdateExpiration teamId challengeId ttl (r.now + ttl) none).1.zset
      (getZSetKKey teamId) =
        SortedSet.add (r.zset (getZSetKKey teamId)) (r.now + ttl) challengeId := by
    simp only [atomicUpdateExpiration, Option.any_none, Bool.false_eq_true, if_false, hreal, hold]
    exact zset_setEx hlife rfl
  have hnow : (r.atomicUpdateExpiration teamId challengeId ttl (r.now + ttl) none).1.now =
      r.now := by
    simp [atomicUpdateExpiration, hreal, hold]
  rw [liveSlot, zscore, hzset, hnow, SortedSet.score_add_self]
  simp [hlive]

theorem session_del_ne {t : Int} {c : Nat} {caches : Store String ChallengeDeploymentCacheDTO}
    (hne : ¬ (t = teamId ∧ c = challengeId)) :
    (caches.del (getCacheKey challengeId teamId)).find r.now (getCacheKey c t) =
      caches.find r.now (getCacheKey c t) := by
  refine Store.find_del_ne _ _ ?_
  rw [Ne, getCacheKey_eq]
  exact fun h => hne h.symm

/-- A release takes the slot and the entry of one deployment. -/
theorem release_cases (r : Redis) (teamId : Int) (challengeId : Nat) :
    let r' := r.atomicRemoveDeploymentZSet teamId challengeId
    (∀ t c, ¬ (t = teamId ∧ c = challengeId) → Same r r' t c) ∧
      r'.liveSlot teamId challengeId = none ∧ r'.session teamId challengeId = none := by
  intro r'
  refine ⟨fun t c hne => ⟨?_, session_del_ne hne⟩, ?_, Store.find_del_self _ _ _⟩
  · by_cases ht : t = teamId
    · subst ht
      have hc : c ≠ challengeId := fun hc => hne ⟨rfl, hc⟩
      have hzset : r'.zset (getZSetKKey t) =
          SortedSet.remove (r.zset (getZSetKKey t)) challengeId := zset_remove
      rw [liveSlot, liveSlot, zscore, zscore, hzset, SortedSet.score_remove_ne _ hc]
      rfl
    · have hkey : getZSetKKey t ≠ getZSetKKey teamId := by simpa using ht
      exact liveSlot_congr rfl (zset_congr rfl (Store.find_modify_ne _ _ _ _ hkey))
  · rw [liveSlot, zscore, zset_remove, SortedSet.score_remove_self]
    rfl

/-- `RemoveCacheAsync` takes the entry alone. -/
theorem removeCache_cases (r : Redis) (teamId : Int) (challengeId : Nat) :
    let r' := r.removeCache (getCacheKey challengeId teamId)
    (∀ t c, ¬ (t = teamId ∧ c = challengeId) → Same r r' t c) ∧
      r'.liveSlot teamId challengeId = r.liveSlot teamId challengeId ∧
        r'.session teamId challengeId = none :=
  ⟨fun _ _ hne => ⟨rfl, session_del_ne hne⟩, rfl, Store.find_del_self _ _ _⟩

/-- The management platform takes the entries of all teams for a challenge. -/
theorem session_deleteCachedFiles (r : Redis) (challengeId : Nat) (t : Int) (c : Nat) :
    (r.deleteCachedFiles challengeId).session t c =
      if c = challengeId then none else r.session t c := by
  have hmatches : hasPrefix (getCacheKey c t) ("deploy_challenge_" ++ Nat.repr challengeId ++ "_") =
      true ↔ c = challengeId := hasPrefix_idKey
  rw [session, deleteCachedFiles]
  dsimp only
  rw [Store.find_delWhere]
  simp only [hmatches]
  rfl

/-- A filter that takes away more. -/
theorem filter_of_imp {α : Type} {p q : α → Bool} (h : ∀ a, p a = true → q a = true)
    (o : Option α) : o.filter p = (o.filter q).filter p := by
  cases o with
  | none => rfl
  | some a =>
    by_cases hp : p a = true
    · rw [Option.filter_some, Option.filter_some, if_pos hp, if_pos (h a hp), Option.filter_some,
        if_pos hp]
    · rw [Option.filter_some, if_neg hp, Option.filter_some]
      split
      · rw [Option.filter_some, if_neg hp]
      · rfl

/-- As time passes, a slot stays as long as its score and the set of its team. -/
theorem liveSlot_tick (r : Redis) (seconds : Nat) (t : Int) (c : Nat) :
    (r.tick seconds).liveSlot t c =
      if (r.zsets.find (r.now + seconds) (getZSetKKey t)).isSome = true then
        (r.liveSlot t c).filter fun score => decide (r.now + seconds < score)
      else none := by
  cases hfind : r.zsets.find (r.now + seconds) (getZSetKKey t) with
  | none =>
    have hempty : (r.tick seconds).zset (getZSetKKey t) = ∅ := by
      simp [zset, tick, Store.get, hfind]
    rw [liveSlot, zscore, hempty]
    rfl
  | some cell =>
    rw [liveSlot, liveSlot, zscore, zscore, zset_tick_of_live hfind]
    refine filter_of_imp (fun score hscore => ?_) _
    have hlater : r.now + seconds < score := of_decide_eq_true hscore
    exact decide_eq_true (by omega)

theorem session_tick (r : Redis) (seconds : Nat) (t : Int) (c : Nat) :
    (r.tick seconds).session t c =
      (r.session t c).filter fun cell => decide (cell.Live (r.now + seconds)) := by
  refine filter_of_imp (fun cell hlive => ?_) _
  have hlater : cell.Live (r.now + seconds) := of_decide_eq_true hlive
  exact decide_eq_true (hlater.earlier (by omega))

end Calls

/-! ### One step -/

section Steps

variable {r} (ha : r.Aligned) (h : r.Paired)

include ha

theorem aligned_tick (seconds : Nat) : (r.tick seconds).Aligned := by
  intro t c ht score hscore cell hcell
  rw [liveSlot_tick] at hscore
  rw [session_tick] at hcell
  split at hscore
  · exact ha t c ht score (Option.filter_eq_some_iff.mp hscore).1 cell
      (Option.filter_eq_some_iff.mp hcell).1
  · cases hscore

theorem aligned_deleteCachedFiles (challengeId : Nat) :
    (r.deleteCachedFiles challengeId).Aligned := by
  intro t c ht score hscore cell hcell
  rw [session_deleteCachedFiles] at hcell
  split at hcell
  · cases hcell
  · exact ha t c ht score hscore cell hcell

/-- Whatever a call does to a slot and its entry, they end together while both are there. -/
theorem aligned_step (op : PairOp) (r' : Redis) (hs : r.pairStep op = some r') : r'.Aligned := by
  cases op with
  | tick seconds =>
    obtain rfl := Option.some.inj hs
    exact aligned_tick ha seconds
  | start teamId challengeId maxLimit value =>
    obtain rfl := Option.some.inj hs
    obtain ⟨hothers, hsame | ⟨hslot, hsession⟩⟩ :=
      start_cases r teamId challengeId maxLimit value
    · refine aligned_of_same ha fun t c _ => ?_
      by_cases hself : t = teamId ∧ c = challengeId
      · obtain ⟨rfl, rfl⟩ := hself
        exact hsame
      · exact hothers t c hself
    · refine aligned_of_others ha (fun t c _ hne => hothers t c hne) ?_
      simp [hslot, hsession]
  | update teamId challengeId ttl value =>
    rw [pairStep] at hs
    split at hs
    · cases hs
    · rename_i httl
      obtain rfl := Option.some.inj hs
      have httl : 0 < ttl := by omega
      obtain ⟨hothers, hsame | ⟨-, hslot, hsession⟩⟩ :=
        update_pair_cases r teamId challengeId httl value
      · refine aligned_of_same ha fun t c ht => ?_
        by_cases hself : t = teamId ∧ c = challengeId
        · obtain ⟨rfl, rfl⟩ := hself
          exact hsame ht
        · exact hothers t c ht hself
      · refine aligned_of_others ha hothers ?_
        rw [hslot, hsession]
        cases value with
        | some v => simp [extended]
        | none =>
          cases r.session teamId challengeId with
          | none => simp [extended]
          | some cell => simp [extended]
  | release teamId challengeId =>
    obtain rfl := Option.some.inj hs
    obtain ⟨hothers, hslot, -⟩ := release_cases r teamId challengeId
    refine aligned_of_others ha (fun t c _ hne => hothers t c hne) ?_
    simp [hslot]
  | removeCache teamId challengeId =>
    obtain rfl := Option.some.inj hs
    obtain ⟨hothers, -, hsession⟩ := removeCache_cases r teamId challengeId
    refine aligned_of_others ha (fun t c _ hne => hothers t c hne) ?_
    simp [hsession]
  | uploadFile challengeId =>
    obtain rfl := Option.some.inj hs
    exact aligned_deleteCachedFiles ha challengeId
  | deleteChallenge challengeId requireDeploy =>
    obtain rfl := Option.some.inj hs
    cases requireDeploy with
    | true => exact aligned_deleteCachedFiles ha challengeId
    | false => exact ha

include h

/-- Time takes a slot and its entry together, unless the set of the team goes first. -/
theorem paired_tick_iff (seconds : Nat) :
    (r.tick seconds).Paired ↔ r.KeepsPairs (.tick seconds) := by
  simp only [Paired, isSome_cache] at h ⊢
  constructor
  · intro h' t c ht score hscore hlater
    obtain ⟨cell, hcell⟩ := Option.isSome_iff_exists.mp ((h t c ht).mp (by rw [hscore]; rfl))
    have hdeadline := ha t c ht score hscore cell hcell
    have hlive : cell.Live (r.now + seconds) := by
      rw [Cell.Live, hdeadline]
      simpa using hlater
    have hslot := (h' t c ht).mpr (by simp [session_tick, hcell, hlive])
    rw [liveSlot_tick] at hslot
    by_contra hgone
    rw [if_neg hgone] at hslot
    cases hslot
  · intro hkeeps t c ht
    rw [liveSlot_tick, session_tick]
    cases hslot : r.liveSlot t c with
    | none =>
      have hsession : r.session t c = none := by
        rw [← Option.not_isSome_iff_eq_none, ← h t c ht, hslot]
        simp
      simp [hsession]
    | some score =>
      obtain ⟨cell, hcell⟩ := Option.isSome_iff_exists.mp ((h t c ht).mp (by rw [hslot]; rfl))
      have hdeadline := ha t c ht score hslot cell hcell
      have hlive : cell.Live (r.now + seconds) ↔ r.now + seconds < score := by
        rw [Cell.Live, hdeadline]
        simp
      by_cases hlater : r.now + seconds < score
      · simp [hcell, hlive, hlater, hkeeps t c ht score hslot hlater]
      · have hslot' :
            (some score).filter (fun score => decide (r.now + seconds < score)) = none := by
          simp only [Option.filter_eq_none_iff, Option.some.injEq, decide_eq_true_eq]
          rintro _ rfl
          exact hlater
        simp [hslot', hcell, hlive, hlater]

omit ha in
theorem paired_deleteCachedFiles_iff (challengeId : Nat) :
    (r.deleteCachedFiles challengeId).Paired ↔ r.NoSession challengeId := by
  have hslot : ∀ t c, (r.deleteCachedFiles challengeId).liveSlot t c = r.liveSlot t c :=
    fun _ _ => rfl
  simp only [Paired, isSome_cache, NoSession, cache_eq_none_iff, session_deleteCachedFiles,
    hslot] at h ⊢
  constructor
  · intro h' t ht
    have hnone := h' t challengeId ht
    rw [if_pos rfl, h t challengeId ht] at hnone
    simpa using hnone
  · intro hnone t c ht
    split
    · rename_i hc
      subst hc
      rw [h t c ht, hnone t ht]
    · exact h t c ht

theorem paired_step_iff (op : PairOp) :
    (∀ r', r.pairStep op = some r' → r'.Paired) ↔ r.KeepsPairs op := by
  cases op with
  | tick seconds => simpa [pairStep] using paired_tick_iff ha h seconds
  | start teamId challengeId maxLimit value =>
    simp only [pairStep, Option.some.injEq, forall_eq', KeepsPairs, iff_true]
    obtain ⟨hothers, hsame | ⟨hslot, hsession⟩⟩ :=
      start_cases r teamId challengeId maxLimit value
    · refine paired_of_same h fun t c _ => ?_
      by_cases hself : t = teamId ∧ c = challengeId
      · obtain ⟨rfl, rfl⟩ := hself
        exact hsame
      · exact hothers t c hself
    · rw [paired_iff_of_others h fun t c _ hne => hothers t c hne, hslot, hsession]
      simp
  | update teamId challengeId ttl value =>
    rw [pairStep, KeepsPairs]
    by_cases hshort : ttl < 1
    · simp [hshort]
    · have httl : 0 < ttl := by omega
      rw [if_neg hshort, forall_prop_of_true (by omega : 1 ≤ ttl)]
      simp only [Option.some.injEq, forall_eq']
      obtain ⟨hothers, hsame | ⟨hmember, hslot, hsession⟩⟩ :=
        update_pair_cases r teamId challengeId httl value
      · refine iff_of_true (paired_of_same h fun t c ht => ?_) ?_
        · by_cases hself : t = teamId ∧ c = challengeId
          · obtain ⟨rfl, rfl⟩ := hself
            exact hsame ht
          · exact hothers t c ht hself
        · rintro ht rfl hmember
          rw [← (hsame ht).1, liveSlot_update_none ht httl hmember]
          rfl
      · rw [paired_iff_of_others h hothers, hslot, hsession]
        refine forall_congr' fun ht => ?_
        cases value with
        | some v => simp [extended]
        | none => simp [extended, hmember, h teamId challengeId ht, isSome_cache]
  | release teamId challengeId =>
    obtain ⟨hothers, hslot, hsession⟩ := release_cases r teamId challengeId
    simp only [pairStep, Option.some.injEq, forall_eq', KeepsPairs, iff_true]
    rw [paired_iff_of_others h fun t c _ hne => hothers t c hne, hslot, hsession]
    simp
  | removeCache teamId challengeId =>
    obtain ⟨hothers, hslot, hsession⟩ := removeCache_cases r teamId challengeId
    simp only [pairStep, Option.some.injEq, forall_eq', KeepsPairs]
    rw [paired_iff_of_others h fun t c _ hne => hothers t c hne, hslot, hsession]
    refine forall_congr' fun ht => ?_
    rw [h teamId challengeId ht]
    simp
  | uploadFile challengeId =>
    simpa [pairStep, KeepsPairs] using paired_deleteCachedFiles_iff h challengeId
  | deleteChallenge challengeId requireDeploy =>
    cases requireDeploy with
    | true => simpa [pairStep, KeepsPairs] using paired_deleteCachedFiles_iff h challengeId
    | false => simpa [pairStep, KeepsPairs] using h

end Steps

/-! ### Runs -/

section Runs

theorem paired_empty (now : Int) : (empty now).Paired := by
  intro t c _
  simp [liveSlot, zscore, zset, empty, cache]

theorem aligned_empty (now : Int) : (empty now).Aligned := by
  intro t c _ score hscore
  simp [liveSlot, zscore, zset, empty] at hscore

/-- All along a run the slots and the cache entries of the real teams are paired exactly when
every call meets its condition; the scripts meet theirs, the deletions of the management platform
only where nobody plays. -/
theorem paired_iff (now : Int) (ops : List PairOp) :
    (∀ r ∈ visited pairStep (empty now) ops, r.Paired) ↔
      Meets pairStep KeepsPairs (empty now) ops :=
  forall_visited_iff_meets (fun _ op r' ha hs => aligned_step ha op r' hs)
    (fun _ op ha h => paired_step_iff ha h op) ops (aligned_empty now) (paired_empty now)

/-- A deploy file is uploaded while the team 1 plays the challenge 5: its slot stays. -/
theorem upload_leaves_slot : ¬ ∀ (now : Int) (ops : List PairOp),
    ∀ r ∈ visited pairStep (empty now) ops, r.Paired := by
  intro h
  have hpaired := h 0 [.start 1 5 3 { status := .INITIAL }, .uploadFile 5] _
    (List.mem_cons_of_mem _ (List.mem_cons_of_mem _ List.mem_cons_self))
  exact absurd (hpaired 1 5 (by decide)) (by decide)

end Runs

end Redis

end Fctf
