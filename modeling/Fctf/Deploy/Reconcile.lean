import Mathlib.Data.List.Forall2
import Fctf.Deploy.Scripts

/-!
The listener's reconciliation: open tracking rows without a pod are closed, and
their slots are taken out of Redis. What it has to leave alone are the sessions
of KYPO challenges and the slots whose deployment still has a pod.
-/

namespace Fctf

/-- The namespaces of the listed pods. -/
def activeNamespaces (currentPods : List (Option String)) : List String :=
  (currentPods.filterMap id).filter (· ≠ "")

namespace ChallengeStartTracking

/-- The rows that the query takes for orphaned. `NOT IN` compares by the collation. -/
def isOrphaned (sql : Collation) (currentPods : List (Option String))
    (ct : ChallengeStartTracking) : Bool :=
  ct.stoppedAt.isNone && ct.label.any fun label =>
    !(activeNamespaces currentPods).any (sql.eq label)

end ChallengeStartTracking

/-- The removal of one orphan's slot. -/
def removeSlot (executed : ChallengeStartTracking → Bool) (r : Redis)
    (tracking : ChallengeStartTracking) : Redis :=
  match tracking.teamId with
  | some teamId =>
    if executed tracking then r.atomicRemoveDeploymentZSet teamId tracking.challengeId else r
  | none => r

/-- `ReconcileOrphanedCachesAsync`. Each script may fail, and so may `SaveChangesAsync`. -/
def reconcileOrphanedCaches (sql : Collation) (utcNow : Int) (currentPods : List (Option String))
    (executed : ChallengeStartTracking → Bool) (saved : Bool)
    (trackings : List ChallengeStartTracking) (r : Redis) : List ChallengeStartTracking × Redis :=
  let orphaned := trackings.filter (·.isOrphaned sql currentPods)
  let closed := trackings.map fun ct =>
    if ct.isOrphaned sql currentPods then { ct with stoppedAt := some utcNow } else ct
  (if saved then closed else trackings, orphaned.foldl (removeSlot executed) r)

/-! ### What it has to leave alone -/

/-- The cache entry and the reservation of a team's challenge. -/
def Redis.slot (r : Redis) (challengeId : Nat) (teamId : Int) :
    Option ChallengeDeploymentCacheDTO × Option Int :=
  (r.cache (getCacheKey challengeId teamId), r.zscore (getZSetKKey teamId) challengeId)

namespace ChallengeStartTracking

/-- An open session of a KYPO challenge. -/
def OpenKypo (ct : ChallengeStartTracking) : Prop :=
  ct.stoppedAt = none ∧ ct.label = some "kypo"

/-- An open Kubernetes deployment whose namespace has no pod. -/
def Orphan (currentPods : List (Option String)) (ct : ChallengeStartTracking) : Prop :=
  ct.stoppedAt = none ∧
    ∃ ns, ct.label = some ns ∧ ns ≠ "kypo" ∧ ns ∉ activeNamespaces currentPods

def On (ct : ChallengeStartTracking) (challengeId : Nat) (teamId : Int) : Prop :=
  ct.challengeId = challengeId ∧ ct.teamId = some teamId

/-- The slot's entry, if there is one, is that of this deployment. -/
def Owns (ct : ChallengeStartTracking) (r : Redis) (challengeId : Nat) (teamId : Int) : Prop :=
  ct.On challengeId teamId ∧
    ∀ entry ∈ r.cache (getCacheKey challengeId teamId), ct.label = some entry._namespace

end ChallengeStartTracking

/-- Only orphaned Kubernetes deployments are closed and lose their slots. -/
structure Framed (currentPods : List (Option String)) (trackings : List ChallengeStartTracking)
    (r : Redis) (out : List ChallengeStartTracking × Redis) : Prop where
  rows : List.Forall₂ (fun old new => new = old ∨
    old.Orphan currentPods ∧ ∃ t, new = { old with stoppedAt := some t }) trackings out.1
  slots : ∀ c t, out.2.slot c t = r.slot c t ∨
    ∃ ct ∈ trackings, ct.Orphan currentPods ∧ ct.Owns r c t
  kypo : ∀ ct ∈ trackings, ct.OpenKypo → ∀ t, ct.teamId = some t →
    out.2.slot ct.challengeId t = r.slot ct.challengeId t
  current : ∀ c t entry, r.cache (getCacheKey c t) = some entry →
    entry._namespace ∈ activeNamespaces currentPods → out.2.slot c t = r.slot c t

/-- No session of a KYPO challenge is open, unless a pod's namespace is called kypo; and
where the query takes a row for orphaned while Redis holds its slot, that slot belongs to
an orphaned deployment and to no open KYPO session. -/
structure Tidy (sql : Collation) (currentPods : List (Option String))
    (trackings : List ChallengeStartTracking) (r : Redis) : Prop where
  kypo : ∀ ct ∈ trackings, ct.OpenKypo →
    ∃ ns ∈ activeNamespaces currentPods, sql.eq "kypo" ns = true
  slots : ∀ ct ∈ trackings, ct.isOrphaned sql currentPods = true → ∀ t, ct.teamId = some t →
    r.slot ct.challengeId t ≠ (none, none) →
      (∃ owner ∈ trackings, owner.Orphan currentPods ∧ owner.Owns r ct.challengeId t) ∧
        ∀ other ∈ trackings, other.OpenKypo → ¬ other.On ct.challengeId t

section Remove

variable {r : Redis} {c c' : Nat} {t t' : Int}

theorem slot_remove_self : (r.atomicRemoveDeploymentZSet t c).slot c t = (none, none) := by
  rw [Redis.slot, Redis.cache_remove, Redis.zscore, Redis.zset_remove, SortedSet.score_remove_self]

theorem slot_remove_ne (hne : ¬ (c' = c ∧ t' = t)) :
    (r.atomicRemoveDeploymentZSet t c).slot c' t' = r.slot c' t' := by
  have hkey : getCacheKey c' t' ≠ getCacheKey c t := fun h => hne (getCacheKey_eq.mp h)
  have hcache : (r.atomicRemoveDeploymentZSet t c).cache (getCacheKey c' t') =
      r.cache (getCacheKey c' t') := by
    simp [Redis.cache, Redis.atomicRemoveDeploymentZSet, Expiring.Store.get, hkey]
  have hscore : (r.atomicRemoveDeploymentZSet t c).zscore (getZSetKKey t') c' =
      r.zscore (getZSetKKey t') c' := by
    by_cases hteam : t' = t
    · subst hteam
      have hmember : c' ≠ c := fun h => hne ⟨h, rfl⟩
      rw [Redis.zscore, Redis.zset_remove, SortedSet.score_remove_ne _ hmember, Redis.zscore]
    · simp [Redis.zscore, Redis.zset, Redis.atomicRemoveDeploymentZSet, Expiring.Store.get, hteam]
  rw [Redis.slot, hcache, hscore, Redis.slot]

end Remove

section Loop

variable {r : Redis} {ct : ChallengeStartTracking} {c : Nat} {t : Int}

theorem removeSlot_cases (executed : ChallengeStartTracking → Bool)
    (ct : ChallengeStartTracking) : (removeSlot executed r ct).slot c t = r.slot c t ∨
    ct.On c t ∧ (removeSlot executed r ct).slot c t = (none, none) := by
  unfold removeSlot
  split
  · rename_i teamId hteam
    split
    · by_cases hon : c = ct.challengeId ∧ t = teamId
      · obtain ⟨rfl, rfl⟩ := hon
        exact .inr ⟨⟨rfl, hteam⟩, slot_remove_self⟩
      · exact .inl (slot_remove_ne hon)
    · exact .inl rfl
  · exact .inl rfl

/-- The loop empties a slot or leaves it as it was. -/
theorem foldl_removeSlot_cases (executed : ChallengeStartTracking → Bool)
    (orphaned : List ChallengeStartTracking) :
    (orphaned.foldl (removeSlot executed) r).slot c t = r.slot c t ∨
      (∃ ct ∈ orphaned, ct.On c t) ∧
        (orphaned.foldl (removeSlot executed) r).slot c t = (none, none) := by
  induction orphaned generalizing r with
  | nil => exact .inl rfl
  | cons ct rest ih =>
    rw [List.foldl_cons]
    rcases ih (r := removeSlot executed r ct) with hsame | ⟨⟨other, hmem, hon⟩, hnone⟩
    · rcases removeSlot_cases (r := r) (c := c) (t := t) executed ct with hkept | ⟨hon, hnone⟩
      · exact .inl (hsame.trans hkept)
      · exact .inr ⟨⟨ct, List.mem_cons_self, hon⟩, hsame.trans hnone⟩
    · exact .inr ⟨⟨other, List.mem_cons_of_mem ct hmem, hon⟩, hnone⟩

/-- When every script runs, the slots of the orphaned rows are empty. -/
theorem foldl_removeSlot_all {orphaned : List ChallengeStartTracking} (hct : ct ∈ orphaned)
    (hon : ct.On c t) :
    (orphaned.foldl (removeSlot fun _ => true) r).slot c t = (none, none) := by
  induction orphaned generalizing r with
  | nil => cases hct
  | cons head rest ih =>
    rw [List.foldl_cons]
    rcases List.mem_cons.mp hct with rfl | hrest
    · have hempty : (removeSlot (fun _ => true) r ct).slot c t = (none, none) := by
        obtain ⟨rfl, hteam⟩ := hon
        simp only [removeSlot, hteam, if_true]
        exact slot_remove_self
      rcases foldl_removeSlot_cases (r := removeSlot (fun _ => true) r ct) (c := c) (t := t)
        (fun _ => true) rest with hsame | ⟨-, hnone⟩
      · exact hsame.trans hempty
      · exact hnone
    · exact ih hrest

end Loop

section Frame

variable {sql : Collation} {utcNow : Int} {currentPods : List (Option String)}
  {trackings : List ChallengeStartTracking} {r : Redis} {ct : ChallengeStartTracking}

theorem isOrphaned_eq_true : ct.isOrphaned sql currentPods = true ↔ ct.stoppedAt = none ∧
    ∃ ns, ct.label = some ns ∧
      ∀ active ∈ activeNamespaces currentPods, sql.eq ns active = false := by
  simp [ChallengeStartTracking.isOrphaned, Option.any_eq_true]

/-- In a tidy state the query finds Kubernetes deployments only. -/
theorem Tidy.orphan (h : Tidy sql currentPods trackings r) (hct : ct ∈ trackings)
    (horphaned : ct.isOrphaned sql currentPods = true) : ct.Orphan currentPods := by
  obtain ⟨hopen, ns, hlabel, hnone⟩ := isOrphaned_eq_true.mp horphaned
  refine ⟨hopen, ns, hlabel, ?_, ?_⟩
  · rintro rfl
    obtain ⟨active, hactive, heq⟩ := h.kypo ct hct ⟨hopen, hlabel⟩
    rw [hnone active hactive] at heq
    cases heq
  · intro hactive
    have heq := sql.refl ns
    rw [hnone ns hactive] at heq
    cases heq

/-- A slot that the loop has emptied belonged to an orphaned deployment. -/
theorem Tidy.emptied (h : Tidy sql currentPods trackings r)
    (executed : ChallengeStartTracking → Bool) (saved : Bool) (c : Nat) (t : Int) :
    (reconcileOrphanedCaches sql utcNow currentPods executed saved trackings r).2.slot c t =
        r.slot c t ∨
      (∃ owner ∈ trackings, owner.Orphan currentPods ∧ owner.Owns r c t) ∧
        ∀ other ∈ trackings, other.OpenKypo → ¬ other.On c t := by
  rcases foldl_removeSlot_cases (r := r) (c := c) (t := t) executed
    (trackings.filter (·.isOrphaned sql currentPods)) with hsame | ⟨⟨ct, hmem, hon⟩, hnone⟩
  · exact .inl hsame
  · obtain ⟨hct, horphaned⟩ := List.mem_filter.mp hmem
    obtain ⟨rfl, hteam⟩ := hon
    by_cases hheld : r.slot ct.challengeId t = (none, none)
    · exact .inl (hnone.trans hheld.symm)
    · exact .inr (h.slots ct hct horphaned t hteam hheld)

theorem Tidy.framed (h : Tidy sql currentPods trackings r)
    (executed : ChallengeStartTracking → Bool) (saved : Bool) :
    Framed currentPods trackings r
      (reconcileOrphanedCaches sql utcNow currentPods executed saved trackings r) where
  rows := by
    cases saved with
    | false =>
      apply List.forall₂_same.mpr
      intro ct _
      exact .inl rfl
    | true =>
      apply List.forall₂_map_right_iff.mpr
      apply List.forall₂_same.mpr
      intro ct hct
      split
      · rename_i horphaned
        exact .inr ⟨h.orphan hct horphaned, utcNow, rfl⟩
      · exact .inl rfl
  slots c t := (h.emptied executed saved c t).imp_right And.left
  kypo ct hct hopen t hteam := by
    rcases h.emptied executed saved ct.challengeId t with hsame | ⟨-, hother⟩
    · exact hsame
    · exact absurd ⟨rfl, hteam⟩ (hother ct hct hopen)
  current c t entry hentry hactive := by
    rcases h.emptied executed saved c t with hsame | ⟨⟨owner, -, horphan, -, howns⟩, -⟩
    · exact hsame
    · obtain ⟨-, ns, hlabel, -, hnone⟩ := horphan
      rw [howns entry hentry] at hlabel
      obtain rfl := Option.some.inj hlabel
      exact absurd hactive hnone

/-- Where nothing fails, the frame leaves no other state. -/
theorem tidy_of_framed (h : Framed currentPods trackings r
    (reconcileOrphanedCaches sql utcNow currentPods (fun _ => true) true trackings r)) :
    Tidy sql currentPods trackings r where
  kypo ct hct hopen := by
    by_contra hnone
    have horphaned : ct.isOrphaned sql currentPods = true := by
      apply isOrphaned_eq_true.mpr
      refine ⟨hopen.1, "kypo", hopen.2, ?_⟩
      intro active hactive
      by_contra heq
      exact hnone ⟨active, hactive, by simpa using heq⟩
    have hrows := List.forall₂_same.mp (List.forall₂_map_right_iff.mp h.rows) ct hct
    rw [if_pos horphaned] at hrows
    rcases hrows with hkept | ⟨⟨-, ns, hlabel, hns, -⟩, -⟩
    · have hstopped := congrArg ChallengeStartTracking.stoppedAt hkept
      rw [hopen.1] at hstopped
      cases hstopped
    · rw [hopen.2] at hlabel
      exact hns (Option.some.inj hlabel).symm
  slots ct hct horphaned t hteam hheld := by
    have hempty : (reconcileOrphanedCaches sql utcNow currentPods (fun _ => true) true
        trackings r).2.slot ct.challengeId t = (none, none) :=
      foldl_removeSlot_all (List.mem_filter.mpr ⟨hct, horphaned⟩) ⟨rfl, hteam⟩
    constructor
    · rcases h.slots ct.challengeId t with hsame | howner
      · exact absurd (hsame.symm.trans hempty) hheld
      · exact howner
    · rintro other hother hopen ⟨hchallenge, hon⟩
      have hsame := h.kypo other hother hopen t hon
      rw [hchallenge] at hsame
      exact hheld (hsame.symm.trans hempty)

/-- Whatever fails on the way, the reconciliation touches orphaned Kubernetes deployments
only: exactly in tidy states. -/
theorem reconcile_framed_iff_tidy (sql : Collation) (utcNow : Int)
    (currentPods : List (Option String)) (trackings : List ChallengeStartTracking) (r : Redis) :
    (∀ executed saved, Framed currentPods trackings r
        (reconcileOrphanedCaches sql utcNow currentPods executed saved trackings r)) ↔
      Tidy sql currentPods trackings r := by
  constructor
  · intro h
    exact tidy_of_framed (h (fun _ => true) true)
  · intro h executed saved
    exact h.framed executed saved

/-- A team works on a KYPO challenge, and no other pod is up. -/
theorem kypo_session_closed :
    ¬ ∀ executed saved, Framed []
      [{ id := 1, teamId := some 7, challengeId := 5, startedAt := 0, label := some "kypo" }]
      (Redis.empty 100)
      (reconcileOrphanedCaches .ignoreCase 100 [] executed saved
        [{ id := 1, teamId := some 7, challengeId := 5, startedAt := 0, label := some "kypo" }]
        (Redis.empty 100)) := by
  intro h
  have hrows := (h (fun _ => true) true).rows
  rcases List.forall₂_cons.mp hrows with ⟨hkept | ⟨⟨-, ns, hlabel, hns, -⟩, -⟩, -⟩
  · exact absurd hkept (by decide)
  · exact hns (Option.some.inj hlabel).symm

end Frame

end Fctf
