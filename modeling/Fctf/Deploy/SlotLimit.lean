import Fctf.Deploy.Scripts
import Fctf.Lib.Run

/-!
The concurrency limit of a team. Beside Redis runs a ledger of what the team
was granted: one entry for every reservation that has not been removed, with
the expiry score last written for it, newest grant first. The scripts never see
the ledger; the limit is stated about it.
-/

namespace Fctf

open Expiring Run

/-- A granted reservation and the expiry score last written for it. -/
structure Reservation where
  challenge : Nat
  score : Int
  deriving Repr, DecidableEq

structure TeamSlots where
  redis : Redis
  ledger : List Reservation

/-- The calls that reach the team's slots, and the clock. -/
inductive SlotOp
  | tick (seconds : Nat)
  | create (challengeId : Nat) (provisioningTtl : Int) (value : ChallengeDeploymentCacheDTO)
  | update (challengeId : Nat) (realTtlSeconds : Int) (value : Option ChallengeDeploymentCacheDTO)
  | remove (challengeId : Nat)

/-- A new score goes to the newest reservation of the challenge. -/
def rescore (challengeId : Nat) (score : Int) : List Reservation → List Reservation
  | [] => []
  | r :: rest =>
    if r.challenge = challengeId then { r with score := score } :: rest
    else r :: rescore challengeId score rest

namespace TeamSlots

def init (now : Int) : TeamSlots := ⟨.empty now, []⟩

def step (teamId : Int) (maxLimit : Nat) (s : TeamSlots) : SlotOp → Option TeamSlots
  | .tick seconds => some { s with redis := s.redis.tick seconds }
  | .create challengeId ttl value =>
    let (redis, res) :=
      s.redis.atomicCheckAndCreateDeploymentZSet teamId challengeId maxLimit value ttl
    some ⟨redis, if res = some .Pass then ⟨challengeId, s.redis.now + ttl⟩ :: s.ledger
      else s.ledger⟩
  | .update challengeId ttl value =>
    if ttl < 1 then none
    else
      let (redis, ok) :=
        s.redis.atomicUpdateExpiration teamId challengeId ttl (s.redis.now + ttl) value
      -- a preview team's update writes no score
      some ⟨redis, if ok && 0 < teamId then rescore challengeId (s.redis.now + ttl) s.ledger
        else s.ledger⟩
  | .remove challengeId =>
    some ⟨s.redis.atomicRemoveDeploymentZSet teamId challengeId,
      s.ledger.filter fun r => r.challenge ≠ challengeId⟩

/-- The reservations whose expiry is still in the future. -/
def live (s : TeamSlots) : List Reservation := s.ledger.filter fun r => s.redis.now < r.score

/-- The team holds at most `maxLimit` live reservations, each of a challenge of its own. -/
def WithinLimit (maxLimit : Nat) (s : TeamSlots) : Prop :=
  s.live.length ≤ maxLimit ∧ (s.live.map Reservation.challenge).Nodup

instance (maxLimit : Nat) (s : TeamSlots) : Decidable (s.WithinLimit maxLimit) :=
  inferInstanceAs (Decidable (_ ∧ _))

/-- The key of the team's set does not expire under a member whose own expiry
is still in the future. -/
def KeepsLiveScores (teamId : Int) (s : TeamSlots) : SlotOp → Prop
  | .tick seconds =>
    ∀ c ∈ s.redis.zsets.find s.redis.now (getZSetKKey teamId),
      c.Live (s.redis.now + seconds) ∨
        ∀ e ∈ c.value.entries, e.2 ≤ s.redis.now + seconds
  | _ => True

instance (teamId : Int) (s : TeamSlots) : ∀ op, Decidable (KeepsLiveScores teamId s op)
  | .tick _ => inferInstanceAs (Decidable (∀ c ∈ _, _ ∨ _))
  | .create .. | .update .. | .remove _ => inferInstanceAs (Decidable True)

/-- What holds as long as the set is not lost early: every live reservation is
recorded with its score, the set stays within the limit, and of two reservations
of one challenge only the newer can be live. -/
structure Accounted (teamId : Int) (maxLimit : Nat) (s : TeamSlots) : Prop where
  recorded : ∀ r ∈ s.ledger, s.redis.now < r.score →
    s.redis.zscore (getZSetKKey teamId) r.challenge = some r.score
  bounded : SortedSet.card (s.redis.zset (getZSetKKey teamId)) ≤ maxLimit
  latest : s.ledger.Pairwise fun newer older =>
    newer.challenge = older.challenge → older.score ≤ s.redis.now

variable {teamId : Int} {maxLimit : Nat} {s t : TeamSlots}

theorem accounted_init (now : Int) : Accounted teamId maxLimit (init now) where
  recorded := by simp [init]
  bounded := by simp [init, Redis.empty, Redis.zset]
  latest := by simp [init]

theorem Accounted.withinLimit (h : Accounted teamId maxLimit s) : s.WithinLimit maxLimit := by
  have hnodup : (s.live.map Reservation.challenge).Nodup := by
    rw [List.Nodup, List.pairwise_map]
    refine (h.latest.filter _).imp_of_mem ?_
    intro newer older _ hold hdead hsame
    have hlive : s.redis.now < older.score := by simpa using (List.mem_filter.mp hold).2
    have hpast := hdead hsame
    omega
  refine ⟨?_, hnodup⟩
  have hmem : ∀ c ∈ s.live.map Reservation.challenge,
      ∃ score, SortedSet.score (s.redis.zset (getZSetKKey teamId)) c = some score := by
    intro c hc
    obtain ⟨r, hr, rfl⟩ := List.mem_map.mp hc
    obtain ⟨hledger, hlive⟩ := List.mem_filter.mp hr
    exact ⟨r.score, h.recorded r hledger (by simpa using hlive)⟩
  have hle := SortedSet.length_le_card _ hnodup hmem
  rw [List.length_map] at hle
  exact hle.trans h.bounded

section Rescore

variable {challengeId : Nat} {score : Int} {ledger : List Reservation} {now : Int}

/-- A rescored reservation is an old one with its old score, or it is of the
challenge and has the new one. -/
theorem mem_rescore {r : Reservation} (h : r ∈ rescore challengeId score ledger) :
    (r.challenge = challengeId ∧ r.score = score) ∨ r ∈ ledger := by
  induction ledger with
  | nil => simp [rescore] at h
  | cons first rest ih =>
    unfold rescore at h
    split at h
    · rename_i hfirst
      rcases List.mem_cons.mp h with rfl | hrest
      · exact .inl ⟨hfirst, rfl⟩
      · exact .inr (List.mem_cons_of_mem _ hrest)
    · rcases List.mem_cons.mp h with rfl | hrest
      · exact .inr List.mem_cons_self
      · exact (ih hrest).imp_right (List.mem_cons_of_mem _)

/-- With at most the newest reservation of a challenge live, an old live
reservation of the rescored challenge is the rescored one. -/
theorem live_of_rescore {r : Reservation}
    (hlatest : ledger.Pairwise fun newer older =>
      newer.challenge = older.challenge → older.score ≤ now)
    (h : r ∈ rescore challengeId score ledger) (hlive : now < r.score)
    (hsame : r.challenge = challengeId) : r.score = score := by
  induction ledger with
  | nil => simp [rescore] at h
  | cons first rest ih =>
    obtain ⟨hfirst, hrest⟩ := List.pairwise_cons.mp hlatest
    unfold rescore at h
    split at h
    · rename_i hc
      rcases List.mem_cons.mp h with rfl | hmem
      · rfl
      · have hpast := hfirst r hmem (hc.trans hsame.symm)
        omega
    · rename_i hc
      rcases List.mem_cons.mp h with rfl | hmem
      · exact absurd hsame hc
      · exact ih hrest hmem

theorem pairwise_rescore
    (hlatest : ledger.Pairwise fun newer older =>
      newer.challenge = older.challenge → older.score ≤ now) :
    (rescore challengeId score ledger).Pairwise fun newer older =>
      newer.challenge = older.challenge → older.score ≤ now := by
  induction ledger with
  | nil => exact .nil
  | cons first rest ih =>
    obtain ⟨hfirst, hrest⟩ := List.pairwise_cons.mp hlatest
    unfold rescore
    split
    · exact List.pairwise_cons.mpr ⟨fun r hr => hfirst r hr, hrest⟩
    · rename_i hc
      refine List.pairwise_cons.mpr ⟨fun r hr hsame => ?_, ih hrest⟩
      rcases mem_rescore hr with ⟨hr', -⟩ | hold
      · exact absurd (hsame.trans hr') hc
      · exact hfirst r hold hsame

end Rescore

theorem accounted_tick {seconds : Nat} (h : Accounted teamId maxLimit s)
    (hkeep : KeepsLiveScores teamId s (.tick seconds)) :
    Accounted teamId maxLimit { s with redis := s.redis.tick seconds } := by
  have hlater : s.redis.now ≤ s.redis.now + seconds := by omega
  refine ⟨?_, ?_, h.latest.imp fun hdead hsame => (hdead hsame).trans hlater⟩
  · intro r hr hlive
    change s.redis.now + seconds < r.score at hlive
    have hbefore := h.recorded r hr (by omega)
    cases hcell : s.redis.zsets.find s.redis.now (getZSetKKey teamId) with
    | none => simp [Redis.zscore, Redis.zset, Store.get, hcell] at hbefore
    | some c =>
      have hvalue : s.redis.zset (getZSetKKey teamId) = c.value := by
        simp [Redis.zset, Store.get, hcell]
      rcases hkeep c hcell with halive | hpast
      · have hafter : s.redis.zsets.find (s.redis.now + seconds) (getZSetKKey teamId) = some c :=
          Store.find_eq_some.mpr ⟨(Store.find_eq_some.mp hcell).1, halive⟩
        rw [Redis.zscore, Redis.zset_tick_of_live hafter]
        exact hbefore
      · rw [Redis.zscore, hvalue, SortedSet.score_eq_some] at hbefore
        have hle := hpast _ hbefore
        simp only at hle
        omega
  · cases hcell : s.redis.zsets.find (s.redis.now + seconds) (getZSetKKey teamId) with
    | none => simp [Redis.zset, Redis.tick, Store.get, hcell]
    | some c =>
      rw [Redis.zset_tick_of_live hcell]
      exact h.bounded

/-- A member purged from the set was past its expiry. -/
theorem score_purged_of_live {r : Reservation} (h : Accounted teamId maxLimit s)
    (hr : r ∈ s.ledger) (hlive : s.redis.now < r.score) :
    SortedSet.score (SortedSet.removeUpTo (s.redis.zset (getZSetKKey teamId)) s.redis.now)
      r.challenge = some r.score := by
  have hscore := h.recorded r hr hlive
  rw [Redis.zscore] at hscore
  simp [SortedSet.score_removeUpTo, hscore, Option.filter, hlive]

theorem accounted_create {challengeId : Nat} {ttl : Int} {value : ChallengeDeploymentCacheDTO}
    (h : Accounted teamId maxLimit s)
    (hstep : step teamId maxLimit s (.create challengeId ttl value) = some t) :
    Accounted teamId maxLimit t := by
  cases hcreate :
      s.redis.atomicCheckAndCreateDeploymentZSet teamId challengeId maxLimit value ttl with
  | mk redis res =>
    obtain ⟨hnow, -, hcases⟩ := Redis.create_cases hcreate
    have hpurge := SortedSet.card_removeUpTo_le (s.redis.zset (getZSetKKey teamId)) s.redis.now
    simp only [step, hcreate, Option.some.injEq] at hstep
    subst hstep
    rcases hcases with ⟨hres, -, hz⟩ | ⟨rfl, -, hfree, hroom, -, hz⟩
    · rw [if_neg hres]
      refine ⟨fun r hr hlive => ?_, ?_, by simpa only [hnow] using h.latest⟩
      · rw [Redis.zscore, hz]
        exact score_purged_of_live h hr (by simpa only [hnow] using hlive)
      · rw [hz]
        exact hpurge.trans h.bounded
    · rw [if_pos rfl]
      have hdead : ∀ r ∈ s.ledger, r.challenge = challengeId → r.score ≤ s.redis.now := by
        intro r hr hsame
        by_contra hlive
        have hfound := score_purged_of_live h hr (by omega)
        rw [hsame, hfree] at hfound
        cases hfound
      refine ⟨fun r hr hlive => ?_, ?_, ?_⟩
      · rw [Redis.zscore, hz]
        rcases List.mem_cons.mp hr with rfl | hold
        · exact SortedSet.score_add_self ..
        · have hlive' : s.redis.now < r.score := by simpa only [hnow] using hlive
          have hne : r.challenge ≠ challengeId := by
            intro hsame
            have hpast := hdead r hold hsame
            omega
          rw [SortedSet.score_add_ne _ _ hne]
          exact score_purged_of_live h hold hlive'
      · rw [hz]
        have hle := SortedSet.card_add_le
          (SortedSet.removeUpTo (s.redis.zset (getZSetKKey teamId)) s.redis.now)
          (s.redis.now + ttl) challengeId
        omega
      · refine List.pairwise_cons.mpr ⟨fun r hr hsame => ?_, by simpa only [hnow] using h.latest⟩
        simpa only [hnow] using hdead r hr hsame.symm

theorem accounted_update {challengeId : Nat} {ttl : Int}
    {value : Option ChallengeDeploymentCacheDTO} (h : Accounted teamId maxLimit s)
    (hstep : step teamId maxLimit s (.update challengeId ttl value) = some t) :
    Accounted teamId maxLimit t := by
  simp only [step] at hstep
  split at hstep
  · cases hstep
  rename_i httl
  cases hupdate :
      s.redis.atomicUpdateExpiration teamId challengeId ttl (s.redis.now + ttl) value with
  | mk redis ok =>
    simp only [hupdate, Option.some.injEq] at hstep
    subst hstep
    rcases Redis.update_cases (by omega) hupdate with
      ⟨rfl, rfl⟩ | ⟨rfl, -, hnow, -, -, ⟨hteam, hz⟩ | ⟨hteam, old, hold, hz⟩⟩
    · simpa using h
    · have hpreview : ¬ 0 < teamId := by omega
      have hzset : redis.zset (getZSetKKey teamId) = s.redis.zset (getZSetKKey teamId) := by
        simp only [Redis.zset, hz, hnow]
      simp only [hpreview, decide_false, Bool.and_false, Bool.false_eq_true, if_false]
      refine ⟨?_, by simpa only [hzset] using h.bounded, by simpa only [hnow] using h.latest⟩
      simpa only [Redis.zscore, hzset, hnow] using h.recorded
    · simp only [hteam, decide_true, Bool.and_self, if_true]
      refine ⟨fun r hr hlive => ?_, ?_, by simpa only [hnow] using pairwise_rescore h.latest⟩
      · have hlive' : s.redis.now < r.score := by simpa only [hnow] using hlive
        rw [Redis.zscore, hz]
        by_cases hsame : r.challenge = challengeId
        · rw [hsame, live_of_rescore h.latest hr hlive' hsame]
          exact SortedSet.score_add_self ..
        · rw [SortedSet.score_add_ne _ _ hsame]
          rcases mem_rescore hr with ⟨hc, -⟩ | hmem
          · exact absurd hc hsame
          · exact h.recorded r hmem hlive'
      · rw [hz, SortedSet.card_add_of_mem _ _ hold]
        exact h.bounded

theorem accounted_remove {challengeId : Nat} (h : Accounted teamId maxLimit s)
    (hstep : step teamId maxLimit s (.remove challengeId) = some t) :
    Accounted teamId maxLimit t := by
  simp only [step, Option.some.injEq] at hstep
  subst hstep
  refine ⟨fun r hr hlive => ?_, ?_, h.latest.filter _⟩
  · obtain ⟨hmem, hne⟩ := List.mem_filter.mp hr
    rw [Redis.zscore, Redis.zset_remove, SortedSet.score_remove_ne _ (by simpa using hne)]
    exact h.recorded r hmem hlive
  · rw [Redis.zset_remove]
    exact (SortedSet.card_remove_le _ _).trans h.bounded

theorem accounted_step {op : SlotOp} (h : Accounted teamId maxLimit s)
    (hkeep : KeepsLiveScores teamId s op) (hstep : step teamId maxLimit s op = some t) :
    Accounted teamId maxLimit t := by
  cases op with
  | tick seconds =>
    obtain rfl := Option.some.inj hstep
    exact accounted_tick h hkeep
  | create => exact accounted_create h hstep
  | update => exact accounted_update h hstep
  | remove => exact accounted_remove h hstep

/-- As long as the set's key never expires under a live score, the team stays
within its limit and never holds a challenge twice. -/
theorem withinLimit_of_keepsLiveScores {teamId : Int} {maxLimit : Nat} {now : Int}
    {s : TeamSlots} (h : Reach (step teamId maxLimit) (KeepsLiveScores teamId) (init now) s) :
    s.WithinLimit maxLimit :=
  (h.invariant (Accounted teamId maxLimit) (accounted_init now)
    fun _ _ _ hacc hkeep hstep => accounted_step hacc hkeep hstep).withinLimit

/-- Two challenges of one team. The reservation of the second one gives the set
half an hour to live, while the first one has been given two hours. -/
def unevenRun : List SlotOp :=
  [.create 1 300 { status := .INITIAL }, .update 1 7200 (some { status := .RUNING }),
    .create 2 300 { status := .INITIAL }, .tick 1801,
    .create 1 300 { status := .INITIAL }, .create 3 300 { status := .INITIAL }]

theorem slot_limit_exceeded :
    ¬ ∀ (teamId : Int) (maxLimit : Nat) (now : Int) (s : TeamSlots), 1 ≤ maxLimit →
      Reach (step teamId maxLimit) always (init now) s → s.WithinLimit maxLimit := by
  intro hlimited
  obtain ⟨s, hreach, hover⟩ := exists_reach_of_exec (step 1 2) always (init 0) unevenRun
    (p := fun s => !decide (s.WithinLimit 2)) (meets_always ..) (by decide)
  simp [hlimited 1 2 0 s (by decide) hreach] at hover

theorem withinLimit_short_run :
    ∃ s, Reach (step 1 1) (KeepsLiveScores 1) (init 0) s ∧ s.live.length = 1 ∧
      s.WithinLimit 1 := by
  obtain ⟨s, hreach, hlive⟩ := exists_reach_of_exec (step 1 1)
    (KeepsLiveScores 1) (init 0)
    [.create 1 300 { status := .INITIAL }, .update 1 1800 (some { status := .PENDING }),
      .tick 1000, .create 2 300 { status := .INITIAL }]
    (p := fun s => s.live.length == 1) (by decide) (by decide)
  exact ⟨s, hreach, by simpa using hlive, withinLimit_of_keepsLiveScores hreach⟩

end TeamSlots

end Fctf
