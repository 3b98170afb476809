import Fctf.Lib.Expiring
import Fctf.Lib.Run
import Fctf.Text
import Mathlib.Data.List.Pairwise

/-!
The cooldown between the submissions of a team to a challenge. The backend keeps the time of the
last admitted submission in Redis, under a key that lives for ten minutes, and compares and sets
it in one script. The management platform writes the same key in its own attempt endpoint.
The clock counts milliseconds, and so do the times under the keys: the backend stores whole
seconds there and the platform fractions of them.
-/

namespace Fctf

open Expiring Run

def cooldownKey (challengeId : Nat) (teamId : Int) : String :=
  "submission_cooldown_" ++ Nat.repr challengeId ++ "_" ++ toString teamId

/-- `CheckAndUpdateCooldownAsync`: the store and the reply, which is -1 for an admitted
submission. `clock` is the time of Redis. -/
def checkAndUpdateCooldown (keys : Store String Int) (clock : Int) (key : String)
    (nowSeconds cooldownSeconds ttlSeconds : Int) : Store String Int × Int :=
  match keys.get clock key with
  | none => (keys.setEx clock key (1000 * ttlSeconds) (1000 * nowSeconds), -1)
  | some last =>
    if 1000 * cooldownSeconds ≤ 1000 * nowSeconds - last then
      (keys.setEx clock key (1000 * ttlSeconds) (1000 * nowSeconds), -1)
    else
      -- TTL answers -1 for a key without expiry
      let keys :=
        if ((keys.find clock key).bind Cell.deadline).isNone then
          keys.expire clock key (1000 * ttlSeconds)
        else keys
      -- a number that a script returns is truncated
      (keys, last / 1000)

/-- An admitted submission, with the second that the backend read from its clock. -/
structure Admission where
  challengeId : Nat
  teamId : Int
  nowSeconds : Int
  deriving DecidableEq, Repr

structure CooldownSite where
  now : Nat
  keys : Store String Int
  /-- The admitted submissions, the last one first. No step reads this history. -/
  admitted : List Admission

inductive CooldownAction
  /-- `Attempt` gets as far as the cooldown check. -/
  | attempt (challengeId : Nat) (teamId : Int)
  /-- The management platform's endpoint stores the time of an attempt. -/
  | platformAttempt (challengeId : Nat) (teamId : Int)
  | tick (milliseconds : Nat)
  deriving DecidableEq, Repr

namespace CooldownSite

-- `challenge.Cooldown ?? 0`
variable (cooldown : Nat → Int)

def attempt (s : CooldownSite) (challengeId : Nat) (teamId : Int) : CooldownSite :=
  if 0 < cooldown challengeId then
    let nowSeconds : Int := s.now / 1000
    let result := checkAndUpdateCooldown s.keys s.now (cooldownKey challengeId teamId) nowSeconds
      (cooldown challengeId) 600
    { s with
      keys := result.1
      admitted := if result.2 = -1 then ⟨challengeId, teamId, nowSeconds⟩ :: s.admitted
        else s.admitted }
  else s

def step (s : CooldownSite) : CooldownAction → Option CooldownSite
  | .attempt challengeId teamId => some (s.attempt cooldown challengeId teamId)
  | .platformAttempt challengeId teamId =>
    some { s with keys := s.keys.set (cooldownKey challengeId teamId) s.now }
  | .tick milliseconds => some { s with now := s.now + milliseconds }

/-- The seconds in which submissions of the team to the challenge were admitted. -/
def seconds (s : CooldownSite) (challengeId : Nat) (teamId : Int) : List Int :=
  (s.admitted.filter fun a => a.challengeId = challengeId ∧ a.teamId = teamId).map
    Admission.nowSeconds

/-- Any two admitted submissions of the team to the challenge are `gap` seconds apart. -/
def Spaced (gap : Int) (s : CooldownSite) (challengeId : Nat) (teamId : Int) : Prop :=
  (s.seconds challengeId teamId).Pairwise fun later earlier => gap ≤ later - earlier

instance decidableSpaced (gap : Int) (s : CooldownSite) (challengeId : Nat) (teamId : Int) :
    Decidable (s.Spaced gap challengeId teamId) :=
  inferInstanceAs (Decidable (List.Pairwise _ _))

/-! ### What the key knows of an admitted submission -/

/-- Until ten minutes after `second` the key holds that second or a later time. -/
def Remembers (s : CooldownSite) (challengeId : Nat) (teamId second : Int) : Prop :=
  s.now < 1000 * second + 600000 → ∃ cell,
    s.keys.find s.now (cooldownKey challengeId teamId) = some cell ∧
      1000 * second ≤ cell.value ∧ ∀ d ∈ cell.deadline, 1000 * second + 600000 ≤ d

/-- The admitted submissions lie in the past, and their keys remember them. -/
structure Sound (s : CooldownSite) : Prop where
  nonneg : ∀ key last, s.keys.get s.now key = some last → 0 ≤ last
  past : ∀ a ∈ s.admitted, 1000 * a.nowSeconds ≤ s.now
  remembered : ∀ a ∈ s.admitted, s.Remembers a.challengeId a.teamId a.nowSeconds

section Script

variable (keys : Store String Int) (clock : Int) (key : String)
  (nowSeconds cooldownSeconds ttlSeconds : Int)

/-- What the script does: it admits and stores the second, or refuses and keeps the value. -/
theorem checkAndUpdateCooldown_cases :
    ((∀ last, keys.get clock key = some last →
        1000 * cooldownSeconds ≤ 1000 * nowSeconds - last) ∧
      checkAndUpdateCooldown keys clock key nowSeconds cooldownSeconds ttlSeconds =
        (keys.setEx clock key (1000 * ttlSeconds) (1000 * nowSeconds), -1)) ∨
      ∃ last, keys.get clock key = some last ∧
        (checkAndUpdateCooldown keys clock key nowSeconds cooldownSeconds ttlSeconds =
            (keys, last / 1000) ∨
          checkAndUpdateCooldown keys clock key nowSeconds cooldownSeconds ttlSeconds =
            (keys.expire clock key (1000 * ttlSeconds), last / 1000)) := by
  unfold checkAndUpdateCooldown
  cases hget : keys.get clock key with
  | none => exact .inl ⟨by simp, rfl⟩
  | some last =>
    dsimp only
    split
    · rename_i hcool
      exact .inl ⟨by simpa using hcool, rfl⟩
    · refine .inr ⟨last, rfl, ?_⟩
      split
      · exact .inr rfl
      · exact .inl rfl

end Script

section Steps

variable {s : CooldownSite} {challengeId challengeId' : Nat} {teamId teamId' second : Int}

/-- A submission that other writes leave alone stays remembered. -/
theorem Remembers.of_find {t : CooldownSite} (h : s.Remembers challengeId teamId second)
    (hnow : t.now = s.now)
    (hfind : t.keys.find s.now (cooldownKey challengeId teamId) =
      s.keys.find s.now (cooldownKey challengeId teamId)) :
    t.Remembers challengeId teamId second := by
  unfold Remembers at h ⊢
  rw [hnow, hfind]
  exact h

/-- Time alone lets no submission be forgotten too early. -/
theorem Remembers.later (h : s.Remembers challengeId teamId second) (milliseconds : Nat) :
    Remembers { s with now := s.now + milliseconds } challengeId teamId second := by
  intro hlater
  have hlater : ((s.now + milliseconds : Nat) : Int) < 1000 * second + 600000 := hlater
  have hlater' : (s.now : Int) < 1000 * second + 600000 := by omega
  obtain ⟨cell, hfind, hvalue, hdeadline⟩ := h hlater'
  refine ⟨cell, ?_, hvalue, hdeadline⟩
  apply Store.find_eq_some.mpr
  refine ⟨(Store.find_eq_some.mp hfind).1, ?_⟩
  intro d hd
  have hlate := hdeadline d hd
  omega

/-- A write of a time that is not before the submission remembers it. -/
theorem Remembers.of_write {t : CooldownSite} {cell : Cell Int}
    (hfind : t.keys.find t.now (cooldownKey challengeId teamId) = some cell)
    (hvalue : 1000 * second ≤ cell.value)
    (hdeadline : ∀ d ∈ cell.deadline, 1000 * second + 600000 ≤ d) :
    t.Remembers challengeId teamId second :=
  fun _ => ⟨cell, hfind, hvalue, hdeadline⟩

theorem find_setEx_now (keys : Store String Int) (now : Nat) (key : String) (value : Int) :
    (keys.setEx now key (1000 * 600) value).find now key =
      some ⟨value, some (now + 1000 * 600)⟩ := by
  rw [Store.find_setEx_self, if_pos (by omega)]

/-- An admission is at least the cooldown or ten minutes after the ones before it. -/
theorem Remembers.admitted_after {cooldownSeconds : Int}
    (h : s.Remembers challengeId teamId second)
    (hcool : ∀ last, s.keys.get s.now (cooldownKey challengeId teamId) = some last →
      1000 * cooldownSeconds ≤ 1000 * (s.now / 1000 : Int) - last)
    (hle : cooldownSeconds ≤ 600) : cooldownSeconds ≤ s.now / 1000 - second := by
  by_cases hnow : (s.now : Int) < 1000 * second + 600000
  · obtain ⟨cell, hfind, hvalue, -⟩ := h hnow
    have hlast := hcool cell.value (Store.get_eq_some.mpr ⟨cell, hfind, rfl⟩)
    omega
  · omega

end Steps

/-! ### Every step keeps the submissions remembered -/

section Invariant

variable {cooldown : Nat → Int} {s : CooldownSite}

/-- A store whose values are times that have passed. -/
theorem nonneg_setEx {keys : Store String Int} {clock : Int} {key : String} {value ttl : Int}
    (hkeys : ∀ key last, keys.get clock key = some last → 0 ≤ last) (hvalue : 0 ≤ value) :
    ∀ key' last, (keys.setEx clock key ttl value).get clock key' = some last → 0 ≤ last := by
  intro key' last hget
  by_cases hkey : key' = key
  · subst hkey
    obtain ⟨cell, hfind, rfl⟩ := Store.get_eq_some.mp hget
    rw [Store.find_setEx_self] at hfind
    split at hfind
    · obtain rfl := Option.some.inj hfind
      exact hvalue
    · cases hfind
  · apply hkeys key'
    rw [← hget, Store.get, Store.get, Store.find_setEx_ne _ _ _ _ _ hkey]

/-- An admission: the new second is remembered, and so are the earlier ones. -/
theorem Sound.admit (hs : s.Sound) (challengeId : Nat) (teamId : Int) :
    Sound { s with
      keys := s.keys.setEx s.now (cooldownKey challengeId teamId) (1000 * 600)
        (1000 * (s.now / 1000 : Int))
      admitted := ⟨challengeId, teamId, s.now / 1000⟩ :: s.admitted } := by
  have hnow : 1000 * (s.now / 1000 : Int) ≤ s.now := by omega
  have hwrite := find_setEx_now s.keys s.now (cooldownKey challengeId teamId)
    (1000 * (s.now / 1000 : Int))
  refine ⟨nonneg_setEx hs.nonneg (by omega), ?_, ?_⟩
  · intro a ha
    rcases List.mem_cons.mp ha with rfl | ha
    · exact hnow
    · exact hs.past a ha
  · intro a ha
    rcases List.mem_cons.mp ha with rfl | ha
    · apply Remembers.of_write
      · exact hwrite
      · exact Int.le_refl (1000 * (s.now / 1000 : Int))
      · simp only [Option.mem_some_iff, forall_eq']
        omega
    · have hpast := hs.past a ha
      by_cases hkey : cooldownKey a.challengeId a.teamId = cooldownKey challengeId teamId
      · rw [← hkey] at hwrite ⊢
        apply Remembers.of_write
        · exact hwrite
        · dsimp only
          omega
        · simp only [Option.mem_some_iff, forall_eq']
          omega
      · exact (hs.remembered a ha).of_find rfl (Store.find_setEx_ne _ _ _ _ _ hkey)

/-- A refusal may give the key its expiry back, ten minutes from now. -/
theorem Sound.refuse (hs : s.Sound) (key : String) :
    Sound { s with keys := s.keys.expire s.now key (1000 * 600) } := by
  have hself : (s.keys.expire s.now key (1000 * 600)).find s.now key =
      (s.keys.find s.now key).map fun c => ⟨c.value, some (s.now + 1000 * 600)⟩ := by
    rw [Store.find_expire_self, if_pos (by omega)]
  refine ⟨?_, hs.past, ?_⟩
  · intro key' last hget
    obtain ⟨cell, hfind, rfl⟩ := Store.get_eq_some.mp hget
    by_cases hkey : key' = key
    · subst hkey
      rw [hself] at hfind
      obtain ⟨cell', hfind', rfl⟩ := Option.map_eq_some_iff.mp hfind
      exact hs.nonneg key' cell'.value (Store.get_eq_some.mpr ⟨cell', hfind', rfl⟩)
    · rw [Store.find_expire_ne _ _ _ _ hkey] at hfind
      exact hs.nonneg key' cell.value (Store.get_eq_some.mpr ⟨cell, hfind, rfl⟩)
  · intro a ha
    have hpast := hs.past a ha
    by_cases hkey : cooldownKey a.challengeId a.teamId = key
    · subst hkey
      intro hnow
      obtain ⟨cell, hfind, hvalue, -⟩ := hs.remembered a ha hnow
      refine ⟨⟨cell.value, some (s.now + 1000 * 600)⟩, ?_, hvalue, ?_⟩
      · rw [hself, hfind]
        rfl
      · simp only [Option.mem_some_iff, forall_eq']
        omega
    · exact (hs.remembered a ha).of_find rfl (Store.find_expire_ne _ _ _ _ hkey)

/-- The management platform writes a time that has passed, and takes the expiry away. -/
theorem Sound.platformAttempt (hs : s.Sound) (key : String) :
    Sound { s with keys := s.keys.set key s.now } := by
  refine ⟨?_, hs.past, ?_⟩
  · intro key' last hget
    obtain ⟨cell, hfind, rfl⟩ := Store.get_eq_some.mp hget
    by_cases hkey : key' = key
    · subst hkey
      rw [Store.find_set_self] at hfind
      obtain rfl := Option.some.inj hfind
      exact Int.natCast_nonneg _
    · rw [Store.find_set_ne _ _ _ hkey] at hfind
      exact hs.nonneg key' cell.value (Store.get_eq_some.mpr ⟨cell, hfind, rfl⟩)
  · intro a ha
    have hpast := hs.past a ha
    by_cases hkey : cooldownKey a.challengeId a.teamId = key
    · subst hkey
      exact Remembers.of_write (Store.find_set_self _ _ _ _) hpast (by simp)
    · exact (hs.remembered a ha).of_find rfl (Store.find_set_ne _ _ _ hkey)

theorem Sound.tick (hs : s.Sound) (milliseconds : Nat) :
    Sound { s with now := s.now + milliseconds } := by
  refine ⟨?_, ?_, ?_⟩
  · intro key last hget
    have hearlier : (s.now : Int) ≤ (s.now + milliseconds : Nat) := by omega
    exact hs.nonneg key last (Store.get_earlier hget hearlier)
  · intro a ha
    have hpast := hs.past a ha
    push_cast
    omega
  · intro a ha
    exact (hs.remembered a ha).later milliseconds

variable (cooldown) in
/-- What an attempt does: nothing that counts, an admission after the cooldown, or a refusal. -/
theorem attempt_cases (hs : s.Sound) (challengeId : Nat) (teamId : Int) :
    s.attempt cooldown challengeId teamId = s ∨
      (s.attempt cooldown challengeId teamId =
          { s with
            keys := s.keys.setEx s.now (cooldownKey challengeId teamId) (1000 * 600)
              (1000 * (s.now / 1000 : Int))
            admitted := ⟨challengeId, teamId, s.now / 1000⟩ :: s.admitted } ∧
        ∀ last, s.keys.get s.now (cooldownKey challengeId teamId) = some last →
          1000 * cooldown challengeId ≤ 1000 * (s.now / 1000 : Int) - last) ∨
      s.attempt cooldown challengeId teamId =
        { s with keys := s.keys.expire s.now (cooldownKey challengeId teamId) (1000 * 600) } := by
  unfold attempt
  split
  · dsimp only
    rcases checkAndUpdateCooldown_cases s.keys s.now (cooldownKey challengeId teamId)
      (s.now / 1000) (cooldown challengeId) 600 with ⟨hcool, hresult⟩ | ⟨last, hget, hresult⟩
    · rw [hresult]
      exact .inr (.inl ⟨rfl, hcool⟩)
    · -- the time under the key is no negative number, so the reply is not taken for -1
      have hlast := hs.nonneg _ last hget
      have hreply : last / 1000 ≠ -1 := by omega
      rcases hresult with hresult | hresult
      · rw [hresult, if_neg hreply]
        exact .inl rfl
      · rw [hresult, if_neg hreply]
        exact .inr (.inr rfl)
  · exact .inl rfl

theorem Sound.step {t : CooldownSite} {a : CooldownAction} (hs : s.Sound)
    (h : s.step cooldown a = some t) : t.Sound := by
  cases a with
  | attempt challengeId teamId =>
    obtain rfl := Option.some.inj h
    rcases attempt_cases cooldown hs challengeId teamId with heq | ⟨heq, -⟩ | heq
    · rw [heq]
      exact hs
    · rw [heq]
      exact hs.admit challengeId teamId
    · rw [heq]
      exact hs.refuse _
  | platformAttempt challengeId teamId =>
    obtain rfl := Option.some.inj h
    exact hs.platformAttempt _
  | tick milliseconds =>
    obtain rfl := Option.some.inj h
    exact hs.tick milliseconds

/-- A step adds no second that lies too near, as long as the cooldown is no longer than the
key lives. -/
theorem Spaced.step {t : CooldownSite} {a : CooldownAction} {challengeId : Nat} {teamId : Int}
    (hs : s.Sound) (hspaced : s.Spaced (cooldown challengeId) challengeId teamId)
    (hle : cooldown challengeId ≤ 600) (h : s.step cooldown a = some t) :
    t.Spaced (cooldown challengeId) challengeId teamId := by
  cases a with
  | attempt challengeId' teamId' =>
    obtain rfl := Option.some.inj h
    rcases attempt_cases cooldown hs challengeId' teamId' with
      heq | ⟨heq, hcool⟩ | heq
    · rw [heq]
      exact hspaced
    · rw [heq]
      by_cases hsame : challengeId' = challengeId ∧ teamId' = teamId
      · obtain ⟨rfl, rfl⟩ := hsame
        have hseconds : seconds { s with
            keys := s.keys.setEx s.now (cooldownKey challengeId' teamId') (1000 * 600)
              (1000 * (s.now / 1000 : Int))
            admitted := ⟨challengeId', teamId', s.now / 1000⟩ :: s.admitted }
            challengeId' teamId' = (s.now / 1000 : Int) :: s.seconds challengeId' teamId' := by
          simp [seconds]
        unfold Spaced
        rw [hseconds, List.pairwise_cons]
        refine ⟨?_, hspaced⟩
        intro second hsecond
        obtain ⟨a, ha, rfl⟩ := List.mem_map.mp hsecond
        obtain ⟨hmem, hpair⟩ := List.mem_filter.mp ha
        obtain ⟨rfl, rfl⟩ : a.challengeId = challengeId' ∧ a.teamId = teamId' := by
          simpa using hpair
        exact (hs.remembered a hmem).admitted_after hcool hle
      · have hseconds : seconds { s with
            keys := s.keys.setEx s.now (cooldownKey challengeId' teamId') (1000 * 600)
              (1000 * (s.now / 1000 : Int))
            admitted := ⟨challengeId', teamId', s.now / 1000⟩ :: s.admitted }
            challengeId teamId = s.seconds challengeId teamId := by
          simp [seconds, hsame]
        unfold Spaced
        rw [hseconds]
        exact hspaced
    · rw [heq]
      exact hspaced
  | platformAttempt challengeId' teamId' =>
    obtain rfl := Option.some.inj h
    exact hspaced
  | tick milliseconds =>
    obtain rfl := Option.some.inj h
    exact hspaced

end Invariant

/-- Nothing was submitted yet. -/
def start (now : Nat) : CooldownSite := ⟨now, .empty, []⟩

theorem start_sound (now : Nat) : (start now).Sound := by
  refine ⟨?_, ?_, ?_⟩
  · intro key last hget
    rw [start, Store.get_empty] at hget
    cases hget
  · simp [start]
  · simp [start]

/-- The run in which the key is gone before the cooldown is over. -/
def afterExpiry (challengeId : Nat) (teamId : Int) : List CooldownAction :=
  [.attempt challengeId teamId, .tick 600000, .attempt challengeId teamId]

theorem seconds_afterExpiry (cooldown : Nat → Int) {challengeId : Nat} (teamId : Int)
    (hpos : 0 < cooldown challengeId) :
    ∃ s, exec (step cooldown) (start 0) (afterExpiry challengeId teamId) = some s ∧
      s.seconds challengeId teamId = [600, 0] := by
  have hexpired (value : Int) : ((Store.empty : Store String Int).setEx 0
      (cooldownKey challengeId teamId) 600000 value).get 600000 (cooldownKey challengeId teamId) =
        none := by
    rw [Store.get_eq_none, Store.find_setEx_self, if_neg (by decide)]
  refine ⟨_, rfl, ?_⟩
  simp [start, attempt, hpos, checkAndUpdateCooldown, hexpired, seconds]

/-- Admitted submissions keep the cooldown exactly when it is no longer than the key lives. -/
theorem cooldown_kept_iff (cooldown : Nat → Int) (challengeId : Nat) (teamId : Int)
    (hpos : 0 < cooldown challengeId) :
    (∀ now s, Reach (step cooldown) always (start now) s →
        s.Spaced (cooldown challengeId) challengeId teamId) ↔
      cooldown challengeId ≤ 600 := by
  constructor
  · intro hall
    obtain ⟨s, hexec, hseconds⟩ := seconds_afterExpiry cooldown teamId hpos
    have hspaced := hall 0 s (reach_of_exec _ hexec (meets_always _ _ _))
    unfold Spaced at hspaced
    rw [hseconds, List.pairwise_cons] at hspaced
    exact hspaced.1 0 (List.mem_singleton.mpr rfl)
  · intro hle now s hreach
    have hinv : s.Sound ∧ s.Spaced (cooldown challengeId) challengeId teamId := by
      apply hreach.invariant (fun s => s.Sound ∧ s.Spaced (cooldown challengeId) challengeId teamId)
      · exact ⟨start_sound now, List.Pairwise.nil⟩
      · rintro s a t ⟨hs, hspaced⟩ - h
        exact ⟨hs.step h, hspaced.step hs hle h⟩
    exact hinv.2

/-- With the five seconds of the platform's own test cases. -/
theorem cooldown_kept_five : (0 : Int) < 5 ∧
    ∀ now s, Reach (step fun _ => 5) always (start now) s → s.Spaced 5 3 10 :=
  ⟨by decide, (cooldown_kept_iff (fun _ => 5) 3 10 (by decide)).mpr (by decide)⟩

/-- A cooldown of one second more than ten minutes. -/
theorem admitted_early : ¬ ∀ (cooldown : Nat → Int) (challengeId : Nat) (teamId : Int),
    0 < cooldown challengeId → ∀ now s, Reach (step cooldown) always (start now) s →
      s.Spaced (cooldown challengeId) challengeId teamId := by
  intro hall
  obtain ⟨s, hreach, hspaced⟩ := exists_reach_of_exec (step fun _ => 601) always (start 0)
    (afterExpiry 3 10) (p := fun s => !decide (s.Spaced 601 3 10)) (meets_always _ _ _) (by decide)
  have hkept := hall (fun _ => 601) 3 10 (by decide) 0 s hreach
  simp [hkept] at hspaced

end CooldownSite

end Fctf
