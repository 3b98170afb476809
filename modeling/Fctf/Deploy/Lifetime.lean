import Fctf.Deploy.AppName
import Fctf.Deploy.Session
import Fctf.Gateway.Token
import Fctf.Scoring.Dynamic

/-!
How long an instance lives: the expiry of the token for it, and the timeout that its pod gets.
Moments are counted in ticks of 100 ns from the epoch on.
-/

namespace Fctf

/-- The expiry that `HandleChallengeRunning` chooses for an instance without a finish time.
`AddMinutes` throws after the year 9999. -/
def issueExpiry (now : Nat) (timeLimit : Option Int32) (ctfEnd : Int) : Option DateTimeOffset :=
  let minutes := (timeLimit.map Int32.toInt).getD 30
  let added : Int := (now / 10000000 : Nat) + minutes * 60
  let finish := (finishTime (now / 10000000 : Nat) 0 minutes ctfEnd).1
  if -62135596800 ≤ added ∧ added ≤ 253402300799 then
    if h : -62135596800 ≤ finish ∧ finish ≤ 253402300799 then some ⟨finish, h⟩ else none
  else none

/-- A challenge, as far as the lifetime of its instances goes. -/
structure TimedChallenge where
  /-- In minutes. -/
  timeLimit : Option Int32

/-- The timeout of `BuildArgoPayload`, in minutes, and the challenge that it leaves behind. -/
def buildArgoTimeout (challenge : TimedChallenge) : Option Int32 × TimedChallenge :=
  let timeLimit :=
    match challenge.timeLimit with
    | some limit => if limit ≤ 0 then some 1 else some limit
    | none => none
  (timeLimit, ⟨timeLimit.map (· + 1)⟩)

/-- The token that is issued at a moment is accepted then, and the pod lives as long as it. -/
def LifetimeAgrees (platform : TokenPlatform) (now : Nat) (timeLimit : Int32) (ctfEnd : Int)
    (appName deploymentKey : String) : Prop :=
  ∃ expiry timeout, issueExpiry now (some timeLimit) ctfEnd = some expiry ∧
    (buildArgoTimeout ⟨some timeLimit⟩).1 = some timeout ∧
      (now : Int) < expiry.toUnixTimeSeconds * 10000000 ∧
        (platform.generateChallengeToken appName expiry deploymentKey).bind
            (platform.verify (now / 10000000 : Nat)) =
          .ok ⟨expiry.toUnixTimeSeconds, appName, deploymentKey⟩ ∧
            expiry.toUnixTimeSeconds * 10000000 - now ≤ timeout.toInt * 600000000

theorem issueExpiry_eq_some {now : Nat} {timeLimit : Int32} {ctfEnd : Int} {expiry : DateTimeOffset}
    (h : issueExpiry now (some timeLimit) ctfEnd = some expiry) :
    ((now / 10000000 : Nat) : Int) + timeLimit.toInt * 60 ≤ 253402300799 ∧
      expiry.toUnixTimeSeconds =
        (finishTime (now / 10000000 : Nat) 0 timeLimit.toInt ctfEnd).1 := by
  simp only [issueExpiry, Option.map_some, Option.getD_some] at h
  split at h
  · rename_i hadded
    split at h
    · obtain rfl := Option.some.inj h
      exact ⟨hadded.2, rfl⟩
    · cases h
  · cases h

/-- No instance has a finish time yet when it becomes ready. -/
theorem finishTime_fresh (now : Nat) (minutes ctfEnd : Int) :
    (finishTime now 0 minutes ctfEnd).1 =
      if 0 < ctfEnd ∧ ctfEnd < now + minutes * 60 then ctfEnd else now + minutes * 60 := by
  have hnow : ¬ (now : Int) < 0 := by omega
  simp only [finishTime, if_neg hnow]

theorem buildArgoTimeout_of_pos {timeLimit : Int32} (h : 1 ≤ timeLimit.toInt) :
    (buildArgoTimeout ⟨some timeLimit⟩).1 = some timeLimit := by
  have hpos : ¬ timeLimit ≤ 0 := by
    rw [Int32.le_iff_toInt_le]
    have hzero : (0 : Int32).toInt = 0 := rfl
    omega
  simp only [buildArgoTimeout, if_neg hpos]

theorem getDeploymentAppName_ne_empty {k : Characters} {teamId challengeId : Int32} {name : String}
    {date : Nat} {app : String}
    (happ : getDeploymentAppName k teamId challengeId name date = some app) : app ≠ "" := by
  rintro rfl
  obtain ⟨-, htoList⟩ := getDeploymentAppName_eq_some_iff.mp happ
  cases htoList

theorem issueExpiry_exists {now : Nat} {timeLimit : Int32} (ctfEnd : Int)
    (hlimit : 0 ≤ timeLimit.toInt)
    (hrange : ((now / 10000000 : Nat) : Int) + timeLimit.toInt * 60 ≤ 253402300799) :
    ∃ expiry, issueExpiry now (some timeLimit) ctfEnd = some expiry := by
  have hfinish := finishTime_fresh (now / 10000000) timeLimit.toInt ctfEnd
  have hbounds : -62135596800 ≤ (finishTime (now / 10000000 : Nat) 0 timeLimit.toInt ctfEnd).1 ∧
      (finishTime (now / 10000000 : Nat) 0 timeLimit.toInt ctfEnd).1 ≤ 253402300799 := by
    rw [hfinish]
    split
    · omega
    · omega
  have hadded : -62135596800 ≤ ((now / 10000000 : Nat) : Int) + timeLimit.toInt * 60 ∧
      ((now / 10000000 : Nat) : Int) + timeLimit.toInt * 60 ≤ 253402300799 := ⟨by omega, hrange⟩
  refine ⟨⟨_, hbounds⟩, ?_⟩
  simp only [issueExpiry, Option.map_some, Option.getD_some]
  rw [if_pos hadded, dif_pos hbounds]

/-- The lifetimes of the token and of the pod fit exactly for a limit of a minute at least: zero
and the negative limit, which the pod's timeout replaces, make a token that has expired. -/
theorem lifetime_iff (platform : TokenPlatform) (k : Characters) (teamId challengeId : Int32)
    (name : String) (date : Nat) (app deploymentKey : String) (now : Nat) (timeLimit : Int32)
    (ctfEnd : Int) (happ : getDeploymentAppName k teamId challengeId name date = some app)
    (hend : ctfEnd = 0 ∨ (now : Int) < ctfEnd * 10000000) :
    LifetimeAgrees platform now timeLimit ctfEnd app deploymentKey ↔
      1 ≤ timeLimit.toInt ∧
        ((now / 10000000 : Nat) : Int) + timeLimit.toInt * 60 ≤ 253402300799 ∧
          isNullOrWhiteSpace platform.privateKey = false := by
  have hfresh := finishTime_fresh (now / 10000000) timeLimit.toInt ctfEnd
  constructor
  · rintro ⟨expiry, timeout, hissued, -, hlater, haccepted, -⟩
    obtain ⟨hrange, hfinish⟩ := issueExpiry_eq_some hissued
    rw [hfinish, hfresh] at hlater
    refine ⟨?_, hrange, ?_⟩
    · by_contra hlimit
      split at hlater
      · omega
      · omega
    · by_contra hkey
      rw [Bool.not_eq_false] at hkey
      rw [TokenPlatform.generateChallengeToken, if_pos hkey] at haccepted
      cases haccepted
  · rintro ⟨hlimit, hrange, hkey⟩
    obtain ⟨expiry, hissued⟩ := issueExpiry_exists ctfEnd (by omega) hrange
    have hfinish := (issueExpiry_eq_some hissued).2
    rw [hfresh] at hfinish
    have hlater : (now : Int) < expiry.toUnixTimeSeconds * 10000000 := by
      rw [hfinish]
      split
      · rename_i hcapped
        exact hend.resolve_left (by omega)
      · omega
    have hlifetime : expiry.toUnixTimeSeconds * 10000000 - now ≤ timeLimit.toInt * 600000000 := by
      rw [hfinish]
      split
      · omega
      · omega
    have hpos : 0 < expiry.toUnixTimeSeconds := by omega
    have hahead : ((now / 10000000 : Nat) : Int) < expiry.toUnixTimeSeconds := by omega
    refine ⟨expiry, timeLimit, hissued, buildArgoTimeout_of_pos hlimit, hlater, ?_, hlifetime⟩
    rw [platform.verify_generate hkey, platform.checkPayload_eq_ok_iff]
    exact ⟨rfl, hpos, getDeploymentAppName_ne_empty happ, hahead⟩

theorem lifetime_iff_thirty :
    ((0 : Int) = 0 ∨ ((17680896005000000 : Nat) : Int) < 0 * 10000000) ∧
      (LifetimeAgrees ⟨"k", fun _ _ => [0], fun _ => ""⟩ 17680896005000000 30 0
          "team-7-1-web-1768089600" "key" ↔
        1 ≤ (30 : Int32).toInt ∧
          ((17680896005000000 / 10000000 : Nat) : Int) + (30 : Int32).toInt * 60 ≤ 253402300799 ∧
            isNullOrWhiteSpace "k" = false) :=
  ⟨Or.inl rfl, lifetime_iff ⟨"k", fun _ _ => [0], fun _ => ""⟩ .lowerCase 7 1 "web" 1768089600 _
    "key" 17680896005000000 30 0 (by decide) (Or.inl rfl)⟩

/-- The validator admits a limit of zero minutes. -/
theorem no_minutes_expired : ¬ ∀ (platform : TokenPlatform) (k : Characters)
    (teamId challengeId : Int32) (name : String) (date : Nat) (app deploymentKey : String)
    (now : Nat) (timeLimit : Int32) (ctfEnd : Int),
      scoreInteger (-1) (some timeLimit.toInt) = some timeLimit.toInt →
        getDeploymentAppName k teamId challengeId name date = some app →
          (ctfEnd = 0 ∨ (now : Int) < ctfEnd * 10000000) →
            LifetimeAgrees platform now timeLimit ctfEnd app deploymentKey := by
  intro hall
  obtain ⟨expiry, timeout, hissued, -, hlater, -⟩ :=
    hall ⟨"k", fun _ _ => [0], fun _ => ""⟩ .lowerCase 7 1 "web" 1768089600
      "team-7-1-web-1768089600" "key" 17680896005000000 0 0 (by decide) (by decide) (Or.inl rfl)
  have hfinish := (issueExpiry_eq_some hissued).2
  rw [finishTime_fresh] at hfinish
  rw [hfinish] at hlater
  exact absurd hlater (by decide)

end Fctf
