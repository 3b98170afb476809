import Fctf.Lib.Expiring
import Fctf.Lib.TokenBucket
import Mathlib.Data.Rat.Cast.Order
import Mathlib.Algebra.Order.Ring.Rat

/-!
The rate limiter of the gateway. Its script keeps a token bucket in a hash of Redis, with the clock
of Redis in milliseconds. The hash goes when no call has come for a while, and by then the bucket
would be full again.
-/

namespace Fctf

open Expiring

/-- The answer of `TIME`. -/
structure ServerTime where
  seconds : Nat
  microseconds : Nat
  lt_second : microseconds < 1000000

namespace ServerTime

def inMicroseconds (t : ServerTime) : Nat := t.seconds * 1000000 + t.microseconds

/-- The script's `nowMs`. -/
def nowMs (t : ServerTime) : Nat := t.seconds * 1000 + t.microseconds / 1000

theorem nowMs_eq (t : ServerTime) : t.nowMs = t.inMicroseconds / 1000 := by
  unfold nowMs inMicroseconds
  omega

theorem nowMs_mono {t t' : ServerTime} (h : t.inMicroseconds ≤ t'.inMicroseconds) :
    t.nowMs ≤ t'.nowMs := by
  rw [nowMs_eq, nowMs_eq]
  exact Nat.div_le_div_right h

/-- The time that the buckets go by, in seconds. -/
def rounded (t : ServerTime) : ℚ := t.nowMs / 1000

theorem rounded_mono {t t' : ServerTime} (h : t.inMicroseconds ≤ t'.inMicroseconds) :
    t.rounded ≤ t'.rounded := by
  have hcast : (t.nowMs : ℚ) ≤ t'.nowMs := Nat.cast_le.mpr (nowMs_mono h)
  exact div_le_div_of_nonneg_right hcast (by norm_num)

end ServerTime

/-- The hash under a key of the rate limiter. -/
structure RateHash where
  tokens : ℚ
  ts : Nat

structure RateLimiter where
  rate : ℚ
  burst : Nat
  failClosed : Bool := false

namespace RateLimiter

/-- `int(rl.ttl.Seconds())`. -/
def ttl : Nat := 600

variable (rl : RateLimiter) (key : String)

/-- The tokens of a call before one is taken. A bucket that is not there is full. -/
def refilled (hash : Option RateHash) (nowMs : Nat) : ℚ :=
  let tokens := hash.elim (rl.burst : ℚ) RateHash.tokens
  let ts := hash.elim nowMs RateHash.ts
  let delta : ℚ := max 0 ((nowMs : ℚ) - ts) / 1000
  min rl.burst (tokens + delta * rl.rate)

/-- `redisRateLimitScript`. The hash is written, and lives on, whatever the answer is. -/
def script (redis : Store String RateHash) (time : ServerTime) : Store String RateHash × Bool :=
  let nowMs := time.nowMs
  let tokens := rl.refilled (redis.get nowMs key) nowMs
  let (tokens, allowed) := if 1 ≤ tokens then (tokens - 1, true) else (tokens, false)
  (redis.setEx nowMs key (ttl * 1000) ⟨tokens, nowMs⟩, allowed)

/-- `Allow`, with the script's answer or an error. -/
def allow (answer : Option Bool) : Bool :=
  if key = "" ∨ rl.rate ≤ 0 ∨ rl.burst ≤ 0 then true else answer.getD (!rl.failClosed)

/-- Calls for one key, each with the script's answer. -/
def calls : Store String RateHash → List ServerTime → List (ServerTime × Bool)
  | _, [] => []
  | redis, time :: times =>
    let (redis, answer) := rl.script key redis time
    (time, rl.allow key (some answer)) :: calls redis times

/-- The number of calls that are allowed from `first` to `last`. -/
def allowedWithin (first last : ServerTime) (calls : List (ServerTime × Bool)) : Nat :=
  calls.countP fun call =>
    first.inMicroseconds ≤ call.1.inMicroseconds &&
      call.1.inMicroseconds ≤ last.inMicroseconds && call.2

/-! ### The bucket that does not expire -/

def limit : TokenBucket.Limit ℚ := ⟨rl.rate, rl.burst⟩

/-- Redis has the bucket, or nothing and no token has been taken. -/
def Matches (redis : Store String RateHash) (b : TokenBucket.Bucket ℚ) : Prop :=
  0 ≤ b.tokens ∧
    ((redis.cell key = none ∧ b.tokens = rl.burst) ∨
      ∃ hash : RateHash, redis.cell key = some ⟨hash, some (hash.ts + ttl * 1000)⟩ ∧
        b = ⟨hash.tokens, (hash.ts : ℚ) / 1000⟩)

section Refinement

variable {rl key} {redis : Store String RateHash} {b : TokenBucket.Bucket ℚ}

theorem refilled_none (nowMs : Nat) : rl.refilled none nowMs = rl.burst := by
  simp [refilled]

theorem refilled_some (hash : RateHash) (time : ServerTime) :
    rl.refilled (some hash) time.nowMs =
      rl.limit.available ⟨hash.tokens, (hash.ts : ℚ) / 1000⟩ time.rounded := by
  have hdelta : max 0 ((time.nowMs : ℚ) - hash.ts) / 1000 =
      max 0 (time.rounded - (hash.ts : ℚ) / 1000) := by
    rw [ServerTime.rounded, ← sub_div, ← max_div_div_right (by norm_num), zero_div]
  simp only [refilled, Option.elim_some, hdelta]
  rfl

/-- What is taken from is the same with and without the expiry. -/
theorem refilled_get (hrate : 0 < rl.rate) (hfill : rl.burst ≤ rl.rate * ttl)
    (hmatches : rl.Matches key redis b) (time : ServerTime) :
    rl.refilled (redis.get time.nowMs key) time.nowMs = rl.limit.available b time.rounded := by
  obtain ⟨htokens, ⟨habsent, hfull⟩ | ⟨hash, hcell, rfl⟩⟩ := hmatches
  · have hget : redis.get time.nowMs key = none := by
      simp [Store.get, Store.find, habsent]
    rw [hget, refilled_none, TokenBucket.Limit.available_of_full _ hrate.le hfull]
    rfl
  · by_cases hlive : (time.nowMs : Int) < hash.ts + ttl * 1000
    · have hget : redis.get time.nowMs key = some hash := by
        simp [Store.get, Store.find, hcell, Option.filter, hlive]
      rw [hget, refilled_some]
    · have hget : redis.get time.nowMs key = none := by
        simp [Store.get, Store.find, hcell, Option.filter, hlive]
      have hspan : ((ttl : Nat) : ℚ) ≤ time.rounded - (hash.ts : ℚ) / 1000 := by
        have hcast : (hash.ts : ℚ) + ttl * 1000 ≤ time.nowMs := by
          exact_mod_cast Int.not_lt.mp hlive
        rw [ServerTime.rounded, ← sub_div, le_div_iff₀ (by norm_num)]
        exact le_sub_iff_add_le'.mpr hcast
      rw [hget, refilled_none,
        TokenBucket.Limit.available_of_filled hrate.le htokens hfill hspan]
      rfl

/-- One call: the same answer, and the buckets still match. -/
theorem script_matches (hrate : 0 < rl.rate) (hfill : rl.burst ≤ rl.rate * ttl)
    (hmatches : rl.Matches key redis b) (time : ServerTime) :
    rl.Matches key (rl.script key redis time).1 (rl.limit.take b time.rounded).1 ∧
      (rl.script key redis time).2 = (rl.limit.take b time.rounded).2 := by
  have hrefilled := refilled_get hrate hfill hmatches time
  have htokens : 0 ≤ (rl.limit.take b time.rounded).1.tokens :=
    TokenBucket.Limit.take_tokens_nonneg time.rounded (Nat.cast_nonneg _) hrate.le hmatches.1
  refine ⟨⟨htokens, Or.inr ⟨⟨(rl.limit.take b time.rounded).1.tokens, time.nowMs⟩, ?_, ?_⟩⟩, ?_⟩
  · simp only [script, hrefilled, Store.setEx, Function.update_self, TokenBucket.Limit.take]
    split_ifs <;> rfl
  · unfold TokenBucket.Limit.take
    split_ifs <;> rfl
  · simp only [script, hrefilled, TokenBucket.Limit.take]
    split_ifs <;> rfl

/-- With the milliseconds for the time, the calls are those of a bucket that does not expire. -/
theorem calls_eq (hkey : key ≠ "") (hrate : 0 < rl.rate) (hburst : 0 < rl.burst)
    (hfill : rl.burst ≤ rl.rate * ttl) (hmatches : rl.Matches key redis b)
    (times : List ServerTime) :
    (rl.calls key redis times).map (fun call => (call.1.rounded, call.2)) =
      rl.limit.calls b (times.map ServerTime.rounded) := by
  have hlimited : ∀ answer, rl.allow key (some answer) = answer := by
    intro answer
    have hno : ¬ (key = "" ∨ rl.rate ≤ 0 ∨ rl.burst ≤ 0) := by
      rintro (h | h | h)
      · exact hkey h
      · exact absurd h hrate.not_ge
      · omega
    rw [allow, if_neg hno, Option.getD_some]
  induction times generalizing redis b with
  | nil => rfl
  | cons time times ih =>
    obtain ⟨hnext, hanswer⟩ := script_matches hrate hfill hmatches time
    simp only [calls, List.map_cons, TokenBucket.Limit.calls, hlimited, hanswer, ih hnext]

/-- An interval has no call that the milliseconds put outside. -/
theorem allowedWithin_le_rounded (first last : ServerTime) (calls : List (ServerTime × Bool)) :
    allowedWithin first last calls ≤
      TokenBucket.allowedWithin first.rounded last.rounded
        (calls.map fun call => (call.1.rounded, call.2)) := by
  rw [allowedWithin, TokenBucket.allowedWithin, List.countP_map]
  apply List.countP_mono_left
  intro call _ h
  simp only [Bool.and_eq_true, decide_eq_true_eq] at h
  simp [h.2, ServerTime.rounded_mono h.1.1, ServerTime.rounded_mono h.1.2]

end Refinement

/-- From the first use of a key on: the calls allowed in an interval are at most the burst and what
flows in between the milliseconds of its ends. -/
theorem allowed_le (redis : Store String RateHash) (times : List ServerTime)
    (first last : ServerTime) (hkey : key ≠ "") (hrate : 0 < rl.rate) (hburst : 0 < rl.burst)
    (hfill : rl.burst ≤ rl.rate * ttl) (hunused : redis.cell key = none)
    (hsorted : (times.map ServerTime.inMicroseconds).Pairwise (· ≤ ·))
    (hle : first.inMicroseconds ≤ last.inMicroseconds) :
    (allowedWithin first last (rl.calls key redis times) : ℚ) ≤
      rl.burst + rl.rate * (((last.nowMs - first.nowMs : Nat) : ℚ) / 1000) := by
  have hmatches : rl.Matches key redis ⟨rl.burst, 0⟩ :=
    ⟨Nat.cast_nonneg _, Or.inl ⟨hunused, rfl⟩⟩
  have hrounded : (times.map ServerTime.rounded).Pairwise (· ≤ ·) := by
    rw [List.pairwise_map] at hsorted ⊢
    exact hsorted.imp ServerTime.rounded_mono
  have hfull : 0 ≤ rl.limit.burst := Nat.cast_nonneg _
  have hcount := TokenBucket.Limit.allowedWithin_le hfull hrate.le hmatches.1 hrounded
    (ServerTime.rounded_mono hle)
  rw [← calls_eq hkey hrate hburst hfill hmatches] at hcount
  have hspan : ((last.nowMs - first.nowMs : Nat) : ℚ) / 1000 = last.rounded - first.rounded := by
    rw [Nat.cast_sub (ServerTime.nowMs_mono hle), sub_div]
    rfl
  rw [hspan]
  exact (Nat.cast_le.mpr (allowedWithin_le_rounded _ _ _)).trans hcount

theorem allowed_le_two :
    (allowedWithin ⟨1, 999, by decide⟩ ⟨1, 50000, by decide⟩
      (calls ⟨20, 1, false⟩ "k" Store.empty [⟨1, 999, by decide⟩, ⟨1, 50000, by decide⟩]) : ℚ) ≤
      (1 : Nat) + 20 * (((1050 - 1000 : Nat) : ℚ) / 1000) :=
  allowed_le ⟨20, 1, false⟩ "k" Store.empty _ _ _ (by decide) (by norm_num) (by decide)
    (by norm_num [ttl]) rfl (by decide) (by decide)

/-- The milliseconds of two calls are further apart than the calls. -/
theorem two_within_49_ms : ¬ ∀ (rl : RateLimiter) (key : String) (redis : Store String RateHash)
    (times : List ServerTime) (first last : ServerTime), key ≠ "" → 0 < rl.rate → 0 < rl.burst →
    rl.burst ≤ rl.rate * ttl → redis.cell key = none →
    (times.map ServerTime.inMicroseconds).Pairwise (· ≤ ·) →
    first.inMicroseconds ≤ last.inMicroseconds →
    (allowedWithin first last (rl.calls key redis times) : ℚ) ≤
      rl.burst + rl.rate *
        (((last.inMicroseconds - first.inMicroseconds : Nat) : ℚ) / 1000000) := by
  intro h
  have hle := h ⟨20, 1, false⟩ "k" Store.empty [⟨1, 999, by decide⟩, ⟨1, 50000, by decide⟩]
    ⟨1, 999, by decide⟩ ⟨1, 50000, by decide⟩ (by decide) (by norm_num) (by decide)
    (by norm_num [ttl]) rfl (by decide) (by decide)
  have hcount : allowedWithin ⟨1, 999, by decide⟩ ⟨1, 50000, by decide⟩
      (calls ⟨20, 1, false⟩ "k" Store.empty [⟨1, 999, by decide⟩, ⟨1, 50000, by decide⟩]) = 2 := by
    decide +kernel
  rw [hcount] at hle
  norm_num [ServerTime.inMicroseconds] at hle

end RateLimiter

end Fctf
