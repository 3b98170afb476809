import Mathlib.Algebra.Order.Field.Basic
import Mathlib.Tactic.Linarith
import Mathlib.Tactic.Ring

/-!
Token buckets over an ordered field. A bucket that holds at most `burst` tokens is filled at a
rate; a call takes a token, or is not allowed. In an interval, no more calls are allowed than the
tokens of a full bucket and those that flow in meanwhile.
-/

namespace TokenBucket

structure Limit (K : Type*) where
  rate : K
  burst : K

/-- The tokens that the last call has left, and when it was. -/
structure Bucket (K : Type*) where
  tokens : K
  ts : K

section Calls

variable {K : Type*} [LinearOrder K]

/-- The number of calls that are allowed from `first` to `last`. -/
def allowedWithin (first last : K) (calls : List (K × Bool)) : Nat :=
  calls.countP fun call => first ≤ call.1 && call.1 ≤ last && call.2

theorem allowedWithin_nil (first last : K) : allowedWithin first last [] = 0 := rfl

theorem allowedWithin_cons_inside {first last now : K} (allowed : Bool) (calls : List (K × Bool))
    (hfirst : first ≤ now) (hlast : now ≤ last) :
    allowedWithin first last ((now, allowed) :: calls) =
      allowedWithin first last calls + if allowed then 1 else 0 := by
  simp [allowedWithin, List.countP_cons, hfirst, hlast]

theorem allowedWithin_cons_outside {first last now : K} (allowed : Bool)
    (calls : List (K × Bool)) (hout : now < first ∨ last < now) :
    allowedWithin first last ((now, allowed) :: calls) = allowedWithin first last calls := by
  rcases hout with hout | hout <;> simp [allowedWithin, not_le.mpr hout]

theorem allowedWithin_eq_zero {first last : K} {calls : List (K × Bool)}
    (h : ∀ call ∈ calls, last < call.1) : allowedWithin first last calls = 0 := by
  rw [allowedWithin, List.countP_eq_zero]
  intro call hcall
  simp [not_le.mpr (h call hcall)]

end Calls

namespace Limit

variable {K : Type*} [Field K] [LinearOrder K] (limit : Limit K) (b : Bucket K) (now : K)

/-- The tokens at `now`. A clock that goes back takes none away. -/
def available : K := min limit.burst (b.tokens + max 0 (now - b.ts) * limit.rate)

def take : Bucket K × Bool :=
  if 1 ≤ limit.available b now then (⟨limit.available b now - 1, now⟩, true)
  else (⟨limit.available b now, now⟩, false)

/-- Calls one after the other, each with its time and whether it is allowed. -/
def calls : Bucket K → List K → List (K × Bool)
  | _, [] => []
  | b, now :: times => (now, (limit.take b now).2) :: calls (limit.take b now).1 times

variable {limit b now} {first last : K} {times : List K}

theorem time_of_mem_calls {call : K × Bool} (h : call ∈ limit.calls b times) :
    call.1 ∈ times := by
  induction times generalizing b with
  | nil => cases h
  | cons now times ih =>
    rcases List.mem_cons.mp h with rfl | h
    · exact List.mem_cons_self
    · exact List.mem_cons_of_mem _ (ih h)

@[simp] theorem take_ts : (limit.take b now).1.ts = now := by
  unfold take
  split <;> rfl

/-- A call takes what it is allowed. -/
theorem take_tokens (limit : Limit K) (b : Bucket K) (now : K) :
    (limit.take b now).1.tokens + (if (limit.take b now).2 then 1 else 0) =
      limit.available b now := by
  by_cases h : 1 ≤ limit.available b now <;> simp [take, h]

theorem available_le_burst (limit : Limit K) (b : Bucket K) (now : K) :
    limit.available b now ≤ limit.burst :=
  min_le_left _ _

theorem allowedWithin_of_late (hsorted : (now :: times).Pairwise (· ≤ ·)) (hlate : last < now) :
    allowedWithin first last (limit.calls b (now :: times)) = 0 := by
  apply allowedWithin_eq_zero
  intro call hcall
  rcases List.mem_cons.mp (time_of_mem_calls hcall) with hnow | hlater
  · rwa [hnow]
  · exact hlate.trans_le ((List.pairwise_cons.mp hsorted).1 _ hlater)

variable [IsStrictOrderedRing K]

theorem available_le (limit : Limit K) {since : K} (hle : since ≤ now) (hsince : b.ts = since) :
    limit.available b now ≤ b.tokens + limit.rate * (now - since) := by
  have h : limit.available b now ≤ b.tokens + max 0 (now - b.ts) * limit.rate := min_le_right _ _
  rw [hsince, max_eq_right (sub_nonneg.mpr hle), mul_comm] at h
  exact h

theorem take_tokens_nonneg (now : K) (hburst : 0 ≤ limit.burst) (hrate : 0 ≤ limit.rate)
    (htokens : 0 ≤ b.tokens) : 0 ≤ (limit.take b now).1.tokens := by
  have havailable : 0 ≤ limit.available b now :=
    le_min hburst (add_nonneg htokens (mul_nonneg (le_max_left _ _) hrate))
  unfold take
  split_ifs with h
  · exact sub_nonneg.mpr h
  · exact havailable

/-- A full bucket stays full. -/
theorem available_of_full (now : K) (hrate : 0 ≤ limit.rate) (hfull : b.tokens = limit.burst) :
    limit.available b now = limit.burst := by
  have hflow : 0 ≤ max 0 (now - b.ts) * limit.rate := mul_nonneg (le_max_left _ _) hrate
  rw [available, hfull]
  exact min_eq_left (le_add_of_nonneg_right hflow)

/-- A bucket that has been filled for long enough is full. -/
theorem available_of_filled {span : K} (hrate : 0 ≤ limit.rate) (htokens : 0 ≤ b.tokens)
    (hfill : limit.burst ≤ limit.rate * span) (hspan : span ≤ now - b.ts) :
    limit.available b now = limit.burst := by
  have hflow : limit.rate * span ≤ max 0 (now - b.ts) * limit.rate := by
    rw [mul_comm]
    exact mul_le_mul_of_nonneg_right (hspan.trans (le_max_right _ _)) hrate
  apply min_eq_left
  linarith

/-- A call adds to those after it what it takes from the bucket. -/
theorem allowedWithin_cons_le
    (hrest : (allowedWithin first last (limit.calls (limit.take b now).1 times) : K) ≤
      (limit.take b now).1.tokens + limit.rate * (last - now)) :
    (allowedWithin first last (limit.calls b (now :: times)) : K) ≤
      limit.available b now + limit.rate * (last - now) := by
  have htake := take_tokens limit b now
  have hspent : (0 : K) ≤ if (limit.take b now).2 then 1 else 0 := by
    split_ifs
    · exact zero_le_one
    · exact le_refl 0
  rw [calls]
  by_cases hinside : first ≤ now ∧ now ≤ last
  · rw [allowedWithin_cons_inside _ _ hinside.1 hinside.2]
    push_cast
    linarith
  · rw [allowedWithin_cons_outside]
    · linarith
    · rwa [not_and_or, not_le, not_le] at hinside

variable (hburst : 0 ≤ limit.burst) (hrate : 0 ≤ limit.rate)
include hburst hrate

/-- After a call: by induction on the calls, as each takes from what is left or has flown in. -/
theorem allowedWithin_le_tokens (first : K) {since : K} (hsince : b.ts = since)
    (htokens : 0 ≤ b.tokens) (hlast : since ≤ last) (hts : ∀ t ∈ times, since ≤ t)
    (hsorted : times.Pairwise (· ≤ ·)) :
    (allowedWithin first last (limit.calls b times) : K) ≤
      b.tokens + limit.rate * (last - since) := by
  have hflow := mul_nonneg hrate (sub_nonneg.mpr hlast)
  induction times generalizing b since with
  | nil =>
    rw [calls, allowedWithin_nil, Nat.cast_zero]
    exact add_nonneg htokens hflow
  | cons now times ih =>
    rcases lt_or_ge last now with hlate | hnow
    · rw [allowedWithin_of_late hsorted hlate, Nat.cast_zero]
      exact add_nonneg htokens hflow
    · obtain ⟨hlater, hsorted⟩ := List.pairwise_cons.mp hsorted
      have hrest := ih take_ts (take_tokens_nonneg now hburst hrate htokens) hnow hlater hsorted
        (mul_nonneg hrate (sub_nonneg.mpr hnow))
      have hcons := allowedWithin_cons_le hrest
      have hfill := available_le limit (hts now List.mem_cons_self) hsince
      linarith

/-- In an interval: the calls before it leave at most a full bucket. -/
theorem allowedWithin_le (htokens : 0 ≤ b.tokens) (hsorted : times.Pairwise (· ≤ ·))
    (hle : first ≤ last) :
    (allowedWithin first last (limit.calls b times) : K) ≤
      limit.burst + limit.rate * (last - first) := by
  have hflow := mul_nonneg hrate (sub_nonneg.mpr hle)
  induction times generalizing b with
  | nil =>
    rw [calls, allowedWithin_nil, Nat.cast_zero]
    exact add_nonneg hburst hflow
  | cons now times ih =>
    rcases lt_or_ge last now with hlate | hnow
    · rw [allowedWithin_of_late hsorted hlate, Nat.cast_zero]
      exact add_nonneg hburst hflow
    obtain ⟨hlater, hsorted⟩ := List.pairwise_cons.mp hsorted
    have htokens' := take_tokens_nonneg now hburst hrate htokens
    rcases lt_or_ge now first with hbefore | hfirst
    · rw [calls, allowedWithin_cons_outside _ _ (Or.inl hbefore)]
      exact ih htokens' hsorted
    · have hrest :=
        allowedWithin_le_tokens hburst hrate first take_ts htokens' hnow hlater hsorted
      have hcons := allowedWithin_cons_le hrest
      have hcap := available_le_burst limit b now
      have hshort : limit.rate * (last - now) ≤ limit.rate * (last - first) :=
        mul_le_mul_of_nonneg_left (sub_le_sub_left hfirst last) hrate
      linarith

end Limit

end TokenBucket
