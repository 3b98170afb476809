import Fctf.Lib.Expiring

/-!
A lock with a lease: whoever stores its token under the key first holds the lock, until it
removes the token or the lease runs out. Releasing looks at the token, so that a late release
takes nothing from the next holder.
-/

namespace Lease

open Expiring

variable {κ τ : Type*} [DecidableEq κ] [DecidableEq τ]

/-- Stores the token unless there is one. -/
def acquire (locks : Store κ τ) (now : Int) (key : κ) (token : τ) (expiry : Int) :
    Bool × Store κ τ :=
  if locks.contains now key then (false, locks) else (true, locks.setEx now key expiry token)

/-- Removes the token, and no other one. -/
def release (locks : Store κ τ) (now : Int) (key : κ) (token : τ) : Store κ τ :=
  if locks.get now key = some token then locks.del key else locks

/-- The lease of a token has not run out. -/
def Holds (locks : Store κ τ) (now : Int) (key : κ) (token : τ) : Prop :=
  locks.get now key = some token

instance decidableHolds (locks : Store κ τ) (now : Int) (key : κ) (token : τ) :
    Decidable (Holds locks now key token) := inferInstanceAs (Decidable (_ = _))

variable {locks : Store κ τ} {now expiry : Int} {key : κ} {token other : τ}

omit [DecidableEq κ] [DecidableEq τ] in
theorem Holds.unique (h : Holds locks now key token) (h' : Holds locks now key other) :
    token = other :=
  Option.some.inj (h.symm.trans h')

omit [DecidableEq τ] in
theorem acquire_true (h : (acquire locks now key token expiry).1 = true) (hexpiry : 0 < expiry) :
    Holds (acquire locks now key token expiry).2 now key token ∧
      ∀ other, ¬ Holds locks now key other := by
  unfold acquire at h ⊢
  split at h
  · cases h
  · rename_i hfree
    rw [if_neg hfree]
    constructor
    · have hlive : now < now + expiry := by omega
      simp [Holds, Store.get, Store.find_setEx_self, hlive]
    · intro other hother
      obtain ⟨c, hfind, -⟩ := Store.get_eq_some.mp hother
      exact hfree (Store.contains_iff.mpr ⟨c, hfind⟩)

omit [DecidableEq τ] in
/-- A holder keeps the lock while others ask for it. -/
theorem Holds.acquire (h : Holds locks now key other) :
    Holds (acquire locks now key token expiry).2 now key other := by
  obtain ⟨c, hfind, -⟩ := Store.get_eq_some.mp h
  unfold Lease.acquire
  rw [if_pos (Store.contains_iff.mpr ⟨c, hfind⟩)]
  exact h

/-- A holder keeps the lock while others release theirs. -/
theorem Holds.release (h : Holds locks now key other) (hne : other ≠ token) :
    Holds (release locks now key token) now key other := by
  unfold Lease.release
  rw [if_neg]
  · exact h
  · intro htoken
    exact hne (h.unique htoken)

/-! ### Leases and when they run out -/

/-- The lease of a token has not run out, and does so at a deadline. -/
def HoldsUntil (locks : Store κ τ) (now : Int) (key : κ) (token : τ) (deadline : Int) : Prop :=
  locks.find now key = some ⟨token, some deadline⟩

section HoldsUntil

variable {locks : Store κ τ} {now later deadline expiry : Int} {key key' : κ} {token other : τ}

omit [DecidableEq κ] [DecidableEq τ]

theorem HoldsUntil.holds (h : HoldsUntil locks now key token deadline) :
    Holds locks now key token :=
  Store.get_eq_some.mpr ⟨_, h, rfl⟩

theorem HoldsUntil.contains (h : HoldsUntil locks now key token deadline) :
    locks.contains now key = true :=
  Store.contains_iff.mpr ⟨_, h⟩

/-- A lease lasts until its deadline. -/
theorem HoldsUntil.lasts (h : HoldsUntil locks now key token deadline)
    (hlive : later < deadline) : HoldsUntil locks later key token deadline := by
  obtain ⟨hcell, -⟩ := Store.find_eq_some.mp h
  exact Store.find_eq_some.mpr ⟨hcell, (Cell.live_some ..).mpr hlive⟩

variable [DecidableEq κ]

theorem acquire_false (h : (acquire locks now key token expiry).1 = false) :
    (acquire locks now key token expiry).2 = locks := by
  unfold acquire at h ⊢
  split
  · rfl
  · rename_i hfree
    rw [if_neg hfree] at h
    cases h

theorem acquire_holdsUntil (h : (acquire locks now key token expiry).1 = true)
    (hexpiry : 0 < expiry) :
    HoldsUntil (acquire locks now key token expiry).2 now key token (now + expiry) := by
  unfold acquire at h ⊢
  split at h
  · cases h
  · rename_i hfree
    have hlive : now < now + expiry := by omega
    rw [if_neg hfree, HoldsUntil, Store.find_setEx_self, if_pos hlive]

/-- Nobody acquires a lock that is held, and other locks are other keys. -/
theorem HoldsUntil.acquire (h : HoldsUntil locks now key other deadline) :
    HoldsUntil (acquire locks now key' token expiry).2 now key other deadline := by
  unfold Lease.acquire
  split
  · exact h
  · rename_i hfree
    have hne : key ≠ key' := by
      rintro rfl
      exact hfree h.contains
    rw [HoldsUntil, Store.find_setEx_ne _ _ _ _ _ hne]
    exact h

/-- Only its own token releases a lock. -/
theorem HoldsUntil.release [DecidableEq τ] (h : HoldsUntil locks now key other deadline)
    (hne : key' = key → token ≠ other) :
    HoldsUntil (release locks now key' token) now key other deadline := by
  unfold Lease.release
  split
  · rename_i htoken
    have hkey : key ≠ key' := by
      rintro rfl
      exact hne rfl (Holds.unique htoken h.holds)
    rw [HoldsUntil, Store.find_del_ne _ _ hkey]
    exact h
  · exact h

/-- Deleting a key whose time has run out takes no lease. -/
theorem HoldsUntil.expire (h : HoldsUntil locks now key other deadline)
    (hgone : locks.contains now key' = false) :
    HoldsUntil (locks.del key') now key other deadline := by
  have hkey : key ≠ key' := by
    rintro rfl
    rw [h.contains] at hgone
    cases hgone
  rw [HoldsUntil, Store.find_del_ne _ _ hkey]
  exact h

end HoldsUntil

end Lease
