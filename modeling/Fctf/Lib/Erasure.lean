import Mathlib.Logic.Basic

/-!
Secrets by erasure: two states are alike when they are the same once their secrets are erased.
An observation tells alike states apart unless it is made as well of the erased state. In a table,
the rows that are secret are changed.
-/

namespace Erasure

variable {σ ρ : Type*} {erase : σ → σ} {s t u : σ}

/-- The states differ in their secrets only. -/
def Alike (erase : σ → σ) (s t : σ) : Prop := erase s = erase t

theorem Alike.refl (erase : σ → σ) (s : σ) : Alike erase s s := rfl

theorem Alike.symm (h : Alike erase s t) : Alike erase t s := Eq.symm h

theorem Alike.trans (h : Alike erase s t) (h' : Alike erase t u) : Alike erase s u := Eq.trans h h'

/-- A change of the secrets is a change that erasing them takes away. -/
theorem alike_of_erase {change : σ → σ} (h : ∀ s, erase (change s) = erase s) (s : σ) :
    Alike erase s (change s) := (h s).symm

/-- All states alike are observed alike exactly when each is observed like its erasure. -/
theorem agree_iff (hidem : ∀ s, erase (erase s) = erase s) (f : σ → ρ) (s : σ) :
    (∀ t, Alike erase s t → ∀ u, Alike erase s u → f t = f u) ↔
      ∀ t, Alike erase s t → f t = f (erase t) := by
  constructor
  · intro h t ht
    exact h t ht (erase t) (ht.trans (alike_of_erase hidem t))
  · intro h t ht u hu
    rw [h t ht, h u hu]
    have halike : erase t = erase u := ht.symm.trans hu
    rw [halike]

section Rows

variable {α β : Type*} (secret : α → Bool) (change : α → α)

/-- A row with a change, if it is secret. -/
def alterIf (a : α) : α := if secret a then change a else a

variable {secret change} {a : α}

theorem alterIf_of_secret (h : secret a = true) : alterIf secret change a = change a := if_pos h

theorem alterIf_of_open (h : secret a = false) : alterIf secret change a = a :=
  if_neg (by rw [h]; exact Bool.false_ne_true)

/-- What the change keeps is kept. -/
theorem alterIf_keeps (f : α → β) (hkeeps : ∀ a, f (change a) = f a) (a : α) :
    f (alterIf secret change a) = f a := by
  unfold alterIf
  split
  · exact hkeeps a
  · rfl

/-- A second change that keeps nothing of the first one takes its place. -/
theorem alterIf_twice {secret' : α → Bool} {change' : α → α} (hsecret : ∀ a, secret' a = secret a)
    (hkeeps : ∀ a, secret (change a) = secret a) (hlast : ∀ a, change' (change a) = change' a)
    (a : α) : alterIf secret' change' (alterIf secret change a) = alterIf secret change' a := by
  obtain rfl : secret' = secret := funext hsecret
  cases ha : secret' a with
  | true =>
    rw [alterIf_of_secret ha, alterIf_of_secret ha, alterIf_of_secret ((hkeeps a).trans ha), hlast]
  | false => rw [alterIf_of_open ha, alterIf_of_open ha]

end Rows

end Erasure
