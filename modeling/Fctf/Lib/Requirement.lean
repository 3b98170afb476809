import Mathlib.Data.Option.Basic
import Mathlib.Logic.Function.Basic

/-!
Entries that require one another, each in a state. When one state shows an entry and another one
hides it, no entry that is shown should require one that is hidden. The rules say which changes of
the entries keep it so.
-/

namespace Requirement

variable {κ σ : Type*}

/-- A state, and the keys of the entries that are required. -/
structure Entry (κ σ : Type*) where
  state : σ
  requires : List κ

/-- No entry that is shown requires one that is hidden. -/
def Coherent (shown hidden : σ) (entries : κ → Option (Entry κ σ)) : Prop :=
  ∀ k, ∀ d ∈ entries k, d.state = shown →
    ∀ p ∈ d.requires, ∀ e ∈ entries p, e.state ≠ hidden

/-- Another entry that is shown requires the key. -/
def Required (shown : σ) (entries : κ → Option (Entry κ σ)) (k : κ) : Prop :=
  ∃ j, j ≠ k ∧ ∃ d ∈ entries j, d.state = shown ∧ k ∈ d.requires

/-- Whether an entry may be shown under a key: what else it requires is not hidden. -/
def Showable (hidden : σ) (entries : κ → Option (Entry κ σ)) (k : κ) (d : Entry κ σ) : Prop :=
  ∀ p ∈ d.requires, p ≠ k → ∀ e ∈ entries p, e.state ≠ hidden

/-- Hides the entries under some keys. -/
def hideAll (hidden : σ) (reached : κ → Prop) [DecidablePred reached]
    (entries : κ → Option (Entry κ σ)) (k : κ) : Option (Entry κ σ) :=
  (entries k).map fun d => if reached k then { d with state := hidden } else d

variable {shown hidden : σ} {entries : κ → Option (Entry κ σ)}

section Update

variable [DecidableEq κ]

theorem Coherent.erase (h : Coherent shown hidden entries) (k : κ) :
    Coherent shown hidden (Function.update entries k none) := by
  intro j d hd hshown p hp e he
  by_cases hj : j = k
  · subst hj
    simp at hd
  · by_cases hpk : p = k
    · subst hpk
      simp at he
    · rw [Function.update_of_ne hj] at hd
      rw [Function.update_of_ne hpk] at he
      exact h j d hd hshown p hp e he

/-- Putting an entry under a key. -/
theorem Coherent.put_iff (hne : shown ≠ hidden) (h : Coherent shown hidden entries) (k : κ)
    (d : Entry κ σ) :
    Coherent shown hidden (Function.update entries k (some d)) ↔
      (d.state = shown → Showable hidden entries k d) ∧
        (d.state = hidden → ¬ Required shown entries k) := by
  constructor
  · intro hput
    constructor
    · intro hshown p hp hpk e he
      refine hput k d (by simp) hshown p hp e ?_
      rwa [Function.update_of_ne hpk]
    · rintro hhidden ⟨j, hj, b, hb, hshown, hk⟩
      refine hput j b ?_ hshown k hk d (by simp) hhidden
      rwa [Function.update_of_ne hj]
  · rintro ⟨hshow, hhide⟩ j b hb hshown p hp e he
    by_cases hj : j = k
    · subst hj
      obtain rfl : d = b := by simpa using hb
      by_cases hpk : p = j
      · subst hpk
        obtain rfl : d = e := by simpa using he
        exact fun hhidden => hne (hshown.symm.trans hhidden)
      · rw [Function.update_of_ne hpk] at he
        exact hshow hshown p hp hpk e he
    · rw [Function.update_of_ne hj] at hb
      by_cases hpk : p = k
      · subst hpk
        obtain rfl : d = e := by simpa using he
        exact fun hhidden => hhide hhidden ⟨j, hj, b, hb, hshown, hp⟩
      · rw [Function.update_of_ne hpk] at he
        exact h j b hb hshown p hp e he

/-- An entry that is hidden where it was not is the only one that may be missed. -/
theorem Coherent.hide_iff (hne : shown ≠ hidden) (h : Coherent shown hidden entries) (k : κ)
    (d : Entry κ σ) (hd : d.state = hidden) :
    Coherent shown hidden (Function.update entries k (some d)) ↔ ¬ Required shown entries k := by
  rw [h.put_iff hne]
  constructor
  · exact fun hput => hput.2 hd
  · exact fun hfree => ⟨fun hshown => absurd (hshown.symm.trans hd) hne, fun _ => hfree⟩

end Update

/-- Hiding what is reached mends the entries, when everything that is shown against the rule is
reached and everything that requires what is reached is reached. -/
theorem coherent_hideAll {reached : κ → Prop} [DecidablePred reached] (hne : shown ≠ hidden)
    (hstart : ∀ k, ∀ d ∈ entries k, d.state = shown →
      ∀ p ∈ d.requires, ∀ e ∈ entries p, e.state = hidden → reached k)
    (hclosed : ∀ k, ∀ d ∈ entries k, d.state = shown → ∀ p ∈ d.requires, reached p → reached k) :
    Coherent shown hidden (hideAll hidden reached entries) := by
  intro k d hd hshown p hp e he hhidden
  obtain ⟨b, hb, rfl⟩ := Option.map_eq_some_iff.mp hd
  obtain ⟨c, hc, rfl⟩ := Option.map_eq_some_iff.mp he
  by_cases hk : reached k
  · rw [if_pos hk] at hshown
    exact hne hshown.symm
  · rw [if_neg hk] at hshown hp
    by_cases hreach : reached p
    · exact hk (hclosed k b hb hshown p hp hreach)
    · rw [if_neg hreach] at hhidden
      exact hk (hstart k b hb hshown p hp c hc hhidden)

end Requirement
