import Mathlib.Data.Option.Basic
import Mathlib.Logic.Function.Basic

/-!
A cache in front of a source. A call looks at the entry of its key; an entry that is still good is
the answer, and otherwise the source is asked for what the call is about and may leave something
in the entry. A kept value knows what it was fetched for, which no call looks at.
-/

namespace Memo

variable {C κ ο ε α ρ : Type*}

structure Kept (ο α : Type*) where
  about : ο
  value : α
  time : Int
  deriving DecidableEq, Repr

/-- How calls use the cache: the entry they look at, what they are about, for how long a value of
an entry is good, and what they return and keep when they ask the source `ε`. -/
structure Policy (C κ ο ε α ρ : Type*) where
  key : C → κ
  about : C → ο
  good : κ → α → Int → Bool
  fetch : ε → C → ρ × Option α

/-- A call at a time, with the source as it is then. -/
structure Event (C ε : Type*) where
  call : C
  now : Int
  source : ε

/-- What a call returns. -/
inductive Answer (ο α ρ : Type*)
  | cached (kept : Kept ο α)
  | fetched (answer : ρ)

variable [DecidableEq κ] (p : Policy C κ ο ε α ρ)

/-- The entry that a call may use: its age is less than a value of its kind lives. -/
def usable (entries : κ → Option (Kept ο α)) (c : C) (now : Int) : Option (Kept ο α) :=
  (entries (p.key c)).filter fun kept => p.good (p.key c) kept.value (now - kept.time)

def step (entries : κ → Option (Kept ο α)) (e : Event C ε) :
    (κ → Option (Kept ο α)) × Answer ο α ρ :=
  match usable p entries e.call e.now with
  | some kept => (entries, .cached kept)
  | none =>
    match p.fetch e.source e.call with
    | (answer, some value) =>
      (Function.update entries (p.key e.call) (some ⟨p.about e.call, value, e.now⟩),
        .fetched answer)
    | (answer, none) => (entries, .fetched answer)

/-- The answers of a run, each with its call. -/
def run (entries : κ → Option (Kept ο α)) : List (Event C ε) → List (C × Answer ο α ρ)
  | [] => []
  | e :: rest => (e.call, (step p entries e).2) :: run (step p entries e).1 rest

/-- An answer from the cache was fetched for what the call is about. -/
def Coherent (answered : C × Answer ο α ρ) : Prop :=
  ∀ kept, answered.2 = .cached kept → kept.about = p.about answered.1

/-- Calls that share an entry are about the same. -/
def Separates (calls : Set C) : Prop :=
  ∀ c ∈ calls, ∀ c' ∈ calls, p.key c = p.key c' → p.about c = p.about c'

variable {p} {calls : Set C} {entries : κ → Option (Kept ο α)}

/-- Every entry was left by a call with its key. -/
def Filled (p : Policy C κ ο ε α ρ) (calls : Set C) (entries : κ → Option (Kept ο α)) : Prop :=
  ∀ k, ∀ kept ∈ entries k, ∃ c ∈ calls, p.key c = k ∧ p.about c = kept.about

omit [DecidableEq κ] in
theorem filled_empty : Filled p calls fun _ => none := by
  rintro k kept ⟨⟩

theorem Filled.step (h : Filled p calls entries) {e : Event C ε} (he : e.call ∈ calls) :
    Filled p calls (step p entries e).1 := by
  unfold Memo.step
  split
  · exact h
  · split
    · intro k kept hkept
      dsimp only at hkept
      by_cases hk : k = p.key e.call
      · subst hk
        rw [Function.update_self] at hkept
        obtain rfl := Option.some.inj hkept
        exact ⟨e.call, he, rfl, rfl⟩
      · rw [Function.update_of_ne hk] at hkept
        exact h k kept hkept
    · exact h

omit [DecidableEq κ] in
theorem usable_eq_some {c : C} {now : Int} {kept : Kept ο α}
    (h : usable p entries c now = some kept) : entries (p.key c) = some kept :=
  (Option.filter_eq_some_iff.mp h).1

/-- What a call finds in an entry was fetched for the call where no other calls share it. -/
theorem Filled.coherent (h : Filled p calls entries) (hcalls : Separates p calls) {e : Event C ε}
    (he : e.call ∈ calls) : Coherent p (e.call, (Memo.step p entries e).2) := by
  intro kept hkept
  unfold Memo.step at hkept
  split at hkept
  · rename_i found hfound
    obtain rfl : found = kept := Answer.cached.inj hkept
    obtain ⟨c, hc, hkey, habout⟩ := h _ found (usable_eq_some hfound)
    rw [← habout]
    exact hcalls c hc e.call he hkey
  · split at hkept <;> cases hkept

theorem Filled.run (h : Filled p calls entries) (hcalls : Separates p calls)
    (events : List (Event C ε)) (hevents : ∀ e ∈ events, e.call ∈ calls) :
    ∀ answered ∈ run p entries events, Coherent p answered := by
  induction events generalizing entries with
  | nil => exact fun _ h => absurd h List.not_mem_nil
  | cons e rest ih =>
    have he := hevents e List.mem_cons_self
    intro answered hmem
    rcases List.mem_cons.mp hmem with rfl | hmem
    · exact h.coherent hcalls he
    · exact ih (h.step he) (fun e' he' => hevents e' (List.mem_cons_of_mem _ he')) answered hmem

/-- Two calls that share an entry: the second one gets what was fetched for the first. -/
theorem run_shared {c c' : C} (hkey : p.key c' = p.key c) {source : ε} {value : α}
    (hfetch : (p.fetch source c).2 = some value) (hgood : p.good (p.key c) value 0 = true) :
    run p (fun _ => none) [⟨c, 0, source⟩, ⟨c', 0, source⟩] =
      [(c, .fetched (p.fetch source c).1), (c', .cached ⟨p.about c, value, 0⟩)] := by
  have hpair : p.fetch source c = ((p.fetch source c).1, some value) := by
    rw [← hfetch]
  have hmiss : usable p (fun _ => none) c 0 = none := rfl
  have hstep : step p (fun _ => none) ⟨c, 0, source⟩ =
      (Function.update (fun _ => none) (p.key c) (some ⟨p.about c, value, 0⟩),
        .fetched (p.fetch source c).1) := by
    simp only [step, hmiss]
    rw [hpair]
  have hhit : usable p
      (Function.update (fun _ => none) (p.key c) (some ⟨p.about c, value, 0⟩)) c' 0 =
      some ⟨p.about c, value, 0⟩ := by
    simp [usable, hkey, hgood]
  rw [run, run, run, hstep]
  simp only [step, hhit]

/-- Calls of which each can leave something that is good at once are answered coherently in every
run if and only if no two of them share an entry and are about different things. -/
theorem coherent_iff
    (hfetch : ∀ c ∈ calls, ∃ source value, (p.fetch source c).2 = some value ∧
      p.good (p.key c) value 0 = true) :
    (∀ events : List (Event C ε), (∀ e ∈ events, e.call ∈ calls) →
      ∀ answered ∈ run p (fun _ => none) events, Coherent p answered) ↔ Separates p calls := by
  constructor
  · intro h c hc c' hc' hkey
    obtain ⟨source, value, hvalue, hgood⟩ := hfetch c hc
    have hall := h [⟨c, 0, source⟩, ⟨c', 0, source⟩] (by simp [hc, hc'])
    rw [run_shared hkey.symm hvalue hgood] at hall
    exact hall _ (List.mem_cons_of_mem _ List.mem_cons_self) _ rfl
  · intro hcalls events hevents
    exact filled_empty.run hcalls events hevents

end Memo
