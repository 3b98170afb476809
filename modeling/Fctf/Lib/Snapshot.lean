import Fctf.Lib.Run

/-!
Requests that overlap. A request reads the database as it is when the request begins, and writes
to the database as it is when the request commits; between the two other requests may commit. A
request that never commits has no effect.
-/

namespace Snapshot

open Run

variable {ρ σ : Type*}

/-- A request that has begun, and what it sees. -/
structure Opened (ρ σ : Type*) where
  request : ρ
  seen : σ

structure System (ρ σ : Type*) where
  db : σ
  opened : List (Opened ρ σ) := []

inductive Event (ρ : Type*)
  | begins (request : ρ)
  | commits (index : Nat)

/-- `commit` says what a request makes of the database, after what it has seen. -/
def step (commit : ρ → σ → σ → σ) (s : System ρ σ) : Event ρ → Option (System ρ σ)
  | .begins request => some { s with opened := s.opened ++ [⟨request, s.db⟩] }
  | .commits index =>
    s.opened[index]?.map fun o => ⟨commit o.request o.seen s.db, s.opened.eraseIdx index⟩

/-- A condition on the commits. -/
def Allowed (cond : ρ → σ → σ → Prop) (s : System ρ σ) : Event ρ → Prop
  | .begins _ => True
  | .commits index => ∀ o ∈ s.opened[index]?, cond o.request o.seen s.db

instance decidableAllowed (cond : ρ → σ → σ → Prop)
    [∀ request seen db, Decidable (cond request seen db)] (s : System ρ σ) :
    ∀ event, Decidable (Allowed cond s event)
  | .begins _ => inferInstanceAs (Decidable True)
  | .commits _ => inferInstanceAs (Decidable (∀ _ ∈ _, _))

/-- What the open requests have seen has grown into the database. -/
def Grown (le : σ → σ → Prop) (s : System ρ σ) : Prop :=
  ∀ o ∈ s.opened, le o.seen s.db

variable {commit : ρ → σ → σ → σ} {le : σ → σ → Prop}

theorem grown_step (hrefl : ∀ db, le db db)
    (htrans : ∀ {a b c}, le a b → le b c → le a c)
    (hcommit : ∀ request seen db, le db (commit request seen db)) (s : System ρ σ)
    (event : Event ρ) (t : System ρ σ) (h : Grown le s) (hs : step commit s event = some t) :
    Grown le t := by
  cases event with
  | begins request =>
    obtain rfl := Option.some.inj hs
    intro o ho
    rcases List.mem_append.mp ho with ho | ho
    · exact h o ho
    · obtain rfl := List.mem_singleton.mp ho
      exact hrefl s.db
  | commits index =>
    obtain ⟨closed, -, rfl⟩ := Option.map_eq_some_iff.mp hs
    intro o ho
    exact htrans (h o (List.mem_of_mem_eraseIdx ho)) (hcommit _ _ _)

/-- A property of the database that a commit keeps exactly under a condition holds all along a run
exactly when every commit meets the condition. -/
theorem forall_visited_iff (hrefl : ∀ db, le db db)
    (htrans : ∀ {a b c}, le a b → le b c → le a c)
    (hcommit : ∀ request seen db, le db (commit request seen db)) {P : σ → Prop}
    {cond : ρ → σ → σ → Prop}
    (hiff : ∀ request seen db, le seen db → P db →
      (P (commit request seen db) ↔ cond request seen db))
    (events : List (Event ρ)) {db : σ} (hstart : P db) :
    (∀ t ∈ visited (step commit) ⟨db, []⟩ events, P t.db) ↔
      Meets (step commit) (Allowed cond) ⟨db, []⟩ events := by
  refine forall_visited_iff_meets (I := Grown le) (P := fun s => P s.db)
    (grown_step hrefl htrans hcommit) ?_ events ?_ hstart
  · intro s event hgrown hs
    cases event with
    | begins request => simpa [step, Allowed] using hs
    | commits index =>
      cases ho : s.opened[index]? with
      | none => simp [step, Allowed, ho]
      | some o =>
        have hseen := hgrown o (List.mem_of_getElem? ho)
        simpa [step, Allowed, ho] using hiff o.request o.seen s.db hseen hs
  · exact fun o ho => absurd ho List.not_mem_nil

end Snapshot
