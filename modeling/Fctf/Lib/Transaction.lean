import Mathlib.Logic.Basic

/-!
Programs that talk to a database in one transaction. A program is the tree of its calls; what
the database answers to each call is chosen from outside, so that an error can come at every
point. What a program has done before its commit is lost with an error, what comes after the
commit is not.
-/

namespace Transaction

/-- What comes back from a call. -/
inductive Answer
  | ok
  /-- The call fails and has no effect. -/
  | error
  /-- The call fails with a violated key. -/
  | conflict
  /-- The connection breaks after the call had its effect. -/
  | lost
  deriving DecidableEq, Repr

/-- An exception of a program: of the database, or one of its own. -/
inductive Raised (ε : Type)
  | database
  | integrity
  | own (e : ε)
  deriving DecidableEq, Repr

/-- A statement that violates a key is `none`. The program goes on with the state that the
statement has left. -/
inductive Program (σ ε α : Type)
  | ret (a : α)
  | raise (e : ε)
  | call (statement : σ → Option σ) (next : σ → Program σ ε α)

variable {σ ε α β : Type}

namespace Program

protected def bind : Program σ ε α → (α → Program σ ε β) → Program σ ε β
  | ret a, f => f a
  | raise e, _ => raise e
  | call statement next, f => call statement fun s => (next s).bind f

instance instMonad : Monad (Program σ ε) where
  pure := Program.ret
  bind := Program.bind

/-- A query. -/
def query : Program σ ε σ := call some .ret

def update (statement : σ → Option σ) : Program σ ε Unit := call statement fun _ => .ret ()

/-- The value, or an exception when there is none. -/
def getOr (e : ε) : Option α → Program σ ε α
  | some a => .ret a
  | none => .raise e

/-- Runs a program in the transaction's state `w`; its first call is the `n`th. -/
def run (answers : Nat → Answer) : Program σ ε α → Nat → σ → Except (Raised ε) α × σ × Nat
  | ret a, n, w => (.ok a, w, n)
  | raise e, n, w => (.error (.own e), w, n)
  | call statement next, n, w =>
    match answers n with
    | .ok =>
      match statement w with
      | some w' => (next w').run answers (n + 1) w'
      | none => (.error .integrity, w, n + 1)
    | .conflict => (.error .integrity, w, n + 1)
    | .error | .lost => (.error .database, w, n + 1)

/-- The run in which the database answers every call. -/
def undisturbed (p : Program σ ε α) (w : σ) : Except (Raised ε) α × σ × Nat :=
  p.run (fun _ => .ok) 0 w

/-- The effect of an undisturbed run that does not raise. -/
def exec : Program σ ε α → σ → Option (α × σ)
  | ret a, w => some (a, w)
  | raise _, _ => none
  | call statement next, w => (statement w).bind fun w' => (next w').exec w'

section Exec

variable (p : Program σ ε α) (f : α → Program σ ε β) (w : σ)

@[simp] theorem exec_pure (a : α) : (Pure.pure a : Program σ ε α).exec w = some (a, w) := rfl

@[simp] theorem exec_raise (e : ε) : (raise e : Program σ ε α).exec w = none := rfl

@[simp] theorem exec_query : (query : Program σ ε σ).exec w = some (w, w) := rfl

@[simp] theorem exec_update (statement : σ → Option σ) :
    (update statement : Program σ ε Unit).exec w = (statement w).map ((), ·) := by
  unfold update exec
  cases statement w <;> rfl

@[simp] theorem exec_getOr (e : ε) (value : Option α) :
    (getOr e value : Program σ ε α).exec w = value.map (·, w) := by
  cases value <;> rfl

@[simp] theorem exec_bind :
    (p >>= f).exec w = (p.exec w).bind fun (a, w') => (f a).exec w' := by
  change (p.bind f).exec w = _
  induction p generalizing w with
  | ret a => rfl
  | raise e => rfl
  | call statement next ih =>
    simp only [Program.bind, exec, Option.bind_assoc]
    congr 1
    funext w'
    exact ih w' w'

end Exec

/-- A run only counts further. -/
theorem le_run (answers : Nat → Answer) (p : Program σ ε α) (n : Nat) (w : σ) :
    n ≤ (p.run answers n w).2.2 := by
  induction p generalizing n w with
  | ret a => exact Nat.le_refl n
  | raise e => exact Nat.le_refl n
  | call statement next ih =>
    unfold run
    split
    · split
      · exact Nat.le_of_succ_le (ih _ _ _)
      · exact Nat.le_succ n
    · exact Nat.le_succ n
    · exact Nat.le_succ n
    · exact Nat.le_succ n

/-- The undisturbed run, without its count. -/
theorem exec_eq (p : Program σ ε α) (n : Nat) (w : σ) :
    p.exec w = (p.run (fun _ => .ok) n w).1.toOption.map
      (·, (p.run (fun _ => .ok) n w).2.1) := by
  induction p generalizing n w with
  | ret a => rfl
  | raise e => rfl
  | call statement next ih =>
    unfold run exec
    cases statement w with
    | none => rfl
    | some w' => exact ih w' (n + 1) w'

/-- What a successful run has needed: that the undisturbed run succeeds, and that every call of
it was answered. -/
theorem run_eq_ok {answers : Nat → Answer} {p : Program σ ε α} {n m : Nat} {w w' : σ} {a : α} :
    p.run answers n w = (.ok a, w', m) ↔
      p.run (fun _ => .ok) n w = (.ok a, w', m) ∧ ∀ i, n ≤ i → i < m → answers i = .ok := by
  induction p generalizing n w with
  | ret b =>
    unfold run
    constructor
    · intro h
      have hcount : n = m := congrArg (fun r => r.2.2) h
      refine ⟨h, fun i hle hlt => ?_⟩
      omega
    · exact fun h => h.1
  | raise e =>
    unfold run
    constructor
    · intro h
      cases h
    · rintro ⟨h, -⟩
      cases h
  | call statement next ih =>
    unfold run
    cases hanswer : answers n with
    | ok =>
      cases hstatement : statement w with
      | none =>
        constructor
        · intro h
          cases h
        · rintro ⟨h, -⟩
          cases h
      | some v =>
        dsimp only
        rw [ih v]
        refine and_congr_right fun hrun => ?_
        constructor
        · intro h i hle hlt
          rcases Nat.eq_or_lt_of_le hle with rfl | hnext
          · exact hanswer
          · exact h i hnext hlt
        · exact fun h i hle => h i (Nat.le_of_succ_le hle)
    | error | conflict | lost =>
      constructor
      · intro h
        cases h
      · rintro ⟨h, hanswers⟩
        -- the call itself was counted
        have hlt : n < m := by
          dsimp only at h
          split at h
          · rename_i v _
            have hle := le_run (fun _ => Answer.ok) (next v) (n + 1) v
            rw [h] at hle
            exact hle
          · cases h
        have hok := hanswers n (Nat.le_refl n) hlt
        rw [hanswer] at hok
        cases hok

end Program

/-- A request: its body in a transaction that is committed at the end and rolled back with every
exception, and the number of queries that it makes after the commit. -/
structure Method (σ ε α : Type) where
  body : Program σ ε α
  after : σ → Nat

namespace Method

variable (method : Method σ ε α) (answers : Nat → Answer) (s : σ)

/-- The reply and the database after the request. -/
def perform : Except (Raised ε) α × σ :=
  match method.body.run answers 0 s with
  | (.error e, _, _) => (.error e, s)
  | (.ok a, w, n) =>
    match answers n with
    | .error => (.error .database, s)
    | .conflict => (.error .integrity, s)
    | .lost => (.error .database, w)
    | .ok =>
      if ∀ i < method.after w, answers (n + 1 + i) = .ok then (.ok a, w)
      else (.error .database, w)

/-- The number of the call that commits, counted from 0. -/
def commitCall : Nat := (method.body.undisturbed s).2.2

/-- The calls before the commit are answered. -/
def Reaches : Prop := ∀ i < method.commitCall s, answers i = .ok

/-- The commit has its effect, and an error comes with its answer or in a query after it. -/
def LateError : Prop :=
  answers (method.commitCall s) = .lost ∨
    answers (method.commitCall s) = .ok ∧ ∃ committed ∈ method.body.exec s,
      ∃ i < method.after committed.2, answers (method.commitCall s + 1 + i) ≠ .ok

instance decidableReaches : Decidable (method.Reaches answers s) :=
  inferInstanceAs (Decidable (∀ i < _, _))

instance decidableLateError : Decidable (method.LateError answers s) :=
  inferInstanceAs (Decidable (_ ∨ _ ∧ ∃ committed ∈ _, ∃ i < _, _))

variable {method answers s} {a : α} {w : σ}

/-- What a successful body has needed. -/
theorem run_body_eq_ok {n : Nat} :
    method.body.run answers 0 s = (.ok a, w, n) ↔
      method.body.exec s = some (a, w) ∧ n = method.commitCall s ∧ method.Reaches answers s := by
  rw [Program.run_eq_ok, Program.exec_eq method.body 0 s]
  unfold Reaches commitCall Program.undisturbed
  constructor
  · rintro ⟨hrun, hanswers⟩
    rw [hrun]
    exact ⟨rfl, rfl, fun i hi => hanswers i (Nat.zero_le i) hi⟩
  · rintro ⟨hexec, rfl, hanswers⟩
    refine ⟨?_, fun i _ hi => hanswers i hi⟩
    obtain ⟨b, hb, hpair⟩ := Option.map_eq_some_iff.mp hexec
    obtain ⟨rfl, rfl⟩ := Prod.mk.inj hpair
    cases hresult : (method.body.run (fun _ => .ok) 0 s).1 with
    | error e =>
      rw [hresult] at hb
      cases hb
    | ok c =>
      rw [hresult] at hb
      obtain rfl : c = b := Option.some.inj hb
      rw [← hresult]

/-- A request that succeeds has had its whole effect. -/
theorem perform_ok (h : (method.perform answers s).1 = .ok a) :
    method.body.exec s = some (a, (method.perform answers s).2) := by
  unfold perform at h ⊢
  split at h
  · cases h
  · rename_i b w n hrun
    obtain ⟨hexec, -, -⟩ := run_body_eq_ok.mp hrun
    split at h
    · cases h
    · cases h
    · cases h
    · split at h
      · rename_i hafter
        obtain rfl : b = a := by simpa using h
        simp only [if_pos hafter]
        exact hexec
      · cases h

/-- A request that fails has no effect, except after a late error. -/
theorem perform_error {e : Raised ε} (h : (method.perform answers s).1 = .error e) :
    (method.perform answers s).2 = s ∨
      ∃ a w, method.body.exec s = some (a, w) ∧ method.Reaches answers s ∧
        method.LateError answers s ∧ (method.perform answers s).2 = w := by
  unfold perform at h ⊢
  split at h
  · exact .inl rfl
  · rename_i b w n hrun
    obtain ⟨hexec, rfl, hreaches⟩ := run_body_eq_ok.mp hrun
    cases hanswer : answers (method.commitCall s) with
    | error => exact .inl rfl
    | conflict => exact .inl rfl
    | lost => exact .inr ⟨b, w, hexec, hreaches, .inl hanswer, rfl⟩
    | ok =>
      dsimp only
      split
      · rename_i hafter
        simp only [hanswer, if_pos hafter] at h
        cases h
      · rename_i hafter
        refine .inr ⟨b, w, hexec, hreaches, .inr ⟨hanswer, (b, w), hexec, ?_⟩, rfl⟩
        simpa using hafter

/-- A late error leaves the effect and takes the success. -/
theorem perform_late (hexec : method.body.exec s = some (a, w))
    (hreaches : method.Reaches answers s) (hlate : method.LateError answers s) :
    method.perform answers s = (.error .database, w) := by
  have hrun := run_body_eq_ok.mpr ⟨hexec, rfl, hreaches⟩
  unfold perform
  rw [hrun]
  dsimp only
  rcases hlate with hlost | ⟨hok, committed, hcommitted, i, hi, herror⟩
  · rw [hlost]
  · obtain rfl := Option.some.inj (hexec.symm.trans hcommitted)
    rw [hok, if_neg fun hall => herror (hall i hi)]

end Method

end Transaction
