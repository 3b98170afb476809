import Mathlib.Data.Option.Basic
import Mathlib.Data.List.Basic

/-!
Runs of a labelled, partial step function. `step s a = none` means that label
`a` is not enabled in state `s`. A run may be described from its end (`Reach`,
for invariants) or executed from its list of labels (`exec`, for concrete
runs). A condition on steps restricts a run to those steps that meet it.
-/

namespace Run

variable {σ ι γ : Type*}

/-- The states reached from `start` by steps that all meet `cond`. -/
inductive Reach (step : σ → ι → Option σ) (cond : σ → ι → Prop) (start : σ) : σ → Prop
  | start : Reach step cond start start
  | next {s t : σ} {a : ι} :
      Reach step cond start s → cond s a → step s a = some t →
      Reach step cond start t

/-- No condition on the steps. -/
def always : σ → ι → Prop := fun _ _ => True

/-- The induction rule for reachable states: an invariant of the first state
that every admitted step keeps holds in every state reached. -/
theorem Reach.invariant {step : σ → ι → Option σ} {cond : σ → ι → Prop} {start : σ}
    (Inv : σ → Prop) (hstart : Inv start)
    (hstep : ∀ s a t, Inv s → cond s a → step s a = some t → Inv t)
    {s : σ} (h : Reach step cond start s) : Inv s := by
  induction h with
  | start => exact hstart
  | next _ hcond hs ih => exact hstep _ _ _ ih hcond hs

/-- Executes the labels in order, as long as they are enabled. -/
def exec (step : σ → ι → Option σ) : σ → List ι → Option σ
  | s, [] => some s
  | s, a :: as => (step s a).bind fun t => exec step t as

theorem exec_append (step : σ → ι → Option σ) (as bs : List ι) (s : σ) :
    exec step s (as ++ bs) = (exec step s as).bind fun t => exec step t bs := by
  induction as generalizing s with
  | nil => rfl
  | cons a as ih =>
    cases hnext : step s a with
    | none => simp [exec, hnext]
    | some t => simpa [exec, hnext] using ih t

/-- Every label of the list meets `cond` in the state it is executed in. -/
def Meets (step : σ → ι → Option σ) (cond : σ → ι → Prop) : σ → List ι → Prop
  | _, [] => True
  | s, a :: as => cond s a ∧ ∀ t ∈ step s a, Meets step cond t as

instance decidableMeets (step : σ → ι → Option σ) (cond : σ → ι → Prop)
    [∀ s a, Decidable (cond s a)] : ∀ s as, Decidable (Meets step cond s as)
  | _, [] => inferInstanceAs (Decidable True)
  | s, a :: as =>
    have (t : σ) : Decidable (Meets step cond t as) := decidableMeets step cond t as
    inferInstanceAs (Decidable (cond s a ∧ ∀ t ∈ step s a, Meets step cond t as))

theorem Reach.trans {step : σ → ι → Option σ} {cond : σ → ι → Prop} {start mid s : σ}
    (hfirst : Reach step cond start mid) (hrest : Reach step cond mid s) :
    Reach step cond start s := by
  induction hrest with
  | start => exact hfirst
  | next _ hcond hs ih => exact .next ih hcond hs

/-- An executed list of labels that all meet `cond` ends in a state that is
reached under `cond`. -/
theorem reach_of_exec {step : σ → ι → Option σ} {cond : σ → ι → Prop}
    (as : List ι) {s t : σ} (hexec : exec step s as = some t)
    (hmeets : Meets step cond s as) : Reach step cond s t := by
  induction as generalizing s with
  | nil =>
    obtain rfl : s = t := by simpa [exec] using hexec
    exact .start
  | cons a as ih =>
    obtain ⟨mid, hmid, hrest⟩ := Option.bind_eq_some_iff.mp hexec
    have hfirst : Reach step cond s mid := .next .start hmeets.1 hmid
    exact hfirst.trans (ih hrest (hmeets.2 mid hmid))

theorem meets_always (step : σ → ι → Option σ) (s : σ) (as : List ι) :
    Meets step always s as := by
  induction as generalizing s with
  | nil => trivial
  | cons a as ih => exact ⟨trivial, fun t _ => ih t⟩

theorem meets_of_forall_mem {step : σ → ι → Option σ} {cond : σ → ι → Prop} {as : List ι} {s : σ}
    (h : ∀ a ∈ as, ∀ t, cond t a) : Meets step cond s as := by
  induction as generalizing s with
  | nil => trivial
  | cons a as ih =>
    exact ⟨h a List.mem_cons_self s, fun t _ => ih fun b hb => h b (List.mem_cons_of_mem _ hb)⟩

/-- A property that the end of an executed run has is a property of a reached state. -/
theorem exists_reach_of_exec (step : σ → ι → Option σ) (cond : σ → ι → Prop) (s : σ)
    (as : List ι) {p : σ → Bool} (hmeets : Meets step cond s as)
    (h : (exec step s as).any p = true) : ∃ t, Reach step cond s t ∧ p t = true := by
  obtain ⟨t, hexec, hp⟩ := (Option.any_eq_true _ _).mp h
  exact ⟨t, reach_of_exec as hexec hmeets, hp⟩

/-- The states of a run, as far as its labels are enabled. -/
def visited (step : σ → ι → Option σ) : σ → List ι → List σ
  | s, [] => [s]
  | s, a :: as => s :: ((step s a).map fun t => visited step t as).getD []

/-- A run that is executed to its end visits its last state. -/
theorem exec_mem_visited {step : σ → ι → Option σ} {as : List ι} {s : σ}
    (h : (exec step s as).isSome = true) : (exec step s as).get h ∈ visited step s as := by
  induction as generalizing s with
  | nil => simp [exec, visited]
  | cons a as ih =>
    cases hnext : step s a with
    | none => simp [exec, hnext] at h
    | some t =>
      have hrest : (exec step t as).isSome = true := by simpa [exec, hnext] using h
      have hmem : (exec step t as).get hrest ∈ visited step t as := ih hrest
      simpa [exec, visited, hnext] using .inr hmem

/-- An invariant that the steps under `cond` keep holds all along a run of such steps. -/
theorem Meets.forall_visited {step : σ → ι → Option σ} {cond : σ → ι → Prop} {I : σ → Prop}
    (hinv : ∀ s a t, I s → cond s a → step s a = some t → I t) {as : List ι} {s : σ}
    (h : Meets step cond s as) (hi : I s) : ∀ t ∈ visited step s as, I t := by
  induction as generalizing s with
  | nil => simpa [visited] using hi
  | cons a as ih =>
    cases hnext : step s a with
    | none => simpa [visited, hnext] using hi
    | some t =>
      have hrest : ∀ u ∈ visited step t as, I u := ih (h.2 t hnext) (hinv s a t hi h.1 hnext)
      simpa [visited, hnext, hi] using hrest

/-- An invariant holds all along a run. -/
theorem forall_visited {step : σ → ι → Option σ} {I : σ → Prop}
    (hinv : ∀ s a t, I s → step s a = some t → I t) (as : List ι) {s : σ} (hi : I s) :
    ∀ t ∈ visited step s as, I t :=
  (meets_always step s as).forall_visited (fun s a t his _ => hinv s a t his) hi

/-- A property that a step of a state with the invariant keeps exactly under
`cond` holds all along a run exactly when the run's steps meet `cond`. -/
theorem forall_visited_iff_meets {step : σ → ι → Option σ} {cond : σ → ι → Prop}
    {I P : σ → Prop} (hinv : ∀ s a t, I s → step s a = some t → I t)
    (hstep : ∀ s a, I s → P s → ((∀ t, step s a = some t → P t) ↔ cond s a))
    (as : List ι) {s : σ} (hi : I s) (hs : P s) :
    (∀ t ∈ visited step s as, P t) ↔ Meets step cond s as := by
  induction as generalizing s with
  | nil => simpa [visited, Meets] using hs
  | cons a as ih =>
    have hcond := hstep s a hi hs
    cases hnext : step s a with
    | none =>
      rw [hnext] at hcond
      simpa [visited, Meets, hnext, hs] using hcond
    | some t =>
      rw [hnext] at hcond
      have hit : I t := hinv s a t hi hnext
      simp only [visited, Meets, hnext, Option.map_some, Option.getD_some, List.forall_mem_cons,
        Option.mem_some_iff, forall_eq', hs, true_and]
      constructor
      · intro hrest
        have ht : P t := hrest t (by cases as <;> simp [visited])
        exact ⟨hcond.mp (by simpa using ht), (ih hit ht).mp hrest⟩
      · rintro ⟨hkeeps, hrest⟩
        exact (ih hit (hcond.mpr hkeeps t rfl)).mpr hrest

/-- Along a run whose steps meet `cond`, an invariant that such steps keep may
be used to meet another condition. -/
theorem Meets.weaken {step : σ → ι → Option σ} {cond weaker : σ → ι → Prop} {I : σ → Prop}
    (hinv : ∀ s a t, I s → cond s a → step s a = some t → I t)
    (hweaker : ∀ s a, I s → cond s a → weaker s a) {as : List ι} {s : σ} (hi : I s)
    (h : Meets step cond s as) : Meets step weaker s as := by
  induction as generalizing s with
  | nil => trivial
  | cons a as ih =>
    constructor
    · exact hweaker s a hi h.1
    · intro t ht
      exact ih (hinv s a t hi h.1 ht) (h.2 t ht)

/-- A history variable beside the state: `observe` sees the state before the
step, its label and the state after it, and changes nothing of them. -/
def monitored (step : σ → ι → Option σ) (observe : γ → σ → ι → σ → γ) :
    σ × γ → ι → Option (σ × γ) :=
  fun (s, g) a => (step s a).map fun t => (t, observe g s a t)

/-- A condition on the steps does not see the history. -/
theorem meets_monitored {step : σ → ι → Option σ} (observe : γ → σ → ι → σ → γ) (g : γ)
    {cond : σ → ι → Prop} {s : σ} {as : List ι} :
    Meets (monitored step observe) (fun p a => cond p.1 a) (s, g) as ↔ Meets step cond s as := by
  induction as generalizing s g with
  | nil => exact Iff.rfl
  | cons a as ih =>
    apply and_congr_right
    intro _
    cases hnext : step s a with
    | none => simp [monitored, hnext]
    | some t => simpa [monitored, hnext] using ih (observe g s a t)

theorem monitored_eq_some {step : σ → ι → Option σ} {observe : γ → σ → ι → σ → γ}
    {p q : σ × γ} {a : ι} :
    monitored step observe p a = some q ↔
      step p.1 a = some q.1 ∧ q.2 = observe p.2 p.1 a q.1 := by
  obtain ⟨s, g⟩ := p
  obtain ⟨t, g'⟩ := q
  simp only [monitored, Option.map_eq_some_iff, Prod.mk.injEq]
  constructor
  · rintro ⟨u, hu, rfl, rfl⟩
    exact ⟨hu, rfl⟩
  · rintro ⟨ht, rfl⟩
    exact ⟨t, ht, rfl, rfl⟩

end Run
