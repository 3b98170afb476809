import Fctf.Lib.Run

/-!
The deletion of all namespaces of challenges, when a contest has ended and on the request to stop
everything. Both take from two counters whether nothing is left.
-/

namespace Fctf.Cleanup

/-- How a call to delete a namespace goes. An exception has a message. -/
inductive Answer
  /-- The namespace is deleted by it, or was deleted by someone else. -/
  | gone
  /-- The namespace is deleted, and the answer is lost. -/
  | lost (message : String)
  | refused (message : String)

/-- The answers of the Kubernetes API during a clean-up. -/
structure Api where
  /-- The message of the exception, when the namespaces cannot be listed. -/
  listing : Option String
  /-- By the namespace and the number of the attempt. -/
  delete : String → Nat → Answer

structure Result where
  successCount : Nat
  failCount : Nat
  errors : List String

/-- Counts a namespace as deleted, or as failed with a message. -/
def Result.count (result : Result) (name : String) : Option String → Result
  | none => { result with successCount := result.successCount + 1 }
  | some message =>
    { result with
      failCount := result.failCount + 1
      errors := ("Namespace '" ++ name ++ "' failed after 3 attempts: " ++ message) ::
        result.errors }

section Delete

variable (api : Api)

/-- The attempts to delete a namespace, and what the last exception says if all of them fail. -/
def deleteRetrying (name : String) : List Nat → String → List String → Option String × List String
  | [], message, cluster => (some message, cluster)
  | attempt :: attempts, _, cluster =>
    match api.delete name attempt with
    | .gone => (none, cluster.filter fun n => n ≠ name)
    | .lost message => deleteRetrying name attempts message (cluster.filter fun n => n ≠ name)
    | .refused message => deleteRetrying name attempts message cluster

/-- The loop over the namespaces that are listed. -/
def deleteEach : List String → List String → Result × List String
  | [], cluster => (⟨0, 0, []⟩, cluster)
  | name :: names, cluster =>
    let first := deleteRetrying api name [1, 2, 3] "" cluster
    let rest := deleteEach names first.2
    (rest.1.count name first.1, rest.2)

/-- An exception while the namespaces are listed becomes an error beside counters of zero. -/
def deleteAllChallengeNamespaces (cluster : List String) : Result × List String :=
  match api.listing with
  | some message => (⟨0, 0, ["Critical error while listing namespaces: " ++ message]⟩, cluster)
  | none => deleteEach api cluster cluster

end Delete

/-! ### The two callers -/

/-- The namespaces of challenges, and the contest end that the service has cleaned up for. -/
structure Service where
  cluster : List String
  lastCleanedCtfEnd : Int := 0

inductive Event
  /-- Namespaces come and go. -/
  | change (cluster : List String)
  /-- A turn of `ContestEndCleanupService`; without a configuration, reading it fails. -/
  | cycle (ctfEnd : Option Int) (now : Int) (api : Api)
  /-- `StopAll`: whether the routes are revoked and the two patterns of keys removed. -/
  | stopAll (revoked removedDeployments removedSlots : Bool) (api : Api)

/-- A turn comes to the clean-up. -/
def Service.Due (s : Service) (ctfEnd now : Int) : Prop :=
  0 < ctfEnd ∧ ctfEnd < now ∧ s.lastCleanedCtfEnd ≠ ctfEnd

instance decidableDue (s : Service) (ctfEnd now : Int) : Decidable (s.Due ctfEnd now) :=
  inferInstanceAs (Decidable (_ ∧ _ ∧ _))

def Service.step (s : Service) : Event → Service
  | .change cluster => { s with cluster := cluster }
  | .cycle none _ _ => s
  | .cycle (some ctfEnd) now api =>
    if s.Due ctfEnd now then
      let (result, cluster) := deleteAllChallengeNamespaces api s.cluster
      ⟨cluster, if result.failCount = 0 then ctfEnd else s.lastCleanedCtfEnd⟩
    else s
  | .stopAll revoked _ _ api =>
    if revoked then { s with cluster := (deleteAllChallengeNamespaces api s.cluster).2 } else s

/-- A clean-up: for which contest end, if for one, whether it counts as a success, and which
namespaces of its beginning are left. -/
structure CleanUp where
  ctfEnd : Option Int
  success : Bool
  left : List String

/-- The clean-ups up to now. -/
def observe (past : List CleanUp) (s : Service) (a : Event) (t : Service) : List CleanUp :=
  let left := s.cluster.filter fun name => name ∈ t.cluster
  match a with
  | .cycle (some ctfEnd) now api =>
    if s.Due ctfEnd now then
      ⟨some ctfEnd, (deleteAllChallengeNamespaces api s.cluster).1.failCount = 0, left⟩ :: past
    else past
  | .stopAll true removedDeployments removedSlots api =>
    ⟨none, removedDeployments && removedSlots &&
      (deleteAllChallengeNamespaces api s.cluster).1.failCount = 0, left⟩ :: past
  | _ => past

/-- Every clean-up that counts as a success has left nothing, and no contest end is passed over
without one. -/
def Truthful (s : Service × List CleanUp) : Prop :=
  (∀ c ∈ s.2, c.success = true → c.left = []) ∧
    (0 < s.1.lastCleanedCtfEnd →
      ∃ c ∈ s.2, c.ctfEnd = some s.1.lastCleanedCtfEnd ∧ c.success = true)

/-- A clean-up that finds namespaces can list them. -/
def Listed (s : Service × List CleanUp) : Event → Prop
  | .cycle (some ctfEnd) now api =>
    s.1.Due ctfEnd now → api.listing.isSome = true → s.1.cluster = []
  | .stopAll true true true api => api.listing.isSome = true → s.1.cluster = []
  | _ => True

/-! ### Deletions -/

section Delete

variable {api : Api} {name : String} {names cluster : List String}

theorem deleteRetrying_subset (attempts : List Nat) (message : String) (cluster : List String) :
    (deleteRetrying api name attempts message cluster).2 ⊆ cluster := by
  induction attempts generalizing message cluster with
  | nil => exact List.Subset.refl cluster
  | cons attempt attempts ih =>
    rw [deleteRetrying]
    split
    · exact List.filter_sublist.subset
    · exact List.Subset.trans (ih _ _) List.filter_sublist.subset
    · exact ih _ _

theorem notMem_deleteRetrying (attempts : List Nat) (message : String) (cluster : List String)
    (h : (deleteRetrying api name attempts message cluster).1 = none) :
    name ∉ (deleteRetrying api name attempts message cluster).2 := by
  induction attempts generalizing message cluster with
  | nil => cases h
  | cons attempt attempts ih =>
    rw [deleteRetrying] at h ⊢
    split at h
    · simp
    · rename_i hlost
      simpa only [hlost] using ih _ _ h
    · rename_i hrefused
      simpa only [hrefused] using ih _ _ h

theorem deleteEach_subset (names cluster : List String) :
    (deleteEach api names cluster).2 ⊆ cluster := by
  induction names generalizing cluster with
  | nil => exact List.Subset.refl cluster
  | cons name names ih =>
    exact List.Subset.trans (ih _) (deleteRetrying_subset _ _ _)

/-- When no deletion counts as failed, every namespace that was listed is gone. -/
theorem notMem_deleteEach (names cluster : List String)
    (h : (deleteEach api names cluster).1.failCount = 0) :
    ∀ name ∈ names, name ∉ (deleteEach api names cluster).2 := by
  induction names generalizing cluster with
  | nil => exact fun _ hname => absurd hname List.not_mem_nil
  | cons first names ih =>
    simp only [deleteEach] at h ⊢
    cases hfirst : (deleteRetrying api first [1, 2, 3] "" cluster).1 with
    | none =>
      rw [hfirst] at h
      intro name hname
      rcases List.mem_cons.mp hname with rfl | hname
      · exact fun hleft => notMem_deleteRetrying _ _ _ hfirst (deleteEach_subset _ _ hleft)
      · exact ih _ h name hname
    | some message =>
      rw [hfirst] at h
      cases h

/-- What a clean-up leaves of the namespaces that it began with, when no deletion of it counts
as failed. -/
theorem left_eq_nil_iff (h : (deleteAllChallengeNamespaces api cluster).1.failCount = 0) :
    cluster.filter (fun name => name ∈ (deleteAllChallengeNamespaces api cluster).2) = [] ↔
      (api.listing.isSome = true → cluster = []) := by
  unfold deleteAllChallengeNamespaces at h ⊢
  cases hlisting : api.listing with
  | none =>
    rw [hlisting] at h
    simp only [Option.isSome_none, Bool.false_eq_true, false_imp_iff, iff_true,
      List.filter_eq_nil_iff, decide_eq_true_eq]
    exact notMem_deleteEach _ _ h
  | some message => simp [List.eq_nil_iff_forall_not_mem]

theorem failCount_of_unlisted (cluster : List String) (h : api.listing.isSome = true) :
    (deleteAllChallengeNamespaces api cluster).1.failCount = 0 := by
  obtain ⟨message, hmessage⟩ := Option.isSome_iff_exists.mp h
  rw [deleteAllChallengeNamespaces, hmessage]

end Delete

/-! ### Runs -/

/-- A clean-up is truthful exactly when it can list the namespaces that it finds. -/
theorem cleanUp_truthful_iff (api : Api) (cluster : List String) (others : Bool) :
    ((others && decide ((deleteAllChallengeNamespaces api cluster).1.failCount = 0)) = true →
        cluster.filter (fun name => name ∈ (deleteAllChallengeNamespaces api cluster).2) = []) ↔
      (others = true → api.listing.isSome = true → cluster = []) := by
  rw [Bool.and_eq_true, decide_eq_true_eq]
  constructor
  · intro h hothers hlisting
    have hcount := failCount_of_unlisted cluster hlisting
    exact (left_eq_nil_iff hcount).mp (h ⟨hothers, hcount⟩) hlisting
  · rintro h ⟨hothers, hcount⟩
    exact (left_eq_nil_iff hcount).mpr (h hothers)

/-- A clean-up is added to those before, which stay. -/
theorem truthful_cons_iff {s t : Service} {past : List CleanUp} {c : CleanUp}
    (hs : Truthful (s, past))
    (hlast : t.lastCleanedCtfEnd = s.lastCleanedCtfEnd ∨
      (c.ctfEnd = some t.lastCleanedCtfEnd ∧ c.success = true)) :
    Truthful (t, c :: past) ↔ (c.success = true → c.left = []) := by
  constructor
  · intro h
    exact h.1 c List.mem_cons_self
  · intro h
    refine ⟨List.forall_mem_cons.mpr ⟨h, hs.1⟩, fun hpos => ?_⟩
    rcases hlast with heq | hnew
    · have heq : t.lastCleanedCtfEnd = s.lastCleanedCtfEnd := heq
      rw [heq] at hpos ⊢
      obtain ⟨d, hd, hmarked⟩ := hs.2 hpos
      exact ⟨d, List.mem_cons_of_mem _ hd, hmarked⟩
    · exact ⟨c, List.mem_cons_self, hnew⟩

theorem truthful_step_iff (s : Service × List CleanUp) (a : Event) (hs : Truthful s) :
    Truthful (s.1.step a, observe s.2 s.1 a (s.1.step a)) ↔ Listed s a := by
  obtain ⟨s, past⟩ := s
  cases a with
  | change cluster => exact iff_of_true hs trivial
  | cycle ctfEnd now api =>
    cases ctfEnd with
    | none => exact iff_of_true hs trivial
    | some ctfEnd =>
      by_cases hdue : s.Due ctfEnd now
      · have hobserve := cleanUp_truthful_iff api s.cluster true
        simp only [Service.step, observe, Listed, if_pos hdue]
        rw [forall_prop_of_true hdue, truthful_cons_iff hs]
        · simpa using hobserve
        · by_cases hcount : (deleteAllChallengeNamespaces api s.cluster).1.failCount = 0
          · exact Or.inr ⟨congrArg some (if_pos hcount).symm, decide_eq_true hcount⟩
          · exact Or.inl (if_neg hcount)
      · simp only [Service.step, observe, Listed, if_neg hdue]
        exact iff_of_true hs fun h => absurd h hdue
  | stopAll revoked removedDeployments removedSlots api =>
    cases revoked with
    | false => exact iff_of_true hs trivial
    | true =>
      refine (truthful_cons_iff hs (Or.inl rfl)).trans ((cleanUp_truthful_iff _ _ _).trans ?_)
      cases removedDeployments with
      | false => exact iff_of_true (fun h => by cases h) trivial
      | true =>
        cases removedSlots with
        | false => exact iff_of_true (fun h => by cases h) trivial
        | true => exact forall_prop_of_true rfl

def next (s : Service) (a : Event) : Option Service := some (s.step a)

/-- Along every run, whatever the calls answer, the clean-ups that count as a success have left
nothing exactly when none of them finds namespaces that it cannot list. -/
theorem cleanUps_truthful_iff (cluster : List String) (as : List Event) :
    (∀ t ∈ Run.visited (Run.monitored next observe) (⟨cluster, 0⟩, []) as, Truthful t) ↔
      Run.Meets (Run.monitored next observe) Listed (⟨cluster, 0⟩, []) as := by
  have hstart : Truthful (⟨cluster, 0⟩, []) :=
    ⟨fun c hc => absurd hc List.not_mem_nil, fun h => absurd h (Int.lt_irrefl 0)⟩
  refine Run.forall_visited_iff_meets (I := fun _ => True) (fun _ _ _ _ _ => trivial) ?_ as trivial
    hstart
  intro s a _ hs
  rw [← truthful_step_iff s a hs]
  constructor
  · intro h
    exact h _ rfl
  · rintro h t ht
    obtain rfl := Option.some.inj ht
    exact h

/-- The API is down for a moment when a contest has ended, and the instance that runs is never
stopped. -/
theorem unlisted_marked_clean : ¬ ∀ (cluster : List String) (as : List Event),
    ∀ t ∈ Run.visited (Run.monitored next observe) (⟨cluster, 0⟩, []) as, Truthful t := by
  intro h
  let api : Api := ⟨some "timeout", fun _ _ => .gone⟩
  have hlast := h ["team-7-1-web-1768089600"] [.cycle (some 100) 101 api] _
    (List.mem_cons_of_mem _ List.mem_cons_self)
  have hleft := hlast.1 _ List.mem_cons_self (by decide)
  exact absurd hleft (by decide)

end Fctf.Cleanup
