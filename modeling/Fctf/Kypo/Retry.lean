import Fctf.Kypo.Completion
import Fctf.Kypo.Session

/-!
What an attempt has to know before it may close a session. An attempt is decisive when every
call that it needs succeeds, on progress that is fetched for it; until then the session has to
stay open, and the watcher or the stop endpoint has to be able to try again.
-/

namespace Fctf

open Run KypoApiClient

/-- The definition that is asked for when the answer for the instance tells no level count. -/
def KypoApiClient.definitionAsked (root : JsonElement) : Option Int := do
  if (← embeddedLevels root ["training_definition", "trainingDefinition"]).isSome then none
  else if (← firstNumber root ["level_count", "levelCount"]).isSome then none
  else
    match ← firstNumber root ["training_definition_id", "trainingDefinitionId"] with
    | some definitionId => definitionId.getInt32
    | none => none

namespace LockInput

variable (tryParse : String → Option Int) (input : LockInput) (teamId : Int)

/-- The calls that map a run to its team have succeeded, or were answered from the caches. -/
def Mapped (runId : Int) : Prop :=
  runId ≤ 0 ∨ (input.runTeam runId).isSome = true ∨
    ((input.runSub runId).isSome = true ∨ (input.participant runId).json.isSome = true) ∧
      ∀ sub ∈ getParticipantSub (input.runSub runId) (input.participant runId), sub ≠ "" →
        (input.subKeycloak sub).isSome = true ∨ (input.users sub).json.isSome = true

/-- The calls for the level count have succeeded, or it was answered from the cache. -/
def Counted : Prop :=
  (input.levelCount.filter (0 < ·)).isSome = true ∨ input.trainingInstance.json.isSome = true ∧
    ∀ root ∈ input.trainingInstance.json, ∀ id ∈ definitionAsked root,
      (input.trainingDefinition id).json.isSome = true

/-- The team's newest run, when the attempt gets to one. -/
def newestRun : Option KypoProgressEntry := (input.teamEntry tryParse teamId).toOption

/-- Every call needed to decide the completion has succeeded. Runs older than the team's newest
need not be mapped, and a run with an open level needs no level count. -/
def Decisive : Prop :=
  input.asksKypo = true → (getInstanceProgress tryParse input.progress).isSome = true ∧
    (∀ progressList ∈ getInstanceProgress tryParse input.progress, ∀ entry ∈ progressList,
      (∀ best ∈ input.newestRun tryParse teamId, best.runId < entry.runId) →
        input.Mapped entry.runId) ∧
    ∀ entry ∈ input.newestRun tryParse teamId, entry.levels ≠ [] →
      (∀ level ∈ entry.levels, level.isCompleted = true) → input.Counted

/-- The attempt fails where the code says so: the progress call fails, two accounts have the
same user, or the database refuses the solve. -/
def Reported : Prop :=
  input.asksKypo = true ∧
    (getInstanceProgress tryParse input.progress = none ∨
      (keycloakIdToTeam input.accounts).isNone = true ∨
      (input.newestRun tryParse teamId).any input.allDone = true ∧ input.captain ≠ none ∧
        input.inserts = false)

instance decidableMapped (runId : Int) : Decidable (input.Mapped runId) :=
  inferInstanceAs (Decidable (_ ∨ _))

instance decidableCounted : Decidable input.Counted := inferInstanceAs (Decidable (_ ∨ _))

instance decidableDecisive : Decidable (input.Decisive tryParse teamId) :=
  inferInstanceAs (Decidable (_ → _))

instance decidableReported : Decidable (input.Reported tryParse teamId) :=
  inferInstanceAs (Decidable (_ ∧ _))

end LockInput

namespace KypoSite

section Property

variable (tryParse : String → Option Int) (slot : KypoSlot)

/-- The attempt decides on progress that is fetched for it. -/
def DecisiveAttempt (s : KypoSite) (input : LockInput) : Prop :=
  input.Decisive tryParse slot.teamId ∧ (input.asksKypo = true → s.cachedProgress.isNone = true)

instance decidableDecisiveAttempt (s : KypoSite) (input : LockInput) :
    Decidable (DecisiveAttempt tryParse slot s input) := inferInstanceAs (Decidable (_ ∧ _))

/-- The watcher or the stop endpoint will find the session. -/
def Retryable (s : KypoSite) : Prop :=
  s.openRows ≠ [] ∧ slot.limit ≠ none ∨ s.keyExists = true

/-- The step sets the stop time of a row or removes the key. -/
def Closes (s t : KypoSite) : Prop :=
  (∃ row ∈ s.openRows, row ∉ t.openRows) ∨ s.key ≠ none ∧ t.key = none

/-- The history: whether the present session has had a decisive attempt. -/
def observe (decided : Bool) (s : KypoSite) (a : KypoAction) (_ : KypoSite) : Bool :=
  match a with
  | .attempt _ input => decided || decide (DecisiveAttempt tryParse slot s input)
  | .set _ => decided && s.keyExists
  | _ => decided

/-- A step closes a session only after a decisive attempt, and an attempt that is not decisive
leaves a session that is tried again, unless another one was. -/
structure NoScoreLost (s : KypoSite × Bool) (a : KypoAction) : Prop where
  closes : ∀ t, step tryParse slot s.1 a = some t → Closes s.1 t → s.2 = true
  retried : ∀ i input t, a = .attempt i input → step tryParse slot s.1 a = some t →
    ¬ DecisiveAttempt tryParse slot s.1 input → s.2 = true ∨ Retryable slot t

/-- The watcher finds no expired session, an attempt of the stop endpoint is decisive or fails
where the code says so, no session is begun between such an attempt and the closing, and the
key does not run out before the session is tracked. -/
def Keeps (s : KypoSite × Bool) : KypoAction → Prop
  | .scan => s.1.expiredRows slot = []
  | .attempt i input => s.1.jobs[i]? = some .stopLock →
      (s.1.seen input).Reported tryParse slot.teamId ∨ DecisiveAttempt tryParse slot s.1 input
  | .set _ => s.1.keyExists = false → .stopClose ∉ s.1.jobs ∧ .stopRemove ∉ s.1.jobs
  | .tick seconds => s.1.keyExists = true →
      ({ s.1 with now := s.1.now + seconds } : KypoSite).keyExists = false → s.1.openRows ≠ []
  | _ => True

instance decidableKeeps (s : KypoSite × Bool) (a : KypoAction) :
    Decidable (Keeps tryParse slot s a) := by
  cases a <;> (delta Keeps; infer_instance)

structure Inv (s : KypoSite × Bool) : Prop where
  closing : ∀ job ∈ s.1.jobs, job = .stopClose ∨ job = .stopRemove → s.2 = true
  unwatched : ∀ job ∈ s.1.jobs, job ≠ .watchLock ∧ ∀ id, job ≠ .watchMark id
  trying : .stopLock ∈ s.1.jobs → s.2 = true ∨ Retryable slot s.1
  expires : ∀ expiry, s.1.key = some (some expiry) → slot.limit ≠ none

end Property

section Proof

variable {tryParse : String → Option Int} {slot : KypoSlot} {s t : KypoSite} {decided : Bool}
  {a : KypoAction}

theorem mem_goOn {i : Nat} {next : List KypoJob} {job : KypoJob}
    (h : job ∈ (s.goOn i next).jobs) : job ∈ s.jobs ∨ job ∈ next :=
  (List.mem_append.mp h).imp_left List.mem_of_mem_eraseIdx

@[simp] theorem openRows_goOn (i : Nat) (next : List KypoJob) :
    (s.goOn i next).openRows = s.openRows := rfl

@[simp] theorem keyExists_goOn (i : Nat) (next : List KypoJob) :
    (s.goOn i next).keyExists = s.keyExists := rfl

theorem fetch_eq (tryParse : String → Option Int) (s : KypoSite) (progress : HttpReply) :
    (s.fetch tryParse progress).now = s.now ∧ (s.fetch tryParse progress).key = s.key ∧
      (s.fetch tryParse progress).rows = s.rows ∧ (s.fetch tryParse progress).jobs = s.jobs := by
  unfold fetch
  split <;> simp

/-- A failure that the code reports keeps the stop endpoint from closing the session. -/
theorem result_of_reported {input : LockInput} {teamId : Int}
    (h : input.Reported tryParse teamId) : (input.lockScore tryParse teamId).result = none ∨
      (input.lockScore tryParse teamId).result = some .ApiError := by
  obtain ⟨hasks, hreported⟩ := h
  simp only [LockInput.asksKypo, Bool.and_eq_true, Option.any_eq_true, Bool.not_eq_true'] at hasks
  obtain ⟨⟨config, hconfig, hurl⟩, hsolved⟩ := hasks
  cases hprogress : getInstanceProgress tryParse input.progress with
  | none =>
    right
    simp [LockInput.lockScore, LockInput.teamEntry, hconfig, hurl, hsolved, hprogress]
  | some progressList =>
    cases hteams : LockInput.keycloakIdToTeam input.accounts with
    | none =>
      left
      simp [LockInput.lockScore, LockInput.teamEntry, hconfig, hurl, hsolved, hprogress, hteams]
    | some teams =>
      simp only [hprogress, hteams, reduceCtorEq, Option.isNone_some, Bool.false_eq_true,
        false_or] at hreported
      obtain ⟨hdone, hcaptain, hinserts⟩ := hreported
      obtain ⟨entry, hentry, hdone⟩ := (Option.any_eq_true _ _).mp hdone
      obtain ⟨user, huser⟩ := Option.ne_none_iff_exists'.mp hcaptain
      have hok : input.teamEntry tryParse teamId = .ok entry := by
        cases hteamEntry : input.teamEntry tryParse teamId with
        | error result =>
          rw [LockInput.newestRun, hteamEntry] at hentry
          cases hentry
        | ok best =>
          rw [LockInput.newestRun, hteamEntry] at hentry
          rw [Option.some.inj hentry]
      right
      simp [LockInput.lockScore, hok, hdone, huser, hinserts]

/-- An attempt changes jobs and the progress cache only. -/
theorem attempt_cases {i : Nat} {input : LockInput}
    (h : s.attempt tryParse slot i input = some t) :
    t.now = s.now ∧ t.key = s.key ∧ t.rows = s.rows ∧
      ((s.jobs[i]? = some .stopLock ∧ t.jobs = (s.goOn i
          (afterLock ((s.seen input).lockScore tryParse slot.teamId).result)).jobs) ∨
        (s.jobs[i]? = some .watchLock ∧ t.jobs = (s.goOn i []).jobs)) := by
  have hfetch : ∀ s', (s' = if input.asksKypo then s.fetch tryParse input.progress else s) →
      s'.now = s.now ∧ s'.key = s.key ∧ s'.rows = s.rows ∧ s'.jobs = s.jobs := by
    rintro s' rfl
    split
    · exact fetch_eq tryParse s input.progress
    · exact ⟨rfl, rfl, rfl, rfl⟩
  obtain ⟨hnow, hkey, hrows, hjobs⟩ := hfetch _ rfl
  unfold attempt at h
  simp only at h
  split at h
  · rename_i hjob
    obtain rfl := Option.some.inj h
    exact ⟨hnow, hkey, hrows, .inl ⟨hjob, by simp only [goOn, hjobs]⟩⟩
  · rename_i hjob
    obtain rfl := Option.some.inj h
    exact ⟨hnow, hkey, hrows, .inr ⟨hjob, by simp only [goOn, hjobs]⟩⟩
  · cases h

/-- A session that could be tried again before a step without closing still can be. -/
theorem Retryable.of_same (h : Retryable slot s) (hnow : t.now = s.now) (hkey : t.key = s.key)
    (hrows : t.rows = s.rows) : Retryable slot t := by
  have hopen : t.openRows = s.openRows := by
    rw [openRows, hrows, openRows]
  have hexists : t.keyExists = s.keyExists := by
    simp only [keyExists, hnow, hkey]
  rw [Retryable, hopen, hexists]
  exact h

/-- Steps that touch neither rows nor key, and make no job of the watcher, no job that closes
and no attempt. -/
theorem Inv.of_same (h : Inv slot (s, decided)) (hnow : t.now = s.now) (hkey : t.key = s.key)
    (hrows : t.rows = s.rows) (hjobs : ∀ job ∈ t.jobs, job ∈ s.jobs ∨
      ∃ userId, job = .startSet userId ∨ job = .startTrack userId) : Inv slot (t, decided) where
  closing job hjob hcloses := by
    rcases hjobs job hjob with hold | ⟨userId, rfl | rfl⟩
    · exact h.closing job hold hcloses
    · simp at hcloses
    · simp at hcloses
  unwatched job hjob := by
    rcases hjobs job hjob with hold | ⟨userId, rfl | rfl⟩
    · exact h.unwatched job hold
    · simp
    · simp
  trying hjob := by
    rcases hjobs _ hjob with hold | ⟨userId, hnew⟩
    · exact (h.trying hold).imp_right fun hretry => hretry.of_same hnow hkey hrows
    · simp at hnew
  expires expiry hexpiry := h.expires expiry (hkey ▸ hexpiry)

theorem inv_attempt {i : Nat} {input : LockInput} (h : Inv slot (s, decided))
    (hcond : Keeps tryParse slot (s, decided) (.attempt i input))
    (hstep : s.attempt tryParse slot i input = some t) :
    Inv slot (t, observe tryParse slot decided s (.attempt i input) t) := by
  obtain ⟨hnow, hkey, hrows, ⟨hjob, hjobs⟩ | ⟨hjob, -⟩⟩ := attempt_cases hstep
  · have hmem : ∀ job ∈ t.jobs, job ∈ s.jobs ∨ job = .stopClose ∧
        DecisiveAttempt tryParse slot s input := by
      intro job hnew
      rw [hjobs] at hnew
      rcases mem_goOn hnew with hold | hnext
      · exact .inl hold
      · right
        unfold afterLock at hnext
        split at hnext
        · cases hnext
        · rename_i hgoesOn
          refine ⟨List.mem_singleton.mp hnext, ?_⟩
          rcases hcond hjob with hreported | hdecisive
          · exact absurd (result_of_reported hreported) hgoesOn
          · exact hdecisive
    constructor
    · intro job hnew hcloses
      rcases hmem job hnew with hold | ⟨-, hdecisive⟩
      · have hdecided : decided = true := h.closing job hold hcloses
        simp [observe, hdecided]
      · simp [observe, hdecisive]
    · intro job hnew
      rcases hmem job hnew with hold | ⟨rfl, -⟩
      · exact h.unwatched job hold
      · simp
    · intro hnew
      rcases hmem _ hnew with hold | ⟨hclose, -⟩
      · rcases h.trying hold with hdecided | hretry
        · simp only at hdecided
          simp [observe, hdecided]
        · exact .inr (hretry.of_same hnow hkey hrows)
      · cases hclose
    · intro expiry hexpiry
      exact h.expires expiry (hkey ▸ hexpiry)
  · exact absurd rfl (h.unwatched _ (List.mem_of_getElem? hjob)).1

theorem inv_set {i userId : Nat} (h : Inv slot (s, decided))
    (hcond : Keeps tryParse slot (s, decided) (.set i)) :
    Inv slot (s.setKey slot i userId,
      observe tryParse slot decided s (.set i) (s.setKey slot i userId)) where
  closing job hnew hcloses := by
    rcases mem_goOn hnew with hold | hnext
    · have hdecided : decided = true := h.closing job hold hcloses
      cases hexists : s.keyExists with
      | true => simp [observe, hdecided, hexists]
      | false =>
        obtain ⟨hclose, hremove⟩ := hcond hexists
        rcases hcloses with rfl | rfl
        · exact absurd hold hclose
        · exact absurd hold hremove
    · obtain rfl := List.mem_singleton.mp hnext
      simp at hcloses
  unwatched job hnew := by
    rcases mem_goOn hnew with hold | hnext
    · exact h.unwatched job hold
    · obtain rfl := List.mem_singleton.mp hnext
      simp
  trying _ := by
    right
    right
    cases hlimit : slot.limit with
    | none => simp [setKey, goOn, keyExists, hlimit]
    | some minutes =>
      have hpos : 0 < minutes := by
        have hfilter := (Option.filter_eq_some_iff.mp hlimit).2
        simpa using hfilter
      simp only [setKey, goOn, keyExists, hlimit, Option.map_some, decide_eq_true_eq]
      omega
  expires expiry hexpiry := by
    intro hlimit
    simp [setKey, goOn, hlimit] at hexpiry

theorem inv_tick {seconds : Nat} (h : Inv slot (s, decided))
    (hcond : Keeps tryParse slot (s, decided) (.tick seconds)) :
    Inv slot ({ s with now := s.now + seconds }, decided) where
  closing := h.closing
  unwatched := h.unwatched
  trying hjob := by
    rcases h.trying hjob with hdecided | hrow | hexists
    · exact .inl hdecided
    · exact .inr (.inl hrow)
    · right
      cases hlater : ({ s with now := s.now + seconds } : KypoSite).keyExists with
      | true => exact .inr hlater
      | false =>
        left
        refine ⟨hcond hexists hlater, ?_⟩
        -- a key that runs out has an expiry
        cases hkey : s.key with
        | none => simp [keyExists, hkey] at hexists
        | some expiry =>
          cases expiry with
          | none => simp [keyExists, hkey] at hlater
          | some expiry => exact h.expires expiry hkey
  expires := h.expires

theorem inv_track {i userId id : Nat} (h : Inv slot (s, decided)) :
    Inv slot (s.trackRow slot i userId id, decided) := by
  have hkey : (s.trackRow slot i userId id).keyExists = s.keyExists := by
    unfold trackRow
    split <;> rfl
  have hmem : ∀ job ∈ (s.trackRow slot i userId id).jobs, job ∈ s.jobs := by
    intro job hjob
    unfold trackRow at hjob
    split at hjob
    all_goals
      rcases mem_goOn hjob with hold | hnext
      · exact hold
      · cases hnext
  constructor
  · intro job hjob hcloses
    exact h.closing job (hmem job hjob) hcloses
  · intro job hjob
    exact h.unwatched job (hmem job hjob)
  · intro hjob
    rcases h.trying (hmem _ hjob) with hdecided | ⟨hopen, hlimit⟩ | hexists
    · exact .inl hdecided
    · right
      left
      refine ⟨?_, hlimit⟩
      unfold trackRow
      split
      · rename_i hempty
        exact absurd (List.isEmpty_iff.mp hempty) hopen
      · exact hopen
    · exact .inr (.inr (hkey.trans hexists))
  · intro expiry hexpiry
    apply h.expires expiry
    unfold trackRow at hexpiry
    split at hexpiry <;> exact hexpiry

/-- A closing by the stop endpoint comes after its attempt. -/
theorem inv_closed {i : Nat} {job : KypoJob} (h : Inv slot (s, decided))
    (hjob : s.jobs[i]? = some job) (hcloses : job = .stopClose ∨ job = .stopRemove)
    (hkey : ∀ expiry, t.key = some expiry → s.key = some expiry)
    (hjobs : ∀ job ∈ t.jobs, job ∈ s.jobs ∨ job = .stopRemove) : Inv slot (t, decided) := by
  have hdecided : decided = true := h.closing job (List.mem_of_getElem? hjob) hcloses
  constructor
  · intro _ _ _
    exact hdecided
  · intro other hother
    rcases hjobs other hother with hold | rfl
    · exact h.unwatched other hold
    · simp
  · intro _
    exact .inl hdecided
  · intro expiry hexpiry
    exact h.expires expiry (hkey _ hexpiry)

theorem inv_step (h : Inv slot (s, decided)) (hcond : Keeps tryParse slot (s, decided) a)
    (hstep : step tryParse slot s a = some t) :
    Inv slot (t, observe tryParse slot decided s a t) := by
  cases a with
  | tick seconds =>
    obtain rfl := Option.some.inj hstep
    exact inv_tick h hcond
  | start userId =>
    obtain rfl := Option.some.inj hstep
    split
    · exact h
    · refine h.of_same rfl rfl rfl ?_
      intro job hjob
      rcases List.mem_append.mp hjob with hold | hnew
      · exact .inl hold
      · exact .inr ⟨userId, .inl (List.mem_singleton.mp hnew)⟩
  | set i =>
    simp only [step] at hstep
    split at hstep
    · obtain rfl := Option.some.inj hstep
      exact inv_set h hcond
    · cases hstep
  | track i id saved =>
    simp only [step] at hstep
    split at hstep
    · obtain rfl := Option.some.inj hstep
      cases saved with
      | true => exact inv_track h
      | false => exact h.of_same rfl rfl rfl fun job hjob => (mem_goOn hjob).imp_right nofun
    · cases hstep
  | stop =>
    obtain rfl := Option.some.inj hstep
    split
    · rename_i hexists
      constructor
      · intro job hjob hcloses
        rcases List.mem_append.mp hjob with hold | hnew
        · exact h.closing job hold hcloses
        · obtain rfl := List.mem_singleton.mp hnew
          simp at hcloses
      · intro job hjob
        rcases List.mem_append.mp hjob with hold | hnew
        · exact h.unwatched job hold
        · obtain rfl := List.mem_singleton.mp hnew
          simp
      · intro _
        exact .inr (.inr hexists)
      · exact h.expires
    · exact h
  | attempt i input => exact inv_attempt h hcond hstep
  | otherAttempt progress =>
    obtain rfl := Option.some.inj hstep
    obtain ⟨hnow, hkey, hrows, hjobs⟩ := fetch_eq tryParse s progress
    exact h.of_same hnow hkey hrows fun job hjob => .inl (hjobs ▸ hjob)
  | close i saved =>
    simp only [step] at hstep
    split at hstep
    · rename_i hjob
      obtain rfl := Option.some.inj hstep
      cases saved with
      | true =>
        apply inv_closed h hjob (.inl rfl)
        · intro expiry hexpiry
          exact hexpiry
        · intro job hnew
          exact (mem_goOn hnew).imp_right List.mem_singleton.mp
      | false => exact h.of_same rfl rfl rfl fun job hnew => (mem_goOn hnew).imp_right nofun
    · cases hstep
  | remove i executed =>
    simp only [step] at hstep
    split at hstep
    · rename_i hjob
      obtain rfl := Option.some.inj hstep
      cases executed with
      | true =>
        apply inv_closed h hjob (.inr rfl)
        · intro expiry hexpiry
          cases hexpiry
        · intro job hnew
          exact (mem_goOn hnew).imp_right nofun
      | false => exact h.of_same rfl rfl rfl fun job hnew => (mem_goOn hnew).imp_right nofun
    · cases hstep
  | scan =>
    obtain rfl := Option.some.inj hstep
    have hnone : s.expiredRows slot = [] := hcond
    refine h.of_same rfl rfl rfl ?_
    intro job hjob
    simp only [hnone, List.map_nil, List.append_nil] at hjob
    exact .inl hjob
  | mark i saved =>
    simp only [step] at hstep
    split at hstep
    · rename_i id hjob
      exact absurd rfl ((h.unwatched _ (List.mem_of_getElem? hjob)).2 id)
    · cases hstep
  | crash i =>
    simp only [step] at hstep
    split at hstep
    · obtain rfl := Option.some.inj hstep
      exact h.of_same rfl rfl rfl fun job hnew => (mem_goOn hnew).imp_right nofun
    · cases hstep

theorem not_closes_of_same (hkey : t.key = s.key) (hrows : t.rows = s.rows) : ¬ Closes s t := by
  rintro (⟨row, hopen, hclosed⟩ | ⟨hsome, hnone⟩)
  · rw [openRows, hrows] at hclosed
    exact hclosed hopen
  · exact hsome (hkey ▸ hnone)

/-- Only the stop endpoint and the watcher close sessions. -/
theorem closes_cases (hstep : step tryParse slot s a = some t) (hcloses : Closes s t) :
    ∃ job ∈ s.jobs, job = .stopClose ∨ job = .stopRemove ∨ ∃ id, job = .watchMark id := by
  cases a with
  | tick seconds =>
    obtain rfl := Option.some.inj hstep
    exact absurd hcloses (not_closes_of_same rfl rfl)
  | start userId =>
    obtain rfl := Option.some.inj hstep
    split at hcloses <;> exact absurd hcloses (not_closes_of_same rfl rfl)
  | set i =>
    simp only [step] at hstep
    split at hstep
    · obtain rfl := Option.some.inj hstep
      rcases hcloses with ⟨row, hopen, hclosed⟩ | ⟨-, hnone⟩
      · exact absurd hopen hclosed
      · cases hnone
    · cases hstep
  | track i id saved =>
    simp only [step] at hstep
    split at hstep
    · obtain rfl := Option.some.inj hstep
      split at hcloses
      · unfold trackRow at hcloses
        split at hcloses
        · rename_i hempty
          rcases hcloses with ⟨row, hopen, -⟩ | ⟨hsome, hnone⟩
          · rw [List.isEmpty_iff.mp hempty] at hopen
            cases hopen
          · exact absurd hnone hsome
        · exact absurd hcloses (not_closes_of_same rfl rfl)
      · exact absurd hcloses (not_closes_of_same rfl rfl)
    · cases hstep
  | stop =>
    obtain rfl := Option.some.inj hstep
    split at hcloses <;> exact absurd hcloses (not_closes_of_same rfl rfl)
  | attempt i input =>
    obtain ⟨-, hkey, hrows, -⟩ := attempt_cases hstep
    exact absurd hcloses (not_closes_of_same hkey hrows)
  | otherAttempt progress =>
    obtain rfl := Option.some.inj hstep
    obtain ⟨-, hkey, hrows, -⟩ := fetch_eq tryParse s progress
    exact absurd hcloses (not_closes_of_same hkey hrows)
  | close i saved =>
    simp only [step] at hstep
    split at hstep
    · rename_i hjob
      exact ⟨_, List.mem_of_getElem? hjob, .inl rfl⟩
    · cases hstep
  | remove i executed =>
    simp only [step] at hstep
    split at hstep
    · rename_i hjob
      exact ⟨_, List.mem_of_getElem? hjob, .inr (.inl rfl)⟩
    · cases hstep
  | scan =>
    obtain rfl := Option.some.inj hstep
    exact absurd hcloses (not_closes_of_same rfl rfl)
  | mark i saved =>
    simp only [step] at hstep
    split at hstep
    · rename_i id hjob
      exact ⟨_, List.mem_of_getElem? hjob, .inr (.inr ⟨id, rfl⟩)⟩
    · cases hstep
  | crash i =>
    simp only [step] at hstep
    split at hstep
    · obtain rfl := Option.some.inj hstep
      exact absurd hcloses (not_closes_of_same rfl rfl)
    · cases hstep

theorem noScoreLost_of_keeps {p : KypoSite × Bool} (h : Inv slot p) :
    NoScoreLost tryParse slot p a where
  closes t hstep hcloses := by
    obtain ⟨job, hjob, hkind⟩ := closes_cases hstep hcloses
    rcases hkind with rfl | rfl | ⟨id, rfl⟩
    · exact h.closing _ hjob (.inl rfl)
    · exact h.closing _ hjob (.inr rfl)
    · exact absurd rfl ((h.unwatched _ hjob).2 id)
  retried i input t ha hstep _ := by
    subst ha
    obtain ⟨hnow, hkey, hrows, ⟨hjob, -⟩ | ⟨hjob, -⟩⟩ := attempt_cases hstep
    · have hmem := List.mem_of_getElem? hjob
      exact (h.trying hmem).imp_right fun hretry => hretry.of_same hnow hkey hrows
    · exact absurd rfl (h.unwatched _ (List.mem_of_getElem? hjob)).1

end Proof

/-- In a run whose steps meet the condition, every session is closed after a decisive attempt
only, and after any other attempt it can be tried again. -/
theorem kypo_score_not_lost {tryParse : String → Option Int} {slot : KypoSlot} {now : Int}
    {p : KypoSite × Bool}
    (h : Reach (monitored (step tryParse slot) (observe tryParse slot)) (Keeps tryParse slot)
      (({ now := now } : KypoSite), false) p) (a : KypoAction) :
    NoScoreLost tryParse slot p a := by
  have hstart : Inv slot (({ now := now } : KypoSite), false) := by
    constructor <;> simp
  apply noScoreLost_of_keeps
  apply h.invariant (Inv slot) hstart
  rintro ⟨s, decided⟩ a ⟨t, decided'⟩ hinv hcond hstep
  obtain ⟨hnext, hhistory⟩ := monitored_eq_some.mp hstep
  have hnew := inv_step hinv hcond hnext
  simp only at hhistory
  rw [hhistory]
  exact hnew

def halfHour : KypoSlot where
  challengeId := 5
  teamId := 7
  timeLimit := some 30

/-- The first attempt does not reach KYPO; the second one decides. -/
def retriedRun : List KypoAction :=
  [.start 70, .set 0, .track 0 1 true,
    .stop, .attempt 0 { startedLock .refused with progress := .failed },
    .stop, .attempt 0 (startedLock (.body (some (.object [("level_count", .integer 3)]))))]

theorem kypo_score_not_lost_retried :
    ∃ p, NoScoreLost (fun _ => none) halfHour p (.close 0 true) ∧
      p.1.jobs = [.stopClose] ∧ p.2 = true := by
  obtain ⟨p, hreach, hp⟩ := exists_reach_of_exec
    (monitored (step (fun _ => none) halfHour) (observe (fun _ => none) halfHour))
    (Keeps (fun _ => none) halfHour) (({ now := 0 } : KypoSite), false) retriedRun
    (p := fun p => p.1.jobs == [.stopClose] && p.2) (by decide) (by decide)
  simp only [Bool.and_eq_true, beq_iff_eq] at hp
  exact ⟨p, kypo_score_not_lost hreach _, hp.1, hp.2⟩

/-- The watcher marks a session as stopped before its attempt. -/
theorem kypo_session_stopped_unlocked :
    ¬ ∀ (tryParse : String → Option Int) (slot : KypoSlot) (now : Int) (p : KypoSite × Bool)
      (a : KypoAction), Reach (monitored (step tryParse slot) (observe tryParse slot)) always
        (({ now := now } : KypoSite), false) p → NoScoreLost tryParse slot p a := by
  intro hnotLost
  obtain ⟨p, hreach, hp⟩ := exists_reach_of_exec
    (monitored (step (fun _ => none) halfHour) (observe (fun _ => none) halfHour))
    always (({ now := 0 } : KypoSite), false)
    [.start 70, .set 0, .track 0 1 true, .tick 1800, .scan]
    (p := fun p => !p.2 && (step (fun _ => none) halfHour p.1 (.mark 0 true)).any fun t =>
      !p.1.openRows.isEmpty && t.openRows.isEmpty) (meets_always ..) (by decide)
  simp only [Bool.and_eq_true, Option.any_eq_true, Bool.not_eq_true', List.isEmpty_iff] at hp
  obtain ⟨hundecided, t, hstep, hopen, hstopped⟩ := hp
  have hcloses : Closes p.1 t := by
    obtain ⟨row, hrow⟩ := List.exists_mem_of_ne_nil p.1.openRows (by simpa using hopen)
    exact .inl ⟨row, hrow, by simp [hstopped]⟩
  have hdecided := (hnotLost _ _ 0 p _ hreach).closes t hstep hcloses
  rw [hundecided] at hdecided
  cases hdecided

end KypoSite

end Fctf
