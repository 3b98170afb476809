import Fctf.Kypo.Matching

/-!
The lock service and the poller on one answer of KYPO. Both take a level for completed by its
state or by a LevelCompleted event; the lock service then asks for the newest run of the
team's Keycloak user and for the number of levels, the poller is content with any run under a
name of the team.
-/

namespace Fctf

open JsonElement KypoApiClient Traverse

/-! ### Completed levels -/

namespace Poller

section Levels

variable {upper : String → String} {int : JsonElement → Option Int}

theorem get_of_tryGetProperty {e : JsonElement} {name : String} {found : Option JsonElement}
    (h : e.tryGetProperty name = some found) : get e name = some (found.getD .null) := by
  rw [get, h, Option.map_some]

/-- A text property is a text, or it is empty. -/
theorem get_of_textProperty {e : JsonElement} {name s : String}
    (h : e.textProperty name = some s) (hs : s ≠ "") : get e name = some (.string s) := by
  obtain ⟨found, hfound, h⟩ := Option.bind_eq_some_iff.mp h
  rw [get_of_tryGetProperty hfound]
  cases found with
  | none => exact absurd (Option.some.inj h).symm hs
  | some value =>
    cases value with
    | string text =>
      obtain rfl : text = s := by simpa [getString] using h
      rfl
    | null => exact absurd (by simpa [getString] using h.symm) hs
    | _ => cases h

theorem tryGetProperty_of_arrayProperty {e : JsonElement} {name : String}
    {items : List JsonElement} (h : e.arrayProperty name = some (some items)) :
    e.tryGetProperty name = some (some (.array items)) := by
  obtain ⟨found, hfound, h⟩ := Option.bind_eq_some_iff.mp h
  rw [hfound]
  split at h
  · obtain rfl : _ = items := by simpa using h
    rfl
  · cases h

theorem eventsOf_of_arrayProperty {level : JsonElement} {events : List JsonElement}
    (h : level.arrayProperty "events" = some (some events)) : eventsOf level = some events := by
  rw [eventsOf, get_of_tryGetProperty (tryGetProperty_of_arrayProperty h)]
  cases events <;> rfl

theorem anyCompletedEvent_of_anyLevelCompleted {events : List JsonElement}
    (h : anyLevelCompleted events = some true) {completed : Bool}
    (hpoll : anyCompletedEvent events = some completed) : completed = true := by
  induction events with
  | nil => cases h
  | cons event events ih =>
    obtain ⟨type, htype, h⟩ := Option.bind_eq_some_iff.mp h
    obtain ⟨found, hfound, hpoll⟩ := Option.bind_eq_some_iff.mp hpoll
    split at h
    · rename_i hcontains
      have htext : type ≠ "" := by
        rintro rfl
        exact absurd hcontains (by decide)
      have htrue : isCompletedEvent event = some true := by
        simp [isCompletedEvent, get_of_textProperty htype htext, truthy, htext, hcontains]
      rw [htrue] at hfound
      obtain rfl := Option.some.inj hfound
      exact (Option.some.inj hpoll).symm
    · cases found with
      | true => exact (Option.some.inj hpoll).symm
      | false => exact ih h hpoll

/-- What the lock service takes for completed, the poller does, unless it raises. -/
theorem completed_of_isLevelCompleted
    (hupper : ∀ s, equalsIgnoreCase s "FINISHED" = true → upper s = "FINISHED")
    {level : JsonElement} (h : isLevelCompleted level = some true) {completed : Bool}
    (hpoll : levelIsCompleted upper level = some completed) : completed = true := by
  obtain ⟨state, hstate, h⟩ := Option.bind_eq_some_iff.mp h
  obtain ⟨pollState, hpollState, hpoll⟩ := Option.bind_eq_some_iff.mp hpoll
  split at h
  · rename_i hfinished
    have htext : state ≠ "" := by
      rintro rfl
      exact absurd hfinished (by decide)
    have hfound : stateOf upper level = some (upper state) := by
      simp [stateOf, get_of_textProperty hstate htext, truthy, htext]
    rw [hfound] at hpollState
    obtain rfl := Option.some.inj hpollState
    rw [if_pos (hupper state hfinished)] at hpoll
    exact (Option.some.inj hpoll).symm
  · split at hpoll
    · exact (Option.some.inj hpoll).symm
    · obtain ⟨found, hfound, h⟩ := Option.bind_eq_some_iff.mp h
      cases found with
      | none => cases h
      | some events =>
        obtain ⟨pollEvents, hpollEvents, hpoll⟩ := Option.bind_eq_some_iff.mp hpoll
        rw [eventsOf_of_arrayProperty hfound] at hpollEvents
        obtain rfl := Option.some.inj hpollEvents
        exact anyCompletedEvent_of_anyLevelCompleted h hpoll

theorem allCompleted_of_isLevelCompleted
    (hupper : ∀ s, equalsIgnoreCase s "FINISHED" = true → upper s = "FINISHED")
    {levels : List JsonElement} (h : ∀ level ∈ levels, isLevelCompleted level = some true)
    {completed : Bool} (hpoll : allCompleted upper levels = some completed) :
    completed = true := by
  induction levels with
  | nil => exact (Option.some.inj hpoll).symm
  | cons level levels ih =>
    obtain ⟨found, hfound, hpoll⟩ := Option.bind_eq_some_iff.mp hpoll
    obtain rfl := completed_of_isLevelCompleted hupper (h level List.mem_cons_self) hfound
    exact ih (fun other hother => h other (List.mem_cons_of_mem _ hother)) hpoll

/-- The levels of an entry are those of the body, with the completion that it reads. -/
theorem levels_of_readEntry {tryParse : String → Option Int} {raw : JsonElement}
    {entry : KypoProgressEntry} (h : readEntry tryParse raw = some entry)
    (hlevels : entry.levels ≠ []) (hdone : ∀ level ∈ entry.levels, level.isCompleted = true) :
    ∃ levels, get raw "levels" = some (.array levels) ∧ levels ≠ [] ∧
      ∀ level ∈ levels, isLevelCompleted level = some true := by
  simp only [readEntry, Option.bind_eq_bind, Option.bind_eq_some_iff] at h
  obtain ⟨name, -, runId, -, listed, hlisted, read, hread, totalScore, -, hentry⟩ := h
  obtain rfl := Option.some.inj hentry
  have hne : listed ≠ [] := by
    rintro rfl
    exact hlevels (Option.some.inj hread).symm
  refine ⟨listed, ?_, hne, ?_⟩
  · obtain ⟨found, hfound, hlisted⟩ := Option.bind_eq_some_iff.mp hlisted
    rw [get_of_tryGetProperty hfound]
    cases found with
    | none => exact absurd (Option.some.inj hlisted).symm hne
    | some value =>
      cases value with
      | array items =>
        obtain rfl := Option.some.inj hlisted
        rfl
      | _ => cases hlisted
  · intro level hlevel
    obtain ⟨progress, hprogress, hlevelRead⟩ := exists_of_mem_left hread hlevel
    have hcompleted := hdone progress hprogress
    simp only [readLevel, Option.bind_eq_bind, Option.bind_eq_some_iff] at hlevelRead
    obtain ⟨id, -, state, -, score, -, isCompleted, his, completedAt, -, hlevelRead⟩ := hlevelRead
    obtain rfl := Option.some.inj hlevelRead
    rw [his]
    exact congrArg some hcompleted

/-- A run that the lock service takes for completed is finished for the poller, unless one of its
levels raises an exception. -/
theorem finished_of_readEntry
    (hupper : ∀ s, equalsIgnoreCase s "FINISHED" = true → upper s = "FINISHED")
    {tryParse : String → Option Int} {raw : JsonElement} {entry : KypoProgressEntry}
    (h : readEntry tryParse raw = some entry) (hlevels : entry.levels ≠ [])
    (hdone : ∀ level ∈ entry.levels, level.isCompleted = true) {status : RunStatus} {score : Int}
    (hstatus : statusOf upper int raw = some (status, score)) : status = .FINISHED := by
  obtain ⟨levels, hget, hne, hcompleted⟩ := levels_of_readEntry h hlevels hdone
  rw [statusOf, hget, Option.bind_some, calcStatusAndScore] at hstatus
  have htruthy : truthy (.array levels) = true := by
    cases levels with
    | nil => exact absurd rfl hne
    | cons => rfl
  simp only [htruthy, Bool.not_true, Bool.false_eq_true, if_false, Option.bind_eq_bind,
    Option.bind_eq_some_iff] at hstatus
  obtain ⟨scores, -, states, -, finished, hfinished, hstatus⟩ := hstatus
  obtain rfl := allCompleted_of_isLevelCompleted hupper hcompleted hfinished
  simp only [if_true, Option.pure_def, Option.some.injEq, Prod.mk.injEq] at hstatus
  exact hstatus.1.symm

end Levels

/-! ### The poller's credit for a team -/

section Credit

variable {py : PythonText} {upper : String → String} {int : JsonElement → Option Int}
  {poll : Poll} {teamId : Int}

/-- The loop gets to the run, takes it for the team's and finds the status. -/
def Poll.Takes (py : PythonText) (upper : String → String) (int : JsonElement → Option Int)
    (poll : Poll) (participants : List JsonElement) (teamId : Int) (run : JsonElement)
    (status : RunStatus) : Prop :=
  ∃ before after, participants = before ++ run :: after ∧
    (∀ earlier ∈ before, poll.status py upper int earlier ≠ none) ∧
    poll.status py upper int run = some (some (teamId, status))

theorem unsolved_of_mem_creditsAmong {solved : Int → Bool} {participants : List JsonElement}
    {c : JsonElement × Int} (h : c ∈ poll.creditsAmong py upper int solved participants) :
    solved c.2 = false ∧ poll.inserts c.1 c.2 = true := by
  induction participants generalizing solved with
  | nil => cases h
  | cons participant rest ih =>
    rw [Poll.creditsAmong] at h
    rcases hstatus : poll.status py upper int participant with _ | _ | ⟨t, status⟩
    · rw [hstatus] at h
      cases h
    · rw [hstatus] at h
      exact ih h
    · rw [hstatus] at h
      cases status with
      | FINISHED =>
        dsimp only at h
        split at h
        · rename_i hwrites
          rw [Bool.and_eq_true, Bool.not_eq_true'] at hwrites
          rcases List.mem_cons.mp h with rfl | h
          · exact hwrites
          · obtain ⟨hsolved, hinserts⟩ := ih h
            rw [Bool.or_eq_false_iff] at hsolved
            exact ⟨hsolved.2, hinserts⟩
        · exact ih h
      | NOT_STARTED => exact ih h
      | IN_PROGRESS => exact ih h

/-- Where the database takes the team's rows, one completed run is enough. -/
theorem exists_mem_creditsAmong {solved : Int → Bool} {before after : List JsonElement}
    {run : JsonElement} (hbefore : ∀ earlier ∈ before, poll.status py upper int earlier ≠ none)
    (hstatus : poll.status py upper int run = some (some (teamId, .FINISHED)))
    (hsolved : solved teamId = false) (hinserts : ∀ p, poll.inserts p teamId = true) :
    ∃ c ∈ poll.creditsAmong py upper int solved (before ++ run :: after), c.2 = teamId := by
  induction before generalizing solved with
  | nil => exact ⟨(run, teamId), by simp [Poll.creditsAmong, hstatus, hsolved, hinserts], rfl⟩
  | cons head rest ih =>
    have hrest : ∀ solved : Int → Bool, solved teamId = false →
        ∃ c ∈ poll.creditsAmong py upper int solved (rest ++ run :: after), c.2 = teamId := by
      intro solved hsolved
      exact ih (fun earlier h => hbefore earlier (List.mem_cons_of_mem _ h)) hsolved
    rw [List.cons_append, Poll.creditsAmong]
    rcases hs : poll.status py upper int head with _ | _ | ⟨t, status⟩
    · exact absurd hs (hbefore head List.mem_cons_self)
    · exact hrest solved hsolved
    · cases status with
      | FINISHED =>
        by_cases ht : t = teamId
        · subst ht
          exact ⟨(head, t), by simp [hsolved, hinserts], rfl⟩
        · dsimp only
          split
          · obtain ⟨c, hc, hteam⟩ := hrest (fun u => u = t || solved u)
              (by simp [hsolved, Ne.symm ht])
            exact ⟨c, List.mem_cons_of_mem _ hc, hteam⟩
          · exact hrest solved hsolved
      | NOT_STARTED => exact hrest solved hsolved
      | IN_PROGRESS => exact hrest solved hsolved

/-- The poller inserts a solve for the team: it has none, and one of the runs that are taken for
its own is completed. -/
theorem credits_iff {participants : List JsonElement} {inserts : Bool}
    (hinserts : ∀ p, poll.inserts p teamId = inserts) :
    (∃ c ∈ poll.credits py upper int participants, c.2 = teamId) ↔
      poll.solved teamId = false ∧ inserts = true ∧
        ∃ run, poll.Takes py upper int participants teamId run .FINISHED := by
  constructor
  · rintro ⟨c, hc, rfl⟩
    obtain ⟨hsolved, hwrites⟩ := unsolved_of_mem_creditsAmong hc
    obtain ⟨before, after, hsplit, hbefore, hstatus⟩ := of_mem_creditsAmong hc
    exact ⟨hsolved, (hinserts c.1).symm.trans hwrites, c.1, before, after, hsplit, hbefore, hstatus⟩
  · rintro ⟨hsolved, rfl, run, before, after, rfl, hbefore, hstatus⟩
    exact exists_mem_creditsAmong hbefore hstatus hsolved hinserts

end Credit

end Poller

/-! ### The two scorers -/

open Poller

namespace LockInput

variable {tryParse : String → Option Int} {lock : LockInput} {teamId : Int}

theorem teamEntry_ne_solved : lock.teamEntry tryParse teamId ≠ .error (some .Solved) := by
  unfold teamEntry
  repeat' split
  all_goals nofun

/-- The newest run of the team is completed in as many levels as the definition has, and the
team has someone to credit. -/
theorem solved_iff : (lock.lockScore tryParse teamId).result = some .Solved ↔
    lock.alreadySolved = false ∧ lock.inserts = true ∧ lock.captain ≠ none ∧
      ∃ runs teams, lock.Reads tryParse runs teams ∧
        ∃ entry, IsNewest (lock.ownRuns teams teamId runs) entry ∧ lock.allDone entry = true := by
  constructor
  · intro h
    unfold lockScore at h
    split at h
    · rename_i result hresult
      obtain rfl : result = some .Solved := h
      exact absurd hresult teamEntry_ne_solved
    · rename_i entry hentry
      split at h
      · cases h
      · rename_i hdone
        split at h
        · cases h
        · rename_i user hcaptain
          split at h
          · rename_i hinserts
            obtain ⟨hsolved, runs, teams, hreads, hnewest⟩ := teamEntry_eq_ok_iff.mp hentry
            exact ⟨hsolved, hinserts, by simp [hcaptain], runs, teams, hreads, entry, hnewest,
              by simpa using hdone⟩
          · cases h
  · rintro ⟨hsolved, hinserts, hcaptain, runs, teams, hreads, entry, hnewest, hdone⟩
    obtain ⟨user, huser⟩ := Option.ne_none_iff_exists'.mp hcaptain
    have hentry : lock.teamEntry tryParse teamId = .ok entry :=
      teamEntry_eq_ok_iff.mpr ⟨hsolved, runs, teams, hreads, hnewest⟩
    simp [lockScore, hentry, hdone, huser, hinserts]

end LockInput

/-- The poller and the lock service look at the same tables, and the database takes the rows of
both or of neither. -/
structure SameTables (poll : Poll) (lock : LockInput) (teamId : Int) : Prop where
  accounts : lock.accounts = poll.accounts.map fun acc => ⟨acc.teamId, some acc.kypoUserId⟩
  solved : poll.solved teamId = lock.alreadySolved
  inserts : ∀ participant, poll.inserts participant teamId = lock.inserts

/-- The poller gets to a completed run under a name that leads to the team. -/
def Poller.Poll.TakesFinished (py : PythonText) (upper : String → String)
    (int : JsonElement → Option Int) (poll : Poll) (participants : List JsonElement)
    (teamId : Int) : Prop :=
  ∃ run, poll.Takes py upper int participants teamId run .FINISHED

/-- What can set the two apart. A completed run under a name of the team is of no use where the
answer cannot be read, the team's Keycloak user has no run in it, the newest one is not completed
or lists too few levels, or there is nobody to credit; and a completed newest run is of no use
where the poller does not get to it, nor to another one that is completed, under a name of the
team. -/
structure NewestDecides (py : PythonText) (upper : String → String)
    (int : JsonElement → Option Int) (tryParse : String → Option Int) (poll : Poll)
    (lock : LockInput) (teamId : Int) : Prop where
  readable : poll.TakesFinished py upper int (participantsOf lock.progress) teamId →
    ∃ runs teams, lock.Reads tryParse runs teams
  own : poll.TakesFinished py upper int (participantsOf lock.progress) teamId →
    ∀ runs teams, lock.Reads tryParse runs teams → lock.ownRuns teams teamId runs ≠ []
  completed : poll.TakesFinished py upper int (participantsOf lock.progress) teamId →
    ∀ runs teams, lock.Reads tryParse runs teams →
      ∀ entry, IsNewest (lock.ownRuns teams teamId runs) entry →
        entry.levels ≠ [] ∧ ∀ level ∈ entry.levels, level.isCompleted = true
  counted : poll.TakesFinished py upper int (participantsOf lock.progress) teamId →
    ∀ runs teams, lock.Reads tryParse runs teams →
      ∀ entry, IsNewest (lock.ownRuns teams teamId runs) entry →
        lock.expectedLevelCount ≤ entry.levels.length
  member : poll.TakesFinished py upper int (participantsOf lock.progress) teamId →
    lock.captain ≠ none
  reached : ∀ runs teams, lock.Reads tryParse runs teams →
    ∀ entry, IsNewest (lock.ownRuns teams teamId runs) entry → entry.levels ≠ [] →
      (∀ level ∈ entry.levels, level.isCompleted = true) →
      lock.expectedLevelCount ≤ entry.levels.length → lock.captain ≠ none →
      ∃ run status, poll.Takes py upper int (participantsOf lock.progress) teamId run status ∧
        (status = .FINISHED ∨ readEntry tryParse run = some entry)

/-- A run that the poller takes for the team's and the lock service reads as completed is finished
for the poller too. -/
theorem Poller.Poll.Takes.finished {py : PythonText} {upper : String → String}
    {int : JsonElement → Option Int} {tryParse : String → Option Int} {poll : Poll}
    {participants : List JsonElement} {teamId : Int} {run : JsonElement} {status : RunStatus}
    {entry : KypoProgressEntry}
    (h : poll.Takes py upper int participants teamId run status)
    (hupper : ∀ s, equalsIgnoreCase s "FINISHED" = true → upper s = "FINISHED")
    (hread : readEntry tryParse run = some entry) (hlevels : entry.levels ≠ [])
    (hdone : ∀ level ∈ entry.levels, level.isCompleted = true) : status = .FINISHED := by
  obtain ⟨before, after, hsplit, hbefore, hstatus⟩ := h
  rw [Poll.status_eq] at hstatus
  obtain ⟨name, -, hstatus⟩ := Option.bind_eq_some_iff.mp hstatus
  split at hstatus
  · cases hstatus
  · obtain ⟨⟨found, score⟩, hfound, hstatus⟩ := Option.bind_eq_some_iff.mp hstatus
    obtain rfl := finished_of_readEntry hupper hread hlevels hdone hfound
    split at hstatus
    · simp only [Option.some.injEq, Prod.mk.injEq] at hstatus
      exact hstatus.2.symm
    · cases hstatus

/-- The poller inserts a solve exactly when the lock service would: the team is solved or the
database takes no rows, or the newest run decides. -/
theorem scorers_agree_iff {py : PythonText} {upper : String → String}
    {int : JsonElement → Option Int} {tryParse : String → Option Int} {poll : Poll}
    {lock : LockInput} {teamId : Int}
    (hupper : ∀ s, equalsIgnoreCase s "FINISHED" = true → upper s = "FINISHED")
    (hsame : SameTables poll lock teamId) :
    ((∃ c ∈ poll.credits py upper int (participantsOf lock.progress), c.2 = teamId) ↔
        (lock.lockScore tryParse teamId).result = some .Solved) ↔
      (lock.alreadySolved = true ∨ lock.inserts = false ∨
        NewestDecides py upper int tryParse poll lock teamId) := by
  rw [credits_iff hsame.inserts, LockInput.solved_iff, hsame.solved]
  constructor
  · intro h
    by_cases hsolved : lock.alreadySolved = true
    · exact .inl hsolved
    by_cases hinserts : lock.inserts = true
    · rw [Bool.not_eq_true] at hsolved
      have hlocked : poll.TakesFinished py upper int (participantsOf lock.progress) teamId →
          lock.captain ≠ none ∧ ∃ runs teams, lock.Reads tryParse runs teams ∧
            ∃ entry, IsNewest (lock.ownRuns teams teamId runs) entry ∧
              lock.allDone entry = true := by
        rintro ⟨run, hrun⟩
        exact (h.mp ⟨hsolved, hinserts, run, hrun⟩).2.2
      -- there is one answer and one newest run, so what holds of some holds of all
      have hnewest : poll.TakesFinished py upper int (participantsOf lock.progress) teamId →
          ∀ runs teams, lock.Reads tryParse runs teams →
            ∀ entry, IsNewest (lock.ownRuns teams teamId runs) entry →
              lock.allDone entry = true := by
        intro htakes runs teams hreads entry hentry
        obtain ⟨-, _, _, hreads', best, hbest, hdone⟩ := hlocked htakes
        obtain ⟨rfl, rfl⟩ := hreads.unique hreads'
        rw [← newest_eq_some_iff] at hbest hentry
        rw [hentry] at hbest
        obtain rfl := Option.some.inj hbest
        exact hdone
      refine .inr (.inr ?_)
      constructor
      case readable =>
        intro htakes
        obtain ⟨-, runs, teams, hreads, -⟩ := hlocked htakes
        exact ⟨runs, teams, hreads⟩
      case own =>
        intro htakes runs teams hreads
        obtain ⟨-, _, _, hreads', best, hbest, -⟩ := hlocked htakes
        obtain ⟨rfl, rfl⟩ := hreads.unique hreads'
        exact List.ne_nil_of_mem hbest.mem
      case completed =>
        intro htakes runs teams hreads entry hentry
        obtain ⟨hlevels, hdone, -⟩ := allDone_iff.mp (hnewest htakes runs teams hreads entry hentry)
        exact ⟨hlevels, hdone⟩
      case counted =>
        intro htakes runs teams hreads entry hentry
        obtain ⟨-, -, hcount⟩ := allDone_iff.mp (hnewest htakes runs teams hreads entry hentry)
        omega
      case member => exact fun htakes => (hlocked htakes).1
      case reached =>
        intro runs teams hreads entry hentry hlevels hdone hcount hcaptain
        obtain ⟨-, -, run, hrun⟩ := h.mpr ⟨hsolved, hinserts, hcaptain, runs, teams, hreads, entry,
          hentry, allDone_iff.mpr ⟨hlevels, hdone, .inr hcount⟩⟩
        exact ⟨run, .FINISHED, hrun, .inl rfl⟩
    · exact .inr (.inl (by simpa using hinserts))
  · rintro (hsolved | hinserts | h)
    · simp [hsolved]
    · simp [hinserts]
    · refine and_congr_right fun _ => and_congr_right fun _ => ?_
      constructor
      · intro htakes
        obtain ⟨runs, teams, hreads⟩ := h.readable htakes
        obtain ⟨entry, hentry⟩ := Option.ne_none_iff_exists'.mp
          (newest_eq_none_iff.not.mpr (h.own htakes runs teams hreads))
        rw [newest_eq_some_iff] at hentry
        obtain ⟨hlevels, hdone⟩ := h.completed htakes runs teams hreads entry hentry
        have hcount := h.counted htakes runs teams hreads entry hentry
        exact ⟨h.member htakes, runs, teams, hreads, entry, hentry,
          allDone_iff.mpr ⟨hlevels, hdone, .inr hcount⟩⟩
      · rintro ⟨hcaptain, runs, teams, hreads, entry, hentry, hall⟩
        obtain ⟨hlevels, hdone, hcount⟩ := allDone_iff.mp hall
        obtain ⟨run, status, htakes, hrun⟩ := h.reached runs teams hreads entry hentry hlevels hdone
          (by omega) hcaptain
        refine ⟨run, ?_⟩
        rcases hrun with rfl | hread
        · exact htakes
        · obtain rfl := htakes.finished hupper hread hlevels hdone
          exact htakes

/-- A participant of a team with the name that its account has. -/
def runOf (runId : Int) (state : String) : JsonElement :=
  .object [("name", .string "fctf_web_7"), ("training_run_id", .integer runId),
    ("levels", .array [.object [("state", .string state)]])]

def webPoll : Poll where
  accounts := [⟨7, "uuid-7", "fctf_web_7", some "web"⟩]
  cached _ := true
  solved _ := false
  inserts _ _ := true

def asciiUpper (s : String) : String := String.ofList (s.toList.map Char.toUpper)

theorem asciiUpper_finished (s : String) (h : equalsIgnoreCase s "FINISHED" = true) :
    asciiUpper s = "FINISHED" := by
  have htext : s.toList.map Char.toUpper = "FINISHED".toList.map Char.toUpper := by
    simpa [equalsIgnoreCase] using h
  rw [asciiUpper, htext]
  decide

/-- KYPO answers with these runs. -/
def webLock (runs : List JsonElement) : LockInput :=
  { startedLock .refused with progress := .body (some (.object [("progress", .array runs)])) }

theorem web_sameTables (runs : List JsonElement) : SameTables webPoll (webLock runs) 7 := by
  constructor
  · rfl
  · rfl
  · exact fun _ => rfl

/-- The team has finished a run, and another one is under way. -/
theorem older_run_credited :
    ¬∀ (py : PythonText) (upper : String → String) (int : JsonElement → Option Int)
      (tryParse : String → Option Int) (poll : Poll) (lock : LockInput) (teamId : Int),
      (∀ s, equalsIgnoreCase s "FINISHED" = true → upper s = "FINISHED") →
      SameTables poll lock teamId →
      ((∃ c ∈ poll.credits py upper int (participantsOf lock.progress), c.2 = teamId) ↔
        (lock.lockScore tryParse teamId).result = some .Solved) := by
  intro hall
  have hagree := hall asciiText asciiUpper (fun _ => some 0) (fun _ => none) webPoll
    (webLock [runOf 11 "FINISHED", runOf 12 "RUNNING"]) 7 asciiUpper_finished (web_sameTables _)
  have hcredited : (webPoll.credits asciiText asciiUpper (fun _ => some 0)
      [runOf 11 "FINISHED", runOf 12 "RUNNING"]).map Prod.snd = [7] := by
    decide
  obtain ⟨c, hc, hteam⟩ := List.mem_map.mp (hcredited ▸ List.mem_cons_self)
  have hlocked := hagree.mp ⟨c, hc, hteam⟩
  revert hlocked
  decide

/-- What the lock service reads of a finished run. -/
def finishedEntry : KypoProgressEntry :=
  ⟨"fctf_web_7", 11, true, 0, [⟨0, "FINISHED", 0, true, none⟩]⟩

theorem web_runs : getInstanceProgress (fun _ => none) (webLock [runOf 11 "FINISHED"]).progress =
    some [finishedEntry] := by
  decide

theorem web_newest {runs : List KypoProgressEntry} {teams : String → Option Int}
    {entry : KypoProgressEntry}
    (h : (webLock [runOf 11 "FINISHED"]).Reads (fun _ => none) runs teams)
    (hentry : IsNewest ((webLock [runOf 11 "FINISHED"]).ownRuns teams 7 runs) entry) :
    entry = finishedEntry := by
  have hmem := List.mem_of_mem_filter hentry.mem
  obtain rfl := Option.some.inj (h.progress.symm.trans web_runs)
  exact List.mem_singleton.mp hmem

/-- One run, and it is finished: the poller inserts a solve, and the lock service would. -/
theorem scorers_agree_finished : SameTables webPoll (webLock [runOf 11 "FINISHED"]) 7 ∧
    (∃ c ∈ webPoll.credits asciiText asciiUpper (fun _ => some 0)
        (participantsOf (webLock [runOf 11 "FINISHED"]).progress), c.2 = 7) ∧
    ((∃ c ∈ webPoll.credits asciiText asciiUpper (fun _ => some 0)
        (participantsOf (webLock [runOf 11 "FINISHED"]).progress), c.2 = 7) ↔
      ((webLock [runOf 11 "FINISHED"]).lockScore (fun _ => none) 7).result = some .Solved) := by
  have hcredited : (webPoll.credits asciiText asciiUpper (fun _ => some 0)
      (participantsOf (webLock [runOf 11 "FINISHED"]).progress)).map Prod.snd = [7] := by
    decide
  refine ⟨web_sameTables _, List.mem_map.mp (hcredited ▸ List.mem_cons_self),
    (scorers_agree_iff asciiUpper_finished (web_sameTables _)).mpr (.inr (.inr ?_))⟩
  constructor
  case readable => exact fun _ => ⟨[finishedEntry], _, ⟨_, rfl, by decide⟩, web_runs, rfl⟩
  case own =>
    rintro - runs teams hreads
    obtain rfl := Option.some.inj (hreads.progress.symm.trans web_runs)
    obtain rfl := Option.some.inj (hreads.accounts.symm.trans rfl)
    decide
  case completed =>
    rintro - runs teams hreads entry hentry
    obtain rfl := web_newest hreads hentry
    decide
  case counted =>
    rintro - runs teams hreads entry hentry
    obtain rfl := web_newest hreads hentry
    decide
  case member => exact fun _ => by decide
  case reached =>
    intro runs teams hreads entry hentry hlevels hdone hcount hcaptain
    exact ⟨runOf 11 "FINISHED", .FINISHED, ⟨[], [], rfl, by simp, by decide⟩, .inl rfl⟩

end Fctf
