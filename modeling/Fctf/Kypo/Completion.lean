import Mathlib.Data.List.Perm.Subperm
import Fctf.Lib.Traverse
import Fctf.Kypo.Lock

/-!
KYPO credit and the training definition. KYPO lists only the levels of a run that have been
started, each of them once; whether these are all levels of the definition is what the level
count has to tell.
-/

namespace Fctf

open JsonElement KypoApiClient Traverse

/-! ### Levels of a definition -/

section Complete

variable {L : Type*} {definition names : List L} {flags : List Bool}

/-- A listing names levels of the definition, each at most once. -/
structure Lists (definition names : List L) (count : Nat) : Prop where
  nodup : names.Nodup
  subset : names ⊆ definition
  count : names.length = count

/-- The run is finished, and every level of the definition counts as completed in it. -/
structure Complete (definition names : List L) (flags : List Bool) : Prop where
  started : flags ≠ []
  finished : ∀ flag ∈ flags, flag = true
  levels : ∀ level ∈ definition, ∃ i : Nat, names[i]? = some level ∧ flags[i]? = some true

/-- Where all listed levels are completed, the number of listed levels decides. -/
theorem complete_iff_length (hdefinition : definition.Nodup)
    (hlists : Lists definition names flags.length) (hstarted : flags ≠ [])
    (hfinished : ∀ flag ∈ flags, flag = true) :
    Complete definition names flags ↔ definition.length ≤ flags.length := by
  constructor
  · intro h
    have hsubset : definition ⊆ names := by
      intro level hlevel
      obtain ⟨i, hname, -⟩ := h.levels level hlevel
      exact List.mem_of_getElem? hname
    calc definition.length ≤ names.length := (hdefinition.subperm hsubset).length_le
      _ = flags.length := hlists.count
  · intro hle
    have hperm : names.Perm definition := by
      apply (hlists.nodup.subperm hlists.subset).perm_of_length_le
      rw [hlists.count]
      exact hle
    refine ⟨hstarted, hfinished, ?_⟩
    intro level hlevel
    obtain ⟨i, hi, hname⟩ := List.getElem_of_mem (hperm.mem_iff.mpr hlevel)
    have hflag : i < flags.length := hlists.count ▸ hi
    refine ⟨i, List.getElem?_eq_some_iff.mpr ⟨hi, hname⟩, ?_⟩
    exact List.getElem?_eq_some_iff.mpr ⟨hflag, hfinished _ (List.getElem_mem hflag)⟩

end Complete

/-! ### The lock service -/

section Lock

variable {L : Type*} {definition : List L} {names : JsonElement → List L}
  {tryParse : String → Option Int} {input : LockInput} {teamId : Int} {entry : KypoProgressEntry}

/-- An entry has the levels that the body lists for its run. -/
theorem levels_length_of_readEntry {raw : JsonElement} (h : readEntry tryParse raw = some entry) :
    ∃ levels, listedLevels raw = some levels ∧ entry.levels.length = levels.length := by
  simp only [readEntry, Option.bind_eq_bind, Option.bind_eq_some_iff] at h
  obtain ⟨name, -, runId, -, listed, hlisted, levels, hlevels, totalScore, -, hentry⟩ := h
  obtain rfl := Option.some.inj hentry
  exact ⟨listed, hlisted, length_of_mapM hlevels⟩

/-- The run has the highest id, and comes first among those that have it. -/
def IsNewest (runs : List KypoProgressEntry) (run : KypoProgressEntry) : Prop :=
  ∃ before after, runs = before ++ run :: after ∧
    (∀ other ∈ before, other.runId < run.runId) ∧ ∀ other ∈ after, other.runId ≤ run.runId

theorem IsNewest.mem {runs : List KypoProgressEntry} (h : IsNewest runs entry) : entry ∈ runs := by
  obtain ⟨before, after, rfl, -⟩ := h
  exact List.mem_append_cons_self

theorem isNewest_cons (head : KypoProgressEntry) (rest : List KypoProgressEntry) :
    IsNewest (head :: rest) entry ↔
      (entry = head ∧ ∀ other ∈ rest, other.runId ≤ head.runId) ∨
        (head.runId < entry.runId ∧ IsNewest rest entry) := by
  constructor
  · rintro ⟨before, after, hsplit, hbefore, hafter⟩
    cases before with
    | nil =>
      obtain ⟨rfl, rfl⟩ := List.cons.inj hsplit
      exact .inl ⟨rfl, hafter⟩
    | cons first before =>
      obtain ⟨rfl, rfl⟩ := List.cons.inj hsplit
      refine .inr ⟨hbefore _ List.mem_cons_self, before, after, rfl, ?_, hafter⟩
      exact fun other hother => hbefore other (List.mem_cons_of_mem _ hother)
  · rintro (⟨rfl, hrest⟩ | ⟨hlt, before, after, rfl, hbefore, hafter⟩)
    · exact ⟨[], rest, rfl, by simp, hrest⟩
    · refine ⟨head :: before, after, rfl, ?_, hafter⟩
      rintro other hother
      rcases List.mem_cons.mp hother with rfl | hother
      · exact hlt
      · exact hbefore other hother

theorem newest_eq_none_iff {runs : List KypoProgressEntry} :
    LockInput.newest runs = none ↔ runs = [] := by
  cases runs with
  | nil => simp [LockInput.newest]
  | cons head rest =>
    rw [LockInput.newest]
    split
    · split <;> simp
    · simp

theorem newest_eq_some_iff {runs : List KypoProgressEntry} :
    LockInput.newest runs = some entry ↔ IsNewest runs entry := by
  induction runs generalizing entry with
  | nil => simp [LockInput.newest, IsNewest]
  | cons head rest ih =>
    rw [isNewest_cons, LockInput.newest]
    rcases hbest : LockInput.newest rest with _ | best
    · obtain rfl := newest_eq_none_iff.mp hbest
      simp [IsNewest, eq_comm]
    · obtain ⟨before, after, rfl, hbefore, hafter⟩ := ih.mp hbest
      have hle : ∀ other ∈ before ++ best :: after, other.runId ≤ best.runId := by
        intro other hother
        rcases List.mem_append.mp hother with hother | hother
        · exact (hbefore other hother).le
        · rcases List.mem_cons.mp hother with rfl | hother
          · exact le_rfl
          · exact hafter other hother
      rw [← ih, hbest]
      dsimp only
      split
      · rename_i hlt
        constructor
        · intro h
          obtain rfl := Option.some.inj h
          exact .inr ⟨hlt, rfl⟩
        · rintro (⟨rfl, hrest⟩ | ⟨-, h⟩)
          · exact absurd (hrest best List.mem_append_cons_self) (by omega)
          · exact h
      · rename_i hge
        constructor
        · intro h
          obtain rfl := Option.some.inj h
          exact .inl ⟨rfl, fun other hother => (hle other hother).trans (by omega)⟩
        · rintro (⟨rfl, -⟩ | ⟨hlt, h⟩)
          · rfl
          · obtain rfl := Option.some.inj h
            exact absurd hlt hge

/-- The lock service is configured for the challenge and can read KYPO's answer and the accounts:
these are the runs, and these the teams of the Keycloak users. -/
structure LockInput.Reads (tryParse : String → Option Int) (input : LockInput)
    (runs : List KypoProgressEntry) (teams : String → Option Int) : Prop where
  configured : ∃ config, input.config = some config ∧
    isNullOrWhiteSpace (config.kypoBaseUrl.getD "") = false
  progress : getInstanceProgress tryParse input.progress = some runs
  accounts : LockInput.keycloakIdToTeam input.accounts = some teams

theorem LockInput.Reads.unique {runs runs' : List KypoProgressEntry}
    {teams teams' : String → Option Int} (h : input.Reads tryParse runs teams)
    (h' : input.Reads tryParse runs' teams') : runs' = runs ∧ teams' = teams := by
  constructor
  · exact Option.some.inj (h'.progress.symm.trans h.progress)
  · exact Option.some.inj (h'.accounts.symm.trans h.accounts)

/-- The runs of the team's Keycloak user. -/
def LockInput.ownRuns (input : LockInput) (teams : String → Option Int) (teamId : Int)
    (runs : List KypoProgressEntry) : List KypoProgressEntry :=
  runs.filter fun run => input.teamOf teams run.runId = some teamId

/-- The team's entry is the newest of its own runs. -/
theorem teamEntry_eq_ok_iff : input.teamEntry tryParse teamId = .ok entry ↔
    input.alreadySolved = false ∧ ∃ runs teams, input.Reads tryParse runs teams ∧
      IsNewest (input.ownRuns teams teamId runs) entry := by
  constructor
  · intro h
    unfold LockInput.teamEntry at h
    split at h
    · cases h
    rename_i config hconfig
    split at h
    · cases h
    rename_i hsolved
    split at h
    · cases h
    rename_i hblank
    split at h
    · cases h
    rename_i runs hruns
    split at h
    · cases h
    rename_i teams hteams
    split at h
    · cases h
    rename_i best hbest
    cases h
    refine ⟨by simpa using hsolved, runs, teams, ?_, newest_eq_some_iff.mp hbest⟩
    exact ⟨⟨config, hconfig, by simpa using hblank⟩, hruns, hteams⟩
  · rintro ⟨hsolved, runs, teams, ⟨⟨config, hconfig, hblank⟩, hruns, hteams⟩, hnewest⟩
    have hbest := newest_eq_some_iff.mpr hnewest
    rw [LockInput.ownRuns] at hbest
    simp [LockInput.teamEntry, hconfig, hsolved, hblank, hruns, hteams, hbest]

/-- The team's entry is one of those that the body lists. -/
theorem listed_of_teamEntry (h : input.teamEntry tryParse teamId = .ok entry) :
    ∃ entries, listedEntries input.progress = some entries ∧
      ∃ raw ∈ entries, readEntry tryParse raw = some entry := by
  obtain ⟨-, runs, teams, hreads, hnewest⟩ := teamEntry_eq_ok_iff.mp h
  obtain ⟨entries, hentries, hmap⟩ := Option.bind_eq_some_iff.mp hreads.progress
  exact ⟨entries, hentries, exists_of_mem_right hmap (List.mem_of_mem_filter hnewest.mem)⟩

theorem allDone_iff : input.allDone entry = true ↔ entry.levels ≠ [] ∧
    (∀ level ∈ entry.levels, level.isCompleted = true) ∧
      (input.expectedLevelCount ≤ 0 ∨ input.expectedLevelCount ≤ entry.levels.length) := by
  simp [LockInput.allDone, and_assoc, List.length_pos_iff]

theorem credited_iff : (input.lockScore tryParse teamId).credited = some entry ↔
    input.teamEntry tryParse teamId = .ok entry ∧ input.allDone entry = true ∧
      input.captain ≠ none ∧ input.inserts = true := by
  constructor
  · intro h
    unfold LockInput.lockScore at h
    split at h
    · cases h
    · rename_i best hbest
      split at h
      · cases h
      · rename_i hdone
        split at h
        · cases h
        · rename_i user hcaptain
          split at h
          · rename_i hinserts
            obtain rfl := Option.some.inj h
            exact ⟨hbest, by simpa using hdone, by simp [hcaptain], hinserts⟩
          · cases h
  · rintro ⟨hentry, hdone, hcaptain, hinserts⟩
    obtain ⟨user, huser⟩ := Option.ne_none_iff_exists'.mp hcaptain
    simp [LockInput.lockScore, hentry, hdone, huser, hinserts]

/-- The solve is inserted for complete runs only. -/
def LockCreditsComplete (definition : List L) (names : JsonElement → List L)
    (tryParse : String → Option Int) (input : LockInput) (teamId : Int) : Prop :=
  ∀ entries, listedEntries input.progress = some entries → ∀ raw ∈ entries, ∀ entry,
    readEntry tryParse raw = some entry →
    (input.lockScore tryParse teamId).credited = some entry →
    Complete definition (names raw) (entry.levels.map (·.isCompleted))

/-- The level count is not behind the definition, or the team is not to be credited, or its newest
run lists every level, or one that is not completed, or fewer than the level count. -/
def LockGuarded (definition : List L) (tryParse : String → Option Int) (input : LockInput)
    (teamId : Int) : Prop :=
  definition.length ≤ input.expectedLevelCount ∨
    input.alreadySolved = true ∨ input.captain = none ∨ input.inserts = false ∨
    ∀ runs teams, input.Reads tryParse runs teams →
      ∀ entry, IsNewest (input.ownRuns teams teamId runs) entry →
        entry.levels = [] ∨ (∃ level ∈ entry.levels, level.isCompleted = false) ∨
          entry.levels.length < input.expectedLevelCount ∨
          definition.length ≤ entry.levels.length

theorem lockCreditsComplete_iff (hdefinition : definition.Nodup)
    (hnames : ∀ entries, listedEntries input.progress = some entries → ∀ raw ∈ entries,
      ∀ levels, listedLevels raw = some levels →
        Lists definition (names raw) levels.length) :
    LockCreditsComplete definition names tryParse input teamId ↔
      LockGuarded definition tryParse input teamId := by
  have hcomplete : ∀ entries, listedEntries input.progress = some entries → ∀ raw ∈ entries,
      ∀ entry, readEntry tryParse raw = some entry → input.allDone entry = true →
      (Complete definition (names raw) (entry.levels.map (·.isCompleted)) ↔
        definition.length ≤ entry.levels.length) := by
    intro entries hentries raw hraw entry hentry hdone
    obtain ⟨hstarted, hfinished, -⟩ := allDone_iff.mp hdone
    obtain ⟨levels, hlevels, hlength⟩ := levels_length_of_readEntry hentry
    have hlists := hnames entries hentries raw hraw levels hlevels
    rw [← hlength, ← List.length_map (·.isCompleted)] at hlists
    rw [complete_iff_length hdefinition hlists (by simpa using hstarted)
      (by simpa using hfinished), List.length_map]
  constructor
  · intro h
    by_contra hunguarded
    simp only [LockGuarded, not_or, not_forall] at hunguarded
    obtain ⟨hbehind, hsolved, hcaptain, hinserts, runs, teams, hreads, entry, hnewest, hstarted,
      hfinished, hcount, hfewer⟩ := hunguarded
    have hentry : input.teamEntry tryParse teamId = .ok entry :=
      teamEntry_eq_ok_iff.mpr ⟨by simpa using hsolved, runs, teams, hreads, hnewest⟩
    obtain ⟨entries, hentries, raw, hraw, hread⟩ := listed_of_teamEntry hentry
    have hdone : input.allDone entry = true := by
      refine allDone_iff.mpr ⟨hstarted, ?_, .inr (by omega)⟩
      intro level hlevel
      by_contra hopen
      exact hfinished ⟨level, hlevel, by simpa using hopen⟩
    have hcredited : (input.lockScore tryParse teamId).credited = some entry :=
      credited_iff.mpr ⟨hentry, hdone, hcaptain, by simpa using hinserts⟩
    exact hfewer ((hcomplete entries hentries raw hraw entry hread hdone).mp
      (h entries hentries raw hraw entry hread hcredited))
  · intro h entries hentries raw hraw entry hread hcredited
    obtain ⟨hentry, hdone, hcaptain, hinserts⟩ := credited_iff.mp hcredited
    apply (hcomplete entries hentries raw hraw entry hread hdone).mpr
    obtain ⟨hstarted, hfinished, hcount⟩ := allDone_iff.mp hdone
    obtain ⟨hunsolved, runs, teams, hreads, hnewest⟩ := teamEntry_eq_ok_iff.mp hentry
    rcases h with hguard | hsolved | hnone | hrefused | hguard
    · omega
    · rw [hunsolved] at hsolved
      cases hsolved
    · exact absurd hnone hcaptain
    · rw [hinserts] at hrefused
      cases hrefused
    · rcases hguard runs teams hreads entry hnewest with
        hempty | ⟨level, hlevel, hopen⟩ | hlt | hle
      · exact absurd hempty hstarted
      · rw [hfinished level hlevel] at hopen
        cases hopen
      · omega
      · exact hle

end Lock

/-! ### The poller -/

namespace Poller

variable {L : Type*} {definition : List L} {names : JsonElement → List L}
  {upper : String → String} {int : JsonElement → Option Int} {input : PollInput}

/-- The levels that the body lists for a participant. -/
def levelsOf (participant : JsonElement) : List JsonElement :=
  match get participant "levels" with
  | some (.array levels) => levels
  | _ => []

/-- Which of them count as completed. -/
def completions (upper : String → String) (participant : JsonElement) : List Bool :=
  (levelsOf participant).map fun level => levelIsCompleted upper level == some true

theorem allCompleted_eq_true {levels : List JsonElement}
    (h : allCompleted upper levels = some true) :
    ∀ level ∈ levels, levelIsCompleted upper level = some true := by
  induction levels with
  | nil => simp
  | cons head rest ih =>
    obtain ⟨completed, hhead, hrest⟩ := Option.bind_eq_some_iff.mp h
    cases completed with
    | false => cases hrest
    | true =>
      intro level hlevel
      rcases List.mem_cons.mp hlevel with rfl | hlevel
      · exact hhead
      · exact ih hrest level hlevel

theorem levels_of_finished {levels : JsonElement} {score : Int}
    (h : calcStatusAndScore upper int levels = some (.FINISHED, score)) :
    ∃ items, levels = .array items ∧ items ≠ [] ∧
      ∀ level ∈ items, levelIsCompleted upper level = some true := by
  unfold calcStatusAndScore at h
  split at h
  · cases h
  · rename_i htruthy
    split at h
    · rename_i items
      obtain ⟨scores, -, h⟩ := Option.bind_eq_some_iff.mp h
      obtain ⟨states, -, h⟩ := Option.bind_eq_some_iff.mp h
      obtain ⟨finished, hfinished, h⟩ := Option.bind_eq_some_iff.mp h
      cases finished with
      | true =>
        refine ⟨items, rfl, ?_, allCompleted_eq_true hfinished⟩
        rintro rfl
        exact htruthy rfl
      | false =>
        simp only [Bool.false_eq_true, if_false] at h
        split at h <;> cases h
    · cases h

/-- A participant is finished when all of its listed levels are completed. -/
theorem finished_of_status {participant : JsonElement} {teamId : Int}
    (h : participantStatus upper int input participant = some (some (teamId, .FINISHED))) :
    completions upper participant ≠ [] ∧ ∀ flag ∈ completions upper participant, flag = true := by
  unfold participantStatus at h
  obtain ⟨name, -, h⟩ := Option.bind_eq_some_iff.mp h
  obtain ⟨team, -, h⟩ := Option.bind_eq_some_iff.mp h
  split at h
  · cases h
  · obtain ⟨levels, hlevels, h⟩ := Option.bind_eq_some_iff.mp h
    obtain ⟨⟨status, score⟩, hstatus, h⟩ := Option.bind_eq_some_iff.mp h
    simp only at h
    split at h
    · cases h
      obtain ⟨items, hitems, hne, hall⟩ := levels_of_finished hstatus
      have hlisted : levelsOf participant = items := by
        rw [levelsOf, hlevels, hitems]
      rw [completions, hlisted]
      constructor
      · simpa using hne
      · intro flag hflag
        obtain ⟨level, hlevel, rfl⟩ := List.mem_map.mp hflag
        simp [hall level hlevel]
    · cases h

/-- Solves are inserted for complete runs only. -/
def PollCreditsComplete (definition : List L) (names : JsonElement → List L)
    (upper : String → String) (credited : List JsonElement) : Prop :=
  ∀ participant ∈ credited, Complete definition (names participant) (completions upper participant)

/-- Every participant that the loop inserts a solve for lists as many levels as the
definition has. -/
def PollGuarded (definition : List L) (upper : String → String) (int : JsonElement → Option Int)
    (input : PollInput) (solved : Int → Bool) : List JsonElement → Prop
  | [] => True
  | participant :: participants =>
    match participantStatus upper int input participant with
    | none => True
    | some (some (teamId, .FINISHED)) =>
      if !solved teamId && input.inserts teamId then
        definition.length ≤ (levelsOf participant).length ∧
          PollGuarded definition upper int input (fun t => t = teamId || solved t) participants
      else PollGuarded definition upper int input solved participants
    | some _ => PollGuarded definition upper int input solved participants

theorem pollCreditsComplete_iff (hdefinition : definition.Nodup) (participants : List JsonElement)
    (hnames : ∀ participant ∈ participants,
      Lists definition (names participant) (levelsOf participant).length)
    (solved : Int → Bool) :
    PollCreditsComplete definition names upper
        (creditedAmong upper int input solved participants) ↔
      PollGuarded definition upper int input solved participants := by
  induction participants generalizing solved with
  | nil => simp [creditedAmong, PollCreditsComplete, PollGuarded]
  | cons participant rest ih =>
    have hrest := ih fun other hother => hnames other (List.mem_cons_of_mem _ hother)
    rw [creditedAmong, PollGuarded]
    rcases hstatus : participantStatus upper int input participant with _ | _ | ⟨teamId, status⟩
    · simp [PollCreditsComplete]
    · exact hrest solved
    · cases status with
      | NOT_STARTED => exact hrest solved
      | IN_PROGRESS => exact hrest solved
      | FINISHED =>
        obtain ⟨hstarted, hfinished⟩ := finished_of_status hstatus
        have hlists := hnames participant List.mem_cons_self
        have hcount : (levelsOf participant).length = (completions upper participant).length :=
          List.length_map _ |>.symm
        rw [hcount] at hlists
        have hiff := complete_iff_length hdefinition hlists hstarted hfinished
        rw [← hcount] at hiff
        dsimp only
        split_ifs
        · rw [← hrest, ← hiff]
          exact List.forall_mem_cons
        · exact hrest solved

end Poller

open Poller in
/-- Both writers insert solves for complete runs only: exactly when the lock service's level
count is not behind the definition where that matters, and no participant that the poller
credits lists fewer levels than the definition has. -/
theorem kypoCreditsComplete_iff {L : Type*} (definition : List L) (names : JsonElement → List L)
    (tryParse : String → Option Int) (lock : LockInput) (teamId : Int)
    (upper : String → String) (int : JsonElement → Option Int) (poll : PollInput)
    (hdefinition : definition.Nodup)
    (hlock : ∀ entries, listedEntries lock.progress = some entries → ∀ raw ∈ entries,
      ∀ levels, listedLevels raw = some levels → Lists definition (names raw) levels.length)
    (hpoll : ∀ participant ∈ participantsOf poll.progress,
      Lists definition (names participant) (levelsOf participant).length) :
    (LockCreditsComplete definition names tryParse lock teamId ∧
        PollCreditsComplete definition names upper (syncInstance upper int poll)) ↔
      LockGuarded definition tryParse lock teamId ∧
        PollGuarded definition upper int poll poll.solved (participantsOf poll.progress) := by
  apply and_congr
  · exact lockCreditsComplete_iff hdefinition hlock
  · exact pollCreditsComplete_iff hdefinition _ hpoll _

/-- A run of which one level has been started, and finished. -/
def startedRun : JsonElement :=
  .object [("name", .string "fctf_web_7"), ("training_run_id", .integer 11),
    ("levels", .array [.object [("state", .string "FINISHED")]])]

def startedProgress : HttpReply := .body (some (.object [("progress", .array [startedRun])]))

/-- The team's session ends while KYPO answers with this run and, for the level count, as given. -/
def startedLock (trainingInstance : HttpReply) : LockInput where
  config := some { challengeId := 5, kypoBaseUrl := some "https://kypo", kypoInstanceId := 3 }
  alreadySolved := false
  progress := startedProgress
  accounts := [⟨7, some "uuid-7"⟩]
  runTeam _ := none
  runSub _ := some "team-7"
  participant _ := .failed
  subKeycloak _ := some "uuid-7"
  users _ := .failed
  levelCount := none
  trainingInstance := trainingInstance
  trainingDefinition _ := .failed
  captain := some 70
  inserts := true

def startedPoll : Poller.PollInput where
  progress := startedProgress
  teamOf _ := some (some 7)
  cached _ := true
  solved _ := false
  inserts _ := true

/-- An instance whose definition has one level. -/
def countedInstance : HttpReply := .body (some (.object [("level_count", .integer 1)]))

/-- A definition with one level, which the run has finished: both writers credit the team. -/
theorem kypoCreditsComplete_counted :
    ((startedLock countedInstance).lockScore (fun _ => none) 7).result = some .Solved ∧
      Poller.syncInstance id (fun _ => some 0) startedPoll = [startedRun] ∧
      LockCreditsComplete [1] (fun _ => [1]) (fun _ => none) (startedLock countedInstance) 7 ∧
      Poller.PollCreditsComplete [1] (fun _ => [1]) id
        (Poller.syncInstance id (fun _ => some 0) startedPoll) := by
  refine ⟨by decide, by rfl, ?_⟩
  apply (kypoCreditsComplete_iff [1] (fun _ => [1]) (fun _ => none) _ 7 id
    (fun _ => some 0) _ (by decide) ?_ ?_).mpr
  · exact ⟨.inl (by decide), by decide, trivial⟩
  · rintro _ ⟨⟩ raw hraw _ hlevels
    obtain rfl := List.mem_singleton.mp hraw
    obtain rfl := Option.some.inj hlevels
    exact ⟨by decide, by decide, rfl⟩
  · intro participant hparticipant
    obtain rfl := List.mem_singleton.mp hparticipant
    exact ⟨by decide, by decide, rfl⟩

/-- Without a level count, one finished level of three is enough. -/
theorem kypo_credit_without_count :
    ¬ LockCreditsComplete [1, 2, 3] (fun _ => [1]) (fun _ => none) (startedLock .refused) 7 := by
  intro h
  have hcomplete := h [startedRun] rfl startedRun List.mem_cons_self
    { name := "fctf_web_7", runId := 11, isFinished := true, totalScore := 0,
      levels := [⟨0, "FINISHED", 0, true, none⟩] } (by decide) (by decide)
  obtain ⟨i, hname, -⟩ := hcomplete.levels 3 (by decide)
  exact absurd (List.mem_of_getElem? hname) (by decide)

end Fctf
