import Mathlib.Data.List.DropRight
import Fctf.Kypo.Completion
import Fctf.Lib.Dict

/-!
Whom the poller takes a participant for. KYPO tells a participant's name only, so the poller
looks it up among the names that it can think of for each team's account: the account's own,
the name that the team has now, both in lower case, and the part of the account's name that
was made from the team's name.
-/

namespace Fctf

open JsonElement

/-- A team's account, with the name that `Teams.query.get` finds for the team. -/
structure PolledAccount where
  teamId : Int
  kypoUserId : String
  kypoUsername : String
  teamName : Option String
  deriving Repr, DecidableEq

namespace Poller

/-- What stands for Python's tables of characters. -/
structure PythonText where
  lower : String → String
  isalnum : Char → Bool
  isspace : Char → Bool

/-- `display_name`. -/
def displayName (name : String) : String := name ++ " FCTF Team"

section Names

variable (py : PythonText)

/-- `str.strip`. -/
def strip (s : List Char) : List Char := (s.dropWhile py.isspace).rdropWhile py.isspace

/-- The keys of an account in `username_to_team`. -/
def usernames (acc : PolledAccount) : List String :=
  let ofTeam := match acc.teamName with
    | some name => [displayName name, py.lower (displayName name)]
    | none => []
  [acc.kypoUsername, py.lower acc.kypoUsername] ++ ofTeam

/-- The key of an account in `safe_first_name_to_team`: what stands between the first and the
last underscore of its name. -/
def safeNames (acc : PolledAccount) : List (List Char) :=
  let parts := acc.kypoUsername.toList.splitOn '_'
  if 3 ≤ parts.length ∧ parts.head? = some "fctf".toList then
    [['_'].intercalate (parts.drop 1).dropLast]
  else []

/-- `kypo_username.lower().endswith(" fctf team")`. -/
def endsWithFctfTeam (name : String) : Bool :=
  " fctf team".toList.isSuffixOf (py.lower name).toList

/-- `safe_first`. -/
def safeFirst (name : String) : List Char :=
  let firstName := strip py (name.toList.take (name.length - " FCTF Team".length))
  ((py.lower (String.ofList firstName)).toList.map fun c => if py.isalnum c then c else '_').take 20

/-- The team that a participant's name is mapped to. A name that is no text has no `lower`, or
it is not hashable. -/
def teamOf (accounts : List PolledAccount) : JsonElement → Option (Option Int)
  | .string name =>
    let usernameToTeam := Dict.fill (usernames py) PolledAccount.teamId accounts
    let safeFirstNameToTeam := Dict.fill safeNames PolledAccount.teamId accounts
    let teamId := (Dict.get usernameToTeam name).or (Dict.get usernameToTeam (py.lower name))
    if teamId = none ∧ endsWithFctfTeam py name then
      some (Dict.get safeFirstNameToTeam (safeFirst py name))
    else some teamId
  | _ => none

end Names

/-- What one poll of an instance finds: the accounts in the order of the query, whether Redis
takes a team's progress, which teams have a solve, and whether the database takes the rows of
a participant for a team. -/
structure Poll where
  accounts : List PolledAccount
  cached : Int → Bool
  solved : Int → Bool
  inserts : JsonElement → Int → Bool

section Credits

-- what stands for `str.upper` and for `int`
variable (py : PythonText) (upper : String → String) (int : JsonElement → Option Int)

def Poll.input (poll : Poll) (progress : HttpReply) (inserts : Int → Bool) : PollInput where
  progress := progress
  teamOf := teamOf py poll.accounts
  cached := poll.cached
  solved := poll.solved
  inserts := inserts

/-- The status of a participant and the team that it is mapped to. -/
def Poll.status (poll : Poll) (participant : JsonElement) : Option (Option (Int × RunStatus)) :=
  participantStatus upper int (poll.input py .failed fun _ => true) participant

/-- The loop over the participants: those that a solve is inserted for, with the team. -/
def Poll.creditsAmong (poll : Poll) (solved : Int → Bool) :
    List JsonElement → List (JsonElement × Int)
  | [] => []
  | participant :: participants =>
    match poll.status py upper int participant with
    | none => []
    | some (some (teamId, .FINISHED)) =>
      if !solved teamId && poll.inserts participant teamId then
        (participant, teamId) ::
          poll.creditsAmong (fun t => t = teamId || solved t) participants
      else poll.creditsAmong solved participants
    | some _ => poll.creditsAmong solved participants

def Poll.credits (poll : Poll) (participants : List JsonElement) : List (JsonElement × Int) :=
  poll.creditsAmong py upper int poll.solved participants

/-- Where the database takes all rows of a team or none, these are the participants of
`_sync_instance`. -/
theorem Poll.credits_syncInstance (poll : Poll) (progress : HttpReply) (inserts : Int → Bool)
    (hinserts : ∀ participant teamId, poll.inserts participant teamId = inserts teamId) :
    (poll.credits py upper int (participantsOf progress)).map Prod.fst =
      syncInstance upper int (poll.input py progress inserts) := by
  have hstatus : ∀ participant, poll.status py upper int participant =
      participantStatus upper int (poll.input py progress inserts) participant := fun _ => rfl
  have hloop : ∀ solved participants,
      (poll.creditsAmong py upper int solved participants).map Prod.fst =
        creditedAmong upper int (poll.input py progress inserts) solved participants := by
    intro solved participants
    induction participants generalizing solved with
    | nil => rfl
    | cons participant rest ih =>
      rw [creditsAmong, creditedAmong, ← hstatus]
      rcases poll.status py upper int participant with _ | _ | ⟨teamId, status⟩
      · rfl
      · exact ih solved
      · cases status with
        | FINISHED =>
          simp only [hinserts]
          change List.map _ (if !solved teamId && inserts teamId then _ else _) =
            if !solved teamId && inserts teamId then _ else _
          split
          · rw [List.map_cons, ih]
          · exact ih solved
        | NOT_STARTED => exact ih solved
        | IN_PROGRESS => exact ih solved
  exact hloop _ _

end Credits

/-! ### The accounts that answer to a name -/

section Candidates

variable (py : PythonText) (upper : String → String) (int : JsonElement → Option Int)

/-- The accounts that have the name among theirs, else those that have it in lower case, else
those with the part of a name that is made from it. -/
def candidates (accounts : List PolledAccount) (name : String) : List PolledAccount :=
  if Dict.answering (usernames py) accounts name ≠ [] then
    Dict.answering (usernames py) accounts name
  else if Dict.answering (usernames py) accounts (py.lower name) ≠ [] then
    Dict.answering (usernames py) accounts (py.lower name)
  else if endsWithFctfTeam py name then
    Dict.answering safeNames accounts (safeFirst py name)
  else []

/-- A name is mapped to the last of the accounts that answer to it. -/
theorem teamOf_string (accounts : List PolledAccount) (name : String) :
    teamOf py accounts (.string name) =
      some ((candidates py accounts name).getLast?.map PolledAccount.teamId) := by
  simp only [teamOf, Dict.get_fill, candidates]
  by_cases hexact : Dict.answering (usernames py) accounts name = []
  · by_cases hlower : Dict.answering (usernames py) accounts (py.lower name) = []
    · cases endsWithFctfTeam py name <;> simp [hexact, hlower]
    · have hlast : (Dict.answering (usernames py) accounts (py.lower name)).getLast? ≠ none := by
        simpa [List.getLast?_eq_none_iff] using hlower
      simp [hexact, hlower, hlast]
  · have hlast : (Dict.answering (usernames py) accounts name).getLast? ≠ none := by
      simpa [List.getLast?_eq_none_iff] using hexact
    obtain ⟨acc, hacc⟩ := Option.ne_none_iff_exists'.mp hlast
    simp [hexact, hacc]

theorem candidates_perm {accounts accounts' : List PolledAccount} (h : accounts'.Perm accounts)
    (name : String) : (candidates py accounts' name).Perm (candidates py accounts name) := by
  have hkeys := fun key => Dict.answering_perm (usernames py) h key
  have hsafe := Dict.answering_perm safeNames h (safeFirst py name)
  have hnil : ∀ {l l' : List PolledAccount}, l'.Perm l → (l' ≠ [] ↔ l ≠ []) := by
    intro l l' hperm
    rw [not_iff_not, ← List.length_eq_zero_iff, hperm.length_eq, List.length_eq_zero_iff]
  unfold candidates
  simp only [hnil (hkeys name), hnil (hkeys (py.lower name))]
  split
  · exact hkeys name
  split
  · exact hkeys (py.lower name)
  split
  · exact hsafe
  · exact .refl _

theorem mem_accounts_of_candidates {accounts : List PolledAccount} {name : String}
    {acc : PolledAccount} (h : acc ∈ candidates py accounts name) : acc ∈ accounts := by
  unfold candidates at h
  split_ifs at h
  · exact (Dict.mem_answering.mp h).1
  · exact (Dict.mem_answering.mp h).1
  · exact (Dict.mem_answering.mp h).1
  · cases h

/-- For each account that answers there is an order of the query in which it counts. -/
theorem exists_order {accounts : List PolledAccount} {name : String} {acc : PolledAccount}
    (h : acc ∈ candidates py accounts name) :
    ∃ accounts' : List PolledAccount, accounts'.Perm accounts ∧
      (candidates py accounts' name).getLast? = some acc := by
  obtain ⟨accounts', hperm, hlast⟩ :=
    Dict.exists_perm_getLast (mem_accounts_of_candidates py h)
  refine ⟨accounts', hperm, ?_⟩
  have hmem : acc ∈ candidates py accounts' name := (candidates_perm py hperm name).mem_iff.mpr h
  unfold candidates at hmem ⊢
  split_ifs at hmem ⊢
  · exact Dict.getLast?_answering hlast hmem
  · exact Dict.getLast?_answering hlast hmem
  · exact Dict.getLast?_answering hlast hmem
  · cases hmem

/-- A participant's name, if it is a text. -/
def nameOf (participant : JsonElement) : Option String :=
  match participant.tryGetProperty "name" with
  | some (some (.string name)) => some name
  | some none => some ""
  | _ => none

/-- The status of a participant, unless its levels raise an exception. -/
def statusOf (participant : JsonElement) : Option (RunStatus × Int) :=
  (get participant "levels").bind (calcStatusAndScore upper int)

theorem Poll.status_eq (poll : Poll) (participant : JsonElement) :
    poll.status py upper int participant = (nameOf participant).bind fun name =>
      match (candidates py poll.accounts name).getLast? with
      | none => some none
      | some acc => (statusOf upper int participant).bind fun s =>
          if poll.cached acc.teamId then some (some (acc.teamId, s.1)) else none := by
  unfold Poll.status participantStatus nameOf
  cases hname : participant.tryGetProperty "name" with
  | none => rfl
  | some found =>
    have hstring : ∀ name, teamOf py poll.accounts (.string name) =
        some ((candidates py poll.accounts name).getLast?.map PolledAccount.teamId) :=
      teamOf_string py poll.accounts
    cases found with
    | none =>
      simp only [Option.bind_eq_bind, Option.bind_some, Option.getD_none, Poll.input, hstring]
      cases (candidates py poll.accounts "").getLast? with
      | none => rfl
      | some acc =>
        simp only [Option.map_some, statusOf]
        cases get participant "levels" <;> rfl
    | some value =>
      cases value with
      | string name =>
        simp only [Option.bind_eq_bind, Option.bind_some, Option.getD_some, Poll.input, hstring]
        cases (candidates py poll.accounts name).getLast? with
        | none => rfl
        | some acc =>
          simp only [Option.map_some, statusOf]
          cases get participant "levels" <;> rfl
      | _ => rfl

end Candidates

/-! ### Credit -/

section Credit

variable (py : PythonText) (upper : String → String) (int : JsonElement → Option Int)

/-- The loop gets past the participant, if Redis answers. -/
def passes (accounts : List PolledAccount) (participant : JsonElement) : Bool :=
  (nameOf participant).any fun name =>
    (candidates py accounts name).isEmpty || (statusOf upper int participant).isSome

/-- The participant's run is completed. -/
def Finished (participant : JsonElement) : Prop :=
  ∃ score, statusOf upper int participant = some (.FINISHED, score)

/-- The participant's KYPO account belongs to the team; `accountOf` tells whose a participant is. -/
def Belongs (accounts : List PolledAccount) (accountOf : JsonElement → Option String)
    (participant : JsonElement) (teamId : Int) : Prop :=
  ∃ acc ∈ accounts, acc.teamId = teamId ∧ accountOf participant = some acc.kypoUserId

/-- Whatever the order of the query, Redis and the database: a run is credited to the team that it
belongs to, and to one team only. -/
structure CreditsRight (accounts : List PolledAccount) (accountOf : JsonElement → Option String)
    (participants : List JsonElement) : Prop where
  belongs : ∀ poll : Poll, poll.accounts.Perm accounts →
    ∀ c ∈ poll.credits py upper int participants, Belongs accounts accountOf c.1 c.2
  once : ∀ poll poll' : Poll, poll.accounts.Perm accounts → poll'.accounts.Perm accounts →
    ∀ c ∈ poll.credits py upper int participants, ∀ c' ∈ poll'.credits py upper int participants,
      c.1 = c'.1 → c.2 = c'.2

/-- The accounts that answer to the name of a completed run, as far as the loop gets to it, are
of the team that the run belongs to. -/
def Unambiguous (accounts : List PolledAccount) (accountOf : JsonElement → Option String)
    (participants : List JsonElement) : Prop :=
  ∀ before participant after, participants = before ++ participant :: after →
    (∀ earlier ∈ before, passes py upper int accounts earlier = true) →
    Finished upper int participant → ∀ name ∈ nameOf participant,
      ∀ acc ∈ candidates py accounts name, Belongs accounts accountOf participant acc.teamId ∧
        ∀ other ∈ candidates py accounts name, other.teamId = acc.teamId

variable {py upper int} {poll : Poll} {accounts : List PolledAccount}
  {accountOf : JsonElement → Option String} {participants : List JsonElement}

theorem isEmpty_candidates (hperm : poll.accounts.Perm accounts) (name : String) :
    (candidates py accounts name).isEmpty = (candidates py poll.accounts name).isEmpty := by
  have hlength := (candidates_perm py hperm name).length_eq
  rw [Bool.eq_iff_iff, List.isEmpty_iff_length_eq_zero, List.isEmpty_iff_length_eq_zero, hlength]

/-- An exception does not depend on the order of the query. -/
theorem passes_of_status (hperm : poll.accounts.Perm accounts) {participant : JsonElement}
    (h : poll.status py upper int participant ≠ none) :
    passes py upper int accounts participant = true := by
  rw [Poll.status_eq] at h
  obtain ⟨s, hs⟩ := Option.ne_none_iff_exists'.mp h
  obtain ⟨name, hname, hs⟩ := Option.bind_eq_some_iff.mp hs
  rw [passes, hname, Option.any_some, isEmpty_candidates hperm, Bool.or_eq_true]
  split at hs
  · rename_i hlast
    exact .inl (List.isEmpty_iff.mpr (List.getLast?_eq_none_iff.mp hlast))
  · obtain ⟨status, hstatus, -⟩ := Option.bind_eq_some_iff.mp hs
    exact .inr (by rw [hstatus]; rfl)

theorem status_of_passes (hperm : poll.accounts.Perm accounts)
    (hcached : ∀ t, poll.cached t = true) {participant : JsonElement}
    (h : passes py upper int accounts participant = true) :
    poll.status py upper int participant ≠ none := by
  obtain ⟨name, hname, h⟩ := (Option.any_eq_true _ _).mp h
  rw [isEmpty_candidates hperm, Bool.or_eq_true] at h
  rw [Poll.status_eq, hname, Option.bind_some]
  cases hlast : (candidates py poll.accounts name).getLast? with
  | none => nofun
  | some acc =>
    rcases h with hempty | hstatus
    · rw [List.isEmpty_iff.mp hempty] at hlast
      cases hlast
    · obtain ⟨status, hstatus⟩ := Option.isSome_iff_exists.mp hstatus
      simp [hstatus, hcached]

/-- A credit is for a completed run that the loop gets to, and for the team of the account that
counts for its name. -/
theorem of_mem_creditsAmong {solved : Int → Bool} {c : JsonElement × Int}
    (h : c ∈ poll.creditsAmong py upper int solved participants) :
    ∃ before after, participants = before ++ c.1 :: after ∧
      (∀ earlier ∈ before, poll.status py upper int earlier ≠ none) ∧
      poll.status py upper int c.1 = some (some (c.2, .FINISHED)) := by
  induction participants generalizing solved with
  | nil => cases h
  | cons participant rest ih =>
    have hlater : ∀ solved, c ∈ poll.creditsAmong py upper int solved rest →
        poll.status py upper int participant ≠ none →
        ∃ before after, participant :: rest = before ++ c.1 :: after ∧
          (∀ earlier ∈ before, poll.status py upper int earlier ≠ none) ∧
          poll.status py upper int c.1 = some (some (c.2, .FINISHED)) := by
      intro solved hmem hstatus
      obtain ⟨before, after, rfl, hbefore, hc⟩ := ih hmem
      exact ⟨participant :: before, after, rfl, List.forall_mem_cons.mpr ⟨hstatus, hbefore⟩, hc⟩
    rw [Poll.creditsAmong] at h
    rcases hstatus : poll.status py upper int participant with _ | _ | ⟨teamId, status⟩
    · rw [hstatus] at h
      cases h
    · rw [hstatus] at h
      exact hlater _ h (by simp [hstatus])
    · rw [hstatus] at h
      cases status with
      | FINISHED =>
        dsimp only at h
        split at h
        · rcases List.mem_cons.mp h with rfl | h
          · exact ⟨[], rest, rfl, nofun, hstatus⟩
          · exact hlater _ h (by simp [hstatus])
        · exact hlater _ h (by simp [hstatus])
      | NOT_STARTED => exact hlater _ h (by simp [hstatus])
      | IN_PROGRESS => exact hlater _ h (by simp [hstatus])

/-- A completed run that the loop gets to is credited when the database takes no other rows. -/
theorem mem_creditsAmong {solved : Int → Bool} {before after : List JsonElement}
    {participant : JsonElement} {teamId : Int}
    (hbefore : ∀ earlier ∈ before, poll.status py upper int earlier ≠ none)
    (hstatus : poll.status py upper int participant = some (some (teamId, .FINISHED)))
    (hsolved : solved teamId = false)
    (hinserts : ∀ p t, poll.inserts p t = true ↔ p = participant) :
    (participant, teamId) ∈
      poll.creditsAmong py upper int solved (before ++ participant :: after) := by
  induction before with
  | nil =>
    have hthis : poll.inserts participant teamId = true := (hinserts _ _).mpr rfl
    simp [Poll.creditsAmong, hstatus, hsolved, hthis]
  | cons head rest ih =>
    have hrest := ih fun earlier h => hbefore earlier (List.mem_cons_of_mem _ h)
    by_cases hhead : head = participant
    · subst hhead
      have hthis : poll.inserts head teamId = true := (hinserts _ _).mpr rfl
      simp [Poll.creditsAmong, hstatus, hsolved, hthis]
    · have hother : ∀ t, poll.inserts head t = false := by
        intro t
        rw [Bool.eq_false_iff]
        exact fun h => hhead ((hinserts _ _).mp h)
      rw [List.cons_append, Poll.creditsAmong]
      rcases hs : poll.status py upper int head with _ | _ | ⟨t, status⟩
      · exact absurd hs (hbefore head List.mem_cons_self)
      · exact hrest
      · cases status with
        | FINISHED => simpa [hother] using hrest
        | NOT_STARTED => exact hrest
        | IN_PROGRESS => exact hrest

/-- The accounts that answer are those of the team that the run belongs to: exactly then no order
of the query and no failure of a write leads to a wrong credit. -/
theorem creditsRight_iff (py : PythonText) (upper : String → String)
    (int : JsonElement → Option Int) (accounts : List PolledAccount)
    (accountOf : JsonElement → Option String) (participants : List JsonElement) :
    CreditsRight py upper int accounts accountOf participants ↔
      Unambiguous py upper int accounts accountOf participants := by
  have hcounts : ∀ {poll : Poll}, poll.accounts.Perm accounts → ∀ {c : JsonElement × Int},
      poll.status py upper int c.1 = some (some (c.2, .FINISHED)) →
      Finished upper int c.1 ∧ ∃ name ∈ nameOf c.1, ∃ acc ∈ candidates py accounts name,
        acc.teamId = c.2 := by
    intro poll hperm c hstatus
    rw [Poll.status_eq] at hstatus
    obtain ⟨name, hname, hstatus⟩ := Option.bind_eq_some_iff.mp hstatus
    split at hstatus
    · cases hstatus
    · rename_i acc hlast
      obtain ⟨⟨status, score⟩, hs, hstatus⟩ := Option.bind_eq_some_iff.mp hstatus
      split at hstatus
      · obtain ⟨hteam, rfl⟩ : acc.teamId = c.2 ∧ status = .FINISHED := by
          simpa using hstatus
        have hmem : acc ∈ candidates py poll.accounts name := List.mem_of_getLast? hlast
        exact ⟨⟨score, hs⟩, name, hname, acc, (candidates_perm py hperm name).mem_iff.mp hmem,
          hteam⟩
      · cases hstatus
  constructor
  · intro h before participant after hsplit hbefore hfinished name hname acc hacc
    -- the order in which an account counts, with a database that takes this run's rows only
    have hcredit : ∀ acc ∈ candidates py accounts name, ∃ poll : Poll,
        poll.accounts.Perm accounts ∧
          (participant, acc.teamId) ∈ poll.credits py upper int participants := by
      intro acc hacc
      obtain ⟨accounts', hperm, hlast⟩ := exists_order py hacc
      obtain ⟨score, hstatus⟩ := hfinished
      classical
      refine ⟨⟨accounts', fun _ => true, fun _ => false, fun p _ => decide (p = participant)⟩,
        hperm, ?_⟩
      rw [hsplit]
      apply mem_creditsAmong
      · intro earlier hearlier
        exact status_of_passes hperm (fun _ => rfl) (hbefore earlier hearlier)
      · rw [Poll.status_eq, Option.mem_def.mp hname, Option.bind_some]
        simp [hlast, hstatus]
      · rfl
      · simp
    obtain ⟨poll, hperm, hcredited⟩ := hcredit acc hacc
    refine ⟨h.belongs poll hperm _ hcredited, ?_⟩
    intro other hother
    obtain ⟨poll', hperm', hcredited'⟩ := hcredit other hother
    exact h.once poll' poll hperm' hperm _ hcredited' _ hcredited rfl
  · intro h
    have hfound : ∀ {poll : Poll}, poll.accounts.Perm accounts →
        ∀ {c : JsonElement × Int}, c ∈ poll.credits py upper int participants →
        ∃ name ∈ nameOf c.1, (∃ acc ∈ candidates py accounts name, acc.teamId = c.2) ∧
          ∀ acc ∈ candidates py accounts name, Belongs accounts accountOf c.1 acc.teamId ∧
            ∀ other ∈ candidates py accounts name, other.teamId = acc.teamId := by
      intro poll hperm c hc
      obtain ⟨before, after, hsplit, hbefore, hstatus⟩ := of_mem_creditsAmong hc
      obtain ⟨hfinished, name, hname, hacc⟩ := hcounts hperm hstatus
      refine ⟨name, hname, hacc, h before c.1 after hsplit ?_ hfinished name hname⟩
      intro earlier hearlier
      exact passes_of_status hperm (hbefore earlier hearlier)
    constructor
    · intro poll hperm c hc
      obtain ⟨name, -, ⟨acc, hacc, hteam⟩, hall⟩ := hfound hperm hc
      exact hteam ▸ (hall acc hacc).1
    · intro poll poll' hperm hperm' c hc c' hc' hsame
      obtain ⟨name, hname, ⟨acc, hacc, hteam⟩, hall⟩ := hfound hperm hc
      obtain ⟨name', hname', ⟨acc', hacc', hteam'⟩, -⟩ := hfound hperm' hc'
      rw [← hsame, Option.mem_def.mp hname] at hname'
      obtain rfl := Option.some.inj hname'
      rw [← hteam, ← hteam']
      exact ((hall acc hacc).2 acc' hacc').symm

end Credit

/-- A team that was called Red when its account was made is Blue now, and another one is Red. -/
def renamedAccounts : List PolledAccount :=
  [⟨1, "uuid-1", "fctf_red_1", some "Blue"⟩, ⟨2, "uuid-2", "fctf_red_2", some "Red"⟩]

/-- The completed run of the first team's account. -/
def redRun : JsonElement :=
  .object [("name", .string "Red FCTF Team"), ("training_run_id", .integer 11),
    ("levels", .array [.object [("state", .string "FINISHED")]])]

/-- ASCII. -/
def asciiText : PythonText where
  lower s := String.ofList (s.toList.map Char.toLower)
  isalnum := Char.isAlphanum
  isspace := isWhiteSpace

theorem renamed_team_credited :
    ¬∀ (py : PythonText) (upper : String → String) (int : JsonElement → Option Int)
      (accounts : List PolledAccount) (accountOf : JsonElement → Option String)
      (participants : List JsonElement),
      CreditsRight py upper int accounts accountOf participants := by
  intro hcredits
  have hright := hcredits asciiText (fun s => s) (fun _ => some 0) renamedAccounts
    (fun _ => some "uuid-1") [redRun]
  have hcredited : ((Poll.mk renamedAccounts (fun _ => true) (fun _ => false)
      fun _ _ => true).credits asciiText (fun s => s) (fun _ => some 0) [redRun]).map Prod.snd =
        [2] := by
    decide
  obtain ⟨c, hc, hteam⟩ := List.mem_map.mp (hcredited ▸ List.mem_cons_self)
  obtain ⟨acc, hacc, hid, huser⟩ := hright.belongs _ (.refl _) c hc
  have hother : ∀ acc ∈ renamedAccounts, acc.teamId = 2 → acc.kypoUserId ≠ "uuid-1" := by
    decide
  exact hother acc hacc (hid.trans hteam) (Option.some.inj huser).symm

end Poller

end Fctf
