import Fctf.Contest.Secrecy

/-!
The prerequisites of a challenge at the contestants' endpoints: what each of them does while a team
has not solved them, and that none of them minds them afterwards.
-/

namespace Fctf.Contest

open HintService ChallengeService

section Definitions

/-! ### Requirements -/

/-- What `ChallengeRequirementsValidator` admits of the requirements of a challenge. -/
structure Requirements where
  prerequisites : List Nat
  anonymize : Option Bool := none
  positive_id : ∀ id ∈ prerequisites, 0 < id ∧ id ≤ 2147483647
  unique : prerequisites.Nodup

namespace Requirements

variable (r : Requirements)

def toDto : ChallengeRequirementsDTO :=
  ⟨some (r.prerequisites.map fun id : Nat => (id : Int)), r.anonymize⟩

def toElement : JsonElement := .array (r.prerequisites.map fun id : Nat => .integer id)

/-- Every prerequisite that is there is solved, in the sense of `solves`. -/
def metBy (db : Db) (solves : Int → Bool) : Bool :=
  r.prerequisites.all fun id => !isChallenge db id || solves id

end Requirements

/-- The text of a dictionary, as the readers of .NET that heed the case of a name have it. -/
structure Stores (platform : Platform) (text : String) (r : Requirements) : Prop where
  dict : hasPrefix text "\x7b" = true
  deserialize : platform.deserialize text = some (some r.toDto)
  parse : (platform.parse text).bind (·.tryGetProperty "prerequisites") = some (some r.toElement)

/-- A prerequisite that is there is not solved by the team. -/
def Locked (db : Db) (r : Requirements) (teamId : Nat) : Prop :=
  ∃ id ∈ r.prerequisites, isChallenge db id = true ∧ solved db (some teamId) id = false

/-! ### The gate -/

/-- The endpoints that answer with a challenge, or write about one. -/
def ContestRequest.opens : ContestRequest → Bool
  | .detail _ | .hint _ | .unlock .. | .file .. | .start _ | .attempt .. => true
  | .list _ | .instances | .status _ | .hints _ => false

variable (platform : Platform)

/-- The path leads to a file of the challenge. -/
def Portal.isPathOf (p : Portal) (challengeId : Nat) (path : String) : Bool :=
  p.db.files.any fun f =>
    f.challengeId = some challengeId &&
      f.location.any (platform.fullPath · = platform.fullPath path)

/-- The answer has the record of the challenge, the content of one of its hints or one of its
files. -/
def Discloses (p : Portal) (challengeId : Nat) : ContestRequest → Response → Prop
  | .file path _, .file _ => p.isPathOf platform challengeId path = true
  | _, .challenge data _ => data.id = challengeId
  | _, .hint dto => dto.challengeId = some challengeId ∧ dto.content.isSome = true
  | _, _ => False

/-- Nothing of the challenge is disclosed, no instance of it is started, no hint of it is charged
and no submission for it is recorded. -/
def Gated (p : Portal) (challengeId : Nat) (request : ContestRequest) (outcome : Outcome) : Prop :=
  ¬ Discloses platform p challengeId request outcome.1 ∧
    ∀ e ∈ outcome.2, e.challengeId p.db ≠ some challengeId

/-- A challenge without its requirements. -/
def Challenge.unrequire (id : Nat) (c : Challenge) : Challenge :=
  if c.id = id then { c with requirements := none } else c

/-- The requirements of one challenge are left out. -/
def Portal.unrequire (id : Nat) (p : Portal) : Portal :=
  { p with db := { p.db with challenges := p.db.challenges.map (Challenge.unrequire id) } }

variable (answers : Answers) (p : Portal)

/-- A request leaves a challenge alone that is locked for the team, and is answered as if there were
no requirements when it is not. -/
def PrerequisiteGate (session : Session) (challengeId : Nat) (r : Requirements) (teamId : Nat)
    (request : ContestRequest) : Prop :=
  (Locked p.db r teamId →
      Gated platform p challengeId request (respond platform answers p session request)) ∧
    (¬ Locked p.db r teamId →
      respond platform answers (p.unrequire challengeId) session request =
        respond platform answers p session request)

/-! ### When the gate holds -/

/-- The check of `GetById` goes by whether the challenge is locked; or it is hidden. While it is
locked, an answer may also fail later on. -/
def DetailGated (challenge : Challenge) (user : Board.User) (locked : Prop) : Prop :=
  isHidden platform p.db challenge = true ∨
    (locked ∧ (isShown platform p.db challenge user.teamId = false ∨
      p.db.teamOf user = none ∨
      ∃ d ∈ p.getFromCache challenge.id (instanceTeam challenge user),
        p.db.user d.user_id = none)) ∨
    (¬ locked ∧ isShown platform p.db challenge user.teamId = true)

/-- Hints of a locked challenge that can be seen have no content, or a cost that is not paid. -/
def HintGated (challenge : Challenge) (user : Board.User) (hint : Hint) : Prop :=
  isVisible platform p.db challenge = false ∨ hint.content = none ∨
    0 < hint.cost.getD 0 ∧ unlocked platform p.db hint user = false

/-- An unlock that has the lock gets as far as the prerequisites of the challenge. -/
def reachesGate (session : Session) (challenge : Challenge) : Bool :=
  session.teamId ≠ 0 && session.userId ≠ 0 && isVisible platform p.db challenge &&
    !solved p.db (some session.teamId) challenge.id && answers.lock = .acquired

/-- Past the prerequisites of the challenge, an unlock is charged. -/
def isCharged (type : String) (hint : Hint) (user : Board.User) : Bool :=
  (ensureUnlockable platform p.db hint type user).isOk &&
    (storedUnlock p.db user hint type).isSome && answers.save.written

/-- Where nothing is charged, another exception is answered in place of that of the prerequisites,
or one with the very same message. -/
def isConcealed (type : String) (hint : Hint) (user : Board.User) : Bool :=
  !isCharged platform answers p type hint user && (answers.release.isSome ||
    (ensureUnlockable platform p.db hint type user).isOk &&
      match answers.save with
      | .saved => false
      | .failed _ fault => fault = .invalidOperation challengeLocked)

/-- The user's own solves: those that count in user mode. -/
def solvedByUser (db : Db) (user : Board.User) (id : Int) : Bool :=
  db.board.solves.any fun s =>
    s.userId = some user.id && s.challengeId.any fun solved => (solved : Int) = id

/-- In user mode, the user's own solves do not open a locked challenge to a charge, and those of a
member do not keep an unlock of an open one back, or it makes no difference. -/
def UnlockGated (r : Requirements) (type : String) (hint : Hint) (user : Board.User)
    (locked : Prop) : Prop :=
  p.db.board.userMode = .teams ∨
    (locked ∧ (r.metBy p.db (solvedByUser p.db user) = false ∨
      isCharged platform answers p type hint user = false)) ∨
    (¬ locked ∧ (r.metBy p.db (solvedByUser p.db user) = true ∨
      isConcealed platform answers p type hint user = true))

/-- While the challenge is locked, no path to its files can be read; afterwards its files are not
kept back on account of the team that the token names. -/
def FileGated (challenge : Challenge) (path : String) (t : FileToken) (file : File)
    (locked : Prop) : Prop :=
  (locked → p.isPathOf platform challenge.id path = true →
    FileService.isMounted platform (platform.fullPath path) = true →
    (p.disk (platform.fullPath path)).isSome = true →
    FileService.isAllowed platform p.db file t.teamId = false) ∧
  (¬ locked → file.challengeId = some challenge.id →
    file.type.any (equalsIgnoreCase · "challenge") = true →
    equalsIgnoreCase challenge.state "hidden" = false →
    FileService.prerequisitesMet platform p.db challenge t.teamId = true)

/-- `isSandbox || kypoConfig != null`. -/
def isKypo (db : Db) (challenge : Challenge) : Bool :=
  isSandbox challenge || (db.kypoConfigs.find? fun k => k.challengeId = challenge.id).isSome

/-- A start at KYPO makes a run for the team. -/
def makesRun (challenge : Challenge) (teamId : Nat) : Prop :=
  hasKypoAccount p.db teamId = true ∧ (∃ fields, answers.keycloak = .token fields) ∧
    ((p.db.kypoConfigs.find? fun k => k.challengeId = challenge.id).bind (·.accessToken)).getD ""
      ≠ ""

/-- A locked challenge of KYPO is hidden, or its start fails at Keycloak, or it is started already
and gets no run. -/
def KypoGated (challenge : Challenge) (teamId : Nat) : Prop :=
  challenge.state = "hidden" ∨
    (hasKypoAccount p.db teamId = true ∧ answers.keycloak.throws = true) ∨
    ((p.getFromCache challenge.id teamId).isSome = true ∧ ¬ makesRun answers p challenge teamId)

/-- When the gate of a challenge holds for a request of a user. -/
def GateKept (session : Session) (challenge : Challenge) (r : Requirements) (user : Board.User)
    (locked : Prop) : ContestRequest → Prop
  | .detail id => id = challenge.id → DetailGated platform p challenge user locked
  | .hint id => ∀ hint, p.db.hint id = some hint → hint.challengeId = some challenge.id → locked →
      HintGated platform p challenge user hint
  | .unlock type target => ∀ hint, p.db.hint target = some hint →
      hint.challengeId = some challenge.id →
      reachesGate platform answers p session challenge = true →
      UnlockGated platform answers p r type hint user locked
  | .file path token => ∀ t file,
      FileService.checkToken platform path token session.userId = .ok t →
      FileService.findFile platform p.db path t.fileId = some file →
      FileGated platform p challenge path t file locked
  | .start id => id = challenge.id → locked → isKypo p.db challenge = true →
      ∀ team, p.db.teamOf user = some team → KypoGated answers p challenge team.id
  | .attempt .. | .list _ | .instances | .status _ | .hints _ => True

end Definitions

section Proof

variable {platform : Platform} {answers : Answers} {p : Portal} {session : Session} {text : String}
  {r : Requirements} {challenge : Challenge} {user : Board.User} {teamId : Nat}

/-! ### What the readers have -/

theorem locked_iff {db : Db} :
    Locked db r teamId ↔ r.metBy db (solved db (some teamId)) = false := by
  unfold Locked Requirements.metBy
  rw [List.all_eq_false]
  simp only [Bool.not_eq_true, Bool.or_eq_false_iff, Bool.not_eq_false']

theorem not_locked_iff {db : Db} :
    ¬ Locked db r teamId ↔ r.metBy db (solved db (some teamId)) = true := by
  rw [locked_iff, Bool.not_eq_false]

/-- A filter by what is there, in front of a check. -/
theorem all_toDto (db : Db) (solves : Int → Bool) :
    (((r.toDto.prerequisites).getD []).filter (isChallenge db)).all solves = r.metBy db solves := by
  unfold Requirements.toDto Requirements.metBy
  rw [Option.getD_some, List.all_filter, List.all_map]
  rfl

theorem Stores.ne_empty (h : Stores platform text r) : text ≠ "" := by
  rintro rfl
  exact absurd h.dict (by decide)

theorem Stores.not_blank (h : Stores platform text r) : isNullOrWhiteSpace text = false := by
  have hdict := h.dict
  unfold hasPrefix at hdict
  unfold isNullOrWhiteSpace
  cases hchars : text.toList with
  | nil =>
    rw [hchars] at hdict
    cases hdict
  | cons first rest =>
    rw [hchars] at hdict
    have hfirst : first = '\x7b' := by
      have hprefix : ['\x7b'].isPrefixOf (first :: rest) = true := hdict
      have heq : '\x7b' = first := by simpa [List.isPrefixOf] using hprefix
      exact heq.symm
    rw [hfirst]
    rfl

/-- The check of an ordinary start, and of an attempt. -/
theorem Stores.requirementsMet (h : Stores platform text r)
    (htext : challenge.requirements = some text) (db : Db) (teamId : Option Nat) :
    Contest.requirementsMet platform db challenge teamId = r.metBy db (solved db teamId) := by
  unfold Contest.requirementsMet
  simp only [htext, h.deserialize]
  rw [if_neg h.ne_empty]
  exact all_toDto db _

theorem Stores.readPrerequisites (h : Stores platform text r) :
    FileService.readPrerequisites platform text =
      some (r.prerequisites.map fun id : Nat => (id : Int)) := by
  have hmap : ∀ ids : List Nat, (∀ id ∈ ids, 0 < id ∧ id ≤ 2147483647) →
      (ids.map fun id : Nat => JsonElement.integer id).mapM JsonElement.getInt32 =
        some (ids.map fun id : Nat => (id : Int)) := by
    intro ids hids
    induction ids with
    | nil => rfl
    | cons id ids ih =>
      have hid := hids id List.mem_cons_self
      have hone : JsonElement.getInt32 (.integer id) = some (id : Int) := by
        unfold JsonElement.getInt32
        exact if_pos (by omega)
      rw [List.map_cons, List.mapM_cons, hone, ih fun j hj => hids j (List.mem_cons_of_mem _ hj)]
      rfl
  obtain ⟨e, he, hproperty⟩ := Option.bind_eq_some_iff.mp h.parse
  unfold FileService.readPrerequisites
  rw [he]
  simp only [Option.bind_eq_bind, Option.bind_some, hproperty]
  exact hmap r.prerequisites r.positive_id

/-- The check of a file: a token without a team passes none. -/
theorem Stores.prerequisitesMet (h : Stores platform text r)
    (htext : challenge.requirements = some text) (db : Db) (teamId : Option Nat) :
    FileService.prerequisitesMet platform db challenge teamId =
      (teamId.isSome && r.metBy db (solved db teamId)) := by
  unfold FileService.prerequisitesMet
  simp only [htext, h.not_blank, h.readPrerequisites, Bool.false_eq_true, if_false]
  cases teamId with
  | none => rfl
  | some teamId => exact all_toDto db _

/-- The check of an unlock goes by the mode. -/
theorem Stores.ensureChallengePrerequisitesUnlocked (h : Stores platform text r)
    (htext : challenge.requirements = some text) (db : Db) (hteam : user.teamId = some teamId) :
    HintService.ensureChallengePrerequisitesUnlocked platform db challenge user =
      if r.metBy db (if db.board.userMode = .teams then solved db (some teamId)
        else solvedByUser db user) then .ok ()
      else .error (.invalidOperation challengeLocked) := by
  unfold HintService.ensureChallengePrerequisitesUnlocked
  simp only [htext, h.not_blank, h.deserialize, Bool.false_eq_true, if_false, Option.bind_some]
  have hsolves : (fun id : Int => db.board.solves.any fun s =>
      ownedBy db user s.teamId s.userId && s.challengeId.any fun solved => (solved : Int) = id) =
      if db.board.userMode = .teams then solved db (some teamId) else solvedByUser db user := by
    unfold ownedBy
    cases db.board.userMode with
    | teams =>
      rw [if_pos rfl, hteam]
      rfl
    | users => rfl
  rw [hsolves, ← all_toDto]
  have hnone : (decide (db.board.userMode = .teams) && user.teamId.isNone) = false := by
    rw [hteam, Option.isNone_some, Bool.and_false]
  rw [hnone]
  simp only [Bool.false_eq_true, if_false]
  split
  · rename_i hempty
    have hnil := List.isEmpty_iff.mp hempty
    exact (if_pos (congrArg (List.all · _) hnil)).symm
  · rfl

/-- The check of `GetById`, where its reader has the requirements too: anonymity shows a locked
challenge. -/
theorem Stores.isShown (h : Stores platform text r) (htext : challenge.requirements = some text)
    (hread : platform.deserializeObject text = some (some r.toDto)) (db : Db)
    (teamId : Option Nat) :
    ChallengeService.isShown platform db challenge teamId =
      (r.metBy db (solved db teamId) || r.anonymize = some true) := by
  have hparsed : tryParseRequirements platform challenge.requirements = some r.toDto := by
    unfold tryParseRequirements
    simp only [htext, h.not_blank, hread, Bool.false_eq_true, if_false]
    rfl
  unfold ChallengeService.isShown
  simp only [hparsed]
  have hunlocked : isUnlockedByPrerequisites db (some r.toDto) teamId =
      r.metBy db (solved db teamId) := by
    rw [← all_toDto, List.all_filter]
    rfl
  rw [hunlocked]
  rfl

/-! ### While the challenge is locked -/

theorem gated_only {challengeId : Nat} {request : ContestRequest} {response : Response} :
    Gated platform p challengeId request (only response) ↔
      ¬ Discloses platform p challengeId request response := by
  unfold Gated only
  constructor
  · exact And.left
  · intro h
    exact ⟨h, fun e he => by cases he⟩

theorem respond_detail (huser : p.db.user session.userId = some user) (id : Nat) :
    respond platform answers p session (.detail id) =
      only (match getById platform p id user with
        | .error (status, message) => .refused status message
        | .ok (data, started) => .challenge data started) := by
  unfold respond
  cases hget : getById platform p id user with
  | error refusal => simp only [huser, hget]
  | ok answer => simp only [huser, hget]

/-- The data of `GetById` is that of the challenge that is asked for. -/
theorem getById_id {id : Nat} {data : ChallengeDataDto} {started : Option StartedView}
    (h : getById platform p id user = .ok (data, started)) : data.id = id := by
  unfold getById at h
  split at h
  · cases h
  rename_i c hc
  rw [← challenge_id hc]
  split at h
  · cases h
  split at h
  · cases h
  split at h
  · cases h
  simp only at h
  split at h
  · obtain ⟨rfl, -⟩ := Prod.mk.inj (Except.ok.inj h)
    rfl
  · split at h
    · split at h
      · cases h
      · obtain ⟨rfl, -⟩ := Prod.mk.inj (Except.ok.inj h)
        rfl
    · obtain ⟨rfl, -⟩ := Prod.mk.inj (Except.ok.inj h)
      rfl

/-- A record is answered exactly when the challenge is shown, the user's team is there, and so is
the one who started its deployment. -/
theorem getById_isOk (hc : p.db.challenge challenge.id = some challenge) :
    (∃ data, getById platform p challenge.id user = .ok data) ↔
      isHidden platform p.db challenge = false ∧
        isShown platform p.db challenge user.teamId = true ∧ p.db.teamOf user ≠ none ∧
        ∀ d ∈ p.getFromCache challenge.id (instanceTeam challenge user),
          p.db.user d.user_id ≠ none := by
  cases hv : isHidden platform p.db challenge with
  | true =>
    rw [getById_of_hidden hc hv]
    simp
  | false =>
    rw [getById_of_visible user hc hv]
    cases isShown platform p.db challenge user.teamId with
    | false => simp
    | true =>
      cases p.db.teamOf user with
      | none => simp
      | some team =>
        cases p.getFromCache challenge.id (instanceTeam challenge user) with
        | none => simp
        | some cached =>
          cases hstarter : p.db.user cached.user_id with
          | none => simp [hstarter]
          | some starter => simp [hstarter]

theorem gated_detail_iff (huser : p.db.user session.userId = some user) (id : Nat) :
    Gated platform p challenge.id (.detail id) (respond platform answers p session (.detail id)) ↔
      (id = challenge.id → ¬ ∃ data, getById platform p challenge.id user = .ok data) := by
  rw [respond_detail huser, gated_only]
  constructor
  · rintro h rfl ⟨⟨data, started⟩, hdata⟩
    apply h
    rw [hdata]
    exact getById_id hdata
  · intro h hdiscloses
    cases hget : getById platform p id user with
    | error refusal =>
      rw [hget] at hdiscloses
      exact hdiscloses
    | ok answer =>
      obtain ⟨data, started⟩ := answer
      rw [hget] at hdiscloses
      have hid : id = challenge.id := (getById_id hget).symm.trans hdiscloses
      exact h hid ⟨_, hid ▸ hget⟩

/-- What `GetHintById` answers a user for a hint of a challenge. -/
theorem getHintById_of_hint {id : Nat} {hint : Hint} (hhint : p.db.hint id = some hint)
    (hchallenge : hint.challengeId = some challenge.id)
    (hc : p.db.challenge challenge.id = some challenge)
    (huser : p.db.user session.userId = some user) :
    getHintById platform p.db id session.userId =
      if isVisible platform p.db challenge then
        some (getHintById.answer hint
          (if decide (0 < hint.cost.getD 0) && !unlocked platform p.db hint user then "locked"
            else "unlocked"))
      else none := by
  unfold getHintById
  have hof : p.db.challengeOf hint = some challenge := by
    unfold Db.challengeOf
    rw [hchallenge, Option.bind_some, hc]
  simp only [hhint, hof, huser, Option.bind_eq_bind, Option.bind_some]

theorem getHintById_challengeId {id userId : Nat} {dto : HintResponseDTO}
    (h : getHintById platform p.db id userId = some dto) :
    ∃ hint, p.db.hint id = some hint ∧ dto.challengeId = hint.challengeId := by
  unfold getHintById at h
  simp only [Option.bind_eq_bind] at h
  obtain ⟨hint, hhint, h⟩ := Option.bind_eq_some_iff.mp h
  obtain ⟨c, -, h⟩ := Option.bind_eq_some_iff.mp h
  refine ⟨hint, hhint, ?_⟩
  split at h
  · split at h
    · split at h
      · obtain rfl := Option.some.inj h
        rfl
      · obtain rfl := Option.some.inj h
        rfl
    · obtain rfl := Option.some.inj h
      rfl
  · cases h

theorem gated_hint_iff (hc : p.db.challenge challenge.id = some challenge)
    (huser : p.db.user session.userId = some user) (id : Nat) :
    Gated platform p challenge.id (.hint id) (respond platform answers p session (.hint id)) ↔
      ∀ hint, p.db.hint id = some hint → hint.challengeId = some challenge.id →
        HintGated platform p challenge user hint := by
  rw [respond, gated_only]
  constructor
  · intro h hint hhint hof
    rw [getHintById_of_hint hhint hof hc huser] at h
    unfold HintGated
    cases hv : isVisible platform p.db challenge with
    | false => exact .inl rfl
    | true =>
      rw [hv, if_pos rfl] at h
      cases hpaid : decide (0 < hint.cost.getD 0) && !unlocked platform p.db hint user with
      | true =>
        rw [Bool.and_eq_true, decide_eq_true_eq, Bool.not_eq_true'] at hpaid
        exact .inr (.inr hpaid)
      | false =>
        rw [hpaid, if_neg Bool.false_ne_true] at h
        cases hcontent : hint.content with
        | none => exact .inr (.inl rfl)
        | some content =>
          refine absurd ⟨hof, ?_⟩ h
          show (if "unlocked" = "locked" then none else hint.content).isSome = true
          rw [if_neg (by decide), hcontent]
          rfl
  · intro h hdiscloses
    cases hget : getHintById platform p.db id session.userId with
    | none =>
      rw [hget] at hdiscloses
      exact hdiscloses
    | some dto =>
      rw [hget] at hdiscloses
      obtain ⟨hdto, hcontent⟩ : dto.challengeId = some challenge.id ∧ dto.content.isSome = true :=
        hdiscloses
      obtain ⟨hint, hhint, hid⟩ := getHintById_challengeId hget
      have hof : hint.challengeId = some challenge.id := hid.symm.trans hdto
      rw [getHintById_of_hint hhint hof hc huser] at hget
      rcases h hint hhint hof with hv | hnone | ⟨hcost, hunpaid⟩
      · rw [hv, if_neg Bool.false_ne_true] at hget
        cases hget
      · split at hget
        · obtain rfl := Option.some.inj hget
          have hanswer : ∀ view, (getHintById.answer hint view).content = none := by
            intro view
            unfold getHintById.answer
            rw [hnone]
            exact ite_self none
          rw [hanswer] at hcontent
          cases hcontent
        · cases hget
      · rw [hunpaid, decide_eq_true hcost, Bool.not_false, Bool.and_true, if_pos rfl] at hget
        split at hget
        · obtain rfl := Option.some.inj hget
          cases hcontent
        · cases hget

theorem challengeOf_of_hint {hint : Hint} (hof : hint.challengeId = some challenge.id)
    (hc : p.db.challenge challenge.id = some challenge) :
    p.db.challengeOf hint = some challenge := by
  unfold Db.challengeOf
  rw [hof, Option.bind_some, hc]

/-- What an unlock does once it has the lock. -/
theorem postUnlock_of_reachesGate {type : String} {target : Nat} {hint : Hint}
    (hhint : p.db.hint target = some hint) (hof : p.db.challengeOf hint = some challenge)
    (huser : p.db.user session.userId = some user)
    (h : reachesGate platform answers p session challenge = true) :
    postUnlock platform answers p session type target =
      releaseLock answers (unlockLocked platform answers p type hint challenge user) := by
  unfold reachesGate at h
  simp only [Bool.and_eq_true, decide_eq_true_eq, Bool.not_eq_true'] at h
  obtain ⟨⟨⟨⟨hteam, hid⟩, hvisible⟩, hsolved⟩, hlock⟩ := h
  have hhidden : (decide (challenge.state = "hidden") ||
      isHiddenCategory platform p.db challenge.category) = false := by
    unfold isVisible at hvisible
    rw [Bool.and_eq_true, decide_eq_true_eq, Bool.not_eq_true'] at hvisible
    rw [hvisible.1, hvisible.2]
    rfl
  unfold postUnlock
  rw [if_neg (by simp [hteam, hid])]
  simp only [hhint, hof, hhidden, hsolved, hvisible, huser, Bool.false_eq_true, if_false,
    Bool.not_true]
  unfold unlockHint
  rw [hlock]

/-- Only such an unlock writes. -/
theorem reachesGate_of_effect {type : String} {target : Nat} {hint : Hint} {e : Effect}
    (hhint : p.db.hint target = some hint) (hof : p.db.challengeOf hint = some challenge)
    (huser : p.db.user session.userId = some user)
    (he : e ∈ (postUnlock platform answers p session type target).2) :
    reachesGate platform answers p session challenge = true := by
  unfold postUnlock at he
  split at he
  · cases he
  rename_i hsession
  simp only [hhint, hof, huser] at he
  split at he
  · cases he
  split at he
  · cases he
  rename_i hsolved
  split at he
  · cases he
  rename_i hvisible
  unfold unlockHint at he
  split at he
  · cases he
  · cases he
  rename_i hlock
  have hids : session.teamId ≠ 0 ∧ session.userId ≠ 0 := by simpa using hsession
  unfold reachesGate
  rw [decide_eq_true hids.1, decide_eq_true hids.2, decide_eq_true hlock,
    show isVisible platform p.db challenge = true by simpa using hvisible,
    show solved p.db (some session.teamId) challenge.id = false by simpa using hsolved]
  rfl

/-- When nothing is written past the prerequisites. -/
theorem unlockPast_nil_iff {type : String} {hint : Hint} :
    (unlockPast platform answers p type hint user).2 = [] ↔
      isCharged platform answers p type hint user = false := by
  unfold unlockPast isCharged
  cases ensureUnlockable platform p.db hint type user with
  | error fault => exact iff_of_true rfl rfl
  | ok done =>
    unfold saveUnlock
    cases storedUnlock p.db user hint type <;> cases answers.save.written <;>
      simp [Except.isOk, Except.toBool]

theorem onException_eq_iff {fault : Fault} {message : String} :
    onException fault = .refused 400 message ↔ fault = .invalidOperation message := by
  cases fault <;> simp [onException]

/-- The message of the prerequisites of a challenge is its own. -/
theorem ensureUnlockable_ne (db : Db) (type : String) (hint : Hint) :
    ensureUnlockable platform db hint type user ≠ .error (.invalidOperation challengeLocked) := by
  have hteam : "User team not found" ≠ challengeLocked := by decide
  have hhints : "You must unlock other hints before accessing this hint" ≠ challengeLocked := by
    decide
  have hagain : "Already unlocked" ≠ challengeLocked := by decide
  have hscore : "Not enough points to unlock this hint" ≠ challengeLocked := by decide
  have hcheck : ∀ message, message ≠ challengeLocked →
      (.error (.invalidOperation message) : Except Fault Unit) ≠
        .error (.invalidOperation challengeLocked) := by
    intro message hmessage h
    exact hmessage (Fault.invalidOperation.inj (Except.error.inj h))
  have hprerequisites : ensureHintPrerequisitesUnlocked platform db hint user ≠
      .error (.invalidOperation challengeLocked) := by
    unfold ensureHintPrerequisitesUnlocked
    simp only
    split
    · intro h
      cases h
    split
    · exact hcheck _ hteam
    split
    · intro h
      cases h
    · exact hcheck _ hhints
  have haffordable : ensureAffordable db hint user ≠
      .error (.invalidOperation challengeLocked) := by
    unfold ensureAffordable
    split
    · exact hcheck _ hteam
    split
    · intro h
      cases h
    split
    · exact hcheck _ hscore
    · intro h
      cases h
  unfold ensureUnlockable
  cases hfirst : ensureHintPrerequisitesUnlocked platform db hint user with
  | error fault =>
    rw [hfirst] at hprerequisites
    exact hprerequisites
  | ok done =>
    cases (existing platform db hint.id type user).isSome with
    | true => exact hcheck _ hagain
    | false => exact haffordable

/-- When an unlock that the prerequisites refuse is answered as if they let it pass. -/
theorem releaseLock_eq_iff {type : String} {hint : Hint} :
    releaseLock answers (only (onException (.invalidOperation challengeLocked))) =
        releaseLock answers (unlockPast platform answers p type hint user) ↔
      isConcealed platform answers p type hint user = true := by
  have hnil : (unlockPast platform answers p type hint user).2 = [] ↔
      isCharged platform answers p type hint user = false := unlockPast_nil_iff
  unfold isConcealed
  rw [Bool.and_eq_true, Bool.not_eq_true', ← hnil]
  unfold releaseLock
  cases hrelease : answers.release with
  | some fault =>
    rw [Prod.ext_iff]
    simp only [Option.isSome_some, Bool.true_or, and_true, true_and]
    exact eq_comm
  | none =>
    rw [Prod.ext_iff]
    simp only [Option.isSome_none, Bool.false_or]
    have hresponse : (only (onException (.invalidOperation challengeLocked))).1 =
        (unlockPast platform answers p type hint user).1 ∧
          (unlockPast platform answers p type hint user).2 = [] ↔
        (unlockPast platform answers p type hint user).2 = [] ∧
          ((ensureUnlockable platform p.db hint type user).isOk &&
            match answers.save with
            | .saved => false
            | .failed _ fault => fault = .invalidOperation challengeLocked) = true := by
      rw [and_comm]
      refine and_congr_right fun hempty => ?_
      have hlocked : (only (onException (.invalidOperation challengeLocked))).1 =
          .refused 400 challengeLocked := rfl
      rw [hlocked, eq_comm]
      unfold unlockPast
      cases hcheck : ensureUnlockable platform p.db hint type user with
      | error fault =>
        refine iff_of_false ?_ Bool.false_ne_true
        intro h
        obtain rfl := onException_eq_iff.mp h
        exact ensureUnlockable_ne p.db type hint hcheck
      | ok done =>
        unfold saveUnlock
        cases answers.save with
        | failed written fault => simp [onException_eq_iff, Except.isOk, Except.toBool]
        | saved =>
          refine iff_of_false ?_ (by simp)
          cases storedUnlock p.db user hint type with
          | none => exact fun h => absurd (Response.refused.inj h).1 (by decide)
          | some row => exact fun h => Response.noConfusion h
    rw [← hresponse]
    exact and_congr_right fun _ => eq_comm

theorem not_discloses_exception (challengeId : Nat) (request : ContestRequest) (fault : Fault) :
    ¬ Discloses platform p challengeId request (onException fault) := by
  cases fault <;> cases request <;> exact id

theorem not_discloses_unlock (challengeId : Nat) (type : String) (target : Nat) :
    ¬ Discloses platform p challengeId (.unlock type target)
      (postUnlock platform answers p session type target).1 := by
  unfold postUnlock
  split
  · exact id
  split
  · exact id
  split
  · exact id
  split
  · exact id
  split
  · exact id
  split
  · exact id
  split
  · exact id
  unfold unlockHint
  split
  · exact not_discloses_exception _ _ _
  · exact not_discloses_exception _ _ (.invalidOperation _)
  unfold releaseLock
  split
  · unfold unlockLocked
    split
    · exact not_discloses_exception _ _ _
    unfold unlockPast
    split
    · exact not_discloses_exception _ _ _
    unfold saveUnlock
    simp only
    split
    · exact id
    · exact not_discloses_exception _ _ _
    · exact not_discloses_exception _ _ _
  · exact not_discloses_exception _ _ _

theorem gated_unlock_iff (hc : p.db.challenge challenge.id = some challenge)
    (huser : p.db.user session.userId = some user) (type : String) (target : Nat) :
    Gated platform p challenge.id (.unlock type target)
        (respond platform answers p session (.unlock type target)) ↔
      ∀ hint, p.db.hint target = some hint → hint.challengeId = some challenge.id →
        reachesGate platform answers p session challenge = true →
        isCharged platform answers p type hint user = true →
        ensureChallengePrerequisitesUnlocked platform p.db challenge user ≠ .ok () := by
  have hrespond : respond platform answers p session (.unlock type target) =
      postUnlock platform answers p session type target := rfl
  rw [hrespond]
  constructor
  · rintro ⟨-, heffects⟩ hint hhint hof hreaches hcharged hmet
    have hlocked : (postUnlock platform answers p session type target).2 =
        (unlockPast platform answers p type hint user).2 := by
      rw [postUnlock_of_reachesGate hhint (challengeOf_of_hint hof hc) huser hreaches,
        releaseLock_effects]
      unfold unlockLocked
      rw [hmet]
    have hsome : (unlockPast platform answers p type hint user).2 ≠ [] := by
      rw [Ne, unlockPast_nil_iff, hcharged]
      exact Bool.noConfusion
    obtain ⟨e, he⟩ := List.exists_mem_of_ne_nil _ hsome
    rw [← hlocked] at he
    obtain ⟨hint', c, hhint', hof', -, hid⟩ := effects_postUnlock he
    obtain rfl := Option.some.inj (hhint.symm.trans hhint')
    rw [challengeOf_of_hint hof hc] at hof'
    obtain rfl := Option.some.inj hof'
    exact heffects e he hid
  · intro h
    refine ⟨not_discloses_unlock _ _ _, ?_⟩
    intro e he hid
    obtain ⟨hint, c, hhint, hof, -, hc'⟩ := effects_postUnlock he
    obtain ⟨id, hchallengeId, hfind⟩ := Option.bind_eq_some_iff.mp hof
    have hsame : c.id = challenge.id := Option.some.inj (hc'.symm.trans hid)
    have hid' : id = challenge.id := (challenge_id hfind).symm.trans hsame
    rw [hid'] at hchallengeId
    have hof := challengeOf_of_hint hchallengeId hc
    have hreaches := reachesGate_of_effect hhint hof huser he
    rw [postUnlock_of_reachesGate hhint hof huser hreaches, releaseLock_effects] at he
    unfold unlockLocked at he
    split at he
    · cases he
    · rename_i hmet
      refine h hint hhint hchallengeId hreaches ?_ hmet
      by_contra hfree
      rw [unlockPast_nil_iff.mpr (by simpa using hfree)] at he
      cases he

/-- A file is answered exactly when its row is found and open, and its path is mounted. -/
theorem getFile_isOk {path token : String} {userId : Nat} :
    (∃ result, FileService.getFile platform p path token userId = .ok result) ↔
      ∃ t file, FileService.checkToken platform path token userId = .ok t ∧
        FileService.findFile platform p.db path t.fileId = some file ∧
        FileService.isAllowed platform p.db file t.teamId = true ∧
        FileService.isMounted platform (platform.fullPath path) = true ∧
        (p.disk (platform.fullPath path)).isSome = true := by
  constructor
  · rintro ⟨result, hok⟩
    cases ht : FileService.checkToken platform path token userId with
    | error message =>
      rw [getFile_of_refused ht] at hok
      cases hok
    | ok t =>
      rw [getFile_of_token ht] at hok
      cases hfile : FileService.findFile platform p.db path t.fileId with
      | none =>
        rw [hfile] at hok
        cases hok
      | some file =>
        simp only [hfile] at hok
        refine ⟨t, file, rfl, hfile, ?_⟩
        split at hok
        · rename_i hallowed
          unfold FileService.read at hok
          simp only at hok
          split at hok
          · rename_i hmounted
            split at hok
            · cases hok
            · rename_i content hdisk
              exact ⟨hallowed, hmounted, by rw [hdisk]; rfl⟩
          · cases hok
        · cases hok
  · rintro ⟨t, file, ht, hfile, hallowed, hmounted, hdisk⟩
    obtain ⟨content, hcontent⟩ := Option.isSome_iff_exists.mp hdisk
    refine ⟨⟨platform.fileName (platform.fullPath path), content⟩, ?_⟩
    rw [getFile_of_token ht, hfile]
    simp only [hallowed, if_true]
    rw [read_of_mounted hmounted, hcontent]

theorem outcome_file (path token : String) :
    respond platform answers p session (.file path token) =
      only (fileResponse (FileService.getFile platform p path token session.userId)) := by
  have hresponse : (respond platform answers p session (.file path token)).1 =
      fileResponse (FileService.getFile platform p path token session.userId) :=
    respond_file path token
  exact congrArg only hresponse

theorem gated_file_iff (path token : String) :
    Gated platform p challenge.id (.file path token)
        (respond platform answers p session (.file path token)) ↔
      ∀ t file, FileService.checkToken platform path token session.userId = .ok t →
        FileService.findFile platform p.db path t.fileId = some file →
        p.isPathOf platform challenge.id path = true →
        FileService.isMounted platform (platform.fullPath path) = true →
        (p.disk (platform.fullPath path)).isSome = true →
        FileService.isAllowed platform p.db file t.teamId = false := by
  rw [outcome_file, gated_only]
  constructor
  · intro h t file ht hfile hpath hmounted hdisk
    by_contra hallowed
    rw [Bool.not_eq_false] at hallowed
    obtain ⟨result, hok⟩ := getFile_isOk.mpr ⟨t, file, ht, hfile, hallowed, hmounted, hdisk⟩
    rw [hok] at h
    exact h hpath
  · intro h hdiscloses
    cases hget : FileService.getFile platform p path token session.userId with
    | error message =>
      rw [hget] at hdiscloses
      exact hdiscloses
    | ok result =>
      rw [hget] at hdiscloses
      obtain ⟨t, file, ht, hfile, hallowed, hmounted, hdisk⟩ := getFile_isOk.mp ⟨result, hget⟩
      rw [h t file ht hfile hdiscloses hmounted hdisk] at hallowed
      cases hallowed

/-! Starts and attempts disclose nothing; they are gated when they write nothing. -/

theorem not_discloses_start (challengeId id : Nat) :
    ¬ Discloses platform p challengeId (.start id)
      (startChallenge platform answers p session id).1 := by
  unfold startChallenge
  split
  · exact fun h => h
  split
  · exact fun h => h
  split
  · exact fun h => h
  simp only
  split
  · unfold startKypo
    split
    · exact fun h => h
    split
    · exact not_discloses_exception _ _ _
    split
    · exact fun h => h
    · exact fun h => h
  · unfold startOrdinary
    split
    · rename_i refusal hrefusal
      unfold startRefusal at hrefusal
      repeat' split at hrefusal
      all_goals cases hrefusal
      all_goals exact fun h => h
    split
    · exact fun h => h
    · unfold alreadyExists
      simp only
      split
      all_goals exact fun h => h
    · split
      · exact fun h => h
      · exact fun h => h

theorem attemptRefusal_response {db : Db} {submission : String} {refusal : Response}
    (h : attemptRefusal db user submission = some refusal) :
    (∃ status message, refusal = .refused status message) ∨
      ∃ status data, refusal = .attempt status data := by
  unfold attemptRefusal at h
  split at h
  · exact .inr ⟨_, _, (Option.some.inj h).symm⟩
  split at h
  · exact .inl ⟨_, _, (Option.some.inj h).symm⟩
  split at h
  · exact .inr ⟨_, _, (Option.some.inj h).symm⟩
  split at h
  · exact .inr ⟨_, _, (Option.some.inj h).symm⟩
  · cases h

theorem not_discloses_attempt (challengeId id : Nat) (submission : Option String) :
    ¬ Discloses platform p challengeId (.attempt id submission)
      (attempt platform answers p session id submission).1 := by
  unfold attempt
  split
  · exact fun h => h
  split
  · exact fun h => h
  split
  · exact fun h => h
  simp only
  split
  · rename_i refusal hrefusal
    rcases attemptRefusal_response hrefusal with ⟨status, message, rfl⟩ | ⟨status, data, rfl⟩
    · exact fun h => h
    · exact fun h => h
  split
  · exact fun h => h
  split
  · exact fun h => h
  split
  · exact fun h => h
  split
  · exact fun h => h
  split
  · exact fun h => h
  split
  · exact fun h => h
  split
  · exact fun h => h
  · unfold correctAttempt
    split
    · split
      · exact not_discloses_exception _ _ _
      · exact fun h => h
    split
    · exact fun h => h
    split
    all_goals exact fun h => h
  · unfold incorrectAttempt
    simp only
    split
    · exact fun h => h
    split
    · exact fun h => h
    simp only
    split
    · exact fun h => h
    · exact not_discloses_exception _ _ _

/-- A bridge fails with Keycloak; otherwise it makes a run or none. -/
theorem kypoBridge_runs (platform : Platform) (answers : Answers) (p : Portal)
    (config : Option KypoChallengeConfig) (challengeId teamId : Nat) :
    ((hasKypoAccount p.db teamId = true ∧ answers.keycloak.throws = true) ∧
        ∃ fault, kypoBridge platform answers p config challengeId teamId = .error fault) ∨
      ¬ (hasKypoAccount p.db teamId = true ∧ answers.keycloak.throws = true) ∧
        ∃ url runs, kypoBridge platform answers p config challengeId teamId = .ok (url, runs) ∧
          (runs ≠ [] ↔ hasKypoAccount p.db teamId = true ∧
            (∃ fields, answers.keycloak = .token fields) ∧
            (config.bind (·.accessToken)).getD "" ≠ "") := by
  unfold kypoBridge
  simp only
  cases haccount : hasKypoAccount p.db teamId with
  | false =>
    refine .inr ⟨by simp, _, _, rfl, ?_⟩
    simp
  | true =>
    simp only [if_true, true_and]
    cases answers.keycloak with
    | failed fault => exact .inl ⟨rfl, _, rfl⟩
    | refused =>
      refine .inr ⟨by simp [TokenReply.throws], _, _, rfl, ?_⟩
      simp
    | token fields =>
      refine .inr ⟨by simp [TokenReply.throws], _, _, rfl, ?_⟩
      by_cases htoken : (config.bind (·.accessToken)).getD "" = ""
      · simp [htoken]
      · simp [htoken]

/-- When a start at KYPO writes nothing. -/
theorem startKypo_nil_iff (team : Nat) :
    (startKypo platform answers p user team challenge
        (p.db.kypoConfigs.find? fun k => k.challengeId = challenge.id)).2 = [] ↔
      KypoGated answers p challenge team := by
  unfold startKypo KypoGated makesRun
  by_cases hhidden : challenge.state = "hidden"
  · simp [hhidden, only]
  rw [if_neg hhidden]
  simp only [hhidden, false_or]
  rcases kypoBridge_runs platform answers p
    (p.db.kypoConfigs.find? fun k => k.challengeId = challenge.id) challenge.id team with
    ⟨hfailed, fault, hbridge⟩ | ⟨hnot, url, runs, hbridge, hruns⟩
  · rw [hbridge]
    simp [only, hfailed]
  · rw [hbridge, ← hruns]
    simp only [hnot, false_or]
    cases p.getFromCache challenge.id team with
    | none => simp
    | some existing => simp

theorem startOrdinary_of_refused {refusal : Response} {team : Nat}
    (h : startRefusal platform p.db user team challenge = some refusal) :
    (startOrdinary platform answers p user team challenge).2 = [] := by
  unfold startOrdinary
  rw [h]
  rfl

/-- A start whose prerequisites are not met is refused, if it gets so far. -/
theorem startRefusal_of_unmet {db : Db} {team : Nat}
    (h : requirementsMet platform db challenge (some team) = false) :
    (startRefusal platform db user team challenge).isSome = true := by
  unfold startRefusal
  split
  · rfl
  split
  · rfl
  rw [h, Bool.not_false, if_pos rfl]
  rfl

theorem teamOf_id {team : Board.Account} (h : p.db.teamOf user = some team) :
    user.teamId = some team.id := by
  obtain ⟨id, hid, hfind⟩ := Option.bind_eq_some_iff.mp h
  have hteam : team.id = id := by simpa using List.find?_some hfind
  rw [hteam]
  exact hid

theorem startChallenge_of_team {team : Board.Account} (huser : p.db.user session.userId = some user)
    (hteam : p.db.teamOf user = some team) (hc : p.db.challenge challenge.id = some challenge) :
    startChallenge platform answers p session challenge.id =
      if isKypo p.db challenge then
        startKypo platform answers p user team.id challenge
          (p.db.kypoConfigs.find? fun k => k.challengeId = challenge.id)
      else startOrdinary platform answers p user team.id challenge := by
  unfold startChallenge isKypo
  simp only [huser, hteam, hc]

theorem gated_start_iff (h : Stores platform text r) (htext : challenge.requirements = some text)
    (hc : p.db.challenge challenge.id = some challenge)
    (huser : p.db.user session.userId = some user) (hmember : user.teamId = some teamId)
    (hlocked : Locked p.db r teamId) (id : Nat) :
    Gated platform p challenge.id (.start id) (respond platform answers p session (.start id)) ↔
      (id = challenge.id → isKypo p.db challenge = true →
        ∀ team, p.db.teamOf user = some team → KypoGated answers p challenge team.id) := by
  have hrespond : respond platform answers p session (.start id) =
      startChallenge platform answers p session id := rfl
  rw [hrespond]
  -- every effect of the start is about the challenge that is started
  have hgated : Gated platform p challenge.id (.start id)
      (startChallenge platform answers p session id) ↔
      (id = challenge.id → (startChallenge platform answers p session id).2 = []) := by
    constructor
    · rintro ⟨-, heffects⟩ rfl
      rw [List.eq_nil_iff_forall_not_mem]
      intro e he
      exact heffects e he (effects_startChallenge he)
    · intro hnil
      refine ⟨not_discloses_start _ _, ?_⟩
      intro e he hid
      have hsame : id = challenge.id :=
        Option.some.inj ((effects_startChallenge he).symm.trans hid)
      rw [hnil hsame] at he
      cases he
  rw [hgated]
  refine forall_congr' fun hid => ?_
  rw [hid]
  cases hteam : p.db.teamOf user with
  | none =>
    have hnone : startChallenge platform answers p session challenge.id =
        only (.refused 404 "Team not found") := by
      unfold startChallenge
      simp only [huser, hteam]
    rw [hnone]
    simp [only]
  | some team =>
    rw [startChallenge_of_team huser hteam hc]
    cases hkypo : isKypo p.db challenge with
    | true =>
      rw [if_pos rfl, startKypo_nil_iff]
      simp
    | false =>
      rw [if_neg Bool.false_ne_true]
      have hid : team.id = teamId := Option.some.inj ((teamOf_id hteam).symm.trans hmember)
      have hunmet : requirementsMet platform p.db challenge (some team.id) = false := by
        rw [h.requirementsMet htext, hid]
        exact locked_iff.mp hlocked
      have hrefused : (startRefusal platform p.db user team.id challenge).isSome = true :=
        startRefusal_of_unmet hunmet
      obtain ⟨refusal, hrefusal⟩ := Option.isSome_iff_exists.mp hrefused
      rw [startOrdinary_of_refused hrefusal]
      simp

/-- An attempt whose prerequisites are not met writes nothing. -/
theorem attempt_of_unmet {submission : Option String}
    (hc : p.db.challenge challenge.id = some challenge)
    (huser : p.db.user session.userId = some user)
    (h : requirementsMet platform p.db challenge user.teamId = false) :
    (attempt platform answers p session challenge.id submission).2 = [] := by
  unfold attempt
  simp only [huser, hc, h, Bool.not_false, if_true]
  split
  · rfl
  split
  · rfl
  split
  · rfl
  split
  · rfl
  split
  · rfl
  · rfl

theorem gated_attempt (h : Stores platform text r) (htext : challenge.requirements = some text)
    (hc : p.db.challenge challenge.id = some challenge)
    (huser : p.db.user session.userId = some user) (hmember : user.teamId = some teamId)
    (hlocked : Locked p.db r teamId) (id : Nat) (submission : Option String) :
    Gated platform p challenge.id (.attempt id submission)
      (respond platform answers p session (.attempt id submission)) := by
  refine ⟨not_discloses_attempt _ _ _, ?_⟩
  intro e he hid
  have hsame : id = challenge.id := Option.some.inj ((effects_attempt he).symm.trans hid)
  have hunmet : requirementsMet platform p.db challenge user.teamId = false := by
    rw [h.requirementsMet htext, hmember]
    exact locked_iff.mp hlocked
  have hnil : (respond platform answers p session (.attempt id submission)).2 = [] := by
    rw [hsame]
    exact attempt_of_unmet hc huser hunmet
  rw [hnil] at he
  cases he

end Proof

end Fctf.Contest
