import Fctf.Contest.Gate

/-!
The prerequisites of a challenge once they are solved: the endpoints answer as if there were none.
The gate of a challenge, exactly where it holds.
-/

namespace Fctf.Contest

open HintService ChallengeService

section Proof

variable {platform : Platform} {answers : Answers} {p : Portal} {session : Session} {text : String}
  {r : Requirements} {challenge : Challenge} {user : Board.User} {teamId : Nat}

/-! ### What is the same without the requirements -/

theorem Challenge.unrequire_eq (id : Nat) (c : Challenge) :
    c.unrequire id = { c with requirements := if c.id = id then none else c.requirements } := by
  unfold Challenge.unrequire
  split <;> rfl

theorem Challenge.unrequire_of_ne {id : Nat} {c : Challenge} (h : c.id ≠ id) :
    c.unrequire id = c := if_neg h

theorem challenge_unrequire (id key : Nat) : (p.unrequire id).db.challenge key =
    (p.db.challenge key).map (Challenge.unrequire id) := by
  unfold Db.challenge
  apply find?_map_of_keeps
  intro c
  rw [Challenge.unrequire_eq]

theorem challengeOf_unrequire (id : Nat) (hint : Hint) : (p.unrequire id).db.challengeOf hint =
    (p.db.challengeOf hint).map (Challenge.unrequire id) := by
  unfold Db.challengeOf
  cases hint.challengeId with
  | none => rfl
  | some key => exact challenge_unrequire id key

theorem isChallenge_unrequire (id : Nat) :
    isChallenge (p.unrequire id).db = isChallenge p.db := by
  funext key
  unfold isChallenge Portal.unrequire
  rw [List.any_map]
  congr 1
  funext c
  rw [Function.comp_apply, Challenge.unrequire_eq]

theorem isHidden_unrequire (id : Nat) (c : Challenge) :
    isHidden platform (p.unrequire id).db (c.unrequire id) = isHidden platform p.db c := by
  rw [Challenge.unrequire_eq]
  rfl

theorem isVisible_unrequire (id : Nat) (c : Challenge) :
    isVisible platform (p.unrequire id).db (c.unrequire id) = isVisible platform p.db c := by
  rw [Challenge.unrequire_eq]
  rfl

/-! ### The detail and the hints -/

theorem isShown_unrequire_self (teamId : Option Nat) :
    isShown platform (p.unrequire challenge.id).db (challenge.unrequire challenge.id) teamId =
      true := by
  rw [Challenge.unrequire_eq, if_pos rfl]
  rfl

theorem isShown_unrequire_of_ne {id : Nat} {c : Challenge} (h : c.id ≠ id) (teamId : Option Nat) :
    isShown platform (p.unrequire id).db (c.unrequire id) teamId =
      isShown platform p.db c teamId := by
  rw [Challenge.unrequire_of_ne h]
  unfold isShown isUnlockedByPrerequisites
  rw [isChallenge_unrequire]
  rfl

theorem nextName_unrequire (id : Nat) (c : Challenge) :
    nextName platform (p.unrequire id).db c = nextName platform p.db c := by
  unfold nextName
  cases c.nextId with
  | none => rfl
  | some key =>
    simp only [Option.bind_eq_bind, Option.bind_some, challenge_unrequire]
    cases p.db.challenge key with
    | none => rfl
    | some next =>
      rw [Option.map_some, Challenge.unrequire_eq]
      rfl

theorem challengeData_unrequire (id : Nat) (c : Challenge) (team : Board.Account) :
    challengeData platform (p.unrequire id).db (c.unrequire id) user team =
      challengeData platform p.db c user team := by
  rw [Challenge.unrequire_eq]
  unfold challengeData
  rw [nextName_unrequire]
  rfl

/-- A challenge that is found is answered alike without requirements, if it is shown alike. -/
theorem getById_unrequire_of_shown {id key : Nat} {c : Challenge} (hc : p.db.challenge key = some c)
    (h : isHidden platform p.db c = true ∨
      isShown platform (p.unrequire id).db (c.unrequire id) user.teamId =
        isShown platform p.db c user.teamId) :
    getById platform (p.unrequire id) key user = getById platform p key user := by
  have hc' : (p.unrequire id).db.challenge key = some (c.unrequire id) := by
    rw [challenge_unrequire, hc]
    rfl
  cases hv : isHidden platform p.db c with
  | true =>
    have hv' : isHidden platform (p.unrequire id).db (c.unrequire id) = true :=
      (isHidden_unrequire id c).trans hv
    rw [getById_of_hidden hc hv, getById_of_hidden hc' hv']
  | false =>
    have hv' : isHidden platform (p.unrequire id).db (c.unrequire id) = false :=
      (isHidden_unrequire id c).trans hv
    have hshown := h.resolve_left (by rw [hv]; exact Bool.false_ne_true)
    rw [getById_of_visible user hc hv, getById_of_visible user hc' hv', hshown]
    have hkeys : instanceTeam (c.unrequire id) user = instanceTeam c user ∧
        (c.unrequire id).id = c.id := by
      rw [Challenge.unrequire_eq]
      exact ⟨rfl, rfl⟩
    rw [hkeys.1, hkeys.2]
    simp only [challengeData_unrequire]
    rfl

theorem getById_unrequire_iff (hc : p.db.challenge challenge.id = some challenge) (key : Nat) :
    getById platform (p.unrequire challenge.id) key user = getById platform p key user ↔
      (key = challenge.id → isHidden platform p.db challenge = true ∨
        isShown platform p.db challenge user.teamId = true) := by
  by_cases hkey : key = challenge.id
  · subst hkey
    simp only [forall_const]
    constructor
    · intro h
      by_contra hnot
      rw [not_or, Bool.not_eq_true, Bool.not_eq_true] at hnot
      obtain ⟨hv, hs⟩ := hnot
      have hc' : (p.unrequire challenge.id).db.challenge challenge.id =
          some (challenge.unrequire challenge.id) := by
        rw [challenge_unrequire, hc]
        rfl
      have hv' :
          isHidden platform (p.unrequire challenge.id).db (challenge.unrequire challenge.id) =
          false := (isHidden_unrequire challenge.id challenge).trans hv
      rw [getById_of_visible user hc hv, getById_of_visible user hc' hv', hs,
        isShown_unrequire_self, Bool.not_true, if_neg Bool.false_ne_true, Bool.not_false,
        if_pos rfl] at h
      -- a challenge that is shown is answered with no 403
      revert h
      split
      · simp [getById.nullReference]
      split
      · simp
      split
      · simp [getById.nullReference]
      · simp
    · intro h
      apply getById_unrequire_of_shown hc
      rw [isShown_unrequire_self]
      exact h.imp_right Eq.symm
  · refine ⟨fun _ h => absurd h hkey, fun _ => ?_⟩
    cases hfind : p.db.challenge key with
    | none =>
      have hnone : (p.unrequire challenge.id).db.challenge key = none := by
        rw [challenge_unrequire, hfind]
        rfl
      unfold getById
      rw [hfind, hnone]
    | some c =>
      have hne : c.id ≠ challenge.id := by
        rw [challenge_id hfind]
        exact hkey
      exact getById_unrequire_of_shown hfind (.inr (isShown_unrequire_of_ne hne _))

theorem respond_detail_unrequire_iff (hc : p.db.challenge challenge.id = some challenge)
    (huser : p.db.user session.userId = some user) (key : Nat) :
    respond platform answers (p.unrequire challenge.id) session (.detail key) =
        respond platform answers p session (.detail key) ↔
      (key = challenge.id → isHidden platform p.db challenge = true ∨
        isShown platform p.db challenge user.teamId = true) := by
  have huser' : (p.unrequire challenge.id).db.user session.userId = some user := huser
  rw [← getById_unrequire_iff hc key, respond_detail huser, respond_detail huser']
  constructor
  · intro h
    have hresponse := congrArg Prod.fst h
    unfold only at hresponse
    cases hleft : getById platform (p.unrequire challenge.id) key user with
    | error refusal =>
      cases hright : getById platform p key user with
      | error refusal' =>
        rw [hleft, hright] at hresponse
        obtain ⟨hstatus, hmessage⟩ := Response.refused.inj hresponse
        rw [Prod.ext hstatus hmessage]
      | ok answer' =>
        rw [hleft, hright] at hresponse
        cases hresponse
    | ok answer =>
      cases hright : getById platform p key user with
      | error refusal' =>
        rw [hleft, hright] at hresponse
        cases hresponse
      | ok answer' =>
        rw [hleft, hright] at hresponse
        obtain ⟨hdata, hstarted⟩ := Response.challenge.inj hresponse
        rw [Prod.ext hdata hstarted]
  · intro h
    rw [h]

theorem getHintById_unrequire (id key userId : Nat) :
    getHintById platform (p.unrequire id).db key userId = getHintById platform p.db key userId := by
  unfold getHintById
  have hhint : (p.unrequire id).db.hint key = p.db.hint key := rfl
  rw [hhint]
  cases p.db.hint key with
  | none => rfl
  | some hint =>
    simp only [Option.bind_eq_bind, Option.bind_some, challengeOf_unrequire]
    cases p.db.challengeOf hint with
    | none => rfl
    | some c =>
      simp only [Option.map_some, Option.bind_some, isVisible_unrequire]
      rfl

/-! ### Unlocks -/

theorem ensureChallengePrerequisitesUnlocked_unrequire {id : Nat} {c : Challenge} :
    ensureChallengePrerequisitesUnlocked platform (p.unrequire id).db (c.unrequire id) user =
      if c.id = id then .ok () else ensureChallengePrerequisitesUnlocked platform p.db c user := by
  by_cases hid : c.id = id
  · rw [Challenge.unrequire_eq, if_pos hid, if_pos hid]
    rfl
  · rw [Challenge.unrequire_of_ne hid, if_neg hid]
    unfold ensureChallengePrerequisitesUnlocked
    have hany : (fun key : Int => (p.unrequire id).db.challenges.any fun c => (c.id : Int) = key) =
        fun key => p.db.challenges.any fun c => (c.id : Int) = key := isChallenge_unrequire id
    simp only [hany]
    rfl

theorem unlockLocked_unrequire {id : Nat} {type : String} {c : Challenge} {hint : Hint} :
    unlockLocked platform answers (p.unrequire id) type hint (c.unrequire id) user =
      if c.id = id then unlockPast platform answers p type hint user
      else unlockLocked platform answers p type hint c user := by
  unfold unlockLocked
  rw [ensureChallengePrerequisitesUnlocked_unrequire]
  by_cases hid : c.id = id
  · rw [if_pos hid, if_pos hid]
    rfl
  · rw [if_neg hid, if_neg hid]
    rfl

theorem reachesGate_unrequire (id : Nat) (c : Challenge) :
    reachesGate platform answers (p.unrequire id) session (c.unrequire id) =
      reachesGate platform answers p session c := by
  unfold reachesGate
  rw [isVisible_unrequire, Challenge.unrequire_eq]
  rfl

/-- An unlock that does not come to the prerequisites does not tell them. -/
theorem postUnlock_unrequire {type : String} {target : Nat}
    (h : ∀ hint c, p.db.hint target = some hint → p.db.challengeOf hint = some c →
      reachesGate platform answers p session c = true →
      releaseLock answers (unlockLocked platform answers (p.unrequire challenge.id) type hint
          (c.unrequire challenge.id) user) =
        releaseLock answers (unlockLocked platform answers p type hint c user))
    (huser : p.db.user session.userId = some user) :
    postUnlock platform answers (p.unrequire challenge.id) session type target =
      postUnlock platform answers p session type target := by
  unfold postUnlock
  split
  · rfl
  rename_i hsession
  have hids : session.teamId ≠ 0 ∧ session.userId ≠ 0 := by simpa using hsession
  have hhints : (p.unrequire challenge.id).db.hint = p.db.hint := rfl
  have husers : (p.unrequire challenge.id).db.user = p.db.user := rfl
  rw [hhints, husers]
  cases hhint : p.db.hint target with
  | none => rfl
  | some hint =>
    simp only [challengeOf_unrequire]
    cases hof : p.db.challengeOf hint with
    | none => rfl
    | some c =>
      have hsolves : solved (p.unrequire challenge.id).db = solved p.db := rfl
      have hhidden : (decide ((c.unrequire challenge.id).state = "hidden") ||
          isHiddenCategory platform (p.unrequire challenge.id).db
            (c.unrequire challenge.id).category) =
          (decide (c.state = "hidden") || isHiddenCategory platform p.db c.category) :=
        isHidden_unrequire challenge.id c
      have hid : (c.unrequire challenge.id).id = c.id := by rw [Challenge.unrequire_eq]
      simp only [Option.map_some, hhidden, hid, hsolves, isVisible_unrequire, huser]
      cases hsolved : solved p.db (some session.teamId) c.id with
      | true => rfl
      | false =>
        cases hvisible : isVisible platform p.db c with
        | false => rfl
        | true =>
          unfold unlockHint
          cases hlock : answers.lock with
          | failed fault => rfl
          | taken => rfl
          | acquired =>
            have hreaches : reachesGate platform answers p session c = true := by
              unfold reachesGate
              rw [decide_eq_true hids.1, decide_eq_true hids.2, decide_eq_true hlock, hvisible,
                hsolved]
              rfl
            simp only [h hint c hhint hof hreaches]

theorem postUnlock_unrequire_iff (hc : p.db.challenge challenge.id = some challenge)
    (huser : p.db.user session.userId = some user) (type : String) (target : Nat)
    (hchecks : ∀ fault, ensureChallengePrerequisitesUnlocked platform p.db challenge user =
      .error fault → fault = .invalidOperation challengeLocked) :
    postUnlock platform answers (p.unrequire challenge.id) session type target =
        postUnlock platform answers p session type target ↔
      ∀ hint, p.db.hint target = some hint → hint.challengeId = some challenge.id →
        reachesGate platform answers p session challenge = true →
        ensureChallengePrerequisitesUnlocked platform p.db challenge user = .ok () ∨
          isConcealed platform answers p type hint user = true := by
  have hsame : ∀ hint : Hint, releaseLock answers (unlockLocked platform answers
        (p.unrequire challenge.id) type hint (challenge.unrequire challenge.id) user) =
        releaseLock answers (unlockLocked platform answers p type hint challenge user) ↔
      ensureChallengePrerequisitesUnlocked platform p.db challenge user = .ok () ∨
        isConcealed platform answers p type hint user = true := by
    intro hint
    rw [unlockLocked_unrequire, if_pos rfl]
    unfold unlockLocked
    cases hmet : ensureChallengePrerequisitesUnlocked platform p.db challenge user with
    | ok done => exact iff_of_true rfl (.inl rfl)
    | error fault =>
      obtain rfl := hchecks fault hmet
      rw [eq_comm, releaseLock_eq_iff]
      exact ⟨.inr, fun h => h.resolve_left (by simp)⟩
  constructor
  · intro h hint hhint hof hreaches
    have hof' : (p.unrequire challenge.id).db.challengeOf hint =
        some (challenge.unrequire challenge.id) := by
      rw [challengeOf_unrequire, challengeOf_of_hint hof hc]
      rfl
    have hreaches' := (reachesGate_unrequire challenge.id challenge).trans hreaches
    rw [postUnlock_of_reachesGate hhint (challengeOf_of_hint hof hc) huser hreaches,
      postUnlock_of_reachesGate (p := p.unrequire challenge.id) hhint hof' huser hreaches'] at h
    exact (hsame hint).mp h
  · intro h
    refine postUnlock_unrequire ?_ huser
    intro hint c hhint hof hreaches
    by_cases hid : c.id = challenge.id
    · obtain ⟨key, hkey, hfind⟩ := Option.bind_eq_some_iff.mp hof
      have hkey' : key = challenge.id := (challenge_id hfind).symm.trans hid
      rw [hkey', hc] at hfind
      obtain rfl := Option.some.inj hfind
      exact (hsame hint).mpr (h hint hhint (hkey.trans (congrArg some hkey')) hreaches)
    · rw [unlockLocked_unrequire, if_neg hid]

/-! ### Files -/

/-- The files of the challenge are open to every token that names them. -/
theorem isAllowed_unrequire (hc : p.db.challenge challenge.id = some challenge) (file : File)
    (teamId : Option Nat) :
    FileService.isAllowed platform (p.unrequire challenge.id).db file teamId =
        FileService.isAllowed platform p.db file teamId ↔
      (file.challengeId = some challenge.id →
        file.type.any (equalsIgnoreCase · "challenge") = true →
        equalsIgnoreCase challenge.state "hidden" = false →
        FileService.prerequisitesMet platform p.db challenge teamId = true) := by
  unfold FileService.isAllowed
  cases htype : file.type.any (equalsIgnoreCase · "challenge") with
  | false => simp
  | true =>
    simp only [if_true, forall_const]
    by_cases hfile : file.challengeId = some challenge.id
    · rw [hfile, Option.bind_some, Option.bind_some, challenge_unrequire, hc, Option.map_some]
      have hmet : FileService.prerequisitesMet platform (p.unrequire challenge.id).db
          (challenge.unrequire challenge.id) teamId = true := by
        rw [Challenge.unrequire_eq, if_pos rfl]
        rfl
      have hstate : (challenge.unrequire challenge.id).state = challenge.state := by
        rw [Challenge.unrequire_eq]
      simp only [hmet, hstate, forall_const, Bool.and_true]
      cases equalsIgnoreCase challenge.state "hidden" with
      | true => simp
      | false =>
        simp only [Bool.not_false, Bool.true_and, forall_const]
        exact eq_comm
    · simp only [hfile, false_imp_iff, iff_true]
      cases hid : file.challengeId with
      | none => rfl
      | some key =>
        rw [Option.bind_some, Option.bind_some, challenge_unrequire]
        cases hfind : p.db.challenge key with
        | none => rfl
        | some c =>
          have hne : c.id ≠ challenge.id := by
            rintro hsame
            exact hfile (hid.trans (congrArg some ((challenge_id hfind).symm.trans hsame)))
          rw [Option.map_some, Challenge.unrequire_of_ne hne]
          unfold FileService.prerequisitesMet
          rw [isChallenge_unrequire]
          rfl

/-- A file that can be read is answered with another message than one that is refused. -/
theorem read_ne_denied (path : String) :
    FileService.read platform p path ≠ .error "Access denied" := by
  unfold FileService.read
  simp only
  split
  · split
    · simp
    · simp
  · simp

theorem respond_file_unrequire_iff (hc : p.db.challenge challenge.id = some challenge)
    (path token : String) :
    respond platform answers (p.unrequire challenge.id) session (.file path token) =
        respond platform answers p session (.file path token) ↔
      ∀ t file, FileService.checkToken platform path token session.userId = .ok t →
        FileService.findFile platform p.db path t.fileId = some file →
        file.challengeId = some challenge.id →
        file.type.any (equalsIgnoreCase · "challenge") = true →
        equalsIgnoreCase challenge.state "hidden" = false →
        FileService.prerequisitesMet platform p.db challenge t.teamId = true := by
  have hresponses : respond platform answers (p.unrequire challenge.id) session (.file path token) =
        respond platform answers p session (.file path token) ↔
      FileService.getFile platform (p.unrequire challenge.id) path token session.userId =
        FileService.getFile platform p path token session.userId := by
    constructor
    · intro h
      rw [outcome_file, outcome_file] at h
      exact fileResponse_inj (congrArg Prod.fst h)
    · intro h
      rw [outcome_file, outcome_file, h]
  rw [hresponses]
  cases ht : FileService.checkToken platform path token session.userId with
  | error message =>
    rw [getFile_of_refused ht, getFile_of_refused ht]
    simp
  | ok t =>
    have hfind : FileService.findFile platform (p.unrequire challenge.id).db path t.fileId =
        FileService.findFile platform p.db path t.fileId := rfl
    rw [getFile_of_token ht, getFile_of_token ht, hfind]
    cases hfile : FileService.findFile platform p.db path t.fileId with
    | none =>
      refine ⟨fun _ t' file ht' hfile' => ?_, fun _ => rfl⟩
      obtain rfl := Except.ok.inj ht'
      rw [hfile] at hfile'
      cases hfile'
    | some file =>
      have hread : FileService.read platform (p.unrequire challenge.id) path =
          FileService.read platform p path := rfl
      have hkept : (FileService.isAllowed platform (p.unrequire challenge.id).db file t.teamId =
          FileService.isAllowed platform p.db file t.teamId) ↔
          ∀ t' file', (Except.ok t : Except String FileToken) = .ok t' →
            FileService.findFile platform p.db path t'.fileId = some file' →
            file'.challengeId = some challenge.id →
            file'.type.any (equalsIgnoreCase · "challenge") = true →
            equalsIgnoreCase challenge.state "hidden" = false →
            FileService.prerequisitesMet platform p.db challenge t'.teamId = true := by
        rw [isAllowed_unrequire hc]
        constructor
        · rintro h t' file' ht' hfile'
          obtain rfl := Except.ok.inj ht'
          obtain rfl := Option.some.inj (hfile.symm.trans hfile')
          exact h
        · intro h
          exact h t file rfl hfile
      rw [← hkept]
      simp only [hread]
      have hdenied : FileService.read platform p path ≠ .error "Access denied" :=
        read_ne_denied path
      cases FileService.isAllowed platform (p.unrequire challenge.id).db file t.teamId with
      | true =>
        cases FileService.isAllowed platform p.db file t.teamId with
        | true => simp
        | false => simp [hdenied]
      | false =>
        cases FileService.isAllowed platform p.db file t.teamId with
        | true => simp [Ne.symm hdenied]
        | false => simp

/-! ### Starts and attempts -/

theorem requirementsMet_unrequire_self (teamId : Option Nat) :
    requirementsMet platform (p.unrequire challenge.id).db (challenge.unrequire challenge.id)
        teamId =
      true := by
  rw [Challenge.unrequire_eq, if_pos rfl]
  rfl

theorem requirementsMet_unrequire_of_ne {id : Nat} {c : Challenge} (h : c.id ≠ id)
    (teamId : Option Nat) :
    requirementsMet platform (p.unrequire id).db (c.unrequire id) teamId =
      requirementsMet platform p.db c teamId := by
  rw [Challenge.unrequire_of_ne h]
  unfold requirementsMet
  rw [isChallenge_unrequire]
  rfl

theorem startKypo_unrequire (id : Nat) (c : Challenge) (team : Nat)
    (config : Option KypoChallengeConfig) :
    startKypo platform answers (p.unrequire id) user team (c.unrequire id) config =
      startKypo platform answers p user team c config := by
  rw [Challenge.unrequire_eq]
  rfl

theorem startOrdinary_unrequire {id : Nat} {c : Challenge} {team : Nat}
    (h : requirementsMet platform (p.unrequire id).db (c.unrequire id) (some team) =
      requirementsMet platform p.db c (some team)) :
    startOrdinary platform answers (p.unrequire id) user team (c.unrequire id) =
      startOrdinary platform answers p user team c := by
  have hrefusal : startRefusal platform (p.unrequire id).db user team (c.unrequire id) =
      startRefusal platform p.db user team c := by
    unfold startRefusal
    rw [h, Challenge.unrequire_eq]
    rfl
  unfold startOrdinary
  rw [hrefusal, Challenge.unrequire_eq]
  rfl

/-- A start tells nothing of requirements that its check takes for met. -/
theorem startChallenge_unrequire {id key : Nat}
    (h : ∀ c team, p.db.challenge key = some c → p.db.teamOf user = some team →
      requirementsMet platform (p.unrequire id).db (c.unrequire id) (some team.id) =
        requirementsMet platform p.db c (some team.id))
    (huser : p.db.user session.userId = some user) :
    startChallenge platform answers (p.unrequire id) session key =
      startChallenge platform answers p session key := by
  unfold startChallenge
  have husers : (p.unrequire id).db.user = p.db.user := rfl
  have hteams : (p.unrequire id).db.teamOf = p.db.teamOf := rfl
  have hconfigs : (p.unrequire id).db.kypoConfigs = p.db.kypoConfigs := rfl
  rw [husers, hteams, hconfigs, challenge_unrequire, huser]
  cases hteam : p.db.teamOf user with
  | none => simp only [hteam]
  | some team =>
    cases hc : p.db.challenge key with
    | none => simp only [hteam, Option.map_none]
    | some c =>
      have hsandbox : isSandbox (c.unrequire id) = isSandbox c := by
        rw [Challenge.unrequire_eq]
        rfl
      have hid : (c.unrequire id).id = c.id := by rw [Challenge.unrequire_eq]
      simp only [hteam, Option.map_some, hsandbox, hid, startKypo_unrequire,
        startOrdinary_unrequire (h c team hc hteam)]

theorem attempt_unrequire {id key : Nat} {submission : Option String}
    (h : ∀ c, p.db.challenge key = some c →
      requirementsMet platform (p.unrequire id).db (c.unrequire id) user.teamId =
        requirementsMet platform p.db c user.teamId)
    (huser : p.db.user session.userId = some user) :
    attempt platform answers (p.unrequire id) session key submission =
      attempt platform answers p session key submission := by
  unfold attempt
  have husers : (p.unrequire id).db.user = p.db.user := rfl
  rw [husers, challenge_unrequire, huser]
  cases hc : p.db.challenge key with
  | none => rfl
  | some c =>
    simp only [Option.map_some, h c hc]
    rw [Challenge.unrequire_eq]
    rfl

/-- Once the prerequisites are solved, the checks of a start and of an attempt take them for met,
with the requirements and without. -/
theorem requirementsMet_unrequire (h : Stores platform text r)
    (htext : challenge.requirements = some text)
    (hc : p.db.challenge challenge.id = some challenge) (hopen : ¬ Locked p.db r teamId)
    {key : Nat} {c : Challenge} (hfind : p.db.challenge key = some c) :
    requirementsMet platform (p.unrequire challenge.id).db (c.unrequire challenge.id)
        (some teamId) = requirementsMet platform p.db c (some teamId) := by
  by_cases hid : c.id = challenge.id
  · have hkey : key = challenge.id := (challenge_id hfind).symm.trans hid
    rw [hkey, hc] at hfind
    obtain rfl := Option.some.inj hfind
    rw [requirementsMet_unrequire_self, h.requirementsMet htext]
    exact (not_locked_iff.mp hopen).symm
  · exact requirementsMet_unrequire_of_ne hid _

/-! ### The gate -/

/-- The prerequisites let a charge of a locked challenge pass, unless the gate is kept. -/
theorem unlockGated_iff_of_locked (hstores : Stores platform text r)
    (htext : challenge.requirements = some text) (hmember : user.teamId = some teamId)
    (hlocked : Locked p.db r teamId) (type : String) (hint : Hint) :
    UnlockGated platform answers p r type hint user (Locked p.db r teamId) ↔
      (isCharged platform answers p type hint user = true →
        ensureChallengePrerequisitesUnlocked platform p.db challenge user ≠ .ok ()) := by
  rw [hstores.ensureChallengePrerequisitesUnlocked htext p.db hmember]
  unfold UnlockGated
  by_cases hmode : p.db.board.userMode = .teams
  · rw [if_pos hmode, locked_iff.mp hlocked, if_neg Bool.false_ne_true]
    exact iff_of_true (.inl hmode) fun _ => by simp
  · rw [if_neg hmode]
    simp only [hmode, hlocked, false_or, true_and, not_true_eq_false, false_and, or_false]
    cases r.metBy p.db (solvedByUser p.db user) <;>
      cases isCharged platform answers p type hint user <;> simp

/-- The prerequisites keep back no unlock of an open challenge, or it makes no difference. -/
theorem unlockGated_iff_of_open (hstores : Stores platform text r)
    (htext : challenge.requirements = some text) (hmember : user.teamId = some teamId)
    (hopen : ¬ Locked p.db r teamId) (type : String) (hint : Hint) :
    UnlockGated platform answers p r type hint user (Locked p.db r teamId) ↔
      (ensureChallengePrerequisitesUnlocked platform p.db challenge user = .ok () ∨
        isConcealed platform answers p type hint user = true) := by
  rw [hstores.ensureChallengePrerequisitesUnlocked htext p.db hmember]
  unfold UnlockGated
  by_cases hmode : p.db.board.userMode = .teams
  · rw [if_pos hmode, not_locked_iff.mp hopen, if_pos rfl]
    exact iff_of_true (.inl hmode) (.inl rfl)
  · rw [if_neg hmode]
    simp only [hmode, hopen, false_or, false_and, not_false_eq_true, true_and]
    cases r.metBy p.db (solvedByUser p.db user) <;> simp

theorem gated_iff (hstores : Stores platform text r) (htext : challenge.requirements = some text)
    (hc : p.db.challenge challenge.id = some challenge)
    (huser : p.db.user session.userId = some user) (hmember : user.teamId = some teamId)
    (hlocked : Locked p.db r teamId) {request : ContestRequest} (hopens : request.opens = true) :
    Gated platform p challenge.id request (respond platform answers p session request) ↔
      GateKept platform answers p session challenge r user (Locked p.db r teamId) request := by
  cases request with
  | detail id =>
    rw [gated_detail_iff huser, getById_isOk hc]
    refine forall_congr' fun _ => ?_
    unfold DetailGated
    simp only [hlocked, true_and, not_true_eq_false, false_and, or_false, not_and_or, not_forall,
      Bool.not_eq_false, Bool.not_eq_true, not_not, exists_prop]
  | hint id =>
    rw [gated_hint_iff hc huser]
    unfold GateKept
    simp only [hlocked, forall_const]
  | unlock type target =>
    rw [gated_unlock_iff hc huser]
    unfold GateKept
    simp only [unlockGated_iff_of_locked hstores htext hmember hlocked]
  | file path token =>
    rw [gated_file_iff]
    unfold GateKept FileGated
    simp only [hlocked, forall_const, not_true_eq_false, false_imp_iff, and_true]
  | start id =>
    rw [gated_start_iff hstores htext hc huser hmember hlocked]
    unfold GateKept
    simp only [hlocked, forall_const]
  | attempt id submission =>
    exact iff_of_true (gated_attempt hstores htext hc huser hmember hlocked id submission) trivial
  | list | instances | status | hints => cases hopens

theorem respond_unrequire_iff (hstores : Stores platform text r)
    (htext : challenge.requirements = some text)
    (hc : p.db.challenge challenge.id = some challenge)
    (huser : p.db.user session.userId = some user) (hmember : user.teamId = some teamId)
    (hopen : ¬ Locked p.db r teamId) {request : ContestRequest} (hopens : request.opens = true) :
    respond platform answers (p.unrequire challenge.id) session request =
        respond platform answers p session request ↔
      GateKept platform answers p session challenge r user (Locked p.db r teamId) request := by
  cases request with
  | detail id =>
    rw [respond_detail_unrequire_iff hc huser]
    refine forall_congr' fun _ => ?_
    unfold DetailGated
    simp only [hopen, not_false_eq_true, true_and, false_and, false_or]
  | hint id =>
    unfold GateKept
    simp only [hopen, false_imp_iff, implies_true, iff_true]
    unfold respond
    simp only [getHintById_unrequire]
  | unlock type target =>
    have hrespond : respond platform answers (p.unrequire challenge.id) session
        (.unlock type target) = respond platform answers p session (.unlock type target) ↔
        postUnlock platform answers (p.unrequire challenge.id) session type target =
          postUnlock platform answers p session type target := Iff.rfl
    have hchecks : ∀ fault, ensureChallengePrerequisitesUnlocked platform p.db challenge user =
        .error fault → fault = .invalidOperation challengeLocked := by
      intro fault hfault
      rw [hstores.ensureChallengePrerequisitesUnlocked htext p.db hmember] at hfault
      by_cases hmet : r.metBy p.db (if p.db.board.userMode = .teams then solved p.db (some teamId)
          else solvedByUser p.db user) = true
      · rw [if_pos hmet] at hfault
        cases hfault
      · rw [if_neg hmet] at hfault
        exact (Except.error.inj hfault).symm
    rw [hrespond, postUnlock_unrequire_iff hc huser type target hchecks]
    unfold GateKept
    simp only [unlockGated_iff_of_open hstores htext hmember hopen]
  | file path token =>
    rw [respond_file_unrequire_iff hc]
    unfold GateKept FileGated
    simp only [hopen, false_imp_iff, true_and, not_false_eq_true, forall_const]
  | start id =>
    unfold GateKept
    simp only [hopen, false_imp_iff, implies_true, iff_true]
    apply startChallenge_unrequire _ huser
    intro c team hfind hteam
    have hid : team.id = teamId := Option.some.inj ((teamOf_id hteam).symm.trans hmember)
    rw [hid]
    exact requirementsMet_unrequire hstores htext hc hopen hfind
  | attempt id submission =>
    refine iff_of_true (attempt_unrequire ?_ huser) trivial
    intro c hfind
    rw [hmember]
    exact requirementsMet_unrequire hstores htext hc hopen hfind
  | list | instances | status | hints => cases hopens

end Proof

/-- For each request of a member of a team, the gate of a challenge with requirements holds exactly
where it is kept. -/
theorem prerequisiteGate_iff (platform : Platform) (answers : Answers) (p : Portal)
    (session : Session) (challenge : Challenge) (text : String) (r : Requirements)
    (user : Board.User) (teamId : Nat) (request : ContestRequest)
    (hstores : Stores platform text r) (htext : challenge.requirements = some text)
    (hc : p.db.challenge challenge.id = some challenge)
    (huser : p.db.user session.userId = some user) (hmember : user.teamId = some teamId)
    (hopens : request.opens = true) :
    PrerequisiteGate platform answers p session challenge.id r teamId request ↔
      GateKept platform answers p session challenge r user (Locked p.db r teamId) request := by
  unfold PrerequisiteGate
  by_cases hlocked : Locked p.db r teamId
  · rw [← gated_iff hstores htext hc huser hmember hlocked hopens]
    exact ⟨fun h => h.1 hlocked, fun h => ⟨fun _ => h, fun hopen => absurd hlocked hopen⟩⟩
  · rw [← respond_unrequire_iff hstores htext hc huser hmember hlocked hopens]
    exact ⟨fun h => h.2 hlocked, fun h => ⟨fun hl => absurd hl hlocked, fun _ => h⟩⟩

/-- The first challenge is required. -/
def firstRequired : Requirements where
  prerequisites := [1]
  positive_id := by simp
  unique := by simp

def firstRequiredText : String := "\x7b\"prerequisites\": [1]\x7d"

/-- Readers of the one text. -/
def firstRequiredPlatform : Platform :=
  { plainPlatform with
    deserialize := fun text =>
      if text = firstRequiredText then some (some firstRequired.toDto) else none
    deserializeObject := fun text =>
      if text = firstRequiredText then some (some firstRequired.toDto) else none
    parse := fun text =>
      if text = firstRequiredText then some (.object [("prerequisites", firstRequired.toElement)])
      else none }

/-- A challenge of KYPO that requires another one. -/
def second : Challenge :=
  { id := 2, type := some "sandbox", requirements := some firstRequiredText }

/-- A team that has solved nothing. -/
def unsolvedFirst : Portal where
  db := {
    board := {
      teams := [{ id := 1 }], users := [{ id := 1, teamId := some 1 }]
      teams_pk := Board.memberLeft.teams_pk
      users_pk := Board.memberLeft.users_pk
      users_pos := HintSite.oneMember_pos
      brackets_pk := Board.unsetFlag.brackets_pk
      challenges_pk := Board.unsetFlag.challenges_pk
      submissions_pk := Board.unsetFlag.submissions_pk
      solves_fk := Board.unsetFlag.solves_fk
      solves_pos := Board.unsetFlag.solves_pos
      awards_pos := Board.unsetFlag.awards_pos }
    files := []
    files_pk := List.nodup_nil
    challenges := [{ id := 1 }, second] }

theorem stores_firstRequired : Stores firstRequiredPlatform firstRequiredText firstRequired where
  dict := by decide
  deserialize := by simp [firstRequiredPlatform]
  parse := by
    have hparse : firstRequiredPlatform.parse firstRequiredText =
        some (.object [("prerequisites", firstRequired.toElement)]) := by
      simp [firstRequiredPlatform]
    rw [hparse]
    rfl

/-- No attempt is recorded for the second challenge before the first is solved. -/
theorem attempt_gated : PrerequisiteGate firstRequiredPlatform {} unsolvedFirst ⟨1, 1⟩ 2
    firstRequired 1 (.attempt 2 (some "x")) :=
  (prerequisiteGate_iff firstRequiredPlatform {} unsolvedFirst ⟨1, 1⟩ second firstRequiredText
    firstRequired { id := 1, teamId := some 1 } 1 (.attempt 2 (some "x")) stores_firstRequired rfl
    (by decide) (by decide) rfl rfl).mpr trivial

/-- The second challenge is started at KYPO before the first is solved. -/
theorem kypo_starts_locked :
    ¬ ∀ (platform : Platform) (answers : Answers) (p : Portal) (session : Session)
      (challenge : Challenge) (text : String) (r : Requirements) (user : Board.User) (teamId : Nat)
      (request : ContestRequest), Stores platform text r → challenge.requirements = some text →
      p.db.challenge challenge.id = some challenge → p.db.user session.userId = some user →
      user.teamId = some teamId → request.opens = true →
      PrerequisiteGate platform answers p session challenge.id r teamId request := by
  intro hall
  have hgate := hall firstRequiredPlatform {} unsolvedFirst ⟨1, 1⟩ second firstRequiredText
    firstRequired { id := 1, teamId := some 1 } 1 (.start 2) stores_firstRequired rfl (by decide)
    (by decide) rfl rfl
  have hlocked : Locked unsolvedFirst.db firstRequired 1 := ⟨1, by simp [firstRequired], by decide⟩
  refine (hgate.1 hlocked).2 (.tracked 2 1) ?_ rfl
  decide

end Fctf.Contest
