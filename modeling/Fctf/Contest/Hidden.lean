import Fctf.Contest.Endpoints
import Fctf.Lib.Erasure

/-!
Hidden challenges: what the answers of the endpoints tell of their texts.
-/

namespace Fctf.Contest

open Erasure HintService ChallengeService

section Definitions

variable (platform : Platform)

/-- Hidden by its state, or by its category. -/
def isHidden (db : Db) (challenge : Challenge) : Bool :=
  challenge.state = "hidden" || isHiddenCategory platform db challenge.category

/-- The row belongs to a hidden challenge. -/
def ofHidden (db : Db) (challengeId : Option Nat) : Bool :=
  (challengeId.bind db.challenge).any (isHidden platform db)

/-- A text in place of those of a challenge. -/
def Challenge.overwrite (text : Option String) (challenge : Challenge) : Challenge :=
  { challenge with
    name := text, description := text, connectionProtocol := text.getD "" }

/-- An address in place of the one of a deployment. -/
def CacheEntry.overwrite (text : Option String) (e : CacheEntry) : CacheEntry where
  challengeId := e.challengeId
  teamId := e.teamId
  dto := e.dto.map fun d => { d with challenge_url := text }
  own := by
    intro d hd
    obtain ⟨d', hd', rfl⟩ := Option.map_eq_some_iff.mp hd
    exact e.own d' hd'

namespace Portal

/-- The full paths of the files of hidden challenges. -/
def isHiddenPath (p : Portal) (path : String) : Bool :=
  p.db.files.any fun f =>
    ofHidden platform p.db f.challengeId && f.location.any (platform.fullPath · = path)

/-- A text in place of every text of the hidden challenges; their files and flags are kept or
left out. -/
def overwrite (text : Option String) (keep : Bool) (p : Portal) : Portal where
  now := p.now
  db := { p.db with
    challenges := p.db.challenges.map fun c =>
      if isHidden platform p.db c then c.overwrite text else c
    hints := p.db.hints.map fun h =>
      if ofHidden platform p.db h.challengeId then { h with content := text } else h
    files := p.db.files.filter fun f => keep || !ofHidden platform p.db f.challengeId
    files_pk := p.db.files_pk.sublist (List.filter_sublist.map _)
    flags := p.db.flags.filter fun f => keep || !ofHidden platform p.db f.challengeId
    kypoConfigs := p.db.kypoConfigs.map fun k =>
      if ofHidden platform p.db (some k.challengeId) then
        { k with accessToken := text, instanceType := text.getD "", baseUrl := text }
      else k }
  deployments := p.deployments.map fun e =>
    if ofHidden platform p.db (some e.challengeId) then e.overwrite text else e
  disk := fun path => if p.isHiddenPath platform path then text else p.disk path

/-- Nothing is left of the names, descriptions, connection data, files, hint contents and flags
of hidden challenges. -/
def erase (p : Portal) : Portal := p.overwrite platform none false

end Portal

/-- The request starts no instance of a hidden challenge, charges none of its hints and records
no submission for it. -/
def Harmless (db : Db) (effects : List Effect) : Prop :=
  ∀ e ∈ effects, ofHidden platform db (e.challengeId db) = false

section Condition

variable (p : Portal)

/-- The list shows no hidden challenge. -/
def ListKept (categoryName : String) (teamId : Nat) : Prop :=
  isHiddenCategory platform p.db (some categoryName) = true ∨
    ∀ c ∈ listed platform p categoryName teamId, isHidden platform p.db c = false

/-- The next challenge of one that is shown is hidden by its category, if it is hidden. -/
def DetailKept (challengeId : Nat) (user : Board.User) : Prop :=
  ∀ c next, p.db.challenge challengeId = some c → isHidden platform p.db c = false →
    isShown platform p.db c user.teamId = true → (p.db.teamOf user).isSome = true →
    (∀ d ∈ p.getFromCache c.id (instanceTeam c user), (p.db.user d.user_id).isSome = true) →
    c.nextId.bind p.db.challenge = some next →
    isHiddenCategory platform p.db next.category = false → next.state ≠ "hidden"

/-- A challenge with a deployment of the team is hidden by its category, if it is hidden. -/
def InstancesKept (teamId : Nat) : Prop :=
  ∀ e ∈ p.deployments, e.teamId = (teamId : Int) → e.dto.isSome = true →
    ∀ c, p.db.challenge e.challengeId = some c →
      isHiddenCategory platform p.db c.category = false → c.state ≠ "hidden"

/-- The file belongs to no hidden challenge, nor does the path lead to one that does; or there is
no file at the path. -/
def FileKept (path token : String) (userId : Nat) : Prop :=
  ∀ t file, FileService.checkToken platform path token userId = .ok t →
    FileService.findFile platform p.db path t.fileId = some file →
    let readable := FileService.isAllowed platform p.db file t.teamId &&
      FileService.isMounted platform (platform.fullPath path)
    (readable = true → p.isHiddenPath platform (platform.fullPath path) = false) ∧
      (ofHidden platform p.db file.challengeId = true →
        readable = true ∧ p.disk (platform.fullPath path) = none)

/-- A challenge of KYPO is hidden by its state, if it is hidden; or its start fails at Keycloak. -/
def StartKept (answers : Answers) (userId challengeId : Nat) : Prop :=
  ∀ user team c, p.db.user userId = some user → p.db.teamOf user = some team →
    p.db.challenge challengeId = some c →
    (isSandbox c || (p.db.kypoConfigs.find? fun k => k.challengeId = c.id).isSome) = true →
    isHiddenCategory platform p.db c.category = true → c.state ≠ "hidden" →
    hasKypoAccount p.db team.id = true ∧ answers.keycloak.throws = true

/-- When a request is answered without a hidden challenge. -/
def HiddenKept (answers : Answers) (session : Session) : ContestRequest → Prop
  | .list categoryName => ListKept platform p categoryName session.teamId
  | .detail challengeId => ∀ user, p.db.user session.userId = some user →
      DetailKept platform p challengeId user
  | .instances => InstancesKept platform p session.teamId
  | .file path token => FileKept platform p path token session.userId
  | .start challengeId => StartKept platform p answers session.userId challengeId
  | .status _ | .hints _ | .hint _ | .unlock .. | .attempt .. => True

end Condition

end Definitions

section Overwrite

variable {platform : Platform} {text : Option String} {keep : Bool} {p : Portal}

/-! ### What overwriting leaves as it is -/

/-- A search by what a change keeps. -/
theorem find?_map_of_keeps {α : Type} (f : α → α) (test : α → Bool)
    (hkeeps : ∀ a, test (f a) = test a)
    (l : List α) : (l.map f).find? test = (l.find? test).map f := by
  rw [List.find?_map]
  congr 2
  funext a
  exact hkeeps a

/-- A selection by what a change keeps. -/
theorem filter_map_of_keeps {α : Type} (f : α → α) (test : α → Bool)
    (hkeeps : ∀ a, test (f a) = test a) (l : List α) :
    (l.map f).filter test = (l.filter test).map f := by
  rw [List.filter_map]
  congr 2
  funext a
  exact hkeeps a

/-- The texts of a challenge, if it is hidden. -/
def overwriteHidden (platform : Platform) (db : Db) (text : Option String) :
    Challenge → Challenge :=
  alterIf (isHidden platform db) (Challenge.overwrite text)

/-- The connection data of a KYPO challenge, if it is hidden. -/
def overwriteConfig (platform : Platform) (db : Db) (text : Option String) :
    KypoChallengeConfig → KypoChallengeConfig :=
  alterIf (fun k => ofHidden platform db (some k.challengeId)) fun k =>
    { k with accessToken := text, instanceType := text.getD "", baseUrl := text }

/-- The address of a deployment, if its challenge is hidden. -/
def overwriteEntry (platform : Platform) (db : Db) (text : Option String) :
    CacheEntry → CacheEntry :=
  alterIf (fun e => ofHidden platform db (some e.challengeId)) (CacheEntry.overwrite text)

/-- The content of a hint, if its challenge is hidden. -/
def overwriteHint (platform : Platform) (db : Db) (text : Option String) : Hint → Hint :=
  alterIf (fun h => ofHidden platform db h.challengeId) fun h => { h with content := text }

theorem overwriteHidden_keeps {β : Type} (f : Challenge → β)
    (hkeeps : ∀ c, f (Challenge.overwrite text c) = f c) (db : Db) (c : Challenge) :
    f (overwriteHidden platform db text c) = f c := alterIf_keeps f hkeeps c

theorem overwriteEntry_keeps {β : Type} (f : CacheEntry → β)
    (hkeeps : ∀ e, f (CacheEntry.overwrite text e) = f e) (db : Db) (e : CacheEntry) :
    f (overwriteEntry platform db text e) = f e := alterIf_keeps f hkeeps e

theorem overwriteEntry_of_visible {db : Db} {e : CacheEntry}
    (h : ofHidden platform db (some e.challengeId) = false) :
    overwriteEntry platform db text e = e :=
  alterIf_of_open h

theorem overwriteEntry_of_hidden {db : Db} {e : CacheEntry}
    (h : ofHidden platform db (some e.challengeId) = true) :
    overwriteEntry platform db text e = e.overwrite text :=
  alterIf_of_secret h

theorem overwriteHint_keeps {β : Type} (f : Hint → β)
    (hkeeps : ∀ h : Hint, f { h with content := text } = f h) (db : Db) (h : Hint) :
    f (overwriteHint platform db text h) = f h := alterIf_keeps f hkeeps h

theorem overwriteHidden_id (db : Db) (c : Challenge) :
    (overwriteHidden platform db text c).id = c.id := overwriteHidden_keeps _ (fun _ => rfl) db c

theorem overwriteHidden_of_visible {db : Db} {c : Challenge} (h : isHidden platform db c = false) :
    overwriteHidden platform db text c = c := alterIf_of_open h

theorem overwriteHidden_isHidden (db : Db) (c : Challenge) :
    isHidden platform db (overwriteHidden platform db text c) = isHidden platform db c :=
  overwriteHidden_keeps _ (fun _ => rfl) db c

theorem isHidden_overwrite (c : Challenge) :
    isHidden platform (p.overwrite platform text keep).db c = isHidden platform p.db c := rfl

theorem challenges_overwrite : (p.overwrite platform text keep).db.challenges =
    p.db.challenges.map (overwriteHidden platform p.db text) := rfl

theorem challenge_overwrite (id : Nat) : (p.overwrite platform text keep).db.challenge id =
    (p.db.challenge id).map (overwriteHidden platform p.db text) := by
  unfold Db.challenge
  rw [challenges_overwrite, find?_map_of_keeps]
  intro c
  rw [overwriteHidden_id]

theorem challenge_overwrite_of_visible {id : Nat} {c : Challenge} (hc : p.db.challenge id = some c)
    (hvisible : isHidden platform p.db c = false) :
    (p.overwrite platform text keep).db.challenge id = some c := by
  rw [challenge_overwrite, hc, Option.map_some, overwriteHidden_of_visible hvisible]

theorem ofHidden_overwrite (id : Option Nat) :
    ofHidden platform (p.overwrite platform text keep).db id = ofHidden platform p.db id := by
  unfold ofHidden
  cases id with
  | none => rfl
  | some id =>
    rw [Option.bind_some, Option.bind_some, challenge_overwrite, Option.any_map]
    congr 1
    funext c
    exact overwriteHidden_isHidden p.db c

theorem isChallenge_overwrite :
    isChallenge (p.overwrite platform text keep).db = isChallenge p.db := by
  funext id
  unfold isChallenge
  rw [challenges_overwrite, List.any_map]
  congr 1
  funext c
  simp only [Function.comp_apply, overwriteHidden_id]

theorem solved_overwrite : solved (p.overwrite platform text keep).db = solved p.db := rfl

theorem isShown_overwrite :
    isShown platform (p.overwrite platform text keep).db = isShown platform p.db := by
  funext c teamId
  unfold isShown isUnlockedByPrerequisites
  rw [isChallenge_overwrite, solved_overwrite]

theorem ofHidden_of_challenge {db : Db} {id : Nat} {c : Challenge} (hc : db.challenge id = some c) :
    ofHidden platform db (some id) = isHidden platform db c := by
  unfold ofHidden
  rw [Option.bind_some, hc, Option.any_some]

/-- The rows of a challenge that is not hidden are kept. -/
theorem filter_rows_of_visible {α : Type} (rows : List α) (challengeId : α → Option Nat)
    {c : Challenge}
    (hc : p.db.challenge c.id = some c) (hvisible : isHidden platform p.db c = false) :
    (rows.filter fun r => keep || !ofHidden platform p.db (challengeId r)).filter
        (fun r => challengeId r = some c.id) =
      rows.filter fun r => challengeId r = some c.id := by
  rw [List.filter_filter]
  congr 1
  funext r
  by_cases hr : challengeId r = some c.id
  · rw [hr, ofHidden_of_challenge hc, hvisible]
    simp
  · simp [hr]

theorem entry_overwrite (challengeId : Nat) (teamId : Int) :
    (p.overwrite platform text keep).entry challengeId teamId =
      (p.entry challengeId teamId).map (overwriteEntry platform p.db text) :=
  find?_map_of_keeps (overwriteEntry platform p.db text)
    (fun e => e.challengeId = challengeId && e.teamId = teamId)
    (fun e => overwriteEntry_keeps (fun e => decide (e.challengeId = challengeId) &&
      decide (e.teamId = teamId)) (fun _ => rfl) p.db e) p.deployments

/-- A deployment is found under the challenge that it is of. -/
theorem challengeId_of_entry {challengeId : Nat} {teamId : Int} {e : CacheEntry}
    (he : p.entry challengeId teamId = some e) : e.challengeId = challengeId := by
  have hkey := List.find?_some he
  simp only [Bool.and_eq_true, decide_eq_true_eq] at hkey
  exact hkey.1

/-- The deployment of a challenge that is not hidden is kept. -/
theorem getFromCache_overwrite (challengeId : Nat) (teamId : Int)
    (h : ofHidden platform p.db (some challengeId) = false) :
    (p.overwrite platform text keep).getFromCache challengeId teamId =
      p.getFromCache challengeId teamId := by
  unfold Portal.getFromCache
  rw [entry_overwrite]
  cases hentry : p.entry challengeId teamId with
  | none => rfl
  | some e =>
    have hrow : ofHidden platform p.db (some e.challengeId) = false := by
      rw [challengeId_of_entry hentry, h]
    rw [Option.map_some, overwriteEntry_of_visible hrow]

theorem getFromCache_overwrite_of_hidden {challengeId : Nat} {teamId : Int}
    (h : ofHidden platform p.db (some challengeId) = true) :
    ((p.overwrite platform text keep).getFromCache challengeId teamId) =
      (p.getFromCache challengeId teamId).map fun d => { d with challenge_url := text } := by
  unfold Portal.getFromCache
  rw [entry_overwrite]
  cases hentry : p.entry challengeId teamId with
  | none => rfl
  | some e =>
    have hrow : ofHidden platform p.db (some e.challengeId) = true := by
      rw [challengeId_of_entry hentry, h]
    rw [Option.map_some, overwriteEntry_of_hidden hrow]
    rfl

/-! ### The endpoints that read challenges -/

theorem filter_files_of_visible {c : Challenge} (hc : p.db.challenge c.id = some c)
    (hvisible : isHidden platform p.db c = false) :
    (p.overwrite platform text keep).db.files.filter (fun f => f.challengeId = some c.id) =
      p.db.files.filter fun f => f.challengeId = some c.id :=
  filter_rows_of_visible p.db.files File.challengeId hc hvisible

theorem nextName_overwrite {c : Challenge}
    (hnext : ∀ next, c.nextId.bind p.db.challenge = some next →
      isHiddenCategory platform p.db next.category = false → next.state ≠ "hidden") :
    nextName platform (p.overwrite platform text keep).db c = nextName platform p.db c := by
  unfold nextName
  cases hid : c.nextId with
  | none => rfl
  | some id =>
    simp only [hid, Option.bind_some] at hnext
    simp only [Option.bind_eq_bind, Option.bind_some, challenge_overwrite]
    cases hfind : p.db.challenge id with
    | none => rfl
    | some next =>
      simp only [Option.map_some, Option.bind_some]
      have hcategory : (overwriteHidden platform p.db text next).category = next.category :=
        overwriteHidden_keeps _ (fun _ => rfl) _ _
      rw [hcategory]
      by_cases hhidden : isHiddenCategory platform p.db next.category = true
      · exact (if_pos hhidden).trans (if_pos hhidden).symm
      · have hshown : isHiddenCategory platform p.db next.category = false := by simpa using hhidden
        have hvisible : isHidden platform p.db next = false := by
          simp [isHidden, hshown, hnext next hfind hshown]
        rw [overwriteHidden_of_visible hvisible]
        exact (if_neg hhidden).trans (if_neg hhidden).symm

theorem challengeData_overwrite {c : Challenge} {user : Board.User} {team : Board.Account}
    (hc : p.db.challenge c.id = some c) (hvisible : isHidden platform p.db c = false)
    (hnext : ∀ next, c.nextId.bind p.db.challenge = some next →
      isHiddenCategory platform p.db next.category = false → next.state ≠ "hidden") :
    challengeData platform (p.overwrite platform text keep).db c user team =
      challengeData platform p.db c user team := by
  unfold challengeData
  rw [filter_files_of_visible hc hvisible, nextName_overwrite hnext]
  rfl

/-- What `GetById` answers for a challenge that is hidden. -/
theorem getById_of_hidden {challengeId : Nat} {user : Board.User} {c : Challenge}
    (hc : p.db.challenge challengeId = some c) (hhidden : isHidden platform p.db c = true) :
    getById platform p challengeId user = .error (404, "Challenge now is not available") := by
  unfold getById
  rw [hc]
  exact if_pos hhidden

/-- What `GetById` answers for a challenge that is not hidden. -/
theorem getById_of_visible {challengeId : Nat} (user : Board.User) {c : Challenge}
    (hc : p.db.challenge challengeId = some c) (hvisible : isHidden platform p.db c = false) :
    getById platform p challengeId user =
      if !isShown platform p.db c user.teamId then
        .error (403, "You don't have the permission to access this challenge. " ++
          "Complete the required challenges first.")
      else
        match p.db.teamOf user with
        | none => .error getById.nullReference
        | some team =>
          match p.getFromCache c.id (instanceTeam c user) with
          | none => .ok (challengeData platform p.db c user team, none)
          | some cached =>
            match p.db.user cached.user_id with
            | none => .error getById.nullReference
            | some starter => .ok (challengeData platform p.db c user team, some {
                message := "Challenge was started by: " ++ starter.name.getD ""
                podStatus := cached.status
                challengeUrl := cached.challenge_url
                timeRemaining := timeRemaining p cached.time_finished }) := by
  unfold getById
  simp only [hc]
  rw [if_neg (by rw [← isHidden, hvisible]; exact Bool.false_ne_true)]
  cases hcache : p.getFromCache c.id (instanceTeam c user) with
  | none => rfl
  | some cached =>
    obtain ⟨e, he, hdto⟩ := Option.bind_eq_some_iff.mp hcache
    have hkey := List.find?_some he
    simp only [Bool.and_eq_true, decide_eq_true_eq] at hkey
    have hown : cached.challenge_id = c.id := (e.own cached hdto).trans hkey.1
    cases isShown platform p.db c user.teamId with
    | false => rfl
    | true =>
      cases p.db.teamOf user with
      | none => rfl
      | some team => exact if_pos hown

theorem getById_overwrite {challengeId : Nat} {user : Board.User}
    (h : DetailKept platform p challengeId user) :
    getById platform (p.overwrite platform text keep) challengeId user =
      getById platform p challengeId user := by
  cases hc : p.db.challenge challengeId with
  | none =>
    have hc' : (p.overwrite platform text keep).db.challenge challengeId = none := by
      rw [challenge_overwrite, hc]
      rfl
    unfold getById
    rw [hc, hc']
  | some c =>
    cases hv : isHidden platform p.db c with
    | true =>
      have hc' : (p.overwrite platform text keep).db.challenge challengeId =
          some (overwriteHidden platform p.db text c) := by
        rw [challenge_overwrite, hc]
        rfl
      have hv' : isHidden platform (p.overwrite platform text keep).db
          (overwriteHidden platform p.db text c) = true := by
        rw [isHidden_overwrite, overwriteHidden_isHidden, hv]
      rw [getById_of_hidden hc hv, getById_of_hidden hc' hv']
    | false =>
      have hid := challenge_id hc
      rw [hid.symm] at hc
      have hrow : ofHidden platform p.db (some c.id) = false := by
        rw [ofHidden_of_challenge hc, hv]
      rw [← hid, getById_of_visible _ (challenge_overwrite_of_visible hc hv) hv,
        getById_of_visible _ hc hv, isShown_overwrite, getFromCache_overwrite _ _ hrow]
      have hteam : (p.overwrite platform text keep).db.teamOf user = p.db.teamOf user := rfl
      have husers : (p.overwrite platform text keep).db.user = p.db.user := rfl
      rw [hteam, husers]
      cases hs : isShown platform p.db c user.teamId with
      | false => rfl
      | true =>
        cases ht : p.db.teamOf user with
        | none => rfl
        | some team =>
          have hdata : (∀ d ∈ p.getFromCache c.id (instanceTeam c user),
              (p.db.user d.user_id).isSome = true) →
              challengeData platform (p.overwrite platform text keep).db c user team =
                challengeData platform p.db c user team := by
            intro hstarter
            apply challengeData_overwrite hc hv
            intro next
            exact h c next (hid ▸ hc) hv hs (by rw [ht]; rfl) hstarter
          cases hcache : p.getFromCache c.id (instanceTeam c user) with
          | none =>
            rw [hcache] at hdata
            simp only [hdata (by intro d hd; cases hd)]
          | some cached =>
            cases hu : p.db.user cached.user_id with
            | none => simp only [hu]
            | some starter =>
              rw [hcache] at hdata
              have hsame := hdata (by
                intro d hd
                obtain rfl := Option.some.inj hd
                rw [hu]
                rfl)
              simp only [hu, hsame]
              rfl

/-- The list is of the same challenges, whatever their texts. -/
theorem listed_overwrite (categoryName : String) (teamId : Nat) :
    listed platform (p.overwrite platform text keep) categoryName teamId =
      (listed platform p categoryName teamId).map (overwriteHidden platform p.db text) := by
  unfold listed
  simp only [challenges_overwrite, isShown_overwrite]
  rw [filter_map_of_keeps, filter_map_of_keeps]
  · exact overwriteHidden_keeps (fun c => isShown platform p.db c (some teamId)) (fun _ => rfl) p.db
  · exact overwriteHidden_keeps (fun c => c.category.any (platform.collation.eq · categoryName) &&
      !platform.collation.eq c.state "hidden") (fun _ => rfl) p.db

/-- The item of a challenge depends on no text but its own. -/
theorem listItem_overwrite (teamId : Nat) (c : Challenge) :
    listItem platform (p.overwrite platform text keep) teamId c = listItem platform p teamId c := by
  have hstatus : ((p.overwrite platform text keep).getFromCache c.id teamId).bind (·.status) =
      (p.getFromCache c.id teamId).bind (·.status) := by
    unfold Portal.getFromCache
    rw [entry_overwrite]
    cases p.entry c.id teamId with
    | none => rfl
    | some e =>
      rw [Option.map_some, Option.bind_some, Option.bind_some]
      refine alterIf_keeps (fun e : CacheEntry => e.dto.bind (·.status)) ?_ e
      rintro ⟨challengeId, teamId, dto, hown⟩
      cases dto <;> rfl
  unfold listItem
  rw [isChallenge_overwrite, hstatus]
  rfl

theorem getChallengeByCategories_overwrite {categoryName : String} {teamId : Nat}
    (h : ListKept platform p categoryName teamId) :
    getChallengeByCategories platform (p.overwrite platform text keep) categoryName teamId =
      getChallengeByCategories platform p categoryName teamId := by
  unfold getChallengeByCategories
  by_cases hcategory : isHiddenCategory platform p.db (some categoryName) = true
  · exact (if_pos hcategory).trans (if_pos hcategory).symm
  · have hvisible := h.resolve_left hcategory
    refine (if_neg hcategory).trans (Eq.trans ?_ (if_neg hcategory).symm)
    rw [listed_overwrite, List.map_map]
    apply List.map_congr_left
    intro c hc
    rw [Function.comp_apply, overwriteHidden_of_visible (hvisible c hc), listItem_overwrite]

theorem deployments_overwrite : (p.overwrite platform text keep).deployments =
    p.deployments.map (overwriteEntry platform p.db text) := rfl

/-- The instances of a team, item by item. -/
theorem getAllInstances_overwrite_eq (teamId : Nat) :
    getAllInstances platform (p.overwrite platform text keep) teamId =
      (p.deployments.filter fun e => e.teamId = (teamId : Int)).filterMap fun e =>
        instanceItem platform (p.overwrite platform text keep)
          (overwriteEntry platform p.db text e) := by
  unfold getAllInstances
  rw [deployments_overwrite, filter_map_of_keeps, List.filterMap_map]
  · rfl
  · exact overwriteEntry_keeps (fun e => decide (e.teamId = (teamId : Int))) (fun _ => rfl) p.db

/-- The instance of a challenge that is not hidden, or hidden by its category. -/
theorem instanceItem_overwrite {e : CacheEntry}
    (h : e.dto.isSome = true → ∀ c, p.db.challenge e.challengeId = some c →
      isHiddenCategory platform p.db c.category = false → c.state ≠ "hidden") :
    instanceItem platform (p.overwrite platform text keep) (overwriteEntry platform p.db text e) =
      instanceItem platform p e := by
  obtain ⟨challengeId, teamId, dto, hown⟩ := e
  cases dto with
  | none =>
    cases hrow : ofHidden platform p.db (some challengeId) with
    | true =>
      rw [overwriteEntry_of_hidden hrow]
      rfl
    | false =>
      rw [overwriteEntry_of_visible hrow]
      rfl
  | some cached =>
    have hid : cached.challenge_id = challengeId := hown cached rfl
    have hcases := h rfl
    simp only at hcases
    cases hc : p.db.challenge challengeId with
    | none =>
      have hnone : ofHidden platform p.db (some challengeId) = false := by
        simp [ofHidden, hc]
      rw [overwriteEntry_of_visible hnone]
      have hc' : (p.overwrite platform text keep).db.challenge challengeId = none := by
        rw [challenge_overwrite, hc]
        rfl
      unfold instanceItem
      simp [hid, hc, hc']
    | some c =>
      cases hv : isHidden platform p.db c with
      | false =>
        rw [overwriteEntry_of_visible ((ofHidden_of_challenge hc).trans hv)]
        unfold instanceItem
        simp only [hid, hc, challenge_overwrite_of_visible hc hv, Option.bind_eq_bind,
          Option.bind_some]
        rfl
      | true =>
        have hcategory : isHiddenCategory platform p.db c.category = true := by
          by_contra hshown
          have hstate := hcases c hc (by simpa using hshown)
          rw [isHidden] at hv
          simp [hshown, hstate] at hv
        have hc' : (p.overwrite platform text keep).db.challenge challengeId =
            some (overwriteHidden platform p.db text c) := by
          rw [challenge_overwrite, hc]
          rfl
        have hcategory' : isHiddenCategory platform (p.overwrite platform text keep).db
            (overwriteHidden platform p.db text c).category = true := by
          rw [overwriteHidden_keeps Challenge.category fun _ => rfl]
          exact hcategory
        rw [overwriteEntry_of_hidden ((ofHidden_of_challenge hc).trans hv)]
        unfold instanceItem CacheEntry.overwrite
        simp only [hid, hc, hc', Option.bind_eq_bind, Option.bind_some, Option.map_some]
        rw [if_pos hcategory, if_pos hcategory']

theorem getAllInstances_overwrite {teamId : Nat} (h : InstancesKept platform p teamId) :
    getAllInstances platform (p.overwrite platform text keep) teamId =
      getAllInstances platform p teamId := by
  rw [getAllInstances_overwrite_eq]
  unfold getAllInstances
  apply List.filterMap_congr
  intro e he
  obtain ⟨hmem, hteam⟩ := List.mem_filter.mp he
  exact instanceItem_overwrite fun hdto => h e hmem (by simpa using hteam) hdto

theorem checkChallengeStart_overwrite (challengeId : Nat) (teamId : Int) :
    checkChallengeStart platform (p.overwrite platform text keep) challengeId teamId =
      checkChallengeStart platform p challengeId teamId := by
  unfold checkChallengeStart
  rw [challenge_overwrite]
  cases hc : p.db.challenge challengeId with
  | none => rfl
  | some c =>
    rw [Option.map_some]
    cases hv : isHidden platform p.db c with
    | false =>
      have hrow : ofHidden platform p.db (some challengeId) = false := by
        rw [ofHidden_of_challenge hc, hv]
      rw [overwriteHidden_of_visible hv, getFromCache_overwrite _ _ hrow]
      rfl
    | true =>
      have hv' : isHidden platform (p.overwrite platform text keep).db
          (overwriteHidden platform p.db text c) = true := by
        rw [isHidden_overwrite, overwriteHidden_isHidden, hv]
      exact (if_pos hv').trans (if_pos hv).symm

theorem checkStatus_overwrite (session : Session) (challengeId : Nat) :
    checkStatus platform (p.overwrite platform text keep) session challengeId =
      checkStatus platform p session challengeId := by
  unfold checkStatus
  have husers : (p.overwrite platform text keep).db.user = p.db.user := rfl
  have hteams : (p.overwrite platform text keep).db.teamOf = p.db.teamOf := rfl
  rw [husers, hteams]
  cases (p.db.user session.userId).bind p.db.teamOf with
  | none => rfl
  | some team =>
    rw [challenge_overwrite]
    cases hc : p.db.challenge challengeId with
    | none => rfl
    | some c =>
      simp only [Option.map_some, overwriteHidden_id, checkChallengeStart_overwrite]
      rw [overwriteHidden_keeps Challenge.sharedInstant fun _ => rfl]

/-! ### Hints -/

theorem hints_overwrite : (p.overwrite platform text keep).db.hints =
    p.db.hints.map (overwriteHint platform p.db text) := rfl

theorem hint_overwrite (id : Nat) : (p.overwrite platform text keep).db.hint id =
    (p.db.hint id).map (overwriteHint platform p.db text) :=
  find?_map_of_keeps (overwriteHint platform p.db text) (fun h => h.id = id)
    (overwriteHint_keeps (fun h => decide (h.id = id)) (fun _ => rfl) p.db) p.db.hints

theorem overwriteHint_challengeId (h : Hint) :
    (overwriteHint platform p.db text h).challengeId = h.challengeId :=
  overwriteHint_keeps Hint.challengeId (fun _ => rfl) p.db h

theorem challengeOf_overwrite (h : Hint) :
    (p.overwrite platform text keep).db.challengeOf (overwriteHint platform p.db text h) =
      (p.db.challengeOf h).map (overwriteHidden platform p.db text) := by
  unfold Db.challengeOf
  rw [overwriteHint_challengeId]
  cases h.challengeId with
  | none => rfl
  | some id => exact challenge_overwrite id

theorem isHidden_of_isVisible {db : Db} {c : Challenge} (h : isVisible platform db c = true) :
    isHidden platform db c = false := by
  unfold isVisible at h
  unfold isHidden
  simp only [Bool.and_eq_true, decide_eq_true_eq, Bool.not_eq_true'] at h
  rw [h.1, h.2]
  rfl

theorem isVisible_overwriteHidden (c : Challenge) :
    isVisible platform (p.overwrite platform text keep).db (overwriteHidden platform p.db text c) =
      isVisible platform p.db c :=
  overwriteHidden_keeps (isVisible platform p.db) (fun _ => rfl) p.db c

/-- The hint of a challenge that is not hidden. -/
theorem overwriteHint_of_visible {h : Hint} {c : Challenge} (hc : p.db.challengeOf h = some c)
    (hvisible : isHidden platform p.db c = false) : overwriteHint platform p.db text h = h := by
  apply alterIf_of_open
  unfold ofHidden
  rw [← Db.challengeOf, hc, Option.any_some, hvisible]

theorem getHintById_overwrite (hintId userId : Nat) :
    getHintById platform (p.overwrite platform text keep).db hintId userId =
      getHintById platform p.db hintId userId := by
  unfold getHintById
  simp only [Option.bind_eq_bind, hint_overwrite]
  cases hh : p.db.hint hintId with
  | none => rfl
  | some h =>
    simp only [Option.map_some, Option.bind_some, challengeOf_overwrite]
    cases hc : p.db.challengeOf h with
    | none => rfl
    | some c =>
      simp only [Option.map_some, Option.bind_some, isVisible_overwriteHidden]
      cases hv : isVisible platform p.db c with
      | false => rfl
      | true =>
        rw [overwriteHint_of_visible hc (isHidden_of_isVisible hv)]
        rfl

theorem getHintsByChallengeId_overwrite (challengeId userId : Nat) :
    getHintsByChallengeId platform (p.overwrite platform text keep) challengeId userId =
      getHintsByChallengeId platform p challengeId userId := by
  unfold getHintsByChallengeId
  rw [challenge_overwrite]
  cases p.db.challenge challengeId with
  | none => rfl
  | some c =>
    rw [Option.map_some]
    simp only [isVisible_overwriteHidden]
    cases isVisible platform p.db c with
    | false => rfl
    | true =>
      have hrows : (p.overwrite platform text keep).db.hints.filter
          (fun h => h.challengeId = some challengeId) =
          (p.db.hints.filter fun h => h.challengeId = some challengeId).map
            (overwriteHint platform p.db text) := by
        rw [hints_overwrite, filter_map_of_keeps]
        intro h
        rw [overwriteHint_challengeId]
      rw [if_pos rfl, if_pos rfl, hrows, List.map_map]
      apply List.map_congr_left
      intro h _
      exact overwriteHint_keeps (fun h => HintSummaryDTO.mk h.id h.cost
        (h.cost.getD 0 ≤ 0 || (p.db.user userId).any (unlocked platform p.db h)))
        (fun _ => rfl) p.db h

theorem ensureUnlockable_overwrite (h : Hint) (type : String) (user : Board.User) :
    ensureUnlockable platform (p.overwrite platform text keep).db h type user =
      ensureUnlockable platform p.db h type user := by
  have hfree : ((p.overwrite platform text keep).db.hints.filter fun h =>
      h.cost = none || h.cost = some 0).map Hint.id =
      (p.db.hints.filter fun h => h.cost = none || h.cost = some 0).map Hint.id := by
    rw [hints_overwrite, filter_map_of_keeps, List.map_map]
    · exact List.map_congr_left fun h _ => overwriteHint_keeps Hint.id (fun _ => rfl) p.db h
    · exact overwriteHint_keeps (fun h => decide (h.cost = none) || decide (h.cost = some 0))
        (fun _ => rfl) p.db
  have hany : ∀ id : Int,
      ((p.overwrite platform text keep).db.hints.any fun h => (h.id : Int) = id) =
      p.db.hints.any fun h => (h.id : Int) = id := by
    intro id
    rw [hints_overwrite, List.any_map]
    congr 1
    funext h
    exact overwriteHint_keeps (fun h => decide ((h.id : Int) = id)) (fun _ => rfl) p.db h
  unfold ensureUnlockable ensureHintPrerequisitesUnlocked
  simp only [hfree, hany]
  rfl

theorem ensureChallengePrerequisitesUnlocked_overwrite (c : Challenge) (user : Board.User) :
    ensureChallengePrerequisitesUnlocked platform (p.overwrite platform text keep).db c user =
      ensureChallengePrerequisitesUnlocked platform p.db c user := by
  have hany : ∀ id : Int,
      ((p.overwrite platform text keep).db.challenges.any fun c => (c.id : Int) = id) =
        p.db.challenges.any fun c => (c.id : Int) = id :=
    fun id => congrFun isChallenge_overwrite id
  unfold ensureChallengePrerequisitesUnlocked
  simp only [hany]
  rfl

theorem postUnlock_overwrite (answers : Answers) (session : Session) (type : String)
    (target : Nat) :
    postUnlock platform answers (p.overwrite platform text keep) session type target =
      postUnlock platform answers p session type target := by
  unfold postUnlock
  rw [hint_overwrite]
  cases hh : p.db.hint target with
  | none => rfl
  | some h =>
    simp only [Option.map_some, challengeOf_overwrite]
    cases hc : p.db.challengeOf h with
    | none => rfl
    | some c =>
      simp only [Option.map_some]
      cases hv : isHidden platform p.db c with
      | true =>
        have hv' : isHidden platform (p.overwrite platform text keep).db
            (overwriteHidden platform p.db text c) = true := by
          rw [isHidden_overwrite, overwriteHidden_isHidden, hv]
        congr 1
        exact (if_pos hv').trans (if_pos hv).symm
      | false =>
        rw [overwriteHidden_of_visible hv, overwriteHint_of_visible hc hv]
        have hunlock : ∀ user, unlockHint platform answers (p.overwrite platform text keep) type h c
            user = unlockHint platform answers p type h c user := by
          intro user
          unfold unlockHint unlockLocked unlockPast
          rw [ensureChallengePrerequisitesUnlocked_overwrite, ensureUnlockable_overwrite]
          rfl
        simp only [hunlock]
        rfl

/-! ### Files -/

/-- The first match is found in a selection that keeps it. -/
theorem find?_filter_of_keeps {α : Type} {test keeps : α → Bool} {l : List α} {a : α}
    (h : l.find? test = some a) (ha : keeps a = true) : (l.filter keeps).find? test = some a := by
  induction l with
  | nil => cases h
  | cons b l ih =>
    by_cases htest : test b = true
    · rw [List.find?_cons_of_pos htest] at h
      obtain rfl := Option.some.inj h
      rw [List.filter_cons_of_pos ha, List.find?_cons_of_pos htest]
    · rw [List.find?_cons_of_neg htest] at h
      by_cases hb : keeps b = true
      · rw [List.filter_cons_of_pos hb, List.find?_cons_of_neg htest]
        exact ih h
      · rw [List.filter_cons_of_neg hb]
        exact ih h

theorem find?_filter_of_none {α : Type} {test keeps : α → Bool} {l : List α}
    (h : l.find? test = none) : (l.filter keeps).find? test = none := by
  rw [List.find?_eq_none] at h ⊢
  intro a ha
  exact h a (List.mem_of_mem_filter ha)

theorem prerequisitesMet_overwrite : FileService.prerequisitesMet platform
    (p.overwrite platform text keep).db = FileService.prerequisitesMet platform p.db := by
  funext c teamId
  unfold FileService.prerequisitesMet
  simp only [isChallenge_overwrite, solved_overwrite]

/-- Whether a file may be read depends on no text. -/
theorem isAllowed_overwrite : FileService.isAllowed platform (p.overwrite platform text keep).db =
    FileService.isAllowed platform p.db := by
  funext file teamId
  unfold FileService.isAllowed
  rw [prerequisitesMet_overwrite]
  cases file.challengeId with
  | none => rfl
  | some id =>
    rw [Option.bind_some, Option.bind_some, challenge_overwrite]
    cases p.db.challenge id with
    | none => rfl
    | some c =>
      rw [Option.map_some]
      by_cases hv : isHidden platform p.db c = true
      · rw [overwriteHidden, alterIf_of_secret hv]
        rfl
      · rw [overwriteHidden_of_visible (by simpa using hv)]

/-- Without the files of hidden challenges, such a file is not found. -/
theorem findFile_erase_of_hidden {path : String} {fileId : Nat} {file : File}
    (hfile : FileService.findFile platform p.db path fileId = some file)
    (hhidden : ofHidden platform p.db file.challengeId = true) :
    FileService.findFile platform (p.erase platform).db path fileId = none := by
  have hid : file.id = fileId := by
    have := List.find?_some hfile
    simp only [Bool.and_eq_true, decide_eq_true_eq] at this
    exact this.2
  unfold FileService.findFile
  rw [List.find?_eq_none]
  intro other hother hmatch
  obtain ⟨hmem, hkept⟩ := List.mem_filter.mp hother
  simp only [Bool.and_eq_true, decide_eq_true_eq] at hmatch
  have hsame : other = file :=
    List.inj_on_of_nodup_map p.db.files_pk hmem (List.mem_of_find?_eq_some hfile)
      (hmatch.2.trans hid.symm)
  rw [hsame, hhidden] at hkept
  cases hkept

theorem findFile_erase_of_visible {path : String} {fileId : Nat} {file : File}
    (hfile : FileService.findFile platform p.db path fileId = some file)
    (hvisible : ofHidden platform p.db file.challengeId = false) :
    FileService.findFile platform (p.erase platform).db path fileId = some file :=
  find?_filter_of_keeps hfile (by rw [hvisible]; rfl)

/-- `GetFileAsync` once its token and its path are checked. -/
theorem getFile_of_token {path token : String} {userId : Nat} {t : FileToken}
    (ht : FileService.checkToken platform path token userId = .ok t) :
    FileService.getFile platform p path token userId =
      match FileService.findFile platform p.db path t.fileId with
      | none => .error "File not found"
      | some file =>
        if FileService.isAllowed platform p.db file t.teamId then FileService.read platform p path
        else .error "Access denied" := by
  unfold FileService.getFile
  rw [ht]
  rfl

theorem getFile_of_refused {path token message : String} {userId : Nat}
    (ht : FileService.checkToken platform path token userId = .error message) :
    FileService.getFile platform p path token userId = .error message := by
  unfold FileService.getFile
  rw [ht]
  rfl

theorem disk_overwrite (path : String) : (p.overwrite platform text keep).disk path =
    if p.isHiddenPath platform path then text else p.disk path := rfl

theorem read_overwrite {path : String}
    (h : FileService.isMounted platform (platform.fullPath path) = true →
      p.isHiddenPath platform (platform.fullPath path) = false) :
    FileService.read platform (p.overwrite platform text keep) path =
      FileService.read platform p path := by
  unfold FileService.read
  simp only
  cases hmounted : FileService.isMounted platform (platform.fullPath path) with
  | false => rfl
  | true =>
    rw [disk_overwrite, h hmounted]
    rfl

theorem getFile_erase {path token : String} {userId : Nat}
    (h : FileKept platform p path token userId) :
    FileService.getFile platform (p.erase platform) path token userId =
      FileService.getFile platform p path token userId := by
  cases ht : FileService.checkToken platform path token userId with
  | error message => rw [getFile_of_refused ht, getFile_of_refused ht]
  | ok t =>
    rw [getFile_of_token ht, getFile_of_token ht]
    cases hfile : FileService.findFile platform p.db path t.fileId with
    | none =>
      have hnone : FileService.findFile platform (p.erase platform).db path t.fileId = none :=
        find?_filter_of_none hfile
      rw [hnone]
    | some file =>
      obtain ⟨hpath, hmissing⟩ := h t file ht hfile
      have hallowed : FileService.isAllowed platform (p.erase platform).db =
        FileService.isAllowed platform p.db := isAllowed_overwrite
      cases hrow : ofHidden platform p.db file.challengeId with
      | true =>
        obtain ⟨hreadable, hdisk⟩ := hmissing hrow
        rw [Bool.and_eq_true] at hreadable
        rw [findFile_erase_of_hidden hfile hrow]
        simp only [hreadable.1, if_true, FileService.read, hreadable.2, hdisk]
      | false =>
        rw [findFile_erase_of_visible hfile hrow]
        simp only [hallowed]
        cases hopen : FileService.isAllowed platform p.db file t.teamId with
        | false => rw [if_neg Bool.false_ne_true, if_neg Bool.false_ne_true]
        | true =>
          rw [if_pos rfl, if_pos rfl]
          apply read_overwrite
          intro hmounted
          exact hpath (by rw [hopen, hmounted]; rfl)

/-! ### Starts and attempts -/

theorem requirementsMet_overwrite : requirementsMet platform (p.overwrite platform text keep).db =
    requirementsMet platform p.db := by
  funext c teamId
  unfold requirementsMet
  simp only [isChallenge_overwrite, solved_overwrite]

theorem kypoConfig_overwrite (challengeId : Nat) :
    ((p.overwrite platform text keep).db.kypoConfigs.find? fun k => k.challengeId = challengeId) =
      (p.db.kypoConfigs.find? fun k => k.challengeId = challengeId).map
        (overwriteConfig platform p.db text) :=
  find?_map_of_keeps (overwriteConfig platform p.db text) (fun k => k.challengeId = challengeId)
    (alterIf_keeps (fun k : KypoChallengeConfig => decide (k.challengeId = challengeId))
      fun _ => rfl) p.db.kypoConfigs

theorem kypoConfig_overwrite_of_visible {c : Challenge} (hc : p.db.challenge c.id = some c)
    (hvisible : isHidden platform p.db c = false) :
    ((p.overwrite platform text keep).db.kypoConfigs.find? fun k => k.challengeId = c.id) =
      p.db.kypoConfigs.find? fun k => k.challengeId = c.id := by
  rw [kypoConfig_overwrite]
  cases hfind : p.db.kypoConfigs.find? fun k => k.challengeId = c.id with
  | none => rfl
  | some k =>
    have hid : k.challengeId = c.id := by simpa using List.find?_some hfind
    have hrow : ofHidden platform p.db (some k.challengeId) = false := by
      rw [hid, ofHidden_of_challenge hc, hvisible]
    have hsame : overwriteConfig platform p.db text k = k := alterIf_of_open hrow
    rw [Option.map_some, hsame]

theorem startRefusal_overwrite (user : Board.User) (teamId : Nat) (c : Challenge) :
    startRefusal platform (p.overwrite platform text keep).db user teamId c =
      startRefusal platform p.db user teamId c := by
  unfold startRefusal
  rw [requirementsMet_overwrite]
  rfl

/-- An ordinary start of a hidden challenge is refused, whatever its texts. -/
theorem startRefusal_of_hidden {db : Db} {user : Board.User} {teamId : Nat} {c : Challenge}
    (hhidden : isHidden platform db c = true) : startRefusal platform db user teamId c =
      if !c.requireDeploy then some (.refused 400 "This challenge does not require deploy")
      else some (.refused 400 "This challenge is not available for deployment") := by
  unfold startRefusal
  have hgate : (decide (c.state = "hidden") || isHiddenCategory platform db c.category ||
      c.sharedInstant) = true := by
    rw [← isHidden, hhidden]
    rfl
  rw [if_pos hgate]

theorem startChallenge_overwrite {answers : Answers} {session : Session} {challengeId : Nat}
    (h : StartKept platform p answers session.userId challengeId) :
    startChallenge platform answers (p.overwrite platform text keep) session challengeId =
      startChallenge platform answers p session challengeId := by
  unfold startChallenge
  have husers : (p.overwrite platform text keep).db.user = p.db.user := rfl
  have hteams : (p.overwrite platform text keep).db.teamOf = p.db.teamOf := rfl
  rw [husers, hteams, challenge_overwrite]
  cases hu : p.db.user session.userId with
  | none => rfl
  | some user =>
    cases ht : p.db.teamOf user with
    | none => simp only [ht]
    | some team =>
      cases hc : p.db.challenge challengeId with
      | none => simp only [ht, Option.map_none]
      | some c =>
        have hid := challenge_id hc
        simp only [ht, Option.map_some]
        cases hv : isHidden platform p.db c with
        | false =>
          have hc' : p.db.challenge c.id = some c := by
            rw [hid]
            exact hc
          have hrow : ofHidden platform p.db (some c.id) = false := by
            rw [ofHidden_of_challenge hc', hv]
          rw [overwriteHidden_of_visible hv, kypoConfig_overwrite_of_visible hc' hv]
          have hkypo : ∀ config, startKypo platform answers (p.overwrite platform text keep) user
              team.id c config = startKypo platform answers p user team.id c config := by
            intro config
            unfold startKypo
            rw [getFromCache_overwrite _ _ hrow]
            rfl
          have hordinary : startOrdinary platform answers (p.overwrite platform text keep) user
              team.id c = startOrdinary platform answers p user team.id c := by
            unfold startOrdinary alreadyExists
            rw [startRefusal_overwrite, getFromCache_overwrite _ _ hrow]
            rfl
          rw [hkypo, hordinary]
        | true =>
          have hsandbox : isSandbox (overwriteHidden platform p.db text c) = isSandbox c :=
            overwriteHidden_keeps isSandbox (fun _ => rfl) p.db c
          have hstate : (overwriteHidden platform p.db text c).state = c.state :=
            overwriteHidden_keeps Challenge.state (fun _ => rfl) p.db c
          have hdeploy : (overwriteHidden platform p.db text c).requireDeploy = c.requireDeploy :=
            overwriteHidden_keeps Challenge.requireDeploy (fun _ => rfl) p.db c
          have hv' : isHidden platform (p.overwrite platform text keep).db
              (overwriteHidden platform p.db text c) = true := by
            rw [isHidden_overwrite, overwriteHidden_isHidden, hv]
          rw [overwriteHidden_id, hsandbox, kypoConfig_overwrite, Option.isSome_map]
          by_cases hkypo : (isSandbox c ||
              (p.db.kypoConfigs.find? fun k => k.challengeId = c.id).isSome) = true
          · rw [if_pos hkypo, if_pos hkypo]
            unfold startKypo
            rw [hstate]
            by_cases hhidden : c.state = "hidden"
            · rw [if_pos hhidden, if_pos hhidden]
            · rw [if_neg hhidden, if_neg hhidden]
              have hcategory : isHiddenCategory platform p.db c.category = true := by
                rw [isHidden] at hv
                simpa [hhidden] using hv
              obtain ⟨haccount, hthrows⟩ := h user team c hu ht hc hkypo hcategory hhidden
              obtain ⟨fault, hfailed⟩ := TokenReply.throws_iff.mp hthrows
              have haccount' : hasKypoAccount (p.overwrite platform text keep).db team.id = true :=
                haccount
              rw [kypoBridge_of_failed haccount hfailed, kypoBridge_of_failed haccount' hfailed]
          · rw [if_neg hkypo, if_neg hkypo]
            unfold startOrdinary
            rw [startRefusal_of_hidden hv, startRefusal_of_hidden hv', hdeploy]
            cases c.requireDeploy <;> rfl

theorem attempt_overwrite (answers : Answers) (session : Session) (challengeId : Nat)
    (submission : Option String) :
    attempt platform answers (p.overwrite platform text keep) session challengeId submission =
      attempt platform answers p session challengeId submission := by
  unfold attempt
  have husers : (p.overwrite platform text keep).db.user = p.db.user := rfl
  rw [husers, challenge_overwrite]
  cases p.db.user session.userId with
  | none => rfl
  | some user =>
    cases hc : p.db.challenge challengeId with
    | none => rfl
    | some c =>
      have hid := challenge_id hc
      rw [Option.map_some]
      cases hv : isHidden platform p.db c with
      | false =>
        have hc' : p.db.challenge c.id = some c := by
          rw [hid]
          exact hc
        have hflags : (p.overwrite platform text keep).db.flags.filter
            (fun f => f.challengeId = some c.id) =
            p.db.flags.filter fun f => f.challengeId = some c.id :=
          filter_rows_of_visible p.db.flags Flag.challengeId hc' hv
        rw [overwriteHidden_of_visible hv]
        simp only [hflags, requirementsMet_overwrite]
        rfl
      | true =>
        have hv' : isHidden platform (p.overwrite platform text keep).db
            (overwriteHidden platform p.db text c) = true := by
          rw [isHidden_overwrite, overwriteHidden_isHidden, hv]
        have hcooldown : cooldownLeft answers (p.overwrite platform text keep)
            (overwriteHidden platform p.db text c) = cooldownLeft answers p c := by
          exact overwriteHidden_keeps (cooldownLeft answers p) (fun _ => rfl) p.db c
        rw [isHidden] at hv hv'
        simp only [hcooldown, if_pos hv, if_pos hv']
        rfl

end Overwrite

end Fctf.Contest
