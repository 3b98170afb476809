import Fctf.Contest.Hidden

/-!
Hidden challenges stay hidden, exactly where no endpoint answers with one.
-/

namespace Fctf.Contest

open Erasure HintService ChallengeService

section Proof

variable {platform : Platform} {answers : Answers} {p : Portal} {session : Session}
  {text : Option String} {keep : Bool}

/-! ### Overwriting and erasing -/

theorem isHiddenPath_overwrite (path : String) :
    (p.overwrite platform text true).isHiddenPath platform path = p.isHiddenPath platform path := by
  have hfiles : (p.overwrite platform text true).db.files = p.db.files := by
    simp [Portal.overwrite]
  unfold Portal.isHiddenPath
  rw [hfiles]
  congr 1
  funext f
  rw [ofHidden_overwrite]

/-! What is overwritten a second time keeps nothing of the first text. -/

theorem overwriteHidden_twice (text' : Option String) (c : Challenge) :
    overwriteHidden platform (p.overwrite platform text keep).db text'
      (overwriteHidden platform p.db text c) = overwriteHidden platform p.db text' c := by
  refine alterIf_twice isHidden_overwrite ?_ ?_ c <;> exact fun _ => rfl

theorem overwriteHint_twice (text' : Option String) (h : Hint) :
    overwriteHint platform (p.overwrite platform text keep).db text'
      (overwriteHint platform p.db text h) = overwriteHint platform p.db text' h := by
  refine alterIf_twice (fun h => ofHidden_overwrite h.challengeId) ?_ ?_ h <;> exact fun _ => rfl

theorem overwriteConfig_twice (text' : Option String) (k : KypoChallengeConfig) :
    overwriteConfig platform (p.overwrite platform text keep).db text'
      (overwriteConfig platform p.db text k) = overwriteConfig platform p.db text' k := by
  refine alterIf_twice (fun k => ofHidden_overwrite (some k.challengeId)) ?_ ?_ k <;>
    exact fun _ => rfl

theorem overwriteEntry_twice (text' : Option String) (e : CacheEntry) :
    overwriteEntry platform (p.overwrite platform text keep).db text'
      (overwriteEntry platform p.db text e) = overwriteEntry platform p.db text' e := by
  refine alterIf_twice (fun e => ofHidden_overwrite (some e.challengeId)) ?_ ?_ e
  · exact fun _ => rfl
  · rintro ⟨challengeId, teamId, dto, hown⟩
    cases dto <;> rfl

theorem filter_twice {α : Type} {test test' : α → Bool} (htest : ∀ a, test' a = test a)
    (l : List α) :
    (l.filter fun a => keep || !test a).filter (fun a => false || !test' a) =
      l.filter fun a => false || !test a := by
  rw [List.filter_filter]
  congr 1
  funext a
  rw [htest]
  cases keep <;> simp

theorem isHiddenPath_erase (path : String) :
    (p.erase platform).isHiddenPath platform path = false := by
  unfold Portal.isHiddenPath
  rw [List.any_eq_false]
  intro f hf hhidden
  have hkept := (List.mem_filter.mp hf).2
  have hrow : ofHidden platform (p.erase platform).db f.challengeId =
      ofHidden platform p.db f.challengeId := ofHidden_overwrite _
  rw [hrow, Bool.and_eq_true] at hhidden
  rw [hhidden.1] at hkept
  cases hkept

/-- Erasing takes away what was written over, and erasing twice takes away no more. -/
theorem erase_overwrite (h : keep = true ∨ text = none ∧ keep = false) :
    (p.overwrite platform text keep).erase platform = p.erase platform := by
  apply Portal.ext
  · rfl
  · apply Db.ext
    case challenges =>
      rw [Portal.erase, challenges_overwrite, challenges_overwrite, List.map_map]
      exact List.map_congr_left fun c _ => overwriteHidden_twice none c
    case hints =>
      rw [Portal.erase, hints_overwrite, hints_overwrite, List.map_map]
      exact List.map_congr_left fun h _ => overwriteHint_twice none h
    case files =>
      exact filter_twice (fun f : File => ofHidden_overwrite f.challengeId) _
    case flags =>
      exact filter_twice (fun f : Flag => ofHidden_overwrite f.challengeId) _
    case kypoConfigs =>
      refine (List.map_map (g := overwriteConfig platform _ none)
        (f := overwriteConfig platform p.db text)).trans ?_
      exact List.map_congr_left fun k _ => overwriteConfig_twice none k
    all_goals rfl
  · rw [Portal.erase, deployments_overwrite, deployments_overwrite, List.map_map]
    exact List.map_congr_left fun e _ => overwriteEntry_twice none e
  · funext path
    have hdisk : ∀ (r : Portal), (r.erase platform).disk path =
        if r.isHiddenPath platform path then none else r.disk path := fun _ => rfl
    rw [hdisk, hdisk, disk_overwrite]
    rcases h with rfl | ⟨rfl, rfl⟩
    · rw [isHiddenPath_overwrite]
      cases p.isHiddenPath platform path <;> rfl
    · rw [← Portal.erase, isHiddenPath_erase]
      cases p.isHiddenPath platform path <;> rfl

/-! ### Requests that are kept from hidden challenges -/

/-- Such a request is answered as if the hidden challenges had no texts. -/
theorem respond_erase {request : ContestRequest}
    (h : HiddenKept platform p answers session request) :
    (respond platform answers (p.erase platform) session request).1 =
      (respond platform answers p session request).1 := by
  have husers : (p.erase platform).db.user = p.db.user := rfl
  cases request with
  | list categoryName => exact congrArg Response.challenges (getChallengeByCategories_overwrite h)
  | detail challengeId =>
    unfold respond only
    simp only [husers]
    cases hu : p.db.user session.userId with
    | none => rfl
    | some user =>
      have hsame : getById platform (p.erase platform) challengeId user =
        getById platform p challengeId user := getById_overwrite (h user hu)
      simp only [hsame]
  | instances => exact congrArg Response.instances (getAllInstances_overwrite h)
  | status challengeId => exact checkStatus_overwrite session challengeId
  | hints challengeId =>
    exact congrArg Response.hints (getHintsByChallengeId_overwrite challengeId session.userId)
  | hint hintId =>
    have hsame : getHintById platform (p.erase platform).db hintId session.userId =
      getHintById platform p.db hintId session.userId := getHintById_overwrite hintId session.userId
    unfold respond only
    simp only [hsame]
  | unlock type target =>
    exact congrArg Prod.fst (postUnlock_overwrite answers session type target)
  | file path token =>
    unfold respond only
    simp only [getFile_erase h]
  | start challengeId => exact congrArg Prod.fst (startChallenge_overwrite h)
  | attempt challengeId submission =>
    exact congrArg Prod.fst (attempt_overwrite answers session challengeId submission)

/-- A start of a hidden challenge that is refused writes nothing. -/
theorem startChallenge_of_hidden {challengeId : Nat} {c : Challenge}
    (h : StartKept platform p answers session.userId challengeId)
    (hc : p.db.challenge challengeId = some c) (hhidden : isHidden platform p.db c = true) :
    (startChallenge platform answers p session challengeId).2 = [] := by
  unfold startChallenge
  cases hu : p.db.user session.userId with
  | none => rfl
  | some user =>
    simp only
    cases ht : p.db.teamOf user with
    | none => rfl
    | some team =>
      simp only [hc]
      by_cases hkypo : (isSandbox c ||
          (p.db.kypoConfigs.find? fun k => k.challengeId = c.id).isSome) = true
      · rw [if_pos hkypo]
        unfold startKypo
        by_cases hstate : c.state = "hidden"
        · rw [if_pos hstate]
          rfl
        · rw [if_neg hstate]
          have hcategory : isHiddenCategory platform p.db c.category = true := by
            rw [isHidden] at hhidden
            simpa [hstate] using hhidden
          obtain ⟨haccount, hthrows⟩ := h user team c hu ht hc hkypo hcategory hstate
          obtain ⟨fault, hfailed⟩ := TokenReply.throws_iff.mp hthrows
          rw [kypoBridge_of_failed haccount hfailed]
          rfl
      · rw [if_neg hkypo]
        unfold startOrdinary
        rw [startRefusal_of_hidden hhidden]
        cases c.requireDeploy <;> rfl

/-- An attempt at a hidden challenge is not recorded. -/
theorem attempt_of_hidden {challengeId : Nat} {submission : Option String} {c : Challenge}
    (hc : p.db.challenge challengeId = some c) (hhidden : isHidden platform p.db c = true) :
    (attempt platform answers p session challengeId submission).2 = [] := by
  unfold attempt
  rw [isHidden] at hhidden
  simp only [hc, if_pos hhidden]
  split
  · rfl
  split
  · rfl
  split
  · rfl
  split <;> rfl

theorem harmless_of_kept {request : ContestRequest}
    (h : HiddenKept platform p answers session request) :
    Harmless platform p.db (respond platform answers p session request).2 := by
  intro e he
  cases request with
  | list | detail | instances | status | hints | hint | file => cases he
  | unlock type target =>
    obtain ⟨hint, challenge, -, hchallenge, hvisible, hid⟩ := effects_postUnlock he
    obtain ⟨id, -, hfind⟩ := Option.bind_eq_some_iff.mp hchallenge
    rw [hid, ofHidden_of_challenge (by rw [challenge_id hfind]; exact hfind),
      isHidden_of_isVisible hvisible]
  | start challengeId =>
    rw [effects_startChallenge he]
    cases hc : p.db.challenge challengeId with
    | none => simp [ofHidden, hc]
    | some c =>
      rw [ofHidden_of_challenge hc]
      by_contra hhidden
      have hnone : (startChallenge platform answers p session challengeId).2 = [] :=
        startChallenge_of_hidden h hc (by simpa using hhidden)
      rw [respond, hnone] at he
      cases he
  | attempt challengeId submission =>
    rw [effects_attempt he]
    cases hc : p.db.challenge challengeId with
    | none => simp [ofHidden, hc]
    | some c =>
      rw [ofHidden_of_challenge hc]
      by_contra hhidden
      have hnone : (attempt platform answers p session challengeId submission).2 = [] :=
        attempt_of_hidden hc (by simpa using hhidden)
      rw [respond, hnone] at he
      cases he

/-! ### Requests that are answered with a hidden challenge -/

theorem overwriteHidden_of_hidden {c : Challenge} (h : isHidden platform p.db c = true) :
    overwriteHidden platform p.db text c = c.overwrite text := alterIf_of_secret h

/-- Both answers are the same; `x` stands for a text that could be any other. -/
def Unmoved (platform : Platform) (answers : Answers) (p : Portal) (session : Session)
    (request : ContestRequest) : Prop :=
  (respond platform answers (p.overwrite platform (some "x") true) session request).1 =
    (respond platform answers (p.erase platform) session request).1

theorem listKept_of_unmoved {categoryName : String}
    (h : Unmoved platform answers p session (.list categoryName)) :
    ListKept platform p categoryName session.teamId := by
  unfold ListKept
  by_cases hcategory : isHiddenCategory platform p.db (some categoryName) = true
  · exact .inl hcategory
  refine .inr fun c hc => ?_
  by_contra hhidden
  have hitems : ∀ text keep, getChallengeByCategories platform (p.overwrite platform text keep)
      categoryName session.teamId =
        (listed platform p categoryName session.teamId).map fun c =>
          listItem platform p session.teamId (overwriteHidden platform p.db text c) := by
    intro text keep
    unfold getChallengeByCategories
    refine (if_neg hcategory).trans ?_
    rw [listed_overwrite, List.map_map]
    apply List.map_congr_left
    intro c _
    exact listItem_overwrite _ _
  have hlists := Response.challenges.inj h
  rw [Portal.erase, hitems, hitems, List.map_inj_left] at hlists
  have hname := congrArg ChallengeByCategoryDTO.name (hlists c hc)
  rw [overwriteHidden_of_hidden (by simpa using hhidden),
    overwriteHidden_of_hidden (by simpa using hhidden)] at hname
  exact absurd (show "x" = "" from hname) (by decide)

/-- What the next challenge is named when it is hidden by its state only. -/
theorem nextName_of_hidden {c next : Challenge} (hnext : c.nextId.bind p.db.challenge = some next)
    (hcategory : isHiddenCategory platform p.db next.category = false)
    (hhidden : isHidden platform p.db next = true) :
    nextName platform (p.overwrite platform text keep).db c = text := by
  obtain ⟨id, hid, hfind⟩ := Option.bind_eq_some_iff.mp hnext
  unfold nextName
  simp only [hid, Option.bind_eq_bind, Option.bind_some, challenge_overwrite, hfind,
    Option.map_some,
    overwriteHidden_of_hidden hhidden]
  refine if_neg ?_
  intro hgate
  exact absurd (hgate.symm.trans hcategory) (by decide)

theorem detailKept_of_unmoved {challengeId : Nat}
    (h : Unmoved platform answers p session (.detail challengeId)) {user : Board.User}
    (hu : p.db.user session.userId = some user) : DetailKept platform p challengeId user := by
  intro c next hc hvisible hshown hteam hstarter hnext hcategory hstate
  have hhidden : isHidden platform p.db next = true := by
    simp [isHidden, hstate]
  obtain ⟨team, ht⟩ := Option.isSome_iff_exists.mp hteam
  have hrow : ofHidden platform p.db (some c.id) = false := by
    rw [ofHidden_of_challenge (by rw [challenge_id hc]; exact hc), hvisible]
  have hdata : ∀ text keep, ∃ started,
      (respond platform answers (p.overwrite platform text keep) session (.detail challengeId)).1 =
        .challenge
          (challengeData platform (p.overwrite platform text keep).db c user team) started := by
    intro text keep
    have husers : (p.overwrite platform text keep).db.user = p.db.user := rfl
    have hteams : (p.overwrite platform text keep).db.teamOf = p.db.teamOf := rfl
    have hshow : (p.overwrite platform text keep).db.challenge challengeId = some c :=
      challenge_overwrite_of_visible hc hvisible
    have hget := getById_of_visible user hshow hvisible
    rw [isShown_overwrite, hshown, hteams, ht, getFromCache_overwrite _ _ hrow, husers] at hget
    unfold respond only
    simp only [husers, hu]
    cases hcache : p.getFromCache c.id (instanceTeam c user) with
    | none =>
      simp only [hcache] at hget
      rw [hget]
      exact ⟨_, rfl⟩
    | some cached =>
      obtain ⟨starter, hs⟩ := Option.isSome_iff_exists.mp (hstarter cached hcache)
      simp only [hcache, hs] at hget
      rw [hget]
      exact ⟨_, rfl⟩
  obtain ⟨started, hexposed⟩ := hdata (some "x") true
  obtain ⟨started', herased⟩ := hdata none false
  have hsame := h
  rw [Unmoved, hexposed, Portal.erase, herased] at hsame
  have hname := congrArg ChallengeDataDto.nextName (Response.challenge.inj hsame).1
  have hnames : ∀ text keep, (challengeData platform (p.overwrite platform text keep).db c user
      team).nextName = text := fun _ _ => nextName_of_hidden hnext hcategory hhidden
  rw [hnames, hnames] at hname
  cases hname

/-- Two selections by functions that are defined on the same elements. -/
theorem eq_of_filterMap_eq {α β : Type} {f g : α → Option β} {l : List α}
    (hsame : ∀ a ∈ l, (f a).isSome = (g a).isSome) (h : l.filterMap f = l.filterMap g) :
    ∀ a ∈ l, f a = g a := by
  induction l with
  | nil =>
    intro a ha
    cases ha
  | cons b l ih =>
    have hb := hsame b (List.mem_cons_self ..)
    have hrest : ∀ a ∈ l, (f a).isSome = (g a).isSome :=
      fun a ha => hsame a (List.mem_cons_of_mem _ ha)
    cases hf : f b with
    | none =>
      have hg : g b = none := by
        rw [hf] at hb
        exact Option.isNone_iff_eq_none.mp (by simpa using hb.symm)
      rw [List.filterMap_cons_none hf, List.filterMap_cons_none hg] at h
      intro a ha
      rcases List.mem_cons.mp ha with rfl | ha
      · rw [hf, hg]
      · exact ih hrest h a ha
    | some x =>
      obtain ⟨y, hg⟩ : ∃ y, g b = some y := by
        rw [hf] at hb
        exact Option.isSome_iff_exists.mp (by simpa using hb.symm)
      rw [List.filterMap_cons_some hf, List.filterMap_cons_some hg] at h
      obtain ⟨hxy, htail⟩ := List.cons.inj h
      intro a ha
      rcases List.mem_cons.mp ha with rfl | ha
      · rw [hf, hg, hxy]
      · exact ih hrest htail a ha

/-- Whether a deployment is listed depends on no text. -/
theorem instanceItem_isSome_overwrite (e : CacheEntry) :
    (instanceItem platform (p.overwrite platform text keep)
        (overwriteEntry platform p.db text e)).isSome = (instanceItem platform p e).isSome := by
  obtain ⟨challengeId, teamId, dto, hown⟩ := e
  cases dto with
  | none =>
    have hdto :
        (overwriteEntry platform p.db text ⟨challengeId, teamId, none, hown⟩).dto = none := by
      unfold overwriteEntry alterIf
      split <;> rfl
    unfold instanceItem
    rw [hdto]
    rfl
  | some cached =>
    obtain ⟨cached', hdto, hid⟩ : ∃ cached', (overwriteEntry platform p.db text
        ⟨challengeId, teamId, some cached, hown⟩).dto = some cached' ∧
        cached'.challenge_id = cached.challenge_id := by
      unfold overwriteEntry alterIf
      split
      · exact ⟨_, rfl, rfl⟩
      · exact ⟨cached, rfl, rfl⟩
    unfold instanceItem
    simp only [hdto, Option.bind_eq_bind, Option.bind_some, hid, challenge_overwrite]
    cases p.db.challenge cached.challenge_id with
    | none => rfl
    | some c =>
      simp only [Option.map_some, Option.bind_some]
      rw [overwriteHidden_keeps Challenge.category fun _ => rfl]
      by_cases hgate : isHiddenCategory platform p.db c.category = true
      · exact congrArg Option.isSome ((if_pos hgate).trans (if_pos hgate).symm)
      · refine (congrArg Option.isSome (if_neg hgate)).trans ?_
        rw [if_neg hgate]
        rfl

/-- How a deployment of a challenge that is hidden by its state only is listed. -/
theorem instanceItem_of_hidden {e : CacheEntry} {c : Challenge} (hdto : e.dto.isSome = true)
    (hc : p.db.challenge e.challengeId = some c)
    (hcategory : isHiddenCategory platform p.db c.category = false)
    (hhidden : isHidden platform p.db c = true) :
    (instanceItem platform (p.overwrite platform text keep)
      (overwriteEntry platform p.db text e)).map
      ChallengeInstanceDTO.challengeName = some (text.getD "") := by
  obtain ⟨challengeId, teamId, dto, hown⟩ := e
  obtain ⟨cached, rfl⟩ := Option.isSome_iff_exists.mp hdto
  have hid : cached.challenge_id = challengeId := hown cached rfl
  have hc' : p.db.challenge challengeId = some c := hc
  rw [overwriteEntry_of_hidden ((ofHidden_of_challenge hc').trans hhidden)]
  unfold instanceItem CacheEntry.overwrite
  simp only [Option.map_some, Option.bind_eq_bind, Option.bind_some, hid, challenge_overwrite, hc',
    overwriteHidden_of_hidden hhidden]
  refine congrArg (Option.map ChallengeInstanceDTO.challengeName) (if_neg ?_)
  intro hgate
  exact absurd (hgate.symm.trans hcategory) (by decide)

theorem instancesKept_of_unmoved (h : Unmoved platform answers p session .instances) :
    InstancesKept platform p session.teamId := by
  intro e he hteam hdto c hc hcategory hstate
  have hhidden : isHidden platform p.db c = true := by
    simp [isHidden, hstate]
  have hlists := Response.instances.inj h
  rw [Portal.erase, getAllInstances_overwrite_eq, getAllInstances_overwrite_eq] at hlists
  have hitem := eq_of_filterMap_eq
    (fun e _ => (instanceItem_isSome_overwrite e).trans (instanceItem_isSome_overwrite e).symm)
    hlists e (List.mem_filter.mpr ⟨he, by simpa using hteam⟩)
  have hname := congrArg (Option.map ChallengeInstanceDTO.challengeName) hitem
  rw [instanceItem_of_hidden hdto hc hcategory hhidden,
    instanceItem_of_hidden hdto hc hcategory hhidden] at hname
  exact absurd (Option.some.inj hname) (by decide)

/-- What a download is answered with. -/
def fileResponse : Except String FileResult → Response
  | .error message => .refused (if hasSubstring message "not found" then 404 else 400) message
  | .ok result => .file result

theorem respond_file (path token : String) :
    (respond platform answers p session (.file path token)).1 =
      fileResponse (FileService.getFile platform p path token session.userId) := by
  unfold respond only fileResponse
  cases hfile : FileService.getFile platform p path token session.userId with
  | error message => simp only [hfile]
  | ok result => simp only [hfile]

theorem fileResponse_inj {r r' : Except String FileResult} (h : fileResponse r = fileResponse r') :
    r = r' := by
  cases r with
  | error message =>
    cases r' with
    | error message' => rw [(Response.refused.inj h).2]
    | ok result => cases h
  | ok result =>
    cases r' with
    | error message => cases h
    | ok result' => rw [Response.file.inj h]

theorem read_of_mounted {path : String}
    (h : FileService.isMounted platform (platform.fullPath path) = true) :
    FileService.read platform p path =
      match p.disk (platform.fullPath path) with
      | none => .error "File not found"
      | some content => .ok ⟨platform.fileName (platform.fullPath path), content⟩ := by
  unfold FileService.read
  exact if_pos h

theorem fileKept_of_unmoved {path token : String}
    (h : Unmoved platform answers p session (.file path token)) :
    FileKept platform p path token session.userId := by
  intro t file ht hfile
  unfold Unmoved at h
  rw [respond_file, respond_file] at h
  have hsame := fileResponse_inj h
  rw [getFile_of_token ht] at hsame
  have hkept :
      FileService.findFile platform (p.overwrite platform (some "x") true).db path t.fileId =
      some file := find?_filter_of_keeps hfile rfl
  simp only [hkept, isAllowed_overwrite] at hsame
  -- where a file is denied, or erased, it is not found
  have herased : ∀ r, FileService.getFile platform (p.erase platform) path token session.userId =
      .ok r → p.isHiddenPath platform (platform.fullPath path) = false := by
    intro r hr
    rw [getFile_of_token ht] at hr
    by_contra hhidden
    have hnothing : (p.erase platform).disk (platform.fullPath path) = none :=
      if_pos (by simpa using hhidden)
    have hread : ∀ r, FileService.read platform (p.erase platform) path ≠ .ok r := by
      intro r hr
      unfold FileService.read at hr
      simp only [hnothing] at hr
      split at hr <;> cases hr
    split at hr
    · cases hr
    · split at hr
      · exact hread r hr
      · cases hr
  intro readable
  have hpath : readable = true → p.isHiddenPath platform (platform.fullPath path) = false := by
    intro hreadable
    by_contra hhidden
    obtain ⟨hopen, hmounted⟩ := Bool.and_eq_true_iff.mp hreadable
    have hexposed :
        (p.overwrite platform (some "x") true).disk (platform.fullPath path) = some "x" :=
      if_pos (by simpa using hhidden)
    rw [if_pos hopen, read_of_mounted hmounted, hexposed] at hsame
    exact hhidden (herased _ hsame.symm)
  refine ⟨hpath, ?_⟩
  intro hrow
  rw [getFile_of_token ht, findFile_erase_of_hidden hfile hrow] at hsame
  cases hopen : FileService.isAllowed platform p.db file t.teamId with
  | false =>
    rw [if_neg (by rw [hopen]; exact Bool.false_ne_true)] at hsame
    exact absurd (Except.error.inj hsame) (by decide)
  | true =>
    rw [if_pos hopen] at hsame
    cases hmounted : FileService.isMounted platform (platform.fullPath path) with
    | false =>
      unfold FileService.read at hsame
      simp only [hmounted, Bool.false_eq_true, if_false] at hsame
      exact absurd (Except.error.inj hsame) (by decide)
    | true =>
      have hreadable : readable = true := Bool.and_eq_true_iff.mpr ⟨hopen, hmounted⟩
      refine ⟨hreadable, ?_⟩
      rw [read_of_mounted hmounted, disk_overwrite, hpath hreadable] at hsame
      cases hdisk : p.disk (platform.fullPath path) with
      | none => rfl
      | some content =>
        simp only [hdisk, Bool.false_eq_true, if_false] at hsame
        cases hsame

/-- How a start of a KYPO challenge that is hidden by its category is answered, when there is a
session already. -/
theorem startChallenge_of_existing {challengeId : Nat} {user : Board.User} {team : Board.Account}
    {c : Challenge} {existing : ChallengeDeploymentCacheDTO}
    (hu : p.db.user session.userId = some user) (ht : p.db.teamOf user = some team)
    (hc : p.db.challenge challengeId = some c)
    (hkypo : (isSandbox c ||
      (p.db.kypoConfigs.find? fun k => k.challengeId = c.id).isSome) = true)
    (hhidden : isHidden platform p.db c = true) (hstate : c.state ≠ "hidden")
    (hbridge : ¬ (hasKypoAccount p.db team.id = true ∧ answers.keycloak.throws = true))
    (hcache : p.getFromCache c.id team.id = some existing) :
    (startChallenge platform answers (p.overwrite platform text keep) session challengeId).1 =
      .deployment { status := 200, success := true, challengeType := some "kypo",
                    challengeUrl := text, timeLimit := minutesLeft p existing.time_finished } := by
  have husers : (p.overwrite platform text keep).db.user = p.db.user := rfl
  have hteams : (p.overwrite platform text keep).db.teamOf = p.db.teamOf := rfl
  have hrow : ofHidden platform p.db (some c.id) = true := by
    rw [ofHidden_of_challenge (by rw [challenge_id hc]; exact hc), hhidden]
  unfold startChallenge
  rw [husers, hteams, challenge_overwrite, hu]
  simp only [ht, hc, Option.map_some, overwriteHidden_of_hidden hhidden]
  have hsandbox : isSandbox (c.overwrite text) = isSandbox c := rfl
  have hid : (c.overwrite text).id = c.id := rfl
  have hopen : (c.overwrite text).state ≠ "hidden" := hstate
  rw [hid, hsandbox, kypoConfig_overwrite, Option.isSome_map, if_pos hkypo]
  unfold startKypo
  rw [if_neg hopen]
  have hbridge' : ¬ (hasKypoAccount (p.overwrite platform text keep).db team.id = true ∧
    answers.keycloak.throws = true) := hbridge
  obtain ⟨bridge, hok⟩ := kypoBridge_isOk platform
    ((p.db.kypoConfigs.find? fun k => k.challengeId = c.id).map
      (overwriteConfig platform p.db text)) c.id
    hbridge'
  simp only [hid, hok, getFromCache_overwrite_of_hidden hrow, hcache, Option.map_some]
  rfl

theorem startKept_of_unmoved {challengeId : Nat}
    (h : Unmoved platform answers p session (.start challengeId))
    (hharmless : Harmless platform p.db
      (respond platform answers p session (.start challengeId)).2) :
    StartKept platform p answers session.userId challengeId := by
  intro user team c hu ht hc hkypo hcategory hstate
  by_contra hbridge
  have hhidden : isHidden platform p.db c = true := by
    rw [isHidden, hcategory, Bool.or_true]
  cases hcache : p.getFromCache c.id team.id with
  | some existing =>
    have hanswer : ∀ text keep, (respond platform answers (p.overwrite platform text keep) session
        (.start challengeId)).1 = .deployment {
          status := 200, success := true, challengeType := some "kypo",
          challengeUrl := text, timeLimit := minutesLeft p existing.time_finished } :=
      fun _ _ => startChallenge_of_existing hu ht hc hkypo hhidden hstate hbridge hcache
    unfold Unmoved at h
    rw [hanswer, Portal.erase, hanswer] at h
    have hurl := congrArg ChallengeDeployResponeDTO.challengeUrl (Response.deployment.inj h)
    cases hurl
  | none =>
    obtain ⟨bridge, hok⟩ := kypoBridge_isOk platform
      (p.db.kypoConfigs.find? fun k => k.challengeId = c.id) c.id hbridge
    have hstarted : ∃ e ∈ (startChallenge platform answers p session challengeId).2,
        ∃ entry, e = .started entry := by
      unfold startChallenge
      simp only [hu, ht, hc, if_pos hkypo]
      unfold startKypo
      simp only [if_neg hstate, hok, hcache]
      exact ⟨_,
        List.mem_append_left _ (List.mem_append_right _ (List.mem_singleton_self _)), _, rfl⟩
    obtain ⟨e, he, -⟩ := hstarted
    have hrow := hharmless e he
    rw [effects_startChallenge he, ofHidden_of_challenge hc, hhidden] at hrow
    cases hrow

theorem hiddenKept_of_unmoved {request : ContestRequest}
    (h : Unmoved platform answers p session request)
    (hharmless : Harmless platform p.db (respond platform answers p session request).2) :
    HiddenKept platform p answers session request := by
  cases request with
  | list categoryName => exact listKept_of_unmoved h
  | detail challengeId =>
    intro user hu
    exact detailKept_of_unmoved h hu
  | instances => exact instancesKept_of_unmoved h
  | file path token => exact fileKept_of_unmoved h
  | start challengeId => exact startKept_of_unmoved h hharmless
  | status | hints | hint | unlock | attempt => trivial

end Proof

/-- The states that differ from a state in the texts of hidden challenges only are answered alike,
and nothing of a hidden challenge is written, exactly when none of them is answered with one. -/
theorem hidden_stays_hidden_iff (platform : Platform) (answers : Answers) (p : Portal)
    (session : Session) (request : ContestRequest) :
    ((∀ q, Alike (Portal.erase platform) p q → ∀ q', Alike (Portal.erase platform) p q' →
        (respond platform answers q session request).1 =
          (respond platform answers q' session request).1) ∧
      ∀ q, Alike (Portal.erase platform) p q →
        Harmless platform q.db (respond platform answers q session request).2) ↔
      ∀ q, Alike (Portal.erase platform) p q → HiddenKept platform q answers session request := by
  have hidem : ∀ q : Portal, (q.erase platform).erase platform = q.erase platform :=
    fun q => erase_overwrite (.inr ⟨rfl, rfl⟩)
  rw [agree_iff hidem fun q => (respond platform answers q session request).1]
  constructor
  · rintro ⟨hagree, hharmless⟩ q hq
    apply hiddenKept_of_unmoved _ (hharmless q hq)
    have hexposed : (q.overwrite platform (some "x") true).erase platform = q.erase platform :=
      erase_overwrite (.inl rfl)
    have hsame := hagree (q.overwrite platform (some "x") true) (hq.trans hexposed.symm)
    rw [hexposed] at hsame
    exact hsame
  · intro h
    constructor
    · intro q hq
      exact (respond_erase (h q hq)).symm
    · intro q hq
      exact harmless_of_kept (h q hq)

/-- A challenge that is shown, and a hidden one that comes next. -/
def hiddenNext : Portal where
  db := {
    board := {
      teams := [{ id := 1 }], users := [{ id := 1, teamId := some 1 }]
      teams_pk := Board.memberLeft.teams_pk
      users_pk := Board.memberLeft.users_pk
      users_pos := HintSite.oneMember_pos
      brackets_pk := Board.unsetFlag.brackets_pk
      challenges_pk := Board.unsetFlag.challenges_pk
      submissions_pk := Board.unsetFlag.submissions_pk
      solves_fk := Board.unsetFlag.solves_fk
      solves_pos := Board.unsetFlag.solves_pos
      awards_pos := Board.unsetFlag.awards_pos }
    files := []
    files_pk := List.nodup_nil
    challenges := [{ id := 1, nextId := some 2 },
      { id := 2, name := some "y", state := "hidden" }] }

/-- The detail of the first challenge tells the name of the hidden one. -/
theorem next_name_told :
    ¬ ∀ (platform : Platform) (answers : Answers) (p q : Portal) (session : Session)
      (request : ContestRequest), Alike (Portal.erase platform) p q →
      (respond platform answers p session request).1 =
          (respond platform answers q session request).1 ∧
        Harmless platform p.db (respond platform answers p session request).2 := by
  intro hall
  have halike : Alike (Portal.erase plainPlatform) hiddenNext
      (hiddenNext.overwrite plainPlatform (some "x") true) := (erase_overwrite (.inl rfl)).symm
  have hsame := (hall plainPlatform {} _ _ ⟨1, 1⟩ (.detail 1) halike).1
  revert hsame
  decide

end Fctf.Contest
