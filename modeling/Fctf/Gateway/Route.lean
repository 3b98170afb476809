import Mathlib.Data.List.TakeWhile
import Fctf.Deploy.AppName

/-!
How the gateway reads the team and the challenge of a request from its route, and how the
control plane looks for the requests of a deployment in the gateway's log.
-/

namespace Fctf

/-! ### The gateway -/

/-- `token.ExpandRoute`. -/
def expandRoute (route : List Char) : List Char :=
  if route = [] then route
  else if route.any fun c => c = ':' || c = '.' || c = '/' then route
  else route ++ ("-svc.".toList ++ (route ++ ".svc.cluster.local:3333".toList))

/-- What stands before and after the last of a character. -/
def splitLast (c : Char) (s : List Char) : Option (List Char × List Char) :=
  if c ∈ s then
    some (((s.reverse.dropWhile fun d => d ≠ c).drop 1).reverse,
      (s.reverse.takeWhile fun d => d ≠ c).reverse)
  else none

/-- The host of `net.SplitHostPort`. It may stand in brackets. -/
def splitHostPort (s : List Char) : Option (List Char) :=
  match splitLast ':' s with
  | none => none
  | some ('[' :: inside, port) =>
    if inside.getLast? = some ']' ∧ ']' ∉ inside.dropLast ∧ '[' ∉ inside ∧ '[' ∉ port ∧ ']' ∉ port
    then some inside.dropLast else none
  | some (host, _) => if ':' ∉ host ∧ '[' ∉ s ∧ ']' ∉ s then some host else none

/-- `strings.TrimSuffix`. -/
def trimSuffix (s ending : List Char) : List Char :=
  if ending.isSuffixOf s then s.take (s.length - ending.length) else s

/-- `strconv.Atoi`. -/
def atoi (s : List Char) : Option Int :=
  (signedDecimal s).bind fun n => if -2 ^ 63 ≤ n ∧ n < 2 ^ 63 then some n else none

/-- The team and the challenge in the name of a namespace. -/
def idsOfName (name : List Char) : Option (Int × Int) :=
  match name.splitOn '-' with
  | first :: team :: challenge :: _ =>
    if first = "team".toList then
      (atoi team).bind fun t => (atoi challenge).map fun c => (t, c)
    else none
  | _ => none

/-- The part of a text before the first of a character, unless it begins with the character. -/
def beforeFirst (c : Char) (s : List Char) : List Char :=
  let before := s.takeWhile fun d => d ≠ c
  if before = [] then s else before

/-- The host of a route, without its port. -/
def hostOf (name : List Char) : List Char :=
  match splitHostPort name with
  | some host => host
  | none =>
    match splitLast ':' name with
    | some (c :: host, _) => c :: host
    | _ => name

def parseTeamChallengeFromRoute (routeOrHost : List Char) : Option (Int × Int) :=
  let name := (trim (String.ofList routeOrHost)).toList
  if name = [] then none
  else idsOfName (trimSuffix (beforeFirst '.' (hostOf name)) "-svc".toList)

inductive Protocol
  | http
  | tcp

/-- What a request is logged under; the ids are missing when they are not read from the route. -/
structure LogLine where
  ids : Option (String × String)
  ns : List Char

def requestLine (protocol : Protocol) (route : List Char) : LogLine where
  ids :=
    let expanded := parseTeamChallengeFromRoute (expandRoute route)
    let ids :=
      match protocol with
      | .http => expanded
      | .tcp => (parseTeamChallengeFromRoute route).or expanded
    ids.map fun (team, challenge) => (toString team, toString challenge)
  ns := route

/-! ### The control plane -/

/-- The filter of `GetPodRequestLog`. -/
def RequestLogFilter (teamId challengeId : Int32) (ns : String) (line : LogLine) : Prop :=
  line.ids = some (toString teamId.toInt, toString challengeId.toInt) ∧
    (isNullOrWhiteSpace ns = true ∨ line.ns = ns.toList)

/-- The gateway and the control plane read the same ids from the route of a deployment, and a
request is found by these ids, and by no others. -/
structure Attributed (teamId challengeId : Int32) (app : String) : Prop where
  agrees : ∃ team challenge, parseDeploymentAppName app = .ok (team, challenge) ∧
    parseTeamChallengeFromRoute (expandRoute app.toList) = some (team.toInt, challenge.toInt)
  found : ∀ protocol team challenge ns, isNullOrWhiteSpace ns = true ∨ ns = app →
    (RequestLogFilter team challenge ns (requestLine protocol app.toList) ↔
      team = teamId ∧ challenge = challengeId)

/-! ### Routes of deployments -/

section Parts

variable {c : Char} {s before after : List Char}

theorem takeWhile_ne_append (h : c ∉ before) :
    (before ++ c :: after).takeWhile (fun d => d ≠ c) = before := by
  induction before with
  | nil => simp
  | cons d before ih =>
    simp only [List.mem_cons, not_or] at h
    obtain ⟨hd, hbefore⟩ := h
    rw [List.cons_append, List.takeWhile_cons_of_pos (by simpa using Ne.symm hd), ih hbefore]

theorem dropWhile_ne_append (h : c ∉ before) :
    (before ++ c :: after).dropWhile (fun d => d ≠ c) = c :: after := by
  induction before with
  | nil => simp
  | cons d before ih =>
    simp only [List.mem_cons, not_or] at h
    obtain ⟨hd, hbefore⟩ := h
    rw [List.cons_append, List.dropWhile_cons_of_pos (by simpa using Ne.symm hd), ih hbefore]

theorem splitLast_append (h : c ∉ after) :
    splitLast c (before ++ c :: after) = some (before, after) := by
  have hrev : (before ++ c :: after).reverse = after.reverse ++ c :: before.reverse := by simp
  have hafter : c ∉ after.reverse := fun hc => h (List.mem_reverse.mp hc)
  rw [splitLast, if_pos (by simp), hrev, takeWhile_ne_append hafter, dropWhile_ne_append hafter]
  simp

theorem trim_of_ends {first last : Char} (hfirst : isWhiteSpace first = false)
    (hlast : isWhiteSpace last = false) (hs : ∃ middle, s = first :: middle)
    (hrev : ∃ rest, s.reverse = last :: rest) :
    (trim (String.ofList s)).toList = s := by
  obtain ⟨middle, hs⟩ := hs
  obtain ⟨rest, hrest⟩ := hrev
  have hdrop : s.dropWhile isWhiteSpace = s := by
    rw [hs, List.dropWhile_cons_of_neg (by simp [hfirst])]
  rw [trim, String.toList_ofList, String.toList_ofList, hdrop, hrest,
    List.dropWhile_cons_of_neg (by simp [hlast]), ← hrest, List.reverse_reverse]

theorem trimSuffix_append (s ending : List Char) : trimSuffix (s ++ ending) ending = s := by
  have hending : ending.isSuffixOf (s ++ ending) = true :=
    List.isSuffixOf_iff_suffix.mpr (List.suffix_append s ending)
  rw [trimSuffix, if_pos hending]
  simp

/-- The host of a route whose name has none of the characters that matter for ports. -/
theorem hostOf_colon {first : Char} {host port : List Char} (hfirst : first ≠ '[')
    (hhost : ∀ c ∈ first :: host, c ≠ ':' ∧ c ≠ '[' ∧ c ≠ ']')
    (hport : ∀ c ∈ port, c ≠ ':' ∧ c ≠ '[' ∧ c ≠ ']') :
    hostOf (first :: host ++ ':' :: port) = first :: host := by
  have hlast : splitLast ':' (first :: host ++ ':' :: port) = some (first :: host, port) :=
    splitLast_append fun hc => (hport _ hc).1 rfl
  have hbracket : ∀ c, (c = '[' ∨ c = ']') → c ∉ first :: host ++ ':' :: port := by
    intro c hc hmem
    rcases List.mem_append.mp hmem with hmem | hmem
    · rcases hc with rfl | rfl
      · exact (hhost _ hmem).2.1 rfl
      · exact (hhost _ hmem).2.2 rfl
    · rcases List.mem_cons.mp hmem with rfl | hmem
      · exact absurd hc (by decide)
      · rcases hc with rfl | rfl
        · exact (hport _ hmem).2.1 rfl
        · exact (hport _ hmem).2.2 rfl
  have hsplit : splitHostPort (first :: host ++ ':' :: port) = some (first :: host) := by
    rw [splitHostPort, hlast]
    split
    · contradiction
    · rename_i heq
      simp only [Option.some.injEq, Prod.mk.injEq, List.cons.injEq] at heq
      exact absurd heq.1.1 hfirst
    · rename_i heq
      obtain ⟨rfl, rfl⟩ := Prod.mk.inj (Option.some.inj heq)
      rw [if_pos ⟨fun hc => (hhost _ hc).1 rfl, hbracket _ (Or.inl rfl), hbracket _ (Or.inr rfl)⟩]
  rw [hostOf, hsplit]

theorem hostOf_bare (h : ':' ∉ s) : hostOf s = s := by
  have hlast : splitLast ':' s = none := if_neg h
  rw [hostOf, splitHostPort, hlast]

theorem beforeFirst_append (hne : before ≠ []) (h : c ∉ before) :
    beforeFirst c (before ++ c :: after) = before := by
  rw [beforeFirst, takeWhile_ne_append h]
  exact if_neg hne

theorem beforeFirst_bare (h : c ∉ s) : beforeFirst c s = s := by
  have htake : s.takeWhile (fun d => d ≠ c) = s := by
    refine List.takeWhile_eq_self_iff.mpr fun d hd => ?_
    rw [decide_eq_true_eq]
    rintro rfl
    exact h hd
  rw [beforeFirst, htake]
  split
  · rfl
  · rfl

end Parts

section Deployment

variable {k : Characters} {teamId challengeId : Int32} {name : String} {date : Nat} {app : String}

/-- The characters that matter in a route. -/
def isSeparator (c : Char) : Bool := c = ':' || c = '.' || c = '/' || c = '[' || c = ']'

theorem not_separator_of_mem_app
    (happ : getDeploymentAppName k teamId challengeId name date = some app) {c : Char}
    (hc : c ∈ app.toList) : isSeparator c = false := by
  by_contra hsep
  rw [Bool.not_eq_false] at hsep
  have hcases : c = ':' ∨ c = '.' ∨ c = '/' ∨ c = '[' ∨ c = ']' := by
    simpa [isSeparator, or_assoc] using hsep
  have hlabel := isLabelChar_of_mem_app happ hc
  rcases hcases with rfl | rfl | rfl | rfl | rfl
  all_goals exact absurd (hlabel (by decide)) (by decide)

/-- The name of a deployment, seen as a text that the gateway reads. -/
theorem app_ends (happ : getDeploymentAppName k teamId challengeId name date = some app) :
    ∃ middle, app.toList = 't' :: middle := by
  rw [(getDeploymentAppName_eq_some_iff.mp happ).2]
  exact ⟨_, rfl⟩

theorem isWhiteSpace_of_isDigit {c : Char} (h : c.isDigit = true) : isWhiteSpace c = false := by
  obtain ⟨hlow, hhigh⟩ := Char.isDigit_iff_toNat.mp h
  have hlow : 48 ≤ c.toNat := hlow
  have hhigh : c.toNat ≤ 57 := hhigh
  simp only [isWhiteSpace, Bool.or_eq_false_iff, Bool.and_eq_false_iff, decide_eq_false_iff_not,
    beq_eq_false_iff_ne]
  omega

theorem not_svc_of_app (happ : getDeploymentAppName k teamId challengeId name date = some app) :
    ¬ "-svc".toList <:+ app.toList := by
  obtain ⟨last, rest, hreverse, hdigit⟩ := app_reverse happ
  rintro ⟨before, hbefore⟩
  rw [← hbefore, List.reverse_append] at hreverse
  obtain ⟨rfl, -⟩ := List.cons_eq_cons.mp hreverse
  cases hdigit

/-- The gateway reads the ids from the name that the route begins with. -/
theorem parse_app (happ : getDeploymentAppName k teamId challengeId name date = some app) :
    parseTeamChallengeFromRoute app.toList = idsOfName app.toList := by
  obtain ⟨middle, hmiddle⟩ := app_ends happ
  obtain ⟨last, rest, hreverse, hdigit⟩ := app_reverse happ
  have hsep : ∀ c, isSeparator c = true → c ∉ app.toList := by
    intro c hc hmem
    rw [not_separator_of_mem_app happ hmem] at hc
    cases hc
  have hfirst : isWhiteSpace 't' = false := by decide
  have hsuffix : "-svc".toList.isSuffixOf app.toList ≠ true := by
    rw [ne_eq, List.isSuffixOf_iff_suffix]
    exact not_svc_of_app happ
  rw [parseTeamChallengeFromRoute,
    trim_of_ends hfirst (isWhiteSpace_of_isDigit hdigit) ⟨middle, hmiddle⟩ ⟨rest, hreverse⟩,
    if_neg (by simp [hmiddle]), hostOf_bare (hsep _ (by decide)),
    beforeFirst_bare (hsep _ (by decide)), trimSuffix, if_neg hsuffix]

theorem parse_expandRoute
    (happ : getDeploymentAppName k teamId challengeId name date = some app) :
    parseTeamChallengeFromRoute (expandRoute app.toList) = idsOfName app.toList := by
  obtain ⟨middle, hmiddle⟩ := app_ends happ
  have hsep : ∀ c ∈ app.toList, isSeparator c = false :=
    fun c hc => not_separator_of_mem_app happ hc
  generalize app.toList = app at hmiddle hsep ⊢
  have hclean : (app.any fun c => c = ':' || c = '.' || c = '/') = false := by
    rw [List.any_eq_false]
    intro c hc htrue
    have hfalse := hsep c hc
    simp only [isSeparator, Bool.or_eq_false_iff] at hfalse
    simp [hfalse] at htrue
  have hexpand : expandRoute app =
      ((app ++ "-svc".toList) ++ '.' :: (app ++ ".svc.cluster.local".toList)) ++
        ':' :: "3333".toList := by
    rw [expandRoute, if_neg (by simp [hmiddle]), if_neg (by simp [hclean])]
    simp
  have hlocal : ∀ c ∈ "-svc".toList ++ '.' :: ".svc.cluster.local".toList ++ "3333".toList,
      c ≠ ':' ∧ c ≠ '[' ∧ c ≠ ']' := by simp
  have happ : ∀ c ∈ app, c ≠ ':' ∧ c ≠ '[' ∧ c ≠ ']' := by
    intro c hc
    have hfalse := hsep c hc
    refine ⟨?_, ?_, ?_⟩
    all_goals
      rintro rfl
      cases hfalse
  have hhost : ∀ c ∈ (app ++ "-svc".toList) ++ '.' :: (app ++ ".svc.cluster.local".toList),
      c ≠ ':' ∧ c ≠ '[' ∧ c ≠ ']' := by
    intro c hc
    simp only [List.mem_append, List.mem_cons] at hc hlocal
    rcases hc with (hc | hc) | rfl | hc | hc
    · exact happ c hc
    · exact hlocal c (Or.inl (Or.inl hc))
    · decide
    · exact happ c hc
    · exact hlocal c (Or.inl (Or.inr (Or.inr hc)))
  have hport : ∀ c ∈ "3333".toList, c ≠ ':' ∧ c ≠ '[' ∧ c ≠ ']' := by simp
  have hdot : '.' ∉ app ++ "-svc".toList := by
    rw [List.mem_append]
    rintro (hc | hc)
    · cases hsep _ hc
    · exact absurd hc (by decide)
  have htrim : (trim (String.ofList (expandRoute app))).toList = expandRoute app := by
    have hfirst : isWhiteSpace 't' = false := by decide
    have hlast : isWhiteSpace '3' = false := by decide
    refine trim_of_ends hfirst hlast ?_ ?_
    · rw [hexpand, hmiddle]
      exact ⟨_, rfl⟩
    · rw [hexpand, List.reverse_append, List.reverse_cons]
      exact ⟨_, rfl⟩
  have hhostOf : hostOf (expandRoute app) =
      (app ++ "-svc".toList) ++ '.' :: (app ++ ".svc.cluster.local".toList) := by
    rw [hexpand]
    subst hmiddle
    exact hostOf_colon (by decide) hhost hport
  have hne : expandRoute app ≠ [] := by
    rw [hexpand]
    simp
  have hbefore : app ++ "-svc".toList ≠ [] := by simp
  rw [parseTeamChallengeFromRoute, htrim, if_neg hne, hhostOf, beforeFirst_append hbefore hdot,
    trimSuffix_append]

/-- The ids that are read from a name, part by part. -/
theorem idsOfName_eq_some {rest : List Char} {t c : Int}
    (h : idsOfName ("team".toList ++ '-' :: rest) = some (t, c)) :
    ∃ team challenge more, rest.splitOn '-' = team :: challenge :: more ∧
      atoi team = some t ∧ atoi challenge = some c := by
  have hteam : ('-' : Char) ∉ "team".toList := by decide
  rw [idsOfName, List.splitOn_append_cons_self_of_not_mem hteam] at h
  split at h
  · rename_i first team challenge more hsplit
    obtain ⟨rfl, hrest⟩ := List.cons_eq_cons.mp hsplit
    rw [if_pos rfl] at h
    obtain ⟨t', ht, h⟩ := Option.bind_eq_some_iff.mp h
    obtain ⟨c', hc, h⟩ := Option.map_eq_some_iff.mp h
    obtain ⟨rfl, rfl⟩ := Prod.mk.inj h
    exact ⟨team, challenge, more, hrest, ht, hc⟩
  · cases h

theorem atoi_render {n : Int32} (h : 0 ≤ n.toInt) : atoi (renderInt32 n) = some n.toInt := by
  obtain ⟨m, hm, hrender⟩ := renderInt32_of_nonneg h
  have hhigh := n.toInt_lt
  rw [atoi, hrender, signedDecimal_repr, Option.bind_some, if_pos ⟨by omega, by omega⟩, hm]

/-- A part that begins with a separator is empty when it is read. -/
theorem splitOn_dash (rest : List Char) : ('-' :: rest).splitOn '-' = [] :: rest.splitOn '-' :=
  List.splitOn_append_cons_self_of_not_mem List.not_mem_nil rest

theorem render_of_neg {n : Int32} (h : n.toInt < 0) : ∃ digits, renderInt32 n = '-' :: digits := by
  obtain ⟨m, hm⟩ := Int.exists_eq_neg_ofNat (Int.le_of_lt h)
  obtain ⟨m, rfl⟩ := Nat.exists_eq_succ_of_ne_zero (n := m) (by omega)
  refine ⟨(Nat.repr (m + 1)).toList, ?_⟩
  have hneg : n.toInt = Int.negSucc m := by omega
  rw [renderInt32, hneg]
  change ("-" ++ Nat.repr (m + 1)).toList = _
  rw [String.toList_append]
  rfl

theorem renderTeam_of_neg (h : teamId.toInt < 0) :
    renderTeam teamId = "shared".toList ∨ (teamId = -1 ∧ renderTeam teamId = "0".toList) ∨
      ∃ digits, renderTeam teamId = '-' :: digits := by
  unfold renderTeam
  split
  · exact Or.inl rfl
  · split
    · rename_i hpreview
      exact Or.inr (Or.inl ⟨hpreview, rfl⟩)
    · exact Or.inr (Or.inr (render_of_neg h))

theorem requestLine_app (happ : getDeploymentAppName k teamId challengeId name date = some app)
    (protocol : Protocol) :
    (requestLine protocol app.toList).ids = (idsOfName app.toList).map
      fun (team, challenge) => (toString team, toString challenge) := by
  cases protocol with
  | http => simp only [requestLine, parse_expandRoute happ]
  | tcp => simp only [requestLine, parse_expandRoute happ, parse_app happ, Option.or_self]

/-- The control plane reads no team 0: it stands for the preview. -/
theorem team_ne_zero {appName : String} {team challenge : Int32}
    (h : parseDeploymentAppName appName = .ok (team, challenge)) : team ≠ 0 := by
  unfold parseDeploymentAppName at h
  split at h
  · split at h
    · cases h
    · split at h
      · cases h
      · split at h
        · cases h
        · obtain ⟨rfl, -⟩ := Prod.mk.inj (Except.ok.inj h)
          split
          · decide
          · assumption
  · cases h

/-- When the gateway reads the ids of a deployment as they are, the team is none of those that
have an id of their own in the name. -/
theorem nonneg_of_ids (happ : getDeploymentAppName k teamId challengeId name date = some app)
    (h : idsOfName app.toList = some (teamId.toInt, challengeId.toInt)) :
    0 ≤ teamId.toInt ∧ 0 ≤ challengeId.toInt := by
  rw [(getDeploymentAppName_eq_some_iff.mp happ).2] at h
  obtain ⟨team, challenge, more, hsplit, hteam, hchallenge⟩ := idsOfName_eq_some h
  have hempty : atoi [] = none := rfl
  have hnonneg : 0 ≤ teamId.toInt := by
    by_contra hneg
    rw [Int.not_le] at hneg
    rcases renderTeam_of_neg hneg with hrender | ⟨rfl, hrender⟩ | ⟨digits, hrender⟩
    · have hdash : ('-' : Char) ∉ "shared".toList := by decide
      rw [hrender, List.splitOn_append_cons_self_of_not_mem hdash] at hsplit
      obtain ⟨rfl, -⟩ := List.cons_eq_cons.mp hsplit
      cases hteam
    · have hdash : ('-' : Char) ∉ "0".toList := by decide
      rw [hrender, List.splitOn_append_cons_self_of_not_mem hdash] at hsplit
      obtain ⟨rfl, -⟩ := List.cons_eq_cons.mp hsplit
      exact absurd hteam (by decide)
    · rw [hrender, List.cons_append, splitOn_dash] at hsplit
      obtain ⟨rfl, -⟩ := List.cons_eq_cons.mp hsplit
      rw [hempty] at hteam
      cases hteam
  refine ⟨hnonneg, ?_⟩
  by_contra hneg
  rw [Int.not_le] at hneg
  obtain ⟨digits, hrender⟩ := render_of_neg hneg
  rw [renderTeam_of_nonneg hnonneg,
    List.splitOn_append_cons_self_of_not_mem (dash_notMem_render hnonneg), hrender,
    List.cons_append, splitOn_dash] at hsplit
  obtain ⟨-, hsplit⟩ := List.cons_eq_cons.mp hsplit
  obtain ⟨rfl, -⟩ := List.cons_eq_cons.mp hsplit
  rw [hempty] at hchallenge
  cases hchallenge

theorem ids_of_positive (happ : getDeploymentAppName k teamId challengeId name date = some app)
    (hteam : 0 < teamId.toInt) (hchallenge : 0 ≤ challengeId.toInt) :
    idsOfName app.toList = some (teamId.toInt, challengeId.toInt) := by
  have hnonneg : 0 ≤ teamId.toInt := Int.le_of_lt hteam
  rw [(getDeploymentAppName_eq_some_iff.mp happ).2, renderTeam_of_nonneg hnonneg, idsOfName,
    splitOn_app (by decide) (dash_notMem_render hnonneg) (dash_notMem_render hchallenge)]
  dsimp only
  rw [if_pos rfl, atoi_render hnonneg, atoi_render hchallenge]
  rfl

/-- The gateway and the control plane agree about the deployments of teams; a preview and a
shared instance are logged under no id or another one. -/
theorem attributed_iff (k : Characters) (teamId challengeId : Int32) (name : String) (date : Nat)
    (app : String) (happ : getDeploymentAppName k teamId challengeId name date = some app) :
    Attributed teamId challengeId app ↔ 0 < teamId.toInt ∧ 0 ≤ challengeId.toInt := by
  constructor
  · intro h
    have hline := ((h.found .http teamId challengeId "" (Or.inl rfl)).mpr ⟨rfl, rfl⟩).1
    rw [requestLine_app happ] at hline
    obtain ⟨⟨t, c⟩, hids, htexts⟩ := Option.map_eq_some_iff.mp hline
    obtain ⟨ht, hc⟩ := Prod.mk.inj htexts
    obtain rfl := Int.repr_inj.mp ht
    obtain rfl := Int.repr_inj.mp hc
    obtain ⟨hteam, hchallenge⟩ := nonneg_of_ids happ hids
    obtain ⟨team, challenge, hparse, hroute⟩ := h.agrees
    rw [parse_expandRoute happ, hids] at hroute
    have hsame := (Prod.mk.inj (Option.some.inj hroute)).1
    have hne : teamId.toInt ≠ 0 := by
      intro hzero
      rw [hzero] at hsame
      exact team_ne_zero hparse (Int32.toInt_inj.mp hsame.symm)
    exact ⟨by omega, hchallenge⟩
  · rintro ⟨hteam, hchallenge⟩
    have hids : idsOfName app.toList = some (teamId.toInt, challengeId.toInt) :=
      ids_of_positive happ hteam hchallenge
    constructor
    · refine ⟨teamId, challengeId, parse_getDeploymentAppName happ (Or.inl hteam) hchallenge, ?_⟩
      rw [parse_expandRoute happ, hids]
    · intro protocol team challenge ns hns
      have hline : (requestLine protocol app.toList).ids =
          some (toString teamId.toInt, toString challengeId.toInt) := by
        rw [requestLine_app happ, hids]
        rfl
      rw [RequestLogFilter, hline]
      constructor
      · rintro ⟨htexts, -⟩
        obtain ⟨ht, hc⟩ := Prod.mk.inj (Option.some.inj htexts)
        exact ⟨Int32.toInt_inj.mp (Int.repr_inj.mp ht).symm,
          Int32.toInt_inj.mp (Int.repr_inj.mp hc).symm⟩
      · rintro ⟨rfl, rfl⟩
        refine ⟨rfl, hns.imp_right ?_⟩
        rintro rfl
        rfl

theorem attributed_seven :
    getDeploymentAppName .lowerCase 7 1 "web" 1768089600 = some "team-7-1-web-1768089600" ∧
      Attributed 7 1 "team-7-1-web-1768089600" := by
  refine ⟨by decide, ?_⟩
  exact (attributed_iff .lowerCase 7 1 "web" 1768089600 _ (by decide)).mpr (by decide)

/-- The gateway reads the preview as the team 0. -/
theorem preview_not_found : ¬ ∀ (k : Characters) (teamId challengeId : Int32) (name : String)
    (date : Nat) (app : String), IsTeam teamId → 1 ≤ challengeId.toInt →
      getDeploymentAppName k teamId challengeId name date = some app →
      Attributed teamId challengeId app := by
  intro hall
  have happ : getDeploymentAppName .lowerCase (-1) 1 "web" 1768089600 =
      some "team-0-1-web-1768089600" := by
    decide
  have hpreview := hall .lowerCase (-1) 1 "web" 1768089600 _ (by decide) (by decide) happ
  have hline := ((hpreview.found .http (-1) 1 "" (Or.inl rfl)).mpr ⟨rfl, rfl⟩).1
  rw [requestLine_app happ] at hline
  exact absurd hline (by decide)

end Deployment

end Fctf
