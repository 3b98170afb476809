import Fctf.Text
import Mathlib

/-!
The name of a deployment. It becomes the name of a namespace, and the services read the team and
the challenge from it again.
-/

namespace Fctf

/-! ### Characters -/

/-- The characters of a label of the domain name system. -/
def isLabelChar (c : Char) : Bool := c.isLower || c.isDigit || c = '-'

/-- The tables of Unicode that .NET uses. Lower-case letters are valid characters. Normal form C
leaves ASCII as it is. That of lower-case letters has in ASCII only letters, and is in ASCII only if
they are. -/
structure Characters where
  formD : List Char → List Char
  formC : List Char → List Char
  isNonSpacingMark : Char → Bool
  isLetterOrDigit : Char → Bool
  toLowerInvariant : Char → Char
  toLower : Char → Char
  toLower_label : ∀ c, isLabelChar c = true → toLower c = c
  lower_label : ∀ c, isLetterOrDigit c = true → (toLowerInvariant c).toNat < 128 →
    isLabelChar (toLowerInvariant c) = true
  lower_valid : ∀ c, isLetterOrDigit c = true → toLowerInvariant c ≠ '\uFFFE'
  formC_ascii : ∀ s : List Char, (∀ c ∈ s, c.toNat < 128) → formC s = s
  formC_lower : ∀ s : List Char,
    (∀ c ∈ s, c = '-' ∨ ∃ d, isLetterOrDigit d = true ∧ c = toLowerInvariant d) →
      (∃ c ∈ s, 128 ≤ c.toNat) → ∃ c ∈ formC s, 128 ≤ (toLower c).toNat
  formC_label : ∀ s : List Char,
    (∀ c ∈ s, c = '-' ∨ ∃ d, isLetterOrDigit d = true ∧ c = toLowerInvariant d) →
      ∀ c ∈ formC s, (toLower c).toNat < 128 → isLabelChar (toLower c) = true

namespace Characters

variable (k : Characters)

/-- What becomes of a character in `ParseAlphaNumeric`. A character above the basic plane is two
surrogates, and neither of them is kept. -/
def sanitize (c : Char) : Option Char :=
  if 0x10000 ≤ c.toNat then none
  else if k.isNonSpacingMark c then none
  else if k.isLetterOrDigit c then some (k.toLowerInvariant c)
  else if isWhiteSpace c then some '-'
  else none

/-- `Normalize`. An invalid character is an exception; the surrogates of a text come in pairs
here, so that U+FFFE is the only one. -/
def normalize (form : List Char → List Char) (s : List Char) : Option (List Char) :=
  if '\uFFFE' ∈ s then none else some (form s)

def parseAlphaNumeric (input : String) : Option (List Char) :=
  if isNullOrWhiteSpace input then some []
  else do
    let normalized ← normalize k.formD input.toList
    normalize k.formC (normalized.filterMap k.sanitize)

/-- `ToLower` and then `Replace` of blanks. -/
def lowered (s : List Char) : List Char :=
  (s.map k.toLower).map fun c => if c = ' ' then '-' else c

end Characters

/-- A table for texts in lower case, with a letter that has no decomposition. -/
def Characters.lowerCase : Characters where
  formD := id
  formC := id
  isNonSpacingMark _ := false
  isLetterOrDigit c := c.isLower || c.isDigit || c = 'đ'
  toLowerInvariant := id
  toLower := id
  toLower_label _ _ := rfl
  lower_label c h hascii := by
    simp only [Bool.or_eq_true, decide_eq_true_eq] at h
    rcases h with h | rfl
    · simpa [isLabelChar] using Or.inl h
    · exact absurd hascii (by decide)
  lower_valid c h := by
    rintro rfl
    exact absurd h (by decide)
  formC_ascii _ _ := rfl
  formC_lower _ _ := id
  formC_label s h c hc hascii := by
    rcases h c hc with rfl | ⟨d, hd, rfl⟩
    · decide
    · simp only [Bool.or_eq_true, decide_eq_true_eq] at hd
      rcases hd with hd | rfl
      · simpa [isLabelChar] using Or.inl hd
      · exact absurd hascii (by decide)

/-! ### Numbers -/

/-- `int.TryParse`. -/
def tryParseInt32 (s : List Char) : Option Int32 :=
  (tryParse (-(2 ^ 31)) (2 ^ 31 - 1) (String.ofList s)).map Int32.ofInt

/-- A number of 32 bits in a text. -/
def renderInt32 (n : Int32) : List Char := (toString n.toInt).toList

/-! ### Names of deployments -/

/-- The team in a name: 0 stands for the preview and `shared` for an instance that is shared. -/
def renderTeam (teamId : Int32) : List Char :=
  if teamId = -2 then "shared".toList else renderInt32 (if teamId = -1 then 0 else teamId)

def getDeploymentAppName (k : Characters) (teamId challengeId : Int32) (challengeName : String)
    (date : Nat) : Option String := do
  let challName ← k.parseAlphaNumeric challengeName
  return String.ofList (k.lowered ("team-".toList ++ (renderTeam teamId ++ '-' ::
    (renderInt32 challengeId ++ '-' :: (challName ++ '-' :: date.repr.toList)))))

def parseDeploymentAppName (appName : String) : Except String (Int32 × Int32) :=
  match (appName.toList.splitOn '-').filter fun part => !part.isEmpty with
  | first :: team :: challenge :: _ =>
    if "team".toList.isPrefixOf first = false then .error "Invalid app name format"
    else
      match if equalsIgnoreCase (String.ofList team) "shared" then some (-2)
        else tryParseInt32 team with
      | none => .error "Invalid teamId in app name"
      | some teamId =>
        match tryParseInt32 challenge with
        | none => .error "Invalid challengeId in app name"
        | some challengeId => .ok (if teamId = 0 then -1 else teamId, challengeId)
  | _ => .error "Invalid app name format"

/-! ### What is kept of a challenge's name -/

section Kept

variable {k : Characters} {name : String} {c d : Char}

theorem sanitize_lower (h : k.sanitize c = some d) :
    d = '-' ∨ ∃ c, k.isLetterOrDigit c = true ∧ d = k.toLowerInvariant c := by
  unfold Characters.sanitize at h
  split at h
  · cases h
  · split at h
    · cases h
    · split at h
      · rename_i hletter
        exact Or.inr ⟨c, hletter, (Option.some.inj h).symm⟩
      · split at h
        · exact Or.inl (Option.some.inj h).symm
        · cases h

theorem lower_of_kept {s : List Char} : ∀ d ∈ s.filterMap k.sanitize,
    d = '-' ∨ ∃ c, k.isLetterOrDigit c = true ∧ d = k.toLowerInvariant c := by
  intro d hd
  obtain ⟨c, -, hsome⟩ := List.mem_filterMap.mp hd
  exact sanitize_lower hsome

theorem valid_of_kept {s : List Char} : '\uFFFE' ∉ s.filterMap k.sanitize := by
  intro hmem
  rcases lower_of_kept _ hmem with hdash | ⟨c, hletter, hlower⟩
  · exact absurd hdash (by decide)
  · exact k.lower_valid c hletter hlower.symm

/-- What is kept of a name, where there is no exception. -/
def Characters.kept (k : Characters) (name : String) : List Char :=
  if isNullOrWhiteSpace name then []
  else k.formC ((k.formD name.toList).filterMap k.sanitize)

theorem valid_of_blank (h : isNullOrWhiteSpace name = true) : '\uFFFE' ∉ name.toList := by
  intro hmem
  exact absurd (List.all_eq_true.mp h _ hmem) (by decide)

/-- The one exception is that of `Normalize` for the name. -/
theorem parseAlphaNumeric_eq_some_iff {kept : List Char} :
    k.parseAlphaNumeric name = some kept ↔ '\uFFFE' ∉ name.toList ∧ kept = k.kept name := by
  unfold Characters.parseAlphaNumeric Characters.kept
  split
  · rename_i hblank
    simp [valid_of_blank hblank, eq_comm]
  · by_cases hvalid : '\uFFFE' ∈ name.toList
    · simp [Characters.normalize, hvalid]
    · simp only [Characters.normalize, if_neg hvalid, Option.bind_eq_bind, Option.bind_some,
        if_neg valid_of_kept, Option.some.injEq]
      simp [hvalid, eq_comm]

end Kept

/-! ### What is lowered -/

section Lowered

variable {k : Characters} {s : List Char}

theorem lowered_append (s t : List Char) : k.lowered (s ++ t) = k.lowered s ++ k.lowered t := by
  simp [Characters.lowered]

theorem lowered_cons (c : Char) (s : List Char) :
    k.lowered (c :: s) = k.lowered [c] ++ k.lowered s :=
  lowered_append [c] s

theorem lowered_label (h : ∀ c ∈ s, isLabelChar c = true) : k.lowered s = s := by
  induction s with
  | nil => rfl
  | cons c s ih =>
    obtain ⟨hc, hs⟩ := List.forall_mem_cons.mp h
    have hne : c ≠ ' ' := by
      rintro rfl
      cases hc
    rw [lowered_cons, ih hs]
    simp [Characters.lowered, k.toLower_label c hc, hne]

theorem toNat_lt_of_label {c : Char} (h : isLabelChar c = true) : c.toNat < 128 := by
  simp only [isLabelChar, Bool.or_eq_true, decide_eq_true_eq] at h
  rcases h with (hlower | hdigit) | rfl
  · rw [Char.isLower, Bool.and_eq_true, decide_eq_true_eq, decide_eq_true_eq] at hlower
    have hle : c.toNat ≤ 122 := hlower.2
    omega
  · have hle : c.toNat ≤ 57 := (Char.isDigit_iff_toNat.mp hdigit).2
    omega
  · decide

theorem isLabelChar_of_isDigit {c : Char} (h : c.isDigit = true) : isLabelChar c = true := by
  simp [isLabelChar, h]

theorem isLabelChar_of_mem_repr {n : Nat} {c : Char} (h : c ∈ n.repr.toList) :
    isLabelChar c = true :=
  isLabelChar_of_isDigit (isDigit_of_mem_repr h)

theorem isLabelChar_of_mem_toString {n : Int} {c : Char} (h : c ∈ (toString n).toList) :
    isLabelChar c = true := by
  cases n with
  | ofNat n => exact isLabelChar_of_mem_repr h
  | negSucc n =>
    have hminus : (toString (Int.negSucc n)).toList = '-' :: (n + 1).repr.toList := by
      change ("-" ++ Nat.repr (n + 1)).toList = _
      rw [String.toList_append]
      rfl
    rw [hminus] at h
    rcases List.mem_cons.mp h with rfl | h
    · rfl
    · exact isLabelChar_of_mem_repr h

theorem isLabelChar_of_mem_renderTeam {teamId : Int32} {c : Char} (h : c ∈ renderTeam teamId) :
    isLabelChar c = true := by
  unfold renderTeam at h
  split at h
  · have hall : "shared".toList.all isLabelChar = true := by decide
    exact List.all_eq_true.mp hall c h
  · exact isLabelChar_of_mem_toString h

theorem lowered_parts (teamId challengeId : Int32) (challName : List Char) (date : Nat) :
    k.lowered ("team-".toList ++ (renderTeam teamId ++ '-' ::
        (renderInt32 challengeId ++ '-' :: (challName ++ '-' :: date.repr.toList)))) =
      "team".toList ++ '-' :: (renderTeam teamId ++ '-' :: (renderInt32 challengeId ++ '-' ::
        (k.lowered challName ++ '-' :: date.repr.toList))) := by
  have hteam : k.lowered "team-".toList = "team-".toList := by
    refine lowered_label fun c hc => ?_
    have hall : "team-".toList.all isLabelChar = true := by decide
    exact List.all_eq_true.mp hall c hc
  have hdash : k.lowered ['-'] = ['-'] := lowered_label (by simp [isLabelChar])
  rw [lowered_append, hteam, lowered_append,
    lowered_label fun _ => isLabelChar_of_mem_renderTeam, lowered_cons, hdash, lowered_append,
    renderInt32, lowered_label fun _ => isLabelChar_of_mem_toString, lowered_cons, hdash,
    lowered_append, lowered_cons, hdash, lowered_label fun _ => isLabelChar_of_mem_repr]
  rfl

/-- Only what is left of the challenge's name can be changed when the name is lowered. -/
theorem getDeploymentAppName_eq_some_iff {teamId challengeId : Int32} {name : String} {date : Nat}
    {app : String} : getDeploymentAppName k teamId challengeId name date = some app ↔
      '\uFFFE' ∉ name.toList ∧
        app.toList = "team".toList ++ '-' :: (renderTeam teamId ++ '-' ::
          (renderInt32 challengeId ++ '-' ::
            (k.lowered (k.kept name) ++ '-' :: date.repr.toList))) := by
  simp only [getDeploymentAppName, Option.bind_eq_bind, Option.bind_eq_some_iff,
    parseAlphaNumeric_eq_some_iff, Option.pure_def, Option.some.injEq, lowered_parts]
  constructor
  · rintro ⟨challName, ⟨hvalid, rfl⟩, rfl⟩
    exact ⟨hvalid, String.toList_ofList⟩
  · rintro ⟨hvalid, happ⟩
    exact ⟨_, ⟨hvalid, rfl⟩, by rw [← happ, String.ofList_toList]⟩

theorem getDeploymentAppName_exists_iff {teamId challengeId : Int32} {name : String} {date : Nat} :
    (∃ app, getDeploymentAppName k teamId challengeId name date = some app) ↔
      '\uFFFE' ∉ name.toList := by
  constructor
  · rintro ⟨app, happ⟩
    exact (getDeploymentAppName_eq_some_iff.mp happ).1
  · intro hvalid
    exact ⟨String.ofList _, getDeploymentAppName_eq_some_iff.mpr ⟨hvalid, String.toList_ofList⟩⟩

end Lowered

/-! ### What is read again -/

theorem renderInt32_of_nonneg {n : Int32} (h : 0 ≤ n.toInt) :
    ∃ m : Nat, n.toInt = m ∧ renderInt32 n = m.repr.toList := by
  obtain ⟨m, hm⟩ := Int.eq_ofNat_of_zero_le h
  refine ⟨m, hm, ?_⟩
  rw [renderInt32, hm]
  rfl

theorem tryParseInt32_render (n : Int32) : tryParseInt32 (renderInt32 n) = some n := by
  have hrange : -(2 ^ 31) ≤ n.toInt ∧ n.toInt ≤ 2 ^ 31 - 1 :=
    ⟨n.le_toInt, Int.le_sub_one_of_lt n.toInt_lt⟩
  rw [tryParseInt32, renderInt32, String.ofList_toList, tryParse_toString hrange, Option.map_some,
    Int32.ofInt_toInt]

theorem dash_notMem_render {n : Int32} (h : 0 ≤ n.toInt) : '-' ∉ renderInt32 n := by
  obtain ⟨m, -, hrender⟩ := renderInt32_of_nonneg h
  rw [hrender]
  intro hmem
  cases isDigit_of_mem_repr hmem

theorem render_ne_nil {n : Int32} (h : 0 ≤ n.toInt) : renderInt32 n ≠ [] := by
  obtain ⟨m, -, hrender⟩ := renderInt32_of_nonneg h
  rw [hrender]
  exact repr_ne_nil m

theorem renderTeam_of_nonneg {teamId : Int32} (h : 0 ≤ teamId.toInt) :
    renderTeam teamId = renderInt32 teamId := by
  have hshared : teamId ≠ -2 := by
    rintro rfl
    exact absurd h (by decide)
  have hpreview : teamId ≠ -1 := by
    rintro rfl
    exact absurd h (by decide)
  rw [renderTeam, if_neg hshared, if_neg hpreview]

/-- A team id that a deployment has: a team's, that of the preview or that of shared instances. -/
def IsTeam (teamId : Int32) : Prop := 0 < teamId.toInt ∨ teamId = -1 ∨ teamId = -2

instance decidableIsTeam (teamId : Int32) : Decidable (IsTeam teamId) :=
  inferInstanceAs (Decidable (_ ∨ _ ∨ _))

/-- The part for the team has no separator in it, and the team is read from it again. -/
theorem renderTeam_spec {teamId : Int32} (h : IsTeam teamId) :
    '-' ∉ renderTeam teamId ∧ renderTeam teamId ≠ [] ∧
      ∃ read : Int32, (if equalsIgnoreCase (String.ofList (renderTeam teamId)) "shared" then
        some (-2) else tryParseInt32 (renderTeam teamId)) = some read ∧
          (if read = 0 then -1 else read) = teamId := by
  rcases h with hpos | rfl | rfl
  · have hnonneg : 0 ≤ teamId.toInt := Int.le_of_lt hpos
    have hrender := renderTeam_of_nonneg hnonneg
    have hdigits : equalsIgnoreCase (String.ofList (renderInt32 teamId)) "shared" = false := by
      obtain ⟨m, -, hm⟩ := renderInt32_of_nonneg hnonneg
      rw [equalsIgnoreCase, String.toList_ofList, hm, beq_eq_false_iff_ne]
      intro heq
      have hs : 'S' ∈ m.repr.toList.map Char.toUpper := heq ▸ by decide
      obtain ⟨c, hc, hupper⟩ := List.mem_map.mp hs
      have hle : c.toNat ≤ 57 := (Char.isDigit_iff_toNat.mp (isDigit_of_mem_repr hc)).2
      have hsame : c.toUpper = c := by
        rw [Char.toUpper, dif_neg]
        rintro ⟨hlower, -⟩
        have hlow : (97 : Nat) ≤ c.toNat := hlower
        omega
      rw [hsame] at hupper
      subst hupper
      exact absurd hle (by decide)
    refine ⟨hrender ▸ dash_notMem_render hnonneg, hrender ▸ render_ne_nil hnonneg, teamId, ?_, ?_⟩
    · rw [hrender, hdigits, tryParseInt32_render]
      rfl
    · rw [if_neg]
      rintro rfl
      exact absurd hpos (by decide)
  · exact ⟨by decide, by decide, 0, by decide, by decide⟩
  · exact ⟨by decide, by decide, -2, by decide, by decide⟩

theorem splitOn_app {first team challenge rest : List Char} (hfirst : '-' ∉ first)
    (hteam : '-' ∉ team) (hchallenge : '-' ∉ challenge) :
    (first ++ '-' :: (team ++ '-' :: (challenge ++ '-' :: rest))).splitOn '-' =
      first :: team :: challenge :: rest.splitOn '-' := by
  rw [List.splitOn_append_cons_self_of_not_mem hfirst,
    List.splitOn_append_cons_self_of_not_mem hteam,
    List.splitOn_append_cons_self_of_not_mem hchallenge]

theorem filter_parts {first team challenge : List Char} (hfirst : first ≠ []) (hteam : team ≠ [])
    (hchallenge : challenge ≠ []) (rest : List (List Char)) :
    (first :: team :: challenge :: rest).filter (fun part => !part.isEmpty) =
      first :: team :: challenge :: rest.filter fun part => !part.isEmpty := by
  simp [hfirst, hteam, hchallenge]

theorem parse_getDeploymentAppName {k : Characters} {teamId challengeId : Int32} {name : String}
    {date : Nat} {app : String}
    (happ : getDeploymentAppName k teamId challengeId name date = some app)
    (hteam : IsTeam teamId) (hchallenge : 0 ≤ challengeId.toInt) :
    parseDeploymentAppName app = .ok (teamId, challengeId) := by
  obtain ⟨hdash, hne, read, hread, hteam⟩ := renderTeam_spec hteam
  have hfirst : ('-' : Char) ∉ "team".toList := by decide
  rw [parseDeploymentAppName, (getDeploymentAppName_eq_some_iff.mp happ).2,
    splitOn_app hfirst hdash (dash_notMem_render hchallenge),
    filter_parts (by decide) hne (render_ne_nil hchallenge)]
  dsimp only
  rw [if_neg (by decide), hread, tryParseInt32_render]
  simp only [hteam]

/-- The team and the challenge are read from a name as they were written, whatever the
challenge is called; only for a name that cannot be normalised there is none. -/
theorem app_name_round_trip_iff (k : Characters) (teamId challengeId : Int32) (name : String)
    (date : Nat) (hteam : IsTeam teamId) (hchallenge : 1 ≤ challengeId.toInt) :
    (∃ app, getDeploymentAppName k teamId challengeId name date = some app ∧
        parseDeploymentAppName app = .ok (teamId, challengeId)) ↔
      '\uFFFE' ∉ name.toList := by
  rw [← getDeploymentAppName_exists_iff]
  constructor
  · rintro ⟨app, happ, -⟩
    exact ⟨app, happ⟩
  · rintro ⟨app, happ⟩
    have hnonneg : 0 ≤ challengeId.toInt := by omega
    exact ⟨app, happ, parse_getDeploymentAppName happ hteam hnonneg⟩

theorem app_name_round_trip_seven :
    IsTeam 7 ∧ 1 ≤ (1 : Int32).toInt ∧
      ∃ app, getDeploymentAppName .lowerCase 7 1 "web 1" 1768089600 = some app ∧
        parseDeploymentAppName app = .ok (7, 1) := by
  refine ⟨by decide, by decide, ?_⟩
  exact (app_name_round_trip_iff _ 7 1 "web 1" 1768089600 (by decide) (by decide)).mpr (by decide)

/-- A name that is no valid text for `Normalize`. -/
theorem app_name_raised : ¬ ∀ (k : Characters) (teamId challengeId : Int32) (name : String)
    (date : Nat), IsTeam teamId → 1 ≤ challengeId.toInt →
      ∃ app, getDeploymentAppName k teamId challengeId name date = some app ∧
        parseDeploymentAppName app = .ok (teamId, challengeId) := by
  intro hall
  obtain ⟨app, happ, -⟩ := hall .lowerCase 7 1 "\uFFFE" 1768089600 (by decide) (by decide)
  exact (getDeploymentAppName_exists_iff.mp ⟨app, happ⟩) (by decide)

/-! ### Names that Kubernetes takes -/

/-- A label in the sense of RFC 1123. -/
structure IsLabel (s : List Char) : Prop where
  ne_nil : s ≠ []
  length_le : s.length ≤ 63
  chars : ∀ c ∈ s, isLabelChar c = true
  head : ∀ c ∈ s.head?, c ≠ '-'
  last : ∀ c ∈ s.getLast?, c ≠ '-'

section Label

variable (k : Characters)

/-- Every character that is kept of a name is one of ASCII. -/
def Characters.Plain (name : String) : Prop :=
  isNullOrWhiteSpace name = true ∨
    ∀ c ∈ k.formD name.toList, ∀ d ∈ k.sanitize c, d.toNat < 128

instance decidablePlain (name : String) : Decidable (k.Plain name) :=
  inferInstanceAs (Decidable (_ ∨ ∀ _ ∈ _, ∀ _ ∈ _, _))

/-- How many characters are kept of a name. -/
def Characters.keptLength (name : String) : Nat :=
  if isNullOrWhiteSpace name then 0
  else (k.formD name.toList).countP fun c => (k.sanitize c).isSome

variable {k} {name : String} {teamId challengeId : Int32} {date : Nat} {app : String}

theorem isLabelChar_of_sanitize {c d : Char} (h : k.sanitize c = some d) (hascii : d.toNat < 128) :
    isLabelChar d = true := by
  rcases sanitize_lower h with rfl | ⟨c, hletter, rfl⟩
  · rfl
  · exact k.lower_label c hletter hascii

/-- A character of ASCII in a lowered name is one of a label. -/
theorem isLabelChar_of_lowered {c : Char} (hc : c ∈ k.lowered (k.kept name))
    (hascii : c.toNat < 128) : isLabelChar c = true := by
  unfold Characters.kept at hc
  split at hc
  · cases hc
  · rw [Characters.lowered, List.map_map] at hc
    obtain ⟨d, hd, rfl⟩ := List.mem_map.mp hc
    by_cases hblank : k.toLower d = ' '
    · rw [Function.comp_apply, if_pos hblank]
      rfl
    · rw [Function.comp_apply, if_neg hblank] at hascii ⊢
      exact k.formC_label _ lower_of_kept d hd hascii

/-- What is not a character of a label comes from the challenge's name. -/
theorem mem_app (happ : getDeploymentAppName k teamId challengeId name date = some app) {c : Char}
    (hc : c ∈ app.toList) : isLabelChar c = true ∨ c ∈ k.lowered (k.kept name) := by
  rw [(getDeploymentAppName_eq_some_iff.mp happ).2] at hc
  simp only [List.mem_append, List.mem_cons] at hc
  rcases hc with hc | rfl | hc | rfl | hc | rfl | hc | rfl | hc
  · have hall : "team".toList.all isLabelChar = true := by decide
    exact Or.inl (List.all_eq_true.mp hall c hc)
  · exact Or.inl rfl
  · exact Or.inl (isLabelChar_of_mem_renderTeam hc)
  · exact Or.inl rfl
  · exact Or.inl (isLabelChar_of_mem_toString hc)
  · exact Or.inl rfl
  · exact Or.inr hc
  · exact Or.inl rfl
  · exact Or.inl (isLabelChar_of_mem_repr hc)

theorem isLabelChar_of_mem_app
    (happ : getDeploymentAppName k teamId challengeId name date = some app) {c : Char}
    (hc : c ∈ app.toList) (hascii : c.toNat < 128) : isLabelChar c = true := by
  rcases mem_app happ hc with hlabel | hname
  · exact hlabel
  · exact isLabelChar_of_lowered hname hascii

/-- A name of a deployment ends with the digits of its date. -/
theorem app_reverse (happ : getDeploymentAppName k teamId challengeId name date = some app) :
    ∃ last rest, app.toList.reverse = last :: rest ∧ last.isDigit = true := by
  rw [(getDeploymentAppName_eq_some_iff.mp happ).2]
  cases hdate : date.repr.toList.reverse with
  | nil => exact absurd (List.reverse_eq_nil_iff.mp hdate) (repr_ne_nil date)
  | cons last rest =>
    have hlast : last ∈ date.repr.toList := by
      rw [← List.mem_reverse, hdate]
      exact List.mem_cons_self
    simp only [List.reverse_append, List.reverse_cons, hdate, List.append_assoc, List.cons_append]
    exact ⟨last, _, rfl, isDigit_of_mem_repr hlast⟩

/-- What is kept of a plain name, in the name of the deployment. -/
theorem lowered_of_plain (h : k.Plain name) :
    (∀ c ∈ k.lowered (k.kept name), isLabelChar c = true) ∧
      (k.lowered (k.kept name)).length = k.keptLength name := by
  unfold Characters.kept Characters.keptLength
  split
  · exact ⟨by simp [Characters.lowered], rfl⟩
  · rename_i hblank
    have hplain := h.resolve_left hblank
    have hlabel : ∀ d ∈ (k.formD name.toList).filterMap k.sanitize, isLabelChar d = true := by
      intro d hd
      obtain ⟨c, hc, hsome⟩ := List.mem_filterMap.mp hd
      exact isLabelChar_of_sanitize hsome (hplain c hc d hsome)
    have hascii : ∀ d ∈ (k.formD name.toList).filterMap k.sanitize, d.toNat < 128 := by
      intro d hd
      obtain ⟨c, hc, hsome⟩ := List.mem_filterMap.mp hd
      exact hplain c hc d hsome
    rw [k.formC_ascii _ hascii, lowered_label hlabel, List.length_filterMap_eq_countP]
    exact ⟨hlabel, rfl⟩

/-- A character that is not in ASCII stays in the name of the deployment. -/
theorem plain_of_label (h : ∀ c ∈ k.lowered (k.kept name), isLabelChar c = true) :
    k.Plain name := by
  by_contra hplain
  unfold Characters.Plain at hplain
  push Not at hplain
  obtain ⟨hblank, c, hc, d, hd, hbig⟩ := hplain
  obtain ⟨e, he, hlarge⟩ :=
    k.formC_lower _ lower_of_kept ⟨d, List.mem_filterMap.mpr ⟨c, hc, hd⟩, hbig⟩
  have hne : k.toLower e ≠ ' ' := by
    intro heq
    rw [heq] at hlarge
    exact absurd hlarge (by decide)
  have hmem : k.toLower e ∈ k.lowered (k.kept name) := by
    rw [Characters.kept, if_neg hblank, Characters.lowered, List.map_map]
    exact List.mem_map.mpr ⟨e, he, if_neg hne⟩
  have hsmall := toNat_lt_of_label (h _ hmem)
  omega

/-- The name of a deployment is one that Kubernetes takes exactly when what is kept of the
challenge's name is in ASCII and short enough. -/
theorem isLabel_iff (k : Characters) (teamId challengeId : Int32) (name : String) (date : Nat) :
    (∃ app, getDeploymentAppName k teamId challengeId name date = some app ∧ IsLabel app.toList) ↔
      '\uFFFE' ∉ name.toList ∧ k.Plain name ∧
        (renderTeam teamId).length + (renderInt32 challengeId).length + k.keptLength name +
          date.repr.toList.length ≤ 55 := by
  have hteam : "team".toList.length = 4 := rfl
  constructor
  · rintro ⟨app, happ, h⟩
    obtain ⟨hvalid, htoList⟩ := getDeploymentAppName_eq_some_iff.mp happ
    have hname : ∀ c ∈ k.lowered (k.kept name), isLabelChar c = true := by
      intro c hc
      refine h.chars c ?_
      rw [htoList]
      simp only [List.mem_append, List.mem_cons, hc, true_or, or_true]
    have hplain := plain_of_label hname
    have hlength := h.length_le
    rw [htoList] at hlength
    simp only [List.length_append, List.length_cons, (lowered_of_plain hplain).2, hteam] at hlength
    exact ⟨hvalid, hplain, by omega⟩
  · rintro ⟨hvalid, hplain, hshort⟩
    obtain ⟨hname, hlength⟩ := lowered_of_plain hplain
    obtain ⟨app, happ⟩ := getDeploymentAppName_exists_iff.mpr hvalid
    have htoList := (getDeploymentAppName_eq_some_iff.mp happ).2
    refine ⟨app, happ, ?_⟩
    constructor
    · rw [htoList]
      simp
    · rw [htoList]
      simp only [List.length_append, List.length_cons, hlength, hteam]
      omega
    · intro c hc
      rcases mem_app happ hc with hlabel | hkept
      · exact hlabel
      · exact hname c hkept
    · intro c hc
      rw [htoList] at hc
      have hhead : c = 't' := Option.some.inj (hc.symm.trans rfl)
      rw [hhead]
      decide
    · intro c hc
      obtain ⟨last, rest, hreverse, hdigit⟩ := app_reverse happ
      rw [List.getLast?_eq_head?_reverse, hreverse] at hc
      obtain rfl := Option.some.inj hc
      rintro rfl
      cases hdigit

/-- A letter that is not made of an ASCII letter and a mark is kept as it is. -/
theorem letter_kept : ¬ ∀ (k : Characters) (teamId challengeId : Int32) (name : String)
    (date : Nat), name.length ≤ 80 →
      ∃ app, getDeploymentAppName k teamId challengeId name date = some app ∧
        IsLabel app.toList := by
  intro hall
  obtain ⟨app, happ, hlabel⟩ := hall .lowerCase 7 1 "đen" 1768089600 (by decide)
  have hmem : 'đ' ∈ app.toList := by
    rw [(getDeploymentAppName_eq_some_iff.mp happ).2]
    decide
  exact absurd (hlabel.chars 'đ' hmem) (by decide)

end Label

end Fctf
