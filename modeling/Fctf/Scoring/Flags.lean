import Fctf.Lib.Casing
import Fctf.Text
import Mathlib.Data.LawfulXor.Basic

/-!
The comparison of a submission with the flags of a challenge, in the management platform
(Python) and in the contestant's service (C#). Texts are lists of characters; C# compares their
units in UTF-16.
-/

namespace Fctf.Flags

structure Flag where
  type : String
  content : Option (List Char)
  data : Option String

/-- What a comparison raises. -/
inductive Fault
  | flagException (message : String)
  | other

def configurationInvalid : String :=
  "Flag configuration is invalid. Please contact an administrator."

def regexError : String := "Regex parse error occured"

def typeUnavailable : String := "Flag type is unavailable. Please contact an administrator."

def Flag.ignoresCase (flag : Flag) : Bool := flag.data == some "case_insensitive"

/-- The differences of two sequences of numbers, taken together. -/
def differences (saved provided : List Nat) : Nat :=
  (saved.zip provided).foldl (fun result p => result ||| (p.1 ^^^ p.2)) 0

/-! ### The management platform -/

namespace Platform

/-- White space for Python's `strip`. -/
def isSpace (c : Char) : Bool := isWhiteSpace c || (0x1C ≤ c.toNat && c.toNat ≤ 0x1F)

def strip (s : List Char) : List Char :=
  ((s.dropWhile isSpace).reverse.dropWhile isSpace).reverse

inductive ReFault
  | error
  | other

/-- The module `re`. -/
structure Re where
  compile : List Char → Bool → Except ReFault Unit
  /-- The text that `match` finds. -/
  group : List Char → Bool → List Char → Except ReFault (Option (List Char))

variable (d : CaseData) (re : Re)

def validateSavedFlag (flag : Flag) : Except Fault Unit :=
  if flag.type ≠ "static" ∧ flag.type ≠ "regex" then .ok ()
  else
    match flag.content with
    | none => .error (.flagException configurationInvalid)
    | some content =>
      if content.all isSpace then .error (.flagException configurationInvalid)
      else if flag.type = "regex" then
        match re.compile content flag.ignoresCase with
        | .ok () => .ok ()
        | .error .error => .error (.flagException configurationInvalid)
        | .error .other => .error .other
      else .ok ()

def compareStatic (flag : Flag) (provided : List Char) : Except Fault Bool :=
  match validateSavedFlag re flag with
  | .error fault => .error fault
  | .ok () =>
    let saved := flag.content.getD []
    if saved.length ≠ provided.length then .ok false
    else if flag.ignoresCase then
      .ok (differences ((d.lowerText saved).map Char.toNat)
        ((d.lowerText provided).map Char.toNat) == 0)
    else .ok (differences (saved.map Char.toNat) (provided.map Char.toNat) == 0)

def compareRegex (flag : Flag) (provided : List Char) : Except Fault Bool :=
  match validateSavedFlag re flag with
  | .error fault => .error fault
  | .ok () =>
    match re.group (flag.content.getD []) flag.ignoresCase provided with
    | .ok res => .ok (res == some provided)
    | .error .error => .error (.flagException regexError)
    | .error .other => .error .other

/-- `get_flag_class` and the comparison of the class. -/
def compare (flag : Flag) (provided : List Char) : Except Fault Bool :=
  if flag.type = "static" then compareStatic d re flag provided
  else if flag.type = "regex" then compareRegex re flag provided
  else .error (.flagException typeUnavailable)

end Platform

/-! ### The contestant's service -/

namespace ChallengeHelper

/-- A string of .NET. -/
def units (s : List Char) : List Nat := s.flatMap Json.units

/-- `Regex.Match` with a timeout: the value of the match, or an exception. -/
abbrev Regex := List Char → Bool → List Char → Option (Option (List Char))

variable (d : CaseData) (regex : Regex)

def compareStatic (flag : Flag) (provided : Option (List Char)) : Bool :=
  let saved := units (flag.content.getD [])
  let provided := units (provided.getD [])
  if saved.length ≠ provided.length then false
  else if flag.ignoresCase then
    differences (saved.map d.lowerUnit) (provided.map d.lowerUnit) == 0
  else differences saved provided == 0

def compareRegex (flag : Flag) (provided : Option (List Char)) : Except Fault Bool :=
  match regex (flag.content.getD []) flag.ignoresCase (provided.getD []) with
  | some (some value) => .ok (some value == provided)
  | some none => .ok false
  | none => .error (.flagException regexError)

def compare (flag : Flag) (provided : Option (List Char)) : Except Fault Bool :=
  if (flag.content.getD []).all isWhiteSpace then .error (.flagException configurationInvalid)
  else if equalsIgnoreCase flag.type "static" then .ok (compareStatic d flag provided)
  else if equalsIgnoreCase flag.type "regex" then compareRegex regex flag provided
  else .error (.flagException typeUnavailable)

end ChallengeHelper

/-! ### An attempt -/

structure AttemptResult where
  status : Bool
  configurationError : Bool
  message : String

/-- The loop over the flags, with the last error of a flag so far. -/
def attemptLoop (compare : Flag → Except Fault Bool) (configurationError : Option String) :
    List Flag → Except Fault AttemptResult
  | [] =>
    .ok ⟨false, configurationError.isSome, configurationError.getD "Incorrect"⟩
  | flag :: flags =>
    match compare flag with
    | .ok true => .ok ⟨true, false, "Correct"⟩
    | .ok false => attemptLoop compare configurationError flags
    | .error (.flagException message) => attemptLoop compare (some message) flags
    | .error .other => .error .other

def Platform.attempt (d : CaseData) (re : Platform.Re) (flags : List Flag)
    (submission : List Char) : Except Fault AttemptResult :=
  attemptLoop (fun flag => Platform.compare d re flag (Platform.strip submission)) none flags

def ChallengeHelper.attempt (d : CaseData) (regex : ChallengeHelper.Regex) (flags : List Flag)
    (submission : Option (List Char)) : Except Fault AttemptResult :=
  attemptLoop (fun flag => ChallengeHelper.compare d regex flag submission) none flags

def IsCorrect (result : Except Fault AttemptResult) : Prop :=
  ∃ attempt, result = .ok attempt ∧ attempt.status = true

/-! ### The comparison in constant time -/

theorem foldl_or_eq_zero (pairs : List (Nat × Nat)) (start : Nat) :
    pairs.foldl (fun result p => result ||| (p.1 ^^^ p.2)) start = 0 ↔
      start = 0 ∧ ∀ p ∈ pairs, p.1 = p.2 := by
  induction pairs generalizing start with
  | nil => simp
  | cons p pairs ih =>
    rw [List.foldl_cons, ih, Nat.or_eq_zero_iff, xor_eq_zero_iff, List.forall_mem_cons,
      and_assoc]

/-- No difference is seen up to the end of the shorter sequence. -/
theorem differences_eq_zero_iff {saved provided : List Nat} (h : saved.length ≤ provided.length) :
    differences saved provided = 0 ↔ saved <+: provided := by
  rw [differences, foldl_or_eq_zero, eq_self_iff_true, true_and]
  induction saved generalizing provided with
  | nil => simp
  | cons n saved ih =>
    cases provided with
    | nil => simp at h
    | cons m provided =>
      rw [List.zip_cons_cons, List.forall_mem_cons, List.cons_prefix_cons,
        ih (by simpa using h)]

theorem differences_of_length_eq {saved provided : List Nat}
    (h : saved.length = provided.length) :
    differences saved provided = 0 ↔ saved = provided := by
  rw [differences_eq_zero_iff (Nat.le_of_eq h)]
  constructor
  · exact fun hbegins => hbegins.eq_of_length h
  · exact fun heq => heq ▸ List.prefix_refl _

/-! ### The static comparison -/

/-- The texts are the same, or the same in lower case where the flag says so. -/
def Same (d : CaseData) (flag : Flag) (saved provided : List Char) : Prop :=
  saved = provided ∨ flag.ignoresCase = true ∧ d.lowerText saved = d.lowerText provided

/-- Both platforms answer, and say whether the submission is the flag. -/
def Agree (d : CaseData) (re : Platform.Re) (regex : ChallengeHelper.Regex) (flag : Flag)
    (saved provided : List Char) : Prop :=
  Platform.compare d re flag provided = ChallengeHelper.compare d regex flag (some provided) ∧
    (Platform.compare d re flag provided = .ok true ↔ Same d flag saved provided) ∧
    (ChallengeHelper.compare d regex flag (some provided) = .ok true ↔ Same d flag saved provided)

section Static

variable (d : CaseData) (re : Platform.Re) (regex : ChallengeHelper.Regex) {saved : List Char}
  (data : Option String)

theorem Platform.compare_static (hblank : saved.all Platform.isSpace = false)
    (provided : List Char) :
    Platform.compare d re ⟨"static", some saved, data⟩ provided =
      if saved.length ≠ provided.length then .ok false
      else if data == some "case_insensitive" then
        .ok (differences ((d.lowerText saved).map Char.toNat)
          ((d.lowerText provided).map Char.toNat) == 0)
      else .ok (differences (saved.map Char.toNat) (provided.map Char.toNat) == 0) := by
  have hvalid : Platform.validateSavedFlag re ⟨"static", some saved, data⟩ = .ok () := by
    simp [Platform.validateSavedFlag, hblank]
  rw [Platform.compare, if_pos rfl, Platform.compareStatic, hvalid]
  rfl

theorem Platform.compare_blank (hblank : saved.all Platform.isSpace = true)
    (provided : List Char) :
    Platform.compare d re ⟨"static", some saved, data⟩ provided =
      .error (.flagException configurationInvalid) := by
  have hinvalid : Platform.validateSavedFlag re ⟨"static", some saved, data⟩ =
      .error (.flagException configurationInvalid) := by
    simp [Platform.validateSavedFlag, hblank]
  rw [Platform.compare, if_pos rfl, Platform.compareStatic, hinvalid]

theorem ChallengeHelper.compare_static (hblank : saved.all isWhiteSpace = false)
    (provided : List Char) :
    ChallengeHelper.compare d regex ⟨"static", some saved, data⟩ (some provided) =
      .ok (ChallengeHelper.compareStatic d ⟨"static", some saved, data⟩ (some provided)) := by
  have htype : equalsIgnoreCase "static" "static" = true := by decide
  rw [ChallengeHelper.compare]
  simp only [Option.getD_some, hblank, htype, if_true]
  rfl

theorem ChallengeHelper.compare_blank (hblank : saved.all isWhiteSpace = true)
    (provided : List Char) :
    ChallengeHelper.compare d regex ⟨"static", some saved, data⟩ (some provided) =
      .error (.flagException configurationInvalid) := by
  rw [ChallengeHelper.compare]
  simp only [Option.getD_some, hblank, if_true]

theorem toNat_map_inj {s t : List Char} : s.map Char.toNat = t.map Char.toNat ↔ s = t :=
  (List.map_injective_iff.mpr fun _ _ h => Char.toNat_inj.mp h).eq_iff

/-- The units are compared as the characters are, each in its own lower case. -/
theorem ChallengeHelper.compareStatic_iff (saved provided : List Char) :
    ChallengeHelper.compareStatic d ⟨"static", some saved, data⟩ (some provided) = true ↔
      if data == some "case_insensitive" then
        saved.map d.unitLower = provided.map d.unitLower
      else saved = provided := by
  have hlen : ∀ f : Nat → Nat, (units saved).map f = (units provided).map f →
      (units saved).length = (units provided).length := by
    intro f h
    simpa using congrArg List.length h
  rw [ChallengeHelper.compareStatic]
  by_cases hne : (units saved).length = (units provided).length
  · cases hcase : (data == some "case_insensitive") with
    | true =>
      simp only [Flag.ignoresCase, Option.getD_some, hcase, hne, ne_eq, not_true_eq_false, if_false,
        if_true, beq_iff_eq]
      rw [differences_of_length_eq (by simpa using hne)]
      exact d.map_lowerUnit_eq_iff saved provided
    | false =>
      simp only [Flag.ignoresCase, Option.getD_some, hcase, hne, ne_eq, not_true_eq_false, if_false,
        Bool.false_eq_true, beq_iff_eq]
      rw [differences_of_length_eq hne]
      exact Json.flatMap_units_injective.eq_iff
  · simp only [Option.getD_some, ne_eq, hne, not_false_eq_true, if_true, Bool.false_eq_true,
      false_iff]
    split_ifs
    · rw [← d.map_lowerUnit_eq_iff]
      exact fun h => hne (hlen _ h)
    · rintro rfl
      exact hne rfl

/-- Without the case, the platform stops at the end of the shorter lower case. -/
theorem Platform.compare_static_iff (hblank : saved.all Platform.isSpace = false)
    (provided : List Char) (hlen : data = some "case_insensitive" →
      saved.length = provided.length →
        (d.lowerText saved).length ≤ (d.lowerText provided).length) :
    Platform.compare d re ⟨"static", some saved, data⟩ provided = .ok true ↔
      if data == some "case_insensitive" then
        saved.length = provided.length ∧ d.lowerText saved <+: d.lowerText provided
      else saved = provided := by
  rw [Platform.compare_static d re data hblank]
  by_cases hne : saved.length = provided.length
  · rw [if_neg (not_not.mpr hne)]
    cases hcase : (data == some "case_insensitive") with
    | true =>
      have hle := hlen (by simpa using hcase) hne
      simp only [if_true, Except.ok.injEq, beq_iff_eq]
      rw [differences_eq_zero_iff (by simpa using hle), and_iff_right hne]
      exact List.prefix_map_iff_of_injective fun _ _ h => Char.toNat_inj.mp h
    | false =>
      simp only [Bool.false_eq_true, if_false, Except.ok.injEq, beq_iff_eq]
      rw [differences_of_length_eq (by simpa using hne), toNat_map_inj]
  · rw [if_pos hne]
    have hsaved : saved ≠ provided := fun h => hne (by rw [h])
    split_ifs
    · simp [hne]
    · simp [hsaved]

theorem same_iff (saved provided : List Char) :
    Same d ⟨"static", some saved, data⟩ saved provided ↔
      if data == some "case_insensitive" then d.lowerText saved = d.lowerText provided
      else saved = provided := by
  rw [Same]
  simp only [Flag.ignoresCase]
  cases hcase : (data == some "case_insensitive") with
  | true =>
    simp only [true_and, if_true, or_iff_right_iff_imp]
    rintro rfl
    rfl
  | false => simp

theorem not_all_isWhiteSpace (hblank : saved.all Platform.isSpace = false) :
    saved.all isWhiteSpace = false := by
  rw [List.all_eq_false] at hblank ⊢
  obtain ⟨c, hc, hspace⟩ := hblank
  refine ⟨c, hc, fun h => hspace ?_⟩
  rw [Platform.isSpace, h, Bool.true_or]

/-- What the two comparisons accept, where they answer at all. -/
theorem agree_iff_accepts (hblank : saved.all Platform.isSpace = false) (provided : List Char) :
    Agree d re regex ⟨"static", some saved, data⟩ saved provided ↔
      (Platform.compare d re ⟨"static", some saved, data⟩ provided = .ok true ↔
        Same d ⟨"static", some saved, data⟩ saved provided) ∧
      (ChallengeHelper.compareStatic d ⟨"static", some saved, data⟩ (some provided) = true ↔
        Same d ⟨"static", some saved, data⟩ saved provided) := by
  have hanswer : ∃ b, Platform.compare d re ⟨"static", some saved, data⟩ provided = .ok b := by
    rw [Platform.compare_static d re data hblank]
    split_ifs
    · exact ⟨_, rfl⟩
    · exact ⟨_, rfl⟩
    · exact ⟨_, rfl⟩
  obtain ⟨b, hb⟩ := hanswer
  rw [Agree, ChallengeHelper.compare_static d regex data (not_all_isWhiteSpace hblank), hb]
  simp only [Except.ok.injEq]
  constructor
  · exact fun h => h.2
  · intro h
    refine ⟨?_, h⟩
    rw [Bool.eq_iff_iff, h.1, h.2]

theorem unambiguous_of_agree (hblank : saved.all Platform.isSpace = false)
    (h : ∀ provided, Agree d re regex ⟨"static", some saved, some "case_insensitive"⟩ saved
      provided) : d.Unambiguous saved := by
  have haccepts := fun provided =>
    (agree_iff_accepts d re regex (some "case_insensitive") hblank provided).mp (h provided)
  have hsame : ∀ provided, Same d ⟨"static", some saved, some "case_insensitive"⟩ saved provided ↔
      d.lowerText saved = d.lowerText provided := by
    intro provided
    rw [same_iff]
    simp
  apply CaseData.unambiguous_of_forall
  · intro t ht
    have haccept := (haccepts t).1.mpr ((hsame t).mpr ht)
    rw [Platform.compare_static d re _ hblank] at haccept
    by_contra hne
    rw [if_pos hne] at haccept
    cases haccept
  · intro t hlen hbegins
    rw [← hsame t, ← (haccepts t).1,
      Platform.compare_static_iff d re _ hblank t fun _ _ => hbegins.length_le]
    simp only [BEq.rfl, if_true]
    exact ⟨hlen, hbegins⟩
  · intro t
    have hunits := ChallengeHelper.compareStatic_iff d
      (some "case_insensitive") saved t
    simp only [BEq.rfl, if_true] at hunits
    rw [← hunits, (haccepts t).2, hsame t]

/-- The comparisons of a static flag agree, for every submission, if and only if the flag is not
blank and, where the case does not count, its lower case is unambiguous. -/
theorem agree_iff :
    (∀ provided, Agree d re regex ⟨"static", some saved, data⟩ saved provided) ↔
      saved.all Platform.isSpace = false ∧
        (data = some "case_insensitive" → d.Unambiguous saved) := by
  constructor
  · intro h
    have hblank : saved.all Platform.isSpace = false := by
      by_contra hblank
      rw [Bool.not_eq_false] at hblank
      have hsame := (h saved).2.1.mpr (.inl rfl)
      rw [Platform.compare_blank d re data hblank] at hsame
      cases hsame
    refine ⟨hblank, ?_⟩
    rintro rfl
    exact unambiguous_of_agree d re regex hblank h
  · rintro ⟨hblank, hunambiguous⟩ provided
    rw [agree_iff_accepts d re regex data hblank]
    have hunits := ChallengeHelper.compareStatic_iff d data saved provided
    have hsame := same_iff d data saved provided
    cases hcase : (data == some "case_insensitive") with
    | true =>
      have hs := hunambiguous (by simpa using hcase)
      have hcount : (d.lowerText saved).length = saved.length :=
        d.length_lowerWithin hs.no_dottedI [] []
      have hle : provided.length ≤ (d.lowerText provided).length :=
        d.length_le_lowerWithin [] provided []
      have hplatform := Platform.compare_static_iff d re data hblank provided
        fun _ hlen => by omega
      simp only [hcase, if_true] at hunits hsame hplatform
      rw [hunits, hsame, hplatform]
      refine ⟨?_, hs.map_unitLower_eq_iff provided⟩
      constructor
      · rintro ⟨hlen, hbegins⟩
        have hnone := hs.dottedI_notMem hbegins (by omega)
        have hcount' : (d.lowerText provided).length = provided.length :=
          d.length_lowerWithin hnone [] []
        exact hbegins.eq_of_length (by omega)
      · intro heq
        have hlen : provided.length ≤ saved.length := by
          rw [← hcount, heq]
          exact hle
        have hnone := hs.dottedI_notMem (heq ▸ List.prefix_refl _) hlen
        have hcount' : (d.lowerText provided).length = provided.length :=
          d.length_lowerWithin hnone [] []
        rw [← heq, hcount] at hcount'
        exact ⟨hcount', heq ▸ List.prefix_refl _⟩
    | false =>
      have hdata : data ≠ some "case_insensitive" := by simpa using hcase
      have hplatform := Platform.compare_static_iff d re data hblank provided
        fun h => absurd h hdata
      simp only [hcase, Bool.false_eq_true, if_false] at hunits hsame hplatform
      rw [hunits, hsame, hplatform]
      exact ⟨Iff.rfl, Iff.rfl⟩

end Static

/-! ### The order of the flags -/

section Order

variable {compare : Flag → Except Fault Bool}

/-- The loop is right about the flags before the first one that ends it. -/
theorem isCorrect_attemptLoop_iff (configurationError : Option String) (flags : List Flag) :
    IsCorrect (attemptLoop compare configurationError flags) ↔
      ∃ before flag after, flags = before ++ flag :: after ∧ compare flag = .ok true ∧
        ∀ other ∈ before, compare other ≠ .error .other := by
  induction flags generalizing configurationError with
  | nil => simp [attemptLoop, IsCorrect]
  | cons first rest ih =>
    -- a flag that neither matches nor breaks is passed
    have hpass : compare first ≠ .ok true → compare first ≠ .error .other →
        ((∃ before flag after, first :: rest = before ++ flag :: after ∧ compare flag = .ok true ∧
          ∀ other ∈ before, compare other ≠ .error .other) ↔
        ∃ before flag after, rest = before ++ flag :: after ∧ compare flag = .ok true ∧
          ∀ other ∈ before, compare other ≠ .error .other) := by
      intro hmatch hbreak
      constructor
      · rintro ⟨before, flag, after, heq, hflag, hbefore⟩
        cases before with
        | nil =>
          rw [List.nil_append, List.cons.injEq] at heq
          exact absurd (heq.1 ▸ hflag) hmatch
        | cons other before =>
          rw [List.cons_append, List.cons.injEq] at heq
          exact ⟨before, flag, after, heq.2, hflag,
            fun other' h => hbefore other' (List.mem_cons_of_mem _ h)⟩
      · rintro ⟨before, flag, after, rfl, hflag, hbefore⟩
        exact ⟨first :: before, flag, after, rfl, hflag,
          List.forall_mem_cons.mpr ⟨hbreak, hbefore⟩⟩
    rw [attemptLoop]
    match hfirst : compare first with
    | .ok true =>
      refine iff_of_true ⟨_, rfl, rfl⟩ ⟨[], first, rest, rfl, hfirst, ?_⟩
      intro other h
      cases h
    | .ok false =>
      rw [hpass (by simp [hfirst]) (by simp [hfirst])]
      exact ih configurationError
    | .error (.flagException message) =>
      rw [hpass (by simp [hfirst]) (by simp [hfirst])]
      exact ih (some message)
    | .error .other =>
      apply iff_of_false
      · rintro ⟨attempt, h, -⟩
        cases h
      · rintro ⟨before, flag, after, heq, hflag, hbefore⟩
        cases before with
        | nil =>
          rw [List.nil_append, List.cons.injEq] at heq
          rw [← heq.1, hfirst] at hflag
          cases hflag
        | cons other before =>
          rw [List.cons_append, List.cons.injEq] at heq
          exact hbefore other List.mem_cons_self (heq.1 ▸ hfirst)

/-- In every order of the flags an attempt is correct if and only if a flag matches, exactly
where no flag matches or none breaks. -/
theorem any_order_iff (flags : List Flag) :
    (∀ flags' : List Flag, flags'.Perm flags → (IsCorrect (attemptLoop compare none flags') ↔
      ∃ flag ∈ flags, compare flag = .ok true)) ↔
      ((∃ flag ∈ flags, compare flag = .ok true) →
        ∀ flag ∈ flags, compare flag ≠ .error .other) := by
  constructor
  · rintro h ⟨flag, hflag, hmatch⟩ broken hbroken hbreak
    obtain ⟨u, v, rfl⟩ := List.append_of_mem hbroken
    have hfirst := (h (broken :: (u ++ v)) List.perm_middle.symm).mpr ⟨flag, hflag, hmatch⟩
    obtain ⟨attempt, hattempt, -⟩ := hfirst
    rw [attemptLoop, hbreak] at hattempt
    cases hattempt
  · intro h flags' hperm
    rw [isCorrect_attemptLoop_iff]
    constructor
    · rintro ⟨before, flag, after, rfl, hflag, -⟩
      exact ⟨flag, hperm.mem_iff.mp (List.mem_append_right _ List.mem_cons_self), hflag⟩
    · rintro ⟨flag, hflag, hmatch⟩
      obtain ⟨before, after, rfl⟩ := List.append_of_mem (hperm.mem_iff.mpr hflag)
      refine ⟨before, flag, after, rfl, hmatch, ?_⟩
      intro other hother
      exact h ⟨flag, hflag, hmatch⟩ other
        (hperm.mem_iff.mp (List.mem_append_left _ hother))

end Order

/-- C# turns every exception into one of the flag. -/
theorem ChallengeHelper.compare_ne_other (d : CaseData) (regex : ChallengeHelper.Regex)
    (flag : Flag) (provided : Option (List Char)) :
    ChallengeHelper.compare d regex flag provided ≠ .error .other := by
  unfold ChallengeHelper.compare ChallengeHelper.compareRegex
  split_ifs
  · simp
  · simp
  · split <;> simp
  · simp

/-- The pattern of the flag makes `re` raise something that is no `re.error`. -/
def Breaks (re : Platform.Re) (flag : Flag) (provided : List Char) : Prop :=
  flag.type = "regex" ∧ ∃ content, flag.content = some content ∧
    content.all Platform.isSpace = false ∧
    (re.compile content flag.ignoresCase = .error .other ∨
      re.compile content flag.ignoresCase = .ok () ∧
        re.group content flag.ignoresCase provided = .error .other)

theorem Platform.compareStatic_ne_other (d : CaseData) (re : Platform.Re)
    (content : Option (List Char)) (data : Option String) (provided : List Char) :
    Platform.compareStatic d re ⟨"static", content, data⟩ provided ≠ .error .other := by
  cases content with
  | none => simp [Platform.compareStatic, Platform.validateSavedFlag]
  | some content =>
    cases hblank : content.all Platform.isSpace with
    | true => simp [Platform.compareStatic, Platform.validateSavedFlag, hblank]
    | false =>
      simp only [Platform.compareStatic, Platform.validateSavedFlag, hblank]
      simp only [String.reduceEq, ne_eq, not_true_eq_false, false_and, if_false, Bool.false_eq_true]
      split_ifs <;> simp

theorem Platform.compareRegex_eq_other_iff (re : Platform.Re) (content : Option (List Char))
    (data : Option String) (provided : List Char) :
    Platform.compareRegex re ⟨"regex", content, data⟩ provided = .error .other ↔
      Breaks re ⟨"regex", content, data⟩ provided := by
  rw [Breaks, and_iff_right rfl]
  cases content with
  | none => simp [Platform.compareRegex, Platform.validateSavedFlag]
  | some content =>
    cases hblank : content.all Platform.isSpace with
    | true => simp [Platform.compareRegex, Platform.validateSavedFlag, hblank, -List.all_eq_false]
    | false =>
      match hcompile : re.compile content (Flag.ignoresCase ⟨"regex", some content, data⟩) with
      | .error .error => simp [Platform.compareRegex, Platform.validateSavedFlag, hblank, hcompile,
          -List.all_eq_false]
      | .error .other => simp [Platform.compareRegex, Platform.validateSavedFlag, hblank, hcompile,
          -List.all_eq_false]
      | .ok () =>
        match hgroup : re.group content (Flag.ignoresCase ⟨"regex", some content, data⟩)
            provided with
        | .ok res =>
          simp [Platform.compareRegex, Platform.validateSavedFlag, hblank, hcompile, hgroup,
            -List.all_eq_false]
        | .error .error =>
          simp [Platform.compareRegex, Platform.validateSavedFlag, hblank, hcompile, hgroup,
            -List.all_eq_false]
        | .error .other =>
          simp [Platform.compareRegex, Platform.validateSavedFlag, hblank, hcompile, hgroup,
            -List.all_eq_false]

theorem Platform.compare_eq_other_iff (d : CaseData) (re : Platform.Re) (flag : Flag)
    (provided : List Char) :
    Platform.compare d re flag provided = .error .other ↔ Breaks re flag provided := by
  obtain ⟨type, content, data⟩ := flag
  rw [Platform.compare]
  split_ifs with hstatic hregex
  · change type = "static" at hstatic
    subst hstatic
    exact iff_of_false (Platform.compareStatic_ne_other d re content data provided)
      fun h => absurd h.1 (by simp)
  · change type = "regex" at hregex
    subst hregex
    exact Platform.compareRegex_eq_other_iff re content data provided
  · exact iff_of_false (by simp) fun h => hregex h.1

/-- Static flags are compared alike if and only if they are neither blank nor, where the case does
not count, ambiguous in lower case. The order of the flags never counts in C#; on the platform it
does if and only if one of them matches and the pattern of another one breaks. -/
theorem flags_iff (d : CaseData) (re : Platform.Re) (regex : ChallengeHelper.Regex) :
    (∀ (saved : List Char) (data : Option String),
      (∀ provided, Agree d re regex ⟨"static", some saved, data⟩ saved provided) ↔
        saved.all Platform.isSpace = false ∧
          (data = some "case_insensitive" → d.Unambiguous saved)) ∧
    (∀ (flags : List Flag) (submission : List Char),
      (∀ flags' : List Flag, flags'.Perm flags →
        (IsCorrect (Platform.attempt d re flags' submission) ↔
          ∃ flag ∈ flags, Platform.compare d re flag (Platform.strip submission) = .ok true)) ↔
      ((∃ flag ∈ flags, Platform.compare d re flag (Platform.strip submission) = .ok true) →
        ∀ flag ∈ flags, ¬ Breaks re flag (Platform.strip submission))) ∧
    (∀ (flags : List Flag) (submission : Option (List Char)) (flags' : List Flag),
      flags'.Perm flags → (IsCorrect (ChallengeHelper.attempt d regex flags' submission) ↔
        ∃ flag ∈ flags, ChallengeHelper.compare d regex flag submission = .ok true)) := by
  refine ⟨fun saved data => agree_iff d re regex data, ?_, ?_⟩
  · intro flags submission
    simp only [← Platform.compare_eq_other_iff d re]
    exact any_order_iff flags
  · intro flags submission
    apply (any_order_iff flags).mpr
    intro _ flag _
    exact ChallengeHelper.compare_ne_other d regex flag submission

/-- The platform stops before the dot, and C# has no lower case for the letter. -/
theorem wifi_with_dottedI :
    Platform.compare CaseData.basic ⟨fun _ _ => .ok (), fun _ _ _ => .ok none⟩
        ⟨"static", some "wifi".toList, some "case_insensitive"⟩ "wifİ".toList = .ok true ∧
      ChallengeHelper.compare CaseData.basic (fun _ _ _ => none)
        ⟨"static", some "wifi".toList, some "case_insensitive"⟩ (some "wifİ".toList) =
          .ok false := by
  exact ⟨rfl, rfl⟩

end Fctf.Flags
