import Fctf.Text
import Mathlib

/-!
The window of the contest. The C# filters take the two times from the configuration and let a
request through that none of three tests has stopped; `ctftime` reads the same rows in Python. The
first reads whole seconds of the clock, the second fractions as well.
-/

namespace Fctf.CtfTime

/-- A row of the table `config`. -/
structure Config where
  key : String
  value : Option String

/-- A point in time after 1970. -/
structure Instant where
  seconds : Nat
  fraction : Rat
  fraction_nonneg : 0 ≤ fraction
  fraction_lt : fraction < 1

/-- `time.time()`. -/
def Instant.time (now : Instant) : Rat := now.seconds + now.fraction

/-- `DateTimeOffset.UtcNow.ToUnixTimeSeconds()`. -/
def Instant.toUnixTimeSeconds (now : Instant) : Int := now.seconds

/-- The text of the first row with the key, if it is not empty. -/
def lookup (configs : List Config) (key : String) : Option String :=
  ((configs.find? fun c => c.key = key).bind Config.value).filter (· ≠ "")

/-! ### `ConfigHelper` -/

inductive ConfigValue
  | int (n : Int)
  | bool (b : Bool)
  | text (s : String)
  | keyNotFoundException

def ConfigValue.toString : ConfigValue → String
  | .int n => ToString.toString n
  | .bool true => "True"
  | .bool false => "False"
  | .text s => s
  | .keyNotFoundException => "System.Collections.Generic.KeyNotFoundException: " ++
      "The given key was not present in the dictionary."

def tryParseInt (s : String) : Option Int := tryParse (-(2 ^ 31)) (2 ^ 31 - 1) s

/-- `bool.TryParse`. -/
def tryParseBool (s : String) : Option Bool :=
  let text := (trimWhile isWhiteSpace s.toList).map Char.toUpper
  if text = ['T', 'R', 'U', 'E'] then some true
  else if text = ['F', 'A', 'L', 'S', 'E'] then some false
  else none

section ConfigHelper

variable (configs : List Config)

def getConfig (key : String) : ConfigValue :=
  match lookup configs key with
  | none => .keyNotFoundException
  | some value =>
    match tryParseInt value, tryParseBool value with
    | some n, _ => .int n
    | none, some b => .bool b
    | none, none => .text value

/-- `GetConfig<string>`. -/
def getString (key : String) : Option String :=
  match getConfig configs key with
  | .keyNotFoundException => none
  | value => some value.toString

/-- `GetConfig<bool>`; what cannot be converted is false. -/
def getBool (key : String) : Bool :=
  match getConfig configs key with
  | .int n => n ≠ 0
  | .bool b => b
  | .text s => (tryParseBool s).getD false
  | .keyNotFoundException => false

def ctfName : String := (getString configs "ctf_name").getD "CTF"

def isTeamsMode : Bool := getString configs "user_mode" = some "teams"

end ConfigHelper

/-! ### `CtfTimeHelper` -/

def toLong (value : ConfigValue) : Int := (tryParseLong value.toString).getD 0

section CtfTimeHelper

variable (configs : List Config) (now : Instant)

def ctfTime : Bool :=
  let start := toLong (getConfig configs "start")
  let «end» := toLong (getConfig configs "end")
  let now := now.toUnixTimeSeconds
  if start > 0 ∧ «end» > 0 ∧ start < now ∧ now < «end» then true
  else if start > 0 ∧ «end» = 0 then now > start
  else if start = 0 ∧ «end» > 0 then now < «end»
  else if start = 0 ∧ «end» = 0 then true
  else false

def ctfStarted : Bool := now.toUnixTimeSeconds > toLong (getConfig configs "start")

def ctfEnded : Bool :=
  let «end» := toLong (getConfig configs "end")
  «end» > 0 ∧ now.toUnixTimeSeconds > «end»

def viewAfterCtf : Bool := getBool configs "view_after_ctf"

end CtfTimeHelper

/-! ### The filters -/

/-- The action runs, or the answer is 403 with an error. -/
inductive Answer
  | next
  | forbidden (error : String)
  deriving DecidableEq

section Filters

variable (configs : List Config) (teamId : Option String) (now : Instant)

/-- What is left to be looked at once `CtfTime` is false. -/
def outsideCtfTime : Answer :=
  if ctfEnded configs now then .forbidden (ctfName configs ++ " has ended")
  else if !ctfStarted configs now then
    .forbidden ((getConfig configs "ctf_name").toString ++ " has not started yet")
  else if isTeamsMode configs && teamId.isNone then
    .forbidden "You must join a team to participate in this CTF"
  else .next

def duringCtfTimeOnly : Answer :=
  if ctfTime configs now then .next else outsideCtfTime configs teamId now

def viewOrDuringCtfTimeOnly : Answer :=
  if ctfTime configs now then .next
  else if ctfEnded configs now && viewAfterCtf configs then .next
  else outsideCtfTime configs teamId now

end Filters

/-! ### Python -/

inductive PyValue
  | int (n : Nat)
  | bool (b : Bool)
  | str (s : String)

/-- `get_config`; `none` is `None`. Digits are those of ASCII. -/
def pyGetConfig (configs : List Config) (key : String) : Option PyValue :=
  (lookup configs key).map fun value =>
    match decimal value.toList with
    | some n => .int n
    | none =>
      let lower := value.toList.map Char.toLower
      if lower = ['t', 'r', 'u', 'e'] then .bool true
      else if lower = ['f', 'a', 'l', 's', 'e'] then .bool false
      else .str value

def isSpace (c : Char) : Bool := isWhiteSpace c || (0x1C ≤ c.toNat && c.toNat ≤ 0x1F)

/-- Digits with single underscores between them. -/
def groupedDecimal (s : List Char) : Option Nat :=
  if (s.splitOn '_').all fun group => (decimal group).isSome then
    decimal (s.filter (· ≠ '_'))
  else none

/-- `int`, of a text. -/
def parseInt (s : String) : Option Int :=
  match trimWhile isSpace s.toList with
  | '-' :: digits => (groupedDecimal digits).map fun n => -(n : Int)
  | '+' :: digits => (groupedDecimal digits).map Int.ofNat
  | digits => (groupedDecimal digits).map Int.ofNat

/-- `int(value) if value else 0`. -/
def intOrZero : Option PyValue → Option Int
  | none => some 0
  | some (.int n) => some n
  | some (.bool b) => some (if b then 1 else 0)
  | some (.str s) => parseInt s

/-- `none` is an exception. -/
def ctftime (configs : List Config) (now : Instant) : Option Bool := do
  let start ← intOrZero (pyGetConfig configs "start")
  let «end» ← intOrZero (pyGetConfig configs "end")
  some <|
    if start ≠ 0 ∧ «end» ≠ 0 ∧ start < now.time ∧ now.time < «end» then true
    else if start < now.time ∧ «end» = 0 then true
    else if start = 0 ∧ now.time < «end» then true
    else if start = 0 ∧ «end» = 0 then true
    else false

/-! ### The window -/

/-- The time is configured: its digits, or nothing for 0. -/
def Configured (configs : List Config) (key : String) (time : Int64) : Prop :=
  lookup configs key = some (toString time.toInt) ∨ time = 0 ∧ lookup configs key = none

section Window

variable (start «end» : Int64) (now : Instant)

def Open : Prop :=
  (start = 0 ∨ (start.toInt : Rat) < now.time) ∧ («end» = 0 ∨ now.time < («end».toInt : Rat))

def Ended : Prop := «end» ≠ 0 ∧ («end».toInt : Rat) < now.time

/-- Each filter lets through what it is to let through, and Python has the same window. -/
def Guarded (configs : List Config) (teamId : Option String) : Prop :=
  (duringCtfTimeOnly configs teamId now = .next ↔ Open start «end» now) ∧
    (viewOrDuringCtfTimeOnly configs teamId now = .next ↔
      Open start «end» now ∨ Ended «end» now ∧ viewAfterCtf configs = true) ∧
    (ctftime configs now = some true ↔ Open start «end» now) ∧ (ctftime configs now).isSome

/-! ### When the filters are right -/

/-- The account has the team that it needs. -/
def HasTeam (configs : List Config) (teamId : Option String) : Prop :=
  isTeamsMode configs = true → teamId ≠ none

/-- Neither `CtfTime` nor `CtfEnded` sees that the contest is over: it is the second in which it
ends, or the end is negative. -/
def Overlooked : Prop :=
  «end».toInt < 0 ∨ 0 < «end».toInt ∧ (now.seconds : Int) = «end».toInt

/-- None of the three tests stops the request. -/
def LetThrough (configs : List Config) (teamId : Option String) : Prop :=
  HasTeam configs teamId ∧ start.toInt < now.seconds

/-- `CtfTime` does not see that the contest is on: it is the second in which it starts, or the
start is negative and the account has no team. -/
def StoppedInside (configs : List Config) (teamId : Option String) : Prop :=
  («end» = 0 ∨ (now.seconds : Int) < «end».toInt) ∧
    (start.toInt < 0 ∧ ¬ HasTeam configs teamId ∨
      0 < start.toInt ∧ (now.seconds : Int) = start.toInt ∧ 0 < now.fraction)

end Window

/-! ### Numbers in the configuration -/

theorem isSpace_of_numeral {c : Char} (h : IsNumeral c) : isSpace c = false := by
  have hrange := h.toNat
  simp only [isSpace, h.isWhiteSpace, Bool.false_or, Bool.and_eq_false_iff,
    decide_eq_false_iff_not]
  omega

/-- A number does not begin like a truth value. -/
theorem map_ne_of_numeral {f : Char → Char} {c : Char} {rest : List Char} {n : Int}
    (hf : ∀ d, IsNumeral d → f d = d) (hc : ¬ IsNumeral c) :
    (toString n).toList.map f ≠ c :: rest := by
  intro h
  cases hlist : (toString n).toList with
  | nil =>
    rw [hlist] at h
    cases h
  | cons d text =>
    have hd : IsNumeral d := isNumeral_of_mem (hlist ▸ List.mem_cons_self)
    rw [hlist, List.map_cons, hf d hd] at h
    exact hc ((List.cons.inj h).1 ▸ hd)

theorem not_numeral {c : Char} (h : 57 < c.toNat) : ¬ IsNumeral c := by
  intro hc
  have hrange := hc.toNat
  omega

theorem tryParseBool_toString (n : Int) : tryParseBool (toString n) = none := by
  have htrue : ¬ IsNumeral 'T' := not_numeral (by decide)
  have hfalse : ¬ IsNumeral 'F' := not_numeral (by decide)
  rw [tryParseBool, trimWhile_toString fun c hc => hc.isWhiteSpace]
  rw [if_neg (map_ne_of_numeral (fun d hd => hd.toUpper) htrue),
    if_neg (map_ne_of_numeral (fun d hd => hd.toUpper) hfalse)]

theorem toLong_keyNotFoundException : toLong .keyNotFoundException = 0 := by decide +kernel

section Configured

variable {configs : List Config} {key : String} {time : Int64}

/-- The detour of a small number by way of `int` changes nothing. -/
theorem toLong_getConfig (h : Configured configs key time) :
    toLong (getConfig configs key) = time.toInt := by
  have hlong : tryParseLong (toString time.toInt) = some time.toInt :=
    tryParse_toString ⟨time.le_toInt, Int.le_sub_one_of_lt time.toInt_lt⟩
  have hvalue : ∀ value : ConfigValue, value.toString = toString time.toInt →
      toLong value = time.toInt := by
    intro value heq
    rw [toLong, heq, hlong, Option.getD_some]
  rcases h with hlookup | ⟨rfl, hnone⟩
  · apply hvalue
    simp only [getConfig, hlookup, tryParseBool_toString]
    cases hint : tryParseInt (toString time.toInt) with
    | some n =>
      have heq : n = time.toInt := by
        rw [tryParseInt] at hint
        exact tryParse_eq_some hint
      rw [heq]
      rfl
    | none => rfl
  · have hnone' : getConfig configs key = .keyNotFoundException := by
      rw [getConfig, hnone]
    rw [hnone']
    exact toLong_keyNotFoundException

theorem groupedDecimal_repr (n : Nat) : groupedDecimal n.repr.toList = some n := by
  have hmem : '_' ∉ n.repr.toList := underscore_notMem_repr n
  have hsplit : n.repr.toList.splitOn '_' = [n.repr.toList] := by
    rw [List.splitOn_eq_singleton hmem]
  have hfilter : n.repr.toList.filter (· ≠ '_') = n.repr.toList := by
    rw [List.filter_eq_self]
    intro c hc
    simpa using fun heq : c = '_' => hmem (heq ▸ hc)
  simp only [groupedDecimal, hsplit, hfilter, decimal_repr, List.all_cons, Option.isSome_some,
    List.all_nil, Bool.and_self, if_true]

theorem intOrZero_pyGetConfig (h : Configured configs key time) :
    intOrZero (pyGetConfig configs key) = some time.toInt := by
  rcases h with hvalue | ⟨rfl, hnone⟩
  · rw [pyGetConfig, hvalue, Option.map_some]
    generalize time.toInt = n
    cases n with
    | ofNat n =>
      have hdecimal : decimal (toString (Int.ofNat n)).toList = some n := decimal_repr n
      simp only [hdecimal, intOrZero]
      rfl
    | negSucc n =>
      have htext : (toString (Int.negSucc n)).toList = '-' :: (Nat.repr (n + 1)).toList :=
        String.toList_append ..
      have hdecimal : decimal (toString (Int.negSucc n)).toList = none := by
        rw [htext]
        rfl
      have htrue : ¬ IsNumeral 't' := not_numeral (by decide)
      have hfalse : ¬ IsNumeral 'f' := not_numeral (by decide)
      simp only [hdecimal]
      rw [if_neg (map_ne_of_numeral (fun d hd => hd.toLower) htrue),
        if_neg (map_ne_of_numeral (fun d hd => hd.toLower) hfalse)]
      rw [intOrZero, parseInt, trimWhile_toString fun c hc => isSpace_of_numeral hc, htext]
      simp only [groupedDecimal_repr]
      rfl
  · rw [pyGetConfig, hnone]
    rfl

end Configured

/-! ### Whole seconds and fractions -/

theorem lt_time (now : Instant) (t : Int) :
    (t : Rat) < now.time ↔ t < now.seconds ∨ t = now.seconds ∧ 0 < now.fraction := by
  have hnonneg := now.fraction_nonneg
  have hlt := now.fraction_lt
  rw [Instant.time]
  constructor
  · intro h
    have hbound : (t : Rat) < ((now.seconds + 1 : Int) : Rat) := by
      push_cast
      linarith
    rcases Int.lt_or_eq_of_le (Int.lt_add_one_iff.mp (Int.cast_lt.mp hbound)) with hbefore | rfl
    · exact .inl hbefore
    · refine .inr ⟨rfl, ?_⟩
      push_cast at h
      linarith
  · rintro (hbefore | ⟨rfl, hpos⟩)
    · have hcast : (t : Rat) < ((now.seconds : Int) : Rat) := Int.cast_lt.mpr hbefore
      push_cast at hcast
      linarith
    · push_cast
      linarith

theorem time_lt (now : Instant) (t : Int) :
    now.time < (t : Rat) ↔ (now.seconds : Int) < t := by
  have hnonneg := now.fraction_nonneg
  have hlt := now.fraction_lt
  rw [Instant.time]
  constructor
  · intro h
    have hcast : (((now.seconds : Int)) : Rat) < (t : Rat) := by
      push_cast
      linarith
    exact Int.cast_lt.mp hcast
  · intro h
    have hcast : (((now.seconds : Int) + 1 : Int) : Rat) ≤ (t : Rat) :=
      Int.cast_le.mpr (Int.add_one_le_of_lt h)
    push_cast at hcast
    linarith

theorem eq_zero_iff (time : Int64) : time = 0 ↔ time.toInt = 0 :=
  ⟨fun h => h ▸ rfl, fun h => Int64.toInt_inj.mp h⟩

section Guarded

variable {configs : List Config} {start «end» : Int64} (now : Instant)

theorem open_iff : Open start «end» now ↔
    (start.toInt = 0 ∨ start.toInt < now.seconds ∨
      start.toInt = now.seconds ∧ 0 < now.fraction) ∧
    («end».toInt = 0 ∨ (now.seconds : Int) < «end».toInt) := by
  rw [Open, lt_time, time_lt, eq_zero_iff, eq_zero_iff]

theorem ended_iff : Ended «end» now ↔ «end».toInt ≠ 0 ∧
    («end».toInt < now.seconds ∨ «end».toInt = now.seconds ∧ 0 < now.fraction) := by
  rw [Ended, lt_time, Ne, eq_zero_iff]

/-- Python's window is the window. -/
theorem ctftime_eq (hstart : Configured configs "start" start)
    (hend : Configured configs "end" «end») :
    (ctftime configs now).isSome = true ∧
      (ctftime configs now = some true ↔ Open start «end» now) := by
  have hpython : ctftime configs now = some
      (if start.toInt ≠ 0 ∧ «end».toInt ≠ 0 ∧ (start.toInt : Rat) < now.time ∧
          now.time < («end».toInt : Rat) then true
      else if (start.toInt : Rat) < now.time ∧ «end».toInt = 0 then true
      else if start.toInt = 0 ∧ now.time < («end».toInt : Rat) then true
      else if start.toInt = 0 ∧ «end».toInt = 0 then true
      else false) := by
    rw [ctftime, intOrZero_pyGetConfig hstart, intOrZero_pyGetConfig hend]
    rfl
  refine ⟨by rw [hpython]; rfl, ?_⟩
  rw [hpython, Option.some_inj, Open, eq_zero_iff, eq_zero_iff]
  split_ifs with hboth hfrom huntil hneither
  · exact ⟨fun _ => ⟨.inr hboth.2.2.1, .inr hboth.2.2.2⟩, fun _ => rfl⟩
  · exact ⟨fun _ => ⟨.inr hfrom.1, .inl hfrom.2⟩, fun _ => rfl⟩
  · exact ⟨fun _ => ⟨.inl huntil.1, .inr huntil.2⟩, fun _ => rfl⟩
  · exact ⟨fun _ => ⟨.inl hneither.1, .inl hneither.2⟩, fun _ => rfl⟩
  · refine ⟨fun h => absurd h (by decide), fun ⟨hfirst, hlast⟩ => ?_⟩
    grind

theorem ctfTime_iff (hstart : Configured configs "start" start)
    (hend : Configured configs "end" «end») :
    ctfTime configs now = true ↔ 0 ≤ start.toInt ∧ 0 ≤ «end».toInt ∧
      (start.toInt = 0 ∨ start.toInt < now.seconds) ∧
      («end».toInt = 0 ∨ (now.seconds : Int) < «end».toInt) := by
  simp only [ctfTime, toLong_getConfig hstart, toLong_getConfig hend, Instant.toUnixTimeSeconds]
  split_ifs <;> simp only [decide_eq_true_eq, true_iff, false_iff] <;> omega

theorem ctfEnded_iff (hend : Configured configs "end" «end») :
    ctfEnded configs now = true ↔ 0 < «end».toInt ∧ «end».toInt < now.seconds := by
  simp only [ctfEnded, toLong_getConfig hend, Instant.toUnixTimeSeconds, decide_eq_true_eq]

/-- What gets through outside of `CtfTime`. -/
theorem outsideCtfTime_iff (teamId : Option String) (hstart : Configured configs "start" start)
    (hend : Configured configs "end" «end») :
    outsideCtfTime configs teamId now = .next ↔
      ¬ (0 < «end».toInt ∧ «end».toInt < now.seconds) ∧
        LetThrough start now configs teamId := by
  have hended := ctfEnded_iff now hend
  have hstarted : ctfStarted configs now = true ↔ start.toInt < now.seconds := by
    simp only [ctfStarted, toLong_getConfig hstart, Instant.toUnixTimeSeconds, decide_eq_true_eq]
  have hteam : (isTeamsMode configs && teamId.isNone) = true ↔ ¬ HasTeam configs teamId := by
    simp only [HasTeam, Bool.and_eq_true, Option.isNone_iff_eq_none]
    push Not
    exact Iff.rfl
  rw [outsideCtfTime, ← hended, LetThrough, ← hstarted]
  split_ifs with h1 h2 h3
  · simp [h1]
  · simp [show ctfStarted configs now = false by simpa using h2]
  · simp [hteam.mp h3]
  · have hhas : HasTeam configs teamId := not_not.mp fun h => h3 (hteam.mpr h)
    simp only [true_iff]
    exact ⟨h1, hhas, by simpa using h2⟩

/-- The filters are right but for the second in which the contest ends, the one in which it
starts, and times before 1970. -/
theorem guarded_iff (teamId : Option String) (hstart : Configured configs "start" start)
    (hend : Configured configs "end" «end») :
    Guarded start «end» now configs teamId ↔
      ¬ StoppedInside start «end» now configs teamId ∧
        (Overlooked «end» now → ¬ LetThrough start now configs teamId ∧
          ¬ (viewAfterCtf configs = true ∧ Ended «end» now)) := by
  have hpython := ctftime_eq now hstart hend
  have htime := ctfTime_iff now hstart hend
  have hended := ctfEnded_iff now hend
  have houtside := outsideCtfTime_iff now teamId hstart hend
  have hduring : duringCtfTimeOnly configs teamId now = .next ↔
      ctfTime configs now = true ∨ outsideCtfTime configs teamId now = .next := by
    rw [duringCtfTimeOnly]
    split_ifs with h <;> simp [h]
  have hview : viewOrDuringCtfTimeOnly configs teamId now = .next ↔
      ctfTime configs now = true ∨
        (ctfEnded configs now = true ∧ viewAfterCtf configs = true) ∨
        outsideCtfTime configs teamId now = .next := by
    rw [viewOrDuringCtfTimeOnly]
    split_ifs with h h'
    · simp [h]
    · simp [Bool.and_eq_true_iff.mp h']
    · have hnot : ¬ (ctfEnded configs now = true ∧ viewAfterCtf configs = true) :=
        fun hboth => h' (Bool.and_eq_true_iff.mpr hboth)
      simp [h, hnot]
  have hseconds : (0 : Int) ≤ now.seconds := Int.natCast_nonneg _
  rw [Guarded, hduring, hview, hpython.2, hpython.1, htime, hended, houtside, open_iff, ended_iff,
    StoppedInside, Overlooked, LetThrough, eq_zero_iff]
  generalize HasTeam configs teamId = team
  generalize viewAfterCtf configs = view
  generalize start.toInt = a
  generalize «end».toInt = b
  generalize (now.seconds : Int) = n at *
  generalize (0 < now.fraction) = later
  -- the contest goes on, it is seen to be over, or that is overlooked
  obtain hopen | hover | hlook :
      (b = 0 ∨ n < b) ∨ (0 < b ∧ b < n) ∨ (b < 0 ∨ 0 < b ∧ n = b) := by omega
  · have hb : 0 ≤ b := by omega
    have hnotOver : ¬ (0 < b ∧ b < n) := by omega
    have hnotLook : ¬ (b < 0 ∨ 0 < b ∧ n = b) := by omega
    have hnotEnded : ¬ (b ≠ 0 ∧ (b < n ∨ b = n ∧ later)) := by omega
    simp only [hopen, hb, hnotOver, hnotLook, hnotEnded, true_and, and_true, false_and, false_or,
      or_false, not_false_eq_true, false_implies]
    obtain hneg | rfl | ⟨hpos, hbefore⟩ | ⟨hpos, rfl⟩ | ⟨hpos, hafter⟩ :
        a < 0 ∨ a = 0 ∨ (0 < a ∧ a < n) ∨ (0 < a ∧ n = a) ∨ (0 < a ∧ n < a) := by omega
    · have hfacts : ¬ 0 ≤ a ∧ a < n ∧ ¬ 0 < a := by omega
      simp [hneg, hfacts]
    · simp
    · have hfacts : 0 ≤ a ∧ a ≠ 0 ∧ ¬ a < 0 ∧ n ≠ a := by omega
      simp [hpos, hbefore, hfacts]
    · have hfacts : n ≠ 0 ∧ ¬ n < 0 := by omega
      simp [hpos, hfacts]
    · have hfacts : a ≠ 0 ∧ ¬ a < 0 ∧ ¬ a < n ∧ a ≠ n ∧ n ≠ a := by omega
      simp [hpos, hfacts]
  · have hnotOpen : b ≠ 0 ∧ ¬ n < b ∧ ¬ b < 0 ∧ n ≠ b := by omega
    simp [hnotOpen, hover]
  · have hnotOpen : ¬ (b = 0 ∨ n < b) := by omega
    have hnotOver : ¬ (0 < b ∧ b < n) := by omega
    simp only [hnotOpen, hnotOver, hlook, and_false, false_and, false_or, not_false_eq_true,
      true_and, true_implies]
    grind

end Guarded

def Instant.ofSeconds (seconds : Nat) : Instant := ⟨seconds, 0, le_rfl, zero_lt_one⟩

/-- A contest of a hundred seconds. -/
def hundredSeconds : List Config := [⟨"start", some "100"⟩, ⟨"end", some "200"⟩]

theorem hundredSeconds_start : Configured hundredSeconds "start" 100 := .inl (by decide)

theorem hundredSeconds_end : Configured hundredSeconds "end" 200 := .inl (by decide)

theorem guarded_inside : Guarded 100 200 (.ofSeconds 150) hundredSeconds none := by
  apply (guarded_iff (.ofSeconds 150) none hundredSeconds_start hundredSeconds_end).mpr
  refine ⟨fun hstopped => ?_, fun hoverlooked => ?_⟩
  · rcases hstopped.2 with ⟨hneg, -⟩ | ⟨-, heq, -⟩
    · exact absurd hneg (by decide)
    · exact absurd heq (by decide)
  · rcases hoverlooked with hneg | ⟨-, heq⟩
    · exact absurd hneg (by decide)
    · exact absurd heq (by decide)

/-- In the second in which the contest ends no test stops the request. -/
theorem runs_when_over : ¬ ∀ (configs : List Config) (start «end» : Int64) (now : Instant)
    (teamId : Option String), Configured configs "start" start → Configured configs "end" «end» →
    Guarded start «end» now configs teamId := by
  intro h
  have hguarded := h hundredSeconds 100 200 (.ofSeconds 200) none hundredSeconds_start
    hundredSeconds_end
  have hnext : duringCtfTimeOnly hundredSeconds none (.ofSeconds 200) = .next := by
    decide +kernel
  rcases ((open_iff _).mp (hguarded.1.mp hnext)).2 with hzero | hbefore
  · exact absurd hzero (by decide)
  · exact absurd hbefore (by decide)

end Fctf.CtfTime
