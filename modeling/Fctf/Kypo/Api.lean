import Mathlib.Data.List.Basic
import Fctf.Lib.Word
import Fctf.Text

/-!
`KypoApiClient`: what it makes of the answers of KYPO and Keycloak. A result
`none` is an exception. Token requests are part of the call they are made for.
-/

namespace Fctf

/-- A parsed body. A number that is no integer carries its integer part. -/
inductive JsonElement
  | null
  | bool (b : Bool)
  | integer (n : Int)
  | decimal (truncated : Int)
  | string (s : String)
  | array (items : List JsonElement)
  | object (members : List (String × JsonElement))

namespace JsonElement

/-- `TryGetProperty`: an exception on anything but an object, and the last of several members. -/
def tryGetProperty (name : String) : JsonElement → Option (Option JsonElement)
  | object members => some ((members.reverse.find? fun m => m.1 == name).map Prod.snd)
  | _ => none

/-- The first of the properties that is there. -/
def tryGetAny (e : JsonElement) : List String → Option (Option JsonElement)
  | [] => some none
  | name :: names => do
    match ← e.tryGetProperty name with
    | some value => some (some value)
    | none => e.tryGetAny names

def enumerateArray : JsonElement → Option (List JsonElement)
  | array items => some items
  | _ => none

/-- `GetString`. -/
def getString : JsonElement → Option (Option String)
  | string s => some (some s)
  | null => some none
  | _ => none

/-- `GetInt32`. -/
def getInt32 : JsonElement → Option Int
  | integer n => if -2147483648 ≤ n ∧ n < 2147483648 then some n else none
  | _ => none

def isNumber : JsonElement → Bool
  | integer _ | decimal _ => true
  | _ => false

/-- The items of a property that is an array; any other value counts as absent. -/
def arrayProperty (e : JsonElement) (name : String) : Option (Option (List JsonElement)) := do
  match ← e.tryGetProperty name with
  | some (array items) => some (some items)
  | _ => some none

/-- A text property; an absent or null one is the empty text. -/
def textProperty (e : JsonElement) (name : String) : Option String := do
  match ← e.tryGetProperty name with
  | some value => (value.getString).map (·.getD "")
  | none => some ""

/-- The first of the integer properties that is there; 0 when there is none. -/
def intProperty (e : JsonElement) (names : List String) : Option Int := do
  match ← e.tryGetAny names with
  | some value => value.getInt32
  | none => some 0

end JsonElement

/-- How a call ends: an exception, a status that is no success, or a body, which may be no JSON. -/
inductive HttpReply
  | failed
  | refused
  | body (json : Option JsonElement)

/-- `EnsureSuccessStatusCode` and `JsonDocument.Parse`. -/
def HttpReply.json : HttpReply → Option JsonElement
  | .body json => json
  | .failed | .refused => none

structure KypoLevelProgress where
  id : Int
  state : String
  score : Int
  isCompleted : Bool
  completedAt : Option Int
  deriving Repr, DecidableEq

structure KypoProgressEntry where
  name : String
  runId : Int
  isFinished : Bool
  totalScore : Int
  levels : List KypoLevelProgress
  deriving Repr, DecidableEq

/-- `string.Contains`. -/
def hasSubstring (s sub : String) : Bool := s.toList.tails.any sub.toList.isPrefixOf

namespace KypoApiClient

open JsonElement

/-- `ExtractLevelScore`. -/
def extractLevelScore (level : JsonElement) : Option Int := do
  match ← level.arrayProperty "events" with
  | none => some 0
  | some events => events.foldlM (fun max event => do
      let max ← read event "actual_score_in_level" max
      read event "max_score" max) 0
where
  read (event : JsonElement) (name : String) (max : Int) : Option Int := do
    match ← event.tryGetProperty name with
    | some value => if value.isNumber then (value.getInt32).map (Max.max max) else some max
    | none => some max

/-- Whether one of the events is a LevelCompleted event. Later events are not looked at. -/
def anyLevelCompleted : List JsonElement → Option Bool
  | [] => some false
  | event :: events => do
    if hasSubstring (← event.textProperty "type") "LevelCompleted" then some true
    else anyLevelCompleted events

/-- `IsLevelCompleted`. -/
def isLevelCompleted (level : JsonElement) : Option Bool := do
  if equalsIgnoreCase (← level.textProperty "state") "FINISHED" then some true
  else
    match ← level.arrayProperty "events" with
    | some events => anyLevelCompleted events
    | none => some false

section Times

-- what stands for `DateTime.TryParse`
variable (tryParse : String → Option Int)

/-- The first of the time fields of an event that can be read. -/
def eventTime (event : JsonElement) : List String → Option (Option Int)
  | [] => some none
  | field :: fields => do
    match ← event.tryGetProperty field with
    | some (.string raw) =>
      match tryParse raw with
      | some time => some (some time)
      | none => eventTime event fields
    | _ => eventTime event fields

/-- `ExtractCompletionTime`. -/
def extractCompletionTime (level : JsonElement) : Option (Option Int) := do
  match ← level.arrayProperty "events" with
  | none => some none
  | some events => events.foldlM (fun latest event => do
      if hasSubstring (← event.textProperty "type") "LevelCompleted" then
        let time ← eventTime tryParse event
          ["occurred_at", "timestamp", "created_at", "happened_at", "event_time"]
        match time, latest with
        | some time, some latest => some (some (Max.max latest time))
        | some time, none => some (some time)
        | none, _ => some latest
      else some latest) none

def readLevel (level : JsonElement) : Option KypoLevelProgress := do
  let id ← level.intProperty ["id"]
  let state ← level.textProperty "state"
  let score ← extractLevelScore level
  let isCompleted ← isLevelCompleted level
  let completedAt ← extractCompletionTime tryParse level
  return { id, state, score, isCompleted, completedAt }

/-- The levels that the body lists for a run. -/
def listedLevels (entry : JsonElement) : Option (List JsonElement) := do
  match ← entry.tryGetProperty "levels" with
  | some levels => levels.enumerateArray
  | none => some []

def readEntry (entry : JsonElement) : Option KypoProgressEntry := do
  let name ← entry.textProperty "name"
  let runId ← entry.intProperty ["training_run_id", "trainingRunId", "id"]
  let levels ← (← listedLevels entry).mapM (readLevel tryParse)
  -- `Enumerable.Sum` checks every addition
  let totalScore ← Word.checkedSum (levels.map (·.score))
  return {
    name, runId, levels, totalScore
    isFinished := 0 < levels.length && levels.all (·.isCompleted) }

/-- The entries of the body of the Progress API. -/
def listedEntries (reply : HttpReply) : Option (List JsonElement) := do
  match ← (← reply.json).tryGetProperty "progress" with
  | some progress => progress.enumerateArray
  | none => some []

/-- `GetInstanceProgressAsync` without its cache. -/
def getInstanceProgress (reply : HttpReply) : Option (List KypoProgressEntry) := do
  (← listedEntries reply).mapM (readEntry tryParse)

end Times

/-- The first property that is an array. -/
def firstArray (e : JsonElement) : List String → Option (Option (List JsonElement))
  | [] => some none
  | name :: names => do
    match ← e.arrayProperty name with
    | some items => some (some items)
    | none => firstArray e names

/-- The first array among the levels and phases of an embedded definition. -/
def embeddedLevels (root : JsonElement) : List String → Option (Option (List JsonElement))
  | [] => some none
  | name :: names => do
    match ← root.tryGetProperty name with
    | some definition =>
      match ← firstArray definition ["levels", "phases"] with
      | some items => some (some items)
      | none => embeddedLevels root names
    | none => embeddedLevels root names

/-- The first property that is a number. -/
def firstNumber (e : JsonElement) : List String → Option (Option JsonElement)
  | [] => some none
  | name :: names => do
    match ← e.tryGetProperty name with
    | some value => if value.isNumber then some (some value) else firstNumber e names
    | none => firstNumber e names

/-- The level count of the answers, and whether it goes into the cache. -/
def fetchLevelCount (instanceReply : HttpReply) (definitionReply : Int → HttpReply) :
    Option (Int × Bool) :=
  match instanceReply with
  | .failed => none
  | .refused => some (0, false)
  | .body json => do
    let root ← json
    if let some levels ← embeddedLevels root ["training_definition", "trainingDefinition"] then
      return (levels.length, true)
    if let some count ← firstNumber root ["level_count", "levelCount"] then
      return (← count.getInt32, true)
    if let some definitionId ←
        firstNumber root ["training_definition_id", "trainingDefinitionId"] then
      match definitionReply (← definitionId.getInt32) with
      | .failed => none
      | .refused => return (0, false)
      | .body json =>
        if let some levels ← firstArray (← json) ["levels", "phases"] then
          return (levels.length, true)
    return (0, false)

/-- `GetTrainingDefinitionLevelCountAsync`, with what its cache holds and with the answers
for the instance and, by its id, for the definition. -/
def getTrainingDefinitionLevelCount (cached : Option Int) (instanceReply : HttpReply)
    (definitionReply : Int → HttpReply) : Option Int :=
  match cached.filter (0 < ·) with
  | some count => some count
  | none => (fetchLevelCount instanceReply definitionReply).map Prod.fst

/-- `GetParticipantSubAsync`; its exceptions are answered with null. -/
def getParticipantSub (cached : Option String) (reply : HttpReply) : Option String :=
  cached <|> do
    match ← (← reply.json).tryGetProperty "sub" with
    | some value => (← value.getString)
    | none => none

/-- `GetKeycloakUserIdBySubAsync`. -/
def getKeycloakUserIdBySub (cached : Option String) (reply : HttpReply) : Option String :=
  cached <|> do
    match ← (← reply.json).enumerateArray with
    | [] => none
    | user :: _ =>
      match ← user.tryGetProperty "id" with
      | some value => (← value.getString)
      | none => none

end KypoApiClient

end Fctf
