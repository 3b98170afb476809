import Fctf.Kypo.Api
import Fctf.Lib.Memo

/-!
`KypoApiClient` with its caches. One client serves every base URL and both training services, and
the entries of its dictionaries have the ids of instances and runs, or the `sub` of a user, for
their keys. Times are in ticks.
-/

namespace Fctf.KypoApiClient

open JsonElement

inductive Service
  | training
  | adaptiveTraining
  deriving DecidableEq, Repr

def service (instanceType : String) : Service :=
  if instanceType = "adaptive" then .adaptiveTraining else .training

/-- What a request asks for below the base URL. -/
inductive Resource
  | trainingInstance (service : Service) (instanceId : Int)
  | trainingDefinition (service : Service) (definitionId : Int)
  | progress (service : Service) (instanceId : Int)
  | participant (service : Service) (trainingRunId : Int)
  | users (email : String)
  deriving DecidableEq, Repr

/-- The answers of all installations, by the base URL without its last slashes. -/
abbrev Server := String → Resource → HttpReply

inductive Call
  | trainingDefinitionLevelCount (baseUrl instanceType : String) (instanceId : Int)
  | instanceProgress (baseUrl instanceType : String) (instanceId : Int)
  | participantSub (baseUrl instanceType : String) (trainingRunId : Int)
  | keycloakUserIdBySub (baseUrl sub : String)
  | instanceEndTime (baseUrl instanceType : String) (instanceId : Int)
  deriving DecidableEq, Repr

/-- The entries of `_levelCountCache`, `_progressCache`, `_runSubCache`, `_subKeycloakCache` and
`_endTimeCache`. -/
inductive CacheKey
  | levelCount (instanceId : Int)
  | progress (instanceId : Int)
  | runSub (trainingRunId : Int)
  | subKeycloak (sub : String)
  | endTime (instanceId : Int)
  deriving DecidableEq, Repr

inductive CacheValue
  | count (n : Int)
  | progress (entries : List KypoProgressEntry)
  | text (s : String)
  | endTime (time : Option Int)
  deriving DecidableEq, Repr

def Call.key : Call → CacheKey
  | .trainingDefinitionLevelCount _ _ instanceId => .levelCount instanceId
  | .instanceProgress _ _ instanceId => .progress instanceId
  | .participantSub _ _ trainingRunId => .runSub trainingRunId
  | .keycloakUserIdBySub _ sub => .subKeycloak sub
  | .instanceEndTime _ _ instanceId => .endTime instanceId

/-- The base URL of a call, its service and what it is about there. -/
structure About where
  baseUrl : String
  service : Option Service
  key : CacheKey
  deriving DecidableEq, Repr

def Call.about (c : Call) : About :=
  match c with
  | .trainingDefinitionLevelCount baseUrl instanceType _
  | .instanceProgress baseUrl instanceType _
  | .participantSub baseUrl instanceType _
  | .instanceEndTime baseUrl instanceType _ =>
    ⟨trimEndSlash baseUrl, some (KypoApiClient.service instanceType), c.key⟩
  | .keycloakUserIdBySub baseUrl _ => ⟨trimEndSlash baseUrl, none, c.key⟩

/-- A cached count has to be positive, progress lives 15 s and an end time 10 min. -/
def good : CacheKey → CacheValue → Int → Bool
  | .levelCount _, .count n, _ => 0 < n
  | .progress _, _, age => age < 150000000
  | .endTime _, _, age => age < 6000000000
  | _, _, _ => true

section Fetch

variable (tryParse : String → Option Int)

/-- The end time of an answer; `none` where the exception is caught, which keeps nothing. -/
def fetchEndTime (reply : HttpReply) : Option (Option Int) := do
  let root ← reply.json
  match ← root.tryGetProperty "end_time" with
  | none | some .null => some none
  | some value => (← value.getString).map tryParse

/-- What a call returns when it asks its server, null and an exception apart, and what it keeps. -/
def Call.fetch (server : Server) : Call → Option CacheValue × Option CacheValue
  | .trainingDefinitionLevelCount baseUrl instanceType instanceId =>
    let reply := server (trimEndSlash baseUrl)
    let service := KypoApiClient.service instanceType
    let count := fetchLevelCount (reply (.trainingInstance service instanceId))
      fun definitionId => reply (.trainingDefinition service definitionId)
    (count.map fun c => .count c.1, (count.filter fun c => c.2).map fun c => .count c.1)
  | .instanceProgress baseUrl instanceType instanceId =>
    let entries := getInstanceProgress tryParse
      (server (trimEndSlash baseUrl) (.progress (KypoApiClient.service instanceType) instanceId))
    (entries.map .progress, entries.map .progress)
  | .participantSub baseUrl instanceType trainingRunId =>
    let sub := getParticipantSub none (server (trimEndSlash baseUrl)
      (.participant (KypoApiClient.service instanceType) trainingRunId))
    (sub.map .text, sub.map .text)
  | .keycloakUserIdBySub baseUrl sub =>
    let id := getKeycloakUserIdBySub none (server (trimEndSlash baseUrl) (.users sub))
    (id.map .text, id.map .text)
  | .instanceEndTime baseUrl instanceType instanceId =>
    let time := fetchEndTime tryParse (server (trimEndSlash baseUrl)
      (.trainingInstance (KypoApiClient.service instanceType) instanceId))
    (time.map .endTime, time.map .endTime)

def policy : Memo.Policy Call CacheKey About Server CacheValue (Option CacheValue) where
  key := Call.key
  about := Call.about
  good := good
  fetch := Call.fetch tryParse

/-- The answers of the client to the calls of a run, from its start on. -/
def answers (events : List (Memo.Event Call Server)) :
    List (Call × Memo.Answer About CacheValue (Option CacheValue)) :=
  Memo.run (policy tryParse) (fun _ => none) events

end Fetch

/-- Each call can find an answer that it keeps. -/
theorem exists_fetch (tryParse : String → Option Int) (c : Call) :
    ∃ server value, (c.fetch tryParse server).2 = some value ∧ good c.key value 0 = true := by
  cases c with
  | trainingDefinitionLevelCount baseUrl instanceType instanceId =>
    exact ⟨fun _ _ => .body (some (.object [("level_count", .integer 1)])), .count 1, rfl, rfl⟩
  | instanceProgress baseUrl instanceType instanceId =>
    exact ⟨fun _ _ => .body (some (.object [])), .progress [], rfl, rfl⟩
  | participantSub baseUrl instanceType trainingRunId =>
    exact ⟨fun _ _ => .body (some (.object [("sub", .string "a")])), .text "a", rfl, rfl⟩
  | keycloakUserIdBySub baseUrl sub =>
    exact ⟨fun _ _ => .body (some (.array [.object [("id", .string "a")]])), .text "a", rfl, rfl⟩
  | instanceEndTime baseUrl instanceType instanceId =>
    exact ⟨fun _ _ => .body (some (.object [])), .endTime none, rfl, rfl⟩

/-- In every run of calls from some set, whatever the servers answer, a cached answer was fetched
for the base URL, the service and the id of the call, if and only if no two of the calls use one
id in one cache for different base URLs or services. -/
theorem cache_coherent_iff (tryParse : String → Option Int) (calls : Set Call) :
    (∀ events : List (Memo.Event Call Server), (∀ e ∈ events, e.call ∈ calls) →
      ∀ answered ∈ answers tryParse events, ∀ kept, answered.2 = .cached kept →
        kept.about = answered.1.about) ↔
      ∀ c ∈ calls, ∀ c' ∈ calls, c.key = c'.key → c.about = c'.about :=
  Memo.coherent_iff (p := policy tryParse) fun c _ => exists_fetch tryParse c

/-- Progress of the linear instance 3 is returned for the adaptive instance 3. -/
theorem progress_of_other_service : ¬ ∀ events : List (Memo.Event Call Server),
    ∀ answered ∈ answers (fun _ => none) events, ∀ kept, answered.2 = .cached kept →
      kept.about = answered.1.about := by
  intro h
  have hanswers := h [⟨.instanceProgress "https://kypo" "linear" 3, 0,
      fun _ _ => .body (some (.object []))⟩,
    ⟨.instanceProgress "https://kypo" "adaptive" 3, 10000000, fun _ _ => .failed⟩]
    _ (List.mem_cons_of_mem _ List.mem_cons_self) _ rfl
  exact absurd hanswers (by decide)

end Fctf.KypoApiClient
