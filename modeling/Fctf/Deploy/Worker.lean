import Fctf.Deploy.Data

/-!
The deployment worker's run over one batch of messages, with the order of its
exits: what throws outside the `try` ends the run, what throws inside it is
answered with a negative acknowledgement, and a message with a null request is
left alone. The channel is open, and RabbitMQ gives every message of it a
delivery tag of its own.
-/

namespace Fctf

/-- What deserialising a text comes to. -/
inductive Deserialized (α : Type)
  | error
  | null
  | value (a : α)
  deriving Repr, DecidableEq

structure ChallengeStartStopReqDTO where
  challengeId : Int
  teamId : Int
  deriving Repr, DecidableEq

structure DeploymentQueuePayload where
  Data : Option String
  deriving Repr, DecidableEq

/-- `OnMessageReceivedAsync` also buffers a message whose whole body is null. -/
structure DequeuedMessage where
  DeliveryTag : Nat
  Payload : Option DeploymentQueuePayload
  deriving Repr, DecidableEq

/-- What `DequeueAvailableBatchAsync` hands over. -/
structure MessageBatch where
  messages : List DequeuedMessage
  distinct : (messages.map DequeuedMessage.DeliveryTag).Nodup

/-- The JSON readers: a start request, a `ChallengeImageDTO`, and the member
`metadata.name` of Argo's answer as a string. -/
structure WorkerJson where
  startReq : String → Deserialized ChallengeStartStopReqDTO
  image : String → Deserialized Unit
  workflowName : String → Deserialized String

/-- What the worker is answered while it deploys for one message. A failed read,
lookup or request is `none`. -/
structure DeployAnswers where
  /-- `GetFromCacheAsync`, which answers null for a missing, unreadable or failed read. -/
  cache : Option ChallengeDeploymentCacheDTO
  /-- The challenge row with its image link. -/
  challenge : Option (Option String)
  /-- The application name that `BuildArgoPayload` chooses. -/
  appName : Option String
  /-- The content of Argo's answer to the submission. -/
  response : Option (Option String)

inductive WorkerEffect
  | submit (req : ChallengeStartStopReqDTO) (appName : String)
  | ack (deliveryTag : Nat)
  | nack (deliveryTag : Nat)
  | update (req : ChallengeStartStopReqDTO) (entry : ChallengeDeploymentCacheDTO)
  deriving Repr, DecidableEq

namespace Worker

/-- The cache entry of a submitted deployment. -/
def submitted (entry : ChallengeDeploymentCacheDTO) (appName workflowName : String) :
    ChallengeDeploymentCacheDTO :=
  { entry with
    _namespace := appName, status := .PENDING, workflow_name := workflowName, time_finished := 0 }

/-- What follows on Argo's answer: its effects, and whether an exception ends
them. `AtomicUpdateExpiration` turns a failure of Redis into an answer. -/
def onResponse (json : WorkerJson) (deliveryTag : Nat) (req : ChallengeStartStopReqDTO)
    (entry : ChallengeDeploymentCacheDTO) (appName response : String) : List WorkerEffect × Bool :=
  if response = "" then ([.update req (submitted entry appName "")], false)
  else
    match json.workflowName response with
    | .error => ([], true)
    -- acknowledged first, and only then found to be null or blank
    | .null => ([.ack deliveryTag], true)
    | .value workflowName =>
      if isNullOrWhiteSpace workflowName then ([.ack deliveryTag], true)
      else ([.ack deliveryTag, .update req (submitted entry appName workflowName)], false)

/-- The lookups before the submission. -/
def prepare (json : WorkerJson) (answers : DeployAnswers) :
    Option (ChallengeDeploymentCacheDTO × String) := do
  let entry ← answers.cache
  let imageLink ← answers.challenge.bind id
  match json.image imageLink with
  | .error | .null => none
  | .value _ =>
    let appName ← answers.appName
    some (entry, appName)

/-- The `try` block. -/
def deploy (json : WorkerJson) (deliveryTag : Nat) (req : ChallengeStartStopReqDTO)
    (answers : DeployAnswers) : List WorkerEffect × Bool :=
  match prepare json answers with
  | none => ([], true)
  | some (entry, appName) =>
    match answers.response.bind id with
    | none => ([.submit req appName], true)
    | some response =>
      let (effects, threw) := onResponse json deliveryTag req entry appName response
      (.submit req appName :: effects, threw)

/-- The effects for a message whose request could be read. -/
def handle (json : WorkerJson) (deliveryTag : Nat) (req : ChallengeStartStopReqDTO)
    (answers : DeployAnswers) : List WorkerEffect :=
  let (effects, threw) := deploy json deliveryTag req answers
  if threw then effects ++ [.nack deliveryTag] else effects

/-- The loop. The payload is read outside the `try`: an exception there leaves
the loop, and a null request is skipped. -/
def processMessages (json : WorkerJson) (answers : Nat → DeployAnswers) :
    List DequeuedMessage → List WorkerEffect
  | [] => []
  | mess :: rest =>
    match (mess.Payload.bind DeploymentQueuePayload.Data).map json.startReq with
    | none | some .error => []
    | some .null => processMessages json answers rest
    | some (.value req) =>
      handle json mess.DeliveryTag req (answers mess.DeliveryTag) ++
        processMessages json answers rest

/-- `ProcessAsync` from the dequeued batch on; it looks for the bearer token first. -/
def processAsync (json : WorkerJson) (answers : Nat → DeployAnswers) (token : Option String)
    (batch : MessageBatch) : List WorkerEffect :=
  match token with
  | none => []
  | some _ => processMessages json answers batch.messages

end Worker

/-- The effect settles the delivery tag. -/
def WorkerEffect.settles (deliveryTag : Nat) : WorkerEffect → Bool
  | .ack tag | .nack tag => tag == deliveryTag
  | .submit .. | .update .. => false

/-- Every message is acknowledged or negatively acknowledged exactly once. -/
def MessageBatch.Settled (batch : MessageBatch) (effects : List WorkerEffect) : Prop :=
  ∀ mess ∈ batch.messages, effects.countP (·.settles mess.DeliveryTag) = 1

instance MessageBatch.decidableSettled (batch : MessageBatch) (effects : List WorkerEffect) :
    Decidable (batch.Settled effects) :=
  inferInstanceAs
    (Decidable (∀ mess ∈ batch.messages, effects.countP (·.settles mess.DeliveryTag) = 1))

namespace Worker

/-- Argo's answer is neither empty nor one whose workflow name is null or blank. -/
def usable (json : WorkerJson) (response : String) : Bool :=
  response != "" && match json.workflowName response with
    | .error => true
    | .null => false
    | .value workflowName => !isNullOrWhiteSpace workflowName

/-- A message that the worker can settle: there is a request in it, and a
submission that gets an answer gets a usable one. -/
def settleable (json : WorkerJson) (answers : DeployAnswers) (mess : DequeuedMessage) : Bool :=
  (mess.Payload.bind DeploymentQueuePayload.Data).any (fun data =>
      json.startReq data matches .value _) &&
    ((prepare json answers).isNone || (answers.response.bind id).all (usable json))

variable {json : WorkerJson} {answers : Nat → DeployAnswers}

/-- With the acknowledgement for an exception: one for a usable answer, none for
an empty one, two for a blank name. -/
theorem settles_onResponse (json : WorkerJson) (tag : Nat) (req : ChallengeStartStopReqDTO)
    (entry : ChallengeDeploymentCacheDTO) (appName response : String) :
    (onResponse json tag req entry appName response).1.countP (·.settles tag) +
        (if (onResponse json tag req entry appName response).2 then 1 else 0) =
      if usable json response then 1 else if response = "" then 0 else 2 := by
  unfold onResponse usable
  by_cases hempty : response = ""
  · simp [hempty, WorkerEffect.settles]
  · cases hname : json.workflowName response with
    | error => simp [hempty]
    | null => simp [hempty, WorkerEffect.settles]
    | value workflowName =>
      by_cases hblank : isNullOrWhiteSpace workflowName = true
      · simp [hempty, hblank, WorkerEffect.settles]
      · simp [hempty, hblank, WorkerEffect.settles]

theorem settles_deploy (json : WorkerJson) (tag : Nat) (req : ChallengeStartStopReqDTO)
    (a : DeployAnswers) :
    (deploy json tag req a).1.countP (·.settles tag) +
        (if (deploy json tag req a).2 then 1 else 0) = 1 ↔
      ((prepare json a).isNone || (a.response.bind id).all (usable json)) = true := by
  unfold deploy
  cases prepare json a with
  | none => simp
  | some p =>
    cases a.response.bind id with
    | none => simp [WorkerEffect.settles]
    | some response =>
      have hcount := settles_onResponse json tag req p.1 p.2 response
      simp only [Option.isNone_some, Bool.false_or, Option.all_some]
      rw [List.countP_cons_of_neg (by simp [WorkerEffect.settles]), hcount]
      split_ifs <;> simp_all

theorem settles_handle {tag other : Nat} {req : ChallengeStartStopReqDTO} {a : DeployAnswers} :
    (handle json tag req a).countP (·.settles other) =
      (deploy json tag req a).1.countP (·.settles other) +
        if (deploy json tag req a).2 ∧ tag = other then 1 else 0 := by
  unfold handle
  obtain ⟨effects, threw⟩ := deploy json tag req a
  cases threw with
  | false => simp
  | true => simp [List.countP_append, List.countP_singleton, WorkerEffect.settles]

/-- What happens for one message settles no other tag. -/
theorem handle_other {tag other : Nat} {req : ChallengeStartStopReqDTO} {a : DeployAnswers}
    (hne : tag ≠ other) : (handle json tag req a).countP (·.settles other) = 0 := by
  have heffects : (deploy json tag req a).1.countP (·.settles other) = 0 := by
    unfold deploy
    cases prepare json a with
    | none => rfl
    | some p =>
      cases a.response.bind id with
      | none => rfl
      | some response =>
        simp only [onResponse]
        split_ifs
        · rfl
        · split
          · rfl
          · simp [WorkerEffect.settles, hne]
          · split_ifs <;> simp [WorkerEffect.settles, hne]
  rw [settles_handle, heffects]
  simp [hne]

theorem handle_self {tag : Nat} {req : ChallengeStartStopReqDTO} {a : DeployAnswers} :
    (handle json tag req a).countP (·.settles tag) = 1 ↔
      ((prepare json a).isNone || (a.response.bind id).all (usable json)) = true := by
  rw [settles_handle, ← settles_deploy json tag req a]
  simp

/-- The run settles only tags of its batch. -/
theorem settles_processMessages {messages : List DequeuedMessage} {tag : Nat}
    (h : tag ∉ messages.map DequeuedMessage.DeliveryTag) :
    (processMessages json answers messages).countP (·.settles tag) = 0 := by
  induction messages with
  | nil => rfl
  | cons mess rest ih =>
    obtain ⟨hne, hrest⟩ := List.ne_and_not_mem_of_not_mem_cons h
    rw [processMessages]
    split
    · rfl
    · rfl
    · exact ih hrest
    · rw [List.countP_append, handle_other (Ne.symm hne), ih hrest]

theorem processMessages_settled_iff {messages : List DequeuedMessage}
    (hdistinct : (messages.map DequeuedMessage.DeliveryTag).Nodup) :
    (∀ mess ∈ messages,
        (processMessages json answers messages).countP (·.settles mess.DeliveryTag) = 1) ↔
      ∀ mess ∈ messages, settleable json (answers mess.DeliveryTag) mess = true := by
  induction messages with
  | nil => simp
  | cons mess rest ih =>
    obtain ⟨hfresh, hrest⟩ := List.nodup_cons.mp hdistinct
    have hother : ∀ m ∈ rest, mess.DeliveryTag ≠ m.DeliveryTag := by
      intro m hm heq
      exact hfresh (heq ▸ List.mem_map_of_mem hm)
    rw [List.forall_mem_cons, List.forall_mem_cons, ← ih hrest, processMessages]
    split
    · rename_i hdata
      simp [settleable, Option.map_eq_none_iff.mp hdata]
    · rename_i hdata
      obtain ⟨data, hsome, hread⟩ := Option.map_eq_some_iff.mp hdata
      simp [settleable, hsome, hread]
    · rename_i hdata
      obtain ⟨data, hsome, hread⟩ := Option.map_eq_some_iff.mp hdata
      simp [settleable, hsome, hread, settles_processMessages hfresh]
    · rename_i req hdata
      obtain ⟨data, hsome, hread⟩ := Option.map_eq_some_iff.mp hdata
      apply and_congr
      · rw [List.countP_append, settles_processMessages hfresh, Nat.add_zero, handle_self]
        simp [settleable, hsome, hread]
      · apply forall₂_congr
        intro m hm
        rw [List.countP_append, handle_other (hother m hm), Nat.zero_add]

/-- A run settles every message of its batch exactly once if and only if it
finds its bearer token and each message is one that the worker can settle. -/
theorem settled_iff_settleable (json : WorkerJson) (answers : Nat → DeployAnswers)
    (token : Option String) (batch : MessageBatch) :
    batch.Settled (processAsync json answers token batch) ↔
      (token.isSome ∨ batch.messages = []) ∧
        ∀ mess ∈ batch.messages, settleable json (answers mess.DeliveryTag) mess = true := by
  cases token with
  | none =>
    cases hmessages : batch.messages with
    | nil => simp [MessageBatch.Settled, hmessages]
    | cons mess rest =>
      apply iff_of_false
      · intro hsettled
        have hmess := hsettled mess (by rw [hmessages]; exact List.mem_cons_self)
        cases hmess
      · simp
  | some bearer =>
    rw [MessageBatch.Settled, processAsync, processMessages_settled_iff batch.distinct]
    simp

/-- The readers on the texts of the batch below. -/
def batchJson : WorkerJson where
  startReq data := if data = "start" then .error else if data = "null" then .null else .value ⟨5, 1⟩
  image _ := .value ()
  workflowName response := if response = "[]" then .error else .value "web-1"

/-- A message with a broken payload before one that could be settled. -/
def brokenBatch : MessageBatch where
  messages := [⟨1, some ⟨some "start"⟩⟩,
    ⟨2, some ⟨some "\x7b\"challengeId\":5,\"teamId\":1\x7d"⟩⟩]
  distinct := by decide

/-- Neither message is settled. -/
theorem broken_message_stops_batch :
    ¬ ∀ (json : WorkerJson) (answers : Nat → DeployAnswers) (token : String) (batch : MessageBatch),
      batch.Settled (processAsync json answers (some token) batch) := by
  intro hsettles
  have hsettled := hsettles batchJson (fun _ => ⟨none, none, none, none⟩) "token" brokenBatch
  revert hsettled
  decide

end Worker

end Fctf
