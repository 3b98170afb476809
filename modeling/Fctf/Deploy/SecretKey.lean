import Fctf.Text
import Fctf.Lib.Record
import Mathlib.Data.List.Sort
import Mathlib.Data.String.Basic

/-!
The key that signs a request of one service to another: a hash over the time, a secret of all
services and the values of the body, in the order of their names. A caller makes it in Python
or in C#, and `RequireSecretKeyAttribute` makes it anew from the body that arrives.
-/

namespace Fctf.SecretKey

/-- The hash of a text in UTF-8, in hexadecimal digits. -/
structure Md5 where
  hash : String → String
  injective : Function.Injective hash
  hash_ne_empty : ∀ text, hash text ≠ ""

/-- A hash that is known of one text; the others are told apart by a mark before them. -/
def Md5.knowing (known digest : String) (hmark : ∀ text, digest ≠ "." ++ text)
    (hdigest : digest ≠ "") : Md5 where
  hash text := if text = known then digest else "." ++ text
  injective := by
    intro a b hab
    dsimp only at hab
    split_ifs at hab with ha hb hb
    · rw [ha, hb]
    · exact absurd hab (hmark b)
    · exact absurd hab.symm (hmark a)
    · rwa [← String.toList_inj, String.toList_append, String.toList_append,
        List.append_right_inj, String.toList_inj] at hab
  hash_ne_empty := by
    intro text hempty
    split_ifs at hempty
    · exact hdigest hempty
    · rw [← String.toList_inj, String.toList_append] at hempty
      exact absurd hempty (by simp)

inductive FieldValue
  | null
  | integer (n : Int)
  | text (s : String)
  deriving DecidableEq

/-- The fields of a body, next to the time. -/
def fieldNames : List String :=
  ["challengeId", "challengeName", "challengePath", "imageTag", "ns", "teamId", "userId",
    "workflowName"]

/-- The comparison of strings that `OrderBy` uses, in the culture of the process. -/
structure Comparer where
  le : String → String → Bool
  le_names : ∀ a ∈ fieldNames, ∀ b ∈ fieldNames, le a b = decide (a ≤ b)

/-- The order of the code points. -/
def Comparer.ordinal : Comparer where
  le a b := decide (a ≤ b)
  le_names := by
    intro a _ b _
    rfl

/-! ### The callers -/

namespace Connector

/-- Python's `str`. -/
def str : FieldValue → String
  | .null => "None"
  | .integer n => toString n
  | .text s => s

def combineString (privateKey unixTime : String) (data : Record FieldValue) : String :=
  let sortedKey := (data.map Prod.fst).mergeSort fun a b => decide (a ≤ b)
  sortedKey.foldl (fun combine key => combine ++ str ((data.get key).getD (.text "1")))
    (unixTime ++ privateKey)

def createSecretKey (md5 : Md5) (privateKey unixTime : String) (data : Record FieldValue) :
    String :=
  md5.hash (combineString privateKey unixTime data)

end Connector

namespace Helper

def stringBuilder (compare : Comparer) (privateKey : String) (unixTime : Int)
    (data : Record (Option String)) : String :=
  let sortedParams := data.mergeSort fun a b => compare.le a.1 b.1
  sortedParams.foldl (fun builder param => builder ++ param.2.getD "1")
    (toString unixTime ++ privateKey)

def createSecretKey (md5 : Md5) (compare : Comparer) (privateKey : String) (unixTime : Int)
    (data : Record (Option String)) : String :=
  md5.hash (stringBuilder compare privateKey unixTime data)

end Helper

/-- The value as a caller in C# has it in its dictionary. -/
def FieldValue.dictionaryText : FieldValue → Option String
  | .null => none
  | .integer n => some (toString n)
  | .text s => some s

/-! ### The filter -/

/-- `ToString` of a value of the body; no value is an empty text. -/
def FieldValue.elementText : FieldValue → String
  | .null => ""
  | .integer n => toString n
  | .text s => s

inductive Content
  | form (fields : Record String) (files : List String)
  | blank
  | null
  | json (bodyData : Record FieldValue)

/-- What becomes of a request: the next filter, a refusal with its text, or an exception. -/
inductive Outcome
  | next
  | badRequest (content : String)
  | failed
  deriving DecidableEq

def inLong (n : Int) : Bool := -9223372036854775808 ≤ n && n ≤ 9223372036854775807

/-- The time of a body; a number that is no `long` is an exception. -/
def readUnixTime : Option FieldValue → Option Int
  | some (.text s) => some ((tryParseLong s).getD 0)
  | some (.integer n) => if inLong n then some n else none
  | some .null => some 0
  | none => some 0

variable (md5 : Md5) (compare : Comparer) (privateKey : String)

def checkKey (received : String) (unixTime : Int) (data : Record String) : Outcome :=
  if received ≠ Helper.createSecretKey md5 compare privateKey unixTime
      (data.map fun kv => (kv.1, some kv.2)) then
    .badRequest "[Middlewares] Invalid Secret Key"
  else .next

def onResourceExecution (now : Int) (secretKey : Option String) (content : Content) : Outcome :=
  match secretKey with
  | none => .badRequest "[Middlewares] Invalid Secret Key"
  | some received =>
    if received = "" then .badRequest "[Middlewares] Invalid Secret Key"
    else
      match content with
      | .form fields files =>
        let data := fields.filter fun kv => !files.contains kv.1
        match fields.get "unixTime" with
        | some time =>
          checkKey md5 compare privateKey received ((tryParseLong time).getD now)
            (data.filter fun kv => kv.1 ≠ "unixTime")
        | none => checkKey md5 compare privateKey received 0 data
      | .blank => .badRequest "[Middlewares] Request body is empty"
      | .null => .badRequest "[Middlewares] Invalid Json data"
      | .json bodyData =>
        match readUnixTime (bodyData.get "unixTime") with
        | none => .failed
        | some unixTime =>
          checkKey md5 compare privateKey received unixTime
            ((bodyData.filter fun kv => kv.1 ≠ "unixTime").map fun kv =>
              (kv.1, kv.2.elementText))

/-! ### Bodies -/

/-- What a caller sends: the time and its fields, each once. -/
structure Body where
  unixTime : Nat
  fields : Record FieldValue
  unixTime_lt : unixTime < 2 ^ 63
  names_nodup : (fields.map Prod.fst).Nodup
  names_known : ∀ p ∈ fields, p.1 ∈ fieldNames

namespace Body

def payload (body : Body) : Content :=
  .json (body.fields ++ [("unixTime", .text (toString body.unixTime))])

/-- The key of a caller in Python. -/
def connectorKey (body : Body) : String :=
  Connector.createSecretKey md5 privateKey (toString body.unixTime) body.fields

/-- The key of a caller in C#. -/
def helperKey (body : Body) : String :=
  Helper.createSecretKey md5 compare privateKey body.unixTime
    (body.fields.map fun p => (p.1, p.2.dictionaryText))

/-- No field is without a value. -/
def Complete (body : Body) : Prop := ∀ p ∈ body.fields, p.2 ≠ .null

end Body

/-- The filter lets the body through with the key. -/
def Accepts (now : Int) (key : String) (body : Body) : Prop :=
  onResourceExecution md5 compare privateKey now (some key) body.payload = .next

/-! ### The requests of the contestant's service -/

structure ChallengeStartStopReq where
  challengeId : Int32
  challengeName : String := ""
  teamId : Int32
  userId : Option Int32 := none
  unixTime : Option String
  ns : Option String := none

def ofNullable {α : Type} (value : α → FieldValue) : Option α → FieldValue
  | none => .null
  | some a => value a

def ofInt (n : Int32) : FieldValue := .integer n.toInt

def ChallengeStartStopReq.fields (req : ChallengeStartStopReq) : Record FieldValue :=
  [("challengeId", ofInt req.challengeId), ("challengeName", .text req.challengeName),
    ("teamId", ofInt req.teamId), ("userId", ofNullable ofInt req.userId),
    ("unixTime", ofNullable .text req.unixTime), ("ns", ofNullable .text req.ns)]

/-- The body and the key of `ChallengeStart`. -/
def challengeStart (unixTime : Nat) (challengeId teamId userId : Int32) :
    ChallengeStartStopReq × String :=
  ({ challengeId, teamId, userId := some userId, unixTime := some (toString unixTime) },
    Helper.createSecretKey md5 compare privateKey unixTime
      [("challengeId", some (toString challengeId.toInt)),
        ("teamId", some (toString teamId.toInt)), ("userId", some (toString userId.toInt))])

/-- The body and the key of `ForceStopChallenge`. -/
def forceStopChallenge (unixTime : Nat) (challengeId teamId : Int32) :
    ChallengeStartStopReq × String :=
  ({ challengeId, teamId, unixTime := some (toString unixTime) },
    Helper.createSecretKey md5 compare privateKey unixTime
      [("challengeId", some (toString challengeId.toInt)),
        ("teamId", some (toString teamId.toInt))])

/-! ### The text under the hash -/

/-- The fields in the order of their names. -/
def sorted {α : Type} (fields : Record α) : Record α :=
  fields.mergeSort fun a b => decide (a.1 ≤ b.1)

theorem mem_sorted {α : Type} {fields : Record α} {p : String × α} :
    p ∈ sorted fields ↔ p ∈ fields :=
  List.mem_mergeSort

theorem sorted_map {α β : Type} (f : String × α → β) (fields : Record α) :
    sorted (fields.map fun p => (p.1, f p)) = (sorted fields).map fun p => (p.1, f p) := by
  rw [sorted, sorted, List.map_mergeSort]
  intro a _ b _
  rfl

/-- The culture does not matter for the names of the fields. -/
theorem sorted_compare {α : Type} {fields : Record α} (h : ∀ p ∈ fields, p.1 ∈ fieldNames) :
    (fields.mergeSort fun a b => compare.le a.1 b.1) = sorted fields := by
  have hmap := List.map_mergeSort (r := fun a b => compare.le a.1 b.1)
    (s := fun a b : String × α => decide (a.1 ≤ b.1)) (f := id) (l := fields)
    fun a ha b hb => compare.le_names a.1 (h a ha) b.1 (h b hb)
  rwa [List.map_id, List.map_id] at hmap

theorem sorted_names {α : Type} (fields : Record α) :
    (fields.map Prod.fst).mergeSort (fun a b => decide (a ≤ b)) =
      (sorted fields).map Prod.fst := by
  rw [sorted, List.map_mergeSort]
  intro a _ b _
  rfl

/-- The values in the order of their names, one after the other. -/
def valuesText {α : Type} (render : α → String) (fields : Record α) : List Char :=
  (sorted fields).flatMap fun p => (render p.2).toList

theorem toList_foldl {α : Type} (render : α → String) (l : List α) (start : String) :
    (l.foldl (fun text x => text ++ render x) start).toList =
      start.toList ++ l.flatMap fun x => (render x).toList := by
  induction l generalizing start with
  | nil => simp
  | cons x l ih =>
    rw [List.foldl_cons, ih, String.toList_append, List.flatMap_cons, List.append_assoc]

theorem toList_combineString (unixTime : String) {data : Record FieldValue}
    (hnames : (data.map Prod.fst).Nodup) :
    (Connector.combineString privateKey unixTime data).toList =
      (unixTime ++ privateKey).toList ++ valuesText Connector.str data := by
  rw [Connector.combineString, toList_foldl, sorted_names, List.flatMap_map, valuesText]
  congr 1
  apply List.flatMap_congr
  intro p hp
  rw [Record.get_of_mem hnames (mem_sorted.mp hp), Option.getD_some]

theorem toList_stringBuilder {α : Type} (render : α → Option String) (unixTime : Int)
    {data : Record α} (hnames : ∀ p ∈ data, p.1 ∈ fieldNames) :
    (Helper.stringBuilder compare privateKey unixTime
      (data.map fun p => (p.1, render p.2))).toList =
      (toString unixTime ++ privateKey).toList ++
        valuesText (fun v => (render v).getD "1") data := by
  have hknown : ∀ p ∈ data.map fun p => (p.1, render p.2), p.1 ∈ fieldNames := by
    intro p hp
    obtain ⟨q, hq, rfl⟩ := List.mem_map.mp hp
    exact hnames q hq
  rw [Helper.stringBuilder, toList_foldl, sorted_compare compare hknown,
    sorted_map fun p => render p.2,
    List.flatMap_map, valuesText]

/-- Where no value is rendered shorter by `f` than by `g`, the texts are the same only if every
value is rendered alike. -/
theorem flatMap_eq_iff {α : Type} {f g : α → List Char}
    (h : ∀ x, f x = g x ∨ (g x).length < (f x).length) (l : List α) :
    l.flatMap f = l.flatMap g ↔ ∀ x ∈ l, f x = g x := by
  have hle : ∀ l : List α, (l.flatMap g).length ≤ (l.flatMap f).length := by
    intro l
    induction l with
    | nil => simp
    | cons x l ih =>
      have hx : (g x).length ≤ (f x).length := by
        rcases h x with heq | hlt
        · rw [heq]
        · exact hlt.le
      simp only [List.flatMap_cons, List.length_append]
      omega
  constructor
  · intro heq
    induction l with
    | nil => simp
    | cons x l ih =>
      simp only [List.flatMap_cons] at heq
      have hsum := congrArg List.length heq
      simp only [List.length_append] at hsum
      have htail := hle l
      rcases h x with hx | hx
      · rw [hx] at heq
        rw [List.forall_mem_cons]
        exact ⟨hx, ih (List.append_cancel_left heq)⟩
      · omega
  · intro heq
    exact List.flatMap_congr heq

theorem valuesText_eq_iff {α : Type} {f g : α → String}
    (h : ∀ v, f v = g v ∨ (g v).toList.length < (f v).toList.length) (fields : Record α) :
    valuesText f fields = valuesText g fields ↔ ∀ p ∈ fields, f p.2 = g p.2 := by
  rw [valuesText, valuesText, flatMap_eq_iff]
  · simp only [mem_sorted, String.toList_inj]
  · intro p
    simpa only [String.toList_inj] using h p.2

/-! ### What the filter accepts -/

theorem tryParseLong_toString {n : Nat} (h : n < 2 ^ 63) :
    tryParseLong (toString n) = some (n : Int) := by
  apply tryParse_toString (n := (n : Int))
  omega

theorem unixTime_notMem_fieldNames : "unixTime" ∉ fieldNames := by decide

theorem Body.fields_filter (body : Body) :
    (body.fields ++ [("unixTime", FieldValue.text (toString body.unixTime))]).filter
      (fun kv => kv.1 ≠ "unixTime") = body.fields := by
  rw [List.filter_append, List.filter_eq_self.mpr, List.filter_eq_nil_iff.mpr, List.append_nil]
  · simp
  · intro p hp
    have hne : p.1 ≠ "unixTime" := by
      intro heq
      exact unixTime_notMem_fieldNames (heq ▸ body.names_known p hp)
    simpa using hne

theorem Body.get_unixTime (body : Body) :
    Record.get (body.fields ++ [("unixTime", FieldValue.text (toString body.unixTime))])
      "unixTime" = some (.text (toString body.unixTime)) := by
  have hnone : Record.get body.fields "unixTime" = none := by
    cases hget : Record.get body.fields "unixTime" with
    | none => rfl
    | some v =>
      exact absurd (body.names_known _ (Record.mem_of_get hget)) unixTime_notMem_fieldNames
  rw [Record.get_append, hnone, Record.get_cons, if_pos rfl]
  rfl

/-- The filter goes on where the key is the hash of the text that it makes of the body. -/
theorem accepts_hash (now : Int) {unixTime : Nat} (htime : unixTime < 2 ^ 63)
    {bodyData fields : Record FieldValue}
    (hget : bodyData.get "unixTime" = some (.text (toString unixTime)))
    (hfields : (bodyData.filter fun kv => kv.1 ≠ "unixTime") = fields)
    (hnames : ∀ p ∈ fields, p.1 ∈ fieldNames) (text : String) :
    onResourceExecution md5 compare privateKey now (some (md5.hash text)) (.json bodyData) =
      .next ↔
      text.toList = (toString unixTime ++ privateKey).toList ++
        valuesText FieldValue.elementText fields := by
  have hbuilder := toList_stringBuilder compare privateKey
    (fun v => some (FieldValue.elementText v)) unixTime hnames
  have hread : readUnixTime (some (.text (toString unixTime))) = some (unixTime : Int) := by
    rw [readUnixTime, tryParseLong_toString htime]
    rfl
  simp only [onResourceExecution, if_neg (md5.hash_ne_empty text), hget, hread, hfields, checkKey,
    Helper.createSecretKey, List.map_map, Function.comp_def]
  constructor
  · intro h
    split_ifs at h with hne
    rw [not_not] at hne
    rw [md5.injective hne, hbuilder]
    rfl
  · intro h
    rw [if_neg]
    rw [not_not]
    congr 1
    rw [← String.toList_inj, hbuilder, h]
    rfl

theorem Body.accepts_hash (now : Int) (body : Body) (text : String) :
    Accepts md5 compare privateKey now (md5.hash text) body ↔
      text.toList = (toString body.unixTime ++ privateKey).toList ++
        valuesText FieldValue.elementText body.fields :=
  SecretKey.accepts_hash md5 compare privateKey now body.unixTime_lt body.get_unixTime
    body.fields_filter body.names_known text

/-- What two bodies have to share for the key of the one to pass with the other. -/
theorem connectorKey_passes (now : Int) (a b : Body) (htime : a.unixTime = b.unixTime) :
    Accepts md5 compare privateKey now (a.connectorKey md5 privateKey) b ↔
      valuesText Connector.str a.fields = valuesText FieldValue.elementText b.fields := by
  rw [Body.connectorKey, Connector.createSecretKey, Body.accepts_hash,
    toList_combineString privateKey _ a.names_nodup, htime, List.append_right_inj]

theorem helperKey_passes (now : Int) (a b : Body) (htime : a.unixTime = b.unixTime) :
    Accepts md5 compare privateKey now (a.helperKey md5 compare privateKey) b ↔
      valuesText (fun v => v.dictionaryText.getD "1") a.fields =
        valuesText FieldValue.elementText b.fields := by
  have htext : toString (a.unixTime : Int) = toString b.unixTime := by
    rw [htime]
    rfl
  rw [Body.helperKey, Helper.createSecretKey, Body.accepts_hash,
    toList_stringBuilder compare privateKey _ _ a.names_known, htext, List.append_right_inj]

theorem connector_accepted (now : Int) (body : Body) :
    Accepts md5 compare privateKey now (body.connectorKey md5 privateKey) body ↔ body.Complete := by
  have hshort : ∀ v, Connector.str v = v.elementText ∨
      v.elementText.toList.length < (Connector.str v).toList.length := by
    intro v
    cases v with
    | null => exact .inr (by decide)
    | integer n => exact .inl rfl
    | text t => exact .inl rfl
  have hnull : ∀ v, Connector.str v = v.elementText ↔ v ≠ .null := by
    intro v
    cases v with
    | null => simp [Connector.str, FieldValue.elementText]
    | integer n => simp [Connector.str, FieldValue.elementText]
    | text t => simp [Connector.str, FieldValue.elementText]
  rw [connectorKey_passes md5 compare privateKey now body body rfl, valuesText_eq_iff hshort]
  exact forall₂_congr fun p _ => hnull p.2

theorem helper_accepted (now : Int) (body : Body) :
    Accepts md5 compare privateKey now (body.helperKey md5 compare privateKey) body ↔
      body.Complete := by
  have hshort : ∀ v : FieldValue, v.dictionaryText.getD "1" = v.elementText ∨
      v.elementText.toList.length < (v.dictionaryText.getD "1").toList.length := by
    intro v
    cases v with
    | null => exact .inr (by decide)
    | integer n => exact .inl rfl
    | text t => exact .inl rfl
  have hnull : ∀ v : FieldValue, v.dictionaryText.getD "1" = v.elementText ↔ v ≠ .null := by
    intro v
    cases v with
    | null => simp [FieldValue.dictionaryText, FieldValue.elementText]
    | integer n => simp [FieldValue.dictionaryText, FieldValue.elementText]
    | text t => simp [FieldValue.dictionaryText, FieldValue.elementText]
  rw [helperKey_passes md5 compare privateKey now body body rfl, valuesText_eq_iff hshort]
  exact forall₂_congr fun p _ => hnull p.2

theorem sorted_eq_of_perm {α : Type} {fields l : Record α} (hperm : fields.Perm l)
    (hl : (l.map Prod.fst).Pairwise (· < ·)) : sorted fields = l := by
  have hsorted : (sorted fields).Pairwise fun a b => a.1 ≤ b.1 := by
    have htrans : ∀ a b c : String × α, decide (a.1 ≤ b.1) = true → decide (b.1 ≤ c.1) = true →
        decide (a.1 ≤ c.1) = true := by
      intro a b c hab hbc
      rw [decide_eq_true_eq] at hab hbc ⊢
      exact le_trans hab hbc
    have htotal : ∀ a b : String × α, (decide (a.1 ≤ b.1) || decide (b.1 ≤ a.1)) = true := by
      intro a b
      simpa using le_total a.1 b.1
    simpa [sorted] using List.pairwise_mergeSort htrans htotal fields
  have hnames : (l.map Prod.fst).Nodup := hl.imp fun h => h.ne
  rw [List.pairwise_map] at hl
  apply List.Perm.eq_of_pairwise ?_ hsorted (hl.imp fun h => h.le)
    ((List.mergeSort_perm _ _).trans hperm)
  intro a b ha hb hab hba
  exact List.inj_on_of_nodup_map hnames (hperm.mem_iff.mp (mem_sorted.mp ha)) hb
    (le_antisymm hab hba)

namespace ChallengeStartStopReq

variable (challengeId teamId : Int32) (userId : Option Int32)

/-- The fields that arrive, with the empty ones. -/
def received : Record FieldValue :=
  [("challengeId", ofInt challengeId), ("challengeName", .text ""), ("teamId", ofInt teamId),
    ("userId", ofNullable ofInt userId), ("ns", .null)]

/-- The fields under the key. -/
def signed : Record (Option String) :=
  [("challengeId", some (toString challengeId.toInt)), ("teamId", some (toString teamId.toInt))] ++
    (userId.map fun user => ("userId", some (toString user.toInt))).toList

theorem sorted_received : sorted (received challengeId teamId userId) =
    [("challengeId", ofInt challengeId), ("challengeName", .text ""), ("ns", .null),
      ("teamId", ofInt teamId), ("userId", ofNullable ofInt userId)] := by
  apply sorted_eq_of_perm
  · apply List.Perm.cons
    apply List.Perm.cons
    show List.Perm ([("teamId", ofInt teamId), ("userId", ofNullable ofInt userId)] ++
      [("ns", .null)]) ([("ns", .null)] ++ _)
    exact List.perm_append_comm
  · simp only [List.map_cons, List.map_nil]
    decide

theorem sorted_signed :
    sorted (signed challengeId teamId userId) = signed challengeId teamId userId := by
  apply sorted_eq_of_perm (List.Perm.refl _)
  cases userId with
  | none =>
    simp only [signed, Option.map_none, Option.toList_none, List.append_nil, List.map_cons,
      List.map_nil]
    decide
  | some user =>
    simp only [signed, Option.map_some, Option.toList_some, List.cons_append, List.nil_append,
      List.map_cons, List.map_nil]
    decide

/-- What is not signed is empty in the text. -/
theorem valuesText_received : valuesText FieldValue.elementText
    (received challengeId teamId userId) =
      valuesText (fun v => v.getD "1") (signed challengeId teamId userId) := by
  rw [valuesText, valuesText, sorted_received, sorted_signed]
  cases userId with
  | none => simp [signed, ofInt, ofNullable, FieldValue.elementText]
  | some user => simp [signed, ofInt, ofNullable, FieldValue.elementText]

theorem accepted (now : Int) {unixTime : Nat} (htime : unixTime < 2 ^ 63) :
    onResourceExecution md5 compare privateKey now
      (some (Helper.createSecretKey md5 compare privateKey unixTime
        (signed challengeId teamId userId)))
      (.json (fields { challengeId, teamId, userId, unixTime := some (toString unixTime) })) =
        .next := by
  have hreceived : ∀ p ∈ received challengeId teamId userId, p.1 ∈ fieldNames := by
    simp [received, fieldNames]
  have hsigned : ∀ p ∈ signed challengeId teamId userId, p.1 ∈ fieldNames := by
    cases userId with
    | none => simp [signed, fieldNames]
    | some user => simp [signed, fieldNames]
  have hfields :
      ((fields { challengeId, teamId, userId, unixTime := some (toString unixTime) }).filter
        fun kv => kv.1 ≠ "unixTime") = received challengeId teamId userId := rfl
  have htext : toString (unixTime : Int) = toString unixTime := rfl
  have hbuilder := toList_stringBuilder compare privateKey id unixTime hsigned
  rw [Helper.createSecretKey,
    SecretKey.accepts_hash md5 compare privateKey now htime rfl hfields hreceived,
    valuesText_received, ← htext]
  simpa only [id_eq, Prod.mk.eta, List.map_id'] using hbuilder

end ChallengeStartStopReq

theorem challengeStart_accepted (now : Int) {unixTime : Nat} (htime : unixTime < 2 ^ 63)
    (challengeId teamId userId : Int32) :
    let request := challengeStart md5 compare privateKey unixTime challengeId teamId userId
    onResourceExecution md5 compare privateKey now (some request.2) (.json request.1.fields) =
      .next :=
  ChallengeStartStopReq.accepted md5 compare privateKey challengeId teamId (some userId) now htime

theorem forceStopChallenge_accepted (now : Int) {unixTime : Nat} (htime : unixTime < 2 ^ 63)
    (challengeId teamId : Int32) :
    let request := forceStopChallenge md5 compare privateKey unixTime challengeId teamId
    onResourceExecution md5 compare privateKey now (some request.2) (.json request.1.fields) =
      .next :=
  ChallengeStartStopReq.accepted md5 compare privateKey challengeId teamId none now htime

/-! ### What a key binds -/

/-- The type of a field of a body. -/
inductive Kind
  | integer
  | text
  | any
  deriving DecidableEq

def Kind.Admits : Kind → FieldValue → Prop
  | .integer, v => ∃ n, v = .integer n
  | .text, v => ∃ s, v = .text s
  | .any, _ => True

/-- The fields of the bodies of one endpoint. -/
structure Schema where
  fields : Record Kind
  names_nodup : (fields.map Prod.fst).Nodup
  names_known : ∀ p ∈ fields, p.1 ∈ fieldNames

structure Body.Fits (body : Body) (schema : Schema) : Prop where
  names : (body.fields.map Prod.fst).Perm (schema.fields.map Prod.fst)
  admits : ∀ name v kind, (name, v) ∈ body.fields → (name, kind) ∈ schema.fields → kind.Admits v

/-- Bodies of the schema and of one time that pass for each other have the same values. -/
def Binds (pass : Body → Body → Prop) (schema : Schema) : Prop :=
  ∀ a b : Body, a.Fits schema → b.Fits schema → a.unixTime = b.unixTime → pass a b →
    ∀ name, a.fields.get name = b.fields.get name

/-- No field, or one field whose values are of one type. -/
def Schema.Single (schema : Schema) : Prop :=
  schema.fields = [] ∨ ∃ name kind, schema.fields = [(name, kind)] ∧ kind ≠ .any

/-- The body with a value for each field of the schema. -/
def Schema.body (schema : Schema) (value : String × Kind → FieldValue) : Body where
  unixTime := 0
  fields := schema.fields.map fun p => (p.1, value p)
  unixTime_lt := by decide
  names_nodup := by
    rw [List.map_map]
    exact schema.names_nodup
  names_known := by
    intro p hp
    obtain ⟨q, hq, rfl⟩ := List.mem_map.mp hp
    exact schema.names_known q hq

theorem Schema.body_fits (schema : Schema) {value : String × Kind → FieldValue}
    (h : ∀ p : String × Kind, p.2.Admits (value p)) : (schema.body value).Fits schema where
  names := by
    rw [Schema.body, List.map_map]
    exact List.Perm.refl _
  admits := by
    intro name v kind hv hkind
    obtain ⟨q, hq, heq⟩ := List.mem_map.mp hv
    obtain ⟨rfl, rfl⟩ := Prod.mk.inj heq
    have hsame : q = (q.1, kind) := List.inj_on_of_nodup_map schema.names_nodup hq hkind rfl
    rw [hsame]
    exact h (q.1, kind)

theorem Schema.get_body (schema : Schema) {value : String × Kind → FieldValue} {p : String × Kind}
    (h : p ∈ schema.fields) : (schema.body value).fields.get p.1 = some (value p) :=
  Record.get_of_mem (schema.body value).names_nodup (List.mem_map.mpr ⟨p, h, rfl⟩)

/-- A number as a value of the field. -/
def Kind.number : Kind → Nat → FieldValue
  | .integer, n => .integer n
  | .text, n => .text n.repr
  | .any, n => .integer n

theorem Kind.admits_number (kind : Kind) (n : Nat) : kind.Admits (kind.number n) := by
  cases kind with
  | integer => exact ⟨n, rfl⟩
  | text => exact ⟨n.repr, rfl⟩
  | any => trivial

theorem Kind.number_inj (kind : Kind) {m n : Nat} (h : kind.number m = kind.number n) : m = n := by
  cases kind with
  | integer => exact Int.ofNat.inj (FieldValue.integer.inj h)
  | text => exact Nat.repr_injective (FieldValue.text.inj h)
  | any => exact Int.ofNat.inj (FieldValue.integer.inj h)

/-- The numbers of a body: one for each of two fields and zero for the others. -/
def twoNumbers (first second : String) (x y : Nat) (name : String) : Nat :=
  if name = first then x else if name = second then y else 0

/-- Numbers are written in digits and texts as they are. -/
structure Plain (render : FieldValue → String) : Prop where
  integer : ∀ n, render (.integer n) = toString n
  text : ∀ s, render (.text s) = s

namespace Plain

variable {render render' : FieldValue → String} (h : Plain render) (h' : Plain render')
include h

theorem number (kind : Kind) (n : Nat) : render (kind.number n) = n.repr := by
  cases kind with
  | integer => exact h.integer n
  | text => exact h.text n.repr
  | any => exact h.integer n

/-- The text of a body of numbers. -/
theorem valuesText_numbers (schema : Schema) (number : String → Nat) :
    valuesText render (schema.body fun p => p.2.number (number p.1)).fields =
      (sorted schema.fields).flatMap fun p => (number p.1).repr.toList := by
  rw [valuesText, Schema.body, sorted_map fun p : String × Kind => p.2.number (number p.1),
    List.flatMap_map]
  apply List.flatMap_congr
  intro p _
  rw [h.number p.2]

include h'

/-- Values of one type that are written alike are the same. -/
theorem inj {kind : Kind} (hkind : kind ≠ .any) {v w : FieldValue} (hv : kind.Admits v)
    (hw : kind.Admits w) (heq : render v = render' w) : v = w := by
  cases kind with
  | integer =>
    obtain ⟨n, rfl⟩ := hv
    obtain ⟨m, rfl⟩ := hw
    rw [h.integer, h'.integer] at heq
    rw [Int.repr_inj.mp heq]
  | text =>
    obtain ⟨s, rfl⟩ := hv
    obtain ⟨t, rfl⟩ := hw
    rw [h.text, h'.text] at heq
    rw [heq]
  | any => exact absurd rfl hkind

end Plain

/-- The only value of a body of a schema with one field. -/
theorem Body.Fits.singleton {body : Body} {schema : Schema} (h : body.Fits schema) {name : String}
    {kind : Kind} (hone : schema.fields = [(name, kind)]) :
    ∃ v, body.fields = [(name, v)] ∧ kind.Admits v := by
  have hnames := h.names
  rw [hone, List.map_singleton, List.perm_singleton] at hnames
  obtain ⟨p, hp, hpname⟩ := List.map_eq_singleton_iff.mp hnames
  subst hpname
  exact ⟨p.2, hp, h.admits p.1 p.2 kind (hp ▸ List.mem_singleton.mpr rfl)
    (hone ▸ List.mem_singleton.mpr rfl)⟩

theorem Body.Fits.nil {body : Body} {schema : Schema} (h : body.Fits schema)
    (hnil : schema.fields = []) : body.fields = [] := by
  have hnames := h.names
  rw [hnil, List.map_nil, List.perm_nil, List.map_eq_nil_iff] at hnames
  exact hnames

/-- The digits of the two numbers come first where the names of their fields do. -/
theorem Schema.twoNumbers_digits (schema : Schema) {first second : String × Kind}
    {rest : Record Kind} (hsorted : sorted schema.fields = first :: second :: rest) (x y : Nat) :
    ((sorted schema.fields).flatMap fun p =>
        (twoNumbers first.1 second.1 x y p.1).repr.toList) =
      x.repr.toList ++ (y.repr.toList ++ rest.flatMap fun _ => (0 : Nat).repr.toList) := by
  have hperm : (sorted schema.fields).Perm schema.fields := List.mergeSort_perm _ _
  have hnodup : ((sorted schema.fields).map Prod.fst).Nodup :=
    (hperm.map Prod.fst).nodup_iff.mpr schema.names_nodup
  rw [hsorted, List.map_cons, List.map_cons, List.nodup_cons, List.nodup_cons, List.mem_cons,
    not_or] at hnodup
  obtain ⟨⟨hne, hfirst⟩, hsecond, -⟩ := hnodup
  have hrest : (rest.flatMap fun p => (twoNumbers first.1 second.1 x y p.1).repr.toList) =
      rest.flatMap fun _ => (0 : Nat).repr.toList := by
    apply List.flatMap_congr
    intro p hp
    have hname : p.1 ∈ rest.map Prod.fst := List.mem_map_of_mem hp
    have hp1 : p.1 ≠ first.1 := fun heq => hfirst (heq ▸ hname)
    have hp2 : p.1 ≠ second.1 := fun heq => hsecond (heq ▸ hname)
    simp only [twoNumbers, if_neg hp1, if_neg hp2]
  rw [hsorted, List.flatMap_cons, List.flatMap_cons, hrest]
  simp only [twoNumbers, if_true, if_neg (Ne.symm hne)]

section Binding

variable {pass : Body → Body → Prop} {render render' : FieldValue → String}
  (h : Plain render) (h' : Plain render')
  (hpass : ∀ a b : Body, a.unixTime = b.unixTime →
    (pass a b ↔ valuesText render a.fields = valuesText render' b.fields))
include h h' hpass

omit h h' in
theorem pass_body_iff {schema : Schema} (value value' : String × Kind → FieldValue) :
    pass (schema.body value) (schema.body value') ↔
      valuesText render (schema.body value).fields =
        valuesText render' (schema.body value').fields :=
  hpass _ _ rfl

theorem binds_of_single {schema : Schema} (hsingle : schema.Single) : Binds pass schema := by
  intro a b ha hb htime hab name
  rw [hpass a b htime] at hab
  rcases hsingle with hnil | ⟨field, kind, hone, hkind⟩
  · rw [ha.nil hnil, hb.nil hnil]
  · obtain ⟨v, hv, hadmits⟩ := ha.singleton hone
    obtain ⟨w, hw, hadmits'⟩ := hb.singleton hone
    simp only [valuesText, sorted, hv, hw, List.mergeSort_singleton, List.flatMap_singleton,
      String.toList_inj] at hab
    rw [hv, hw, h.inj h' hkind hadmits hadmits' hab]

/-- The digits of the first two fields can be split in two ways. -/
theorem not_binds_of_two {schema : Schema} {first second : String × Kind} {rest : Record Kind}
    (hsorted : sorted schema.fields = first :: second :: rest) : ¬ Binds pass schema := by
  intro hbinds
  have hfits : ∀ x y,
      (schema.body fun p => p.2.number (twoNumbers first.1 second.1 x y p.1)).Fits schema :=
    fun x y => schema.body_fits fun p => p.2.admits_number _
  have hsame : pass (schema.body fun p => p.2.number (twoNumbers first.1 second.1 1 12 p.1))
      (schema.body fun p => p.2.number (twoNumbers first.1 second.1 11 2 p.1)) := by
    rw [pass_body_iff hpass, h.valuesText_numbers schema (twoNumbers first.1 second.1 1 12),
      h'.valuesText_numbers schema (twoNumbers first.1 second.1 11 2),
      schema.twoNumbers_digits hsorted, schema.twoNumbers_digits hsorted, ← List.append_assoc,
      ← List.append_assoc]
    rfl
  have hmem : first ∈ schema.fields := by
    rw [← mem_sorted, hsorted]
    exact List.mem_cons_self
  have hget := hbinds _ _ (hfits 1 12) (hfits 11 2) rfl hsame first.1
  rw [schema.get_body hmem, schema.get_body hmem, Option.some.injEq] at hget
  have hnumber := first.2.number_inj hget
  simp only [twoNumbers, if_true] at hnumber
  omega

/-- A number is signed as its digits are. -/
theorem not_binds_of_any {schema : Schema} {name : String} (hany : schema.fields = [(name, .any)]) :
    ¬ Binds pass schema := by
  intro hbinds
  have hfits : ∀ v, (schema.body fun _ => v).Fits schema := by
    intro v
    have hnames : ((schema.body fun _ => v).fields.map Prod.fst).Perm
        (schema.fields.map Prod.fst) := by
      rw [Schema.body, List.map_map]
      exact List.Perm.refl _
    refine ⟨hnames, ?_⟩
    intro field w kind _ hkind
    rw [hany, List.mem_singleton] at hkind
    rw [(Prod.mk.inj hkind).2]
    trivial
  have hsame : pass (schema.body fun _ => .integer 1) (schema.body fun _ => .text "1") := by
    rw [pass_body_iff hpass]
    simp only [valuesText, sorted, Schema.body, hany, List.map_cons, List.map_nil,
      List.mergeSort_singleton, List.flatMap_singleton, h.integer, h'.text]
    rfl
  have hmem : (name, Kind.any) ∈ schema.fields := hany ▸ List.mem_singleton.mpr rfl
  have hget := hbinds _ _ (hfits (.integer 1)) (hfits (.text "1")) rfl hsame name
  rw [schema.get_body hmem, schema.get_body hmem, Option.some.injEq] at hget
  cases hget

theorem binds_iff_single (schema : Schema) : Binds pass schema ↔ schema.Single := by
  constructor
  · intro hbinds
    have hperm : (sorted schema.fields).Perm schema.fields := List.mergeSort_perm _ _
    match hsorted : sorted schema.fields with
    | [] =>
      rw [hsorted, List.nil_perm] at hperm
      exact .inl hperm
    | [(name, kind)] =>
      rw [hsorted, List.singleton_perm] at hperm
      refine .inr ⟨name, kind, hperm.symm, ?_⟩
      rintro rfl
      exact not_binds_of_any h h' hpass hperm.symm hbinds
    | first :: second :: rest =>
      exact absurd hbinds (not_binds_of_two h h' hpass hsorted)
  · exact binds_of_single h h' hpass

end Binding

theorem plain_str : Plain Connector.str := ⟨fun _ => rfl, fun _ => rfl⟩

theorem plain_elementText : Plain FieldValue.elementText := ⟨fun _ => rfl, fun _ => rfl⟩

theorem plain_dictionaryText : Plain fun v => v.dictionaryText.getD "1" :=
  ⟨fun _ => rfl, fun _ => rfl⟩

theorem combineString_eq_iff (a b : Body) (htime : a.unixTime = b.unixTime) :
    Connector.combineString privateKey (toString a.unixTime) a.fields =
        Connector.combineString privateKey (toString b.unixTime) b.fields ↔
      valuesText Connector.str a.fields = valuesText Connector.str b.fields := by
  rw [← String.toList_inj, toList_combineString privateKey _ a.names_nodup,
    toList_combineString privateKey _ b.names_nodup, htime, List.append_right_inj]

theorem stringBuilder_eq_iff (a b : Body) (htime : a.unixTime = b.unixTime) :
    Helper.stringBuilder compare privateKey a.unixTime
        (a.fields.map fun p => (p.1, p.2.dictionaryText)) =
        Helper.stringBuilder compare privateKey b.unixTime
          (b.fields.map fun p => (p.1, p.2.dictionaryText)) ↔
      valuesText (fun v => v.dictionaryText.getD "1") a.fields =
        valuesText (fun v => v.dictionaryText.getD "1") b.fields := by
  rw [← String.toList_inj, toList_stringBuilder compare privateKey _ _ a.names_known,
    toList_stringBuilder compare privateKey _ _ b.names_known, htime, List.append_right_inj]

/-- What a caller signs for the start of a challenge. -/
def startFields (challengeId teamId userId : Int) : Record FieldValue :=
  [("challengeId", .integer challengeId), ("teamId", .integer teamId), ("userId", .integer userId)]

theorem sorted_startFields (challengeId teamId userId : Int) :
    sorted (startFields challengeId teamId userId) = startFields challengeId teamId userId := by
  apply sorted_eq_of_perm (List.Perm.refl _)
  simp only [startFields, List.map_cons, List.map_nil]
  decide

/-- A caller's key is accepted with its body if and only if no field is without a value, and the
keys of the bodies with the same fields tell their values apart if and only if there is no more
than one field, of one type. -/
theorem signatures_iff :
    (∀ (now : Int) (body : Body),
      (Accepts md5 compare privateKey now (body.connectorKey md5 privateKey) body ↔
        body.Complete) ∧
      (Accepts md5 compare privateKey now (body.helperKey md5 compare privateKey) body ↔
        body.Complete)) ∧
    (∀ (now : Int) (unixTime : Fin (2 ^ 63)) (challengeId teamId userId : Int32),
      let start := challengeStart md5 compare privateKey unixTime challengeId teamId userId
      let stop := forceStopChallenge md5 compare privateKey unixTime challengeId teamId
      onResourceExecution md5 compare privateKey now (some start.2) (.json start.1.fields) =
        .next ∧
      onResourceExecution md5 compare privateKey now (some stop.2) (.json stop.1.fields) =
        .next) ∧
    ∀ schema : Schema,
      (Binds (fun a b => Connector.combineString privateKey (toString a.unixTime) a.fields =
        Connector.combineString privateKey (toString b.unixTime) b.fields) schema ↔
          schema.Single) ∧
      (Binds (fun a b => Helper.stringBuilder compare privateKey a.unixTime
          (a.fields.map fun p => (p.1, p.2.dictionaryText)) =
        Helper.stringBuilder compare privateKey b.unixTime
          (b.fields.map fun p => (p.1, p.2.dictionaryText))) schema ↔ schema.Single) ∧
      ∀ now : Int,
        (Binds (fun a b => Accepts md5 compare privateKey now (a.connectorKey md5 privateKey) b)
          schema ↔ schema.Single) ∧
        (Binds (fun a b => Accepts md5 compare privateKey now
          (a.helperKey md5 compare privateKey) b) schema ↔ schema.Single) := by
  refine ⟨?_, ?_, ?_⟩
  · intro now body
    exact ⟨connector_accepted md5 compare privateKey now body,
      helper_accepted md5 compare privateKey now body⟩
  · intro now unixTime challengeId teamId userId
    exact ⟨challengeStart_accepted md5 compare privateKey now unixTime.isLt challengeId teamId
        userId,
      forceStopChallenge_accepted md5 compare privateKey now unixTime.isLt challengeId teamId⟩
  · intro schema
    refine ⟨?_, ?_, ?_⟩
    · exact binds_iff_single plain_str plain_str (combineString_eq_iff privateKey) schema
    · exact binds_iff_single plain_dictionaryText plain_dictionaryText
        (stringBuilder_eq_iff compare privateKey) schema
    · intro now
      exact ⟨binds_iff_single plain_str plain_elementText
          (connectorKey_passes md5 compare privateKey now) schema,
        binds_iff_single plain_dictionaryText plain_elementText
          (helperKey_passes md5 compare privateKey now) schema⟩

/-- The body of a start. -/
def startBody (challengeId teamId userId : Int) : Body where
  unixTime := 1700000000
  fields := startFields challengeId teamId userId
  unixTime_lt := by decide
  names_nodup := by
    simp only [startFields, List.map_cons, List.map_nil]
    decide
  names_known := by simp [startFields, fieldNames]

def startSchema : Schema where
  fields := [("challengeId", .integer), ("teamId", .integer), ("userId", .integer)]
  names_nodup := by decide
  names_known := by decide

/-- MD5 on the text of the start of challenge 1 for team 12. -/
def startMd5 : Md5 :=
  .knowing "1700000000secret1123" "fc7854b43d2aed1fb5cfcf1b07c24354"
    (by
      intro text heq
      have hhead := congrArg (fun s => s.toList.head?) heq
      simp [String.toList_append] at hhead)
    (by decide)

theorem signatures_of_start :
    (startBody 1 12 3).connectorKey startMd5 "secret" = "fc7854b43d2aed1fb5cfcf1b07c24354" ∧
    Accepts startMd5 .ordinal "secret" 0 ((startBody 1 12 3).connectorKey startMd5 "secret")
      (startBody 1 12 3) ∧
    ¬ Binds (fun a b => Accepts startMd5 .ordinal "secret" 0 (a.connectorKey startMd5 "secret") b)
      startSchema := by
  obtain ⟨haccepted, -, hbinds⟩ := signatures_iff startMd5 .ordinal "secret"
  have hcomplete : (startBody 1 12 3).Complete := by
    show ∀ p ∈ startFields 1 12 3, p.2 ≠ .null
    simp [startFields]
  have htext : Connector.combineString "secret" (toString (startBody 1 12 3).unixTime)
      (startBody 1 12 3).fields = "1700000000secret1123" := by
    rw [← String.toList_inj, toList_combineString _ _ (startBody 1 12 3).names_nodup, valuesText]
    show _ ++ (sorted (startFields 1 12 3)).flatMap _ = _
    rw [sorted_startFields]
    rfl
  have hmany : ¬ startSchema.Single := by
    rintro (hnil | ⟨name, kind, hone, -⟩)
    · cases hnil
    · cases hone
  refine ⟨?_, ?_, ?_⟩
  · rw [Body.connectorKey, Connector.createSecretKey, htext]
    rfl
  · exact (haccepted 0 (startBody 1 12 3)).1.mpr hcomplete
  · rw [((hbinds startSchema).2.2 0).1]
    exact hmany

/-- The key of team 12 for challenge 1 is that of team 2 for challenge 11. -/
theorem start_of_other_team :
    startFields 1 12 3 ≠ startFields 11 2 3 ∧
      ∀ privateKey unixTime : String,
        Connector.combineString privateKey unixTime (startFields 1 12 3) =
          Connector.combineString privateKey unixTime (startFields 11 2 3) := by
  refine ⟨by decide, ?_⟩
  intro privateKey unixTime
  rw [← String.toList_inj, toList_combineString privateKey unixTime (by decide),
    toList_combineString privateKey unixTime (by decide), valuesText, valuesText,
    sorted_startFields, sorted_startFields]
  rfl

end Fctf.SecretKey
