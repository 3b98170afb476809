import Fctf.JsonText
import Fctf.Lib.Run
import Fctf.Lib.Table
import Fctf.Scoring.Flags
import Mathlib.Data.List.Pairwise

/-!
The creation of awards by admins. Any number of requests run at once; each sees the table as it was
when its transaction began, and adds its award to the table as it is.
-/

namespace Fctf.Awards

open Flags.Platform (isSpace strip)

/-! ### Rows -/

/-- A value of a JSON column. -/
structure JsonValue where
  tree : Json.Tree
  hasNumbers : tree.hasNumbers = true

structure Award where
  id : Nat
  user_id : Option Int
  team_id : Option Int
  name : String
  description : Option String
  date : Int
  value : Option Int
  category : Option String
  icon : Option String
  requirements : Option JsonValue
  request_key : Option String
  request_hash : Option String

/-- The table `awards`, with the constraint `uq_awards_request_key`. -/
structure AwardTable where
  table : Table Award.id := {}
  unique : (table.rows.filterMap Award.request_key).Nodup := by simp

namespace AwardTable

def rows (t : AwardTable) : List Award := t.table.rows

/-- `Awards.query.filter_by(request_key=request_key).first()`. -/
def findKey (t : AwardTable) (request_key : String) : Option Award :=
  t.rows.find? fun a => a.request_key = some request_key

theorem findKey_eq_none {t : AwardTable} {request_key : String} :
    t.findKey request_key = none ↔ ∀ a ∈ t.rows, a.request_key ≠ some request_key := by
  simp [findKey]

theorem mem_of_findKey {t : AwardTable} {request_key : String} {a : Award}
    (h : t.findKey request_key = some a) : a ∈ t.rows ∧ a.request_key = some request_key :=
  ⟨List.mem_of_find?_eq_some h, by simpa using List.find?_some h⟩

theorem eq_of_key (t : AwardTable) {a b : Award} {request_key : String} (ha : a ∈ t.rows)
    (hb : b ∈ t.rows) (hka : a.request_key = some request_key)
    (hkb : b.request_key = some request_key) : a = b := by
  by_contra hne
  have hpair : t.rows.Pairwise fun x y =>
      ∀ k ∈ x.request_key, ∀ l ∈ y.request_key, k ≠ l :=
    List.pairwise_filterMap.mp t.unique
  have : Std.Symm fun x y : Award => ∀ k ∈ x.request_key, ∀ l ∈ y.request_key, k ≠ l :=
    ⟨fun x y h k hk l hl => (h l hl k hk).symm⟩
  exact hpair.forall ha hb hne request_key hka request_key hkb rfl

/-- Adds a row with a request key that no row has. -/
def add (t : AwardTable) (request_key : String) (row : Nat → Award) (hid : ∀ n, (row n).id = n)
    (hkey : ∀ n, (row n).request_key = some request_key)
    (hnew : t.findKey request_key = none) : AwardTable where
  table := t.table.add row hid
  unique := by
    change ((t.table.rows ++ [row t.table.nextKey]).filterMap Award.request_key).Nodup
    rw [List.filterMap_append, List.filterMap_cons_some (hkey _), List.filterMap_nil]
    refine List.nodup_append'.mpr ⟨t.unique, List.nodup_singleton _, ?_⟩
    intro k hk hkn
    obtain rfl := List.mem_singleton.mp hkn
    obtain ⟨a, ha, hka⟩ := List.mem_filterMap.mp hk
    exact findKey_eq_none.mp hnew a ha hka

end AwardTable

/-! ### Requests -/

structure User where
  id : Nat
  team_id : Option Nat

/-- What a request sees of the accounts. -/
structure Accounts where
  teamsMode : Bool := false
  users : List User := []
  teams : List Nat := []

structure Request where
  /-- `get_current_user().id`. -/
  admin : Nat
  /-- The body, if it is JSON. -/
  body : Option Json.Tree
  idempotencyKey : Option String := none
  accounts : Accounts

abbrev Members := List (List Char × Json.Tree)

abbrev Errors := List (String × List String)

inductive Reply
  | ok (award : Award)
  | error (status : Nat) (errors : Errors)
  | aborted (status : Nat)
  | raised

/-- An instance that `AwardSchema` has loaded. The relationships are `none` where the request does
not set them. -/
structure Loaded where
  user_id : Option Int
  team_id : Option Int
  name : String
  description : Option String
  value : Option Int
  category : Option String
  icon : Option String
  requirements : Option JsonValue
  user : Option (Option Nat) := none
  team : Option (Option Nat) := none

/-- What the endpoint uses of its libraries and of the database. -/
structure Platform where
  /-- The value of a decimal digit of Unicode. -/
  digit : Char → Option Nat
  /-- The comparison of an id with a value that is no list and no object. -/
  sameId : Json.Tree → Nat → Bool
  /-- The fields of `AwardSchema`, after `validate_name`; `none` when it raises. -/
  load : Accounts → Members → Option (Except Errors Loaded)
  sha256 : String → String

/-- `req.get`. -/
def get (req : Members) (field : String) : Option Json.Tree :=
  (req.reverse.find? fun m => m.1 = field.toList).map Prod.snd

/-- An assignment to a member. -/
def set (req : Members) (field : String) (value : Json.Tree) : Members :=
  (req.filter fun m => m.1 ≠ field.toList) ++ [(field.toList, value)]

def integer (n : Int) : Json.Tree := .number n.repr.toList

def refuse {α : Type} (field message : String) : Except Reply α :=
  .error (.error 400 [(field, [message])])

/-! ### Checks -/

namespace Platform

variable (p : Platform)

def digits (s : List Char) : Option Nat :=
  if s = [] then none else s.foldlM (fun n c => (p.digit c).map fun d => 10 * n + d) 0

/-- The integer of a text that `[+-]?\d+` matches. -/
def signedDigits : List Char → Option Int
  | '+' :: s => (p.digits s).map fun n => (n : Int)
  | '-' :: s => (p.digits s).map fun n => -(n : Int)
  | s => (p.digits s).map fun n => (n : Int)

/-- `score_integer`. Python does not convert more than 4300 digits. -/
def scoreInteger (value : Option Json.Tree) (minimum : Int) : Except Reply Int :=
  let inRange (n : Int) : Except Reply Int :=
    if minimum ≤ n ∧ n ≤ 2147483647 then .ok n
    else refuse "value" ("Must be between " ++ toString minimum ++ " and 2147483647")
  match value with
  | some (.number literal) =>
    match signedDecimal literal with
    | some n => inRange n
    | none => refuse "value" "Must be an integer"
  | some (.string s) =>
    match p.signedDigits (strip s) with
    | some n =>
      if 4300 < (strip s).countP fun c => (p.digit c).isSome then .error .raised else inRange n
    | none => refuse "value" "Must be an integer"
  | _ => refuse "value" "Must be an integer"

/-- `Users.query.filter_by(id=value).first_or_404()`. -/
def firstOr404 (accounts : Accounts) : Option Json.Tree → Except Reply User
  | some (.array _) | some (.object _) => .error .raised
  | none | some .null => .error (.aborted 404)
  | some value =>
    match accounts.users.find? fun u => p.sameId value u.id with
    | some user => .ok user
    | none => .error (.aborted 404)

/-- In teams mode the team of the user is filled in. -/
def fillTeam (accounts : Accounts) (req : Members) : Except Reply Members :=
  match accounts.teamsMode, get req "team_id" with
  | true, none | true, some .null =>
    match p.firstOr404 accounts (get req "user_id") with
    | .error reply => .error reply
    | .ok user =>
      match user.team_id with
      | none => refuse "team_id" "User doesn't have a team to associate award with"
      | some team_id => .ok (set req "team_id" (integer team_id))
  | _, _ => .ok req

/-- `AwardSchema.validate_name`. -/
def validateName (req : Members) : Except Reply Members :=
  match get req "name" with
  | some (.string name) =>
    if strip name = [] ∨ 80 < (strip name).length then
      refuse "name" "Name must contain 1 to 80 characters"
    else .ok (set req "name" (.string (strip name)))
  | _ => refuse "name" "Name must contain 1 to 80 characters"

def loadSchema (accounts : Accounts) (req : Members) : Except Reply Loaded :=
  match p.load accounts req with
  | none => .error .raised
  | some (.error errors) => .error (.error 400 errors)
  | some (.ok award) => .ok award

def checkAccounts (accounts : Accounts) (award : Loaded) : Except Reply Unit :=
  if !award.user_id.any fun id => accounts.users.any fun u => (u.id : Int) = id then
    refuse "user_id" "Valid user required"
  else if !award.team_id.all fun id => accounts.teams.any fun t => (t : Int) = id then
    refuse "team_id" "Team does not exist"
  else .ok ()

/-! ### The key and the content -/

def text (value : Option String) : Json.Tree := value.elim .null fun s => .string s.toList

def number (value : Option Int) : Json.Tree := value.elim .null integer

end Platform

open Platform

/-- What an award says and whom it is for. The requirements are up to the order of keys. -/
structure Content where
  user_id : Option Int
  team_id : Option Int
  name : String
  description : Option String
  value : Option Int
  category : Option String
  icon : Option String
  requirements : Json.Tree

/-- The content of a row. -/
def Award.content (a : Award) : Content where
  user_id := a.user_id
  team_id := a.team_id
  name := a.name
  description := a.description
  value := a.value
  category := a.category
  icon := a.icon
  requirements := sortKeys (a.requirements.elim .null JsonValue.tree)

/-- The user and the team that an award is stored with. A relationship that is set takes the place
of its id. -/
def Loaded.storedUser (award : Loaded) : Option Int :=
  award.user.elim award.user_id (Option.map Int.ofNat)

def Loaded.storedTeam (award : Loaded) : Option Int :=
  award.team.elim award.team_id (Option.map Int.ofNat)

/-- The content of a request apart from its accounts. -/
def Loaded.rest (award : Loaded) : Content where
  user_id := none
  team_id := none
  name := award.name
  description := award.description
  value := award.value
  category := award.category
  icon := award.icon
  requirements := sortKeys (award.requirements.elim .null JsonValue.tree)

/-- The normalised content of a request. -/
def Loaded.content (award : Loaded) : Content :=
  { award.rest with user_id := award.storedUser, team_id := award.storedTeam }

/-- The content that the fingerprint is for. -/
def Loaded.payload (award : Loaded) : Json.Tree :=
  .object [("user_id".toList, number award.user_id), ("team_id".toList, number award.team_id),
    ("name".toList, text (some award.name)), ("description".toList, text award.description),
    ("value".toList, number award.value), ("category".toList, text award.category),
    ("icon".toList, text award.icon),
    ("requirements".toList, award.requirements.elim .null JsonValue.tree)]

namespace Platform

variable (p : Platform)

def fingerprint (award : Loaded) : String := p.sha256 (dumps award.payload)

def requestKey (admin : Nat) (key : String) : String :=
  p.sha256 (admin.repr ++ ":" ++ key)

end Platform

/-- A request up to the search for its key. -/
structure Prepared where
  admin : Nat
  key : String
  award : Loaded

def Platform.prepare (p : Platform) (request : Request) : Except Reply Prepared := do
  let req ← match request.body with
    | none => .error (.aborted 400)
    | some (.object members) => .ok members
    | some _ => refuse "body" "Expected an object"
  let () ← match get req "type" with
    | none => .ok ()
    | some (.string type) =>
      if type = "standard".toList then .ok () else refuse "type" "Unsupported award type"
    | some _ => refuse "type" "Unsupported award type"
  let value ← p.scoreInteger (get req "value") (-2147483648)
  let req ← p.fillTeam request.accounts (set req "value" (integer value))
  let req ← validateName req
  let award ← p.loadSchema request.accounts req
  checkAccounts request.accounts award
  let key := request.idempotencyKey.getD (p.fingerprint award)
  if strip key.toList = [] ∨ 128 < key.length then
    refuse "Idempotency-Key" "Use 1 to 128 characters"
  else .ok ⟨request.admin, key, award⟩

def Platform.row (p : Platform) (r : Prepared) (date : Int) (id : Nat) : Award where
  id := id
  user_id := r.award.storedUser
  team_id := r.award.storedTeam
  name := r.award.name
  description := r.award.description
  date := date
  value := r.award.value
  category := r.award.category
  icon := r.award.icon
  requirements := r.award.requirements
  request_key := some (p.requestKey r.admin r.key)
  request_hash := some (p.fingerprint r.award)

def conflict : Reply := .error 409 [("Idempotency-Key", ["Key already used for another award"])]

/-- The reply to a request whose key an award has. -/
def Platform.replay (p : Platform) (r : Prepared) (existing : Award) : Reply :=
  if existing.request_hash ≠ some (p.fingerprint r.award) then conflict else .ok existing

/-! ### Steps -/

structure Environment where
  platform : Platform
  /-- The requests, by number. -/
  request : Nat → Request

def Environment.prepared (env : Environment) (r : Nat) : Except Reply Prepared :=
  env.platform.prepare (env.request r)

def Environment.requestKey (env : Environment) (p : Prepared) : String :=
  env.platform.requestKey p.admin p.key

inductive Phase
  | start
  /-- The transaction has begun. -/
  | looking (p : Prepared) (seen : AwardTable)
  | adding (p : Prepared)
  /-- After the rollback. -/
  | rereading (p : Prepared)
  /-- The award is stored; the audit log and the standings are next. -/
  | closing (award : Award)
  | done (reply : Reply)

structure State where
  awards : AwardTable := {}
  phase : Nat → Phase := fun _ => .start

inductive Fault
  | integrityError
  /-- The commit is done, but the service is not told. -/
  | lost
  | other
  deriving DecidableEq

structure Event where
  request : Nat
  fault : Option Fault := none
  now : Int := 0

/-- The commit of an award: the row and the table with it, if no row has its key. -/
def commit (env : Environment) (awards : AwardTable) (p : Prepared) (now : Int) :
    Option (Award × AwardTable) :=
  if h : awards.findKey (env.requestKey p) = none then
    some (env.platform.row p now awards.table.nextKey,
      awards.add (env.requestKey p) (env.platform.row p now) (fun _ => rfl) (fun _ => rfl) h)
  else none

def act (env : Environment) (s : State) (e : Event) : Option (Phase × AwardTable) :=
  match s.phase e.request, e.fault with
  | .done _, _ => none
  | .start, none =>
    match env.prepared e.request with
    | .error reply => some (.done reply, s.awards)
    | .ok p => some (.looking p s.awards, s.awards)
  | .looking p seen, none =>
    match seen.findKey (env.requestKey p) with
    | some existing => some (.done (env.platform.replay p existing), s.awards)
    | none => some (.adding p, s.awards)
  | .adding p, none =>
    match commit env s.awards p e.now with
    | some (award, awards) => some (.closing award, awards)
    | none => some (.rereading p, s.awards)
  | .adding p, some .integrityError => some (.rereading p, s.awards)
  | .adding p, some .lost =>
    match commit env s.awards p e.now with
    | some (_, awards) => some (.done .raised, awards)
    | none => some (.done .raised, s.awards)
  | .rereading p, none =>
    match s.awards.findKey (env.requestKey p) with
    | some existing => some (.done (env.platform.replay p existing), s.awards)
    | none => some (.done .raised, s.awards)
  | .closing award, none => some (.done (.ok award), s.awards)
  | _, some _ => some (.done .raised, s.awards)

def step (env : Environment) (s : State) (e : Event) : Option State :=
  (act env s e).map fun (phase, awards) =>
    { awards := awards, phase := Function.update s.phase e.request phase }

/-- Which request has stored an award, by the award's id, and which requests have met a fault. -/
structure History where
  writer : Nat → Option Nat := fun _ => none
  faulted : Nat → Bool := fun _ => false

def observe (h : History) (s : State) (e : Event) (t : State) : History where
  writer :=
    if t.awards.rows.length = s.awards.rows.length then h.writer
    else Function.update h.writer s.awards.table.nextKey (some e.request)
  faulted := if e.fault = none then h.faulted else Function.update h.faulted e.request true

abbrev monitored (env : Environment) := Run.monitored (step env) observe

variable {env : Environment} {start s t : State}

/-! ### What a step does -/

/-- A commit that has stored an award. -/
structure Stored (env : Environment) (awards : AwardTable) (p : Prepared) (now : Int)
    (award : Award) (after : AwardTable) : Prop where
  fresh : awards.findKey (env.requestKey p) = none
  award_eq : award = env.platform.row p now awards.table.nextKey
  rows : after.rows = awards.rows ++ [award]

theorem commit_eq_some {awards after : AwardTable} {p : Prepared} {now : Int} {award : Award}
    (h : commit env awards p now = some (award, after)) :
    Stored env awards p now award after := by
  unfold commit at h
  split_ifs at h with hfresh
  obtain ⟨rfl, rfl⟩ := Prod.mk.inj (Option.some.inj h)
  exact ⟨hfresh, rfl, rfl⟩

theorem commit_eq_none {awards : AwardTable} {p : Prepared} {now : Int}
    (h : commit env awards p now = none) :
    ∃ a ∈ awards.rows, a.request_key = some (env.requestKey p) := by
  unfold commit at h
  split_ifs at h with hfresh
  obtain ⟨a, ha⟩ := Option.ne_none_iff_exists'.mp hfresh
  exact ⟨a, AwardTable.mem_of_findKey ha⟩

/-- The ways a request goes on. -/
inductive Acts (env : Environment) (s : State) (e : Event) : Phase → AwardTable → Prop
  | failed (hold : ∀ reply, s.phase e.request ≠ .done reply) (hfault : e.fault ≠ none) :
    Acts env s e (.done .raised) s.awards
  | refused {reply : Reply} (hold : s.phase e.request = .start)
    (hprepared : env.prepared e.request = .error reply) : Acts env s e (.done reply) s.awards
  | opened {p : Prepared} (hold : s.phase e.request = .start)
    (hprepared : env.prepared e.request = .ok p) : Acts env s e (.looking p s.awards) s.awards
  | missed {p : Prepared} {seen : AwardTable} (hold : s.phase e.request = .looking p seen) :
    Acts env s e (.adding p) s.awards
  | found {p : Prepared} {seen : AwardTable} {existing : Award}
    (hold : s.phase e.request = .looking p seen)
    (hfind : seen.findKey (env.requestKey p) = some existing) :
    Acts env s e (.done (env.platform.replay p existing)) s.awards
  | collided {p : Prepared} (hold : s.phase e.request = .adding p)
    (hwhy : e.fault ≠ none ∨ ∃ a ∈ s.awards.rows, a.request_key = some (env.requestKey p)) :
    Acts env s e (.rereading p) s.awards
  | added {p : Prepared} {award : Award} {awards : AwardTable} {phase : Phase}
    (hold : s.phase e.request = .adding p) (hstored : Stored env s.awards p e.now award awards)
    (hphase : phase = .closing award ∨ e.fault ≠ none ∧ phase = .done .raised) :
    Acts env s e phase awards
  | reread {p : Prepared} {existing : Award} (hold : s.phase e.request = .rereading p)
    (hfind : s.awards.findKey (env.requestKey p) = some existing) :
    Acts env s e (.done (env.platform.replay p existing)) s.awards
  | reraised {p : Prepared} (hold : s.phase e.request = .rereading p)
    (hnone : s.awards.findKey (env.requestKey p) = none) : Acts env s e (.done .raised) s.awards
  | closed {award : Award} (hold : s.phase e.request = .closing award) :
    Acts env s e (.done (.ok award)) s.awards

theorem acts_of_act {e : Event} {phase : Phase} {awards : AwardTable}
    (h : act env s e = some (phase, awards)) : Acts env s e phase awards := by
  unfold act at h
  split at h
  · cases h
  · rename_i hold _
    split at h <;> cases h
    · rename_i hprepared
      exact .refused hold hprepared
    · rename_i hprepared
      exact .opened hold hprepared
  · rename_i p seen hold _
    split at h <;> cases h
    · rename_i hfind
      exact .found hold hfind
    · exact .missed hold
  · rename_i p hold _
    split at h <;> cases h
    · rename_i hcommit
      exact .added hold (commit_eq_some hcommit) (Or.inl rfl)
    · rename_i hcommit
      exact .collided hold (Or.inr (commit_eq_none hcommit))
  · rename_i p hold hfault
    cases h
    exact .collided hold (Or.inl (by rw [hfault]; nofun))
  · rename_i p hold hfault
    have hne : e.fault ≠ none := by
      rw [hfault]
      nofun
    split at h <;> cases h
    · rename_i hcommit
      exact .added hold (commit_eq_some hcommit) (Or.inr ⟨hne, rfl⟩)
    · exact .failed (fun reply hdone => by rw [hold] at hdone; cases hdone) hne
  · rename_i p hold _
    split at h <;> cases h
    · rename_i hfind
      exact .reread hold hfind
    · rename_i hnone
      exact .reraised hold hnone
  · rename_i award hold _
    cases h
    exact .closed hold
  · rename_i hfault hbusy _ _
    cases h
    exact .failed hbusy (by rw [hfault]; nofun)

/-- Only a commit of an award with a new key changes the table. -/
theorem Acts.rows {e : Event} {phase : Phase} {awards : AwardTable}
    (h : Acts env s e phase awards) : awards = s.awards ∨
      ∃ p award, s.phase e.request = .adding p ∧ Stored env s.awards p e.now award awards := by
  cases h with
  | added hold hstored _ => exact Or.inr ⟨_, _, hold, hstored⟩
  | _ => exact Or.inl rfl

theorem Acts.mem {e : Event} {phase : Phase} {awards : AwardTable}
    (h : Acts env s e phase awards) {a : Award} (ha : a ∈ s.awards.rows) : a ∈ awards.rows := by
  rcases h.rows with rfl | ⟨p, award, -, hstored⟩
  · exact ha
  · rw [hstored.rows]
    exact List.mem_append_left _ ha

/-- How many steps a request has before it at most. -/
def Phase.rank : Phase → Nat
  | .start => 4
  | .looking _ _ => 3
  | .adding _ => 2
  | .rereading _ | .closing _ => 1
  | .done _ => 0

theorem Acts.rank_lt {e : Event} {phase : Phase} {awards : AwardTable}
    (h : Acts env s e phase awards) : phase.rank < (s.phase e.request).rank := by
  cases h with
  | failed hold _ =>
    cases hphase : s.phase e.request with
    | done reply => exact absurd hphase (hold reply)
    | _ => exact Nat.zero_lt_succ _
  | added hold _ hphase =>
    rw [hold]
    rcases hphase with rfl | ⟨-, rfl⟩ <;> simp only [Phase.rank, Nat.reduceLT]
  | refused hold _ | opened hold _ | missed hold | found hold _ | collided hold _ | reread hold _
  | reraised hold _ | closed hold =>
    rw [hold]
    simp only [Phase.rank, Nat.reduceLT]

/-- A request goes on until it is done. -/
theorem act_eq_none {e : Event} :
    act env s e = none ↔ ∃ reply, s.phase e.request = .done reply := by
  constructor
  · intro h
    unfold act at h
    split at h
    · exact ⟨_, by assumption⟩
    all_goals first
      | cases h
      | (split at h <;> cases h)
  · rintro ⟨reply, hdone⟩
    simp only [act, hdone]

/-! ### The invariant -/

/-- What a request is answered: it is turned away, or has met a fault, or an award has its key. -/
def Answered (env : Environment) (awards : AwardTable) (faulted : Bool) (r : Nat)
    (reply : Reply) : Prop :=
  env.prepared r = .error reply ∨ (reply = .raised ∧ faulted = true) ∨
    ∃ p, env.prepared r = .ok p ∧ ∃ a ∈ awards.rows, a.request_key = some (env.requestKey p) ∧
      reply = env.platform.replay p a

def PhaseOk (env : Environment) (awards : AwardTable) (faulted : Bool) (r : Nat) : Phase → Prop
  | .start => True
  | .looking p seen => env.prepared r = .ok p ∧ ∀ a ∈ seen.rows, a ∈ awards.rows
  | .adding p => env.prepared r = .ok p
  | .rereading p => env.prepared r = .ok p ∧ (faulted = true ∨
      ∃ a ∈ awards.rows, a.request_key = some (env.requestKey p))
  | .closing award => Answered env awards faulted r (.ok award)
  | .done reply => Answered env awards faulted r reply

structure Inv (env : Environment) (start : State) (t : State × History) : Prop where
  grown : ∃ new, t.1.awards.rows = start.awards.rows ++ new ∧ ∀ a ∈ new, ∃ r p date,
    t.2.writer a.id = some r ∧ env.prepared r = .ok p ∧ a = env.platform.row p date a.id
  written : ∀ id r, t.2.writer id = some r → ∃ p date, env.prepared r = .ok p ∧
    env.platform.row p date id ∈ t.1.awards.rows ∧
      start.awards.findKey (env.requestKey p) = none
  phase : ∀ r, PhaseOk env t.1.awards (t.2.faulted r) r (t.1.phase r)

section Growing

variable {awards after : AwardTable} {faulted later : Bool} {r : Nat}

theorem Answered.mono {reply : Reply} (h : Answered env awards faulted r reply)
    (hrows : ∀ a ∈ awards.rows, a ∈ after.rows) (hfaulted : faulted = true → later = true) :
    Answered env after later r reply := by
  rcases h with herror | ⟨hraised, hfault⟩ | ⟨p, hp, a, ha, hkey, hreply⟩
  · exact Or.inl herror
  · exact Or.inr (Or.inl ⟨hraised, hfaulted hfault⟩)
  · exact Or.inr (Or.inr ⟨p, hp, a, hrows a ha, hkey, hreply⟩)

theorem PhaseOk.mono {phase : Phase} (h : PhaseOk env awards faulted r phase)
    (hrows : ∀ a ∈ awards.rows, a ∈ after.rows) (hfaulted : faulted = true → later = true) :
    PhaseOk env after later r phase := by
  cases phase with
  | start => trivial
  | looking p seen => exact ⟨h.1, fun a ha => hrows a (h.2 a ha)⟩
  | adding p => exact h
  | rereading p =>
    refine ⟨h.1, h.2.imp hfaulted ?_⟩
    rintro ⟨a, ha, hkey⟩
    exact ⟨a, hrows a ha, hkey⟩
  | closing award => exact Answered.mono h hrows hfaulted
  | done reply => exact Answered.mono h hrows hfaulted

end Growing

theorem answered_own {awards : AwardTable} {faulted : Bool} {r : Nat} {p : Prepared} {date : Int}
    {id : Nat} (hprepared : env.prepared r = .ok p)
    (hmem : env.platform.row p date id ∈ awards.rows) :
    Answered env awards faulted r (.ok (env.platform.row p date id)) :=
  Or.inr (Or.inr ⟨p, hprepared, _, hmem, rfl, (if_neg (not_not.mpr rfl)).symm⟩)

/-- What a request comes to is right, for the table and the faults after the step. -/
theorem phaseOk_of_acts {e : Event} {phase : Phase} {awards : AwardTable} {before faulted : Bool}
    (h : Acts env s e phase awards) (hfault : e.fault ≠ none → faulted = true)
    (hmono : before = true → faulted = true)
    (hold : PhaseOk env s.awards before e.request (s.phase e.request)) :
    PhaseOk env awards faulted e.request phase := by
  cases h with
  | failed _ hne => exact Or.inr (Or.inl ⟨rfl, hfault hne⟩)
  | refused _ hprepared => exact Or.inl hprepared
  | opened _ hprepared => exact ⟨hprepared, fun a ha => ha⟩
  | missed hphase =>
    rw [hphase] at hold
    exact hold.1
  | found hphase hfind =>
    rw [hphase] at hold
    obtain ⟨hmem, hkey⟩ := AwardTable.mem_of_findKey hfind
    exact Or.inr (Or.inr ⟨_, hold.1, _, hold.2 _ hmem, hkey, rfl⟩)
  | collided hphase hwhy =>
    rw [hphase] at hold
    exact ⟨hold, hwhy.imp hfault id⟩
  | @added p award awards phase hphase hstored hnext =>
    rw [hphase] at hold
    rcases hnext with rfl | ⟨hne, rfl⟩
    · obtain rfl := hstored.award_eq
      refine answered_own hold ?_
      rw [hstored.rows]
      exact List.mem_append_right _ (List.mem_singleton_self _)
    · exact Or.inr (Or.inl ⟨rfl, hfault hne⟩)
  | reread hphase hfind =>
    rw [hphase] at hold
    obtain ⟨hmem, hkey⟩ := AwardTable.mem_of_findKey hfind
    exact Or.inr (Or.inr ⟨_, hold.1, _, hmem, hkey, rfl⟩)
  | reraised hphase hnone =>
    rw [hphase] at hold
    rcases hold.2 with hfaulted | ⟨a, ha, hkey⟩
    · exact Or.inr (Or.inl ⟨rfl, hmono hfaulted⟩)
    · exact absurd hkey (AwardTable.findKey_eq_none.mp hnone a ha)
  | closed hphase =>
    rw [hphase] at hold
    exact Answered.mono hold (fun a ha => ha) hmono

theorem phaseOk_update {e : Event} {phase : Phase} {awards : AwardTable}
    {before faulted : Nat → Bool} (h : Acts env s e phase awards)
    (hfault : e.fault ≠ none → faulted e.request = true)
    (hmono : ∀ r, before r = true → faulted r = true)
    (hold : ∀ r, PhaseOk env s.awards (before r) r (s.phase r)) :
    ∀ r, PhaseOk env awards (faulted r) r (Function.update s.phase e.request phase r) := by
  refine (Function.forall_update_iff s.phase
    fun r phase => PhaseOk env awards (faulted r) r phase).mpr ⟨?_, fun r _ => ?_⟩
  · exact phaseOk_of_acts h hfault (hmono e.request) (hold e.request)
  · exact (hold r).mono (fun a ha => h.mem ha) (hmono r)

theorem faulted_observe {history : History} {e : Event} :
    (e.fault ≠ none → (observe history s e t).faulted e.request = true) ∧
      ∀ r, history.faulted r = true → (observe history s e t).faulted r = true := by
  constructor
  · intro hne
    simp [observe, hne]
  · intro r hr
    simp only [observe]
    split_ifs
    · exact hr
    · rw [Function.update_apply]
      split_ifs
      · rfl
      · exact hr

/-- A stored award is the one that the history has for its request. -/
theorem grown_stored {rows : List Award} {e : Event} {p : Prepared} {award : Award}
    {awards : AwardTable} {history : History} (hprepared : env.prepared e.request = .ok p)
    (hstored : Stored env s.awards p e.now award awards)
    (h : ∃ new, s.awards.rows = rows ++ new ∧ ∀ a ∈ new, ∃ r p date,
      history.writer a.id = some r ∧ env.prepared r = .ok p ∧ a = env.platform.row p date a.id) :
    ∃ new, awards.rows = rows ++ new ∧ ∀ a ∈ new, ∃ r p date,
      Function.update history.writer s.awards.table.nextKey (some e.request) a.id = some r ∧
        env.prepared r = .ok p ∧ a = env.platform.row p date a.id := by
  obtain ⟨new, hrows, hnew⟩ := h
  have hid : award.id = s.awards.table.nextKey := by
    rw [hstored.award_eq]
    rfl
  refine ⟨new ++ [award], ?_, fun a ha => ?_⟩
  · rw [hstored.rows, hrows, List.append_assoc]
  · rcases List.mem_append.mp ha with hmem | hmem
    · have hold : a ∈ s.awards.rows := by
        rw [hrows]
        exact List.mem_append_right _ hmem
      have hlt : a.id < s.awards.table.nextKey := Table.lt_nextKey hold
      rw [Function.update_of_ne (by omega)]
      exact hnew a hmem
    · obtain rfl := List.mem_singleton.mp hmem
      refine ⟨e.request, p, e.now, ?_, hprepared, ?_⟩
      · rw [hid, Function.update_self]
      · rw [hid]
        exact hstored.award_eq

theorem written_stored {e : Event} {p : Prepared} {award : Award} {awards : AwardTable}
    {history : History} (hprepared : env.prepared e.request = .ok p)
    (hstored : Stored env s.awards p e.now award awards)
    (hfresh : start.awards.findKey (env.requestKey p) = none)
    (h : ∀ id r, history.writer id = some r → ∃ p date, env.prepared r = .ok p ∧
      env.platform.row p date id ∈ s.awards.rows ∧
        start.awards.findKey (env.requestKey p) = none) (id r : Nat)
    (hr : Function.update history.writer s.awards.table.nextKey (some e.request) id = some r) :
    ∃ p date, env.prepared r = .ok p ∧ env.platform.row p date id ∈ awards.rows ∧
      start.awards.findKey (env.requestKey p) = none := by
  rw [hstored.rows, hstored.award_eq]
  by_cases hnew : id = s.awards.table.nextKey
  · subst hnew
    rw [Function.update_self] at hr
    obtain rfl := Option.some.inj hr
    exact ⟨p, e.now, hprepared, List.mem_append_right _ (List.mem_singleton_self _), hfresh⟩
  · rw [Function.update_of_ne hnew] at hr
    obtain ⟨p', date, hp', hmem, hfresh'⟩ := h id r hr
    exact ⟨p', date, hp', List.mem_append_left _ hmem, hfresh'⟩

theorem inv_step (p : State × History) (e : Event) (q : State × History)
    (h : Inv env start p) (hstep : monitored env p e = some q) : Inv env start q := by
  obtain ⟨hnext, hobserve⟩ := Run.monitored_eq_some.mp hstep
  obtain ⟨s, history⟩ := p
  obtain ⟨t, later⟩ := q
  obtain ⟨⟨phase, awards⟩, hact, rfl⟩ := Option.map_eq_some_iff.mp hnext
  have hacts := acts_of_act hact
  dsimp only at hobserve
  have hfaulted : (e.fault ≠ none → later.faulted e.request = true) ∧
      ∀ r, history.faulted r = true → later.faulted r = true := by
    rw [hobserve]
    exact faulted_observe
  have hphase : ∀ r, PhaseOk env awards (later.faulted r) r
      (Function.update s.phase e.request phase r) :=
    phaseOk_update hacts hfaulted.1 hfaulted.2 h.phase
  rcases hacts.rows with rfl | ⟨p, award, hold, hstored⟩
  · have hwriter : later.writer = history.writer := by
      rw [hobserve]
      exact if_pos rfl
    refine ⟨?_, ?_, hphase⟩ <;> simp only [hwriter]
    · exact h.grown
    · exact h.written
  · have hwriter : later.writer =
        Function.update history.writer s.awards.table.nextKey (some e.request) := by
      rw [hobserve]
      refine if_neg ?_
      dsimp only
      rw [hstored.rows]
      simp
    have hprepared : env.prepared e.request = .ok p := by
      have hok := h.phase e.request
      dsimp only at hok
      rw [hold] at hok
      exact hok
    have hfresh : start.awards.findKey (env.requestKey p) = none := by
      obtain ⟨new, hrows, -⟩ := h.grown
      rw [AwardTable.findKey_eq_none]
      intro a ha
      apply AwardTable.findKey_eq_none.mp hstored.fresh
      exact hrows ▸ List.mem_append_left _ ha
    refine ⟨?_, ?_, hphase⟩ <;> simp only [hwriter]
    · exact grown_stored hprepared hstored h.grown
    · exact written_stored hprepared hstored hfresh h.written

/-! ### Keys and contents -/

theorem hasNumbers_number (value : Option Int) : (number value).hasNumbers = true := by
  cases value with
  | none => rfl
  | some n =>
    have hchars : n.repr.toList.all Json.isNumberChar = true :=
      List.all_eq_true.mpr fun c hc => (isNumberChar_of_mem_repr hc).1
    simp [number, integer, Json.Tree.hasNumbers, isNumber_repr, hchars]

theorem hasNumbers_text (value : Option String) : (text value).hasNumbers = true := by
  cases value <;> simp [text, Json.Tree.hasNumbers]

theorem Loaded.payload_hasNumbers (award : Loaded) : award.payload.hasNumbers = true := by
  have hrequirements :
      (award.requirements.elim .null JsonValue.tree : Json.Tree).hasNumbers = true := by
    cases award.requirements with
    | none => simp [Json.Tree.hasNumbers]
    | some value => exact value.hasNumbers
  simp [payload, Json.Tree.hasNumbers, Json.Tree.membersHaveNumbers, hasNumbers_number,
    hasNumbers_text, hrequirements]

/-- Members with the same keys, each once, are in the same order. -/
theorem eq_of_perm_of_keys {α β : Type} {l l' : List (α × β)} (h : l.Perm l')
    (hkeys : l.map Prod.fst = l'.map Prod.fst) (hnodup : (l.map Prod.fst).Nodup) : l = l' := by
  induction l generalizing l' with
  | nil => exact h.nil_eq
  | cons x l ih =>
    cases l' with
    | nil => cases hkeys
    | cons x' l' =>
      obtain ⟨hkey, hrest⟩ := List.cons.inj hkeys
      obtain ⟨hx, hnodup⟩ := List.nodup_cons.mp hnodup
      have hsame : x = x' := by
        rcases List.mem_cons.mp (h.mem_iff.mp List.mem_cons_self) with hsame | hmem
        · exact hsame
        · exact absurd (hrest ▸ List.mem_map_of_mem hmem) hx
      subst hsame
      rw [ih h.cons_inv hrest hnodup]

theorem number_inj {m n : Option Int} (h : number m = number n) : m = n := by
  cases m with
  | none =>
    cases n with
    | none => rfl
    | some n => cases h
  | some m =>
    cases n with
    | none => cases h
    | some n =>
      rw [Int.repr_inj.mp (String.toList_inj.mp (Json.Tree.number.inj h))]

theorem text_inj {s t : Option String} (h : text s = text t) : s = t := by
  cases s with
  | none =>
    cases t with
    | none => rfl
    | some t => cases h
  | some s =>
    cases t with
    | none => cases h
    | some t => rw [String.toList_inj.mp (Json.Tree.string.inj h)]

theorem sortKeys_number (value : Option Int) : sortKeys (number value) = number value := by
  cases value <;> simp [number, integer, sortKeys]

theorem sortKeys_text (value : Option String) : sortKeys (text value) = text value := by
  cases value <;> simp [text, sortKeys]

/-- The payloads of two requests are alike if the requests are, in the ids that they give. -/
theorem sortKeys_payload_iff {award award' : Loaded} :
    sortKeys award.payload = sortKeys award'.payload ↔
      award.rest = award'.rest ∧ award.user_id = award'.user_id ∧
        award.team_id = award'.team_id := by
  simp only [Loaded.payload, sortKeys, sortMembers, sortKeys_number, sortKeys_text]
  constructor
  · intro h
    have hsorted := Json.Tree.object.inj h
    have hperm := (List.perm_insertionSort _ _).symm.trans
      (hsorted.symm ▸ List.perm_insertionSort _ _)
    have hsame := eq_of_perm_of_keys hperm rfl (by simp only [List.map_cons, List.map_nil]; decide)
    simp only [List.cons.injEq, Prod.mk.injEq, true_and, and_true] at hsame
    obtain ⟨huser, hteam, hname, hdescription, hvalue, hcategory, hicon, hrequirements⟩ := hsame
    refine ⟨?_, number_inj huser, number_inj hteam⟩
    simp only [Loaded.rest, Content.mk.injEq, true_and]
    exact ⟨Option.some.inj (text_inj hname), text_inj hdescription, number_inj hvalue,
      text_inj hcategory, text_inj hicon, hrequirements⟩
  · rintro ⟨hrest, huser, hteam⟩
    simp only [Loaded.rest, Content.mk.injEq] at hrest
    obtain ⟨-, -, hname, hdescription, hvalue, hcategory, hicon, hrequirements⟩ := hrest
    rw [huser, hteam, hname, hdescription, hvalue, hcategory, hicon, hrequirements]

theorem fingerprint_eq_iff (hsha : Function.Injective env.platform.sha256)
    {award award' : Loaded} :
    env.platform.fingerprint award = env.platform.fingerprint award' ↔
      award.rest = award'.rest ∧ award.user_id = award'.user_id ∧
        award.team_id = award'.team_id := by
  rw [← sortKeys_payload_iff]
  constructor
  · intro h
    exact dumps_inj award.payload_hasNumbers award'.payload_hasNumbers (hsha h)
  · intro h
    rw [fingerprint, fingerprint, dumps, dumps, h]

theorem content_eq_iff {award award' : Loaded} :
    award.content = award'.content ↔
      award.rest = award'.rest ∧ award.storedUser = award'.storedUser ∧
        award.storedTeam = award'.storedTeam := by
  simp only [Loaded.content, Loaded.rest, Content.mk.injEq]
  constructor
  · rintro ⟨huser, hteam, hrest⟩
    exact ⟨⟨trivial, trivial, hrest⟩, huser, hteam⟩
  · rintro ⟨⟨-, -, hrest⟩, huser, hteam⟩
    exact ⟨huser, hteam, hrest⟩

theorem requestKey_inj (hsha : Function.Injective env.platform.sha256) {admin admin' : Nat}
    {key key' : String}
    (h : env.platform.requestKey admin key = env.platform.requestKey admin' key') :
    admin = admin' ∧ key = key' := by
  have htext := congrArg String.toList (hsha h)
  have hcolon : ":".toList = [':'] := by simp
  rw [String.toList_append, String.toList_append, String.toList_append, String.toList_append,
    hcolon, List.append_assoc, List.append_assoc, List.singleton_append,
    List.singleton_append] at htext
  have hdigits : ∀ n : Nat, ∀ c ∈ n.repr.toList, (c ≠ ':') := by
    rintro n c hc rfl
    cases isDigit_of_mem_repr hc
  have htake : ∀ (n : Nat) (rest : List Char),
      (n.repr.toList ++ ':' :: rest).takeWhile (· ≠ ':') = n.repr.toList := by
    intro n rest
    rw [List.takeWhile_append_of_pos fun c hc => decide_eq_true (hdigits n c hc),
      List.takeWhile_cons_of_neg (by simp), List.append_nil]
  have hadmin := congrArg (List.takeWhile (· ≠ ':')) htext
  rw [htake, htake] at hadmin
  rw [hadmin, List.append_cancel_left_eq, List.cons_inj_right] at htext
  exact ⟨Nat.repr_inj.mp (String.toList_inj.mp hadmin), String.toList_inj.mp htext⟩

/-! ### Creation is idempotent -/

/-- What holds of the table and of the replies, at every time. -/
structure Idempotent (env : Environment) (start : State) (t : State × History) : Prop where
  onePerKey : ∀ a ∈ t.1.awards.rows, ∀ b ∈ t.1.awards.rows, ∀ admin key,
    a.request_key = some (env.platform.requestKey admin key) →
      b.request_key = some (env.platform.requestKey admin key) → a = b
  grown : ∃ new, t.1.awards.rows = start.awards.rows ++ new ∧ ∀ a ∈ new, ∃ r p date,
    t.2.writer a.id = some r ∧ env.prepared r = .ok p ∧ a = env.platform.row p date a.id
  /-- Of the requests with one key no two have stored an award, and none has stored two. -/
  once : ∀ r r' p p' id id', t.2.writer id = some r → t.2.writer id' = some r' →
    env.prepared r = .ok p → env.prepared r' = .ok p' → p.admin = p'.admin → p.key = p'.key →
      r = r' ∧ id = id'
  repeats : ∀ r r' id id', env.request r = env.request r' → t.2.writer id = some r →
    t.2.writer id' = some r' → r = r' ∧ id = id'
  answered : ∀ r reply, t.1.phase r = .done reply →
    Answered env t.1.awards (t.2.faulted r) r reply
  /-- An award is the reply only to requests with its key and its content. -/
  agree : ∀ r r' p p' a, t.1.phase r = .done (.ok a) → t.2.writer a.id = some r' →
    env.prepared r = .ok p → env.prepared r' = .ok p' →
      p.admin = p'.admin ∧ p.key = p'.key ∧ p.award.content = p'.award.content

/-- The key of a request is the one of an award. -/
def Uses (env : Environment) (awards : AwardTable) (r : Nat) (p : Prepared) (a : Award) : Prop :=
  env.prepared r = .ok p ∧ a ∈ awards.rows ∧ a.request_key = some (env.requestKey p)

/-- What a request comes to whose key an award has. -/
structure Repeated (env : Environment) (r : Nat) (p : Prepared) (a : Award)
    (u : State × History) : Prop where
  unchanged : ∀ e v, e.request = r → step env u.1 e = some v → v.awards = u.1.awards
  same : p.award.content = a.content → ∀ reply, u.1.phase r = .done reply →
    reply = .ok a ∨ (reply = .raised ∧ u.2.faulted r = true)
  different : p.award.content ≠ a.content → ∀ reply, u.1.phase r = .done reply →
    reply = conflict ∨ (reply = .raised ∧ u.2.faulted r = true)

/-- The fingerprint tells the contents apart that come under one key: those of two requests that
agree in the rest have the same ids if and only if they have the same accounts, and it is the one
of an award that is there already if and only if the content is. -/
structure Honest (env : Environment) (awards : AwardTable) : Prop where
  requests : ∀ r r' p p', env.prepared r = .ok p → env.prepared r' = .ok p' →
    p.admin = p'.admin → p.key = p'.key → awards.findKey (env.requestKey p) = none →
      p.award.rest = p'.award.rest →
        ((p.award.user_id = p'.award.user_id ∧ p.award.team_id = p'.award.team_id) ↔
          (p.award.storedUser = p'.award.storedUser ∧ p.award.storedTeam = p'.award.storedTeam))
  stored : ∀ r p a, Uses env awards r p a →
    (a.request_hash = some (env.platform.fingerprint p.award) ↔ p.award.content = a.content)

theorem Inv.row_eq {t : State × History} (h : Inv env start t) {a : Award} {r : Nat}
    (ha : a ∈ t.1.awards.rows) (hwriter : t.2.writer a.id = some r) :
    ∃ p date, env.prepared r = .ok p ∧ a = env.platform.row p date a.id := by
  obtain ⟨p, date, hp, hmem, -⟩ := h.written a.id r hwriter
  exact ⟨p, date, hp, Table.eq_of_key ha hmem rfl⟩

theorem replay_eq_ok {p : Prepared} {a existing : Award}
    (h : env.platform.replay p existing = .ok a) :
    existing = a ∧ a.request_hash = some (env.platform.fingerprint p.award) := by
  unfold Platform.replay at h
  split_ifs at h with hhash
  · cases h
  · obtain rfl := Reply.ok.inj h
    exact ⟨rfl, not_not.mp hhash⟩

theorem Inv.once {t : State × History} (h : Inv env start t) {r r' id id' : Nat} {p p' : Prepared}
    (hr : t.2.writer id = some r) (hr' : t.2.writer id' = some r')
    (hp : env.prepared r = .ok p) (hp' : env.prepared r' = .ok p') (hadmin : p.admin = p'.admin)
    (hkey : p.key = p'.key) : r = r' ∧ id = id' := by
  obtain ⟨q, date, hq, hmem, -⟩ := h.written id r hr
  obtain ⟨q', date', hq', hmem', -⟩ := h.written id' r' hr'
  obtain rfl := Except.ok.inj (hp.symm.trans hq)
  obtain rfl := Except.ok.inj (hp'.symm.trans hq')
  have hsame := t.1.awards.eq_of_key hmem hmem' rfl (by simp [Platform.row, hadmin, hkey])
  obtain rfl : id = id' := congrArg Award.id hsame
  exact ⟨Option.some.inj (hr.symm.trans hr'), rfl⟩

theorem requestKey_eq_iff (hsha : Function.Injective env.platform.sha256) {p p' : Prepared} :
    env.requestKey p = env.requestKey p' ↔ p.admin = p'.admin ∧ p.key = p'.key := by
  constructor
  · exact fun h => requestKey_inj hsha h
  · rintro ⟨hadmin, hkey⟩
    rw [Environment.requestKey, Environment.requestKey, hadmin, hkey]

/-- Of two requests with one key the fingerprints are the same if and only if the contents are. -/
theorem Honest.fingerprint_iff {awards : AwardTable} (h : Honest env awards)
    (hsha : Function.Injective env.platform.sha256) {r r' : Nat} {p p' : Prepared}
    (hp : env.prepared r = .ok p) (hp' : env.prepared r' = .ok p')
    (hkey : env.requestKey p = env.requestKey p')
    (hfresh : awards.findKey (env.requestKey p) = none) :
    env.platform.fingerprint p.award = env.platform.fingerprint p'.award ↔
      p.award.content = p'.award.content := by
  obtain ⟨hadmin, hkey⟩ := (requestKey_eq_iff hsha).mp hkey
  rw [fingerprint_eq_iff hsha, content_eq_iff]
  exact and_congr_right fun hrest => h.requests r r' p p' hp hp' hadmin hkey hfresh hrest

/-- An award has the fingerprint of a request with its key if and only if it has its content. -/
theorem Inv.hash_iff {t : State × History} (h : Inv env start t)
    (hsha : Function.Injective env.platform.sha256) (honest : Honest env start.awards) {r : Nat}
    {p : Prepared} {a : Award} (huses : Uses env t.1.awards r p a) :
    a.request_hash = some (env.platform.fingerprint p.award) ↔ p.award.content = a.content := by
  obtain ⟨hp, ha, hkey⟩ := huses
  obtain ⟨new, hrows, hnew⟩ := h.grown
  rcases List.mem_append.mp (hrows ▸ ha) with hold | hadded
  · exact honest.stored r p a ⟨hp, hold, hkey⟩
  · obtain ⟨r', p', date, hwriter, hp', hrow⟩ := hnew a hadded
    obtain ⟨q, -, hq, -, hfresh⟩ := h.written a.id r' hwriter
    obtain rfl := Except.ok.inj (hp'.symm.trans hq)
    have hkeys : env.requestKey p' = env.requestKey p := by
      rw [hrow] at hkey
      exact Option.some.inj hkey
    have hcontent : a.content = p'.award.content := by
      rw [hrow]
      rfl
    have hhash : a.request_hash = some (env.platform.fingerprint p'.award) := by
      rw [hrow]
      rfl
    rw [hhash, hcontent, Option.some.injEq, honest.fingerprint_iff hsha hp' hp hkeys hfresh]
    exact eq_comm

theorem Inv.idempotent (hsha : Function.Injective env.platform.sha256)
    (honest : Honest env start.awards) {t : State × History} (h : Inv env start t) :
    Idempotent env start t where
  onePerKey a ha b hb _ _ hka hkb := t.1.awards.eq_of_key ha hb hka hkb
  grown := h.grown
  once _ _ _ _ _ _ hr hr' hp hp' hadmin hkey := h.once hr hr' hp hp' hadmin hkey
  repeats r r' id id' hsame hr hr' := by
    obtain ⟨p, -, hp, -⟩ := h.written id r hr
    have hp' : env.prepared r' = .ok p := by
      rw [← hp, Environment.prepared, Environment.prepared, hsame]
    exact h.once hr hr' hp hp' rfl rfl
  answered r reply hphase := by
    have hok := h.phase r
    rw [hphase] at hok
    exact hok
  agree r r' p p' a hphase hwriter hp hp' := by
    have hok := h.phase r
    rw [hphase] at hok
    rcases hok with herror | ⟨hraised, -⟩ | ⟨q, hq, b, hb, hkey, hreply⟩
    · rw [hp] at herror
      cases herror
    · cases hraised
    · obtain rfl := Except.ok.inj (hp.symm.trans hq)
      obtain ⟨rfl, hhash⟩ := replay_eq_ok hreply.symm
      obtain ⟨q', date, hq', hrow⟩ := h.row_eq hb hwriter
      obtain rfl := Except.ok.inj (hp'.symm.trans hq')
      have hsame := (h.hash_iff hsha honest ⟨hp, hb, hkey⟩).mp hhash
      rw [hrow] at hkey hsame
      obtain ⟨hadmin, hkey⟩ := requestKey_inj hsha (Option.some.inj hkey)
      exact ⟨hadmin.symm, hkey.symm, hsame⟩

theorem Inv.repeated (hsha : Function.Injective env.platform.sha256)
    (honest : Honest env start.awards) {u : State × History} (h : Inv env start u) {r : Nat}
    {p : Prepared} {a : Award}
    (huses : Uses env u.1.awards r p a) : Repeated env r p a u := by
  have hhash := h.hash_iff hsha honest huses
  obtain ⟨hp, ha, hkey⟩ := huses
  have hreply : ∀ reply, u.1.phase r = .done reply →
      reply = env.platform.replay p a ∨ (reply = .raised ∧ u.2.faulted r = true) := by
    intro reply hphase
    have hok := h.phase r
    rw [hphase] at hok
    rcases hok with herror | hraised | ⟨q, hq, b, hb, hkb, hreply⟩
    · rw [hp] at herror
      cases herror
    · exact Or.inr hraised
    · obtain rfl := Except.ok.inj (hp.symm.trans hq)
      obtain rfl := u.1.awards.eq_of_key ha hb hkey hkb
      exact Or.inl hreply
  constructor
  · rintro e v rfl hstep
    obtain ⟨⟨phase, awards⟩, hact, rfl⟩ := Option.map_eq_some_iff.mp hstep
    rcases (acts_of_act hact).rows with hsame | ⟨q, award, hold, hstored⟩
    · exact hsame
    · have hok := h.phase e.request
      rw [hold] at hok
      obtain rfl := Except.ok.inj (hp.symm.trans hok)
      exact absurd hkey (AwardTable.findKey_eq_none.mp hstored.fresh a ha)
  · intro hcontent reply hphase
    refine (hreply reply hphase).imp_left fun hreplay => hreplay.trans (if_neg (not_not.mpr ?_))
    exact hhash.mpr hcontent
  · intro hcontent reply hphase
    refine (hreply reply hphase).imp_left fun hreplay => hreplay.trans (if_pos ?_)
    exact fun hsame => hcontent (hhash.mp hsame)

theorem mem_of_step {e : Event} {t : State} (h : step env s e = some t) {a : Award}
    (ha : a ∈ s.awards.rows) : a ∈ t.awards.rows := by
  obtain ⟨⟨phase, awards⟩, hact, rfl⟩ := Option.map_eq_some_iff.mp h
  exact (acts_of_act hact).mem ha

/-- What is known from here on: a request whose key an award has is only told what became of it,
and repeating such requests leaves the table as it is. -/
structure Settled (env : Environment) (t : State × History) : Prop where
  repeated : ∀ more, ∀ u ∈ Run.visited (monitored env) t more, ∀ r p a,
    Uses env t.1.awards r p a → Repeated env r p a u
  unchanged : ∀ more, (∀ e ∈ more, ∃ p a, Uses env t.1.awards e.request p a) →
    ∀ u ∈ Run.visited (monitored env) t more, u.1.awards = t.1.awards

theorem Inv.settled (hsha : Function.Injective env.platform.sha256)
    (honest : Honest env start.awards) {t : State × History} (h : Inv env start t) :
    Settled env t where
  repeated more u hu r p a huses := by
    have hlater := Run.forall_visited (I := fun u => Inv env start u ∧ a ∈ u.1.awards.rows)
      (fun u e v h hstep => ⟨inv_step u e v h.1 hstep,
        mem_of_step (Run.monitored_eq_some.mp hstep).1 h.2⟩) more ⟨h, huses.2.1⟩ u hu
    exact hlater.1.repeated hsha honest ⟨huses.1, hlater.2, huses.2.2⟩
  unchanged more huses := by
    have hmeets : Run.Meets (monitored env)
        (fun _ e => ∃ p a, Uses env t.1.awards e.request p a) t more :=
      Run.meets_of_forall_mem fun e he _ => huses e he
    refine fun u hu => (hmeets.forall_visited
      (I := fun u => Inv env start u ∧ u.1.awards = t.1.awards) ?_ ⟨h, rfl⟩ u hu).2
    rintro u e v ⟨hu, hsame⟩ ⟨p, a, huses⟩ hstep
    refine ⟨inv_step u e v hu hstep, Eq.trans ?_ hsame⟩
    rw [← hsame] at huses
    exact (hu.repeated hsha honest huses).unchanged e v.1 rfl (Run.monitored_eq_some.mp hstep).1

/-! ### Runs that tell whether the fingerprint is honest -/

/-- A run without faults, with its history. -/
theorem visited_of_exec {events : List Event} (h : Run.exec (step env) s events = some t)
    (hquiet : ∀ e ∈ events, e.fault = none) (history : History) :
    ∃ later : History, later.faulted = history.faulted ∧
      (t, later) ∈ Run.visited (monitored env) (s, history) events := by
  induction events generalizing s history with
  | nil =>
    obtain rfl := Option.some.inj h
    exact ⟨history, rfl, by simp [Run.visited]⟩
  | cons e events ih =>
    obtain ⟨mid, hmid, hrest⟩ := Option.bind_eq_some_iff.mp h
    obtain ⟨later, hfaulted, hmem⟩ := ih hrest
      (fun e' he' => hquiet e' (List.mem_cons_of_mem _ he')) (observe history s e mid)
    refine ⟨later, ?_, ?_⟩
    · rw [hfaulted]
      exact if_pos (hquiet e List.mem_cons_self)
    · have hstep : monitored env (s, history) e = some (mid, observe history s e mid) :=
        Run.monitored_eq_some.mpr ⟨hmid, rfl⟩
      simpa [Run.visited, hstep] using .inr hmem

/-- A request finds the award of its key. -/
theorem exec_found {r : Nat} {p : Prepared} {a : Award} (hphase : s.phase r = .start)
    (hp : env.prepared r = .ok p) (hfind : s.awards.findKey (env.requestKey p) = some a) :
    ∃ t, Run.exec (step env) s [{ request := r }, { request := r }] = some t ∧
      t.awards = s.awards ∧ t.phase r = .done (env.platform.replay p a) := by
  simp [Run.exec, step, act, hphase, hp, hfind]

/-- A request stores its award under a new key. -/
theorem exec_stored {r : Nat} {p : Prepared} (hphase : s.phase r = .start)
    (hp : env.prepared r = .ok p) (hfresh : s.awards.findKey (env.requestKey p) = none) :
    ∃ t id, Run.exec (step env) s [{ request := r }, { request := r }, { request := r }] = some t ∧
      t.awards.findKey (env.requestKey p) = some (env.platform.row p 0 id) ∧
      ∀ r' ≠ r, t.phase r' = s.phase r' := by
  have hcommit : ∃ awards, commit env s.awards p 0 =
      some (env.platform.row p 0 s.awards.table.nextKey, awards) ∧
        awards.findKey (env.requestKey p) = some (env.platform.row p 0 s.awards.table.nextKey) := by
    unfold commit
    rw [dif_pos hfresh]
    refine ⟨_, rfl, ?_⟩
    rw [AwardTable.findKey]
    change (s.awards.rows ++ [env.platform.row p 0 s.awards.table.nextKey]).find? _ = _
    rw [List.find?_append, show s.awards.rows.find? _ = none from hfresh, Option.none_or]
    exact List.find?_cons_of_pos (decide_eq_true rfl)
  obtain ⟨awards, hcommit, hfind⟩ := hcommit
  have hexec : Run.exec (step env) s
      [{ request := r }, { request := r }, { request := r }] = some
        { awards := awards
          phase := Function.update (Function.update (Function.update s.phase r
            (.looking p s.awards)) r (.adding p)) r
              (.closing (env.platform.row p 0 s.awards.table.nextKey)) } := by
    simp [Run.exec, step, act, hphase, hp, hfresh, hcommit]
  refine ⟨_, _, hexec, hfind, fun r' hr => ?_⟩
  simp only [Function.update_of_ne hr]

theorem hash_iff_of_settled {t : State × History} (hsettled : Settled env t) {r : Nat}
    {p : Prepared} {a : Award} (huses : Uses env t.1.awards r p a)
    (hphase : t.1.phase r = .done (env.platform.replay p a)) (hquiet : t.2.faulted r = false) :
    a.request_hash = some (env.platform.fingerprint p.award) ↔ p.award.content = a.content := by
  have hself : t ∈ Run.visited (monitored env) t [] := by simp [Run.visited]
  have hrepeated := hsettled.repeated [] t hself r p a huses
  have hnot : ∀ reply, reply = Reply.raised ∧ t.2.faulted r = true → False := by
    rintro reply ⟨-, hfaulted⟩
    rw [hquiet] at hfaulted
    cases hfaulted
  constructor
  · intro hhash
    by_contra hcontent
    rcases hrepeated.different hcontent _ hphase with hconflict | hraised
    · rw [Platform.replay, if_neg (not_not.mpr hhash)] at hconflict
      cases hconflict
    · exact hnot _ hraised
  · intro hcontent
    by_contra hhash
    rcases hrepeated.same hcontent _ hphase with hok | hraised
    · rw [Platform.replay, if_pos hhash] at hok
      cases hok
    · exact hnot _ hraised

/-- Where every run is idempotent, the fingerprint is honest. -/
theorem honest_of_settled (hsha : Function.Injective env.platform.sha256)
    (hstart : ∀ r, start.phase r = .start)
    (h : ∀ events, ∀ t ∈ Run.visited (monitored env) (start, {}) events, Settled env t) :
    Honest env start.awards where
  stored r p a huses := by
    obtain ⟨hp, ha, hkey⟩ := huses
    have hfind : start.awards.findKey (env.requestKey p) = some a := by
      cases hfound : start.awards.findKey (env.requestKey p) with
      | none => exact absurd hkey (AwardTable.findKey_eq_none.mp hfound a ha)
      | some b =>
        obtain ⟨hb, hkeyb⟩ := AwardTable.mem_of_findKey hfound
        rw [start.awards.eq_of_key hb ha hkeyb hkey]
    obtain ⟨t, hexec, hawards, hphase⟩ := exec_found (hstart r) hp hfind
    obtain ⟨later, hfaulted, hmem⟩ := visited_of_exec hexec (by simp) {}
    apply hash_iff_of_settled (h _ _ hmem) _ hphase (by rw [hfaulted])
    exact ⟨hp, hawards ▸ ha, hkey⟩
  requests r r' p p' hp hp' hadmin hkey hfresh hrest := by
    by_cases hsame : r = r'
    · subst hsame
      obtain rfl := Except.ok.inj (hp.symm.trans hp')
      exact iff_of_true ⟨rfl, rfl⟩ ⟨rfl, rfl⟩
    · have hkeys : env.requestKey p = env.requestKey p' :=
        (requestKey_eq_iff hsha).mpr ⟨hadmin, hkey⟩
      -- the one request stores its award, and the other one finds it
      obtain ⟨s, id, hfirst, hfind, hphases⟩ := exec_stored (hstart r) hp hfresh
      have hstart' : s.phase r' = .start := (hphases r' (Ne.symm hsame)).trans (hstart r')
      obtain ⟨t, hsecond, hawards, hphase⟩ := exec_found hstart' hp' (hkeys ▸ hfind)
      have hexec : Run.exec (step env) start ([{ request := r }, { request := r },
          { request := r }] ++ [{ request := r' }, { request := r' }]) = some t := by
        rw [Run.exec_append, hfirst, Option.bind_some, hsecond]
      obtain ⟨later, hfaulted, hmem⟩ := visited_of_exec hexec (by simp) {}
      have hstored := AwardTable.mem_of_findKey hfind
      have huses : Uses env t.awards r' p' (env.platform.row p 0 id) :=
        ⟨hp', hawards ▸ hstored.1, hkeys ▸ hstored.2⟩
      have hiff : some (env.platform.fingerprint p.award) =
          some (env.platform.fingerprint p'.award) ↔ p'.award.content = p.award.content :=
        hash_iff_of_settled (h _ _ hmem) huses hphase (by rw [hfaulted])
      rw [Option.some.injEq, fingerprint_eq_iff hsha, eq_comm (b := p.award.content),
        content_eq_iff] at hiff
      simpa only [hrest, true_and] using hiff

/-- In every run an award is stored at most once for a key of an admin, and a request whose key an
award has changes nothing, is answered with that award if its content is the same, and refused if
it is not - if and only if the fingerprint is honest. -/
theorem creation_idempotent (env : Environment) (hsha : Function.Injective env.platform.sha256)
    (start : State) (hstart : ∀ r, start.phase r = .start) :
    (∀ events, ∀ t ∈ Run.visited (monitored env) (start, {}) events,
      Idempotent env start t ∧ Settled env t) ↔ Honest env start.awards := by
  constructor
  · exact fun h => honest_of_settled hsha hstart fun events t ht => (h events t ht).2
  · intro honest events t ht
    have hfirst : Inv env start (start, {}) := by
      refine ⟨⟨[], (List.append_nil _).symm, fun a ha => absurd ha List.not_mem_nil⟩, ?_, ?_⟩
      · rintro id r hr
        cases hr
      · intro r
        dsimp only
        rw [hstart r]
        trivial
    have hinv := Run.forall_visited (I := Inv env start) inv_step events hfirst t ht
    exact ⟨hinv.idempotent hsha honest, hinv.settled hsha honest⟩

/-- A request whose relationships lead to the ids that it gives. -/
def Plain (award : Loaded) : Prop :=
  award.storedUser = award.user_id ∧ award.storedTeam = award.team_id

/-- Without rows under their keys, requests without other relationships are honest. -/
theorem honest_of_plain {awards : AwardTable} (hkeys : ∀ a ∈ awards.rows, a.request_key = none)
    (hplain : ∀ r p, env.prepared r = .ok p → Plain p.award) : Honest env awards where
  requests r r' p p' hp hp' _ _ _ _ := by
    obtain ⟨huser, hteam⟩ := hplain r p hp
    obtain ⟨huser', hteam'⟩ := hplain r' p' hp'
    rw [huser, hteam, huser', hteam']
  stored r p a huses := by
    have hnone := hkeys a huses.2.1
    rw [huses.2.2] at hnone
    cases hnone

/-! ### One award, asked for twice -/

def integerOf : Option Json.Tree → Option Int
  | some (.number literal) => signedDecimal literal
  | _ => none

def textOf : Option Json.Tree → Option String
  | some (.string s) => some (String.ofList s)
  | _ => none

/-- The digests of one content and of its key for the first admin. -/
def digest (s : String) : String :=
  if s = "\x7b\"category\":null,\"description\":null,\"icon\":null,\"name\":\"bonus\"," ++
      "\"requirements\":null,\"team_id\":null,\"user_id\":2,\"value\":100\x7d" then
    "15b2f66117dd516628be2b35cfc61686ccd0fe0355bf18c7222ec4806f60380e"
  else if s = "1:15b2f66117dd516628be2b35cfc61686ccd0fe0355bf18c7222ec4806f60380e" then
    "0e661596dc73c5c3127082c172f2a54aa829544aa531d00bf7d5ddfff9a84c59"
  else "x" ++ s

theorem digest_injective : Function.Injective digest := by
  have hother : ∀ s u : String, u.toList.head? ≠ some 'x' → "x" ++ s ≠ u := by
    rintro s u hhead rfl
    exact hhead (by simp)
  intro s t h
  unfold digest at h
  split_ifs at h with hs ht hkt hks ht hkt ht hkt
  · exact hs.trans ht.symm
  · exact absurd h (by decide)
  · exact absurd h.symm (hother _ _ (by decide))
  · exact absurd h (by decide)
  · exact hks.trans hkt.symm
  · exact absurd h.symm (hother _ _ (by decide))
  · exact absurd h (hother _ _ (by decide))
  · exact absurd h (hother _ _ (by decide))
  · exact (String.append_right_inj "x").mp h

/-- A schema that takes integers and texts, and the user of an award by the id. -/
def simplePlatform : Platform where
  digit c := if c.isDigit then some (c.toNat - 48) else none
  sameId value id := integerOf (some value) = some (id : Int)
  load _ req := some (.ok {
    user_id := integerOf (get req "user_id")
    team_id := integerOf (get req "team_id")
    name := (textOf (get req "name")).getD ""
    description := textOf (get req "description")
    value := integerOf (get req "value")
    category := textOf (get req "category")
    icon := textOf (get req "icon")
    requirements := none
    user := (integerOf (get req "user")).map fun id => some id.toNat })
  sha256 := digest

def bonus : Environment where
  platform := simplePlatform
  request _ := {
    admin := 1
    body := some (.object [("user_id".toList, integer 2), ("name".toList, text (some " bonus ")),
      ("value".toList, integer 100)])
    accounts := { users := [⟨1, none⟩, ⟨2, none⟩] } }

/-- Two requests that both look before either has stored its award. -/
def bonusTwice : List Event :=
  [⟨0, none, 0⟩, ⟨1, none, 0⟩, ⟨0, none, 0⟩, ⟨1, none, 0⟩, ⟨1, none, 5⟩, ⟨0, none, 6⟩,
    ⟨0, none, 6⟩, ⟨1, none, 7⟩]

def afterBonusTwice : State × History :=
  (Run.exec (monitored bonus) ({}, {}) bonusTwice).get (by decide +kernel)

theorem bonus_stored_once :
    Idempotent bonus {} afterBonusTwice ∧ Settled bonus afterBonusTwice := by
  have honest : Honest bonus {} := by
    apply honest_of_plain (by simp [AwardTable.rows])
    intro r p hp
    have hnone : (bonus.prepared 0).toOption.all
        (fun p => p.award.user.isNone && p.award.team.isNone) = true := by
      decide +kernel
    rw [show bonus.prepared 0 = .ok p from hp, Except.toOption, Option.all_some, Bool.and_eq_true,
      Option.isNone_iff_eq_none, Option.isNone_iff_eq_none] at hnone
    constructor
    · rw [Loaded.storedUser, hnone.1]
      rfl
    · rw [Loaded.storedTeam, hnone.2]
      rfl
  exact (creation_idempotent bonus digest_injective {} fun _ => rfl).mpr honest bonusTwice _
    (Run.exec_mem_visited _)

/-- Two awards that differ only in the relationship to the user, under one key. -/
def forOthers : Environment where
  platform := simplePlatform
  request r := {
    admin := 1
    body := some (.object [("user_id".toList, integer 2), ("name".toList, text (some "bonus")),
      ("value".toList, integer 100), ("user".toList, integer (if r = 0 then 3 else 4))])
    idempotencyKey := some "k"
    accounts := { users := [⟨1, none⟩, ⟨2, none⟩, ⟨3, none⟩, ⟨4, none⟩] } }

def forOther (user : Nat) : Prepared where
  admin := 1
  key := "k"
  award := {
    user_id := some 2
    team_id := none
    name := "bonus"
    description := none
    value := some 100
    category := none
    icon := none
    requirements := none
    user := some (some user) }

theorem award_of_other_user :
    ¬ ∀ env : Environment, Function.Injective env.platform.sha256 →
      ∀ start : State, (∀ r, start.phase r = .start) →
        ∀ events, ∀ t ∈ Run.visited (monitored env) (start, {}) events,
          Idempotent env start t ∧ Settled env t := by
  intro hall
  have hruns := hall forOthers digest_injective {} fun _ => rfl
  have honest := honest_of_settled digest_injective (fun _ => rfl) fun events t ht =>
    (hruns events t ht).2
  have hfirst : forOthers.prepared 0 = .ok (forOther 3) := rfl
  have hsecond : forOthers.prepared 1 = .ok (forOther 4) := rfl
  have huser := ((honest.requests 0 1 _ _ hfirst hsecond rfl rfl rfl rfl).mp ⟨rfl, rfl⟩).1
  cases huser

example : (Run.exec (step bonus) {} bonusTwice).map (fun s => s.awards.rows.map Award.id) =
    some [1] := by
  decide +kernel

end Fctf.Awards
