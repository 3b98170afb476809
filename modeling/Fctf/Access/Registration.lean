import Fctf.Lib.Lease
import Fctf.Lib.Run
import Fctf.Lib.Table
import Fctf.Text

/-!
The registration of contestants, as steps of any number of requests on one database and one lock
in Redis. Times are in milliseconds; what the services outside answer comes with each step.
-/

namespace Fctf.Registration

/-! ### Requests -/

/-- The value of a field, as `JsonElement` has it. -/
inductive FieldValue
  | undefined
  | null
  | bool (value : Bool)
  | number (rawText : String) (int32 : Option Int)
  | string (text : String)
  /-- An array or an object. -/
  | other (rawText : String)
  deriving DecidableEq

structure RegistrationFieldValueDTO where
  fieldId : Int
  value : Option FieldValue

structure RegisterContestantDTO where
  username : Option String
  email : Option String
  password : Option String
  confirmPassword : Option String
  userFields : Option (List RegistrationFieldValueDTO) := none

/-- A row of `fields`. -/
structure Field where
  id : Nat
  name : String
  type : Option String
  fieldType : Option String
  required : Option Bool

structure User where
  id : Nat
  name : Option String
  email : Option String
  password : Option String
  verified : Option Bool
  hidden : Option Bool
  banned : Option Bool
  deriving DecidableEq

structure FieldEntry where
  id : Nat
  type : Option String
  fieldId : Option Nat
  userId : Option Nat
  value : String
  deriving DecidableEq

/-- What the service uses of .NET and of the database. -/
structure Platform extends CharKinds where
  collation : Collation
  /-- `LOWER` in the database and `ToLower` in .NET. -/
  lower : String → String
  toLower : String → String
  toLowerInvariant : String → String
  hashPassword : String → String
  serializeText : String → String

structure Environment where
  platform : Platform
  registrationEnabled : Bool := true
  numUsersLimit : Int
  fields : List Field := []
  /-- The requests, by number. -/
  request : Nat → RegisterContestantDTO

/-! ### Checks that read nothing -/

def normalizeNullable (value : Option String) : Option String :=
  value.bind fun text => if trim text = "" then none else some (trim text)

structure Form where
  username : String
  email : String
  password : String
  deriving DecidableEq

/-- A registration up to the limit of users, after the captcha. -/
def Platform.validate (p : Platform) (dto : RegisterContestantDTO) : Except String Form :=
  let password := trim (dto.password.getD "")
  let confirmPassword := trim (dto.confirmPassword.getD "")
  match normalizeNullable dto.username, normalizeNullable dto.email with
  | some username, some email =>
    if password = "" ∨ confirmPassword = "" then
      .error "Username, email, password, and confirm password are required"
    else if !isPlainName username 128 then
      .error ("Username cannot contain markup or control characters and must be at most 128 " ++
        "characters")
    else if password ≠ confirmPassword then .error "Password confirmation does not match"
    else if !p.isValidPasswordPolicy password then
      .error ("Password must be 8-20 characters and include uppercase, lowercase, number, and " ++
        "special character")
    else .ok ⟨username, email, password⟩
  | _, _ => .error "Username, email, password, and confirm password are required"

/-! ### Fields -/

/-- `BuildFieldValueMap`, looked up: the last value of a field counts. -/
def fieldValue (values : Option (List RegistrationFieldValueDTO)) (fieldId : Nat) :
    Option FieldValue :=
  ((values.getD []).reverse.find? fun v => 0 < v.fieldId && v.fieldId == Int.ofNat fieldId).bind
    RegistrationFieldValueDTO.value

def hasFieldValue : Option FieldValue → Bool
  | none | some .null | some .undefined => false
  | some (.string text) => !isNullOrWhiteSpace text
  | some _ => true

def readTextValue : Option FieldValue → Option String
  | none | some .null | some .undefined => none
  | some (.string text) => normalizeNullable (some text)
  | some (.bool value) => some (if value then "true" else "false")
  | some (.number rawText _) => some rawText
  | some (.other rawText) => normalizeNullable (some rawText)

namespace Platform

variable (p : Platform)

def tryReadBoolean : Option FieldValue → Option Bool
  | some (.bool value) => some value
  | some (.number _ int32) =>
    if int32 = some 1 then some true else if int32 = some 0 then some false else none
  | some (.string text) =>
    (normalizeNullable (some text)).bind fun text =>
      let normalized := p.toLowerInvariant text
      if normalized ∈ ["true", "1", "yes", "y", "on"] then some true
      else if normalized ∈ ["false", "0", "no", "n", "off"] then some false
      else none
  | _ => none

/-- The value that is stored for a field, if there is one. -/
def fieldEntry (field : Field) (rawValue : Option FieldValue) :
    Except String (Option String) :=
  let required := field.required = some true
  if required ∧ hasFieldValue rawValue = false then
    .error ("User field '" ++ field.name ++ "' is required")
  else if hasFieldValue rawValue = false then .ok none
  else if field.fieldType.any (equalsIgnoreCase · "boolean") then
    match p.tryReadBoolean rawValue with
    | none => .error ("User field '" ++ field.name ++ "' must be a boolean value")
    | some value =>
      if required ∧ value ≠ true then
        .error ("User field '" ++ field.name ++ "' must be accepted")
      else .ok (some (if value then "true" else "false"))
  else
    match readTextValue rawValue with
    | none =>
      if required then .error ("User field '" ++ field.name ++ "' is required") else .ok none
    | some text => .ok (some (p.serializeText text))

end Platform

/-- An entry that waits for the id of its user. -/
structure NewEntry where
  fieldId : Nat
  value : String
  deriving DecidableEq

/-- The entries of a request, or the message for the first field that is wrong. -/
def Environment.userFieldEntries (env : Environment) (dto : RegisterContestantDTO) :
    Except String (List NewEntry) := do
  let definitions := (env.fields.filter fun f => f.type = some "user").mergeSort
    fun a b => decide (a.id ≤ b.id)
  let values ← definitions.mapM fun field =>
    (env.platform.fieldEntry field (fieldValue dto.userFields field.id)).map fun value =>
      value.map fun value => (⟨field.id, value⟩ : NewEntry)
  return values.filterMap id

/-! ### The state -/

inductive Reply
  | ok
  | fail (message : String)
  deriving DecidableEq

/-- Where a registration is. With a limit it has the time that it got the lock at. -/
inductive Phase
  | start
  /-- `AcquireWithRetry`, before the attempt with this number. -/
  | asking (form : Form) (turn : Nat)
  | counting (form : Form) (since : Int)
  | checkingName (form : Form) (lock : Option Int)
  | checkingEmail (form : Form) (lock : Option Int)
  | readingFields (form : Form) (lock : Option Int)
  /-- In the transaction. -/
  | saving (form : Form) (lock : Option Int) (entries : List NewEntry)
  | savingEntries (form : Form) (lock : Option Int) (entries : List NewEntry)
  | committing (form : Form) (lock : Option Int) (entries : List NewEntry)
  | releasing (since : Int) (reply : Reply)
  | done (reply : Reply)
  deriving DecidableEq

structure State where
  now : Int := 0
  locks : Expiring.Store String Nat := .empty
  users : Table User.id := {}
  fieldEntries : Table FieldEntry.id := {}
  phase : Nat → Phase := fun _ => .start

/-- `u.Banned != true && u.Hidden != true`. -/
def isCounted (u : User) : Bool := u.banned ≠ some true && u.hidden ≠ some true

def State.currentUsers (s : State) : Int := s.users.rows.countP isCounted

inductive Fault
  /-- A `DbUpdateException` with the message of its cause. -/
  | dbUpdate (dbError : String)
  | other
  deriving DecidableEq

/-- What a step is answered. A call that changes the lock or commits may be carried out and its
reply be lost, which is a fault for the service. -/
structure Answer where
  captchaValid : Bool := true
  fault : Option Fault := none
  carriedOut : Bool := false
  deriving DecidableEq

inductive Event
  | tick (milliseconds : Nat)
  | run (request : Nat) (answer : Answer)

def registrationLimitLockKey : String := "auth:register:num-users-limit"

def lease : Int := 10000

def retry : Nat := 8

/-! ### Steps -/

def containsIgnoreCase (text word : String) : Bool :=
  (text.toList.map Char.toUpper).tails.any fun rest =>
    (word.toList.map Char.toUpper).isPrefixOf rest

/-- The `catch` clauses. -/
def Fault.reply : Fault → Reply
  | .dbUpdate dbError =>
    if containsIgnoreCase dbError "Duplicate" then
      .fail "A duplicated username or email was detected"
    else if containsIgnoreCase dbError "json_valid" || containsIgnoreCase dbError "field_entries"
    then .fail "Invalid registration field data"
    else .fail "Unable to submit registration"
  | .other => .fail "Unable to submit registration"

/-- To the `finally` clause. -/
def finish (lock : Option Int) (reply : Reply) : Phase :=
  match lock with
  | some since => .releasing since reply
  | none => .done reply

/-- What a step changes beside the phase of its request. -/
inductive Effect
  | nothing
  | acquire
  | release
  | write (form : Form) (entries : List NewEntry)

/-- The rows of a committed transaction. The token of a request's lock, a new GUID, is taken to be
the number of the request. -/
def Effect.apply (env : Environment) (s : State) (request : Nat) : Effect → State
  | .nothing => s
  | .acquire =>
    { s with locks := (Lease.acquire s.locks s.now registrationLimitLockKey request lease).2 }
  | .release => { s with locks := Lease.release s.locks s.now registrationLimitLockKey request }
  | .write form entries =>
    let userId := s.users.nextKey
    { s with
      users := s.users.add (fun id => {
        id := id
        name := some form.username
        email := some form.email
        password := some (env.platform.hashPassword form.password)
        verified := some false
        hidden := some false
        banned := some false }) fun _ => rfl
      fieldEntries := entries.foldl (fun table entry => table.add (fun id => {
        id := id
        type := some "user"
        fieldId := some entry.fieldId
        userId := some userId
        value := entry.value }) fun _ => rfl) s.fieldEntries }

/-- The next step of a request: its phase afterwards, and what else it changes. -/
def act (env : Environment) (s : State) (request : Nat) (answer : Answer) :
    Option (Phase × Effect) :=
  let dto := env.request request
  match s.phase request, answer.fault with
  | .done _, _ => none
  -- an error of the release is ignored; the key goes when its time is over
  | .releasing _ reply, some _ =>
    some (.done reply, if answer.carriedOut then .release else .nothing)
  | .releasing _ reply, none => some (.done reply, .release)
  | .start, some fault => some (.done fault.reply, .nothing)
  | .start, none =>
    if !env.registrationEnabled then
      some (.done (.fail "Registration is currently disabled"), .nothing)
    else if !answer.captchaValid then some (.done (.fail "Captcha validation failed"), .nothing)
    else
      match env.platform.validate dto with
      | .error message => some (.done (.fail message), .nothing)
      | .ok form =>
        some (if 0 < env.numUsersLimit then .asking form 0 else .checkingName form none, .nothing)
  | .asking _ _, some fault =>
    some (.done fault.reply, if answer.carriedOut then .acquire else .nothing)
  | .asking form turn, none =>
    if (Lease.acquire s.locks s.now registrationLimitLockKey request lease).1 then
      some (.counting form s.now, .acquire)
    else if turn + 1 < retry then some (.asking form (turn + 1), .nothing)
    else some (.done (.fail "Registration is busy, please try again"), .nothing)
  | .counting _ since, some fault => some (finish (some since) fault.reply, .nothing)
  | .counting form since, none =>
    if env.numUsersLimit < s.currentUsers + 1 then
      some (finish (some since) (.fail ("Reached the maximum number of users (" ++
        toString env.numUsersLimit ++ ")")), .nothing)
    else some (.checkingName form (some since), .nothing)
  | .checkingName _ lock, some fault => some (finish lock fault.reply, .nothing)
  | .checkingName form lock, none =>
    if s.users.rows.any fun u => u.name.any fun name => env.platform.collation.eq
        (env.platform.lower name) (env.platform.toLower form.username) then
      some (finish lock (.fail ("Username has already been taken: " ++ form.username)), .nothing)
    else some (.checkingEmail form lock, .nothing)
  | .checkingEmail _ lock, some fault => some (finish lock fault.reply, .nothing)
  | .checkingEmail form lock, none =>
    if s.users.rows.any fun u => u.email.any fun email =>
        env.platform.collation.eq email form.email then
      some (finish lock (.fail ("Email address has already been used: " ++ form.email)), .nothing)
    else some (.readingFields form lock, .nothing)
  | .readingFields _ lock, some fault => some (finish lock fault.reply, .nothing)
  | .readingFields form lock, none =>
    match env.userFieldEntries dto with
    | .error message => some (finish lock (.fail message), .nothing)
    | .ok entries => some (.saving form lock entries, .nothing)
  | .saving _ lock _, some fault => some (finish lock fault.reply, .nothing)
  | .saving form lock entries, none =>
    some (if entries = [] then .committing form lock entries else .savingEntries form lock entries,
      .nothing)
  | .savingEntries _ lock _, some fault => some (finish lock fault.reply, .nothing)
  | .savingEntries form lock entries, none => some (.committing form lock entries, .nothing)
  | .committing form lock entries, some fault =>
    some (finish lock fault.reply, if answer.carriedOut then .write form entries else .nothing)
  | .committing form lock entries, none => some (finish lock .ok, .write form entries)

def step (env : Environment) (s : State) : Event → Option State
  | .tick milliseconds => some { s with now := s.now + milliseconds }
  | .run request answer =>
    (act env s request answer).map fun (phase, effect) =>
      { effect.apply env s request with phase := Function.update s.phase request phase }

/-- The time that a request has got the lock at, until it has let go of it. -/
def Phase.lock : Phase → Option Int
  | .counting _ since | .releasing since _ => some since
  | .checkingName _ lock | .checkingEmail _ lock | .readingFields _ lock | .saving _ lock _
  | .savingEntries _ lock _ | .committing _ lock _ => lock
  | .start | .asking _ _ | .done _ => none

/-- A registration ends within the lease of its lock. -/
def WithinLease (s : State) : Event → Prop
  | .tick _ => True
  | .run request _ => ∀ since ∈ (s.phase request).lock, s.now < since + lease

instance (s : State) : ∀ event, Decidable (WithinLease s event)
  | .tick _ => inferInstanceAs (Decidable True)
  | .run request _ =>
    inferInstanceAs (Decidable (∀ since ∈ (s.phase request).lock, s.now < since + lease))

/-- The next step of the request is its commit. -/
def Phase.commits : Phase → Bool
  | .committing _ _ _ => true
  | _ => false

/-- The reply of a commit that is carried out is not lost. -/
def CommitAnswered (s : State) : Event → Prop
  | .tick _ => True
  | .run request answer =>
    (s.phase request).commits = true → answer.fault = none ∨ answer.carriedOut = false

instance (s : State) : ∀ event, Decidable (CommitAnswered s event)
  | .tick _ => inferInstanceAs (Decidable True)
  | .run _ _ => inferInstanceAs (Decidable (_ → _))

/-! ### What a step can do -/

/-- The users have been counted, and there is room for one more; nothing is written yet. -/
def Phase.mayWrite : Phase → Bool
  | .checkingName _ _ | .checkingEmail _ _ | .readingFields _ _ | .saving _ _ _
  | .savingEntries _ _ _ | .committing _ _ _ => true
  | _ => false

/-- The reply that a request has for its client. -/
def Phase.reply : Phase → Option Reply
  | .releasing _ reply | .done reply => some reply
  | _ => none

theorem lock_finish {lock : Option Int} {reply : Reply} : (finish lock reply).lock = lock := by
  cases lock <;> rfl

theorem mayWrite_finish (lock : Option Int) (reply : Reply) :
    (finish lock reply).mayWrite = false := by
  cases lock <;> rfl

theorem reply_finish (lock : Option Int) (reply : Reply) :
    (finish lock reply).reply = some reply := by
  cases lock <;> rfl

/-- A step without an effect goes on under the same lock, or without one. -/
structure Quiet (env : Environment) (s : State) (old new : Phase) : Prop where
  lock : ∀ since ∈ new.lock, old.lock = some since
  mayWrite : new.mayWrite = true → (old.mayWrite = true ∧ new.lock = old.lock) ∨
    (∃ since, new.lock = some since ∧ s.currentUsers + 1 ≤ env.numUsersLimit) ∨
      env.numUsersLimit ≤ 0
  reply : ∀ reply ∈ old.reply, new.reply = some reply

/-- The steps of a request, by what they change. -/
inductive Acts (env : Environment) (s : State) (request : Nat) (old : Phase) :
    Phase → Effect → Prop
  | quiet {new : Phase} (h : Quiet env s old new) : Acts env s request old new .nothing
  | acquired {form : Form} (hold : old.lock = none ∧ old.reply = none)
      (hfree : (Lease.acquire s.locks s.now registrationLimitLockKey request lease).1 = true) :
      Acts env s request old (.counting form s.now) .acquire
  | lost {reply : Reply} (hold : old.lock = none ∧ old.reply = none) :
      Acts env s request old (.done reply) .acquire
  | released {since : Int} {reply : Reply} (hold : old = .releasing since reply) :
      Acts env s request old (.done reply) .release
  | written {form : Form} {lock : Option Int} {entries : List NewEntry} {reply : Reply}
      (hold : old = .committing form lock entries) :
      Acts env s request old (finish lock reply) (.write form entries)

section Quiet

variable {env : Environment} {s : State} {old : Phase}

theorem quiet_finish (lock : Option Int) (reply : Reply) (hlock : old.lock = lock)
    (hreply : old.reply = none) : Quiet env s old (finish lock reply) where
  lock since hsince := by rwa [lock_finish, ← hlock] at hsince
  mayWrite h := by rw [mayWrite_finish] at h; cases h
  reply _ h := by rw [hreply] at h; cases h

/-- On to a phase before the users are counted. -/
theorem quiet_before {new : Phase} (hlock : new.lock = none) (hmay : new.mayWrite = false)
    (hreply : old.reply = none) : Quiet env s old new where
  lock _ h := by rw [hlock] at h; cases h
  mayWrite h := by rw [hmay] at h; cases h
  reply _ h := by rw [hreply] at h; cases h

/-- On from one phase after the count to the next. -/
theorem quiet_next {new : Phase} (hlock : new.lock = old.lock) (hmay : old.mayWrite = true)
    (hreply : old.reply = none) : Quiet env s old new where
  lock since h := by rw [← hlock]; exact h
  mayWrite _ := Or.inl ⟨hmay, hlock⟩
  reply _ h := by rw [hreply] at h; cases h

end Quiet

theorem acts_of_act {env : Environment} {s : State} {request : Nat} {answer : Answer}
    {phase : Phase} {effect : Effect} (h : act env s request answer = some (phase, effect)) :
    Acts env s request (s.phase request) phase effect := by
  unfold act at h
  generalize s.phase request = old at h ⊢
  generalize answer.fault = fault at h
  cases old with
  | start =>
    cases fault with
    | some fault =>
      cases h
      exact .quiet (quiet_finish none _ rfl rfl)
    | none =>
      simp only at h
      split_ifs at h with hoff hcaptcha hlimit
      · cases h
        exact .quiet (quiet_finish none _ rfl rfl)
      · cases h
        exact .quiet (quiet_finish none _ rfl rfl)
      · split at h
        · cases h
          exact .quiet (quiet_finish none _ rfl rfl)
        · cases h
          exact .quiet (quiet_before rfl rfl rfl)
      · split at h
        · cases h
          exact .quiet (quiet_finish none _ rfl rfl)
        · cases h
          exact .quiet ⟨nofun, fun _ => Or.inr (Or.inr (Int.not_lt.mp hlimit)), nofun⟩
  | asking form turn =>
    cases fault with
    | some fault =>
      cases h
      split_ifs
      · exact .lost ⟨rfl, rfl⟩
      · exact .quiet (quiet_finish none _ rfl rfl)
    | none =>
      simp only at h
      split_ifs at h with hfree hturn
      · cases h
        exact .acquired ⟨rfl, rfl⟩ hfree
      · cases h
        exact .quiet (quiet_before rfl rfl rfl)
      · cases h
        exact .quiet (quiet_finish none _ rfl rfl)
  | counting form since =>
    cases fault with
    | some fault =>
      cases h
      exact .quiet (quiet_finish _ _ rfl rfl)
    | none =>
      simp only at h
      split_ifs at h with hfull
      · cases h
        exact .quiet (quiet_finish _ _ rfl rfl)
      · cases h
        exact .quiet
          ⟨fun _ h => h, fun _ => Or.inr (Or.inl ⟨since, rfl, Int.not_lt.mp hfull⟩), nofun⟩
  | checkingName form lock =>
    cases fault with
    | some fault =>
      cases h
      exact .quiet (quiet_finish _ _ rfl rfl)
    | none =>
      simp only at h
      split_ifs at h
      · cases h
        exact .quiet (quiet_finish _ _ rfl rfl)
      · cases h
        exact .quiet (quiet_next rfl rfl rfl)
  | checkingEmail form lock =>
    cases fault with
    | some fault =>
      cases h
      exact .quiet (quiet_finish _ _ rfl rfl)
    | none =>
      simp only at h
      split_ifs at h
      · cases h
        exact .quiet (quiet_finish _ _ rfl rfl)
      · cases h
        exact .quiet (quiet_next rfl rfl rfl)
  | readingFields form lock =>
    cases fault with
    | some fault =>
      cases h
      exact .quiet (quiet_finish _ _ rfl rfl)
    | none =>
      simp only at h
      split at h
      · cases h
        exact .quiet (quiet_finish _ _ rfl rfl)
      · cases h
        exact .quiet (quiet_next rfl rfl rfl)
  | saving form lock entries =>
    cases fault with
    | some fault =>
      cases h
      exact .quiet (quiet_finish _ _ rfl rfl)
    | none =>
      cases h
      split_ifs
      · exact .quiet (quiet_next rfl rfl rfl)
      · exact .quiet (quiet_next rfl rfl rfl)
  | savingEntries form lock entries =>
    cases fault with
    | some fault =>
      cases h
      exact .quiet (quiet_finish _ _ rfl rfl)
    | none =>
      cases h
      exact .quiet (quiet_next rfl rfl rfl)
  | committing form lock entries =>
    cases fault with
    | some fault =>
      cases h
      split_ifs
      · exact .written rfl
      · exact .quiet (quiet_finish _ _ rfl rfl)
    | none =>
      cases h
      exact .written rfl
  | releasing since reply =>
    cases fault with
    | some fault =>
      cases h
      split_ifs
      · exact .released rfl
      · exact .quiet ⟨nofun, nofun, fun _ h => h⟩
    | none =>
      cases h
      exact .released rfl
  | done reply => cases fault <;> cases h

theorem currentUsers_write (env : Environment) (s : State) (request : Nat) (form : Form)
    (entries : List NewEntry) :
    ((Effect.write form entries).apply env s request).currentUsers = s.currentUsers + 1 := by
  simp [State.currentUsers, Effect.apply, Table.add, Table.insert, isCounted]

/-! ### The limit -/

/-- A lease that has not run out is that of the request that holds the lock. -/
def HeldBy (locks : Expiring.Store String Nat) (now : Int) (r : Nat) (phase : Phase) : Prop :=
  ∀ since, phase.lock = some since → now < since + lease →
    locks.cell registrationLimitLockKey = some ⟨r, some (since + lease)⟩

/-- While the lease runs, the room for one more user that the request has seen is there. -/
def RoomFor (env : Environment) (currentUsers now : Int) (phase : Phase) : Prop :=
  ∀ since, phase.mayWrite = true → phase.lock = some since → now < since + lease →
    currentUsers + 1 ≤ env.numUsersLimit

structure Inv (env : Environment) (s : State) : Prop where
  count : s.currentUsers ≤ env.numUsersLimit
  held : ∀ r, HeldBy s.locks s.now r (s.phase r)
  room : ∀ r, RoomFor env s.currentUsers s.now (s.phase r)
  locked : ∀ r, (s.phase r).mayWrite = true → (s.phase r).lock ≠ none

variable {env : Environment} {s t : State}

/-- Two leases do not run at once. -/
theorem Inv.exclusive (h : Inv env s) {r r' : Nat} {since since' : Int}
    (hlock : (s.phase r).lock = some since) (hlive : s.now < since + lease)
    (hlock' : (s.phase r').lock = some since') (hlive' : s.now < since' + lease) : r = r' := by
  have hcell := (h.held r since hlock hlive).symm.trans (h.held r' since' hlock' hlive')
  exact congrArg Expiring.Cell.value (Option.some.inj hcell)

theorem find_of_held {r : Nat} {deadline : Int}
    (hcell : s.locks.cell registrationLimitLockKey = some ⟨r, some deadline⟩)
    (hlive : s.now < deadline) :
    s.locks.find s.now registrationLimitLockKey = some ⟨r, some deadline⟩ :=
  Expiring.Store.find_eq_some.mpr ⟨hcell, by simpa using hlive⟩

/-- The lock is not free while a lease runs. -/
theorem Inv.not_free (h : Inv env s) {r : Nat} {since : Int}
    (hlock : (s.phase r).lock = some since) (hlive : s.now < since + lease) (request : Nat) :
    Lease.acquire s.locks s.now registrationLimitLockKey request lease = (false, s.locks) := by
  have hfind := find_of_held (h.held r since hlock hlive) hlive
  rw [Lease.acquire, if_pos (Expiring.Store.contains_iff.mpr ⟨_, hfind⟩)]

/-- The invariant, when the phase of a request has changed and the lock and the rows may have. -/
theorem inv_of_update {request : Nat} {phase : Phase} {u : State}
    (hphase : u.phase = Function.update s.phase request phase) (h : Inv env s)
    (hcount : u.currentUsers ≤ env.numUsersLimit)
    (hheld : HeldBy u.locks u.now request phase)
    (hroom : RoomFor env u.currentUsers u.now phase)
    (hlocked : phase.mayWrite = true → phase.lock ≠ none)
    (hothers : ∀ r, r ≠ request → HeldBy u.locks u.now r (s.phase r) ∧
      RoomFor env u.currentUsers u.now (s.phase r)) : Inv env u where
  count := hcount
  held := by
    rw [hphase]
    exact (Function.forall_update_iff s.phase fun r phase => HeldBy u.locks u.now r phase).mpr
      ⟨hheld, fun r hr => (hothers r hr).1⟩
  room := by
    rw [hphase]
    exact (Function.forall_update_iff s.phase
      fun _ phase => RoomFor env u.currentUsers u.now phase).mpr
        ⟨hroom, fun r hr => (hothers r hr).2⟩
  locked := by
    rw [hphase]
    exact (Function.forall_update_iff s.phase
      fun _ phase => phase.mayWrite = true → phase.lock ≠ none).mpr
        ⟨hlocked, fun r _ => h.locked r⟩

/-- A change of the lock that takes no running lease away, and goes with a phase that has no
lock, or has it just now. -/
theorem inv_of_locks (h : Inv env s) {request : Nat} {phase : Phase}
    {locks : Expiring.Store String Nat} (hmay : phase.mayWrite = false)
    (hkept : ∀ r since, r ≠ request → (s.phase r).lock = some since → s.now < since + lease →
      locks.cell registrationLimitLockKey = s.locks.cell registrationLimitLockKey)
    (hnew : ∀ since, phase.lock = some since →
      locks.cell registrationLimitLockKey = some ⟨request, some (since + lease)⟩) :
    Inv env { s with locks := locks, phase := Function.update s.phase request phase } := by
  refine inv_of_update rfl h h.count (fun since hlock _ => hnew since hlock) ?_ ?_ ?_
  · intro since hwrite
    rw [hmay] at hwrite
    cases hwrite
  · intro hwrite
    rw [hmay] at hwrite
    cases hwrite
  · intro r hr
    refine ⟨fun since hlock hlive => ?_, h.room r⟩
    exact (hkept r since hr hlock hlive).trans (h.held r since hlock hlive)

theorem inv_quiet (h : Inv env s) (hlimit : 0 < env.numUsersLimit) {request : Nat} {phase : Phase}
    (hquiet : Quiet env s (s.phase request) phase) :
    Inv env { s with phase := Function.update s.phase request phase } := by
  have hbefore : phase.mayWrite = true → (s.phase request).mayWrite = true ∧
      phase.lock = (s.phase request).lock ∨
        ∃ since, phase.lock = some since ∧ s.currentUsers + 1 ≤ env.numUsersLimit := by
    intro hwrite
    rcases hquiet.mayWrite hwrite with hold | hroom | hnone
    · exact Or.inl hold
    · exact Or.inr hroom
    · omega
  refine inv_of_update rfl h h.count ?_ ?_ ?_ fun r _ => ⟨h.held r, h.room r⟩
  · intro since hlock hlive
    exact h.held request since (hquiet.lock since hlock) hlive
  · intro since hwrite hlock hlive
    rcases hbefore hwrite with ⟨hold, hsame⟩ | ⟨_, -, hroom⟩
    · exact h.room request since hold (hsame ▸ hlock) hlive
    · exact hroom
  · intro hwrite
    rcases hbefore hwrite with ⟨hold, hsame⟩ | ⟨since, hsince, -⟩
    · rw [hsame]
      exact h.locked request hold
    · rw [hsince]
      exact Option.some_ne_none since

theorem inv_written (h : Inv env s) {request : Nat} {form : Form} {lock : Option Int}
    {entries : List NewEntry} (reply : Reply)
    (hphase : s.phase request = .committing form lock entries)
    (hwithin : ∀ since ∈ (s.phase request).lock, s.now < since + lease) :
    Inv env { (Effect.write form entries).apply env s request with
      phase := Function.update s.phase request (finish lock reply) } := by
  have hmay : (s.phase request).mayWrite = true := by
    rw [hphase]
    rfl
  have hsame : (s.phase request).lock = lock := by
    rw [hphase]
    rfl
  obtain ⟨since, hlock⟩ := Option.ne_none_iff_exists'.mp (h.locked request hmay)
  have hlive := hwithin since hlock
  refine inv_of_update rfl h ?_ ?_ ?_ ?_ ?_
  · have hroom := h.room request since hmay hlock hlive
    have hcount := currentUsers_write env s request form entries
    change ((Effect.write form entries).apply env s request).currentUsers ≤ _
    omega
  · intro since' hlock' hlive'
    rw [lock_finish, ← hsame] at hlock'
    exact h.held request since' hlock' hlive'
  · intro since' hwrite
    rw [mayWrite_finish] at hwrite
    cases hwrite
  · intro hwrite
    rw [mayWrite_finish] at hwrite
    cases hwrite
  · intro r hr
    refine ⟨h.held r, fun since' _ hlock' hlive' => ?_⟩
    exact absurd (h.exclusive hlock' hlive' hlock hlive) hr

theorem inv_step (h : Inv env s) (hlimit : 0 < env.numUsersLimit) {event : Event}
    (hwithin : WithinLease s event) (hstep : step env s event = some t) : Inv env t := by
  cases event with
  | tick milliseconds =>
    cases hstep
    have hlater : ∀ since, s.now + milliseconds < since + lease → s.now < since + lease := by
      intro since hlive
      omega
    exact ⟨h.count, fun r since hlock hlive => h.held r since hlock (hlater since hlive),
      fun r since hwrite hlock hlive => h.room r since hwrite hlock (hlater since hlive), h.locked⟩
  | run request answer =>
    obtain ⟨⟨phase, effect⟩, hact, rfl⟩ := Option.map_eq_some_iff.mp hstep
    cases hacts : acts_of_act hact with
    | quiet hquiet => exact inv_quiet h hlimit hquiet
    | acquired hold hfree =>
      refine inv_of_locks h rfl ?_ ?_
      · intro r since _ hlock hlive
        rw [h.not_free hlock hlive] at hfree
        cases hfree
      · intro since hsince
        cases hsince
        have htaken : (Lease.acquire s.locks s.now registrationLimitLockKey request lease).2 =
            s.locks.setEx s.now registrationLimitLockKey lease request := by
          unfold Lease.acquire at hfree ⊢
          split_ifs at hfree ⊢
          rfl
        change (Lease.acquire s.locks s.now registrationLimitLockKey request lease).2.cell _ = _
        rw [htaken]
        simp [Expiring.Store.setEx]
    | lost hold =>
      refine inv_of_locks h rfl ?_ ?_
      · intro r since _ hlock hlive
        change (Lease.acquire s.locks s.now registrationLimitLockKey request lease).2.cell _ = _
        rw [h.not_free hlock hlive]
      · intro since hsince
        cases hsince
    | released hold =>
      refine inv_of_locks h rfl ?_ ?_
      · intro r since hr hlock hlive
        have hcell := h.held r since hlock hlive
        have hget : s.locks.get s.now registrationLimitLockKey ≠ some request := by
          rw [Expiring.Store.get, find_of_held hcell hlive]
          exact fun heq => hr (Option.some.inj heq)
        change (Lease.release s.locks s.now registrationLimitLockKey request).cell _ = _
        rw [Lease.release, if_neg hget]
      · intro since hsince
        cases hsince
    | written hold => exact inv_written h _ hold hwithin

/-! ### What a failure leaves -/

/-- The registration that has made a user, by the id of the user. -/
abbrev Authors := Nat → Option Nat

def observe (env : Environment) (authors : Authors) (s : State) (event : Event) (_ : State) :
    Authors :=
  match event with
  | .tick _ => authors
  | .run request answer =>
    match act env s request answer with
    | some (_, .write _ _) => Function.update authors s.users.nextKey (some request)
    | _ => authors

/-- Every row is an old one, or one of a registration that replies with success. -/
structure Clean (start : State) (t : State × Authors) : Prop where
  users : ∀ u ∈ t.1.users.rows, u ∈ start.users.rows ∨ (t.2 u.id).isSome = true
  fieldEntries : ∀ e ∈ t.1.fieldEntries.rows, e ∈ start.fieldEntries.rows ∨
    ∃ id, e.userId = some id ∧ (t.2 id).isSome = true
  reply : ∀ id r, t.2 id = some r → (t.1.phase r).reply = some .ok

theorem reply_kept {request : Nat} {old new : Phase} {effect : Effect}
    (h : Acts env s request old new effect) {reply : Reply} (hreply : old.reply = some reply) :
    new.reply = some reply := by
  cases h with
  | quiet hquiet => exact hquiet.reply reply hreply
  | acquired hold _ =>
    rw [hold.2] at hreply
    cases hreply
  | lost hold =>
    rw [hold.2] at hreply
    cases hreply
  | released hold =>
    subst hold
    exact hreply
  | written hold =>
    subst hold
    cases hreply

theorem mem_addEntries {entries : List NewEntry} {table : Table FieldEntry.id} {userId : Nat}
    {e : FieldEntry} (h : e ∈ (entries.foldl (fun table entry => table.add (fun id => ({
      id := id
      type := some "user"
      fieldId := some entry.fieldId
      userId := some userId
      value := entry.value } : FieldEntry)) fun _ => rfl) table).rows) :
    e ∈ table.rows ∨ e.userId = some userId := by
  induction entries generalizing table with
  | nil => exact Or.inl h
  | cons entry entries ih =>
    rw [List.foldl_cons] at h
    rcases ih h with hmem | huser
    · rcases Table.mem_add.mp hmem with hmem | rfl
      · exact Or.inl hmem
      · exact Or.inr rfl
    · exact Or.inr huser

theorem act_committing {request : Nat} {answer : Answer} {form : Form} {lock : Option Int}
    {entries : List NewEntry} (h : s.phase request = .committing form lock entries) :
    act env s request answer =
      match answer.fault with
      | none => some (finish lock .ok, .write form entries)
      | some fault =>
        some (finish lock fault.reply,
          if answer.carriedOut then .write form entries else .nothing) := by
  unfold act
  rw [h]
  cases answer.fault <;> rfl

theorem reply_fault_ne_ok (fault : Fault) : fault.reply ≠ .ok := by
  cases fault with
  | other => exact nofun
  | dbUpdate dbError =>
    simp only [Fault.reply]
    split_ifs <;> exact nofun

/-- A commit that is carried out and answered leads to success. -/
theorem reply_of_write {request : Nat} {answer : Answer} {phase : Phase} {form : Form}
    {entries : List NewEntry} (hanswered : CommitAnswered s (.run request answer))
    (h : act env s request answer = some (phase, .write form entries)) :
    phase.reply = some .ok := by
  cases acts_of_act h with
  | written hold =>
    rw [act_committing hold] at h
    cases hfault : answer.fault with
    | none =>
      rw [hfault] at h
      obtain ⟨hphase, -⟩ := Prod.mk.inj (Option.some.inj h)
      rw [← hphase, reply_finish]
    | some fault =>
      have hcommits : (s.phase request).commits = true := by
        rw [hold]
        rfl
      have hkept : answer.carriedOut = false := by
        rcases hanswered hcommits with hnone | hkept
        · rw [hfault] at hnone
          cases hnone
        · exact hkept
      rw [hfault, hkept] at h
      cases (Prod.mk.inj (Option.some.inj h)).2

theorem clean_step {start : State} {p q : State × Authors} {event : Event}
    (h : Clean start p) (hanswered : CommitAnswered p.1 event)
    (hstep : Run.monitored (step env) (observe env) p event = some q) :
    Clean start q := by
  obtain ⟨hnext, hobserve⟩ := Run.monitored_eq_some.mp hstep
  obtain ⟨s, authors⟩ := p
  obtain ⟨t, authors'⟩ := q
  cases event with
  | tick milliseconds =>
    cases hnext
    cases hobserve
    exact ⟨h.users, h.fieldEntries, h.reply⟩
  | run request answer =>
    obtain ⟨⟨phase, effect⟩, hact, rfl⟩ := Option.map_eq_some_iff.mp hnext
    have hacts := acts_of_act hact
    have hreply : ∀ id r, authors id = some r →
        (Function.update s.phase request phase r).reply = some .ok := by
      intro id r hauthor
      have hold := h.reply id r hauthor
      by_cases hr : r = request
      · subst hr
        rw [Function.update_self]
        exact reply_kept hacts hold
      · rw [Function.update_of_ne hr]
        exact hold
    have hquiet : (effect = .nothing ∨ effect = .acquire ∨ effect = .release) →
        Clean start ({ effect.apply env s request with
          phase := Function.update s.phase request phase }, authors') := by
      intro heffect
      have hsame : authors' = authors := by
        refine Eq.trans hobserve ?_
        rcases heffect with rfl | rfl | rfl <;> simp only [observe, hact]
      subst hsame
      rcases heffect with rfl | rfl | rfl <;> exact ⟨h.users, h.fieldEntries, hreply⟩
    cases hacts with
    | quiet _ => exact hquiet (Or.inl rfl)
    | acquired _ _ => exact hquiet (Or.inr (Or.inl rfl))
    | lost _ => exact hquiet (Or.inr (Or.inl rfl))
    | released _ => exact hquiet (Or.inr (Or.inr rfl))
    | @written form lock entries reply hold =>
      have hok := reply_of_write hanswered hact
      have hauthors : authors' = Function.update authors s.users.nextKey (some request) := by
        refine Eq.trans hobserve ?_
        simp only [observe, hact]
      have hkept : ∀ id, (authors id).isSome = true →
          (Function.update authors s.users.nextKey (some request) id).isSome = true := by
        intro id hid
        by_cases hnew : id = s.users.nextKey
        · subst hnew
          rw [Function.update_self]
          rfl
        · rw [Function.update_of_ne hnew]
          exact hid
      subst hauthors
      refine ⟨?_, ?_, ?_⟩
      · intro u hu
        rcases Table.mem_add.mp hu with hold | rfl
        · exact (h.users u hold).imp_right (hkept u.id)
        · refine Or.inr ?_
          simp
      · intro e he
        rcases mem_addEntries he with hold | huser
        · refine (h.fieldEntries e hold).imp_right ?_
          rintro ⟨id, hid, hauthor⟩
          exact ⟨id, hid, hkept id hauthor⟩
        · refine Or.inr ⟨_, huser, ?_⟩
          simp
      · intro id r hauthor
        change (Function.update s.phase request (finish lock reply) r).reply = some .ok
        by_cases hnew : id = s.users.nextKey
        · subst hnew
          dsimp only at hauthor
          rw [Function.update_self] at hauthor
          obtain rfl := Option.some.inj hauthor
          rw [Function.update_self]
          exact hok
        · dsimp only at hauthor
          rw [Function.update_of_ne hnew] at hauthor
          exact hreply id r hauthor

/-- The commit that is carried out and whose reply is lost leaves rows of a registration that
reports a failure. -/
theorem clean_step_iff {start : State} {p : State × Authors} {event : Event} (h : Clean start p) :
    (∀ q, Run.monitored (step env) (observe env) p event = some q → Clean start q) ↔
      CommitAnswered p.1 event := by
  refine ⟨?_, fun hanswered q hstep => clean_step h hanswered hstep⟩
  intro hall
  cases event with
  | tick milliseconds => trivial
  | run request answer =>
    intro hcommits
    by_contra hlost
    rw [not_or, Bool.not_eq_false] at hlost
    obtain ⟨fault, hfault⟩ := Option.ne_none_iff_exists'.mp hlost.1
    cases hphase : p.1.phase request with
    | committing form lock entries =>
      have hact : act env p.1 request answer =
          some (finish lock fault.reply, .write form entries) := by
        rw [act_committing hphase, hfault, hlost.2]
        rfl
      have hstep : ∃ t, step env p.1 (.run request answer) = some t ∧
          t.phase request = finish lock fault.reply := by
        rw [step, hact, Option.map_some]
        exact ⟨_, rfl, Function.update_self ..⟩
      obtain ⟨t, ht, htphase⟩ := hstep
      have hclean := hall (t, observe env p.2 p.1 (.run request answer) t)
        (Run.monitored_eq_some.mpr ⟨ht, rfl⟩)
      have hauthor : observe env p.2 p.1 (.run request answer) t p.1.users.nextKey =
          some request := by
        simp only [observe, hact, Function.update_self]
      have hok := hclean.reply _ request hauthor
      rw [htphase, reply_finish] at hok
      exact reply_fault_ne_ok fault (Option.some.inj hok)
    | _ =>
      rw [hphase] at hcommits
      cases hcommits

theorem clean_run_iff (env : Environment) (start : State) (events : List Event) :
    (∀ t ∈ Run.visited (Run.monitored (step env) (observe env)) (start, fun _ => none) events,
        Clean start t) ↔
      Run.Meets (step env) CommitAnswered start events := by
  have hclean : Clean start (start, fun _ => none) :=
    ⟨fun u hu => Or.inl hu, fun e he => Or.inl he, fun id r h => by cases h⟩
  rw [← Run.meets_monitored (observe env) fun _ => none]
  apply Run.forall_visited_iff_meets (I := fun _ => True) _ _ events trivial hclean
  · intro _ _ _ _ _
    trivial
  · intro p event _ h
    exact clean_step_iff h

/-- In a run of registrations that end within their leases there are never more users than the
limit, if there were not more before; and a registration that reports a failure leaves no row all
along the run if and only if no reply of a commit that is carried out is lost. -/
theorem registration_limit (env : Environment) (hlimit : 0 < env.numUsersLimit) (start : State)
    (hstart : ∀ r, start.phase r = .start)
    (hcount : start.currentUsers ≤ env.numUsersLimit) (events : List Event)
    (hwithin : Run.Meets (step env) WithinLease start events) :
    (∀ t ∈ Run.visited (step env) start events, t.currentUsers ≤ env.numUsersLimit) ∧
      ((∀ t ∈ Run.visited (Run.monitored (step env) (observe env)) (start, fun _ => none) events,
          Clean start t) ↔
        Run.Meets (step env) CommitAnswered start events) := by
  have hinv : Inv env start := by
    refine ⟨hcount, ?_, ?_, ?_⟩ <;> intro r <;> rw [hstart r] <;> exact nofun
  constructor
  · intro t ht
    exact (hwithin.forall_visited (fun s a t h hcond hstep => inv_step h hlimit hcond hstep) hinv
      t ht).count
  · exact clean_run_iff env start events

/-- A contest for one user, with the same form from everybody. -/
def forOne : Environment where
  platform :=
    { collation := .ignoreCase
      lower := String.toLower
      toLower := String.toLower
      toLowerInvariant := String.toLower
      isUpper := Char.isUpper
      isLower := Char.isLower
      isDigit := Char.isDigit
      hashPassword := id
      serializeText := id }
  numUsersLimit := 1
  request _ := ⟨some "ann", some "a@b.c", some "Aa1!aaaa", some "Aa1!aaaa", none⟩

/-- Two requests: the second asks for the lock while the first has it, and again later. -/
def twoRequests : List Event :=
  [.run 0 {}, .run 1 {}, .run 0 {}, .run 1 {}, .tick 100, .run 0 {}, .run 0 {}, .run 0 {},
    .run 0 {}, .run 0 {}, .run 0 {}, .run 0 {}, .run 1 {}, .run 1 {}, .run 1 {}]

theorem one_registered :
    (∀ t ∈ Run.visited (step forOne) {} twoRequests, t.currentUsers ≤ 1) ∧
      ∀ t ∈ Run.visited (Run.monitored (step forOne) (observe forOne)) ({}, fun _ => none)
        twoRequests, Clean {} t :=
  (registration_limit forOne (by decide) {} (fun _ => rfl) (by decide) twoRequests
    (by decide +kernel)).imp_right fun hiff => hiff.mpr (by decide +kernel)

/-- The reply of the commit is lost. -/
def lostCommit : List Event :=
  [.run 0 {}, .run 0 {}, .run 0 {}, .run 0 {}, .run 0 {}, .run 0 {}, .run 0 {},
    .run 0 { fault := some .other, carriedOut := true }]

theorem registered_in_secret :
    ¬ ∀ (env : Environment) (start : State), 0 < env.numUsersLimit →
      (∀ r, start.phase r = .start) → start.currentUsers ≤ env.numUsersLimit →
      ∀ events, Run.Meets (step env) WithinLease start events →
        (∀ t ∈ Run.visited (step env) start events, t.currentUsers ≤ env.numUsersLimit) ∧
        ∀ t ∈ Run.visited (Run.monitored (step env) (observe env)) (start, fun _ => none) events,
          Clean start t := by
  intro hall
  have hrun := (hall forOne {} (by decide) (fun _ => rfl) (by decide) lostCommit
    (by decide +kernel)).2
  rw [clean_run_iff] at hrun
  revert hrun
  decide +kernel

end Fctf.Registration
