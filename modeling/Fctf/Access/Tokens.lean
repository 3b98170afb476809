import Fctf.Lib.Expiring
import Fctf.Lib.Run
import Fctf.Text

/-!
The access tokens of one user: `LoginContestant`, `Logout`, `ChangePassword` and
`TokenAuthenticationMiddleware`, one operation on the database or on Redis at a time. A login
puts the uuid of its JWT into the user's row of `tokens`; the middleware looks the uuid up
there, and the user's attributes in the cache or in the database.
-/

namespace Fctf

open Expiring Run

/-- The columns of the user and of the team that the middleware checks. -/
structure AuthInfo where
  teamId : Option Int := some 1
  verified : Option Bool := some true
  banned : Option Bool := some false
  hidden : Option Bool := some false
  teamBanned : Option Bool := some false
  deriving DecidableEq

/-- `AuthInfoCacheDTO`, the value of the key `auth:user:{id}`. -/
structure AuthInfoCacheDTO where
  tokenValueFromDb : Option Nat
  info : AuthInfo
  deriving DecidableEq

/-- A row of `tokens` of the user, of the type "user". -/
structure TokenRow where
  id : Nat
  value : Option Nat
  expiration : Option Int
  description : Option String := none
  deriving DecidableEq

/-- The claims of a JWT that `CreateToken` signs. -/
structure Jwt where
  tokenUuid : Nat
  teamId : Int
  created : Int
  deriving DecidableEq

structure Contestant where
  password : String
  type : Option String := some "user"
  hasTeam : Bool := true
  info : AuthInfo := {}
  deriving DecidableEq

structure ChangePasswordDTO where
  oldPassword : Option String
  newPassword : Option String
  confirmPassword : Option String

/-- What the services use: the query for a user name, the password hash with its salt, and the
classes of characters. -/
structure AuthPlatform extends CharKinds where
  findsUser : String → Bool
  verifyPassword : String → String → Bool
  hashPassword : String → String → String

/-- A day, in milliseconds. -/
def day : Int := 86400000

inductive TokenJob
  | loginTokens (jwt : Jwt)
  | loginSave (jwt : Jwt) (existing : Option Nat)
  | passwordTokens (hash : String)
  | logoutTokens
  | revoke (password : Option String) (ids : List Nat)
  | dropCache
  | requestCache (jwt : Jwt)
  | requestInfo (jwt : Jwt)
  | fillCache (jwt : Jwt) (info : AuthInfo)
  deriving DecidableEq

structure TokenSite where
  now : Int
  user : Contestant
  tokens : List TokenRow
  nextId : Nat
  cache : Option (Cell AuthInfoCacheDTO)
  issued : List Jwt
  nextUuid : Nat
  jobs : List TokenJob

inductive TokenAction
  | tick (milliseconds : Nat)
  | login (username password : Option String) (captchaValid : Bool)
  | changePassword (dto : ChangePasswordDTO) (salt : String)
  | logout
  | request (jwt : Jwt)
  /-- The next operation of a job, which Redis or the database may refuse. -/
  | advance (i : Nat) (done : Bool)
  | crash (i : Nat)

section Checks

variable (platform : AuthPlatform)

/-- The checks of `LoginContestant`: the text of the failure, if any. -/
def Contestant.loginFailure (u : Contestant) (username password : Option String)
    (captchaValid : Bool) : Option String :=
  let username := (username.map trim).getD ""
  let password := (password.map trim).getD ""
  if username = "" ∨ password = "" then some "Missing username or password"
  else if !captchaValid then some "Captcha validation failed"
  else if !platform.findsUser username || u.type != some "user" then
    some "Invalid username or password"
  else if u.info.verified = some false then some "Your account is not verified yet"
  else if !platform.verifyPassword password u.password then some "Invalid username or password"
  else if u.info.hidden.getD false || u.info.banned.getD false then
    some "Your account is not allowed"
  else if !u.hasTeam then some "You don't have a team yet"
  else if u.info.teamBanned.getD false then some "Your team has been banned"
  else none

/-- The checks of `ChangePassword`: the text of the failure, or the new password. -/
def Contestant.changedPassword (u : Contestant) (dto : ChangePasswordDTO) :
    Except String String :=
  let oldPassword := (dto.oldPassword.map trim).getD ""
  let newPassword := (dto.newPassword.map trim).getD ""
  let confirmPassword := (dto.confirmPassword.map trim).getD ""
  if oldPassword = "" ∨ newPassword = "" ∨ confirmPassword = "" then
    .error "All password fields are required"
  else if newPassword ≠ confirmPassword then
    .error "New password and confirm password do not match"
  else if oldPassword = newPassword then
    .error "New password must be different from current password"
  else if !platform.isValidPasswordPolicy newPassword then
    .error ("New password must be 8-20 characters and include uppercase, lowercase, number, " ++
      "and special character")
  else if !platform.verifyPassword oldPassword u.password then
    .error "Old password is incorrect"
  else .ok newPassword

/-- The middleware's checks of the attributes, cached or not. -/
def AuthInfo.refusal (info : AuthInfo) (jwt : Jwt) : Option (Nat × String) :=
  if info.teamId.getD 0 ≠ jwt.teamId then some (401, "Invalid user token.")
  else if info.verified ≠ some true then some (403, "Account not verified.")
  else if info.banned = some true then some (403, "Account banned.")
  else if info.hidden = some true then some (403, "Account hidden.")
  else if info.teamBanned = some true then some (403, "Your team has been banned.")
  else none

end Checks

namespace TokenSite

/-- ASP.NET Core's check of the lifetime: seven days, and the five minutes of the clock skew. -/
def lives (s : TokenSite) (jwt : Jwt) : Bool := s.now ≤ jwt.created + 7 * day + 300000

/-- The middleware's query for the token. -/
def hasToken (s : TokenSite) (jwt : Jwt) : Bool :=
  s.tokens.any fun row => row.value = some jwt.tokenUuid

/-- The cached attributes, unless they are those of another login. -/
def cached (s : TokenSite) (jwt : Jwt) : Option AuthInfo :=
  ((s.cache.filter fun c => decide (c.Live s.now)).map Cell.value).filter
    (fun dto => dto.tokenValueFromDb = some jwt.tokenUuid) |>.map AuthInfoCacheDTO.info

def ids (s : TokenSite) : List Nat := s.tokens.map TokenRow.id

/-- Saving the changes fails when a row that is to be changed is gone. -/
def present (s : TokenSite) (ids : List Nat) : Bool := ids.all fun id => decide (id ∈ s.ids)

/-- `GenerateUserToken` and the saving of its changes. -/
def saveToken (s : TokenSite) (jwt : Jwt) : Option Nat → TokenSite
  | some id =>
    { s with tokens := s.tokens.map fun row =>
        if row.id = id then
          { row with
            value := some jwt.tokenUuid
            expiration := some (jwt.created + day)
            description := some "Login token" }
        else row }
  | none =>
    { s with
      tokens := s.tokens ++
        [⟨s.nextId, some jwt.tokenUuid, some (jwt.created + day), some "Login token"⟩]
      nextId := s.nextId + 1 }

def revokeTokens (s : TokenSite) (password : Option String) (ids : List Nat) : TokenSite :=
  { s with
    user := { s.user with password := password.getD s.user.password }
    tokens := s.tokens.filter fun row => decide (row.id ∉ ids) }

/-- The next operation of a job, and the jobs that go on from there. -/
def perform (s : TokenSite) (done : Bool) : TokenJob → TokenSite × List TokenJob
  | .loginTokens jwt => (s, if done then [.loginSave jwt s.ids.head?] else [])
  | .loginSave jwt existing =>
    if done && s.present existing.toList then (s.saveToken jwt existing, [.dropCache]) else (s, [])
  | .passwordTokens hash => (s, if done then [.revoke (some hash) s.ids] else [])
  | .logoutTokens =>
    (s, if !done then [] else if s.ids = [] then [.dropCache] else [.revoke none s.ids])
  | .revoke password ids =>
    if done && s.present ids then (s.revokeTokens password ids, [.dropCache]) else (s, [])
  | .dropCache => (if done then { s with cache := none } else s, [])
  | .requestCache jwt =>
    (s, if (s.cached jwt).isSome && done then [] else [.requestInfo jwt])
  | .requestInfo jwt =>
    (s, if done && s.hasToken jwt && (s.user.info.refusal jwt).isNone then
      [.fillCache jwt s.user.info] else [])
  | .fillCache jwt info =>
    (if done then { s with cache := some ⟨⟨some jwt.tokenUuid, info⟩, some (s.now + 60000)⟩ }
      else s, [])

/-- The token with which the operation of a job lets a request through. -/
def accepts (s : TokenSite) (done : Bool) : TokenJob → Option Jwt
  | .requestCache jwt =>
    if done && (s.cached jwt).any fun info => (info.refusal jwt).isNone then some jwt else none
  | .fillCache jwt _ => some jwt
  | _ => none

/-- The operation of a job commits a logout or a password change. -/
def revokes (s : TokenSite) (done : Bool) : TokenJob → Bool
  | .revoke _ ids => done && s.present ids
  | .logoutTokens => done && decide (s.ids = [])
  | _ => false

def goOn (s : TokenSite) (i : Nat) (next : List TokenJob) : TokenSite :=
  { s with jobs := s.jobs.eraseIdx i ++ next }

def spawn (s : TokenSite) (job : TokenJob) : TokenSite := { s with jobs := s.jobs ++ [job] }

section Steps

variable (platform : AuthPlatform)

/-- `CreateToken` for the login's new uuid. -/
def createToken (s : TokenSite) : Jwt := ⟨s.nextUuid, s.user.info.teamId.getD 0, s.now⟩

def step (s : TokenSite) : TokenAction → Option TokenSite
  | .tick milliseconds => some { s with now := s.now + milliseconds }
  | .login username password captchaValid =>
    some (if s.user.loginFailure platform username password captchaValid = none then
      { s with issued := s.createToken :: s.issued, nextUuid := s.nextUuid + 1 }.spawn
        (.loginTokens s.createToken)
      else s)
  | .changePassword dto salt =>
    some (match s.user.changedPassword platform dto with
      | .error _ => s
      | .ok newPassword => s.spawn (.passwordTokens (platform.hashPassword salt newPassword)))
  | .logout => some (s.spawn .logoutTokens)
  | .request jwt =>
    if jwt ∈ s.issued ∧ s.lives jwt = true then
      some (if s.hasToken jwt then s.spawn (.requestCache jwt) else s)
    else none
  | .advance i done => do
    let job ← s.jobs[i]?
    some ((s.perform done job).1.goOn i (s.perform done job).2)
  | .crash i => s.jobs[i]?.map fun _ => s.goOn i []

end Steps

/-- What a request by itself is decided by, at one moment: the token and the attributes. -/
def acceptable (s : TokenSite) (jwt : Jwt) : Bool :=
  decide (jwt ∈ s.issued) && s.lives jwt && s.hasToken jwt &&
    (((s.cached jwt).getD s.user.info).refusal jwt).isNone

end TokenSite

/-- The history: the uuids below `revoked` were issued before the last logout or password change
committed; `accepted` is the token of the request that was just let through; `saved` has every
row that was ever stored. -/
structure TokenHistory where
  revoked : Nat
  accepted : Option Jwt
  saved : List TokenRow
  deriving DecidableEq

namespace TokenSite

/-- The token with which a step lets a request through. -/
def accepted (s : TokenSite) : TokenAction → Option Jwt
  | .advance i done => s.jobs[i]?.bind (s.accepts done)
  | _ => none

/-- The step commits a logout or a password change. -/
def commits (s : TokenSite) : TokenAction → Bool
  | .advance i done => s.jobs[i]?.any (s.revokes done)
  | _ => false

def observe (h : TokenHistory) (s : TokenSite) (a : TokenAction) (t : TokenSite) :
    TokenHistory where
  revoked := if s.commits a then s.nextUuid else h.revoked
  accepted := s.accepted a
  saved := t.tokens ++ h.saved

/-- No login has issued a token yet, and nothing is under way. -/
structure Fresh (s : TokenSite) : Prop where
  issued : s.issued = []
  jobs : s.jobs = []
  nodup : s.ids.Nodup
  stored : ∀ row ∈ s.tokens, row.id < s.nextId ∧ ∀ uuid ∈ row.value, uuid < s.nextUuid

def noHistory (s : TokenSite) : TokenHistory := ⟨s.nextUuid, none, s.tokens⟩

/-- The token is accepted now: a request is let through with it, or would be. -/
def Accepted (p : TokenSite × TokenHistory) (jwt : Jwt) : Prop :=
  p.2.accepted = some jwt ∨ p.1.acceptable jwt = true

structure Safe (p : TokenSite × TokenHistory) : Prop where
  one : ∀ jwt other, Accepted p jwt → Accepted p other → jwt.tokenUuid = other.tokenUuid
  current : ∀ jwt, Accepted p jwt → p.2.revoked ≤ jwt.tokenUuid
  unexpired : ∀ jwt, p.2.accepted = some jwt → ∀ row ∈ p.2.saved,
    row.value = some jwt.tokenUuid → ∀ expiration ∈ row.expiration, p.1.now ≤ expiration

/-- The login that is saved found the row that there still is, or no row where there still is
none, and no logout or password change has committed since it verified the password. -/
def KeepsSave (p : TokenSite × TokenHistory) (jwt : Jwt) (existing : Option Nat) : Prop :=
  (existing = none → p.1.tokens = []) ∧ p.2.revoked ≤ jwt.tokenUuid

instance decidableKeepsSave (p : TokenSite × TokenHistory) (jwt : Jwt) (existing : Option Nat) :
    Decidable (KeepsSave p jwt existing) := inferInstanceAs (Decidable (_ ∧ _))

/-- Besides, no row has been stored since a password change found none, and a request is let
through within a day of its login and before its token's row is changed. -/
def KeepsJob (p : TokenSite × TokenHistory) (done : Bool) : TokenJob → Prop
  | .loginSave jwt existing =>
    done = true → p.1.present existing.toList = true → KeepsSave p jwt existing
  | .revoke _ ids => done = true → ids = [] → p.1.tokens = []
  | .requestCache jwt => p.1.accepts done (.requestCache jwt) = some jwt →
      p.1.hasToken jwt = true ∧ p.1.now ≤ jwt.created + day
  | .fillCache jwt _ => p.1.hasToken jwt = true ∧ p.1.now ≤ jwt.created + day
  | _ => True

instance decidableKeepsJob (p : TokenSite × TokenHistory) (done : Bool) (job : TokenJob) :
    Decidable (KeepsJob p done job) := by
  cases job <;> (delta KeepsJob; infer_instance)

def Keeps (p : TokenSite × TokenHistory) : TokenAction → Prop
  | .advance i done => ∀ job ∈ p.1.jobs[i]?, KeepsJob p done job
  | _ => True

instance decidableKeeps (p : TokenSite × TokenHistory) (a : TokenAction) :
    Decidable (Keeps p a) := by
  cases a <;> (delta Keeps; infer_instance)

/-! ### What a step keeps of the rows -/

/-- Row ids that were read: those of the present rows, or of rows that are all gone. -/
def Sees (s : TokenSite) (ids : List Nat) : Prop :=
  (∀ id ∈ ids, id < s.nextId) ∧ (ids = s.ids ∨ ∀ id ∈ ids, id ∉ s.ids)

def JobOk (s : TokenSite) : TokenJob → Prop
  | .loginTokens jwt | .requestCache jwt | .requestInfo jwt | .fillCache jwt _ => jwt ∈ s.issued
  | .loginSave jwt existing => jwt ∈ s.issued ∧ ∃ ids, existing = ids.head? ∧ s.Sees ids
  | .revoke _ ids => s.Sees ids
  | .passwordTokens _ | .logoutTokens | .dropCache => True

/-- Only the first row has the uuid of a login, one that is not revoked; a row with such a uuid
expires a day after the login. -/
structure Rows (p : TokenSite × TokenHistory) : Prop where
  issued_lt : ∀ jwt ∈ p.1.issued, jwt.tokenUuid < p.1.nextUuid
  issued_inj : ∀ jwt ∈ p.1.issued, ∀ other ∈ p.1.issued,
    jwt.tokenUuid = other.tokenUuid → jwt = other
  nodup : p.1.ids.Nodup
  ids_lt : ∀ id ∈ p.1.ids, id < p.1.nextId
  saved : ∀ row ∈ p.1.tokens, row ∈ p.2.saved
  values_lt : ∀ row ∈ p.2.saved, ∀ uuid ∈ row.value, uuid < p.1.nextUuid
  expires : ∀ row ∈ p.2.saved, ∀ jwt ∈ p.1.issued, row.value = some jwt.tokenUuid →
    row.expiration = some (jwt.created + day)
  first : ∀ row ∈ p.1.tokens.tail, ∀ jwt ∈ p.1.issued, row.value ≠ some jwt.tokenUuid
  current : ∀ row ∈ p.1.tokens, ∀ jwt ∈ p.1.issued, row.value = some jwt.tokenUuid →
    p.2.revoked ≤ jwt.tokenUuid
  revoked_le : p.2.revoked ≤ p.1.nextUuid

structure Inv (p : TokenSite × TokenHistory) : Prop where
  rows : Rows p
  jobs : ∀ job ∈ p.1.jobs, JobOk p.1 job
  accepted : ∀ jwt, p.2.accepted = some jwt →
    jwt ∈ p.1.issued ∧ p.1.hasToken jwt = true ∧ p.1.now ≤ jwt.created + day

section Proof

variable {s t : TokenSite} {h h' : TokenHistory} {job : TokenJob} {done : Bool}

theorem hasToken_iff {jwt : Jwt} :
    s.hasToken jwt = true ↔ ∃ row ∈ s.tokens, row.value = some jwt.tokenUuid := by
  simp [hasToken]

theorem present_iff {ids : List Nat} : s.present ids = true ↔ ∀ id ∈ ids, id ∈ s.ids := by
  simp [present]

/-- Two tokens that are stored are the same. -/
theorem Rows.unique (hrows : Rows (s, h)) {jwt other : Jwt} (hjwt : jwt ∈ s.issued)
    (hother : other ∈ s.issued) (hstored : s.hasToken jwt = true)
    (hstored' : s.hasToken other = true) : jwt.tokenUuid = other.tokenUuid := by
  obtain ⟨row, hrow, hvalue⟩ := hasToken_iff.mp hstored
  obtain ⟨row', hrow', hvalue'⟩ := hasToken_iff.mp hstored'
  have hfirst := hrows.first
  cases htokens : s.tokens with
  | nil =>
    rw [htokens] at hrow
    cases hrow
  | cons top rest =>
    simp only [htokens, List.tail_cons] at hfirst
    rw [htokens] at hrow hrow'
    obtain rfl : row = top := (List.mem_cons.mp hrow).resolve_right
      fun hrest => hfirst row hrest jwt hjwt hvalue
    obtain rfl : row' = row := (List.mem_cons.mp hrow').resolve_right
      fun hrest => hfirst row' hrest other hother hvalue'
    exact Option.some.inj (hvalue.symm.trans hvalue')

theorem Inv.stored (hinv : Inv (s, h)) {jwt : Jwt} (haccepted : Accepted (s, h) jwt) :
    jwt ∈ s.issued ∧ s.hasToken jwt = true := by
  rcases haccepted with hnow | hready
  · exact ⟨(hinv.accepted jwt hnow).1, (hinv.accepted jwt hnow).2.1⟩
  · simp only [acceptable, Bool.and_eq_true, decide_eq_true_eq] at hready
    exact ⟨hready.1.1.1, hready.1.2⟩

theorem Inv.safe (hinv : Inv (s, h)) : Safe (s, h) where
  one jwt other haccepted haccepted' := by
    obtain ⟨hissued, hstored⟩ := hinv.stored haccepted
    obtain ⟨hissued', hstored'⟩ := hinv.stored haccepted'
    exact hinv.rows.unique hissued hissued' hstored hstored'
  current jwt haccepted := by
    obtain ⟨hissued, hstored⟩ := hinv.stored haccepted
    obtain ⟨row, hrow, hvalue⟩ := hasToken_iff.mp hstored
    exact hinv.rows.current row hrow jwt hissued hvalue
  unexpired jwt haccepted row hrow hvalue expiration hexpiration := by
    obtain ⟨hissued, -, htime⟩ := hinv.accepted jwt haccepted
    rw [hinv.rows.expires row hrow jwt hissued hvalue] at hexpiration
    obtain rfl := Option.some.inj hexpiration
    exact htime

/-- The rows stay; a logout that finds none commits. -/
theorem Rows.same (hrows : Rows (s, h)) (htokens : t.tokens = s.tokens)
    (hid : t.nextId = s.nextId) (hissued : t.issued = s.issued) (huuid : t.nextUuid = s.nextUuid)
    (hsaved : h'.saved = t.tokens ++ h.saved)
    (hrevoked : h'.revoked = h.revoked ∨ s.tokens = [] ∧ h'.revoked = s.nextUuid) :
    Rows (t, h') := by
  have hold : ∀ row ∈ h'.saved, row ∈ h.saved := by
    intro row hrow
    rw [hsaved, htokens] at hrow
    exact (List.mem_append.mp hrow).elim (hrows.saved row) fun hrow => hrow
  have hids : t.ids = s.ids := congrArg (List.map TokenRow.id) htokens
  constructor
  · intro jwt hjwt
    exact huuid ▸ hrows.issued_lt jwt (hissued ▸ hjwt)
  · intro jwt hjwt other hother
    exact hrows.issued_inj jwt (hissued ▸ hjwt) other (hissued ▸ hother)
  · exact hids ▸ hrows.nodup
  · intro id hmem
    exact hid ▸ hrows.ids_lt id (hids ▸ hmem)
  · intro row hrow
    simp only
    rw [hsaved]
    exact List.mem_append_left _ hrow
  · intro row hrow uuid hvalue
    exact huuid ▸ hrows.values_lt row (hold row hrow) uuid hvalue
  · intro row hrow jwt hjwt
    exact hrows.expires row (hold row hrow) jwt (hissued ▸ hjwt)
  · intro row hrow jwt hjwt
    exact hrows.first row (htokens ▸ hrow) jwt (hissued ▸ hjwt)
  · intro row hrow jwt hjwt hvalue
    rcases hrevoked with hsame | ⟨hempty, -⟩
    · exact hsame ▸ hrows.current row (htokens ▸ hrow) jwt (hissued ▸ hjwt) hvalue
    · simp only [htokens, hempty] at hrow
      cases hrow
  · rcases hrevoked with hsame | ⟨-, hall⟩
    · exact hsame ▸ huuid ▸ hrows.revoked_le
    · exact Nat.le_of_eq (hall.trans huuid.symm)

/-- A login issues its token; no row has its uuid yet. -/
theorem Rows.login (hrows : Rows (s, h)) {jobs : List TokenJob} (accepted : Option Jwt) :
    Rows ({ s with
      issued := s.createToken :: s.issued, nextUuid := s.nextUuid + 1, jobs := jobs },
      ⟨h.revoked, accepted, s.tokens ++ h.saved⟩) := by
  have hold : ∀ row ∈ s.tokens ++ h.saved, row ∈ h.saved := by
    intro row hrow
    exact (List.mem_append.mp hrow).elim (hrows.saved row) fun hrow => hrow
  have hunused : ∀ row ∈ h.saved, row.value ≠ some s.nextUuid := by
    intro row hrow hvalue
    exact Nat.lt_irrefl _ (hrows.values_lt row hrow _ hvalue)
  constructor
  · intro jwt hjwt
    rcases List.mem_cons.mp hjwt with rfl | hjwt
    · exact Nat.lt_succ_self _
    · exact Nat.lt_succ_of_lt (hrows.issued_lt jwt hjwt)
  · intro jwt hjwt other hother hsame
    rcases List.mem_cons.mp hjwt with rfl | hjwt
    · rcases List.mem_cons.mp hother with rfl | hother
      · rfl
      · exact absurd hsame (Nat.ne_of_gt (hrows.issued_lt other hother))
    · rcases List.mem_cons.mp hother with rfl | hother
      · exact absurd hsame (Nat.ne_of_lt (hrows.issued_lt jwt hjwt))
      · exact hrows.issued_inj jwt hjwt other hother hsame
  · exact hrows.nodup
  · exact hrows.ids_lt
  · intro row hrow
    exact List.mem_append_left _ hrow
  · intro row hrow uuid hvalue
    exact Nat.lt_succ_of_lt (hrows.values_lt row (hold row hrow) uuid hvalue)
  · intro row hrow jwt hjwt hvalue
    rcases List.mem_cons.mp hjwt with rfl | hjwt
    · exact absurd hvalue (hunused row (hold row hrow))
    · exact hrows.expires row (hold row hrow) jwt hjwt hvalue
  · intro row hrow jwt hjwt
    rcases List.mem_cons.mp hjwt with rfl | hjwt
    · exact hunused row (hrows.saved row (List.mem_of_mem_tail hrow))
    · exact hrows.first row hrow jwt hjwt
  · intro row hrow jwt hjwt hvalue
    rcases List.mem_cons.mp hjwt with rfl | hjwt
    · exact hrows.revoked_le
    · exact hrows.current row hrow jwt hjwt hvalue
  · exact Nat.le_succ_of_le hrows.revoked_le

theorem ids_saveToken (jwt : Jwt) (id : Nat) : (s.saveToken jwt (some id)).ids = s.ids := by
  simp only [ids, saveToken, List.map_map]
  apply List.map_congr_left
  intro row _
  simp only [Function.comp_apply]
  split <;> rfl

/-- Saving over the first row. -/
theorem Rows.update (hrows : Rows (s, h)) {jwt : Jwt} {id : Nat} (hissued : jwt ∈ s.issued)
    (hfirst : s.ids.head? = some id) (hcurrent : h.revoked ≤ jwt.tokenUuid)
    (hsaved : h'.saved = (s.saveToken jwt (some id)).tokens ++ h.saved)
    (hrevoked : h'.revoked = h.revoked) : Rows (s.saveToken jwt (some id), h') := by
  have hrow : ∀ row ∈ (s.saveToken jwt (some id)).tokens, row ∈ s.tokens ∨
      row.value = some jwt.tokenUuid ∧ row.expiration = some (jwt.created + day) := by
    intro row hrow
    obtain ⟨old, hold, rfl⟩ := List.mem_map.mp hrow
    split
    · exact .inr ⟨rfl, rfl⟩
    · exact .inl hold
  have hall : ∀ row ∈ h'.saved, row ∈ h.saved ∨
      row.value = some jwt.tokenUuid ∧ row.expiration = some (jwt.created + day) := by
    intro row hmem
    rw [hsaved] at hmem
    rcases List.mem_append.mp hmem with hnew | hold
    · exact (hrow row hnew).imp_left (hrows.saved row)
    · exact .inl hold
  constructor
  · exact hrows.issued_lt
  · exact hrows.issued_inj
  · simp only [ids_saveToken]
    exact hrows.nodup
  · intro other hother
    exact hrows.ids_lt other (ids_saveToken jwt id ▸ hother)
  · intro row hmem
    simp only
    rw [hsaved]
    exact List.mem_append_left _ hmem
  · intro row hmem uuid hvalue
    rcases hall row hmem with hold | ⟨hnew, -⟩
    · exact hrows.values_lt row hold uuid hvalue
    · obtain rfl := Option.some.inj (hnew.symm.trans hvalue)
      exact hrows.issued_lt jwt hissued
  · intro row hmem other hother hvalue
    rcases hall row hmem with hold | ⟨hnew, hexpires⟩
    · exact hrows.expires row hold other hother hvalue
    · obtain rfl := hrows.issued_inj jwt hissued other hother
        (Option.some.inj (hnew.symm.trans hvalue))
      exact hexpires
  · intro row hmem other hother
    cases htokens : s.tokens with
    | nil => simp [saveToken, htokens] at hmem
    | cons top rest =>
      have hnodup : (s.tokens.map TokenRow.id).Nodup := hrows.nodup
      have hid : id = top.id := by simpa [ids, htokens] using hfirst.symm
      have hrest : ∀ row ∈ rest, ¬ row.id = id := by
        rintro row hmem' rfl
        rw [htokens] at hnodup
        exact (List.nodup_cons.mp hnodup).1 (hid ▸ List.mem_map_of_mem hmem')
      simp only [saveToken, htokens, List.map_cons, List.tail_cons] at hmem
      obtain ⟨old, hold, rfl⟩ := List.mem_map.mp hmem
      rw [if_neg (hrest old hold)]
      exact hrows.first old (by simpa [htokens] using hold) other hother
  · intro row hmem other hother hvalue
    simp only
    rw [hrevoked]
    rcases hrow row hmem with hold | ⟨hnew, -⟩
    · exact hrows.current row hold other hother hvalue
    · exact Option.some.inj (hnew.symm.trans hvalue) ▸ hcurrent
  · exact hrevoked ▸ hrows.revoked_le

/-- Saving into an empty table. -/
theorem Rows.insert (hrows : Rows (s, h)) {jwt : Jwt} (hissued : jwt ∈ s.issued)
    (hempty : s.tokens = []) (hcurrent : h.revoked ≤ jwt.tokenUuid)
    (hsaved : h'.saved = (s.saveToken jwt none).tokens ++ h.saved)
    (hrevoked : h'.revoked = h.revoked) : Rows (s.saveToken jwt none, h') := by
  let new : TokenRow :=
    ⟨s.nextId, some jwt.tokenUuid, some (jwt.created + day), some "Login token"⟩
  have htokens : (s.saveToken jwt none).tokens = [new] := by
    simp [saveToken, hempty, new]
  have hall : ∀ row ∈ h'.saved, row = new ∨ row ∈ h.saved := by
    intro row hmem
    rw [hsaved, htokens] at hmem
    exact List.mem_cons.mp hmem
  constructor
  · exact hrows.issued_lt
  · exact hrows.issued_inj
  · simp [ids, htokens]
  · intro id hid
    obtain rfl : id = s.nextId := by simpa [ids, htokens, new] using hid
    exact Nat.lt_succ_self _
  · intro row hmem
    simp only
    rw [hsaved]
    exact List.mem_append_left _ hmem
  · intro row hmem uuid hvalue
    rcases hall row hmem with rfl | hold
    · obtain rfl := Option.some.inj hvalue
      exact hrows.issued_lt jwt hissued
    · exact hrows.values_lt row hold uuid hvalue
  · intro row hmem other hother hvalue
    rcases hall row hmem with rfl | hold
    · rw [← hrows.issued_inj jwt hissued other hother (Option.some.inj hvalue)]
    · exact hrows.expires row hold other hother hvalue
  · intro row hmem
    simp [htokens] at hmem
  · intro row hmem other hother hvalue
    simp only
    rw [hrevoked]
    obtain rfl : row = new := by simpa [htokens] using hmem
    exact Option.some.inj hvalue ▸ hcurrent
  · exact hrevoked ▸ hrows.revoked_le

/-- A logout or a password change that takes every row. -/
theorem Rows.revoke (hrows : Rows (s, h)) {password : Option String} {ids : List Nat}
    (hall : (s.revokeTokens password ids).tokens = []) (hsaved : h'.saved = h.saved)
    (hrevoked : h'.revoked = s.nextUuid) : Rows (s.revokeTokens password ids, h') := by
  constructor
  · exact hrows.issued_lt
  · exact hrows.issued_inj
  · simp [TokenSite.ids, hall]
  · simp [TokenSite.ids, hall]
  · simp [hall]
  · exact hsaved ▸ hrows.values_lt
  · exact hsaved ▸ hrows.expires
  · simp [hall]
  · simp [hall]
  · exact Nat.le_of_eq hrevoked

/-! ### What a step keeps of the jobs -/

theorem Sees.refl (hrows : Rows (s, h)) : s.Sees s.ids := ⟨hrows.ids_lt, .inl rfl⟩

theorem Sees.of_same {ids : List Nat} (hsees : s.Sees ids) (hids : t.ids = s.ids)
    (hnext : s.nextId ≤ t.nextId) : t.Sees ids := by
  constructor
  · intro id hid
    exact Nat.lt_of_lt_of_le (hsees.1 id hid) hnext
  · rw [hids]
    exact hsees.2

/-- Once the rows are gone they stay gone: a new row has a new id. -/
theorem Sees.of_new {ids : List Nat} (hsees : s.Sees ids) (hids : ∀ id ∈ t.ids, id = s.nextId)
    (hnext : s.nextId ≤ t.nextId) : t.Sees ids := by
  constructor
  · intro id hid
    exact Nat.lt_of_lt_of_le (hsees.1 id hid) hnext
  · right
    intro id hid hmem
    exact Nat.ne_of_lt (hsees.1 id hid) (hids id hmem)

theorem JobOk.frame (hok : JobOk s job) (hissued : ∀ jwt ∈ s.issued, jwt ∈ t.issued)
    (hsees : ∀ ids, s.Sees ids → t.Sees ids) : JobOk t job := by
  cases job with
  | loginTokens jwt | requestCache jwt | requestInfo jwt => exact hissued jwt hok
  | fillCache jwt info => exact hissued jwt hok
  | loginSave jwt existing =>
    obtain ⟨hjwt, ids, hexisting, hids⟩ := hok
    exact ⟨hissued jwt hjwt, ids, hexisting, hsees ids hids⟩
  | revoke password ids => exact hsees ids hok
  | passwordTokens | logoutTokens | dropCache => trivial

theorem Rows.goOn (hrows : Rows (s, h)) (i : Nat) (next : List TokenJob) :
    Rows (s.goOn i next, h) where
  issued_lt := hrows.issued_lt
  issued_inj := hrows.issued_inj
  nodup := hrows.nodup
  ids_lt := hrows.ids_lt
  saved := hrows.saved
  values_lt := hrows.values_lt
  expires := hrows.expires
  first := hrows.first
  current := hrows.current
  revoked_le := hrows.revoked_le

theorem mem_goOn {i : Nat} {next : List TokenJob} (hmem : job ∈ (s.goOn i next).jobs) :
    job ∈ s.jobs ∨ job ∈ next :=
  (List.mem_append.mp hmem).imp_left List.mem_of_mem_eraseIdx

theorem jobs_goOn {i : Nat} {next : List TokenJob} (hok : ∀ job ∈ s.jobs, JobOk s job)
    (hjobs : t.jobs = s.jobs) (hissued : t.issued = s.issued)
    (hsees : ∀ ids, s.Sees ids → t.Sees ids) (hnext : ∀ job ∈ next, JobOk t job) :
    ∀ job ∈ (t.goOn i next).jobs, JobOk (t.goOn i next) job := by
  intro job hmem
  have hjob : JobOk t job := by
    rcases mem_goOn hmem with hold | hnew
    · apply (hok job (hjobs ▸ hold)).frame _ hsees
      intro jwt hjwt
      exact hissued ▸ hjwt
    · exact hnext job hnew
  exact hjob.frame (fun _ hjwt => hjwt) fun _ hids => hids

/-- The rows that a job saw are there, or a step that needs them fails. -/
theorem Sees.present {ids : List Nat} (hsees : s.Sees ids) (hpresent : s.present ids = true) :
    ids = s.ids ∨ ids = [] := by
  rcases hsees.2 with hall | hgone
  · exact .inl hall
  · right
    apply List.eq_nil_iff_forall_not_mem.mpr
    intro id hid
    exact hgone id hid (present_iff.mp hpresent id hid)

theorem Inv.of_same (hinv : Inv (s, h)) (htokens : t.tokens = s.tokens)
    (hnext : t.nextId = s.nextId) (hissued : t.issued = s.issued) (huuid : t.nextUuid = s.nextUuid)
    (hjobs : ∀ job ∈ t.jobs, job ∈ s.jobs ∨ JobOk s job)
    (hsaved : h'.saved = t.tokens ++ h.saved)
    (hrevoked : h'.revoked = h.revoked ∨ s.tokens = [] ∧ h'.revoked = s.nextUuid)
    (haccepted : ∀ jwt, h'.accepted = some jwt →
      jwt ∈ s.issued ∧ s.hasToken jwt = true ∧ t.now ≤ jwt.created + day) : Inv (t, h') where
  rows := hinv.rows.same htokens hnext hissued huuid hsaved hrevoked
  jobs job hjob := by
    have hok : JobOk s job := (hjobs job hjob).elim (hinv.jobs job) fun hok => hok
    apply hok.frame
    · intro jwt hjwt
      exact hissued ▸ hjwt
    · intro ids hsees
      exact hsees.of_same (congrArg (List.map TokenRow.id) htokens) (Nat.le_of_eq hnext.symm)
  accepted jwt hjwt := by
    obtain ⟨hmem, hstored, htime⟩ := haccepted jwt hjwt
    refine ⟨hissued ▸ hmem, ?_, htime⟩
    simp only [hasToken, htokens]
    exact hstored

theorem observe_advance {i : Nat} (hjob : s.jobs[i]? = some job) :
    observe h s (.advance i done) t =
      ⟨if s.revokes done job then s.nextUuid else h.revoked, s.accepts done job,
        t.tokens ++ h.saved⟩ := by
  simp [observe, commits, accepted, hjob]

/-- The operations of a job that leave the rows alone. -/
theorem inv_advance_same {i : Nat} {next : List TokenJob} {cache : Option (Cell AuthInfoCacheDTO)}
    (hinv : Inv (s, h)) (hnext : ∀ job ∈ next, JobOk s job)
    (hrevoked : s.revokes done job = true → s.tokens = [])
    (haccepted : ∀ jwt, s.accepts done job = some jwt →
      jwt ∈ s.issued ∧ s.hasToken jwt = true ∧ s.now ≤ jwt.created + day)
    (hjob : s.jobs[i]? = some job) :
    Inv (({ s with cache := cache }.goOn i next : TokenSite),
      observe h s (.advance i done) ({ s with cache := cache }.goOn i next)) := by
  rw [observe_advance hjob]
  refine Inv.of_same (t := { s with cache := cache }.goOn i next) hinv rfl rfl rfl rfl ?_ ?_ ?_ ?_
  · intro job hmem
    exact (mem_goOn hmem).imp_right (hnext job)
  · rfl
  · simp only
    split
    · rename_i hcommits
      exact .inr ⟨hrevoked hcommits, rfl⟩
    · exact .inl rfl
  · exact haccepted

theorem tokens_eq_nil (hids : s.ids = []) : s.tokens = [] := List.map_eq_nil_iff.mp hids

/-- Saving a login. -/
theorem inv_save {i : Nat} {jwt : Jwt} {existing : Option Nat} (hinv : Inv (s, h))
    (hjob : s.jobs[i]? = some (.loginSave jwt existing))
    (hpresent : s.present existing.toList = true) (hcond : KeepsSave (s, h) jwt existing) :
    Inv ((s.saveToken jwt existing).goOn i [.dropCache],
      observe h s (.advance i true) ((s.saveToken jwt existing).goOn i [.dropCache])) := by
  obtain ⟨hissued, ids, hexisting, hsees⟩ := hinv.jobs _ (List.mem_of_getElem? hjob)
  rw [observe_advance hjob]
  cases existing with
  | none =>
    have hempty : s.tokens = [] := hcond.1 rfl
    have hsees : ∀ ids, s.Sees ids → (s.saveToken jwt none).Sees ids := by
      intro ids hids
      apply hids.of_new _ (Nat.le_succ _)
      intro id hid
      simpa [TokenSite.ids, saveToken, hempty] using hid
    constructor
    · apply Rows.goOn (s := s.saveToken jwt none)
      exact hinv.rows.insert hissued hempty hcond.2 rfl rfl
    · exact jobs_goOn (t := s.saveToken jwt none) hinv.jobs rfl rfl hsees (by simp [JobOk])
    · intro other hother
      cases hother
  | some id =>
    have hids : ids = s.ids := by
      rcases hsees.2 with hall | hgone
      · exact hall
      · have hmem : id ∈ ids := List.mem_of_mem_head? hexisting.symm
        exact absurd (present_iff.mp hpresent id (by simp)) (hgone id hmem)
    have hsees : ∀ ids, s.Sees ids → (s.saveToken jwt (some id)).Sees ids := by
      intro ids hids
      exact hids.of_same (ids_saveToken jwt id) (Nat.le_refl _)
    constructor
    · apply Rows.goOn (s := s.saveToken jwt (some id))
      exact hinv.rows.update hissued (hids ▸ hexisting.symm) hcond.2 rfl rfl
    · exact jobs_goOn (t := s.saveToken jwt (some id)) hinv.jobs rfl rfl hsees (by simp [JobOk])
    · intro other hother
      cases hother

/-- Committing a logout or a password change. -/
theorem inv_revoke {i : Nat} {password : Option String} {ids : List Nat} (hinv : Inv (s, h))
    (hjob : s.jobs[i]? = some (.revoke password ids)) (hpresent : s.present ids = true)
    (hcond : ids = [] → s.tokens = []) :
    Inv ((s.revokeTokens password ids).goOn i [.dropCache],
      observe h s (.advance i true) ((s.revokeTokens password ids).goOn i [.dropCache])) := by
  have hsees : s.Sees ids := hinv.jobs _ (List.mem_of_getElem? hjob)
  have hempty : (s.revokeTokens password ids).tokens = [] := by
    rcases hsees.present hpresent with rfl | hnone
    · apply List.filter_eq_nil_iff.mpr
      intro row hrow
      have hid : row.id ∈ s.ids := List.mem_map_of_mem hrow
      simpa using hid
    · simp [revokeTokens, hcond hnone]
  have hnone : (s.revokeTokens password ids).ids = [] := by
    rw [TokenSite.ids, hempty]
    rfl
  rw [observe_advance hjob]
  have hcommits : s.revokes true (.revoke password ids) = true := by
    simp [revokes, hpresent]
  rw [if_pos hcommits]
  have hgone : ∀ seen, s.Sees seen → (s.revokeTokens password ids).Sees seen := by
    intro seen hseen
    apply Sees.of_new (t := s.revokeTokens password ids) hseen _ (Nat.le_refl _)
    intro id hid
    rw [hnone] at hid
    cases hid
  constructor
  · apply Rows.goOn (s := s.revokeTokens password ids)
    apply hinv.rows.revoke hempty _ rfl
    change (s.revokeTokens password ids).tokens ++ h.saved = h.saved
    rw [hempty, List.nil_append]
  · exact jobs_goOn (t := s.revokeTokens password ids) hinv.jobs rfl rfl hgone (by simp [JobOk])
  · intro other hother
    cases hother

/-- The jobs that go on are in order: what they remember was just seen. -/
theorem jobOk_of_mem_perform {next : TokenJob} (hok : JobOk s job) (hseen : s.Sees s.ids)
    (hmem : next ∈ (s.perform done job).2) : JobOk s next := by
  unfold perform at hmem
  cases job with
  | loginTokens jwt =>
    obtain ⟨-, rfl⟩ : done = true ∧ next = .loginSave jwt s.ids.head? := by simpa using hmem
    exact ⟨hok, s.ids, rfl, hseen⟩
  | loginSave jwt existing =>
    simp only at hmem
    split at hmem
    · rw [List.mem_singleton.mp hmem]
      trivial
    · cases hmem
  | passwordTokens hash =>
    obtain ⟨-, rfl⟩ : done = true ∧ next = .revoke (some hash) s.ids := by simpa using hmem
    exact hseen
  | logoutTokens =>
    simp only at hmem
    split_ifs at hmem with hfailed hnone
    · cases hmem
    · rw [List.mem_singleton.mp hmem]
      trivial
    · rw [List.mem_singleton.mp hmem]
      exact hseen
  | revoke password ids =>
    simp only at hmem
    split at hmem
    · rw [List.mem_singleton.mp hmem]
      trivial
    · cases hmem
  | dropCache => cases hmem
  | requestCache jwt =>
    simp only at hmem
    split at hmem
    · cases hmem
    · rw [List.mem_singleton.mp hmem]
      exact hok
  | requestInfo jwt =>
    simp only at hmem
    split at hmem
    · rw [List.mem_singleton.mp hmem]
      exact hok
    · cases hmem
  | fillCache jwt info => cases hmem

theorem stored_of_accepts {jwt : Jwt} (hok : JobOk s job) (hcond : KeepsJob (s, h) done job)
    (haccepts : s.accepts done job = some jwt) :
    jwt ∈ s.issued ∧ s.hasToken jwt = true ∧ s.now ≤ jwt.created + day := by
  cases job with
  | requestCache presented =>
    obtain rfl : presented = jwt := by
      simp only [accepts] at haccepts
      split at haccepts
      · exact Option.some.inj haccepts
      · cases haccepts
    exact ⟨hok, hcond haccepts⟩
  | fillCache presented info =>
    obtain rfl := Option.some.inj haccepts
    exact ⟨hok, hcond⟩
  | _ => cases haccepts

theorem inv_advance {i : Nat} (hinv : Inv (s, h)) (hjob : s.jobs[i]? = some job)
    (hcond : KeepsJob (s, h) done job) :
    Inv ((s.perform done job).1.goOn i (s.perform done job).2,
      observe h s (.advance i done) ((s.perform done job).1.goOn i (s.perform done job).2)) := by
  have hok : JobOk s job := hinv.jobs job (List.mem_of_getElem? hjob)
  have hnext : ∀ next ∈ (s.perform done job).2, JobOk s next :=
    fun next => jobOk_of_mem_perform hok (Sees.refl hinv.rows)
  have haccepts : ∀ jwt, s.accepts done job = some jwt →
      jwt ∈ s.issued ∧ s.hasToken jwt = true ∧ s.now ≤ jwt.created + day :=
    fun jwt => stored_of_accepts hok hcond
  have hsame : ∀ cache, (s.perform done job).1 = { s with cache := cache } →
      (s.revokes done job = true → s.tokens = []) →
      Inv ((s.perform done job).1.goOn i (s.perform done job).2,
        observe h s (.advance i done)
          ((s.perform done job).1.goOn i (s.perform done job).2)) := by
    intro cache hperform hrevokes
    rw [hperform]
    exact inv_advance_same hinv hnext hrevokes haccepts hjob
  cases job with
  | loginSave jwt existing =>
    cases hsaves : done && s.present existing.toList with
    | true =>
      obtain ⟨rfl, hpresent⟩ := Bool.and_eq_true_iff.mp hsaves
      simp only [perform, hsaves, if_true]
      exact inv_save hinv hjob hpresent (hcond rfl hpresent)
    | false => exact hsame s.cache (by simp [perform, hsaves]) (by simp [revokes])
  | revoke password ids =>
    cases hsaves : done && s.present ids with
    | true =>
      obtain ⟨rfl, hpresent⟩ := Bool.and_eq_true_iff.mp hsaves
      simp only [perform, hsaves, if_true]
      exact inv_revoke hinv hjob hpresent (hcond rfl)
    | false => exact hsame s.cache (by simp [perform, hsaves]) (by simp [revokes, hsaves])
  | logoutTokens =>
    apply hsame s.cache rfl
    intro hcommits
    simp only [revokes, Bool.and_eq_true, decide_eq_true_eq] at hcommits
    exact tokens_eq_nil hcommits.2
  | dropCache =>
    cases done with
    | true => exact hsame none rfl (by simp [revokes])
    | false => exact hsame s.cache rfl (by simp [revokes])
  | fillCache jwt info =>
    cases done with
    | true => exact hsame _ rfl (by simp [revokes])
    | false => exact hsame s.cache rfl (by simp [revokes])
  | loginTokens | passwordTokens | requestCache | requestInfo =>
    exact hsame s.cache rfl (by simp [revokes])

/-- A step that begins a job, or none. -/
theorem inv_spawn (hinv : Inv (s, h)) {jobs : List TokenJob} {now : Int}
    (hjobs : ∀ job ∈ jobs, job ∈ s.jobs ∨ JobOk s job) :
    Inv ({ s with now := now, jobs := jobs }, ⟨h.revoked, none, s.tokens ++ h.saved⟩) :=
  hinv.of_same rfl rfl rfl rfl hjobs rfl (.inl rfl) nofun

theorem inv_login (hinv : Inv (s, h)) :
    Inv ({ s with issued := s.createToken :: s.issued, nextUuid := s.nextUuid + 1 }.spawn
        (.loginTokens s.createToken), ⟨h.revoked, none, s.tokens ++ h.saved⟩) where
  rows := hinv.rows.login none
  jobs job hmem := by
    rcases List.mem_append.mp hmem with hold | hnew
    · apply (hinv.jobs job hold).frame
      · exact fun _ hjwt => List.mem_cons_of_mem _ hjwt
      · exact fun _ hsees => hsees
    · rw [List.mem_singleton.mp hnew]
      exact List.mem_cons_self
  accepted _ haccepted := by cases haccepted

variable {platform : AuthPlatform}

theorem inv_step (p : TokenSite × TokenHistory) (a : TokenAction) (q : TokenSite × TokenHistory)
    (hinv : Inv p) (hcond : Keeps p a) (hstep : monitored (step platform) observe p a = some q) :
    Inv q := by
  obtain ⟨s, h⟩ := p
  obtain ⟨t, h'⟩ := q
  obtain ⟨ht, hobserve⟩ := monitored_eq_some.mp hstep
  simp only at ht hobserve
  rw [hobserve]
  cases a with
  | tick milliseconds =>
    obtain rfl := Option.some.inj ht
    exact inv_spawn hinv fun _ hmem => .inl hmem
  | login username password captchaValid =>
    obtain rfl := Option.some.inj ht
    split
    · exact inv_login hinv
    · exact inv_spawn hinv fun _ hmem => .inl hmem
  | changePassword dto salt =>
    obtain rfl := Option.some.inj ht
    split
    · exact inv_spawn hinv fun _ hmem => .inl hmem
    · apply inv_spawn hinv
      intro job hmem
      refine (List.mem_append.mp hmem).imp_right fun hnew => ?_
      rw [List.mem_singleton.mp hnew]
      trivial
  | logout =>
    obtain rfl := Option.some.inj ht
    apply inv_spawn hinv
    intro job hmem
    refine (List.mem_append.mp hmem).imp_right fun hnew => ?_
    rw [List.mem_singleton.mp hnew]
    trivial
  | request jwt =>
    simp only [step] at ht
    split at ht
    · rename_i hvalid
      obtain rfl := Option.some.inj ht
      split
      · apply inv_spawn hinv
        intro job hmem
        refine (List.mem_append.mp hmem).imp_right fun hnew => ?_
        rw [List.mem_singleton.mp hnew]
        exact hvalid.1
      · exact inv_spawn hinv fun _ hmem => .inl hmem
    · cases ht
  | advance i done =>
    obtain ⟨job, hjob, ht⟩ := Option.bind_eq_some_iff.mp ht
    obtain rfl := Option.some.inj ht
    exact inv_advance hinv hjob (hcond job hjob)
  | crash i =>
    obtain ⟨_, -, rfl⟩ := Option.map_eq_some_iff.mp ht
    apply inv_spawn hinv
    intro job hmem
    exact .inl ((mem_goOn hmem).resolve_right List.not_mem_nil)

/-- The attributes that a request finds in the cache decide it at once; otherwise they are read
from the database. -/
def requestSteps (s : TokenSite) (jwt : Jwt) : List TokenAction :=
  .request jwt :: List.replicate (if (s.cached jwt).isSome then 1 else 3) (.advance 0 true)

/-- `acceptable` is what the operations of a request come to when nothing comes between. -/
theorem acceptable_iff_request {jwt : Jwt} (hidle : s.jobs = []) :
    s.acceptable jwt = true ↔ ∃ p, exec (monitored (step platform) observe) (s, h)
      (s.requestSteps jwt) = some p ∧ p.2.accepted = some jwt := by
  by_cases hvalid : jwt ∈ s.issued ∧ s.lives jwt = true
  · obtain ⟨hissued, hlives⟩ := hvalid
    have hbegin : step platform s (.request jwt) =
        some (if s.hasToken jwt then s.spawn (.requestCache jwt) else s) :=
      if_pos ⟨hissued, hlives⟩
    cases hstored : s.hasToken jwt with
    | false =>
      have hnone : step platform s (.advance 0 true) = none := by simp [step, hidle]
      cases hcached : s.cached jwt <;>
        simp [acceptable, hstored, requestSteps, hcached, exec, monitored, hbegin, hnone,
          List.replicate]
    | true =>
      have hspawn : s.spawn (.requestCache jwt) = { s with jobs := [.requestCache jwt] } := by
        simp [spawn, hidle]
      cases hcached : s.cached jwt with
      | none =>
        have hread : step platform { s with jobs := [.requestCache jwt] } (.advance 0 true) =
            some { s with jobs := [.requestInfo jwt] } := by
          have hmiss : ({ s with jobs := [.requestCache jwt] } : TokenSite).cached jwt = none :=
            hcached
          simp [step, perform, hmiss, goOn]
        have hinfo : step platform { s with jobs := [.requestInfo jwt] } (.advance 0 true) =
            some { s with jobs :=
              if (s.user.info.refusal jwt).isNone then [.fillCache jwt s.user.info] else [] } := by
          have htoken : ({ s with jobs := [.requestInfo jwt] } : TokenSite).hasToken jwt = true :=
            hstored
          simp [step, perform, htoken, goOn]
        simp only [requestSteps, hcached, List.replicate, exec, monitored, hbegin, hstored, hspawn,
          hread, hinfo, Option.isSome_none, Bool.false_eq_true, if_true, if_false, Option.map_some,
          Option.bind_some]
        cases hrefusal : s.user.info.refusal jwt with
        | none => simp [acceptable, hissued, hlives, hstored, hcached, hrefusal, step, observe,
            accepted, accepts]
        | some refusal => simp [acceptable, hcached, hrefusal, step]
      | some info =>
        simp only [requestSteps, hcached, List.replicate, exec, monitored, hbegin, hstored, hspawn,
          Option.isSome_some, if_true, Option.map_some, Option.bind_some]
        have hhit : ({ s with jobs := [.requestCache jwt] } : TokenSite).cached jwt = some info :=
          hcached
        cases hrefusal : info.refusal jwt <;>
          simp [acceptable, hissued, hlives, hstored, hcached, hrefusal, step, hhit, observe,
            accepted, accepts]
  · have hrefused : step platform s (.request jwt) = none := if_neg hvalid
    simp only [requestSteps, exec, monitored, hrefused]
    simp only [acceptable]
    simpa using fun hissued hlives => absurd ⟨hissued, hlives⟩ hvalid

theorem inv_of_fresh (hfresh : Fresh s) : Inv (s, s.noHistory) where
  rows := {
    issued_lt := by simp [hfresh.issued]
    issued_inj := by simp [hfresh.issued]
    nodup := hfresh.nodup
    ids_lt := by
      intro id hid
      obtain ⟨row, hrow, rfl⟩ := List.mem_map.mp hid
      exact (hfresh.stored row hrow).1
    saved := fun _ hrow => hrow
    values_lt := fun row hrow => (hfresh.stored row hrow).2
    expires := by simp [hfresh.issued]
    first := by simp [hfresh.issued]
    current := by simp [hfresh.issued]
    revoked_le := Nat.le_refl _ }
  jobs := by simp [hfresh.jobs]
  accepted _ haccepted := by cases haccepted

end Proof

end TokenSite

open TokenSite

/-- From a user who has not logged in, along any interleaving of steps that keep: at most one
token is accepted, it was issued after the last logout or password change, and it has not
expired. -/
theorem tokens_safe (platform : AuthPlatform) {start : TokenSite} (hfresh : start.Fresh)
    {p : TokenSite × TokenHistory}
    (h : Reach (monitored (step platform) observe) Keeps (start, start.noHistory) p) : Safe p :=
  (h.invariant Inv (inv_of_fresh hfresh) inv_step).safe

/-- Passwords that are their own hash. -/
def openPlatform : AuthPlatform where
  findsUser name := name = "alice"
  verifyPassword password hash := password = hash
  hashPassword _ password := password
  isUpper := Char.isUpper
  isLower := Char.isLower
  isDigit := Char.isDigit

def newcomer : TokenSite where
  now := 0
  user := { password := "Secret-1!" }
  tokens := []
  nextId := 1
  cache := none
  issued := []
  nextUuid := 0
  jobs := []

theorem newcomer_fresh : newcomer.Fresh := ⟨rfl, rfl, List.nodup_nil, nofun⟩

/-- A login, and a request with its token after some time. -/
def loginAndRequest (milliseconds : Nat) : List TokenAction :=
  [.login (some "alice") (some "Secret-1!") true, .advance 0 true, .advance 0 true,
    .advance 0 true, .tick milliseconds, .request ⟨0, 1, 0⟩, .advance 0 true, .advance 0 true,
    .advance 0 true]

theorem tokens_safe_login :
    ∃ p, Reach (monitored (step openPlatform) observe) Keeps (newcomer, newcomer.noHistory) p ∧
      p.2.accepted = some ⟨0, 1, 0⟩ ∧ Safe p := by
  obtain ⟨p, hreach, haccepted⟩ := exists_reach_of_exec (monitored (step openPlatform) observe)
    Keeps (newcomer, newcomer.noHistory) (loginAndRequest 1000)
    (p := fun p => p.2.accepted = some ⟨0, 1, 0⟩) (by decide) (by decide)
  exact ⟨p, hreach, of_decide_eq_true haccepted, tokens_safe openPlatform newcomer_fresh hreach⟩

/-- The middleware does not read the expiration: two days after the login the request is let
through. -/
theorem expired_token_accepted :
    ¬ ∀ (platform : AuthPlatform) (start : TokenSite), start.Fresh → ∀ p,
      Reach (monitored (step platform) observe) always (start, start.noHistory) p → Safe p := by
  intro hsafe
  obtain ⟨p, hreach, hlate⟩ := exists_reach_of_exec (monitored (step openPlatform) observe)
    always (newcomer, newcomer.noHistory) (loginAndRequest 172800000)
    (p := fun p => p.2.accepted = some ⟨0, 1, 0⟩ ∧ p.1.now = 172800000 ∧
      ⟨1, some 0, some 86400000, some "Login token"⟩ ∈ p.2.saved)
    (meets_always _ _ _) (by decide)
  obtain ⟨haccepted, hnow, hsaved⟩ := of_decide_eq_true hlate
  have hin : p.1.now ≤ 86400000 :=
    (hsafe _ _ newcomer_fresh p hreach).unexpired _ haccepted _ hsaved rfl _ rfl
  omega

end Fctf
