import Fctf.Lib.Expiring
import Fctf.Lib.Run
import Mathlib.Data.List.Nodup

/-!
The sessions of the management platform. Their data lies in the cache under the id that the signed
cookie carries; a request copies it when it is received and writes it back with its response.
-/

namespace Fctf.CachedSession

open Expiring Run

/-- What a handler keeps in `session`. -/
structure Data where
  id : Option Nat := none
  nonce : Option String := none
  hash : Option String := none
  permanent : Bool := false
  /-- The messages of `flash`. -/
  flashes : List String := []
  deriving DecidableEq, Repr

/-- The signer and the serializer, and how long the cache keeps a session. -/
structure Platform (V : Type) where
  sign : String → String
  /-- `none` is a `BadSignature`. -/
  unsign : String → Option String
  dumps : Data → V
  /-- `none` is any exception. -/
  loads : V → Option Data
  keyPrefix : String := "session"
  lifetime : Nat := 604800
  unsign_sign : ∀ sid, unsign (sign sid) = some sid
  loads_dumps : ∀ data, loads (dumps data) = some data

/-- `CachedSession`. -/
structure Session where
  data : Data := {}
  sid : Option String
  modified : Bool := false
  deriving DecidableEq, Repr

section Interface

variable {V : Type} (platform : Platform V) (cache : Store String V) (now : Int)

def sessionKey (sid : String) : String := platform.keyPrefix ++ sid

/-- The id in the cookie of a request, if there is one and its signature is right. -/
def cookieSid (cookie : Option String) : Option String :=
  cookie.bind fun signed => if signed = "" then none else platform.unsign signed

/-- The loop of `_generate_sid` ends with an id that is not in the cache. -/
def unused (sid : String) : Bool := (cache.get now (sessionKey platform sid)).isNone

/-- `open_session`, where `_generate_sid` would return `uuid`. -/
def openSession (cookie : Option String) (uuid : String) : Session :=
  match cookieSid platform cookie with
  | none => { sid := some uuid }
  | some sid =>
    match cache.get now (sessionKey platform sid) with
    | none => { sid := some sid }
    | some val =>
      match platform.loads val with
      | none => { sid := some sid }
      | some data => { data := data, sid := some sid }

/-- What `save_session` leaves in the cache, and the cookie that it sets. -/
def saveSession (session : Session) (uuid : String) : Store String V × Option String :=
  if session.data = {} then
    match session.modified, session.sid with
    | true, some sid => (cache.del (sessionKey platform sid), none)
    | _, _ => (cache, none)
  else if session.modified then
    let sid := session.sid.getD uuid
    (cache.setEx now (sessionKey platform sid) platform.lifetime (platform.dumps session.data),
      some (platform.sign sid))
  else (cache, none)

end Interface

/-! ### Handlers -/

namespace Session

variable (s : Session)

/-- `session.regenerate`, up to the cache. -/
def regenerate : Session := { s with sid := none, modified := true }

def loginUser (user : Nat) (hash nonce : String) : Session :=
  { s with
    data := { s.data with
      id := some user, nonce := some nonce, hash := some hash, permanent := true }
    modified := true }

def updateUser (user : Nat) (hash : String) : Session :=
  { s with
    data := { s.data with id := some user, hash := some hash, permanent := true }
    modified := true }

def logoutUser : Session := { s with data := {}, modified := true }

end Session

/-- What a handler does with the session of its request. -/
inductive Action
  /-- The check that every request passes: a session without a nonce gets one. -/
  | csrf (nonce : String)
  /-- The login form. -/
  | login (user : Nat) (hash nonce : String)
  /-- An access token, the provider's redirect, or the setup page. -/
  | enter (user : Nat) (hash nonce : String)
  /-- `get_current_user`, with the `hmac` of the user's password. -/
  | currentUser (hash : String)
  /-- A change of the own password: of the user of the session, or of the user of a token. -/
  | update (user : Option Nat) (hash : String)
  | logout
  | flash (message : String)
  | flashed
  deriving DecidableEq, Repr

/-- The user whose password or token a request has shown. -/
def Action.proves : Action → Option Nat
  | .login user _ _ | .enter user _ _ => some user
  | .update user _ => user
  | _ => none

def Action.perform (s : Session) : Action → Session
  | .csrf nonce =>
    if s.data.nonce.any (· ≠ "") then s
    else { s with data := { s.data with nonce := some nonce }, modified := true }
  | .login user hash nonce => s.regenerate.loginUser user hash nonce
  | .enter user hash nonce => s.loginUser user hash nonce
  | .currentUser hash =>
    if s.data.id.isSome ∧ s.data.hash.any (fun h => h ≠ "" ∧ h ≠ hash) then s.logoutUser else s
  | .update user hash =>
    match user.or s.data.id with
    | some user => s.updateUser user hash
    | none => s
  | .logout => if s.data.id.isSome then s.logoutUser else s
  | .flash message =>
    { s with data := { s.data with flashes := s.data.flashes ++ [message] }, modified := true }
  | .flashed =>
    if s.data.flashes = [] then s
    else { s with data := { s.data with flashes := [] }, modified := true }

/-- The key that an action deletes. `regenerate` gives the id without the prefix. -/
def Action.deletes (s : Session) : Action → Option String
  | .login _ _ _ => s.sid
  | _ => none

/-! ### Requests -/

structure Request where
  client : Nat
  session : Session
  deriving DecidableEq, Repr

structure Site (V : Type) where
  cache : Store String V
  now : Int
  /-- The requests that have not been answered. -/
  requests : Nat → Option Request
  /-- The ids that `_generate_sid` has returned, each with the client of the request. -/
  generated : List (String × Nat)
  /-- The cookies that clients have been given. -/
  cookies : List (Nat × String)

inductive Event
  | receive (token client : Nat) (cookie : Option String) (uuid : String)
  | act (token : Nat) (action : Action)
  /-- `save_session`, whatever the handler has returned. -/
  | respond (token : Nat) (uuid : String)
  /-- The worker goes without a response. -/
  | lost (token : Nat)
  /-- `cache.clear`, after a setup, a reset or an import. -/
  | clear
  | tick (seconds : Nat)
  deriving DecidableEq, Repr

namespace Site

variable {V : Type} (platform : Platform V) (s : Site V)

def receive (token client : Nat) (cookie : Option String) (uuid : String) : Site V :=
  { s with
    requests := Function.update s.requests token
      (some ⟨client, openSession platform s.cache s.now cookie uuid⟩)
    generated :=
      if (cookieSid platform cookie).isSome then s.generated else (uuid, client) :: s.generated }

def act (token : Nat) (request : Request) (action : Action) : Site V :=
  { s with
    cache := match action.deletes request.session with
      | some key => s.cache.del key
      | none => s.cache
    requests := Function.update s.requests token
      (some { request with session := action.perform request.session }) }

def respond (token : Nat) (request : Request) (uuid : String) : Site V :=
  let saved := saveSession platform s.cache s.now request.session uuid
  { s with
    cache := saved.1
    requests := Function.update s.requests token none
    generated := if saved.2.isSome ∧ request.session.sid = none then
      (uuid, request.client) :: s.generated else s.generated
    cookies := match saved.2 with
      | some cookie => (request.client, cookie) :: s.cookies
      | none => s.cookies }

/-- An id that is generated is not in the cache. -/
def step : Event → Option (Site V)
  | .receive token client cookie uuid =>
    if s.requests token = none ∧
        ((cookieSid platform cookie).isSome ∨ unused platform s.cache s.now uuid) then
      some (s.receive platform token client cookie uuid)
    else none
  | .act token action => (s.requests token).map fun request => s.act token request action
  | .respond token uuid =>
    (s.requests token).bind fun request =>
      if request.session.sid.isSome ∨ unused platform s.cache s.now uuid then
        some (s.respond platform token request uuid)
      else none
  | .lost token => some { s with requests := Function.update s.requests token none }
  | .clear => some { s with cache := .empty }
  | .tick seconds => some { s with now := s.now + seconds }

/-- No session yet. -/
def idle : Site V := ⟨.empty, 0, fun _ => none, [], []⟩

end Site

/-! ### What the operations do -/

section Operations

variable {V : Type} {platform : Platform V} {cache : Store String V} {now : Int}

theorem sessionKey_inj {sid sid' : String}
    (h : sessionKey platform sid = sessionKey platform sid') : sid = sid' := by
  have hlist := congrArg String.toList h
  simp only [sessionKey, String.toList_append] at hlist
  exact String.toList_inj.mp (List.append_cancel_left hlist)

theorem openSession_sid (cookie : Option String) (uuid : String) :
    (openSession platform cache now cookie uuid).sid =
      some ((cookieSid platform cookie).getD uuid) := by
  unfold openSession
  cases cookieSid platform cookie with
  | none => rfl
  | some sid =>
    cases hval : cache.get now (sessionKey platform sid) with
    | none => simp only [hval, Option.getD_some]
    | some val =>
      cases hdata : platform.loads val <;> simp only [hval, hdata, Option.getD_some]

/-- A session starts with an account only if this is what the cache has for its id. -/
theorem openSession_id {cookie : Option String} {uuid : String} {user : Nat}
    (h : (openSession platform cache now cookie uuid).data.id = some user) :
    ∃ sid cell data, cookieSid platform cookie = some sid ∧
      cache.cell (sessionKey platform sid) = some cell ∧
        platform.loads cell.value = some data ∧ data.id = some user := by
  unfold openSession at h
  cases hsid : cookieSid platform cookie with
  | none =>
    rw [hsid] at h
    cases h
  | some sid =>
    cases hval : cache.get now (sessionKey platform sid) with
    | none =>
      simp only [hsid, hval] at h
      cases h
    | some val =>
      obtain ⟨cell, hfind, rfl⟩ := Store.get_eq_some.mp hval
      cases hdata : platform.loads cell.value with
      | none =>
        simp only [hsid, hval, hdata] at h
        cases h
      | some data =>
        simp only [hsid, hval, hdata] at h
        exact ⟨sid, cell, data, rfl, (Store.find_eq_some.mp hfind).1, hdata, h⟩

/-- A handler puts an account into a session only for one whose credentials it has seen. -/
theorem perform_id {s : Session} {action : Action} {user : Nat}
    (h : (action.perform s).data.id = some user) :
    s.data.id = some user ∨ action.proves = some user := by
  cases action with
  | csrf nonce =>
    simp only [Action.perform] at h
    split at h <;> exact .inl h
  | login user hash nonce => exact .inr h
  | enter user hash nonce => exact .inr h
  | currentUser hash =>
    simp only [Action.perform] at h
    split at h
    · cases h
    · exact .inl h
  | update shown hash =>
    simp only [Action.perform] at h
    cases shown with
    | some shown => exact .inr h
    | none =>
      cases hid : s.data.id with
      | none =>
        rw [hid] at h
        exact .inl (hid.symm.trans h)
      | some own =>
        rw [hid] at h
        exact .inl h
  | logout =>
    simp only [Action.perform] at h
    split at h
    · cases h
    · exact .inl h
  | flash message => exact .inl h
  | flashed =>
    simp only [Action.perform] at h
    split at h <;> exact .inl h

/-- Only the login form takes the id from a session. -/
theorem perform_sid (s : Session) (action : Action) :
    (action.perform s).sid = s.sid ∨ (action.perform s).sid = none := by
  cases action with
  | login user hash nonce => exact .inr rfl
  | csrf nonce | currentUser hash | logout | flashed =>
    left
    simp only [Action.perform]
    split <;> rfl
  | update shown hash =>
    left
    simp only [Action.perform]
    split <;> rfl
  | enter user hash nonce | flash message => exact .inl rfl

/-- A cell is that of before, or the one under the id of the session that is saved. -/
theorem saveSession_cell {session : Session} {uuid key : String} {cell : Cell V}
    (h : (saveSession platform cache now session uuid).1.cell key = some cell) :
    cache.cell key = some cell ∨
      key = sessionKey platform (session.sid.getD uuid) ∧ cell.value = platform.dumps session.data ∧
        (saveSession platform cache now session uuid).2 =
          some (platform.sign (session.sid.getD uuid)) := by
  unfold saveSession at h ⊢
  split_ifs at h ⊢ with hempty hmodified
  · split at h
    · simp only [Store.del, Function.update_apply] at h
      split_ifs at h
      exact .inl h
    · exact .inl h
  · simp only [Store.setEx, Function.update_apply] at h
    split_ifs at h with hkey
    · obtain rfl := Option.some.inj h
      exact .inr ⟨hkey, rfl, rfl⟩
    · exact .inl h
  · exact .inl h

theorem saveSession_cookie {session : Session} {uuid cookie : String}
    (h : (saveSession platform cache now session uuid).2 = some cookie) :
    cookie = platform.sign (session.sid.getD uuid) := by
  unfold saveSession at h
  split_ifs at h
  · split at h <;> cases h
  · exact (Option.some.inj h).symm

end Operations

/-! ### Whose session it is -/

section Runs

variable {V : Type} (platform : Platform V)

/-- `uuid4` does not repeat, and a client has the cookies with a signature from the responses that
it got: it neither forges nor steals one. -/
def Plays (p : Site V × List (Nat × Nat)) : Event → Prop
  | .receive _ client cookie uuid =>
    uuid ∉ p.1.generated.map Prod.fst ∧ ((cookieSid platform cookie).isSome = true →
      ∀ signed ∈ cookie, (client, signed) ∈ p.1.cookies)
  | .respond _ uuid => uuid ∉ p.1.generated.map Prod.fst
  | _ => True

instance (p : Site V × List (Nat × Nat)) : (e : Event) → Decidable (Plays platform p e)
  | .receive _ _ _ _ => inferInstanceAs (Decidable (_ ∧ (_ → _)))
  | .respond _ _ => inferInstanceAs (Decidable (¬_))
  | .act _ _ | .lost _ | .clear | .tick _ => inferInstanceAs (Decidable True)

/-- The clients that have shown the credentials of a user. -/
def logins (g : List (Nat × Nat)) (s : Site V) (e : Event) (_ : Site V) : List (Nat × Nat) :=
  match e with
  | .act token action =>
    match s.requests token, action.proves with
    | some request, some user => (request.client, user) :: g
    | _, _ => g
  | _ => g

variable {platform} {s t : Site V} {g : List (Nat × Nat)} {sid : String}

/-- The request that an event is about. -/
def Event.token : Event → Option Nat
  | .receive token _ _ _ | .act token _ | .respond token _ | .lost token => some token
  | .clear | .tick _ => none

theorem requests_step {e : Event} (hstep : s.step platform e = some t) {token : Nat}
    (htoken : e.token ≠ some token) : t.requests token = s.requests token := by
  have hother : ∀ other, e.token = some other → token ≠ other := by
    rintro other hother rfl
    exact htoken hother
  cases e with
  | receive other client cookie uuid =>
    simp only [Site.step] at hstep
    split_ifs at hstep
    cases hstep
    exact Function.update_of_ne (hother other rfl) _ _
  | act other action =>
    obtain ⟨request, -, rfl⟩ := Option.map_eq_some_iff.mp hstep
    exact Function.update_of_ne (hother other rfl) _ _
  | respond other uuid =>
    obtain ⟨request, -, hstep⟩ := Option.bind_eq_some_iff.mp hstep
    split_ifs at hstep
    cases hstep
    exact Function.update_of_ne (hother other rfl) _ _
  | lost other =>
    cases hstep
    exact Function.update_of_ne (hother other rfl) _ _
  | clear | tick _ =>
    cases hstep
    rfl

/-- Every id belongs to the client of the request it was generated for, and the accounts of a
client's sessions are those it has logged in to. -/
structure Inv (platform : Platform V) (s : Site V) (g : List (Nat × Nat)) : Prop where
  once : (s.generated.map Prod.fst).Nodup
  held : ∀ token request, s.requests token = some request → ∀ sid, request.session.sid = some sid →
    (sid, request.client) ∈ s.generated
  sent : ∀ client cookie, (client, cookie) ∈ s.cookies → ∃ sid, cookie = platform.sign sid ∧
    (sid, client) ∈ s.generated
  cached : ∀ sid cell data user, s.cache.cell (sessionKey platform sid) = some cell →
    platform.loads cell.value = some data → data.id = some user →
      ∃ client, (sid, client) ∈ s.generated ∧ (client, user) ∈ g
  acting : ∀ token request user, s.requests token = some request →
    request.session.data.id = some user → (request.client, user) ∈ g

theorem Inv.owner (h : Inv platform s g) {sid : String} {c c' : Nat}
    (hc : (sid, c) ∈ s.generated) (hc' : (sid, c') ∈ s.generated) : c = c' := by
  have hpair := List.inj_on_of_nodup_map h.once hc hc' rfl
  exact (Prod.mk.inj hpair).2

theorem inv_idle : Inv platform (Site.idle : Site V) g where
  once := List.nodup_nil
  held _ _ h := by cases h
  sent _ _ h := by cases h
  cached _ _ _ _ h := by cases h
  acting _ _ _ h := by cases h

/-- A request that is received starts with an account of its own client. -/
theorem Inv.receive (h : Inv platform s g) {token client : Nat} {cookie : Option String}
    {uuid : String} (hplays : Plays platform (s, g) (.receive token client cookie uuid)) :
    Inv platform (s.receive platform token client cookie uuid) g := by
  obtain ⟨hfresh, hown⟩ := hplays
  -- the id that comes with a cookie is one of the client's own
  have hsigned : ∀ sid, cookieSid platform cookie = some sid → (sid, client) ∈ s.generated := by
    intro sid hsid
    obtain ⟨signed, hsome, hunsign⟩ := Option.bind_eq_some_iff.mp hsid
    obtain ⟨sid', rfl, hmem⟩ := h.sent client signed (hown (by rw [hsid]; rfl) signed hsome)
    split_ifs at hunsign
    rw [platform.unsign_sign] at hunsign
    obtain rfl := Option.some.inj hunsign
    exact hmem
  have hgrows : ∀ entry ∈ s.generated,
      entry ∈ (s.receive platform token client cookie uuid).generated := by
    intro entry hentry
    simp only [Site.receive]
    split_ifs
    · exact hentry
    · exact List.mem_cons_of_mem _ hentry
  constructor
  · simp only [Site.receive]
    split_ifs
    · exact h.once
    · exact List.nodup_cons.mpr ⟨hfresh, h.once⟩
  · intro token' request hrequest sid hsid
    simp only [Site.receive, Function.update_apply] at hrequest
    split_ifs at hrequest
    · obtain rfl := Option.some.inj hrequest
      rw [openSession_sid] at hsid
      obtain rfl := Option.some.inj hsid
      cases hcookie : cookieSid platform cookie with
      | none => simp [Site.receive, hcookie]
      | some sid => exact hgrows _ (hsigned sid hcookie)
    · exact hgrows _ (h.held token' request hrequest sid hsid)
  · intro client' cookie' hsent
    obtain ⟨sid, hsign, hmem⟩ := h.sent client' cookie' hsent
    exact ⟨sid, hsign, hgrows _ hmem⟩
  · intro sid cell data user hcell hdata hid
    obtain ⟨client', hmem, hlogin⟩ := h.cached sid cell data user hcell hdata hid
    exact ⟨client', hgrows _ hmem, hlogin⟩
  · intro token' request user hrequest hid
    simp only [Site.receive, Function.update_apply] at hrequest
    split_ifs at hrequest
    · obtain rfl := Option.some.inj hrequest
      obtain ⟨sid, cell, data, hsid, hcell, hdata, huser⟩ := openSession_id hid
      obtain ⟨client', hmem, hlogin⟩ := h.cached sid cell data user hcell hdata huser
      rw [h.owner hmem (hsigned sid hsid)] at hlogin
      exact hlogin
    · exact h.acting token' request user hrequest hid

/-- Nothing is added to the cache, and a session gets an account by credentials. -/
theorem Inv.act (h : Inv platform s g) {token : Nat} {request : Request}
    (hrequest : s.requests token = some request) (action : Action) :
    Inv platform (s.act token request action)
      (logins g s (.act token action) (s.act token request action)) := by
  have hgrows : ∀ entry ∈ g,
      entry ∈ logins g s (.act token action) (s.act token request action) := by
    intro entry hentry
    simp only [logins, hrequest]
    cases action.proves with
    | none => exact hentry
    | some user => exact List.mem_cons_of_mem _ hentry
  constructor
  · exact h.once
  · intro token' request' hrequest' sid hsid
    simp only [Site.act, Function.update_apply] at hrequest'
    split_ifs at hrequest'
    · obtain rfl := Option.some.inj hrequest'
      rcases perform_sid request.session action with hsame | hnone
      · exact h.held token request hrequest sid (hsame ▸ hsid)
      · rw [hnone] at hsid
        cases hsid
    · exact h.held token' request' hrequest' sid hsid
  · exact h.sent
  · intro sid cell data user hcell hdata hid
    have hbefore : s.cache.cell (sessionKey platform sid) = some cell := by
      simp only [Site.act] at hcell
      split at hcell
      · simp only [Store.del, Function.update_apply] at hcell
        split_ifs at hcell
        exact hcell
      · exact hcell
    obtain ⟨client, hmem, hlogin⟩ := h.cached sid cell data user hbefore hdata hid
    exact ⟨client, hmem, hgrows _ hlogin⟩
  · intro token' request' user hrequest' hid
    simp only [Site.act, Function.update_apply] at hrequest'
    split_ifs at hrequest'
    · obtain rfl := Option.some.inj hrequest'
      rcases perform_id hid with hbefore | hproves
      · exact hgrows _ (h.acting token request user hrequest hbefore)
      · simp only [logins, hrequest, hproves]
        exact List.mem_cons_self
    · exact hgrows _ (h.acting token' request' user hrequest' hid)

/-- A session is written under an id of its client. -/
theorem Inv.respond (h : Inv platform s g) {token : Nat} {request : Request} {uuid : String}
    (hrequest : s.requests token = some request) (hfresh : uuid ∉ s.generated.map Prod.fst) :
    Inv platform (s.respond platform token request uuid) g := by
  have hgrows : ∀ entry ∈ s.generated,
      entry ∈ (s.respond platform token request uuid).generated := by
    intro entry hentry
    simp only [Site.respond]
    split_ifs
    · exact List.mem_cons_of_mem _ hentry
    · exact hentry
  -- the id under which a session is saved
  have hsaved : (saveSession platform s.cache s.now request.session uuid).2.isSome = true →
      (request.session.sid.getD uuid, request.client) ∈
        (s.respond platform token request uuid).generated := by
    intro hcookie
    cases hsid : request.session.sid with
    | none => simp [Site.respond, hcookie, hsid]
    | some sid => exact hgrows _ (h.held token request hrequest sid hsid)
  constructor
  · simp only [Site.respond]
    split_ifs
    · exact List.nodup_cons.mpr ⟨hfresh, h.once⟩
    · exact h.once
  · intro token' request' hrequest' sid hsid
    simp only [Site.respond, Function.update_apply] at hrequest'
    split_ifs at hrequest'
    exact hgrows _ (h.held token' request' hrequest' sid hsid)
  · intro client cookie hsent
    simp only [Site.respond] at hsent
    split at hsent
    · rename_i cookie' hcookie
      rcases List.mem_cons.mp hsent with hnew | hold
      · obtain ⟨rfl, rfl⟩ := Prod.mk.inj hnew
        exact ⟨_, saveSession_cookie hcookie, hsaved (by rw [hcookie]; rfl)⟩
      · obtain ⟨sid, hsign, hmem⟩ := h.sent client cookie hold
        exact ⟨sid, hsign, hgrows _ hmem⟩
    · obtain ⟨sid, hsign, hmem⟩ := h.sent client cookie hsent
      exact ⟨sid, hsign, hgrows _ hmem⟩
  · intro sid cell data user hcell hdata hid
    rcases saveSession_cell hcell with hbefore | ⟨hkey, hvalue, hcookie⟩
    · obtain ⟨client, hmem, hlogin⟩ := h.cached sid cell data user hbefore hdata hid
      exact ⟨client, hgrows _ hmem, hlogin⟩
    · rw [hvalue, platform.loads_dumps] at hdata
      obtain rfl := Option.some.inj hdata
      rw [sessionKey_inj hkey]
      exact ⟨request.client, hsaved (by rw [hcookie]; rfl),
        h.acting token request user hrequest hid⟩
  · intro token' request' user hrequest' hid
    simp only [Site.respond, Function.update_apply] at hrequest'
    split_ifs at hrequest'
    exact h.acting token' request' user hrequest' hid

theorem Inv.step (h : Inv platform s g) {e : Event} (hplays : Plays platform (s, g) e)
    (hstep : s.step platform e = some t) : Inv platform t (logins g s e t) := by
  cases e with
  | receive token client cookie uuid =>
    simp only [Site.step] at hstep
    split_ifs at hstep
    cases hstep
    exact h.receive hplays
  | act token action =>
    obtain ⟨request, hrequest, rfl⟩ := Option.map_eq_some_iff.mp hstep
    exact h.act hrequest action
  | respond token uuid =>
    obtain ⟨request, hrequest, hstep⟩ := Option.bind_eq_some_iff.mp hstep
    split_ifs at hstep
    cases hstep
    exact h.respond hrequest hplays
  | lost token =>
    cases hstep
    refine ⟨h.once, ?_, h.sent, h.cached, ?_⟩
    · intro token' request hrequest
      simp only [Function.update_apply] at hrequest
      split_ifs at hrequest
      exact h.held token' request hrequest
    · intro token' request user hrequest
      simp only [Function.update_apply] at hrequest
      split_ifs at hrequest
      exact h.acting token' request user hrequest
  | clear =>
    cases hstep
    refine ⟨h.once, h.held, h.sent, ?_, h.acting⟩
    intro sid cell data user hcell
    cases hcell
  | tick seconds =>
    cases hstep
    exact ⟨h.once, h.held, h.sent, h.cached, h.acting⟩

theorem Inv.reach {p : Site V × List (Nat × Nat)}
    (h : Reach (monitored (Site.step platform) logins) (Plays platform) (Site.idle, []) p) :
    Inv platform p.1 p.2 := by
  apply h.invariant (fun p => Inv platform p.1 p.2) inv_idle
  rintro ⟨s, g⟩ e ⟨t, g'⟩ hinv hplays hstep
  obtain ⟨hnext, hhistory⟩ := monitored_eq_some.mp hstep
  have hkept := hinv.step hplays hnext
  simp only at hhistory
  rw [hhistory]
  exact hkept

/-- In whatever order requests are handled, one is handled as a user only if its client has logged
in as that user. -/
theorem sessions_of_own_logins {p : Site V × List (Nat × Nat)}
    (h : Reach (monitored (Site.step platform) logins) (Plays platform) (Site.idle, []) p)
    {token user : Nat} {request : Request} (hrequest : p.1.requests token = some request)
    (hid : request.session.data.id = some user) : (request.client, user) ∈ p.2 :=
  (Inv.reach h).acting token request user hrequest hid

/-! ### After a logout -/

/-- The action puts an account into the session without giving it another id. -/
def Action.enters : Action → Bool
  | .enter _ _ _ | .update (some _) _ => true
  | _ => false

/-- No request enters the session `sid` with a token, and ids are not generated twice. -/
def Leaves (sid : String) (s : Site V) : Event → Prop
  | .receive _ _ _ uuid | .respond _ uuid => uuid ∉ s.generated.map Prod.fst
  | .act token action =>
    ∀ request ∈ s.requests token, request.session.sid = some sid → action.enters = false
  | _ => True

/-- Nothing under the id, in the cache or with a request, has an account. -/
structure Out (platform : Platform V) (sid : String) (s : Site V) : Prop where
  known : sid ∈ s.generated.map Prod.fst
  cached : ∀ cell data, s.cache.cell (sessionKey platform sid) = some cell →
    platform.loads cell.value = some data → data.id = none
  acting : ∀ token request, s.requests token = some request → request.session.sid = some sid →
    request.session.data.id = none

theorem Out.openSession (h : Out platform sid s) {cookie : Option String}
    (hsid : cookieSid platform cookie = some sid) (uuid : String) :
    (openSession platform s.cache s.now cookie uuid).data.id = none := by
  cases hid : (CachedSession.openSession platform s.cache s.now cookie uuid).data.id with
  | none => rfl
  | some user =>
    obtain ⟨sid', cell, data, hsid', hcell, hdata, huser⟩ := openSession_id hid
    obtain rfl := Option.some.inj (hsid'.symm.trans hsid)
    exact huser.symm.trans (h.cached cell data hcell hdata)

/-- An account comes into a session with an action that enters it. -/
theorem perform_id_none {session : Session} {action : Action} (hid : session.data.id = none)
    (hsid : (action.perform session).sid = some sid) (henters : action.enters = false) :
    (action.perform session).data.id = none := by
  cases hnew : (action.perform session).data.id with
  | none => rfl
  | some user =>
    rcases perform_id hnew with hbefore | hproves
    · exact hbefore.symm.trans hid
    · cases action with
      | login user hash nonce => cases hsid
      | enter user hash nonce => cases henters
      | update shown hash =>
        cases shown with
        | none => cases hproves
        | some shown => cases henters
      | csrf nonce | currentUser hash | logout | flash message | flashed => cases hproves

theorem Out.receive (h : Out platform sid s) {token client : Nat} {cookie : Option String}
    {uuid : String} (hfresh : uuid ∉ s.generated.map Prod.fst) :
    Out platform sid (s.receive platform token client cookie uuid) := by
  constructor
  · simp only [Site.receive]
    split_ifs
    · exact h.known
    · exact List.mem_cons_of_mem _ h.known
  · exact h.cached
  · intro token' request hrequest hsid
    simp only [Site.receive, Function.update_apply] at hrequest
    split_ifs at hrequest
    · obtain rfl := Option.some.inj hrequest
      rw [openSession_sid, Option.some.injEq] at hsid
      cases hcookie : cookieSid platform cookie with
      | none =>
        -- a new id is not the old one
        rw [hcookie, Option.getD_none] at hsid
        exact absurd (hsid ▸ h.known) hfresh
      | some sid' =>
        rw [hcookie, Option.getD_some] at hsid
        exact h.openSession (hsid ▸ hcookie) uuid
    · exact h.acting token' request hrequest hsid

theorem Out.act (h : Out platform sid s) {token : Nat} {request : Request} {action : Action}
    (hrequest : s.requests token = some request)
    (hleaves : request.session.sid = some sid → action.enters = false) :
    Out platform sid (s.act token request action) := by
  constructor
  · exact h.known
  · intro cell data hcell
    apply h.cached cell data
    simp only [Site.act] at hcell
    split at hcell
    · simp only [Store.del, Function.update_apply] at hcell
      split_ifs at hcell
      exact hcell
    · exact hcell
  · intro token' request' hrequest' hsid
    simp only [Site.act, Function.update_apply] at hrequest'
    split_ifs at hrequest'
    · obtain rfl := Option.some.inj hrequest'
      rcases perform_sid request.session action with hsame | hnone
      · have hbefore := hsame.symm.trans hsid
        exact perform_id_none (h.acting token request hrequest hbefore) hsid (hleaves hbefore)
      · cases hnone.symm.trans hsid
    · exact h.acting token' request' hrequest' hsid

theorem Out.respond (h : Out platform sid s) {token : Nat} {request : Request} {uuid : String}
    (hrequest : s.requests token = some request) (hfresh : uuid ∉ s.generated.map Prod.fst) :
    Out platform sid (s.respond platform token request uuid) := by
  constructor
  · simp only [Site.respond]
    split_ifs
    · exact List.mem_cons_of_mem _ h.known
    · exact h.known
  · intro cell data hcell hdata
    rcases saveSession_cell hcell with hbefore | ⟨hkey, hvalue, -⟩
    · exact h.cached cell data hbefore hdata
    · rw [hvalue, platform.loads_dumps] at hdata
      obtain rfl := Option.some.inj hdata
      have hsid := sessionKey_inj hkey
      cases hown : request.session.sid with
      | none =>
        rw [hown, Option.getD_none] at hsid
        exact absurd (hsid ▸ h.known) hfresh
      | some sid' =>
        rw [hown, Option.getD_some] at hsid
        exact h.acting token request hrequest (hsid ▸ hown)
  · intro token' request' hrequest'
    simp only [Site.respond, Function.update_apply] at hrequest'
    split_ifs at hrequest'
    exact h.acting token' request' hrequest'

theorem Out.step (h : Out platform sid s) {e : Event} (hleaves : Leaves sid s e)
    (hstep : s.step platform e = some t) : Out platform sid t := by
  cases e with
  | receive token client cookie uuid =>
    simp only [Site.step] at hstep
    split_ifs at hstep
    cases hstep
    exact h.receive hleaves
  | act token action =>
    obtain ⟨request, hrequest, rfl⟩ := Option.map_eq_some_iff.mp hstep
    exact h.act hrequest (hleaves request hrequest)
  | respond token uuid =>
    obtain ⟨request, hrequest, hstep⟩ := Option.bind_eq_some_iff.mp hstep
    split_ifs at hstep
    cases hstep
    exact h.respond hrequest hleaves
  | lost token =>
    cases hstep
    refine ⟨h.known, h.cached, ?_⟩
    intro token' request hrequest
    simp only [Function.update_apply] at hrequest
    split_ifs at hrequest
    exact h.acting token' request hrequest
  | clear =>
    cases hstep
    refine ⟨h.known, ?_, h.acting⟩
    intro cell data hcell
    cases hcell
  | tick seconds =>
    cases hstep
    exact ⟨h.known, h.cached, h.acting⟩

/-- A request that has emptied its session takes the account from the cache with its response. -/
theorem out_of_respond {request : Request} {token : Nat} (uuid : String)
    (hinv : Inv platform s g) (hrequest : s.requests token = some request)
    (hsid : request.session.sid = some sid) (hout : request.session.data = {})
    (hmodified : request.session.modified = true)
    (halone : ∀ token' ≠ token, ∀ request' ∈ s.requests token', request'.session.sid ≠ some sid) :
    Out platform sid (s.respond platform token request uuid) := by
  have hsaved : saveSession platform s.cache s.now request.session uuid =
      (s.cache.del (sessionKey platform sid), none) := by
    simp only [saveSession, hout, hmodified, hsid, if_true]
  constructor
  · simp only [Site.respond, hsaved, Option.isSome_none, Bool.false_eq_true, false_and, if_false]
    exact List.mem_map.mpr ⟨_, hinv.held token request hrequest sid hsid, rfl⟩
  · intro cell data hcell
    simp only [Site.respond, hsaved, Store.del, Function.update_self] at hcell
    cases hcell
  · intro token' request' hrequest' hsid'
    simp only [Site.respond, Function.update_apply] at hrequest'
    split_ifs at hrequest' with hother
    exact absurd hsid' (halone token' hother request' hrequest')

/-- After the response to a logout, with no other request under way in this session, the cookie
gives no account any more, until somebody enters the session with a token. -/
theorem logout_lasts {p : Site V × List (Nat × Nat)}
    (h : Reach (monitored (Site.step platform) logins) (Plays platform) (Site.idle, []) p)
    {request : Request} {token : Nat} {uuid : String}
    (hrequest : p.1.requests token = some request) (hsid : request.session.sid = some sid)
    (hout : request.session.data = {}) (hmodified : request.session.modified = true)
    (halone : ∀ token' ≠ token, ∀ request' ∈ p.1.requests token', request'.session.sid ≠ some sid)
    (hrespond : p.1.step platform (.respond token uuid) = some t)
    (hrun : Reach (Site.step platform) (Leaves sid) t s) :
    (∀ token request, s.requests token = some request → request.session.sid = some sid →
      request.session.data.id = none) ∧
    ∀ cookie uuid, cookieSid platform cookie = some sid →
      (openSession platform s.cache s.now cookie uuid).data.id = none := by
  obtain ⟨request', hrequest', hstep⟩ := Option.bind_eq_some_iff.mp hrespond
  obtain rfl := Option.some.inj (hrequest.symm.trans hrequest')
  split_ifs at hstep
  cases hstep
  have hstart := out_of_respond uuid (Inv.reach h) hrequest hsid hout hmodified halone
  have hend : Out platform sid s :=
    hrun.invariant (Out platform sid) hstart fun s e t hs hleaves hstep => hs.step hleaves hstep
  exact ⟨hend.acting, fun cookie uuid hcookie => hend.openSession hcookie uuid⟩

end Runs

/-- A signature that is the same for every id. -/
def plain : Platform Data where
  sign sid := sid ++ ".sig"
  unsign signed :=
    let length := signed.toList.length - 4
    if signed.toList.drop length = ".sig".toList then
      some (String.ofList (signed.toList.take length))
    else none
  dumps data := data
  loads data := some data
  unsign_sign sid := by
    have hlength : (sid.toList ++ ".sig".toList).length - 4 = sid.toList.length := by
      rw [List.length_append]
      exact Nat.add_sub_cancel _ 4
    simp only [String.toList_append, hlength, List.drop_left, List.take_left, if_true,
      String.ofList_toList]
  loads_dumps _ := rfl

/-- A client logs in, and comes back with its cookie. -/
def loginRun : List Event :=
  [.receive 0 7 none "a", .act 0 (.csrf "n"), .act 0 (.login 1 "h" "m"), .respond 0 "b",
    .receive 0 7 (some "b.sig") "c"]

theorem sessions_of_loginRun : ∃ p : Site Data × List (Nat × Nat), (7, 1) ∈ p.2 ∧
    (p.1.requests 0).map (fun request => request.session.data.id) = some (some 1) := by
  obtain ⟨p, hreach, hp⟩ := exists_reach_of_exec (monitored (Site.step plain) logins)
    (Plays plain) (Site.idle, []) loginRun
    (p := fun p => (p.1.requests 0).any fun request =>
      request.client = 7 ∧ request.session.data.id = some 1) (by decide +kernel) (by decide +kernel)
  obtain ⟨request, hrequest, hdata⟩ := (Option.any_eq_true _ _).mp hp
  obtain ⟨hclient, hid⟩ := of_decide_eq_true hdata
  have hlogin := sessions_of_own_logins hreach hrequest hid
  rw [hclient] at hlogin
  exact ⟨p, hlogin, by rw [hrequest, Option.map_some, hid]⟩

theorem logout_lasts_loginRun : ∃ s : Site Data, ∀ cookie uuid, cookieSid plain cookie = some "b" →
    (openSession plain s.cache s.now cookie uuid).data.id = none := by
  obtain ⟨p, hexec, hp⟩ := (Option.any_eq_true _ _).mp
    (show (exec (monitored (Site.step plain) logins)
      (Site.idle, []) (loginRun ++ [.act 0 .logout])).any (fun p =>
        (p.1.requests 0).any fun request =>
          request.session = ⟨{}, some "b", true⟩) = true by decide +kernel)
  obtain ⟨request, hrequest, hdata⟩ := (Option.any_eq_true _ _).mp hp
  have hsession : request.session = ⟨{}, some "b", true⟩ := of_decide_eq_true hdata
  have hsid : request.session.sid = some "b" := by rw [hsession]
  have hrespond : p.1.step plain (.respond 0 "d") = some (p.1.respond plain 0 request "d") := by
    simp [Site.step, hrequest, hsid]
  have halone : ∀ token' ≠ 0, p.1.requests token' = none := by
    apply (reach_of_exec _ hexec
      (show Meets _ (fun _ e => e.token = some 0) _ _ by decide)).invariant
      (fun p => ∀ token' ≠ 0, p.1.requests token' = none) (fun _ _ => rfl)
    intro q e r hq htoken hstep token' hother
    rw [requests_step (monitored_eq_some.mp hstep).1 (by simp [htoken, hother.symm])]
    exact hq token' hother
  refine ⟨p.1.respond plain 0 request "d", (logout_lasts (reach_of_exec _ hexec
    (show Meets _ (Plays plain) _ _ by decide +kernel)) hrequest hsid (by rw [hsession])
      (by rw [hsession]) ?_ hrespond .start).2⟩
  intro token' hother request' hrequest'
  rw [halone token' hother] at hrequest'
  cases hrequest'

end Fctf.CachedSession
