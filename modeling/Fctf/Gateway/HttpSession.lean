import Fctf.Gateway.Route
import Fctf.Gateway.TcpSession
import Mathlib.Data.List.Infix
import Mathlib.Data.String.Basic

/-!
What becomes of an HTTP request to the gateway: the request that a challenge server gets, the
line of the access log, and the target of a redirect. Queries and `Cookie` headers are lists of
their parts, as `net/url` and `net/http` read and print them.
-/

namespace Fctf.HttpGateway

/-! ### Requests -/

/-- A part of a query or of a `Cookie` header. A malformed one is passed over when it is read. -/
inductive Part
  | pair (name value : String)
  | malformed (text : String)
  deriving DecidableEq

def Part.pair? : Part → Option (String × String)
  | .pair name value => some (name, value)
  | .malformed _ => none

def pairs (parts : List Part) : List (String × String) := parts.filterMap Part.pair?

/-- The first value of a name. -/
def firstValue (parts : List Part) (name : String) : Option String :=
  ((pairs parts).find? fun pair => pair.1 = name).map Prod.snd

/-- Of the path, `URL.Path` and the segments of `URL.EscapedPath()`; of the headers those that
are passed on, but for `Cookie`; the bytes of the body as characters. -/
structure Request where
  method : String
  path : String
  escapedPath : List String
  query : List Part := []
  cookies : List Part := []
  headers : List (String × String) := []
  body : String := ""
  contentLength : Int := 0
  clientIP : String

structure UpstreamRequest where
  host : String
  method : String
  path : String
  escapedPath : List String
  query : List Part
  cookies : List (String × String)
  headers : List (String × String)
  body : String

/-- The target of a redirect. -/
structure Target where
  escapedPath : List String
  query : List Part

/-- What an access-log line prints. -/
structure LogLine where
  method : String
  path : String
  rawQuery : Option (List Part)
  status : Nat
  ids : Option (Int × Int)
  ns : String
  targetHost : String
  /-- The body of a POST, as far as it was read, and whether the rest of it was cut off. -/
  postSuffix : Option (String × Bool)

/-! ### The gateway -/

inductive Access
  | ok | revoked | unavailable
  deriving DecidableEq

/-- What the proxy reads of the body, and the status of the answer; `none` when the answer is
broken off with a panic. -/
structure UpstreamAnswer where
  read : Nat
  status : Option Nat

/-- The secrets of the gateway, its clock, and what it is answered. -/
structure Gateway where
  platform : TokenPlatform
  now : Int
  httpMaxBodyBytes : Int
  httpIPRateAllow : Bool
  httpRateAllow : String → Bool
  accessCheck : String → Payload → Access
  answer : UpstreamAnswer

/-- What a handler did: its status, `requestInfo`, and what it sent where. -/
structure Handled where
  status : Option Nat
  route : Option String := none
  captured : String := ""
  upstream : Option UpstreamRequest := none
  redirect : Option Target := none

def refused (status : Nat) : Handled where
  status := some status

def challengeCookieName : String := "FCTF_Auth_Token"

def tokenParameter : String := "fctftoken"

def maxLoggedPostBodyBytes : Nat := 2048

/-- `path.Clean` on segments: empty ones and single dots go, two dots take the one before. -/
def cleanStep (kept : List String) (segment : String) : List String :=
  if segment = "" ∨ segment = "." then kept
  else if segment = ".." then kept.tail
  else segment :: kept

/-- The path that `ServeMux` has a request redirected to, if it is another one. -/
def cleanPath (segments : List String) : List String :=
  let cleaned := (segments.foldl cleanStep []).reverse
  if cleaned = [] ∨ segments.getLast? = some "" then cleaned ++ [""] else cleaned

/-- `Values.Encode`: sorted by name. -/
def encode (values : List (String × String)) : List Part :=
  (values.mergeSort fun a b => decide (a.1 ≤ b.1)).map fun pair => .pair pair.1 pair.2

/-- The path that the source hands over is the one that the URL has. -/
def buildCleanRedirectURL (r : Request) : Target where
  escapedPath := cleanPath r.escapedPath
  query := encode ((pairs r.query).filter fun pair => pair.1 ≠ tokenParameter)

def extractTokenFromRequest (r : Request) : String := (firstValue r.query tokenParameter).getD ""

/-- The cookies are read, the header is deleted, and the others are added again. -/
def cleanProxyCookies (cookies : List Part) : List (String × String) :=
  (pairs cookies).foldl
    (fun header c => if c.1 ≠ challengeCookieName then header ++ [c] else header) []

/-- Sets the cookie for the token as well. -/
def redirected (r : Request) : Handled where
  status := some 302
  redirect := some (buildCleanRedirectURL r)

def targetHost (route : String) : String := String.ofList (expandRoute route.toList)

/-- The request that the reverse proxy makes, its own header with the client's address included. -/
def director (r : Request) (host : String) : UpstreamRequest where
  host := host
  method := r.method
  path := r.path
  escapedPath := r.escapedPath
  query := r.query
  cookies := cleanProxyCookies r.cookies
  headers := r.headers ++ [("X-Forwarded-For", r.clientIP)]
  body := r.body

namespace Gateway

variable (g : Gateway)

/-- `Verify`, the limiter of the token, and `checkAccess`, with the status of a refusal. -/
def authorise (tok : String) : Except Nat Payload :=
  match g.platform.verify g.now tok with
  | .error _ => .error 401
  | .ok payload =>
    if !g.httpRateAllow tok then .error 429
    else
      match g.accessCheck tok payload with
      | .ok => .ok payload
      | .revoked => .error 410
      | .unavailable => .error 503

/-- `ServeHTTP` of the proxy; what it reads of the body is captured. -/
def passedOn (r : Request) (payload : Payload) : Handled where
  status := g.answer.status
  route := some payload.route
  captured := String.ofList (r.body.toList.take g.answer.read)
  upstream := some (director r (targetHost payload.route))

def httpGatewayHandler (r : Request) : Handled :=
  let tok := extractTokenFromRequest r
  if tok ≠ "" then
    match g.authorise tok with
    | .error status => refused status
    | .ok _ => redirected r
  else
    let tok := (firstValue r.cookies challengeCookieName).getD ""
    if tok = "" then refused 401
    else
      match g.authorise tok with
      | .error status => refused status
      | .ok payload => g.passedOn r payload

/-- The limit on the size of the body, behind that on the requests of an address. -/
def limited (r : Request) : Handled :=
  if !g.httpIPRateAllow then refused 429
  else if 0 < g.httpMaxBodyBytes ∧ 0 < r.contentLength ∧ g.httpMaxBodyBytes < r.contentLength then
    refused 413
  else g.httpGatewayHandler r

end Gateway

/-- The host that is logged for a route. -/
def loggedHost (route : String) : String :=
  if targetHost route = "" then "-" else targetHost route

/-- The line that `loggingMiddleware` writes once the request is handled. -/
def logLine (r : Request) (handled : Handled) : Option LogLine :=
  handled.status.bind fun status =>
    let route := handled.route.getD ""
    let host := loggedHost route
    if r.method = "GET" ∧ status = 302 ∧ host = "-" ∧ extractTokenFromRequest r ≠ "" then none
    else
      some
        { method := r.method
          path := r.path
          rawQuery := if r.method = "GET" ∧ r.query ≠ [] then some r.query else none
          status := status
          ids := if host = "-" then none else parseTeamChallengeFromRoute host.toList
          ns := route
          targetHost := host
          postSuffix :=
            if r.method = "POST" then
              some (String.ofList (handled.captured.toList.take maxLoggedPostBodyBytes),
                decide (maxLoggedPostBodyBytes < handled.captured.length))
            else none }

/-- What a request leaves. -/
structure Outcome where
  upstream : Option UpstreamRequest := none
  log : Option LogLine := none
  redirect : Option Target := none

/-- `ServeMux` has a path cleaned first, by a redirect; the health checks are answered at once,
and an empty path is not found. -/
def Gateway.serve (g : Gateway) (r : Request) : Outcome :=
  if r.method ≠ "CONNECT" ∧ cleanPath r.escapedPath ≠ r.escapedPath then
    { redirect := some ⟨cleanPath r.escapedPath, r.query⟩ }
  else if r.escapedPath ∈ [["healthz"], ["healthcheck"], []] then {}
  else
    let handled := g.limited r
    { upstream := handled.upstream, log := logLine r handled, redirect := handled.redirect }

/-! ### Texts with a token in them -/

def Has (tok text : String) : Prop := tok.toList <:+: text.toList

instance (tok text : String) : Decidable (Has tok text) :=
  inferInstanceAs (Decidable (tok.toList <:+: text.toList))

def Part.texts : Part → List String
  | .pair name value => [name, value]
  | .malformed text => [text]

def pairTexts (pair : String × String) : List String := [pair.1, pair.2]

def UpstreamRequest.texts (up : UpstreamRequest) : List String :=
  up.host :: up.method :: up.path :: up.body :: (up.escapedPath ++ (up.query.flatMap Part.texts ++
    (up.cookies.flatMap pairTexts ++ up.headers.flatMap pairTexts)))

def LogLine.texts (line : LogLine) : List String :=
  line.method :: line.path :: line.ns :: line.targetHost ::
    ((line.rawQuery.getD []).flatMap Part.texts ++ (line.postSuffix.map Prod.fst).toList)

def Target.texts (target : Target) : List String :=
  target.escapedPath ++ target.query.flatMap Part.texts

/-- Is not a pair with a name. -/
def Part.isOther (name : String) : Part → Bool
  | .pair other _ => other ≠ name
  | .malformed _ => true

/-- What a request says apart from its token parameters and token cookies. -/
def Request.otherTexts (r : Request) : List String :=
  r.method :: r.path :: r.body :: r.clientIP :: (r.escapedPath ++
    ((r.query.filter (Part.isOther tokenParameter)).flatMap Part.texts ++
      ((r.cookies.filter (Part.isOther challengeCookieName)).flatMap Part.texts ++
        r.headers.flatMap pairTexts)))

def HasAny (tok : String) (texts : List String) : Prop := ∃ text ∈ texts, Has tok text

/-- The token is in a parameter of the query. -/
def QueryCarries (tok : String) (r : Request) : Prop := HasAny tok (r.query.flatMap Part.texts)

/-- A request that carries a token, in parameters and cookies for it only. -/
structure CarriedOnly (tok : String) (r : Request) : Prop where
  carried : QueryCarries tok r ∨ HasAny tok (r.cookies.flatMap Part.texts)
  elsewhere : ¬ HasAny tok r.otherTexts

/-- The token stays inside, and the other cookies get through in order. -/
structure Inside (tok : String) (r : Request) (outcome : Outcome) : Prop where
  upstream : ∀ up ∈ outcome.upstream, ¬ HasAny tok up.texts
  log : ∀ line ∈ outcome.log, ¬ HasAny tok line.texts
  redirect : ∀ target ∈ outcome.redirect, ¬ HasAny tok target.texts
  cookies : ∀ up ∈ outcome.upstream,
    up.cookies = (pairs r.cookies).filter fun c => c.1 ≠ challengeCookieName

theorem hasAny_append {tok : String} {a b : List String} :
    HasAny tok (a ++ b) ↔ HasAny tok a ∨ HasAny tok b := by
  simp only [HasAny, List.mem_append, or_and_right, exists_or]

theorem hasAny_cons {tok text : String} {texts : List String} :
    HasAny tok (text :: texts) ↔ Has tok text ∨ HasAny tok texts := by
  simp [HasAny]

theorem not_hasAny_nil (tok : String) : ¬ HasAny tok [] := by
  simp [HasAny]

theorem HasAny.mono {tok : String} {a b : List String} (h : HasAny tok a)
    (hsub : ∀ text ∈ a, text ∈ b) : HasAny tok b := by
  obtain ⟨text, hmem, hhas⟩ := h
  exact ⟨text, hsub text hmem, hhas⟩

/-- A text that is cut off has no token that it did not have before. -/
theorem Has.of_take {tok text : String} {n : Nat}
    (h : Has tok (String.ofList (text.toList.take n))) : Has tok text := by
  rw [Has, String.toList_ofList] at h
  exact h.trans (List.take_prefix n text.toList).isInfix

/-- A token has a dot, so it is in no text without one. -/
theorem not_has_of_dot {tok text : String} (hdot : '.' ∈ tok.toList) (htext : '.' ∉ text.toList) :
    ¬ Has tok text :=
  fun h => htext (h.subset hdot)

section Carried

variable {g : Gateway} {r : Request} {tok : String}

/-! ### What the parts of a request have -/

theorem dot_mem_of_verify {payload : Payload} (h : g.platform.verify g.now tok = .ok payload) :
    '.' ∈ tok.toList := by
  obtain ⟨before, after, htext, -⟩ := g.platform.verify_eq_ok_iff.mp h
  simp [htext]

/-- The texts that a request's own parts have elsewhere. -/
structure Elsewhere (tok : String) (r : Request) : Prop where
  method : ¬ Has tok r.method
  path : ¬ Has tok r.path
  body : ¬ Has tok r.body
  clientIP : ¬ Has tok r.clientIP
  escapedPath : ¬ HasAny tok r.escapedPath
  query : ¬ HasAny tok ((r.query.filter (Part.isOther tokenParameter)).flatMap Part.texts)
  cookies : ¬ HasAny tok
    ((r.cookies.filter (Part.isOther challengeCookieName)).flatMap Part.texts)
  headers : ¬ HasAny tok (r.headers.flatMap pairTexts)

theorem CarriedOnly.elsewhere_parts (h : CarriedOnly tok r) : Elsewhere tok r := by
  have hother := h.elsewhere
  simp only [Request.otherTexts, hasAny_cons, hasAny_append, not_or] at hother
  obtain ⟨hmethod, hpath, hbody, hclient, hescaped, hquery, hcookies, hheaders⟩ := hother
  exact ⟨hmethod, hpath, hbody, hclient, hescaped, hquery, hcookies, hheaders⟩

theorem mem_pairs {parts : List Part} {pair : String × String} :
    pair ∈ pairs parts ↔ Part.pair pair.1 pair.2 ∈ parts := by
  rw [pairs, List.mem_filterMap]
  constructor
  · rintro ⟨part, hpart, heq⟩
    cases part with
    | pair name value =>
      obtain rfl := Option.some.inj heq
      exact hpart
    | malformed text => cases heq
  · exact fun h => ⟨_, h, rfl⟩

/-- The texts of the pairs with another name. -/
theorem other_pair_mem {parts : List Part} {name : String} {pair : String × String}
    (hpair : pair ∈ pairs parts) (hname : pair.1 ≠ name) {text : String}
    (htext : text ∈ pairTexts pair) :
    text ∈ (parts.filter (Part.isOther name)).flatMap Part.texts := by
  refine List.mem_flatMap.mpr ⟨.pair pair.1 pair.2, List.mem_filter.mpr ⟨mem_pairs.mp hpair, ?_⟩,
    htext⟩
  simpa [Part.isOther] using hname

theorem cleanProxyCookies_eq (cookies : List Part) :
    cleanProxyCookies cookies = (pairs cookies).filter fun c => c.1 ≠ challengeCookieName := by
  have hfold : ∀ (l header : List (String × String)),
      l.foldl (fun header c => if c.1 ≠ challengeCookieName then header ++ [c] else header) header =
        header ++ l.filter fun c => c.1 ≠ challengeCookieName := by
    intro l
    induction l with
    | nil => exact fun header => (List.append_nil header).symm
    | cons c l ih =>
      intro header
      rw [List.foldl_cons, ih]
      by_cases hc : c.1 ≠ challengeCookieName
      · simp [hc]
      · simp [hc]
  exact hfold _ []

theorem mem_cleanPath {segments : List String} {segment : String}
    (h : segment ∈ cleanPath segments) : segment ∈ segments ∨ segment = "" := by
  have hfold : ∀ (l kept : List String), ∀ x ∈ l.foldl cleanStep kept, x ∈ l ∨ x ∈ kept := by
    intro l
    induction l with
    | nil => exact fun kept x hx => Or.inr hx
    | cons head l ih =>
      intro kept x hx
      rcases ih (cleanStep kept head) x hx with hl | hkept
      · exact Or.inl (List.mem_cons_of_mem head hl)
      · unfold cleanStep at hkept
        split_ifs at hkept
        · exact Or.inr hkept
        · exact Or.inr (List.mem_of_mem_tail hkept)
        · rcases List.mem_cons.mp hkept with rfl | hmem
          · exact Or.inl List.mem_cons_self
          · exact Or.inr hmem
  have hcleaned : ∀ x ∈ (segments.foldl cleanStep []).reverse, x ∈ segments := by
    intro x hx
    exact (hfold segments [] x (List.mem_reverse.mp hx)).resolve_right List.not_mem_nil
  unfold cleanPath at h
  simp only at h
  split_ifs at h
  · rcases List.mem_append.mp h with h | h
    · exact Or.inl (hcleaned segment h)
    · exact Or.inr (List.mem_singleton.mp h)
  · exact Or.inl (hcleaned segment h)

theorem not_hasAny_cleanPath (hdot : '.' ∈ tok.toList) (h : Elsewhere tok r) :
    ¬ HasAny tok (cleanPath r.escapedPath) := by
  rintro ⟨segment, hmem, hhas⟩
  rcases mem_cleanPath hmem with hsegment | rfl
  · exact h.escapedPath ⟨segment, hsegment, hhas⟩
  · exact not_has_of_dot hdot (by simp) hhas

/-! ### Redirects -/

theorem not_hasAny_redirect (hdot : '.' ∈ tok.toList) (h : Elsewhere tok r) :
    ¬ HasAny tok (buildCleanRedirectURL r).texts := by
  rw [Target.texts, hasAny_append, not_or]
  refine ⟨not_hasAny_cleanPath hdot h, fun hquery => h.query (hquery.mono ?_)⟩
  intro text htext
  simp only [buildCleanRedirectURL, encode, List.flatMap_map, List.mem_flatMap,
    List.mem_mergeSort, List.mem_filter, decide_eq_true_eq] at htext
  obtain ⟨pair, ⟨hpair, hname⟩, htext⟩ := htext
  exact other_pair_mem hpair hname htext

/-- The redirect to a clean path hands the query on as it is. -/
theorem hasAny_muxRedirect_iff (hdot : '.' ∈ tok.toList) (h : Elsewhere tok r) :
    HasAny tok (Target.texts ⟨cleanPath r.escapedPath, r.query⟩) ↔ QueryCarries tok r := by
  rw [Target.texts, hasAny_append]
  exact or_iff_right (not_hasAny_cleanPath hdot h)

/-! ### The request to the challenge server -/

theorem hasAny_director_iff (hdot : '.' ∈ tok.toList) (h : Elsewhere tok r) (host : String) :
    HasAny tok (director r host).texts ↔ QueryCarries tok r ∨ Has tok host := by
  have hcookies : ¬ HasAny tok ((cleanProxyCookies r.cookies).flatMap pairTexts) := by
    refine fun hhas => h.cookies (hhas.mono ?_)
    intro text htext
    rw [cleanProxyCookies_eq] at htext
    obtain ⟨pair, hpair, htext⟩ := List.mem_flatMap.mp htext
    obtain ⟨hpair, hname⟩ := List.mem_filter.mp hpair
    exact other_pair_mem hpair (of_decide_eq_true hname) htext
  have hheaders : ¬ HasAny tok
      ((r.headers ++ [("X-Forwarded-For", r.clientIP)]).flatMap pairTexts) := by
    simp only [List.flatMap_append, hasAny_append, List.flatMap_singleton, pairTexts, hasAny_cons,
      not_or]
    exact ⟨h.headers, not_has_of_dot hdot (by decide), h.clientIP, not_hasAny_nil tok⟩
  simp only [UpstreamRequest.texts, director, hasAny_cons, hasAny_append, h.method, h.path, h.body,
    h.escapedPath, hcookies, hheaders, QueryCarries]
  simp [or_comm]

/-! ### The access log -/

/-- A line has the token from the query of a GET only, when nothing else that it prints has it. -/
theorem hasAny_logLine_iff (h : Elsewhere tok r) (handled : Handled) (status : Nat)
    (hstatus : handled.status = some status) (hroute : ¬ Has tok (handled.route.getD ""))
    (hhost : ¬ Has tok (loggedHost (handled.route.getD "")))
    (hcaptured : ¬ Has tok handled.captured) :
    (∃ line ∈ logLine r handled, HasAny tok line.texts) ↔
      (r.method = "GET" ∧ QueryCarries tok r) ∧
        ¬ (status = 302 ∧ loggedHost (handled.route.getD "") = "-" ∧
          extractTokenFromRequest r ≠ "") := by
  simp only [logLine, hstatus, Option.bind_some]
  by_cases hquiet : r.method = "GET" ∧ status = 302 ∧
      loggedHost (handled.route.getD "") = "-" ∧ extractTokenFromRequest r ≠ ""
  · rw [if_pos hquiet]
    exact iff_of_false (fun ⟨_, hline, _⟩ => by cases hline) fun hcarries => hcarries.2 hquiet.2
  · have hsuffix : ¬ HasAny tok (Option.map Prod.fst (if r.method = "POST" then
        some (String.ofList (handled.captured.toList.take maxLoggedPostBodyBytes),
          decide (maxLoggedPostBodyBytes < handled.captured.length)) else none)).toList := by
      split
      · simp only [Option.map_some, Option.toList_some, hasAny_cons, not_or]
        exact ⟨fun hhas => hcaptured hhas.of_take, not_hasAny_nil tok⟩
      · exact not_hasAny_nil tok
    rw [if_neg hquiet]
    simp only [Option.mem_def, Option.some.injEq, exists_eq_left', LogLine.texts, hasAny_cons,
      hasAny_append, h.method, h.path, hroute, hhost, hsuffix, false_or, or_false]
    by_cases hget : r.method = "GET"
    · have hloud : ¬ (status = 302 ∧ loggedHost (handled.route.getD "") = "-" ∧
          extractTokenFromRequest r ≠ "") := fun hall => hquiet ⟨hget, hall⟩
      rw [and_iff_left hloud]
      by_cases hquery : r.query = []
      · simp [QueryCarries, hget, hquery, HasAny]
      · simp [QueryCarries, hget, hquery]
    · simp [hget, HasAny]

/-! ### Refused, redirected, passed on -/

theorem inside_of_none (r : Request) : Inside tok r {} := by
  constructor <;> intro _ h <;> cases h

theorem not_has_bare (hdot : '.' ∈ tok.toList) : ¬ Has tok "" ∧ ¬ Has tok (loggedHost "") :=
  ⟨not_has_of_dot hdot (by decide), not_has_of_dot hdot (by decide)⟩

theorem inside_refused_iff (hdot : '.' ∈ tok.toList) (h : Elsewhere tok r) {status : Nat}
    (hstatus : status ≠ 302) :
    Inside tok r { log := logLine r (refused status) } ↔
      ¬ (r.method = "GET" ∧ QueryCarries tok r) := by
  obtain ⟨hempty, hhost⟩ := not_has_bare hdot
  have hline := hasAny_logLine_iff h (refused status) status rfl hempty hhost hempty
  rw [and_iff_left fun hall => hstatus hall.1] at hline
  rw [← hline]
  constructor
  · rintro hinside ⟨line, hmem, hhas⟩
    exact hinside.log line hmem hhas
  · intro hnone
    refine ⟨?_, fun line hmem hhas => hnone ⟨line, hmem, hhas⟩, ?_, ?_⟩ <;> intro _ hsome <;>
      cases hsome

theorem inside_redirected (hdot : '.' ∈ tok.toList) (h : Elsewhere tok r)
    (htoken : extractTokenFromRequest r ≠ "") :
    Inside tok r { log := logLine r (redirected r), redirect := (redirected r).redirect } := by
  obtain ⟨hempty, hhost⟩ := not_has_bare hdot
  have hline := hasAny_logLine_iff h (redirected r) 302 rfl hempty hhost hempty
  refine ⟨nofun, ?_, ?_, nofun⟩
  · intro line hmem hhas
    exact (hline.mp ⟨line, hmem, hhas⟩).2 ⟨rfl, rfl, htoken⟩
  · intro target htarget
    obtain rfl := Option.some.inj htarget
    exact not_hasAny_redirect hdot h

theorem Has.of_route {route : String} (h : Has tok route) : Has tok (targetHost route) := by
  rw [Has, targetHost, String.toList_ofList]
  refine List.IsInfix.trans h (List.IsPrefix.isInfix ?_)
  unfold expandRoute
  split_ifs
  · exact List.prefix_rfl
  · exact List.prefix_rfl
  · exact List.prefix_append _ _

theorem inside_passedOn_iff (hdot : '.' ∈ tok.toList) (h : Elsewhere tok r) (payload : Payload) :
    Inside tok r { upstream := (g.passedOn r payload).upstream,
                   log := logLine r (g.passedOn r payload) } ↔
      ¬ QueryCarries tok r ∧ ¬ Has tok (targetHost payload.route) := by
  rw [← not_or, ← hasAny_director_iff hdot h]
  constructor
  · exact fun hinside => hinside.upstream _ rfl
  · intro hclean
    have hparts := hclean
    rw [hasAny_director_iff hdot h, not_or] at hparts
    obtain ⟨hquery, hhost⟩ := hparts
    refine ⟨?_, ?_, nofun, ?_⟩
    · intro up hup
      obtain rfl := Option.some.inj hup
      exact hclean
    · intro line hmem hhas
      have hroute : ¬ Has tok payload.route := fun hroute => hhost hroute.of_route
      have hlogged : ¬ Has tok (loggedHost payload.route) := by
        unfold loggedHost
        split
        · exact not_has_of_dot hdot (by decide)
        · exact hhost
      cases hstatus : g.answer.status with
      | none =>
        simp [logLine, Gateway.passedOn, hstatus] at hmem
      | some status =>
        have hline := hasAny_logLine_iff h (g.passedOn r payload) status hstatus hroute hlogged
          fun hcaptured => h.body hcaptured.of_take
        exact hquery (hline.mp ⟨line, hmem, hhas⟩).1.2
    · intro up hup
      obtain rfl := Option.some.inj hup
      exact cleanProxyCookies_eq r.cookies

end Carried

/-! ### When the token stays inside -/

namespace Gateway

variable (g : Gateway)

/-- The limits on the address and on the size of the body let a request through. -/
def Admits (r : Request) : Prop :=
  g.httpIPRateAllow = true ∧
    ¬ (0 < g.httpMaxBodyBytes ∧ 0 < r.contentLength ∧ g.httpMaxBodyBytes < r.contentLength)

/-- The first token parameter is there, and is let in. -/
def LetsInByQuery (r : Request) : Prop :=
  g.Admits r ∧ extractTokenFromRequest r ≠ "" ∧
    ∃ payload, g.authorise (extractTokenFromRequest r) = .ok payload

/-- The first token cookie is let in, with a payload, where no token parameter asks first. -/
def LetsInByCookie (r : Request) (payload : Payload) : Prop :=
  g.Admits r ∧ extractTokenFromRequest r = "" ∧
    (firstValue r.cookies challengeCookieName).getD "" ≠ "" ∧
      g.authorise ((firstValue r.cookies challengeCookieName).getD "") = .ok payload

/-- What a request that gets to the handlers must be like. -/
def KeepsHandled (tok : String) (r : Request) : Prop :=
  (QueryCarries tok r → g.LetsInByQuery r ∨ (r.method ≠ "GET" ∧ ∀ p, ¬ g.LetsInByCookie r p)) ∧
    ∀ p, g.LetsInByCookie r p → ¬ Has tok (targetHost p.route)

/-- What a request must be like for the token to stay inside. -/
def Keeps (tok : String) (r : Request) : Prop :=
  if r.method ≠ "CONNECT" ∧ cleanPath r.escapedPath ≠ r.escapedPath then ¬ QueryCarries tok r
  else r.escapedPath ∈ [["healthz"], ["healthcheck"], []] ∨ g.KeepsHandled tok r

variable {g} {tok : String} {r : Request}

theorem status_of_authorise {status : Nat} (h : g.authorise tok = .error status) :
    status ≠ 302 := by
  unfold authorise at h
  split at h
  · cases h
    decide
  · split_ifs at h
    · cases h
      decide
    · split at h <;> cases h <;> decide

/-- A request is refused, redirected, or passed on. -/
theorem limited_cases (g : Gateway) (r : Request) :
    (∃ status, status ≠ 302 ∧ g.limited r = refused status ∧ ¬ g.LetsInByQuery r ∧
        ∀ p, ¬ g.LetsInByCookie r p) ∨
      (g.limited r = redirected r ∧ g.LetsInByQuery r) ∨
      ∃ p, g.limited r = g.passedOn r p ∧ g.LetsInByCookie r p := by
  by_cases hadmits : g.Admits r
  · have hhandler : g.limited r = g.httpGatewayHandler r := by
      rw [limited, if_neg (by simp [hadmits.1]), if_neg hadmits.2]
    rw [hhandler, httpGatewayHandler]
    simp only
    by_cases hquery : extractTokenFromRequest r ≠ ""
    · rw [if_pos hquery]
      cases hauthorise : g.authorise (extractTokenFromRequest r) with
      | error status =>
        refine Or.inl ⟨status, status_of_authorise hauthorise, rfl, ?_, ?_⟩
        · rintro ⟨-, -, payload, hpayload⟩
          cases hauthorise.symm.trans hpayload
        · exact fun p hcookie => hquery hcookie.2.1
      | ok payload => exact Or.inr (Or.inl ⟨rfl, hadmits, hquery, payload, hauthorise⟩)
    · rw [if_neg hquery]
      have hunasked : ¬ g.LetsInByQuery r := fun hlets => hquery hlets.2.1
      by_cases hcookie : (firstValue r.cookies challengeCookieName).getD "" = ""
      · rw [if_pos hcookie]
        exact Or.inl ⟨401, by decide, rfl, hunasked, fun p hlets => hlets.2.2.1 hcookie⟩
      · rw [if_neg hcookie]
        cases hauthorise :
            g.authorise ((firstValue r.cookies challengeCookieName).getD "") with
        | error status =>
          refine Or.inl ⟨status, status_of_authorise hauthorise, rfl, hunasked, ?_⟩
          intro p hlets
          cases hauthorise.symm.trans hlets.2.2.2
        | ok payload =>
          exact Or.inr (Or.inr ⟨payload, rfl, hadmits, not_not.mp hquery, hcookie, hauthorise⟩)
  · have hrefused : ∃ status, status ≠ 302 ∧ g.limited r = refused status := by
      unfold limited
      split_ifs with hip hsize
      · exact ⟨429, by decide, rfl⟩
      · exact ⟨413, by decide, rfl⟩
      · exact absurd ⟨by simpa using hip, hsize⟩ hadmits
    obtain ⟨status, hstatus, hrefused⟩ := hrefused
    exact Or.inl ⟨status, hstatus, hrefused, fun hlets => hadmits hlets.1,
      fun p hlets => hadmits hlets.1⟩

theorem inside_limited_iff (hdot : '.' ∈ tok.toList) (h : Elsewhere tok r) :
    Inside tok r { upstream := (g.limited r).upstream, log := logLine r (g.limited r),
                   redirect := (g.limited r).redirect } ↔ g.KeepsHandled tok r := by
  obtain ⟨status, hstatus, heq, hquery, hcookie⟩ | ⟨heq, hquery⟩ | ⟨p, heq, hcookie⟩ :=
    limited_cases g r
  · rw [heq]
    refine (inside_refused_iff hdot h hstatus).trans ?_
    constructor
    · intro hnot
      exact ⟨fun hcarries => Or.inr ⟨fun hget => hnot ⟨hget, hcarries⟩, hcookie⟩,
        fun p hlets => absurd hlets (hcookie p)⟩
    · rintro ⟨hkeeps, -⟩ ⟨hget, hcarries⟩
      rcases hkeeps hcarries with hlets | ⟨hne, -⟩
      · exact hquery hlets
      · exact hne hget
  · rw [heq]
    refine iff_of_true (inside_redirected hdot h hquery.2.1) ⟨fun _ => Or.inl hquery, ?_⟩
    exact fun p hlets => absurd hlets.2.1 hquery.2.1
  · rw [heq]
    refine (inside_passedOn_iff hdot h p).trans ?_
    have honly : ∀ q, g.LetsInByCookie r q → q = p := by
      intro q hlets
      exact Except.ok.inj (hlets.2.2.2.symm.trans hcookie.2.2.2)
    constructor
    · rintro ⟨hquery, hhost⟩
      refine ⟨fun hcarries => absurd hcarries hquery, fun q hlets => ?_⟩
      rw [honly q hlets]
      exact hhost
    · rintro ⟨hkeeps, hhost⟩
      refine ⟨fun hcarries => ?_, hhost p hcookie⟩
      rcases hkeeps hcarries with hlets | ⟨-, hnone⟩
      · exact hlets.2.1 hcookie.2.1
      · exact hnone p hcookie

end Gateway

/-- A token that a request carries in its parameters and cookies for it stays inside, and the
other cookies get through, exactly if the request is like this. -/
theorem inside_iff (g : Gateway) (r : Request) {tok : String} {payload : Payload}
    (hverify : g.platform.verify g.now tok = .ok payload) (hcarried : CarriedOnly tok r) :
    Inside tok r (g.serve r) ↔ g.Keeps tok r := by
  have hdot := dot_mem_of_verify hverify
  have helsewhere := hcarried.elsewhere_parts
  unfold Gateway.serve Gateway.Keeps
  split_ifs with hclean hhealth
  · rw [← hasAny_muxRedirect_iff hdot helsewhere]
    constructor
    · exact fun hinside => hinside.redirect _ rfl
    · intro hnone
      refine ⟨nofun, nofun, ?_, nofun⟩
      intro target htarget
      obtain rfl := Option.some.inj htarget
      exact hnone
  · exact iff_of_true (inside_of_none r) (Or.inl hhealth)
  · rw [or_iff_right hhealth]
    exact Gateway.inside_limited_iff hdot helsewhere

/-- A gateway that lets everything through, but for what the limiter says of an address. -/
def lenient (httpIPRateAllow : Bool) : Gateway where
  platform := TcpGateway.lenient.platform
  now := TcpGateway.lenient.now
  httpMaxBodyBytes := 0
  httpIPRateAllow := httpIPRateAllow
  httpRateAllow _ := true
  accessCheck _ _ := .ok
  answer := ⟨0, some 200⟩

/-- A link with a token, opened in a browser. -/
def opened : Request where
  method := "GET"
  path := "/"
  escapedPath := [""]
  query := [.pair tokenParameter TcpGateway.tokenOfA]
  clientIP := "::1"

theorem opened_carriedOnly : CarriedOnly TcpGateway.tokenOfA opened where
  carried := Or.inl ⟨TcpGateway.tokenOfA, by simp [opened, Part.texts], List.infix_rfl⟩
  elsewhere := by
    rintro ⟨text, hmem, hhas⟩
    have htexts : ∀ text ∈ opened.otherTexts, '.' ∉ text.toList := by decide
    exact not_has_of_dot (dot_mem_of_verify (g := lenient true) TcpGateway.verify_tokenOfA)
      (htexts text hmem) hhas

theorem inside_opened :
    Inside TcpGateway.tokenOfA opened ((lenient true).serve opened) := by
  refine (inside_iff (lenient true) opened TcpGateway.verify_tokenOfA opened_carriedOnly).mpr ?_
  have hasked : extractTokenFromRequest opened = TcpGateway.tokenOfA := by decide
  have hauthorise : (lenient true).authorise TcpGateway.tokenOfA = .ok TcpGateway.payloadOfA := by
    simp [Gateway.authorise, lenient, TcpGateway.verify_tokenOfA]
  have hletsIn : (lenient true).LetsInByQuery opened := by
    refine ⟨⟨rfl, by decide⟩, by rw [hasked]; decide, TcpGateway.payloadOfA, ?_⟩
    rw [hasked]
    exact hauthorise
  rw [Gateway.Keeps, if_neg (by decide)]
  exact Or.inr ⟨fun _ => Or.inl hletsIn, fun p hcookie => absurd hcookie.2.1 hletsIn.2.1⟩

/-- When the limiter refuses the address, the link is logged with its token. -/
theorem logged_when_refused :
    ¬ ∀ (g : Gateway) (r : Request) (tok : String) (payload : Payload),
      g.platform.verify g.now tok = .ok payload → CarriedOnly tok r →
        Inside tok r (g.serve r) := by
  intro h
  have hinside := h (lenient false) opened TcpGateway.tokenOfA TcpGateway.payloadOfA
    TcpGateway.verify_tokenOfA opened_carriedOnly
  have hline : ((lenient false).serve opened).log = logLine opened (refused 429) := rfl
  have hlogged : ∃ line ∈ logLine opened (refused 429), line.rawQuery = some opened.query :=
    ⟨_, rfl, rfl⟩
  obtain ⟨line, hmem, hquery⟩ := hlogged
  refine hinside.log line (hline ▸ hmem) ⟨TcpGateway.tokenOfA, ?_, List.infix_rfl⟩
  simp [LogLine.texts, hquery, opened, Part.texts]

end Fctf.HttpGateway
