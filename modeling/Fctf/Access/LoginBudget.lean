import Fctf.Lib.Expiring
import Fctf.Lib.Run
import Fctf.Text

/-!
The login endpoint behind its rate limiter. The limiter reads the account from
the body with `JsonDocument`, which compares property names exactly; MVC binds
the same body to `LoginDTO`, which ignores their case. Both take the last of
several occurrences.
-/

namespace Fctf

open Expiring Run

inductive JsonValue
  | string (s : String)
  | null
  | other
  deriving Repr, DecidableEq

/-- A body of at most 8192 bytes: no JSON, an object, or another JSON value. -/
inductive LoginBody
  | invalid
  | object (members : List (String × JsonValue))
  | other
  deriving Repr, DecidableEq

structure LoginDTO where
  username : Option String := none
  password : Option String := none
  captchaToken : Option String := none
  deriving Repr, DecidableEq

namespace LoginDTO

def isProperty (name : String) : Bool :=
  equalsIgnoreCase name "username" || equalsIgnoreCase name "password" ||
    equalsIgnoreCase name "captchaToken"

def set (dto : LoginDTO) (name : String) (value : Option String) : LoginDTO :=
  if equalsIgnoreCase name "username" then { dto with username := value }
  else if equalsIgnoreCase name "password" then { dto with password := value }
  else if equalsIgnoreCase name "captchaToken" then { dto with captchaToken := value }
  else dto

/-- One member of the body. A value of another type than the property's fails the binding. -/
def bindMember (dto : LoginDTO) : String × JsonValue → Option LoginDTO
  | (name, .string s) => some (dto.set name (some s))
  | (name, .null) => some (dto.set name none)
  | (name, .other) => if isProperty name then none else some dto

/-- `[FromBody]`. -/
def bind : LoginBody → Option LoginDTO
  | .object members => members.foldlM bindMember {}
  | .invalid | .other => none

end LoginDTO

section Budget

-- what stands for `ToLowerInvariant` on a character and for SHA-256 in hexadecimal
variable (lower : Char → Char) (sha256Hex : String → String)

def toLowerInvariant (s : String) : String := String.ofList (s.toList.map lower)

namespace LoginBody

/-- The account whose budget the limiter charges: the string that `TryGetProperty` finds. -/
def charged : LoginBody → Option String
  | .object members =>
    match (members.reverse.find? fun m => m.1 == "username").map Prod.snd with
    | some (.string name) => some (toLowerInvariant lower (trim name)) |>.filter (· ≠ "")
    | _ => none
  | .invalid | .other => none

/-- The account whose password `LoginContestant` checks, when it gets that far:
the account name is compared after trimming and lower-casing. -/
def checked (captchaValid : Bool) (body : LoginBody) : Option String := do
  let dto ← LoginDTO.bind body
  let username ← (dto.username.map trim).filter (· ≠ "")
  let _ ← (dto.password.map trim).filter (· ≠ "")
  if captchaValid then some (toLowerInvariant lower username) else none

end LoginBody

/-- `CounterScript`: the count and, in the store, the expiry. -/
def counterScript (counters : Store String Int) (now : Int) (key : String) (window : Int) :
    Store String Int × Int :=
  let (counters, count) :=
    match counters.get now key with
    | some value => (counters.modify now key (· + 1), value + 1)
    | none => (counters.set key 1, 1)
  let counters := if count = 1 then counters.expire now key window else counters
  -- TTL answers -1 for a key without expiry
  if ((counters.find now key).bind Cell.deadline).isNone then
    (counters.expire now key window, count)
  else (counters, count)

def budgetKey (identity : String) : String := "fctf:contestant:security:" ++ sha256Hex identity

structure LoginSite where
  now : Int
  counters : Store String Int
  /-- The accounts whose password was checked. No step reads this history. -/
  checks : List String

inductive LoginAction
  | request (ip : String) (body : LoginBody) (captchaValid : Bool)
  /-- The limiter is refused by Redis, before or after the script ran: status 503. -/
  | unavailable (identity : String) (counted : Bool)
  | tick (seconds : Nat)
  /-- A counter loses its expiry. -/
  | persist (identity : String)

namespace LoginSite

/-- One budget of the request: whether it is kept. -/
def charge (s : LoginSite) (identity : String) (limit : Int) : LoginSite × Bool :=
  let (counters, count) := counterScript s.counters s.now (budgetKey sha256Hex identity) 300
  ({ s with counters := counters }, count ≤ limit)

/-- `LoginContestant` behind the limiter. -/
def check (s : LoginSite) (captchaValid : Bool) (body : LoginBody) : LoginSite :=
  { s with checks := (body.checked lower captchaValid).toList ++ s.checks }

def request (s : LoginSite) (ip : String) (body : LoginBody) (captchaValid : Bool) : LoginSite :=
  if body = .invalid then s
  else
    let ofIp := s.charge sha256Hex ("login:ip:" ++ ip) 100
    if !ofIp.2 then ofIp.1
    else
      match body.charged lower with
      | none => ofIp.1.check lower captchaValid body
      | some account =>
        let ofAccount := ofIp.1.charge sha256Hex ("login:account:" ++ account) 5
        if !ofAccount.2 then ofAccount.1 else ofAccount.1.check lower captchaValid body

def step (s : LoginSite) : LoginAction → Option LoginSite
  | .request ip body captchaValid => some (s.request lower sha256Hex ip body captchaValid)
  | .unavailable identity counted =>
    some (if counted then (s.charge sha256Hex identity 0).1 else s)
  | .tick seconds => some { s with now := s.now + seconds }
  | .persist identity =>
    let key := budgetKey sha256Hex identity
    (s.counters.get s.now key).map fun value => { s with counters := s.counters.set key value }

end LoginSite

/-- A request that checks the account's password charges the budget `charge`. -/
def LoginAction.Charges (account charge : String) : LoginAction → Prop
  | .request _ body captchaValid =>
    body.checked lower captchaValid = some account → body.charged lower = some charge
  | .unavailable _ _ | .tick _ | .persist _ => True

instance LoginAction.decidableCharges (account charge : String) :
    ∀ a : LoginAction, Decidable (a.Charges lower account charge)
  | .request _ body captchaValid =>
    inferInstanceAs (Decidable (body.checked lower captchaValid = some account →
      body.charged lower = some charge))
  | .unavailable _ _ | .tick _ | .persist _ => inferInstanceAs (Decidable True)

end Budget

/-! ### The counter script -/

theorem counterScript_count (counters : Store String Int) (now : Int) (key : String)
    (window : Int) :
    (counterScript counters now key window).2 = (counters.get now key).getD 0 + 1 := by
  unfold counterScript
  cases counters.get now key with
  | none =>
    simp only [Option.getD_none]
    split_ifs <;> rfl
  | some value =>
    simp only [Option.getD_some]
    split_ifs <;> rfl

theorem counterScript_other (counters : Store String Int) (now t : Int) {key other : String}
    (window : Int) (hne : other ≠ key) :
    (counterScript counters now key window).1.find t other = counters.find t other := by
  unfold counterScript
  cases counters.get now key with
  | none =>
    simp only
    split_ifs <;> simp [hne]
  | some value =>
    simp only
    split_ifs <;> simp [hne]

/-- After the script its counter has an expiry: a new one, or the one that it had. -/
theorem counterScript_self (counters : Store String Int) (now : Int) (key : String)
    {window : Int} (hwindow : 0 < window) :
    ∃ d, (counterScript counters now key window).1.find now key =
        some ⟨(counterScript counters now key window).2, some d⟩ ∧
      (d = now + window ∨ ∃ value, counters.find now key = some ⟨value, some d⟩) := by
  have hlive : now < now + window := by omega
  unfold counterScript
  cases hfind : counters.find now key with
  | none =>
    refine ⟨now + window, ?_, .inl rfl⟩
    simp [Store.get, hfind, Store.find_expire_self, hlive]
  | some cell =>
    obtain ⟨value, deadline⟩ := cell
    by_cases hfirst : value + 1 = 1
    · refine ⟨now + window, ?_, .inl rfl⟩
      simp [Store.get, hfind, Store.find_expire_self, Store.find_modify_self, hlive, hfirst]
    · cases deadline with
      | none =>
        refine ⟨now + window, ?_, .inl rfl⟩
        simp [Store.get, hfind, Store.find_expire_self, Store.find_modify_self, hlive, hfirst]
      | some d =>
        refine ⟨d, ?_, .inr ⟨value, rfl⟩⟩
        simp [Store.get, hfind, Store.find_modify_self, hfirst]

/-! ### One window of an account -/

section Window

variable {lower : Char → Char} {sha256Hex : String → String} {account key : String} {start : Int}
  {before : Nat} {s t : LoginSite}

/-- The counter runs and keeps running to the end of the window, and `slack` more
checks would still be within its count. -/
def Running (account key : String) (start : Int) (before slack : Nat) (s : LoginSite) : Prop :=
  ∃ value deadline, s.counters.find s.now key = some ⟨value, deadline⟩ ∧
    (∀ d ∈ deadline, start + 300 ≤ d) ∧
    (s.checks.count account + slack : Int) ≤ before + min value 5

/-- In the window that began at `start`, without a counter and after `before`
checks, the counter is at least the number of checks since then. -/
def InWindow (account key : String) (start : Int) (before : Nat) (s : LoginSite) : Prop :=
  start ≤ s.now ∧ (s.now < start + 300 →
    (s.counters.find s.now key = none ∧ s.checks.count account = before) ∨
      Running account key start before 0 s)

namespace LoginSite

theorem charge_now (identity : String) (limit : Int) :
    (s.charge sha256Hex identity limit).1.now = s.now := rfl

theorem charge_checks (identity : String) (limit : Int) :
    (s.charge sha256Hex identity limit).1.checks = s.checks := rfl

/-- A charge of the account's budget counts one up. -/
theorem charge_counted {identity : String} (limit : Int)
    (hkey : budgetKey sha256Hex identity = key) (h : InWindow account key start before s)
    (hnow : s.now < start + 300) :
    ∃ value d, (s.charge sha256Hex identity limit).1.counters.find s.now key =
        some ⟨value, some d⟩ ∧ start + 300 ≤ d ∧
      (s.checks.count account : Int) ≤ before + min (value - 1) 5 ∧
      (s.charge sha256Hex identity limit).2 = decide (value ≤ limit) := by
  obtain ⟨hstart, hwindow⟩ := h
  have hcount := counterScript_count s.counters s.now key 300
  obtain ⟨d, hfind, hdeadline⟩ :=
    counterScript_self s.counters s.now key (by omega : (0 : Int) < 300)
  refine ⟨_, d, by rw [charge, hkey]; exact hfind, ?_, ?_, by rw [charge, hkey]⟩
  · rcases hdeadline with rfl | ⟨value, hold⟩
    · omega
    · rcases hwindow hnow with ⟨hnone, -⟩ | ⟨value', deadline, hrunning, hlong, -⟩
      · rw [hnone] at hold
        cases hold
      · rw [hrunning] at hold
        cases hold
        exact hlong d rfl
  · rw [hcount, Store.get]
    rcases hwindow hnow with ⟨hnone, hchecks⟩ | ⟨value, deadline, hrunning, -, hchecks⟩
    · simp only [hnone, Option.map_none, Option.getD_none]
      omega
    · simp only [hrunning, Option.map_some, Option.getD_some]
      omega

/-- When it is kept, it leaves room for one check. -/
theorem charge_kept {identity : String} (hkey : budgetKey sha256Hex identity = key)
    (h : InWindow account key start before s) (hnow : s.now < start + 300)
    (hkept : (s.charge sha256Hex identity 5).2 = true) :
    Running account key start before 1 (s.charge sha256Hex identity 5).1 := by
  obtain ⟨value, d, hfind, hlong, hchecks, hresult⟩ := charge_counted 5 hkey h hnow
  rw [hresult, decide_eq_true_eq] at hkept
  refine ⟨value, some d, hfind, ?_, ?_⟩
  · rintro _ ⟨⟩
    exact hlong
  · rw [charge_checks]
    omega

/-- Any charge keeps the account's counter at least at the number of checks. -/
theorem charge_inWindow (identity : String) (limit : Int)
    (h : InWindow account key start before s) :
    InWindow account key start before (s.charge sha256Hex identity limit).1 := by
  refine ⟨h.1, fun hnow => ?_⟩
  by_cases hkey : budgetKey sha256Hex identity = key
  · right
    obtain ⟨value, d, hfind, hlong, hchecks, -⟩ := charge_counted limit hkey h hnow
    refine ⟨value, some d, hfind, ?_, ?_⟩
    · rintro _ ⟨⟩
      exact hlong
    · rw [charge_checks]
      omega
  · have hfind : (s.charge sha256Hex identity limit).1.counters.find s.now key =
        s.counters.find s.now key :=
      counterScript_other s.counters s.now s.now 300 (Ne.symm hkey)
    rcases h.2 hnow with ⟨hnone, hchecks⟩ | ⟨value, deadline, hrunning, hlong, hchecks⟩
    · exact .inl ⟨hfind.trans hnone, hchecks⟩
    · exact .inr ⟨value, deadline, hfind.trans hrunning, hlong, hchecks⟩

theorem check_count (captchaValid : Bool) (body : LoginBody) :
    (s.check lower captchaValid body).checks.count account = s.checks.count account +
      if body.checked lower captchaValid = some account then 1 else 0 := by
  rw [check, List.count_append, Nat.add_comm]
  cases body.checked lower captchaValid with
  | none => rfl
  | some name => simp [List.count_singleton]

/-- A check of the account after a kept charge. -/
theorem check_running {captchaValid : Bool} {body : LoginBody} (hstart : start ≤ s.now)
    (h : s.now < start + 300 → Running account key start before 1 s) :
    InWindow account key start before (s.check lower captchaValid body) := by
  refine ⟨hstart, fun hnow => .inr ?_⟩
  obtain ⟨value, deadline, hfind, hlong, hchecks⟩ := h hnow
  refine ⟨value, deadline, hfind, hlong, ?_⟩
  rw [check_count]
  split <;> push_cast at hchecks ⊢ <;> omega

/-- The check of another account. -/
theorem check_other {captchaValid : Bool} {body : LoginBody}
    (h : InWindow account key start before s)
    (hbody : body.checked lower captchaValid ≠ some account) :
    InWindow account key start before (s.check lower captchaValid body) := by
  have hcount : (s.check lower captchaValid body).checks.count account =
      s.checks.count account := by
    rw [check_count, if_neg hbody, Nat.add_zero]
  refine ⟨h.1, fun hnow => ?_⟩
  rcases h.2 hnow with ⟨hnone, hchecks⟩ | ⟨value, deadline, hrunning, hlong, hchecks⟩
  · exact .inl ⟨hnone, hcount.trans hchecks⟩
  · exact .inr ⟨value, deadline, hrunning, hlong, by rw [hcount]; exact hchecks⟩

/-- A check of the account behind its kept budget. -/
theorem check_kept {captchaValid : Bool} {body : LoginBody} {identity : String}
    (hkey : budgetKey sha256Hex identity = key) (h : InWindow account key start before s)
    (hkept : (s.charge sha256Hex identity 5).2 = true) :
    InWindow account key start before
      ((s.charge sha256Hex identity 5).1.check lower captchaValid body) := by
  apply check_running
  · rw [charge_now]
    exact h.1
  · rw [charge_now]
    intro hnow
    exact charge_kept hkey h hnow hkept

/-- A request whose check of the account charges the account's budget. -/
theorem request_inWindow {charge : String} {ip : String} {body : LoginBody} {captchaValid : Bool}
    (hkey : budgetKey sha256Hex ("login:account:" ++ charge) = key)
    (hcharges : (LoginAction.request ip body captchaValid).Charges lower account charge)
    (h : InWindow account key start before s) :
    InWindow account key start before (s.request lower sha256Hex ip body captchaValid) := by
  have hip : InWindow account key start before (s.charge sha256Hex ("login:ip:" ++ ip) 100).1 :=
    charge_inWindow ("login:ip:" ++ ip) 100 h
  rw [request]
  generalize s.charge sha256Hex ("login:ip:" ++ ip) 100 = ofIp at hip ⊢
  dsimp only
  split_ifs
  · exact h
  · exact hip
  · cases hcharged : body.charged lower with
    | none =>
      apply check_other hip
      intro hchecked
      rw [hcharges hchecked] at hcharged
      cases hcharged
    | some name =>
      simp only
      split_ifs with hkept
      · exact charge_inWindow _ 5 hip
      · by_cases hchecked : body.checked lower captchaValid = some account
        · obtain rfl : charge = name := by
            have hsame := hcharges hchecked
            rw [hcharged] at hsame
            exact (Option.some.inj hsame).symm
          exact check_kept hkey hip (by simpa using hkept)
        · exact check_other (charge_inWindow _ 5 hip) hchecked

/-- While the window lasts, time neither ends the running counter nor starts one. -/
theorem tick_inWindow (seconds : Nat) (h : InWindow account key start before s) :
    InWindow account key start before { s with now := s.now + seconds } := by
  obtain ⟨hstart, hwindow⟩ := h
  have hle : s.now ≤ s.now + seconds := by omega
  constructor
  · exact Int.le_trans hstart hle
  · intro hnow
    rcases hwindow (Int.lt_of_le_of_lt hle hnow) with
      ⟨hnone, hchecks⟩ | ⟨value, deadline, hfind, hlong, hchecks⟩
    · left
      constructor
      · apply Option.eq_none_iff_forall_ne_some.mpr
        intro cell hlater
        rw [Store.find_earlier hlater hle] at hnone
        cases hnone
      · exact hchecks
    · right
      refine ⟨value, deadline, ?_, hlong, hchecks⟩
      apply Store.find_eq_some.mpr
      constructor
      · exact (Store.find_eq_some.mp hfind).1
      · intro d hd
        exact Int.lt_of_lt_of_le hnow (hlong d hd)

/-- A counter that loses its expiry keeps its count. -/
theorem persist_inWindow {k : String} {value : Int} (hvalue : s.counters.get s.now k = some value)
    (h : InWindow account key start before s) :
    InWindow account key start before { s with counters := s.counters.set k value } := by
  obtain ⟨hstart, hwindow⟩ := h
  refine ⟨hstart, fun hnow => ?_⟩
  by_cases hk : key = k
  · subst hk
    obtain ⟨cell, hcell, rfl⟩ := Store.get_eq_some.mp hvalue
    rcases hwindow hnow with ⟨hnone, -⟩ | ⟨_, deadline, hfind, -, hchecks⟩
    · rw [hnone] at hcell
      cases hcell
    · rw [hfind] at hcell
      cases hcell
      exact .inr ⟨_, none, Store.find_set_self .., by simp, hchecks⟩
  · have hsame : (s.counters.set k value).find s.now key = s.counters.find s.now key :=
      Store.find_set_ne s.counters s.now value hk
    rcases hwindow hnow with ⟨hnone, hchecks⟩ | ⟨value', deadline, hfind, hlong, hchecks⟩
    · exact .inl ⟨hsame.trans hnone, hchecks⟩
    · exact .inr ⟨value', deadline, hsame.trans hfind, hlong, hchecks⟩

theorem step_inWindow {charge : String} {a : LoginAction}
    (hkey : budgetKey sha256Hex ("login:account:" ++ charge) = key)
    (hcharges : a.Charges lower account charge) (h : InWindow account key start before s)
    (hstep : step lower sha256Hex s a = some t) : InWindow account key start before t := by
  cases a with
  | request ip body captchaValid =>
    cases hstep
    exact request_inWindow hkey hcharges h
  | unavailable identity counted =>
    cases hstep
    cases counted with
    | false => exact h
    | true => exact charge_inWindow identity 0 h
  | tick seconds =>
    cases hstep
    exact tick_inWindow seconds h
  | persist identity =>
    obtain ⟨value, hvalue, rfl⟩ := Option.map_eq_some_iff.mp hstep
    exact persist_inWindow hvalue h

end LoginSite

end Window

/-- Within one window of the budget `charge`, a run whose requests charge it whenever
they check the account's password checks that password at most five times. -/
theorem login_checks_le_five (lower : Char → Char) (sha256Hex : String → String)
    (account charge : String) (s : LoginSite) (as : List LoginAction)
    (hfresh : s.counters.get s.now (budgetKey sha256Hex ("login:account:" ++ charge)) = none)
    (hcharges : Meets (LoginSite.step lower sha256Hex)
      (fun _ a => a.Charges lower account charge) s as) :
    ∀ t ∈ visited (LoginSite.step lower sha256Hex) s as, t.now < s.now + 300 →
      t.checks.count account ≤ s.checks.count account + 5 := by
  let key := budgetKey sha256Hex ("login:account:" ++ charge)
  have hstart : InWindow account key s.now (s.checks.count account) s :=
    ⟨Int.le_refl _, fun _ => .inl ⟨Store.get_eq_none.mp hfresh, rfl⟩⟩
  have hrun : ∀ t ∈ visited (LoginSite.step lower sha256Hex) s as,
      InWindow account key s.now (s.checks.count account) t :=
    hcharges.forall_visited (fun _ _ _ hs ha => LoginSite.step_inWindow rfl ha hs) hstart
  intro t ht hnow
  rcases (hrun t ht).2 hnow with ⟨-, hchecks⟩ | ⟨value, _, -, -, hchecks⟩
  · omega
  · omega

def passwordOnly (name : String) : LoginBody :=
  .object [(name, .string "alice"), ("password", .string "guess")]

def idle : LoginSite := ⟨0, .empty, []⟩

theorem login_checks_le_five_exact :
    idle.counters.get idle.now (budgetKey id "login:account:alice") = none ∧
      ∀ t ∈ visited (LoginSite.step Char.toLower id) idle
          (List.replicate 7 (.request "10.0.0.1" (passwordOnly "username") true)),
        t.now < idle.now + 300 → t.checks.count "alice" ≤ idle.checks.count "alice" + 5 := by
  constructor
  · rfl
  · apply login_checks_le_five Char.toLower id "alice" "alice"
    · rfl
    · decide

/-- The property name in another case: no account is charged. -/
theorem login_checks_unbounded :
    ¬ ∀ t ∈ visited (LoginSite.step Char.toLower id) idle
        (List.replicate 6 (.request "10.0.0.1" (passwordOnly "Username") true)),
      t.now < idle.now + 300 → t.checks.count "alice" ≤ idle.checks.count "alice" + 5 := by
  decide

end Fctf
