import Fctf.Access.LoginBudget
import Fctf.Lib.FixedWindow

/-!
`limit_login` of the management platform: a budget for the address and one for the account that a
login form names. Budgets are counted by a script in Redis or, without it, under a lock in the
cache of the process. Times are in milliseconds.
-/

namespace Fctf.LoginLimit

open Expiring Run FixedWindow

/-- The `window` of 300 seconds. -/
def length : Int := 300000

/-! ### Consuming a budget -/

/-- `consume_login_budget` with Redis: the count and the seconds until the key expires, which `TTL`
rounds. -/
def consumeRedis (counters : Store String Int) (now : Int) (key : String) :
    Store String Int × Int × Int :=
  let (counters, count) := counterScript counters now key length
  match (counters.find now key).bind Cell.deadline with
  | some deadline => (counters, count, max 1 ((deadline - now + 500) / 1000))
  | none => (counters, count, 300)

/-- `consume_login_budget` with `SimpleCache`, which keeps the count and when it ends. -/
def consumeSimple (cache : Store String (Int × Int)) (now : Int) (key : String) :
    Store String (Int × Int) × Int × Int :=
  let (count, expires) :=
    match (cache.get now key).filter fun entry => entry.2 > now with
    | some entry => entry
    | none => (0, now + length)
  let count := count + 1
  let ttl := max 1 ((expires - now + 999) / 1000)
  (cache.setEx now key (ttl * 1000) (count, expires), count, ttl)

/-- A place where budgets are counted, and the window that it has open for a key. -/
structure Backend (σ : Type) where
  consume : σ → Int → String → σ × Int × Int
  window : σ → Int → String → Option Window
  Sound : σ → Prop
  sound : ∀ {s}, Sound s → ∀ now key, Sound (consume s now key).1
  later : ∀ {s}, Sound s → ∀ {now t} key, now ≤ t → window s t key = live (window s now key) t
  consumed : ∀ {s}, Sound s → ∀ {now t} key, now ≤ t → window (consume s now key).1 t key =
    live (some (FixedWindow.consume length (window s now key) now)) t
  other : ∀ s now t {key key'}, key' ≠ key →
    window (consume s now key).1 t key' = window s t key'
  counted : ∀ {s}, Sound s → ∀ now key, (consume s now key).2.1 =
    (FixedWindow.consume length (window s now key) now).count

section Redis

def redisWindow (counters : Store String Int) (now : Int) (key : String) : Option Window :=
  (counters.find now key).bind fun c => c.deadline.map fun deadline => ⟨c.value.toNat, deadline⟩

/-- Every counter has an expiry. -/
def RedisSound (counters : Store String Int) : Prop :=
  ∀ key cell, counters.cell key = some cell → 0 < cell.value ∧ cell.deadline.isSome = true

variable {counters : Store String Int} {now t : Int} {key key' : String}

theorem consumeRedis_fst : (consumeRedis counters now key).1 =
    (counterScript counters now key length).1 := by
  unfold consumeRedis
  simp only
  split <;> rfl

theorem consumeRedis_count : (consumeRedis counters now key).2.1 =
    (counterScript counters now key length).2 := by
  unfold consumeRedis
  simp only
  split <;> rfl

theorem redisWindow_of_find {value deadline : Int}
    (h : counters.find now key = some ⟨value, some deadline⟩) :
    redisWindow counters t key = live (some ⟨value.toNat, deadline⟩) t := by
  obtain ⟨hcell, -⟩ := Store.find_eq_some.mp h
  unfold redisWindow
  by_cases ht : t < deadline
  · rw [Store.find_eq_some.mpr ⟨hcell, (Cell.live_some value deadline t).mpr ht⟩, live_of_lt ht]
    rfl
  · have hnone : counters.find t key = none := by
      simp [Store.find, hcell, Option.filter, ht]
    rw [hnone, live_of_le (Int.not_lt.mp ht)]
    rfl

/-- What the script leaves under its key is the window after the call. -/
theorem find_counterScript (h : RedisSound counters) (now : Int) (key : String) :
    (counterScript counters now key length).1.find now key =
      some ⟨(FixedWindow.consume length (redisWindow counters now key) now).count,
        some (FixedWindow.consume length (redisWindow counters now key) now).expires⟩ := by
  have hlive : now < now + length := by
    unfold length
    omega
  cases hfind : counters.find now key with
  | none =>
    simp [counterScript, redisWindow, Store.get, hfind, Store.find_expire_self, hlive,
      FixedWindow.consume, live]
  | some cell =>
    obtain ⟨value, deadline⟩ := cell
    obtain ⟨hcell, hopen⟩ := Store.find_eq_some.mp hfind
    obtain ⟨hpos, hsome⟩ := h key _ hcell
    simp only at hpos hsome
    obtain ⟨d, rfl⟩ := Option.isSome_iff_exists.mp hsome
    have hd : now < d := (Cell.live_some value d now).mp hopen
    have hfirst : ¬ value + 1 = 1 := by omega
    have hscript : counterScript counters now key length =
        (counters.modify now key (· + 1), value + 1) := by
      simp only [counterScript, Store.get, hfind, Option.map_some, hfirst, if_false,
        Store.find_modify_self, Option.bind_some, Option.isNone_some, Bool.false_eq_true]
    have hwindow : redisWindow counters now key = some ⟨value.toNat, d⟩ := by
      rw [redisWindow, hfind]
      rfl
    have hcount : ((value.toNat + 1 : Nat) : Int) = value + 1 := by omega
    rw [hscript, hwindow, consume_of_lt hd, Store.find_modify_self, hfind, hcount]
    rfl

theorem cell_counterScript (now : Int) (hne : key' ≠ key) :
    (counterScript counters now key length).1.cell key' = counters.cell key' := by
  unfold counterScript
  cases counters.get now key <;> simp only <;> split_ifs <;>
    simp [Store.expire, Store.modify, Store.set, hne]

theorem redisWindow_later (h : RedisSound counters) (key : String) (hle : now ≤ t) :
    redisWindow counters t key = live (redisWindow counters now key) t := by
  cases hfind : counters.find now key with
  | none =>
    have hnone : counters.find t key = none := by
      rw [← Store.get_eq_none, Option.eq_none_iff_forall_ne_some]
      intro value hvalue
      have hbefore := Store.get_earlier hvalue hle
      rw [Store.get_eq_none.mpr hfind] at hbefore
      cases hbefore
    rw [redisWindow, redisWindow, hnone, hfind]
    rfl
  | some cell =>
    obtain ⟨value, deadline⟩ := cell
    obtain ⟨d, rfl⟩ := Option.isSome_iff_exists.mp (h key _ (Store.find_eq_some.mp hfind).1).2
    rw [redisWindow_of_find hfind, redisWindow, hfind]
    rfl

theorem counterScript_counted (h : RedisSound counters) (now : Int) (key : String) :
    (counterScript counters now key length).2 =
      (FixedWindow.consume length (redisWindow counters now key) now).count := by
  obtain ⟨d, hfind, -⟩ := counterScript_self counters now key (show (0 : Int) < length by decide)
  rw [find_counterScript h now key, Option.some.injEq, Cell.mk.injEq] at hfind
  exact hfind.1.symm

def redis : Backend (Store String Int) where
  consume := consumeRedis
  window := redisWindow
  Sound := RedisSound
  sound h now key := by
    intro key' cell hcell
    rw [consumeRedis_fst] at hcell
    by_cases hkey : key' = key
    · subst hkey
      rw [(Store.find_eq_some.mp (find_counterScript h now key')).1] at hcell
      obtain rfl := Option.some.inj hcell
      refine ⟨?_, rfl⟩
      unfold FixedWindow.consume
      split <;> simp only <;> omega
    · rw [cell_counterScript now hkey] at hcell
      exact h key' cell hcell
  later h _ _ key hle := redisWindow_later h key hle
  consumed h now _ key _ := by
    rw [consumeRedis_fst, redisWindow_of_find (find_counterScript h now key), Int.toNat_natCast]
  other s now t _ _ hne := by
    rw [consumeRedis_fst, redisWindow, redisWindow, counterScript_other s now t length hne]
  counted h now key := consumeRedis_count.trans (counterScript_counted h now key)

end Redis

section Simple

def simpleWindow (cache : Store String (Int × Int)) (now : Int) (key : String) : Option Window :=
  ((cache.get now key).filter fun entry => entry.2 > now).map fun entry => ⟨entry.1.toNat, entry.2⟩

/-- The cache keeps an entry at least until its window ends. -/
def SimpleSound (cache : Store String (Int × Int)) : Prop :=
  ∀ key cell, cache.cell key = some cell → 0 ≤ cell.value.1 ∧ ∀ d ∈ cell.deadline, cell.value.2 ≤ d

variable {cache : Store String (Int × Int)} {now t : Int} {key key' : String}

/-- An entry is the window for as long as that is open. -/
theorem simpleWindow_of_cell {count expires : Int} {deadline : Option Int}
    (hcell : cache.cell key = some ⟨(count, expires), deadline⟩)
    (hdeadline : ∀ d ∈ deadline, expires ≤ d) (now : Int) :
    simpleWindow cache now key = live (some ⟨count.toNat, expires⟩) now := by
  unfold simpleWindow
  by_cases hnow : now < expires
  · have hopen : (Cell.mk (count, expires) deadline).Live now :=
      fun d hd => Int.lt_of_lt_of_le hnow (hdeadline d hd)
    have hget : cache.get now key = some (count, expires) :=
      Store.get_eq_some.mpr ⟨_, Store.find_eq_some.mpr ⟨hcell, hopen⟩, rfl⟩
    rw [hget, live_of_lt hnow]
    simp [Option.filter, hnow]
  · rw [live_of_le (Int.not_lt.mp hnow), Option.map_eq_none_iff, Option.filter_eq_none_iff]
    intro entry hentry
    obtain ⟨cell, hfind, rfl⟩ := Store.get_eq_some.mp hentry
    obtain rfl := Option.some.inj ((Store.find_eq_some.mp hfind).1.symm.trans hcell)
    simpa using Int.not_lt.mp hnow

theorem simpleWindow_of_none (hcell : cache.cell key = none) (now : Int) :
    simpleWindow cache now key = none := by
  simp [simpleWindow, Store.get, Store.find, hcell]

/-- A call that writes a window. -/
def write (cache : Store String (Int × Int)) (now : Int) (key : String) (w : Window) :
    Store String (Int × Int) × Int × Int :=
  let ttl := max 1 ((w.expires - now + 999) / 1000)
  (cache.setEx now key (ttl * 1000) (w.count, w.expires), w.count, ttl)

theorem consumeSimple_eq (h : SimpleSound cache) (now : Int) (key : String) :
    consumeSimple cache now key =
      write cache now key (FixedWindow.consume length (simpleWindow cache now key) now) := by
  cases hentry : (cache.get now key).filter fun entry => entry.2 > now with
  | none =>
    simp [consumeSimple, write, simpleWindow, hentry, FixedWindow.consume, live]
  | some entry =>
    obtain ⟨hget, hopen⟩ := Option.filter_eq_some_iff.mp hentry
    have hopen : now < entry.2 := of_decide_eq_true hopen
    obtain ⟨cell, hfind, hvalue⟩ := Store.get_eq_some.mp hget
    have hpos := (h key cell (Store.find_eq_some.mp hfind).1).1
    rw [hvalue] at hpos
    have hcount : ((entry.1.toNat + 1 : Nat) : Int) = entry.1 + 1 := by omega
    simp only [consumeSimple, write, simpleWindow, hentry, Option.map_some,
      @consume_of_lt length ⟨entry.1.toNat, entry.2⟩ now hopen, hcount]

theorem SimpleSound.consume (h : SimpleSound cache) (now : Int) (key : String) :
    SimpleSound (consumeSimple cache now key).1 := by
  intro key' cell hcell
  rw [consumeSimple_eq h] at hcell
  simp only [write, Store.setEx, Function.update_apply] at hcell
  split_ifs at hcell
  · obtain rfl := Option.some.inj hcell
    refine ⟨Int.natCast_nonneg _, ?_⟩
    intro d hd
    obtain rfl := Option.some.inj hd
    simp only
    -- whole seconds that do not end before the window
    omega
  · exact h key' cell hcell

theorem simpleWindow_later (h : SimpleSound cache) (key : String) (hle : now ≤ t) :
    simpleWindow cache t key = live (simpleWindow cache now key) t := by
  cases hcell : cache.cell key with
  | none =>
    rw [simpleWindow_of_none hcell, simpleWindow_of_none hcell]
    rfl
  | some cell =>
    obtain ⟨⟨count, expires⟩, deadline⟩ := cell
    have hdeadline := (h key _ hcell).2
    rw [simpleWindow_of_cell hcell hdeadline, simpleWindow_of_cell hcell hdeadline, live_live hle]

def simple : Backend (Store String (Int × Int)) where
  consume := consumeSimple
  window := simpleWindow
  Sound := SimpleSound
  sound h now key := h.consume now key
  later h _ _ key hle := simpleWindow_later h key hle
  consumed h now _ key _ := by
    have hsound := h.consume now key
    rw [consumeSimple_eq h] at hsound ⊢
    rw [simpleWindow_of_cell (Function.update_self key _ _)
      (hsound key _ (Function.update_self key _ _)).2, Int.toNat_natCast]
  other s now t _ _ hne := by
    unfold simpleWindow consumeSimple
    simp only [Store.get, Store.find_setEx_ne _ _ _ _ _ hne]
  counted h now key := by
    rw [consumeSimple_eq h]
    rfl

end Simple

/-! ### The two places agree -/

section Agreement

variable {σ : Type}

/-- The answers to calls at given times. -/
def answers (b : Backend σ) (s : σ) : List (Int × String) → List (Int × Int)
  | [] => []
  | (now, key) :: rest => (b.consume s now key).2 :: answers b (b.consume s now key).1 rest

/-- The same count, and a wait that differs by the rounding of `TTL`. -/
def Agree (r c : Int × Int) : Prop := r.1 = c.1 ∧ r.2 ≤ c.2 ∧ c.2 ≤ r.2 + 1

theorem consumeRedis_ttl {counters : Store String Int} (h : RedisSound counters) (now : Int)
    (key : String) : (consumeRedis counters now key).2.2 =
      max 1 (((FixedWindow.consume length (redisWindow counters now key) now).expires - now + 500) /
        1000) := by
  unfold consumeRedis
  simp only [find_counterScript h now key, Option.bind_some]

theorem agree_of_window {counters : Store String Int} {cache : Store String (Int × Int)}
    (hredis : RedisSound counters) (hsimple : SimpleSound cache) {now : Int} {key : String}
    (hwindow : redisWindow counters now key = simpleWindow cache now key) :
    Agree (consumeRedis counters now key).2 (consumeSimple cache now key).2 := by
  have hcount := redis.counted hredis now key
  have httl := consumeRedis_ttl hredis now key
  rw [consumeSimple_eq hsimple, ← hwindow]
  refine ⟨hcount, ?_, ?_⟩
  · rw [httl]
    simp only [write]
    omega
  · rw [httl]
    simp only [write]
    omega

/-- Places with the same windows answer alike, and have the same windows afterwards. -/
theorem answers_agree {calls : List (Int × String)}
    (hsorted : (calls.map Prod.fst).Pairwise (· ≤ ·)) {counters : Store String Int}
    {cache : Store String (Int × Int)} {start : Int} (hredis : RedisSound counters)
    (hsimple : SimpleSound cache)
    (hwindow : ∀ t key, start ≤ t → redisWindow counters t key = simpleWindow cache t key)
    (hstart : ∀ c ∈ calls, start ≤ c.1) :
    List.Forall₂ Agree (answers redis counters calls) (answers simple cache calls) := by
  induction calls generalizing counters cache start with
  | nil => exact .nil
  | cons c rest ih =>
    obtain ⟨now, key⟩ := c
    obtain ⟨hle, hrest⟩ := List.pairwise_cons.mp hsorted
    have hnow := hstart (now, key) List.mem_cons_self
    have hsame := hwindow now key hnow
    refine .cons (agree_of_window hredis hsimple hsame) ?_
    apply ih hrest (redis.sound hredis now key) (simple.sound hsimple now key)
    · intro t key' ht
      by_cases hkey : key' = key
      · subst hkey
        have hr := redis.consumed hredis key' ht
        have hs := simple.consumed hsimple key' ht
        exact hr.trans ((congrArg (fun w => live (some (FixedWindow.consume length w now)) t)
          hsame).trans hs.symm)
      · exact (redis.other counters now t hkey).trans
          ((hwindow t key' (Int.le_trans hnow ht)).trans (simple.other cache now t hkey).symm)
    · exact fun c hc => hle c.1 (List.mem_map_of_mem hc)

/-- With Redis and without it login forms are counted alike, whatever was tried before. -/
theorem backends_agree (calls : List (Int × String))
    (hsorted : (calls.map Prod.fst).Pairwise (· ≤ ·)) :
    List.Forall₂ Agree (answers redis .empty calls) (answers simple .empty calls) := by
  cases calls with
  | nil => exact .nil
  | cons c rest =>
    apply answers_agree hsorted
    · intro key cell hcell
      cases hcell
    · intro key cell hcell
      cases hcell
    · intro t key _
      rfl
    · exact List.forall_mem_cons.mpr ⟨Int.le_refl _, fun c' hc' =>
        (List.pairwise_cons.mp hsorted).1 c'.1 (List.mem_map_of_mem hc')⟩

end Agreement

/-! ### Login forms -/

structure User where
  id : Nat
  name : Option String
  email : Option String
  deriving DecidableEq, Repr

structure Platform where
  sha256Hex : String → String
  /-- `strip` and `lower` of a form's name. -/
  normalize : String → String
  /-- The name or the email address, in lower case, is a form's name: `==` of the database. -/
  isNamed : User → String → Bool

structure Site (σ : Type) where
  now : Int
  budgets : σ
  users : List User
  /-- The names in the forms whose address has been let through. -/
  pending : List String
  /-- The forms that their address has let through, and those that reach the login. -/
  admitted : List (String × Int)
  handled : List (String × Int)

inductive Event
  | post (ip name : String)
  /-- The account's budget of a pending form, where the look-up returns a row. -/
  | account (index : Nat) (row : Option User)
  /-- The limiter fails after it has counted: status 503. -/
  | failed (identity : String)
  | users (users : List User)
  | tick (milliseconds : Nat)
  deriving DecidableEq, Repr

section Forms

variable {σ : Type} (b : Backend σ) (platform : Platform)

def budgetKey (identity : String) : String :=
  "fctf:management:security:login:" ++ platform.sha256Hex identity

/-- Username and email aliases consume the same account budget. -/
def identityOf (name : String) : Option User → String
  | some user => "user:" ++ toString user.id
  | none => "account:" ++ name

/-- What `first` may return, in any order of the rows. -/
def IsFirst (users : List User) (name : String) : Option User → Prop
  | some user => user ∈ users ∧ platform.isNamed user name = true
  | none => ∀ user ∈ users, platform.isNamed user name = false

instance (users : List User) (name : String) :
    (row : Option User) → Decidable (IsFirst platform users name row)
  | some _ => inferInstanceAs (Decidable (_ ∧ _))
  | none => inferInstanceAs (Decidable (∀ user ∈ users, _))

def charge (s : Site σ) (identity : String) : Site σ × Int :=
  let (budgets, count, _) := b.consume s.budgets s.now (budgetKey platform identity)
  ({ s with budgets := budgets }, count)

def post (s : Site σ) (ip name : String) : Site σ :=
  let (t, count) := charge b platform s ("ip:" ++ ip)
  if count > 20 then t
  else
    let name := platform.normalize name
    { t with
      admitted := (ip, s.now) :: s.admitted
      pending := if name = "" then s.pending else name :: s.pending }

def account (s : Site σ) (index : Nat) (name : String) (row : Option User) : Site σ :=
  let identity := identityOf name row
  let (t, count) := charge b platform s identity
  let t := { t with pending := s.pending.eraseIdx index }
  if count > 5 then t else { t with handled := (identity, s.now) :: s.handled }

def step (s : Site σ) : Event → Option (Site σ)
  | .post ip name => some (post b platform s ip name)
  | .account index row =>
    s.pending[index]?.bind fun name =>
      if IsFirst platform s.users name row then some (account b platform s index name row) else none
  | .failed identity => some (charge b platform s identity).1
  | .users users => some { s with users := users }
  | .tick milliseconds => some { s with now := s.now + milliseconds }

/-- The identity that an event charges. -/
def charged (s : Site σ) : Event → Option String
  | .post ip _ => some ("ip:" ++ ip)
  | .account index row => s.pending[index]?.map fun name => identityOf name row
  | .failed identity => some identity
  | .users _ | .tick _ => none

/-- The times of the calls for every key. -/
def calls (times : String → List Int) (s : Site σ) (e : Event) (_ : Site σ) : String → List Int :=
  match charged s e with
  | some identity =>
    let key := budgetKey platform identity
    Function.update times key (times key ++ [s.now])
  | none => times

/-- Of a kind, and in the interval of a window's length that starts at a time. -/
def within (what : String) (start : Int) (entry : String × Int) : Bool :=
  entry.1 = what && (start ≤ entry.2 && entry.2 < start + length)

variable {b platform} {s t : Site σ} {times : String → List Int} {first : String → Option Window}

/-- The windows are those that the calls have left. -/
structure Counted (b : Backend σ) (first : String → Option Window) (times : String → List Int)
    (s : Site σ) : Prop where
  sound : b.Sound s.budgets
  sorted : ∀ key, (times key).Pairwise (· ≤ ·)
  past : ∀ key, ∀ time ∈ times key, time ≤ s.now
  window : ∀ key, b.window s.budgets s.now key = live (after length (first key) (times key)) s.now

/-- No more entries for a budget than its calls with a number up to the limit, in any interval. -/
def Covered (platform : Platform) (first : String → Option Window) (times : String → List Int)
    (limit : Nat) (identity : String → String) (entries : List (String × Int)) : Prop :=
  ∀ what start, entries.countP (within what start) ≤
    (counts length (first (budgetKey platform (identity what)))
      (times (budgetKey platform (identity what)))).countP (passes length limit start)

structure Inv (b : Backend σ) (platform : Platform) (first : String → Option Window)
    (times : String → List Int) (s : Site σ) : Prop extends Counted b first times s where
  admitted : Covered platform first times 20 ("ip:" ++ ·) s.admitted
  handled : Covered platform first times 5 id s.handled

/-- The count that a call returns is its number. -/
theorem Counted.charge_count (h : Counted b first times s) (identity : String) :
    (charge b platform s identity).2 =
      (consume length (after length (first (budgetKey platform identity))
        (times (budgetKey platform identity))) s.now).count := by
  have hcount := b.counted h.sound s.now (budgetKey platform identity)
  rw [h.window, consume_live] at hcount
  exact hcount

theorem Counted.charge (h : Counted b first times s) (identity : String) :
    Counted b first (Function.update times (budgetKey platform identity)
      (times (budgetKey platform identity) ++ [s.now])) (charge b platform s identity).1 := by
  constructor
  · exact b.sound h.sound _ _
  · intro key
    by_cases hkey : key = budgetKey platform identity
    · subst hkey
      rw [Function.update_self]
      refine List.pairwise_append.mpr ⟨h.sorted _, List.pairwise_singleton _ _, ?_⟩
      intro time htime now hnow
      rw [List.mem_singleton.mp hnow]
      exact h.past _ time htime
    · rw [Function.update_of_ne hkey]
      exact h.sorted key
  · intro key time htime
    by_cases hkey : key = budgetKey platform identity
    · subst hkey
      rw [Function.update_self, List.mem_append, List.mem_singleton] at htime
      rcases htime with htime | rfl
      · exact h.past _ time htime
      · exact Int.le_refl _
    · rw [Function.update_of_ne hkey] at htime
      exact h.past key time htime
  · intro key
    by_cases hkey : key = budgetKey platform identity
    · subst hkey
      rw [Function.update_self, after_append]
      have hwindow := b.consumed h.sound (budgetKey platform identity) (Int.le_refl s.now)
      rw [h.window, consume_live] at hwindow
      exact hwindow
    · rw [Function.update_of_ne hkey]
      exact (b.other s.budgets s.now s.now hkey).trans (h.window key)

/-- The numbers of the calls for a key, when one more is made. -/
theorem counts_update (times : String → List Int) (key key' : String) (now : Int) :
    counts length (first key') (Function.update times key (times key ++ [now]) key') =
      counts length (first key') (times key') ++
        if key' = key then
          [(now, (consume length (after length (first key) (times key)) now).count)]
        else [] := by
  by_cases hkey : key' = key
  · subst hkey
    rw [Function.update_self, counts_append, if_pos rfl]
    rfl
  · rw [Function.update_of_ne hkey, if_neg hkey, List.append_nil]

theorem Covered.charge {limit : Nat} {identity : String → String} {entries : List (String × Int)}
    (h : Covered platform first times limit identity entries) (key : String) (now : Int) :
    Covered platform first (Function.update times key (times key ++ [now])) limit identity
      entries := by
  intro what start
  rw [counts_update, List.countP_append]
  exact Nat.le_add_right_of_le (h what start)

/-- An entry for a call whose number is within the limit. -/
theorem Covered.admit {limit : Nat} {identity : String → String} {entries : List (String × Int)}
    (h : Covered platform first times limit identity entries) {what : String} {now : Int}
    (hcount : (consume length (after length (first (budgetKey platform (identity what)))
      (times (budgetKey platform (identity what)))) now).count ≤ limit) :
    Covered platform first (Function.update times (budgetKey platform (identity what))
        (times (budgetKey platform (identity what)) ++ [now])) limit identity
      ((what, now) :: entries) := by
  intro what' start
  have hle := h what' start
  rw [counts_update, List.countP_append, List.countP_cons]
  by_cases hwhat : what' = what
  · subst hwhat
    rw [if_pos rfl, List.countP_singleton]
    have hsame : within what' start (what', now) = passes length limit start (now,
        (consume length (after length (first (budgetKey platform (identity what')))
          (times (budgetKey platform (identity what')))) now).count) := by
      simp [within, passes, hcount]
    rw [hsame]
    omega
  · have hother : within what' start (what, now) = false := by
      simp [within, Ne.symm hwhat]
    rw [hother]
    simp only [Bool.false_eq_true, if_false]
    omega

theorem Inv.post (h : Inv b platform first times s) (ip name : String) :
    Inv b platform first (Function.update times (budgetKey platform ("ip:" ++ ip))
      (times (budgetKey platform ("ip:" ++ ip)) ++ [s.now])) (post b platform s ip name) := by
  have hcharged : Counted b first _ (charge b platform s ("ip:" ++ ip)).1 := h.charge _
  have hcount := @Counted.charge_count _ b platform s _ _ h.toCounted ("ip:" ++ ip)
  have hhandled := h.handled.charge (budgetKey platform ("ip:" ++ ip)) s.now
  unfold LoginLimit.post
  simp only
  split_ifs with hover hname
  · exact ⟨hcharged, h.admitted.charge _ _, hhandled⟩
  all_goals
    refine ⟨⟨hcharged.sound, hcharged.sorted, hcharged.past, hcharged.window⟩, ?_, hhandled⟩
    apply h.admitted.admit
    rw [hcount] at hover
    omega

theorem Inv.account (h : Inv b platform first times s) (index : Nat) (name : String)
    (row : Option User) :
    Inv b platform first (Function.update times (budgetKey platform (identityOf name row))
        (times (budgetKey platform (identityOf name row)) ++ [s.now]))
      (account b platform s index name row) := by
  have hcharged : Counted b first _ (charge b platform s (identityOf name row)).1 := h.charge _
  have hcount := @Counted.charge_count _ b platform s _ _ h.toCounted (identityOf name row)
  have hadmitted := h.admitted.charge (budgetKey platform (identityOf name row)) s.now
  unfold LoginLimit.account
  simp only
  split_ifs with hover
  · exact ⟨⟨hcharged.sound, hcharged.sorted, hcharged.past, hcharged.window⟩, hadmitted,
      h.handled.charge _ _⟩
  · refine ⟨⟨hcharged.sound, hcharged.sorted, hcharged.past, hcharged.window⟩, hadmitted, ?_⟩
    apply h.handled.admit
    rw [hcount] at hover
    change (consume length (after length (first (budgetKey platform (identityOf name row)))
      (times (budgetKey platform (identityOf name row)))) s.now).count ≤ 5
    omega

theorem Inv.step (h : Inv b platform first times s) {e : Event}
    (hstep : step b platform s e = some t) :
    Inv b platform first (calls platform times s e t) t := by
  cases e with
  | post ip name =>
    cases hstep
    exact h.post ip name
  | account index row =>
    obtain ⟨name, hname, hstep⟩ := Option.bind_eq_some_iff.mp hstep
    split_ifs at hstep
    cases hstep
    simp only [calls, charged, hname, Option.map_some]
    exact h.account index name row
  | failed identity =>
    cases hstep
    exact ⟨h.charge identity, h.admitted.charge _ _, h.handled.charge _ _⟩
  | users users =>
    cases hstep
    exact ⟨⟨h.sound, h.sorted, h.past, h.window⟩, h.admitted, h.handled⟩
  | tick milliseconds =>
    cases hstep
    have hle : s.now ≤ s.now + milliseconds := by omega
    refine ⟨⟨h.sound, h.sorted, ?_, ?_⟩, h.admitted, h.handled⟩
    · exact fun key time htime => Int.le_trans (h.past key time htime) hle
    · intro key
      have hlater := b.later h.sound key hle
      rw [h.window, live_live hle] at hlater
      exact hlater

/-- However forms are posted, at most ten for one account come to the check of the password in any
300 seconds, and at most forty from one address come to the account's budget. -/
theorem logins_bounded {start : Site σ} (hsound : b.Sound start.budgets)
    (hadmitted : start.admitted = []) (hhandled : start.handled = [])
    (h : Reach (step b platform) always start s) (what : String) (begins : Int) :
    s.handled.countP (within what begins) ≤ 10 ∧ s.admitted.countP (within what begins) ≤ 40 := by
  have hstart : Inv b platform (b.window start.budgets start.now) (fun _ => []) start := by
    refine ⟨⟨hsound, fun _ => List.Pairwise.nil, ?_, ?_⟩, ?_, ?_⟩
    · intro key time htime
      cases htime
    · exact fun key => b.later hsound key (Int.le_refl start.now)
    · intro ip begins
      rw [hadmitted]
      exact Nat.zero_le _
    · intro identity begins
      rw [hhandled]
      exact Nat.zero_le _
  have hreached : ∃ times, Inv b platform (b.window start.budgets start.now) times s := by
    apply h.invariant (fun s => ∃ times, Inv b platform _ times s) ⟨_, hstart⟩
    rintro s e t ⟨times, hinv⟩ - hstep
    exact ⟨_, hinv.step hstep⟩
  obtain ⟨times, hinv⟩ := hreached
  exact ⟨(hinv.handled what begins).trans (countP_passes_le (hinv.sorted _)),
    (hinv.admitted what begins).trans (countP_passes_le (hinv.sorted _))⟩

end Forms

/-- Names as they are, and nobody is known. -/
def plain : Platform := ⟨fun identity => identity, fun name => name, fun _ _ => false⟩

def noForms : Site (Store String Int) := ⟨0, .empty, [], [], [], []⟩

theorem logins_bounded_forms : ∃ s : Site (Store String Int), s.handled = [("account:a", 0)] ∧
    s.handled.countP (within "account:a" 0) ≤ 10 ∧
      s.admitted.countP (within "account:a" 0) ≤ 40 := by
  obtain ⟨s, hreach, hs⟩ := exists_reach_of_exec (step redis plain) always noForms
    [.post "10.0.0.1" "a", .account 0 none] (p := fun s => s.handled == [("account:a", 0)])
    (meets_always _ _ _) (by decide +kernel)
  refine ⟨s, beq_iff_eq.mp hs, ?_⟩
  exact logins_bounded (fun _ _ h => by cases h) rfl rfl hreach "account:a" 0

theorem backends_agree_forms : List.Forall₂ Agree
    (answers redis .empty [(0, "a"), (0, "b"), (299500, "a"), (300000, "a")])
    (answers simple .empty [(0, "a"), (0, "b"), (299500, "a"), (300000, "a")]) :=
  backends_agree _ (by decide)

end Fctf.LoginLimit
