import Fctf.Contest.Settings
import Fctf.Lib.Memoize

/-!
The cache of the settings. `_get_config` is memoised; a request that has written tells the cache,
`set_config` of one key and the API of all. Requests read the table as it was at some time since
they were opened.
-/

namespace Fctf.Settings

open CtfTime Memoize Run

structure Site where
  table : List Row
  nextId : Nat
  /-- The tables at the times so far. -/
  tables : ℕ → List Row
  calls : ℕ → Option Call
  cache : System String (Option PyValue)

/-- What `_get_config` returns, for each key. -/
def reading (table : List Row) (key : String) : Option PyValue := pyGetConfig (configs table) key

inductive Event
  /-- A call commits what it does by the rows of a time before. -/
  | save (w readAt : ℕ) (call : Call)
  | cached (a : Action String (Option PyValue))

namespace Site

variable (platform : Platform) (s : Site)

/-- A call tells the cache of what it has written. -/
def allows : Action String (Option PyValue) → Bool
  | .commit _ _ => false
  | .clear w => (s.calls w).any fun call => call.about = none
  | .aim w key => (s.calls w).any fun call => call.about = some key
  | _ => true

def tick (table : List Row) : ℕ → List Row :=
  Function.update s.tables (s.cache.clock + 1) table

def step : Event → Option Site
  | .save w readAt call =>
    if readAt ≤ s.cache.clock then
      match call.response platform (s.tables readAt) with
      | .saved effects =>
        (applyAll (s.table, s.nextId) effects).bind fun after =>
          (s.cache.step (.commit w (reading after.1))).map fun cache =>
            { table := after.1
              nextId := after.2
              tables := s.tick after.1
              calls := Function.update s.calls w (some call)
              cache := cache }
      | _ => none
    else none
  | .cached a =>
    if s.allows a then
      (s.cache.step a).map fun cache =>
        { s with tables := s.tick s.table, cache := cache }
    else none

def start (table : List Row) (nextId : Nat) : Site :=
  ⟨table, nextId, fun _ => table, fun _ => none, System.init (reading table)⟩

end Site

/-- The event of a call of `set_config` has a proper value. -/
def Event.Proper : Event → Prop
  | .save _ _ (.setConfig key value) => ProperValue key value.text
  | _ => True

/-! ### Runs of the site -/

namespace Site

variable {platform : Platform} {s t : Site} {table : List Row} {nextId : Nat}

/-- The cache goes along with the table. -/
theorem step_cases {e : Event} (h : s.step platform e = some t) :
    t.tables = s.tick t.table ∧
      ((∃ w readAt call effects, e = .save w readAt call ∧ readAt ≤ s.cache.clock ∧
          call.response platform (s.tables readAt) = .saved effects ∧
            applyAll (s.table, s.nextId) effects = some (t.table, t.nextId) ∧
              s.cache.step (.commit w (reading t.table)) = some t.cache) ∨
        ∃ a, e = .cached a ∧ (∀ w source, a ≠ .commit w source) ∧ t.table = s.table ∧
          t.nextId = s.nextId ∧ s.cache.step a = some t.cache) := by
  cases e with
  | save w readAt call =>
    simp only [step] at h
    split_ifs at h with hread
    split at h
    · rename_i effects hresponse
      obtain ⟨after, happly, hafter⟩ := Option.bind_eq_some_iff.mp h
      obtain ⟨cache, hcache, rfl⟩ := Option.map_eq_some_iff.mp hafter
      exact ⟨rfl, .inl ⟨w, readAt, call, effects, rfl, hread, hresponse, happly, hcache⟩⟩
    · cases h
  | cached a =>
    simp only [step] at h
    split_ifs at h with hallows
    obtain ⟨cache, hcache, rfl⟩ := Option.map_eq_some_iff.mp h
    refine ⟨rfl, .inr ⟨a, rfl, ?_, rfl, rfl, hcache⟩⟩
    rintro w source rfl
    cases hallows

/-- The cache's source is the table, now and at the times before. -/
structure Linked (s : Site) : Prop where
  now : s.tables s.cache.clock = s.table
  source : s.cache.source = reading s.table
  past : ∀ time ≤ s.cache.clock, s.cache.past time = reading (s.tables time)

theorem cache_step {e : Event} (h : s.step platform e = some t) :
    (∃ a, s.cache.step a = some t.cache) ∧ (s.Linked → t.cache.source = reading t.table) := by
  rcases (step_cases h).2 with ⟨w, _, _, _, _, _, _, _, hcache⟩ | ⟨a, _, hne, htable, _, hcache⟩
  · exact ⟨⟨_, hcache⟩, fun _ => System.source_commit hcache⟩
  · refine ⟨⟨_, hcache⟩, fun hs => ?_⟩
    rw [(System.step_eq_some hcache).2.2 hne, htable, hs.source]

theorem Linked.step (hs : s.Linked) {e : Event} (h : s.step platform e = some t) : t.Linked := by
  obtain ⟨⟨a, hcache⟩, hsource⟩ := cache_step h
  obtain ⟨hclock, hpast, -⟩ := System.step_eq_some hcache
  have htables := (step_cases h).1
  refine ⟨?_, hsource hs, ?_⟩
  · rw [htables, hclock, tick, Function.update_self]
  · intro time htime
    rw [hpast, htables, tick]
    rcases Nat.lt_or_ge s.cache.clock time with hlt | hle
    · obtain rfl : time = s.cache.clock + 1 := Nat.le_antisymm (hclock ▸ htime) hlt
      rw [Function.update_self, Function.update_self, hsource hs]
    · have hne : time ≠ s.cache.clock + 1 := Nat.ne_of_lt (Nat.lt_succ_of_le hle)
      rw [Function.update_of_ne hne, Function.update_of_ne hne, hs.past time hle]

theorem linked_of_reach {cond : Site → Event → Prop}
    (h : Reach (step platform) cond (start table nextId) s) : s.Linked :=
  h.invariant Linked ⟨rfl, rfl, fun _ _ => rfl⟩ fun _ _ _ hs _ hstep => hs.step hstep

/-- The site's cache runs as a cache does. -/
theorem reach_cache {cond : Site → Event → Prop}
    (h : Reach (step platform) cond (start table nextId) s) :
    Reach System.step always (System.init (reading table)) s.cache := by
  refine h.invariant (fun s => Reach System.step always (System.init (reading table)) s.cache)
    .start ?_
  intro s e t hs _ hstep
  obtain ⟨⟨a, hcache⟩, -⟩ := cache_step hstep
  exact .next hs trivial hcache

/-- In every interleaving of requests, writers and losses of what is kept, `get_config` answers
with what the table said when it was read. A call that began after a writer was done with the key
has an answer from after the write, unless it was left by a request that had been open since before
the write and stored it afterwards. -/
theorem answers_fresh (h : Reach (step platform) always (start table nextId) s)
    {a : Answer String (Option PyValue)} (ha : a ∈ s.cache.answers) :
    a.entry.value = pyGetConfig (configs (s.tables a.entry.readAt)) a.key ∧
      a.entry.openedAt ≤ a.entry.readAt ∧
        ∀ w ∈ s.cache.writes, w.Covers a.key → w.finishedAt < a.startedAt →
          w.committedAt < a.entry.readAt ∨
            a.entry.openedAt ≤ w.committedAt ∧ w.committedAt < a.entry.storedAt := by
  have hcache := reach_cache h
  obtain ⟨hvalue, hrest⟩ := System.answer_fresh hcache ha
  have honest := ((System.sound_of_reach hcache).answer a ha).1
  have hread : a.entry.readAt ≤ s.cache.clock :=
    Nat.le_trans honest.read (Nat.le_of_lt honest.stored)
  rw [(linked_of_reach h).past _ hread] at hvalue
  exact ⟨hvalue, hrest⟩

/-- All tables there have been are clean. -/
def Tidy (s : Site) : Prop :=
  ∃ keyOf, ∀ time ≤ s.cache.clock, Clean keyOf (s.tables time, s.nextId)

theorem Tidy.step (hs : s.Tidy) (hlinked : s.Linked) {e : Event} (he : e.Proper)
    (h : s.step platform e = some t) : t.Tidy := by
  obtain ⟨keyOf, hclean⟩ := hs
  have hnow : Clean keyOf (s.table, s.nextId) := hlinked.now ▸ hclean _ (Nat.le_refl _)
  obtain ⟨⟨a, hcache⟩, -⟩ := cache_step h
  have hclock := (System.step_eq_some hcache).1
  obtain ⟨htables, hcases⟩ := step_cases h
  have hnext : s.nextId ≤ t.nextId ∧ ∃ keyOf', (∀ id < s.nextId, keyOf' id = keyOf id) ∧
      Clean keyOf' (t.table, t.nextId) := by
    rcases hcases with ⟨w, readAt, call, effects, rfl, hread, hresponse, happly, -⟩ |
      ⟨_, _, _, htable, hid, _⟩
    · refine hnow.applyAll ((hclean readAt hread).response ?_ hresponse) happly
      rintro key value rfl
      exact he
    · rw [htable, hid]
      exact ⟨Nat.le_refl _, keyOf, fun _ _ => rfl, hnow⟩
  obtain ⟨hle, keyOf', hkey, hafter⟩ := hnext
  refine ⟨keyOf', ?_⟩
  intro time htime
  rw [htables, tick]
  rcases Nat.lt_or_ge s.cache.clock time with hlt | hle'
  · obtain rfl : time = s.cache.clock + 1 := Nat.le_antisymm (hclock ▸ htime) hlt
    rw [Function.update_self]
    exact hafter
  · rw [Function.update_of_ne (Nat.ne_of_lt (Nat.lt_succ_of_le hle'))]
    exact (hclean time hle').mono hkey hle

/-- As long as `set_config` is given proper values, both programs read every setting of a kind as
one and the same value that fits the kind, at every time; so does `get_config` with its cache. -/
theorem settings_agree {keyOf : ℕ → String} (hclean : Clean keyOf (table, nextId))
    (h : Reach (step platform) (fun _ e => e.Proper) (start table nextId) s) {time : ℕ}
    (htime : time ≤ s.cache.clock) {key : String} (hkey : IsKinded key) :
    ∃ v : Setting, v.Fits key ∧ getConfig (configs (s.tables time)) key = v.cs ∧
      pyGetConfig (configs (s.tables time)) key = v.py ∧
        ∀ a ∈ s.cache.answers, a.key = key → a.entry.readAt = time → a.entry.value = v.py := by
  have hlinked := linked_of_reach h
  have htidy : s.Tidy := by
    refine (h.invariant (fun s => s.Linked ∧ s.Tidy)
      ⟨⟨rfl, rfl, fun _ _ => rfl⟩, keyOf, fun _ _ => hclean⟩ ?_).2
    intro s e t hs he hstep
    exact ⟨hs.1.step hstep, hs.2.step hs.1 he hstep⟩
  obtain ⟨keyOf', hall⟩ := htidy
  obtain ⟨v, hfits, hpy, hcs⟩ := read_proper hkey fun text => proper_of_lookup (hall time htime)
  refine ⟨v, hfits, hcs, hpy, ?_⟩
  rintro a ha rfl rfl
  rw [(System.answer_fresh (reach_cache h) ha).1, hlinked.past _ htime]
  exact hpy

end Site

def bare : Platform where
  themes := ["core-beta"]
  isObject _ := true

/-- The times of the contest are saved, and a request asks for its start. -/
def startRun : List Event :=
  [.save 0 0 (.patchAll [("nonce", .str "n"), ("start", .str "0100"), ("end", .int 200)]),
    .cached (.clear 0), .cached (.arrive 1), .cached (.call 1 "start"), .cached (.lookup 1),
    .cached (.read 1 4), .cached (.store 1)]

theorem exists_startRun (cond : Site → Event → Prop) (h : ∀ e ∈ startRun, ∀ s, cond s e) :
    ∃ s, Reach (Site.step bare) cond (Site.start [] 0) s ∧ 4 ≤ s.cache.clock ∧
      (∃ a ∈ s.cache.answers, a.key = "start" ∧ a.startedAt = 3 ∧ a.entry.readAt = 4 ∧
        a.entry.openedAt = 2) ∧
      ∃ w ∈ s.cache.writes, w.key = none ∧ w.finishedAt = 1 := by
  obtain ⟨s, hreach, hs⟩ := exists_reach_of_exec (Site.step bare) cond (Site.start [] 0) startRun
    (p := fun s => 4 ≤ s.cache.clock && (s.cache.answers.any (fun a => a.key = "start" ∧
      a.startedAt = 3 ∧ a.entry.readAt = 4 ∧ a.entry.openedAt = 2) &&
        s.cache.writes.any fun w => w.key = none ∧ w.finishedAt = 1))
    (meets_of_forall_mem h) (by decide +kernel)
  simp only [Bool.and_eq_true, List.any_eq_true, decide_eq_true_eq] at hs
  exact ⟨s, hreach, hs⟩

theorem answers_fresh_start : ∃ s : Site, ∃ a ∈ s.cache.answers, ∃ w ∈ s.cache.writes,
    a.entry.value = pyGetConfig (configs (s.tables 4)) "start" ∧
      (w.committedAt < 4 ∨ 2 ≤ w.committedAt) := by
  obtain ⟨s, hreach, _, ⟨a, ha, hkey, hstarted, hread, hopened⟩, w, hw, hall, hfinished⟩ :=
    exists_startRun always fun _ _ _ => trivial
  obtain ⟨hvalue, _, hwrites⟩ := Site.answers_fresh hreach ha
  rw [hkey, hread] at hvalue
  have hcovers : w.Covers a.key := by
    rw [Write.Covers, hall]
    rintro key ⟨⟩
  have hbefore := hwrites w hw hcovers (by rw [hfinished, hstarted]; decide)
  rw [hread, hopened] at hbefore
  exact ⟨s, a, ha, w, hw, hvalue, hbefore.imp_right And.left⟩

theorem settings_agree_start : ∃ s : Site, ∃ v : Setting, v.Fits "start" ∧
    getConfig (configs (s.tables 4)) "start" = v.cs ∧
      ∃ a ∈ s.cache.answers, a.entry.value = v.py := by
  obtain ⟨s, hreach, hclock, ⟨a, ha, hkey, _, hread, _⟩, _⟩ :=
    exists_startRun (fun _ e => e.Proper) (by
      intro e he s
      simp only [startRun, List.mem_cons, List.not_mem_nil, or_false] at he
      rcases he with rfl | rfl | rfl | rfl | rfl | rfl | rfl <;> trivial)
  have hclean : Clean (fun _ => "") ([], 0) :=
    ⟨List.forall_mem_nil _, List.forall_mem_nil _, List.forall_mem_nil _⟩
  obtain ⟨v, hfits, hcs, _, hanswers⟩ :=
    Site.settings_agree hclean hreach hclock (.inl (by decide) : IsKinded "start")
  exact ⟨s, v, hfits, hcs, a, ha, hanswers a ha hkey hread⟩

end Fctf.Settings
