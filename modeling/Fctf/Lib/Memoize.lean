import Fctf.Lib.Run

/-!
A memoised reading of a source that others write. Entries belong to a version; a writer that has
committed starts another version or deletes the entry of one key. A call takes the version, looks
for an entry, and otherwise reads the source, as it was at some time since its request was opened,
and leaves what it has read. Entries, and the version itself, may be lost at any time.
-/

namespace Memoize

open Run

variable {κ α : Type*}

/-- What a call has left: since when its request was open, and when it read and stored. -/
structure Entry (α : Type*) where
  value : α
  openedAt : ℕ
  readAt : ℕ
  storedAt : ℕ

/-- A call, with the version it goes by. -/
structure Call (κ : Type*) where
  key : κ
  version : ℕ
  startedAt : ℕ

inductive Phase (κ α : Type*)
  | idle
  | started (call : Call κ)
  | missed (call : Call κ)
  | holding (call : Call κ) (value : α) (readAt : ℕ)

structure Request (κ α : Type*) where
  openedAt : ℕ
  phase : Phase κ α

inductive Writer (κ : Type*)
  | committed (committedAt : ℕ)
  /-- On the way to delete a key's entry of a version. -/
  | aimed (committedAt : ℕ) (key : κ) (version : ℕ)

def Writer.committedAt : Writer κ → ℕ
  | .committed committedAt | .aimed committedAt _ _ => committedAt

/-- A write that has told the cache: about one key, or about all. -/
structure Write (κ : Type*) where
  committedAt : ℕ
  key : Option κ
  finishedAt : ℕ

def Write.Covers (w : Write κ) (key : κ) : Prop := ∀ k ∈ w.key, k = key

structure Answer (κ α : Type*) where
  key : κ
  startedAt : ℕ
  entry : Entry α

structure System (κ α : Type*) where
  clock : ℕ
  source : κ → α
  version : Option ℕ
  entries : ℕ → κ → Option (Entry α)
  requests : ℕ → Option (Request κ α)
  writers : ℕ → Option (Writer κ)
  /-- The source at the times so far, and what has happened. -/
  past : ℕ → κ → α
  kept : ℕ → Bool
  writes : List (Write κ)
  answers : List (Answer κ α)

inductive Action (κ α : Type*)
  | commit (w : ℕ) (source : κ → α)
  | clear (w : ℕ)
  | aim (w : ℕ) (key : κ)
  | delete (w : ℕ)
  | evict (version : ℕ) (key : κ)
  | forget
  /-- One that found no version has made its own known, late perhaps. -/
  | announce (version : ℕ)
  | arrive (i : ℕ)
  | call (i : ℕ) (key : κ)
  | lookup (i : ℕ)
  /-- The source is read as it was at a time. -/
  | read (i readAt : ℕ)
  | store (i : ℕ)
  | leave (i : ℕ)

namespace System

variable [DecidableEq κ] (s : System κ α)

/-- The state once a step has been taken. -/
def tick : System κ α :=
  { s with clock := s.clock + 1, past := Function.update s.past (s.clock + 1) s.source }

def setRequest (i : ℕ) (r : Option (Request κ α)) : System κ α :=
  { s with requests := Function.update s.requests i r }

def setWriter (w : ℕ) (writer : Option (Writer κ)) : System κ α :=
  { s with writers := Function.update s.writers w writer }

def setEntry (version : ℕ) (key : κ) (entry : Option (Entry α)) : System κ α :=
  { s with
    entries := Function.update s.entries version
      (Function.update (s.entries version) key entry) }

/-- Versions are told apart by when they were made. -/
def currentVersion : ℕ := s.version.getD s.clock

def finish (w committedAt : ℕ) (key : Option κ) : System κ α :=
  { s.setWriter w none with writes := ⟨committedAt, key, s.clock⟩ :: s.writes }

def answer (i openedAt : ℕ) (call : Call κ) (entry : Entry α) : System κ α :=
  { s.setRequest i (some ⟨openedAt, .idle⟩) with
    answers := ⟨call.key, call.startedAt, entry⟩ :: s.answers }

def act : Action κ α → Option (System κ α)
  | .commit w source =>
    match s.writers w with
    | none => some { s.setWriter w (some (.committed s.clock)) with source := source }
    | some _ => none
  | .clear w =>
    match s.writers w with
    | some (.committed committedAt) =>
      some { s.finish w committedAt none with version := some s.clock }
    | _ => none
  | .aim w key =>
    match s.writers w with
    | some (.committed committedAt) =>
      some (s.setWriter w (some (.aimed committedAt key s.currentVersion)))
    | _ => none
  | .delete w =>
    match s.writers w with
    | some (.aimed committedAt key version) =>
      some ((s.finish w committedAt (some key)).setEntry version key none)
    | _ => none
  | .evict version key => some (s.setEntry version key none)
  | .forget => some { s with version := none }
  | .announce version =>
    if version < s.clock ∧ s.kept version = false then some { s with version := some version }
    else none
  | .arrive i =>
    match s.requests i with
    | none => some (s.setRequest i (some ⟨s.clock, .idle⟩))
    | some _ => none
  | .call i key =>
    match s.requests i with
    | some ⟨openedAt, .idle⟩ =>
      some (s.setRequest i (some ⟨openedAt, .started ⟨key, s.currentVersion, s.clock⟩⟩))
    | _ => none
  | .lookup i =>
    match s.requests i with
    | some ⟨openedAt, .started call⟩ =>
      match s.entries call.version call.key with
      | some entry => some (s.answer i openedAt call entry)
      | none => some (s.setRequest i (some ⟨openedAt, .missed call⟩))
    | _ => none
  | .read i readAt =>
    match s.requests i with
    | some ⟨openedAt, .missed call⟩ =>
      if openedAt ≤ readAt ∧ readAt ≤ s.clock then
        some (s.setRequest i (some ⟨openedAt, .holding call (s.past readAt call.key) readAt⟩))
      else none
    | _ => none
  | .store i =>
    match s.requests i with
    | some ⟨openedAt, .holding call value readAt⟩ =>
      let entry : Entry α := ⟨value, openedAt, readAt, s.clock⟩
      some { (s.answer i openedAt call entry).setEntry call.version call.key (some entry) with
        kept := Function.update s.kept call.version true }
    | _ => none
  | .leave i => some (s.setRequest i none)

def step (a : Action κ α) : Option (System κ α) := (s.act a).map tick

/-- Nothing is kept and nobody calls. -/
def init (source : κ → α) : System κ α where
  clock := 0
  source := source
  version := none
  entries := fun _ _ => none
  requests := fun _ => none
  writers := fun _ => none
  past := fun _ => source
  kept := fun _ => false
  writes := []
  answers := []

end System

/-! ### What every step keeps -/

/-- What is in an entry is what the source was when it was read. -/
structure Entry.Honest (e : Entry α) (past : ℕ → κ → α) (key : κ) (now : ℕ) : Prop where
  value : e.value = past e.readAt key
  opened : e.openedAt ≤ e.readAt
  read : e.readAt ≤ e.storedAt
  stored : e.storedAt < now

/-- An entry was stored after each write about its key that had finished at a time. -/
def Entry.Follows (e : Entry α) (writes : List (Write κ)) (key : κ) (time : ℕ) : Prop :=
  ∀ w ∈ writes, w.Covers key → w.finishedAt < time → w.committedAt < e.storedAt

namespace System

/-- All that is kept under a version follows. -/
def Covered (s : System κ α) (version time : ℕ) : Prop :=
  ∀ key e, s.entries version key = some e → e.Follows s.writes key time

/-- What a request still holds is right. -/
def PhaseSound (s : System κ α) (openedAt : ℕ) : Phase κ α → Prop
  | .idle => True
  | .started call | .missed call =>
    call.version < s.clock ∧ call.startedAt < s.clock ∧ s.Covered call.version call.startedAt
  | .holding call value readAt =>
    call.version < s.clock ∧ call.startedAt < s.clock ∧ value = s.past readAt call.key ∧
      openedAt ≤ readAt ∧ readAt < s.clock

/-- A version that the one to be deleted from has made way to holds nothing older than the write. -/
def WriterSound (s : System κ α) : Writer κ → Prop
  | .committed committedAt => committedAt < s.clock
  | .aimed committedAt key version => committedAt < s.clock ∧
    ∀ v ∈ s.version, v ≠ version → ∀ e, s.entries v key = some e → committedAt < e.storedAt

structure Sound (s : System κ α) : Prop where
  entry : ∀ v key e, s.entries v key = some e → e.Honest s.past key s.clock
  unkept : ∀ v, s.kept v = false → ∀ key, s.entries v key = none
  later : ∀ v, s.clock ≤ v → s.kept v = false
  version : ∀ v ∈ s.version, v < s.clock
  current : ∀ v ∈ s.version, s.Covered v s.clock
  request : ∀ i r, s.requests i = some r → r.openedAt < s.clock ∧ s.PhaseSound r.openedAt r.phase
  writer : ∀ n w, s.writers n = some w → s.WriterSound w
  write : ∀ w ∈ s.writes, w.committedAt < s.clock ∧ w.finishedAt < s.clock
  answer : ∀ a ∈ s.answers, a.entry.Honest s.past a.key s.clock ∧ a.startedAt < s.clock ∧
    a.entry.Follows s.writes a.key a.startedAt

end System

variable {past past' : ℕ → κ → α} {key : κ} {e : Entry α} {now now' time : ℕ}
  {writes : List (Write κ)}

theorem Entry.Honest.later (h : e.Honest past key now) (hnow : now ≤ now')
    (hpast : ∀ t < now, past' t = past t) : e.Honest past' key now' where
  value := by rw [hpast _ (Nat.lt_of_le_of_lt h.read h.stored), h.value]
  opened := h.opened
  read := h.read
  stored := Nat.lt_of_lt_of_le h.stored hnow

theorem Entry.Follows.cons {w : Write κ} (h : e.Follows writes key time)
    (hw : w.Covers key → w.finishedAt < time → w.committedAt < e.storedAt) :
    e.Follows (w :: writes) key time := by
  intro w' hmem
  rcases List.mem_cons.mp hmem with rfl | hmem
  · exact hw
  · exact h w' hmem

namespace System

variable {s t : System κ α} {i version : ℕ}

theorem past_tick {t : ℕ} (h : t ≤ s.clock) : s.tick.past t = s.past t :=
  Function.update_of_ne (Nat.ne_of_lt (Nat.lt_succ_of_le h)) ..

theorem PhaseSound.tick {openedAt : ℕ} {phase : Phase κ α} (h : s.PhaseSound openedAt phase) :
    s.tick.PhaseSound openedAt phase := by
  cases phase with
  | idle => trivial
  | started call | missed call => exact ⟨Nat.lt_succ_of_lt h.1, Nat.lt_succ_of_lt h.2.1, h.2.2⟩
  | holding call value readAt =>
    obtain ⟨hversion, hstarted, hvalue, hopened, hread⟩ := h
    refine ⟨Nat.lt_succ_of_lt hversion, Nat.lt_succ_of_lt hstarted, ?_, hopened,
      Nat.lt_succ_of_lt hread⟩
    rw [past_tick (Nat.le_of_lt hread), hvalue]

theorem WriterSound.tick {w : Writer κ} (h : s.WriterSound w) : s.tick.WriterSound w := by
  cases w with
  | committed committedAt => exact Nat.lt_succ_of_lt h
  | aimed committedAt key version => exact ⟨Nat.lt_succ_of_lt h.1, h.2⟩

theorem Sound.tick (h : Sound s) : Sound s.tick where
  entry := fun v key e he =>
    (h.entry v key e he).later (Nat.le_succ _) fun _ ht => past_tick (Nat.le_of_lt ht)
  unkept := h.unkept
  later := fun v hv => h.later v (Nat.le_of_succ_le hv)
  version := fun v hv => Nat.lt_succ_of_lt (h.version v hv)
  current := fun v hv key e he w hw hcovers _ =>
    h.current v hv key e he w hw hcovers (h.write w hw).2
  request := fun i r hr =>
    ⟨Nat.lt_succ_of_lt (h.request i r hr).1, (h.request i r hr).2.tick⟩
  writer := fun n w hw => (h.writer n w hw).tick
  write := fun w hw => ⟨Nat.lt_succ_of_lt (h.write w hw).1, Nat.lt_succ_of_lt (h.write w hw).2⟩
  answer := by
    intro a ha
    obtain ⟨honest, hstarted, hfollows⟩ := h.answer a ha
    exact ⟨honest.later (Nat.le_succ _) fun _ ht => past_tick (Nat.le_of_lt ht),
      Nat.lt_succ_of_lt hstarted,
      hfollows⟩

/-! ### What each operation keeps, of a state that has ticked -/

theorem Sound.setRequest (h : Sound s.tick) {r : Option (Request κ α)}
    (hr : ∀ req ∈ r, req.openedAt ≤ s.clock ∧ s.tick.PhaseSound req.openedAt req.phase) :
    Sound (s.setRequest i r).tick :=
  { h with
    request := by
      intro j req hreq
      simp only [System.tick, System.setRequest, Function.update_apply] at hreq
      split_ifs at hreq with hij
      · exact ⟨Nat.lt_succ_of_le (hr req hreq).1, (hr req hreq).2⟩
      · exact h.request j req hreq }

theorem Sound.setWriter (h : Sound s.tick) {n : ℕ} {w : Option (Writer κ)}
    (hw : ∀ writer ∈ w, s.tick.WriterSound writer) : Sound (s.setWriter n w).tick :=
  { h with
    writer := by
      intro m writer hwriter
      simp only [System.tick, System.setWriter, Function.update_apply] at hwriter
      split_ifs at hwriter with hnm
      · exact hw writer hwriter
      · exact h.writer m writer hwriter }

/-- The source is what it is from the next time on. -/
theorem Sound.setSource (h : Sound s.tick) (source : κ → α) :
    Sound { s with source := source }.tick := by
  have hpast : ∀ t < s.clock + 1, ({ s with source := source } : System κ α).tick.past t =
      s.tick.past t := by
    intro t ht
    rw [past_tick (Nat.le_of_lt_succ ht)]
    exact past_tick (s := { s with source := source }) (Nat.le_of_lt_succ ht)
  exact
    { h with
      entry := fun v key e he => (h.entry v key e he).later (Nat.le_refl _) hpast
      request := by
        intro i r hr
        obtain ⟨hopened, hphase⟩ := h.request i r hr
        refine ⟨hopened, ?_⟩
        obtain ⟨openedAt, phase⟩ := r
        cases phase with
        | idle => trivial
        | started call | missed call => exact hphase
        | holding call value readAt =>
          obtain ⟨hversion, hstarted, hvalue, hread⟩ := hphase
          exact ⟨hversion, hstarted, by rw [hpast _ hread.2, hvalue], hread⟩
      answer := fun a ha => ⟨(h.answer a ha).1.later (Nat.le_refl _) hpast, (h.answer a ha).2⟩ }

/-- A version under which nothing is kept may become the current one. -/
theorem Sound.setVersion (h : Sound s.tick) (hversion : version ≤ s.clock)
    (hnone : ∀ key, s.entries version key = none) :
    Sound { s with version := some version }.tick :=
  { h with
    version := by
      rintro v ⟨⟩
      exact Nat.lt_succ_of_le hversion
    current := by
      rintro v ⟨⟩ key e he
      cases (hnone key).symm.trans he
    writer := by
      intro n w hw
      have hwriter := h.writer n w hw
      cases w with
      | committed committedAt => exact hwriter
      | aimed committedAt key aimed =>
        refine ⟨hwriter.1, ?_⟩
        rintro v ⟨⟩ _ e he
        cases (hnone key).symm.trans he }

theorem Sound.forget (h : Sound s.tick) : Sound { s with version := none }.tick :=
  { h with
    version := by
      rintro v ⟨⟩
    current := by
      rintro v ⟨⟩
    writer := by
      intro n w hw
      have hwriter := h.writer n w hw
      cases w with
      | committed committedAt => exact hwriter
      | aimed committedAt key aimed =>
        refine ⟨hwriter.1, ?_⟩
        rintro v ⟨⟩ }

theorem Sound.give (h : Sound s.tick) {openedAt : ℕ} {call : Call κ} (hopened : openedAt ≤ s.clock)
    (honest : e.Honest s.tick.past call.key s.tick.clock) (hstarted : call.startedAt < s.tick.clock)
    (hfollows : e.Follows s.writes call.key call.startedAt) :
    Sound (s.answer i openedAt call e).tick :=
  { h.setRequest (i := i) (r := some ⟨openedAt, .idle⟩) (by
      rintro req ⟨⟩
      exact ⟨hopened, trivial⟩) with
    answer := by
      intro a ha
      rcases List.mem_cons.mp ha with rfl | ha
      · exact ⟨honest, hstarted, hfollows⟩
      · exact h.answer a ha }

/-- A write may finish once nothing older about its key is kept under the current version. -/
theorem Sound.finish (h : Sound s.tick) {n committedAt : ℕ} {about : Option κ}
    (hcommitted : committedAt < s.clock)
    (hcurrent : ∀ v ∈ s.version, ∀ key, (∀ k ∈ about, k = key) → ∀ e, s.entries v key = some e →
      committedAt < e.storedAt) :
    Sound (s.finish n committedAt about).tick :=
  { h.setWriter (n := n) (w := none) (by rintro writer ⟨⟩) with
    current := by
      intro v hv key e he
      exact (h.current v hv key e he).cons fun hcovers _ => hcurrent v hv key hcovers e he
    request := by
      intro i r hr
      obtain ⟨hopened, hphase⟩ := h.request i r hr
      refine ⟨hopened, ?_⟩
      obtain ⟨openedAt, phase⟩ := r
      cases phase with
      | idle => trivial
      | started call | missed call =>
        refine ⟨hphase.1, hphase.2.1, ?_⟩
        intro key e he
        refine (hphase.2.2 key e he).cons fun _ hlt => ?_
        exact absurd (Nat.lt_of_lt_of_le hlt (Nat.le_of_lt_succ hphase.2.1)) (Nat.lt_irrefl _)
      | holding call value readAt => exact hphase
    write := by
      intro w hw
      rcases List.mem_cons.mp hw with rfl | hw
      · exact ⟨Nat.lt_succ_of_lt hcommitted, Nat.lt_succ_self _⟩
      · exact h.write w hw
    answer := by
      intro a ha
      obtain ⟨honest, hstarted, hfollows⟩ := h.answer a ha
      refine ⟨honest, hstarted, hfollows.cons fun _ hlt => ?_⟩
      exact absurd (Nat.lt_of_lt_of_le hlt (Nat.le_of_lt_succ hstarted)) (Nat.lt_irrefl _) }

theorem currentVersion_le (h : Sound s) : s.currentVersion ≤ s.clock := by
  rw [currentVersion]
  cases hv : s.version with
  | none => exact Nat.le_refl _
  | some v => exact Nat.le_of_lt (h.version v hv)

/-- A version made now has nothing under it. -/
theorem covered_currentVersion (h : Sound s) : s.Covered s.currentVersion s.clock := by
  rw [currentVersion]
  cases hv : s.version with
  | some v => exact h.current v hv
  | none =>
    intro key e he
    cases (h.unkept _ (h.later _ (Nat.le_refl _)) key).symm.trans he

theorem sound_init (source : κ → α) : Sound (init source) where
  entry := by rintro v key e ⟨⟩
  unkept := fun _ _ _ => rfl
  later := fun _ _ => rfl
  version := by rintro v ⟨⟩
  current := by rintro v ⟨⟩
  request := by rintro i r ⟨⟩
  writer := by rintro n w ⟨⟩
  write := by rintro w ⟨⟩
  answer := by rintro a ⟨⟩

variable [DecidableEq κ]

theorem entries_setEntry {v : ℕ} {key key' : κ} {entry : Option (Entry α)} :
    (s.setEntry version key entry).entries v key' =
      if v = version ∧ key' = key then entry else s.entries v key' := by
  simp only [System.setEntry, Function.update_apply]
  by_cases hv : v = version
  · subst hv
    simp only [if_true, true_and, Function.update_apply]
  · simp only [hv, if_false, false_and]

theorem entries_drop {v : ℕ} {key' : κ}
    (he : (s.setEntry version key none).entries v key' = some e) : s.entries v key' = some e := by
  rw [entries_setEntry] at he
  split_ifs at he
  exact he

theorem Covered.drop {v : ℕ} (h : s.Covered v time) :
    (s.setEntry version key none).Covered v time :=
  fun key' e' he => h key' e' (entries_drop he)

theorem Sound.drop (h : Sound s.tick) : Sound (s.setEntry version key none).tick :=
  { h with
    entry := fun v key' e' he => h.entry v key' e' (entries_drop he)
    unkept := by
      intro v hv key'
      cases hentry : (s.setEntry version key none).entries v key' with
      | none => exact hentry
      | some e' => cases (h.unkept v hv key').symm.trans (entries_drop hentry)
    current := fun v hv => (h.current v hv).drop
    request := by
      intro i r hr
      obtain ⟨hopened, hphase⟩ := h.request i r hr
      refine ⟨hopened, ?_⟩
      obtain ⟨openedAt, phase⟩ := r
      cases phase with
      | idle => trivial
      | started call | missed call => exact ⟨hphase.1, hphase.2.1, hphase.2.2.drop⟩
      | holding call value readAt => exact hphase
    writer := by
      intro n w hw
      have hwriter := h.writer n w hw
      cases w with
      | committed committedAt => exact hwriter
      | aimed committedAt key aimed =>
        exact ⟨hwriter.1, fun v hv hne e' he => hwriter.2 v hv hne e' (entries_drop he)⟩ }

/-- What is stored now was stored after every write. -/
theorem Sound.keep (h : Sound s.tick) (hversion : version ≤ s.clock)
    (honest : e.Honest s.tick.past key s.tick.clock)
    (hwrites : ∀ w ∈ s.writes, w.committedAt < e.storedAt)
    (hwriters : ∀ n w, s.writers n = some w → w.committedAt < e.storedAt) :
    Sound { s.setEntry version key (some e) with
      kept := Function.update s.kept version true }.tick := by
  have hcases : ∀ v key' e', (s.setEntry version key (some e)).entries v key' = some e' →
      s.entries v key' = some e' ∨ v = version ∧ key' = key ∧ e' = e := by
    intro v key' e' he
    rw [entries_setEntry] at he
    split_ifs at he with hnew
    · exact .inr ⟨hnew.1, hnew.2, (Option.some.inj he).symm⟩
    · exact .inl he
  have hcovered : ∀ v time, s.Covered v time →
      ({ s.setEntry version key (some e) with
        kept := Function.update s.kept version true } : System κ α).Covered v time := by
    intro v time hv key' e' he
    rcases hcases v key' e' he with he | ⟨rfl, rfl, rfl⟩
    · exact hv key' e' he
    · exact fun w hw _ _ => hwrites w hw
  exact
    { h with
      entry := by
        intro v key' e' he
        rcases hcases v key' e' he with he | ⟨rfl, rfl, rfl⟩
        · exact h.entry v key' e' he
        · exact honest
      unkept := by
        intro v hv key'
        simp only [System.tick, Function.update_apply] at hv
        split_ifs at hv with hne
        have hnone := h.unkept v hv key'
        exact entries_setEntry.trans (by rw [if_neg fun hboth => hne hboth.1]; exact hnone)
      later := by
        intro v hv
        have hne : v ≠ version := Nat.ne_of_gt (Nat.lt_of_le_of_lt hversion (Nat.lt_of_succ_le hv))
        exact (Function.update_of_ne hne ..).trans (h.later v hv)
      current := fun v hv => hcovered v _ (h.current v hv)
      request := by
        intro i r hr
        obtain ⟨hopened, hphase⟩ := h.request i r hr
        refine ⟨hopened, ?_⟩
        obtain ⟨openedAt, phase⟩ := r
        cases phase with
        | idle => trivial
        | started call | missed call =>
          exact ⟨hphase.1, hphase.2.1, hcovered _ _ hphase.2.2⟩
        | holding call value readAt => exact hphase
      writer := by
        intro n w hw
        have hwriter := h.writer n w hw
        cases w with
        | committed committedAt => exact hwriter
        | aimed committedAt aim aimed =>
          refine ⟨hwriter.1, ?_⟩
          intro v hv hne e' he
          rcases hcases v aim e' he with he | ⟨_, _, rfl⟩
          · exact hwriter.2 v hv hne e' he
          · exact hwriters n _ hw }

/-! ### Runs -/

/-- Only a commit changes the source, and no step changes the past. -/
theorem act_eq_some {a : Action κ α} (h : s.act a = some t) :
    t.clock = s.clock ∧ t.past = s.past ∧
      ((∀ w source, a ≠ .commit w source) → t.source = s.source) := by
  cases a <;> simp only [System.act] at h
  case commit w source =>
    split at h <;> cases h
    exact ⟨rfl, rfl, fun hne => absurd rfl (hne w source)⟩
  case lookup i =>
    split at h
    · split at h <;> cases h <;> exact ⟨rfl, rfl, fun _ => rfl⟩
    · cases h
  case read i readAt =>
    split at h
    · split at h <;> cases h
      exact ⟨rfl, rfl, fun _ => rfl⟩
    · cases h
  case evict | forget | leave =>
    cases h
    exact ⟨rfl, rfl, fun _ => rfl⟩
  all_goals
    split at h <;> cases h
    exact ⟨rfl, rfl, fun _ => rfl⟩

theorem step_eq_some {a : Action κ α} (h : s.step a = some t) :
    t.clock = s.clock + 1 ∧ t.past = Function.update s.past (s.clock + 1) t.source ∧
      ((∀ w source, a ≠ .commit w source) → t.source = s.source) := by
  obtain ⟨mid, hact, rfl⟩ := Option.map_eq_some_iff.mp h
  obtain ⟨hclock, hpast, hsource⟩ := act_eq_some hact
  refine ⟨by rw [← hclock]; rfl, ?_, hsource⟩
  rw [← hclock, ← hpast]
  rfl

theorem source_commit {w : ℕ} {source : κ → α} (h : s.step (.commit w source) = some t) :
    t.source = source := by
  obtain ⟨mid, hact, rfl⟩ := Option.map_eq_some_iff.mp h
  simp only [System.act] at hact
  split at hact <;> cases hact
  rfl

theorem Sound.act (h : Sound s) {a : Action κ α} (hact : s.act a = some t) : Sound t.tick := by
  have htick := h.tick
  cases a with
  | commit w source =>
    simp only [System.act] at hact
    split at hact
    · obtain rfl := Option.some.inj hact
      refine (htick.setWriter (n := w) (w := some (.committed s.clock)) ?_).setSource source
      rintro writer ⟨⟩
      exact Nat.lt_succ_self _
    · cases hact
  | clear w =>
    simp only [System.act] at hact
    split at hact
    · rename_i committedAt hw
      obtain rfl := Option.some.inj hact
      have hnone : ∀ key, s.entries s.clock key = none :=
        h.unkept _ (h.later _ (Nat.le_refl _))
      refine (htick.setVersion (Nat.le_refl _) hnone).finish (h.writer w _ hw) ?_
      rintro v ⟨⟩ key _ e he
      cases (hnone key).symm.trans he
    · cases hact
  | aim w key =>
    simp only [System.act] at hact
    split at hact
    · rename_i committedAt hw
      obtain rfl := Option.some.inj hact
      refine htick.setWriter ?_
      rintro writer ⟨⟩
      refine ⟨Nat.lt_succ_of_lt (h.writer w _ hw), ?_⟩
      intro v hv hne
      have hversion : s.version = some v := hv
      rw [currentVersion, hversion] at hne
      exact absurd rfl hne
    · cases hact
  | delete w =>
    simp only [System.act] at hact
    split at hact
    · rename_i committedAt key version hw
      obtain rfl := Option.some.inj hact
      obtain ⟨hcommitted, haimed⟩ := h.writer w _ hw
      refine Sound.finish (s := s.setEntry version key none) htick.drop hcommitted ?_
      intro v hv key' hkey e he
      obtain rfl : key = key' := hkey key rfl
      rw [entries_setEntry] at he
      split_ifs at he with hsame
      exact haimed v hv (fun heq => hsame ⟨heq, rfl⟩) e he
    · cases hact
  | evict version key =>
    obtain rfl := Option.some.inj hact
    exact htick.drop
  | forget =>
    obtain rfl := Option.some.inj hact
    exact htick.forget
  | announce version =>
    simp only [System.act] at hact
    split_ifs at hact with hversion
    obtain rfl := Option.some.inj hact
    exact htick.setVersion (Nat.le_of_lt hversion.1) (h.unkept _ hversion.2)
  | arrive i =>
    simp only [System.act] at hact
    split at hact
    · obtain rfl := Option.some.inj hact
      refine htick.setRequest ?_
      rintro req ⟨⟩
      exact ⟨Nat.le_refl _, trivial⟩
    · cases hact
  | call i key =>
    simp only [System.act] at hact
    split at hact
    · rename_i openedAt hr
      obtain rfl := Option.some.inj hact
      refine htick.setRequest ?_
      rintro req ⟨⟩
      exact ⟨Nat.le_of_lt (h.request i _ hr).1, Nat.lt_succ_of_le (currentVersion_le h),
        Nat.lt_succ_self _, covered_currentVersion h⟩
    · cases hact
  | lookup i =>
    simp only [System.act] at hact
    split at hact
    · rename_i openedAt call hr
      obtain ⟨hopened, hphase⟩ := h.request i _ hr
      split at hact
      · rename_i e he
        obtain rfl := Option.some.inj hact
        exact htick.give (Nat.le_of_lt hopened) (htick.entry _ _ e he)
          (Nat.lt_succ_of_lt hphase.2.1) (hphase.2.2 _ e he)
      · obtain rfl := Option.some.inj hact
        refine htick.setRequest ?_
        rintro req ⟨⟩
        exact ⟨Nat.le_of_lt hopened, PhaseSound.tick hphase⟩
    · cases hact
  | read i readAt =>
    simp only [System.act] at hact
    split at hact
    · rename_i openedAt call hr
      split_ifs at hact with hread
      obtain rfl := Option.some.inj hact
      obtain ⟨hopened, hphase⟩ := h.request i _ hr
      refine htick.setRequest ?_
      rintro req ⟨⟩
      exact ⟨Nat.le_of_lt hopened, Nat.lt_succ_of_lt hphase.1, Nat.lt_succ_of_lt hphase.2.1,
        by rw [past_tick hread.2], hread.1, Nat.lt_succ_of_le hread.2⟩
    · cases hact
  | store i =>
    simp only [System.act] at hact
    split at hact
    · rename_i openedAt call value readAt hr
      obtain rfl := Option.some.inj hact
      obtain ⟨hopened, hversion, hstarted, hvalue, hread, hlt⟩ := h.request i _ hr
      have honest : Entry.Honest ⟨value, openedAt, readAt, s.clock⟩ s.tick.past call.key
          s.tick.clock :=
        ⟨by rw [past_tick (Nat.le_of_lt hlt), hvalue], hread, Nat.le_of_lt hlt,
          Nat.lt_succ_self _⟩
      have hwrites : ∀ w ∈ s.writes, w.committedAt < s.clock := fun w hw => (h.write w hw).1
      have hgiven := htick.give (i := i) (Nat.le_of_lt hopened) honest
        (Nat.lt_succ_of_lt hstarted) fun w hw _ _ => hwrites w hw
      refine hgiven.keep (Nat.le_of_lt hversion) honest hwrites ?_
      intro n w hw
      have hwriter := h.writer n w hw
      cases w with
      | committed committedAt => exact hwriter
      | aimed committedAt key version => exact hwriter.1
    · cases hact
  | leave i =>
    obtain rfl := Option.some.inj hact
    refine htick.setRequest ?_
    rintro req ⟨⟩

theorem sound_of_reach {source : κ → α} (h : Reach step always (init source) s) : Sound s := by
  refine h.invariant Sound (sound_init source) ?_
  intro s a t hs _ hstep
  obtain ⟨mid, hact, rfl⟩ := Option.map_eq_some_iff.mp hstep
  exact hs.act hact

/-- In every interleaving an answer is what the source was when it was read. If a write had
finished before the call, what it wrote has been read, unless the request that read had been open
when the write was committed and stored after it. -/
theorem answer_fresh {source : κ → α} (h : Reach step always (init source) s) {a : Answer κ α}
    (ha : a ∈ s.answers) :
    a.entry.value = s.past a.entry.readAt a.key ∧ a.entry.openedAt ≤ a.entry.readAt ∧
      ∀ w ∈ s.writes, w.Covers a.key → w.finishedAt < a.startedAt →
        w.committedAt < a.entry.readAt ∨
          a.entry.openedAt ≤ w.committedAt ∧ w.committedAt < a.entry.storedAt := by
  obtain ⟨honest, _, hfollows⟩ := (sound_of_reach h).answer a ha
  refine ⟨honest.value, honest.opened, ?_⟩
  intro w hw hcovers hfinished
  have hstored := hfollows w hw hcovers hfinished
  rcases Nat.lt_or_ge w.committedAt a.entry.readAt with hread | hread
  · exact .inl hread
  · exact .inr ⟨Nat.le_trans honest.opened hread, hstored⟩

end System

end Memoize
