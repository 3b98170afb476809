import Mathlib.Data.List.Forall2
import Fctf.Deploy.Effects

/-!
Which pod event a session becomes ready by. The listener takes only the team and
the challenge from the namespace of a pod, and works on the entry that it finds
under their key. The history remembers for every program which event it handles.
-/

namespace Fctf

open Run World

/-- A pod event in the hands of the listener: the namespace of the pod, and whether
its containers and its Ready condition were found true. -/
structure PodEvent where
  ns : String
  ready : Bool
  deriving Repr, DecidableEq

namespace Action

/-- The job whose program takes the step. -/
def job : Action → Option Nat
  | .call i .. | .publish i .. | .disconnect i | .crash i | .reject i | .submit i ..
  | .podState i _ | .deleteNamespace i _ | .schedule i .. | .issue i | .saveTracking i
  | .findOrphans i => some i
  | _ => none

/-- The event that the listener takes up. -/
def event (w : World) : Action → Option PodEvent
  | .podEvent k _ _ => w.pods[k]?.map fun d => ⟨d.ns, false⟩
  | _ => none

def found : Action → PodEvent → PodEvent
  | .podState _ .ready, event => { event with ready := true }
  | _, event => event

end Action

namespace Readiness

abbrev History := List (Option PodEvent)

/-- The event that job `i` works on. -/
def History.at (h : History) (i : Nat) : Option PodEvent := h[i]?.join

/-- The event that the program taking the step works on. -/
def History.handled (h : History) (a : Action) : Option PodEvent := a.job.bind h.at

/-- A program hands its event on to what it goes on with. -/
def observe (h : History) (w : World) (a : Action) (w' : World) : History :=
  match a.job with
  | some i => h.eraseIdx i ++
      List.replicate (w'.jobs.length - (w.jobs.eraseIdx i).length) ((h.at i).map a.found)
  | none => h ++ List.replicate (w'.jobs.length - w.jobs.length) (a.event w)

def IsReady (entry : ChallengeDeploymentCacheDTO) : Prop :=
  entry.status = .RUNING ∧ entry.ready = true

instance decidableIsReady (entry : ChallengeDeploymentCacheDTO) : Decidable (IsReady entry) :=
  inferInstanceAs (Decidable (_ ∧ _))

/-- What a step may do: the session of a namespace becomes running and ready, and a
token for its route is issued, only by an event of a ready pod of that namespace, and
an event of another namespace changes neither its `pod_id` nor its readiness. -/
structure OwnEvent (slot : Slot) (s : World × History) (a : Action) : Prop where
  becomes : ∀ w' entry, step slot s.1 a = some w' → w'.cache slot = some entry → IsReady entry →
    (∃ old, s.1.cache slot = some old ∧ IsReady old ∧ old._namespace = entry._namespace) ∨
      s.2.handled a = some ⟨entry._namespace, true⟩
  token : ∀ i job copy finish, a = .issue i → s.1.jobs[i]? = some job →
    job.stage = .issue copy finish → s.2.handled a = some ⟨copy._namespace, true⟩
  foreign : ∀ event w' old entry, s.2.handled a = some event → s.1.cache slot = some old →
    old._namespace ≠ event.ns → step slot s.1 a = some w' → w'.cache slot = some entry →
    entry.pod_id = old.pod_id ∧ (IsReady entry → IsReady old)

/-- The namespace whose session a write of the listener is meant for. -/
def writesFor : Stage → Option String
  | .podRestart ns _ => some ns
  | .runningWrite call => some call.value._namespace
  | _ => none

/-- The namespace of the pod that is looked at, with the entry that was read for it. -/
def looksAt : Stage → Option (String × ChallengeDeploymentCacheDTO)
  | .podState ns cache => some (ns, cache)
  | _ => none

/-- Such a write finds the session that it is meant for, if the script lets it through. -/
def WriteMeetsOwn (slot : Slot) (w : World) : Option (Job × Command) → Prop
  | some (job, .update call) => w.redis.accepts slot.team slot.challenge call.value = true →
      ∀ ns ∈ writesFor job.stage, ∀ current ∈ w.cache slot, current._namespace = ns
  | _ => True

/-- A ready pod is looked at with the entry of its own namespace, the listener writes
over no other session, and no status check issues a token. -/
def MeetsOwn (slot : Slot) (s : World × History) : Action → Prop
  | .podState i .ready => ∀ job ∈ s.1.jobs[i]?, ∀ look ∈ looksAt job.stage,
      (podStateDecision look.1 look.2 .ready).isSome = true → look.2._namespace = look.1
  | .call i fault lag wfAlive => WriteMeetsOwn slot s.1 (executed s.1 (.call i fault lag wfAlive))
  | .statusCheck => ∀ entry ∈ s.1.cache slot, ¬ IsReady entry
  | _ => True

instance decidableWriteMeetsOwn (slot : Slot) (w : World) (c : Option (Job × Command)) :
    Decidable (WriteMeetsOwn slot w c) := by
  cases c with
  | none => exact .isTrue trivial
  | some p =>
    obtain ⟨job, command⟩ := p
    cases command <;> (delta WriteMeetsOwn; infer_instance)

instance decidableMeetsOwn (slot : Slot) (s : World × History) (a : Action) :
    Decidable (MeetsOwn slot s a) := by
  cases a with
  | podState i state => cases state <;> (delta MeetsOwn; infer_instance)
  | _ => delta MeetsOwn; infer_instance

/-- What a stage tells about the event that its program works on. -/
def Explains : Stage → Option PodEvent → Prop
  | .podRead ns .., event | .podState ns _, event | .podClean ns, event | .podRemove ns _, event =>
    ∃ ready, event = some ⟨ns, ready⟩
  | .podRestart ns call, event => (∃ ready, event = some ⟨ns, ready⟩) ∧ call.value.ready = false
  | .running copy, event | .issue copy _, event => event = some ⟨copy._namespace, true⟩
  | .runningWrite call, event => event = some ⟨call.value._namespace, true⟩
  | .closeTracking _, _ => True
  | .start _ (.mark call), event | .workWrite call, event =>
    event = none ∧ call.value.status ≠ .RUNING
  | _, event => event = none

def Inv (s : World × History) : Prop :=
  List.Forall₂ (fun job event => Explains job.stage event) s.1.jobs s.2

section Lists

variable {α β : Type*} {R : α → β → Prop} {l : List α} {l' : List β}

theorem forall₂_getElem? (h : List.Forall₂ R l l') {i : Nat} {a : α} (ha : l[i]? = some a) :
    ∃ b, l'[i]? = some b ∧ R a b := by
  induction h generalizing i with
  | nil => cases ha
  | cons hab _ ih =>
    cases i with
    | zero =>
      obtain rfl := Option.some.inj ha
      exact ⟨_, rfl, hab⟩
    | succ i => exact ih ha

theorem forall₂_eraseIdx (h : List.Forall₂ R l l') (i : Nat) :
    List.Forall₂ R (l.eraseIdx i) (l'.eraseIdx i) := by
  induction h generalizing i with
  | nil => exact .nil
  | cons hab hrest ih =>
    cases i with
    | zero => exact hrest
    | succ i => exact .cons hab (ih i)

theorem forall₂_replicate {b : β} (h : ∀ a ∈ l, R a b) :
    List.Forall₂ R l (List.replicate l.length b) := by
  induction l with
  | nil => exact .nil
  | cons a l ih =>
    apply List.Forall₂.cons (h a List.mem_cons_self)
    exact ih fun x hx => h x (List.mem_cons_of_mem a hx)

end Lists

variable {slot : Slot} {w w' : World} {h : History} {a : Action}

theorem Inv.at (hinv : Inv (w, h)) {i : Nat} {job : Job} (hjob : w.jobs[i]? = some job) :
    Explains job.stage (h.at i) := by
  obtain ⟨event, hevent, hexplains⟩ := forall₂_getElem? hinv hjob
  rw [History.at, hevent]
  exact hexplains

/-- A program goes on. -/
theorem Inv.goOn (hinv : Inv (w, h)) {i : Nat} {job : Job} {next : List Job}
    (hindex : a.job = some i) (hjob : w.jobs[i]? = some job)
    (hjobs : w'.jobs = w.jobs.eraseIdx i ++ next)
    (hnext : ∀ event, Explains job.stage event →
      ∀ j ∈ next, Explains j.stage (event.map a.found)) : Inv (w', observe h w a w') := by
  have hcount : w'.jobs.length - (w.jobs.eraseIdx i).length = next.length := by
    rw [hjobs, List.length_append]
    omega
  simp only [Inv, observe, hindex, hcount]
  rw [hjobs]
  apply List.rel_append
  · exact forall₂_eraseIdx hinv i
  · exact forall₂_replicate fun j hj => hnext _ (hinv.at hjob) j hj

/-- A program goes on with the same event. -/
theorem Inv.goesOn (hinv : Inv (w, h)) {i start : Nat} {job : Job} {next : List Stage}
    (hjob : w.jobs[i]? = some job)
    (hnext : ∀ event, Explains job.stage event → ∀ stage ∈ next, Explains stage event)
    (hindex : a.job = some i := by rfl) (hfound : a.found = id := by rfl)
    (hjobs : w'.jobs = (w.goOn i start next).jobs := by rfl) :
    Inv (w', observe h w a w') := by
  apply hinv.goOn hindex hjob hjobs
  intro event hevent j hj
  obtain ⟨stage, hstage, rfl⟩ := List.mem_map.mp hj
  rw [hfound, Option.map_id]
  exact hnext event hevent stage hstage

/-- A program ends. -/
theorem Inv.ends (hinv : Inv (w, h)) {i : Nat} {job : Job} (hjob : w.jobs[i]? = some job)
    (hindex : a.job = some i := by rfl) (hfound : a.found = id := by rfl)
    (hjobs : w'.jobs = (w.goOn i job.start []).jobs := by rfl) :
    Inv (w', observe h w a w') :=
  hinv.goesOn hjob (fun _ _ _ hmem => absurd hmem List.not_mem_nil) hindex hfound hjobs

/-- A program begins. -/
theorem Inv.spawn (hinv : Inv (w, h)) {start : Nat} {stage : Stage}
    (hstage : Explains stage (a.event w)) (hindex : a.job = none := by rfl)
    (hjobs : w'.jobs = w.jobs ++ [⟨start, stage⟩] := by rfl) :
    Inv (w', observe h w a w') := by
  have hcount : w'.jobs.length - w.jobs.length = 1 := by
    simp [hjobs]
  simp only [Inv, observe, hindex, hcount]
  rw [hjobs]
  apply List.rel_append hinv
  exact .cons hstage .nil

theorem Inv.same (hinv : Inv (w, h)) (hindex : a.job = none := by rfl)
    (hjobs : w'.jobs = w.jobs := by rfl) : Inv (w', observe h w a w') := by
  simp only [Inv, observe, hindex, hjobs, Nat.sub_self, List.replicate_zero, List.append_nil]
  exact hinv

theorem explains_startAnswer {waiting ok : Bool} {next : Stage}
    (hnext : startAnswer waiting ok = some next) : Explains next none := by
  unfold startAnswer at hnext
  split at hnext
  · obtain rfl := Option.some.inj hnext
    rfl
  · cases hnext

theorem explains_startDecision {cache : Option ChallengeDeploymentCacheDTO}
    {wfAlive waiting : Bool} {pc : StartPc} (hdecision : startDecision cache wfAlive = .inr pc) :
    Explains (.start waiting pc) none := by
  unfold startDecision at hdecision
  repeat' split at hdecision
  all_goals
    cases hdecision <;> rfl

/-- After its cache read the listener still works on the same event. -/
theorem explains_podDecision {now : Int} {ns uid : String} {change : PodChange} {ready : Bool}
    {cache : Option ChallengeDeploymentCacheDTO} {next : Stage}
    (hnext : podDecision now ns uid change cache = some next) :
    Explains next (some ⟨ns, ready⟩) := by
  unfold podDecision at hnext
  split at hnext
  · obtain rfl := Option.some.inj hnext
    exact ⟨ready, rfl⟩
  · obtain rfl := Option.some.inj hnext
    exact ⟨ready, rfl⟩
  · cases hnext
  · split at hnext
    · obtain rfl := Option.some.inj hnext
      exact ⟨ready, rfl⟩
    · split at hnext
      · obtain rfl := Option.some.inj hnext
        exact ⟨⟨ready, rfl⟩, rfl⟩
      · obtain rfl := Option.some.inj hnext
        exact ⟨ready, rfl⟩

theorem explains_resume {now : Int} {wfAlive : Bool} {stage next : Stage} {reply : Reply}
    {event : Option PodEvent} (hstage : Explains stage event)
    (hnext : stage.resume now wfAlive reply = some next) : Explains next event := by
  unfold Stage.resume at hnext
  split at hnext
  -- the read of `Start`
  case h_1 waiting cache =>
    obtain rfl : event = none := hstage
    split at hnext
    · exact explains_startAnswer hnext
    · rename_i pc hdecision
      obtain rfl := Option.some.inj hnext
      exact explains_startDecision hdecision
  -- its mark
  case h_5 waiting call =>
    obtain rfl : event = none := hstage.1
    exact explains_startAnswer hnext
  case h_6 waiting call =>
    obtain rfl := Option.some.inj hnext
    exact hstage.1
  case h_7 waiting =>
    obtain rfl : event = none := hstage
    exact explains_startAnswer hnext
  -- the listener's read and restart
  case h_9 ns uid change cache =>
    obtain ⟨ready, rfl⟩ := hstage
    exact explains_podDecision hnext
  case h_10 ns call =>
    obtain rfl := Option.some.inj hnext
    exact hstage.1
  -- the tracking row of a removed pod or of an orphan
  case h_11 ns => cases hnext; trivial
  case h_12 tracking => cases hnext; trivial
  all_goals
    cases hnext <;> exact hstage

theorem explains_podState {ns : String} {cache : ChallengeDeploymentCacheDTO} {state : PodState}
    {i : Nat} {event : Option PodEvent} {next : Stage}
    (hstage : Explains (.podState ns cache) event)
    (hown : state = .ready → (podStateDecision ns cache .ready).isSome = true →
      cache._namespace = ns)
    (hnext : podStateDecision ns cache state = some next) :
    Explains next (event.map (Action.podState i state).found) := by
  obtain ⟨ready, rfl⟩ := hstage
  cases state with
  | stuck =>
    obtain rfl := Option.some.inj hnext
    exact ⟨ready, rfl⟩
  | ready =>
    have hsame : cache._namespace = ns := hown rfl (by rw [hnext]; rfl)
    simp only [podStateDecision] at hnext
    split at hnext
    · obtain rfl := Option.some.inj hnext
      rw [← hsame]
      rfl
    · cases hnext
  | other => cases hnext

theorem explains_start {waiting : Bool} {pc : StartPc} {event : Option PodEvent}
    (hstage : Explains (.start waiting pc) event) :
    event = none ∧ ∀ waiting', Explains (.start waiting' pc) event := by
  cases pc with
  | mark call => exact ⟨hstage.1, fun _ => hstage⟩
  | _ => exact ⟨hstage, fun _ => hstage⟩

theorem explains_enqueued {slot : Slot} {waiting confirmed : Bool} {start : Nat} :
    Explains (.start waiting
      (if confirmed then .mark (queuedCall slot start) else .clear)) none := by
  cases confirmed with
  | true => exact ⟨rfl, by simp [queuedCall, queuedEntry]⟩
  | false => rfl

/-- The steps that need the condition are the listener's look at a ready pod and the
status check: there an event is bound to the entry that is made ready. -/
theorem inv_move (hinv : Inv (w, h)) (hcond : MeetsOwn slot (w, h) a) (hmove : Move slot w a w') :
    Inv (w', observe h w a w') := by
  cases hmove with
  | called hjob hcommand hrun hqueue =>
    refine hinv.goesOn hjob ?_
    intro event hevent stage hstage
    exact explains_resume hevent (Option.mem_toList.mp hstage)
  | published hjob hstage | unpublished hjob hstage =>
    refine hinv.goesOn hjob ?_
    intro event hevent stage hmem
    obtain rfl := List.mem_singleton.mp hmem
    rw [hstage] at hevent
    obtain rfl : event = none := hevent
    exact explains_enqueued
  | disconnected hjob hstage =>
    refine hinv.goesOn hjob ?_
    intro event hevent stage hmem
    rw [hstage] at hevent
    obtain ⟨hnone, hstart⟩ := explains_start hevent
    simp only [List.mem_cons, List.not_mem_nil, or_false] at hmem
    rcases hmem with rfl | rfl
    · exact hstart false
    · exact hnone
  | crashedStart hjob hstage =>
    refine hinv.goesOn hjob ?_
    intro event hevent stage hmem
    obtain rfl := List.mem_singleton.mp hmem
    rw [hstage] at hevent
    exact (explains_start hevent).1
  | @submitted i job m copy appName workflowName acked queue hjob hstage hname hqueue =>
    refine hinv.goesOn hjob ?_
    intro event hevent stage hmem
    obtain ⟨name, -, rfl⟩ := Option.map_eq_some_iff.mp (Option.mem_toList.mp hmem)
    rw [hstage] at hevent
    exact ⟨hevent, by simp [submittedCall, submittedEntry]⟩
  | @podState i job ns cache state hjob hstage =>
    refine hinv.goOn rfl hjob rfl ?_
    intro event hevent j hj
    obtain ⟨stage, hnext, rfl⟩ := List.mem_map.mp hj
    rw [hstage] at hevent
    apply explains_podState hevent
    · rintro rfl hsome
      exact hcond job hjob (ns, cache) (by rw [hstage]; rfl) hsome
    · exact Option.mem_toList.mp hnext
  | @podCleaned i job ns ok hjob hstage =>
    refine hinv.goesOn hjob ?_
    intro event hevent stage hmem
    rw [hstage] at hevent
    cases ok with
    | true =>
      obtain rfl := List.mem_singleton.mp hmem
      exact hevent
    | false => cases hmem
  | @stopForced i job ns ok hjob hstage =>
    refine hinv.goesOn hjob ?_
    intro event hevent stage hmem
    rw [hstage] at hevent
    cases ok with
    | true =>
      obtain rfl := List.mem_singleton.mp hmem
      exact hevent
    | false => cases hmem
  | scheduled hjob hstage hfinish htracking =>
    refine hinv.goesOn hjob ?_
    intro event hevent stage hmem
    obtain rfl := List.mem_singleton.mp hmem
    rw [hstage] at hevent
    exact hevent
  | issued hjob hstage =>
    refine hinv.goesOn hjob ?_
    intro event hevent stage hmem
    obtain rfl := List.mem_singleton.mp hmem
    rw [hstage] at hevent
    exact hevent
  | orphaned hjob hstage =>
    refine hinv.goOn rfl hjob rfl ?_
    intro event hevent j hj
    obtain ⟨d, -, rfl⟩ := List.mem_map.mp hj
    rw [hstage] at hevent
    obtain rfl : event = none := hevent
    rfl
  | crashed hjob => exact hinv.ends hjob
  | rejected hjob hstage => exact hinv.ends hjob
  | stopDeleted hjob hstage => exact hinv.ends hjob
  | saved hjob hstage => exact hinv.ends hjob
  | podEvent hd =>
    refine hinv.spawn ?_
    rw [Action.event, hd]
    exact ⟨false, rfl⟩
  | checked hcache hrunning => exact absurd hrunning (hcond _ hcache)
  | @started readFails wfAlive pc hteam hdecision =>
    exact hinv.spawn (explains_startDecision hdecision)
  | reserved | delivered | stopping | listed =>
    refine hinv.spawn ?_
    rfl
  | _ => exact hinv.same

/-! ### One step -/

/-- A write that makes the session ready is the listener's, for a ready pod of its namespace. -/
theorem update_ready {stage : Stage} {call : UpdateCall} {event : Option PodEvent}
    (hstage : Explains stage event) (hcommand : stage.command = some (.update call))
    (hready : IsReady call.value) : event = some ⟨call.value._namespace, true⟩ := by
  unfold Stage.command at hcommand
  split at hcommand
  all_goals cases hcommand
  · exact absurd hready.1 hstage.2
  · exact absurd hready.1 hstage.2
  · rw [IsReady, hstage.2] at hready
    cases hready.2
  · exact hstage
  · cases hready.1

/-- An update that a program with an event sends is meant for the session of the event. -/
theorem update_meant {stage : Stage} {call : UpdateCall} {event : PodEvent}
    (hstage : Explains stage (some event)) (hcommand : stage.command = some (.update call)) :
    writesFor stage = some event.ns := by
  unfold Stage.command at hcommand
  split at hcommand
  all_goals cases hcommand
  · cases hstage.1
  · cases hstage.1
  · obtain ⟨⟨ready, hevent⟩, -⟩ := hstage
    cases hevent
    rfl
  · cases hstage
    rfl
  · cases hstage

theorem starts_of_job (hmove : Move slot w a w') {i : Nat} (hindex : a.job = some i) :
    w'.starts = w.starts := by
  cases hmove <;> first
    | rfl
    | cases hindex

/-- Under the condition a step keeps to its own event. -/
theorem ownEvent_of_meets {s : World × History} (hinv : Inv s) (hcond : MeetsOwn slot s a) :
    OwnEvent slot s a where
  becomes w' entry hstep hentry hready := by
    rcases (step_move hstep).cache hentry with hold | ⟨-, rfl⟩ | ⟨call, haccepted, rfl⟩
    · exact .inl ⟨entry, hold, hready, rfl⟩
    · cases hready.1
    · right
      obtain ⟨i, job, fault, lag, wfAlive, rfl, hjob, hcommand, -⟩ := haccepted
      exact update_ready (hinv.at hjob) hcommand hready
  token i job copy finish ha hjob hstage := by
    subst ha
    have hexplains := hinv.at hjob
    rw [hstage] at hexplains
    exact hexplains
  foreign event w' old entry hevent hold hforeign hstep hentry := by
    obtain ⟨i, hindex, hat⟩ := Option.bind_eq_some_iff.mp hevent
    have hmove := step_move hstep
    rcases hmove.cache hentry with hsame | ⟨hstarts, -⟩ | ⟨call, haccepted, rfl⟩
    · obtain rfl := Option.some.inj (hold.symm.trans hsame)
      exact ⟨rfl, id⟩
    · have hkept := starts_of_job hmove hindex
      omega
    · -- the listener's write is let through only for the session of the event
      obtain ⟨i', job, fault, lag, wfAlive, rfl, hjob, hcommand, hfault, haccepts⟩ := haccepted
      obtain rfl := Option.some.inj hindex
      have hexplains := hinv.at hjob
      rw [hat] at hexplains
      have hmeant := update_meant hexplains hcommand
      have hexec : executed s.1 (.call i' fault lag wfAlive) = some (job, .update call) :=
        executed_call hjob hcommand hfault
      have hwrite : WriteMeetsOwn slot s.1 (executed s.1 (.call i' fault lag wfAlive)) := hcond
      rw [hexec] at hwrite
      exact absurd (hwrite haccepts event.ns hmeant old hold) hforeign

theorem inv_step {s t : World × History} (hinv : Inv s) (hcond : MeetsOwn slot s a)
    (hstep : monitored (step slot) observe s a = some t) : Inv t := by
  obtain ⟨hnext, hhistory⟩ := monitored_eq_some.mp hstep
  have hmove := inv_move hinv hcond (step_move hnext)
  rw [← hhistory] at hmove
  exact hmove

/-- In a run whose steps meet the condition, sessions become ready and tokens are issued
only by events of ready pods of their own namespaces. -/
theorem ready_by_own_event {slot : Slot} {now : Int} {s : World × History}
    (h : Reach (monitored (step slot) observe) (MeetsOwn slot) (World.init now, []) s)
    {a : Action} (hcond : MeetsOwn slot s a) : OwnEvent slot s a := by
  have hstart : Inv (World.init now, []) := List.Forall₂.nil
  have hinv : Inv s :=
    h.invariant Inv hstart fun _ _ _ hinv hstepCond hstep => inv_step hinv hstepCond hstep
  exact ownEvent_of_meets hinv hcond

def deployedRun (ns : String) : List Action :=
  [.reserve 3, .call 0 .none 0 true, .publish 0 true true, .call 0 .none 0 true,
    .deliver 0, .call 0 .none 0 true, .submit 0 ns (some "wf-1") true,
    .call 0 .none 0 true, .podCreated 0, .podEvent 0 "uid-1" .present]

theorem ready_by_own_event_deployed :
    ∃ s, OwnEvent { challenge := 1, team := 7 } s (.call 0 .none 0 true) ∧
      s.2.handled (.call 0 .none 0 true) = some ⟨"team-7-1-a", true⟩ := by
  let slot : Slot := { challenge := 1, team := 7 }
  obtain ⟨s, hreach, hs⟩ := exists_reach_of_exec (monitored (step slot) observe)
    (MeetsOwn slot) (World.init 0, [])
    (deployedRun "team-7-1-a" ++
      [.call 0 .none 0 true, .podState 0 .ready, .schedule 0 30 0, .issue 0])
    (p := fun s => decide (MeetsOwn slot s (.call 0 .none 0 true)) &&
      s.2.handled (.call 0 .none 0 true) == some ⟨"team-7-1-a", true⟩) (by decide) (by decide)
  simp only [Bool.and_eq_true, decide_eq_true_eq, beq_iff_eq] at hs
  exact ⟨s, ready_by_own_event hreach hs.1, hs.2⟩

/-- The session is stopped while an event of its pod waits in its shard. A second start
has deployed another namespace when that event is taken up. -/
def lateEventRun : List Action :=
  deployedRun "team-7-1-a" ++
    [.stop true, .call 1 .none 0 true, .deleteNamespace 1 true, .call 1 .none 0 true,
      .call 1 .none 0 true,
      .reserve 3, .call 1 .none 0 true, .publish 1 true true, .call 1 .none 0 true,
      .deliver 0, .call 1 .none 0 true, .submit 1 "team-7-1-b" (some "wf-2") true,
      .call 1 .none 0 true,
      .call 0 .none 0 true, .podState 0 .ready, .schedule 0 30 0, .issue 0]

theorem ready_by_earlier_pod :
    ¬ ∀ (slot : Slot) (now : Int) (s : World × History) (a : Action),
      Reach (monitored (step slot) observe) always (World.init now, []) s → OwnEvent slot s a := by
  intro howns
  let slot : Slot := { challenge := 1, team := 7 }
  obtain ⟨s, hreach, hs⟩ := exists_reach_of_exec (monitored (step slot) observe)
    always (World.init 0, []) lateEventRun
    (p := fun s => s.2.handled (.call 0 .none 0 true) == some ⟨"team-7-1-a", true⟩ &&
      (s.1.cache slot).any (fun old => !decide (IsReady old)) &&
      (step slot s.1 (.call 0 .none 0 true)).any fun w' => (w'.cache slot).any fun entry =>
        decide (IsReady entry) && entry._namespace == "team-7-1-b")
    (meets_always ..) (by decide)
  simp only [Bool.and_eq_true, Option.any_eq_true, Bool.not_eq_true', decide_eq_false_iff_not,
    decide_eq_true_eq, beq_iff_eq] at hs
  obtain ⟨⟨hhandled, old, hold, hidle⟩, w', hstep, entry, hentry, hready, hns⟩ := hs
  rcases (howns slot 0 s _ hreach).becomes w' entry hstep hentry hready with
    ⟨old', hold', hready', -⟩ | hown
  · obtain rfl := Option.some.inj (hold.symm.trans hold')
    exact hidle hready'
  · rw [hhandled, hns] at hown
    exact absurd hown (by decide)

end Readiness

end Fctf
