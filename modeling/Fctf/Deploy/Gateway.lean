import Fctf.Deploy.Effects

/-!
Who gets through the gateway. A grant means that the slot's entry is running
under exactly the presented token. Once `Stop` has revoked a route, no token of
that route is granted again, provided that no late write of the route outlives
its tombstone.
-/

namespace Fctf

open Expiring Run World

/-- A grant says that the entry under the token's key is running, ready, in the
token's namespace and for the very token, and that the token has not expired. -/
theorem Redis.granted_of_check {r : Redis} {tok : Token} {p : Payload}
    (h : r.check tok p = true) :
    r.isRevoked p.route = false ∧ r.now < p.exp ∧
      ∃ session, r.cache p.deployment_key = some session ∧ session.status = .RUNING ∧
        session.ready = true ∧ session._namespace = p.route ∧ session.challenge_url = some tok := by
  unfold check at h
  split at h
  · cases h
  rename_i hguard
  unfold accessScript at h
  split at h
  · cases h
  rename_i hrevoked
  split at h
  · cases h
  rename_i session hcache
  split at h
  · cases h
  rename_i hstatus
  split at h
  · cases h
  rename_i hroute
  push Not at hguard hstatus hroute
  exact ⟨by simpa using hrevoked, hguard.2.2, session, hcache, hstatus.1, hstatus.2, hroute.1,
    hroute.2⟩

namespace Gateway

variable {slot : Slot} {w w' : World} {a : Action} {revoked : List String}

/-- A running entry carries the token of its own namespace and finish time. -/
def WellTokened (slot : Slot) (e : ChallengeDeploymentCacheDTO) : Prop :=
  e.status = .RUNING → e.ready = true →
    e.challenge_url = some (generateChallengeToken e._namespace e.time_finished slot.key)

theorem wellTokened_closed : Closed slot (fun _ => True) (WellTokened slot) where
  origin _ _ := trivial
  initial _ _ := by simp [WellTokened, initialEntry]
  queued _ _ := by simp [WellTokened, queuedEntry]
  submitted _ _ _ _ := by simp [WellTokened, submittedEntry]
  restarted _ _ _ := by simp [WellTokened, restartedEntry]
  running _ _ _ := by simp [WellTokened, runningEntry]
  deleting _ _ := by simp [WellTokened, deletingEntry]

/-- History: the routes for which `Stop` has executed `RevokeGatewayRouteAsync`. -/
def observeRevoked (revoked : List String) (w : World) (a : Action) (_ : World) : List String :=
  match executed w a with
  | some (_, .revoke route _) => route :: revoked
  | _ => revoked

/-- A write that makes a revoked namespace run again comes while its tombstone
stands, or is turned away otherwise, or brings a token that has expired. A
revocation covers the token that its route has at that moment. -/
def CommandOutlived (slot : Slot) (s : World × List String) : Option (Job × Command) → Prop
  | some (_, .update call) =>
    call.value.status = .RUNING → call.value.ready = true → call.value._namespace ∈ s.2 →
      s.1.redis.now < call.value.time_finished →
      s.1.redis.accepts slot.team slot.challenge call.value = false
  | some (_, .revoke route expiresAt) =>
    ∀ e ∈ s.1.cache slot, e.status = .RUNING → e.ready = true → e._namespace = route →
      s.1.redis.now < e.time_finished →
      isNullOrWhiteSpace route = false ∧
        e.time_finished ≤ s.1.redis.now + s.1.redis.tombstoneTtl expiresAt
  | _ => True

instance (slot : Slot) (s : World × List String) : ∀ c, Decidable (CommandOutlived slot s c)
  | some (_, .update _) => inferInstanceAs (Decidable (_ → _ → _ → _ → _))
  | some (_, .revoke _ _) => inferInstanceAs (Decidable (∀ e ∈ _, _ → _ → _ → _ → _ ∧ _))
  | some (_, .get) | some (_, .remove) | some (_, .removeCache) | none =>
    inferInstanceAs (Decidable True)

def TombstoneOutlives (slot : Slot) (s : World × List String) (a : Action) : Prop :=
  CommandOutlived slot s (executed s.1 a)

instance (slot : Slot) (s : World × List String) (a : Action) :
    Decidable (TombstoneOutlives slot s a) :=
  inferInstanceAs (Decidable (CommandOutlived ..))

/-- The finish time is over, or the tombstone of the namespace stands until then. -/
def Covered (r : Redis) (ns : String) (finish : Int) : Prop :=
  finish ≤ r.now ∨ ∃ d, r.revoked.cell (revokedKey ns) = some ⟨(), some d⟩ ∧ finish ≤ d

/-- What a run keeps: tokens fit their entries, no other key is written, and a
running entry of a revoked namespace is covered by the tombstone. -/
structure Inv (slot : Slot) (s : World × List String) : Prop where
  tokens : Everywhere slot (fun _ => True) (WellTokened slot) s.1
  others : ∀ key, key ≠ slot.key → s.1.redis.cache key = none
  covered : ∀ e ∈ s.1.cache slot, e.status = .RUNING → e.ready = true →
    e._namespace ∈ s.2 → Covered s.1.redis e._namespace e.time_finished

theorem inv_init (slot : Slot) (now : Int) : Inv slot (init now, []) where
  tokens := everywhere_init now
  others _ _ := rfl
  covered := by simp

theorem Covered.later {r r' : Redis} {ns : String} {finish : Int} (h : Covered r ns finish)
    (hnow : r.now ≤ r'.now) (hrevoked : r'.revoked = r.revoked) : Covered r' ns finish := by
  rcases h with hover | ⟨d, hcell, hle⟩
  · exact .inl (hover.trans hnow)
  · exact .inr ⟨d, hrevoked ▸ hcell, hle⟩

theorem Covered.revoke {r : Redis} {ns : String} {finish : Int} (h : Covered r ns finish)
    {route : String} {expiresAt : Int} (hne : ns ≠ route) :
    Covered (r.revokeGatewayRoute route expiresAt) ns finish := by
  unfold Redis.revokeGatewayRoute
  split
  · exact h
  · rcases h with hover | ⟨d, hcell, hle⟩
    · exact .inl hover
    · refine .inr ⟨d, ?_, hle⟩
      have hkey : revokedKey ns ≠ revokedKey route := fun heq => hne (revokedKey_inj.mp heq)
      simpa [Store.setEx, hkey] using hcell

theorem covered_revoked {r : Redis} {route : String} {finish expiresAt : Int}
    (hblank : isNullOrWhiteSpace route = false)
    (hfinish : finish ≤ r.now + r.tombstoneTtl expiresAt) :
    Covered (r.revokeGatewayRoute route expiresAt) route finish := by
  refine .inr ⟨_, ?_, hfinish⟩
  simp [Redis.revokeGatewayRoute, hblank, Store.setEx]

theorem others_step (h : ∀ key, key ≠ slot.key → w.redis.cache key = none)
    (hmove : Move slot w a w') : ∀ key, key ≠ slot.key → w'.redis.cache key = none := by
  intro key hne
  have hold := h key hne
  rcases hmove.redis with hsame | hredis
  · rw [hsame]
    exact hold
  generalize w'.redis = redis at hredis
  cases hredis with
  | tick seconds =>
    cases hcache : (w.redis.tick seconds).cache key with
    | none => rfl
    | some e =>
      rw [Redis.cache_of_tick hcache] at hold
      cases hold
  | reserve hteam hcreate =>
    obtain ⟨hnow, -, ⟨-, hcaches, -⟩ | ⟨-, -, -, -, hcaches, -⟩⟩ := Redis.create_cases hcreate
    · simpa only [Redis.cache, hnow, hcaches] using hold
    · exact (Redis.cache_setEx_ne hne hnow hcaches).trans hold
  | call hjob hcommand hrun =>
    rcases Fault.run_cases hrun with ⟨-, rfl, -⟩ | ⟨-, rfl, -⟩
    · exact hold
    · exact ((Command.run_cacheStep ..).entry_ne hne).trans hold

/-- A command that is executed keeps running entries of revoked namespaces covered. -/
theorem covered_call {i : Nat} {job : Job} {command : Command} {fault : Fault} {lag : Nat}
    {wfAlive : Bool} (hjob : w.jobs[i]? = some job)
    (hcommand : job.stage.command = some command) (hfault : fault ≠ .notExecuted)
    (hcond : TombstoneOutlives slot (w, revoked) (.call i fault lag wfAlive))
    (h : ∀ e ∈ w.cache slot, e.status = .RUNING → e.ready = true → e._namespace ∈ revoked →
      Covered w.redis e._namespace e.time_finished)
    {redis : Redis} (hredis : redis = (command.run slot lag w.redis).1)
    {e : ChallengeDeploymentCacheDTO} (he : redis.cache slot.key = some e)
    (hrunning : e.status = .RUNING) (hready : e.ready = true)
    (hrevoked : e._namespace ∈ observeRevoked revoked w (.call i fault lag wfAlive) w') :
    Covered redis e._namespace e.time_finished := by
  have hexec : executed w (.call i fault lag wfAlive) = some (job, command) :=
    executed_call hjob hcommand hfault
  have hstep := command.run_cacheStep slot lag w.redis
  rw [← hredis] at hstep
  rw [TombstoneOutlives, hexec] at hcond
  simp only [observeRevoked, hexec] at hrevoked
  cases hstep with
  | @kept c redis hnow hcaches hsame =>
    have hold : w.cache slot = some e := by
      simpa only [World.cache, Redis.cache, hnow, hcaches] using he
    cases command with
    | revoke route expiresAt =>
      rw [hredis, Command.run]
      by_cases hroute : e._namespace = route
      · subst hroute
        by_cases hover : e.time_finished ≤ w.redis.now
        · refine .inl ?_
          unfold Redis.revokeGatewayRoute
          split <;> exact hover
        · obtain ⟨hblank, hfinish⟩ := hcond e hold hrunning hready rfl (Int.not_le.mp hover)
          exact covered_revoked hblank hfinish
      · rcases List.mem_cons.mp hrevoked with heq | hmem
        · exact absurd heq hroute
        · exact (h e hold hrunning hready hmem).revoke hroute
    | _ => exact (h e hold hrunning hready hrevoked).later hnow.ge (hsame (by simp))
  | @updated call _ haccepts hnow _ hcaches =>
    have hvalue := Redis.cache_setEx call.realTtl_pos hnow hcaches
    obtain rfl := Option.some.inj (hvalue.symm.trans he)
    by_cases hover : call.value.time_finished ≤ w.redis.now
    · exact .inl (hover.trans hnow.ge)
    · have hrefused := hcond hrunning hready hrevoked (Int.not_le.mp hover)
      rw [haccepts] at hrefused
      cases hrefused
  | removed hnow _ hcaches =>
    simp [Redis.cache, Store.get, hnow, hcaches] at he

theorem covered_step (hcond : TombstoneOutlives slot (w, revoked) a)
    (h : ∀ e ∈ w.cache slot, e.status = .RUNING → e.ready = true → e._namespace ∈ revoked →
      Covered w.redis e._namespace e.time_finished)
    (hmove : Move slot w a w') :
    ∀ e ∈ w'.cache slot, e.status = .RUNING → e.ready = true →
      e._namespace ∈ observeRevoked revoked w a w' →
      Covered w'.redis e._namespace e.time_finished := by
  intro e he hrunning hready hrevoked
  cases hmove with
  | tick seconds =>
    have hlater : w.redis.now ≤ w.redis.now + seconds := by omega
    exact (h e (Redis.cache_of_tick he) hrunning hready hrevoked).later hlater rfl
  | refused hteam hcreate hres =>
    obtain ⟨hnow, htombs, -⟩ := Redis.create_cases hcreate
    rcases Redis.cache_create hcreate with ⟨-, hsame⟩ | ⟨hpass, -⟩
    · exact (h e (hsame.symm.trans he) hrunning hready hrevoked).later hnow.ge htombs
    · exact absurd hpass hres
  | reserved hteam hcreate =>
    rcases Redis.cache_create hcreate with ⟨hres, -⟩ | ⟨-, hinitial⟩
    · exact absurd rfl hres
    · obtain rfl := Option.some.inj (hinitial.symm.trans he)
      cases hrunning
  | @called i job command fault _ _ _ _ _ hjob hcommand hrun =>
    rcases Fault.run_cases hrun with ⟨rfl, rfl, -⟩ | ⟨hfault, hredis, -⟩
    · exact h e he hrunning hready hrevoked
    · exact covered_call hjob hcommand hfault hcond h hredis he hrunning hready hrevoked
  | _ => exact h e he hrunning hready hrevoked

theorem inv_step {s t : World × List String} (h : Inv slot s)
    (hcond : TombstoneOutlives slot s a)
    (hstep : monitored (step slot) observeRevoked s a = some t) : Inv slot t := by
  obtain ⟨hworld, hhistory⟩ := monitored_eq_some.mp hstep
  have hmove := step_move hworld
  refine ⟨h.tokens.step wellTokened_closed trivial hmove, others_step h.others hmove, ?_⟩
  rw [hhistory]
  exact covered_step hcond h.covered hmove

theorem Inv.denied {s : World × List String} (h : Inv slot s) {tok : Token}
    (hroute : tok.payload.route ∈ s.2) : s.1.redis.check tok tok.payload = false := by
  by_contra hgranted
  obtain ⟨htomb, hnow, e, hcache, hrunning, hready, hns, hurl⟩ :=
    Redis.granted_of_check (Bool.eq_true_of_not_eq_false hgranted)
  by_cases hkey : tok.payload.deployment_key = slot.key
  · rw [hkey] at hcache
    have hfinish : e.time_finished = tok.payload.exp := by
      have htoken := (h.tokens.cache e hcache hrunning hready).symm.trans hurl
      exact congrArg (fun t : Token => t.payload.exp) (Option.some.inj htoken)
    rcases h.covered e hcache hrunning hready (hns ▸ hroute) with hover | ⟨d, hcell, hle⟩
    · omega
    · have hstands : s.1.redis.isRevoked tok.payload.route = true := by
        refine Store.contains_iff.mpr ⟨⟨(), some d⟩, Store.find_eq_some.mpr ⟨hns ▸ hcell, ?_⟩⟩
        simp only [Cell.live_some]
        omega
      rw [htomb] at hstands
      cases hstands
  · rw [h.others _ hkey] at hcache
    cases hcache

/-- Whatever the run, a grant means a running entry for exactly the presented
token; and in a run whose tombstones outlive the tokens of their routes, no
token of a revoked route is granted again. -/
theorem access_sound {slot : Slot} {now : Int} {s : World × List String}
    (h : Reach (monitored (step slot) observeRevoked) (TombstoneOutlives slot)
      (World.init now, []) s) :
    (∀ tok : Token, s.1.redis.check tok tok.payload = true →
      s.1.redis.now < tok.payload.exp ∧
        ∃ session, s.1.redis.cache tok.payload.deployment_key = some session ∧
          session.status = .RUNING ∧ session.ready = true ∧
          session._namespace = tok.payload.route ∧ session.challenge_url = some tok) ∧
      ∀ tok : Token, tok.payload.route ∈ s.2 → s.1.redis.check tok tok.payload = false := by
  have hinv : Inv slot s :=
    h.invariant (Inv slot) (inv_init slot now) fun _ _ _ hinv hcond hstep =>
      inv_step hinv hcond hstep
  exact ⟨fun _ hgranted => (Redis.granted_of_check hgranted).2, fun _ => hinv.denied⟩

/-- A start up to the listener's Ready write for its namespace, which is computed
but not yet executed. The challenge has a time limit of two days. -/
def startedRun (ns : String) : List Action :=
  [.reserve 3, .call 0 .none 0 true, .publish 0 true true, .call 0 .none 0 true,
    .deliver 0, .call 0 .none 0 true, .submit 0 ns (some "wf-1") true, .call 0 .none 0 true,
    .podCreated 0, .podEvent 0 "uid-1" .present, .call 0 .none 0 true, .podState 0 .ready,
    .schedule 0 2880 0, .issue 0]

/-- `Stop` revokes the route while the entry has no finish time yet. A day later
the same challenge is started again, and only then the Ready write arrives. -/
def lateReadyRun (ns : String) : List Action :=
  startedRun ns ++
    [.stop false, .call 1 .none 0 true, .call 1 .none 0 true, .deleteNamespace 1 true,
      .tick 86401, .reserve 3, .call 0 .none 0 true]

theorem revoked_route_granted :
    ¬ ∀ (slot : Slot) (now : Int) (s : World × List String),
      Reach (monitored (step slot) observeRevoked) always (World.init now, []) s →
      (∀ tok : Token, s.1.redis.check tok tok.payload = true →
        s.1.redis.now < tok.payload.exp ∧
          ∃ session, s.1.redis.cache tok.payload.deployment_key = some session ∧
            session.status = .RUNING ∧ session.ready = true ∧
            session._namespace = tok.payload.route ∧ session.challenge_url = some tok) ∧
        ∀ tok : Token, tok.payload.route ∈ s.2 → s.1.redis.check tok tok.payload = false := by
  intro hsound
  let slot : Slot := { challenge := 1, team := 7 }
  let tok := generateChallengeToken "team-7-1-web-1" 172800 slot.key
  obtain ⟨s, hreach, hs⟩ := exists_reach_of_exec
    (monitored (step slot) observeRevoked) always (World.init 0, [])
    (lateReadyRun "team-7-1-web-1")
    (p := fun s => s.2.contains tok.payload.route && s.1.redis.check tok tok.payload)
    (meets_always ..) (by decide)
  obtain ⟨hrevoked, hgranted⟩ := Bool.and_eq_true_iff.mp hs
  have hdenied := (hsound slot 0 s hreach).2 tok (List.contains_iff_mem.mp hrevoked)
  rw [hgranted] at hdenied
  cases hdenied

theorem access_sound_stopped :
    ∃ (s : World × List String) (tok : Token), tok.payload.route ∈ s.2 ∧
      s.1.redis.check tok tok.payload = false ∧
      Reach (monitored (step { challenge := 1, team := 7 }) observeRevoked)
        (TombstoneOutlives { challenge := 1, team := 7 }) (World.init 0, []) s := by
  let slot : Slot := { challenge := 1, team := 7 }
  let tok := generateChallengeToken "team-7-1-web-1" 172800 slot.key
  obtain ⟨s, hreach, hs⟩ := exists_reach_of_exec
    (monitored (step slot) observeRevoked) (TombstoneOutlives slot) (World.init 0, [])
    (startedRun "team-7-1-web-1" ++ [.call 0 .none 0 true, .stop false, .call 0 .none 0 true])
    (p := fun s => s.2.contains tok.payload.route) (by decide) (by decide)
  have hmem := List.contains_iff_mem.mp hs
  exact ⟨s, tok, hmem, (access_sound hreach).2 tok hmem, hreach⟩

end Gateway

end Fctf
