import WaitLocalAgent.Verification.Events.History

/-! # Run-once protection

A run-once agent that has completed for a subject is not run for it again, as long as no retry
rebuilds the attempts of a delivery that only matched the agent. -/

namespace WaitLocalAgent.Events

open Foundation

/-- No later run of the agent under the run-once flag follows a completed run of it for the same
subject. -/
def RunsOnce (agentId : String) (calls : List AgentCall) : Prop :=
  calls.Pairwise fun earlier later =>
    earlier.definition.id = agentId → later.definition.id = agentId →
    later.definition.runOncePerEntity = true → earlier.subject = later.subject →
    earlier.completed = false

/-- The stored definition of the agent, if there is one, is run-once. -/
def DispatchEnv.RunOnce (agentId : String) (env : DispatchEnv) : Prop :=
  ∀ d ∈ env.definitions, d.id = agentId → d.runOncePerEntity = true

/-- The processing does not rebuild a missing attempts map from ids that name the agent. -/
def NoRebuildOf (agentId : String) (_ : World) (p : Processing) : Prop :=
  p.retryOnly = true → p.delivery.agentAttempts.keys = [] → agentId ∉ p.delivery.agentIds

/-- Two deliveries for one subject never both hold an attempt of the agent. -/
def OneAttempt (agentId : String) (w : World) : Prop :=
  ∀ r ∈ w.deliveries, ∀ s ∈ w.deliveries,
    (r.agentAttempts.status? agentId).isSome = true →
    (s.agentAttempts.status? agentId).isSome = true → r.subject = s.subject → r = s

structure OnceInvariant (agentId : String) (w : World) : Prop where
  history : History w
  oneAttempt : OneAttempt agentId w
  once : RunsOnce agentId w.calls

namespace Processing

variable {p : Processing}

/-- The rebuilt entries are the only start attempts that the delivery does not store. -/
theorem startAttempts_of_noRebuild {agentId : String} {w : World} (hg : NoRebuildOf agentId w p) :
    p.startAttempts.status? agentId = p.delivery.agentAttempts.status? agentId := by
  by_cases hr : p.retryOnly = true
  · by_cases hk : p.delivery.agentAttempts.keys = []
    · have hnone : p.delivery.agentAttempts.status? agentId = none := by
        by_contra h
        have := Attempts.mem_keys_iff.mpr (Option.isSome_iff_ne_none.mpr h)
        simp [hk] at this
      rw [p.startAttempts_rebuilt hr hk, if_neg (hg hr hk), hnone]
    · rw [p.startAttempts_of_attempted hk]
  · rw [p.startAttempts_of_dispatch (by simpa using hr)]

/-- The agents that one pass runs are distinct. -/
theorem pairwise_calls_id (p : Processing) :
    p.agentPass.calls.Pairwise fun c c' => c.definition.id ≠ c'.definition.id := by
  obtain ⟨es, hes⟩ := p.exists_passTrace
  rw [hes.calls_eq, List.pairwise_filterMap]
  have hid : ∀ e c, (p.effect e).call = some c → c.definition.id = e.item.id := by
    intro e c hc
    cases e with
    | gaveUp d unmet => simp [effect] at hc
    | settled d =>
        by_cases hrun : p.alreadyRun d = true
        · simp [effect, hrun] at hc
        · have hcd : p.call d = c := by simpa [effect, hrun] using hc
          rw [← hcd]
          exact call_id d
  have hnodup : es.Pairwise fun e e' => e.item.id ≠ e'.item.id :=
    List.pairwise_map.mp hes.nodup_ids
  refine hnodup.imp ?_
  intro e e' hne c hc c' hc'
  rw [hid e c hc, hid e' c' hc']
  exact hne

/-- A dispatch attempts a candidate only if the run-once test lets it through. -/
theorem alreadyRun_of_attempted {d : AgentDefinition} (hd : d ∈ p.candidates)
    (hnone : p.startAttempts.status? d.id = none)
    (h : (p.agentPass.attempts.status? d.id).isSome = true) : p.alreadyRun d = false := by
  obtain ⟨es, hes⟩ := p.exists_passTrace
  obtain ⟨e, he, rfl⟩ := hes.exists_of_candidate hd
  have hstatus := hes.status?_of_mem he
  cases e with
  | settled d =>
      by_contra hrun
      have hrun' : p.alreadyRun d = true := by simpa using hrun
      simp only [effect, hrun', if_true, Option.elim_none] at hstatus
      rw [hstatus, hnone] at h
      simp at h
  | gaveUp d unmet =>
      have hwaits : ∃ t, p.worklist.waits t d = some unmet := by
        have hadm := hes.admissible
        obtain ⟨pre, post, rfl⟩ := List.append_of_mem he
        rw [guardedFrom_append] at hadm
        exact hadm.2.1
      obtain ⟨t, ht⟩ := hwaits
      by_contra hrun
      have hrun' : p.alreadyRun d = true := by simpa using hrun
      simp [worklist, hrun'] at ht

end Processing

namespace Turn

variable {w w' : World} {p : Processing} {agentId : String}

/-- The run-once test of a dispatch sees every closed delivery of the subject that lists the
agent. -/
theorem not_listed (t : Turn w w' p) (h : History w) (hr : p.retryOnly = false)
    {d : AgentDefinition} (honce : d.runOncePerEntity = true) (hrun : p.alreadyRun d = false)
    {r : EventDelivery} (hmem : r ∈ w.deliveries) (hsubject : r.subject = p.delivery.subject) :
    d.id ∉ r.agentIds := by
  intro hlisted
  have hhas : p.hasRun d.id = true := by
    have hne : r.id ≠ p.delivery.id := by
      intro hid
      cases t.origin with
      | created _ _ _ hfresh => exact hfresh r hmem hid
      | claimed hretry => simp [hr] at hretry
    have hduring : r ∈ p.deliveries := (t.during r).mpr (.inl ⟨hmem, hne⟩)
    simp only [EventDelivery.subject, Subject.mk.injEq] at hsubject
    obtain ⟨hevent, hentity, hclient⟩ := hsubject
    rw [Processing.hasRun, hasEventAgentRun, List.any_eq_true]
    refine ⟨r, hduring, ?_⟩
    rcases h.closed r hmem with hs | hs <;>
      simp [hevent, hentity, hclient, hs, t.client, hlisted]
  simp [Processing.alreadyRun, hr, honce, hhas] at hrun

theorem oneAttempt (t : Turn w w' p) (h : History w) (hone : OneAttempt agentId w)
    (hg : NoRebuildOf agentId w p) (henv : p.env.RunOnce agentId) : OneAttempt agentId w' := by
  -- No other delivery of the subject holds an attempt when the closed one does.
  have hclosed : ∀ r ∈ w.deliveries, r.id ≠ p.delivery.id →
      (r.agentAttempts.status? agentId).isSome = true →
      (p.agentPass.attempts.status? agentId).isSome = true →
      r.subject ≠ p.delivery.subject := by
    intro r hr hne hattempt hclosed hsubject
    have hstart := Processing.startAttempts_or_candidate hclosed
    rw [Processing.startAttempts_of_noRebuild hg] at hstart
    cases t.origin with
    | created hretry new hrow _ =>
        have hnone : p.startAttempts.status? agentId = none := by
          rw [Processing.startAttempts_of_noRebuild hg, t.new_attempts hretry]
          exact Attempts.status?_empty agentId
        rw [t.new_attempts hretry] at hstart
        rcases hstart with hs | hc
        · simp at hs
        · obtain ⟨d, hd, rfl⟩ := List.mem_map.mp hc
          have honce := henv d (Processing.mem_candidates.mp hd).1 rfl
          have hrun := Processing.alreadyRun_of_attempted hd hnone hclosed
          exact t.not_listed h hretry honce hrun hr hsubject (h.matched r hr d.id hattempt)
    | claimed hretry s hs _ _ hrow =>
        have hattempts : (s.agentAttempts.status? agentId).isSome = true := by
          rcases hstart with hs' | hc
          · rw [hrow] at hs'
            exact hs'
          · obtain ⟨d, hd, rfl⟩ := List.mem_map.mp hc
            have hret := (Processing.mem_candidates.mp hd).2.2 hretry
            have hsome := Processing.isSome_of_retryable hret
            rw [Processing.startAttempts_of_noRebuild hg, hrow] at hsome
            exact hsome
        rw [hrow] at hne hsubject
        have hrs : r = s := hone r hr s hs hattempt hattempts hsubject
        exact hne (by rw [hrs]; rfl)
  intro r hr s hs hra hsa hsubject
  rcases (t.rows r).mp hr with ⟨hr, hrne⟩ | rfl <;> rcases (t.rows s).mp hs with ⟨hs, hsne⟩ | rfl
  · exact hone r hr s hs hra hsa hsubject
  · rw [Processing.closed_attempts] at hsa
    exact absurd hsubject (hclosed r hr hrne hra hsa)
  · rw [Processing.closed_attempts] at hra
    exact absurd hsubject.symm (hclosed s hs hsne hsa hra)
  · rfl

theorem once (t : Turn w w' p) (h : OnceInvariant agentId w) (hg : NoRebuildOf agentId w p) :
    RunsOnce agentId w'.calls := by
  rw [t.calls]
  refine List.pairwise_append.mpr ⟨h.once, ?_, ?_⟩
  · refine p.pairwise_calls_id.imp ?_
    intro c c' hne hc hc'
    exact absurd (hc.trans hc'.symm) hne
  · intro earlier hearlier later hlater hid hlid honce hsubject
    by_contra hcompleted
    have hdone : earlier.completed = true := by simpa using hcompleted
    obtain ⟨r, hr, hrsubject, hrstatus⟩ := h.history.recorded earlier hearlier hdone
    rw [hid] at hrstatus
    have hrp : r.subject = p.delivery.subject := by
      rw [hrsubject, hsubject, t.call_subject hlater]
    obtain ⟨es, hes⟩ := p.exists_passTrace
    obtain ⟨d, hd, hrun, rfl⟩ := hes.mem_calls.mp hlater
    rw [Processing.call_id] at hlid
    subst hlid
    have hcand : d ∈ p.candidates := hes.mem_candidates hd
    have hattempt : (r.agentAttempts.status? d.id).isSome = true := by simp [hrstatus]
    cases t.origin with
    | created hretry =>
        have honce' : d.runOncePerEntity = true := by
          simpa [Processing.call] using honce
        exact t.not_listed h.history hretry honce' hrun hr hrp
          (h.history.matched r hr d.id hattempt)
    | claimed hretry s hs _ _ hrow =>
        have hret := (Processing.mem_candidates.mp hcand).2.2 hretry
        have hsome := Processing.isSome_of_retryable hret
        rw [Processing.startAttempts_of_noRebuild hg, hrow] at hsome
        rw [hrow] at hrp
        have hrs : r = s := h.oneAttempt r hr s hs hattempt hsome hrp
        rw [Attempts.retryable, Processing.startAttempts_of_noRebuild hg, hrow] at hret
        change (s.agentAttempts.status? d.id).any _ = true at hret
        rw [← hrs, hrstatus] at hret
        simp [AttemptStatus.retryable] at hret

end Turn

/-- In every run in which the agent is run-once and no retry rebuilds the attempts of a delivery
that only matched it, the agent is never run for a subject it has completed. -/
theorem runsOnce_of_noRebuild (agentId : String) (cs : List DispatcherCall)
    (hdef : ∀ c ∈ cs, ∀ env, c.Uses env → env.RunOnce agentId)
    (hguard : dispatcher.Guarded (GuardedCall (NoRebuildOf agentId)) cs) :
    RunsOnce agentId (dispatcher.run cs).calls := by
  have hinit : OnceInvariant agentId dispatcher.init := by
    have hempty : ∀ r, ¬ r ∈ (dispatcher.init).deliveries := AutoTable.not_mem_empty
    exact ⟨history_init, fun r hr => absurd hr (hempty r), List.Pairwise.nil⟩
  have hturn : ∀ w w' p, OnceInvariant agentId w →
      (NoRebuildOf agentId w p ∧ p.env.RunOnce agentId) → Turn w w' p →
      OnceInvariant agentId w' := by
    rintro w w' p h ⟨hg, henv⟩ t
    exact ⟨t.history h.history, t.oneAttempt h.history h.oneAttempt hg henv, t.once h hg⟩
  exact (dispatcher_invariant hturn hinit (guarded_and_env hguard hdef)).once

instance (agentId : String) (calls : List AgentCall) : Decidable (RunsOnce agentId calls) :=
  inferInstanceAs (Decidable (List.Pairwise _ calls))

theorem guardedCall_noRebuild {agentId : String} {w : World}
    (h : ∀ r ∈ w.deliveries.rows, r.agentAttempts.keys = [] → agentId ∉ r.agentIds)
    (env : DispatchEnv) (id : ℕ) (clientId : Option String) (actor : String) :
    GuardedCall (NoRebuildOf agentId) w (.retry env id clientId actor) := by
  intro p hp hretry hkeys
  cases hp.turn.origin with
  | created hr => simp [hretry] at hr
  | claimed _ r hr _ _ hrow =>
      rw [hrow] at hkeys ⊢
      exact h r hr hkeys

theorem guardedCall_noRebuild_dispatch (agentId : String) (w : World) (env : DispatchEnv)
    (request : DispatchRequest) :
    GuardedCall (NoRebuildOf agentId) w (.dispatch env request) := by
  intro p hp hretry
  cases hp with
  | dispatch => simp at hretry

/-- An event agent of every client. -/
def agentA : AgentDefinition where
  id := "agent-a"
  name := "A"
  enabled := true
  trigger := .event
  entityType := "ticket"
  filters := [("event_type", "ticket.created")]
  clientId := none
  runOncePerEntity := true
  dependsOnAgentIds := []

theorem runOnce_agentA {env : DispatchEnv} (h : env.definitions.rows = [agentA]) :
    ∀ e, e = env → e.RunOnce "agent-a" := by
  rintro e rfl d hd -
  rw [Table.mem_def, h] at hd
  rw [List.mem_singleton.mp hd]
  rfl

def acmeSubscription : MspPlaybookSubscription where
  id := "msp-subscription-1"
  playbookId := "triage"
  eventType := "ticket.created"
  clientId := acme
  inputMapping := []
  enabled := true

def created (key : String) : DispatchRequest where
  eventType := "ticket.created"
  entityType := "ticket"
  entityId := "T-1"
  payload := ∅
  idempotencyKey := key

/-- The agent fails, is retried, and is skipped by a second event. -/
def retriedRun : List DispatcherCall :=
  let down := acmeEnv (.singleton agentA) .empty fun _ => .error "timeout"
  let up := acmeEnv (.singleton agentA) .empty fun _ => .ok ⟨1, .completed⟩
  [.dispatch down (created "k1"), .retry up 1 none "operator", .dispatch up (created "k2")]

theorem runsOnce_of_noRebuild_retriedRun :
    (dispatcher.run retriedRun).calls.map AgentCall.completed = [false, true] ∧
      RunsOnce "agent-a" (dispatcher.run retriedRun).calls := by
  refine ⟨by decide, runsOnce_of_noRebuild "agent-a" retriedRun ?_ ?_⟩
  · intro c hc
    simp only [retriedRun, List.mem_cons, List.not_mem_nil, or_false] at hc
    rcases hc with rfl | rfl | rfl
    · exact runOnce_agentA rfl
    · exact runOnce_agentA rfl
    · exact runOnce_agentA rfl
  · refine ⟨guardedCall_noRebuild_dispatch _ _ _ _, guardedCall_noRebuild ?_ _ _ _ _,
      guardedCall_noRebuild_dispatch _ _ _ _, trivial⟩
    decide

/-- The agent completes; a second event matches it, skips it and fails on a playbook. The retry
of the second delivery takes the matched agent for a failed one. -/
def rebuildRun : List DispatcherCall :=
  let quiet := acmeEnv (.singleton agentA) .empty fun _ => .ok ⟨1, .completed⟩
  let subscribed := acmeEnv (.singleton agentA) (.singleton acmeSubscription)
    fun _ => .ok ⟨1, .completed⟩
  [.dispatch quiet (created "k1"), .dispatch subscribed (created "k2"),
    .retry subscribed 2 none "operator"]

theorem not_runsOnce : ¬ ∀ (agentId : String) (cs : List DispatcherCall),
    (∀ c ∈ cs, ∀ env, c.Uses env → env.RunOnce agentId) →
      RunsOnce agentId (dispatcher.run cs).calls := by
  intro h
  have hdef : ∀ c ∈ rebuildRun, ∀ env, c.Uses env → env.RunOnce "agent-a" := by
    intro c hc
    simp only [rebuildRun, List.mem_cons, List.not_mem_nil, or_false] at hc
    rcases hc with rfl | rfl | rfl
    · exact runOnce_agentA rfl
    · exact runOnce_agentA rfl
    · exact runOnce_agentA rfl
  exact absurd (h "agent-a" rebuildRun hdef) (by decide)

end WaitLocalAgent.Events
