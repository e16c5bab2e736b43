import WaitLocalAgent.Verification.Events.RunOnce

/-! # Dependency order

A definition runs only after completed runs of its dependencies, as long as no dependency is
counted as met for being listed in a completed delivery that did not complete it. -/

namespace WaitLocalAgent.Events

open Foundation

/-- Every run follows a completed run of each dependency for the same subject. -/
def DependenciesMet (calls : List AgentCall) : Prop :=
  ∀ earlier c later, calls = earlier ++ c :: later →
    ∀ dependencyId ∈ c.definition.dependsOnAgentIds, ∃ c' ∈ earlier,
      c'.definition.id = dependencyId ∧ c'.subject = c.subject ∧ c'.completed = true

/-- The dependencies that the store counts as completed for a candidate are stored as completed
attempts of its subject. -/
def CompletionsRecorded (w : World) (p : Processing) : Prop :=
  ∀ d ∈ p.candidates, p.alreadyRun d = false → ∀ dependencyId ∈ d.dependsOnAgentIds,
    p.hasCompletedRun dependencyId = true → ∃ r ∈ w.deliveries,
      r.subject = p.delivery.subject ∧
        r.agentAttempts.status? dependencyId = some .completed

namespace Processing

variable {p : Processing}

/-- The settlement behind a call, with those behind the calls before it. -/
theorem PassTrace.split_call {es : List (Settlement AgentDefinition (List String))}
    (hes : PassTrace p es) {earlier later : List AgentCall} {c : AgentCall}
    (h : p.agentPass.calls = earlier ++ c :: later) :
    ∃ before d rest, es = before ++ .settled d :: rest ∧ p.alreadyRun d = false ∧
      p.call d = c ∧ (before.filterMap fun e => (p.effect e).call) = earlier := by
  rw [hes.calls_eq] at h
  obtain ⟨front, back, rfl, hfront, hback⟩ := List.filterMap_eq_append_iff.mp h
  obtain ⟨skipped, e, rest, rfl, hskipped, hcall, -⟩ := List.filterMap_eq_cons_iff.mp hback
  have hnone : skipped.filterMap (fun e => (p.effect e).call) = [] :=
    List.filterMap_eq_nil_iff.mpr hskipped
  cases e with
  | gaveUp d unmet => simp [effect] at hcall
  | settled d =>
      cases hrun : p.alreadyRun d with
      | true => simp [effect, hrun] at hcall
      | false =>
          refine ⟨front ++ skipped, d, rest, by simp, hrun, by simpa [effect, hrun] using hcall, ?_⟩
          rw [List.filterMap_append, hfront, hnone, List.append_nil]

/-- Where an agent comes from that the pass counts as completed. -/
theorem completedAgents_source {before : List (Settlement AgentDefinition (List String))}
    {id : String} (h : id ∈ (runFrom p.worklist.apply p.startPass before).completedAgents) :
    p.startAttempts.status? id = some .completed ∨
      (∃ c ∈ before.filterMap fun e => (p.effect e).call,
        c.definition.id = id ∧ c.completed = true) ∨ p.hasCompletedRun id = true := by
  rcases (mem_runFrom_completedAgents p _ _ _).mp h with hstart | ⟨e, he, hid, hdone⟩
  · exact .inl (mem_startPass_completedAgents.mp hstart)
  · right
    cases e with
    | gaveUp d unmet => simp [effect] at hdone
    | settled d =>
        change d.id = id at hid
        cases hrun : p.alreadyRun d with
        | true =>
            right
            rw [← hid]
            simpa [effect, hrun] using hdone
        | false =>
            left
            refine ⟨p.call d, ?_, (call_id d).trans hid, by simpa [effect, hrun] using hdone⟩
            rw [List.mem_filterMap]
            exact ⟨.settled d, he, by simp [effect, hrun]⟩

/-- Where the pass takes a met dependency from when it makes a call. -/
theorem dependency_source {earlier later : List AgentCall} {c : AgentCall}
    (h : p.agentPass.calls = earlier ++ c :: later) :
    ∃ d ∈ p.candidates, p.alreadyRun d = false ∧ p.call d = c ∧
      ∀ dependencyId ∈ d.dependsOnAgentIds,
        p.startAttempts.status? dependencyId = some .completed ∨
        (∃ c' ∈ earlier, c'.definition.id = dependencyId ∧ c'.completed = true) ∨
        p.hasCompletedRun dependencyId = true := by
  obtain ⟨es, hes⟩ := p.exists_passTrace
  obtain ⟨before, d, rest, rfl, hrun, hcall, hearlier⟩ := hes.split_call h
  have hd : d ∈ p.candidates := hes.mem_candidates (e := .settled d) (by simp)
  have hwaits := ((guardedFrom_append _ _ _ _ _).mp hes.admissible).2.1
  have hunmet : p.unmet (runFrom p.worklist.apply p.startPass before).completedAgents d = [] :=
    (waits_eq_none_iff.mp hwaits).resolve_left (by simp [hrun])
  refine ⟨d, hd, hrun, hcall, ?_⟩
  intro dependencyId hdep
  have hmet := List.filter_eq_nil_iff.mp hunmet dependencyId hdep
  by_cases hstore : p.hasCompletedRun dependencyId = true
  · exact .inr (.inr hstore)
  · rw [← hearlier]
    apply completedAgents_source
    simpa [hstore] using hmet

end Processing

theorem Turn.dependenciesMet {w w' : World} {p : Processing} (t : Turn w w' p) (h : History w)
    (hmet : DependenciesMet w.calls) (hg : CompletionsRecorded w p) :
    DependenciesMet w'.calls := by
  intro earlier c later hsplit dependencyId hdep
  rw [t.calls] at hsplit
  have hnew : ∀ front, earlier = w.calls ++ front → p.agentPass.calls = front ++ c :: later →
      ∃ c' ∈ earlier, c'.definition.id = dependencyId ∧ c'.subject = c.subject ∧
        c'.completed = true := by
    rintro front rfl hcalls
    have hc : c ∈ p.agentPass.calls := by simp [hcalls]
    have hsubject := t.call_subject hc
    obtain ⟨d, hd, hrun, rfl, hsource⟩ := Processing.dependency_source hcalls
    have hdep' : dependencyId ∈ d.dependsOnAgentIds := by simpa [Processing.call] using hdep
    rw [hsubject]
    rcases hsource dependencyId hdep' with hstart | ⟨c', hc', hid, hdone⟩ | hstore
    · obtain ⟨c', hc', hid, hsub, hdone⟩ := t.delivery_logged h hstart
      exact ⟨c', List.mem_append_left _ hc', hid, hsub, hdone⟩
    · have hnew : c' ∈ p.agentPass.calls := by
        rw [hcalls]
        exact List.mem_append_left _ hc'
      exact ⟨c', List.mem_append_right _ hc', hid, t.call_subject hnew, hdone⟩
    · obtain ⟨r, hr, hsub, hstatus⟩ := hg d hd hrun dependencyId hdep' hstore
      obtain ⟨c', hc', hid, hcsub, hdone⟩ := h.logged r hr dependencyId hstatus
      exact ⟨c', List.mem_append_left _ hc', hid, hcsub.trans hsub, hdone⟩
  rcases List.append_eq_append_iff.mp hsplit with ⟨front, hearlier, hcalls⟩ | ⟨back, hw, hback⟩
  · exact hnew front hearlier hcalls
  · cases back with
    | nil =>
        rw [List.append_nil] at hw
        exact hnew [] (by simp [hw]) (by simpa using hback.symm)
    | cons c₀ back =>
        rw [List.cons_append, List.cons.injEq] at hback
        obtain ⟨rfl, -⟩ := hback
        exact hmet earlier c back hw dependencyId hdep

/-- In every run in which the store only counts dependencies as completed that have a completed
attempt, no definition runs before its dependencies have completed. -/
theorem dependenciesMet_of_completionsRecorded (cs : List DispatcherCall)
    (hguard : dispatcher.Guarded (GuardedCall CompletionsRecorded) cs) :
    DependenciesMet (dispatcher.run cs).calls := by
  have hinit : History dispatcher.init ∧ DependenciesMet dispatcher.init.calls := by
    refine ⟨history_init, ?_⟩
    intro earlier c later h
    simp [dispatcher] at h
  have hturn : ∀ w w' p, (History w ∧ DependenciesMet w.calls) → CompletionsRecorded w p →
      Turn w w' p → History w' ∧ DependenciesMet w'.calls :=
    fun w w' p h hg t => ⟨t.history h.1, t.dependenciesMet h.1 h.2 hg⟩
  exact (dispatcher_invariant (I := fun w => History w ∧ DependenciesMet w.calls) hturn hinit
    hguard).2

theorem acme_client {definitions : Table AgentDefinition.id}
    {subscriptions : Table MspPlaybookSubscription.id}
    {runAgent : AgentRequest → Except String AgentRunResult} {request : DispatchRequest}
    {w : World} {p : Processing}
    (hp : Begins w (.dispatch (acmeEnv definitions subscriptions runAgent) request) p)
    (hrequest : request.clientId = none) : p.clientId = some acme := by
  cases hp with
  | dispatch _ _ ticketClient _ _ _ hticket _ _ =>
      have hopen : ticketClient = some acme := by
        simpa [hrequest, acmeEnv, normalizeClientId, Option.filter] using hticket.symm
      simp [hrequest, normalizeClientId, hopen]

/-- When completed deliveries list completed agents only, the store counts no other. -/
theorem completionsRecorded_of_rows {w : World} {c : DispatcherCall} {p : Processing}
    (hp : Begins w c p) {client : ClientId} (hclient : p.clientId = some client)
    (h : ∀ r ∈ w.deliveries.rows, r.status = .completed →
      ∀ id ∈ r.agentIds, r.agentAttempts.status? id = some .completed) :
    CompletionsRecorded w p := by
  intro d _ _ dependencyId _ hstore
  rw [Processing.hasCompletedRun, hasCompletedEventAgentRun, List.any_eq_true] at hstore
  obtain ⟨r, hr, hmatch⟩ := hstore
  simp only [Bool.and_eq_true, beq_iff_eq, List.contains_iff_mem, hclient, withinScope] at hmatch
  obtain ⟨⟨⟨⟨hevent, hentity⟩, hstatus⟩, hscope⟩, hlisted⟩ := hmatch
  have hpc := hp.turn.client
  rcases (hp.turn.during r).mp hr with ⟨hr, -⟩ | rfl
  · refine ⟨r, hr, ?_, h r hr hstatus dependencyId hlisted⟩
    simp [EventDelivery.subject, hevent, hentity, hscope, ← hpc, hclient]
  · cases hp.turn.origin with
    | created _ new hrow _ =>
        rw [hrow] at hstatus
        simp [DeliveryTable.NewDelivery.row] at hstatus
    | claimed _ s _ _ _ hrow =>
        rw [hrow] at hstatus
        simp [EventDelivery.claimed] at hstatus

/-- Runs only for urgent tickets, after the first agent. -/
def agentB : AgentDefinition where
  id := "agent-b"
  name := "B"
  enabled := true
  trigger := .event
  entityType := "ticket"
  filters := [("event_type", "ticket.created"), ("priority", "high")]
  clientId := none
  runOncePerEntity := true
  dependsOnAgentIds := ["agent-a"]

def agentsAB : Table AgentDefinition.id := ⟨[agentA, agentB], by decide⟩

def createdUrgent (key : String) : DispatchRequest :=
  { created key with payload := AList.singleton "priority" (.text "high") }

/-- The dependency completes for a first event, the dependent runs for a second one. -/
def orderedRun : List DispatcherCall :=
  let env := acmeEnv agentsAB .empty fun _ => .ok ⟨1, .completed⟩
  [.dispatch env (created "k1"), .dispatch env (createdUrgent "k2")]

theorem dependenciesMet_orderedRun :
    (dispatcher.run orderedRun).calls.map (fun c => c.definition.id) = ["agent-a", "agent-b"] ∧
      DependenciesMet (dispatcher.run orderedRun).calls := by
  refine ⟨by decide, dependenciesMet_of_completionsRecorded orderedRun
    ⟨fun p hp => ?_, fun p hp => ?_, trivial⟩⟩
  · exact completionsRecorded_of_rows hp (acme_client hp rfl) (by decide)
  · exact completionsRecorded_of_rows hp (acme_client hp rfl) (by decide)

/-- The dependency is left waiting for approval and its delivery is closed as completed; a second
event skips the dependency and runs the dependent. -/
def pendingRun : List DispatcherCall :=
  let env := acmeEnv agentsAB .empty fun _ => .ok ⟨1, .pendingApproval⟩
  [.dispatch env (created "k1"), .dispatch env (createdUrgent "k2")]

theorem not_dependenciesMet :
    ¬ ∀ cs : List DispatcherCall, DependenciesMet (dispatcher.run cs).calls := by
  intro h
  have hcalls : ∃ c c', (dispatcher.run pendingRun).calls = [c, c'] ∧
      c'.definition.dependsOnAgentIds = ["agent-a"] ∧ c.completed = false := by
    exact ⟨_, _, rfl, rfl, rfl⟩
  obtain ⟨c, c', heq, hdep, hopen⟩ := hcalls
  obtain ⟨e, he, -, -, hdone⟩ := h pendingRun [c] c' [] heq "agent-a" (by simp [hdep])
  rw [List.mem_singleton.mp he, hopen] at hdone
  simp at hdone

end WaitLocalAgent.Events
