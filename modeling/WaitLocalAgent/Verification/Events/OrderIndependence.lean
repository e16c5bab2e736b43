import WaitLocalAgent.Foundation.Saturation
import WaitLocalAgent.Verification.Events.DependencyOrder

/-! # Order of the definitions

The agent loop over the candidates in any order: it ends, runs the same agents, leaves the same
attempts and closes the delivery with the same status. -/

namespace WaitLocalAgent.Events

open Foundation

namespace Processing

variable {p : Processing}

section Runs

variable (p) (s : AgentPass) {es : List (Settlement AgentDefinition (List String))}

/-- Settlements in another order leave the same attempts. -/
theorem runFrom_lookup_perm {es' : List (Settlement AgentDefinition (List String))}
    (hnodup : (es.map fun e => e.item.id).Nodup) (h : es.Perm es') (id : String) :
    (runFrom p.worklist.apply s es).attempts.lookup id =
      (runFrom p.worklist.apply s es').attempts.lookup id := by
  have hnodup' : (es'.map fun e => e.item.id).Nodup := (h.map _).nodup_iff.mp hnodup
  by_cases hmem : ∃ e ∈ es, e.item.id = id
  · obtain ⟨e, he, rfl⟩ := hmem
    rw [runFrom_lookup_of_mem p s es hnodup he,
      runFrom_lookup_of_mem p s es' hnodup' (h.subset he)]
  · push Not at hmem
    rw [runFrom_lookup_of_not_mem p s es hmem,
      runFrom_lookup_of_not_mem p s es' fun e he => hmem e (h.symm.subset he)]

end Runs

/-- One round of completions: the agents that the delivery or the store counts as completed, and
the candidates with met dependencies whose run completes. -/
def completion (p : Processing) : Set String →o Set String where
  toFun completed := {id | id ∈ p.startPass.completedAgents ∨ p.hasCompletedRun id = true ∨
    ∃ d ∈ p.candidates, p.alreadyRun d = false ∧
      (∀ dependencyId ∈ d.dependsOnAgentIds, dependencyId ∈ completed) ∧
        (p.call d).completed = true ∧ d.id = id}
  monotone' := by
    intro completed completed' h id hid
    refine hid.imp_right (Or.imp_right ?_)
    rintro ⟨d, hd, hrun, hmet, hdone⟩
    exact ⟨d, hd, hrun, fun dependencyId hdep => h (hmet dependencyId hdep), hdone⟩

/-- The least fixed point of completed agents. -/
def completedAgents (p : Processing) : Set String := OrderHom.lfp p.completion

def known (p : Processing) (s : AgentPass) : Set String :=
  {id | id ∈ s.completedAgents ∨ p.hasCompletedRun id = true}

def needs (p : Processing) (d : AgentDefinition) : Set String :=
  {id | p.alreadyRun d = false ∧ id ∈ d.dependsOnAgentIds}

def gains (p : Processing) (d : AgentDefinition) : Set String :=
  {id | (p.effect (.settled d)).completes = true ∧ d.id = id}

theorem unmet_eq_nil_iff {s : AgentPass} {d : AgentDefinition} :
    p.unmet s.completedAgents d = [] ↔ ∀ id ∈ d.dependsOnAgentIds, id ∈ p.known s := by
  simp [unmet, known, or_iff_not_imp_left]

theorem unmet_congr {s t : AgentPass} (h : p.known s = p.known t) (d : AgentDefinition) :
    p.unmet s.completedAgents d = p.unmet t.completedAgents d := by
  apply List.filter_congr
  intro id _
  have hid : id ∈ s.completedAgents ∨ p.hasCompletedRun id = true ↔
      id ∈ t.completedAgents ∨ p.hasCompletedRun id = true := Set.ext_iff.mp h id
  cases hstore : p.hasCompletedRun id with
  | true => simp
  | false =>
      simp only [hstore, Bool.false_eq_true, or_false, ← List.contains_iff_mem] at hid
      rw [Bool.eq_iff_iff.mpr hid]

theorem waits_def (s : AgentPass) (d : AgentDefinition) : p.worklist.waits s d =
    if p.alreadyRun d then none
    else if p.unmet s.completedAgents d = [] then none
    else some (p.unmet s.completedAgents d) := rfl

theorem worklist_saturates (p : Processing) :
    p.worklist.Saturates p.known p.needs p.gains := by
  constructor
  · intro s d
    rw [waits_eq_none_iff, unmet_eq_nil_iff]
    cases hrun : p.alreadyRun d with
    | true => simp [needs, hrun]
    | false => simp [needs, hrun, Set.subset_def]
  · intro s t d h
    rw [waits_def, waits_def, unmet_congr h d]
  · intro s d
    have hdone := (@apply_eq_effect p s (.settled d)).2.2.1
    rw [Worklist.apply_settled, Settlement.item_settled] at hdone
    ext id
    simp only [known, gains, hdone, Set.mem_ofPred_eq, Set.mem_union]
    by_cases hc : (p.effect (.settled d)).completes = true
    · simp only [hc, if_true, List.mem_cons, true_and]
      rw [eq_comm]
      tauto
    · simp [hc]

theorem gained_eq_completion (p : Processing) :
    Worklist.gained (p.known p.startPass) {d | d ∈ p.candidates} p.needs p.gains =
      p.completion := by
  ext completed id
  simp only [Worklist.gained, completion, OrderHom.coe_mk, known, gains, Set.mem_union,
    Set.mem_ofPred_eq, or_assoc]
  refine or_congr_right ⟨?_, ?_⟩
  · rintro (hstore | ⟨d, hd, hneeds, hdone, rfl⟩)
    · exact .inl hstore
    · cases hrun : p.alreadyRun d with
      | true => exact .inl (by simpa [effect, hrun] using hdone)
      | false =>
          refine .inr ⟨d, hd, hrun, fun id hid => hneeds ⟨hrun, hid⟩, ?_, rfl⟩
          simpa [effect, hrun] using hdone
  · rintro (hstore | ⟨d, hd, hrun, hmet, hdone, rfl⟩)
    · exact .inl hstore
    · exact .inr ⟨d, hd, fun id hid => hmet id hid.2, by simpa [effect, hrun] using hdone, rfl⟩

/-- What the two loops leave behind, if the agent loop ends in `pass`. -/
def reportOf (p : Processing) (pass : AgentPass) : PassReport :=
  { p.report with
    runIds := pass.runIds
    attempts := pass.attempts
    errors := pass.errors ++ p.playbookPass.errors }

/-- The row that the final update stores after `pass`. -/
def closedAfter (p : Processing) (pass : AgentPass) : EventDelivery :=
  ((p.reportOf pass).update p.env.clock p.delivery).assign p.env.redact p.env.clock.now p.delivery

theorem closedAfter_agentPass (p : Processing) : p.closedAfter p.agentPass = p.closed := rfl

theorem closedAfter_status_eq {pass pass' : AgentPass} (h : pass.errors.Perm pass'.errors) :
    (p.closedAfter pass).status = (p.closedAfter pass').status := by
  have herrors : (p.reportOf pass).errors = [] ↔ (p.reportOf pass').errors = [] := by
    simp only [reportOf, List.append_eq_nil_iff]
    rw [← List.length_eq_zero_iff, h.length_eq, List.length_eq_zero_iff]
  simp only [closedAfter, DeliveryUpdate.assign, PassReport.update, herrors]

theorem item_verdict (t : AgentPass) (d : AgentDefinition) :
    (p.worklist.verdict t d).item = d := by
  unfold Worklist.verdict
  split <;> rfl

theorem nodup_verdicts {t : AgentPass} {ds : List AgentDefinition}
    {es : List (Settlement AgentDefinition (List String))} (hds : ds.Perm p.candidates)
    (hes : es.Perm (ds.map (p.worklist.verdict t))) : (es.map fun e => e.item.id).Nodup := by
  have hids : (es.map fun e => e.item.id).Perm (ds.map AgentDefinition.id) := by
    simpa [item_verdict, Function.comp_def] using hes.map fun e => e.item.id
  exact hids.nodup_iff.mpr ((hds.map _).nodup_iff.mpr nodup_candidates_ids)

/-- A candidate is blocked unless the run-once check skips it or its dependencies complete. -/
theorem status?_blocked_iff {t : AgentPass} {ds : List AgentDefinition}
    {es : List (Settlement AgentDefinition (List String))} (hds : ds.Perm p.candidates)
    (hnew : p.retryOnly = false → p.delivery.agentAttempts = ∅)
    (ht : p.known t = p.completedAgents) (hes : es.Perm (ds.map (p.worklist.verdict t)))
    {d : AgentDefinition} (hd : d ∈ ds) :
    (runFrom p.worklist.apply p.startPass es).attempts.status? d.id = some .blocked ↔
      p.alreadyRun d = false ∧ ∃ dependencyId ∈ d.dependsOnAgentIds,
        dependencyId ∉ p.completedAgents := by
  have hmem : p.worklist.verdict t d ∈ es := hes.symm.subset (List.mem_map_of_mem hd)
  have hstatus := runFrom_attempts_of_mem p p.startPass es (nodup_verdicts hds hes) hmem
  have hcandidate := List.mem_map_of_mem (f := AgentDefinition.id) (hds.subset hd)
  have hnot : d.id ∉ p.ineligibleIds := fun hin => (mem_ineligibleIds.mp hin).2.2 hcandidate
  rw [item_verdict, startPass_status?, if_neg hnot] at hstatus
  rw [hstatus]
  cases hrun : p.alreadyRun d with
  | true =>
      have hfirst : p.retryOnly = false := by
        simp only [alreadyRun, Bool.and_eq_true, Bool.not_eq_true'] at hrun
        exact hrun.1.1
      have hnone : p.startAttempts.status? d.id = none := by
        rw [startAttempts_of_dispatch hfirst, hnew hfirst]
        rfl
      simp [Worklist.verdict, waits_def, hrun, effect, hnone]
  | false =>
      have hmet : p.unmet t.completedAgents d = [] ↔
          ∀ id ∈ d.dependsOnAgentIds, id ∈ p.completedAgents := by
        rw [unmet_eq_nil_iff, ht]
      by_cases hunmet : p.unmet t.completedAgents d = []
      · have hall := hmet.mp hunmet
        have hstatus : (p.runAttempt d).status ≠ .blocked := by
          unfold runAttempt
          cases p.env.runAgent (p.request d) with
          | error message => simp
          | ok result => by_cases h : result.status = .completed <;> simp [h]
        simp only [Worklist.verdict, waits_def, hrun, hunmet, effect, Bool.false_eq_true, if_false,
          if_true, Option.elim_some, Option.some.injEq, hstatus, true_and, false_iff, not_exists,
          not_and, not_not]
        exact hall
      · have hsome : ∃ id ∈ d.dependsOnAgentIds, id ∉ p.completedAgents := by
          rw [hmet] at hunmet
          push Not at hunmet
          exact hunmet
        simp [Worklist.verdict, waits_def, hrun, hunmet, effect, hsome]

end Processing

/-- Over the candidates in any order, the loop ends, makes the same runs, leaves the same attempts
and closes the delivery with the same status; it blocks the candidates that are not skipped and
have a dependency outside the least fixed point. -/
theorem agentLoop_permuted (w : World) (c : DispatcherCall) (p : Processing) (hp : Begins w c p)
    (ds : List AgentDefinition) (hds : ds.Perm p.candidates) :
    ∃ pass, p.worklist.Drains p.startPass ds pass ∧
      (∀ other, p.worklist.Drains p.startPass ds other → other = pass) ∧
      pass.calls.Perm p.agentPass.calls ∧
      (∀ id, pass.attempts.lookup id = p.agentPass.attempts.lookup id) ∧
      (p.closedAfter pass).status = p.closed.status ∧
      ∀ d ∈ ds, pass.attempts.status? d.id = some .blocked ↔
        p.alreadyRun d = false ∧ ∃ dependencyId ∈ d.dependsOnAgentIds,
          dependencyId ∉ p.completedAgents := by
  obtain ⟨t, es, es', ht, hes, hperm, hdrain, hdrain'⟩ :=
    @Worklist.Saturates.drain_perm _ _ _ _ p.worklist p.startPass ds _ _ _ p.worklist_saturates _
      hds
  rw [p.gained_eq_completion] at ht
  have hpass : p.agentPass = runFrom p.worklist.apply p.startPass es' := hdrain'
  have hends := @Worklist.drains_drain _ _ _ p.worklist p.startPass ds _ le_rfl
  rw [hdrain] at hends
  have herrors : (runFrom p.worklist.apply p.startPass es).errors.Perm p.agentPass.errors := by
    rw [hpass, Processing.runFrom_errors, Processing.runFrom_errors]
    exact (hperm.filterMap _).append_left _
  refine ⟨_, hends, fun other hother => hother.unique hends, ?_, ?_, ?_, ?_⟩
  · rw [hpass, Processing.runFrom_calls, Processing.runFrom_calls]
    exact (hperm.filterMap _).append_left _
  · intro id
    rw [hpass]
    exact Processing.runFrom_lookup_perm p p.startPass (Processing.nodup_verdicts hds hes)
      hperm id
  · rw [← p.closedAfter_agentPass]
    exact Processing.closedAfter_status_eq herrors
  · intro d hd
    exact Processing.status?_blocked_iff hds (fun hr => hp.turn.new_attempts hr) ht hes hd

def againA : AgentDefinition := { agentA with runOncePerEntity := false }

def failingEnv : DispatchEnv :=
  acmeEnv ⟨[againA, agentB], by decide⟩ .empty fun _ => .error "timeout"

/-- The first agent fails and the second is blocked. -/
def failedWorld : World := dispatcher.run [.dispatch failingEnv (createdUrgent "k1")]

def secondEvent (deliveries : DeliveryTable) (delivery : EventDelivery) : Processing where
  env := failingEnv
  deliveries := deliveries
  delivery := delivery
  payload := (createdUrgent "k2").payload
  clientId := normalizeClientId none <|> some acme
  actor := (createdUrgent "k2").actor
  retryOnly := false

theorem exists_secondEvent : ∃ deliveries delivery,
    createEventDelivery failingEnv.redact failingEnv.clock.now (some (some acme))
      failedWorld.deliveries "k2" "ticket.created" "ticket" "T-1" (createdUrgent "k2").payload
      (normalizeClientId none <|> some acme) 3 60 = .ok (deliveries, delivery, true) ∧
    agentB ∈ (secondEvent deliveries delivery).candidates ∧
    (secondEvent deliveries delivery).agentPass.attempts.status? "agent-b" ≠ some .blocked ∧
    "agent-a" ∉ (secondEvent deliveries delivery).startPass.completedAgents ∧
    (secondEvent deliveries delivery).hasCompletedRun "agent-a" = false ∧
    ∀ d ∈ (secondEvent deliveries delivery).candidates,
      ((secondEvent deliveries delivery).call d).completed = false := by
  refine ⟨_, _, rfl, ?_, ?_, ?_, ?_, ?_⟩ <;> decide

theorem begins_secondEvent {deliveries : DeliveryTable} {delivery : EventDelivery}
    (h : createEventDelivery failingEnv.redact failingEnv.clock.now (some (some acme))
      failedWorld.deliveries "k2" "ticket.created" "ticket" "T-1" (createdUrgent "k2").payload
      (normalizeClientId none <|> some acme) 3 60 = .ok (deliveries, delivery, true)) :
    Begins failedWorld (.dispatch failingEnv (createdUrgent "k2"))
      (secondEvent deliveries delivery) :=
  .dispatch failingEnv (createdUrgent "k2") (some acme) deliveries delivery (by decide)
    (by decide) (by decide) h

theorem agentLoop_permuted_secondEvent : ∃ p,
    Begins failedWorld (.dispatch failingEnv (createdUrgent "k2")) p ∧
      ∃ pass, p.worklist.Drains p.startPass p.candidates.reverse pass ∧
        (p.closedAfter pass).status = p.closed.status := by
  obtain ⟨deliveries, delivery, hcreate, _⟩ := exists_secondEvent
  have hp := begins_secondEvent hcreate
  obtain ⟨pass, hends, _, _, _, hstatus, _⟩ :=
    agentLoop_permuted failedWorld (.dispatch failingEnv (createdUrgent "k2")) _ hp _
      (List.reverse_perm _)
  exact ⟨_, hp, pass, hends, hstatus⟩

/-- The second agent is listed in a failed delivery, so the run-once check skips it although its
dependency has never completed. -/
theorem not_blocked_iff : ¬ ∀ cs c p, Begins (dispatcher.run cs) c p → ∀ d ∈ p.candidates,
    (p.agentPass.attempts.status? d.id = some .blocked ↔
      ∃ dependencyId ∈ d.dependsOnAgentIds, dependencyId ∉ p.completedAgents) := by
  intro h
  obtain ⟨deliveries, delivery, hcreate, hcandidate, hskipped, hstart, hstore, hopen⟩ :=
    exists_secondEvent
  have hlaw := h _ _ _ (begins_secondEvent hcreate) agentB hcandidate
  refine hskipped (hlaw.mpr ⟨"agent-a", by decide, ?_⟩)
  have hwithout : (secondEvent deliveries delivery).completedAgents ⊆
      {id | id ≠ "agent-a"} := by
    apply OrderHom.lfp_le
    rintro id (hid | hid | ⟨d, hd, _, _, hdone, _⟩) rfl
    · exact hstart hid
    · rw [hstore] at hid
      cases hid
    · rw [hopen d hd] at hdone
      cases hdone
  intro hmem
  exact hwithout hmem rfl

end WaitLocalAgent.Events
