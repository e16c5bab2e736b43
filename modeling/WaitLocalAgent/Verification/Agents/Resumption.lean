import WaitLocalAgent.Verification.Agents.Walk

/-! # Resumed runs

A session executes the walk of its definition, as long as no resumption loses what only the loop
knew: the attempted tools, the queued steps and the failure policy of the approved step. -/

namespace WaitLocalAgent.AgentRuns

open Foundation Approvals Agents Program
open SmartActions (ActionResult ServiceError)

variable {rt : RunRuntime} {definition : AgentDefinition} {s : Scenario} {α β : Type}
  {G : World → RunAction → Prop} {w : World} {run : AgentRun}

/-! ## Programs of a session -/

/-- Alone in the scenario, the program ends in `Q` unless an action fails the guard. -/
def Yields (s : Scenario) (G : World → RunAction → Prop) (w : World) (p : Call α)
    (Q : Except RunError α → World → Prop) : Prop :=
  p.run.Ensures s.answer G Q w

theorem yields_pure {x : α} {Q : Except RunError α → World → Prop} (h : Q (.ok x) w) :
    Yields s G w (pure x) Q := h

theorem yields_throw {error : RunError} {Q : Except RunError α → World → Prop}
    (h : Q (.error error) w) : Yields s G w (throw error) Q := h

def Returns (P : α → World → Prop) : Except RunError α → World → Prop
  | .ok x, w => P x w
  | .error _, _ => False

theorem Yields.bind {p : Call α} {f : α → Call β} {P : α → World → Prop}
    {Q : Except RunError β → World → Prop} (hp : Yields s G w p (Returns P))
    (hf : ∀ x w', P x w' → Yields s G w' (f x) Q) : Yields s G w (p >>= f) Q :=
  Ensures.bindExcept hp hf fun _ _ => False.elim

theorem Yields.imp {p : Call α} {Q Q' : Except RunError α → World → Prop}
    (h : Yields s G w p Q) (hQ : ∀ r w', Q r w' → Q' r w') : Yields s G w p Q' :=
  Ensures.imp h hQ

theorem Yields.exec {p : Call α} {P : α → World → Prop} (h : Yields s G w p (Returns P))
    (hguard : p.run.Meets s.answer G w) :
    ∃ x w', p.run.exec s.answer w = (.ok x, w') ∧ P x w' := by
  have hend := Ensures.exec h hguard
  rcases hexec : p.run.exec s.answer w with ⟨result, w'⟩
  rw [hexec] at hend
  cases result with
  | error e => exact hend.elim
  | ok x => exact ⟨x, w', rfl, hend⟩

theorem yields_query_bind {q : Query} {f : q.Answer → Call β}
    {Q : Except RunError β → World → Prop} (hw : w.asked q = w)
    (h : Yields s G w (f (s.query w q)) Q) : Yields s G w (query q >>= f) Q := by
  intro _
  change Yields s G (w.asked q) (f (s.query w q)) Q
  rw [hw]
  exact h

/-- A time check changes nothing that a session is about. -/
theorem yields_elapsed_bind {f : ℚ → Call β} {Q : Except RunError β → World → Prop}
    (h : G w (.query .elapsed) → Yields s G (w.asked .elapsed) (f (s.elapsed w.checks)) Q) :
    Yields s G w (query .elapsed >>= f) Q := h

theorem yields_ask_bind {a : RunAction} {f : a.Answer → Call β}
    {Q : Except RunError β → World → Prop}
    (h : G w a → Yields s G (s.answer a w).2 (f (s.answer a w).1) Q) :
    Yields s G w (ask a >>= f) Q := h

theorem yields_check_bind {condition : Prop} [Decidable condition] {error : RunError}
    {f : Unit → Call β} {Q : Except RunError β → World → Prop} (hcondition : ¬ condition)
    (h : Yields s G w (f ()) Q) : Yields s G w (check condition error >>= f) Q := by
  rw [check, if_neg hcondition]
  exact h

/-! ## Writes -/

/-- The row of a run after some writes. -/
structure SameRun (run row : AgentRun) : Prop where
  id : row.id = run.id
  actor : row.actor = run.actor
  revision : row.revisionVersion = run.revisionVersion

theorem SameRun.refl (run : AgentRun) : SameRun run run := ⟨rfl, rfl, rfl⟩

theorem SameRun.trans {run row row' : AgentRun} (h : SameRun run row) (h' : SameRun row row') :
    SameRun run row' :=
  ⟨h'.id.trans h.id, h'.actor.trans h.actor, h'.revision.trans h.revision⟩

/-- The world after a write of the run: the tools are as they were. -/
structure Written (run : AgentRun) (status : RunStatus) (currentStep : ℕ) (state : RunState)
    (w : World) (row : AgentRun) (w' : World) : Prop where
  stored : w'.runs.find? row.id = some row
  same : SameRun run row
  status : row.status = status
  currentStep : row.currentStep = currentStep
  state : row.state = state
  executed : w'.executed = w.executed
  requests : w'.requests = w.requests

theorem updateRow_stored {runs : AutoTable AgentRun.id} (write : RunWrite)
    (hrow : runs.find? run.id = some run) :
    (updateRow runs run.id write).1 = true ∧
      (updateRow runs run.id write).2.find? run.id = some (write.apply run) := by
  have hmem : run ∈ runs.table := (AutoTable.find?_eq_some_iff.mp hrow).1
  constructor
  · have hle : runs.table.rowcount (fun row => row.id == run.id) ≤ 1 :=
      Table.rowcount_le_one fun row hrow => by simpa using hrow
    have hpos : 0 < runs.table.rowcount fun row => row.id == run.id :=
      Table.rowcount_pos.mpr ⟨run, hmem, by simp⟩
    simp only [updateRow, beq_iff_eq]
    omega
  · simp [updateRow, AutoTable.find?_update, hrow]

theorem yields_readBack {written : AgentRun} (hstored : w.runs.find? written.id = some written) :
    Yields s G w (readBack written) (Returns fun row w' => row = written ∧ w' = w) := by
  refine yields_ask_bind fun _ => ?_
  have hfound : (s.answer (.readBack written) w).1 = some written := hstored
  rw [hfound]
  exact yields_pure ⟨rfl, rfl⟩

variable {state : RunState}

theorem yields_updateAgentRun {status : RunStatus} {currentStep : ℕ}
    (hrow : w.runs.find? run.id = some run) :
    Yields s G w (updateAgentRun rt run status currentStep state)
      (Returns (Written run status currentStep (state.redacted rt.toAgentRuntime) w)) := by
  refine yields_query_bind rfl ?_
  let write : RunWrite :=
    { status, currentStep, state := state.redacted rt.toAgentRuntime, finishedAt := s.now }
  obtain ⟨hupdated, hstored⟩ := updateRow_stored write hrow
  refine yields_ask_bind fun _ => ?_
  refine yields_check_bind (not_not.mpr hupdated) ?_
  refine (yields_readBack hstored).imp fun r w' hr => ?_
  cases r with
  | error e => exact hr
  | ok row =>
      obtain ⟨rfl, rfl⟩ := hr
      exact ⟨hstored, ⟨rfl, rfl, rfl⟩, rfl, rfl, rfl, rfl, rfl⟩

theorem yields_finish {status : RunStatus} {currentStep : ℕ}
    (hrow : w.runs.find? run.id = some run) :
    Yields s G w (finish rt run status currentStep state) (Returns fun result w' =>
      ∃ row, result = resultOf row ∧ Written run status currentStep
        ((state.redacted rt.toAgentRuntime).redacted rt.toAgentRuntime) w row w') :=
  (yields_updateAgentRun hrow).bind fun row _ hwritten => yields_pure ⟨row, rfl, hwritten⟩

/-! ## Attempts -/

/-- The stored approval rules still pass their checks. -/
def RulesNormalize (rt : RunRuntime) (definition : AgentDefinition) : Prop :=
  ∃ rules, normalizeApprovalRules rt.toAgentRuntime definition.approvalRules none = .ok rules

theorem yields_approvalPolicyForTicket {actorRole : Option Access.Role} {toolId entityId : String}
    (hrules : RulesNormalize rt definition) :
    Yields s G w (approvalPolicyForTicket rt definition actorRole toolId entityId)
      (Returns fun _ w' => w' = w) := by
  obtain ⟨rules, hrules⟩ := hrules
  rw [approvalPolicyForTicket]
  split
  · exact yields_pure rfl
  · split
    · exact yields_pure rfl
    · refine yields_query_bind rfl ?_
      have hticket : s.query w (.ticket entityId definition.clientId) = s.ticket := rfl
      rw [hticket, hrules]
      cases s.ticket with
      | none => exact yields_pure rfl
      | some ticket => exact yields_pure rfl

/-- What a call of a tool returns: it waits for an approval, or was executed. -/
inductive Invoked (s : Scenario) (w : World) (toolId : String) (result : ActionResult) :
    World → Prop where
  | waits (registered : (s.outcome w.executed toolId).isSome)
      (status : result.status = .pendingApproval)
      (approval : result.approvalId = some w.requests.length) :
      Invoked s w toolId result
        { w with requests := w.requests ++ [{ toolId, result := none }] }
  | executed (status : result.status = callStatus s.outcome w.executed toolId)
      (final : result.status ≠ .pendingApproval) :
      Invoked s w toolId result { w with executed := w.executed ++ [toolId] }

theorem yields_invokeTool {call : ToolCall} :
    Yields s G w (invokeTool run call) (Returns fun result w' =>
      Invoked s w call.toolId result w' ∧ G w (.invoke run call)) := by
  refine yields_ask_bind fun hguard => ?_
  have hanswer : s.answer (.invoke run call) w = s.invoke w call.toolId := rfl
  rw [hanswer, Scenario.invoke]
  cases houtcome : s.outcome w.executed call.toolId with
  | none =>
      have hstatus : callStatus s.outcome w.executed call.toolId = .failed := by
        simp [callStatus, houtcome]
      exact yields_pure ⟨.executed hstatus.symm nofun, hguard⟩
  | some result =>
      have hstatus : callStatus s.outcome w.executed call.toolId = result.status := by
        simp [callStatus, houtcome]
      simp only
      split
      · exact yields_pure ⟨.waits (by rw [houtcome]; rfl) rfl rfl, hguard⟩
      · exact yields_pure
          ⟨.executed hstatus.symm (s.outcome_status _ _ _ houtcome), hguard⟩

/-- After `n` attempts that failed, attempt `attempt'` of a step waits for its approval. -/
structure Waits (s : Scenario) (step : AgentStep) (attempt attempt' n : ℕ) (w : World)
    (attempts : StepAttempts) (w' : World) : Prop where
  runs : w'.runs = w.runs
  executed : w'.executed = w.executed ++ List.replicate n step.toolId
  requests : w'.requests = w.requests ++ [{ toolId := step.toolId, result := none }]
  left : attemptTool s.outcome (stepFailurePolicy step) step.toolId attempt w.executed =
    attemptTool s.outcome (stepFailurePolicy step) step.toolId attempt' w'.executed
  registered : (s.outcome w'.executed step.toolId).isSome
  status : attempts.result.status = .pendingApproval
  record : ∃ record, attempts.records.getLast? = some record ∧ record.attempt = attempt' ∧
    record.approvalId = some w.requests.length

/-- After `n + 1` attempts a step has come to its end. -/
structure Ends (s : Scenario) (step : AgentStep) (attempt n : ℕ) (w : World)
    (attempts : StepAttempts) (w' : World) : Prop where
  runs : w'.runs = w.runs
  executed : w'.executed = w.executed ++ List.replicate (n + 1) step.toolId
  requests : w'.requests = w.requests
  all : attemptTool s.outcome (stepFailurePolicy step) step.toolId attempt w.executed =
    (w'.executed, decide (attempts.result.status = .success))
  status : attempts.result.status ≠ .pendingApproval
  directive : attempts.result.status ≠ .success →
    attempts.directive = directiveOf (stepFailurePolicy step)

/-- How the attempts of a step come out, if it is not one of the tools `old`. -/
def Attempted (s : Scenario) (old : List String) (step : AgentStep) (attempt : ℕ) (w : World)
    (attempts : StepAttempts) (w' : World) : Prop :=
  (attempt = 0 → step.toolId ∉ old) ∧
    ((∃ attempt' n, Waits s step attempt attempt' n w attempts w') ∨
      ∃ n, Ends s step attempt n w attempts w')

/-- A time check does not find the execution timeout used up. -/
def InTime (s : Scenario) (definition : AgentDefinition) (w : World) : RunAction → Prop
  | .query .elapsed => s.elapsed w.checks < definition.executionTimeoutSeconds
  | _ => True

/-- No tool of `old` is called anew, and no time check fails. -/
def NotAgain (s : Scenario) (definition : AgentDefinition) (old : List String) (w : World) :
    RunAction → Prop
  | .invoke _ call => call.attempt = 0 → call.toolId ∉ old
  | a => InTime s definition w a

def World.execute (w : World) (toolId : String) : World :=
  { w with executed := w.executed ++ [toolId] }

section Attempts

variable {old : List String} {step : AgentStep} {attempt : ℕ} {attempts : StepAttempts}
  {w' : World}

theorem append_replicate_succ {executed : List String} {toolId : String} {n : ℕ} :
    executed ++ [toolId] ++ List.replicate n toolId =
      executed ++ List.replicate (n + 1) toolId := by
  simp [List.replicate_succ]

/-- A failed attempt, and those that follow it. -/
theorem Attempted.retry
    (h : Attempted s old step (attempt + 1) (w.execute step.toolId) attempts w')
    (hold : attempt = 0 → step.toolId ∉ old)
    (hcall : callStatus s.outcome w.executed step.toolId ≠ .success)
    (hretry : (stepFailurePolicy step).mode = "retry" ∧
      (attempt : ℤ) < (stepFailurePolicy step).maxRetries) :
    Attempted s old step attempt w attempts w' := by
  have hnext := attemptTool_of_retry hcall hretry
  refine ⟨hold, ?_⟩
  rcases h.2 with ⟨attempt', n, h⟩ | ⟨n, h⟩
  · exact .inl ⟨attempt', n + 1,
      { h with
        executed := h.executed.trans append_replicate_succ
        left := hnext.trans h.left }⟩
  · exact .inr ⟨n + 1,
      { h with
        executed := h.executed.trans append_replicate_succ
        all := hnext.trans h.all }⟩

theorem ends_execute {result : ActionResult} {record : StepRecord} {records : List StepRecord}
    {directive : Option Directive}
    (hattempts : attempts = ⟨records ++ [record], by simp, result, directive⟩)
    (hall : attemptTool s.outcome (stepFailurePolicy step) step.toolId attempt w.executed =
      (w.executed ++ [step.toolId], decide (result.status = .success)))
    (hfinal : result.status ≠ .pendingApproval)
    (hdirective : result.status ≠ .success → directive = directiveOf (stepFailurePolicy step)) :
    Ends s step attempt 0 w attempts (w.execute step.toolId) := by
  subst hattempts
  exact ⟨rfl, rfl, rfl, hall, hfinal, hdirective⟩

theorem yields_executeStepAttempts {actor : String} {actorRole : Option Access.Role}
    {recordIndex : ℕ} {records : List StepRecord}
    (hrules : RulesNormalize rt definition) :
    Yields s (NotAgain s definition old) w
      (executeStepAttempts rt definition actor actorRole run step recordIndex state attempt records)
      (Returns (Attempted s old step attempt w)) := by
  induction hleft : ((stepFailurePolicy step).maxRetries - attempt).toNat
    using Nat.strong_induction_on generalizing attempt records w with
  | _ left ih =>
      rw [executeStepAttempts]
      refine (yields_approvalPolicyForTicket hrules).bind ?_
      rintro approvalPolicy w rfl
      refine yields_invokeTool.bind ?_
      rintro result w' ⟨hinvoked, hguard⟩
      dsimp only
      have hold : attempt = 0 → step.toolId ∉ old := hguard
      cases hinvoked with
      | waits hregistered hstatus happroval =>
          rw [if_pos (.inr hstatus)]
          refine yields_pure ⟨hold, .inl ⟨attempt, 0, ?_⟩⟩
          refine ⟨rfl, by simp, rfl, rfl, hregistered, hstatus, ?_⟩
          exact ⟨_, List.getLast?_concat, rfl, happroval⟩
      | executed hstatus hfinal =>
          replace hstatus : result.status = callStatus s.outcome w.executed step.toolId := hstatus
          by_cases hsuccess : result.status = .success
          · rw [if_pos (.inl hsuccess)]
            refine yields_pure ⟨hold, .inr ⟨0, ends_execute rfl ?_ hfinal
              fun h => absurd hsuccess h⟩⟩
            rw [attemptTool_of_success (hstatus.symm.trans hsuccess), decide_eq_true hsuccess]
          · rw [if_neg (not_or.mpr ⟨hsuccess, hfinal⟩)]
            have hcall : callStatus s.outcome w.executed step.toolId ≠ .success :=
              fun h => hsuccess (hstatus.trans h)
            split
            · rename_i hretry
              refine (ih _ (by omega) rfl).imp fun r w' hr => ?_
              cases r with
              | error e => exact hr
              | ok attempts => exact Attempted.retry hr hold hcall hretry
            · rename_i hretry
              refine yields_pure ⟨hold, .inr ⟨0, ends_execute rfl ?_ hfinal fun _ => rfl⟩⟩
              rw [attemptTool_of_failure hcall hretry, decide_eq_false hsuccess]

end Attempts

/-! ## Queues -/

section Queues

variable {index fallback : Fin definition.steps.length}
  {queued : List (Fin definition.steps.length)} {seen : List String}

/-- The queue holds every step of the definition whose tool has not been seen. -/
def Covered (queued : List (Fin definition.steps.length)) (seen : List String) : Prop :=
  pendingSteps queued seen = pendingSteps (queuedSteps definition 0) seen

/-- Once the head of the queue is seen, the rest covers the definition. -/
def Covers (seen : List String) : List (Fin definition.steps.length) → Prop
  | [] => True
  | index :: queued => Covered queued (toolAt definition index :: seen)

theorem Covered.mono {seen' : List String} (h : Covered queued seen) (hsub : seen ⊆ seen') :
    Covered queued seen' :=
  pendingSteps_mono h hsub

/-- A fallback may stand before a queue that covers the definition. -/
theorem Covered.covers_cons (h : Covered queued seen) : Covers seen (fallback :: queued) :=
  h.mono (List.subset_cons_self _ _)

theorem Covered.covers (h : Covered queued seen) : Covers seen queued := by
  cases queued with
  | nil => trivial
  | cons index queued =>
      have hmono := h.mono (List.subset_cons_self (toolAt definition index) seen)
      rwa [Covered, pendingSteps_cons_of_mem List.mem_cons_self] at hmono

theorem pendingSteps_cons_seen (h : toolAt definition index ∈ seen) :
    pendingSteps queued (toolAt definition index :: seen) = pendingSteps queued seen := by
  refine List.filter_congr fun other _ => ?_
  have hmem : toolAt definition other ∈ toolAt definition index :: seen ↔
      toolAt definition other ∈ seen := by
    rw [List.mem_cons]
    exact or_iff_right_of_imp fun hsame => hsame ▸ h
  exact decide_eq_decide.mpr (not_congr hmem)

/-- A step that is skipped leaves the rest of the queue. -/
theorem Covers.skip (h : Covers seen (index :: queued)) (hseen : toolAt definition index ∈ seen) :
    Covers seen queued := by
  rw [Covers, Covered, pendingSteps_cons_seen hseen, pendingSteps_cons_seen hseen] at h
  exact Covered.covers h

/-- What is known before a round of the loop: the tools seen are those executed. -/
structure Before (definition : AgentDefinition) (queued : List (Fin definition.steps.length))
    (seen executed : List String) : Prop where
  executed_seen : executed ⊆ seen
  seen_executed : seen ⊆ executed
  enabled : seen ⊆ definition.enabledTools
  covers : Covers seen queued

/-- After the step at the head, with or without a fallback. -/
theorem Before.next {executed : List String} {n : ℕ}
    (h : Before definition (index :: queued) seen executed)
    (henabled : toolAt definition index ∈ definition.enabledTools) :
    Covered queued (toolAt definition index :: seen) ∧
      executed ++ List.replicate (n + 1) (toolAt definition index) ⊆
        toolAt definition index :: seen ∧
      toolAt definition index :: seen ⊆
        executed ++ List.replicate (n + 1) (toolAt definition index) ∧
      toolAt definition index :: seen ⊆ definition.enabledTools := by
  refine ⟨h.covers, ?_, ?_, List.cons_subset.mpr ⟨henabled, h.enabled⟩⟩
  · refine List.append_subset.mpr ⟨fun t ht => List.mem_cons_of_mem _ (h.executed_seen ht), ?_⟩
    intro t ht
    rw [List.eq_of_mem_replicate ht]
    exact List.mem_cons_self
  · refine List.cons_subset.mpr ⟨?_, fun t ht => List.mem_append_left _ (h.seen_executed ht)⟩
    exact List.mem_append_right _ (List.mem_replicate.mpr ⟨by omega, rfl⟩)

end Queues

/-! ## The loop -/

/-- Where a run waits, and what the loop knew there. -/
structure Pause (definition : AgentDefinition) where
  index : Fin definition.steps.length
  queued : List (Fin definition.steps.length)
  seen : List String
  attempt : ℕ
  approvalId : ℕ

/-- The row waits, and its walk goes on with the attempt that it waits for. -/
structure Paused (s : Scenario) (definition : AgentDefinition) (target : List String × RunStatus)
    (p : Pause definition) (row : AgentRun) (w : World) : Prop where
  status : row.status = .pendingApproval
  currentStep : row.currentStep = p.index
  record : ∃ k record, row.state.pendingApprovalStep = some k ∧
    row.state.steps[k]? = some record ∧ record.approvalId = some p.approvalId ∧
    record.attempt = p.attempt
  request : w.requests[p.approvalId]? = some { toolId := toolAt definition p.index, result := none }
  registered : (s.outcome w.executed (toolAt definition p.index)).isSome
  target : target = afterStep definition s.outcome p.index p.queued p.seen
    (attemptTool s.outcome (policyAt definition p.index) (toolAt definition p.index) p.attempt
      w.executed)
  enabled : toolAt definition p.index :: p.seen ⊆ definition.enabledTools
  executed_seen : w.executed ⊆ toolAt definition p.index :: p.seen
  seen_executed : p.seen ⊆ w.executed
  covered : Covered p.queued (toolAt definition p.index :: p.seen)

/-- The run has reached the target, or waits on its way there. -/
def Settled (s : Scenario) (definition : AgentDefinition) (target : List String × RunStatus)
    (run : AgentRun) (w : World) (result : AgentExecutionResult) (w' : World) : Prop :=
  ∃ row, result = resultOf row ∧ w'.runs.find? row.id = some row ∧ SameRun run row ∧
    w.executed.length ≤ w'.executed.length ∧
    (row.status ≠ .pendingApproval ∧ (w'.executed, row.status) = target ∨
      ∃ p, Paused s definition target p row w')

section Loop

variable {target : List String × RunStatus}

theorem Settled.trans {row : AgentRun} {w₁ w' : World} {result : AgentExecutionResult}
    (h : Settled s definition target row w₁ result w') (hsame : SameRun run row)
    (hlength : w.executed.length ≤ w₁.executed.length) :
    Settled s definition target run w result w' := by
  obtain ⟨row', hresult, hstored, hsame', hlength', hend⟩ := h
  exact ⟨row', hresult, hstored, hsame.trans hsame', hlength.trans hlength', hend⟩

theorem yields_finish_settled {w₀ : World} {status : RunStatus} {currentStep : ℕ}
    (hrow : w.runs.find? run.id = some run) (hstatus : status ≠ .pendingApproval)
    (htarget : target = (w.executed, status))
    (hlength : w₀.executed.length ≤ w.executed.length) :
    Yields s G w (finish rt run status currentStep state)
      (Returns (Settled s definition target run w₀)) := by
  refine (yields_finish hrow).imp fun r w' hr => ?_
  cases r with
  | error e => exact hr
  | ok result =>
      obtain ⟨row, hresult, hwritten⟩ := hr
      refine ⟨row, hresult, hwritten.stored, hwritten.same, ?_, .inl ⟨?_, ?_⟩⟩
      · rwa [hwritten.executed]
      · rwa [hwritten.status]
      · rw [htarget, hwritten.executed, hwritten.status]

theorem yields_finishFailed {w₀ : World} {index : ℕ}
    {directive : Option Directive} (hrow : w.runs.find? run.id = some run)
    (htarget : target = (w.executed, .failed))
    (hlength : w₀.executed.length ≤ w.executed.length) :
    Yields s G w (finishFailed rt run index state directive)
      (Returns (Settled s definition target run w₀)) := by
  cases directive with
  | none => exact yields_finish_settled hrow nofun htarget hlength
  | some directive =>
      cases directive with
      | fallback toolId => exact yields_finish_settled hrow nofun htarget hlength
      | terminal mode => exact yields_finish_settled hrow nofun htarget hlength

theorem pending_record (rt : RunRuntime) (state : RunState) {attempts : StepAttempts}
    {record : StepRecord}
    (hlast : attempts.records.getLast? = some record) :
    ∃ k record',
      (((state.extend attempts).paused.redacted rt.toAgentRuntime).redacted
        rt.toAgentRuntime).pendingApprovalStep = some k ∧
      (((state.extend attempts).paused.redacted rt.toAgentRuntime).redacted
        rt.toAgentRuntime).steps[k]? = some record' ∧
      record'.approvalId = record.approvalId ∧ record'.attempt = record.attempt := by
  refine ⟨(state.extend attempts).steps.length - 1,
    (record.redacted rt.toAgentRuntime).redacted rt.toAgentRuntime, rfl, ?_, rfl, rfl⟩
  have hsteps : (state.extend attempts).steps.getLast? = some record := by
    rw [RunState.extend, List.getLast?_append, hlast]
    rfl
  rw [List.getLast?_eq_getElem?] at hsteps
  simp only [RunState.redacted, RunState.paused, List.getElem?_map, hsteps, Option.map_some]

/-- A fallback to a tool of `old` that has not been attempted since would be called anew. -/
theorem yields_of_old {old attempted : List String} {actor : String}
    {actorRole : Option Access.Role} {index : Fin definition.steps.length}
    {queued : List (Fin definition.steps.length)}
    {Q : Except RunError AgentExecutionResult → World → Prop}
    (hrules : RulesNormalize rt definition)
    (henabled : toolAt definition index ∈ definition.enabledTools)
    (hattempted : toolAt definition index ∉ attempted) (hold : toolAt definition index ∈ old) :
    Yields s (NotAgain s definition old) w
      (continueSteps rt definition actor actorRole (index :: queued) attempted run state) Q := by
  rw [continueSteps]
  refine yields_elapsed_bind fun hintime => ?_
  rw [if_neg (not_le.mpr hintime), if_neg (not_not.mpr henabled), dif_neg hattempted]
  refine (yields_executeStepAttempts hrules).bind ?_
  rintro attempts w' ⟨hnot, -⟩
  exact absurd hold (hnot rfl)

theorem fallbackStep_eq_none {attempted attempted' : List String} {directive : Option Directive}
    (hsub : attempted ⊆ attempted') (h : fallbackStep definition attempted directive = none) :
    fallbackStep definition attempted' directive = none := by
  rcases directive with - | toolId | mode
  · rfl
  · rw [fallbackStep] at h ⊢
    by_cases hmem : toolId ∈ attempted'
    · rw [if_pos hmem]
    · rw [if_neg fun hmem' => hmem (hsub hmem')] at h
      rwa [if_neg hmem]
  · rfl

/-- A fallback that only the larger list rules out is one of its tools. -/
theorem toolAt_fallback {attempted : List String} {directive : Option Directive}
    {fallback : Fin definition.steps.length}
    (h : fallbackStep definition attempted directive = some fallback) :
    toolAt definition fallback ∉ attempted ∧ ∀ attempted',
      toolAt definition fallback ∉ attempted' →
      fallbackStep definition attempted' directive = some fallback := by
  rcases directive with - | toolId | mode
  · cases h
  · rw [fallbackStep] at h
    by_cases hmem : toolId ∈ attempted
    · rw [if_pos hmem] at h
      cases h
    · rw [if_neg hmem] at h
      have hfound : decide (toolAt definition fallback = toolId) = true :=
        List.find?_some (p := fun i => decide (toolAt definition i = toolId)) h
      have htool : toolAt definition fallback = toolId := of_decide_eq_true hfound
      rw [htool]
      refine ⟨hmem, fun attempted' hmem' => ?_⟩
      rw [fallbackStep, if_neg hmem', h]
  · cases h

/-- The row of a run whose step waits for an approval. -/
theorem yields_pause {old attempted : List String} {w₁ : World}
    {index : Fin definition.steps.length} {queued : List (Fin definition.steps.length)}
    {attempts : StepAttempts} {attempt' n : ℕ} (hrow : w₁.runs.find? run.id = some run)
    (hbefore : Before definition (index :: queued) (attempted ++ old) w.executed)
    (henabled : toolAt definition index ∈ definition.enabledTools)
    (hwaits : Waits s (definition.steps.get index) 0 attempt' n w attempts w₁) :
    Yields s (NotAgain s definition old) w₁
      (finish rt run .pendingApproval index (state.extend attempts).paused)
      (Returns (Settled s definition (afterStep definition s.outcome index queued
        (attempted ++ old) (attemptTool s.outcome (policyAt definition index)
          (toolAt definition index) 0 w.executed)) run w)) := by
  refine (yields_finish hrow).imp fun r w' hr => ?_
  cases r with
  | error e => exact hr
  | ok result =>
      obtain ⟨row, hresult, hwritten⟩ := hr
      obtain ⟨record, hlast, hattempt, happroval⟩ := hwaits.record
      obtain ⟨k, record', hpending, hrecord, happroval', hattempt'⟩ :=
        pending_record rt state hlast
      have hexecuted : w'.executed = w.executed ++
          List.replicate n (toolAt definition index) :=
        hwritten.executed.trans hwaits.executed
      refine ⟨row, hresult, hwritten.stored, hwritten.same, ?_, .inr
        ⟨⟨index, queued, attempted ++ old, attempt', w.requests.length⟩, ?_⟩⟩
      · rw [hexecuted, List.length_append]
        omega
      · exact
          { status := hwritten.status
            currentStep := hwritten.currentStep
            record := by
              rw [hwritten.state]
              exact ⟨k, record', hpending, hrecord, happroval'.trans happroval,
                hattempt'.trans hattempt⟩
            request := by
              rw [hwritten.requests, hwaits.requests, List.getElem?_concat_length]
            registered := by rw [hwritten.executed]; exact hwaits.registered
            target := by rw [hwritten.executed]; exact congrArg _ hwaits.left
            enabled := List.cons_subset.mpr ⟨henabled, hbefore.enabled⟩
            executed_seen := by
              rw [hexecuted]
              refine List.append_subset.mpr
                ⟨fun t ht => List.mem_cons_of_mem _ (hbefore.executed_seen ht), ?_⟩
              intro t ht
              rw [List.eq_of_mem_replicate ht]
              exact List.mem_cons_self
            seen_executed := by
              rw [hexecuted]
              exact fun t ht => List.mem_append_left _ (hbefore.seen_executed ht)
            covered := hbefore.covers }

/-- What goes on after a write of the run. -/
theorem yields_update_bind {w₁ : World} {status : RunStatus} {currentStep : ℕ}
    {f : AgentRun → Call AgentExecutionResult}
    (hrow : w₁.runs.find? run.id = some run) (hlength : w.executed.length ≤ w₁.executed.length)
    (hf : ∀ row w₂, w₂.runs.find? row.id = some row → w₂.executed = w₁.executed →
      Yields s G w₂ (f row) (Returns (Settled s definition target row w₂))) :
    Yields s G w₁ (updateAgentRun rt run status currentStep state >>= f)
      (Returns (Settled s definition target run w)) := by
  refine (yields_updateAgentRun hrow).bind fun row w₂ hwritten => ?_
  refine (hf row w₂ hwritten.stored hwritten.executed).imp fun r w' hr => ?_
  cases r with
  | error e => exact hr
  | ok result => exact Settled.trans hr hwritten.same (by rwa [hwritten.executed])

/-- From a round on, the loop goes its walk, as if the tools `old` had been attempted too. -/
theorem yields_continueSteps {old attempted : List String} {actor : String}
    {actorRole : Option Access.Role}
    {queued : List (Fin definition.steps.length)} (hrules : RulesNormalize rt definition)
    (hrow : w.runs.find? run.id = some run)
    (hbefore : Before definition queued (attempted ++ old) w.executed) :
    Yields s (NotAgain s definition old) w
      (continueSteps rt definition actor actorRole queued attempted run state)
      (Returns (Settled s definition
        (walk definition s.outcome queued (attempted ++ old) w.executed) run w)) := by
  induction hmeasure : (unattempted definition attempted).length + queued.length
    using Nat.strong_induction_on generalizing w run queued attempted state with
  | _ n ih =>
      cases queued with
      | nil =>
          rw [continueSteps]
          exact yields_finish_settled hrow (by simp) walk_nil le_rfl
      | cons index queued =>
          rw [continueSteps]
          refine yields_elapsed_bind fun hintime => ?_
          rw [if_neg (not_le.mpr hintime)]
          -- the check leaves the rows and the tools as they were
          replace hrow : (w.asked .elapsed).runs.find? run.id = some run := hrow
          replace hbefore : Before definition (index :: queued) (attempted ++ old)
              (w.asked .elapsed).executed := hbefore
          change Yields s (NotAgain s definition old) (w.asked .elapsed) _ (Returns (Settled s
            definition (walk definition s.outcome (index :: queued) (attempted ++ old)
              (w.asked .elapsed).executed) run (w.asked .elapsed)))
          generalize w.asked .elapsed = w at hrow hbefore ⊢
          by_cases henabled : toolAt definition index ∈ definition.enabledTools
          · rw [if_neg (not_not.mpr henabled)]
            by_cases hattempted : toolAt definition index ∈ attempted
            · rw [dif_pos hattempted,
                walk_skip henabled (List.mem_append_left old hattempted)]
              have hskip := hbefore.covers.skip (List.mem_append_left old hattempted)
              exact ih _ (by rw [← hmeasure]; simp) hrow
                { hbefore with covers := hskip } rfl
            · rw [dif_neg hattempted]
              refine (yields_executeStepAttempts hrules).bind ?_
              rintro attempts w₁ ⟨hnot, hcases⟩
              have hseen : toolAt definition index ∉ attempted ++ old := by
                rw [List.mem_append, not_or]
                exact ⟨hattempted, hnot rfl⟩
              rw [walk_step henabled hseen]
              rcases hcases with ⟨attempt', n, hwaits⟩ | ⟨k, hends⟩
              · dsimp only
                rw [if_pos hwaits.status]
                exact yields_pause (by rw [hwaits.runs]; exact hrow) hbefore henabled hwaits
              · dsimp only
                rw [if_neg hends.status]
                have hrow₁ : w₁.runs.find? run.id = some run := by rw [hends.runs]; exact hrow
                have hlength : w.executed.length ≤ w₁.executed.length := by
                  rw [hends.executed, List.length_append]
                  omega
                obtain ⟨hcovered, hexecuted_seen, hseen_executed, hon⟩ :=
                  hbefore.next (n := k) henabled
                rw [← hends.executed] at hexecuted_seen hseen_executed
                have hless := length_unattempted_lt hattempted
                rw [List.length_cons] at hmeasure
                rw [hends.all, afterStep]
                by_cases hsuccess : attempts.result.status = .success
                · rw [if_pos hsuccess, if_pos (decide_eq_true hsuccess)]
                  refine yields_update_bind hrow₁ hlength fun row w₂ hstored hsame => ?_
                  rw [← hsame] at hexecuted_seen hseen_executed ⊢
                  exact ih _ (by omega) hstored
                    ⟨hexecuted_seen, hseen_executed, hon, hcovered.covers⟩ rfl
                · rw [if_neg hsuccess, if_neg (by simp [hsuccess]), hends.directive hsuccess]
                  cases hfallback : fallbackStep definition (toolAt definition index :: attempted)
                    (directiveOf (policyAt definition index)) with
                  | none =>
                      rw [fallbackStep_eq_none (List.cons_subset_cons _
                        (List.subset_append_left _ old)) hfallback]
                      exact yields_finishFailed hrow₁ rfl hlength
                  | some fallback =>
                      obtain ⟨hfresh, hsome⟩ := toolAt_fallback hfallback
                      by_cases hold : toolAt definition fallback ∈ old
                      · have honold : toolAt definition fallback ∈ definition.enabledTools :=
                          hbefore.enabled (List.mem_append_right _ hold)
                        exact yields_update_bind hrow₁ hlength fun row w₂ _ _ =>
                          yields_of_old hrules honold hfresh hold
                      · have hunseen : toolAt definition fallback ∉
                            toolAt definition index :: (attempted ++ old) := by
                          rw [← List.cons_append, List.mem_append, not_or]
                          exact ⟨hfresh, hold⟩
                        rw [hsome _ hunseen]
                        refine yields_update_bind hrow₁ hlength fun row w₂ hstored hsame => ?_
                        rw [← hsame] at hexecuted_seen hseen_executed ⊢
                        exact ih _ (by rw [List.length_cons]; omega) hstored
                          ⟨hexecuted_seen, hseen_executed, hon, hcovered.covers_cons⟩ rfl
          · rw [if_pos henabled]
            exact yields_finish_settled hrow (by simp) (walk_not_enabled henabled) le_rfl

end Loop

/-! ## Seamless resumptions -/

def pendingAttempt (run : AgentRun) : ℕ :=
  match run.state.pendingApprovalStep with
  | none => 0
  | some index => (run.state.steps[index]?.map StepRecord.attempt).getD 0

/-- Nothing that the run has forgotten matters after this result. A success leaves no earlier step
unexecuted; a failure leaves neither a retry nor a fallback, and is not called a rejection. -/
def SeamlessResult (definition : AgentDefinition) (executed : List String) (run : AgentRun)
    (result : ActionResult) : Prop :=
  if result.status = .success then
    ∀ step ∈ definition.steps.take run.currentStep, step.toolId ∈ executed
  else result.status ≠ .rejected ∧ ∀ step ∈ definition.steps[run.currentStep]?,
    ¬ ((stepFailurePolicy step).mode = "retry" ∧
      (pendingAttempt run : ℤ) < (stepFailurePolicy step).maxRetries) ∧
    fallbackStep definition executed (directiveOf (stepFailurePolicy step)) = none

/-- No executed tool is called anew, no time check fails, and every resumption is seamless. -/
def Seamless (s : Scenario) (definition : AgentDefinition) (w : World) : RunAction → Prop
  | .invoke _ call => call.attempt = 0 → call.toolId ∉ w.executed
  | .completeApproval run approvalId _ _ =>
      ∀ result ∈ w.complete approvalId, SeamlessResult definition w.executed run result
  | a => InTime s definition w a

instance decidableSeamlessResult (definition : AgentDefinition) (executed : List String)
    (run : AgentRun) (result : ActionResult) :
    Decidable (SeamlessResult definition executed run result) :=
  inferInstanceAs (Decidable (if result.status = .success then _ else _))

instance decidableInTime (definition : AgentDefinition) (w : World) :
    ∀ a, Decidable (InTime s definition w a)
  | .query .elapsed =>
      inferInstanceAs (Decidable (s.elapsed w.checks < definition.executionTimeoutSeconds))
  | .query (.ticket _ _) | .query (.context _ _) | .query (.localMinutes _) | .query .now
  | .query (.revision _ _ _) | .query (.approvalStatus _) | .query (.nextTool _ _ _)
  | .selectRun _ | .insertRun _ _ | .invoke _ _ | .decideApproval _ _ | .completeApproval _ _ _ _
  | .updateRun _ _ | .readBack _ => inferInstanceAs (Decidable True)

instance decidableSeamless (definition : AgentDefinition) (w : World) :
    ∀ a, Decidable (Seamless s definition w a)
  | .invoke _ call => inferInstanceAs (Decidable (call.attempt = 0 → call.toolId ∉ w.executed))
  | .completeApproval run approvalId _ _ =>
      inferInstanceAs (Decidable (∀ result ∈ w.complete approvalId,
        SeamlessResult definition w.executed run result))
  | .query q => decidableInTime definition w (.query q)
  | .selectRun _ | .insertRun _ _ | .decideApproval _ _ | .updateRun _ _
  | .readBack _ => inferInstanceAs (Decidable True)

theorem executed_subset_answer (a : RunAction) (w : World) :
    w.executed ⊆ (s.answer a w).2.executed := by
  have happend : ∀ tools : List String, w.executed ⊆ w.executed ++ tools :=
    fun tools => List.subset_append_left _ _
  cases a with
  | invoke run call =>
      simp only [Scenario.answer, Scenario.invoke]
      cases s.outcome w.executed call.toolId with
      | none => exact happend _
      | some result =>
          simp only
          split
          · exact List.Subset.refl _
          · exact happend _
  | decideApproval run decision =>
      simp only [Scenario.answer, Scenario.decide]
      split
      · split
        · exact happend _
        · exact List.Subset.refl _
      · exact List.Subset.refl _
  | query q => cases q <;> exact List.Subset.refl _
  | _ => exact List.Subset.refl _

/-- Tools that were executed are not called anew. -/
theorem Yields.seamless {p : Call α} {old : List String} {Q : Except RunError α → World → Prop}
    (h : Yields s (NotAgain s definition old) w p Q) (hold : old ⊆ w.executed) :
    Yields s (Seamless s definition) w p Q := by
  refine Ensures.of_invariant (I := fun w => old ⊆ w.executed) h hold ?_ ?_
  · exact fun a w hw => List.Subset.trans hw (executed_subset_answer a w)
  · intro a w hw ha
    cases a with
    | invoke run call => exact fun hattempt hmem => ha hattempt (hw hmem)
    | completeApproval run approvalId approver role => trivial
    | _ => exact ha

/-- When every step up to one has been seen, those after it cover the definition. -/
theorem covered_queuedSteps {index : Fin definition.steps.length} {seen : List String}
    (h : ∀ step ∈ definition.steps.take index, step.toolId ∈ seen)
    (hindex : toolAt definition index ∈ seen) :
    Covered (queuedSteps definition (index + 1)) seen := by
  rw [Covered, pendingSteps, pendingSteps, queuedSteps, queuedSteps, List.filter_filter,
    List.filter_filter]
  refine List.filter_congr fun other _ => ?_
  have hlater : toolAt definition other ∉ seen → (index : ℕ) + 1 ≤ other := by
    intro hunseen
    by_contra hle
    rcases Nat.lt_or_eq_of_le (Nat.lt_succ_iff.mp (not_le.mp hle)) with hlt | heq
    · exact hunseen (h _ (List.mem_take_iff_getElem.mpr
        ⟨other, by have := other.isLt; omega, rfl⟩))
    · rw [Fin.ext heq] at hunseen
      exact hunseen hindex
  rw [← Bool.decide_and, ← Bool.decide_and, decide_eq_decide]
  constructor
  · rintro ⟨hunseen, -, hmax⟩
    exact ⟨hunseen, Nat.zero_le _, hmax⟩
  · rintro ⟨hunseen, -, hmax⟩
    exact ⟨hunseen, hlater hunseen, hmax⟩

/-! ## Resumptions -/

section Resume

variable {target : List String × RunStatus} {p : Pause definition} {row : AgentRun}

/-- The world once the awaited tool has been approved and executed. -/
def World.approve (w : World) (approvalId : ℕ) (toolId : String) (result : ActionResult) : World :=
  { w with
    executed := w.executed ++ [toolId]
    requests := w.requests.set approvalId { toolId, result := some result } }

theorem pendingAttempt_eq (h : Paused s definition target p row w) :
    pendingAttempt row = p.attempt := by
  obtain ⟨k, record, hpending, hrecord, -, hattempt⟩ := h.record
  simp [pendingAttempt, hpending, hrecord, hattempt]

/-- The result of the awaited tool, which the approval executes. -/
theorem yields_approvedResult {approver : String} {role : Access.Role} {result : ActionResult}
    {toolId : String} {approvalId : ℕ}
    (hrequest : w.requests[approvalId]? = some { toolId, result := none })
    (hresult : s.outcome w.executed toolId = some result) :
    Yields s (Seamless s definition) w (approvedResult row approvalId approver role)
      (Returns fun r w' => r = result ∧ w' = w.approve approvalId toolId result ∧
        SeamlessResult definition w'.executed row result) := by
  have hstatus : s.query w (.approvalStatus approvalId) = some .pending := by
    simp [Scenario.query, hrequest, AwaitedTool.status]
  have hdecide : s.decide w { approvalId, status := "approved", approver, approverRole := role } =
      w.approve approvalId toolId result := by
    simp [Scenario.decide, hrequest, hresult, World.approve]
  have hcomplete : (w.approve approvalId toolId result).complete approvalId = some result := by
    have hlt : approvalId < w.requests.length := (List.getElem?_eq_some_iff.mp hrequest).1
    simp [World.complete, World.approve, hlt]
  refine yields_query_bind rfl ?_
  rw [hstatus]
  refine yields_ask_bind fun _ => ?_
  have hanswer : s.answer (.decideApproval row
      { approvalId, status := "approved", approver, approverRole := role }) w =
      (.ok (), w.approve approvalId toolId result) := by
    rw [Scenario.answer, hdecide]
  rw [hanswer]
  refine yields_ask_bind fun hguard => ?_
  have hcompleted : (s.answer (.completeApproval row approvalId approver role)
      (w.approve approvalId toolId result)).1 = .ok (some result) := congrArg _ hcomplete
  rw [hcompleted]
  exact yields_pure ⟨rfl, rfl, hguard result hcomplete⟩

/-- The tools that the approved step leaves behind it. -/
theorem Paused.approved (h : Paused s definition target p row w) :
    w.executed ++ [toolAt definition p.index] ⊆ toolAt definition p.index :: p.seen ∧
      toolAt definition p.index :: p.seen ⊆ w.executed ++ [toolAt definition p.index] := by
  constructor
  · exact List.append_subset.mpr ⟨h.executed_seen, by simp⟩
  · refine List.cons_subset.mpr ⟨by simp, fun t ht => ?_⟩
    exact List.mem_append_left _ (h.seen_executed ht)

/-- The walk goes on after an approved step that succeeded, from the steps after it. -/
theorem Paused.target_of_success (h : Paused s definition target p row w)
    (hcall : callStatus s.outcome w.executed (toolAt definition p.index) = .success)
    (hcovered : Covered (queuedSteps definition (p.index + 1))
      (toolAt definition p.index :: p.seen)) :
    target = walk definition s.outcome (queuedSteps definition (p.index + 1))
      (toolAt definition p.index :: p.seen) (w.executed ++ [toolAt definition p.index]) := by
  rw [h.target, attemptTool_of_success hcall, afterStep, if_pos rfl]
  exact walk_congr h.enabled (h.covered.trans hcovered.symm)

/-- The walk ends after an approved step that failed without a retry or a fallback. -/
theorem Paused.target_of_failure (h : Paused s definition target p row w)
    (hcall : callStatus s.outcome w.executed (toolAt definition p.index) ≠ .success)
    (hretry : ¬ ((policyAt definition p.index).mode = "retry" ∧
      (p.attempt : ℤ) < (policyAt definition p.index).maxRetries))
    (hfallback : fallbackStep definition (w.executed ++ [toolAt definition p.index])
      (directiveOf (policyAt definition p.index)) = none) :
    target = (w.executed ++ [toolAt definition p.index], .failed) := by
  rw [h.target, attemptTool_of_failure hcall hretry, afterStep, if_neg Bool.false_ne_true,
    fallbackStep_eq_none h.approved.1 hfallback]

/-- What `resume` does with the result of the approved tool. -/
theorem yields_resumeWith {result : ActionResult}
    (hrules : RulesNormalize rt definition) (haware : definition.resultAware = false)
    (h : Paused s definition target p row w)
    (hrow : w.runs.find? row.id = some row)
    (hresult : s.outcome w.executed (toolAt definition p.index) = some result)
    (hseamless : SeamlessResult definition (w.executed ++ [toolAt definition p.index]) row result) :
    Yields s (Seamless s definition) (w.approve p.approvalId (toolAt definition p.index) result)
      (resumeWith rt definition row state result)
      (Returns (Settled s definition target row
        (w.approve p.approvalId (toolAt definition p.index) result))) := by
  have hcall : callStatus s.outcome w.executed (toolAt definition p.index) = result.status := by
    simp [callStatus, hresult]
  rw [SeamlessResult, h.currentStep] at hseamless
  rw [resumeWith]
  by_cases hsuccess : result.status = .success
  · rw [if_pos hsuccess] at hseamless ⊢
    rw [continueRun, if_neg (by simp [haware]), h.currentStep]
    have hcovered : Covered (queuedSteps definition (p.index + 1))
        (toolAt definition p.index :: p.seen) :=
      covered_queuedSteps (fun step hstep => h.approved.1 (hseamless step hstep))
        List.mem_cons_self
    rw [h.target_of_success (hcall.trans hsuccess) hcovered]
    refine Yields.seamless ?_ h.approved.2
    have hbefore : Before definition (queuedSteps definition (p.index + 1))
        ([] ++ (toolAt definition p.index :: p.seen)) (w.executed ++ [toolAt definition p.index]) :=
      ⟨h.approved.1, h.approved.2, h.enabled, hcovered.covers⟩
    exact yields_continueSteps hrules hrow hbefore
  · rw [if_neg hsuccess] at hseamless ⊢
    obtain ⟨hrejected, hpolicy⟩ := hseamless
    obtain ⟨hretry, hfallback⟩ := hpolicy (definition.steps.get p.index)
      (by rw [List.get_eq_getElem]; exact List.getElem?_eq_getElem p.index.isLt)
    rw [pendingAttempt_eq h] at hretry
    rw [if_neg hrejected]
    exact yields_finish_settled hrow nofun
      (h.target_of_failure (fun hsame => hsuccess (hcall.symm.trans hsame)) hretry hfallback) le_rfl

/-- A run that does not wait is left alone. -/
theorem yields_resume_of_not_pending {approver : String} {role : Access.Role}
    {correlationId : Option String} (hrow : w.runs.find? row.id = some row)
    (hstatus : row.status ≠ .pendingApproval) :
    Yields s G w (RunCall.program rt (.resume definition row.id approver role correlationId))
      (Returns fun result w' => result = resultOf row ∧ w' = w) := by
  refine yields_ask_bind fun _ => ?_
  have hfound : (s.answer (.selectRun row.id) w).1 = some row := hrow
  rw [hfound]
  change Yields s G w (resume rt definition row approver role correlationId) _
  rw [resume, if_pos hstatus]
  exact yields_pure ⟨rfl, rfl⟩

/-- The run of a session: what its row keeps through every call. -/
structure OwnRow (definition : AgentDefinition) (actor : String) (w : World) (row : AgentRun) :
    Prop where
  stored : w.runs.find? row.id = some row
  actor : row.actor = actor
  revision : row.revisionVersion = some definition.version

/-- A resumption executes the awaited tool, and goes on with the walk. -/
def Resumes (s : Scenario) (definition : AgentDefinition) (target : List String × RunStatus)
    (row : AgentRun) (w : World) (result : AgentExecutionResult) (w' : World) : Prop :=
  Settled s definition target row w result w' ∧ w.executed.length < w'.executed.length

theorem yields_resume {approver actor : String} {role : Access.Role}
    {correlationId : Option String} (hrules : RulesNormalize rt definition)
    (haware : definition.resultAware = false) (hticket : isQuarantined s.ticket = false)
    (hown : OwnRow definition actor w row) (hactor : approver ≠ actor)
    (h : Paused s definition target p row w) :
    Yields s (Seamless s definition) w
      (RunCall.program rt (.resume definition row.id approver role correlationId))
      (Returns (Resumes s definition target row w)) := by
  obtain ⟨k, record, hpending, hrecord, happroval, -⟩ := h.record
  obtain ⟨result, hresult⟩ := Option.isSome_iff_exists.mp h.registered
  refine yields_ask_bind fun _ => ?_
  have hfound : (s.answer (.selectRun row.id) w).1 = some row := hown.stored
  rw [hfound]
  change Yields s (Seamless s definition) w (resume rt definition row approver role correlationId) _
  rw [resume, if_neg (not_not.mpr h.status)]
  refine yields_query_bind rfl ?_
  have hopen : isQuarantined (s.query w (.ticket row.entityId none)) = false := hticket
  rw [if_neg (by rw [hopen]; nofun), resumePending, definitionForRun, hown.revision,
    Option.filter_some, if_neg (by simp)]
  refine yields_check_bind (fun hsame => hactor (hsame.trans hown.actor)) ?_
  have hpendingStep : pendingStep (row.state.correlated rt correlationId) =
      pure (k, record, p.approvalId) := by
    simp only [pendingStep, RunState.correlated, hpending, hrecord, happroval]
  dsimp only
  rw [hpendingStep]
  refine (yields_approvedResult h.request hresult).bind ?_
  rintro result _ ⟨rfl, rfl, hseamless⟩
  refine (yields_resumeWith hrules haware h hown.stored hresult hseamless).imp fun r w' hr => ?_
  cases r with
  | error e => exact hr
  | ok x =>
      have hlength : (w.executed ++ [toolAt definition p.index]).length ≤ w'.executed.length := by
        obtain ⟨-, -, -, -, hlength, -⟩ := hr
        exact hlength
      rw [List.length_append, List.length_singleton] at hlength
      exact ⟨Settled.trans hr (.refl row) (by simp [World.approve]), by omega⟩

end Resume

end WaitLocalAgent.AgentRuns
