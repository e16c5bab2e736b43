import WaitLocalAgent.Verification.Agents.Resumption
import WaitLocalAgent.Verification.Agents.Terminal

/-! # Orphaned agent runs

A new run is stored as queued before its steps are executed. Exactly when a step raises, it stays so
while the call raises. -/

namespace WaitLocalAgent.AgentRuns

open Foundation Approvals Agents Program
open SmartActions (ActionResult ServiceError)

variable {rt : RunRuntime} {definition : AgentDefinition} {α β : Type}

/-! ## What leaves no orphan -/

abbrev RunEvent := Σ a : RunAction, a.Answer

/-- A call raises and has created no run, or returns with its new run ended or paused; and it leaves
no other run queued than before. -/
structure OrphanFree (before : AutoTable AgentRun.id)
    (result : Except RunError AgentExecutionResult)
    (after : AutoTable AgentRun.id) : Prop where
  ended : match result with
    | .error _ => after = before
    | .ok result => before.find? result.runId = none ∧ ∃ run,
        after.find? result.runId = some run ∧
          (run.status = .completed ∨ run.status = .failed ∨ run.status = .pendingApproval)
  queued : ∀ runId run, after.find? runId = some run → run.status = .queued →
    before.find? runId = some run

/-- A step that is answered so raises: its tool raises anything but `KeyError`, or its ticket is
found and the stored approval rules do not pass their own checks any more. -/
def Upsets (rt : RunRuntime) (definition : AgentDefinition) : RunEvent → Prop
  | ⟨.invoke _ _, result⟩ => ∃ message, result = .error (.raised message)
  | ⟨.query (.ticket _ _), ticket⟩ => ticket ≠ none ∧ ¬ RulesNormalize rt definition
  | _ => False

def afterInsert : List RunEvent → List RunEvent
  | [] => []
  | ⟨.insertRun _ _, _⟩ :: events => events
  | _ :: events => afterInsert events

/-! ## Steps that raise or do not -/

/-- A call that does not raise ends in `P`, without an event that upsets it; one that raises ends in
`E`, after such an event. -/
def Outcome (rt : RunRuntime) (definition : AgentDefinition)
    (P : α → AutoTable AgentRun.id → Prop) (E : AutoTable AgentRun.id → Prop) :
    Except RunError α → Workspace → List RunEvent → Prop
  | .ok x, s, events => P x s.runs ∧ ∀ e ∈ events, ¬ Upsets rt definition e
  | .error _, s, events => E s.runs ∧ ∃ e ∈ events, Upsets rt definition e

def Steps (rt : RunRuntime) (definition : AgentDefinition) (s : Workspace)
    (P : α → AutoTable AgentRun.id → Prop) (E : AutoTable AgentRun.id → Prop) (p : Call α) : Prop :=
  Leads RunAction.answer p.run (Outcome rt definition P E) s

variable {state : RunState}

section Rules

variable {s : Workspace} {P : α → AutoTable AgentRun.id → Prop}
  {Q : β → AutoTable AgentRun.id → Prop} {E : AutoTable AgentRun.id → Prop}

theorem Steps.bind {p : Call α} {f : α → Call β} (hp : Steps rt definition s P E p)
    (hf : ∀ x s', P x s'.runs → Steps rt definition s' Q E (f x)) :
    Steps rt definition s Q E (p >>= f) := by
  refine Leads.bind (p := p.run) hp ?_
  intro result s' events hresult
  cases result with
  | error e =>
      obtain ⟨hE, e', he', hupsets⟩ := hresult
      exact ⟨hE, e', List.mem_append_left _ he', hupsets⟩
  | ok x =>
      obtain ⟨hP, hcalm⟩ := hresult
      refine (hf x s' hP).imp fun result s'' later hlater => ?_
      cases result with
      | error e =>
          obtain ⟨hE, e', he', hupsets⟩ := hlater
          exact ⟨hE, e', List.mem_append_right _ he', hupsets⟩
      | ok y =>
          refine ⟨hlater.1, fun e he => ?_⟩
          rcases List.mem_append.mp he with he | he
          · exact hcalm e he
          · exact hlater.2 e he

theorem Steps.imp {P' : α → AutoTable AgentRun.id → Prop} {p : Call α}
    (h : Steps rt definition s P E p) (hP : ∀ x runs, P x runs → P' x runs) :
    Steps rt definition s P' E p := by
  refine Leads.imp h fun result s' events hresult => ?_
  cases result with
  | error e => exact hresult
  | ok x => exact ⟨hP x s'.runs hresult.1, hresult.2⟩

theorem steps_pure {x : α} (hx : P x s.runs) : Steps rt definition s P E (pure x : Call α) :=
  ⟨hx, fun _ he => nomatch he⟩

theorem steps_ask {a : RunAction} {P : a.Answer → AutoTable AgentRun.id → Prop}
    (hcalm : ∀ answer, ¬ Upsets rt definition ⟨a, answer⟩)
    (hP : ∀ env, P (RunAction.answer a s env).1 (RunAction.answer a s env).2.runs) :
    Steps rt definition s P E (ask a) := by
  intro env
  refine ⟨hP env, fun e he => ?_⟩
  rw [List.mem_singleton] at he
  exact he ▸ hcalm _

theorem steps_query {q : Query} (hq : ∀ entityId clientId, q ≠ .ticket entityId clientId) :
    Steps rt definition s (fun _ runs => runs = s.runs) E (query q) := by
  refine steps_ask (fun answer => ?_) fun env => rfl
  cases q with
  | ticket entityId clientId => exact absurd rfl (hq entityId clientId)
  | _ => exact id

/-- What follows an action, with the event of the action before it. -/
theorem steps_ask_bind {a : RunAction} {f : a.Answer → Call β}
    (h : ∀ env, Leads RunAction.answer (f (RunAction.answer a s env).1).run
      (fun result s' later => Outcome rt definition Q E result s'
        (⟨a, (RunAction.answer a s env).1⟩ :: later)) (RunAction.answer a s env).2) :
    Steps rt definition s Q E (ask a >>= f) := h

theorem steps_approvalPolicyForTicket {actorRole : Option Access.Role} {toolId entityId : String}
    (hE : E s.runs) :
    Steps rt definition s (fun _ runs => runs = s.runs) E
      (approvalPolicyForTicket rt definition actorRole toolId entityId) := by
  rw [approvalPolicyForTicket]
  split
  · exact steps_pure rfl
  · split
    · exact steps_pure rfl
    · refine steps_ask_bind fun env => ?_
      simp only [RunAction.answer]
      cases env.answer (.ticket entityId definition.clientId) with
      | none => exact ⟨rfl, by simp [Upsets]⟩
      | some ticket =>
          cases hrules : normalizeApprovalRules rt.toAgentRuntime definition.approvalRules none with
          | error e =>
              exact ⟨hE, _, List.mem_singleton.mpr rfl, by simp [Upsets, RulesNormalize, hrules]⟩
          | ok rules => exact ⟨rfl, by simp [Upsets, RulesNormalize, hrules]⟩

theorem steps_invokeTool {run : AgentRun} {call : ToolCall} (hE : E s.runs) :
    Steps rt definition s (fun _ runs => runs = s.runs) E (invokeTool run call) := by
  refine steps_ask_bind fun env => ?_
  simp only [RunAction.answer]
  cases env.invoked with
  | ok result => exact ⟨rfl, by simp [Upsets]⟩
  | error error =>
      cases error with
      | notRegistered => exact ⟨rfl, by simp [Upsets]⟩
      | raised message => exact ⟨hE, _, List.mem_singleton.mpr rfl, message, rfl⟩

theorem steps_executeStepAttempts {actor : String} {actorRole : Option Access.Role}
    {run : AgentRun} {step : AgentStep} {recordIndex attempt : ℕ}
    {records : List StepRecord} {runs : AutoTable AgentRun.id} (hruns : s.runs = runs)
    (hE : E runs) :
    Steps rt definition s (fun _ runs' => runs' = runs) E
      (executeStepAttempts rt definition actor actorRole run step recordIndex state attempt
        records) := by
  induction hleft : ((stepFailurePolicy step).maxRetries - attempt).toNat
    using Nat.strong_induction_on generalizing attempt records s with
  | _ left ih =>
      subst hruns
      rw [executeStepAttempts]
      refine (steps_approvalPolicyForTicket hE).bind fun approvalPolicy s' hs' => ?_
      refine (steps_invokeTool (hs' ▸ hE)).bind fun result s'' hs'' => ?_
      have hsame : s''.runs = s.runs := hs''.trans hs'
      dsimp only
      split
      · exact steps_pure hsame
      · split
        · exact ih _ (by omega) hsame rfl
        · exact steps_pure hsame

end Rules

/-! ## Writes -/

/-- The run is stored as it is held, beside the runs that were there before. -/
structure InPlace (before : AutoTable AgentRun.id) (run : AgentRun)
    (runs : AutoTable AgentRun.id) : Prop where
  fresh : before.find? run.id = none
  stored : runs.find? run.id = some run
  others : ∀ id, id ≠ run.id → runs.find? id = before.find? id

/-- The new run is left as it was queued. -/
def Orphaned (before runs : AutoTable AgentRun.id) : Prop :=
  ∃ run, run.status = .queued ∧ InPlace before run runs

/-- The call returns its new run, which has ended or waits for an approval. -/
def EndedOrPaused (before : AutoTable AgentRun.id) (result : AgentExecutionResult)
    (runs : AutoTable AgentRun.id) : Prop :=
  ∃ run, result = resultOf run ∧ InPlace before run runs ∧
    (run.status = .completed ∨ run.status = .failed ∨ run.status = .pendingApproval)

section Writes

variable {s : Workspace} {E : AutoTable AgentRun.id → Prop} {before : AutoTable AgentRun.id}
  {run : AgentRun}

theorem InPlace.write (h : InPlace before run s.runs) (write : RunWrite) :
    InPlace before (write.apply run) (updateRow s.runs run.id write).2 where
  fresh := h.fresh
  stored := (updateRow_stored write h.stored).2
  others id hid := by
    have hne : id ≠ run.id := hid
    rw [← h.others id hne, updateRow, AutoTable.find?_update]
    cases hfound : s.runs.find? id with
    | none => rfl
    | some row =>
        have hrow : row.id = id := (AutoTable.find?_eq_some_iff.mp hfound).2
        simp [hrow, hne]

theorem steps_readBack {written : AgentRun} (h : InPlace before written s.runs) :
    Steps rt definition s (fun row runs => row = written ∧ InPlace before row runs) E
      (readBack written) := by
  refine (steps_ask (a := .readBack written)
    (P := fun found runs => found = some written ∧ InPlace before written runs) (fun _ => id)
    fun env => ⟨h.stored, h⟩).bind ?_
  rintro found s' ⟨rfl, h'⟩
  exact steps_pure ⟨rfl, h'⟩

theorem steps_updateAgentRun {status : RunStatus} {currentStep : ℕ}
    (h : InPlace before run s.runs) :
    Steps rt definition s (fun row runs => row.status = status ∧ InPlace before row runs) E
      (updateAgentRun rt run status currentStep state) := by
  refine (steps_query (by simp)).bind fun finishedAt s' hs' => ?_
  rw [← hs'] at h
  let write : RunWrite :=
    { status, currentStep, state := state.redacted rt.toAgentRuntime, finishedAt }
  refine (steps_ask (a := .updateRun run write)
    (P := fun updated runs => updated = true ∧ InPlace before (write.apply run) runs)
    (fun _ => id) fun env => ⟨(updateRow_stored write h.stored).1, h.write write⟩).bind ?_
  rintro updated s'' ⟨rfl, h''⟩
  refine (steps_pure (P := fun _ runs => runs = s''.runs) rfl).bind fun _ s₃ hs₃ => ?_
  rw [← hs₃] at h''
  exact (steps_readBack h'').imp fun row runs ⟨hrow, hplace⟩ => ⟨hrow ▸ rfl, hplace⟩

/-- A run ends when its last write says so. -/
theorem steps_finish {status : RunStatus} {currentStep : ℕ}
    (h : InPlace before run s.runs)
    (hstatus : status = .completed ∨ status = .failed ∨ status = .pendingApproval) :
    Steps rt definition s (EndedOrPaused before) E (finish rt run status currentStep state) := by
  refine (steps_updateAgentRun h).bind fun row s' hrow => ?_
  obtain ⟨rfl, hplace⟩ := hrow
  exact steps_pure ⟨row, rfl, hplace, hstatus⟩

theorem steps_finishFailed {index : ℕ} {directive : Option Directive}
    (h : InPlace before run s.runs) :
    Steps rt definition s (EndedOrPaused before) E (finishFailed rt run index state directive) := by
  cases directive with
  | none => exact steps_finish h (.inr (.inl rfl))
  | some directive => cases directive <;> exact steps_finish h (.inr (.inl rfl))

end Writes

/-! ## Loops -/

section Loops

variable {s : Workspace} {before : AutoTable AgentRun.id} {run : AgentRun} {actor : String}
  {actorRole : Option Access.Role}

theorem steps_continueSteps {queued : List (Fin definition.steps.length)} {attempted : List String}
    (hqueued : run.status = .queued) (h : InPlace before run s.runs) :
    Steps rt definition s (EndedOrPaused before) (Orphaned before)
      (continueSteps rt definition actor actorRole queued attempted run state) := by
  induction hmeasure : (unattempted definition attempted).length + queued.length
    using Nat.strong_induction_on generalizing s run queued attempted state with
  | _ n ih =>
      rw [continueSteps.eq_def]
      cases queued with
      | nil => exact steps_finish h (.inl rfl)
      | cons index queued =>
          refine (steps_query (by simp)).bind fun elapsed s' hs' => ?_
          rw [← hs'] at h
          have horphaned : Orphaned before s'.runs := ⟨run, hqueued, h⟩
          split
          · exact steps_finish h (.inr (.inl rfl))
          · split
            · exact steps_finish h (.inr (.inl rfl))
            · split
              · exact ih _ (by rw [← hmeasure]; simp) hqueued h rfl
              · rename_i hattempted
                have hless := length_unattempted_lt hattempted
                refine (steps_executeStepAttempts rfl horphaned).bind fun attempts s'' hs'' => ?_
                rw [← hs''] at h
                dsimp only
                split
                · exact steps_finish h (.inr (.inr rfl))
                · split
                  · refine (steps_updateAgentRun h).bind fun row s₃ hrow => ?_
                    exact ih _ (by simp only [← hmeasure, List.length_cons]; omega)
                      hrow.1 hrow.2 rfl
                  · split
                    · exact steps_finishFailed h
                    · refine (steps_updateAgentRun h).bind fun row s₃ hrow => ?_
                      exact ih _ (by simp only [← hmeasure, List.length_cons]; omega)
                        hrow.1 hrow.2 rfl

theorem steps_nextResultAwareStep {fallback : Option AgentStep}
    {E : AutoTable AgentRun.id → Prop} :
    Steps rt definition s (fun _ runs => runs = s.runs) E
      (nextResultAwareStep definition fallback state) := by
  cases fallback with
  | some step => exact steps_pure rfl
  | none =>
      simp only [nextResultAwareStep, selectResultAwareStep]
      split
      · exact steps_pure rfl
      · exact (steps_query (by simp)).bind fun _ s' hs' => steps_pure hs'

theorem steps_continueResultAware {fallback : Option AgentStep}
    (hqueued : run.status = .queued) (h : InPlace before run s.runs) :
    Steps rt definition s (EndedOrPaused before) (Orphaned before)
      (continueResultAware rt definition actor actorRole fallback run state) := by
  induction hmeasure : (definition.maxSteps - state.steps.length).toNat
    using Nat.strong_induction_on generalizing s run fallback state with
  | _ n ih =>
      rw [continueResultAware]
      split
      · refine (steps_query (by simp)).bind fun elapsed s' hs' => ?_
        rw [← hs'] at h
        split
        · exact steps_finish h (.inr (.inl rfl))
        · refine steps_nextResultAwareStep.bind fun next s'' hs'' => ?_
          rw [← hs''] at h
          have horphaned : Orphaned before s''.runs := ⟨run, hqueued, h⟩
          cases next with
          | none => exact steps_finish h (.inl rfl)
          | some step =>
              dsimp only
              split
              · exact steps_finish h (.inr (.inl rfl))
              · refine (steps_executeStepAttempts rfl horphaned).bind fun attempts s₃ hs₃ => ?_
                rw [← hs₃] at h
                have hlength := List.length_pos_of_ne_nil attempts.nonempty
                have hless : (definition.maxSteps - (state.extend attempts).steps.length).toNat <
                    n := by
                  simp only [RunState.extend, List.length_append]
                  omega
                split
                · exact steps_finish h (.inr (.inr rfl))
                · split
                  · refine (steps_updateAgentRun h).bind fun row s₄ hrow => ?_
                    exact ih _ hless hrow.1 hrow.2 rfl
                  · split
                    · exact steps_finish h (.inr (.inl rfl))
                    · refine (steps_updateAgentRun h).bind fun row s₄ hrow => ?_
                      exact ih _ hless hrow.1 hrow.2 rfl
      · exact steps_finish h (.inl rfl)

theorem steps_continueRun {startStep : ℕ} (hqueued : run.status = .queued)
    (h : InPlace before run s.runs) :
    Steps rt definition s (EndedOrPaused before) (Orphaned before)
      (continueRun rt definition actor actorRole startStep run state) := by
  rw [continueRun]
  split
  · exact steps_continueResultAware hqueued h
  · exact steps_continueSteps hqueued h

end Loops

/-! ## Before the steps -/

section Begin

variable {s : Workspace}

/-- A call that only reads inserts nothing. -/
theorem Reads.leads {p : Call α} (h : Reads p) (s : Workspace) :
    Leads RunAction.answer p.run (fun _ s' events =>
      s' = s ∧ ∀ later, afterInsert (events ++ later) = afterInsert later) s := by
  have hprogram : ∀ q : Program RunAction RunAction.Answer (Except RunError α),
      q.Performs RunAction.isQuery → Leads RunAction.answer q (fun _ s' events =>
        s' = s ∧ ∀ later, afterInsert (events ++ later) = afterInsert later) s := by
    intro q hq
    induction q with
    | done result => exact ⟨rfl, fun _ => rfl⟩
    | act a next ih =>
        cases a with
        | query question =>
            intro env
            exact (ih _ (hq.2 _)).imp fun _ _ _ hrest => ⟨hrest.1, fun later => hrest.2 later⟩
        | _ => cases hq.1
  exact hprogram p.run h

/-- A call that raises leaves the runs as they were; otherwise its new run is queued, and no event
after its insert upsets it. -/
def Begun (rt : RunRuntime) (definition : AgentDefinition) (before : AutoTable AgentRun.id)
    (run : α → AgentRun) : Except RunError α → Workspace → List RunEvent → Prop
  | .ok x, s, events => (run x).status = .queued ∧ InPlace before (run x) s.runs ∧
      ∃ calm, (∀ e ∈ calm, ¬ Upsets rt definition e) ∧
        ∀ later, afterInsert (events ++ later) = calm ++ later
  | .error _, s, events => s.runs = before ∧ afterInsert events = []

theorem Reads.begun {before : AutoTable AgentRun.id} {run : β → AgentRun} {p : Call α}
    {f : α → Call β} (hp : Reads p) (hs : s.runs = before)
    (hf : ∀ x, Leads RunAction.answer (f x).run (Begun rt definition before run) s) :
    Leads RunAction.answer (p >>= f).run (Begun rt definition before run) s := by
  refine Leads.bind (p := p.run) (hp.leads s) ?_
  rintro result s' events ⟨rfl, hevents⟩
  cases result with
  | error e => exact ⟨hs, by simpa [afterInsert] using hevents []⟩
  | ok x =>
      refine (hf x).imp fun result s'' later hlater => ?_
      cases result with
      | error e => exact ⟨hlater.1, by rw [hevents, hlater.2]⟩
      | ok y =>
          obtain ⟨hqueued, hplace, calm, hcalm, hafter⟩ := hlater
          exact ⟨hqueued, hplace, calm, hcalm, fun more => by
            rw [List.append_assoc, hevents, hafter]⟩

theorem inPlace_insert (draft : ℕ → AgentRun) (h : ∀ n, (draft n).id = n) :
    InPlace s.runs (draft (s.runs.lastKey + 1)) (s.runs.insert draft h) where
  fresh := by rw [h, AutoTable.find?_next]
  stored := by simp [AutoTable.find?_insert, h]
  others id hid := by
    rw [h] at hid
    simp [AutoTable.find?_insert, hid]

theorem begun_createAgentRun {request : RunRequest} :
    Leads RunAction.answer (createAgentRun rt definition request state).run
      (Begun rt definition s.runs id) s := by
  refine (reads_query .now).begun rfl fun now env => ?_
  simp only [RunAction.answer, insertRow]
  split
  · exact ⟨rfl, rfl⟩
  · intro env'
    have hrow := inPlace_insert (s := s) (newRun rt definition request state now)
      (newRun_id rt definition request state now)
    simp only [RunAction.answer]
    rw [hrow.stored]
    exact ⟨rfl, hrow, _, by simp [Upsets], fun later => rfl⟩

theorem begun_beginRun {request : RunRequest} :
    Leads RunAction.answer (beginRun rt definition request).run
      (Begun rt definition s.runs Prod.fst) s := by
  refine reads_check.begun rfl fun _ => ?_
  refine reads_executionWindowOpen.begun rfl fun windowOpen => ?_
  refine reads_check.begun rfl fun _ => ?_
  refine reads_check.begun rfl fun _ => ?_
  refine reads_requireTicket.begun rfl fun _ => ?_
  refine reads_buildContext.begun rfl fun context => ?_
  refine Leads.bind (p := (createAgentRun rt definition request _).run) begun_createAgentRun ?_
  intro result s' events hresult
  cases result with
  | error e => exact ⟨hresult.1, by simpa using hresult.2⟩
  | ok run =>
      obtain ⟨hqueued, hplace, calm, hcalm, hafter⟩ := hresult
      exact ⟨hqueued, hplace, calm, hcalm, fun later => by simpa using hafter later⟩

end Begin

/-! ## Runs -/

/-- What a call of `run` leads to: it is free of orphans and nothing upsets it, or it is upset and
leaves its run as it was queued. -/
theorem leads_run (rt : RunRuntime) (definition : AgentDefinition) (request : RunRequest)
    (s : Workspace) :
    Leads RunAction.answer (AgentRuns.run rt definition request).run
      (fun result s' events =>
        (OrphanFree s.runs result s'.runs ∧ ∀ e ∈ afterInsert events, ¬ Upsets rt definition e) ∨
        ((∃ e, result = .error e) ∧ Orphaned s.runs s'.runs ∧
          ∃ e ∈ afterInsert events, Upsets rt definition e)) s := by
  refine Leads.bind (p := (beginRun rt definition request).run) begun_beginRun ?_
  intro result s' events hbegun
  cases result with
  | error e =>
      obtain ⟨hruns, hafter⟩ := hbegun
      refine .inl ⟨⟨hruns, ?_⟩, by simp [hafter]⟩
      intro runId run hrun _
      rwa [← hruns]
  | ok begun =>
      obtain ⟨hqueued, hplace, calm, hcalm, hafter⟩ := hbegun
      refine Leads.imp (steps_continueRun hqueued hplace) fun result s'' later hresult => ?_
      rw [hafter]
      cases result with
      | ok result =>
          obtain ⟨⟨run, rfl, hplace', hstatus⟩, hlater⟩ := hresult
          refine .inl ⟨⟨⟨hplace'.fresh, run, hplace'.stored, hstatus⟩, ?_⟩, ?_⟩
          · intro runId row hrow hqueued'
            by_cases hid : runId = run.id
            · -- the new run has ended or waits, so the queued row is not the new one
              rw [hid, hplace'.stored, Option.some.injEq] at hrow
              subst hrow
              simp [hqueued'] at hstatus
            · rwa [← hplace'.others runId hid]
          · intro e he
            rcases List.mem_append.mp he with he | he
            · exact hcalm e he
            · exact hlater e he
      | error e =>
          obtain ⟨horphaned, event, hevent, hupsets⟩ := hresult
          exact .inr ⟨⟨e, rfl⟩, horphaned, event, List.mem_append_right _ hevent, hupsets⟩

theorem Orphaned.not_orphanFree {before after : AutoTable AgentRun.id} {e : RunError}
    (h : Orphaned before after) : ¬ OrphanFree before (.error e) after := by
  rintro ⟨rfl, -⟩
  obtain ⟨run, -, hplace⟩ := h
  have hstored := hplace.stored
  rw [hplace.fresh] at hstored
  cases hstored

/-- A call of `run` leaves no orphan exactly when no step is upset once its run is stored. -/
theorem orphanFree_iff (request : RunRequest) (inputs : ℕ → Surroundings) (s : Workspace) :
    OrphanFree s.runs
        ((AgentRuns.run rt definition request).run.run RunAction.answer inputs s).1
        ((AgentRuns.run rt definition request).run.run RunAction.answer inputs s).2.1.runs ↔
      ∀ e ∈ afterInsert
          ((AgentRuns.run rt definition request).run.history RunAction.answer inputs s),
        ¬ Upsets rt definition e := by
  rcases (leads_run rt definition request s).run inputs with
    ⟨hfree, hcalm⟩ | ⟨⟨e, he⟩, horphaned, event, hevent, hupsets⟩
  · exact iff_of_true hfree hcalm
  · rw [he]
    exact iff_of_false horphaned.not_orphanFree fun hcalm => hcalm event hevent hupsets

/-! ## An input with a reserved field -/

/-- The tool refuses the reserved field of its payload. -/
def refusing : Surroundings :=
  { succeeding with
    invoked := .error (.raised "reserved payload field '_approval_completed' is not permitted") }

def reservedRequest : RunRequest where
  entityId := "T-1"
  actor := "tess"
  input := (∅ : JsonObject).insert "_approval_completed" (.other "true")

/-- The call raises, and its run stays queued. -/
theorem not_orphanFree : ¬ ∀ (rt : RunRuntime) (definition : AgentDefinition)
    (request : RunRequest) (inputs : ℕ → Surroundings) (s : Workspace), OrphanFree s.runs
      ((AgentRuns.run rt definition request).run.run RunAction.answer inputs s).1
      ((AgentRuns.run rt definition request).run.run RunAction.answer inputs s).2.1.runs := by
  intro h
  have hfree := h morningRuns morningAgent reservedRequest (fun _ => refusing)
    { runs := .empty, events := [] }
  have hstatus : storedStatus 1 ((AgentRuns.run morningRuns morningAgent reservedRequest).run.run
      RunAction.answer (fun _ => refusing) { runs := .empty, events := [] }).2.1 =
        some .queued := by decide +kernel
  obtain ⟨run, hrun, hqueued⟩ := Option.map_eq_some_iff.mp hstatus
  have hbefore := hfree.queued 1 run hrun hqueued
  simp at hbefore

end WaitLocalAgent.AgentRuns
