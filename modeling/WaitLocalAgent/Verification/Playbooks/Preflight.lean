import WaitLocalAgent.Model.PlaybookRuns

/-! # The preflight of a playbook

What the checks before a run say about its steps, and exactly which runs they leave no step of to
fail on its input. -/

namespace WaitLocalAgent.Playbooks

open Foundation Program

/-! ## What a complete preflight is -/

abbrev Taken := String → Payload → Prop

/-- The tool has done, or staged, what it was called for. -/
def Succeeds : Except Raised ToolResult → Prop
  | .ok result => workflowStatusForTool result ≠ .failed
  | .error _ => False

/-- A tool fails on a payload that it does not take. -/
def Honours (taken : Taken) (answers : ℕ → (a : PlaybookAction) → a.Answer) : Prop :=
  ∀ n toolId payload actor clientId, ¬ taken toolId payload →
    ¬ Succeeds (answers n (.call (.invoke toolId payload actor clientId)))

/-- The call does not turn its payload down. -/
def TakesPayload (taken : Taken) : PlaybookAction → Prop
  | .call (.invoke toolId payload _ _) => taken toolId payload
  | _ => True

def InputError {α : Type} (x : Except PlaybookError α) : Prop :=
  ∃ message, x = .error (.input message)

/-- The step finds its inputs, and does not fail on them by a check of its own. -/
structure InputsMet (payload : Payload) (started : StartedStep) : Prop where
  present : ∀ key ∈ started.step.requiredInputs, key ∈ payload.keys
  accepted : ¬ InputError started.ending

/-- The request is refused before anything is done, or no step that is started lacks an input, fails
on one, or calls a tool with a payload that the tool turns down. -/
def PreflightComplete (rt : Runtime) (taken : Taken) (request : PlaybookRunRequest)
    (view : StoreView) : Prop :=
  ∀ runId answers, Honours taken answers →
    match (runMspPlaybook rt request view runId).run.traced answers with
    | (.error _, events) => events = []
    | (.ok run, events) =>
        (∀ started ∈ run.started, InputsMet request.inputPayload started) ∧
          ∀ event ∈ events, TakesPayload taken event.1

/-! ## When it is complete -/

/-- Whatever a template's tool and the store answer, the loop stops at it: it waits for an approval,
or lacks the executor of its tool. -/
def TemplateHalts (toolExecutor : Bool) (template : WorkflowTemplate) : Prop :=
  match template.toolId with
  | some _ => toolExecutor = false
  | none => template.approvalRequired

/-- Whatever is answered, the loop stops at the step. -/
def Halts (run : PreparedRun) (step : MspPlaybookStep) : Prop :=
  match step.kind with
  | .workflow templateId =>
      ∀ template, getWorkflowTemplate templateId = some template →
        TemplateHalts run.toolExecutor template
  | .report _ => run.clientId = none

/-- The tool of the template takes what it is handed for the ticket. -/
def TemplateReady (rt : Runtime) (taken : Taken) (run : PreparedRun) (ticket : PlaybookTicket)
    (template : WorkflowTemplate) : Prop :=
  ∀ toolId ticketId, template.toolId = some toolId → run.toolExecutor →
    run.ticketId = some ticketId →
    taken toolId (toolPayload template.id ticketId ticket (rt.redactValue run.payload))

/-- The builder of the report takes `follow_up_after_days`. -/
def ReportReady (run : PreparedRun) (reportType : ReportType) : Prop :=
  run.clientId = none ∨ reportType = .qbr ∨ reportType = .automationOpportunity ∨
    integerBetween run.payload "follow_up_after_days" 14 1 90

/-- The step has its inputs, and its tool or its report takes them. -/
structure StepReady (rt : Runtime) (taken : Taken) (run : PreparedRun) (ticket : PlaybookTicket)
    (step : MspPlaybookStep) : Prop where
  present : ∀ key ∈ step.requiredInputs, key ∈ run.payload.keys
  accepted : match step.kind with
    | .workflow templateId =>
        ∀ template, getWorkflowTemplate templateId = some template →
          TemplateReady rt taken run ticket template
    | .report reportType => ReportReady run reportType

/-- The steps are ready up to the first at which the loop stops whatever is answered. -/
def StepsReady (rt : Runtime) (taken : Taken) (run : PreparedRun) (ticket : PlaybookTicket) :
    List MspPlaybookStep → Prop
  | [] => True
  | step :: steps =>
      StepReady rt taken run ticket step ∧
        (¬ Halts run step → StepsReady rt taken run ticket steps)

/-- Every run that is prepared has its steps ready, for any ticket that is not in quarantine. -/
def RequestReady (rt : Runtime) (taken : Taken) (request : PlaybookRunRequest)
    (view : StoreView) : Prop :=
  ∀ run, prepare rt request view = .ok run →
    ∀ ticket, ticket.clientId ≠ some quarantineClientId →
      StepsReady rt taken run ticket run.playbook.steps

/-! ## What the checks say -/

variable {template : WorkflowTemplate}

section Checks

variable {rt : Runtime} {payload : Payload} {request : PlaybookRunRequest} {view : StoreView}
  {run : PreparedRun}

theorem boundedWorkflowPayload_eq {safe : Payload}
    (h : boundedWorkflowPayload rt template payload = .ok safe) :
      safe = rt.redactValue payload := by
  simp only [boundedWorkflowPayload, bind_eq_ok, pure_eq_ok] at h
  obtain ⟨_, _, _, _, _, _, _, _, hsafe⟩ := h
  exact hsafe.symm

theorem boundedPlaybookPayload_eq {safe : Payload}
    (h : boundedPlaybookPayload rt payload = .ok safe) : safe = rt.redactValue payload := by
  simp only [boundedPlaybookPayload, bind_eq_ok, pure_eq_ok] at h
  obtain ⟨_, _, _, _, hsafe⟩ := h
  exact hsafe.symm

/-- A report that the preview takes is built, unless its builder turns `follow_up_after_days`
down. -/
theorem reportInput_of_validate {stepId : String} {reportType : ReportType}
    (h : validateReportInput rt stepId reportType payload = .ok ()) (clientId : ClientId) :
    ((reportType = .qbr ∨ reportType = .automationOpportunity ∨
        integerBetween payload "follow_up_after_days" 14 1 90) →
      ∃ input, reportInput rt stepId reportType clientId payload = .ok input) ∧
    (¬ (reportType = .qbr ∨ reportType = .automationOpportunity ∨
        integerBetween payload "follow_up_after_days" 14 1 90) →
      InputError (reportInput rt stepId reportType clientId payload)) := by
  simp only [validateReportInput, bind_eq_ok, raiseIf_eq_ok] at h
  obtain ⟨⟨periodStart, periodEnd⟩, htexts, ⟨first, last⟩, hiso, _, hle, -⟩ := h
  have hperiod : period rt periodStart periodEnd = .ok () := by
    simp [period, hiso, ok_bind, hle]
  rw [← or_assoc]
  by_cases hbuilt : reportType = .qbr ∨ reportType = .automationOpportunity
  · refine ⟨fun _ => ?_, fun hready => absurd (.inl hbuilt) hready⟩
    exact ⟨_, by simp [reportInput, htexts, ok_bind, hbuilt, hperiod]; rfl⟩
  · simp only [reportInput, htexts, ok_bind, hbuilt, if_false, integerBetween, hperiod, false_or]
    cases int? ((JsonValue.get? payload "follow_up_after_days").getD (.int 14)) with
    | none => exact ⟨fun h => by simp at h, fun _ => ⟨_, rfl⟩⟩
    | some days =>
        simp only [decide_eq_true_eq]
        refine ⟨fun hdays => ?_, fun hdays => ?_⟩
        · simp only [raiseIf_of_not (not_not.mpr hdays), ok_bind]
          exact ⟨_, rfl⟩
        · refine ⟨"follow_up_after_days must be an integer between 1 and 90", ?_⟩
          simp only [raiseIf, if_pos hdays]
          rfl

/-- The preview has taken the step, and a step of a workflow has its ticket. -/
def Previewed (rt : Runtime) (run : PreparedRun) (step : MspPlaybookStep) : Prop :=
  match step.kind with
  | .workflow templateId =>
      ∃ template, getWorkflowTemplate templateId = some template ∧
        boundedWorkflowPayload rt template run.payload = .ok (rt.redactValue run.payload) ∧
        ∃ ticketId, run.ticketId = some ticketId
  | .report reportType => validateReportInput rt step.id reportType run.payload = .ok ()

theorem ticketId_of_validate {playbook : MspPlaybookDefinition} {ticketId clientId : Option String}
    {ticket : Option PlaybookTicket} {effective : Option ClientId} {step : MspPlaybookStep}
    {templateId : String}
    (h : validateScopeAndTicket playbook ticketId clientId ticket = .ok effective)
    (hstep : step ∈ playbook.steps) (hkind : step.kind = .workflow templateId) :
    ∃ id, ticketId = some id := by
  cases ticketId with
  | some id => exact ⟨id, rfl⟩
  | none =>
      have hany : (playbook.steps.any fun step => step.kind.isWorkflow) = true :=
        List.any_eq_true.mpr ⟨step, hstep, by simp [hkind, StepKind.isWorkflow]⟩
      simp only [validateScopeAndTicket, Option.filter_none, hany, if_true, reduceCtorEq] at h

theorem previewed_of_prepare (h : prepare rt request view = .ok run) :
    run.payload = rt.redactValue request.inputPayload ∧
      ∀ step ∈ run.playbook.steps, Previewed rt run step := by
  simp only [prepare, bind_eq_ok, pure_eq_ok] at h
  obtain ⟨playbook, _, payload, hpayload, clientId, hclient, planned, hplanned, rfl⟩ := h
  refine ⟨boundedPlaybookPayload_eq hpayload, ?_⟩
  intro step hstep
  obtain ⟨plan, -, hplan⟩ := exists_mem_of_mapM hplanned step hstep
  cases hkind : step.kind with
  | workflow templateId =>
      simp only [previewStep, hkind, bind_eq_ok, validateWorkflowInput] at hplan
      obtain ⟨safe, hsafe, -⟩ := hplan
      cases htemplate : getWorkflowTemplate templateId with
      | none => simp [htemplate] at hsafe
      | some template =>
          simp only [htemplate] at hsafe
          simp only [Previewed, hkind]
          refine ⟨template, htemplate, ?_, ticketId_of_validate hclient hstep hkind⟩
          rw [hsafe, boundedWorkflowPayload_eq hsafe]
  | report reportType =>
      simp only [previewStep, hkind, bind_eq_ok] at hplan
      obtain ⟨_, hreport, -⟩ := hplan
      simp only [Previewed, hkind]
      exact hreport

end Checks

/-! ## Ready steps meet their inputs -/

section Ready

variable {rt : Runtime} {taken : Taken} {run : PreparedRun} {α β : Type}

/-- What a call returns meets `P`, and what it raises is not about its input. -/
def Ends (P : α → Prop) : Except PlaybookError α → Prop
  | .ok result => P result
  | .error e => ∀ message, e ≠ .input message

/-- The program calls tools with payloads alone that they take, and ends so. -/
def Sound (taken : Taken) (P : α → Prop) (p : PlaybookCall α) : Prop :=
  ∀ events, Follows (recorder fun _ a => TakesPayload taken a) (fun _ x => Ends P x) events p.run

theorem sound_bind {P : α → Prop} {P' : β → Prop} {p : PlaybookCall α}
    {f : α → PlaybookCall β} (hp : Sound taken P p)
    (hf : ∀ x, P x → Sound taken P' (f x)) : Sound taken P' (p >>= f) :=
  fun events => (hp events).bindExcept (fun events x hx => hf x hx events) fun _ _ he => he

theorem sound_map {P : α → Prop} {P' : β → Prop} {p : PlaybookCall α} (f : α → β)
    (hp : Sound taken P p) (hf : ∀ x, P x → P' (f x)) : Sound taken P' (f <$> p) := by
  rw [map_eq_pure_bind]
  exact sound_bind hp fun x hx _ => hf x hx

theorem sound_pure {P : α → Prop} {x : α} (hx : P x) :
    Sound taken P (pure x : PlaybookCall α) := fun _ => hx

theorem sound_throw {P : α → Prop} {e : PlaybookError} (he : ∀ message, e ≠ .input message) :
    Sound taken P (throw e : PlaybookCall α) := fun _ => he

theorem sound_compute {P : α → Prop} {x : Except PlaybookError α} (hx : Ends P x) :
    Sound taken P (compute x) := fun _ => hx

theorem sound_ask {a : StepAction} {P : a.Returns → Prop}
    (ha : TakesPayload taken (.call a)) (hpost : ∀ result, P result) :
    Sound taken P (ask a) := by
  intro events
  refine ⟨ha, fun answer => ?_⟩
  cases answer with
  | ok result => exact hpost result
  | error e =>
      intro message h
      cases h

/-- A template that the loop goes on after is not one at which it halts. -/
theorem sound_runTemplateTool {ticketId : String}
    {ticket : PlaybookTicket} (hticket : run.ticketId = some ticketId)
    (hready : TemplateReady rt taken run ticket template) (clientId : Option ClientId) :
    Sound taken
      (fun result : Option ToolResult =>
        (result = none → template.toolId = none) ∧
          (result ≠ none → ¬ TemplateHalts run.toolExecutor template))
      (runTemplateTool run template ticketId ticket clientId (rt.redactValue run.payload)) := by
  unfold runTemplateTool
  split
  next htool => exact sound_pure ⟨fun _ => htool, fun h => absurd rfl h⟩
  next toolId htool =>
    split
    next hexecutor =>
      refine sound_map some (sound_ask (P := fun _ => True)
        (hready toolId ticketId htool hexecutor hticket) fun _ => trivial) ?_
      simp [TemplateHalts, htool, hexecutor]
    next => exact sound_throw (by simp)

theorem sound_gate {result : Option ToolResult}
    (hnone : result = none → template.toolId = none)
    (hsome : result ≠ none → ¬ TemplateHalts run.toolExecutor template)
    (ticketId message : String) (clientId : Option ClientId) :
    Sound taken
      (fun gated : WorkflowStatus × Option ℕ =>
        gated.1 = .completed → ¬ TemplateHalts run.toolExecutor template)
      (gate template ticketId message clientId result) := by
  cases result with
  | some result => exact sound_pure fun _ => hsome (by simp)
  | none =>
      simp only [gate]
      split
      next =>
        refine sound_bind (sound_ask (P := fun _ => True) trivial fun _ => trivial) ?_
        intro approvalId _
        exact sound_pure (by simp)
      next happroval =>
        exact sound_pure fun _ => by simp [TemplateHalts, hnone rfl, happroval]

theorem sound_runOnTicket {ticketId : String}
    {ticket : PlaybookTicket} (hticket : run.ticketId = some ticketId)
    (hbounded : boundedWorkflowPayload rt template run.payload = .ok (rt.redactValue run.payload))
    (hready : TemplateReady rt taken run ticket template) :
    Sound taken
      (fun workflowRun : WorkflowRun =>
        workflowRun.status = .completed → ¬ TemplateHalts run.toolExecutor template)
      (runOnTicket rt run template ticketId ticket) := by
  unfold runOnTicket
  rw [hbounded]
  refine sound_bind (P := fun safe => safe = rt.redactValue run.payload)
    (sound_compute rfl) ?_
  rintro safe rfl
  refine sound_bind (sound_runTemplateTool hticket hready _) ?_
  rintro result ⟨hnone, hsome⟩
  refine sound_bind (sound_gate hnone hsome ticketId _ _) ?_
  rintro ⟨status, approvalRequestId⟩ hstatus
  refine sound_bind (sound_ask (P := fun _ => True) trivial fun _ => trivial) ?_
  exact fun id _ => sound_pure hstatus

theorem sound_runWorkflowTemplate {templateId ticketId : String}
    (htemplate : getWorkflowTemplate templateId = some template)
    (hticket : run.ticketId = some ticketId)
    (hbounded : boundedWorkflowPayload rt template run.payload = .ok (rt.redactValue run.payload))
    (hready : ∀ ticket, ticket.clientId ≠ some quarantineClientId →
      TemplateReady rt taken run ticket template) :
    Sound taken
      (fun workflowRun? : Option WorkflowRun =>
        ∀ workflowRun, workflowRun? = some workflowRun → workflowRun.status = .completed →
          ¬ TemplateHalts run.toolExecutor template)
      (runWorkflowTemplate rt run templateId ticketId) := by
  unfold runWorkflowTemplate
  simp only [htemplate]
  refine sound_bind (sound_ask (P := fun _ => True) trivial fun _ => trivial) ?_
  intro ticket _
  cases ticket with
  | none => exact sound_throw (by simp)
  | some ticket =>
      dsimp only
      split
      · exact sound_pure (by simp)
      · next hquarantine =>
          refine sound_map some (sound_runOnTicket hticket hbounded (hready ticket hquarantine)) ?_
          rintro workflowRun hrun _ ⟨rfl⟩
          exact hrun

theorem sound_runReportStep {stepId : String} {reportType : ReportType}
    (hvalid : validateReportInput rt stepId reportType run.payload = .ok ())
    (hready : ReportReady run reportType) :
    Sound taken (fun _ => run.clientId ≠ none) (runReportStep rt run stepId reportType) := by
  unfold runReportStep
  split
  next hclient => exact sound_throw (by simp)
  next clientId hclient =>
    rw [hvalid]
    refine sound_bind (P := fun _ => True) (sound_compute trivial) fun _ _ => ?_
    refine sound_bind (P := fun _ => True) (sound_compute ?_) fun input _ => ?_
    · obtain ⟨input, hinput⟩ := (reportInput_of_validate hvalid clientId).1
        (hready.resolve_left (by simp [hclient]))
      rw [hinput]
      trivial
    · exact sound_ask trivial fun _ => by simp [hclient]

theorem sound_runStep {step : MspPlaybookStep} (hstep : Previewed rt run step)
    (hready : ∀ ticket, ticket.clientId ≠ some quarantineClientId →
      StepReady rt taken run ticket step) :
    Sound taken (fun outcome => goesOn (.ok outcome) → ¬ Halts run step) (runStep rt run step) := by
  unfold runStep
  cases hkind : step.kind with
  | workflow templateId =>
      simp only [Previewed, hkind] at hstep
      obtain ⟨template, htemplate, hbounded, ticketId, hticket⟩ := hstep
      have htool : ∀ ticket, ticket.clientId ≠ some quarantineClientId →
          TemplateReady rt taken run ticket template := by
        intro ticket hquarantine
        have haccepted := (hready ticket hquarantine).accepted
        simp only [hkind] at haccepted
        exact haccepted template htemplate
      simp only [hticket, Halts, hkind, htemplate]
      refine sound_bind (sound_runWorkflowTemplate htemplate hticket hbounded htool) ?_
      intro workflowRun? hruns
      cases workflowRun? with
      | none => exact sound_pure (by simp [goesOn])
      | some workflowRun =>
          refine sound_bind (sound_ask (P := fun _ => True) trivial fun _ => trivial) ?_
          intro _ _
          refine sound_pure fun hcompleted hhalts => ?_
          exact hruns workflowRun rfl (by simpa [goesOn] using hcompleted) (hhalts template rfl)
  | report reportType =>
      simp only [Previewed, hkind] at hstep
      have haccepted := (hready ⟨none, "", ""⟩ (by simp)).accepted
      simp only [hkind] at haccepted
      refine sound_map _ (sound_runReportStep hstep haccepted) ?_
      intro report hclient _
      simpa [Halts, hkind] using hclient

/-- Steps that are ready meet their inputs. -/
theorem follows_runSteps (steps : List MspPlaybookStep)
    (hpreviewed : ∀ step ∈ steps, Previewed rt run step)
    (hready : ∀ ticket, ticket.clientId ≠ some quarantineClientId →
      StepsReady rt taken run ticket steps) (events) :
    Follows (recorder fun _ a => TakesPayload taken a)
      (fun _ started => ∀ s ∈ started, InputsMet run.payload s) events (runSteps rt run steps) := by
  induction steps generalizing events with
  | nil => exact fun s hs => nomatch hs
  | cons step steps ih =>
      unfold runSteps
      have hstep := sound_runStep (hpreviewed step (by simp))
        (fun ticket hquarantine => (hready ticket hquarantine).1) events
      refine Follows.bind hstep ?_
      intro events ending hending
      have hmet : InputsMet run.payload { step, ending } := by
        refine ⟨(hready ⟨none, "", ""⟩ (by simp)).1.present, ?_⟩
        rintro ⟨message, rfl⟩
        exact hending message rfl
      split
      next hgoes =>
        refine Follows.bind (ih (fun step hstep => hpreviewed step (by simp [hstep])) ?_ events) ?_
        · intro ticket hquarantine
          refine (hready ticket hquarantine).2 ?_
          cases ending with
          | ok outcome => exact hending hgoes
          | error e => simp [goesOn] at hgoes
        · intro events later hlater s hs
          rcases List.mem_cons.mp hs with rfl | hs
          · exact hmet
          · exact hlater s hs
      next =>
        intro s hs
        rw [List.mem_singleton] at hs
        exact hs ▸ hmet

end Ready

/-! ## A run in which nothing else stands in the way -/

section Helpful

variable {rt : Runtime} {taken : Taken} {run : PreparedRun} {ticket : PlaybookTicket} {α β : Type}

open Classical in
/-- The ticket is found, the tools succeed on what they take, and no other call raises. -/
noncomputable def helpful (taken : Taken) (ticket : PlaybookTicket) :
    (a : PlaybookAction) → a.Answer
  | .addAuditEvent .. => ()
  | .call (.getTicket ..) => .ok (some ticket)
  | .call (.invoke toolId payload _ _) =>
      if taken toolId payload then .ok { status := "success" }
      else .error ⟨"ValueError", "payload is not taken"⟩
  | .call (.createApprovalRequest ..) => .ok (1 : ℕ)
  | .call (.createWorkflowRun ..) => .ok (1 : ℕ)
  | .call (.onWorkflowRun _) => .ok ()
  | .call (.createReport ..) => .ok ⟨"report", "recorded"⟩

theorem honours_helpful (taken : Taken) (ticket : PlaybookTicket) :
    Honours taken fun _ => helpful taken ticket := by
  intro n toolId payload actor clientId htaken
  simp [helpful, htaken, Succeeds]

/-- What a call returns or raises, and its events. -/
noncomputable def helped (taken : Taken) (ticket : PlaybookTicket) (p : PlaybookCall α) :
    Except PlaybookError α × List (Σ a : PlaybookAction, a.Answer) :=
  p.run.traced fun _ => helpful taken ticket

theorem helped_bind (p : PlaybookCall α) (f : α → PlaybookCall β) :
    helped taken ticket (p >>= f) =
      match helped taken ticket p with
      | (.ok x, events) =>
          ((helped taken ticket (f x)).1, events ++ (helped taken ticket (f x)).2)
      | (.error e, events) => (.error e, events) := by
  unfold helped
  rw [traced_bindExcept]
  rcases p.run.traced fun _ => helpful taken ticket with ⟨result, events⟩
  cases result with
  | ok x => rfl
  | error e => rfl

/-- The call returns a result that meets `P`. -/
def Does (taken : Taken) (ticket : PlaybookTicket) (P : α → Prop) (p : PlaybookCall α) : Prop :=
  ∃ result, (helped taken ticket p).1 = .ok result ∧ P result

theorem does_bind {P : α → Prop} {P' : β → Prop} {p : PlaybookCall α}
    {f : α → PlaybookCall β} (hp : Does taken ticket P p)
    (hf : ∀ x, P x → Does taken ticket P' (f x)) : Does taken ticket P' (p >>= f) := by
  obtain ⟨x, hx, hpost⟩ := hp
  obtain ⟨y, hy, hpost'⟩ := hf x hpost
  refine ⟨y, ?_, hpost'⟩
  rw [helped_bind]
  generalize helped taken ticket p = outcome at hx ⊢
  obtain ⟨result, events⟩ := outcome
  subst hx
  exact hy

theorem does_pure {P : α → Prop} {x : α} (hx : P x) :
    Does taken ticket P (pure x : PlaybookCall α) := ⟨x, rfl, hx⟩

theorem does_map {P : α → Prop} {P' : β → Prop} {p : PlaybookCall α} (f : α → β)
    (hp : Does taken ticket P p) (hf : ∀ x, P x → P' (f x)) :
    Does taken ticket P' (f <$> p) := by
  rw [map_eq_pure_bind]
  exact does_bind hp fun x hx => does_pure (hf x hx)

theorem does_compute {P : α → Prop} {x : α} (hx : P x) :
    Does taken ticket P (compute (.ok x)) := ⟨x, rfl, hx⟩

theorem does_ask (a : StepAction) {P : a.Returns → Prop} {result : a.Returns}
    (ha : helpful taken ticket (.call a) = .ok result) (hpost : P result) :
    Does taken ticket P (ask a) := by
  refine ⟨result, ?_, hpost⟩
  have hask : (helped taken ticket (ask a)).1 = answered (helpful taken ticket (.call a)) := rfl
  rw [hask, ha]
  rfl

/-- The call fails on its input: by a check, or because a tool turns its payload down. -/
def FailsOnInput (taken : Taken) (ticket : PlaybookTicket) (p : PlaybookCall α) : Prop :=
  InputError (helped taken ticket p).1 ∨
    ∃ event ∈ (helped taken ticket p).2, ¬ TakesPayload taken event.1

theorem FailsOnInput.bind {p : PlaybookCall α} {f : α → PlaybookCall β}
    (hp : FailsOnInput taken ticket p) : FailsOnInput taken ticket (p >>= f) := by
  unfold FailsOnInput at hp ⊢
  rw [helped_bind]
  generalize helped taken ticket p = outcome at hp ⊢
  obtain ⟨result, events⟩ := outcome
  rcases hp with ⟨message, rfl⟩ | ⟨event, hevent, hrefused⟩
  · exact .inl ⟨message, rfl⟩
  · right
    cases result with
    | ok x => exact ⟨event, List.mem_append_left _ hevent, hrefused⟩
    | error e => exact ⟨event, hevent, hrefused⟩

theorem Does.failsOnInput {P : α → Prop} {p : PlaybookCall α} {f : α → PlaybookCall β}
    (hp : Does taken ticket P p) (hf : ∀ x, P x → FailsOnInput taken ticket (f x)) :
    FailsOnInput taken ticket (p >>= f) := by
  obtain ⟨x, hx, hpost⟩ := hp
  have hfails := hf x hpost
  unfold FailsOnInput at hfails ⊢
  rw [helped_bind]
  generalize helped taken ticket p = outcome at hx ⊢
  obtain ⟨result, events⟩ := outcome
  subst hx
  refine hfails.imp id ?_
  rintro ⟨event, hevent, hrefused⟩
  exact ⟨event, List.mem_append_right _ hevent, hrefused⟩

theorem FailsOnInput.map {p : PlaybookCall α} (f : α → β) (hp : FailsOnInput taken ticket p) :
    FailsOnInput taken ticket (f <$> p) := by
  rw [map_eq_pure_bind]
  exact hp.bind

theorem failsOnInput_invoke {toolId : String} {payload : Payload} (actor : String)
    (clientId : Option ClientId) (htaken : ¬ taken toolId payload) :
    FailsOnInput taken ticket (ask (.invoke toolId payload actor clientId)) :=
  .inr ⟨_, List.mem_singleton.mpr rfl, htaken⟩

theorem helpful_invoke {toolId : String} {payload : Payload} (htaken : taken toolId payload)
    (actor : String) (clientId : Option ClientId) :
    helpful taken ticket (.call (.invoke toolId payload actor clientId)) =
      .ok { status := "success" } := by
  simp [helpful, htaken]

/-! ## Steps in such a run -/

section Template

variable {template : WorkflowTemplate} {ticketId : String}

theorem does_runOnTicket (hticket : run.ticketId = some ticketId)
    (hbounded : boundedWorkflowPayload rt template run.payload = .ok (rt.redactValue run.payload))
    (hready : TemplateReady rt taken run ticket template)
    (hhalts : ¬ TemplateHalts run.toolExecutor template) :
    Does taken ticket (fun workflowRun => workflowRun.status = .completed)
      (runOnTicket rt run template ticketId ticket) := by
  unfold runOnTicket
  rw [hbounded]
  refine does_bind (P := fun safe => safe = rt.redactValue run.payload) (does_compute rfl) ?_
  rintro safe rfl
  refine does_bind (P := fun result : Option ToolResult =>
    (gate template ticketId (workflowMessage rt template ticketId ticket result)
      (run.clientId <|> ticket.clientId) result) = pure (.completed, none)) ?_ ?_
  · unfold runTemplateTool
    cases htool : template.toolId with
    | none =>
        simp only [TemplateHalts, htool] at hhalts
        exact does_pure (by simp [gate, hhalts])
    | some toolId =>
        simp only [TemplateHalts, htool, Bool.not_eq_false] at hhalts
        simp only [hhalts, if_true]
        exact does_map some
          (does_ask (.invoke toolId _ _ _)
            (P := fun (result : ToolResult) => result = { status := "success" })
            (helpful_invoke (hready toolId ticketId htool hhalts hticket) _ _) rfl)
          (by rintro result rfl; rfl)
  · intro result hgate
    dsimp only
    rw [hgate]
    refine does_bind (P := fun gated => gated = (.completed, none)) (does_pure rfl) ?_
    rintro gated rfl
    exact does_bind (P := fun _ => True)
      (does_ask (.createWorkflowRun _ _ _ _ _ _ _) rfl trivial) fun _ _ => does_pure rfl

theorem failsOnInput_runOnTicket (hticket : run.ticketId = some ticketId)
    (hbounded : boundedWorkflowPayload rt template run.payload = .ok (rt.redactValue run.payload))
    (hready : ¬ TemplateReady rt taken run ticket template) :
    FailsOnInput taken ticket (runOnTicket rt run template ticketId ticket) := by
  unfold TemplateReady at hready
  push Not at hready
  obtain ⟨toolId, id, htool, hexecutor, hid, htaken⟩ := hready
  rw [hticket, Option.some.injEq] at hid
  subst hid
  unfold runOnTicket
  rw [hbounded]
  refine Does.failsOnInput (P := fun safe => safe = rt.redactValue run.payload)
    (does_compute rfl) ?_
  rintro safe rfl
  refine FailsOnInput.bind ?_
  simp only [runTemplateTool, htool, hexecutor, if_true]
  exact (failsOnInput_invoke _ _ htaken).map some

end Template

theorem does_runStep {step : MspPlaybookStep} (hstep : Previewed rt run step)
    (hquarantine : ticket.clientId ≠ some quarantineClientId)
    (hready : StepReady rt taken run ticket step) (hhalts : ¬ Halts run step) :
    Does taken ticket (fun outcome => goesOn (.ok outcome) = true) (runStep rt run step) := by
  have haccepted := hready.accepted
  unfold runStep
  cases hkind : step.kind with
  | workflow templateId =>
      simp only [Previewed, hkind] at hstep
      obtain ⟨template, htemplate, hbounded, ticketId, hticket⟩ := hstep
      simp only [hkind] at haccepted
      simp only [Halts, hkind, htemplate, Option.some.injEq, forall_eq'] at hhalts
      simp only [hticket, runWorkflowTemplate, htemplate]
      refine does_bind (P := fun workflowRun? =>
        ∃ workflowRun : WorkflowRun, workflowRun? = some workflowRun ∧
          workflowRun.status = .completed) ?_ ?_
      · refine does_bind (P := fun found => found = some ticket)
          (does_ask (.getTicket ticketId run.clientId) rfl rfl) ?_
        rintro found rfl
        simp only [hquarantine, if_false]
        exact does_map some
          (does_runOnTicket hticket hbounded (haccepted template htemplate) hhalts)
          fun workflowRun hcompleted => ⟨workflowRun, rfl, hcompleted⟩
      · rintro workflowRun? ⟨workflowRun, rfl, hcompleted⟩
        refine does_bind (P := fun _ => True)
          (does_ask (.onWorkflowRun workflowRun) rfl trivial) fun _ _ => ?_
        exact does_pure (by simp [goesOn, hcompleted])
  | report reportType =>
      simp only [Previewed, hkind] at hstep
      simp only [hkind] at haccepted
      simp only [Halts, hkind] at hhalts
      obtain ⟨clientId, hclient⟩ := Option.ne_none_iff_exists'.mp hhalts
      obtain ⟨input, hinput⟩ := (reportInput_of_validate hstep clientId).1
        (haccepted.resolve_left hhalts)
      simp only [runReportStep, hclient, hstep, hinput]
      refine does_map (P := fun _ => True) (StepOutcome.report reportType) ?_ fun _ _ => rfl
      refine does_bind (P := fun _ => True) (does_compute trivial) fun _ _ => ?_
      exact does_bind (P := fun _ => True) (does_compute trivial) fun input _ =>
        does_ask (.createReport input _) rfl trivial

/-- A step that the preview takes fails on its input when its tool or its report turns it down. -/
theorem failsOnInput_runStep {step : MspPlaybookStep} (hstep : Previewed rt run step)
    (hquarantine : ticket.clientId ≠ some quarantineClientId)
    (hpresent : ∀ key ∈ step.requiredInputs, key ∈ run.payload.keys)
    (hready : ¬ StepReady rt taken run ticket step) :
    FailsOnInput taken ticket (runStep rt run step) := by
  have haccepted := fun h => hready ⟨hpresent, h⟩
  unfold runStep
  cases hkind : step.kind with
  | workflow templateId =>
      simp only [Previewed, hkind] at hstep
      obtain ⟨template, htemplate, hbounded, ticketId, hticket⟩ := hstep
      simp only [hkind, htemplate, Option.some.injEq, forall_eq', imp_false] at haccepted
      simp only [hticket, runWorkflowTemplate, htemplate]
      refine FailsOnInput.bind ?_
      refine Does.failsOnInput (P := fun found => found = some ticket)
        (does_ask (.getTicket ticketId run.clientId) rfl rfl) ?_
      rintro found rfl
      simp only [hquarantine, if_false]
      exact (failsOnInput_runOnTicket hticket hbounded haccepted).map some
  | report reportType =>
      simp only [Previewed, hkind] at hstep
      simp only [hkind, imp_false, ReportReady, not_or] at haccepted
      obtain ⟨clientId, hclient⟩ := Option.ne_none_iff_exists'.mp haccepted.1
      obtain ⟨message, hinput⟩ := (reportInput_of_validate hstep clientId).2
        (by simpa only [not_or] using haccepted.2)
      simp only [runReportStep, hclient, hstep, hinput]
      refine FailsOnInput.map _ ?_
      refine Does.failsOnInput (P := fun _ => True) (does_compute trivial) fun _ _ => ?_
      exact FailsOnInput.bind (.inl ⟨message, rfl⟩)

/-! ## The loop in such a run -/

/-- A step that lacks an input or fails on one, or a tool that turns its payload down. -/
def Violates (taken : Taken) (payload : Payload) (started : List StartedStep)
    (events : List (Σ a : PlaybookAction, a.Answer)) : Prop :=
  (∃ s ∈ started, ¬ InputsMet payload s) ∨ ∃ event ∈ events, ¬ TakesPayload taken event.1

theorem runSteps_first (rt : Runtime) (taken : Taken) (run : PreparedRun) (ticket : PlaybookTicket)
    (step : MspPlaybookStep) (steps : List MspPlaybookStep) :
    ∃ later events,
      (runSteps rt run (step :: steps)).traced (fun _ => helpful taken ticket) =
        ({ step, ending := (helped taken ticket (runStep rt run step)).1 } :: later,
          (helped taken ticket (runStep rt run step)).2 ++ events) ∧
      (goesOn (helped taken ticket (runStep rt run step)).1 →
        (runSteps rt run steps).traced (fun _ => helpful taken ticket) = (later, events)) := by
  unfold helped
  rw [runSteps, traced_bind]
  generalize (runStep rt run step).run.traced (fun _ => helpful taken ticket) = first
  obtain ⟨ending, events⟩ := first
  by_cases hgoes : goesOn ending
  · simp only [hgoes, if_true, traced_bind]
    exact ⟨_, _, by simp [traced], fun _ => rfl⟩
  · simp only [hgoes]
    exact ⟨[], [], by simp [traced], fun h => absurd h (by simp)⟩

theorem violates_of_not_ready (hquarantine : ticket.clientId ≠ some quarantineClientId)
    (steps : List MspPlaybookStep) (hpreviewed : ∀ step ∈ steps, Previewed rt run step)
    (hready : ¬ StepsReady rt taken run ticket steps) :
    Violates taken run.payload
      ((runSteps rt run steps).traced fun _ => helpful taken ticket).1
      ((runSteps rt run steps).traced fun _ => helpful taken ticket).2 := by
  induction steps with
  | nil => exact absurd trivial hready
  | cons step steps ih =>
      obtain ⟨later, events, htraced, hlater⟩ :=
        runSteps_first rt taken run ticket step steps
      have hfirst := hpreviewed step (by simp)
      rw [htraced]
      by_cases hpresent : ∀ key ∈ step.requiredInputs, key ∈ run.payload.keys
      · by_cases hstep : StepReady rt taken run ticket step
        · have hrest : ¬ Halts run step ∧ ¬ StepsReady rt taken run ticket steps := by
            simpa [StepsReady, hstep] using hready
          obtain ⟨outcome, houtcome, hgoes⟩ := does_runStep hfirst hquarantine hstep hrest.1
          rw [houtcome] at hlater
          have hviolates := ih (fun step hmem => hpreviewed step (by simp [hmem])) hrest.2
          rw [hlater hgoes] at hviolates
          refine hviolates.imp ?_ ?_
          · rintro ⟨s, hs, hmet⟩
            exact ⟨s, List.mem_cons_of_mem _ hs, hmet⟩
          · rintro ⟨event, hevent, hrefused⟩
            exact ⟨event, List.mem_append_right _ hevent, hrefused⟩
        · refine (failsOnInput_runStep hfirst hquarantine hpresent hstep).imp ?_ ?_
          · exact fun herror => ⟨_, List.mem_cons_self, fun hmet => hmet.accepted herror⟩
          · rintro ⟨event, hevent, hrefused⟩
            exact ⟨event, List.mem_append_left _ hevent, hrefused⟩
      · exact .inl ⟨_, List.mem_cons_self, fun hmet => hpresent hmet.present⟩

end Helpful

/-! ## The whole call -/

section Call

variable {rt : Runtime} {taken : Taken} {request : PlaybookRunRequest} {view : StoreView}
  {run : PreparedRun}

theorem follows_addAuditEvent {α : Type} {Q : List (Σ a : PlaybookAction, a.Answer) →
      Except PlaybookError α → Prop} {f : Unit → PlaybookCall α} {events}
    (eventType subjectId message : String) (clientId : Option ClientId)
    (hf : ∀ events, Follows (recorder fun _ a => TakesPayload taken a) Q events (f ()).run) :
    Follows (recorder fun _ a => TakesPayload taken a) Q events
      (addAuditEvent eventType subjectId message clientId >>= f : PlaybookCall α).run :=
  ⟨trivial, fun _ => hf _⟩

theorem follows_runPrepared (hpreviewed : ∀ step ∈ run.playbook.steps, Previewed rt run step)
    (hready : ∀ ticket, ticket.clientId ≠ some quarantineClientId →
      StepsReady rt taken run ticket run.playbook.steps) (runId : String) (events) :
    Follows (recorder fun _ a => TakesPayload taken a)
      (fun _ result => ∃ ended, result = .ok ended ∧ ∀ s ∈ ended.started, InputsMet run.payload s)
      events (runPrepared rt run runId).run := by
  unfold runPrepared
  refine follows_addAuditEvent _ _ _ _ fun events => ?_
  refine Follows.bindExcept
    (Q := fun _ result => ∃ started, result = .ok started ∧ ∀ s ∈ started, InputsMet run.payload s)
    ?_ ?_ ?_
  · exact Follows.bind (follows_runSteps _ hpreviewed hready events) fun _ started h =>
      ⟨started, rfl, h⟩
  · rintro events _ ⟨started, ⟨rfl⟩, hstarted⟩
    dsimp only
    split
    · exact ⟨_, rfl, hstarted⟩
    · exact follows_addAuditEvent _ _ _ _ fun _ => ⟨_, rfl, hstarted⟩
  · rintro _ e ⟨_, h, _⟩
    cases h

theorem runMspPlaybook_of_error {e : PlaybookError} (h : prepare rt request view = .error e)
    (runId : String) (answers : ℕ → (a : PlaybookAction) → a.Answer) :
    (runMspPlaybook rt request view runId).run.traced answers = (.error e, []) := by
  unfold runMspPlaybook
  rw [h]
  rfl

theorem runMspPlaybook_of_ok (h : prepare rt request view = .ok run) (runId : String) :
    runMspPlaybook rt request view runId = runPrepared rt run runId := by
  unfold runMspPlaybook
  rw [h]
  rfl

theorem inputsMet_congr {payload payload' : Payload} (h : payload.keys = payload'.keys)
    {started : StartedStep} (hmet : InputsMet payload started) : InputsMet payload' started :=
  ⟨fun key hkey => h ▸ hmet.present key hkey, hmet.accepted⟩

/-- A run in which nothing else stands in the way ends with the steps that its loop has started. -/
theorem helped_runPrepared (rt : Runtime) (taken : Taken) (run : PreparedRun)
    (ticket : PlaybookTicket) (runId : String) :
    ∃ ended events, helped taken ticket (runPrepared rt run runId) = (.ok ended, events) ∧
      ended.started =
        ((runSteps rt run run.playbook.steps).traced fun _ => helpful taken ticket).1 ∧
      ∀ event ∈ ((runSteps rt run run.playbook.steps).traced fun _ => helpful taken ticket).2,
        event ∈ events := by
  have hsteps : helped taken ticket (ExceptT.lift (runSteps rt run run.playbook.steps)) =
      (.ok ((runSteps rt run run.playbook.steps).traced fun _ => helpful taken ticket).1,
        ((runSteps rt run run.playbook.steps).traced fun _ => helpful taken ticket).2) := by
    refine (traced_bind _ _ _).trans ?_
    simp [traced]
  unfold runPrepared
  rw [helped_bind, helped_bind, hsteps]
  generalize (runSteps rt run run.playbook.steps).traced (fun _ => helpful taken ticket) = steps
  obtain ⟨started, events⟩ := steps
  by_cases hskipped : started.any StartedStep.isSkipped
  · simp only [hskipped, if_true]
    exact ⟨_, _, rfl, rfl, fun event hevent =>
      List.mem_append_right _ (List.mem_append_left _ hevent)⟩
  · simp only [hskipped]
    exact ⟨_, _, rfl, rfl, fun event hevent =>
      List.mem_append_right _ (List.mem_append_left _ hevent)⟩

/-- A prepared run with a step that is not ready fails on its input, if nothing else does. -/
theorem not_complete_of_not_ready (hrun : prepare rt request view = .ok run)
    {ticket : PlaybookTicket} (hquarantine : ticket.clientId ≠ some quarantineClientId)
    (hready : ¬ StepsReady rt taken run ticket run.playbook.steps) :
    ¬ PreflightComplete rt taken request view := by
  intro hcomplete
  obtain ⟨hpayload, hpreviewed⟩ := previewed_of_prepare hrun
  have hkeys : request.inputPayload.keys = run.payload.keys := by
    rw [hpayload, rt.keys_redactValue]
  obtain ⟨ended, events, hended, hstarted, hevents⟩ :=
    helped_runPrepared rt taken run ticket ""
  have hmet := hcomplete "" _ (honours_helpful taken ticket)
  rw [runMspPlaybook_of_ok hrun] at hmet
  unfold helped at hended
  rw [hended] at hmet
  rcases violates_of_not_ready hquarantine _ hpreviewed hready with
    ⟨s, hs, hs'⟩ | ⟨event, hevent, hrefused⟩
  · rw [← hstarted] at hs
    exact hs' (inputsMet_congr hkeys (hmet.1 s hs))
  · exact hrefused (hmet.2 event (hevents event hevent))

/-- The preflight of a request is complete exactly when it is refused, or every step up to the first
at which the loop stops anyway has its inputs, and its tool or its report takes them. -/
theorem preflightComplete_iff :
    PreflightComplete rt taken request view ↔ RequestReady rt taken request view := by
  refine ⟨fun hcomplete run hrun ticket hquarantine => ?_, fun hready runId answers _ => ?_⟩
  · by_contra hnot
    exact not_complete_of_not_ready hrun hquarantine hnot hcomplete
  · cases hrun : prepare rt request view with
    | error e => rw [runMspPlaybook_of_error hrun]
    | ok run =>
        obtain ⟨hpayload, hpreviewed⟩ := previewed_of_prepare hrun
        have hkeys : run.payload.keys = request.inputPayload.keys := by
          rw [hpayload, rt.keys_redactValue]
        have hfollows := follows_runPrepared hpreviewed (hready run hrun) runId []
        obtain ⟨ended, hended, hmet⟩ := hfollows.traced answers
        have hallowed : ∀ event ∈ ((runPrepared rt run runId).run.traced answers).2,
            TakesPayload taken event.1 := by
          intro event hevent
          obtain ⟨before, after, hsplit⟩ := List.append_of_mem hevent
          exact hfollows.allowed_of_traced hsplit
        rw [runMspPlaybook_of_ok hrun]
        generalize (runPrepared rt run runId).run.traced answers = outcome at hended hallowed ⊢
        obtain ⟨result, events⟩ := outcome
        subst hended
        exact ⟨fun s hs => inputsMet_congr hkeys (hmet s hs), hallowed⟩

end Call

/-! ## A request whose second step lacks its input -/

def plainRuntime : Runtime where
  words := .known
  floats := .verbatim
  redactValue := id
  keys_redactValue _ := rfl
  dumpsBytes _ := 26
  isoDate _ := none

def followUpRequest : PlaybookRunRequest where
  playbookId := "inactive-ticket-follow-up-review"
  ticketId := some "T-1"
  inputPayload := [("stale_after_minutes", .int 60)]

def followUpTicket : PlaybookTicket := ⟨some acme, "Printer offline", "It does not print."⟩

def followUpRun : PreparedRun where
  playbook := inactiveTicketFollowUpReview
  payload := [("stale_after_minutes", .int 60)]
  ticketId := some "T-1"
  clientId := some acme
  actor := "playbook"
  toolExecutor := true

/-- The step `follow-up` declares the input `channel`, and is started without it. -/
theorem not_preflightComplete :
    ¬ ∀ rt taken request view, PreflightComplete rt taken request view := by
  intro h
  have hrun : prepare plainRuntime followUpRequest { ticket := some followUpTicket } =
      .ok followUpRun := rfl
  have hquarantine : followUpTicket.clientId ≠ some quarantineClientId := by decide
  refine not_complete_of_not_ready hrun hquarantine ?_ (h _ (fun _ _ => True) _ _)
  rintro ⟨-, hrest⟩
  refine absurd ((hrest fun hhalts => ?_).1.present "channel" (by decide)) (by decide)
  exact absurd (hhalts _ rfl) (by simp [TemplateHalts, followUpRun])

end WaitLocalAgent.Playbooks
