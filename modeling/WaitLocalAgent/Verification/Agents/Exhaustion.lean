import WaitLocalAgent.Verification.Agents.Completion
import WaitLocalAgent.Verification.Agents.Resumption
import WaitLocalAgent.Verification.Agents.Terminal

/-! # Runs that use up their bound

Where the other tools may fill the bound of a definition, the model may leave a tool to the end and
the others may fail until their last attempts: the run is completed without the tool. -/

namespace WaitLocalAgent.AgentRuns

open Foundation Approvals Agents Program
open SmartActions (ActionResult)

/-! ## Surroundings -/

/-- An answer to every question, with the ticket, the moment and the selected tool that a run is to
find, and the status of its next tool. -/
def obliging (ticket : Option Tenancy.Ticket) (minutes : ℕ) (selected : String)
    (status : ActionStatus) : Surroundings where
  answer := fun
    | .ticket _ _ => ticket
    | .context _ _ => .ok ∅
    | .localMinutes _ => some minutes
    | .elapsed => 0
    | .now => ""
    | .revision _ _ _ => none
    | .approvalStatus _ => none
    | .nextTool _ _ _ => some selected
  invoked := .ok { status := status }
  decided := .ok ()
  completed := .ok none

instance : Nonempty Surroundings := ⟨obliging none 0 "" .success⟩

section Rules

variable {rt : RunRuntime} {original definition : AgentDefinition} {life : Life} {α β : Type}
  {run : AgentRun} {state : RunState}

/-- Some answers lead the call to `Q`. -/
abbrev CanConclude (rt : RunRuntime) (original : AgentDefinition) (life : Life) (p : Call α)
    (Q : Except RunError α → Life → Prop) : Prop :=
  p.run.May (lifeAnswer rt original) Q life

/-- Some answers lead the call to a result that meets `P`, with the rows as they were. -/
def CanGive (rt : RunRuntime) (original : AgentDefinition) (life : Life) (p : Call α)
    (P : α → Prop) : Prop :=
  CanConclude rt original life p fun result life' =>
    life'.workspace.runs = life.workspace.runs ∧ ∃ x, result = .ok x ∧ P x

theorem canGive_pure {x : α} {P : α → Prop} (h : P x) : CanGive rt original life (pure x) P :=
  ⟨rfl, x, rfl, h⟩

theorem CanGive.bind_concludes {p : Call α} {f : α → Call β} {P : α → Prop}
    {Q : Except RunError β → Life → Prop} (hp : CanGive rt original life p P)
    (hf : ∀ x life', life'.workspace.runs = life.workspace.runs → P x →
      CanConclude rt original life' (f x) Q) : CanConclude rt original life (p >>= f) Q := by
  refine May.bindExcept hp (fun x life' h => ?_) fun e life' h => by simpa using h.2
  obtain ⟨hruns, y, hy, hP⟩ := h
  cases hy
  exact hf x life' hruns hP

theorem CanGive.bind {p : Call α} {f : α → Call β} {P : α → Prop} {Q : β → Prop}
    (hp : CanGive rt original life p P) (hf : ∀ x life', P x → CanGive rt original life' (f x) Q) :
    CanGive rt original life (p >>= f) Q := by
  refine hp.bind_concludes fun x life' hruns hx => ?_
  exact May.imp (hf x life' hx) fun r life'' h => ⟨h.1.trans hruns, h.2⟩

/-- A question is answered as the surroundings have it. -/
theorem canGive_query {q : Query} (env : Surroundings)
    (hq : (env.under rt original).answer q = env.answer q) :
    CanGive rt original life (query q) fun answer => answer = env.answer q :=
  ⟨env, rfl, _, rfl, hq⟩

theorem canGive_check {condition : Prop} [Decidable condition] {error : RunError}
    (h : ¬ condition) : CanGive rt original life (check condition error) fun _ => True := by
  rw [check, if_neg h]
  exact canGive_pure trivial

theorem canGive_approvalPolicyForTicket {actorRole : Option Access.Role}
    {toolId entityId : String} :
    CanGive rt original life (approvalPolicyForTicket rt definition actorRole toolId entityId)
      fun _ => True := by
  rw [approvalPolicyForTicket]
  split
  · exact canGive_pure trivial
  · split
    · exact canGive_pure trivial
    · refine (canGive_query (obliging none 0 "" .success) rfl).bind fun ticket _ hticket => ?_
      obtain rfl : ticket = none := hticket
      exact canGive_pure trivial

theorem canGive_invokeTool {call : ToolCall} (status : ActionStatus) :
    CanGive rt original life (invokeTool run call) fun result => result.status = status :=
  ⟨obliging none 0 "" status, rfl, _, rfl, rfl⟩

/-- A tool fails until its last attempt. -/
theorem canGive_executeStepAttempts {actor : String} {actorRole : Option Access.Role}
    {step : AgentStep} {recordIndex attempt : ℕ} {records : List StepRecord}
    (hattempt : attempt < maxAttempts step) :
    CanGive rt original life (executeStepAttempts rt definition actor actorRole run step recordIndex
      state attempt records) fun attempts => attempts.result.status = .success ∧
        attempts.records.map StepRecord.toolId = records.map StepRecord.toolId ++
          List.replicate (maxAttempts step - attempt) step.toolId := by
  induction hleft : maxAttempts step - attempt using Nat.strong_induction_on
    generalizing attempt records life with
  | _ left ih =>
      rw [executeStepAttempts]
      refine canGive_approvalPolicyForTicket.bind fun approvalPolicy life₁ _ => ?_
      by_cases hretry : (stepFailurePolicy step).mode = "retry" ∧
          (attempt : ℤ) < (stepFailurePolicy step).maxRetries
      · refine (canGive_invokeTool .failed).bind fun result life₂ hresult => ?_
        have hmore : attempt + 1 < maxAttempts step := by
          rw [maxAttempts, if_pos hretry.1]
          omega
        simp only [hresult, reduceCtorEq, or_self, if_false, dif_pos hretry]
        refine May.imp (ih _ (by omega) hmore rfl) ?_
        rintro r life₃ ⟨hruns, attempts, hr, hsuccess, hrecords⟩
        refine ⟨hruns, attempts, hr, hsuccess, ?_⟩
        have hcount : left = maxAttempts step - (attempt + 1) + 1 := by omega
        rw [hrecords, hcount, List.replicate_succ, List.map_append, List.append_assoc]
        rfl
      · refine (canGive_invokeTool .success).bind fun result life₂ hresult => ?_
        have hlast : left = 1 := by
          unfold maxAttempts at hleft hattempt
          split at hleft
          · rename_i hmode
            rw [if_pos hmode] at hattempt
            have : ¬ (attempt : ℤ) < (stepFailurePolicy step).maxRetries :=
              fun hless => hretry ⟨hmode, hless⟩
            omega
          · rename_i hmode
            rw [if_neg hmode] at hattempt
            omega
        simp only [hresult, true_or, if_true]
        refine canGive_pure ⟨hresult, ?_⟩
        rw [hlast, List.map_append]
        rfl

end Rules

/-! ## The loop -/

section Loop

variable {rt : CatalogRuntime} {original definition : AgentDefinition} {life life' : Life}
  {run : AgentRun} {state : RunState} {toolId : String} {tools : List String}

/-- The records are all of the attempts of some tools, and one tool is not among them. -/
structure Spent (definition : AgentDefinition) (toolId : String) (tools : List String) : Prop where
  whole : ∀ other ∈ tools, other ∈ toolIds definition.steps ∧
    tools.count other = toolAttempts definition.steps other
  left : toolId ∉ tools

theorem Spent.bounded (h : Spent definition toolId tools) : Bounded definition.steps tools := by
  intro other
  by_cases hother : other ∈ tools
  · exact (h.whole other hother).2.le
  · simp [List.count_eq_zero_of_not_mem hother]

/-- While the bound is not reached, another tool is left. -/
theorem Spent.exists_other (h : Spent definition toolId tools)
    (hfills : definition.maxSteps ≤ (∑ other ∈ (toolIds definition.steps).erase toolId,
      toolAttempts definition.steps other : ℕ))
    (hless : (tools.length : ℤ) < definition.maxSteps) :
    ∃ other ∈ toolIds definition.steps, other ≠ toolId ∧ other ∉ tools := by
  by_contra hnone
  push Not at hnone
  have hsub : (toolIds definition.steps).erase toolId ⊆ tools.toFinset := by
    intro other hother
    obtain ⟨hne, hknown⟩ := Finset.mem_erase.mp hother
    exact List.mem_toFinset.mpr (hnone other hknown hne)
  have hsum : ∑ other ∈ (toolIds definition.steps).erase toolId,
      toolAttempts definition.steps other ≤ tools.length := by
    calc ∑ other ∈ (toolIds definition.steps).erase toolId, toolAttempts definition.steps other
        = ∑ other ∈ (toolIds definition.steps).erase toolId, tools.count other :=
          Finset.sum_congr rfl fun other hother =>
            (h.whole other (List.mem_toFinset.mp (hsub hother))).2.symm
      _ ≤ ∑ other ∈ tools.toFinset, tools.count other := Finset.sum_le_sum_of_subset hsub
      _ = tools.length := sum_count tools
  omega

theorem Spent.append (h : Spent definition toolId tools) {step : AgentStep}
    (hfind : definition.steps.find? (fun s => s.toolId == step.toolId) = some step)
    (hfresh : step.toolId ∉ tools) (hne : step.toolId ≠ toolId) :
    Spent definition toolId (tools ++ List.replicate (maxAttempts step) step.toolId) := by
  have hcount : ∀ other, (tools ++ List.replicate (maxAttempts step) step.toolId).count other =
      tools.count other + if step.toolId = other then maxAttempts step else 0 := by
    intro other
    rw [List.count_append, List.count_replicate]
    simp
  refine ⟨fun other hother => ?_, ?_⟩
  · rcases List.mem_append.mp hother with hold | hnew
    · have hother : step.toolId ≠ other := fun heq => hfresh (heq ▸ hold)
      rw [hcount, if_neg hother]
      exact h.whole other hold
    · obtain rfl := (List.mem_replicate.mp hnew).2
      rw [hcount, if_pos rfl, List.count_eq_zero_of_not_mem hfresh, toolAttempts_of_find hfind]
      exact ⟨mem_toolIds.mpr ⟨step, List.mem_of_find?_eq_some hfind, rfl⟩, Nat.zero_add _⟩
  · rw [List.mem_append, List.mem_replicate]
    rintro (hold | ⟨-, heq⟩)
    · exact h.left hold
    · exact hne heq.symm

theorem canGive_readBack {written : AgentRun}
    (h : life.workspace.runs.find? written.id = some written) :
    CanGive rt.toRunRuntime original life (readBack written) fun row => row = written := by
  refine ⟨obliging none 0 "" .success, ?_⟩
  have hanswer : (lifeAnswer rt.toRunRuntime original (.readBack written) life
      (obliging none 0 "" .success)).1 = some written := h
  rw [hanswer]
  exact ⟨rfl, written, rfl, rfl⟩

/-- A write of a stored run, with the row that is read back. -/
theorem canConclude_updateAgentRun {status : RunStatus} {currentStep : ℕ}
    (hrow : life.workspace.runs.find? run.id = some run) :
    CanConclude rt.toRunRuntime original life
      (updateAgentRun rt.toRunRuntime run status currentStep state) fun r life' =>
        ∃ row, r = .ok row ∧ row.id = run.id ∧ row.status = status ∧
          row.state = state.redacted rt.toAgentRuntime ∧
          life'.workspace.runs.find? row.id = some row := by
  refine (canGive_query (obliging none 0 "" .success) rfl).bind_concludes
    fun finishedAt life₁ hruns _ => ?_
  let write : RunWrite :=
    { status, currentStep, state := state.redacted rt.toAgentRuntime, finishedAt }
  rw [← hruns] at hrow
  obtain ⟨hupdated, hstored⟩ := updateRow_stored write hrow
  refine ⟨obliging none 0 "" .success, ?_⟩
  refine (canGive_check (not_not.mpr hupdated)).bind_concludes fun _ life₂ hruns₂ _ => ?_
  have hfound : life₂.workspace.runs.find? (write.apply run).id = some (write.apply run) := by
    rw [hruns₂]
    exact hstored
  refine May.imp (canGive_readBack hfound) ?_
  rintro r life₃ ⟨hruns₃, row, hr, rfl⟩
  exact ⟨_, hr, rfl, rfl, rfl, by rw [hruns₃]; exact hfound⟩

theorem canConclude_selectResultAwareStep {other : String}
    (hreviewed : Reviewed rt.toAgentRuntime definition) (hother : other ∈ toolIds definition.steps)
    (hfresh : other ∉ recordedTools state) :
    CanGive rt.toRunRuntime original life (selectResultAwareStep definition state)
      fun selected => ∃ step, selected = some step ∧ step.toolId = other ∧
        Fresh definition state step := by
  obtain ⟨step, hstep, rfl⟩ := mem_toolIds.mp hother
  have hcandidate : step ∈ candidateSteps definition state :=
    List.mem_filter.mpr ⟨hstep, decide_eq_true ⟨hreviewed.enabled step hstep, hfresh⟩⟩
  obtain ⟨chosen, hchosen⟩ : ∃ chosen, (candidateSteps definition state).find?
      (fun s => s.toolId == step.toolId) = some chosen := by
    rw [← Option.isSome_iff_exists, List.find?_isSome]
    exact ⟨step, hcandidate, by simp⟩
  have hname : chosen.toolId = step.toolId := by simpa using List.find?_some hchosen
  rw [selectResultAwareStep]
  cases hcandidates : candidateSteps definition state with
  | nil =>
      rw [hcandidates] at hcandidate
      cases hcandidate
  | cons first others =>
      refine (canGive_query (obliging none 0 step.toolId .success) rfl).bind
        fun selected life' hselected => ?_
      refine canGive_pure ⟨chosen, ?_, hname, fresh_of_candidate hchosen⟩
      have hnamed : decide (step.toolId ≠ "") = true := decide_eq_true (hreviewed.named step hstep)
      rw [hcandidates] at hchosen
      rw [show selected = some step.toolId from hselected, Option.filter_some, if_pos hnamed,
        Option.bind_some, hchosen, Option.getD_some]

/-- The others fill the bound, and the run is completed without the tool. -/
theorem canConclude_continueResultAware {actor : String} {actorRole : Option Access.Role}
    (hreviewed : Reviewed rt.toAgentRuntime definition)
    (hfills : definition.maxSteps ≤ (∑ other ∈ (toolIds definition.steps).erase toolId,
      toolAttempts definition.steps other : ℕ))
    (hrow : life.workspace.runs.find? run.id = some run)
    (hspent : Spent definition toolId (recordedTools state)) :
    CanConclude rt.toRunRuntime original life
      (continueResultAware rt.toRunRuntime definition actor actorRole none run state)
      fun _ life' => ∃ row, life'.workspace.runs.find? run.id = some row ∧
        row.status = .completed ∧ toolId ∉ recordedTools row.state := by
  induction hmeasure : (definition.maxSteps - state.steps.length).toNat
    using Nat.strong_induction_on generalizing life run state with
  | _ k ih =>
      rw [continueResultAware]
      split
      · rename_i hsteps
        obtain ⟨other, hother, hne, hfresh⟩ := hspent.exists_other hfills
          (by simpa [recordedTools] using hsteps)
        refine (canGive_query (obliging none 0 "" .success) rfl).bind_concludes
          fun elapsed life₁ hruns₁ helapsed => ?_
        have hintime : ¬ definition.executionTimeoutSeconds ≤ elapsed := by
          rw [show elapsed = 0 from helapsed]
          exact not_le.mpr hreviewed.timeout
        rw [if_neg hintime]
        refine (canConclude_selectResultAwareStep hreviewed hother hfresh).bind_concludes ?_
        rintro _ life₂ hruns₂ ⟨step, rfl, rfl, hpicked⟩
        have hstep := List.mem_of_find?_eq_some hpicked.first
        simp only
        rw [if_neg (not_not.mpr (hreviewed.enabled step hstep))]
        refine (canGive_executeStepAttempts (maxAttempts_pos step)).bind_concludes ?_
        rintro attempts life₃ hruns₃ ⟨hsuccess, hrecords⟩
        have hlength := List.length_pos_of_ne_nil attempts.nonempty
        have hless : (definition.maxSteps - (state.extend attempts).steps.length).toNat < k := by
          simp only [RunState.extend, List.length_append]
          omega
        simp only [hsuccess, reduceCtorEq, if_false, if_true]
        have hrow₃ : life₃.workspace.runs.find? run.id = some run := by
          rw [hruns₃, hruns₂, hruns₁]
          exact hrow
        refine May.bindExcept (canConclude_updateAgentRun hrow₃) ?_ ?_
        · rintro row life₄ ⟨row', hr, hid, -, -, hrow₄⟩
          cases hr
          rw [← hid]
          refine ih _ hless hrow₄ ?_ rfl
          have htools : recordedTools (state.extend attempts).resumed = recordedTools state ++
              List.replicate (maxAttempts step) step.toolId := by
            simpa [recordedTools, RunState.extend, RunState.resumed] using hrecords
          rw [htools]
          exact hspent.append hpicked.first hfresh hne
        · rintro e life₄ ⟨row, hr, -⟩
          cases hr
      · have hkept : KeepsTools rt definition := hreviewed.redacted
        have hredacted := recordedTools_redacted hkept hspent.bounded
        refine May.bindExcept (canConclude_updateAgentRun hrow) ?_ ?_
        · rintro row life₁ ⟨row', hr, hid, hstatus, hstate, hrow₁⟩
          cases hr
          refine ⟨row, by rw [← hid]; exact hrow₁, hstatus, ?_⟩
          rw [hstate, recordedTools_redacted hkept (by rw [hredacted]; exact hspent.bounded),
            hredacted]
          exact hspent.left
        · rintro e life₁ ⟨row, hr, -⟩
          cases hr

/-! ## Runs -/

theorem canGive_executionWindowOpen (hreviewed : Reviewed rt.toAgentRuntime definition) :
    CanGive rt.toRunRuntime original life (executionWindowOpen definition)
      fun isOpen => isOpen = true := by
  rw [executionWindowOpen]
  rcases hreviewed.opens with hnone | ⟨start, stop, first, last, hstart, hstop, hfirst, hlast⟩
  · rw [hnone]
    exact canGive_pure rfl
  · rw [hstart]
    -- the run starts at the first minute of the window
    refine (canGive_query (obliging none first "" .success) rfl).bind
      fun minutes life' hminutes => ?_
    obtain rfl : minutes = some first := hminutes
    rw [hstop, Option.bind_some, hfirst, hlast]
    refine canGive_pure ?_
    unfold windowOpen
    split
    · rename_i hless
      simp [hless]
    · simp

theorem canConclude_createAgentRun {request : RunRequest} :
    CanConclude rt.toRunRuntime original life
      (createAgentRun rt.toRunRuntime definition request state) fun r life' =>
        ∃ run, r = .ok run ∧ run.id = life.workspace.runs.lastKey + 1 ∧
          life'.workspace.runs.find? run.id = some run := by
  refine (canGive_query (obliging none 0 "" .success) rfl).bind_concludes
    fun now life₁ hruns _ => ?_
  let draft := newRun rt.toRunRuntime definition request state now
  have hdraft : ∀ n, (draft n).id = n := newRun_id rt.toRunRuntime definition request state now
  have hinserted : CanConclude rt.toRunRuntime original life₁ (ask (.insertRun draft hdraft))
      fun r life₂ => r = .ok (.ok (life₁.workspace.runs.lastKey + 1)) ∧
        life₂.workspace.runs = life₁.workspace.runs.insert draft hdraft :=
    ⟨obliging none 0 "" .success, rfl, rfl⟩
  refine May.bindExcept hinserted ?_ fun e life₂ h => by simpa using h.1
  rintro inserted life₂ ⟨hr, hruns₂⟩
  cases hr
  have hfound : life₂.workspace.runs.find? (draft (life₁.workspace.runs.lastKey + 1)).id =
      some (draft (life₁.workspace.runs.lastKey + 1)) := by
    rw [hruns₂, AutoTable.find?_insert, hdraft]
    exact if_pos rfl
  refine May.imp (canGive_readBack hfound) ?_
  rintro r life₃ ⟨hruns₃, row, hr, rfl⟩
  refine ⟨_, hr, ?_, by rw [hruns₃]; exact hfound⟩
  rw [hdraft, hruns]

/-- The state of a new run has no records. -/
theorem canConclude_beginRun {request : RunRequest} (henabled : definition.enabled = true)
    (hreviewed : Reviewed rt.toAgentRuntime definition) :
    CanConclude rt.toRunRuntime original life (beginRun rt.toRunRuntime definition request)
      fun r life' => ∃ run state, r = .ok (run, state) ∧
        run.id = life.workspace.runs.lastKey + 1 ∧ state.steps = [] ∧
        life'.workspace.runs.find? run.id = some run := by
  refine (canGive_check (not_not.mpr henabled)).bind_concludes fun _ life₁ hruns₁ _ => ?_
  refine (canGive_executionWindowOpen hreviewed).bind_concludes fun isOpen life₂ hruns₂ hopen => ?_
  refine (canGive_check (not_not.mpr hopen)).bind_concludes fun _ life₃ hruns₃ _ => ?_
  refine (canGive_check (not_not.mpr hreviewed.entityType)).bind_concludes
    fun _ life₄ hruns₄ _ => ?_
  have hticket : CanGive rt.toRunRuntime original life₄ (requireTicket definition request.entityId)
      fun _ => True := by
    refine (canGive_query (obliging (some morningTicket) 0 "" .success) rfl).bind
      fun ticket life' hticket => ?_
    obtain rfl : ticket = some morningTicket := hticket
    exact canGive_check (by decide)
  refine hticket.bind_concludes fun _ life₅ hruns₅ _ => ?_
  have hcontext : CanGive rt.toRunRuntime original life₅ (buildContext definition request.entityId)
      fun _ => True := by
    refine (canGive_query (obliging none 0 "" .success) rfl).bind fun context life' hcontext => ?_
    obtain rfl : context = .ok ∅ := hcontext
    exact canGive_pure trivial
  refine hcontext.bind_concludes fun context life₆ hruns₆ _ => ?_
  refine May.bindExcept canConclude_createAgentRun ?_ ?_
  · rintro run life₇ ⟨run', hr, hid, hfound⟩
    cases hr
    refine ⟨run, _, rfl, ?_, rfl, hfound⟩
    rw [hid, hruns₆, hruns₅, hruns₄, hruns₃, hruns₂, hruns₁]
  · rintro e life₇ ⟨run', hr, -⟩
    cases hr

/-- Where the others may fill the bound, some run is completed without a tool. -/
theorem exists_life_without (henabled : definition.enabled = true)
    (haware : definition.resultAware = true)
    (hreviewed : Reviewed rt.toAgentRuntime definition) (hroom : ¬ LeavesRoom definition)
    (runs : AutoTable AgentRun.id) (request : RunRequest) :
    ∃ inputs row, (lives rt.toRunRuntime definition runs request inputs).init.workspace.runs.find?
        (runs.lastKey + 1) = some row ∧
      row.status = .completed ∧ ¬ Complete definition row.state := by
  unfold LeavesRoom at hroom
  push Not at hroom
  obtain ⟨toolId, htool, hfills⟩ := hroom
  have hrun : CanConclude rt.toRunRuntime definition
      { workspace := { runs, events := [] }, selections := 0, most := 0 }
      (AgentRuns.run rt.toRunRuntime definition request) fun _ life => ∃ row,
        life.workspace.runs.find? (runs.lastKey + 1) = some row ∧ row.status = .completed ∧
          toolId ∉ recordedTools row.state := by
    refine May.bindExcept (canConclude_beginRun henabled hreviewed) ?_ ?_
    · rintro ⟨run, state⟩ life₁ ⟨run', state', hr, hid, hsteps, hfound⟩
      cases hr
      have hempty : recordedTools state = [] := by rw [recordedTools, hsteps]; rfl
      simp only [continueRun, haware, if_true]
      refine May.imp (canConclude_continueResultAware hreviewed hfills hfound ?_) ?_
      · rw [hempty]
        exact ⟨by simp, List.not_mem_nil⟩
      · intro r life₂ h
        rwa [hid] at h
    · rintro e life₁ ⟨run', state', hr, -⟩
      cases hr
  obtain ⟨inputs, row, hrow, hstatus, hmissing⟩ := hrun.exists_run
  refine ⟨inputs, row, ?_, hstatus, ?_⟩
  · rw [← hrow]
    simp only [lives, Life.after]
    split <;> simp_all
  · obtain ⟨step, hstep, rfl⟩ := mem_toolIds.mp htool
    exact fun hcomplete => hmissing (hcomplete step hstep (hreviewed.enabled step hstep))

/-! ## Completion -/

/-- Whatever happens to a run, it is completed with a record of every enabled tool alone, and after
at most as many selections as its definition has steps to spend. -/
def CompletesWhole (rt : RunRuntime) (definition : AgentDefinition) : Prop :=
  ∀ (runs : AutoTable AgentRun.id) (request : RunRequest) (inputs : ℕ → Surroundings)
    (calls : List (ResumeCall definition × (ℕ → Surroundings))),
    (∀ row, ((lives rt definition runs request inputs).run calls).workspace.runs.find?
        (runs.lastKey + 1) = some row →
      row.status = .completed → Complete definition row.state) ∧
    (((lives rt definition runs request inputs).run calls).most : ℤ) ≤ definition.maxSteps

theorem not_completesWhole (henabled : definition.enabled = true)
    (haware : definition.resultAware = true)
    (hreviewed : Reviewed rt.toAgentRuntime definition) (hroom : ¬ LeavesRoom definition) :
    ¬ CompletesWhole rt.toRunRuntime definition := by
  intro hwhole
  obtain ⟨inputs, row, hrow, hstatus, hmissing⟩ := exists_life_without henabled haware hreviewed
    hroom .empty { entityId := "T-1", actor := "tess" }
  exact hmissing ((hwhole _ _ inputs []).1 row hrow hstatus)

end Loop

/-- An accepted definition that is result-aware completes its runs with all of their tools exactly
when the attempts of all tools but one always stay below its bound. -/
theorem completesWhole_iff (rt : CatalogRuntime) {definition : AgentDefinition}
    (haccepted : Accepted rt.toAgentRuntime definition) (haware : definition.resultAware = true) :
    CompletesWhole rt.toRunRuntime definition ↔
      (definition.enabled = true → LeavesRoom definition) := by
  have hreviewed := haccepted.reviewed
  constructor
  · intro hwhole henabled
    by_contra hroom
    exact not_completesWhole henabled haware hreviewed hroom hwhole
  · intro hroom runs request inputs calls
    have hsound := lives_sound hreviewed haware runs request inputs calls
    refine ⟨fun row hrow hstatus => ?_, hsound.most⟩
    have hrow := hsound.rows row hrow
    exact hrow.recorded.completed hstatus (hroom hrow.enabled)

/-! ## One morning -/

/-- The morning's catalog, with `redact_text`. -/
def catalogRuns : CatalogRuntime where
  toRuntime := { morningAgents.toRuntime with redactText := Redaction.redactText .known }
  tools := morningAgents.tools
  zone := morningAgents.zone
  casefold := morningAgents.casefold
  recursionLimit := morningAgents.recursionLimit
  redactText_plain := fun _ => Redaction.redactText_of_plain
  validCorrelationId := morningRuns.validCorrelationId
  words := .known
  redactText_eq := rfl
  tools_ne_blank := by decide

/-- A result-aware agent that triages a ticket and then summarizes it, with so many retries. -/
def triageAndSummary (retries : ℤ) : DefinitionRequest :=
  { triageRequest [] with
    enabledTools := ["ticket-triage", "ticket-summary"]
    steps := [
      { toolId := "ticket-triage"
        failurePolicy :=
          if retries = 0 then none else some { mode := "retry", maxRetries := retries } },
      { toolId := "ticket-summary" }]
    maxSteps := 2
    resultAware := true }

def createdAlone (request : DefinitionRequest) : Option AgentDefinition :=
  match Agents.create catalogRuns.toAgentRuntime ⟨.empty, .empty⟩ request none 1
      (Instant.morning 0) with
  | .ok (definition, _) => some definition
  | .error _ => none

theorem accepted_of_createdAlone {request : DefinitionRequest} {definition : AgentDefinition}
    (h : createdAlone request = some definition) :
    Accepted catalogRuns.toAgentRuntime definition := by
  unfold createdAlone at h
  split at h
  · rename_i definition' s hcreate
    cases h
    exact .create _ s request none 1 (Instant.morning 0) hcreate
  · cases h

/-- With one attempt for each tool, a bound of two leaves room for both. -/
theorem completesWhole_iff_single : ∃ definition,
    createdAlone (triageAndSummary 0) = some definition ∧
      CompletesWhole catalogRuns.toRunRuntime definition := by
  obtain ⟨definition, hcreated, haware, hroom⟩ : ∃ definition,
      createdAlone (triageAndSummary 0) = some definition ∧ definition.resultAware = true ∧
        LeavesRoom definition :=
    ⟨_, rfl, by decide, by decide⟩
  exact ⟨definition, hcreated, (completesWhole_iff catalogRuns
    (accepted_of_createdAlone hcreated) haware).mpr fun _ => hroom⟩

/-- A retry of the triage takes the record of the summary. -/
theorem not_completesWhole_accepted : ¬ ∀ (rt : CatalogRuntime) (definition : AgentDefinition),
    Accepted rt.toAgentRuntime definition → definition.resultAware = true →
    CompletesWhole rt.toRunRuntime definition := by
  intro hall
  obtain ⟨definition, hcreated, haware, henabled, hroom⟩ : ∃ definition,
      createdAlone (triageAndSummary 1) = some definition ∧ definition.resultAware = true ∧
        definition.enabled = true ∧ ¬ LeavesRoom definition :=
    ⟨_, rfl, by decide, by decide, by decide⟩
  have haccepted := accepted_of_createdAlone hcreated
  exact not_completesWhole henabled haware haccepted.reviewed hroom
    (hall catalogRuns definition haccepted haware)

end WaitLocalAgent.AgentRuns
