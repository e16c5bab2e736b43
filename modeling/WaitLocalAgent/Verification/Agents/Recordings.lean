import WaitLocalAgent.Verification.Agents.Resumption
import WaitLocalAgent.Verification.Agents.Terminal
import WaitLocalAgent.Verification.Observability.AgentLog

/-! # Recorded steps of agent runs

Every pause records the steps that the run has by then, and the end records them all once more. -/

namespace WaitLocalAgent.AgentRuns

open Foundation Approvals Agents Program
open Observability (Numbered Adds numbered_fresh adds_record)

/-! ## One call -/

variable {state : RunState}

section Calls

variable {rt : RunRuntime} {definition : AgentDefinition} {s : Workspace} {runId : ℕ}
  {c c' : FinishingCall} {run : AgentRun} {α β : Type}

/-- The rows during a call: that of its run is as it was or queued, and the others are as they
were. -/
structure Touched (s : Workspace) (runId : ℕ) (c : FinishingCall) : Prop where
  other : ∀ j, j ≠ runId → c.workspace.runs.find? j = s.runs.find? j
  own : c.workspace.runs.find? runId = s.runs.find? runId ∨
    ∃ row, c.workspace.runs.find? runId = some row ∧ row.status = .queued

/-- A call that holds the row of its run, and has not come to its `_finish`. -/
structure Ongoing (s : Workspace) (run : AgentRun) (c : FinishingCall) : Prop where
  stored : c.workspace.runs.find? run.id = some run
  other : ∀ j, j ≠ run.id → c.workspace.runs.find? j = s.runs.find? j
  own : s.runs.find? run.id = some run ∨ run.status = .queued
  unfinished : c.finished = none

/-- A call that has come to the end of its `_finish`. -/
structure Finished (s : Workspace) (runId : ℕ) (write : RunWrite) (c : FinishingCall) : Prop where
  written : c.finished = some (runId, write)
  other : ∀ j, j ≠ runId → c.workspace.runs.find? j = s.runs.find? j
  row : ∃ row, c.workspace.runs.find? runId = some row ∧ row.status = write.status ∧
    row.state = write.state
  status : write.status ≠ .queued
  paused : write.status = .pendingApproval → write.state.steps ≠ []

/-- A call that returns has come to the end of its `_finish`. -/
def Concluded (s : Workspace) (runId : ℕ) : Except RunError α → FinishingCall → Prop
  | .ok _, c => ∃ write, Finished s runId write c
  | .error _, c => Touched s runId c

abbrev EndsIn (c : FinishingCall) (p : Call α) (Q : Except RunError α → FinishingCall → Prop) :
    Prop :=
  p.run.Must finishingAnswer Q c

theorem finishingAnswer_of_serves {a : RunAction} (ha : a.serves run) (c : FinishingCall)
    (env : Surroundings) : (finishingAnswer a c env).2.workspace.runs = c.workspace.runs ∧
      (finishingAnswer a c env).2.finished = c.finished := by
  cases a with
  | query q => exact ⟨rfl, rfl⟩
  | invoke run' call => exact ⟨rfl, rfl⟩
  | decideApproval run' decision => exact ⟨rfl, rfl⟩
  | completeApproval run' approvalId approver role => exact ⟨rfl, rfl⟩
  | _ => cases ha

theorem Ongoing.touched (h : Ongoing s run c) : Touched s run.id c where
  other := h.other
  own := h.own.imp (fun hsame => h.stored.trans hsame.symm) fun hqueued => ⟨run, h.stored, hqueued⟩

theorem Ongoing.of_same (h : Ongoing s run c) (hruns : c'.workspace.runs = c.workspace.runs)
    (hfinished : c'.finished = c.finished) : Ongoing s run c' where
  stored := hruns ▸ h.stored
  other := hruns ▸ h.other
  own := h.own
  unfinished := hfinished.trans h.unfinished

variable {Q : Except RunError β → FinishingCall → Prop}

theorem endsIn_ask_bind {a : RunAction} {f : a.Answer → Call β}

    (hf : ∀ env, EndsIn (finishingAnswer a c env).2 (f (finishingAnswer a c env).1) Q) :
    EndsIn c (ask a >>= f) Q := hf

/-- What follows reads and tool calls. -/
theorem Serves.endsIn {p : Call α} {f : α → Call β}
    (hp : Serves run p) (h : Ongoing s run c)
    (hf : ∀ x c', Ongoing s run c' → EndsIn c' (f x) Q)
    (herror : ∀ e c', Touched s run.id c' → Q (.error e) c') : EndsIn c (p >>= f) Q := by
  have hmust : EndsIn c p fun _ c' => Ongoing s run c' :=
    Performs.must hp (fun a ha c env hc =>
      hc.of_same (finishingAnswer_of_serves ha c env).1 (finishingAnswer_of_serves ha c env).2) h
  exact Must.bindExcept hmust (fun x c' hc' => hf x c' hc') fun e c' hc' => herror e c' hc'.touched

/-! ### Writes -/

theorem find?_updateRow {runs : AutoTable AgentRun.id} {write : RunWrite} {j : ℕ}
    (hj : j ≠ run.id) : (updateRow runs run.id write).2.find? j = runs.find? j := by
  have hfind := @AutoTable.find?_update_key _ _ runs (fun row => row.id == run.id) write.apply
    write.apply_id run.id j fun row => beq_iff_eq
  exact hfind.trans (if_neg hj)

/-- A row is written and read back. -/
theorem endsIn_updateAgentRun {status : RunStatus} {currentStep : ℕ}
    {f : AgentRun → Call β}
    (hrow : c.workspace.runs.find? run.id = some run)
    (hf : ∀ write c', write.status = status → write.state = state.redacted rt.toAgentRuntime →
      c'.workspace.runs.find? run.id = some (write.apply run) →
      (∀ j, j ≠ run.id → c'.workspace.runs.find? j = c.workspace.runs.find? j) →
      c'.finished = (RunAction.updateRun run write).finishing.or c.finished →
      EndsIn c' (f (write.apply run)) Q) :
    EndsIn c (updateAgentRun rt run status currentStep state >>= f) Q := by
  have hwrite : EndsIn c (updateAgentRun rt run status currentStep state) fun result c' =>
      ∃ write : RunWrite, result = .ok (write.apply run) ∧ write.status = status ∧
        write.state = state.redacted rt.toAgentRuntime ∧
        c'.workspace.runs.find? run.id = some (write.apply run) ∧
        (∀ j, j ≠ run.id → c'.workspace.runs.find? j = c.workspace.runs.find? j) ∧
        c'.finished = (RunAction.updateRun run write).finishing.or c.finished := by
    refine endsIn_ask_bind fun env => ?_
    obtain ⟨write, hwrite⟩ : ∃ write : RunWrite, write =
        { status, currentStep, state := state.redacted rt.toAgentRuntime
          finishedAt := (finishingAnswer (.query .now) c env).1 } := ⟨_, rfl⟩
    obtain ⟨hupdated, hstored⟩ := updateRow_stored write hrow
    refine endsIn_ask_bind fun env' => ?_
    rw [← hwrite]
    have hanswer : (finishingAnswer (.updateRun run write)
        (finishingAnswer (.query .now) c env).2 env').1 = true := hupdated
    rw [hanswer]
    refine endsIn_ask_bind fun env'' => ?_
    have hfound : (finishingAnswer (.readBack (write.apply run)) (finishingAnswer
        (.updateRun run write) (finishingAnswer (.query .now) c env).2 env').2 env'').1 =
          some (write.apply run) := hstored
    rw [hfound]
    exact ⟨write, rfl, by rw [hwrite], by rw [hwrite], hstored, fun j hj => find?_updateRow hj, rfl⟩
  refine Must.bindExcept hwrite (fun row c' hc' => ?_) fun e c' hc' => ?_
  · obtain ⟨write, hok, hstatus, hstate, hstored, hother, hfinished⟩ := hc'
    cases hok
    exact hf write c' hstatus hstate hstored hother hfinished
  · obtain ⟨write, hok, -⟩ := hc'
    cases hok

theorem Ongoing.queued {currentStep : ℕ} {f : AgentRun → Call β}
    (h : Ongoing s run c)
    (hf : ∀ row c', row.id = run.id → Ongoing s row c' → EndsIn c' (f row) Q) :
    EndsIn c (updateAgentRun rt run .queued currentStep state >>= f) Q := by
  refine endsIn_updateAgentRun h.stored fun write c' hstatus _ hstored hother hfinished => ?_
  refine hf (write.apply run) c' rfl ⟨hstored, fun j hj => ?_, .inr hstatus, ?_⟩
  · exact (hother j hj).trans (h.other j hj)
  · rw [hfinished, RunAction.finishing, if_pos hstatus, h.unfinished]
    rfl

theorem Ongoing.finish {status : RunStatus} {currentStep : ℕ}
    (h : Ongoing s run c) (hstatus : status ≠ .queued)
    (hpaused : status = .pendingApproval → state.steps ≠ []) :
    EndsIn c (finish rt run status currentStep state) (Concluded s run.id) := by
  refine endsIn_updateAgentRun h.stored fun write c' hwrite hstate hstored hother hfinished => ?_
  subst hwrite
  refine ⟨write, ?_, fun j hj => (hother j hj).trans (h.other j hj), ⟨_, hstored, rfl, rfl⟩,
    hstatus, fun hpending => ?_⟩
  · rw [hfinished, RunAction.finishing, if_neg hstatus]
    rfl
  · rw [hstate]
    simpa [RunState.redacted] using hpaused hpending

theorem Ongoing.finishFailed {index : ℕ} {directive : Option Directive}
    (h : Ongoing s run c) :
    EndsIn c (finishFailed rt run index state directive) (Concluded s run.id) := by
  cases directive with
  | none => exact h.finish nofun nofun
  | some directive => cases directive <;> exact h.finish nofun nofun

/-! ### Loops -/

theorem steps_extend_ne_nil (state : RunState) (attempts : StepAttempts) :
    (state.extend attempts).steps ≠ [] := by
  simp [RunState.extend, attempts.nonempty]

theorem endsIn_continueSteps {actor : String} {actorRole : Option Access.Role}
    {queued : List (Fin definition.steps.length)} {attempted : List String}
    (h : Ongoing s run c) (hid : run.id = runId) :
    EndsIn c (continueSteps rt definition actor actorRole queued attempted run state)
      (Concluded s runId) := by
  induction hmeasure : (unattempted definition attempted).length + queued.length
    using Nat.strong_induction_on generalizing c run queued attempted state with
  | _ n ih =>
      subst hid
      rw [continueSteps.eq_def]
      cases queued with
      | nil => exact h.finish nofun nofun
      | cons index queued =>
          refine (reads_query _).serves.endsIn h (fun elapsed c₁ h₁ => ?_) fun _ _ ht => ht
          split
          · exact h₁.finish nofun nofun
          · split
            · exact h₁.finish nofun nofun
            · split
              · exact ih _ (by rw [← hmeasure]; simp) h₁ rfl rfl
              · rename_i hattempted
                have hless := length_unattempted_lt hattempted
                refine serves_executeStepAttempts.endsIn h₁ (fun attempts c₂ h₂ => ?_)
                  fun _ _ ht => ht
                dsimp only
                split
                · exact h₂.finish nofun fun _ => steps_extend_ne_nil state attempts
                · split
                  · refine h₂.queued fun row c₃ hid h₃ => ?_
                    exact ih _ (by simp only [← hmeasure, List.length_cons]; omega) h₃ hid rfl
                  · split
                    · exact h₂.finishFailed
                    · refine h₂.queued fun row c₃ hid h₃ => ?_
                      exact ih _ (by simp only [← hmeasure, List.length_cons]; omega) h₃ hid rfl

theorem endsIn_continueResultAware {actor : String} {actorRole : Option Access.Role}
    {fallback : Option AgentStep} (h : Ongoing s run c) (hid : run.id = runId) :
    EndsIn c (continueResultAware rt definition actor actorRole fallback run state)
      (Concluded s runId) := by
  induction hmeasure : (definition.maxSteps - state.steps.length).toNat
    using Nat.strong_induction_on generalizing c run fallback state with
  | _ n ih =>
      subst hid
      rw [continueResultAware]
      split
      · refine (reads_query _).serves.endsIn h (fun elapsed c₁ h₁ => ?_) fun _ _ ht => ht
        split
        · exact h₁.finish (by simp) (by simp)
        · refine reads_nextResultAwareStep.serves.endsIn h₁ (fun next c₂ h₂ => ?_) fun _ _ ht => ht
          cases next with
          | none => exact h₂.finish (by simp) (by simp)
          | some step =>
              dsimp only
              split
              · exact h₂.finish (by simp) (by simp)
              · refine serves_executeStepAttempts.endsIn h₂ (fun attempts c₃ h₃ => ?_)
                  fun _ _ ht => ht
                have hlength := List.length_pos_of_ne_nil attempts.nonempty
                have hless : (definition.maxSteps - (state.extend attempts).steps.length).toNat <
                    n := by
                  simp only [RunState.extend, List.length_append]
                  omega
                split
                · exact h₃.finish (by simp) fun _ => steps_extend_ne_nil state attempts
                · split
                  · exact h₃.queued fun row c₄ hid h₄ => ih _ hless h₄ hid rfl
                  · split
                    · exact h₃.finish (by simp) (by simp)
                    · exact h₃.queued fun row c₄ hid h₄ => ih _ hless h₄ hid rfl
      · exact h.finish (by simp) (by simp)

theorem endsIn_continueRun {actor : String} {actorRole : Option Access.Role} {startStep : ℕ}
    (h : Ongoing s run c) :
    EndsIn c (continueRun rt definition actor actorRole startStep run state)
      (Concluded s run.id) := by
  rw [continueRun]
  split
  · exact endsIn_continueResultAware h rfl
  · exact endsIn_continueSteps h rfl

/-! ### Calls -/

def Comes (s : Workspace) (runId : ℕ) : Except RunError α → FinishingCall → Prop
  | .ok _, c => (c.finished = none ∧ ∀ j, c.workspace.runs.find? j = s.runs.find? j) ∨
      ∃ write, Finished s runId write c
  | .error _, c => Touched s runId c

theorem Concluded.comes {result : Except RunError α} (h : Concluded s runId result c) :
    Comes s runId result c := by
  cases result with
  | ok x => exact .inr h
  | error e => exact h

/-- Nothing has been written so far. -/
structure Untouched (s : Workspace) (c : FinishingCall) : Prop where
  runs : c.workspace.runs = s.runs
  unfinished : c.finished = none

theorem Untouched.touched (h : Untouched s c) (runId : ℕ) : Touched s runId c where
  other j _ := by rw [h.runs]
  own := .inl (by rw [h.runs])

theorem Untouched.comes (h : Untouched s c) (runId : ℕ) (result : Except RunError α) :
    Comes s runId result c := by
  cases result with
  | ok x => exact .inl ⟨h.unfinished, fun j => by rw [h.runs]⟩
  | error e => exact h.touched runId

theorem Untouched.ongoing (h : Untouched s c) (hrow : s.runs.find? run.id = some run) :
    Ongoing s run c where
  stored := h.runs ▸ hrow
  other j _ := by rw [h.runs]
  own := .inl hrow
  unfinished := h.unfinished

/-- What follows reads before anything is written. -/
theorem Reads.endsIn {p : Call α} {f : α → Call β}
    (hp : Reads p) (h : Untouched s c)
    (hf : ∀ x c', Untouched s c' → EndsIn c' (f x) Q)
    (herror : ∀ e c', Untouched s c' → Q (.error e) c') : EndsIn c (p >>= f) Q := by
  have hmust : EndsIn c p fun _ c' => Untouched s c' := by
    refine Performs.must hp (fun a ha c env hc => ?_) h
    cases a with
    | query q => exact ⟨hc.runs, hc.unfinished⟩
    | _ => cases ha
  exact Must.bindExcept hmust (fun x c' hc' => hf x c' hc') fun e c' hc' => herror e c' hc'

/-- A new row has the next id, unless its ticket is in quarantine. -/
theorem endsIn_insertRun {draft : ℕ → AgentRun} {hid : ∀ n, (draft n).id = n}
    {f : Except RunError ℕ → Call β}
    (h : Untouched s c) (hqueued : ∀ n, (draft n).status = .queued)
    (herror : ∀ e c', Untouched s c' → EndsIn c' (f (.error e)) Q)
    (hok : ∀ c', Ongoing s (draft (s.runs.lastKey + 1)) c' →
      EndsIn c' (f (.ok (s.runs.lastKey + 1))) Q) :
    EndsIn c (ask (.insertRun draft hid) >>= f) Q := by
  refine endsIn_ask_bind fun env => ?_
  have hanswer : finishingAnswer (.insertRun draft hid) c env =
      ((insertRow c.workspace.runs draft hid
          (isQuarantined (env.answer (.ticket (draft 0).entityId none)))).1,
        { workspace := { c.workspace with
            runs := (insertRow c.workspace.runs draft hid
              (isQuarantined (env.answer (.ticket (draft 0).entityId none)))).2 }
          finished := c.finished }) := rfl
  have hfind := @AutoTable.find?_insert _ _ s.runs draft hid
  rw [hanswer, insertRow, h.runs]
  split
  · exact herror _ _ ⟨rfl, h.unfinished⟩
  · refine hok _ ⟨?_, fun j hj => ?_, .inr (hqueued _), h.unfinished⟩
    · simp [hid, hfind]
    · rw [hid] at hj
      simp [hfind, hj]

/-- A new run is queued under the next id. -/
theorem endsIn_createAgentRun {request : RunRequest}
    {f : AgentRun → Call β} (h : Untouched s c)
    (hf : ∀ run c', run.id = s.runs.lastKey + 1 → Ongoing s run c' → EndsIn c' (f run) Q)
    (herror : ∀ e c', Untouched s c' → Q (.error e) c') :
    EndsIn c (createAgentRun rt definition request state >>= f) Q := by
  rw [createAgentRun, bind_assoc]
  refine (reads_query _).endsIn h (fun now c₁ h₁ => ?_) herror
  rw [bind_assoc]
  refine endsIn_insertRun h₁ (fun _ => rfl) (fun e c₂ h₂ => ?_) fun c₂ h₂ => ?_
  · exact herror e c₂ h₂
  · dsimp only
    rw [readBack, bind_assoc]
    refine endsIn_ask_bind fun env => ?_
    have hfound : (finishingAnswer (.readBack (newRun rt definition request state now
        (s.runs.lastKey + 1))) c₂ env).1 = _ := h₂.stored
    rw [hfound]
    exact hf _ _ rfl h₂

/-- A new run is finished, or nothing has been written, or it is left queued. -/
theorem endsIn_run {request : RunRequest} (h : Untouched s c) :
    EndsIn c (AgentRuns.run rt definition request) (Comes s (s.runs.lastKey + 1)) := by
  have herror : ∀ (e : RunError) (c' : FinishingCall), Untouched s c' →
      Comes s (s.runs.lastKey + 1) (.error e : Except RunError AgentExecutionResult) c' :=
    fun e c' h' => h'.comes _ _
  rw [AgentRuns.run, beginRun]
  simp only [bind_assoc, pure_bind]
  refine reads_check.endsIn h (fun _ c₁ h₁ => ?_) herror
  refine reads_executionWindowOpen.endsIn h₁ (fun _ c₂ h₂ => ?_) herror
  refine reads_check.endsIn h₂ (fun _ c₃ h₃ => ?_) herror
  refine reads_check.endsIn h₃ (fun _ c₄ h₄ => ?_) herror
  refine reads_requireTicket.endsIn h₄ (fun _ c₅ h₅ => ?_) herror
  refine reads_buildContext.endsIn h₅ (fun context c₆ h₆ => ?_) herror
  refine endsIn_createAgentRun h₆ (fun run c₇ hid h₇ => ?_) herror
  rw [← hid]
  exact Must.imp (endsIn_continueRun h₇) fun _ _ hc => hc.comes

theorem Ongoing.comes (h : Ongoing s run c) (hrow : s.runs.find? run.id = some run) {x : α} :
    Comes s run.id (.ok x) c := by
  refine .inl ⟨h.unfinished, fun j => ?_⟩
  by_cases hj : j = run.id
  · rw [hj, h.stored, hrow]
  · exact h.other j hj

/-- The approved step has its result, and the steps after it are executed. -/
theorem endsIn_resumePending {approver : String} {role : Access.Role}
    {correlationId : Option String} (h : Ongoing s run c) :
    EndsIn c (resumePending rt definition run approver role correlationId)
      (Concluded s run.id) := by
  have herror : ∀ (e : RunError) (c' : FinishingCall), Touched s run.id c' →
      Concluded s run.id (.error e : Except RunError AgentExecutionResult) c' := fun _ _ h' => h'
  rw [resumePending]
  refine reads_definitionForRun.serves.endsIn h (fun definition c₁ h₁ => ?_) herror
  refine reads_check.serves.endsIn h₁ (fun _ c₂ h₂ => ?_) herror
  refine reads_pendingStep.serves.endsIn h₂ (fun step c₃ h₃ => ?_) herror
  refine serves_approvedResult.endsIn h₃ (fun result c₄ h₄ => ?_) herror
  rw [resumeWith]
  split
  · exact endsIn_continueRun h₄
  · split <;> exact h₄.finish (by simp) (by simp)

theorem endsIn_resume {approver : String} {role : Access.Role} {correlationId : Option String}
    (h : Ongoing s run c) (hrow : s.runs.find? run.id = some run) :
    EndsIn c (resume rt definition run approver role correlationId) (Comes s run.id) := by
  rw [resume]
  split
  · exact h.comes hrow
  · refine (reads_query _).serves.endsIn h (fun ticket c₁ h₁ => ?_) fun _ _ h' => h'
    split
    · exact h₁.comes hrow
    · exact Must.imp (endsIn_resumePending h₁) fun _ _ hc => hc.comes

theorem endsIn_cancel {actor : String} {role : Access.Role} {correlationId : Option String}
    (h : Ongoing s run c) (hrow : s.runs.find? run.id = some run) :
    EndsIn c (cancel rt definition run actor role correlationId) (Comes s run.id) := by
  have herror : ∀ (e : RunError) (c' : FinishingCall), Touched s run.id c' →
      Comes s run.id (.error e : Except RunError AgentExecutionResult) c' := fun _ _ h' => h'
  rw [cancel]
  split
  · exact h.comes hrow
  · refine reads_check.serves.endsIn h (fun _ c₁ h₁ => ?_) herror
    refine reads_definitionForRun.serves.endsIn h₁ (fun _ c₂ h₂ => ?_) herror
    refine serves_withdrawApproval.endsIn h₂ (fun _ c₃ h₃ => ?_) herror
    exact Must.imp (h₃.finish (by simp) (by simp)) fun _ _ hc => hc.comes

theorem endsIn_getAgentRun {f : AgentRun → Call β}
    (h : Untouched s c)
    (hf : ∀ run c', run.id = runId → s.runs.find? run.id = some run → Ongoing s run c' →
      EndsIn c' (f run) Q)
    (herror : ∀ e c', Untouched s c' → Q (.error e) c') :
    EndsIn c (getAgentRun runId >>= f) Q := by
  rw [getAgentRun, bind_assoc]
  refine endsIn_ask_bind fun env => ?_
  have hanswer : finishingAnswer (.selectRun runId) c env = (c.workspace.runs.find? runId, c) := rfl
  rw [hanswer, h.runs]
  cases hfind : s.runs.find? runId with
  | none => exact herror _ _ h
  | some run =>
      obtain ⟨-, hid⟩ := AutoTable.find?_eq_some_iff.mp hfind
      subst hid
      exact hf run c rfl hfind (h.ongoing hfind)

def RunCall.target (runs : AutoTable AgentRun.id) : RunCall → ℕ
  | .run _ _ => runs.lastKey + 1
  | .resume _ runId _ _ _ => runId
  | .cancel _ runId _ _ _ => runId

theorem endsIn_program {call : RunCall} (h : Untouched s c) :
    EndsIn c (call.program rt) (Comes s (call.target s.runs)) := by
  cases call with
  | run definition request => exact endsIn_run h
  | resume definition runId approver role correlationId =>
      refine endsIn_getAgentRun h (fun run c₁ hid hrow h₁ => ?_) fun _ _ h' => h'.comes _ _
      subst hid
      exact endsIn_resume h₁ hrow
  | cancel definition runId actor role correlationId =>
      refine endsIn_getAgentRun h (fun run c₁ hid hrow h₁ => ?_) fun _ _ h' => h'.comes _ _
      subst hid
      exact endsIn_cancel h₁ hrow

theorem endsIn_program_of_terminal {call : RunCall} (h : Untouched s c)
    (hrow : s.runs.find? (call.target s.runs) = some run) (hterminal : run.status.isTerminal) :
    EndsIn c (call.program rt) fun _ c' =>
      c'.finished = none ∧ c'.workspace.runs = s.runs := by
  cases call with
  | run definition request =>
      have hnone : s.runs.find? (s.runs.lastKey + 1) = none := AutoTable.find?_next
      exact absurd (hnone.symm.trans hrow) nofun
  | resume definition runId approver role correlationId =>
      refine endsIn_ask_bind fun env => ?_
      have hanswer : (finishingAnswer (.selectRun runId) c env).1 = some run :=
        (congrArg (AutoTable.find? · runId) h.runs).trans hrow
      rw [hanswer]
      have hstatus : run.status ≠ .pendingApproval := by
        intro heq
        rw [heq] at hterminal
        cases hterminal
      show EndsIn c (resume rt definition run approver role correlationId) _
      rw [resume, if_pos hstatus]
      exact ⟨h.unfinished, h.runs⟩
  | cancel definition runId actor role correlationId =>
      refine endsIn_ask_bind fun env => ?_
      have hanswer : (finishingAnswer (.selectRun runId) c env).1 = some run :=
        (congrArg (AutoTable.find? · runId) h.runs).trans hrow
      rw [hanswer]
      show EndsIn c (cancel rt definition run actor role correlationId) _
      rw [cancel]
      split
      · exact ⟨h.unfinished, h.runs⟩
      · have hended : run.status ≠ .queued ∧ run.status ≠ .pendingApproval := by
          constructor
          all_goals
            intro heq
            rw [heq] at hterminal
            cases hterminal
        rw [check, if_pos hended]
        exact ⟨h.unfinished, h.runs⟩

end Calls

/-! ## Calls one after the other -/

section Runs

variable {rt : RecordingRuntime} {s : RecordedRuns} {c : RecordedCall}

/-- What a call does to the rows and to the records: it records its run once it has written it, or
leaves the records as they are. -/
inductive RecordedRuns.Becomes (rt : RecordingRuntime) (s : RecordedRuns) (runId : ℕ)
    (s' : RecordedRuns) : Prop
  | unrecorded (hrecords : s'.records = s.records)
      (hother : ∀ j, j ≠ runId → s'.workspace.runs.find? j = s.workspace.runs.find? j)
      (hown : s'.workspace.runs.find? runId = s.workspace.runs.find? runId ∨
        (∀ run, s.workspace.runs.find? runId = some run → run.status.isTerminal = false) ∧
          ∃ row, s'.workspace.runs.find? runId = some row ∧ row.status = .queued)
  | recorded {write : RunWrite} {context : RecorderContext}
      (hrecords : s'.records =
        s.records.record rt.recorder (write.recordCall rt runId context))
      (hother : ∀ j, j ≠ runId → s'.workspace.runs.find? j = s.workspace.runs.find? j)
      (hown : ∀ run, s.workspace.runs.find? runId = some run → run.status.isTerminal = false)
      (hrow : ∃ row, s'.workspace.runs.find? runId = some row ∧ row.status = write.status ∧
        row.state = write.state)
      (hstatus : write.status ≠ .queued)
      (hpaused : write.status = .pendingApproval → write.state.steps ≠ [])

theorem becomes_after : s.Becomes rt (c.call.target s.workspace.runs) (s.after rt c) := by
  have huntouched : Untouched s.workspace { workspace := s.workspace } := ⟨rfl, rfl⟩
  rw [RecordedRuns.after]
  rcases hresult : (c.call.program rt.toRunRuntime).run.run finishingAnswer c.inputs
    { workspace := s.workspace } with ⟨result, c', inputs⟩
  by_cases hterminal : ∃ run, s.workspace.runs.find? (c.call.target s.workspace.runs) = some run ∧
      run.status.isTerminal = true
  · obtain ⟨run, hrow, hrun⟩ := hterminal
    have hends : EndsIn { workspace := s.workspace } (c.call.program rt.toRunRuntime) _ :=
      endsIn_program_of_terminal huntouched hrow hrun
    have hcall := hends.run c.inputs
    rw [hresult] at hcall
    obtain ⟨workspace, finished⟩ := c'
    obtain ⟨hfinished, hruns⟩ := hcall
    dsimp only at hfinished hruns
    subst hfinished
    cases result with
    | ok result => exact .unrecorded rfl (fun j _ => by rw [hruns]) (.inl (by rw [hruns]))
    | error e => exact .unrecorded rfl (fun j _ => by rw [hruns]) (.inl (by rw [hruns]))
  · have hopen : ∀ run, s.workspace.runs.find? (c.call.target s.workspace.runs) = some run →
        run.status.isTerminal = false := by
      intro run hrow
      rw [Bool.eq_false_iff]
      exact fun hrun => hterminal ⟨run, hrow, hrun⟩
    have hends : EndsIn { workspace := s.workspace } (c.call.program rt.toRunRuntime) _ :=
      endsIn_program huntouched
    have hcall := hends.run c.inputs
    rw [hresult] at hcall
    obtain ⟨workspace, finished⟩ := c'
    cases result with
    | ok result =>
        rcases hcall with ⟨hfinished, hruns⟩ | ⟨write, hwrite⟩
        · dsimp only at hfinished
          subst hfinished
          exact .unrecorded rfl (fun j _ => hruns j) (.inl (hruns _))
        · have hwritten : finished = _ := hwrite.written
          subst hwritten
          exact .recorded rfl hwrite.other hopen hwrite.row hwrite.status hwrite.paused
    | error e =>
        have htouched : Touched _ _ _ := hcall
        exact .unrecorded rfl htouched.other (htouched.own.imp_right fun hrow => ⟨hopen, hrow⟩)

/-- The row of a run, and the steps that are listed of it: every step once as long as the run has
never waited for an approval, and more than its steps otherwise. -/
structure Logged (rt : RecordingRuntime) (row : Option AgentRun)
    (log : List Observability.ExecutionStep) (paused : Prop) : Prop where
  unknown : row = none → ¬ paused ∧ log = []
  waiting : ∀ run, row = some run → run.status = .pendingApproval → paused
  queued : ∀ run, row = some run → run.status = .queued → ¬ paused → log = []
  once : ∀ run, row = some run → run.status.isTerminal → ¬ paused →
    log.map Observability.ExecutionStep.content =
      run.state.steps.map fun step => (step.recorded rt).content rt.recorder
  again : ∀ run, row = some run → paused →
    log ≠ [] ∧ (run.status.isTerminal → run.state.steps.length < log.length)

def Waiting (row : Option AgentRun) : Prop := ∃ run, row = some run ∧ run.status = .pendingApproval

structure Sound (rt : RecordingRuntime) (paused : ℕ → Prop) (s : RecordedRuns) : Prop where
  numbered : Numbered s.records
  logged : ∀ id, Logged rt (s.workspace.runs.find? id) (s.records.agentSteps id) (paused id)

section Logged

variable {row : Option AgentRun} {log log' : List Observability.ExecutionStep} {paused : Prop}

theorem Logged.same (h : Logged rt row log paused) : Logged rt row log (paused ∨ Waiting row) := by
  have hiff : (paused ∨ Waiting row) = paused := by
    refine propext (or_iff_left_of_imp fun hwaiting => ?_)
    obtain ⟨run, hrow, hstatus⟩ := hwaiting
    exact h.waiting run hrow hstatus
  rw [hiff]
  exact h

/-- Nothing is recorded of a run that has neither ended nor waited. -/
theorem Logged.eq_nil (h : Logged rt row log paused)
    (hopen : ∀ run, row = some run → run.status.isTerminal = false) (hpaused : ¬ paused) :
    log = [] := by
  cases hrow : row with
  | none => exact (h.unknown hrow).2
  | some run =>
      cases hstatus : run.status with
      | queued => exact h.queued run hrow hstatus hpaused
      | pendingApproval => exact absurd (h.waiting run hrow hstatus) hpaused
      | _ =>
          have hend := hopen run hrow
          rw [hstatus] at hend
          cases hend

theorem Logged.ne_nil (h : Logged rt row log paused) (hpaused : paused) : log ≠ [] := by
  cases hrow : row with
  | none => exact absurd hpaused (h.unknown hrow).1
  | some run => exact (h.again run hrow hpaused).1

/-- A row that has not ended is queued once more. -/
theorem Logged.touched (h : Logged rt row log paused)
    (hopen : ∀ run, row = some run → run.status.isTerminal = false) {run : AgentRun}
    (hqueued : run.status = .queued) :
    Logged rt (some run) log (paused ∨ Waiting (some run)) := by
  have hwaiting : ¬ Waiting (some run) := by
    rintro ⟨_, hrow, hpending⟩
    cases hrow
    rw [hqueued] at hpending
    cases hpending
  have hend : run.status.isTerminal = false := by
    rw [hqueued]
    rfl
  refine ⟨nofun, ?_, ?_, ?_, ?_⟩
  · rintro _ hrow hpending
    exact .inr ⟨_, hrow, hpending⟩
  · rintro _ - - hpaused
    exact h.eq_nil hopen fun hp => hpaused (.inl hp)
  · rintro _ hrow hterminal
    cases hrow
    exact absurd hterminal (by simp [hend])
  · rintro _ hrow hpaused
    cases hrow
    have hp := hpaused.resolve_right hwaiting
    exact ⟨h.ne_nil hp, fun hterminal => absurd hterminal (by simp [hend])⟩

/-- A row that has not ended is written, and its steps are recorded. -/
theorem Logged.finished (h : Logged rt row log paused)
    (hopen : ∀ run, row = some run → run.status.isTerminal = false) {run : AgentRun}
    (hstatus : run.status ≠ .queued)
    (hpaused : run.status = .pendingApproval → run.state.steps ≠ [])
    (hlog : log'.map Observability.ExecutionStep.content =
      log.map Observability.ExecutionStep.content ++
        run.state.steps.map fun step => (step.recorded rt).content rt.recorder) :
    Logged rt (some run) log' (paused ∨ Waiting (some run)) := by
  have hlength : log'.length = log.length + run.state.steps.length := by
    simpa using congrArg List.length hlog
  refine ⟨nofun, ?_, ?_, ?_, ?_⟩
  · rintro _ hrow hpending
    exact .inr ⟨_, hrow, hpending⟩
  · rintro _ hrow hqueued
    cases hrow
    exact absurd hqueued hstatus
  · rintro _ hrow - hnever
    cases hrow
    rw [hlog, h.eq_nil hopen fun hp => hnever (.inl hp)]
    rfl
  · rintro _ hrow hwaited
    cases hrow
    rcases hwaited with hp | ⟨_, hrow, hpending⟩
    · have hlogged := List.length_pos_of_ne_nil (h.ne_nil hp)
      exact ⟨List.ne_nil_of_length_pos (by omega), fun _ => by omega⟩
    · cases hrow
      have hsteps := List.length_pos_of_ne_nil (hpaused hpending)
      refine ⟨List.ne_nil_of_length_pos (by omega), fun hterminal => ?_⟩
      rw [hpending] at hterminal
      cases hterminal

end Logged

/-- A call keeps the rows and the records together. -/
theorem Sound.becomes {paused : ℕ → Prop} {s' : RecordedRuns} {runId : ℕ} (h : Sound rt paused s)
    (hs' : s.Becomes rt runId s') :
    Sound rt (fun id => paused id ∨ Waiting (s'.workspace.runs.find? id)) s' := by
  cases hs' with
  | unrecorded hrecords hother hown =>
      refine ⟨hrecords ▸ h.numbered, fun id => ?_⟩
      rw [hrecords]
      by_cases hid : id = runId
      · subst hid
        rcases hown with hsame | ⟨hopen, run, hrow, hqueued⟩
        · rw [hsame]
          exact (h.logged id).same
        · rw [hrow]
          exact (h.logged id).touched hopen hqueued
      · rw [hother id hid]
        exact (h.logged id).same
  | @recorded write context hrecords hother hown hrow hstatus hpaused =>
      have hadds : Adds rt.recorder s.records s'.records runId _ :=
        hrecords ▸ adds_record h.numbered rfl rfl rfl
      refine ⟨hadds.numbered, fun id => ?_⟩
      by_cases hid : id = runId
      · subst hid
        obtain ⟨run, hfind, hrun, hstate⟩ := hrow
        rw [hfind]
        refine (h.logged id).finished hown (hrun ▸ hstatus) (fun hpending => ?_) ?_
        · rw [hstate]
          exact hpaused (hrun.symm.trans hpending)
        · rw [hadds.own, hstate, RunWrite.recordCall, List.map_map]
          rfl
      · rw [hother id hid, hadds.other id hid]
        exact (h.logged id).same

/-- The run has been stored as one that waits for an approval, after some of the calls. -/
def WaitedIn (rt : RecordingRuntime) (calls : List RecordedCall) (runId : ℕ) : Prop :=
  ∃ before, before <+: calls ∧
    Waiting (((recordedRuns rt).run before).workspace.runs.find? runId)

theorem waitedIn_nil {runId : ℕ} : ¬ WaitedIn rt [] runId := by
  rintro ⟨before, hbefore, run, hrow, -⟩
  rw [List.prefix_nil.mp hbefore] at hrow
  cases hrow

theorem waitedIn_concat {calls : List RecordedCall} {runId : ℕ} :
    WaitedIn rt (calls ++ [c]) runId ↔ WaitedIn rt calls runId ∨
      Waiting (((recordedRuns rt).run (calls ++ [c])).workspace.runs.find? runId) := by
  constructor
  · rintro ⟨before, hbefore, hwaiting⟩
    rcases List.prefix_concat_iff.mp hbefore with rfl | hbefore
    · exact .inr hwaiting
    · exact .inl ⟨before, hbefore, hwaiting⟩
  · rintro (⟨before, hbefore, hwaiting⟩ | hwaiting)
    · exact ⟨before, hbefore.trans (List.prefix_append calls [c]), hwaiting⟩
    · exact ⟨_, List.prefix_refl _, hwaiting⟩

/-- By induction on the calls: after each of them the rows and the records are sound. -/
theorem sound_run (rt : RecordingRuntime) (calls : List RecordedCall) :
    Sound rt (WaitedIn rt calls) ((recordedRuns rt).run calls) := by
  induction calls using List.reverseRecOn with
  | nil =>
      refine ⟨numbered_fresh, fun id => ⟨fun _ => ⟨waitedIn_nil, rfl⟩, ?_, ?_, ?_, ?_⟩⟩
      all_goals
        intro run hrow
        cases hrow
  | append_singleton calls c ih =>
      have hwaited : WaitedIn rt (calls ++ [c]) = fun id => WaitedIn rt calls id ∨
          Waiting (((recordedRuns rt).run (calls ++ [c])).workspace.runs.find? id) :=
        funext fun id => propext waitedIn_concat
      rw [hwaited, Machine.run_concat]
      exact ih.becomes (becomes_after (c := c))

/-- The steps that are listed of a run that has ended are those of its state, each once, exactly if
the run has never waited for an approval: every pause has recorded the steps by then as well. -/
theorem logsEachStep_iff_not_waited (rt : RecordingRuntime) (calls : List RecordedCall) (runId : ℕ)
    (run : AgentRun)
    (hrow : ((recordedRuns rt).run calls).workspace.runs.find? runId = some run)
    (hterminal : run.status.isTerminal) :
    LogsEachStep rt ((recordedRuns rt).run calls) run ↔ ¬ WaitedIn rt calls runId := by
  have hlogged := (sound_run rt calls).logged runId
  obtain ⟨-, hid⟩ := AutoTable.find?_eq_some_iff.mp hrow
  rw [LogsEachStep, hid]
  constructor
  · intro hlog hwaited
    have hmore := (hlogged.again run hrow hwaited).2 hterminal
    have hlength := congrArg List.length hlog
    simp only [List.length_map] at hlength
    omega
  · exact hlogged.once run hrow hterminal

end Runs

/-! ## One morning -/

def morningRecords : RecordingRuntime where
  toRunRuntime := morningRuns
  recorder := Observability.consoleRuntime

def tessContext : RecorderContext where
  actor := "tess"
  triggerSource := "agent:manual"
  now := "2026-07-01T08:05:00+00:00"

def runByTess (env : Surroundings) : RecordedCall where
  call := .run morningAgent { entityId := "T-1", actor := "tess" }
  inputs _ := env
  context := tessContext

/-- The approval is still pending, and its action succeeds. -/
def approving : Surroundings :=
  { succeeding with
    answer := fun
      | .approvalStatus _ => some .pending
      | q => morningAnswer q
    completed := .ok (some { status := .success }) }

def approvedByOmar : RecordedCall where
  call := .resume morningAgent 1 "omar" .technician none
  inputs _ := approving
  context := tessContext

/-- The status that is stored of the first run, and the statuses that are listed of its steps. -/
def firstRun (calls : List RecordedCall) : Option RunStatus × List String :=
  let s := (recordedRuns morningRecords).run calls
  ((s.workspace.runs.find? 1).map AgentRun.status,
    (s.records.agentSteps 1).map Observability.ExecutionStep.status)

theorem exists_firstRun {calls : List RecordedCall} {status : RunStatus}
    (h : (firstRun calls).1 = some status) :
    ∃ run, ((recordedRuns morningRecords).run calls).workspace.runs.find? 1 = some run ∧
      run.status = status := Option.map_eq_some_iff.mp h

/-- Both steps of a run that never waits are listed once. -/
theorem logsEachStep_iff_not_waited_completed :
    (firstRun [runByTess succeeding]).1 = some .completed ∧
      ∃ run, ((recordedRuns morningRecords).run [runByTess succeeding]).workspace.runs.find? 1 =
          some run ∧
        (LogsEachStep morningRecords
          ((recordedRuns morningRecords).run [runByTess succeeding]) run ↔
          ¬ WaitedIn morningRecords [runByTess succeeding] 1) := by
  have hcompleted : (firstRun [runByTess succeeding]).1 = some .completed := by decide +kernel
  obtain ⟨run, hrow, hstatus⟩ := exists_firstRun hcompleted
  exact ⟨hcompleted, run, hrow, logsEachStep_iff_not_waited morningRecords [runByTess succeeding] 1
    run hrow (by rw [hstatus]; rfl)⟩

/-- The first step is listed as it was at the pause, and as it is at the end. -/
theorem not_logsEachStep : ¬ ∀ (calls : List RecordedCall) (runId : ℕ) (run : AgentRun),
    ((recordedRuns morningRecords).run calls).workspace.runs.find? runId = some run →
    run.status.isTerminal → LogsEachStep morningRecords ((recordedRuns morningRecords).run calls)
      run := by
  intro h
  have hfirst : firstRun [runByTess waiting, approvedByOmar] =
      (some .completed, ["pending_approval", "success", "success"]) := by decide +kernel
  obtain ⟨run, hrow, hstatus⟩ := exists_firstRun (congrArg Prod.fst hfirst)
  have hsteps : (((recordedRuns morningRecords).run
      [runByTess waiting, approvedByOmar]).workspace.runs.find? 1).map
        (fun run => run.state.steps.length) = some 2 := by decide +kernel
  have hlength : run.state.steps.length = 2 := by simpa [hrow] using hsteps
  have hlisted := h [runByTess waiting, approvedByOmar] 1 run hrow (by rw [hstatus]; rfl)
  have hid : run.id = 1 := (AutoTable.find?_eq_some_iff.mp hrow).2
  have hthree : (((recordedRuns morningRecords).run
      [runByTess waiting, approvedByOmar]).records.agentSteps 1).length = 3 := by
    simpa [firstRun] using congrArg List.length (congrArg Prod.snd hfirst)
  rw [LogsEachStep, hid] at hlisted
  have hsame := congrArg List.length hlisted
  rw [List.length_map, List.length_map, hlength] at hsame
  omega

end WaitLocalAgent.AgentRuns
