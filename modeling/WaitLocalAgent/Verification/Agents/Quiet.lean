import WaitLocalAgent.Foundation.Outcomes
import WaitLocalAgent.Model.AgentCalls

/-! # Calls that write nothing

What a call does between two writes: it reads, and it calls tools for its run. -/

namespace WaitLocalAgent.AgentRuns

open Foundation Approvals Agents Program
open SmartActions (ActionResult ServiceError)

variable {rt : RunRuntime} {definition : AgentDefinition} {run : AgentRun} {α β : Type}

def RunAction.isQuery : RunAction → Prop
  | .query _ => True
  | _ => False

/-- A read, or the call of a tool for the run. -/
def RunAction.serves (run : AgentRun) : RunAction → Prop
  | .query _ => True
  | .invoke run' _ => run' = run
  | .decideApproval run' _ => run' = run
  | .completeApproval run' _ _ _ => run' = run
  | _ => False

/-- The call reads, and does nothing else. -/
def Reads (p : Call α) : Prop := p.run.Performs RunAction.isQuery

def Serves (run : AgentRun) (p : Call α) : Prop := p.run.Performs (RunAction.serves run)

theorem Reads.serves {p : Call α} (h : Reads p) : Serves run p :=
  h.imp fun a ha => by
    cases a with
    | query q => trivial
    | _ => cases ha

theorem reads_pure (x : α) : Reads (pure x : Call α) := trivial

theorem reads_throw (error : RunError) : Reads (throw error : Call α) := trivial

theorem Reads.bind {p : Call α} {f : α → Call β} (hp : Reads p) (hf : ∀ x, Reads (f x)) :
    Reads (p >>= f) := Performs.bindExcept hp hf

theorem Serves.bind {p : Call α} {f : α → Call β} (hp : Serves run p) (hf : ∀ x, Serves run (f x)) :
    Serves run (p >>= f) := Performs.bindExcept hp hf

theorem reads_query (q : Query) : Reads (query q) := ⟨trivial, fun _ => trivial⟩

theorem reads_check {condition : Prop} [Decidable condition] {error : RunError} :
    Reads (check condition error) := by
  rw [check]
  split
  · exact reads_throw error
  · exact reads_pure ()

theorem reads_approvalPolicyForTicket {actorRole : Option Access.Role} {toolId entityId : String} :
    Reads (approvalPolicyForTicket rt definition actorRole toolId entityId) := by
  rw [approvalPolicyForTicket]
  split
  · exact reads_pure _
  · split
    · exact reads_pure _
    · refine (reads_query _).bind fun ticket => ?_
      cases ticket with
      | none => exact reads_pure _
      | some ticket =>
          cases normalizeApprovalRules rt.toAgentRuntime definition.approvalRules none with
          | error e => exact reads_throw _
          | ok rules => exact reads_pure _

theorem reads_selectResultAwareStep {state : RunState} :
    Reads (selectResultAwareStep definition state) := by
  rw [selectResultAwareStep]
  cases candidateSteps definition state with
  | nil => exact reads_pure _
  | cons first others => exact (reads_query _).bind fun _ => reads_pure _

theorem reads_nextResultAwareStep {fallback : Option AgentStep} {state : RunState} :
    Reads (nextResultAwareStep definition fallback state) := by
  cases fallback with
  | none => exact reads_selectResultAwareStep
  | some step => exact reads_pure _

theorem reads_executionWindowOpen : Reads (executionWindowOpen definition) := by
  rw [executionWindowOpen]
  cases definition.executionWindowStart with
  | none => exact reads_pure _
  | some start =>
      refine (reads_query _).bind fun minutes => ?_
      split
      · exact reads_pure _
      · exact reads_throw _

theorem reads_requireTicket {entityId : String} : Reads (requireTicket definition entityId) := by
  refine (reads_query _).bind fun ticket => ?_
  cases ticket with
  | none => exact reads_throw _
  | some ticket => exact reads_check

theorem reads_buildContext {entityId : String} : Reads (buildContext definition entityId) := by
  refine (reads_query _).bind fun context => ?_
  cases context with
  | error e => exact reads_throw _
  | ok context => exact reads_pure _

theorem reads_selectRevision {version : ℕ} : Reads (selectRevision definition run version) := by
  refine (reads_query _).bind fun revision => ?_
  cases revision with
  | some revision => exact reads_pure _
  | none =>
      simp only
      split
      · exact reads_query _
      · exact reads_pure _

theorem reads_definitionForRun : Reads (definitionForRun definition run) := by
  rw [definitionForRun]
  cases run.revisionVersion.filter (· ≠ definition.version) with
  | none => exact reads_pure _
  | some version =>
      refine reads_selectRevision.bind fun revision => ?_
      cases revision with
      | none => exact reads_throw _
      | some revision => exact reads_pure _

theorem reads_pendingStep {state : RunState} : Reads (pendingStep state) := by
  rw [pendingStep]
  split
  · exact reads_throw _
  · split
    · exact reads_throw _
    · split
      · exact reads_throw _
      · exact reads_pure _

theorem serves_ask {a : RunAction} (ha : a.serves run) : Serves run (ask a) :=
  ⟨ha, fun _ => trivial⟩

theorem serves_invokeTool {call : ToolCall} : Serves run (invokeTool run call) := by
  have hinvoke : Serves run (ask (.invoke run call)) := serves_ask rfl
  refine hinvoke.bind fun answer => ?_
  rcases answer with error | result
  · cases error with
    | notRegistered => exact (reads_pure _).serves
    | raised message => exact (reads_throw _).serves
  · exact (reads_pure _).serves

theorem serves_decideApproval {decision : ApprovalDecision} :
    Serves run (decideApproval run decision) := by
  have hdecide : Serves run (ask (.decideApproval run decision)) := serves_ask rfl
  refine hdecide.bind fun answer => ?_
  cases answer with
  | error e => exact (reads_throw _).serves
  | ok u => exact (reads_pure _).serves

theorem serves_completeApproval {approvalId : ℕ} {approver : String} {role : Access.Role} :
    Serves run (completeApproval run approvalId approver role) := by
  have hcomplete : Serves run (ask (.completeApproval run approvalId approver role)) :=
    serves_ask rfl
  refine hcomplete.bind fun answer => ?_
  rcases answer with error | result
  · exact (reads_throw _).serves
  · cases result with
    | none => exact (reads_throw _).serves
    | some result => exact (reads_pure _).serves

theorem serves_approvedResult {approvalId : ℕ} {approver : String} {role : Access.Role} :
    Serves run (approvedResult run approvalId approver role) := by
  refine (reads_query _).serves.bind fun status => ?_
  cases status with
  | none => exact (reads_throw _).serves
  | some status =>
      simp only
      split
      · exact serves_decideApproval.bind fun _ => serves_completeApproval
      · exact serves_completeApproval

theorem serves_withdrawApproval {approvalId : Option ℕ} {actor : String} {role : Access.Role} :
    Serves run (withdrawApproval run approvalId actor role) := by
  cases approvalId with
  | none => exact (reads_pure _).serves
  | some approvalId =>
      refine (reads_query _).serves.bind fun status => ?_
      split
      · exact serves_decideApproval
      · exact (reads_pure _).serves

/-- Every attempt acts on the run of the call. -/
theorem serves_executeStepAttempts {actor : String} {actorRole : Option Access.Role}
    {step : AgentStep} {recordIndex attempt : ℕ} {state : RunState} {records : List StepRecord} :
    Serves run (executeStepAttempts rt definition actor actorRole run step recordIndex state attempt
      records) := by
  induction hleft : ((stepFailurePolicy step).maxRetries - attempt).toNat
    using Nat.strong_induction_on generalizing attempt records with
  | _ left ih =>
      rw [executeStepAttempts]
      refine reads_approvalPolicyForTicket.serves.bind fun approvalPolicy => ?_
      refine serves_invokeTool.bind fun result => ?_
      dsimp only
      split
      · exact (reads_pure _).serves
      · split
        · exact ih _ (by omega) rfl
        · exact (reads_pure _).serves

end WaitLocalAgent.AgentRuns
