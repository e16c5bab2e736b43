import WaitLocalAgent.Foundation.Search
import WaitLocalAgent.Model.Approvals

/-! # Agent definitions

`AgentService.create` and `AgentService.update`: what a definition may contain, what it may depend
on, and how it is stored with its revisions. -/

namespace WaitLocalAgent.Agents

open Foundation Approvals

/-! ## Definitions -/

/-- The `failure_policy` of a step, as it is written. -/
structure FailurePolicy where
  mode : String := "stop"
  maxRetries : ℤ := 0
  fallbackToolId : Option String := none
  deriving DecidableEq

structure AgentStep where
  toolId : String
  payload : JsonObject := ∅
  failurePolicy : Option FailurePolicy := none
  deriving DecidableEq

/-- A tool that needs approval when each of the fields has one of its values. -/
structure ApprovalRule where
  toolId : String
  conditions : List (String × List String)
  deriving DecidableEq

structure AgentDefinition where
  id : String
  name : String
  description : String
  enabled : Bool
  trigger : String
  entityType : String
  filters : JsonObject
  enabledTools : List String
  steps : List AgentStep
  maxSteps : ℤ
  executionTimeoutSeconds : ℚ
  clientId : Option ClientId
  version : ℕ
  createdAt : String
  updatedAt : String
  runOncePerEntity : Bool := true
  dependsOnAgentIds : List String := []
  executionWindowStart : Option String := none
  executionWindowEnd : Option String := none
  executionWindowTimezone : String := "UTC"
  contextSources : List String := []
  approvalExpirySeconds : Option ℤ := none
  resultAware : Bool := false
  approvalRequiredTools : List String := []
  approvalRules : List ApprovalRule := []
  deriving DecidableEq

structure AgentDefinitionRevision where
  id : ℕ
  agentId : String
  version : ℕ
  definition : AgentDefinition
  createdAt : String
  clientId : Option ClientId
  deriving DecidableEq

structure Store where
  definitions : Table AgentDefinition.id
  revisions : AutoTable AgentDefinitionRevision.id

/-- The arguments that `create` and `update` share. -/
structure DefinitionRequest where
  name : String
  description : String := ""
  enabled : Bool := true
  trigger : String := "manual"
  entityType : String := "ticket"
  filters : JsonObject := ∅
  enabledTools : List String
  steps : List AgentStep
  maxSteps : ℤ
  executionTimeoutSeconds : ℚ
  runOncePerEntity : Bool := true
  dependsOnAgentIds : List String := []
  executionWindowStart : Option String := none
  executionWindowEnd : Option String := none
  executionWindowTimezone : String := "UTC"
  contextSources : List String := []
  approvalExpirySeconds : Option ℤ := none
  resultAware : Bool := false
  approvalRequiredTools : List String := []
  approvalRules : List ApprovalRule := []

/-- What surrounds the service: the tools of the catalog, the time zones, `str.casefold`, the frames
that a recursion may take, and a redaction that leaves texts without `:`, `=` and `A` alone. -/
structure AgentRuntime extends Runtime where
  tools : List String
  zone : String → Bool
  casefold : String → String
  recursionLimit : ℕ
  redactText_plain : ∀ text : String,
    (∀ c ∈ text.toList, c ≠ ':' ∧ c ≠ '=' ∧ c ≠ 'A') → redactText text = text

/-! ## Errors -/

/-- `AgentDefinitionError`, by its message. -/
inductive AgentDefinitionError where
  | name
  | description
  | trigger
  | entityType
  | filterFields (fields : List String)
  | eventType
  | filterText (field : String)
  | reservedFilters
  | dependencyCount
  | blankDependency
  | duplicateDependencies
  | dependsOnItself
  | dependencyNotFound (agentId : String)
  | dependencyOutOfScope
  | dependencyCycle
  | toolCount
  | duplicateTools
  | unknownTools (toolIds : List String)
  | approvalToolCount
  | blankApprovalTool
  | duplicateApprovalTools
  | approvalToolsNotEnabled (toolIds : List String)
  | ruleCount
  | blankRuleTool
  | ruleToolNotEnabled (toolId : String)
  | duplicateRule (toolId : String)
  | ruleWithoutCondition
  | ruleFields (fields : List String)
  | ruleValueCount (field : String)
  | ruleValueText (field : String)
  | ruleRole
  | stepCount
  | maxSteps
  | timeout
  | windowPair
  | windowTimezone
  | windowFormat (field : String)
  | emptyWindow
  | contextSourceCount
  | blankContextSource
  | duplicateContextSources
  | contextSources (sources : List String)
  | approvalExpiry
  | stepTool
  | policyMode
  | policyRetries
  | blankFallback
  | retryWithoutRetries
  | retriesOutsideRetry
  | fallbackMissing
  | fallbackToItself
  | fallbackNotConfigured
  | fallbackOutsideFallback
  | fallbackCycle
  deriving DecidableEq, Repr

inductive AgentError where
  | definition (error : AgentDefinitionError)
  | keyError (agentId : String)
  | integrityError
  | recursionError
  | runtimeError (message : String)
  deriving DecidableEq, Repr

def refuseIf (condition : Prop) [Decidable condition] (error : AgentDefinitionError) :
    Except AgentError Unit :=
  raiseIf condition (.definition error)

/-! ## Bounds and vocabularies -/

def maxAgentSteps : ℕ := 8

def maxAgentTimeoutSeconds : ℚ := 120

def maxStepRetries : ℤ := 3

def maxContextSources : ℕ := 3

def maxApprovalRules : ℕ := maxAgentSteps

def maxApprovalRuleValues : ℕ := maxAgentSteps

def failurePolicyModes : List String :=
  ["stop", "retry", "fallback", "human_input", "technician_escalation", "blocked"]

def supportedAgentTriggers : List String := ["manual", "scheduled", "event"]

def supportedEntityType : String := "ticket"

def supportedEventTypes : List String :=
  ["ticket.created", "ticket.updated", "ticket.unassigned", "ticket.priority_changed",
    "ticket.status_changed", "ticket.closed", "time_entry.added", "workflow.completed"]

def eventFilterFields : List String :=
  ["event_type", "client_id", "priority", "status", "ticket_id", "workflow_template_id",
    "workflow_run_id"]

def supportedContextSources : List String := ["ticket", "client", "knowledge"]

def approvalRuleFields : List String := ["priority", "status", "actor_role"]

def approvalRuleRoleValues : List String := ["admin", "end_user", "technician", "viewer"]

def sortedOutside (ids known : List String) : List String :=
  (ids.dedup.filter fun id => !known.contains id).insertionSort (· ≤ ·)

/-! ## Checks of a definition -/

def filterText? : Approvals.JsonValue → Option String
  | .text value => if Text.strip value = "" then none else some value
  | _ => none

def validateEventFilters (filters : JsonObject) : Except AgentError Unit := do
  let unknown := sortedOutside (filters.entries.map Sigma.fst) eventFilterFields
  refuseIf (unknown ≠ []) (.filterFields unknown)
  refuseIf (¬ supportedEventTypes.any fun eventType =>
    filters.lookup "event_type" == some (.text eventType)) .eventType
  filters.entries.forM fun ⟨field, value⟩ =>
    refuseIf (field ≠ "event_type" ∧ filterText? value = none) (.filterText field)

/-- What `_validate_definition` checks before the dependencies. -/
def validateHeader (request : DefinitionRequest) : Except AgentError Unit := do
  refuseIf (Text.strip request.name = "" ∨ 120 < (Text.strip request.name).length) .name
  refuseIf (4000 < request.description.length) .description
  refuseIf (request.trigger ∉ supportedAgentTriggers) .trigger
  refuseIf (request.entityType ≠ supportedEntityType) .entityType
  if request.trigger = "event" then validateEventFilters request.filters
  else refuseIf (request.filters.entries ≠ []) .reservedFilters

def normalizedWindowValue (value field : String) : Except AgentError String :=
  let stripped := Text.strip value
  match stripped.toList with
  | [h, h', ':', m, m'] =>
      if h.isDigit ∧ h'.isDigit ∧ m.isDigit ∧ m'.isDigit ∧ [h, h'] < ['2', '4'] ∧
        [m, m'] < ['6', '0'] then .ok stripped
      else .error (.definition (.windowFormat field))
  | _ => .error (.definition (.windowFormat field))

def normalizedExecutionWindow (rt : AgentRuntime) (start stop : Option String) (zone : String) :
    Except AgentError (Option String × Option String × String) := do
  refuseIf (start.isSome ≠ stop.isSome) .windowPair
  refuseIf (Text.strip zone = "" ∨ rt.zone (Text.strip zone) = false) .windowTimezone
  match start, stop with
  | some start, some stop => do
      let start ← normalizedWindowValue start "execution_window_start"
      let stop ← normalizedWindowValue stop "execution_window_end"
      refuseIf (start = stop) .emptyWindow
      return (some start, some stop, Text.strip zone)
  | _, _ => return (none, none, Text.strip zone)

def validateContextSources (sources : List String) : Except AgentError Unit := do
  refuseIf (maxContextSources < sources.length) .contextSourceCount
  refuseIf (∃ source ∈ sources, Text.strip source = "") .blankContextSource
  refuseIf (¬ sources.Nodup) .duplicateContextSources
  let unknown := sortedOutside sources supportedContextSources
  refuseIf (unknown ≠ []) (.contextSources unknown)

/-- The values of a condition, stripped, folded and without duplicates. -/
def normalizeRuleValues (rt : AgentRuntime) (field : String) (values : List String) :
    Except AgentError (List String) := do
  refuseIf (values = [] ∨ maxApprovalRuleValues < values.length) (.ruleValueCount field)
  values.foldlM (fun kept raw => do
    refuseIf (Text.strip raw = "" ∨ 40 < (Text.strip raw).length) (.ruleValueText field)
    let value := rt.casefold (Text.strip raw)
    refuseIf (field = "actor_role" ∧ value ∉ approvalRuleRoleValues) .ruleRole
    return if value ∈ kept then kept else kept ++ [value]) []

def normalizeApprovalRule (rt : AgentRuntime) (enabledTools : Option (List String))
    (normalized : List ApprovalRule) (rule : ApprovalRule) :
    Except AgentError (List ApprovalRule) := do
  let toolId := Text.strip rule.toolId
  refuseIf (toolId = "") .blankRuleTool
  refuseIf (∃ enabled ∈ enabledTools, toolId ∉ enabled) (.ruleToolNotEnabled toolId)
  refuseIf (∃ earlier ∈ normalized, earlier.toolId = toolId) (.duplicateRule toolId)
  refuseIf (rule.conditions = []) .ruleWithoutCondition
  let unknown := sortedOutside (rule.conditions.map Prod.fst) approvalRuleFields
  refuseIf (unknown ≠ []) (.ruleFields unknown)
  let conditions ← rule.conditions.mapM fun (field, values) => do
    return (field, ← normalizeRuleValues rt field values)
  return normalized ++ [⟨toolId, conditions⟩]

def normalizeApprovalRules (rt : AgentRuntime) (rules : List ApprovalRule)
    (enabledTools : Option (List String)) : Except AgentError (List ApprovalRule) := do
  refuseIf (maxApprovalRules < rules.length) .ruleCount
  rules.foldlM (normalizeApprovalRule rt enabledTools) []

/-! ## Failure policies -/

def validateFailurePolicy (enabledTools configuredTools : List String) (toolId : String)
    (policy : FailurePolicy) : Except AgentError Unit := do
  refuseIf (policy.mode ∉ failurePolicyModes) .policyMode
  refuseIf (policy.maxRetries < 0 ∨ maxStepRetries < policy.maxRetries) .policyRetries
  refuseIf (∃ fallback ∈ policy.fallbackToolId, Text.strip fallback = "") .blankFallback
  refuseIf (policy.mode = "retry" ∧ policy.maxRetries < 1) .retryWithoutRetries
  refuseIf (policy.mode ≠ "retry" ∧ policy.maxRetries ≠ 0) .retriesOutsideRetry
  match policy.fallbackToolId with
  | none => refuseIf (policy.mode = "fallback") .fallbackMissing
  | some fallback => do
      refuseIf (policy.mode ≠ "fallback") .fallbackOutsideFallback
      refuseIf (fallback = toolId) .fallbackToItself
      refuseIf (fallback ∉ enabledTools ∨ fallback ∉ configuredTools) .fallbackNotConfigured

/-- `fallback_graph`: a later step with the same tool overwrites an earlier one. -/
def fallbackGraph (steps : List AgentStep) : AList fun _ : String => String :=
  steps.foldl (fun graph step =>
    match step.failurePolicy with
    | some ⟨"fallback", _, some fallback⟩ => graph.insert step.toolId fallback
    | _ => graph) ∅

/-- `visit` of `_validate_failure_policies`: the fallbacks of a tool come to an end. -/
def fallbacksEnd (graph : AList fun _ : String => String) (toolId : String)
    (visiting : Finset String) : Bool :=
  match _hlookup : graph.lookup toolId with
  | none => true
  | some fallback =>
      if _hvisiting : toolId ∈ visiting then false
      else fallbacksEnd graph fallback (insert toolId visiting)
termination_by (graph.keys.toFinset \ visiting).card
decreasing_by
  refine Finset.card_lt_card ⟨?_, ?_⟩
  · exact Finset.sdiff_subset_sdiff (Finset.Subset.refl _) (Finset.subset_insert _ _)
  · intro hsub
    have hkey : toolId ∈ graph.keys.toFinset := by
      rw [List.mem_toFinset]
      exact AList.lookup_isSome.mp (by rw [_hlookup]; rfl)
    have hmem := hsub (Finset.mem_sdiff.mpr ⟨hkey, _hvisiting⟩)
    exact (Finset.mem_sdiff.mp hmem).2 (Finset.mem_insert_self _ _)

def validateFailurePolicies (steps : List AgentStep) (enabledTools : List String) :
    Except AgentError Unit := do
  let configuredTools := steps.map AgentStep.toolId
  steps.forM fun step =>
    match step.failurePolicy with
    | none => pure ()
    | some policy => validateFailurePolicy enabledTools configuredTools step.toolId policy
  let graph := fallbackGraph steps
  refuseIf (∃ toolId ∈ graph.keys, fallbacksEnd graph toolId ∅ = false) .fallbackCycle

/-- What `_validate_definition` checks after the dependencies. -/
def validateBody (rt : AgentRuntime) (request : DefinitionRequest) : Except AgentError Unit := do
  let enabled := request.enabledTools
  refuseIf (enabled = [] ∨ maxAgentSteps < enabled.length) .toolCount
  refuseIf (¬ enabled.Nodup) .duplicateTools
  let unknown := sortedOutside enabled rt.tools
  refuseIf (unknown ≠ []) (.unknownTools unknown)
  let required := request.approvalRequiredTools
  refuseIf (maxAgentSteps < required.length) .approvalToolCount
  refuseIf (∃ toolId ∈ required, Text.strip toolId = "") .blankApprovalTool
  refuseIf (¬ required.Nodup) .duplicateApprovalTools
  let outside := sortedOutside required enabled
  refuseIf (outside ≠ []) (.approvalToolsNotEnabled outside)
  let _ ← normalizeApprovalRules rt request.approvalRules (some enabled)
  refuseIf (request.steps = [] ∨ maxAgentSteps < request.steps.length) .stepCount
  refuseIf (request.maxSteps < 1 ∨ (maxAgentSteps : ℤ) < request.maxSteps ∨
    request.maxSteps < request.steps.length) .maxSteps
  refuseIf (request.executionTimeoutSeconds ≤ 0 ∨
    maxAgentTimeoutSeconds < request.executionTimeoutSeconds) .timeout
  let _ ← normalizedExecutionWindow rt request.executionWindowStart request.executionWindowEnd
    request.executionWindowTimezone
  validateContextSources request.contextSources
  refuseIf (∃ seconds ∈ request.approvalExpirySeconds,
    seconds < 1 ∨ maxApprovalExpirySeconds < seconds) .approvalExpiry
  request.steps.forM fun step => refuseIf (step.toolId ∉ enabled) .stepTool
  validateFailurePolicies request.steps enabled

/-! ## Dependencies -/

def getAgentDefinition (s : Store) (agentId : String) (clientId : Option String) :
    Option AgentDefinition :=
  match normalizeClientId clientId with
  | none => s.definitions.find? agentId
  | some c => (s.definitions.find? agentId).filter fun d => d.clientId == some c

/-- The graph of `_validate_dependencies`: the stored edges, and for the agent those asked for. -/
def dependencyGraph (s : Store) (agentId : String) (dependencyIds : List String) (node : String) :
    List String :=
  if node = agentId then dependencyIds
  else ((s.definitions.find? node).map AgentDefinition.dependsOnAgentIds).getD []

def requireDependency (s : Store) (agentId : String) (clientId : Option ClientId)
    (dependencyId : String) : Except AgentError Unit := do
  refuseIf (dependencyId = agentId) .dependsOnItself
  match getAgentDefinition s dependencyId none with
  | none => .error (.definition (.dependencyNotFound dependencyId))
  | some dependency =>
      refuseIf (dependency.clientId ≠ none ∧ dependency.clientId ≠ clientId) .dependencyOutOfScope

/-- The checks of `_validate_dependencies` before its search. -/
def requireDependencies (s : Store) (agentId : String) (dependencyIds : List String)
    (clientId : Option ClientId) : Except AgentError Unit := do
  refuseIf (maxAgentSteps < dependencyIds.length) .dependencyCount
  refuseIf (∃ dependencyId ∈ dependencyIds, Text.strip dependencyId = "") .blankDependency
  refuseIf (¬ dependencyIds.Nodup) .duplicateDependencies
  dependencyIds.forM (requireDependency s agentId clientId)

def searchCycle (rt : AgentRuntime) (s : Store) (agentId : String) (dependencyIds : List String) :
    Except AgentError Unit :=
  match Search.visit (dependencyGraph s agentId dependencyIds) rt.recursionLimit agentId
    Search.Marks.none with
  | .ok _ => .ok ()
  | .error .cycle => .error (.definition .dependencyCycle)
  | .error .depth => .error .recursionError

def validateDependencies (rt : AgentRuntime) (s : Store) (agentId : String)
    (dependencyIds : List String) (clientId : Option ClientId) : Except AgentError Unit := do
  requireDependencies s agentId dependencyIds clientId
  searchCycle rt s agentId dependencyIds

def validateDefinition (rt : AgentRuntime) (s : Store) (agentId : String)
    (clientId : Option ClientId) (request : DefinitionRequest) : Except AgentError Unit := do
  validateHeader request
  validateDependencies rt s agentId request.dependsOnAgentIds clientId
  validateBody rt request

/-! ## Definitions in the store -/

def AgentStep.redacted (rt : AgentRuntime) (step : AgentStep) : AgentStep where
  toolId := rt.redactText step.toolId
  payload := rt.redactValue step.payload
  failurePolicy := step.failurePolicy.map fun policy =>
    { policy with
      mode := rt.redactText policy.mode
      fallbackToolId := policy.fallbackToolId.map rt.redactText }

def ApprovalRule.redacted (rt : AgentRuntime) (rule : ApprovalRule) : ApprovalRule where
  toolId := rt.redactText rule.toolId
  conditions := rule.conditions.map fun (field, values) => (field, values.map rt.redactText)

def AgentDefinition.stored (rt : AgentRuntime) (definition : AgentDefinition) : AgentDefinition :=
  { definition with
    filters := rt.redactValue definition.filters
    enabledTools := definition.enabledTools.map rt.redactText
    steps := definition.steps.map (AgentStep.redacted rt)
    dependsOnAgentIds := definition.dependsOnAgentIds.map rt.redactText
    contextSources := definition.contextSources.map rt.redactText
    approvalRequiredTools := definition.approvalRequiredTools.map rt.redactText
    approvalRules := definition.approvalRules.map (ApprovalRule.redacted rt) }

/-- `_agent_definition_snapshot`, which redacts the name and the description too. -/
def AgentDefinition.snapshot (rt : AgentRuntime) (definition : AgentDefinition) :
    AgentDefinition :=
  { definition.stored rt with
    name := rt.redactText definition.name
    description := rt.redactText definition.description }

def AgentDefinition.revision (rt : AgentRuntime) (definition : AgentDefinition) (id : ℕ) :
    AgentDefinitionRevision where
  id := id
  agentId := definition.id
  version := definition.version
  definition := definition.snapshot rt
  createdAt := definition.updatedAt
  clientId := definition.clientId

theorem AgentDefinition.revision_id (rt : AgentRuntime) (definition : AgentDefinition) (id : ℕ) :
    (definition.revision rt id).id = id := rfl

/-- `_insert_agent_revision`, under `unique(agent_id, version)`. -/
def insertAgentRevision (rt : AgentRuntime) (s : Store) (definition : AgentDefinition) :
    Except AgentError Store := do
  raiseIf (∃ revision ∈ s.revisions.table.rows,
    revision.agentId = definition.id ∧ revision.version = definition.version) .integrityError
  return { s with
    revisions := s.revisions.insert (definition.revision rt) (definition.revision_id rt) }

/-- The closing read of both calls. -/
def readBack (s : Store) (agentId : String) : Except AgentError (AgentDefinition × Store) :=
  match getAgentDefinition s agentId none with
  | some definition => .ok (definition, s)
  | none => .error (.runtimeError "agent definition was not persisted")

def createAgentDefinition (rt : AgentRuntime) (s : Store) (definition : AgentDefinition) :
    Except AgentError (AgentDefinition × Store) := do
  match s.definitions.insert? (definition.stored rt) with
  | none => .error .integrityError
  | some definitions => do
      let s ← insertAgentRevision rt { s with definitions } definition
      readBack s definition.id

/-- `update agent_definitions set …`: every column but `id` and `created_at`. -/
def AgentDefinition.overwrite (rt : AgentRuntime) (definition row : AgentDefinition) :
    AgentDefinition :=
  { definition.stored rt with id := row.id, createdAt := row.createdAt }

theorem AgentDefinition.overwrite_id (rt : AgentRuntime) (definition row : AgentDefinition) :
    (definition.overwrite rt row).id = row.id := rfl

def updateAgentDefinition (rt : AgentRuntime) (s : Store) (definition : AgentDefinition) :
    Except AgentError (AgentDefinition × Store) := do
  raiseIf (s.definitions.rowcount (fun d => d.id == definition.id) ≠ 1) (.keyError definition.id)
  let definitions := s.definitions.update (fun d => d.id == definition.id)
    (definition.overwrite rt) (definition.overwrite_id rt)
  let s ← insertAgentRevision rt { s with definitions } definition
  readBack s definition.id

/-! ## Calls -/

def DefinitionRequest.definition (rt : AgentRuntime) (request : DefinitionRequest) (id : String)
    (clientId : Option ClientId) (version : ℕ) (createdAt updatedAt : String) :
    Except AgentError AgentDefinition := do
  let (start, stop, zone) ← normalizedExecutionWindow rt request.executionWindowStart
    request.executionWindowEnd request.executionWindowTimezone
  let approvalRules ← normalizeApprovalRules rt request.approvalRules none
  return {
    id, clientId, version, createdAt, updatedAt, approvalRules
    name := Text.strip request.name
    description := Text.strip request.description
    enabled := request.enabled
    trigger := request.trigger
    entityType := request.entityType
    filters := rt.redactValue request.filters
    enabledTools := request.enabledTools
    steps := request.steps.map (AgentStep.redacted rt)
    maxSteps := request.maxSteps
    executionTimeoutSeconds := request.executionTimeoutSeconds
    runOncePerEntity := request.runOncePerEntity
    dependsOnAgentIds := request.dependsOnAgentIds
    executionWindowStart := start
    executionWindowEnd := stop
    executionWindowTimezone := zone
    contextSources := request.contextSources
    approvalExpirySeconds := request.approvalExpirySeconds
    resultAware := request.resultAware
    approvalRequiredTools := request.approvalRequiredTools }

def uuidHex (uuid : BitVec 128) : List Char :=
  List.ofFn fun i : Fin 32 => Nat.digitChar (uuid.toNat / 16 ^ (31 - i.val) % 16)

def newAgentId (uuid : BitVec 128) : String := String.ofList ("agent-".toList ++ uuidHex uuid)

def create (rt : AgentRuntime) (s : Store) (request : DefinitionRequest)
    (clientId : Option String) (uuid : BitVec 128) (now : Instant) :
    Except AgentError (AgentDefinition × Store) := do
  let agentId := newAgentId uuid
  validateDefinition rt s agentId (normalizeClientId clientId) request
  let definition ← request.definition rt agentId (normalizeClientId clientId) 1 (rt.text now)
    (rt.text now)
  createAgentDefinition rt s definition

def update (rt : AgentRuntime) (s : Store) (existing : AgentDefinition)
    (request : DefinitionRequest) (now : Instant) :
    Except AgentError (AgentDefinition × Store) := do
  validateDefinition rt s existing.id existing.clientId request
  let definition ← request.definition rt existing.id existing.clientId (existing.version + 1)
    existing.createdAt (rt.text now)
  updateAgentDefinition rt s definition

/-! ## Callers -/

/-- The store, and the definitions that callers have read. -/
structure Desks (W : Type) where
  store : Store
  held : W → Option AgentDefinition

inductive DeskStep (W : Type) where
  | create (request : DefinitionRequest) (clientId : Option String) (uuid : BitVec 128)
      (now : Instant)
  | get (w : W) (agentId : String) (clientId : Option String)
  | update (w : W) (request : DefinitionRequest) (now : Instant)

def Desks.step {W : Type} [DecidableEq W] (rt : AgentRuntime) (p : Desks W) :
    DeskStep W → Desks W
  | .create request clientId uuid now =>
      { p with
        store := committed p.store
          ((create rt p.store request clientId uuid now).map Prod.snd) }
  | .get w agentId clientId =>
      { p with held := Function.update p.held w (getAgentDefinition p.store agentId clientId) }
  | .update w request now =>
      match p.held w with
      | none => p
      | some existing =>
          { p with
            store := committed p.store ((update rt p.store existing request now).map Prod.snd) }

/-- Any sequence of calls, from a store without definitions. -/
def desks (W : Type) [DecidableEq W] (rt : AgentRuntime) : Machine (Desks W) (DeskStep W) where
  init := ⟨⟨.empty, .empty⟩, fun _ => none⟩
  step := Desks.step rt

end WaitLocalAgent.Agents
