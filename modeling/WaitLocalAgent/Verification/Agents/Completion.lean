import WaitLocalAgent.Foundation.Outcomes
import WaitLocalAgent.Model.AgentSessions
import WaitLocalAgent.Verification.Agents.Dependencies
import WaitLocalAgent.Verification.Redaction.Plain

/-! # What a completed result-aware run has executed

The loop stops when the records fill the bound of the definition. A tool takes one record for each
attempt, so the retries of some tools may use up the records of the others, and the run is completed
without them. -/

namespace WaitLocalAgent.AgentRuns

open Foundation Approvals Agents Program
open SmartActions (ActionResult ServiceError)

/-! ## Definitions that were accepted -/

/-- A runtime with `redact_text`, over a catalog of tools. -/
structure CatalogRuntime extends RunRuntime where
  words : WordClass
  redactText_eq : redactText = Redaction.redactText words
  tools_ne_blank : ∀ toolId ∈ tools, Text.strip toolId ≠ ""

/-- A definition that `create` or `update` has returned. -/
inductive Accepted (rt : AgentRuntime) (definition : AgentDefinition) : Prop where
  | create (s s' : Agents.Store) (request : DefinitionRequest) (clientId : Option String)
      (uuid : BitVec 128) (now : Instant)
      (h : Agents.create rt s request clientId uuid now = .ok (definition, s'))
  | update (s s' : Agents.Store) (existing : AgentDefinition) (request : DefinitionRequest)
      (now : Instant) (h : Agents.update rt s existing request now = .ok (definition, s'))

/-- What the checks of a definition say of its row. -/
structure Reviewed (rt : AgentRuntime) (definition : AgentDefinition) : Prop where
  enabled : ∀ step ∈ definition.steps, step.toolId ∈ definition.enabledTools
  redacted : ∀ step ∈ definition.steps, rt.redactText step.toolId = step.toolId
  named : ∀ step ∈ definition.steps, step.toolId ≠ ""
  maxSteps : 0 < definition.maxSteps
  timeout : 0 < definition.executionTimeoutSeconds
  entityType : definition.entityType = supportedEntityType
  opens : definition.executionWindowStart = none ∨ ∃ start stop startMinutes stopMinutes,
    definition.executionWindowStart = some start ∧ definition.executionWindowEnd = some stop ∧
      windowMinutes start = some startMinutes ∧ windowMinutes stop = some stopMinutes

section Accepted

variable {rt : CatalogRuntime} {request : DefinitionRequest} {definition row : AgentDefinition}
  {s s' : Agents.Store}

theorem redactText_idem (rt : CatalogRuntime) (text : String) :
    rt.redactText (rt.redactText text) = rt.redactText text := by
  rw [rt.redactText_eq]
  exact Redaction.redactText_redactText rt.words text

theorem redactText_ne_empty {text : String} (h : Text.strip text ≠ "") :
    rt.redactText text ≠ "" := by
  intro hempty
  have hblank : Text.strip (rt.redactText text) = "" := by
    rw [hempty]
    decide
  rw [rt.redactText_eq] at hblank
  exact h (Redaction.strip_redactText_eq_empty_iff.mp hblank)

/-- What the checks say of a request. -/
structure ReviewedRequest (rt : AgentRuntime) (request : DefinitionRequest) : Prop where
  enabled : ∀ step ∈ request.steps, step.toolId ∈ request.enabledTools
  known : ∀ toolId ∈ request.enabledTools, toolId ∈ rt.tools
  maxSteps : 0 < request.maxSteps
  timeout : 0 < request.executionTimeoutSeconds
  entityType : request.entityType = supportedEntityType

theorem mem_of_sortedOutside {ids known : List String} (h : sortedOutside ids known = [])
    {id : String} (hid : id ∈ ids) : id ∈ known := by
  by_contra hunknown
  have hmem : id ∈ sortedOutside ids known := by
    simp [sortedOutside, hid, hunknown]
  rw [h] at hmem
  cases hmem

theorem validateDefinition_eq_ok {agentId : String} {clientId : Option ClientId}
    (h : validateDefinition rt.toAgentRuntime s agentId clientId request = .ok ()) :
    ReviewedRequest rt.toAgentRuntime request := by
  simp only [validateDefinition, validateHeader, validateBody, bind_eq_ok, refuseIf_eq_ok,
    forM_eq_ok] at h
  obtain ⟨_, ⟨_, _, _, _, _, _, _, htype, _⟩, _, _, _, _, _, _, _, hunknown, _, _, _, _, _, _, _,
    _, _, _, _, _, _, hmax, _, htimeout, _, _, _, _, _, _, _, hsteps, _⟩ := h
  refine ⟨fun step hstep => not_not.mp (hsteps step hstep),
    fun toolId htool => mem_of_sortedOutside (not_not.mp hunknown) htool, ?_, ?_, not_not.mp htype⟩
  · push Not at hmax
    omega
  · push Not at htimeout
    exact htimeout.1

/-! The row that a call returns -/

theorem row_of_create (h : createAgentDefinition rt.toAgentRuntime s definition = .ok (row, s')) :
    row = definition.overwrite rt.toAgentRuntime definition := by
  unfold createAgentDefinition at h
  split at h
  · cases h
  · rename_i definitions hinsert
    simp only [bind_eq_ok] at h
    obtain ⟨s₁, hrevision, h⟩ := h
    have hstored : getAgentDefinition s₁ definition.id none =
        some (definition.stored rt.toAgentRuntime) := by
      rw [getAgentDefinition_none, insertAgentRevision_definitions hrevision,
        Table.find?_of_insert? hinsert]
      exact if_pos rfl
    rw [Agents.readBack, hstored] at h
    cases h
    rfl

theorem row_of_update (h : updateAgentDefinition rt.toAgentRuntime s definition = .ok (row, s')) :
    ∃ before, row = definition.overwrite rt.toAgentRuntime before := by
  simp only [updateAgentDefinition, bind_eq_ok] at h
  obtain ⟨_, -, s₁, hrevision, h⟩ := h
  have hfound : getAgentDefinition s₁ definition.id none =
      (s.definitions.find? definition.id).map (definition.overwrite rt.toAgentRuntime) := by
    rw [getAgentDefinition_none, insertAgentRevision_definitions hrevision]
    have hupdated := @Table.find?_update_key _ _ _ s.definitions (fun d => d.id == definition.id)
      (definition.overwrite rt.toAgentRuntime) (definition.overwrite_id rt.toAgentRuntime) _
      definition.id definition.id fun r => by simp
    exact hupdated.trans (if_pos rfl)
  rw [Agents.readBack, hfound] at h
  cases hrow : s.definitions.find? definition.id with
  | none =>
      rw [hrow] at h
      cases h
  | some before =>
      rw [hrow] at h
      cases h
      exact ⟨before, rfl⟩

/-- A stored window opens and closes at two moments of the day. -/
theorem windowMinutes_of_normalized {value field stored : String}
    (h : normalizedWindowValue value field = .ok stored) :
    ∃ minutes, windowMinutes stored = some minutes := by
  unfold normalizedWindowValue at h
  simp only at h
  split at h
  · rename_i c c' m m' hchars
    split at h
    · rename_i hdigits
      cases h
      unfold windowMinutes
      rw [hchars]
      simp only
      rw [if_pos hdigits]
      exact ⟨_, rfl⟩
    · cases h
  · cases h

theorem normalizedExecutionWindow_opens {start stop start' stop' : Option String}
    {zone zone' : String}
    (h : normalizedExecutionWindow rt.toAgentRuntime start stop zone =
      .ok (start', stop', zone')) :
    start' = none ∨ ∃ first last firstMinutes lastMinutes, start' = some first ∧
      stop' = some last ∧ windowMinutes first = some firstMinutes ∧
      windowMinutes last = some lastMinutes := by
  simp only [normalizedExecutionWindow, bind_eq_ok] at h
  obtain ⟨_, -, _, -, h⟩ := h
  split at h
  · simp only [bind_eq_ok, pure_eq_ok] at h
    obtain ⟨first, hfirst, last, hlast, _, -, h⟩ := h
    cases h
    obtain ⟨firstMinutes, hfirstMinutes⟩ := windowMinutes_of_normalized hfirst
    obtain ⟨lastMinutes, hlastMinutes⟩ := windowMinutes_of_normalized hlast
    exact .inr ⟨first, last, firstMinutes, lastMinutes, rfl, rfl, hfirstMinutes, hlastMinutes⟩
  · cases h
    exact .inl rfl

/-- A checked request is stored as a reviewed definition. -/
theorem ReviewedRequest.reviewed {id createdAt updatedAt : String} {clientId : Option ClientId}
    {version : ℕ} (h : ReviewedRequest rt.toAgentRuntime request)
    (hdefinition : request.definition rt.toAgentRuntime id clientId version createdAt updatedAt =
      .ok definition) (before : AgentDefinition) :
    Reviewed rt.toAgentRuntime (definition.overwrite rt.toAgentRuntime before) := by
  simp only [DefinitionRequest.definition, bind_eq_ok, pure_eq_ok] at hdefinition
  obtain ⟨⟨start, stop, zone⟩, hwindow, _, -, rfl⟩ := hdefinition
  have hsteps : ∀ step ∈ (request.steps.map (AgentStep.redacted rt.toAgentRuntime)).map
      (AgentStep.redacted rt.toAgentRuntime), ∃ toolId ∈ request.enabledTools,
        step.toolId = rt.redactText toolId := by
    intro step hstep
    simp only [List.map_map, List.mem_map, Function.comp_apply] at hstep
    obtain ⟨raw, hraw, rfl⟩ := hstep
    exact ⟨raw.toolId, h.enabled raw hraw, redactText_idem rt raw.toolId⟩
  refine ⟨?_, ?_, ?_, h.maxSteps, h.timeout, h.entityType, normalizedExecutionWindow_opens hwindow⟩
  · intro step hstep
    obtain ⟨toolId, htool, hname⟩ := hsteps step hstep
    exact List.mem_map.mpr ⟨toolId, htool, hname.symm⟩
  · intro step hstep
    obtain ⟨toolId, -, hname⟩ := hsteps step hstep
    rw [hname, redactText_idem]
  · intro step hstep
    obtain ⟨toolId, htool, hname⟩ := hsteps step hstep
    rw [hname]
    exact redactText_ne_empty (rt.tools_ne_blank toolId (h.known toolId htool))

theorem Accepted.reviewed (h : Accepted rt.toAgentRuntime definition) :
    Reviewed rt.toAgentRuntime definition := by
  cases h with
  | create s s' request clientId uuid now h =>
      simp only [Agents.create, bind_eq_ok] at h
      obtain ⟨_, hvalid, raw, hraw, hcreate⟩ := h
      rw [row_of_create hcreate]
      exact (validateDefinition_eq_ok hvalid).reviewed hraw _
  | update s s' existing request now h =>
      simp only [Agents.update, bind_eq_ok] at h
      obtain ⟨_, hvalid, raw, hraw, hupdate⟩ := h
      obtain ⟨before, rfl⟩ := row_of_update hupdate
      exact (validateDefinition_eq_ok hvalid).reviewed hraw _

end Accepted

/-! ## Attempts of the tools -/

def maxAttempts (step : AgentStep) : ℕ :=
  if (stepFailurePolicy step).mode = "retry" then (stepFailurePolicy step).maxRetries.toNat + 1
  else 1

def toolIds (steps : List AgentStep) : Finset String := (steps.map AgentStep.toolId).toFinset

/-- The attempts that a tool has at most: those of the first step with it. -/
def toolAttempts (steps : List AgentStep) (toolId : String) : ℕ :=
  ((steps.find? fun step => step.toolId == toolId).map maxAttempts).getD 0

/-- The other tools cannot fill the bound of the definition before a tool has its turn. -/
def LeavesRoom (definition : AgentDefinition) : Prop :=
  ∀ toolId ∈ toolIds definition.steps,
    ((∑ other ∈ (toolIds definition.steps).erase toolId,
      toolAttempts definition.steps other : ℕ) : ℤ) < definition.maxSteps

instance (definition : AgentDefinition) : Decidable (LeavesRoom definition) :=
  inferInstanceAs (Decidable (∀ toolId ∈ toolIds definition.steps, _))

section Attempts

variable {steps : List AgentStep} {tools : List String} {toolId : String} {step : AgentStep}

theorem mem_toolIds : toolId ∈ toolIds steps ↔ ∃ step ∈ steps, step.toolId = toolId := by
  simp [toolIds]

theorem maxAttempts_pos (step : AgentStep) : 0 < maxAttempts step := by
  unfold maxAttempts
  split <;> omega

theorem toolAttempts_of_find (h : steps.find? (fun step => step.toolId == toolId) = some step) :
    toolAttempts steps toolId = maxAttempts step := by
  simp [toolAttempts, h]

theorem mem_toolIds_of_pos (h : 0 < toolAttempts steps toolId) : toolId ∈ toolIds steps := by
  unfold toolAttempts at h
  cases hfind : steps.find? fun step => step.toolId == toolId with
  | none => simp [hfind] at h
  | some step =>
      have hname := List.find?_some hfind
      exact mem_toolIds.mpr ⟨step, List.mem_of_find?_eq_some hfind, by simpa using hname⟩

/-- No tool has more records than attempts. -/
def Bounded (steps : List AgentStep) (tools : List String) : Prop :=
  ∀ toolId, tools.count toolId ≤ toolAttempts steps toolId

theorem bounded_nil : Bounded steps [] := fun _ => by simp

theorem Bounded.mem (h : Bounded steps tools) (htool : toolId ∈ tools) : toolId ∈ toolIds steps :=
  mem_toolIds_of_pos ((List.count_pos_iff.mpr htool).trans_le (h toolId))

/-- The attempts of a tool that has no records yet. -/
theorem Bounded.append {n : ℕ} (h : Bounded steps tools) (hfresh : toolId ∉ tools)
    (hn : n ≤ toolAttempts steps toolId) :
    Bounded steps (tools ++ List.replicate n toolId) := by
  intro other
  rw [List.count_append, List.count_replicate]
  by_cases hother : toolId = other
  · subst hother
    simpa [List.count_eq_zero_of_not_mem hfresh] using hn
  · simpa [hother] using h other

theorem sum_count (tools : List String) :
    ∑ toolId ∈ tools.toFinset, tools.count toolId = tools.length :=
  List.sum_toFinset_count_eq_length tools

/-- As many records as the bound allows are records of every tool. -/
theorem Bounded.mem_of_room {definition : AgentDefinition} (h : Bounded definition.steps tools)
    (hroom : LeavesRoom definition) (hfull : definition.maxSteps ≤ tools.length)
    (htool : toolId ∈ toolIds definition.steps) : toolId ∈ tools := by
  by_contra hmissing
  have hsub : tools.toFinset ⊆ (toolIds definition.steps).erase toolId := by
    intro other hother
    rw [List.mem_toFinset] at hother
    refine Finset.mem_erase.mpr ⟨?_, h.mem hother⟩
    rintro rfl
    exact hmissing hother
  have hlength : tools.length ≤ ∑ other ∈ (toolIds definition.steps).erase toolId,
      toolAttempts definition.steps other := by
    calc tools.length = ∑ other ∈ tools.toFinset, tools.count other := (sum_count tools).symm
      _ ≤ ∑ other ∈ tools.toFinset, toolAttempts definition.steps other :=
          Finset.sum_le_sum fun other _ => h other
      _ ≤ _ := Finset.sum_le_sum_of_subset hsub
  have hless := hroom toolId htool
  omega

end Attempts

/-! ## Calls that leave the rows alone -/

variable {step : AgentStep}

section Reads

variable {rt : RunRuntime} {original definition : AgentDefinition} {life : Life} {α β : Type}
  {run : AgentRun}

/-- The rows and the selections are as before. -/
structure Life.Same (life life' : Life) : Prop where
  runs : life'.workspace.runs = life.workspace.runs
  selections : life'.selections = life.selections
  most : life'.most ≤ max life.most life.selections

theorem Life.Same.refl (life : Life) : life.Same life := ⟨rfl, rfl, le_max_left _ _⟩

theorem Life.Same.trans {life₁ life₂ : Life} (h : life.Same life₁) (h' : life₁.Same life₂) :
    life.Same life₂ := by
  refine ⟨h'.runs.trans h.runs, h'.selections.trans h.selections, h'.most.trans ?_⟩
  rw [h.selections]
  exact max_le h.most (le_max_right _ _)

/-- An action that is neither a write nor a selection. -/
theorem Life.Same.of_answer {a : RunAction} {env : Surroundings} (hselections : a.selections = 0)
    (hruns : (a.answer life.workspace (env.under rt original)).2.runs = life.workspace.runs) :
    life.Same (lifeAnswer rt original a life env).2 := by
  refine ⟨hruns, ?_, ?_⟩
  · simp [lifeAnswer, hselections]
  · simp [lifeAnswer, hselections]

/-- Whatever it is answered, the call ends in `Q`. -/
abbrev Concludes (rt : RunRuntime) (original : AgentDefinition) (life : Life) (p : Call α)
    (Q : Except RunError α → Life → Prop) : Prop :=
  p.run.Must (lifeAnswer rt original) Q life

/-- The call leaves the rows and the selections alone, and its result meets `P`. -/
def Gives (rt : RunRuntime) (original : AgentDefinition) (life : Life) (p : Call α)
    (P : α → Prop) : Prop :=
  Concludes rt original life p fun result life' => life.Same life' ∧ ∀ x, result = .ok x → P x

theorem gives_pure {x : α} {P : α → Prop} (h : P x) : Gives rt original life (pure x) P := by
  refine ⟨.refl life, ?_⟩
  rintro _ ⟨⟩
  exact h

theorem gives_throw {error : RunError} {P : α → Prop} :
    Gives rt original life (throw error) P :=
  ⟨.refl life, nofun⟩

theorem Concludes.bind {p : Call α} {f : α → Call β} {P : Except RunError α → Life → Prop}
    {Q : Except RunError β → Life → Prop} (hp : Concludes rt original life p P)
    (hf : ∀ x life', P (.ok x) life' → Concludes rt original life' (f x) Q)
    (herror : ∀ e life', P (.error e) life' → Q (.error e) life') :
    Concludes rt original life (p >>= f) Q :=
  Must.bindExcept hp hf herror

/-- What follows a call that leaves the rows alone. -/
theorem Gives.bind_concludes {p : Call α} {f : α → Call β} {P : α → Prop}
    {Q : Except RunError β → Life → Prop} (hp : Gives rt original life p P)
    (hf : ∀ x life', life.Same life' → P x → Concludes rt original life' (f x) Q)
    (herror : ∀ e life', life.Same life' → Q (.error e) life') :
    Concludes rt original life (p >>= f) Q :=
  Concludes.bind hp (fun x life' h => hf x life' h.1 (h.2 x rfl))
    fun e life' h => herror e life' h.1

theorem Gives.bind {p : Call α} {f : α → Call β} {P : α → Prop} {Q : β → Prop}
    (hp : Gives rt original life p P)
    (hf : ∀ x life', P x → Gives rt original life' (f x) Q) :
    Gives rt original life (p >>= f) Q := by
  refine hp.bind_concludes (fun x life' hsame hx => ?_) fun e life' hsame => ⟨hsame, nofun⟩
  exact Must.imp (hf x life' hx) fun y life'' h => ⟨hsame.trans h.1, h.2⟩

theorem gives_ask {a : RunAction} (hselections : a.selections = 0)
    (hruns : ∀ (s : Workspace) (env : Surroundings), (a.answer s env).2.runs = s.runs) :
    Gives rt original life (ask a) fun _ => True :=
  fun _ => ⟨.of_answer hselections (hruns life.workspace _), fun _ _ => trivial⟩

theorem gives_query {q : Query} (hq : (RunAction.query q).selections = 0) :
    Gives rt original life (query q) fun _ => True :=
  gives_ask hq fun _ _ => rfl

theorem gives_check {condition : Prop} [Decidable condition] {error : RunError} :
    Gives rt original life (check condition error) fun _ => ¬ condition := by
  rw [check]
  split
  · exact gives_throw
  · rename_i hcondition
    exact gives_pure hcondition

theorem gives_approvalPolicyForTicket {actorRole : Option Access.Role} {toolId entityId : String} :
    Gives rt original life (approvalPolicyForTicket rt definition actorRole toolId entityId)
      fun _ => True := by
  rw [approvalPolicyForTicket]
  split
  · exact gives_pure trivial
  · split
    · exact gives_pure trivial
    · refine (gives_query rfl).bind fun ticket life' _ => ?_
      cases ticket with
      | none => exact gives_pure trivial
      | some ticket =>
          dsimp only
          split
          · exact gives_throw
          · exact gives_pure trivial

theorem gives_invokeTool {call : ToolCall} :
    Gives rt original life (invokeTool run call) fun _ => True := by
  refine (gives_ask rfl fun _ _ => rfl).bind fun result life' _ => ?_
  cases result with
  | ok result => exact gives_pure trivial
  | error e => cases e with
    | notRegistered => exact gives_pure trivial
    | raised message => exact gives_throw

/-- The records of the attempts of a step, behind those of its earlier ones. -/
def Attempts (step : AgentStep) (attempt : ℕ) (records : List StepRecord)
    (attempts : StepAttempts) : Prop :=
  ∃ n, n + attempt ≤ maxAttempts step ∧
    attempts.records.map StepRecord.toolId =
      records.map StepRecord.toolId ++ List.replicate n step.toolId

theorem gives_executeStepAttempts {actor : String} {actorRole : Option Access.Role}
    {recordIndex attempt : ℕ} {state : RunState} {records : List StepRecord}
    (hattempt : attempt < maxAttempts step) :
    Gives rt original life (executeStepAttempts rt definition actor actorRole run step recordIndex
      state attempt records) (Attempts step attempt records) := by
  induction hleft : ((stepFailurePolicy step).maxRetries - attempt).toNat
    using Nat.strong_induction_on generalizing attempt records life with
  | _ left ih =>
      have hlast : ∀ record : StepRecord, record.toolId = step.toolId →
          (records ++ [record]).map StepRecord.toolId =
            records.map StepRecord.toolId ++ List.replicate 1 step.toolId := by
        intro record hrecord
        simp [hrecord]
      rw [executeStepAttempts]
      refine gives_approvalPolicyForTicket.bind fun approvalPolicy life' _ => ?_
      refine gives_invokeTool.bind fun result life' _ => ?_
      dsimp only
      split
      · exact gives_pure ⟨1, by omega, hlast _ rfl⟩
      · split
        · rename_i hretry
          have hmore : attempt + 1 < maxAttempts step := by
            rw [maxAttempts, if_pos hretry.1]
            omega
          refine Must.imp (ih _ (by omega) hmore rfl) ?_
          intro r life'' h
          refine ⟨h.1, fun attempts hr => ?_⟩
          obtain ⟨n, hn, hrecords⟩ := h.2 attempts hr
          refine ⟨n + 1, by omega, ?_⟩
          rw [hrecords, hlast _ rfl, List.append_assoc, List.replicate_append_replicate,
            Nat.add_comm 1 n]
        · exact gives_pure ⟨1, by omega, hlast _ rfl⟩

/-- What the loop reads of a definition. -/
structure SameLoop (definition definition' : AgentDefinition) : Prop where
  steps : definition'.steps = definition.steps
  enabledTools : definition'.enabledTools = definition.enabledTools
  maxSteps : definition'.maxSteps = definition.maxSteps
  resultAware : definition'.resultAware = definition.resultAware
  enabled : definition'.enabled = definition.enabled

theorem SameLoop.refl (definition : AgentDefinition) : SameLoop definition definition :=
  ⟨rfl, rfl, rfl, rfl, rfl⟩

theorem SameLoop.ofRevision {r : AgentDefinitionRevision} (h : SameLoop original r.definition)
    (definition : AgentDefinition) (run : AgentRun) (version : ℕ) :
    SameLoop original (definitionOfRevision definition run version r) := by
  obtain ⟨hsteps, htools, hmax, haware, henabled⟩ := h
  constructor <;> assumption

theorem gives_revision {agentId : String} {version : ℕ} {clientId : Option ClientId} :
    Gives rt original life (query (.revision agentId version clientId))
      fun revision => ∀ r ∈ revision, SameLoop original r.definition := by
  intro env
  refine ⟨.of_answer rfl rfl, ?_⟩
  rintro _ ⟨⟩ r hr
  obtain ⟨r', -, rfl⟩ := Option.map_eq_some_iff.mp hr
  exact ⟨rfl, rfl, rfl, rfl, rfl⟩

theorem gives_selectRevision {version : ℕ} :
    Gives rt original life (selectRevision definition run version)
      fun revision => ∀ r ∈ revision, SameLoop original r.definition := by
  refine gives_revision.bind fun revision life' hrevision => ?_
  cases revision with
  | some revision => exact gives_pure hrevision
  | none =>
      dsimp only
      split
      · exact gives_revision
      · exact gives_pure fun r hr => absurd hr (Option.not_mem_none r)

/-- A run is resumed under the definition of its start. -/
theorem gives_definitionForRun (hversion : run.revisionVersion = some original.version)
    (hcurrent : definition.version = original.version → definition = original) :
    Gives rt original life (definitionForRun definition run) fun definition =>
      SameLoop original definition ∧ definition.version = original.version := by
  rw [definitionForRun, hversion]
  by_cases hsame : definition.version = original.version
  · obtain rfl := hcurrent hsame
    simp only [Option.filter_some, ne_eq, not_true_eq_false, decide_false]
    exact gives_pure ⟨.refl definition, rfl⟩
  · simp only [Option.filter_some, ne_eq, Ne.symm hsame, not_false_eq_true, decide_true, if_true]
    refine gives_selectRevision.bind fun revision life' hrevision => ?_
    cases revision with
    | none => exact gives_throw
    | some r =>
        exact gives_pure ⟨(hrevision r rfl).ofRevision _ _ _, rfl⟩

theorem gives_pendingStep {state : RunState} :
    Gives rt original life (pendingStep state)
      fun (index, record, _) => state.steps[index]? = some record := by
  rw [pendingStep]
  split
  · exact gives_throw
  · split
    · exact gives_throw
    · rename_i hrecord
      split
      · exact gives_throw
      · exact gives_pure hrecord

theorem gives_decideApproval {decision : ApprovalDecision} :
    Gives rt original life (decideApproval run decision) fun _ => True := by
  refine (gives_ask rfl fun _ _ => rfl).bind fun result life' _ => ?_
  cases result with
  | ok _ => exact gives_pure trivial
  | error e => exact gives_throw

theorem gives_completeApproval {approvalId : ℕ} {approver : String} {role : Access.Role} :
    Gives rt original life (completeApproval run approvalId approver role) fun _ => True := by
  refine (gives_ask rfl fun _ _ => rfl).bind fun result life' _ => ?_
  cases result with
  | error e => exact gives_throw
  | ok result => cases result with
    | none => exact gives_throw
    | some result => exact gives_pure trivial

theorem gives_approvedResult {approvalId : ℕ} {approver : String} {role : Access.Role} :
    Gives rt original life (approvedResult run approvalId approver role) fun _ => True := by
  refine (gives_query rfl).bind fun status life' _ => ?_
  cases status with
  | none => exact gives_throw
  | some status =>
      dsimp only
      split
      · exact gives_decideApproval.bind fun _ _ _ => gives_completeApproval
      · exact gives_completeApproval

end Reads

/-! ## Sound lives -/

def recordedTools (state : RunState) : List String := state.steps.map StepRecord.toolId

/-- Every enabled tool of the steps has a record. -/
def Complete (definition : AgentDefinition) (state : RunState) : Prop :=
  ∀ step ∈ definition.steps, step.toolId ∈ definition.enabledTools →
    step.toolId ∈ recordedTools state

/-- The records cover the selections, and no tool has more of them than attempts. -/
structure Tallied (definition : AgentDefinition) (selections : ℕ) (state : RunState) : Prop where
  bounded : Bounded definition.steps (recordedTools state)
  selections : selections ≤ state.steps.length

/-- What a run may be stored with. -/
structure Recorded (definition : AgentDefinition) (selections : ℕ) (status : RunStatus)
    (state : RunState) : Prop where
  completed : status = .completed → LeavesRoom definition → Complete definition state
  paused : status = .pendingApproval → Tallied definition selections state

structure RowSound (definition : AgentDefinition) (selections : ℕ) (row : AgentRun) : Prop where
  enabled : definition.enabled = true
  version : row.revisionVersion = some definition.version
  recorded : Recorded definition selections row.status row.state

/-- A life whose row covers `n` selections. -/
structure LifeSound (definition : AgentDefinition) (runId n : ℕ) (life : Life) : Prop where
  selections : life.selections ≤ definition.maxSteps
  most : life.most ≤ definition.maxSteps
  rows : ∀ row, life.workspace.runs.find? runId = some row → RowSound definition n row

variable {definition' : AgentDefinition}

section Loop

variable {rt : CatalogRuntime} {original definition : AgentDefinition} {life life' : Life}
  {run : AgentRun} {runId n m : ℕ} {state : RunState} {status : RunStatus} {α : Type}

theorem Recorded.mono (h : Recorded definition m status state) (hn : n ≤ m) :
    Recorded definition n status state :=
  ⟨h.completed, fun hpaused => ⟨(h.paused hpaused).bounded, hn.trans (h.paused hpaused).selections⟩⟩

theorem LifeSound.mono (h : LifeSound definition runId m life) (hn : n ≤ m) :
    LifeSound definition runId n life :=
  ⟨h.selections, h.most,
    fun row hrow => ⟨(h.rows row hrow).enabled, (h.rows row hrow).version,
      (h.rows row hrow).recorded.mono hn⟩⟩

/-- Redaction leaves the tools of the steps alone. -/
def KeepsTools (rt : CatalogRuntime) (definition : AgentDefinition) : Prop :=
  ∀ step ∈ definition.steps, rt.redactText step.toolId = step.toolId

theorem LifeSound.same (h : LifeSound definition runId n life) (hsame : life.Same life') :
    LifeSound definition runId n life' := by
  refine ⟨?_, ?_, ?_⟩
  · rw [hsame.selections]
    exact h.selections
  · have hmost := hsame.most
    have hselections := h.selections
    have hbefore := h.most
    omega
  · rw [hsame.runs]
    exact h.rows

theorem Tallied.extend (h : Tallied definition n state) {attempts : StepAttempts}

    (hfind : definition.steps.find? (fun s => s.toolId == step.toolId) = some step)
    (hfresh : step.toolId ∉ recordedTools state)
    (hattempts : Attempts step 0 [] attempts) (hm : m ≤ n + 1) :
    Tallied definition m (state.extend attempts) := by
  obtain ⟨k, hk, hrecords⟩ := hattempts
  have hlength := List.length_pos_of_ne_nil attempts.nonempty
  refine ⟨?_, ?_⟩
  · have htools : recordedTools (state.extend attempts) =
        recordedTools state ++ List.replicate k step.toolId := by
      simpa [recordedTools, RunState.extend] using hrecords
    rw [htools]
    exact h.bounded.append hfresh (by rw [toolAttempts_of_find hfind]; exact hk)
  · have hselections := h.selections
    simp only [RunState.extend, List.length_append]
    omega

/-- Redaction leaves the tools of the records alone. -/
theorem recordedTools_redacted (hkept : KeepsTools rt definition)
    (h : Bounded definition.steps (recordedTools state)) :
    recordedTools (state.redacted rt.toAgentRuntime) = recordedTools state := by
  have hsame : ∀ record ∈ state.steps, rt.redactText record.toolId = record.toolId := by
    intro record hrecord
    obtain ⟨step, hstep, hname⟩ := mem_toolIds.mp (h.mem (List.mem_map_of_mem hrecord))
    rw [← hname]
    exact hkept step hstep
  simp only [recordedTools, RunState.redacted, List.map_map]
  exact List.map_congr_left hsame

theorem Tallied.redacted (h : Tallied definition n state)
    (hkept : KeepsTools rt definition) :
    Tallied definition n (state.redacted rt.toAgentRuntime) := by
  refine ⟨?_, ?_⟩
  · rw [recordedTools_redacted hkept h.bounded]
    exact h.bounded
  · simpa [RunState.redacted] using h.selections

theorem Recorded.of_live (hcompleted : status ≠ .completed) (hpaused : status ≠ .pendingApproval) :
    Recorded definition n status state :=
  ⟨fun h => absurd h hcompleted, fun h => absurd h hpaused⟩

/-! ### Writes -/

theorem concludes_query_bind {q : Query} {β : Type} {f : q.Answer → Call β}
    {Q : Except RunError β → Life → Prop} (hq : (RunAction.query q).selections = 0)
    (hf : ∀ answer life', life.Same life' → Concludes rt.toRunRuntime original life' (f answer) Q) :
    Concludes rt.toRunRuntime original life (query q >>= f) Q :=
  fun _ => hf _ _ (.of_answer hq rfl)

/-- After a write the row covers `n` selections, and what was read back is that row. -/
def Wrote (definition : AgentDefinition) (runId n : ℕ) (life : Life) (r : Except RunError AgentRun)
    (life' : Life) : Prop :=
  LifeSound definition runId n life' ∧ life'.selections = life.selections ∧
    ∀ row, r = .ok row → row.id = runId

theorem Wrote.error {e : RunError} (h : LifeSound definition runId n life')
    (hselections : life'.selections = life.selections) :
    Wrote definition runId n life (.error e) life' :=
  ⟨h, hselections, fun _ hrow => by cases hrow⟩

theorem Wrote.ok {row : AgentRun} (h : LifeSound definition runId n life')
    (hselections : life'.selections = life.selections) (hid : row.id = runId) :
    Wrote definition runId n life (.ok row) life' :=
  ⟨h, hselections, fun _ hrow => by cases hrow; exact hid⟩

theorem LifeSound.update (h : LifeSound definition runId m life) (write : RunWrite)
    (hwrite : Recorded definition n write.status write.state) :
    LifeSound definition runId n
      { life with
        workspace := { life.workspace with runs := (updateRow life.workspace.runs runId write).2 } }
    := by
  refine ⟨h.selections, h.most, ?_⟩
  intro row hrow
  have hupdated : (updateRow life.workspace.runs runId write).2.find? runId =
      (life.workspace.runs.find? runId).map write.apply := by
    have := @AutoTable.find?_update_key _ _ life.workspace.runs (fun run => run.id == runId)
      write.apply write.apply_id runId runId fun r => by simp
    exact this.trans (if_pos rfl)
  rw [hupdated, Option.map_eq_some_iff] at hrow
  obtain ⟨before, hbefore, rfl⟩ := hrow
  exact ⟨(h.rows before hbefore).enabled, (h.rows before hbefore).version, hwrite⟩

theorem concludes_readBack {written : AgentRun} (h : LifeSound definition runId n life)
    (hid : written.id = runId) :
    Concludes rt.toRunRuntime original life (readBack written) (Wrote definition runId n life) := by
  intro env
  have hsame : life.Same (lifeAnswer rt.toRunRuntime original (.readBack written) life env).2 :=
    .of_answer rfl rfl
  cases hrow : life.workspace.runs.find? written.id with
  | none =>
      have hanswer : (lifeAnswer rt.toRunRuntime original (.readBack written) life env).1 = none :=
        hrow
      rw [hanswer]
      exact Wrote.error (h.same hsame) hsame.selections
  | some row =>
      have hanswer : (lifeAnswer rt.toRunRuntime original (.readBack written) life env).1 =
        some row := hrow
      rw [hanswer]
      exact Wrote.ok (h.same hsame) hsame.selections
        ((AutoTable.find?_eq_some_iff.mp hrow).2.trans hid)

variable {currentStep : ℕ}

theorem concludes_updateAgentRun (h : LifeSound definition runId m life)
    (hid : run.id = runId)
    (hrecorded : Recorded definition n status (state.redacted rt.toAgentRuntime)) :
    Concludes rt.toRunRuntime original life
      (updateAgentRun rt.toRunRuntime run status currentStep state)
      (Wrote definition runId n life) := by
  refine concludes_query_bind rfl fun finishedAt life₁ hsame₁ => ?_
  let write : RunWrite :=
    { status, currentStep, state := state.redacted rt.toAgentRuntime, finishedAt }
  have hwritten := (h.same hsame₁).update write hrecorded
  refine Concludes.bind (p := ask (.updateRun run write))
    (P := fun _ life₂ => LifeSound definition runId n life₂ ∧ life₂.selections = life.selections)
    (fun env => ?_) ?_ fun e life₂ h₂ => Wrote.error h₂.1 h₂.2
  · subst hid
    refine ⟨hwritten.same ⟨rfl, ?_, ?_⟩, ?_⟩
    · simp [lifeAnswer, RunAction.selections]
    · simp [lifeAnswer, RunAction.selections]
    · simp [lifeAnswer, RunAction.selections, hsame₁.selections]
  · intro updated life₂ h₂
    refine gives_check.bind_concludes ?_ fun e life₃ hsame₃ =>
      Wrote.error (h₂.1.same hsame₃) (hsame₃.selections.trans h₂.2)
    intro _ life₃ hsame₃ _
    refine Must.imp (concludes_readBack (h₂.1.same hsame₃) hid) ?_
    intro r life₄ h₄
    exact ⟨h₄.1, h₄.2.1.trans (hsame₃.selections.trans h₂.2), h₄.2.2⟩

/-- Whether a call returns or raises, its life is sound. One that returns leaves a row that covers
all of its selections. -/
def Settles (definition : AgentDefinition) (runId n : ℕ) (r : Except RunError α) (life : Life) :
    Prop :=
  LifeSound definition runId n life ∧ n ≤ life.selections ∧
    ∀ x, r = .ok x → LifeSound definition runId life.selections life

theorem Settles.error {e : RunError} (h : LifeSound definition runId n life)
    (hn : n ≤ life.selections) : Settles definition runId n (.error e : Except RunError α) life :=
  ⟨h, hn, fun _ hx => by cases hx⟩

theorem concludes_finish (h : LifeSound definition runId m life)
    (hid : run.id = runId) (hn : n ≤ life.selections)
    (hrecorded : Recorded definition life.selections status
      ((state.redacted rt.toAgentRuntime).redacted rt.toAgentRuntime)) :
    Concludes rt.toRunRuntime original life (finish rt.toRunRuntime run status currentStep state)
      (Settles definition runId n) := by
  refine Concludes.bind (concludes_updateAgentRun h hid hrecorded) ?_ ?_
  · intro row life' hwrote
    have hselections := hwrote.2.1
    refine ⟨hwrote.1.mono hn, hselections ▸ hn, fun _ _ => ?_⟩
    rw [hselections]
    exact hwrote.1
  · intro e life' hwrote
    exact .error (hwrote.1.mono hn) (hwrote.2.1 ▸ hn)

/-! ### Selections -/

/-- A step that may be executed next: the first one with its tool, which has no records yet. -/
structure Fresh (definition : AgentDefinition) (state : RunState) (step : AgentStep) : Prop where
  first : definition.steps.find? (fun s => s.toolId == step.toolId) = some step
  unrecorded : step.toolId ∉ recordedTools state

theorem fresh_of_candidate {toolId : String}
    (h : (candidateSteps definition state).find? (fun s => s.toolId == toolId) = some step) :
    Fresh definition state step := by
  have hname : step.toolId = toolId := by simpa using List.find?_some h
  have hmem := List.mem_of_find?_eq_some h
  simp only [candidateSteps, List.mem_filter, decide_eq_true_eq] at hmem
  refine ⟨?_, hmem.2.2⟩
  rw [candidateSteps, List.find?_filter] at h
  rw [← h]
  congr 1
  funext s
  by_cases hs : s.toolId = toolId
  · have hcandidate := hmem.2
    rw [hname] at hcandidate
    rw [hs, decide_eq_true hcandidate, hname]
    simp
  · simp [hs, hname]

theorem fresh_of_fallback {toolId : String}
    (htool : toolId ∉ recordedTools state)
    (h : definition.steps.find? (fun s => s.toolId == toolId) = some step) :
    Fresh definition state step := by
  have hname : step.toolId = toolId := by simpa using List.find?_some h
  subst hname
  exact ⟨h, htool⟩

/-- No step is left, or a fresh one is picked with at most one selection. -/
def Picks (definition : AgentDefinition) (runId n : ℕ) (state : RunState) (life : Life) :
    Except RunError (Option AgentStep) → Life → Prop
  | .ok none, life' =>
      LifeSound definition runId n life' ∧ life'.selections = life.selections ∧
        Complete definition state
  | .ok (some step), life' =>
      LifeSound definition runId n life' ∧ life.selections ≤ life'.selections ∧
        life'.selections ≤ life.selections + 1 ∧ Fresh definition state step
  | .error _, _ => False

theorem concludes_selectResultAwareStep (h : LifeSound definition runId n life)
    (hroom : life.selections < definition.maxSteps) :
    Concludes rt.toRunRuntime original life (selectResultAwareStep definition state)
      (Picks definition runId n state life) := by
  rw [selectResultAwareStep]
  cases hcandidates : candidateSteps definition state with
  | nil =>
      refine ⟨h, rfl, ?_⟩
      intro step hstep henabled
      by_contra hmissing
      have hmem : step ∈ candidateSteps definition state :=
        List.mem_filter.mpr ⟨hstep, decide_eq_true ⟨henabled, hmissing⟩⟩
      rw [hcandidates] at hmem
      cases hmem
  | cons first others =>
      intro env
      refine ⟨⟨?_, ?_, h.rows⟩, ?_, ?_, ?_⟩
      · simp only [lifeAnswer, RunAction.selections]
        omega
      · have hmost := h.most
        simp only [lifeAnswer, RunAction.selections]
        omega
      · simp [lifeAnswer, RunAction.selections]
      · simp [lifeAnswer, RunAction.selections]
      · generalize (lifeAnswer rt.toRunRuntime original _ life env).1 = selected
        have hfirst : Fresh definition state first :=
          fresh_of_candidate (show (candidateSteps definition state).find?
            (fun s => s.toolId == first.toolId) = some first by simp [hcandidates])
        cases hchosen : (selected.filter (· ≠ "")).bind fun toolId =>
            (first :: others).find? fun step => step.toolId == toolId with
        | none => simpa [hchosen] using hfirst
        | some step =>
            obtain ⟨toolId, -, hfind⟩ := Option.bind_eq_some_iff.mp hchosen
            rw [← hcandidates] at hfind
            simpa [hchosen] using fresh_of_candidate hfind

theorem concludes_nextResultAwareStep {fallback : Option AgentStep}
    (h : LifeSound definition runId n life) (hroom : life.selections < definition.maxSteps)
    (hfallback : ∀ step ∈ fallback, Fresh definition state step) :
    Concludes rt.toRunRuntime original life (nextResultAwareStep definition fallback state)
      (Picks definition runId n state life) := by
  cases fallback with
  | none => exact concludes_selectResultAwareStep h hroom
  | some step => exact ⟨h, le_rfl, Nat.le_succ _, hfallback step rfl⟩

theorem fresh_of_resultAwareFallback {directive : Option Directive}
    (h : resultAwareFallback definition state directive = .inl step) :
    Fresh definition state step := by
  cases directive with
  | none => cases h
  | some directive =>
      cases directive with
      | terminal mode => cases h
      | fallback toolId =>
          simp only [resultAwareFallback] at h
          split at h
          · cases h
          · split at h
            · cases h
            · rename_i hunrecorded
              split at h
              · rename_i hfind
                cases h
                exact fresh_of_fallback hunrecorded hfind
              · cases h

/-! ### The loop -/

theorem Complete.redacted (h : Complete definition state)
    (hkept : KeepsTools rt definition)
    (hbounded : Bounded definition.steps (recordedTools state)) :
    Complete definition (state.redacted rt.toAgentRuntime) := by
  intro step hstep henabled
  rw [recordedTools_redacted hkept hbounded]
  exact h step hstep henabled

theorem concludes_finish_completed (hkept : KeepsTools rt definition)
    (h : LifeSound definition runId m life) (hid : run.id = runId) (hn : n ≤ life.selections)
    (hbounded : Bounded definition.steps (recordedTools state))
    (hcomplete : LeavesRoom definition → Complete definition state) :
    Concludes rt.toRunRuntime original life
      (finish rt.toRunRuntime run .completed currentStep state) (Settles definition runId n) := by
  refine concludes_finish h hid hn ⟨fun _ hroom => ?_, nofun⟩
  refine ((hcomplete hroom).redacted hkept hbounded).redacted hkept ?_
  rwa [recordedTools_redacted hkept hbounded]

theorem concludes_finish_paused (hkept : KeepsTools rt definition)
    (h : LifeSound definition runId m life) (hid : run.id = runId) (hn : n ≤ life.selections)
    (htallied : Tallied definition life.selections state) :
    Concludes rt.toRunRuntime original life
      (finish rt.toRunRuntime run .pendingApproval currentStep state)
      (Settles definition runId n) :=
  concludes_finish h hid hn
    ⟨nofun, fun _ => (htallied.redacted hkept).redacted hkept⟩

theorem concludes_finish_failed (h : LifeSound definition runId m life)
    (hid : run.id = runId) (hn : n ≤ life.selections) :
    Concludes rt.toRunRuntime original life (finish rt.toRunRuntime run .failed currentStep state)
      (Settles definition runId n) :=
  concludes_finish h hid hn (.of_live nofun nofun)

theorem concludes_queued {f : AgentRun → Call AgentExecutionResult}
    (h : LifeSound definition runId n life) (hid : run.id = runId) (hn : n ≤ life.selections)
    (hf : ∀ row life', LifeSound definition runId n life' → life'.selections = life.selections →
      row.id = runId →
      Concludes rt.toRunRuntime original life' (f row) (Settles definition runId n)) :
    Concludes rt.toRunRuntime original life
      (updateAgentRun rt.toRunRuntime run .queued currentStep state >>= f)
      (Settles definition runId n) :=
  Concludes.bind (concludes_updateAgentRun h hid (.of_live nofun nofun))
    (fun row life' hwrote => hf row life' hwrote.1 hwrote.2.1 (hwrote.2.2 row rfl))
    fun _ _ hwrote => .error hwrote.1 (hwrote.2.1 ▸ hn)

/-- The rounds of the loop keep the tally: every selection adds records, and a tool is taken up
once. -/
theorem concludes_continueResultAware {actor : String} {actorRole : Option Access.Role}
    {fallback : Option AgentStep} (hkept : KeepsTools rt definition)
    (h : LifeSound definition runId n life) (hid : run.id = runId) (hn : n ≤ life.selections)
    (htallied : Tallied definition life.selections state)
    (hfallback : ∀ step ∈ fallback, Fresh definition state step) :
    Concludes rt.toRunRuntime original life
      (continueResultAware rt.toRunRuntime definition actor actorRole fallback run state)
      (Settles definition runId n) := by
  induction hmeasure : (definition.maxSteps - state.steps.length).toNat
    using Nat.strong_induction_on generalizing life run fallback state with
  | _ k ih =>
      have hselections := htallied.selections
      rw [continueResultAware]
      split
      · rename_i hsteps
        refine concludes_query_bind rfl fun elapsed life₁ hsame₁ => ?_
        have h₁ := h.same hsame₁
        have hn₁ : n ≤ life₁.selections := hsame₁.selections ▸ hn
        split
        · exact concludes_finish_failed h₁ hid hn₁
        · have hroom : life₁.selections < definition.maxSteps := by
            rw [hsame₁.selections]
            omega
          refine Concludes.bind (concludes_nextResultAwareStep h₁ hroom hfallback) ?_
            fun _ _ hfalse => hfalse.elim
          intro next life₂ hpicks
          cases next with
          | none =>
              obtain ⟨h₂, hselections₂, hcomplete⟩ := hpicks
              exact concludes_finish_completed hkept h₂ hid (hselections₂ ▸ hn₁) htallied.bounded
                fun _ => hcomplete
          | some step =>
              obtain ⟨h₂, hle₂, hle₂', hfresh⟩ := hpicks
              dsimp only
              split
              · exact concludes_finish_failed h₂ hid (hn₁.trans hle₂)
              · refine (gives_executeStepAttempts (maxAttempts_pos step)).bind_concludes ?_
                  fun e life₃ hsame₃ => .error (h₂.same hsame₃)
                    (hsame₃.selections ▸ hn₁.trans hle₂)
                intro attempts life₃ hsame₃ hattempts
                have h₃ := h₂.same hsame₃
                have hn₃ : n ≤ life₃.selections := hsame₃.selections ▸ hn₁.trans hle₂
                have htallied₃ : Tallied definition life₃.selections (state.extend attempts) :=
                  htallied.extend hfresh.first hfresh.unrecorded hattempts
                    (by rw [hsame₃.selections, ← hsame₁.selections]; exact hle₂')
                have hlength := List.length_pos_of_ne_nil attempts.nonempty
                have hless : (definition.maxSteps - (state.extend attempts).steps.length).toNat <
                    k := by
                  simp only [RunState.extend, List.length_append]
                  omega
                split
                · exact concludes_finish_paused hkept h₃ hid hn₃
                    ⟨htallied₃.bounded, htallied₃.selections⟩
                · split
                  · refine concludes_queued h₃ hid hn₃ fun row life₄ h₄ hselections₄ hid₄ => ?_
                    refine ih _ hless h₄ hid₄ (hselections₄ ▸ hn₃) ?_ nofun rfl
                    rw [hselections₄]
                    exact ⟨htallied₃.bounded, htallied₃.selections⟩
                  · split
                    · exact concludes_finish_failed h₃ hid hn₃
                    · rename_i next hnext
                      refine concludes_queued h₃ hid hn₃ fun row life₄ h₄ hselections₄ hid₄ => ?_
                      refine ih _ hless h₄ hid₄ (hselections₄ ▸ hn₃) ?_ ?_ rfl
                      · rw [hselections₄]
                        exact htallied₃
                      · intro fallback hfallback
                        cases hfallback
                        exact fresh_of_resultAwareFallback hnext
      · rename_i hfull
        refine concludes_finish_completed hkept h hid hn htallied.bounded fun hroom => ?_
        intro step hstep henabled
        refine htallied.bounded.mem_of_room hroom ?_ (mem_toolIds.mpr ⟨step, hstep, rfl⟩)
        simp only [recordedTools, List.length_map]
        omega

/-! ### Calls -/

theorem gives_executionWindowOpen :
    Gives rt.toRunRuntime original life (executionWindowOpen definition) fun _ => True := by
  rw [executionWindowOpen]
  split
  · exact gives_pure trivial
  · refine (gives_query rfl).bind fun minutes life' _ => ?_
    split
    · exact gives_pure trivial
    · exact gives_throw

theorem gives_requireTicket {entityId : String} :
    Gives rt.toRunRuntime original life (requireTicket definition entityId) fun _ => True := by
  refine (gives_query rfl).bind fun ticket life' _ => ?_
  cases ticket with
  | none => exact gives_throw
  | some ticket => exact Must.imp gives_check fun _ _ h => ⟨h.1, fun _ _ => trivial⟩

theorem gives_buildContext {entityId : String} :
    Gives rt.toRunRuntime original life (buildContext definition entityId) fun _ => True := by
  refine (gives_query rfl).bind fun context life' _ => ?_
  cases context with
  | ok context => exact gives_pure trivial
  | error e => exact gives_throw

/-- A new run has nothing to cover. -/
theorem LifeSound.insert (h : LifeSound definition runId 0 life) {draft : ℕ → AgentRun}
    {hdraft : ∀ n, (draft n).id = n} {quarantined : Bool} (henabled : definition.enabled = true)
    (hversion : ∀ n, (draft n).revisionVersion = some definition.version)
    (hqueued : ∀ n, (draft n).status = .queued) :
    LifeSound definition runId 0
      { life with
        workspace :=
          { life.workspace with
            runs := (insertRow life.workspace.runs draft hdraft quarantined).2 } } := by
  refine ⟨h.selections, h.most, fun row hrow => ?_⟩
  simp only [insertRow] at hrow
  split at hrow
  · exact h.rows row hrow
  · rw [AutoTable.find?_insert] at hrow
    split at hrow
    · cases hrow
      exact ⟨henabled, hversion _, .of_live (by simp [hqueued]) (by simp [hqueued])⟩
    · exact h.rows row hrow

theorem concludes_createAgentRun {request : RunRequest} (henabled : definition.enabled = true)
    (h : LifeSound definition runId 0 life)
    (hid : life.workspace.runs.lastKey + 1 = runId) :
    Concludes rt.toRunRuntime original life
      (createAgentRun rt.toRunRuntime definition request state)
      (Wrote definition runId 0 life) := by
  refine concludes_query_bind rfl fun now life₁ hsame₁ => ?_
  have h₁ := h.same hsame₁
  refine Concludes.bind (p := ask (.insertRun (newRun rt.toRunRuntime definition request state now)
      (newRun_id rt.toRunRuntime definition request state now)))
    (P := fun r life₂ => LifeSound definition runId 0 life₂ ∧
      life₂.selections = life.selections ∧ ∀ id, r = .ok (.ok id) → id = runId)
    (fun env => ?_) ?_ fun e life₂ h₂ => Wrote.error h₂.1 h₂.2.1
  · refine ⟨(h₁.insert henabled (fun _ => rfl) fun _ => rfl).same ⟨rfl, ?_, ?_⟩, ?_, ?_⟩
    · simp [lifeAnswer, RunAction.selections]
    · simp [lifeAnswer, RunAction.selections]
    · simp [lifeAnswer, RunAction.selections, hsame₁.selections]
    · intro id hanswer
      rw [← hid, ← hsame₁.runs]
      have hanswer := Except.ok.inj hanswer
      simp only [lifeAnswer, RunAction.answer, insertRow] at hanswer
      split at hanswer
      · cases hanswer
      · exact (Except.ok.inj hanswer).symm
  · intro inserted life₂ h₂
    cases inserted with
    | error e => exact Wrote.error h₂.1 h₂.2.1
    | ok id =>
        refine Must.imp (concludes_readBack h₂.1 ?_) ?_
        · exact (newRun_id _ _ _ _ _ _).trans (h₂.2.2 id rfl)
        · intro r life₃ h₃
          exact ⟨h₃.1, h₃.2.1.trans h₂.2.1, h₃.2.2⟩

/-- The new run of a life, with the state that its loop starts from. -/
def Began (definition : AgentDefinition) (runId : ℕ) (life : Life)
    (r : Except RunError (AgentRun × RunState)) (life' : Life) : Prop :=
  LifeSound definition runId 0 life' ∧ life'.selections = life.selections ∧
    ∀ run state, r = .ok (run, state) → run.id = runId ∧ state.steps = []

theorem Began.of_same {e : RunError} (h : LifeSound definition runId 0 life)
    (hsame : life.Same life') : Began definition runId life (.error e) life' :=
  ⟨h.same hsame, hsame.selections, fun _ _ hr => by cases hr⟩

theorem concludes_beginRun {request : RunRequest} (h : LifeSound definition runId 0 life)
    (hid : life.workspace.runs.lastKey + 1 = runId) :
    Concludes rt.toRunRuntime original life (beginRun rt.toRunRuntime definition request)
      (Began definition runId life) := by
  refine gives_check.bind_concludes (fun _ life₁ hsame₁ henabled => ?_) fun e life' => .of_same h
  refine gives_executionWindowOpen.bind_concludes (fun _ life₂ hsame₂ _ => ?_)
    fun e life' hsame => .of_same h (hsame₁.trans hsame)
  have hsame₂ := hsame₁.trans hsame₂
  refine gives_check.bind_concludes (fun _ life₃ hsame₃ _ => ?_)
    fun e life' hsame => .of_same h (hsame₂.trans hsame)
  have hsame₃ := hsame₂.trans hsame₃
  refine gives_check.bind_concludes (fun _ life₄ hsame₄ _ => ?_)
    fun e life' hsame => .of_same h (hsame₃.trans hsame)
  have hsame₄ := hsame₃.trans hsame₄
  refine gives_requireTicket.bind_concludes (fun _ life₅ hsame₅ _ => ?_)
    fun e life' hsame => .of_same h (hsame₄.trans hsame)
  have hsame₅ := hsame₄.trans hsame₅
  refine gives_buildContext.bind_concludes (fun context life₆ hsame₆ _ => ?_)
    fun e life' hsame => .of_same h (hsame₅.trans hsame)
  have hsame₆ := hsame₅.trans hsame₆
  have hid₆ : life₆.workspace.runs.lastKey + 1 = runId := hsame₆.runs ▸ hid
  refine (concludes_createAgentRun (not_not.mp henabled) (h.same hsame₆) hid₆).bind ?_ ?_
  · intro run life₇ hwrote
    refine ⟨hwrote.1, hwrote.2.1.trans hsame₆.selections, fun run' state hr => ?_⟩
    cases hr
    exact ⟨hwrote.2.2 run rfl, rfl⟩
  · intro e life₇ hwrote
    exact ⟨hwrote.1, hwrote.2.1.trans hsame₆.selections, fun _ _ hr => by cases hr⟩

theorem concludes_run {request : RunRequest} (hkept : KeepsTools rt definition)
    (haware : definition.resultAware = true) (h : LifeSound definition runId 0 life)
    (hid : life.workspace.runs.lastKey + 1 = runId) (hselections : life.selections = 0) :
    Concludes rt.toRunRuntime original life (AgentRuns.run rt.toRunRuntime definition request)
      (Settles definition runId 0) := by
  refine (concludes_beginRun h hid).bind ?_
    fun e life' hbegan => .error hbegan.1 (Nat.zero_le _)
  rintro ⟨run, state⟩ life₁ ⟨h₁, hselections₁, hbegan⟩
  obtain ⟨hrun, hsteps⟩ := hbegan run state rfl
  simp only [continueRun, haware, if_true]
  refine concludes_continueResultAware hkept h₁ hrun (Nat.zero_le _) ?_ nofun
  rw [hselections₁, hselections]
  refine ⟨?_, Nat.zero_le _⟩
  rw [recordedTools, hsteps]
  exact bounded_nil

/-! ### Resuming -/

theorem SameLoop.symm (h : SameLoop definition definition') :
    SameLoop definition' definition :=
  ⟨h.steps.symm, h.enabledTools.symm, h.maxSteps.symm, h.resultAware.symm, h.enabled.symm⟩

theorem SameLoop.leavesRoom (h : SameLoop definition definition')
    (hroom : LeavesRoom definition) : LeavesRoom definition' := by
  unfold LeavesRoom
  rw [h.steps, h.maxSteps]
  exact hroom

theorem SameLoop.complete (h : SameLoop definition definition')
    (hcomplete : Complete definition state) : Complete definition' state := by
  unfold Complete
  rw [h.steps, h.enabledTools]
  exact hcomplete

theorem SameLoop.lifeSound (h : SameLoop definition definition')
    (hversion : definition'.version = definition.version)
    (hlife : LifeSound definition runId n life) : LifeSound definition' runId n life := by
  refine ⟨h.maxSteps ▸ hlife.selections, h.maxSteps ▸ hlife.most, fun row hrow => ?_⟩
  obtain ⟨henabled, hrowVersion, hcompleted, hpaused⟩ := hlife.rows row hrow
  refine ⟨h.enabled.trans henabled, hversion ▸ hrowVersion, fun hstatus hroom => ?_,
    fun hstatus => ?_⟩
  · exact h.complete (hcompleted hstatus (h.symm.leavesRoom hroom))
  · exact ⟨h.steps ▸ (hpaused hstatus).bounded, (hpaused hstatus).selections⟩

theorem SameLoop.settles (h : SameLoop definition definition')
    (hversion : definition'.version = definition.version) {r : Except RunError α}
    (hsettles : Settles definition runId n r life) : Settles definition' runId n r life :=
  ⟨h.lifeSound hversion hsettles.1, hsettles.2.1,
    fun x hx => h.lifeSound hversion (hsettles.2.2 x hx)⟩

/-- The result of an approved step changes the record alone. -/
theorem Tallied.settle (h : Tallied definition n state) {index : ℕ} {record : StepRecord}
    {result : ActionResult} (hrecord : state.steps[index]? = some record) :
    Tallied definition n (state.settle rt.toRunRuntime index record result) := by
  obtain ⟨hindex, rfl⟩ := List.getElem?_eq_some_iff.mp hrecord
  have htools : recordedTools (state.settle rt.toRunRuntime index state.steps[index] result) =
      recordedTools state := by
    have hlength : index < (state.steps.map StepRecord.toolId).length := by
      rwa [List.length_map]
    have hname : (StepRecord.applyResult rt.toAgentRuntime state.steps[index] result).toolId =
        (state.steps.map StepRecord.toolId)[index] :=
      (List.getElem_map StepRecord.toolId).symm
    simp only [recordedTools, RunState.settle, List.map_set, hname, List.set_getElem_self]
  refine ⟨?_, ?_⟩
  · rw [htools]
    exact h.bounded
  · simpa [RunState.settle] using h.selections

theorem concludes_resumeWith {result : ActionResult} (hkept : KeepsTools rt definition)
    (haware : definition.resultAware = true) (h : LifeSound definition runId n life)
    (hid : run.id = runId) (hn : n ≤ life.selections)
    (htallied : Tallied definition life.selections state) :
    Concludes rt.toRunRuntime original life (resumeWith rt.toRunRuntime definition run state result)
      (Settles definition runId n) := by
  unfold resumeWith
  split
  · simp only [continueRun, haware, if_true]
    exact concludes_continueResultAware hkept h hid hn htallied nofun
  · refine concludes_finish h hid hn (.of_live ?_ ?_)
    · split <;> nofun
    · split <;> nofun

theorem Settles.of_same {r : Except RunError α} (h : LifeSound definition runId n life)
    (hn : life.selections = n) (hsame : life.Same life') : Settles definition runId n r life' := by
  have hselections : life'.selections = n := hsame.selections.trans hn
  exact ⟨h.same hsame, hselections.ge, fun _ _ => hselections.symm ▸ h.same hsame⟩

theorem concludes_resumePending {approver : String} {role : Access.Role}
    {correlationId : Option String} (hkept : KeepsTools rt original)
    (haware : original.resultAware = true) (h : LifeSound original runId n life)
    (hcurrent : definition.version = original.version → definition = original)
    (hrow : RowSound original n run) (hstatus : run.status = .pendingApproval)
    (hid : run.id = runId) (hn : life.selections = n) :
    Concludes rt.toRunRuntime original life
      (resumePending rt.toRunRuntime definition run approver role correlationId)
      (Settles original runId n) := by
  have htallied := hrow.recorded.paused hstatus
  refine (gives_definitionForRun hrow.version hcurrent).bind_concludes ?_
    fun e life' hsame => .of_same h hn hsame
  rintro started life₁ hsame₁ ⟨hloop, hversion⟩
  refine gives_check.bind_concludes (fun _ life₂ hsame₂ _ => ?_)
    fun e life' hsame => .of_same h hn (hsame₁.trans hsame)
  have hsame₂ := hsame₁.trans hsame₂
  refine gives_pendingStep.bind_concludes (fun pending life₃ hsame₃ hpending => ?_)
    fun e life' hsame => .of_same h hn (hsame₂.trans hsame)
  have hsame₃ := hsame₂.trans hsame₃
  refine gives_approvedResult.bind_concludes (fun result life₄ hsame₄ _ => ?_)
    fun e life' hsame => .of_same h hn (hsame₃.trans hsame)
  have hsame₄ := hsame₃.trans hsame₄
  have hselections : life₄.selections = n := hsame₄.selections.trans hn
  have hcorrelated : Tallied started life₄.selections (run.state.correlated rt.toRunRuntime
      correlationId) := by
    rw [hselections]
    exact ⟨hloop.steps ▸ htallied.bounded, htallied.selections⟩
  refine Must.imp (concludes_resumeWith (fun step hstep => hkept step (hloop.steps ▸ hstep))
    (hloop.resultAware.trans haware) (hloop.lifeSound hversion (h.same hsame₄)) hid
    hselections.ge (hcorrelated.settle hpending)) ?_
  intro r life₅ hsettles
  exact hloop.symm.settles hversion.symm hsettles

theorem concludes_getAgentRun :
    Concludes rt.toRunRuntime original life (getAgentRun runId) fun r life' => life.Same life' ∧
      ∀ run, r = .ok run → life.workspace.runs.find? runId = some run := by
  intro env
  have hsame : life.Same (lifeAnswer rt.toRunRuntime original (.selectRun runId) life env).2 :=
    .of_answer rfl rfl
  have hanswer : (lifeAnswer rt.toRunRuntime original (.selectRun runId) life env).1 =
    life.workspace.runs.find? runId := rfl
  rw [hanswer]
  cases hrow : life.workspace.runs.find? runId with
  | none => exact ⟨hsame, fun _ hr => by cases hr⟩
  | some row => exact ⟨hsame, fun _ hr => by cases hr; rfl⟩

theorem concludes_resume {approver : String} {role : Access.Role}
    {correlationId : Option String} (hkept : KeepsTools rt original)
    (haware : original.resultAware = true) (h : LifeSound original runId n life)
    (hcurrent : definition.version = original.version → definition = original)
    (hn : life.selections = n) :
    Concludes rt.toRunRuntime original life
      (RunCall.program rt.toRunRuntime (.resume definition runId approver role correlationId))
      (Settles original runId n) := by
  refine concludes_getAgentRun.bind (fun run life₁ hfound => ?_)
    fun e life' hr => .of_same h hn hr.1
  obtain ⟨hsame₁, hrun⟩ := hfound
  have hrow := hrun run rfl
  have hid : run.id = runId := (AutoTable.find?_eq_some_iff.mp hrow).2
  rw [resume]
  split
  · exact .of_same h hn hsame₁
  · rename_i hstatus
    refine concludes_query_bind rfl fun ticket life₂ hsame₂ => ?_
    have hsame₂ := hsame₁.trans hsame₂
    split
    · exact .of_same h hn hsame₂
    · exact concludes_resumePending hkept haware (h.same hsame₂) hcurrent (h.rows run hrow)
        (not_not.mp hstatus) hid (hsame₂.selections.trans hn)

/-! ### Lives -/

theorem LifeSound.after {call : Call AgentExecutionResult} {inputs : ℕ → Surroundings}
    (h : Concludes rt.toRunRuntime original life call
      (Settles original runId life.selections)) :
    LifeSound original runId (life.after rt.toRunRuntime original call inputs).selections
      (life.after rt.toRunRuntime original call inputs) := by
  have hsettles := Must.run h inputs
  unfold Life.after
  rcases hrun : call.run.run (lifeAnswer rt.toRunRuntime original) inputs life with
    ⟨r, life', left⟩
  rw [hrun] at hsettles
  obtain ⟨hsound, hn, hok⟩ := hsettles
  cases r with
  | ok result => exact hok result rfl
  | error e =>
      refine ⟨?_, hsound.most, hsound.rows⟩
      have hselections := hsound.selections
      simp only
      omega

theorem lives_sound (hreviewed : Reviewed rt.toAgentRuntime definition)
    (haware : definition.resultAware = true) (runs : AutoTable AgentRun.id) (request : RunRequest)
    (inputs : ℕ → Surroundings) (calls : List (ResumeCall definition × (ℕ → Surroundings))) :
    LifeSound definition (runs.lastKey + 1)
      ((lives rt.toRunRuntime definition runs request inputs).run calls).selections
      ((lives rt.toRunRuntime definition runs request inputs).run calls) := by
  refine Machine.run_invariant
    (I := fun life => LifeSound definition (runs.lastKey + 1) life.selections life) ?_ ?_ calls
  · refine LifeSound.after (concludes_run hreviewed.redacted haware ⟨?_, ?_, ?_⟩ rfl rfl)
    · exact hreviewed.maxSteps.le
    · exact hreviewed.maxSteps.le
    · intro row hrow
      rw [AutoTable.find?_next] at hrow
      cases hrow
  · rintro life ⟨call, inputs⟩ hlife
    exact LifeSound.after (concludes_resume hreviewed.redacted haware hlife call.unchanged rfl)

end Loop

end WaitLocalAgent.AgentRuns
