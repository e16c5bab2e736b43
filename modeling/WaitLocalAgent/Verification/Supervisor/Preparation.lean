import WaitLocalAgent.Model.Supervisor

/-! # Delegations that were prepared

What the checks before the loop say about the variables with which it starts. -/

namespace WaitLocalAgent.Supervisor

open Foundation
open Agents (AgentDefinition)

variable {definitions : List AgentDefinition}

theorem available_id {id : String}
    {definition : AgentDefinition} (h : available definitions id = some definition) :
    definition.id = id := by
  simpa using List.find?_some h

theorem scopedDefinition_ok {definition d : AgentDefinition} {tenant : ClientId}
    (h : scopedDefinition definition tenant = .ok d) :
    d.id = definition.id ∧ d.dependsOnAgentIds = definition.dependsOnAgentIds := by
  unfold scopedDefinition at h
  split at h
  · cases h
    exact ⟨rfl, rfl⟩
  · split at h
    · cases h
      exact ⟨rfl, rfl⟩
    · cases h

theorem planChild_ok {tenant : ClientId}
    {selectedIds : List String} {id : String} {child : PlannedChild}
    (h : planChild tenant definitions selectedIds id = .ok child) :
    child.id = id ∧ ∃ definition, available definitions id = some definition := by
  unfold planChild at h
  split at h
  · cases h
  · rename_i definition hdefinition
    split at h
    · cases h
      exact ⟨available_id hdefinition, definition, hdefinition⟩
    · cases h

/-- The ids of a plan are the ids that were asked for, and each has a definition. -/
theorem buildSupervisorDelegationPlan_ok {rt : SupervisorRuntime} {clientId task : String}
    {childAgentIds : List String} {maxRetries : ℤ}
    {plan : DelegationPlan}
    (h : buildSupervisorDelegationPlan rt clientId task childAgentIds definitions maxRetries =
      .ok plan) :
    childAgentIds.mapM (fun value => identifier rt value "child_agent_id") =
        .ok (plan.children.map PlannedChild.id) ∧
      (plan.children.map PlannedChild.id).Nodup ∧
      ∀ id ∈ plan.children.map PlannedChild.id,
        ∃ definition, available definitions id = some definition := by
  unfold buildSupervisorDelegationPlan at h
  simp only [bind_eq_ok, raiseIf_eq_ok, pure_eq_ok] at h
  obtain ⟨tenant, -, normalizedTask, -, limit, -, _, -, ids, hids, _, hnodup, children,
    hchildren, rfl⟩ := h
  have hmap : children.map PlannedChild.id = ids.map id :=
    map_of_mapM (fun _ _ h => (planChild_ok h).1) hchildren
  rw [List.map_id] at hmap
  rw [hmap]
  refine ⟨hids, not_not.mp hnodup, ?_⟩
  intro id hid
  obtain ⟨child, -, hplan⟩ := exists_mem_of_mapM hchildren id hid
  exact (planChild_ok hplan).2

theorem dependencyOrder_ok {selectedIds order : List String}
    (hnodup : selectedIds.Nodup) (h : dependencyOrder selectedIds definitions = .ok order) :
    order.Perm selectedIds ∧ Postorder.Topological (dependencies definitions) order := by
  unfold dependencyOrder at h
  simp only at h
  split at h
  · rename_i order' hpostorder
    cases h
    exact Postorder.postorder_ok (by simp) hnodup hpostorder
  all_goals cases h

/-- Looking every id of a list up lists what has these ids. -/
theorem map_filterMap_of_exists {α β : Type} {g : α → Option β} {key : β → α} {as : List α}
    (h : ∀ a ∈ as, ∃ b, g a = some b ∧ key b = a) : (as.filterMap g).map key = as := by
  induction as with
  | nil => rfl
  | cons a as ih =>
      obtain ⟨b, hb, hkey⟩ := h a List.mem_cons_self
      simp [hb, hkey, ih fun c hc => h c (List.mem_cons_of_mem a hc)]

/-- A run of the agent is listed in `completed_run_ids`. -/
def Covers (runs : Table AgentRun.id) (request : DelegationRequest) (agentId : String) : Prop :=
  ∃ tenant, text request.clientId "client_id" 128 = .ok tenant ∧
    ∃ runId ∈ request.completedRunIds, ∃ run, getAgentRun runs runId.toNat tenant = some run ∧
      run.agentId = agentId

theorem loadCompletedRun_ok {rt : SupervisorRuntime} {runs : Table AgentRun.id}
    {entityId clientId : NormalizedText} {runId : ℕ}
    {completed : CompletedRun}
    (h : loadCompletedRun rt runs definitions entityId clientId runId = .ok completed) :
    ∃ run, getAgentRun runs runId clientId = some run ∧ run.agentId = completed.agentId := by
  unfold loadCompletedRun at h
  split at h
  · cases h
  · rename_i run hrun
    split at h
    · cases h
    · iterate 3
        split at h
        · cases h
      split at h
      · cases h
      · cases h
        exact ⟨run, hrun, rfl⟩

theorem loadCompletedRuns_ok {rt : SupervisorRuntime} {runs : Table AgentRun.id}
    {runIds : List ℤ} {entityId clientId : NormalizedText}
    {completed : List CompletedRun}
    (h : loadCompletedRuns rt runs runIds definitions entityId clientId = .ok completed)
    (agentId : String) :
    (∃ c ∈ completed, c.agentId = agentId) ↔
      ∃ runId ∈ runIds, ∃ run, getAgentRun runs runId.toNat clientId = some run ∧
        run.agentId = agentId := by
  unfold loadCompletedRuns at h
  simp only [bind_eq_ok, raiseIf_eq_ok] at h
  obtain ⟨_, -, _, -, hload⟩ := h
  constructor
  · rintro ⟨c, hc, rfl⟩
    obtain ⟨runId, hrunId, hok⟩ := exists_of_mem_mapM hload c hc
    exact ⟨runId, hrunId, loadCompletedRun_ok hok⟩
  · rintro ⟨runId, hrunId, run, hrun, rfl⟩
    obtain ⟨c, hc, hok⟩ := exists_mem_of_mapM hload runId hrunId
    obtain ⟨run', hrun', hagent⟩ := loadCompletedRun_ok hok
    rw [hrun] at hrun'
    cases hrun'
    exact ⟨c, hc, hagent.symm⟩

/-- The checks on a request have gone through and have left `d`. -/
structure Prepared (rt : SupervisorRuntime) (runs : Table AgentRun.id)
    (request : DelegationRequest) (d : Delegation) : Prop where
  selected : request.childAgentIds.mapM (fun value => identifier rt value "child_agent_id") =
    .ok d.selectedIds
  selected_nodup : d.selectedIds.Nodup
  perm : d.orderedIds.Perm d.selectedIds
  topological : Postorder.Topological (dependencies request.definitions) d.orderedIds
  ordered : d.ordered.map AgentDefinition.id = d.orderedIds
  dependencies : ∀ definition ∈ d.ordered, dependencies request.definitions definition.id =
    .ok definition.dependsOnAgentIds
  retryLimit : (d.retryLimit : ℤ) = request.maxRetries
  covered : ∀ agentId, (d.completed? agentId).isSome ↔ Covers runs request agentId
  untargeted : request.cancelRunId = none → d.cancellationTarget = none
  targeted : ∀ runId, request.cancelRunId = some runId → ∃ target,
    d.cancellationTarget = some target ∧ (target.id : ℤ) = runId ∧ target.agentId ∈ d.selectedIds

theorem retryLimit_ok {value : ℤ} {limit : ℕ} (h : retryLimit value = .ok limit) :
    (limit : ℤ) = value := by
  unfold retryLimit at h
  split at h
  · cases h
  · rename_i hrange
    cases h
    omega

theorem checkCancellation_ok {runs : Table AgentRun.id} {selectedIds : List String}
    {entityId tenant : NormalizedText} {runId : ℤ} {target : AgentRun}
    (h : checkCancellation runs selectedIds entityId tenant runId = .ok target) :
    (target.id : ℤ) = runId ∧ target.agentId ∈ selectedIds := by
  unfold checkCancellation at h
  split at h
  · cases h
  · rename_i hpos
    split at h
    · cases h
    · rename_i run hrun
      split at h
      · cases h
      · rename_i hscope
        split at h
        · cases h
        · cases h
          have hid : target.id = runId.toNat :=
            Table.key_of_find?_eq_some (Option.filter_eq_some_iff.mp hrun).1
          refine ⟨by omega, ?_⟩
          by_contra hmem
          exact hscope (.inr hmem)

theorem Delegation.completed?_isSome (d : Delegation) (agentId : String) :
    (d.completed? agentId).isSome ↔ ∃ c ∈ d.completed, c.agentId = agentId := by
  simp [completed?, List.find?_isSome]

/-- The scoped definitions of a selection are those of the selected ids, tenant apart. -/
theorem find_scoped {definitions scopedDefinitions : List AgentDefinition} {tenant : ClientId}
    {selectedIds : List String}
    (havailable : ∀ id ∈ selectedIds, ∃ definition, available definitions id = some definition)
    (h : (selectedIds.filterMap (available definitions)).mapM
      (fun definition => scopedDefinition definition tenant) = .ok scopedDefinitions)
    {id : String} (hid : id ∈ selectedIds) :
    ∃ d, scopedDefinitions.find? (fun definition => definition.id = id) = some d ∧ d.id = id ∧
      dependencies definitions id = .ok d.dependsOnAgentIds := by
  obtain ⟨definition, hdefinition⟩ := havailable id hid
  obtain ⟨scopedDefinition', hmem, hscoped⟩ := exists_mem_of_mapM h definition
    (List.mem_filterMap.mpr ⟨id, hid, hdefinition⟩)
  have hfound : (scopedDefinitions.find? fun definition => definition.id = id).isSome := by
    simp only [List.find?_isSome, decide_eq_true_eq]
    exact ⟨scopedDefinition', hmem, by
      rw [(scopedDefinition_ok hscoped).1, available_id hdefinition]⟩
  obtain ⟨d, hd⟩ := Option.isSome_iff_exists.mp hfound
  have hdid : d.id = id := by simpa using List.find?_some hd
  refine ⟨d, hd, hdid, ?_⟩
  obtain ⟨source, hsource, hok⟩ := exists_of_mem_mapM h d (List.mem_of_find?_eq_some hd)
  obtain ⟨id', -, hsource⟩ := List.mem_filterMap.mp hsource
  obtain ⟨hsame, hdeps⟩ := scopedDefinition_ok hok
  have hid' : id' = id := by rw [← available_id hsource, ← hsame, hdid]
  subst hid'
  simp [dependencies, hsource, hdeps]

theorem prepare_ok {rt : SupervisorRuntime} {runs : Table AgentRun.id}
    {request : DelegationRequest} {d : Delegation} (h : prepare rt runs request = .ok d) :
    Prepared rt runs request d := by
  unfold prepare at h
  simp only [bind_eq_ok, raiseIf_eq_ok] at h
  obtain ⟨_, -, tenant, htenant, entityId, -, task, -, limit, hlimit, payload, -, plan, hplan,
    orderedIds, horder, scopedDefinitions, hscoped, h⟩ := h
  split at h
  · cases h
  simp only [bind_eq_ok, pure_eq_ok] at h
  obtain ⟨target, htarget, completed, hcompleted, rfl⟩ := h
  obtain ⟨hselected, hnodup, havailable⟩ := buildSupervisorDelegationPlan_ok hplan
  obtain ⟨hperm, htopological⟩ := dependencyOrder_ok hnodup horder
  have hfind : ∀ id ∈ orderedIds, ∃ d,
      scopedDefinitions.find? (fun definition => definition.id = id) = some d ∧ d.id = id ∧
        dependencies request.definitions id = .ok d.dependsOnAgentIds :=
    fun id hid => find_scoped havailable hscoped (hperm.mem_iff.mp hid)
  refine
    { selected := hselected
      selected_nodup := hnodup
      perm := hperm
      topological := htopological
      ordered := ?_
      dependencies := ?_
      retryLimit := retryLimit_ok hlimit
      covered := ?_
      untargeted := ?_
      targeted := ?_ }
  · refine map_filterMap_of_exists fun id hid => ?_
    obtain ⟨d, hd, hdid, -⟩ := hfind id hid
    exact ⟨d, hd, hdid⟩
  · intro definition hdefinition
    obtain ⟨id, hid, hfound⟩ := List.mem_filterMap.mp hdefinition
    obtain ⟨d, hd, hdid, hdeps⟩ := hfind id hid
    rw [hfound] at hd
    cases hd
    rw [hdid]
    exact hdeps
  · intro agentId
    rw [Delegation.completed?_isSome, loadCompletedRuns_ok hcompleted]
    constructor
    · exact fun hcovers => ⟨tenant, htenant, hcovers⟩
    · rintro ⟨tenant', htenant', hcovers⟩
      rw [htenant] at htenant'
      cases htenant'
      exact hcovers
  · intro hnone
    rw [hnone] at htarget
    exact (pure_eq_ok.mp htarget).symm
  · intro runId hrunId
    rw [hrunId] at htarget
    obtain ⟨run, hcheck, htarget⟩ := bind_eq_ok.mp htarget
    obtain rfl := pure_eq_ok.mp htarget
    exact ⟨run, rfl, checkCancellation_ok hcheck⟩

end WaitLocalAgent.Supervisor
