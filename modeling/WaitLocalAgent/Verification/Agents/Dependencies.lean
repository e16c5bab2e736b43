import WaitLocalAgent.Model.Agents

/-! # The dependency graph of agents

Whatever is created and updated, in whatever order and with whatever failures, the stored
definitions depend on each other without a cycle and within their tenants. -/

namespace WaitLocalAgent.Agents

open Foundation Approvals Search

variable {rt : AgentRuntime} {s s' : Store} {agentId : String} {dependencyIds : List String}
  {clientId : Option ClientId} {existing definition : AgentDefinition}
  {request : DefinitionRequest}

def DependsOn (s : Store) (a b : String) : Prop :=
  ∃ d ∈ s.definitions, d.id = a ∧ b ∈ d.dependsOnAgentIds

def DependsAfter (s : Store) (agentId : String) (dependencyIds : List String) (a b : String) :
    Prop :=
  if a = agentId then b ∈ dependencyIds else DependsOn s a b

/-- No cycle, and every dependency is stored, global or owned by the client of its dependant. -/
structure GraphSound (s : Store) : Prop where
  acyclic : Acyclic (DependsOn s)
  owned : ∀ d ∈ s.definitions, ∀ dependencyId ∈ d.dependsOnAgentIds, ∃ e ∈ s.definitions,
    e.id = dependencyId ∧ (e.clientId = none ∨ e.clientId = d.clientId)

/-! ## Ids -/

theorem digitChar_plain {n : ℕ} (h : n < 16) :
    Nat.digitChar n ≠ ':' ∧ Nat.digitChar n ≠ '=' ∧ Nat.digitChar n ≠ 'A' := by
  have hall : ∀ n : Fin 16, Nat.digitChar n ≠ ':' ∧ Nat.digitChar n ≠ '=' ∧
      Nat.digitChar n ≠ 'A' := by
    decide
  exact hall ⟨n, h⟩

theorem mem_uuidHex {uuid : BitVec 128} {c : Char} (h : c ∈ uuidHex uuid) :
    ∃ n < 16, c = Nat.digitChar n := by
  unfold uuidHex at h
  rw [List.mem_ofFn] at h
  obtain ⟨i, rfl⟩ := h
  exact ⟨uuid.toNat / 16 ^ (31 - i.val) % 16, Nat.mod_lt _ (by omega), rfl⟩

theorem newAgentId_plain {uuid : BitVec 128} {c : Char} (h : c ∈ (newAgentId uuid).toList) :
    c ≠ ':' ∧ c ≠ '=' ∧ c ≠ 'A' := by
  unfold newAgentId at h
  rw [String.toList_ofList] at h
  rcases List.mem_append.mp h with hprefix | hhex
  · have hall : ∀ c ∈ "agent-".toList, c ≠ ':' ∧ c ≠ '=' ∧ c ≠ 'A' := by
      decide
    exact hall c hprefix
  · obtain ⟨n, hlt, rfl⟩ := mem_uuidHex hhex
    exact digitChar_plain hlt

/-- Redaction leaves the ids of agents alone. -/
theorem redactText_newAgentId (rt : AgentRuntime) (uuid : BitVec 128) :
    rt.redactText (newAgentId uuid) = newAgentId uuid :=
  rt.redactText_plain (newAgentId uuid) fun _ hc => newAgentId_plain hc

/-! ## What the checks establish -/

theorem refuseIf_eq_ok {condition : Prop} [Decidable condition] {error : AgentDefinitionError}
    {u : Unit} : refuseIf condition error = .ok u ↔ ¬ condition :=
  raiseIf_eq_ok

theorem getAgentDefinition_none (s : Store) (agentId : String) :
    getAgentDefinition s agentId none = s.definitions.find? agentId := rfl

theorem requireDependency_eq_ok {dependencyId : String} :
    requireDependency s agentId clientId dependencyId = .ok () ↔ dependencyId ≠ agentId ∧
      ∃ e, s.definitions.find? dependencyId = some e ∧
        (e.clientId = none ∨ e.clientId = clientId) := by
  rw [requireDependency, bind_eq_ok, getAgentDefinition_none]
  cases hfind : s.definitions.find? dependencyId with
  | none => simp
  | some e =>
      simp only [refuseIf_eq_ok, Option.some.injEq, exists_eq_left']
      constructor
      · rintro ⟨_, hself, hscope⟩
        exact ⟨hself, by tauto⟩
      · rintro ⟨hself, hscope⟩
        exact ⟨(), hself, by tauto⟩

theorem of_requireDependencies
    (h : requireDependencies s agentId dependencyIds clientId = .ok ()) :
    ∀ dependencyId ∈ dependencyIds, dependencyId ≠ agentId ∧
      ∃ e ∈ s.definitions, e.id = dependencyId ∧
        (e.clientId = none ∨ e.clientId = clientId) := by
  simp only [requireDependencies, bind_eq_ok, forM_eq_ok] at h
  obtain ⟨_, -, _, -, _, -, h⟩ := h
  intro dependencyId hmem
  obtain ⟨hself, e, hfind, hscope⟩ := requireDependency_eq_ok.mp (h dependencyId hmem)
  exact ⟨hself, e, Table.mem_of_find?_eq_some hfind, Table.key_of_find?_eq_some hfind, hscope⟩

theorem edge_dependencyGraph {a b : String} :
    Edge (dependencyGraph s agentId dependencyIds) a b ↔
      DependsAfter s agentId dependencyIds a b := by
  unfold Edge dependencyGraph DependsAfter
  by_cases ha : a = agentId
  · rw [if_pos ha, if_pos ha]
  · rw [if_neg ha, if_neg ha]
    cases hfind : s.definitions.find? a with
    | none =>
        constructor
        · intro hmem
          exact absurd hmem List.not_mem_nil
        · rintro ⟨d, hd, rfl, -⟩
          rw [Table.find?_eq_some_iff.mpr ⟨hd, rfl⟩] at hfind
          cases hfind
    | some d =>
        obtain ⟨hd, rfl⟩ := Table.find?_eq_some_iff.mp hfind
        constructor
        · exact fun hmem => ⟨d, hd, rfl, hmem⟩
        · rintro ⟨e, he, hid, hmem⟩
          rwa [Table.eq_of_key_eq he hd hid] at hmem

theorem reachesCycle_dependencyGraph {a : String} :
    ReachesCycle (Edge (dependencyGraph s agentId dependencyIds)) a ↔
      ReachesCycle (DependsAfter s agentId dependencyIds) a :=
  ⟨ReachesCycle.mono fun _ _ => edge_dependencyGraph.mp,
    ReachesCycle.mono fun _ _ => edge_dependencyGraph.mpr⟩

theorem not_reachesCycle_of_searchCycle (h : searchCycle rt s agentId dependencyIds = .ok ()) :
    ¬ ReachesCycle (DependsAfter s agentId dependencyIds) agentId := by
  rw [← reachesCycle_dependencyGraph]
  unfold searchCycle at h
  split at h
  · rename_i marks hvisit
    exact not_reachesCycle_of_visit hvisit
  · cases h
  · cases h

/-! ## Writes -/

/-- A sound graph over ids that were made by `create`. -/
structure Sound (s : Store) : Prop extends GraphSound s where
  ids : ∀ d ∈ s.definitions, ∃ uuid, d.id = newAgentId uuid

/-- Every definition is kept, under its id and its client. -/
def Persists (s s' : Store) : Prop :=
  ∀ d ∈ s.definitions, ∃ e ∈ s'.definitions, e.id = d.id ∧ e.clientId = d.clientId

/-- The definitions of `s'` are those of `s`, but for one that is `row` now. -/
structure Writes (row : AgentDefinition) (s s' : Store) : Prop where
  mem : row ∈ s'.definitions
  others : ∀ d ∈ s'.definitions, d.id ≠ row.id → d ∈ s.definitions
  persists : Persists s s'

theorem Writes.dependsAfter {row : AgentDefinition} (h : Writes row s s') {a b : String}
    (hab : DependsOn s' a b) : DependsAfter s row.id row.dependsOnAgentIds a b := by
  obtain ⟨d, hd, rfl, hb⟩ := hab
  unfold DependsAfter
  by_cases hid : d.id = row.id
  · rw [if_pos hid]
    rwa [Table.eq_of_key_eq hd h.mem hid] at hb
  · rw [if_neg hid]
    exact ⟨d, h.others d hd hid, rfl, hb⟩

/-- A definition whose dependencies have been validated keeps the graph sound. -/
theorem Sound.write {row : AgentDefinition} (hs : Sound s) (h : Writes row s s')
    (hid : ∃ uuid, row.id = newAgentId uuid)
    (hvalid : validateDependencies rt s row.id row.dependsOnAgentIds row.clientId = .ok ()) :
    Sound s' := by
  rw [validateDependencies, bind_eq_ok] at hvalid
  obtain ⟨_, hrequired, hsearch⟩ := hvalid
  refine ⟨⟨?_, ?_⟩, ?_⟩
  · refine hs.acyclic.replace (a := row.id) ?_ ?_
    · intro a b ha hab
      have hafter := h.dependsAfter hab
      rwa [DependsAfter, if_neg ha] at hafter
    · intro hcycle
      exact not_reachesCycle_of_searchCycle hsearch
        (hcycle.mono fun _ _ => h.dependsAfter)
  · intro d hd dependencyId hmem
    have hbefore : ∃ e ∈ s.definitions, e.id = dependencyId ∧
        (e.clientId = none ∨ e.clientId = d.clientId) := by
      by_cases hrow : d.id = row.id
      · rw [Table.eq_of_key_eq hd h.mem hrow] at hmem ⊢
        exact (of_requireDependencies hrequired dependencyId hmem).2
      · exact hs.owned d (h.others d hd hrow) dependencyId hmem
    obtain ⟨e, he, heid, hscope⟩ := hbefore
    obtain ⟨e', he', hid', hclient'⟩ := h.persists e he
    exact ⟨e', he', hid'.trans heid, by rwa [hclient']⟩
  · intro d hd
    by_cases hrow : d.id = row.id
    · rwa [hrow]
    · exact hs.ids d (h.others d hd hrow)

theorem Sound.stored_dependencies (hs : Sound s)
    (hvalid : validateDependencies rt s agentId dependencyIds clientId = .ok ()) :
    dependencyIds.map rt.redactText = dependencyIds := by
  rw [validateDependencies, bind_eq_ok] at hvalid
  obtain ⟨_, hrequired, -⟩ := hvalid
  have hsame : ∀ dependencyId ∈ dependencyIds, rt.redactText dependencyId = id dependencyId := by
    intro dependencyId hmem
    obtain ⟨-, e, he, rfl, -⟩ := of_requireDependencies hrequired dependencyId hmem
    obtain ⟨uuid, huuid⟩ := hs.ids e he
    rw [huuid]
    exact redactText_newAgentId rt uuid
  rw [List.map_congr_left hsame, List.map_id]

/-! ## Calls -/

theorem definition_eq_ok {id createdAt updatedAt : String} {version : ℕ}
    (h : request.definition rt id clientId version createdAt updatedAt = .ok definition) :
    definition.id = id ∧ definition.clientId = clientId ∧ definition.createdAt = createdAt ∧
      definition.dependsOnAgentIds = request.dependsOnAgentIds := by
  simp only [DefinitionRequest.definition, bind_eq_ok, pure_eq_ok] at h
  obtain ⟨_, _, _, _, rfl⟩ := h
  exact ⟨rfl, rfl, rfl, rfl⟩

theorem insertAgentRevision_definitions (h : insertAgentRevision rt s definition = .ok s') :
    s'.definitions = s.definitions := by
  simp only [insertAgentRevision, bind_eq_ok, pure_eq_ok] at h
  obtain ⟨_, _, rfl⟩ := h
  rfl

theorem readBack_eq_ok {result : AgentDefinition × Store}
    (h : readBack s agentId = .ok result) : result.2 = s := by
  unfold readBack at h
  split at h
  · cases h
    rfl
  · cases h

theorem createAgentDefinition_writes {created : AgentDefinition}
    (h : createAgentDefinition rt s definition = .ok (created, s')) :
    Writes (definition.stored rt) s s' := by
  unfold createAgentDefinition at h
  split at h
  · cases h
  · rename_i definitions hinsert
    simp only [bind_eq_ok] at h
    obtain ⟨s₁, hrevision, h⟩ := h
    have hs' : s'.definitions = definitions := by
      rw [show s' = s₁ from readBack_eq_ok h]
      exact insertAgentRevision_definitions hrevision
    have hmem : ∀ d, d ∈ s'.definitions ↔ d ∈ s.definitions ∨ d = definition.stored rt := by
      intro d
      rw [hs']
      exact Table.mem_of_insert? hinsert
    refine ⟨(hmem _).mpr (.inr rfl), ?_, fun d hd => ⟨d, (hmem d).mpr (.inl hd), rfl, rfl⟩⟩
    intro d hd hid
    rcases (hmem d).mp hd with hold | rfl
    · exact hold
    · exact absurd rfl hid

theorem updateAgentDefinition_writes {updated row : AgentDefinition}
    (h : updateAgentDefinition rt s definition = .ok (updated, s')) (hrow : row ∈ s.definitions)
    (hid : row.id = definition.id) (hclient : row.clientId = definition.clientId) :
    Writes (definition.overwrite rt row) s s' := by
  simp only [updateAgentDefinition, bind_eq_ok] at h
  obtain ⟨_, -, s₁, hrevision, h⟩ := h
  have hs' : s'.definitions = s.definitions.update (fun d => d.id == definition.id)
      (definition.overwrite rt) (definition.overwrite_id rt) := by
    rw [show s' = s₁ from readBack_eq_ok h]
    exact insertAgentRevision_definitions hrevision
  have hmem : definition.overwrite rt row ∈ s'.definitions := by
    rw [hs', Table.mem_update]
    exact ⟨row, hrow, by simp [hid]⟩
  refine ⟨hmem, ?_, ?_⟩
  · intro d hd hne
    rw [hs', Table.mem_update] at hd
    obtain ⟨r, hr, rfl⟩ := hd
    by_cases hmatch : (r.id == definition.id) = true
    · rw [if_pos hmatch] at hne
      exact absurd ((beq_iff_eq.mp hmatch).trans hid.symm) hne
    · rwa [if_neg hmatch]
  · intro d hd
    by_cases hmatch : d.id = row.id
    · refine ⟨_, hmem, hmatch.symm, ?_⟩
      rw [Table.eq_of_key_eq hd hrow hmatch]
      exact hclient.symm
    · refine ⟨d, ?_, rfl, rfl⟩
      rw [hs']
      refine Table.mem_update_of_not hd ?_
      rw [← hid]
      exact beq_false_of_ne hmatch

theorem validateDefinition_dependencies
    (h : validateDefinition rt s agentId clientId request = .ok ()) :
    validateDependencies rt s agentId request.dependsOnAgentIds clientId = .ok () := by
  simp only [validateDefinition, bind_eq_ok] at h
  obtain ⟨_, -, _, hvalid, -⟩ := h
  exact hvalid

theorem create_sound {rawClient : Option String} {uuid : BitVec 128} {now : Instant}
    {created : AgentDefinition} (hs : Sound s)
    (h : create rt s request rawClient uuid now = .ok (created, s')) :
    Sound s' ∧ Persists s s' := by
  simp only [create, bind_eq_ok] at h
  obtain ⟨_, hvalid, definition, hdefinition, h⟩ := h
  obtain ⟨hid, hclient, -, hdependencies⟩ := definition_eq_ok hdefinition
  have hvalid := validateDefinition_dependencies hvalid
  have hwrites := createAgentDefinition_writes h
  have hstored : validateDependencies rt s (definition.stored rt).id
      (definition.stored rt).dependsOnAgentIds (definition.stored rt).clientId = .ok () := by
    simpa only [AgentDefinition.stored, hid, hclient, hdependencies,
      hs.stored_dependencies hvalid] using hvalid
  exact ⟨hs.write hwrites ⟨uuid, hid⟩ hstored, hwrites.persists⟩

theorem update_sound {now : Instant} {updated row : AgentDefinition} (hs : Sound s)
    (hrow : row ∈ s.definitions) (hid : row.id = existing.id)
    (hclient : row.clientId = existing.clientId)
    (h : update rt s existing request now = .ok (updated, s')) : Sound s' ∧ Persists s s' := by
  simp only [update, bind_eq_ok] at h
  obtain ⟨_, hvalid, definition, hdefinition, h⟩ := h
  obtain ⟨hid', hclient', -, hdependencies⟩ := definition_eq_ok hdefinition
  have hvalid := validateDefinition_dependencies hvalid
  have hwrites := updateAgentDefinition_writes h hrow (hid.trans hid'.symm)
    (hclient.trans hclient'.symm)
  have hstored : validateDependencies rt s (definition.overwrite rt row).id
      (definition.overwrite rt row).dependsOnAgentIds
      (definition.overwrite rt row).clientId = .ok () := by
    simpa only [AgentDefinition.overwrite, AgentDefinition.stored, hid, hclient', hdependencies,
      hs.stored_dependencies hvalid] using hvalid
  exact ⟨hs.write hwrites (hs.ids row hrow) hstored, hwrites.persists⟩

/-! ## Runs -/

/-- The store is sound, and what callers hold is stored under its id and its client. -/
structure DesksSound {W : Type} (p : Desks W) : Prop where
  sound : Sound p.store
  held : ∀ w d, p.held w = some d →
    ∃ row ∈ p.store.definitions, row.id = d.id ∧ row.clientId = d.clientId

theorem DesksSound.write {W : Type} {p : Desks W} (h : DesksSound p) (hs' : Sound s')
    (hpersists : Persists p.store s') : DesksSound { p with store := s' } := by
  refine ⟨hs', ?_⟩
  intro w d hd
  obtain ⟨row, hrow, hid, hclient⟩ := h.held w d hd
  obtain ⟨row', hrow', hid', hclient'⟩ := hpersists row hrow
  exact ⟨row', hrow', hid'.trans hid, hclient'.trans hclient⟩

theorem getAgentDefinition_eq_some {rawClient : Option String} {d : AgentDefinition}
    (h : getAgentDefinition s agentId rawClient = some d) : d ∈ s.definitions := by
  unfold getAgentDefinition at h
  split at h
  · exact Table.mem_of_find?_eq_some h
  · exact Table.mem_of_find?_eq_some (Option.eq_some_of_filter_eq_some h)

theorem step_sound {W : Type} [DecidableEq W] {p : Desks W} (l : DeskStep W)
    (h : DesksSound p) : DesksSound (p.step rt l) := by
  cases l with
  | create request rawClient uuid now =>
      simp only [Desks.step]
      cases hcreate : create rt p.store request rawClient uuid now with
      | error e => exact h
      | ok result =>
          obtain ⟨hs', hpersists⟩ := create_sound h.sound hcreate
          exact h.write hs' hpersists
  | get w agentId rawClient =>
      refine ⟨h.sound, ?_⟩
      intro w' d hd
      simp only [Desks.step] at hd
      by_cases hw : w' = w
      · rw [hw, Function.update_self] at hd
        exact ⟨d, getAgentDefinition_eq_some hd, rfl, rfl⟩
      · rw [Function.update_of_ne hw] at hd
        exact h.held w' d hd
  | update w request now =>
      simp only [Desks.step]
      cases hheld : p.held w with
      | none => exact h
      | some existing =>
          obtain ⟨row, hrow, hid, hclient⟩ := h.held w existing hheld
          simp only
          cases hupdate : update rt p.store existing request now with
          | error e => exact h
          | ok result =>
              obtain ⟨hs', hpersists⟩ := update_sound h.sound hrow hid hclient hupdate
              exact h.write hs' hpersists

theorem empty_sound : Sound ⟨.empty, .empty⟩ := by
  refine ⟨⟨?_, ?_⟩, ?_⟩
  · intro a hcycle
    obtain ⟨b, ⟨d, hd, -⟩, -⟩ := Relation.TransGen.head'_iff.mp hcycle
    exact Table.not_mem_empty d hd
  · exact fun d hd => absurd hd (Table.not_mem_empty d)
  · exact fun d hd => absurd hd (Table.not_mem_empty d)

theorem run_sound {W : Type} [DecidableEq W] (rt : AgentRuntime) (ls : List (DeskStep W)) :
    DesksSound ((desks W rt).run ls) := by
  refine (desks W rt).run_invariant ?_ ?_ ls
  · exact ⟨empty_sound, fun _ _ h => nomatch h⟩
  · intro p l h
    exact step_sound l h

/-! ## Cycle errors -/

/-- The error of a cycle comes from the search alone. -/
abbrev cycleError : AgentError := .definition .dependencyCycle

theorem neverRaises_refuseIf {condition : Prop} [Decidable condition]
    {error : AgentDefinitionError} (h : error ≠ .dependencyCycle) :
    NeverRaises cycleError (refuseIf condition error) :=
  neverRaises_raiseIf fun hsame => h (AgentError.definition.inj hsame)

theorem neverRaises_check {α : Type} {condition : Prop} [Decidable condition]
    {error : AgentDefinitionError} {f : Unit → Except AgentError α}
    (h : error ≠ .dependencyCycle) (hf : NeverRaises cycleError (f ())) :
    NeverRaises cycleError (refuseIf condition error >>= f) :=
  (neverRaises_refuseIf h).bind fun _ => hf

theorem validateHeader_neverRaises (request : DefinitionRequest) :
    NeverRaises cycleError (validateHeader request) := by
  unfold validateHeader
  iterate 4 refine neverRaises_check (by nofun) ?_
  split
  · unfold validateEventFilters
    iterate 2 refine neverRaises_check (by nofun) ?_
    exact neverRaises_forM (fun _ => neverRaises_refuseIf (by nofun)) _
  · exact neverRaises_refuseIf (by nofun)

theorem requireDependencies_neverRaises :
    NeverRaises cycleError (requireDependencies s agentId dependencyIds clientId) := by
  unfold requireDependencies
  iterate 3 refine neverRaises_check (by nofun) ?_
  refine neverRaises_forM (fun dependencyId => ?_) _
  unfold requireDependency
  refine neverRaises_check (by nofun) ?_
  split
  · exact neverRaises_error (by nofun)
  · exact neverRaises_refuseIf (by nofun)

theorem normalizedWindowValue_neverRaises (value field : String) :
    NeverRaises cycleError (normalizedWindowValue value field) := by
  unfold normalizedWindowValue
  simp only
  split
  · split
    · exact neverRaises_ok _
    · exact neverRaises_error (by nofun)
  · exact neverRaises_error (by nofun)

theorem normalizedExecutionWindow_neverRaises (start stop : Option String) (zone : String) :
    NeverRaises cycleError (normalizedExecutionWindow rt start stop zone) := by
  unfold normalizedExecutionWindow
  iterate 2 refine neverRaises_check (by nofun) ?_
  split
  · refine (normalizedWindowValue_neverRaises _ _).bind fun _ => ?_
    refine (normalizedWindowValue_neverRaises _ _).bind fun _ => ?_
    exact neverRaises_check (by nofun) (neverRaises_ok _)
  · exact neverRaises_ok _

theorem normalizeRuleValues_neverRaises (field : String) (values : List String) :
    NeverRaises cycleError (normalizeRuleValues rt field values) := by
  unfold normalizeRuleValues
  refine neverRaises_check (by nofun) ?_
  refine neverRaises_foldlM (fun kept raw => ?_) _ _
  iterate 2 refine neverRaises_check (by nofun) ?_
  exact neverRaises_ok _

theorem normalizeApprovalRules_neverRaises (rules : List ApprovalRule)
    (enabledTools : Option (List String)) :
    NeverRaises cycleError (normalizeApprovalRules rt rules enabledTools) := by
  unfold normalizeApprovalRules
  refine neverRaises_check (by nofun) ?_
  refine neverRaises_foldlM (fun normalized rule => ?_) _ _
  unfold normalizeApprovalRule
  iterate 5 refine neverRaises_check (by nofun) ?_
  refine NeverRaises.bind ?_ fun _ => neverRaises_ok _
  refine neverRaises_mapM (fun condition => ?_) _
  exact (normalizeRuleValues_neverRaises _ _).bind fun _ => neverRaises_ok _

theorem validateFailurePolicies_neverRaises (steps : List AgentStep) (enabledTools : List String) :
    NeverRaises cycleError (validateFailurePolicies steps enabledTools) := by
  unfold validateFailurePolicies
  refine NeverRaises.bind ?_ fun _ => neverRaises_refuseIf (by nofun)
  refine neverRaises_forM (fun step => ?_) _
  split
  · exact neverRaises_ok _
  · unfold validateFailurePolicy
    iterate 5 refine neverRaises_check (by nofun) ?_
    split
    · exact neverRaises_refuseIf (by nofun)
    · iterate 2 refine neverRaises_check (by nofun) ?_
      exact neverRaises_refuseIf (by nofun)

theorem validateBody_neverRaises (rt : AgentRuntime) (request : DefinitionRequest) :
    NeverRaises cycleError (validateBody rt request) := by
  unfold validateBody
  iterate 7 refine neverRaises_check (by nofun) ?_
  refine (normalizeApprovalRules_neverRaises _ _).bind fun _ => ?_
  iterate 3 refine neverRaises_check (by nofun) ?_
  refine (normalizedExecutionWindow_neverRaises _ _ _).bind fun _ => ?_
  refine NeverRaises.bind ?_ fun _ => ?_
  · unfold validateContextSources
    iterate 3 refine neverRaises_check (by nofun) ?_
    exact neverRaises_refuseIf (by nofun)
  · refine neverRaises_check (by nofun) ?_
    refine (neverRaises_forM (fun _ => neverRaises_refuseIf (by nofun)) _).bind fun _ => ?_
    exact validateFailurePolicies_neverRaises _ _

theorem definition_neverRaises {id createdAt updatedAt : String} {version : ℕ} :
    NeverRaises cycleError
      (request.definition rt id clientId version createdAt updatedAt) := by
  unfold DefinitionRequest.definition
  refine (normalizedExecutionWindow_neverRaises _ _ _).bind fun _ => ?_
  exact (normalizeApprovalRules_neverRaises _ _).bind fun _ => neverRaises_ok _

theorem updateAgentDefinition_neverRaises :
    NeverRaises cycleError (updateAgentDefinition rt s definition) := by
  unfold updateAgentDefinition
  refine (neverRaises_raiseIf (by nofun)).bind fun _ => ?_
  refine NeverRaises.bind ?_ fun s' => ?_
  · unfold insertAgentRevision
    exact (neverRaises_raiseIf (by nofun)).bind fun _ => neverRaises_ok _
  · unfold readBack
    split
    · exact neverRaises_ok _
    · exact neverRaises_error (by nofun)

/-- The nodes that can have dependencies: the agent, and the stored ones. -/
def dependants (s : Store) (agentId : String) : Finset String :=
  insert agentId (s.definitions.rows.map AgentDefinition.id).toFinset

theorem mem_dependants (s : Store) (agentId : String) (dependencyIds : List String) (node : String)
    (h : dependencyGraph s agentId dependencyIds node ≠ []) :
    node ∈ dependants s agentId := by
  unfold dependencyGraph at h
  by_cases hnode : node = agentId
  · rw [hnode]
    exact Finset.mem_insert_self _ _
  · rw [if_neg hnode] at h
    cases hfind : s.definitions.find? node with
    | none =>
        rw [hfind] at h
        exact absurd rfl h
    | some d =>
        obtain ⟨hd, rfl⟩ := Table.find?_eq_some_iff.mp hfind
        refine Finset.mem_insert_of_mem ?_
        rw [List.mem_toFinset]
        exact List.mem_map_of_mem hd

theorem card_dependants_le (s : Store) (agentId : String) :
    (dependants s agentId).card ≤ s.definitions.rows.length + 1 := by
  have hids := (s.definitions.rows.map AgentDefinition.id).toFinset_card_le
  rw [List.length_map] at hids
  have hinsert := Finset.card_insert_le agentId
    (s.definitions.rows.map AgentDefinition.id).toFinset
  unfold dependants
  omega

theorem searchCycle_eq_cycleError_iff
    (hframes : s.definitions.rows.length + 1 < rt.recursionLimit) :
    searchCycle rt s agentId dependencyIds = .error cycleError ↔
      ReachesCycle (DependsAfter s agentId dependencyIds) agentId := by
  have hcard := card_dependants_le s agentId
  have hvisit : visit (dependencyGraph s agentId dependencyIds) rt.recursionLimit agentId
      Marks.none = .error .cycle ↔ _ :=
    visit_eq_cycle_iff (mem_dependants s agentId dependencyIds) (hcard.trans_lt hframes)
  rw [← reachesCycle_dependencyGraph, ← hvisit]
  unfold searchCycle
  split
  · rename_i hmarks
    simp [hmarks]
  · rename_i hcycle
    simp [hcycle]
  · rename_i hdepth
    simp [hdepth]

/-- An update is refused with the error of a cycle exactly if it passes the checks that come first
and its dependencies would lead the agent into one. -/
theorem update_eq_cycleError_iff {now : Instant}
    (hframes : s.definitions.rows.length + 1 < rt.recursionLimit) :
    update rt s existing request now = .error cycleError ↔
      validateHeader request = .ok () ∧
      requireDependencies s existing.id request.dependsOnAgentIds existing.clientId = .ok () ∧
      ReachesCycle (DependsAfter s existing.id request.dependsOnAgentIds) existing.id := by
  rw [← searchCycle_eq_cycleError_iff hframes]
  constructor
  · intro h
    simp only [update, bind_eq_error, validateDefinition, validateDependencies] at h
    rcases h with h | ⟨_, -, hrest⟩
    · rcases h with hheader | ⟨_, hheader, h⟩
      · exact absurd hheader (validateHeader_neverRaises request)
      · rcases h with h | ⟨_, -, hbody⟩
        · rcases h with hrequired | ⟨_, hrequired, hsearch⟩
          · exact absurd hrequired requireDependencies_neverRaises
          · exact ⟨hheader, hrequired, hsearch⟩
        · exact absurd hbody (validateBody_neverRaises rt request)
    · rcases hrest with hdefinition | ⟨_, -, hwrite⟩
      · exact absurd hdefinition definition_neverRaises
      · exact absurd hwrite updateAgentDefinition_neverRaises
  · rintro ⟨hheader, hrequired, hsearch⟩
    simp only [update, validateDefinition, validateDependencies, hheader, hrequired, hsearch,
      ok_bind]
    rfl

/-- In every state that calls can reach the graph is sound, and updates that pass the other checks
are refused with the error of a cycle exactly if they would lead into one. -/
theorem dependencies_sound {W : Type} [DecidableEq W] (rt : AgentRuntime)
    (ls : List (DeskStep W)) :
    GraphSound ((desks W rt).run ls).store ∧
      ∀ (existing : AgentDefinition) (request : DefinitionRequest) (now : Instant),
        ((desks W rt).run ls).store.definitions.rows.length + 1 < rt.recursionLimit →
        (update rt ((desks W rt).run ls).store existing request now = .error cycleError ↔
          validateHeader request = .ok () ∧
          requireDependencies ((desks W rt).run ls).store existing.id request.dependsOnAgentIds
            existing.clientId = .ok () ∧
          ReachesCycle (DependsAfter ((desks W rt).run ls).store existing.id
            request.dependsOnAgentIds) existing.id) :=
  ⟨(run_sound rt ls).sound.toGraphSound, fun _ _ _ => update_eq_cycleError_iff⟩

/-! ## One morning -/

/-- The tools of the catalog, UTC, and nothing to redact or fold. -/
def morningAgents : AgentRuntime where
  toRuntime := morningRuntime
  tools := ["ticket-summary", "ticket-triage", "knowledge-search"]
  zone := fun zone => zone == "UTC"
  casefold := Text.lower
  recursionLimit := 1000
  redactText_plain := fun _ _ => rfl

def triageRequest (dependencyIds : List String) : DefinitionRequest where
  name := "Triage"
  enabledTools := ["ticket-triage"]
  steps := [{ toolId := "ticket-triage" }]
  maxSteps := 1
  executionTimeoutSeconds := 30
  dependsOnAgentIds := dependencyIds

/-- Two agents, the second of which depends on the first, which is then read. -/
def twoAgents : List (DeskStep Unit) :=
  [.create (triageRequest []) none 1 (Instant.morning 0),
    .create (triageRequest [newAgentId 1]) none 2 (Instant.morning 1),
    .get () (newAgentId 1) none]

/-- The store with both agents, and the first of them as it has been read. -/
def twoAgentsStore : Store := ((desks Unit morningAgents).run twoAgents).store

def firstAgent : Option AgentDefinition := ((desks Unit morningAgents).run twoAgents).held ()

def updateFirst (existing : AgentDefinition) (name : String) :
    Except AgentError (AgentDefinition × Store) :=
  update morningAgents twoAgentsStore existing { triageRequest [newAgentId 2] with name }
    (Instant.morning 5)

/-- The first agent may not come to depend on the second, and not without a name either. -/
theorem updateFirst_raises : ∃ existing, firstAgent = some existing ∧
    updateFirst existing "Triage" = .error cycleError ∧
    updateFirst existing "" = .error (.definition .name) := by
  have hraised : (firstAgent.any fun existing =>
      raised? (updateFirst existing "Triage") == some cycleError &&
        raised? (updateFirst existing "") == some (.definition .name)) = true := by decide
  obtain ⟨existing, hexisting, h⟩ := (Option.any_eq_true _ _).mp hraised
  simp only [Bool.and_eq_true, beq_iff_eq] at h
  exact ⟨existing, hexisting, raised?_eq_some.mp h.1, raised?_eq_some.mp h.2⟩

theorem twoAgentsStore_frames :
    twoAgentsStore.definitions.rows.length + 1 < morningAgents.recursionLimit := by
  decide

theorem dependencies_sound_twoAgents : ∃ existing, firstAgent = some existing ∧
    ReachesCycle (DependsAfter twoAgentsStore existing.id [newAgentId 2]) existing.id := by
  obtain ⟨existing, hexisting, hcycle, -⟩ := updateFirst_raises
  have hiff := (dependencies_sound morningAgents twoAgents).2 existing
    (triageRequest [newAgentId 2]) (Instant.morning 5) twoAgentsStore_frames
  exact ⟨existing, hexisting, (hiff.mp hcycle).2.2⟩

/-- An update without a name is refused for that reason, although it would lead into a cycle. -/
theorem not_exact : ¬ ∀ (rt : AgentRuntime) (ls : List (DeskStep Unit))
    (existing : AgentDefinition) (request : DefinitionRequest) (now : Instant),
    ((desks Unit rt).run ls).held () = some existing →
    (update rt ((desks Unit rt).run ls).store existing request now = .error cycleError ↔
      ReachesCycle (DependsAfter ((desks Unit rt).run ls).store existing.id
        request.dependsOnAgentIds) existing.id) := by
  intro h
  obtain ⟨existing, hexisting, hraises, hname⟩ := updateFirst_raises
  have hcycle := ((update_eq_cycleError_iff twoAgentsStore_frames).mp hraises).2.2
  have hsame := (h morningAgents twoAgents existing
    { triageRequest [newAgentId 2] with name := "" } (Instant.morning 5) hexisting).mpr hcycle
  rw [show update morningAgents ((desks Unit morningAgents).run twoAgents).store existing
    { triageRequest [newAgentId 2] with name := "" } (Instant.morning 5) = _ from hname] at hsame
  cases hsame

end WaitLocalAgent.Agents
