import WaitLocalAgent.Model.AgentUpdates
import WaitLocalAgent.Verification.Agents.Terminal

/-! # Resuming under the definition of the start

Every version of a definition has one revision, and the revision records the row of that version
with its name and its description redacted. A run that is resumed after updates gets back what it
reads of its definition, but for an approval expiry that was not set and texts that redaction
changes. -/

namespace WaitLocalAgent.AgentRuns

open Foundation Approvals Agents

/-! ## Revisions of the store -/

/-- A revision of a row: the snapshot is the row with its name and its description redacted. -/
structure RecordsRow (rt : AgentRuntime) (d : AgentDefinition) (r : AgentDefinitionRevision) :
    Prop where
  agentId : r.agentId = d.id
  version : r.version = d.version
  clientId : r.clientId = d.clientId
  createdAt : r.createdAt = d.updatedAt
  definition : r.definition =
    { d with
      name := rt.redactText d.name, description := rt.redactText d.description
      createdAt := r.definition.createdAt }

def agentVersions (rt : AgentRuntime) :
    Versioned Agents.Store String AgentDefinition AgentDefinitionRevision where
  entry s agentId := s.definitions.find? agentId
  revision s agentId version := selectDefinitionRevision s agentId version
  version := AgentDefinition.version
  Records := RecordsRow rt

def UniqueRevisions (s : Agents.Store) : Prop :=
  ∀ r ∈ s.revisions, ∀ q ∈ s.revisions, r.agentId = q.agentId → r.version = q.version → r = q

variable {rt : AgentRuntime} {s s' : Agents.Store} {agentId : String} {version : ℕ}
  {d definition : AgentDefinition} {r : AgentDefinitionRevision} {W : Type}

theorem selectDefinitionRevision_eq_some (h : selectDefinitionRevision s agentId version = some r) :
    r ∈ s.revisions ∧ r.agentId = agentId ∧ r.version = version := by
  have hkey := List.find?_some h
  simp only [Bool.and_eq_true, beq_iff_eq] at hkey
  exact ⟨List.mem_of_find?_eq_some h, hkey⟩

theorem selectDefinitionRevision_eq_none :
    selectDefinitionRevision s agentId version = none ↔
      ¬ ∃ r ∈ s.revisions.table.rows, r.agentId = agentId ∧ r.version = version := by
  simp [selectDefinitionRevision]

def withRevision (rt : AgentRuntime) (s : Agents.Store) (definition : AgentDefinition) :
    Agents.Store :=
  { s with
    revisions := s.revisions.insert (definition.revision rt) (definition.revision_id rt) }

theorem insertAgentRevision_eq_ok (h : insertAgentRevision rt s definition = .ok s') :
    selectDefinitionRevision s definition.id definition.version = none ∧
      s' = withRevision rt s definition := by
  simp only [insertAgentRevision, bind_eq_ok, raiseIf_eq_ok, pure_eq_ok] at h
  obtain ⟨_, hfree, rfl⟩ := h
  exact ⟨selectDefinitionRevision_eq_none.mpr hfree, rfl⟩

theorem selectDefinitionRevision_withRevision
    (hfree : selectDefinitionRevision s definition.id definition.version = none) :
    selectDefinitionRevision (withRevision rt s definition) agentId version =
      if agentId = definition.id ∧ version = definition.version then
        some (definition.revision rt (s.revisions.lastKey + 1))
      else selectDefinitionRevision s agentId version := by
  by_cases hkey : agentId = definition.id ∧ version = definition.version
  · obtain ⟨rfl, rfl⟩ := hkey
    unfold selectDefinitionRevision at hfree ⊢
    simp [withRevision, AutoTable.insert, hfree, AgentDefinition.revision]
  · have hlast : (definition.id == agentId && definition.version == version) = false := by
      rw [Bool.eq_false_iff]
      simp only [ne_eq, Bool.and_eq_true, beq_iff_eq]
      rintro ⟨rfl, rfl⟩
      exact hkey ⟨rfl, rfl⟩
    unfold selectDefinitionRevision
    simp [withRevision, AutoTable.insert, AgentDefinition.revision, hlast, hkey]

theorem UniqueRevisions.withRevision (h : UniqueRevisions s)
    (hfree : selectDefinitionRevision s definition.id definition.version = none) :
    UniqueRevisions (withRevision rt s definition) := by
  have hnew := selectDefinitionRevision_eq_none.mp hfree
  have hmem : ∀ r, r ∈ (AgentRuns.withRevision rt s definition).revisions ↔
      r ∈ s.revisions ∨ r = definition.revision rt (s.revisions.lastKey + 1) :=
    fun r => AutoTable.mem_insert (h := definition.revision_id rt)
  intro r hr q hq hid hversion
  rcases (hmem r).mp hr with hr | rfl
  · rcases (hmem q).mp hq with hq | rfl
    · exact h r hr q hq hid hversion
    · exact absurd ⟨r, hr, hid, hversion⟩ hnew
  · rcases (hmem q).mp hq with hq | rfl
    · exact absurd ⟨q, hq, hid.symm, hversion.symm⟩ hnew
    · rfl

/-! ## Writes of the store -/

/-- A write of a definition: a row that is new or overwritten, and the revision beside it. -/
structure WritesRow (rt : AgentRuntime) (row : AgentDefinition) (s s' : Agents.Store) : Prop where
  writes : ∃ r, (agentVersions rt).Writes row.id row r s s'
  unique : UniqueRevisions s → UniqueRevisions s'

def definitionVersions (Records : AgentDefinition → AgentDefinitionRevision → Prop) :
    Versioned Agents.Store String AgentDefinition AgentDefinitionRevision where
  entry s agentId := s.definitions.find? agentId
  revision s agentId version := selectDefinitionRevision s agentId version
  version := AgentDefinition.version
  Records := Records

theorem writes_withRevision (Records : AgentDefinition → AgentDefinitionRevision → Prop)
    (row : AgentDefinition) {t : Agents.Store} (ht : t.revisions = s.revisions)
    (hfree : selectDefinitionRevision t definition.id definition.version = none)
    (hid : row.id = definition.id) (hversion : row.version = definition.version)
    (hentry : ∀ j, t.definitions.find? j = if j = row.id then some row else s.definitions.find? j)
    (hrecords : ∀ n, Records row (definition.revision rt n)) :
    ∃ r, (definitionVersions Records).Writes row.id row r s (withRevision rt t definition) := by
  have hsame : ∀ j v, selectDefinitionRevision t j v = selectDefinitionRevision s j v := by
    intro j v
    simp only [selectDefinitionRevision, ht]
  refine ⟨definition.revision rt (t.revisions.lastKey + 1), ?_, hentry, ?_, hrecords _⟩
  · show selectDefinitionRevision s row.id row.version = none
    rw [hid, hversion, ← hsame, hfree]
  · intro j v
    show selectDefinitionRevision (withRevision rt t definition) j v =
      if j = row.id ∧ v = row.version then _ else selectDefinitionRevision s j v
    rw [selectDefinitionRevision_withRevision hfree, hsame, hid, hversion]

theorem writesRow_withRevision {row : AgentDefinition} {t : Agents.Store}
    (ht : t.revisions = s.revisions)
    (hfree : selectDefinitionRevision t definition.id definition.version = none)
    (hid : row.id = definition.id) (hversion : row.version = definition.version)
    (hentry : ∀ j, t.definitions.find? j = if j = row.id then some row else s.definitions.find? j)
    (hrecords : ∀ n, RecordsRow rt row (definition.revision rt n)) :
    WritesRow rt row s (withRevision rt t definition) := by
  refine ⟨writes_withRevision (RecordsRow rt) row ht hfree hid hversion hentry hrecords, ?_⟩
  intro hunique
  refine UniqueRevisions.withRevision ?_ hfree
  rwa [UniqueRevisions, ht]

theorem createAgentDefinition_writesRow {created : AgentDefinition}
    (h : createAgentDefinition rt s definition = .ok (created, s')) :
    WritesRow rt (definition.stored rt) s s' ∧ s.definitions.find? definition.id = none := by
  unfold createAgentDefinition at h
  split at h
  · cases h
  · rename_i definitions hinsert
    simp only [bind_eq_ok] at h
    obtain ⟨s₁, hrevision, hread⟩ := h
    obtain ⟨hfree, rfl⟩ := insertAgentRevision_eq_ok hrevision
    obtain rfl := readBack_eq_ok hread
    have hnew : s.definitions.find? definition.id = none :=
      Table.find?_eq_none_of_insert? (r := definition.stored rt) hinsert
    exact ⟨writesRow_withRevision rfl hfree rfl rfl (fun _ => Table.find?_of_insert? hinsert)
      fun _ => ⟨rfl, rfl, rfl, rfl, rfl⟩, hnew⟩

theorem updateAgentDefinition_writesRow {updated row : AgentDefinition}
    (h : updateAgentDefinition rt s definition = .ok (updated, s'))
    (hrow : s.definitions.find? definition.id = some row) :
    WritesRow rt (definition.overwrite rt row) s s' := by
  simp only [updateAgentDefinition, bind_eq_ok] at h
  obtain ⟨_, -, s₁, hrevision, hread⟩ := h
  obtain ⟨hfree, rfl⟩ := insertAgentRevision_eq_ok hrevision
  obtain rfl := readBack_eq_ok hread
  have hid : row.id = definition.id := Table.key_of_find?_eq_some hrow
  refine writesRow_withRevision rfl hfree hid rfl ?_ fun _ => ?_
  · intro j
    show Table.find? _ j = if j = row.id then _ else _
    rw [Table.find?_update_key (k := row.id) (by simp [hid]), hid, hrow, Option.map_some]
  · exact ⟨hid.symm, rfl, rfl, rfl, by rw [AgentDefinition.overwrite, hid]; rfl⟩

/-! ## Runs of the callers -/

/-- A definition that is stored, or that a caller has read. -/
def Known (p : Desks W) (d : AgentDefinition) : Prop :=
  d ∈ p.store.definitions ∨ ∃ w, p.held w = some d

/-- What is known has been recorded, and is one definition for each id and version. -/
structure DesksRecorded (rt : AgentRuntime) (p : Desks W) : Prop where
  linear : (agentVersions rt).Linear p.store
  unique : UniqueRevisions p.store
  recorded : ∀ d, Known p d → (agentVersions rt).Recorded p.store d.id d
  same : ∀ d e, Known p d → Known p e → d.id = e.id → d.version = e.version → d = e

variable {p : Desks W}

theorem known_of_write {row : AgentDefinition} (h : WritesRow rt row p.store s')
    (hd : Known { p with store := s' } d) : d = row ∨ Known p d := by
  obtain ⟨⟨r, hw⟩, -⟩ := h
  rcases hd with hstored | hheld
  · have hfind : s'.definitions.find? d.id = some d := Table.find?_eq_some_iff.mpr ⟨hstored, rfl⟩
    have hentry : s'.definitions.find? d.id = if d.id = row.id then some row
        else p.store.definitions.find? d.id := hw.entry d.id
    rw [hfind] at hentry
    by_cases hid : d.id = row.id
    · rw [if_pos hid, Option.some.injEq] at hentry
      exact .inl hentry
    · rw [if_neg hid] at hentry
      exact .inr (.inl (Table.mem_of_find?_eq_some hentry.symm))
  · exact .inr (.inr hheld)

/-- What is known already has another version than what is written under its id. -/
theorem WritesRow.version_ne {row : AgentDefinition} (h : WritesRow rt row p.store s')
    (hp : DesksRecorded rt p) (hd : Known p d) (hid : d.id = row.id) :
    d.version ≠ row.version := by
  obtain ⟨⟨r, hw⟩, -⟩ := h
  obtain ⟨q, hq, -⟩ := hp.recorded d hd
  have hfree := hw.unrecorded
  intro hversion
  rw [← hid, show (agentVersions rt).version row = (agentVersions rt).version d from
    hversion.symm, hq] at hfree
  cases hfree

theorem DesksRecorded.write {row : AgentDefinition} (hp : DesksRecorded rt p)
    (h : WritesRow rt row p.store s') (hlinear : (agentVersions rt).Linear s') :
    DesksRecorded rt { p with store := s' } := by
  obtain ⟨r, hw⟩ := h.writes
  refine ⟨hlinear, h.unique hp.unique, ?_, ?_⟩
  · intro d hd
    rcases known_of_write h hd with rfl | hold
    · exact hw.recorded_self
    · exact hw.recorded (hp.recorded d hold)
  · intro d e hd he hid hversion
    rcases known_of_write h hd with rfl | hold
    · rcases known_of_write h he with rfl | hold'
      · rfl
      · exact absurd hversion.symm (h.version_ne hp hold' hid.symm)
    · rcases known_of_write h he with rfl | hold'
      · exact absurd hversion (h.version_ne hp hold hid)
      · exact hp.same d e hold hold' hid hversion

theorem step_recorded [DecidableEq W] (l : DeskStep W) (hp : DesksRecorded rt p) :
    DesksRecorded rt (p.step rt l) := by
  cases l with
  | create request rawClient uuid now =>
      simp only [Desks.step]
      cases hcreate : create rt p.store request rawClient uuid now with
      | error e => exact hp
      | ok result =>
          simp only [create, bind_eq_ok] at hcreate
          obtain ⟨_, -, definition, hdefinition, hcreate⟩ := hcreate
          obtain ⟨hwrites, hnew⟩ := createAgentDefinition_writesRow hcreate
          obtain ⟨r, hw⟩ := hwrites.writes
          have hversion : definition.version = 1 := version_of_definition_eq_ok hdefinition
          exact hp.write hwrites (hp.linear.insert hw hnew hversion)
  | get w agentId rawClient =>
      have hknown : ∀ d, Known (p.step rt (.get w agentId rawClient)) d → Known p d := by
        rintro d (hstored | ⟨v, hv⟩)
        · exact .inl hstored
        · simp only [Desks.step] at hv
          by_cases hvw : v = w
          · rw [hvw, Function.update_self] at hv
            exact .inl (getAgentDefinition_eq_some hv)
          · rw [Function.update_of_ne hvw] at hv
            exact .inr ⟨v, hv⟩
      exact ⟨hp.linear, hp.unique, fun d hd => hp.recorded d (hknown d hd),
        fun d e hd he => hp.same d e (hknown d hd) (hknown e he)⟩
  | update w request now =>
      simp only [Desks.step]
      cases hheld : p.held w with
      | none => exact hp
      | some existing =>
          simp only
          cases hupdate : update rt p.store existing request now with
          | error e => exact hp
          | ok result =>
              simp only [update, bind_eq_ok] at hupdate
              obtain ⟨_, -, definition, hdefinition, hupdate⟩ := hupdate
              obtain ⟨hid, -, -⟩ := definition_eq_ok hdefinition
              have hrecorded := hp.recorded existing (.inr ⟨w, hheld⟩)
              obtain ⟨row, hrow, -, -⟩ := (hp.linear.versions _ _).mp hrecorded.isSome
              have hrow : p.store.definitions.find? definition.id = some row := by
                rw [hid]
                exact hrow
              have hwrites := updateAgentDefinition_writesRow hupdate hrow
              obtain ⟨r, hw⟩ := hwrites.writes
              have hversion : definition.version = existing.version + 1 :=
                version_of_definition_eq_ok hdefinition
              refine hp.write hwrites (hp.linear.update hw ?_ hversion)
              rw [AgentDefinition.overwrite_id, Table.key_of_find?_eq_some hrow, hid]
              exact hrecorded.isSome

theorem run_recorded [DecidableEq W] (rt : AgentRuntime) (ls : List (DeskStep W)) :
    DesksRecorded rt ((desks W rt).run ls) := by
  refine (desks W rt).run_invariant ?_ (fun p l => step_recorded l) ls
  have hunknown : ∀ d, ¬ Known (desks W rt).init d := by
    rintro d (hstored | ⟨w, hw⟩)
    · exact Table.not_mem_empty d hstored
    · cases hw
  exact ⟨.of_empty (fun _ => rfl) fun _ _ => rfl, fun r hr => absurd hr (AutoTable.not_mem_empty r),
    fun d hd => absurd hd (hunknown d), fun d _ hd => absurd hd (hunknown d)⟩

/-! ## Resuming -/

/-- Redacting what a run reads of a definition leaves it as it is. -/
structure RedactionKeeps (rt : AgentRuntime) (d : AgentDefinition) : Prop where
  description : rt.redactText (rt.redactText d.description) = d.description
  enabledTools : d.enabledTools.map rt.redactText = d.enabledTools
  steps : d.steps.map (AgentStep.redacted rt) = d.steps
  approvalRequiredTools : d.approvalRequiredTools.map rt.redactText = d.approvalRequiredTools
  approvalRules : d.approvalRules.map (ApprovalRule.redacted rt) = d.approvalRules

/-- A run that was started under `d₀` is resumed under it by a caller that holds `d`. -/
def KeepsDefinition (rt : AgentRuntime) (d₀ d : AgentDefinition) : Prop :=
  d₀.version = d.version ∨ RedactionKeeps rt d₀ ∧
    (d₀.approvalExpirySeconds = none → d.approvalExpirySeconds = none)

section Resuming

variable {d₀ : AgentDefinition} {client : Option ClientId} {run : AgentRun} {env : Surroundings}
  {runs : Workspace}

theorem UniqueRevisions.find? (hunique : UniqueRevisions s) (hr : r ∈ s.revisions)
    {q : AgentDefinitionRevision → Bool} (hq : q r = true)
    (hkey : ∀ x, q x = true → x.agentId = r.agentId ∧ x.version = r.version) :
    s.revisions.table.rows.find? q = some r := by
  cases hfind : s.revisions.table.rows.find? q with
  | none => exact absurd hq (List.find?_eq_none.mp hfind r hr)
  | some x =>
      obtain ⟨hagent, hversion⟩ := hkey x (List.find?_some hfind)
      rw [hunique x (List.mem_of_find?_eq_some hfind) r hr hagent hversion]

theorem query_exec (q : Query) :
    (query q).run.exec (fun action state => action.answer state env) runs =
      (.ok (env.answer q), runs) := rfl

theorem reading_revision (agentId : String) (clientId : Option ClientId) :
    (env.reading rt s).answer (.revision agentId version clientId) =
      getAgentDefinitionRevision rt s agentId version clientId := rfl

/-- The revision of a run is found in its scope, or else in that of the agent. -/
theorem selectRevision_exec (hunique : UniqueRevisions s) (hr : r ∈ s.revisions)
    (hagent : r.agentId = run.agentId) (hdefinition : d.clientId = run.clientId) :
    (selectRevision d run r.version).run.exec
      (fun action state => action.answer state (env.reading rt s)) runs =
        (.ok (some (revisionFromRow rt r)), runs) := by
  have hunscoped : getAgentDefinitionRevision rt s run.agentId r.version none =
      some (revisionFromRow rt r) := by
    have hselect : selectDefinitionRevision s run.agentId r.version = some r :=
      hunique.find? hr (by simp [hagent]) (by simp [hagent])
    simp only [getAgentDefinitionRevision, hselect, Option.map_some]
  have hscoped : getAgentDefinitionRevision rt s run.agentId r.version run.clientId =
      if run.clientId = none ∨ r.clientId = run.clientId then some (revisionFromRow rt r)
      else none := by
    cases hclient : run.clientId with
    | none => simp [hunscoped]
    | some c =>
        by_cases hsame : r.clientId = some c
        · have hfind := hunique.find? hr (q := fun x =>
            x.agentId == run.agentId && x.version == r.version && x.clientId == some c)
            (by simp [hagent, hsame]) (by simp +contextual [hagent])
          simp [getAgentDefinitionRevision, hfind, hsame]
        · have hnone : s.revisions.table.rows.find? (fun x =>
              x.agentId == run.agentId && x.version == r.version && x.clientId == some c) =
                none := by
            rw [List.find?_eq_none]
            intro x hx hkey
            simp only [Bool.and_eq_true, beq_iff_eq] at hkey
            rw [hunique x hx r hr (hkey.1.1.trans hagent.symm) hkey.1.2] at hkey
            exact hsame hkey.2
          simp [getAgentDefinitionRevision, hnone, hsame]
  unfold selectRevision
  rw [Program.exec_bindExcept, query_exec, reading_revision, hscoped]
  by_cases hfound : run.clientId = none ∨ r.clientId = run.clientId
  · rw [if_pos hfound]
    rfl
  · rw [if_neg hfound]
    simp only [hdefinition, if_true]
    rw [query_exec, reading_revision, hunscoped]

theorem definitionForRunIn_same (h : run.revisionVersion = some d.version) :
    definitionForRunIn env rt s runs d run = .ok d := by
  have hfilter : run.revisionVersion.filter (· ≠ d.version) = none := by
    simp [h]
  unfold definitionForRunIn definitionForRun
  rw [hfilter]
  rfl

/-- What a caller gets for a run of another version. -/
theorem definitionForRunIn_revision (hunique : UniqueRevisions s) (hr : r ∈ s.revisions)
    (hagent : r.agentId = run.agentId) (hdefinition : d.clientId = run.clientId)
    (hrun : run.revisionVersion = some r.version) (hversion : r.version ≠ d.version) :
    definitionForRunIn env rt s runs d run =
      .ok (definitionOfRevision d run r.version (revisionFromRow rt r)) := by
  have hfilter : run.revisionVersion.filter (· ≠ d.version) = some r.version := by
    simp [hrun, hversion]
  unfold definitionForRunIn definitionForRun
  rw [hfilter]
  simp only
  rw [Program.exec_bindExcept, selectRevision_exec hunique hr hagent hdefinition]
  rfl

theorem executionFields_definitionOfRevision (hrecords : RecordsRow rt d₀ r) :
    executionFields (definitionOfRevision d run version (revisionFromRow rt r)) =
      { executionFields d₀ with
        clientId := run.clientId
        description := rt.redactText (rt.redactText d₀.description)
        enabledTools := d₀.enabledTools.map rt.redactText
        steps := d₀.steps.map (AgentStep.redacted rt)
        approvalExpirySeconds := d₀.approvalExpirySeconds.or d.approvalExpirySeconds
        approvalRequiredTools := d₀.approvalRequiredTools.map rt.redactText
        approvalRules := d₀.approvalRules.map (ApprovalRule.redacted rt) } := by
  have hdefinition := hrecords.definition
  generalize r.definition.createdAt = createdAt at hdefinition
  simp only [executionFields, definitionOfRevision, revisionFromRow, hdefinition]
  rfl

theorem executionFields_definitionOfRevision_eq_iff (hrecords : RecordsRow rt d₀ r)
    (hclient : run.clientId = (scopedDefinition client d₀).clientId) :
    executionFields (definitionOfRevision d run version (revisionFromRow rt r)) =
        executionFields (scopedDefinition client d₀) ↔
      RedactionKeeps rt d₀ ∧
        (d₀.approvalExpirySeconds = none → d.approvalExpirySeconds = none) := by
  rw [executionFields_definitionOfRevision hrecords, hclient]
  have hexpiry : d₀.approvalExpirySeconds.or d.approvalExpirySeconds = d₀.approvalExpirySeconds ↔
      (d₀.approvalExpirySeconds = none → d.approvalExpirySeconds = none) := by
    cases d₀.approvalExpirySeconds <;> simp
  rw [← hexpiry]
  simp only [executionFields, scopedDefinition, ExecutionFields.mk.injEq, true_and]
  constructor
  · rintro ⟨hdescription, htools, hsteps, hexpiry, hrequired, hrules⟩
    exact ⟨⟨hdescription, htools, hsteps, hrequired, hrules⟩, hexpiry⟩
  · rintro ⟨⟨hdescription, htools, hsteps, hrequired, hrules⟩, hexpiry⟩
    exact ⟨hdescription, htools, hsteps, hexpiry, hrequired, hrules⟩

end Resuming

/-- Whatever callers create, read and update: the definition for a run that was started under one
that was read is, in every field that the execution reads, the one of the start, exactly if it is
of the same version, or redaction leaves its texts alone and its approval expiry was set or is
still not. -/
theorem definitionForRun_iff [DecidableEq W] (rt : RunRuntime) (ls : List (DeskStep W)) (w w' : W)
    (d₀ d : AgentDefinition) (client : Option ClientId) (request : RunRequest) (state : RunState)
    (now : String) (id : ℕ) (env : Surroundings) (runs : Workspace)
    (h₀ : ((desks W rt.toAgentRuntime).run ls).held w = some d₀)
    (h : ((desks W rt.toAgentRuntime).run ls).held w' = some d) (hid : d.id = d₀.id) :
    (∃ resumed, definitionForRunIn env rt.toAgentRuntime
        ((desks W rt.toAgentRuntime).run ls).store runs
        (scopedDefinition (newRun rt (scopedDefinition client d₀) request state now id).clientId d)
        (newRun rt (scopedDefinition client d₀) request state now id) = .ok resumed ∧
      executionFields resumed = executionFields (scopedDefinition client d₀)) ↔
      KeepsDefinition rt.toAgentRuntime d₀ d := by
  have hrecorded := run_recorded rt.toAgentRuntime ls
  have hsound := run_sound rt.toAgentRuntime ls
  generalize (desks W rt.toAgentRuntime).run ls = p at h₀ h hrecorded hsound ⊢
  have hclient : d.clientId = d₀.clientId := by
    obtain ⟨row, hrow, hrowid, hrowclient⟩ := hsound.held w' d h
    obtain ⟨row₀, hrow₀, hrowid₀, hrowclient₀⟩ := hsound.held w d₀ h₀
    have hsame : row = row₀ := Table.eq_of_key_eq hrow hrow₀ (by rw [hrowid, hrowid₀, hid])
    rw [← hrowclient, ← hrowclient₀, hsame]
  have hscoped : (scopedDefinition (scopedDefinition client d₀).clientId d).clientId =
      (scopedDefinition client d₀).clientId := by
    simp only [scopedDefinition, hclient]
    cases d₀.clientId <;> simp
  generalize hrun : newRun rt (scopedDefinition client d₀) request state now id = run
  have hrunClient : run.clientId = (scopedDefinition client d₀).clientId := by rw [← hrun]; rfl
  have hrunVersion : run.revisionVersion = some d₀.version := by rw [← hrun]; rfl
  have hrunAgent : run.agentId = d₀.id := by rw [← hrun]; rfl
  by_cases hversion : d₀.version = d.version
  · have hsame : d = d₀ :=
      hrecorded.same d d₀ (.inr ⟨w', h⟩) (.inr ⟨w, h₀⟩) hid hversion.symm
    refine iff_of_true ⟨_, definitionForRunIn_same (hrunVersion.trans ?_), ?_⟩ (.inl hversion)
    · rw [hversion]
      rfl
    · subst hsame
      rw [hrunClient]
      simp only [executionFields, scopedDefinition]
      cases d.clientId <;> simp
  · obtain ⟨r, hselect, hrecords⟩ := hrecorded.recorded d₀ (.inr ⟨w, h₀⟩)
    obtain ⟨hr, hagent, hrversion⟩ := selectDefinitionRevision_eq_some hselect
    have hfound : definitionForRunIn env rt.toAgentRuntime p.store runs
        (scopedDefinition run.clientId d) run = _ :=
      definitionForRunIn_revision hrecorded.unique hr (hagent.trans hrunAgent.symm)
        (by rw [hrunClient]; exact hscoped) (hrunVersion.trans (congrArg some hrversion.symm))
        (by rw [hrversion]; exact hversion)
    rw [hfound]
    simp only [Except.ok.injEq, exists_eq_left']
    rw [executionFields_definitionOfRevision_eq_iff hrecords hrunClient]
    simp [KeepsDefinition, hversion, scopedDefinition]

/-! ## One morning -/

/-- An agent is created and read, updated, and read again by someone else. -/
def updatedAgent (request : DefinitionRequest) : List (DeskStep Bool) :=
  [.create (triageRequest []) none 1 (Instant.morning 0),
    .get true (newAgentId 1) none,
    .update true request (Instant.morning 5),
    .get false (newAgentId 1) none]

/-- The update that takes the tools away that the first version had. -/
def summaryRequest : DefinitionRequest :=
  { triageRequest [] with
    enabledTools := ["ticket-summary"], steps := [{ toolId := "ticket-summary" }] }

/-- The update that lets approvals expire. -/
def expiringRequest : DefinitionRequest :=
  { triageRequest [] with approvalExpirySeconds := some 600 }

/-- The definitions that both callers hold in the end. -/
def heldDefinitions (request : DefinitionRequest) : Option (AgentDefinition × AgentDefinition) := do
  let p := (desks Bool morningAgents).run (updatedAgent request)
  return (← p.held true, ← p.held false)

theorem heldDefinitions_eq_some {request : DefinitionRequest} {d₀ d : AgentDefinition}
    (h : heldDefinitions request = some (d₀, d)) :
    ((desks Bool morningAgents).run (updatedAgent request)).held true = some d₀ ∧
      ((desks Bool morningAgents).run (updatedAgent request)).held false = some d := by
  simp only [heldDefinitions, Option.bind_eq_bind, Option.bind_eq_some_iff] at h
  obtain ⟨d₀', h₀, d', h, heq⟩ := h
  cases heq
  exact ⟨h₀, h⟩

/-- The definition that a run of the first caller, started before the update, is resumed under by
the second one. -/
def resumedDefinition (request : DefinitionRequest) (d₀ d : AgentDefinition) :
    Except RunError AgentDefinition :=
  definitionForRunIn succeeding morningAgents
    ((desks Bool morningAgents).run (updatedAgent request)).store { runs := .empty, events := [] }
    (scopedDefinition
      (newRun morningRuns (scopedDefinition none d₀) { entityId := "T-1", actor := "tess" }
        { entityId := "T-1", input := ∅, context := ∅ } "08:00" 1).clientId d)
    (newRun morningRuns (scopedDefinition none d₀) { entityId := "T-1", actor := "tess" }
      { entityId := "T-1", input := ∅, context := ∅ } "08:00" 1)

theorem redactionKeeps_morningAgents (d : AgentDefinition) : RedactionKeeps morningAgents d := by
  have htext : ∀ texts : List String, texts.map morningAgents.redactText = texts :=
    fun texts => List.map_id texts
  refine ⟨rfl, htext _, ?_, htext _, ?_⟩
  · refine (List.map_congr_left fun step _ => ?_).trans (List.map_id _)
    obtain ⟨toolId, payload, policy⟩ := step
    cases policy with
    | none => rfl
    | some policy =>
        obtain ⟨mode, maxRetries, fallback⟩ := policy
        cases fallback <;> rfl
  · refine (List.map_congr_left fun rule _ => ?_).trans (List.map_id _)
    obtain ⟨toolId, conditions⟩ := rule
    simp only [ApprovalRule.redacted, htext, id, ApprovalRule.mk.injEq]
    exact ⟨rfl, List.map_id _⟩

/-- After an update of the tools, a run goes on with those that it was started with. -/
theorem definitionForRun_iff_summary : ∃ d₀ d, heldDefinitions summaryRequest = some (d₀, d) ∧
    d₀.enabledTools = ["ticket-triage"] ∧ d.enabledTools = ["ticket-summary"] ∧
    ∃ resumed, resumedDefinition summaryRequest d₀ d = .ok resumed ∧
      executionFields resumed = executionFields (scopedDefinition none d₀) := by
  have hfacts : (heldDefinitions summaryRequest).map (fun (d₀, d) =>
      (d.id, d₀.id, d₀.enabledTools, d.enabledTools, d.approvalExpirySeconds)) =
        some (newAgentId 1, newAgentId 1, ["ticket-triage"], ["ticket-summary"], none) := by
    decide
  obtain ⟨⟨d₀, d⟩, hheld, hfields⟩ := Option.map_eq_some_iff.mp hfacts
  simp only [Prod.mk.injEq] at hfields
  obtain ⟨hid, hid₀, htools₀, htools, hexpiry⟩ := hfields
  obtain ⟨h₀, h⟩ := heldDefinitions_eq_some hheld
  exact ⟨d₀, d, hheld, htools₀, htools,
    (definitionForRun_iff morningRuns _ true false d₀ d none _ _ _ _ succeeding _ h₀ h
      (hid.trans hid₀.symm)).mpr (.inr ⟨redactionKeeps_morningAgents d₀, fun _ => hexpiry⟩)⟩

/-- After an update that lets approvals expire, those of a run that was started before expire
too. -/
theorem not_definitionForRun : ¬ ∀ (request : DefinitionRequest) (d₀ d : AgentDefinition),
    heldDefinitions request = some (d₀, d) →
    ∃ resumed, resumedDefinition request d₀ d = .ok resumed ∧
      executionFields resumed = executionFields (scopedDefinition none d₀) := by
  intro hall
  have hfacts : (heldDefinitions expiringRequest).map (fun (d₀, d) =>
      (decide (d.id = d₀.id), d₀.version, d.version, d₀.approvalExpirySeconds,
        d.approvalExpirySeconds)) = some (true, 1, 2, none, some 600) := by
    decide
  obtain ⟨⟨d₀, d⟩, hheld, hfields⟩ := Option.map_eq_some_iff.mp hfacts
  simp only [Prod.mk.injEq, decide_eq_true_eq] at hfields
  obtain ⟨hid, hversion₀, hversion, hexpiry₀, hexpiry⟩ := hfields
  obtain ⟨h₀, h⟩ := heldDefinitions_eq_some hheld
  have hkeeps := (definitionForRun_iff morningRuns _ true false d₀ d none _ _ _ _ succeeding _ h₀ h
    hid).mp (hall expiringRequest d₀ d hheld)
  rcases hkeeps with hsame | ⟨-, hnone⟩
  · rw [hversion₀, hversion] at hsame
    cases hsame
  · rw [hnone hexpiry₀] at hexpiry
    cases hexpiry

end WaitLocalAgent.AgentRuns
