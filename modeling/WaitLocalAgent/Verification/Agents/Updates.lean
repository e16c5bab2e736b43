import WaitLocalAgent.Verification.Agents.Revisions

/-! # Concurrent callers of agent definitions

An update overwrites a definition that may have changed since it was read; the key of the
revisions makes those that come too late fail as a whole. -/

namespace WaitLocalAgent.AgentRuns

open Foundation Approvals Agents

/-- What a snapshot keeps of a definition: everything, with the name and the description
redacted. -/
def RecordsDefinition (rt : AgentRuntime) (d : AgentDefinition) (r : AgentDefinitionRevision) :
    Prop :=
  r.definition =
    { d with name := rt.redactText d.name, description := rt.redactText d.description }

/-- What an update leaves alone. -/
def origin (d : AgentDefinition) : Option ClientId × String := (d.clientId, d.createdAt)

def seenDefinition : (q : AgentRead) → q.Answer → Option (Seen String (Option ClientId × String))
  | .definition _ _, answer => answer.map fun d => ⟨d.id, d.version, origin d⟩
  | .validate _ _ _, _ => none

/-- A read without a scope says that the definition is not there. -/
def missedDefinition : (q : AgentRead) → q.Answer → String → Bool
  | .definition agentId clientId, answer, key =>
      answer.isNone && agentId == key && (normalizeClientId clientId).isNone
  | .validate _ _ _, _, _ => false

def writtenDefinition : AgentWrite → AgentDefinition
  | .create definition _ | .update _ definition _ => definition

def baseVersion : AgentWrite → Option ℕ
  | .create _ _ => none
  | .update existing _ _ => some existing.version

def agentLedger (rt : AgentRuntime) :
    Ledger Agents.Store String AgentDefinition AgentDefinitionRevision (Option ClientId × String)
      AgentRead AgentWrite AgentError AgentRead.Answer where
  toVersioned := definitionVersions (RecordsDefinition rt)
  owner := origin
  read q s := AgentRead.answer rt s q
  sees := seenDefinition
  misses q answer key _ := missedDefinition q answer key
  commit write s := write.commit rt s
  target write := (writtenDefinition write).id
  base := baseVersion
  onBehalf write := origin (writtenDefinition write)

variable {rt : AgentRuntime} {s s' : Agents.Store} {definition row : AgentDefinition}

theorem insertDefinition_writes (h : insertDefinition rt s definition = .ok s') :
    s.definitions.find? definition.id = none ∧
      ∃ r, (definitionVersions (RecordsDefinition rt)).Writes definition.id (definition.stored rt)
        r s s' := by
  unfold insertDefinition at h
  split at h
  · cases h
  · rename_i definitions hinsert
    obtain ⟨hfree, rfl⟩ := insertAgentRevision_eq_ok h
    refine ⟨Table.find?_eq_none_of_insert? (r := definition.stored rt) hinsert, ?_⟩
    exact writes_withRevision (RecordsDefinition rt) (definition.stored rt) rfl hfree rfl rfl
      (fun _ => Table.find?_of_insert? hinsert) fun _ => rfl

theorem updateDefinition_writes (h : updateDefinition rt s definition = .ok s')
    (hrow : s.definitions.find? definition.id = some row)
    (hcreated : row.createdAt = definition.createdAt) :
    ∃ r, (definitionVersions (RecordsDefinition rt)).Writes definition.id (definition.stored rt)
      r s s' := by
  simp only [updateDefinition, bind_eq_ok] at h
  obtain ⟨_, -, hrevision⟩ := h
  obtain ⟨hfree, rfl⟩ := insertAgentRevision_eq_ok hrevision
  have hid : row.id = definition.id := Table.key_of_find?_eq_some hrow
  have hstored : definition.overwrite rt row = definition.stored rt := by
    rw [AgentDefinition.overwrite, hid, hcreated]
    rfl
  refine writes_withRevision (RecordsDefinition rt)
    (definition.stored rt) rfl hfree rfl rfl ?_ fun _ => rfl
  intro j
  show Table.find? _ j = if j = definition.id then _ else _
  rw [Table.find?_update_key (k := definition.id) (by simp), hrow, Option.map_some, hstored]

theorem agentLedger_lawful (rt : AgentRuntime) : (agentLedger rt).Lawful := by
  refine ⟨?_, ?_, ?_, ?_⟩
  · intro q s x hx
    cases q with
    | validate agentId clientId request => cases hx
    | definition agentId clientId =>
        obtain ⟨d, hd, rfl⟩ := Option.map_eq_some_iff.mp hx
        exact ⟨d, Table.find?_eq_some_iff.mpr ⟨getAgentDefinition_eq_some hd, rfl⟩, rfl, rfl⟩
  · intro q s k d hd
    cases q with
    | validate agentId clientId request => rfl
    | definition agentId clientId =>
        have hd : s.definitions.find? k = some d := hd
        show ((getAgentDefinition s agentId clientId).isNone && agentId == k && _) = false
        by_cases hid : agentId = k
        · subst hid
          cases hclient : normalizeClientId clientId with
          | none => simp [getAgentDefinition, hclient, hd]
          | some c => simp
        · simp [hid]
  · intro t s s' hcommit hbase
    cases t with
    | create definition hversion =>
        obtain ⟨hnew, r, hw⟩ := insertDefinition_writes hcommit
        exact ⟨_, r, hw, hnew, hversion, rfl⟩
    | update existing definition hversion => cases hbase
  · intro t s s' v d hcommit hbase hd hsame
    cases t with
    | create definition hversion => cases hbase
    | update existing definition hversion =>
        cases hbase
        obtain ⟨r, hw⟩ := updateDefinition_writes hcommit hd (congrArg Prod.snd hsame)
        exact ⟨_, r, hw, hversion, rfl⟩

/-- `unique(agent_id, version)` holds after every transaction. -/
theorem commit_unique {write : AgentWrite} (h : write.commit rt s = .ok s')
    (hs : UniqueRevisions s) : UniqueRevisions s' := by
  cases write with
  | create definition hversion =>
      simp only [AgentWrite.commit, insertDefinition] at h
      split at h
      · cases h
      · obtain ⟨hfree, rfl⟩ := insertAgentRevision_eq_ok h
        exact UniqueRevisions.withRevision hs hfree
  | update existing definition hversion =>
      simp only [AgentWrite.commit, updateDefinition, bind_eq_ok] at h
      obtain ⟨_, -, hrevision⟩ := h
      obtain ⟨hfree, rfl⟩ := insertAgentRevision_eq_ok hrevision
      exact UniqueRevisions.withRevision hs hfree

section Calls

variable {α : Type} {seen : List (Seen String (Option ClientId × String))}

abbrev AgentFollows (rt : AgentRuntime) (m : Ledger.Mode String (Option ClientId × String))
    (p : AgentCall α) : Prop :=
  Program.Follows (agentLedger rt).protocol Ledger.RaisesUnwritten m p.run

theorem follows_validateAgent {agentId : String} {clientId : Option ClientId}
    {request : DefinitionRequest} {f : Unit → AgentCall α}
    (hf : AgentFollows rt (.reading seen) (f ())) :
    AgentFollows rt (.reading seen) (validateAgent agentId clientId request >>= f) := by
  simp only [validateAgent, readAgents, bind_assoc]
  refine Ledger.follows_read fun result => ?_
  cases result with
  | ok u => exact hf
  | error e => exact Ledger.follows_throw nofun

theorem follows_readBackAgent (agentId : String) (created : Option ClientId × String) :
    AgentFollows rt (.wrote agentId created) (readBackAgent agentId) := by
  refine Ledger.follows_read fun result => ?_
  cases result with
  | some definition => exact Ledger.follows_pure
  | none =>
      have hlost : (agentLedger rt).protocol.move (.wrote agentId created)
          (.read (.definition agentId none)) none = .lost := by
        simp [Ledger.protocol, agentLedger, missedDefinition, normalizeClientId]
      rw [hlost]
      exact Ledger.follows_throw (by simp)

theorem follows_createAgent (request : DefinitionRequest) (clientId : Option String)
    (uuid : BitVec 128) (now : Instant) :
    AgentFollows rt (.reading seen) (createAgent rt request clientId uuid now) := by
  refine follows_validateAgent ?_
  split
  · exact Ledger.follows_throw nofun
  · exact Ledger.follows_write (.inl rfl) (follows_readBackAgent _ _)

theorem follows_updateAgent {existing : AgentDefinition}
    (hmem : ⟨existing.id, existing.version, origin existing⟩ ∈ seen) (request : DefinitionRequest)
    (now : Instant) : AgentFollows rt (.reading seen) (updateAgent rt existing request now) := by
  refine follows_validateAgent ?_
  split
  · exact Ledger.follows_throw nofun
  · rename_i definition hdefinition
    obtain ⟨hid, hclient, hcreated, -⟩ := definition_eq_ok hdefinition
    refine Ledger.follows_write (.inr ⟨_, hmem, hid, rfl, ?_⟩) (follows_readBackAgent _ _)
    exact Prod.ext hclient hcreated

theorem AgentOperation.follows (rt : AgentRuntime) (operation : AgentOperation) :
    AgentFollows rt (.reading []) (operation.program rt) := by
  cases operation with
  | create request clientId uuid now => exact follows_createAgent request clientId uuid now
  | update agentId clientId request now =>
      refine Ledger.follows_read fun result => ?_
      cases result with
      | none => exact Ledger.follows_throw nofun
      | some existing => exact follows_updateAgent (List.mem_cons_self ..) request now

end Calls

end WaitLocalAgent.AgentRuns
