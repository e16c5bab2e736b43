import WaitLocalAgent.Verification.Redaction.Plain
import WaitLocalAgent.Verification.Redaction.Value
import WaitLocalAgent.Verification.Workflows.Designs

/-! # Stored designs

A design is redacted once more when it is stored, and checked once more when it is read from there:
it is accepted again exactly if that left its ids and its bounds as they were. -/

namespace WaitLocalAgent.WorkflowDesigner

open Foundation JsonValue Redaction

variable {lib : Library}

/-! ### Texts -/

/-- What `_text` returns, the bound apart. -/
structure IsText (s : String) : Prop where
  strip : Text.strip s = s
  nonempty : s ≠ ""
  plain : (s.toList.any fun c => c.toNat < 32 && c != '\t' && c != '\n') = false

theorem designText_eq_ok {value : JsonValue} {field : String} {limit : ℕ} {t : String}
    (h : designText value field limit = .ok t) : IsText t ∧ t.length ≤ limit := by
  cases value with
  | text s =>
      simp only [designText, bind_eq_ok, raiseIf_eq_ok, pure_eq_ok] at h
      obtain ⟨_, hne, _, hlimit, _, hplain, rfl⟩ := h
      exact ⟨⟨Text.strip_strip s, hne, by simpa using hplain⟩, by omega⟩
  | _ => cases h

variable {s : String}

theorem designText_of_isText (h : IsText s) (field : String) (limit : ℕ) :
    designText (.text s) field limit =
      if limit < s.length then .error ⟨s!"{field} exceeds {limit} characters"⟩ else .ok s := by
  have hplain : ¬ (s.toList.any fun c => c.toNat < 32 && c != '\t' && c != '\n') = true := by
    simpa using h.plain
  rw [designText, h.strip, raiseIf_of_not h.nonempty, raiseIf_of_not hplain]
  split
  · next hlimit => simp only [raiseIf, if_pos hlimit]; rfl
  · next hlimit => rw [raiseIf_of_not hlimit]; rfl

theorem IsText.redactText (h : IsText s) (w : WordClass) :
    IsText (redactText w s) where
  strip := strip_redactText h.strip
  nonempty hempty := by
    have hblank : Text.strip (Redaction.redactText w s) = "" := by
      rw [hempty]
      rfl
    rw [strip_redactText_eq_empty_iff, h.strip] at hblank
    exact h.nonempty hblank
  plain := by
    have hbrackets : ∀ c ∈ redacted.toList, (c.toNat < 32 && c != '\t' && c != '\n') = false := by
      decide
    rw [List.any_eq_false]
    intro c hc
    rw [Bool.not_eq_true]
    rcases mem_redactText hc with hmem | hmem
    · simpa using List.any_eq_false.mp h.plain c hmem
    · exact hbrackets c hmem

theorem isNodeId_chars (h : isNodeId s = true) :
    ∀ c ∈ s.toList, isIdentifierChar c = true := by
  rw [isNodeId] at h
  split at h
  · next c cs hcs =>
      simp only [Bool.and_eq_true, List.all_eq_true] at h
      intro d hd
      rw [hcs] at hd
      rcases List.mem_cons.mp hd with rfl | hd
      · simp [isIdentifierChar, h.1.1]
      · exact h.2 d hd
  · cases h

theorem isNodeId_length (h : isNodeId s = true) : s.length ≤ 64 := by
  rw [isNodeId] at h
  split at h
  · next c cs hcs =>
      simp only [Bool.and_eq_true, decide_eq_true_eq] at h
      rw [← String.length_toList, hcs, List.length_cons]
      omega
  · cases h

/-- An id that redaction changes is no longer an id. -/
theorem isNodeId_redactText_iff (h : isNodeId s = true) (w : WordClass) :
    isNodeId (redactText w s) = true ↔ redactText w s = s := by
  constructor
  · intro hid
    rcases redactText_eq_or_bracket w s with heq | hmem
    · exact heq
    · exact absurd (isNodeId_chars hid '[' hmem) (by decide)
  · intro heq
    rw [heq, h]

/-! ### Nodes -/

structure WorkflowNode.Accepted (lib : Library) (node : WorkflowNode) : Prop where
  idText : IsText node.id
  id : isNodeId node.id = true
  label : IsText node.label
  labelRedacted : redactText lib.words node.label = node.label
  toolId : ∀ t ∈ node.toolId, IsText t ∧ redactText lib.words t = t
  config : redactMapping lib.words node.config = node.config
  size : ((JsonValue.object node.config).sortKeys.write ⟨[','], [':']⟩).length ≤
    maxWorkflowDesignConfigBytes

theorem identifier_eq_ok {value : JsonValue} {field id : String}
    (h : identifier value field = .ok id) : IsText id ∧ isNodeId id = true := by
  simp only [identifier, bind_eq_ok, raiseIf_eq_ok, pure_eq_ok, not_not] at h
  obtain ⟨_, htext, _, hid, rfl⟩ := h
  exact ⟨(designText_eq_ok htext).1, hid⟩

theorem identifier_of_isNodeId (h : IsText s) (hid : isNodeId s = true)
    (field : String) : identifier (.text s) field = .ok s := by
  have hlength : ¬ 64 < s.length := Nat.not_lt.mpr (isNodeId_length hid)
  rw [identifier, designText_of_isText h, if_neg hlength, ok_bind, raiseIf_of_not (by simp [hid])]
  rfl

theorem nodeId_eq_ok {index : ℕ} {raw : JsonValue} {id : String} {fields : Fields}
    (h : nodeId index raw = .ok (id, fields)) :
    raw = .object fields ∧ IsText id ∧ isNodeId id = true := by
  cases raw with
  | object raws =>
      simp only [nodeId, bind_eq_ok, raiseIf_eq_ok, pure_eq_ok, Prod.mk.injEq] at h
      obtain ⟨_, -, id, hid, rfl, rfl⟩ := h
      exact ⟨rfl, identifier_eq_ok hid⟩
  | _ => cases h

theorem nodeToolId_eq_ok {index : ℕ} {fields : Fields} {toolId : Option String}
    (h : nodeToolId index fields = .ok toolId) : ∀ t ∈ toolId, IsText t := by
  unfold nodeToolId at h
  split at h
  · cases h
    exact fun t ht => absurd ht (Option.not_mem_none t)
  · rw [map_eq_ok] at h
    obtain ⟨t, htext, rfl⟩ := h
    intro t' ht'
    cases ht'
    exact (designText_eq_ok htext).1

theorem nodeConfig_eq_ok {index : ℕ} {fields config : Fields}
    (h : nodeConfig lib index fields = .ok config) :
    redactMapping lib.words config = config ∧
      ((JsonValue.object config).sortKeys.write ⟨[','], [':']⟩).length ≤
        maxWorkflowDesignConfigBytes := by
  unfold nodeConfig at h
  split at h
  · simp only [bind_eq_ok, raiseIf_eq_ok, pure_eq_ok, not_lt] at h
    obtain ⟨_, hsize, rfl⟩ := h
    exact ⟨redactMapping_redactMapping lib.words _, hsize⟩
  · cases h

theorem accepted_of_nodeOf {index : ℕ} {raw : JsonValue} {node : WorkflowNode}
    (h : nodeOf lib index raw = .ok node) : node.Accepted lib := by
  simp only [nodeOf, nodeBody, bind_eq_ok, pure_eq_ok] at h
  obtain ⟨⟨id, fields⟩, hid, type, -, label, hlabel, toolId, htool, config, hconfig, rfl⟩ := h
  have hname := (nodeId_eq_ok hid).2
  have htext := (designText_eq_ok hlabel).1
  have hredacted := nodeConfig_eq_ok hconfig
  refine ⟨hname.1, hname.2, htext.redactText _, redactText_redactText _ _, ?_, hredacted.1,
    hredacted.2⟩
  intro t ht
  obtain ⟨t', ht', rfl⟩ := Option.map_eq_some_iff.mp ht
  exact ⟨(nodeToolId_eq_ok htool t' ht').redactText _, redactText_redactText _ _⟩

/-- Redaction has left the id of a node as it was, and its texts within their bounds. -/
structure WorkflowNode.Intact (lib : Library) (node : WorkflowNode) : Prop where
  id : redactText lib.words node.id = node.id
  label : node.label.length ≤ maxWorkflowDesignLabel
  toolId : ∀ t ∈ node.toolId, t.length ≤ maxWorkflowDesignToolId

def WorkflowNode.stored (lib : Library) (node : WorkflowNode) : JsonValue :=
  .object (storedFields lib.words node.payload)

/-- A node with the fields of its configuration in the order of the store. -/
def WorkflowNode.ordered (lib : Library) (node : WorkflowNode) : WorkflowNode :=
  { node with config := storedFields lib.words node.config }

theorem plain_nodeFields : ∀ key ∈ nodeFields, isSensitiveKey key = false := by
  decide

theorem get?_payload (w : WordClass) (node : WorkflowNode) {key : String} (hkey : key ∈ nodeFields)
    {v : JsonValue} (hget : get? node.payload key = some v) :
    get? (storedFields w node.payload) key = some (redactValue w v.sortKeys) :=
  get?_stored w (plain_nodeFields key hkey) hget

theorem get_payload_text (w : WordClass) (node : WorkflowNode) {key : String}
    (hkey : key ∈ nodeFields) (hget : get? node.payload key = some (.text s)) :
    JsonValue.get (storedFields w node.payload) key = .text (redactText w s) := by
  rw [JsonValue.get, get?_payload w node hkey hget]
  rfl

theorem redactText_type (w : WordClass) (type : WorkflowNodeType) :
    redactText w type.value = type.value := by
  cases type <;> exact redactText_of_plain (by decide)

theorem find?_nodeTypes (type : WorkflowNodeType) :
    nodeTypes.find? (fun t => t.value = type.value) = some type := by
  cases type <;> decide

section Stored

variable {node : WorkflowNode}

theorem nodeId_stored (index : ℕ) (h : node.Accepted lib)
    (hid : redactText lib.words node.id = node.id) :
    nodeId index (node.stored lib) = .ok (node.id, storedFields lib.words node.payload) := by
  have hfields : ((storedFields lib.words node.payload).map Prod.fst).all
      (fun key => key ∈ nodeFields) = true := by
    have hkeys : node.payload.map Prod.fst = nodeFields := rfl
    rw [(keys_storedFields_perm lib.words node.payload).all_eq, hkeys]
    decide
  have hget : JsonValue.get (storedFields lib.words node.payload) "id" = .text node.id := by
    rw [get_payload_text lib.words node (by decide) rfl, hid]
  rw [WorkflowNode.stored, nodeId, raiseIf_of_not (by simp [hfields]), ok_bind, hget,
    identifier_of_isNodeId h.idText h.id]
  rfl

theorem nodeType_stored (index : ℕ) (node : WorkflowNode) :
    nodeType index (storedFields lib.words node.payload) = .ok node.type := by
  rw [nodeType, get_payload_text lib.words node (by decide) rfl, redactText_type]
  simp [find?_nodeTypes]

theorem get_label (h : node.Accepted lib) :
    JsonValue.get (storedFields lib.words node.payload) "label" = .text node.label := by
  rw [get_payload_text lib.words node (by decide) rfl, h.labelRedacted]

theorem get_toolId (h : node.Accepted lib) :
    JsonValue.get (storedFields lib.words node.payload) "tool_id" =
      node.toolId.elim .null .text := by
  rw [JsonValue.get, get?_payload lib.words node (by decide) rfl]
  cases htool : node.toolId with
  | none => rfl
  | some t => simp [sortKeys, redactValue, (h.toolId t htool).2]

/-- The tool id of a stored node is read when it is within its bound. -/
theorem nodeToolId_stored_iff {index : ℕ} {toolId : Option String} (h : node.Accepted lib) :
    nodeToolId index (storedFields lib.words node.payload) = .ok toolId ↔
      toolId = node.toolId ∧ ∀ t ∈ node.toolId, t.length ≤ maxWorkflowDesignToolId := by
  rw [nodeToolId, get_toolId h]
  cases htool : node.toolId with
  | none => simp [eq_comm]
  | some t =>
      simp only [Option.elim_some, designText_of_isText (h.toolId t htool).1, map_eq_ok,
        Option.mem_def, Option.some.injEq, forall_eq']
      split
      · next hlimit => simp [hlimit]
      · next hlimit => simp [Nat.not_lt.mp hlimit, eq_comm]

/-- A redacted configuration is stored as it is, but for the order of its fields. -/
theorem sortKeys_storedFields {w : WordClass} {config : Fields}
    (h : redactMapping w config = config) :
    (JsonValue.object (storedFields w config)).sortKeys = (JsonValue.object config).sortKeys := by
  rw [← redactValue_sortKeys_object, sortKeys_redactValue, sortKeys_sortKeys,
    ← sortKeys_redactValue,
    redactValue, h]

/-- The size of a configuration does not depend on the order of its fields. -/
theorem nodeConfig_stored (index : ℕ) (h : node.Accepted lib) :
    nodeConfig lib index (storedFields lib.words node.payload) =
      .ok (storedFields lib.words node.config) := by
  have hredacted : redactMapping lib.words (storedFields lib.words node.config) =
      storedFields lib.words node.config := redactMapping_redactMapping _ _
  rw [nodeConfig, get?_payload lib.words node (by decide) rfl, Option.getD_some,
    redactValue_sortKeys_object]
  dsimp only
  rw [hredacted, sortKeys_storedFields h.config, raiseIf_of_not (Nat.not_lt.mpr h.size)]
  rfl

/-- A stored node is read as it is, when redaction left it intact. -/
theorem nodeOf_stored (index : ℕ) (h : node.Accepted lib) (hintact : node.Intact lib) :
    nodeOf lib index (node.stored lib) = .ok (node.ordered lib) := by
  have htool := (@nodeToolId_stored_iff lib node index _ h).mpr ⟨rfl, hintact.toolId⟩
  have hredacted : node.toolId.map (redactText lib.words) = node.toolId := by
    cases htool : node.toolId with
    | none => rfl
    | some t => rw [Option.map_some, (h.toolId t htool).2]
  rw [nodeOf, nodeId_stored index h hintact.id, ok_bind]
  dsimp only [nodeBody]
  rw [nodeType_stored, ok_bind, get_label h, designText_of_isText h.label,
    if_neg (Nat.not_lt.mpr hintact.label), ok_bind, htool, ok_bind,
    nodeConfig_stored index h, ok_bind, h.labelRedacted, hredacted]
  rfl

theorem intact_of_nodeOf_stored {index : ℕ} {node' : WorkflowNode} (h : node.Accepted lib)
    (hread : nodeOf lib index (node.stored lib) = .ok node') : node.Intact lib := by
  simp only [nodeOf, nodeBody, bind_eq_ok] at hread
  obtain ⟨⟨id, fields⟩, hid, _, -, label, hlabel, toolId, htool, -⟩ := hread
  obtain rfl := JsonValue.object.inj (nodeId_eq_ok hid).1
  refine ⟨?_, ?_, ?_⟩
  · simp only [WorkflowNode.stored, nodeId, bind_eq_ok] at hid
    obtain ⟨_, -, id', hid', -⟩ := hid
    rw [get_payload_text lib.words node (by decide) rfl, identifier,
      designText_of_isText (h.idText.redactText lib.words)] at hid'
    split at hid'
    · cases hid'
    · simp only [ok_bind, bind_eq_ok, raiseIf_eq_ok, not_not] at hid'
      obtain ⟨_, hnode, -⟩ := hid'
      exact (isNodeId_redactText_iff h.id lib.words).mp hnode
  · dsimp only at hlabel
    rw [get_label h, designText_of_isText h.label] at hlabel
    split at hlabel
    · cases hlabel
    · next hlimit => exact Nat.not_lt.mp hlimit
  · exact ((nodeToolId_stored_iff h).mp htool).2

end Stored

/-! ### Edges -/

def WorkflowEdge.stored (lib : Library) (edge : WorkflowEdge) : JsonValue :=
  .object (storedFields lib.words edge.payload)

/-- What an end of an edge between intact nodes is. -/
structure IntactId (lib : Library) (s : String) : Prop where
  text : IsText s
  id : isNodeId s = true
  redacted : redactText lib.words s = s

theorem edgeEnds_stored (index : ℕ) {edge : WorkflowEdge} (hsource : IntactId lib edge.source)
    (htarget : IntactId lib edge.target) : edgeEnds index (edge.stored lib) = .ok edge := by
  have hkeys : edge.payload.map Prod.fst = ["from", "to"] := rfl
  have hplain : isSensitiveKey "from" = false ∧ isSensitiveKey "to" = false := by decide
  have hperm := keys_storedFields_perm lib.words edge.payload
  have hfields : hasEdgeFields (storedFields lib.words edge.payload) = true := by
    simp only [hasEdgeFields, hperm.all_eq, hperm.mem_iff, hkeys]
    decide
  have hfrom : JsonValue.get (storedFields lib.words edge.payload) "from" = .text edge.source := by
    rw [JsonValue.get, get?_stored lib.words hplain.1 rfl]
    simp [sortKeys, redactValue, hsource.redacted]
  have hto : JsonValue.get (storedFields lib.words edge.payload) "to" = .text edge.target := by
    rw [JsonValue.get, get?_stored lib.words hplain.2 rfl]
    simp [sortKeys, redactValue, htarget.redacted]
  rw [WorkflowEdge.stored, edgeEnds, raiseIf_of_not (by simp [hfields]), ok_bind, hfrom,
    identifier_of_isNodeId hsource.text hsource.id, ok_bind, hto,
    identifier_of_isNodeId htarget.text htarget.id]
  rfl

/-! ### Designs -/

structure WorkflowDesign.Accepted (lib : Library) (design : WorkflowDesign) : Prop where
  nodes : ∀ node ∈ design.nodes, node.Accepted lib
  nonempty : design.nodes ≠ []
  nodeCount : design.nodes.length ≤ maxWorkflowDesignNodes
  edgeCount : design.edges.length ≤ maxWorkflowDesignEdges
  coherent : Coherent design.nodes design.edges

theorem designArrays_eq_ok {payload : JsonValue} {rawNodes rawEdges : List JsonValue}
    (h : designArrays payload = .ok (rawNodes, rawEdges)) :
    (rawNodes ≠ [] ∧ rawNodes.length ≤ maxWorkflowDesignNodes) ∧
      rawEdges.length ≤ maxWorkflowDesignEdges := by
  have hnodes : ∀ v raws, designArrays.rawNodes v = .ok raws →
      raws ≠ [] ∧ raws.length ≤ maxWorkflowDesignNodes := by
    intro v raws hraws
    unfold designArrays.rawNodes at hraws
    split at hraws
    · cases hraws
    · next hne =>
        split at hraws
        · cases hraws
        · next hlimit =>
            cases hraws
            exact ⟨fun hnil => hne (by rw [hnil]), Nat.not_lt.mp hlimit⟩
    · cases hraws
  have hedges : ∀ v raws, designArrays.rawEdges v = .ok raws →
      raws.length ≤ maxWorkflowDesignEdges := by
    intro v raws hraws
    unfold designArrays.rawEdges at hraws
    split at hraws
    · split at hraws
      · cases hraws
      · next hlimit =>
          cases hraws
          exact Nat.not_lt.mp hlimit
    · cases hraws
  cases payload with
  | object fields =>
      simp only [designArrays, bind_eq_ok, pure_eq_ok, Prod.mk.injEq] at h
      obtain ⟨_, -, _, -, _, -, raws, hraws, raws', hraws', rfl, rfl⟩ := h
      exact ⟨hnodes _ _ hraws, hedges _ _ hraws'⟩
  | _ => cases h

/-- Own checks that all pass are passed one by one. -/
theorem exists_of_mapIdx {α : Type} {f : ℕ → JsonValue → Except WorkflowDesignError α}
    {raws : List JsonValue} {xs : List α} (h : raws.mapIdx f = xs.map .ok) {x : α} (hx : x ∈ xs) :
    ∃ index, ∃ raw ∈ raws, f index raw = .ok x := by
  have hmem : (.ok x : Except WorkflowDesignError α) ∈ raws.mapIdx f := by
    rw [h]
    exact List.mem_map_of_mem hx
  obtain ⟨index, hindex, hok⟩ := List.mem_mapIdx.mp hmem
  exact ⟨index, raws[index], List.getElem_mem hindex, hok⟩

theorem accepted_of_normalize {payload : JsonValue} {design : WorkflowDesign}
    (h : normalizeWorkflowDesign lib payload = .ok design) : design.Accepted lib := by
  obtain ⟨⟨rawNodes, rawEdges, harrays, hnodes, hedges⟩, hcoherent⟩ :=
    normalizeWorkflowDesign_eq_ok_iff.mp h
  have hcounts := designArrays_eq_ok harrays
  have hlength : rawNodes.length = design.nodes.length := by simpa using congrArg List.length hnodes
  have hlength' : rawEdges.length = design.edges.length := by
    simpa using congrArg List.length hedges
  refine ⟨fun node hnode => ?_, ?_, ?_, ?_, hcoherent⟩
  · obtain ⟨index, raw, -, hok⟩ := exists_of_mapIdx hnodes hnode
    exact accepted_of_nodeOf hok
  · rw [← List.length_pos_iff, ← hlength, List.length_pos_iff]
    exact hcounts.1.1
  · rw [← hlength]
    exact hcounts.1.2
  · rw [← hlength']
    exact hcounts.2

def WorkflowDesign.stored (lib : Library) (design : WorkflowDesign) : Fields :=
  storedFields lib.words design.payload

/-- A design with the fields of its configurations in the order of the store. -/
def WorkflowDesign.ordered (lib : Library) (design : WorkflowDesign) : WorkflowDesign :=
  { design with nodes := design.nodes.map (WorkflowNode.ordered lib) }

section StoredDesign

variable {design : WorkflowDesign}

theorem plain_designFields : ∀ key ∈ designFields, isSensitiveKey key = false := by
  decide

theorem get_design (lib : Library) (design : WorkflowDesign) {key : String}
    (hkey : key ∈ designFields) {v : JsonValue} (hget : get? design.payload key = some v) :
    JsonValue.get (design.stored lib) key = redactValue lib.words v.sortKeys :=
  get_stored lib.words (plain_designFields key hkey) hget

theorem isFormat_stored (lib : Library) (design : WorkflowDesign) :
    designArrays.isFormat (JsonValue.get (design.stored lib) "format") = true := by
  have hformat : redactText lib.words "wait-local-agent.workflow-design" =
      "wait-local-agent.workflow-design" := redactText_of_plain (by decide)
  rw [get_design lib design (by decide) rfl]
  simp [sortKeys, redactValue, hformat, designArrays.isFormat]

theorem designArrays_stored (h : design.Accepted lib) :
    designArrays (.object (design.stored lib)) = .ok (design.nodes.map (WorkflowNode.stored lib),
      design.edges.map (WorkflowEdge.stored lib)) := by
  have hperm := keys_storedFields_perm lib.words design.payload
  have hkeys : design.payload.map Prod.fst = designFields := rfl
  have hunknown : ((design.stored lib).map Prod.fst).filter
      (fun key => key ∉ designFields) = [] := by
    rw [List.filter_eq_nil_iff]
    intro key hkey
    have hmem : key ∈ designFields := hkeys ▸ hperm.mem_iff.mp hkey
    simp [hmem]
  have hversion : isVersionOne (JsonValue.get (design.stored lib) "version") = true := by
    rw [get_design lib design (by decide) rfl]
    rfl
  have hnodes : designArrays.rawNodes (JsonValue.get (design.stored lib) "nodes") =
      .ok (design.nodes.map (WorkflowNode.stored lib)) := by
    have hcount := h.nodeCount
    rw [get_design lib design (by decide) rfl, redactValue_objects]
    cases hnodes : design.nodes with
    | nil => exact absurd hnodes h.nonempty
    | cons node nodes =>
        rw [hnodes] at hcount
        rw [List.map_cons, designArrays.rawNodes, if_neg (by simpa using hcount)]
        · rfl
        · exact fun hnil => by cases hnil
  have hedges : designArrays.rawEdges (JsonValue.get (design.stored lib) "edges") =
      .ok (design.edges.map (WorkflowEdge.stored lib)) := by
    have hcount := h.edgeCount
    rw [get_design lib design (by decide) rfl, redactValue_objects, designArrays.rawEdges,
      if_neg (by simpa using hcount)]
    rfl
  rw [designArrays, hunknown, raiseIf_of_not (by simp), ok_bind,
    raiseIf_of_not (by simp [isFormat_stored]), ok_bind, raiseIf_of_not (by simp [hversion]),
    ok_bind, hnodes, ok_bind, hedges]
  rfl

/-- A design that redaction left intact is accepted once more. -/
theorem normalize_stored (h : design.Accepted lib)
    (hintact : ∀ node ∈ design.nodes, node.Intact lib) :
    normalizeWorkflowDesign lib (.object (design.stored lib)) = .ok (design.ordered lib) := by
  have hids : (design.ordered lib).nodes.map WorkflowNode.id =
      design.nodes.map WorkflowNode.id := by
    simp only [WorkflowDesign.ordered, List.map_map]
    rfl
  have hends : ∀ id ∈ design.nodes.map WorkflowNode.id, IntactId lib id := by
    intro id hid
    obtain ⟨node, hnode, rfl⟩ := List.mem_map.mp hid
    exact ⟨(h.nodes node hnode).idText, (h.nodes node hnode).id, (hintact node hnode).id⟩
  have hnodes : (design.nodes.map (WorkflowNode.stored lib)).mapIdx (nodeOf lib) =
      (design.ordered lib).nodes.map .ok := by
    refine List.ext_getElem (by simp [WorkflowDesign.ordered]) fun i hi _ => ?_
    have hlength : i < design.nodes.length := by simpa using hi
    have hnode := List.getElem_mem hlength
    simp [WorkflowDesign.ordered, nodeOf_stored i (h.nodes _ hnode) (hintact _ hnode)]
  have hedges : (design.edges.map (WorkflowEdge.stored lib)).mapIdx edgeEnds =
      design.edges.map .ok := by
    refine List.ext_getElem (by simp) fun i hi _ => ?_
    have hlength : i < design.edges.length := by simpa using hi
    obtain ⟨hsource, htarget, -⟩ := h.coherent.known _ (List.getElem_mem hlength)
    simp [edgeEnds_stored i (hends _ hsource) (hends _ htarget)]
  have hcoherent := h.coherent
  rw [normalizeWorkflowDesign_eq_ok_iff]
  refine ⟨⟨_, _, designArrays_stored h, hnodes, hedges⟩, ?_⟩
  refine ⟨?_, ?_, ?_, hcoherent.pairs, ?_, hcoherent.acyclic, ?_, ?_⟩
  · rw [hids]
    exact hcoherent.ids
  · rw [← hcoherent.trigger, WorkflowDesign.ordered, List.filter_map, List.length_map]
    rfl
  · rw [← hcoherent.last, WorkflowDesign.ordered, List.filter_map, List.length_map]
    rfl
  · rw [hids]
    exact hcoherent.known
  · simp only [WorkflowDesign.ordered, List.forall_mem_map]
    exact hcoherent.reachable
  · simp only [WorkflowDesign.ordered, List.forall_mem_map]
    exact hcoherent.leads

/-- A stored design that is accepted once more has been left intact. -/
theorem intact_of_normalize_stored (h : design.Accepted lib) {design' : WorkflowDesign}
    (hread : normalizeWorkflowDesign lib (.object (design.stored lib)) = .ok design') :
    ∀ node ∈ design.nodes, node.Intact lib := by
  obtain ⟨⟨rawNodes, rawEdges, harrays, hnodes, -⟩, -⟩ := normalizeWorkflowDesign_eq_ok_iff.mp hread
  rw [designArrays_stored h] at harrays
  cases harrays
  intro node hnode
  obtain ⟨i, hi, rfl⟩ := List.mem_iff_getElem.mp hnode
  have hlength : i < ((design.nodes.map (WorkflowNode.stored lib)).mapIdx (nodeOf lib)).length := by
    simpa using hi
  have hok : nodeOf lib i (design.nodes[i].stored lib) ∈ design'.nodes.map .ok := by
    rw [← hnodes]
    have hmem := List.getElem_mem hlength
    simpa using hmem
  obtain ⟨node', -, hnode'⟩ := List.mem_map.mp hok
  exact intact_of_nodeOf_stored (h.nodes _ hnode) hnode'.symm

/-- A design is stored the same in whatever order its configurations come. -/
theorem jsonDumpsValue_ordered (lib : Library) (design : WorkflowDesign) :
    jsonDumpsValue lib.words (.object (design.ordered lib).payload) =
      jsonDumpsValue lib.words (.object design.payload) := by
  have hnode : ∀ node : WorkflowNode,
      storedFields lib.words (node.ordered lib).payload = storedFields lib.words node.payload := by
    intro node
    refine storedFields_congr ?_
    simp [WorkflowNode.payload, WorkflowNode.ordered, storedEntry, storedFields_storedFields]
  refine jsonDumpsValue_congr (storedFields_congr ?_)
  have hnodes : redactValue lib.words
      (sortKeys (.array ((design.ordered lib).nodes.map fun node => .object node.payload))) =
        redactValue lib.words
          (sortKeys (.array (design.nodes.map fun node => .object node.payload))) := by
    rw [redactValue_objects, redactValue_objects, WorkflowDesign.ordered, List.map_map]
    exact congrArg _ (List.map_congr_left fun node _ => congrArg _ (hnode node))
  simp only [WorkflowDesign.payload, List.map_cons, storedEntry, hnodes]
  rfl

/-! ### Intact texts -/

/-- A node that is read from the store has an id, and texts within their bounds. -/
def isIntactNode : JsonValue → Bool
  | .object fields =>
      isId (JsonValue.get fields "id") &&
        fits maxWorkflowDesignLabel (JsonValue.get fields "label") &&
        fits maxWorkflowDesignToolId (JsonValue.get fields "tool_id")
  | _ => false
where
  isId : JsonValue → Bool
    | .text s => isNodeId s
    | _ => false
  fits (limit : ℕ) : JsonValue → Bool
    | .text s => s.length ≤ limit
    | _ => true

def isIntactDesign (fields : Fields) : Bool :=
  match JsonValue.get fields "nodes" with
  | .array nodes => nodes.all isIntactNode
  | _ => false

theorem isIntactNode_stored_iff {node : WorkflowNode} (h : node.Accepted lib) :
    isIntactNode (node.stored lib) = true ↔ node.Intact lib := by
  have htool : isIntactNode.fits maxWorkflowDesignToolId (node.toolId.elim .null .text) = true ↔
      ∀ t ∈ node.toolId, t.length ≤ maxWorkflowDesignToolId := by
    cases node.toolId with
    | none => simp [isIntactNode.fits]
    | some t => simp [isIntactNode.fits]
  rw [WorkflowNode.stored, isIntactNode, get_payload_text lib.words node (by decide) rfl,
    get_label h, get_toolId h, Bool.and_eq_true, htool]
  simp only [isIntactNode.isId, isIntactNode.fits, Bool.and_eq_true, decide_eq_true_eq,
    isNodeId_redactText_iff h.id, and_assoc]
  exact ⟨fun h => ⟨h.1, h.2.1, h.2.2⟩, fun h => ⟨h.id, h.label, h.toolId⟩⟩

theorem isIntactDesign_stored_iff (h : design.Accepted lib) :
    isIntactDesign (design.stored lib) = true ↔ ∀ node ∈ design.nodes, node.Intact lib := by
  rw [isIntactDesign, get_design lib design (by decide) rfl, redactValue_objects]
  simp only [List.all_eq_true, List.forall_mem_map]
  exact forall₂_congr fun node hnode => isIntactNode_stored_iff (h.nodes node hnode)

end StoredDesign

/-! ### Floats -/

section Floats

variable {q : String → Bool}

theorem floatsMeet_nodeOf {index : ℕ} {raw : JsonValue} {node : WorkflowNode}
    (h : nodeOf lib index raw = .ok node) (hraw : raw.floatsMeet q = true) :
    floatsMeetFields q node.config = true := by
  simp only [nodeOf, nodeBody, bind_eq_ok, pure_eq_ok] at h
  obtain ⟨⟨id, fields⟩, hid, _, -, _, -, _, -, config, hconfig, rfl⟩ := h
  obtain rfl := (nodeId_eq_ok hid).1
  unfold nodeConfig at hconfig
  split at hconfig
  · next given hgiven =>
      simp only [bind_eq_ok, pure_eq_ok] at hconfig
      obtain ⟨_, -, rfl⟩ := hconfig
      refine floatsMeet_redactValue (v := .object _) lib.words ?_
      cases hget : get? fields "config" with
      | none =>
          rw [hget] at hgiven
          cases hgiven
          rfl
      | some v =>
          rw [hget, Option.getD_some] at hgiven
          have hv := floatsMeet_get? hraw hget
          rwa [hgiven] at hv
  · cases hconfig

theorem floatsMeet_normalize {payload : JsonValue} {design : WorkflowDesign}
    (h : normalizeWorkflowDesign lib payload = .ok design)
    (hpayload : payload.floatsMeet q = true) :
    (JsonValue.object design.payload).floatsMeet q = true := by
  obtain ⟨⟨rawNodes, rawEdges, harrays, hnodes, -⟩, -⟩ := normalizeWorkflowDesign_eq_ok_iff.mp h
  have hraws : ∀ raw ∈ rawNodes, raw.floatsMeet q = true := by
    cases payload with
    | object fields =>
        simp only [designArrays, bind_eq_ok, pure_eq_ok, Prod.mk.injEq] at harrays
        obtain ⟨_, -, _, -, _, -, raws, hraws, _, -, rfl, -⟩ := harrays
        have hget := floatsMeet_get hpayload "nodes"
        unfold designArrays.rawNodes at hraws
        split at hraws
        · cases hraws
        · next raws' _ hfield =>
            rw [hfield, floatsMeet, floatsMeetItems_eq_all, List.all_eq_true] at hget
            split at hraws
            · cases hraws
            · cases hraws
              exact hget
        · cases hraws
    | _ => cases harrays
  have hall : (design.nodes.map fun node => JsonValue.object node.payload).all
      (floatsMeet q) = true := by
    simp only [List.all_eq_true, List.forall_mem_map]
    intro node hnode
    obtain ⟨index, raw, hraw, hok⟩ := exists_of_mapIdx hnodes hnode
    have hconfig := floatsMeet_nodeOf hok (hraws raw hraw)
    cases htool : node.toolId <;>
      simp [WorkflowNode.payload, htool, floatsMeet, floatsMeetFields, hconfig]
  have hedges : (design.edges.map fun edge => JsonValue.object edge.payload).all
      (floatsMeet q) = true := by
    simp [List.all_eq_true, WorkflowEdge.payload, floatsMeet, floatsMeetFields]
  simp only [WorkflowDesign.payload, floatsMeet, floatsMeetFields, floatsMeetItems_eq_all, hall,
    hedges, Bool.and_true]

end Floats

end WaitLocalAgent.WorkflowDesigner
