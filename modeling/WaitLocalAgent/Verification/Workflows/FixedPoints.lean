import WaitLocalAgent.Verification.Workflows.Restored

/-! # Designs that are normalized again

A normalized design is a fixed point, and stays one in the store, exactly if redaction changes no id
of its nodes and lengthens no text of theirs beyond its bound. -/

namespace WaitLocalAgent.WorkflowDesigner

open Foundation JsonValue Redaction

variable {lib : Library} {payload : JsonValue} {design : WorkflowDesign}

/-- The same objects, in whatever order their fields come. -/
def WorkflowDesign.Same (design design' : WorkflowDesign) : Prop :=
  (JsonValue.object design.payload).sortKeys = (JsonValue.object design'.payload).sortKeys

theorem same_ordered (h : design.Accepted lib) : (design.ordered lib).Same design := by
  have hnode : ∀ node ∈ design.nodes, (JsonValue.object (node.ordered lib).payload).sortKeys =
      (JsonValue.object node.payload).sortKeys := by
    intro node hnode
    have hconfig := sortKeys_storedFields (h.nodes node hnode).config
    rw [sortKeys_object, sortKeys_object, sortFields_eq_map, sortFields_eq_map]
    simp [WorkflowNode.payload, WorkflowNode.ordered, hconfig]
  have hnodes : (JsonValue.array ((design.ordered lib).nodes.map fun node =>
      .object node.payload)).sortKeys =
        (JsonValue.array (design.nodes.map fun node => .object node.payload)).sortKeys := by
    rw [sortKeys, sortKeys, sortItems_eq_map, sortItems_eq_map, WorkflowDesign.ordered]
    simpa using hnode
  rw [WorkflowDesign.Same, sortKeys_object, sortKeys_object, sortFields_eq_map, sortFields_eq_map]
  simp only [WorkflowDesign.payload, List.map_cons, hnodes]
  rfl

theorem nodeOf_payload {node : WorkflowNode} (index : ℕ) (h : node.Accepted lib)
    (hintact : node.Intact lib) : nodeOf lib index (.object node.payload) = .ok node := by
  have hfields : ((node.payload.map Prod.fst).all fun key => key ∈ nodeFields) = true := rfl
  have hid : nodeId index (.object node.payload) = .ok (node.id, node.payload) := by
    have hget : JsonValue.get node.payload "id" = .text node.id := rfl
    rw [nodeId, raiseIf_of_not (by simp [hfields]), ok_bind, hget,
      identifier_of_isNodeId h.idText h.id]
    rfl
  have htype : nodeType index node.payload = .ok node.type := by
    have hget : JsonValue.get node.payload "type" = .text node.type.value := rfl
    rw [nodeType, hget]
    simp [find?_nodeTypes]
  have hlabel : JsonValue.get node.payload "label" = .text node.label := rfl
  have htool : nodeToolId index node.payload = .ok node.toolId := by
    have hget : JsonValue.get node.payload "tool_id" = node.toolId.elim .null .text := rfl
    rw [nodeToolId, hget]
    cases htool : node.toolId with
    | none => rfl
    | some t =>
        have hlength := Nat.not_lt.mpr (hintact.toolId t htool)
        simp only [Option.elim_some, designText_of_isText (h.toolId t htool).1, if_neg hlength]
        rfl
  have hconfig : nodeConfig lib index node.payload = .ok node.config := by
    have hget : (JsonValue.get? node.payload "config").getD (.object []) =
        .object node.config := rfl
    rw [nodeConfig, hget]
    dsimp only
    rw [h.config, raiseIf_of_not (Nat.not_lt.mpr h.size)]
    rfl
  have hredacted : node.toolId.map (redactText lib.words) = node.toolId := by
    cases htool : node.toolId with
    | none => rfl
    | some t => rw [Option.map_some, (h.toolId t htool).2]
  rw [nodeOf, hid, ok_bind]
  dsimp only [nodeBody]
  rw [htype, ok_bind, hlabel, designText_of_isText h.label, if_neg (Nat.not_lt.mpr hintact.label),
    ok_bind, htool, ok_bind, hconfig, ok_bind, h.labelRedacted, hredacted]
  rfl

theorem edgeEnds_payload (index : ℕ) {edge : WorkflowEdge} (hsource : IntactId lib edge.source)
    (htarget : IntactId lib edge.target) : edgeEnds index (.object edge.payload) = .ok edge := by
  have hfields : hasEdgeFields edge.payload = true := rfl
  have hfrom : JsonValue.get edge.payload "from" = .text edge.source := rfl
  have hto : JsonValue.get edge.payload "to" = .text edge.target := rfl
  rw [edgeEnds, raiseIf_of_not (by simp [hfields]), ok_bind, hfrom,
    identifier_of_isNodeId hsource.text hsource.id, ok_bind, hto,
    identifier_of_isNodeId htarget.text htarget.id]
  rfl

theorem designArrays_payload (h : design.Accepted lib) : designArrays (.object design.payload) =
    .ok (design.nodes.map fun node => .object node.payload,
      design.edges.map fun edge => .object edge.payload) := by
  have hnodes : designArrays.rawNodes (.array (design.nodes.map fun node => .object node.payload)) =
      .ok (design.nodes.map fun node => .object node.payload) := by
    have hcount := h.nodeCount
    cases hnodes : design.nodes with
    | nil => exact absurd hnodes h.nonempty
    | cons node nodes =>
        rw [hnodes] at hcount
        rw [List.map_cons, designArrays.rawNodes, if_neg (by simpa using hcount)]
        exact fun hnil => by cases hnil
  have hedges : designArrays.rawEdges (.array (design.edges.map fun edge => .object edge.payload)) =
      .ok (design.edges.map fun edge => .object edge.payload) := by
    have hcount := h.edgeCount
    rw [designArrays.rawEdges, if_neg (by simpa using hcount)]
  have hget : JsonValue.get design.payload "nodes" =
      .array (design.nodes.map fun node => .object node.payload) := rfl
  have hget' : JsonValue.get design.payload "edges" =
      .array (design.edges.map fun edge => .object edge.payload) := rfl
  have hunknown : (design.payload.map Prod.fst).filter (fun key => key ∉ designFields) = [] := rfl
  rw [designArrays, hunknown, raiseIf_of_not (by simp), ok_bind, raiseIf_of_not (by simp; rfl),
    ok_bind, raiseIf_of_not (by simp; rfl), ok_bind, hget, hnodes, ok_bind, hget', hedges]
  rfl

/-- A design that redaction left intact is returned again. -/
theorem normalize_payload (h : design.Accepted lib)
    (hintact : ∀ node ∈ design.nodes, node.Intact lib) :
    normalizeWorkflowDesign lib (.object design.payload) = .ok design := by
  have hends : ∀ id ∈ design.nodes.map WorkflowNode.id, IntactId lib id := by
    intro id hid
    obtain ⟨node, hnode, rfl⟩ := List.mem_map.mp hid
    exact ⟨(h.nodes node hnode).idText, (h.nodes node hnode).id, (hintact node hnode).id⟩
  have hnodes : (design.nodes.map fun node => JsonValue.object node.payload).mapIdx (nodeOf lib) =
      design.nodes.map .ok := by
    refine List.ext_getElem (by simp) fun i hi _ => ?_
    have hlength : i < design.nodes.length := by simpa using hi
    have hnode := List.getElem_mem hlength
    simp [nodeOf_payload i (h.nodes _ hnode) (hintact _ hnode)]
  have hedges : (design.edges.map fun edge => JsonValue.object edge.payload).mapIdx edgeEnds =
      design.edges.map .ok := by
    refine List.ext_getElem (by simp) fun i hi _ => ?_
    have hlength : i < design.edges.length := by simpa using hi
    obtain ⟨hsource, htarget, -⟩ := h.coherent.known _ (List.getElem_mem hlength)
    simp [edgeEnds_payload i (hends _ hsource) (hends _ htarget)]
  rw [normalizeWorkflowDesign_eq_ok_iff]
  exact ⟨⟨_, _, designArrays_payload h, hnodes, hedges⟩, h.coherent⟩

/-- Redaction leaves the id of a node, and keeps its texts within their bounds. -/
def isSteadyNode (w : WordClass) : JsonValue → Bool
  | .object fields =>
      isSteadyId (JsonValue.get fields "id") &&
        fits maxWorkflowDesignLabel (JsonValue.get fields "label") &&
        fits maxWorkflowDesignToolId (JsonValue.get fields "tool_id")
  | _ => false
where
  isSteadyId : JsonValue → Bool
    | .text s => redactText w (Text.strip s) = Text.strip s
    | _ => false
  fits (limit : ℕ) : JsonValue → Bool
    | .text s => (redactText w (Text.strip s)).length ≤ limit
    | _ => true

/-- Every node of a payload is steady. -/
def isSteady (w : WordClass) : JsonValue → Bool
  | .object fields =>
      match JsonValue.get fields "nodes" with
      | .array nodes => nodes.all (isSteadyNode w)
      | _ => false
  | _ => false

theorem designText_eq_strip {value : JsonValue} {field t : String} {limit : ℕ}
    (h : designText value field limit = .ok t) : ∃ s, value = .text s ∧ t = Text.strip s := by
  cases value with
  | text s =>
      simp only [designText, bind_eq_ok, raiseIf_eq_ok, pure_eq_ok] at h
      obtain ⟨_, -, _, -, _, -, rfl⟩ := h
      exact ⟨s, rfl, rfl⟩
  | _ => cases h

theorem nodeToolId_steady_iff {index : ℕ} {fields : Fields} {toolId : Option String}
    (h : nodeToolId index fields = .ok toolId) :
    (∀ t ∈ toolId.map (redactText lib.words), t.length ≤ maxWorkflowDesignToolId) ↔
      isSteadyNode.fits lib.words maxWorkflowDesignToolId
        (JsonValue.get fields "tool_id") = true := by
  unfold nodeToolId at h
  split at h
  · next hnull =>
      cases h
      simp [hnull, isSteadyNode.fits]
  · rw [map_eq_ok] at h
    obtain ⟨t, htext, rfl⟩ := h
    obtain ⟨s, hs, rfl⟩ := designText_eq_strip htext
    simp [hs, isSteadyNode.fits]

theorem intact_iff_steady {index : ℕ} {raw : JsonValue} {node : WorkflowNode}
    (h : nodeOf lib index raw = .ok node) :
    node.Intact lib ↔ isSteadyNode lib.words raw = true := by
  simp only [nodeOf, nodeBody, bind_eq_ok, pure_eq_ok] at h
  obtain ⟨⟨id, fields⟩, hid, type, -, label, hlabel, toolId, htool, config, -, rfl⟩ := h
  obtain rfl := (nodeId_eq_ok hid).1
  obtain ⟨s, hs, rfl⟩ := designText_eq_strip hlabel
  have hname : ∃ s, JsonValue.get fields "id" = .text s ∧ id = Text.strip s := by
    simp only [nodeId, identifier, bind_eq_ok, raiseIf_eq_ok, pure_eq_ok, Prod.mk.injEq] at hid
    obtain ⟨_, -, name, ⟨_, htext, _, -, rfl⟩, rfl, -⟩ := hid
    exact designText_eq_strip htext
  obtain ⟨name, hget, rfl⟩ := hname
  have hsteady := @nodeToolId_steady_iff lib index fields toolId htool
  dsimp only at hs
  rw [isSteadyNode, hget, hs, Bool.and_eq_true, Bool.and_eq_true, ← hsteady]
  simp only [isSteadyNode.isSteadyId, isSteadyNode.fits, decide_eq_true_eq, and_assoc]
  exact ⟨fun hintact => ⟨hintact.id, hintact.label, hintact.toolId⟩,
    fun h => ⟨h.1, h.2.1, h.2.2⟩⟩

theorem exists_of_mem_mapIdx {α : Type} {f : ℕ → JsonValue → Except WorkflowDesignError α}
    {raws : List JsonValue} {xs : List α} (h : raws.mapIdx f = xs.map .ok) {raw : JsonValue}
    (hraw : raw ∈ raws) : ∃ index, ∃ x ∈ xs, f index raw = .ok x := by
  obtain ⟨index, hindex, rfl⟩ := List.mem_iff_getElem.mp hraw
  have hmem : f index raws[index] ∈ raws.mapIdx f := List.mem_mapIdx.mpr ⟨index, hindex, rfl⟩
  rw [h] at hmem
  obtain ⟨x, hx, heq⟩ := List.mem_map.mp hmem
  exact ⟨index, x, hx, heq.symm⟩

theorem designArrays_nodes {rawNodes rawEdges : List JsonValue}
    (h : designArrays payload = .ok (rawNodes, rawEdges)) :
    ∃ fields, payload = .object fields ∧ JsonValue.get fields "nodes" = .array rawNodes := by
  cases payload with
  | object fields =>
      simp only [designArrays, bind_eq_ok, pure_eq_ok, Prod.mk.injEq] at h
      obtain ⟨_, -, _, -, _, -, raws, hraws, _, -, rfl, -⟩ := h
      refine ⟨fields, rfl, ?_⟩
      unfold designArrays.rawNodes at hraws
      split at hraws
      · cases hraws
      · next hget =>
          split at hraws
          · cases hraws
          · cases hraws
            exact hget
      · cases hraws
  | _ => cases h

/-- The nodes of an accepted payload are intact exactly if it is steady. -/
theorem forall_intact_iff (h : normalizeWorkflowDesign lib payload = .ok design) :
    (∀ node ∈ design.nodes, node.Intact lib) ↔ isSteady lib.words payload = true := by
  obtain ⟨⟨rawNodes, rawEdges, harrays, hnodes, -⟩, -⟩ := normalizeWorkflowDesign_eq_ok_iff.mp h
  obtain ⟨fields, rfl, hget⟩ := designArrays_nodes harrays
  rw [isSteady, hget]
  dsimp only
  rw [List.all_eq_true]
  constructor
  · intro hintact raw hraw
    obtain ⟨index, node, hnode, hok⟩ := exists_of_mem_mapIdx hnodes hraw
    exact (intact_iff_steady hok).mp (hintact node hnode)
  · intro hsteady node hnode
    obtain ⟨index, raw, hraw, hok⟩ := exists_of_mapIdx hnodes hnode
    exact (intact_iff_steady hok).mpr (hsteady raw hraw)

/-- What is normalized is normalized again to itself, and in the store to the same, exactly if the
payload is steady. -/
theorem normalizeWorkflowDesign_fixed_iff (floats : FloatRepr)
    (hexact : payload.exact floats = true)
    (h : normalizeWorkflowDesign lib payload = .ok design) :
    (normalizeWorkflowDesign lib (.object design.payload) = .ok design ∧
      ∃ design', normalizeWorkflowDesign lib (.object (jsonObject floats.repr
          (jsonDumpsValue lib.words (.object design.payload)))) = .ok design' ∧
        design'.Same design) ↔ isSteady lib.words payload = true := by
  have haccepted := accepted_of_normalize h
  have hread : jsonObject floats.repr (jsonDumpsValue lib.words (.object design.payload)) =
      design.stored lib := jsonObject_jsonDumpsValue floats (floatsMeet_normalize h hexact)
  rw [← forall_intact_iff h, hread]
  constructor
  · rintro ⟨-, design', hstored, -⟩
    exact intact_of_normalize_stored haccepted hstored
  · intro hintact
    exact ⟨normalize_payload haccepted hintact, _, normalize_stored haccepted hintact,
      same_ordered haccepted⟩

theorem intact_example : ∀ node ∈ exampleDesign.nodes, node.Intact exampleLibrary := by
  have hnode : ∀ node ∈ exampleDesign.nodes, (∀ c ∈ node.id.toList, c ≠ ':' ∧ c ≠ '=' ∧ c ≠ 'A') ∧
      node.label.length ≤ maxWorkflowDesignLabel ∧
        ∀ t ∈ node.toolId, t.length ≤ maxWorkflowDesignToolId := by
    decide
  intro node hmem
  exact ⟨redactText_of_plain (hnode node hmem).1, (hnode node hmem).2.1, (hnode node hmem).2.2⟩

theorem normalizeWorkflowDesign_fixed_example :
    normalizeWorkflowDesign exampleLibrary (.object exampleDesign.payload) = .ok exampleDesign ∧
      ∃ design', normalizeWorkflowDesign exampleLibrary (.object (jsonObject FloatRepr.verbatim.repr
          (jsonDumpsValue exampleLibrary.words (.object exampleDesign.payload)))) = .ok design' ∧
        design'.Same exampleDesign := by
  have hnormalized : normalizeWorkflowDesign exampleLibrary examplePayload =
      .ok exampleDesign := rfl
  exact (normalizeWorkflowDesign_fixed_iff .verbatim (by decide) hnormalized).mpr
    ((forall_intact_iff hnormalized).mp intact_example)

/-- A trigger whose id reads as a secret. -/
def secretPayload : JsonValue :=
  .object [("format", .text "wait-local-agent.workflow-design"), ("version", .int 1),
    ("nodes", .array [exampleNode "key:abc" "trigger" "Ticket", exampleNode "end" "end" "Done"]),
    ("edges", .array [.object [("from", .text "key:abc"), ("to", .text "end")]])]

def secretDesign : WorkflowDesign where
  nodes := [⟨"key:abc", .trigger, "Ticket", none, []⟩, ⟨"end", .end, "Done", none, []⟩]
  edges := [⟨"key:abc", "end"⟩]

theorem not_redactText_keyId : redactText .known "key:abc" ≠ "key:abc" := by decide

/-- A design with such an id is stored with `[redacted]` in its place, which is refused. -/
theorem not_normalizeWorkflowDesign_fixed : ¬ ∀ payload design,
    normalizeWorkflowDesign exampleLibrary payload = .ok design →
      normalizeWorkflowDesign exampleLibrary (.object design.payload) = .ok design ∧
        ∃ design', normalizeWorkflowDesign exampleLibrary (.object (jsonObject
            FloatRepr.verbatim.repr
              (jsonDumpsValue exampleLibrary.words (.object design.payload)))) =
          .ok design' ∧ design'.Same design := by
  intro h
  have hnormalized : normalizeWorkflowDesign exampleLibrary secretPayload = .ok secretDesign := rfl
  obtain ⟨-, design', hstored, -⟩ := h _ _ hnormalized
  have hread : jsonObject FloatRepr.verbatim.repr
      (jsonDumpsValue exampleLibrary.words (.object secretDesign.payload)) =
        secretDesign.stored exampleLibrary := jsonObject_jsonDumpsValue .verbatim (by decide)
  rw [hread] at hstored
  have hintact := intact_of_normalize_stored (accepted_of_normalize hnormalized) hstored _
    List.mem_cons_self
  exact not_redactText_keyId hintact.id

end WaitLocalAgent.WorkflowDesigner
