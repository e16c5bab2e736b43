import WaitLocalAgent.Foundation.Reachability
import WaitLocalAgent.Model.Redaction

/-! # Workflow designs

`normalize_workflow_design`: the checks of a visual workflow, node by node and edge by edge, and of
the graph that they make up. -/

namespace WaitLocalAgent.WorkflowDesigner

open Foundation JsonValue Redaction

abbrev Fields := List (String × JsonValue)

inductive WorkflowNodeType where
  | trigger
  | action
  | approval
  | condition
  | knowledge
  | connector
  | notification
  | «end»
  deriving DecidableEq, Repr

def WorkflowNodeType.value : WorkflowNodeType → String
  | trigger => "trigger"
  | action => "action"
  | approval => "approval"
  | condition => "condition"
  | knowledge => "knowledge"
  | connector => "connector"
  | notification => "notification"
  | «end» => "end"

def nodeTypes : List WorkflowNodeType :=
  [.trigger, .action, .approval, .condition, .knowledge, .connector, .notification, .end]

def maxWorkflowDesignNodes : ℕ := 32

def maxWorkflowDesignEdges : ℕ := 64

def maxWorkflowDesignLabel : ℕ := 160

def maxWorkflowDesignToolId : ℕ := 160

def maxWorkflowDesignConfigBytes : ℕ := 8 * 1024

/-- The characters of the redaction, and the order in which a set of ids is gone through. -/
structure Library where
  words : WordClass
  setOrder : List String → List String
  setOrder_perm : ∀ ids, (setOrder ids).Perm ids

structure WorkflowDesignError where
  message : String
  deriving DecidableEq, Repr

structure WorkflowNode where
  id : String
  type : WorkflowNodeType
  label : String
  toolId : Option String
  config : Fields

structure WorkflowEdge where
  source : String
  target : String
  deriving DecidableEq, Repr

structure WorkflowDesign where
  nodes : List WorkflowNode
  edges : List WorkflowEdge

def designText (value : JsonValue) (field : String) (limit : ℕ) :
    Except WorkflowDesignError String :=
  match value with
  | .text s => do
      raiseIf (Text.strip s = "") ⟨s!"{field} must be non-empty text"⟩
      raiseIf (limit < (Text.strip s).length) ⟨s!"{field} exceeds {limit} characters"⟩
      raiseIf ((Text.strip s).toList.any fun c => c.toNat < 32 && c != '\t' && c != '\n')
        ⟨s!"{field} contains unsupported control characters"⟩
      return Text.strip s
  | _ => .error ⟨s!"{field} must be non-empty text"⟩

def isIdentifierStart (c : Char) : Bool := ('a' ≤ c && c ≤ 'z') || ('0' ≤ c && c ≤ '9')

def isIdentifierChar (c : Char) : Bool :=
  isIdentifierStart c || c == '_' || c == '.' || c == ':' || c == '-'

def isNodeId (s : String) : Bool :=
  match s.toList with
  | c :: cs => isIdentifierStart c && decide (cs.length ≤ 63) && cs.all isIdentifierChar
  | [] => false

def identifier (value : JsonValue) (field : String) : Except WorkflowDesignError String := do
  let normalized ← designText value field 64
  raiseIf (¬ isNodeId normalized) ⟨s!"{field} must be a lowercase identifier"⟩
  return normalized

def nodeFields : List String := ["id", "type", "label", "tool_id", "config"]

def nodeId (index : ℕ) (raw : JsonValue) : Except WorkflowDesignError (String × Fields) :=
  match raw with
  | .object fields => do
      raiseIf (¬ (fields.map Prod.fst).all fun key => key ∈ nodeFields)
        ⟨s!"workflow node {index} contains unsupported fields"⟩
      let id ← identifier (JsonValue.get fields "id") s!"workflow node {index}.id"
      return (id, fields)
  | _ => .error ⟨s!"workflow node {index} must be an object"⟩

def nodeType (index : ℕ) (fields : Fields) : Except WorkflowDesignError WorkflowNodeType :=
  match JsonValue.get fields "type" with
  | .text type =>
      match nodeTypes.find? fun t => t.value = type with
      | some t => .ok t
      | none => .error ⟨s!"workflow node {index}.type is unsupported"⟩
  | _ => .error ⟨s!"workflow node {index}.type is unsupported"⟩

def nodeToolId (index : ℕ) (fields : Fields) : Except WorkflowDesignError (Option String) :=
  match JsonValue.get fields "tool_id" with
  | .null => .ok none
  | value =>
      (designText value s!"workflow node {index}.tool_id" maxWorkflowDesignToolId).map some

def nodeConfig (lib : Library) (index : ℕ) (fields : Fields) :
    Except WorkflowDesignError Fields :=
  match (JsonValue.get? fields "config").getD (.object []) with
  | .object config => do
      let safeConfig := redactMapping lib.words config
      let encoded := (JsonValue.object safeConfig).sortKeys.write ⟨[','], [':']⟩
      raiseIf (maxWorkflowDesignConfigBytes < encoded.length)
        ⟨s!"workflow node {index}.config is too large"⟩
      return safeConfig
  | _ => .error ⟨s!"workflow node {index}.config must be an object"⟩

def nodeBody (lib : Library) (index : ℕ) (id : String) (fields : Fields) :
    Except WorkflowDesignError WorkflowNode := do
  let type ← nodeType index fields
  let label ← designText (JsonValue.get fields "label") s!"workflow node {index}.label"
    maxWorkflowDesignLabel
  let toolId ← nodeToolId index fields
  let config ← nodeConfig lib index fields
  return {
    id
    type
    label := redactText lib.words label
    toolId := toolId.map (redactText lib.words)
    config }

/-- The loop over the nodes, after those with the ids `nodeIds`. -/
def normalizeNodes (lib : Library) (index : ℕ) (nodeIds : List String) :
    List JsonValue → Except WorkflowDesignError (List WorkflowNode)
  | [] => .ok []
  | raw :: raws => do
      let (id, fields) ← nodeId index raw
      raiseIf (id ∈ nodeIds) ⟨s!"workflow node ids must be unique: {id}"⟩
      let node ← nodeBody lib index id fields
      let nodes ← normalizeNodes lib (index + 1) (id :: nodeIds) raws
      return node :: nodes

/-- `set(raw_edge) != {"from", "to"}`. -/
def hasEdgeFields (fields : Fields) : Bool :=
  (fields.map Prod.fst).all (fun key => key ∈ ["from", "to"]) &&
    ["from", "to"].all fun key => key ∈ fields.map Prod.fst

def edgeEnds (index : ℕ) (raw : JsonValue) : Except WorkflowDesignError WorkflowEdge :=
  match raw with
  | .object fields => do
      raiseIf (¬ hasEdgeFields fields) ⟨s!"workflow edge {index} must contain only from and to"⟩
      let source ← identifier (JsonValue.get fields "from") s!"workflow edge {index}.from"
      let target ← identifier (JsonValue.get fields "to") s!"workflow edge {index}.to"
      return ⟨source, target⟩
  | _ => .error ⟨s!"workflow edge {index} must contain only from and to"⟩

/-- The loop over the edges, after `edgePairs`. -/
def normalizeEdges (nodeIds : List String) (index : ℕ) (edgePairs : List WorkflowEdge) :
    List JsonValue → Except WorkflowDesignError (List WorkflowEdge)
  | [] => .ok []
  | raw :: raws => do
      let edge ← edgeEnds index raw
      raiseIf (edge.source ∉ nodeIds ∨ edge.target ∉ nodeIds)
        ⟨s!"workflow edge {index} references an unknown node"⟩
      raiseIf (edge.source = edge.target) ⟨"workflow edges cannot point to the same node"⟩
      raiseIf (edge ∈ edgePairs) ⟨"workflow edges must be unique"⟩
      let edges ← normalizeEdges nodeIds (index + 1) (edge :: edgePairs) raws
      return edge :: edges

/-- `adjacency[node_id]`. -/
def adjacency (edges : List WorkflowEdge) (id : String) : List String :=
  (edges.filter fun e => e.source = id).map WorkflowEdge.target

def reverseAdjacency (ids : List String) (edges : List WorkflowEdge) (id : String) :
    List String :=
  ids.flatMap fun source => (adjacency edges source).filterMap fun target =>
    if target = id then some source else none

/-- `_ensure_acyclic`, on a stack of a frame for every node. -/
def ensureAcyclic (ids : List String) (edges : List WorkflowEdge) :
    Except WorkflowDesignError Unit :=
  match ids.foldlM (fun marks id => Search.visit (adjacency edges) (ids.length + 1) id marks)
      Search.Marks.none with
  | .ok _ => .ok ()
  | .error _ => .error ⟨"workflow graph must not contain cycles"⟩

/-- `len(_reachable(adjacency, start)) == len(node_ids)`, with a round for every edge. -/
def reachesAll (ids : List String) (succ : String → List String) (start : String) : Bool :=
  match Search.reach succ (1 + (ids.map fun id => (succ id).length).sum) [start] ∅ with
  | some reached => reached.card == ids.length
  | none => false

def checkGraph (lib : Library) (nodes : List WorkflowNode) (edges : List WorkflowEdge) :
    Except WorkflowDesignError Unit := do
  let ids := lib.setOrder (nodes.map WorkflowNode.id)
  ensureAcyclic ids edges
  match nodes.find? fun n => n.type = .trigger, nodes.find? fun n => n.type = .end with
  | some trigger, some last => do
      raiseIf (¬ reachesAll ids (adjacency edges) trigger.id)
        ⟨"every workflow node must be reachable from the trigger"⟩
      raiseIf (¬ reachesAll ids (reverseAdjacency ids edges) last.id)
        ⟨"every workflow node must lead to the end node"⟩
  | _, _ => .error ⟨"StopIteration"⟩

def designFields : List String := ["format", "version", "nodes", "edges"]

/-- `payload.get("version") == 1`. -/
def isVersionOne : JsonValue → Bool
  | .int n => n == 1
  | .bool b => b
  | .float repr => repr == "1.0"
  | _ => false

/-- The arrays of nodes and edges of a payload, whose other fields are checked. -/
def designArrays (payload : JsonValue) :
    Except WorkflowDesignError (List JsonValue × List JsonValue) :=
  match payload with
  | .object fields => do
      let unknown := (fields.map Prod.fst).filter fun key => key ∉ designFields
      let names := ", ".intercalate (unknown.insertionSort (· ≤ ·))
      raiseIf (unknown ≠ []) ⟨s!"unsupported workflow definition fields: {names}"⟩
      raiseIf (¬ isFormat (JsonValue.get fields "format"))
        ⟨"workflow definition format is invalid"⟩
      raiseIf (¬ isVersionOne (JsonValue.get fields "version"))
        ⟨"workflow definition version is unsupported"⟩
      let nodes ← rawNodes (JsonValue.get fields "nodes")
      let edges ← rawEdges (JsonValue.get fields "edges")
      return (nodes, edges)
  | _ => .error ⟨"workflow definition must be an object"⟩
where
  isFormat : JsonValue → Bool
    | .text s => s == "wait-local-agent.workflow-design"
    | _ => false
  rawNodes : JsonValue → Except WorkflowDesignError (List JsonValue)
    | .array [] => .error ⟨"workflow definition nodes must be a non-empty array"⟩
    | .array raws =>
        if maxWorkflowDesignNodes < raws.length then
          .error ⟨s!"workflow definition may contain at most {maxWorkflowDesignNodes} nodes"⟩
        else .ok raws
    | _ => .error ⟨"workflow definition nodes must be a non-empty array"⟩
  rawEdges : JsonValue → Except WorkflowDesignError (List JsonValue)
    | .array raws =>
        if maxWorkflowDesignEdges < raws.length then
          .error ⟨s!"workflow definition may contain 0-{maxWorkflowDesignEdges} edges"⟩
        else .ok raws
    | _ => .error ⟨s!"workflow definition may contain 0-{maxWorkflowDesignEdges} edges"⟩

def normalizeWorkflowDesign (lib : Library) (payload : JsonValue) :
    Except WorkflowDesignError WorkflowDesign := do
  let (rawNodes, rawEdges) ← designArrays payload
  let nodes ← normalizeNodes lib 0 [] rawNodes
  raiseIf ((nodes.filter fun n => n.type = .trigger).length ≠ 1)
    ⟨"workflow definition requires exactly one trigger node"⟩
  raiseIf ((nodes.filter fun n => n.type = .end).length ≠ 1)
    ⟨"workflow definition requires exactly one end node"⟩
  let edges ← normalizeEdges (nodes.map WorkflowNode.id) 0 [] rawEdges
  checkGraph lib nodes edges
  return { nodes, edges }

def WorkflowNode.payload (node : WorkflowNode) : Fields :=
  [("id", .text node.id), ("type", .text node.type.value), ("label", .text node.label),
    ("tool_id", node.toolId.elim .null .text), ("config", .object node.config)]

def WorkflowEdge.payload (edge : WorkflowEdge) : Fields :=
  [("from", .text edge.source), ("to", .text edge.target)]

def WorkflowDesign.payload (design : WorkflowDesign) : Fields :=
  [("format", .text "wait-local-agent.workflow-design"), ("version", .int 1),
    ("nodes", .array (design.nodes.map fun node => .object node.payload)),
    ("edges", .array (design.edges.map fun edge => .object edge.payload))]

end WaitLocalAgent.WorkflowDesigner
