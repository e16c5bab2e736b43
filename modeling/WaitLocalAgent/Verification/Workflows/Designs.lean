import WaitLocalAgent.Model.WorkflowDesigner

/-! # Acceptance of workflow designs

A design whose nodes and edges pass their own checks is accepted exactly if its graph is coherent,
and then with its nodes and edges as they were given. -/

namespace WaitLocalAgent.WorkflowDesigner

open Foundation JsonValue Relation

variable {lib : Library} {nodes : List WorkflowNode} {edges : List WorkflowEdge}
  {ids : List String}

def Leads (edges : List WorkflowEdge) (a b : String) : Prop := (⟨a, b⟩ : WorkflowEdge) ∈ edges

structure Coherent (nodes : List WorkflowNode) (edges : List WorkflowEdge) : Prop where
  ids : (nodes.map WorkflowNode.id).Nodup
  trigger : (nodes.filter fun n => n.type = .trigger).length = 1
  last : (nodes.filter fun n => n.type = .end).length = 1
  pairs : edges.Nodup
  known : ∀ e ∈ edges, e.source ∈ nodes.map WorkflowNode.id ∧
    e.target ∈ nodes.map WorkflowNode.id ∧ e.source ≠ e.target
  acyclic : ∀ id, ¬ TransGen (Leads edges) id id
  reachable : ∀ t ∈ nodes, t.type = .trigger → ∀ n ∈ nodes,
    ReflTransGen (Leads edges) t.id n.id
  leads : ∀ e ∈ nodes, e.type = .end → ∀ n ∈ nodes, ReflTransGen (Leads edges) n.id e.id

def nodeOf (lib : Library) (index : ℕ) (raw : JsonValue) :
    Except WorkflowDesignError WorkflowNode := do
  let (id, fields) ← nodeId index raw
  nodeBody lib index id fields

/-- The fields of the payload pass their own checks, and those of the nodes and the edges, which
say `nodes` and `edges`. -/
structure Passes (lib : Library) (payload : JsonValue) (nodes : List WorkflowNode)
    (edges : List WorkflowEdge) : Prop where
  arrays : ∃ rawNodes rawEdges, designArrays payload = .ok (rawNodes, rawEdges) ∧
    rawNodes.mapIdx (nodeOf lib) = nodes.map .ok ∧ rawEdges.mapIdx edgeEnds = edges.map .ok

theorem id_of_nodeBody {index : ℕ} {id : String} {fields : Fields} {node : WorkflowNode}
    (h : nodeBody lib index id fields = .ok node) : node.id = id := by
  simp only [nodeBody, bind_eq_ok, pure_eq_ok] at h
  obtain ⟨_, -, _, -, _, -, _, -, rfl⟩ := h
  rfl

/-- The loop over the nodes is their own checks, and that their ids are distinct. -/
theorem normalizeNodes_eq_ok_iff (index : ℕ) (known : List String) (raws : List JsonValue) :
    normalizeNodes lib index known raws = .ok nodes ↔
      (raws.mapIdx fun i => nodeOf lib (index + i)) = nodes.map .ok ∧
        (nodes.map WorkflowNode.id).Nodup ∧ ∀ n ∈ nodes, n.id ∉ known := by
  induction raws generalizing index known nodes with
  | nil =>
      cases nodes with
      | nil => simp [normalizeNodes]
      | cons node nodes => simp [normalizeNodes]
  | cons raw raws ih =>
      have hshift : (fun i => nodeOf lib (index + (i + 1))) =
          fun i => nodeOf lib (index + 1 + i) := by
        funext i
        rw [Nat.add_right_comm, Nat.add_assoc]
      rw [List.mapIdx_cons, hshift]
      cases nodes with
      | nil =>
          refine iff_of_false (fun h => ?_) (by simp)
          simp only [normalizeNodes, bind_eq_ok, pure_eq_ok] at h
          obtain ⟨_, -, _, -, _, -, _, -, hcons⟩ := h
          cases hcons
      | cons node nodes =>
          simp only [normalizeNodes, bind_eq_ok, pure_eq_ok, raiseIf_eq_ok, List.map_cons,
            List.cons.injEq, Nat.add_zero, nodeOf, List.nodup_cons, List.forall_mem_cons]
          constructor
          · rintro ⟨⟨id, fields⟩, hid, _, hnew, body, hbody, rest, hrest, rfl, rfl⟩
            obtain ⟨hmap, hnodup, hfresh⟩ := (ih _ _).mp hrest
            have hsame := id_of_nodeBody hbody
            refine ⟨⟨⟨_, hid, hbody⟩, hmap⟩, ⟨?_, hnodup⟩, ?_, fun n hn hmem => ?_⟩
            · intro hmem
              obtain ⟨n, hn, heq⟩ := List.mem_map.mp hmem
              exact hfresh n hn (by rw [heq, hsame]; exact List.mem_cons_self)
            · rwa [hsame]
            · exact hfresh n hn (List.mem_cons_of_mem _ hmem)
          · rintro ⟨⟨⟨⟨id, fields⟩, hid, hbody⟩, hmap⟩, ⟨hnot, hnodup⟩, hnew, hfresh⟩
            have hsame := id_of_nodeBody hbody
            rw [hsame] at hnot hnew
            refine ⟨_, hid, (), hnew, _, hbody, _, (ih _ _).mpr ⟨hmap, hnodup, ?_⟩, rfl, rfl⟩
            intro n hn hmem
            rcases List.mem_cons.mp hmem with heq | hmem
            · exact hnot (List.mem_map.mpr ⟨n, hn, heq⟩)
            · exact hfresh n hn hmem

/-- The loop over the edges is their own checks, and that they are distinct pairs of different known
nodes. -/
theorem normalizeEdges_eq_ok_iff (index : ℕ) (before : List WorkflowEdge)
    (raws : List JsonValue) : normalizeEdges ids index before raws = .ok edges ↔
      (raws.mapIdx fun i => edgeEnds (index + i)) = edges.map .ok ∧ edges.Nodup ∧
        (∀ e ∈ edges, e ∉ before) ∧
        ∀ e ∈ edges, e.source ∈ ids ∧ e.target ∈ ids ∧ e.source ≠ e.target := by
  induction raws generalizing index before edges with
  | nil =>
      cases edges with
      | nil => simp [normalizeEdges]
      | cons edge edges => simp [normalizeEdges]
  | cons raw raws ih =>
      have hshift : (fun i => edgeEnds (index + (i + 1))) = fun i => edgeEnds (index + 1 + i) := by
        funext i
        rw [Nat.add_right_comm, Nat.add_assoc]
      rw [List.mapIdx_cons, hshift]
      cases edges with
      | nil =>
          refine iff_of_false (fun h => ?_) (by simp)
          simp only [normalizeEdges, bind_eq_ok, pure_eq_ok] at h
          obtain ⟨_, -, _, -, _, -, _, -, _, -, hcons⟩ := h
          cases hcons
      | cons edge edges =>
          simp only [normalizeEdges, bind_eq_ok, pure_eq_ok, raiseIf_eq_ok, List.map_cons,
            List.cons.injEq, Nat.add_zero, List.nodup_cons, List.forall_mem_cons, not_or, not_not]
          constructor
          · rintro ⟨e, hends, _, ⟨hsource, htarget⟩, _, hdiffer, _, hnew, rest, hrest, rfl, rfl⟩
            obtain ⟨hmap, hnodup, hfresh, hknown⟩ := (ih _ _).mp hrest
            refine ⟨⟨hends, hmap⟩, ⟨?_, hnodup⟩, ⟨hnew, fun e' he' hmem => ?_⟩,
              ⟨hsource, htarget, hdiffer⟩, hknown⟩
            · exact fun hmem => hfresh _ hmem List.mem_cons_self
            · exact hfresh e' he' (List.mem_cons_of_mem _ hmem)
          · rintro ⟨⟨hends, hmap⟩, ⟨hnot, hnodup⟩, ⟨hnew, hfresh⟩, ⟨hsource, htarget, hdiffer⟩,
              hknown⟩
            refine ⟨_, hends, (), ⟨hsource, htarget⟩, (), hdiffer, (), hnew, _,
              (ih _ _).mpr ⟨hmap, hnodup, ?_, hknown⟩, rfl, rfl⟩
            intro e he hmem
            rcases List.mem_cons.mp hmem with rfl | hmem
            · exact hnot he
            · exact hfresh e he hmem

@[simp] theorem edge_adjacency : Search.Edge (adjacency edges) = Leads edges := by
  funext a b
  simp only [Search.Edge, adjacency, Leads, eq_iff_iff, List.mem_map, List.mem_filter,
    decide_eq_true_eq]
  constructor
  · rintro ⟨e, ⟨he, rfl⟩, rfl⟩
    exact he
  · exact fun h => ⟨_, ⟨h, rfl⟩, rfl⟩

theorem edge_reverseAdjacency (hknown : ∀ e ∈ edges, e.source ∈ ids) :
    Search.Edge (reverseAdjacency ids edges) = Function.swap (Leads edges) := by
  have hedge : ∀ a b, b ∈ adjacency edges a ↔ Leads edges a b := fun a b => by
    rw [← edge_adjacency]
    rfl
  funext a b
  simp only [Search.Edge, reverseAdjacency, Function.swap, eq_iff_iff, List.mem_flatMap,
    List.mem_filterMap]
  constructor
  · rintro ⟨source, -, target, htarget, hsome⟩
    split at hsome
    · next hsame =>
        cases hsome
        rw [← hsame]
        exact (hedge _ _).mp htarget
    · cases hsome
  · exact fun h => ⟨b, hknown _ h, a, (hedge b a).mpr h, if_pos rfl⟩

theorem adjacency_ne_nil {a : String} (hknown : ∀ e ∈ edges, e.source ∈ ids)
    (h : adjacency edges a ≠ []) : a ∈ ids := by
  obtain ⟨b, hb⟩ := List.exists_mem_of_ne_nil _ h
  have hedge : Leads edges a b := by
    rw [← edge_adjacency]
    exact hb
  exact hknown _ hedge

theorem ensureAcyclic_eq_ok_iff (hknown : ∀ e ∈ edges, e.source ∈ ids) :
    ensureAcyclic ids edges = .ok () ↔ ∀ id, ¬ TransGen (Leads edges) id id := by
  have hsupport : ∀ a, adjacency edges a ≠ [] → a ∈ ids.toFinset := fun a ha =>
    List.mem_toFinset.mpr (adjacency_ne_nil hknown ha)
  have hframes : ids.toFinset.card < ids.length + 1 :=
    Nat.lt_succ_of_le (List.toFinset_card_le ids)
  have hvisit := @Search.exists_visitAll_iff _ _ _ ids _ _ hsupport hframes
  rw [edge_adjacency] at hvisit
  have hok : ensureAcyclic ids edges = .ok () ↔ ∃ marks', ids.foldlM
      (fun marks id => Search.visit (adjacency edges) (ids.length + 1) id marks)
      Search.Marks.none = .ok marks' := by
    rw [ensureAcyclic]
    cases ids.foldlM (fun marks id => Search.visit (adjacency edges) (ids.length + 1) id marks)
      Search.Marks.none <;> simp
  rw [hok, hvisit]
  constructor
  · intro h id hcycle
    obtain ⟨b, hedge, -⟩ := TransGen.head'_iff.mp hcycle
    exact h id (hknown _ hedge) ⟨id, .refl, hcycle⟩
  · rintro h id - ⟨b, -, hcycle⟩
    exact h b hcycle

theorem reachesAll_iff {succ : String → List String} {start : String} (hnodup : ids.Nodup)
    (hsource : ∀ a, succ a ≠ [] → a ∈ ids) (htarget : ∀ a b, b ∈ succ a → b ∈ ids)
    (hstart : start ∈ ids) : reachesAll ids succ start = true ↔
      ∀ id ∈ ids, ReflTransGen (Search.Edge succ) start id := by
  have hfuel : 1 + ∑ a ∈ ids.toFinset, (succ a).length ≤
      1 + (ids.map fun id => (succ id).length).sum := by
    rw [List.sum_toFinset _ hnodup]
  obtain ⟨result, hreach, hmem⟩ := Search.exists_reach
    (fun a ha => List.mem_toFinset.mpr (hsource a ha)) start hfuel
  have hsub : result ⊆ ids.toFinset := by
    intro a ha
    rw [List.mem_toFinset]
    cases (hmem a).mp ha with
    | refl => exact hstart
    | tail _ hedge => exact htarget _ a hedge
  rw [reachesAll, hreach, beq_iff_eq, ← List.toFinset_card_of_nodup hnodup]
  constructor
  · intro hcard id hid
    rw [← hmem, Finset.eq_of_subset_of_card_le hsub hcard.ge]
    exact List.mem_toFinset.mpr hid
  · intro hall
    refine congrArg Finset.card (Finset.Subset.antisymm hsub fun a ha => ?_)
    exact (hmem a).mpr (hall a (List.mem_toFinset.mp ha))

theorem find?_of_filter_length {type : WorkflowNodeType}
    (h : (nodes.filter fun n => n.type = type).length = 1) : ∃ t ∈ nodes, t.type = type ∧
      nodes.find? (fun n => n.type = type) = some t ∧ ∀ n ∈ nodes, n.type = type → n = t := by
  obtain ⟨t, ht⟩ := List.length_eq_one_iff.mp h
  have hmem : ∀ n, n ∈ nodes ∧ n.type = type ↔ n = t := fun n => by
    have hfilter : n ∈ nodes.filter (fun n => n.type = type) ↔ n ∈ [t] := by rw [ht]
    simpa using hfilter
  obtain ⟨hnode, htype⟩ := (hmem t).mpr rfl
  refine ⟨t, hnode, htype, ?_, fun n hn hsame => (hmem n).mp ⟨hn, hsame⟩⟩
  cases hfind : nodes.find? fun n => n.type = type with
  | none =>
      have hnone := List.find?_eq_none.mp hfind t hnode
      simp [htype] at hnone
  | some n =>
      have hn := List.mem_of_find?_eq_some hfind
      have hsame := List.find?_some hfind
      rw [(hmem n).mp ⟨hn, by simpa using hsame⟩]

theorem checkGraph_eq_ok_iff (hids : (nodes.map WorkflowNode.id).Nodup)
    (htrigger : (nodes.filter fun n => n.type = .trigger).length = 1)
    (hlast : (nodes.filter fun n => n.type = .end).length = 1)
    (hknown : ∀ e ∈ edges, e.source ∈ nodes.map WorkflowNode.id ∧
      e.target ∈ nodes.map WorkflowNode.id) :
    checkGraph lib nodes edges = .ok () ↔ (∀ id, ¬ TransGen (Leads edges) id id) ∧
      (∀ t ∈ nodes, t.type = .trigger → ∀ n ∈ nodes, ReflTransGen (Leads edges) t.id n.id) ∧
        ∀ e ∈ nodes, e.type = .end → ∀ n ∈ nodes, ReflTransGen (Leads edges) n.id e.id := by
  obtain ⟨t, ht, httype, htfind, htonly⟩ := find?_of_filter_length htrigger
  obtain ⟨e, he, hetype, hefind, heonly⟩ := find?_of_filter_length hlast
  have hperm := lib.setOrder_perm (nodes.map WorkflowNode.id)
  have hmem : ∀ id, id ∈ lib.setOrder (nodes.map WorkflowNode.id) ↔
      id ∈ nodes.map WorkflowNode.id := fun id => hperm.mem_iff
  unfold checkGraph
  generalize lib.setOrder (nodes.map WorkflowNode.id) = order at hperm hmem ⊢
  have hnodup : order.Nodup := hperm.nodup_iff.mpr hids
  have hsource : ∀ e ∈ edges, e.source ∈ order := fun e he => (hmem _).mpr (hknown e he).1
  have htarget : ∀ e ∈ edges, e.target ∈ order := fun e he => (hmem _).mpr (hknown e he).2
  have hall : ∀ P : String → Prop, (∀ id ∈ order, P id) ↔ ∀ n ∈ nodes, P n.id := fun P => by
    simp only [hmem, List.forall_mem_map]
  have hforward : reachesAll order (adjacency edges) t.id = true ↔
      ∀ n ∈ nodes, ReflTransGen (Leads edges) t.id n.id := by
    rw [reachesAll_iff hnodup (fun a ha => adjacency_ne_nil hsource ha) ?_
      ((hmem _).mpr (List.mem_map_of_mem ht)), edge_adjacency, hall]
    intro a b hb
    have hedge : Search.Edge (adjacency edges) a b := hb
    rw [edge_adjacency] at hedge
    exact htarget _ hedge
  have hreverse := @edge_reverseAdjacency _ order hsource
  have hback : reachesAll order (reverseAdjacency order edges) e.id = true ↔
      ∀ n ∈ nodes, ReflTransGen (Leads edges) n.id e.id := by
    have hedge : ∀ a b, b ∈ reverseAdjacency order edges a → Leads edges b a := by
      intro a b hb
      have hb : Search.Edge (reverseAdjacency order edges) a b := hb
      rwa [hreverse] at hb
    rw [reachesAll_iff hnodup ?_ ?_ ((hmem _).mpr (List.mem_map_of_mem he)), hreverse, hall]
    · simp only [reflTransGen_swap]
    · intro a ha
      obtain ⟨b, hb⟩ := List.exists_mem_of_ne_nil _ ha
      exact htarget _ (hedge a b hb)
    · exact fun a b hb => hsource _ (hedge a b hb)
  have hforall : ∀ {type : WorkflowNodeType} {m : WorkflowNode} {P : WorkflowNode → Prop},
      m ∈ nodes → m.type = type → (∀ n ∈ nodes, n.type = type → n = m) →
        ((∀ n ∈ nodes, n.type = type → P n) ↔ P m) := by
    intro type m P hm hmtype honly
    refine ⟨fun h => h m hm hmtype, fun h n hn hntype => ?_⟩
    rwa [honly n hn hntype]
  rw [hforall ht httype htonly, hforall he hetype heonly, ← hforward, ← hback,
    ← ensureAcyclic_eq_ok_iff hsource]
  have hunit : ∀ x : Except WorkflowDesignError Unit, (∃ u, x = .ok u) ↔ x = .ok () :=
    fun x => ⟨fun ⟨_, h⟩ => h, fun h => ⟨(), h⟩⟩
  simp [htfind, hefind, bind_eq_ok, hunit]

theorem map_ok_injective {α : Type} {xs ys : List α}
    (h : xs.map (Except.ok : α → Except WorkflowDesignError α) = ys.map .ok) : xs = ys :=
  List.map_injective_iff.mpr (fun _ _ => Except.ok.inj) h

theorem normalizeWorkflowDesign_eq_ok_iff {payload : JsonValue} {design : WorkflowDesign} :
    normalizeWorkflowDesign lib payload = .ok design ↔
      Passes lib payload design.nodes design.edges ∧ Coherent design.nodes design.edges := by
  have hnodes : ∀ raws nodes, normalizeNodes lib 0 [] raws = .ok nodes ↔
      raws.mapIdx (nodeOf lib) = nodes.map .ok ∧ (nodes.map WorkflowNode.id).Nodup := by
    intro raws nodes
    have h := @normalizeNodes_eq_ok_iff lib nodes 0 [] raws
    simpa using h
  have hedges : ∀ ids raws edges, normalizeEdges ids 0 [] raws = .ok edges ↔
      raws.mapIdx edgeEnds = edges.map .ok ∧ edges.Nodup ∧
        ∀ e ∈ edges, e.source ∈ ids ∧ e.target ∈ ids ∧ e.source ≠ e.target := by
    intro ids raws edges
    have h := @normalizeEdges_eq_ok_iff edges ids 0 [] raws
    simpa using h
  simp only [normalizeWorkflowDesign, bind_eq_ok, pure_eq_ok, raiseIf_eq_ok, not_not, hnodes,
    hedges]
  constructor
  · rintro ⟨⟨rawNodes, rawEdges⟩, harrays, nodes, ⟨hmap, hids⟩, _, htrigger, _, hlast, edges,
      ⟨hmap', hpairs, hknown⟩, _, hgraph, rfl⟩
    rw [checkGraph_eq_ok_iff hids htrigger hlast fun e he => ⟨(hknown e he).1, (hknown e he).2.1⟩]
      at hgraph
    exact ⟨⟨rawNodes, rawEdges, harrays, hmap, hmap'⟩,
      ⟨hids, htrigger, hlast, hpairs, hknown, hgraph.1, hgraph.2.1, hgraph.2.2⟩⟩
  · rintro ⟨⟨rawNodes, rawEdges, harrays, hmap, hmap'⟩, h⟩
    refine ⟨_, harrays, _, ⟨hmap, h.ids⟩, (), h.trigger, (), h.last, _,
      ⟨hmap', h.pairs, h.known⟩, (), ?_, rfl⟩
    rw [checkGraph_eq_ok_iff h.ids h.trigger h.last fun e he =>
      ⟨(h.known e he).1, (h.known e he).2.1⟩]
    exact ⟨h.acyclic, h.reachable, h.leads⟩

theorem Passes.unique {payload : JsonValue} {nodes' : List WorkflowNode}
    {edges' : List WorkflowEdge} (h : Passes lib payload nodes edges)
    (h' : Passes lib payload nodes' edges') : nodes = nodes' ∧ edges = edges' := by
  obtain ⟨rawNodes, rawEdges, harrays, hnodes, hedges⟩ := h
  obtain ⟨rawNodes', rawEdges', harrays', hnodes', hedges'⟩ := h'
  rw [harrays] at harrays'
  cases harrays'
  exact ⟨map_ok_injective (hnodes.symm.trans hnodes'), map_ok_injective (hedges.symm.trans hedges')⟩

/-- A payload whose parts pass their own checks is accepted exactly if its graph is coherent, and
then with its nodes and edges in their order. -/
theorem normalizeWorkflowDesign_iff_coherent {payload : JsonValue}
    (h : Passes lib payload nodes edges) (design : WorkflowDesign) :
    normalizeWorkflowDesign lib payload = .ok design ↔
      Coherent nodes edges ∧ design = ⟨nodes, edges⟩ := by
  rw [normalizeWorkflowDesign_eq_ok_iff]
  constructor
  · rintro ⟨hpasses, hcoherent⟩
    obtain ⟨rfl, rfl⟩ := h.unique hpasses
    exact ⟨hcoherent, rfl⟩
  · rintro ⟨hcoherent, rfl⟩
    exact ⟨h, hcoherent⟩

section Example

def exampleLibrary : Library where
  words := .known
  setOrder ids := ids
  setOrder_perm _ := .refl _

def exampleNode (id type label : String) : JsonValue :=
  .object [("id", .text id), ("type", .text type), ("label", .text label)]

/-- A trigger that leads to the end. -/
def examplePayload : JsonValue :=
  .object [("format", .text "wait-local-agent.workflow-design"), ("version", .int 1),
    ("nodes", .array [exampleNode "trigger" "trigger" "Ticket", exampleNode "end" "end" "Done"]),
    ("edges", .array [.object [("from", .text "trigger"), ("to", .text "end")]])]

def exampleDesign : WorkflowDesign where
  nodes := [⟨"trigger", .trigger, "Ticket", none, []⟩, ⟨"end", .end, "Done", none, []⟩]
  edges := [⟨"trigger", "end"⟩]

theorem passes_example :
    Passes exampleLibrary examplePayload exampleDesign.nodes exampleDesign.edges :=
  ⟨_, _, rfl, rfl, rfl⟩

theorem coherent_example : normalizeWorkflowDesign exampleLibrary examplePayload =
    .ok exampleDesign ∧ Coherent exampleDesign.nodes exampleDesign.edges := by
  have hnormalized : normalizeWorkflowDesign exampleLibrary examplePayload =
      .ok exampleDesign := rfl
  exact ⟨hnormalized,
    ((normalizeWorkflowDesign_iff_coherent passes_example exampleDesign).mp hnormalized).1⟩

end Example

end WaitLocalAgent.WorkflowDesigner
