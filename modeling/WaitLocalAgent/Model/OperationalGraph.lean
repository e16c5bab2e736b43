import WaitLocalAgent.Foundation.Sorted
import WaitLocalAgent.Foundation.Table
import WaitLocalAgent.Model.ClientScope

/-! # The operational graph

The references of a client's devices, users and tickets, the links between them, and the bounded
views that are read of them. -/

namespace WaitLocalAgent.OperationalGraph

open Foundation

/-- A row of `external_entity_refs`. -/
structure EntityRef where
  id : ℤ
  clientId : ClientId
  entityType : String
  sourceSystem : String
  externalId : String
  displayName : String
  deriving DecidableEq

/-- A row of `entity_links`. -/
structure EntityLink where
  id : ℤ
  clientId : ClientId
  fromRefId : ℤ
  toRefId : ℤ
  linkType : String
  provenance : String
  deriving DecidableEq

structure GraphStore where
  externalEntityRefs : Table EntityRef.id
  entityLinks : Table EntityLink.id

def clientScopePredicate : Option ScopeArgument → Except String (Option ClientId → Bool)
  | none => .error "client scope is required"
  | some scope => scope.admits

namespace GraphStore

def getEntityRef (s : GraphStore) (scope : Option ScopeArgument) (refId : ℤ) :
    Except String (Option EntityRef) := do
  let admits ← clientScopePredicate scope
  return s.externalEntityRefs.rows.find? fun ref => ref.id = refId && admits (some ref.clientId)

def listEntityLinks (s : GraphStore) (scope : Option ScopeArgument) (refId : ℤ) :
    Except String (List EntityLink) := do
  let admits ← clientScopePredicate scope
  -- the inner join with `external_entity_refs`, on one end of a link
  let joined := fun (end_ : ℤ) => s.externalEntityRefs.rows.any fun ref =>
    ref.id = end_ && admits (some ref.clientId)
  let rows := s.entityLinks.rows.filter fun link =>
    admits (some link.clientId) && joined link.fromRefId && joined link.toRefId &&
      (link.fromRefId = refId || link.toRefId = refId)
  return rows.insertionSort fun link other => link.id ≤ other.id

def neighbors (s : GraphStore) (scope : Option ScopeArgument) (refId : ℤ) :
    Except String (List (EntityLink × EntityRef)) := do
  let links ← s.listEntityLinks scope refId
  let found ← links.mapM fun link => do
    let neighborId := if link.fromRefId = refId then link.toRefId else link.fromRefId
    let neighbor ← s.getEntityRef scope neighborId
    return neighbor.map fun neighbor => (link, neighbor)
  return found.reduceOption

end GraphStore

def hardMaxDepth : ℤ := 5

def hardMaxNodes : ℤ := 200

structure SubGraph where
  refs : List EntityRef
  links : List EntityLink
  deriving DecidableEq

/-- What `subgraph` has found. The values of its dictionaries know their keys. -/
structure Traversal where
  refsById : Table EntityRef.id
  linksById : Table EntityLink.id
  nextFrontier : List ℤ

/-- `links_by_id[link.id] = link`. -/
def Traversal.withLink (t : Traversal) (link : EntityLink) : Traversal :=
  let set := fun row : EntityLink => { link with id := row.id }
  { t with linksById := t.linksById.upsert link set fun _ => rfl }

def Traversal.follow (effectiveNodes : ℤ) (t : Traversal) (step : EntityLink × EntityRef) :
    Traversal :=
  match t.refsById.insert? step.2 with
  | none => t.withLink step.1
  | some refsById =>
      if effectiveNodes ≤ t.refsById.rows.length then t
      else { t with
        refsById
        nextFrontier := t.nextFrontier ++ [step.2.id] }.withLink step.1

/-- The rounds over what is next to one reference of the frontier. -/
def GraphStore.expand (s : GraphStore) (scope : Option ScopeArgument) (effectiveNodes : ℤ)
    (t : Traversal) (refId : ℤ) : Except String Traversal := do
  let neighbors ← s.neighbors scope refId
  return neighbors.foldl (Traversal.follow effectiveNodes) t

/-- The rounds of the outer loop; the frontier is what the round before left. -/
def GraphStore.levels (s : GraphStore) (scope : Option ScopeArgument) (effectiveNodes : ℤ) :
    ℕ → Traversal → Except String Traversal
  | 0, t => .ok t
  | depth + 1, t =>
      if t.nextFrontier.isEmpty || effectiveNodes ≤ t.refsById.rows.length then .ok t
      else do
        let t ← t.nextFrontier.foldlM (s.expand scope effectiveNodes) { t with nextFrontier := [] }
        s.levels scope effectiveNodes depth t

def GraphStore.subgraph (s : GraphStore) (scope : Option ScopeArgument)
    (rootRefId maxDepth maxNodes : ℤ) : Except String SubGraph := do
  if maxDepth < 0 then throw "max_depth must be a non-negative integer"
  if maxNodes < 1 then throw "max_nodes must be a positive integer"
  let effectiveDepth := min maxDepth hardMaxDepth
  let effectiveNodes := min maxNodes hardMaxNodes
  match ← s.getEntityRef scope rootRefId with
  | none => return ⟨[], []⟩
  | some root =>
      let found ← s.levels scope effectiveNodes effectiveDepth.toNat
        ⟨.singleton root, .empty, [root.id]⟩
      return ⟨found.refsById.rows,
        found.linksById.rows.insertionSort fun link other => link.id ≤ other.id⟩

end WaitLocalAgent.OperationalGraph
