import WaitLocalAgent.Foundation.Program
import WaitLocalAgent.Foundation.Table
import WaitLocalAgent.Model.AgentPlatform
import WaitLocalAgent.Foundation.BestPerKey

/-! # Agent memory

The table of memories with its unique active rows, and `MemoryService` statement by statement: a
call reads what it is based on, and writes it in a transaction later. -/

namespace WaitLocalAgent.AgentMemory

open Foundation JsonValue Redaction AgentPlatform

/-! ## Table -/

inductive MemoryScope where
  | client
  | agent
  | technician
  | ticket
  deriving DecidableEq, Repr

/-- What the versions of a memory share. -/
structure Slot where
  clientId : String
  scopeType : MemoryScope
  scopeId : String
  key : String
  deriving DecidableEq, Repr

inductive MemoryStatus where
  | active
  | superseded
  | deleted
  deriving DecidableEq, Repr

/-- A row of `agent_memories`. -/
structure Memory where
  id : String
  slot : Slot
  valueJson : String
  summary : String
  provenance : String
  pinned : Bool
  status : MemoryStatus
  version : ℕ
  supersedesId : Option String
  expiresAt : Option String
  createdBy : String
  createdAt : String
  updatedAt : String
  deriving DecidableEq, Repr

def UniqueActive (rows : Table Memory.id) : Prop :=
  ∀ r ∈ rows, ∀ q ∈ rows, r.status = .active → q.status = .active → r.slot = q.slot → r = q

/-- The rows, under `ux_agent_memories_active`. -/
structure Memories where
  rows : Table Memory.id
  unique : UniqueActive rows

namespace Memories

def empty : Memories := ⟨.empty, fun _ hr => absurd hr (Table.not_mem_empty _)⟩

/-- An update that keeps the slots and makes no row active. -/
def update (s : Memories) (p : Memory → Bool) (f : Memory → Memory) (hid : ∀ r, (f r).id = r.id)
    (hslot : ∀ r, (f r).slot = r.slot)
    (hactive : ∀ r, (f r).status = .active → r.status = .active) : Memories where
  rows := s.rows.update p f hid
  unique := by
    intro r hr q hq hract hqact hsame
    obtain ⟨r', hr', rfl⟩ := Table.mem_update.mp hr
    obtain ⟨q', hq', rfl⟩ := Table.mem_update.mp hq
    have hkeep : ∀ x : Memory, (if p x then f x else x).slot = x.slot ∧
        ((if p x then f x else x).status = .active → x.status = .active) := by
      intro x
      split
      · exact ⟨hslot x, hactive x⟩
      · exact ⟨rfl, id⟩
    have hsame' : r' = q' := s.unique r' hr' q' hq' ((hkeep r').2 hract) ((hkeep q').2 hqact)
      (by rw [← (hkeep r').1, ← (hkeep q').1, hsame])
    rw [hsame']

/-- The insertion of an active row, or no answer where a constraint fails. -/
def insert? (s : Memories) (row : Memory) : Option Memories :=
  if h : (∀ r ∈ s.rows, r.id ≠ row.id) ∧
      ∀ r ∈ s.rows, r.status = .active → r.slot ≠ row.slot then
    some {
      rows := s.rows.insert row h.1
      unique := by
        intro r hr q hq hract hqact hsame
        rcases Table.mem_insert.mp hr with hold | rfl
        · rcases Table.mem_insert.mp hq with hold' | rfl
          · exact s.unique r hold q hold' hract hqact hsame
          · exact absurd hsame (h.2 r hold hract)
        · rcases Table.mem_insert.mp hq with hold' | rfl
          · exact absurd hsame.symm (h.2 q hold' hqact)
          · rfl }
  else none

/-- `order by version desc, created_at desc`, of the best row so far and another one. -/
def newest (best : Option Memory) (r : Memory) : Option Memory :=
  match best with
  | none => some r
  | some b =>
      if b.version < r.version ∨ b.version = r.version ∧ b.createdAt < r.createdAt then some r
      else some b

def ofSlot (s : Memories) (slot : Slot) : List Memory :=
  s.rows.rows.filter fun r => r.slot = slot

def latest? (s : Memories) (slot : Slot) : Option Memory := (s.ofSlot slot).foldl newest none

def active? (s : Memories) (slot : Slot) : Option Memory :=
  s.rows.rows.find? fun r => r.slot = slot ∧ r.status = .active

/-- `select * from agent_memories where id = ? and client_id = ?`, with or without history. -/
def select (s : Memories) (clientId memoryId : String) (includeHistory : Bool) : Option Memory :=
  (s.rows.find? memoryId).filter fun r =>
    r.slot.clientId == clientId && (includeHistory || r.status == .active)

/-- The old version becomes superseded. -/
def supersede (s : Memories) (superseded : Option String) (clientId now : String) : Memories :=
  s.update
    (fun r => superseded == some r.id && r.slot.clientId == clientId && r.status == .active)
    (fun r => { r with status := .superseded, updatedAt := now }) (fun _ => rfl) (fun _ => rfl)
    fun _ h => nomatch (show MemoryStatus.superseded = .active from h)

def put? (s : Memories) (superseded : Option String) (row : Memory) : Option Memories :=
  (s.supersede superseded row.slot.clientId row.updatedAt).insert? row

def pin (s : Memories) (clientId memoryId : String) (pinned : Bool) (now : String) : Memories :=
  s.update (fun r => r.id == memoryId && r.slot.clientId == clientId)
    (fun r => { r with pinned, updatedAt := now }) (fun _ => rfl) (fun _ => rfl) fun _ h => h

def delete (s : Memories) (clientId memoryId : String) (now : String) : Memories :=
  s.update (fun r => r.id == memoryId && r.slot.clientId == clientId && r.status == .active)
    (fun r => { r with status := .deleted, pinned := false, updatedAt := now })
    (fun _ => rfl) (fun _ => rfl) fun _ h => nomatch (show MemoryStatus.deleted = .active from h)

end Memories

/-! ## Statements -/

inductive MemoryAction where
  | select (clientId memoryId : String) (includeHistory : Bool)
  | latest (slot : Slot)
  | active (slot : Slot)
  | put (superseded : Option String) (row : Memory)
  | pin (clientId memoryId : String) (pinned : Bool) (now : String)
  | delete (clientId memoryId : String) (now : String)

abbrev MemoryAction.Answer : MemoryAction → Type
  | .select _ _ _ => Option Memory
  | .latest _ => Option (String × ℕ)
  | .active _ => Option String
  | .put _ _ => Except PlatformError Unit
  | .pin _ _ _ _ | .delete _ _ _ => Unit

def MemoryAction.answer : (a : MemoryAction) → Memories → Unit → a.Answer × Memories
  | .select clientId memoryId includeHistory, s, _ =>
      (s.select clientId memoryId includeHistory, s)
  | .latest slot, s, _ => ((s.latest? slot).map fun r => (r.id, r.version), s)
  | .active slot, s, _ => ((s.active? slot).map Memory.id, s)
  | .put superseded row, s, _ =>
      match s.put? superseded row with
      | some s' => (.ok (), s')
      | none => (.error (.conflict "memory was updated concurrently"), s)
  | .pin clientId memoryId pinned now, s, _ => ((), s.pin clientId memoryId pinned now)
  | .delete clientId memoryId now, s, _ => ((), s.delete clientId memoryId now)

abbrev MemoryProgram := ExceptT PlatformError (Program MemoryAction MemoryAction.Answer)

def ask (a : MemoryAction) : MemoryProgram a.Answer := ExceptT.lift (Program.perform a)

def write (superseded : Option String) (row : Memory) : MemoryProgram Unit :=
  ExceptT.mk (Program.perform (MemoryAction.put superseded row))

def check {α : Type} (x : Except PlatformError α) : MemoryProgram α := ExceptT.mk (pure x)

/-! ## Calls -/

/-- The arguments of `put`. -/
structure PutRequest where
  clientId : String
  scopeType : MemoryScope
  scopeId : String
  key : String
  value : JsonValue
  summary : String
  provenance : String
  actor : Option String
  pinned : Bool
  expiresAt : Option String

/-- What a put writes, but for its version. -/
structure MemoryContent where
  slot : Slot
  valueJson : String
  summary : String
  provenance : String
  pinned : Bool
  expiresAt : Option String
  createdBy : String

def memoryScope (clientId : String) (scopeType : MemoryScope) (id : String) :
    Except PlatformError String :=
  if scopeType = .client then .ok clientId else validateIdentifier id "scope_id"

def PutRequest.content (lib : Library) (request : PutRequest) :
    Except PlatformError MemoryContent := do
  let clientId ← requireClient lib request.clientId
  let scopeId ← memoryScope clientId request.scopeType request.scopeId
  let key ← validateKey request.key "memory key"
  let value ← safeJsonValue lib (redactValue lib.words request.value) 32768
  let summary ← validateText request.summary "summary" 0 1000 true
  let provenance ← validateText request.provenance "provenance" 1 1000 true
  let expiresAt ← parseIsoTimestamp lib request.expiresAt "expires_at"
  return {
    slot := ⟨clientId, request.scopeType, scopeId, key⟩
    valueJson := jsonDumps value
    summary := redactText lib.words summary
    provenance := redactText lib.words provenance
    pinned := request.pinned
    expiresAt
    createdBy := actorIdentifier request.actor }

/-- The version that follows the newest one. -/
def MemoryContent.row (content : MemoryContent) (latest : Option (String × ℕ)) (id now : String) :
    Memory where
  id
  slot := content.slot
  valueJson := content.valueJson
  summary := content.summary
  provenance := content.provenance
  pinned := content.pinned
  status := .active
  version := (latest.map fun l => l.2 + 1).getD 1
  supersedesId := latest.map Prod.fst
  expiresAt := content.expiresAt
  createdBy := content.createdBy
  createdAt := now
  updatedAt := now

def get (lib : Library) (clientId memoryId : String) (includeHistory : Bool) :
    MemoryProgram Memory := do
  let clientId ← check (requireClient lib clientId)
  let memoryId ← check (validateIdentifier memoryId "memory_id")
  match ← ask (.select clientId memoryId includeHistory) with
  | some row => return row
  | none => throw (.notFound "memory was not found")

/-- `MemoryService.put`, with the id and the time that it draws. -/
def put (lib : Library) (request : PutRequest) (id now : String) : MemoryProgram Memory := do
  let content ← check (request.content lib)
  let latest ← ask (.latest content.slot)
  let active ← ask (.active content.slot)
  write active (content.row latest id now)
  get lib content.slot.clientId id true

def pin (lib : Library) (clientId memoryId : String) (pinned : Bool) (now : String) :
    MemoryProgram Memory := do
  let record ← get lib clientId memoryId false
  ask (.pin record.slot.clientId record.id pinned now)
  get lib record.slot.clientId record.id false

def Memory.value (lib : Library) (row : Memory) : JsonValue :=
  if "\x7b".toList.isPrefixOf row.valueJson.toList then
    .object (jsonLoadsObject lib row.valueJson)
  else (loads? lib.floats.repr row.valueJson).getD .null

def restore (lib : Library) (clientId memoryId : String) (actor : Option String)
    (id now : String) : MemoryProgram Memory := do
  let historic ← get lib clientId memoryId true
  if historic.status = .active then
    throw (.conflict "memory is already the active revision")
  else
    put lib {
      clientId := historic.slot.clientId
      scopeType := historic.slot.scopeType
      scopeId := historic.slot.scopeId
      key := historic.slot.key
      value := historic.value lib
      summary := historic.summary
      provenance := s!"restored:{historic.id}"
      actor
      pinned := historic.pinned
      expiresAt := historic.expiresAt } id now

def delete (lib : Library) (clientId memoryId : String) (now : String) :
    MemoryProgram Memory := do
  let record ← get lib clientId memoryId false
  ask (.delete record.slot.clientId record.id now)
  get lib record.slot.clientId record.id true

inductive MemoryCall where
  | put (request : PutRequest) (id now : String)
  | pin (clientId memoryId : String) (pinned : Bool) (now : String)
  | restore (clientId memoryId : String) (actor : Option String) (id now : String)
  | delete (clientId memoryId : String) (now : String)

def MemoryCall.program (lib : Library) : MemoryCall → MemoryProgram Memory
  | put request id now => AgentMemory.put lib request id now
  | pin clientId memoryId pinned now => AgentMemory.pin lib clientId memoryId pinned now
  | restore clientId memoryId actor id now => AgentMemory.restore lib clientId memoryId actor id now
  | delete clientId memoryId now => AgentMemory.delete lib clientId memoryId now

abbrev MemoryPool (W : Type) :=
  Program.Pool W MemoryCall Memories MemoryAction MemoryAction.Answer
    (Except PlatformError Memory)

/-- Any interleaving of calls, from an empty table. -/
def memoryCalls (W : Type) [DecidableEq W] (lib : Library) :
    Machine (MemoryPool W) (Program.PoolStep W MemoryCall Unit) :=
  Program.pool MemoryAction.answer (fun call => (call.program lib).run) .empty

end WaitLocalAgent.AgentMemory

/-! ## Memory context

What `MemoryService.resolve_context` gives an agent of the memories that are stored. -/

namespace WaitLocalAgent.AgentMemory

open Foundation AgentPlatform

def MemoryScope.order : MemoryScope → ℕ
  | .client => 0
  | .technician => 1
  | .agent => 2
  | .ticket => 3

def MemoryScope.name : MemoryScope → String
  | .client => "client"
  | .technician => "technician"
  | .agent => "agent"
  | .ticket => "ticket"

def maxContextMemories : ℤ := 50

/-! ### The statement -/

/-- The rows of `where client_id = ? and status = 'active' and …`. -/
def Memories.eligible (s : Memories) (clientId now : String)
    (scopes : List (MemoryScope × String)) : List Memory :=
  s.rows.rows.filter fun r =>
    r.slot.clientId == clientId && r.status == .active &&
      (r.expiresAt.all fun expiry => decide (now < expiry)) &&
      scopes.contains (r.slot.scopeType, r.slot.scopeId)

/-- What the statement orders by, all of it descending. -/
def Memory.fetchRank (r : Memory) : ℕ ×ₗ String ×ₗ ℕ :=
  toLex (r.pinned.toNat, toLex (r.updatedAt, r.version))

/-- `order by pinned desc, updated_at desc, version desc`, with whatever order SQLite gives to rows
that tie. -/
structure FetchOrder where
  sort : List Memory → List Memory
  perm : ∀ rows, (sort rows).Perm rows
  sorted : ∀ rows, (sort rows).Pairwise fun a b => b.fetchRank ≤ a.fetchRank

/-- The order in which rows that tie stay as they were. -/
def FetchOrder.stable : FetchOrder where
  sort rows := rows.mergeSort fun a b => decide (b.fetchRank ≤ a.fetchRank)
  perm rows := List.mergeSort_perm rows _
  sorted rows := by
    have hsorted : (rows.mergeSort fun a b => decide (b.fetchRank ≤ a.fetchRank)).Pairwise
        fun a b => decide (b.fetchRank ≤ a.fetchRank) = true :=
      List.pairwise_mergeSort
        (fun a b c hab hbc => by
          simp only [decide_eq_true_eq] at hab hbc ⊢
          exact hbc.trans hab)
        (fun a b => by simpa using le_total b.fetchRank a.fetchRank) rows
    simpa using hsorted

def fetchLimit : ℕ := 200

def FetchOrder.fetch (order : FetchOrder) (rows : List Memory) : List Memory :=
  (order.sort rows).take fetchLimit

/-! ### The selection -/

/-- The key by which the fetched records are sorted, in reverse. -/
def rank (scopeType : MemoryScope) (pinned : Bool) (updatedAt : String) : ℕ ×ₗ ℕ ×ₗ String :=
  toLex (scopeType.order, toLex (pinned.toNat, updatedAt))

def Memory.rank (r : Memory) : ℕ ×ₗ ℕ ×ₗ String :=
  AgentMemory.rank r.slot.scopeType r.pinned r.updatedAt

/-- `records.sort(key=…, reverse=True)`, which is stable. -/
def sortRecords (records : List Memory) : List Memory :=
  records.mergeSort fun a b => decide (b.rank ≤ a.rank)

/-- What the context says of a record. -/
structure ContextMemory where
  id : String
  key : String
  value : JsonValue
  summary : String
  scopeType : MemoryScope
  scopeId : String
  pinned : Bool
  version : ℕ
  provenance : String
  updatedAt : String

def Memory.context (lib : Library) (r : Memory) : ContextMemory where
  id := r.id
  key := r.slot.key
  value := r.value lib
  summary := r.summary
  scopeType := r.slot.scopeType
  scopeId := r.slot.scopeId
  pinned := r.pinned
  version := r.version
  provenance := r.provenance
  updatedAt := r.updatedAt

/-- The arguments of `resolve_context`. -/
structure ContextRequest where
  clientId : String
  agentId : Option String := none
  technicianId : Option String := none
  ticketId : Option String := none
  limit : ℤ := 20

/-- One round of the loop over the scopes that may be given. -/
def namedScope (scope : MemoryScope) :
    Option String → Except PlatformError (List (MemoryScope × String))
  | none => .ok []
  | some raw => do return [(scope, ← validateIdentifier raw s!"{scope.name}_id")]

/-- The checks of the arguments, with the client and the scopes that they name. -/
def ContextRequest.resolved (lib : Library) (request : ContextRequest) :
    Except PlatformError (String × List (MemoryScope × String)) := do
  let clientId ← requireClient lib request.clientId
  raiseIf (¬ (1 ≤ request.limit ∧ request.limit ≤ maxContextMemories))
    (.invalid s!"limit must be an integer between 1 and {maxContextMemories}")
  let technician ← namedScope .technician request.technicianId
  let agent ← namedScope .agent request.agentId
  let ticket ← namedScope .ticket request.ticketId
  return (clientId, (.client, clientId) :: (technician ++ agent ++ ticket))

/-- `MemoryService.resolve_context`, at the time `now`. The loop that calls `setdefault` and breaks
is `firstPerKey`. -/
def resolveContext (lib : Library) (order : FetchOrder) (s : Memories) (request : ContextRequest)
    (now : String) : Except PlatformError (List ContextMemory) := do
  let (clientId, scopes) ← request.resolved lib
  let records := sortRecords (order.fetch (s.eligible clientId now scopes))
  return (firstPerKey (fun r => r.slot.key) request.limit.toNat [] records).map
    (Memory.context lib)

end WaitLocalAgent.AgentMemory
