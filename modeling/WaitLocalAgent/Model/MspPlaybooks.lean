import WaitLocalAgent.Model.TemplateGallery

/-! # MSP playbooks

Creating, updating and restoring playbook entries, as programs over the reads and the transactions
of the store. What the columns hold is left open, as for the gallery. -/

namespace WaitLocalAgent.Shelves

open Foundation Approvals

/-- Ids as they are stored. -/
class StoredId (I : Type) where
  text : I → String

instance : StoredId String := ⟨id⟩

/-- The columns of an entry that a revision keeps. -/
structure PlaybookContent (D : Type) where
  definitionJson : D
  provenance : String
  enabled : Bool
  deriving DecidableEq

structure MspPlaybookEntry (I D : Type) where
  id : I
  sourcePlaybookId : String
  definitionJson : D
  provenance : String
  enabled : Bool
  version : ℕ
  createdAt : String
  updatedAt : String
  clientId : Option ClientId

structure MspPlaybookRevision (S : Type) where
  id : ℕ
  playbookId : String
  version : ℕ
  snapshotJson : S
  createdAt : String
  clientId : Option ClientId

variable {I A D S : Type}

def MspPlaybookEntry.content (entry : MspPlaybookEntry I D) : PlaybookContent D where
  definitionJson := entry.definitionJson
  provenance := entry.provenance
  enabled := entry.enabled

/-- What the store makes of the definitions that it is given and of what it has stored. -/
structure PlaybookFormat (A D S : Type) where
  redactText : String → String
  definitionJson : A → D
  mspPlaybookSnapshotJson : PlaybookContent D → S
  redactDefinitionJson : D → D
  redactSnapshotJson : S → S

section Rows

variable (format : PlaybookFormat A D S)

def playbookEntryFromRow (row : MspPlaybookEntry I D) : MspPlaybookEntry I D :=
  { row with
    definitionJson := format.redactDefinitionJson row.definitionJson
    provenance := format.redactText row.provenance }

def playbookRevisionFromRow (row : MspPlaybookRevision S) : MspPlaybookRevision S :=
  { row with snapshotJson := format.redactSnapshotJson row.snapshotJson }

/-- The row of `_insert_msp_playbook_revision`. -/
def playbookRevision (playbookId : String) (version : ℕ) (content : PlaybookContent D)
    (createdAt : String) (clientId : Option ClientId) (id : ℕ) : MspPlaybookRevision S where
  id := id
  playbookId := playbookId
  version := version
  snapshotJson := format.mspPlaybookSnapshotJson content
  createdAt := createdAt
  clientId := clientId

/-- `update msp_playbook_entries set …`. -/
def PlaybookContent.assign (content : PlaybookContent D) (version : ℕ) (now : String)
    (entry : MspPlaybookEntry I D) : MspPlaybookEntry I D :=
  { entry with
    definitionJson := content.definitionJson, provenance := content.provenance
    enabled := content.enabled, version := version, updatedAt := now }

variable [StoredId I]

def playbookColumns (I D S : Type) [StoredId I] :
    Columns (MspPlaybookEntry I D) (MspPlaybookRevision S) where
  id e := StoredId.text e.id
  version := MspPlaybookEntry.version
  clientId := MspPlaybookEntry.clientId
  revisionId := MspPlaybookRevision.id
  entryId := MspPlaybookRevision.playbookId
  revisionVersion := MspPlaybookRevision.version

abbrev Playbooks (I D S : Type) [StoredId I] := Shelf (playbookColumns I D S)

/-- The transactions of `create_msp_playbook_entry` and `update_msp_playbook_entry`. -/
def commitPlaybook : ShelfWrite (MspPlaybookEntry I D) (PlaybookContent D) → Playbooks I D S →
    Except ShelfError (Playbooks I D S)
  | .create entry, s =>
      s.insertEntry { entry with version := 1 }
        (playbookRevision format (StoredId.text entry.id) 1 entry.content entry.createdAt
          entry.clientId)
        (fun _ => rfl)
        { eventType := "msp.playbook_entry.created", subjectId := StoredId.text entry.id
          message := s!"source {entry.sourcePlaybookId} added as MSP playbook version 1"
          clientId := entry.clientId }
  | .update entryId existing next now, s =>
      let version := existing.version + 1
      s.updateEntry entryId (next.assign version now) (fun _ => rfl)
        (playbookRevision format entryId version next now existing.clientId)
        (fun _ => rfl)
        { eventType := "msp.playbook_entry.updated", subjectId := entryId
          message := s!"MSP playbook updated to version {version}"
          clientId := existing.clientId }

def playbookKind : ShelfKind (playbookColumns I D S) (PlaybookContent D) where
  entryFromRow := playbookEntryFromRow format
  revisionFromRow := playbookRevisionFromRow format
  commit := commitPlaybook format

end Rows

abbrev PlaybookCall (I D S : Type) :=
  ShelfCall (MspPlaybookEntry I D) (MspPlaybookRevision S) (PlaybookContent D)

def getMspPlaybookEntry (id : String) (clientId : Option String) :
    PlaybookCall I D S (Option (MspPlaybookEntry I D)) :=
  readEntry id (withinScope (normalizeClientId clientId))

/-- The closing read of both calls. -/
def readBackPlaybook (id : String) (clientId : Option ClientId) :
    PlaybookCall I D S (MspPlaybookEntry I D) := do
  match ← getMspPlaybookEntry id (clientId.map Subtype.val) with
  | some entry => return entry
  | none => throw (.runtimeError "MSP playbook entry was not persisted")

/-- The arguments of `create_msp_playbook_entry`. -/
structure PlaybookRequest (A : Type) where
  sourcePlaybookId : String
  definition : A
  provenance : String
  clientId : Option String := none
  enabled : Bool := true

/-- What `update_msp_playbook_entry` is to change. -/
structure PlaybookUpdate (A : Type) where
  definition : Option A := none
  provenance : Option String := none
  enabled : Option Bool := none
  forceRevision : Bool := false

section Calls

variable (format : PlaybookFormat A D S)

def PlaybookRequest.entry (request : PlaybookRequest A) (id : I) (now : String) :
    Except ShelfError (MspPlaybookEntry I D) := do
  let sourcePlaybookId ← galleryText format.redactText request.sourcePlaybookId
    "source_playbook_id" 120
  let provenance ← galleryText format.redactText request.provenance "provenance" 1000
  return {
    id, sourcePlaybookId, provenance
    definitionJson := format.definitionJson request.definition
    enabled := request.enabled
    version := 1
    createdAt := now
    updatedAt := now
    clientId := normalizeClientId request.clientId }

def createMspPlaybookEntry [StoredId I] (request : PlaybookRequest A) (id : I) (now : String) :
    PlaybookCall I D S (MspPlaybookEntry I D) := do
  let entry ← ofExcept (request.entry format id now)
  writeEntry (.create entry)
  readBackPlaybook (StoredId.text entry.id) entry.clientId

def PlaybookUpdate.next (update : PlaybookUpdate A) (existing : MspPlaybookEntry I D) :
    Except ShelfError (PlaybookContent D) := do
  let provenance ← nextText format.redactText update.provenance existing.provenance "provenance"
    1000
  return {
    provenance
    definitionJson := update.definition.elim existing.definitionJson format.definitionJson
    enabled := update.enabled.getD existing.enabled }

variable [DecidableEq D]

def updateExistingPlaybook (id : String) (existing : MspPlaybookEntry I D)
    (update : PlaybookUpdate A) (now : String) : PlaybookCall I D S (MspPlaybookEntry I D) := do
  let next ← ofExcept (update.next format existing)
  if update.forceRevision = false ∧ next = existing.content then return existing
  else
    writeEntry (.update id existing next now)
    readBackPlaybook id existing.clientId

def updateMspPlaybookEntry (id : String) (update : PlaybookUpdate A) (clientId : Option String)
    (now : String) : PlaybookCall I D S (MspPlaybookEntry I D) := do
  match ← getMspPlaybookEntry id clientId with
  | none => throw (.keyError id)
  | some existing => updateExistingPlaybook format id existing update now

end Calls

/-! ## Definitions as values -/

def PlaybookContent.redacted (rt : Runtime) (content : PlaybookContent JsonObject) :
    PlaybookContent JsonObject :=
  { content with
    definitionJson := rt.redactValue content.definitionJson
    provenance := rt.redactText content.provenance }

def playbookFormat (rt : Runtime) :
    PlaybookFormat JsonObject JsonObject (PlaybookContent JsonObject) where
  redactText := rt.redactText
  definitionJson := rt.redactValue
  mspPlaybookSnapshotJson content := content.redacted rt
  redactDefinitionJson := rt.redactValue
  redactSnapshotJson content := content.redacted rt

/-- A call on the playbooks, where definitions are values. -/
abbrev ValueCall := PlaybookCall String JsonObject (PlaybookContent JsonObject)

def getMspPlaybookRevision (id : String) (version : ℕ) (clientId : Option String) :
    ValueCall (Option (MspPlaybookRevision (PlaybookContent JsonObject))) := do
  match ← getMspPlaybookEntry id clientId with
  | none => return none
  | some _ => readRevision id version

def PlaybookContent.restoring (content : PlaybookContent JsonObject) :
    PlaybookUpdate JsonObject where
  definition := some content.definitionJson
  provenance := some content.provenance
  enabled := some content.enabled

def restoreMspPlaybookRevision (rt : Runtime) (id : String) (version : ℕ)
    (clientId : Option String) (now : String) :
    ValueCall (MspPlaybookEntry String JsonObject) := do
  match ← getMspPlaybookEntry id clientId with
  | none => throw (.keyError id)
  | some existing => do
      let clientId := existing.clientId.map Subtype.val
      match ← getMspPlaybookRevision id version clientId with
      | none => throw (.keyError s!"{id}:{version}")
      | some revision =>
          updateMspPlaybookEntry (playbookFormat rt) id revision.snapshotJson.restoring clientId now

/-- A call on the playbooks, with the id of a new entry and the reading of the clock. -/
inductive PlaybookOperation where
  | create (request : PlaybookRequest JsonObject) (id now : String)
  | update (id : String) (changes : PlaybookUpdate JsonObject) (clientId : Option String)
      (now : String)
  | restore (id : String) (version : ℕ) (clientId : Option String) (now : String)

def PlaybookOperation.program (rt : Runtime) :
    PlaybookOperation → ValueCall (MspPlaybookEntry String JsonObject)
  | .create request id now => createMspPlaybookEntry (playbookFormat rt) request id now
  | .update id changes clientId now =>
      updateMspPlaybookEntry (playbookFormat rt) id changes clientId now
  | .restore id version clientId now => restoreMspPlaybookRevision rt id version clientId now

def playbookCalls (W : Type) [DecidableEq W] (rt : Runtime) :=
  shelfCalls W (playbookKind (I := String) (playbookFormat rt)) (PlaybookOperation.program rt)

end WaitLocalAgent.Shelves
