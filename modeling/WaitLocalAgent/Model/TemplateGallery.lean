import WaitLocalAgent.Model.Approvals
import WaitLocalAgent.Model.Shelf

/-! # The template gallery

Creating, updating and restoring the entries of the gallery, as programs over the reads and the
transactions of the store. What the columns hold is left open: values, or the texts of values. -/

namespace WaitLocalAgent.Shelves

open Foundation Approvals

/-- The columns of an entry that a revision keeps. -/
structure GalleryContent (D : Type) where
  name : String
  description : String
  instructions : String
  enabled : Bool
  definitionJson : D
  deriving DecidableEq

structure TemplateGalleryEntry (D P : Type) where
  id : String
  sourceTemplateId : String
  name : String
  trigger : String
  description : String
  actionType : String
  approvalRequired : Bool
  riskLevel : String
  previewFieldsJson : P
  provenance : String
  instructions : String
  enabled : Bool
  definitionJson : D
  version : ℕ
  createdAt : String
  updatedAt : String
  clientId : Option ClientId

structure TemplateGalleryRevision (S : Type) where
  id : ℕ
  galleryId : String
  version : ℕ
  definitionJson : S
  createdAt : String
  clientId : Option ClientId

def galleryColumns (D P S : Type) :
    Columns (TemplateGalleryEntry D P) (TemplateGalleryRevision S) where
  id := TemplateGalleryEntry.id
  version := TemplateGalleryEntry.version
  clientId := TemplateGalleryEntry.clientId
  revisionId := TemplateGalleryRevision.id
  entryId := TemplateGalleryRevision.galleryId
  revisionVersion := TemplateGalleryRevision.version

abbrev Gallery (D P S : Type) := Shelf (galleryColumns D P S)

/-- The columns of a catalog template that an entry is made of. -/
structure WorkflowTemplate where
  id : String
  name : String
  trigger : String
  description : String
  actionType : String
  approvalRequired : Bool
  riskLevel : String := "low"
  previewFields : List String := []

def galleryText (redactText : String → String) (value field : String) (limit : ℕ)
    (allowEmpty : Bool := false) :
    Except ShelfError String := do
  let normalized := redactText (Text.strip value)
  raiseIf (normalized = "" ∧ ¬ allowEmpty)
    (.valueError s!"template gallery {field} must not be empty")
  raiseIf (limit < normalized.length)
    (.valueError s!"template gallery {field} must be at most {limit} characters")
  return normalized

/-- What `update_template_gallery_entry` is to change. -/
structure GalleryUpdate (A : Type) where
  name : Option String := none
  description : Option String := none
  instructions : Option String := none
  enabled : Option Bool := none
  definition : Option A := none

/-- What the gallery makes of what it is given and of what it has stored: `A` is a definition as it
is given, `D` as it is kept, `P` the preview fields, and `S` what a revision keeps. -/
structure GalleryFormat (A D P S : Type) where
  redactText : String → String
  workflowDefinitionJson : Option A → Except ShelfError D
  previewFieldsJson : List String → P
  templateGalleryDefinitionJson : GalleryContent D → S
  redactDefinitionJson : D → D
  redactPreviewFieldsJson : P → P
  redactRevisionJson : S → S
  restoring : S → GalleryUpdate A

variable {A D P S : Type}

def TemplateGalleryEntry.content (entry : TemplateGalleryEntry D P) : GalleryContent D where
  name := entry.name
  description := entry.description
  instructions := entry.instructions
  enabled := entry.enabled
  definitionJson := entry.definitionJson

section Format

variable (format : GalleryFormat A D P S)

def galleryEntryFromRow (row : TemplateGalleryEntry D P) : TemplateGalleryEntry D P :=
  { row with
    previewFieldsJson := format.redactPreviewFieldsJson row.previewFieldsJson
    provenance := format.redactText row.provenance
    instructions := format.redactText row.instructions
    definitionJson := format.redactDefinitionJson row.definitionJson }

def galleryRevisionFromRow (row : TemplateGalleryRevision S) : TemplateGalleryRevision S :=
  { row with definitionJson := format.redactRevisionJson row.definitionJson }

/-- The row of `_insert_template_gallery_revision`. -/
def galleryRevision (galleryId : String) (version : ℕ) (content : GalleryContent D)
    (createdAt : String) (clientId : Option ClientId) (id : ℕ) : TemplateGalleryRevision S where
  id := id
  galleryId := galleryId
  version := version
  definitionJson := format.templateGalleryDefinitionJson content
  createdAt := createdAt
  clientId := clientId

/-- `update template_gallery_entries set …`. -/
def GalleryContent.assign (content : GalleryContent D) (version : ℕ) (now : String)
    (entry : TemplateGalleryEntry D P) : TemplateGalleryEntry D P :=
  { entry with
    name := content.name, description := content.description
    instructions := content.instructions, enabled := content.enabled
    definitionJson := content.definitionJson, version := version, updatedAt := now }

/-- The transactions of `create_template_gallery_entry` and `update_template_gallery_entry`. -/
def commitGallery : ShelfWrite (TemplateGalleryEntry D P) (GalleryContent D) → Gallery D P S →
    Except ShelfError (Gallery D P S)
  | .create entry, s =>
      s.insertEntry { entry with version := 1 }
        (galleryRevision format entry.id 1 entry.content entry.createdAt entry.clientId)
        (fun _ => rfl)
        { eventType := "template_gallery.created", subjectId := entry.id
          message := s!"template {entry.sourceTemplateId} added to local gallery"
          clientId := entry.clientId }
  | .update entryId existing next now, s =>
      let version := existing.version + 1
      s.updateEntry entryId (next.assign version now) (fun _ => rfl)
        (galleryRevision format entryId version next now existing.clientId)
        (fun _ => rfl)
        { eventType := "template_gallery.updated", subjectId := entryId
          message := s!"template {existing.sourceTemplateId} updated to version {version}"
          clientId := existing.clientId }

def galleryKind : ShelfKind (galleryColumns D P S) (GalleryContent D) where
  entryFromRow := galleryEntryFromRow format
  revisionFromRow := galleryRevisionFromRow format
  commit := commitGallery format

end Format

abbrev GalleryCall (D P S : Type) :=
  ShelfCall (TemplateGalleryEntry D P) (TemplateGalleryRevision S) (GalleryContent D)

def getTemplateGalleryEntry (id : String) (scope : ScopeArgument) :
    GalleryCall D P S (Option (TemplateGalleryEntry D P)) := do
  let admits ← ofExcept (scope.admits.mapError .valueError)
  readEntry id admits

def readBack (id : String) (clientId : Option ClientId) :
    GalleryCall D P S (TemplateGalleryEntry D P) := do
  match ← getTemplateGalleryEntry id (.ofClient clientId) with
  | some entry => return entry
  | none => throw (.runtimeError "template gallery entry was not persisted")

/-- The arguments of `create_template_gallery_entry`. -/
structure GalleryRequest (A : Type) where
  template : WorkflowTemplate
  provenance : String
  clientId : Option String := none
  name : Option String := none
  instructions : String := ""
  description : Option String := none
  enabled : Bool := true
  definition : Option A := none

section Calls

variable (format : GalleryFormat A D P S)

def GalleryRequest.entry (request : GalleryRequest A) (id now : String) :
    Except ShelfError (TemplateGalleryEntry D P) := do
  let template := request.template
  let name ← galleryText format.redactText ((request.name.filter (· ≠ "")).getD template.name)
    "name" 120
  let description ← galleryText format.redactText (request.description.getD template.description)
    "description" 2000
  let instructions ← galleryText format.redactText request.instructions "instructions" 4000 true
  let provenance ← galleryText format.redactText request.provenance "provenance" 1000
  let definitionJson ← format.workflowDefinitionJson request.definition
  return {
    id, name, description, instructions, provenance, definitionJson
    sourceTemplateId := template.id
    trigger := template.trigger
    actionType := template.actionType
    approvalRequired := template.approvalRequired
    riskLevel := template.riskLevel
    previewFieldsJson := format.previewFieldsJson template.previewFields
    enabled := request.enabled
    version := 1
    createdAt := now
    updatedAt := now
    clientId := normalizeClientId request.clientId }

def createTemplateGalleryEntry (request : GalleryRequest A) (id now : String) :
    GalleryCall D P S (TemplateGalleryEntry D P) := do
  let entry ← ofExcept (request.entry format id now)
  writeEntry (.create entry)
  readBack entry.id entry.clientId

/-- `_gallery_text(value, …) if value is not None else existing`. -/
def nextText (redactText : String → String) (value : Option String)
    (existing field : String) (limit : ℕ)
    (allowEmpty : Bool := false) : Except ShelfError String :=
  match value with
  | some value => galleryText redactText value field limit allowEmpty
  | none => .ok existing

/-- `existing if definition is None else _workflow_definition_json(definition)`. -/
def nextDefinition (definition : Option A) (existing : D) : Except ShelfError D :=
  match definition with
  | some definition => format.workflowDefinitionJson (some definition)
  | none => .ok existing

/-- The content of an entry once it is updated. -/
def GalleryUpdate.next (update : GalleryUpdate A) (existing : TemplateGalleryEntry D P) :
    Except ShelfError (GalleryContent D) := do
  let name ← nextText format.redactText update.name existing.name "name" 120
  let description ← nextText format.redactText update.description existing.description
    "description" 2000
  let instructions ← nextText format.redactText update.instructions existing.instructions
    "instructions" 4000 true
  let definitionJson ← nextDefinition format update.definition existing.definitionJson
  return { name, description, instructions, definitionJson
           enabled := update.enabled.getD existing.enabled }

variable [DecidableEq D]

def updateExisting (id : String) (existing : TemplateGalleryEntry D P) (update : GalleryUpdate A)
    (now : String) : GalleryCall D P S (TemplateGalleryEntry D P) := do
  let next ← ofExcept (update.next format existing)
  if next = existing.content then return existing
  else
    writeEntry (.update id existing next now)
    readBack id existing.clientId

def updateTemplateGalleryEntry (id : String) (update : GalleryUpdate A)
    (clientId : Option String) (now : String) : GalleryCall D P S (TemplateGalleryEntry D P) := do
  match ← getTemplateGalleryEntry id (.ofText clientId) with
  | none => throw (.keyError id)
  | some existing => updateExisting format id existing update now

def getTemplateGalleryRevision (id : String) (version : ℕ) (scope : ScopeArgument) :
    GalleryCall D P S (Option (TemplateGalleryRevision S)) := do
  match ← getTemplateGalleryEntry id scope with
  | none => return none
  | some _ => readRevision id version

def restoreTemplateGalleryRevision (id : String) (version : ℕ) (scope : ScopeArgument)
    (now : String) : GalleryCall D P S (TemplateGalleryEntry D P) := do
  match ← getTemplateGalleryEntry id scope with
  | none => throw (.keyError id)
  | some existing => do
      match ← getTemplateGalleryRevision id version (.ofClient existing.clientId) with
      | none => throw (.keyError s!"{id}:{version}")
      | some revision =>
          updateTemplateGalleryEntry format id (format.restoring revision.definitionJson)
            (existing.clientId.map Subtype.val) now

/-- A call on the gallery, with the id of a new entry and the reading of the clock. -/
inductive GalleryOperation (A : Type) where
  | create (request : GalleryRequest A) (id now : String)
  | update (id : String) (changes : GalleryUpdate A) (clientId : Option String) (now : String)
  | restore (id : String) (version : ℕ) (scope : ScopeArgument) (now : String)

def GalleryOperation.definition : GalleryOperation A → Option A
  | .create request _ _ => request.definition
  | .update _ changes _ _ => changes.definition
  | .restore _ _ _ _ => none

def GalleryOperation.program :
    GalleryOperation A → GalleryCall D P S (TemplateGalleryEntry D P)
  | .create request id now => createTemplateGalleryEntry format request id now
  | .update id changes clientId now => updateTemplateGalleryEntry format id changes clientId now
  | .restore id version scope now => restoreTemplateGalleryRevision format id version scope now

end Calls

/-! ## Definitions as values -/

/-- Redaction, and `normalize_workflow_design` with the message that it raises. -/
structure GalleryRuntime extends Runtime where
  normalizeWorkflowDesign : JsonObject → Except String JsonObject

def workflowDefinitionJson (rt : GalleryRuntime) : Option JsonObject → Except ShelfError JsonObject
  | none => .ok ∅
  | some definition =>
      match rt.normalizeWorkflowDesign definition with
      | .ok design => .ok (rt.redactValue design)
      | .error message => .error (.valueError message)

def GalleryContent.redacted (rt : Runtime) (content : GalleryContent JsonObject) :
    GalleryContent JsonObject :=
  { content with
    name := rt.redactText content.name
    description := rt.redactText content.description
    instructions := rt.redactText content.instructions
    definitionJson := rt.redactValue content.definitionJson }

/-- The update that restores a revision: its design, when it has the format of one. -/
def GalleryContent.restoring (content : GalleryContent JsonObject) : GalleryUpdate JsonObject where
  name := some content.name
  description := some content.description
  instructions := some content.instructions
  enabled := some content.enabled
  definition :=
    if content.definitionJson.lookup "format" =
        some (.text "wait-local-agent.workflow-design") then
      some content.definitionJson
    else none

def GalleryRuntime.format (rt : GalleryRuntime) :
    GalleryFormat JsonObject JsonObject (List String) (GalleryContent JsonObject) where
  redactText := rt.redactText
  workflowDefinitionJson := workflowDefinitionJson rt
  previewFieldsJson fields := fields.map rt.redactText
  templateGalleryDefinitionJson content := content.redacted rt.toRuntime
  redactDefinitionJson := rt.redactValue
  redactPreviewFieldsJson fields := fields.map rt.redactText
  redactRevisionJson content := content.redacted rt.toRuntime
  restoring := GalleryContent.restoring

def galleryCalls (W : Type) [DecidableEq W] (rt : GalleryRuntime) :=
  shelfCalls W (galleryKind rt.format) (GalleryOperation.program rt.format)

end WaitLocalAgent.Shelves
