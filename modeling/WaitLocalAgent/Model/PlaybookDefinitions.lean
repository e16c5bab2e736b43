import WaitLocalAgent.Foundation.Json
import WaitLocalAgent.Model.MspPlaybooks
import WaitLocalAgent.Model.PlaybookCatalog
import WaitLocalAgent.Model.WorkflowDesigner

/-! # Playbook definitions

`publish_msp_playbook`, `update_msp_playbook` and `resolve_msp_playbook` with the texts that the
store keeps: the parser, the view of a parsed playbook, and its JSON. -/

namespace WaitLocalAgent.PlaybookDefinitions

open Foundation Redaction
open Shelves (ShelfError ShelfKind StoredId PlaybookFormat getMspPlaybookEntry
  createMspPlaybookEntry updateMspPlaybookEntry)
open Playbooks (RiskLevel ReportType StepKind MspPlaybookStep MspPlaybookDefinition
  getWorkflowTemplate getMspPlaybook)

abbrev Fields := List (String × JsonValue)

structure Library where
  words : WordClass
  floats : JsonValue.FloatRepr

/-! ## The parser -/

def boundedText (lib : Library) (value : JsonValue) (field : String) (limit : ℕ) :
    Except ShelfError String :=
  match value with
  | .text s => do
      raiseIf (Text.strip s = "") (.valueError s!"{field} must be a non-empty string")
      let normalized := redactText lib.words (Text.strip s)
      raiseIf (limit < normalized.length)
        (.valueError s!"{field} must be at most {limit} characters")
      return normalized
  | _ => .error (.valueError s!"{field} must be a non-empty string")

def boundedStringList (lib : Library) (value : JsonValue) (field : String) :
    Except ShelfError (List String) :=
  match value with
  | .array items => do
      raiseIf (16 < items.length)
        (.valueError s!"{field} must be a list of at most 16 strings")
      let result ← items.mapM fun item => boundedText lib item field 120
      raiseIf (¬ result.Nodup) (.valueError s!"{field} must not contain duplicates")
      return result
  | _ => .error (.valueError s!"{field} must be a list of at most 16 strings")

/-- The kind of a step, with the template or the report that it names. -/
def parseStepKind (lib : Library) (id kind : String) (fields : Fields) :
    Except ShelfError StepKind :=
  if kind = "workflow" then do
    let templateId ← boundedText lib (JsonValue.get fields "workflow_template_id")
      s!"step {id} workflow_template_id" 120
    raiseIf (getWorkflowTemplate templateId = none)
      (.valueError s!"unsupported workflow template: {templateId}")
    return .workflow templateId
  else if kind = "report" then do
    let reportType ← boundedText lib (JsonValue.get fields "report_type")
      s!"step {id} report_type" 80
    match ReportType.all.find? fun item => item.value = reportType with
    | some item => return .report item
    | none => throw (.valueError s!"unsupported report type: {reportType}")
  else .error (.valueError "playbook step kind must be workflow or report")

def parseStepBody (lib : Library) (id : String) (fields : Fields) :
    Except ShelfError MspPlaybookStep := do
  let name ← boundedText lib (JsonValue.get fields "name") s!"step {id} name" 120
  let kind ← boundedText lib (JsonValue.get fields "kind") s!"step {id} kind" 20
  let description ← boundedText lib (JsonValue.get fields "description") s!"step {id} description"
    1000
  let requiredInputs ← boundedStringList lib
    ((JsonValue.get? fields "required_inputs").getD (.array [])) s!"step {id} required_inputs"
  let kind ← parseStepKind lib id kind fields
  return { id, name, kind, description, requiredInputs }

def parseStepId (lib : Library) : JsonValue → Except ShelfError (String × Fields)
  | .object fields => do
      let id ← boundedText lib (JsonValue.get fields "id") "step id" 80
      return (id, fields)
  | _ => .error (.valueError "each playbook step must be an object")

/-- The loop over the steps, after those with the ids `seenIds`. -/
def parseSteps (lib : Library) (seenIds : List String) :
    List JsonValue → Except ShelfError (List MspPlaybookStep)
  | [] => .ok []
  | raw :: raws => do
      let (id, fields) ← parseStepId lib raw
      raiseIf (id ∈ seenIds) (.valueError s!"duplicate playbook step id: {id}")
      let step ← parseStepBody lib id fields
      let steps ← parseSteps lib (id :: seenIds) raws
      return step :: steps

/-- `payload.get("steps")`, which is a list of one to twelve items. -/
def rawSteps : JsonValue → Except ShelfError (List JsonValue)
  | .array raws =>
      if 1 ≤ raws.length ∧ raws.length ≤ 12 then .ok raws
      else .error (.valueError "steps must contain between 1 and 12 items")
  | _ => .error (.valueError "steps must contain between 1 and 12 items")

def parseRiskLevel (riskLevel : String) : Except ShelfError RiskLevel :=
  match [RiskLevel.low, .medium, .high].find? fun item => item.value = riskLevel with
  | some item => .ok item
  | none => .error (.valueError "risk_level must be low, medium, or high")

def parseMspPlaybookDefinition (lib : Library) (payload : Fields) (playbookId : String)
    (version : ℕ) : Except ShelfError MspPlaybookDefinition := do
  let id ← boundedText lib (.text playbookId) "playbook_id" 120
  let name ← boundedText lib (JsonValue.get payload "name") "name" 120
  let trigger ← boundedText lib (JsonValue.get payload "trigger") "trigger" 120
  let description ← boundedText lib (JsonValue.get payload "description") "description" 2000
  let riskLevel ← boundedText lib (JsonValue.get payload "risk_level") "risk_level" 20
  let riskLevel ← parseRiskLevel riskLevel
  let raws ← rawSteps (JsonValue.get payload "steps")
  let steps ← parseSteps lib [] raws
  let outputEvidence ← boundedStringList lib (JsonValue.get payload "output_evidence")
    "output_evidence"
  raiseIf (outputEvidence = [])
    (.valueError "output_evidence must contain at least one item")
  return {
    id, name, version, trigger, description, riskLevel, steps, outputEvidence
    localFixture := JsonValue.truthy ((JsonValue.get? payload "local_fixture").getD (.bool true)) }

/-! ## Views -/

def textOrNull (value : Option String) : JsonValue := value.elim .null .text

def texts (items : List String) : JsonValue := .array (items.map .text)

def stepView (step : MspPlaybookStep) : Fields :=
  [("id", .text step.id), ("name", .text step.name), ("kind", .text step.kind.value),
    ("description", .text step.description),
    ("workflow_template_id", textOrNull step.kind.templateId?),
    ("report_type", textOrNull (step.kind.reportType?.map ReportType.value)),
    ("required_inputs", texts step.requiredInputs)]

/-- `playbook_view`, where arrays stand for tuples. -/
def playbookView (playbook : MspPlaybookDefinition) : Fields :=
  [("id", .text playbook.id), ("name", .text playbook.name), ("version", .int playbook.version),
    ("trigger", .text playbook.trigger), ("description", .text playbook.description),
    ("risk_level", .text playbook.riskLevel.value),
    ("steps", .array (playbook.steps.map fun step => .object (stepView step))),
    ("output_evidence", texts playbook.outputEvidence),
    ("local_fixture", .bool playbook.localFixture)]

def redactUntupled (w : WordClass) : JsonValue → JsonValue
  | .array items => .array items
  | v => redactValue w v

def viewJson (lib : Library) (playbook : MspPlaybookDefinition) : String :=
  let view := (playbookView playbook).map fun (key, v) =>
    (key, if isSensitiveKey key then .text redacted else redactUntupled lib.words v)
  .ofList ((JsonValue.object view).sortKeys.write ⟨[','], [':']⟩)

/-! ## Rows -/

abbrev UuidHex :=
  { s : String // s.length = 32 ∧ s.toList.all WorkflowDesigner.isIdentifierStart = true }

abbrev BlueprintId := { s : String // WorkflowDesigner.isNodeId s = true }

/-- The ids of entries: those that the store gives, and those of generated playbooks. -/
inductive EntryId where
  | published (hex : UuidHex)
  | architect (blueprintId : BlueprintId)

def EntryId.text : EntryId → String
  | published hex => "msp-playbook-" ++ hex.val
  | architect blueprintId => "architect-" ++ blueprintId.val

instance : StoredId EntryId := ⟨EntryId.text⟩

abbrev MspPlaybookEntry := Shelves.MspPlaybookEntry EntryId String

abbrev columns := Shelves.playbookColumns EntryId String String

abbrev Playbooks := Shelves.Playbooks EntryId String String

abbrev PlaybookContent := Shelves.PlaybookContent String

def mspPlaybookSnapshotJson (lib : Library) (content : PlaybookContent) : String :=
  jsonDumpsValue lib.words (.object
    [("definition", .object (jsonObject lib.floats.repr content.definitionJson)),
      ("provenance", .text content.provenance), ("enabled", .bool content.enabled)])

def Library.format (lib : Library) : PlaybookFormat MspPlaybookDefinition String String where
  redactText := redactText lib.words
  definitionJson := viewJson lib
  mspPlaybookSnapshotJson := mspPlaybookSnapshotJson lib
  redactDefinitionJson := redactJsonText lib.words lib.floats.repr
  redactSnapshotJson := redactJsonText lib.words lib.floats.repr

abbrev playbookKind (lib : Library) : ShelfKind columns PlaybookContent :=
  Shelves.playbookKind lib.format

abbrev PlaybookCall := Shelves.PlaybookCall EntryId String String

/-! ## Publishing, updating and resolving -/

def publishedDefinition (sourcePlaybookId : String) :
    Option Fields → Except ShelfError Fields
  | some definition => .ok definition
  | none =>
      match getMspPlaybook sourcePlaybookId with
      | some source => .ok (playbookView source)
      | none => .error (.keyError sourcePlaybookId)

def parsePublished (lib : Library) (sourcePlaybookId : String) (definition : Option Fields) :
    Except ShelfError MspPlaybookDefinition := do
  let definition ← publishedDefinition sourcePlaybookId definition
  parseMspPlaybookDefinition lib definition sourcePlaybookId 1

def publishMspPlaybook (lib : Library) (sourcePlaybookId provenance : String)
    (clientId : Option String) (definition : Option Fields) (enabled : Bool) (hex : UuidHex)
    (now : String) : PlaybookCall MspPlaybookEntry := do
  let parsed ← Shelves.ofExcept (parsePublished lib sourcePlaybookId definition)
  createMspPlaybookEntry lib.format
    { sourcePlaybookId, definition := parsed, provenance, clientId, enabled } (.published hex) now

def storedObject (lib : Library) (text : String) : Except ShelfError Fields :=
  match JsonValue.loads? lib.floats.repr text with
  | some (.object fields) => .ok fields
  | some _ => .error (.valueError "stored MSP playbook JSON must be an object")
  | none => .error (.valueError "stored MSP playbook JSON is invalid")

def nextDefinition (lib : Library) (entry : MspPlaybookEntry) :
    Option Fields → Except ShelfError Fields
  | none => storedObject lib entry.definitionJson
  | some definition => .ok definition

def parseUpdated (lib : Library) (entry : MspPlaybookEntry) (definition : Option Fields) :
    Except ShelfError MspPlaybookDefinition := do
  let next ← nextDefinition lib entry definition
  parseMspPlaybookDefinition lib next entry.sourcePlaybookId (entry.version + 1)

def updateMspPlaybook (lib : Library) (id : String) (clientId : Option String)
    (definition : Option Fields) (provenance : Option String) (enabled : Option Bool)
    (now : String) : PlaybookCall MspPlaybookEntry := do
  match ← getMspPlaybookEntry id clientId with
  | none => throw (.keyError id)
  | some entry => do
      let parsed ← Shelves.ofExcept (parseUpdated lib entry definition)
      updateMspPlaybookEntry lib.format id { definition := some parsed, provenance, enabled }
        (entry.clientId.map Subtype.val) now

inductive ResolveError where
  | raised (error : ShelfError)
  | permissionError (message : String)
  deriving DecidableEq, Repr

/-- What a playbook is, where `entry` is what the store finds under the id. -/
def resolveEntry (lib : Library) (playbookId : String) (entry : Option MspPlaybookEntry) :
    Except ResolveError MspPlaybookDefinition :=
  match getMspPlaybook playbookId with
  | some static => .ok static
  | none =>
      match entry with
      | none => .error (.raised (.keyError playbookId))
      | some entry => do
          raiseIf (¬ entry.enabled) (.permissionError "MSP playbook is disabled")
          (do
            let definition ← storedObject lib entry.definitionJson
            parseMspPlaybookDefinition lib definition entry.id.text entry.version).mapError .raised

def resolveMspPlaybook (lib : Library) (s : Playbooks) (playbookId : String)
    (clientId : Option String) : Except ResolveError MspPlaybookDefinition :=
  resolveEntry lib playbookId
    ((playbookKind lib).read (.entry playbookId (withinScope (normalizeClientId clientId))) s)

/-! ## Authoring -/

/-- The calls that store a definition. -/
inductive AuthoringCall where
  | publish (sourcePlaybookId provenance : String) (clientId : Option String)
      (definition : Option Fields) (enabled : Bool) (hex : UuidHex) (now : String)
  | update (id : String) (clientId : Option String) (definition : Option Fields)
      (provenance : Option String) (enabled : Option Bool) (now : String)

def AuthoringCall.program (lib : Library) : AuthoringCall → PlaybookCall MspPlaybookEntry
  | publish sourcePlaybookId provenance clientId definition enabled hex now =>
      publishMspPlaybook lib sourcePlaybookId provenance clientId definition enabled hex now
  | update id clientId definition provenance enabled now =>
      updateMspPlaybook lib id clientId definition provenance enabled now

def AuthoringCall.entryId : AuthoringCall → String
  | publish _ _ _ _ _ hex _ => (EntryId.published hex).text
  | update id _ _ _ _ _ => id

def AuthoringCall.accepted (lib : Library) (s : Playbooks) :
    AuthoringCall → Except ShelfError MspPlaybookDefinition
  | publish sourcePlaybookId _ _ definition _ _ _ => parsePublished lib sourcePlaybookId definition
  | update id clientId definition _ _ _ =>
      match (playbookKind lib).read (.entry id (withinScope (normalizeClientId clientId))) s with
      | none => .error (.keyError id)
      | some entry => parseUpdated lib entry definition

/-- An update that gives the entry another definition. -/
def AuthoringCall.redefines (entryId : String) : AuthoringCall → Bool
  | publish _ _ _ _ _ _ _ => false
  | update id _ definition _ _ _ => id = entryId && definition.isSome

/-- The state after a call that nothing overlaps. -/
def authored (lib : Library) (s : Playbooks) (call : AuthoringCall) : Playbooks :=
  ((playbookKind lib).exec (call.program lib) s).2

end WaitLocalAgent.PlaybookDefinitions
