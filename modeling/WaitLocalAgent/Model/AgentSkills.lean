import WaitLocalAgent.Foundation.Program
import WaitLocalAgent.Foundation.Table
import WaitLocalAgent.Model.AgentPlatform

/-! # Agent skills

The skills with their revisions, and `SkillService` statement by statement: an update reads the
skill, reads its version again, and writes in a transaction later. -/

namespace WaitLocalAgent.AgentSkills

open Foundation JsonValue Redaction AgentPlatform

abbrev Fields := List (String × JsonValue)

def uuidText (uuid : BitVec 128) : String :=
  let digit := fun i => Nat.digitChar (uuid.toNat / 16 ^ (31 - i) % 16)
  let digits := fun first count => (List.range' first count).map digit
  String.ofList (['-'].intercalate [digits 0 8, digits 8 4, digits 12 4, digits 16 4, digits 20 12])

/-! ## Revisions -/

def maxSkillTools : ℕ := 16

def maxSkillResources : ℕ := 10

def maxResourceBytes : ℕ := 20000

def maxSkillInstructions : ℕ := 20000

def skillSlug (value : String) : Except PlatformError String := do
  let text ← validateText value "slug" 1 63 true
  let normalized := Text.lower text
  let isStart := fun c : Char => ('a' ≤ c && c ≤ 'z') || ('0' ≤ c && c ≤ '9')
  match normalized.toList with
  | c :: cs =>
      raiseIf (¬ (isStart c ∧ cs.length ≤ 62 ∧ cs.all fun c => isStart c || c == '-'))
        (.invalid "slug must use lowercase letters, numbers, and hyphens")
      return normalized
  | [] => raise "slug must use lowercase letters, numbers, and hyphens"

def uniqueTools (normalized : List String) : List String → Except PlatformError (List String)
  | [] => .ok normalized
  | value :: values =>
      match validateIdentifier value "tool_id" with
      | .error e => .error e
      | .ok toolId =>
          uniqueTools (if toolId ∈ normalized then normalized else normalized ++ [toolId]) values

def tools (values : List String) : Except PlatformError (List String) := do
  raiseIf (maxSkillTools < values.length)
    (.invalid s!"allowed_tools must contain at most {maxSkillTools} items")
  uniqueTools [] values

def schemaTypes : List String := ["object", "array", "string", "integer", "number", "boolean"]

/-- `schema.get("type", "object")`, which has to be hashable. -/
def schemaType (schema : Fields) (path : String) : Except PlatformError String :=
  match (get? schema "type").getD (.text "object") with
  | .text type => if type ∈ schemaTypes then .ok type else raise s!"{path}.type is unsupported"
  | .array _ | .object _ => .error .typeError
  | _ => raise s!"{path}.type is unsupported"

def requiredNames : List JsonValue → Option (List String)
  | [] => some []
  | .text name :: items => (requiredNames items).map fun names => name :: names
  | _ :: _ => none

/-- What is checked of an object before its properties are. -/
def checkRequired (schema : Fields) (path : String) : Except PlatformError Unit :=
  match (get? schema "properties").getD (.object []) with
  | .object properties =>
      if 64 < properties.length then
        raise s!"{path}.properties must be an object with at most 64 entries"
      else
        match (get? schema "required").getD (.array []) with
        | .array items =>
            match requiredNames items with
            | none => raise s!"{path}.required must be an array of property names"
            | some names =>
                if names.all fun name => (get? properties name).isSome then .ok ()
                else raise s!"{path}.required references an unknown property"
        | _ => raise s!"{path}.required must be an array of property names"
  | _ => raise s!"{path}.properties must be an object with at most 64 entries"

mutual

def validateSchemaDefinition (path : String) : JsonValue → Except PlatformError Unit
  | .object schema =>
      match schemaType schema path with
      | .error e => .error e
      | .ok type =>
          if type = "object" then
            match checkRequired schema path with
            | .error e => .error e
            | .ok () => validateProperties path schema
          else if type = "array" then validateItems path schema
          else .ok ()
  | _ => .ok ()

def validateProperties (path : String) : List (String × JsonValue) → Except PlatformError Unit
  | [] => .ok ()
  | (key, .object properties) :: fields =>
      if key = "properties" then validateChildren path properties
      else validateProperties path fields
  | (key, _) :: fields => if key = "properties" then .ok () else validateProperties path fields

def validateChildren (path : String) : List (String × JsonValue) → Except PlatformError Unit
  | [] => .ok ()
  | (name, .object child) :: children =>
      match validateSchemaDefinition s!"{path}.{name}" (.object child) with
      | .error e => .error e
      | .ok () => validateChildren path children
  | _ :: _ => raise s!"{path}.properties is malformed"

def validateItems (path : String) : List (String × JsonValue) → Except PlatformError Unit
  | [] => .ok ()
  | (key, .object items) :: fields =>
      if key = "items" then validateSchemaDefinition s!"{path}[]" (.object items)
      else validateItems path fields
  | (key, .null) :: fields => if key = "items" then .ok () else validateItems path fields
  | (key, _) :: fields =>
      if key = "items" then raise s!"{path}.items must be an object" else validateItems path fields

end

def rootFields : List String :=
  ["type", "required", "properties", "additionalProperties", "description"]

/-- `normalized.get("type", "object") == "object"`. -/
def isObjectRoot (normalized : Fields) : Bool :=
  match get? normalized "type" with
  | none => true
  | some (.text type) => type == "object"
  | some _ => false

def schemaOf (lib : Library) (value : Fields) : Except PlatformError Fields := do
  match ← safeJsonValue lib (.object value) 16384 with
  | .object normalized =>
      raiseIf (¬ isObjectRoot normalized) (.invalid "input_schema root type must be object")
      let unsupported := (normalized.map Prod.fst).filter fun name => name ∉ rootFields
      let names := ", ".intercalate (unsupported.insertionSort (· ≤ ·))
      raiseIf (unsupported ≠ [])
        (.invalid s!"input_schema root contains unsupported fields: {names}")
      validateSchemaDefinition "input_schema" (.object normalized)
      return normalized
  | _ => raise "input_schema must be an object"

structure Resource where
  name : String
  mediaType : String
  content : String
  byteSize : ℕ
  sha256 : String

def Resource.fields (resource : Resource) : Fields :=
  [("name", .text resource.name), ("media_type", .text resource.mediaType),
    ("content", .text resource.content), ("byte_size", .int resource.byteSize),
    ("sha256", .text resource.sha256)]

def resourceMediaTypes : List String := ["text/plain", "text/markdown", "application/json"]

def rawText (lib : Library) (raw : Fields) (key default : String) : String :=
  lib.strOf ((get? raw key).getD (.text default))

/-- A resource, next to the case-folded names of those before it. -/
def resourceOf (lib : Library) (names : List String) (raw : Fields) :
    Except PlatformError Resource := do
  let name ← validateText (rawText lib raw "name" "") "resource name" 1 120 true
  raiseIf (name.toList.contains '/' || name.toList.contains '\\' || name == "." || name == "..")
    (.invalid "resource names must be plain filenames")
  raiseIf (lib.casefold name ∈ names) (.invalid "resource names must be unique")
  let mediaType := Text.lower (Text.strip (rawText lib raw "media_type" "text/plain"))
  raiseIf (mediaType ∉ resourceMediaTypes) (.invalid "resource media_type is unsupported")
  let content ← validateText (rawText lib raw "content" "") "resource content" 0 maxResourceBytes
    false
  raiseIf (maxResourceBytes < content.utf8ByteSize)
    (.invalid s!"resource content exceeds {maxResourceBytes} bytes")
  raiseIf (mediaType = "application/json" ∧ loads? lib.floats.repr content = none)
    (.invalid s!"resource {name} contains invalid JSON")
  return {
    name
    mediaType
    content
    byteSize := content.utf8ByteSize
    sha256 := digestJson lib (.object [("content", .text content)]) }

def resourcesFrom (lib : Library) (names : List String) :
    List JsonValue → Except PlatformError (List Resource)
  | [] => .ok []
  | .object raw :: values => do
      let resource ← resourceOf lib names raw
      let resources ← resourcesFrom lib (lib.casefold resource.name :: names) values
      return resource :: resources
  | _ :: _ => raise "each resource must be an object"

def resourcesOf (lib : Library) (values : List JsonValue) :
    Except PlatformError (List Resource) := do
  raiseIf (maxSkillResources < values.length)
    (.invalid s!"resources must contain at most {maxSkillResources} files")
  resourcesFrom lib [] values

/-- What a revision says. -/
structure Content where
  instructions : String
  allowedTools : List String
  inputSchema : Fields
  resources : List Fields

def Content.json (content : Content) : JsonValue :=
  .object [("instructions", .text content.instructions),
    ("allowed_tools", .array (content.allowedTools.map .text)),
    ("input_schema", .object content.inputSchema),
    ("resources", .array (content.resources.map .object))]

structure RevisionPayload extends Content where
  digest : String

/-- The arguments of `_revision_payload`, with the action ids of the catalog. -/
structure RevisionRequest where
  instructions : String
  allowedTools : List String
  inputSchema : Fields
  resources : List JsonValue
  catalog : List String

def revisionPayload (lib : Library) (request : RevisionRequest) :
    Except PlatformError RevisionPayload := do
  let instructions ← validateText request.instructions "instructions" 1 maxSkillInstructions false
  let allowedTools ← tools request.allowedTools
  let unknown := allowedTools.filter fun toolId => toolId ∉ request.catalog
  let names := ", ".intercalate (unknown.insertionSort (· ≤ ·))
  raiseIf (unknown ≠ []) (.invalid s!"unknown tool IDs: {names}")
  let inputSchema ← schemaOf lib request.inputSchema
  let resources ← resourcesOf lib request.resources
  let content : Content :=
    { instructions, allowedTools, inputSchema, resources := resources.map Resource.fields }
  return { content with digest := digestJson lib content.json }

/-! ## Tables -/

inductive SkillStatus where
  | active
  | archived
  deriving DecidableEq, Repr

structure SkillRow where
  id : String
  clientId : String
  name : String
  slug : String
  description : String
  status : SkillStatus
  currentVersion : ℕ
  createdBy : String
  createdAt : String
  updatedAt : String
  deriving DecidableEq, Repr

structure RevisionRow where
  skillId : String
  version : ℕ
  instructions : String
  allowedToolsJson : String
  inputSchemaJson : String
  resourcesJson : String
  digest : String
  createdBy : String
  createdAt : String
  deriving DecidableEq, Repr

def RevisionRow.key (r : RevisionRow) : String × ℕ := (r.skillId, r.version)

structure Skills where
  skills : Table SkillRow.id
  revisions : Table RevisionRow.key

namespace Skills

def empty : Skills := ⟨.empty, .empty⟩

def select (s : Skills) (clientId skillId : String) : Option SkillRow :=
  (s.skills.find? skillId).filter fun k => k.clientId = clientId

/-- The insertion of a revision of a skill that there is, under its key. -/
def insertRevision? (s : Skills) (row : RevisionRow) : Option Skills :=
  if (s.skills.find? row.skillId).isSome then
    (s.revisions.insert? row).map fun revisions => { s with revisions }
  else none

/-- The insertion of a skill, under `unique (client_id, slug)`. -/
def insertSkill? (s : Skills) (row : SkillRow) : Option Skills :=
  if s.skills.rows.any fun k => k.clientId = row.clientId ∧ k.slug = row.slug then none
  else (s.skills.insert? row).map fun skills => { s with skills }

def create (s : Skills) (row : SkillRow) (revision : RevisionRow) : Except PlatformError Skills :=
  match (s.insertSkill? row).bind fun s => s.insertRevision? revision with
  | some s' => .ok s'
  | none => .error (.conflict "a skill with that slug already exists")

/-- What an update writes to its skill. -/
structure Change where
  clientId : String
  skillId : String
  base : ℕ
  name : String
  description : String
  now : String

def Change.meets (change : Change) (k : SkillRow) : Bool :=
  k.id == change.skillId && k.clientId == change.clientId && k.currentVersion == change.base

def Change.apply (change : Change) (k : SkillRow) : SkillRow :=
  { k with
    name := change.name, description := change.description
    currentVersion := change.base + 1, updatedAt := change.now }

def revise (s : Skills) (change : Change) (revision : RevisionRow) :
    Except PlatformError Skills :=
  match s.insertRevision? revision with
  | none => .error .integrity
  | some s' =>
      if s'.skills.rowcount change.meets = 1 then
        .ok { s' with skills := s'.skills.update change.meets change.apply fun _ => rfl }
      else .error (.conflict "skill was updated concurrently")

def archive (s : Skills) (clientId skillId now : String) : Skills :=
  { s with
    skills := s.skills.update (fun k => k.id == skillId && k.clientId == clientId)
      (fun k => { k with status := .archived, updatedAt := now }) fun _ => rfl }

end Skills

/-! ## Statements -/

inductive SkillAction where
  | select (clientId skillId : String)
  | revision (skillId : String) (version : ℕ)
  | currentVersion (clientId skillId : String)
  | create (row : SkillRow) (revision : RevisionRow)
  | revise (change : Skills.Change) (revision : RevisionRow)
  | archive (clientId skillId now : String)

abbrev SkillAction.Answer : SkillAction → Type
  | .select _ _ => Option SkillRow
  | .revision _ _ => Option RevisionRow
  | .currentVersion _ _ => Option ℕ
  | .create _ _ | .revise _ _ => Except PlatformError Unit
  | .archive _ _ _ => Unit

/-- A transaction that raises is rolled back. -/
def commit (s : Skills) : Except PlatformError Skills → Except PlatformError Unit × Skills
  | .ok s' => (.ok (), s')
  | .error e => (.error e, s)

def SkillAction.answer : (a : SkillAction) → Skills → Unit → a.Answer × Skills
  | .select clientId skillId, s, _ => (s.select clientId skillId, s)
  | .revision skillId version, s, _ => (s.revisions.find? (skillId, version), s)
  | .currentVersion clientId skillId, s, _ =>
      ((s.select clientId skillId).map SkillRow.currentVersion, s)
  | .create row initial, s, _ => commit s (s.create row initial)
  | .revise change next, s, _ => commit s (s.revise change next)
  | .archive clientId skillId now, s, _ => ((), s.archive clientId skillId now)

abbrev SkillProgram := ExceptT PlatformError (Program SkillAction SkillAction.Answer)

def ask (a : SkillAction) : SkillProgram a.Answer := ExceptT.lift (Program.perform a)

def writeCreation (row : SkillRow) (revision : RevisionRow) : SkillProgram Unit :=
  ExceptT.mk (Program.perform (SkillAction.create row revision))

def writeRevision (change : Skills.Change) (revision : RevisionRow) : SkillProgram Unit :=
  ExceptT.mk (Program.perform (SkillAction.revise change revision))

def check {α : Type} (x : Except PlatformError α) : SkillProgram α := ExceptT.mk (pure x)

/-! ## Calls -/

def mapping? : JsonValue → Option Fields
  | .object fields => some fields
  | _ => none

def RevisionRow.content (lib : Library) (row : RevisionRow) : Content where
  instructions := row.instructions
  allowedTools := (jsonLoadsList lib row.allowedToolsJson).map lib.strOf
  inputSchema := jsonLoadsObject lib row.inputSchemaJson
  resources := (jsonLoadsList lib row.resourcesJson).filterMap mapping?

structure SkillRecord extends SkillRow where
  revision : Content

def RevisionPayload.row (payload : RevisionPayload) (skillId : String) (version : ℕ)
    (createdBy createdAt : String) : RevisionRow where
  skillId
  version
  instructions := payload.instructions
  allowedToolsJson := jsonDumps (.array (payload.allowedTools.map .text))
  inputSchemaJson := jsonDumps (.object payload.inputSchema)
  resourcesJson := jsonDumps (.array (payload.resources.map .object))
  digest := payload.digest
  createdBy
  createdAt

/-- `SkillService.get`, of the current version. -/
def get (lib : Library) (clientId skillId : String) : SkillProgram SkillRecord := do
  let clientId ← check (requireClient lib clientId)
  let skillId ← check (validateIdentifier skillId "skill_id")
  match ← ask (.select clientId skillId) with
  | none => throw (.notFound "skill was not found")
  | some skill => do
      match ← ask (.revision skillId skill.currentVersion) with
      | none => throw (.notFound "skill revision was not found")
      | some revision => return { toSkillRow := skill, revision := revision.content lib }

/-- The arguments of `create`. -/
structure CreateRequest extends RevisionRequest where
  clientId : String
  name : String
  slug : String
  description : String
  actor : Option String

def CreateRequest.row (lib : Library) (request : CreateRequest) (id now : String) :
    Except PlatformError SkillRow := do
  let clientId ← requireClient lib request.clientId
  let name ← validateText request.name "name" 1 120 true
  let slug ← skillSlug request.slug
  let description ← validateText request.description "description" 0 2000 true
  return {
    id
    clientId
    name
    slug
    description := redactText lib.words description
    status := .active
    currentVersion := 1
    createdBy := actorIdentifier request.actor
    createdAt := now
    updatedAt := now }

/-- `SkillService.create`, with the id and the time that it draws. -/
def create (lib : Library) (request : CreateRequest) (uuid : BitVec 128) (now : String) :
    SkillProgram SkillRecord := do
  let row ← check (request.row lib (uuidText uuid) now)
  let payload ← check (revisionPayload lib request.toRevisionRequest)
  writeCreation row (payload.row row.id 1 row.createdBy now)
  get lib row.clientId row.id

/-- The arguments of `update`. -/
structure UpdateRequest where
  clientId : String
  skillId : String
  actor : Option String
  name : Option String
  description : Option String
  instructions : Option String
  allowedTools : Option (List String)
  inputSchema : Option Fields
  resources : Option (List JsonValue)
  catalog : List String

def UpdateRequest.revision (request : UpdateRequest) (current : Content) : RevisionRequest where
  instructions := request.instructions.getD current.instructions
  allowedTools := request.allowedTools.getD current.allowedTools
  inputSchema := request.inputSchema.getD current.inputSchema
  resources := request.resources.getD (current.resources.map .object)
  catalog := request.catalog

def UpdateRequest.nextName (request : UpdateRequest) (current : SkillRow) :
    Except PlatformError String :=
  match request.name with
  | some name => validateText name "name" 1 120 true
  | none => .ok current.name

def UpdateRequest.nextDescription (lib : Library) (request : UpdateRequest) (current : SkillRow) :
    Except PlatformError String :=
  match request.description with
  | some description =>
      (validateText description "description" 0 2000 true).map (redactText lib.words)
  | none => .ok current.description

def UpdateRequest.change (lib : Library) (request : UpdateRequest) (current : SkillRow)
    (now : String) : Except PlatformError Skills.Change := do
  let name ← request.nextName current
  let description ← request.nextDescription lib current
  return {
    clientId := current.clientId
    skillId := current.id
    base := current.currentVersion
    name
    description
    now }

/-- The statements of an update after its checks. -/
def writeUpdate (lib : Library) (change : Skills.Change) (payload : RevisionPayload)
    (actor now : String) : SkillProgram SkillRecord := do
  let version ← ask (.currentVersion change.clientId change.skillId)
  if version = some change.base then do
    writeRevision change (payload.row change.skillId (change.base + 1) actor now)
    get lib change.clientId change.skillId
  else throw (.conflict "skill was updated concurrently")

def update (lib : Library) (request : UpdateRequest) (now : String) :
    SkillProgram SkillRecord := do
  let current ← get lib request.clientId request.skillId
  if current.status = .active then do
    let change ← check (request.change lib current.toSkillRow now)
    let payload ← check (revisionPayload lib (request.revision current.revision))
    writeUpdate lib change payload (actorIdentifier request.actor) now
  else throw (.conflict "archived skills cannot be updated")

def archive (lib : Library) (clientId skillId now : String) : SkillProgram SkillRecord := do
  let current ← get lib clientId skillId
  if current.status = .archived then return current
  else do
    ask (.archive current.clientId current.id now)
    get lib current.clientId current.id

inductive SkillCall where
  | create (request : CreateRequest) (uuid : BitVec 128) (now : String)
  | update (request : UpdateRequest) (now : String)
  | archive (clientId skillId now : String)

def SkillCall.program (lib : Library) : SkillCall → SkillProgram SkillRecord
  | create request uuid now => AgentSkills.create lib request uuid now
  | update request now => AgentSkills.update lib request now
  | archive clientId skillId now => AgentSkills.archive lib clientId skillId now

/-- The calls under way, with those that have changed a skill. -/
abbrev SkillPool (W : Type) :=
  Program.Watched W SkillCall Skills SkillAction SkillAction.Answer
    (Except PlatformError SkillRecord)

/-- Any interleaving of calls, from a store without skills. -/
def skillCalls (W : Type) [DecidableEq W] (lib : Library) :
    Machine (SkillPool W) (Program.PoolStep W SkillCall Unit) :=
  Program.watched SkillAction.answer (fun call => (call.program lib).run) .empty

end WaitLocalAgent.AgentSkills
