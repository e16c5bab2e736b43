import WaitLocalAgent.Foundation.Pieces
import WaitLocalAgent.Model.AgentSkills
import WaitLocalAgent.Model.BaselineDrift

/-! # Skill tests

`SkillService.test`: the sample is validated against the schema of a revision, and the instructions
are rendered with it. -/

namespace WaitLocalAgent.AgentSkills

open Foundation JsonValue Redaction AgentPlatform

inductive ReferenceSource where
  | input
  | memory
  deriving DecidableEq

/-- What `_TEMPLATE_RE` captures. -/
structure Reference where
  source : ReferenceSource
  path : List Char
  deriving DecidableEq

/-- `(input|memory)\.`. -/
def afterSource? (cs : List Char) : Option (ReferenceSource × List Char) :=
  if "input.".toList.isPrefixOf cs then some (.input, cs.drop 6)
  else if "memory.".toList.isPrefixOf cs then some (.memory, cs.drop 7)
  else none

/-- `_TEMPLATE_RE`, at a position: the reference, and the length of the match. -/
def templateRe : List Char → Option (Reference × ℕ)
  | '{' :: '{' :: rest =>
      match afterSource? (rest.dropWhile Text.isSpace) with
      | none => none
      | some (source, cs) =>
          let tail := (cs.dropWhile isIdentifierChar).dropWhile Text.isSpace
          if cs.takeWhile isIdentifierChar ≠ [] ∧ (cs.takeWhile isIdentifierChar).length ≤ 128 ∧
              "\x7d\x7d".toList.isPrefixOf tail then
            some (⟨source, cs.takeWhile isIdentifierChar⟩, rest.length + 4 - tail.length)
          else none
  | _ => none

def Reference.segments (r : Reference) : List String := (r.path.splitOn '.').map String.ofList

def lookup : List String → JsonValue → Option JsonValue
  | [], value => some value
  | segment :: segments, .object fields => (get? fields segment).bind (lookup segments)
  | _ :: _, _ => none

def Reference.value? (r : Reference) (sampleInput memory : Fields) : Option JsonValue :=
  match r.source with
  | .input => lookup r.segments (.object sampleInput)
  | .memory => lookup r.segments (.object memory)

/-- `json_dumps(value)` of a mapping or a list, and `str(value)` of any other value. -/
def renderValue (lib : Library) : JsonValue → String
  | .array items => jsonDumps (.array items)
  | .object fields => jsonDumps (.object fields)
  | value => lib.strOf value

def replaceReference (lib : Library) (sampleInput memory : Fields) (r : Reference)
    (raw : List Char) : List Char :=
  match r.value? sampleInput memory with
  | some value => (renderValue lib value).toList
  | none => raw

def render (lib : Library) (template : String) (sampleInput memory : Fields) : String :=
  .ofList (substitute templateRe (replaceReference lib sampleInput memory) template.toList)

def schemaTypeOf (schema : Fields) : JsonValue := (get? schema "type").getD (.text "object")

def hasType (type : String) : JsonValue → Bool
  | .object _ => type == "object"
  | .array _ => type == "array"
  | .text _ => type == "string"
  | .int _ => type == "integer" || type == "number"
  | .float _ => type == "number"
  | .bool _ => type == "boolean"
  | .null => false

def intBound? : Option JsonValue → Option ℤ
  | some (.int bound) => some bound
  | some (.bool bound) => some (if bound then 1 else 0)
  | _ => none

/-- The names under `required`, if it is a list; the definition of the schema allows texts alone. -/
def requiredOf (lib : Library) (schema : Fields) : List String :=
  match get? schema "required" with
  | some (.array names) => names.map lib.strOf
  | _ => []

/-- `schema.get("properties", {})`, if it is a mapping. -/
def propertiesOf (schema : Fields) : Option Fields :=
  match (get? schema "properties").getD (.object []) with
  | .object properties => some properties
  | _ => none

/-- `schema.get("additionalProperties") is False`. -/
def closed (schema : Fields) : Bool :=
  match get? schema "additionalProperties" with
  | some (.bool false) => true
  | _ => false

def enumErrors (number : String → ℚ) (schema : Fields) (path : String) (value : JsonValue) :
    List String :=
  match get? schema "enum" with
  | some (.array values) =>
      if values.any fun v => Baselines.pyEq number v value then []
      else [s!"{path} must be one of the declared enum values"]
  | _ => []

def requiredErrors (lib : Library) (schema : Fields) (path : String) (fields : Fields) :
    List String :=
  ((requiredOf lib schema).filter fun name => (get? fields name).isNone).map fun name =>
    s!"{path}.{name} is required"

def additionalErrors (schema : Fields) (path : String) (fields : Fields) : List String :=
  match propertiesOf schema with
  | some properties =>
      if closed schema then
        (fields.filter fun entry => (get? properties entry.1).isNone).map fun entry =>
          s!"{path}.{entry.1} is not allowed"
      else []
  | none => []

/-- The errors of `minItems` and `maxItems`, or of `minLength` and `maxLength`. -/
def boundErrors (schema : Fields) (low high unit path : String) (length : ℕ) : List String :=
  (match intBound? (get? schema low) with
    | some minimum =>
        if length < minimum then [s!"{path} must contain at least {minimum} {unit}"] else []
    | none => []) ++
  (match intBound? (get? schema high) with
    | some maximum =>
        if maximum < length then [s!"{path} must contain at most {maximum} {unit}"] else []
    | none => [])

section Validation

variable (lib : Library) (number : String → ℚ)

mutual

def validateSchema : JsonValue → String → JsonValue → List String
  | .object schema, path, value =>
      match schemaTypeOf schema with
      | .text type =>
          if hasType type value then
            (enumErrors number schema path value ++
              match value with
              | .object fields =>
                  requiredErrors lib schema path fields ++ propertyErrors schema path fields ++
                    additionalErrors schema path fields
              | .array items =>
                  boundErrors schema "minItems" "maxItems" "items" path items.length ++
                    itemErrors schema path items
              | .text s =>
                  boundErrors schema "minLength" "maxLength" "characters" path s.length
              | _ => []).take 100
          else [s!"{path} must be {type}"]
      | type => [s!"{path} must be {lib.str type}"]
  | _, _, _ => []

def propertyErrors : List (String × JsonValue) → String → Fields → List String
  | [], _, _ => []
  | (key, .object properties) :: schema, path, fields =>
      if key = "properties" then childErrors properties path fields
      else propertyErrors schema path fields
  | (key, _) :: schema, path, fields =>
      if key = "properties" then [] else propertyErrors schema path fields

def childErrors : List (String × JsonValue) → String → Fields → List String
  | [], _, _ => []
  | (name, .object child) :: children, path, fields =>
      (match get? fields name with
        | some value => validateSchema (.object child) s!"{path}.{name}" value
        | none => []) ++ childErrors children path fields
  | _ :: children, path, fields => childErrors children path fields

def itemErrors : List (String × JsonValue) → String → List JsonValue → List String
  | [], _, _ => []
  | (key, .object child) :: schema, path, items =>
      if key = "items" then
        (items.mapIdx fun index item =>
          validateSchema (.object child) s!"{path}[{index}]" item).flatten
      else itemErrors schema path items
  | (key, _) :: schema, path, items =>
      if key = "items" then [] else itemErrors schema path items

end

end Validation

/-- What the test reads of a tool's manifest. -/
structure Manifest where
  actionId : String
  title : String
  riskLevel : String
  requiredRole : String
  requiresApproval : Bool
  accessMode : String

/-- `{manifest.action_id: manifest for manifest in …}`, in which the last one counts. -/
def tool? (catalog : List Manifest) (toolId : String) : Option Manifest :=
  catalog.reverse.find? fun manifest => manifest.actionId = toolId

/-- `SkillService.get`, of a given version or the current one, on one state of the store. -/
def getVersion (lib : Library) (s : Skills) (clientId skillId : String) (version : Option ℤ) :
    Except PlatformError (SkillRow × RevisionRow) := do
  let clientId ← requireClient lib clientId
  let skillId ← validateIdentifier skillId "skill_id"
  match s.select clientId skillId with
  | none => .error (.notFound "skill was not found")
  | some skill => do
      raiseIf (version.any fun v => v < 1) (.invalid "version must be a positive integer")
      match s.revisions.find? (skillId, (version.map Int.toNat).getD skill.currentVersion) with
      | none => .error (.notFound "skill revision was not found")
      | some revision => return (skill, revision)

/-- `cast(dict[str, object], …)`. -/
def asFields : JsonValue → Fields
  | .object fields => fields
  | _ => []

/-- The arguments of `test`. -/
structure TestRequest where
  clientId : String
  skillId : String
  sampleInput : Fields
  memory : Fields
  actor : Option String
  version : Option ℤ

/-- What is tested: the revision, and the redacted sample and memory. -/
structure TestSubject where
  skill : SkillRow
  version : ℕ
  revision : Content
  actor : String
  sampleInput : Fields
  memory : Fields

def TestRequest.subject (lib : Library) (s : Skills) (request : TestRequest) :
    Except PlatformError TestSubject := do
  let (skill, revision) ← getVersion lib s request.clientId request.skillId request.version
  let sampleInput ← safeJsonValue lib (redactValue lib.words (.object request.sampleInput)) 32768
  let memory ← safeJsonValue lib (redactValue lib.words (.object request.memory)) 16384
  return {
    skill
    version := revision.version
    revision := revision.content lib
    actor := actorIdentifier request.actor
    sampleInput := asFields sampleInput
    memory := asFields memory }

namespace TestSubject

variable (t : TestSubject) (lib : Library) (number : String → ℚ) (catalog : List Manifest)

def missingTools : List String :=
  t.revision.allowedTools.filter fun toolId => (tool? catalog toolId).isNone

def rendered : String := render lib t.revision.instructions t.sampleInput t.memory

/-- The templates in the rendered instructions. -/
def unresolved : List String :=
  (((matchesIn templateRe (t.rendered lib).toList).map fun found =>
    String.ofList found.2).dedup).insertionSort (· ≤ ·)

def errors : List String :=
  validateSchema lib number (.object t.revision.inputSchema) "input" (.object t.sampleInput) ++
    (if t.missingTools catalog ≠ [] then
      ["tool catalog no longer contains: " ++
        ", ".intercalate ((t.missingTools catalog).insertionSort (· ≤ ·))]
    else []) ++
    (if t.unresolved lib ≠ [] then
      ["unresolved template values: " ++ ", ".intercalate (t.unresolved lib)]
    else [])

def toolPlan : List JsonValue :=
  t.revision.allowedTools.filterMap fun toolId => (tool? catalog toolId).map fun manifest =>
    .object [("tool_id", .text toolId), ("title", .text manifest.title),
      ("risk_level", .text manifest.riskLevel), ("required_role", .text manifest.requiredRole),
      ("approval_required", .bool manifest.requiresApproval),
      ("access_mode", .text manifest.accessMode)]

def output : Fields :=
  [("side_effects", .bool false), ("skill_id", .text t.skill.id), ("skill_version", .int t.version),
    ("rendered_instructions", .text (.ofList
      ((redactText lib.words (t.rendered lib)).toList.take maxSkillInstructions))),
    ("tool_plan", .array (t.toolPlan catalog)),
    ("resource_manifest", .array (t.revision.resources.map fun resource => .object
      (["name", "media_type", "byte_size", "sha256"].map fun key =>
        (key, JsonValue.get resource key)))),
    ("validation_errors", .array ((t.errors lib number catalog).map .text))]

end TestSubject

inductive TestStatus where
  | passed
  | failed
  deriving DecidableEq, Repr

structure SkillTestRun where
  id : ℕ
  skillId : String
  skillVersion : ℕ
  clientId : String
  actor : String
  inputDigest : String
  status : TestStatus
  output : Fields
  errorDetail : String
  createdAt : String

/-- `SkillTestRun(…)`, under the id of the row and with the time. -/
def TestSubject.report (t : TestSubject) (lib : Library) (number : String → ℚ)
    (catalog : List Manifest) (id : ℕ) (now : String) : SkillTestRun where
  id
  skillId := t.skill.id
  skillVersion := t.version
  clientId := t.skill.clientId
  actor := t.actor
  inputDigest := digestJson lib (.object t.sampleInput)
  status := if t.errors lib number catalog ≠ [] then .failed else .passed
  output := t.output lib number catalog
  errorDetail := .ofList (("; ".intercalate (t.errors lib number catalog)).toList.take 4000)
  createdAt := now

def test (lib : Library) (number : String → ℚ) (catalog : List Manifest) (s : Skills)
    (request : TestRequest) (id : ℕ) (now : String) : Except PlatformError SkillTestRun := do
  let t ← request.subject lib s
  return t.report lib number catalog id now

end WaitLocalAgent.AgentSkills
