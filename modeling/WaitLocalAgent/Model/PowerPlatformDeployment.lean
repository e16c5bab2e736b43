import WaitLocalAgent.Model.Redaction

/-! # Power Platform deployment requests

The staged deployment plan, the evidence of a promotion, the two routes that store an approval
request, and the plan that is rebuilt from a stored request. -/

namespace WaitLocalAgent.Deployment

open Foundation JsonValue Redaction

/-- `PowerPlatformDeploymentError`. -/
structure DeploymentError where
  message : String
  deriving DecidableEq, Repr

/-- The parts of a URL that `urlsplit` finds. -/
structure SplitUrl where
  scheme : String
  netloc : String
  username : String
  password : String
  query : String
  fragment : String
  deriving DecidableEq

/-- Library functions: `\w`, `float.__repr__`, `str.casefold`, `str(Path(directory) / name)`, and
`urlsplit`, where a `ValueError` is no URL. -/
structure Library where
  words : WordClass
  floats : FloatRepr
  casefold : String → String
  joinPath : String → String → String
  urlsplit : String → Option SplitUrl

abbrev Fields := List (String × JsonValue)

def raise {α : Type} (message : String) : Except DeploymentError α := .error ⟨message⟩

/-! ## Checks of texts -/

def hasLowControl (s : String) : Bool := s.toList.any fun c => c.toNat < 32

def text (value field : String) (maxLength : ℕ) : Except DeploymentError String := do
  raiseIf (Text.strip value = "") ⟨s!"{field} must be non-empty text"⟩
  raiseIf (maxLength < (Text.strip value).length ∨ hasLowControl (Text.strip value))
    ⟨s!"{field} is too long or contains control characters"⟩
  return Text.strip value

def isNameStart (c : Char) : Bool := PowerPlatform.isLowerLetter c || c.isDigit

def isNameChar (c : Char) : Bool := isNameStart c || c == '_' || c == '.' || c == '-'

def isIdentifier (s : String) : Bool :=
  match s.toList with
  | c :: cs => isNameStart c && decide (cs.length ≤ 63) && cs.all isNameChar
  | [] => false

def identifier (lib : Library) (value field : String) : Except DeploymentError String := do
  let normalized := lib.casefold (← text value field 64)
  raiseIf (¬ isIdentifier normalized) ⟨s!"{field} must be a lowercase identifier"⟩
  return normalized

def isHexDigit (c : Char) : Bool := c.isDigit || ('a' ≤ c && c ≤ 'f')

def isDigest (s : String) : Bool :=
  "sha256:".toList.isPrefixOf s.toList && decide (s.toList.length = 71) &&
    (s.toList.drop 7).all isHexDigit

def digest (value : JsonValue) (field : String) : Except DeploymentError String :=
  match value with
  | .text s =>
      if isDigest (Text.strip s) then .ok (Text.strip s)
      else raise s!"{field} must be a sha256 digest"
  | _ => raise s!"{field} must be a sha256 digest"

def safeEnvironmentUrl (lib : Library) (value : String) : Except DeploymentError Bool :=
  if 253 < (Text.strip value).length ∨ hasLowControl value then .ok false
  else
    match lib.urlsplit (Text.strip value) with
    | none => raise "ValueError"
    | some url => .ok (url.scheme == "https" && url.netloc != "" && url.username == "" &&
        url.password == "" && url.query == "" && url.fragment == "")

/-! ## Plans -/

structure Target where
  name : String
  environmentUrl : String
  deriving DecidableEq, Repr

def Target.json (target : Target) : JsonValue :=
  .object [("name", .text target.name), ("environment_url", .text target.environmentUrl)]

structure StagePlan where
  id : String
  name : String
  commands : List (List String)
  promotionRequired : Bool
  sourceStage : Option String
  deriving DecidableEq, Repr

structure SolutionPlan where
  name : String
  publisherName : String
  publisherPrefix : String
  outputDirectory : String
  deriving DecidableEq, Repr

structure Plan where
  solution : SolutionPlan
  targets : List Target
  stages : List StagePlan
  deriving DecidableEq, Repr

def targetNames : List String := ["dev", "test", "prod"]

/-- `_PROMOTION_SOURCE_STAGES`; no entry is a stage that does not exist. -/
def promotionSource? : String → Option (Option String)
  | "build" => some none
  | "dev" => some none
  | "test" => some (some "dev")
  | "prod" => some (some "test")
  | _ => none

/-- `raw.get(key) == expected`, for a text. -/
def holdsText (raw : Fields) (key expected : String) : Bool :=
  match JsonValue.get? raw key with
  | some (.text s) => s == expected
  | _ => false

/-- `_TARGET_NAMES[:count]`, in a message. -/
def firstTargets : ℕ → String
  | 1 => "('dev',)"
  | 2 => "('dev', 'test')"
  | _ => "('dev', 'test', 'prod')"

def target (lib : Library) (count : ℕ) (expected : String) (raw : Fields) :
    Except DeploymentError Target := do
  raiseIf (¬ holdsText raw "name" expected)
    ⟨s!"deployment targets must be ordered as {firstTargets count}"⟩
  match JsonValue.get? raw "environment_url" with
  | some (.text url) => do
      raiseIf (¬ (← safeEnvironmentUrl lib url))
        ⟨s!"{expected}.environment_url must be a safe HTTPS URL"⟩
      return ⟨expected, Text.strip url⟩
  | _ => raise s!"{expected}.environment_url must be a safe HTTPS URL"

/-- The targets of `_targets`, beside the names they have to bear. -/
def namedTargets (lib : Library) (count : ℕ) : List String → List Fields →
    Except DeploymentError (List Target)
  | name :: names, raw :: raws => do
      let target ← target lib count name raw
      return target :: (← namedTargets lib count names raws)
  | _, _ => .ok []

def targets (lib : Library) (raws : List Fields) : Except DeploymentError (List Target) := do
  raiseIf (¬ (1 ≤ raws.length ∧ raws.length ≤ 3))
    ⟨"deployment_targets must contain 1-3 items"⟩
  namedTargets lib raws.length targetNames raws

/-- The stage that imports the solution into a target. -/
def Target.stage (target : Target) (archive : String) : StagePlan where
  id := target.name
  name := s!"Import solution into {target.name.toUpper}"
  commands := [["pac", "solution", "import", "--path", archive, "--environment",
    target.environmentUrl]]
  promotionRequired := target.name == "test" || target.name == "prod"
  sourceStage := (promotionSource? target.name).getD none

/-- The texts of a request. -/
structure SolutionTexts where
  solutionName : String
  publisherName : String
  publisherPrefix : String
  outputDirectory : String

/-- `[A-Za-z][A-Za-z0-9]{1,7}`. -/
def isPublisherPrefix (s : String) : Bool :=
  match s.toList with
  | c :: cs => c.isAlpha && decide (1 ≤ cs.length ∧ cs.length ≤ 7) && cs.all Char.isAlphanum
  | [] => false

def solutionPlan (lib : Library) (texts : SolutionTexts) :
    Except DeploymentError SolutionPlan := do
  let name ← identifier lib texts.solutionName "solution_name"
  let publisher ← text texts.publisherName "publisher_name" 100
  raiseIf (¬ publisher.toList.all fun c => c.isAlphanum || c == '_')
    ⟨"publisher_name may contain only letters, numbers, and underscores"⟩
  raiseIf (¬ isPublisherPrefix texts.publisherPrefix)
    ⟨"publisher_prefix must be 2-8 alphanumeric characters and start with a letter"⟩
  let directory ← text texts.outputDirectory "output_directory" 240
  return ⟨name, publisher, texts.publisherPrefix, directory⟩

def buildStage (lib : Library) (solution : SolutionPlan) : StagePlan where
  id := "build"
  name := "Build (pac solution pack)"
  commands := [["pac", "solution", "pack", "--folder", solution.outputDirectory, "--zipfile",
    lib.joinPath solution.outputDirectory s!"{solution.name}.zip", "--packagetype", "Unmanaged"]]
  promotionRequired := false
  sourceStage := none

def buildPlan (lib : Library) (texts : SolutionTexts) (raws : List Fields) :
    Except DeploymentError Plan := do
  let solution ← solutionPlan lib texts
  let targets ← targets lib raws
  let archive := lib.joinPath texts.outputDirectory s!"{solution.name}.zip"
  return ⟨solution, targets, buildStage lib solution :: targets.map (Target.stage · archive)⟩

/-! ## Evidence -/

structure PromotionEvidence where
  sourceStage : String
  sourceApprovalRequestId : ℤ
  artifactDigest : String
  caseCount : ℤ
  strategy : String
  rollbackDigest : String
  deriving DecidableEq, Repr

def PromotionEvidence.fields (e : PromotionEvidence) : Fields :=
  [("source_stage", .text e.sourceStage), ("source_status", .text "succeeded"),
    ("source_approval_request_id", .int e.sourceApprovalRequestId),
    ("artifact_digest", .text e.artifactDigest),
    ("evaluation",
      .object [("production_readiness", .text "pass"), ("case_count", .int e.caseCount)]),
    ("governance", .object [("status", .text "pass")]),
    ("rollback", .object [("available", .bool true), ("strategy", .text e.strategy),
      ("artifact_digest", .text e.rollbackDigest)])]

def rejectKeys (value : Fields) (allowed : List String) (field : String) :
    Except DeploymentError Unit :=
  let unknown :=
    ((value.map Prod.fst).filter fun key => !allowed.contains key).insertionSort (· ≤ ·)
  let names := String.intercalate ", " unknown
  raiseIf (unknown ≠ []) ⟨s!"{field} contains unsupported fields: {names}"⟩

def evidenceKeys : List String :=
  ["source_stage", "source_status", "source_approval_request_id", "artifact_digest", "evaluation",
    "governance", "rollback"]

def sourceApprovalId (raw : Fields) : Except DeploymentError ℤ :=
  match JsonValue.get? raw "source_approval_request_id" with
  | some (.int n) => do
      raiseIf (n ≤ 0)
        ⟨"promotion_evidence.source_approval_request_id must be a positive integer"⟩
      return n
  | _ => raise "promotion_evidence.source_approval_request_id must be a positive integer"

/-- `evaluation`, of which the number of cases is kept. -/
def evaluation (raw : Fields) : Except DeploymentError ℤ :=
  match JsonValue.get? raw "evaluation" with
  | some (.object evaluation) => do
      raiseIf (¬ holdsText evaluation "production_readiness" "pass")
        ⟨"promotion_evidence.evaluation must have production_readiness=pass"⟩
      match (JsonValue.get? evaluation "case_count").getD (.int 0) with
      | .int n => do
          raiseIf (¬ (0 ≤ n ∧ n ≤ 100000))
            ⟨"promotion_evidence.evaluation.case_count must be a bounded integer"⟩
          return n
      | _ => raise "promotion_evidence.evaluation.case_count must be a bounded integer"
  | _ => raise "promotion_evidence.evaluation must have production_readiness=pass"

def governance (raw : Fields) : Except DeploymentError Unit :=
  match JsonValue.get? raw "governance" with
  | some (.object governance) => raiseIf (¬ holdsText governance "status" "pass")
      ⟨"promotion_evidence.governance must have status=pass"⟩
  | _ => raise "promotion_evidence.governance must have status=pass"

def holdsTrue (raw : Fields) (key : String) : Bool :=
  match JsonValue.get? raw key with
  | some (.bool true) => true
  | _ => false

/-- `rollback`, of which the strategy and the digest are kept. -/
def rollback (raw : Fields) : Except DeploymentError (String × String) :=
  match JsonValue.get? raw "rollback" with
  | some (.object rollback) => do
      raiseIf (¬ holdsTrue rollback "available")
        ⟨"promotion_evidence.rollback.available must be true"⟩
      match JsonValue.get? rollback "strategy" with
      | some (.text strategy) => do
          raiseIf (¬ (1 ≤ (Text.strip strategy).length ∧ (Text.strip strategy).length ≤ 120))
            ⟨"promotion_evidence.rollback.strategy is required"⟩
          let rollbackDigest ← digest (JsonValue.get rollback "artifact_digest")
            "promotion_evidence.rollback.artifact_digest"
          return (Text.strip strategy, rollbackDigest)
      | _ => raise "promotion_evidence.rollback.strategy is required"
  | _ => raise "promotion_evidence.rollback.available must be true"

def promotionEvidence (source : String) (raw : Fields) :
    Except DeploymentError PromotionEvidence := do
  rejectKeys raw evidenceKeys "promotion_evidence"
  raiseIf (¬ holdsText raw "source_stage" source)
    ⟨s!"promotion_evidence.source_stage must be {source}"⟩
  raiseIf (¬ holdsText raw "source_status" "succeeded")
    ⟨"promotion_evidence.source_status must be succeeded"⟩
  let sourceId ← sourceApprovalId raw
  let artifactDigest ← digest (JsonValue.get raw "artifact_digest")
    "promotion_evidence.artifact_digest"
  let caseCount ← evaluation raw
  governance raw
  let (strategy, rollbackDigest) ← rollback raw
  return ⟨source, sourceId, artifactDigest, caseCount, strategy, rollbackDigest⟩

def validatePromotionEvidence (stage : String) (evidence : JsonValue) :
    Except DeploymentError (Option PromotionEvidence) :=
  match promotionSource? stage with
  | none => raise "stage must be build, dev, test, or prod"
  | some none =>
      match evidence with
      | .object [] | .null => .ok none
      | _ => raise s!"{stage} does not accept promotion_evidence"
  | some (some source) =>
      match evidence with
      | .object (f :: fs) => do return some (← promotionEvidence source (f :: fs))
      | _ => raise s!"{stage} requires promotion_evidence"

def rollbackStrategy : String := "reimport_previous_package"

def validateRollbackEvidence (evidence : JsonValue) : Except DeploymentError String :=
  match evidence with
  | .object raw => do
      rejectKeys raw ["available", "strategy", "artifact_digest"] "rollback_evidence"
      raiseIf (¬ holdsTrue raw "available") ⟨"rollback_evidence is not available"⟩
      raiseIf (¬ holdsText raw "strategy" rollbackStrategy)
        ⟨"rollback_evidence.strategy is unsupported"⟩
      digest (JsonValue.get raw "artifact_digest") "rollback_evidence.artifact_digest"
  | _ => raise "rollback_evidence must be an object"

/-! ## Source of a promotion -/

/-- `_power_platform_source_record`, and the payload of the approval. -/
structure SourceRecord where
  id : ℤ
  clientId : String
  actionType : String
  status : String
  executionStatus : String
  payload : Fields
  executionResult : Fields

/-- The texts that the payloads of both stages have to share. -/
def sharedKeys : List String :=
  ["solution_name", "publisher_name", "publisher_prefix", "deployment_targets"]

mutual

/-- `==` of two values without numbers, whose objects have distinct keys. -/
def sameValue : JsonValue → JsonValue → Bool
  | .null, .null => true
  | .bool a, .bool b => a == b
  | .int a, .int b => a == b
  | .float a, .float b => a == b && a != "nan"
  | .text a, .text b => a == b
  | .array as, .array bs => sameItems as bs
  | .object as, .object bs => as.length == bs.length && sameFields as bs
  | _, _ => false

def sameItems : List JsonValue → List JsonValue → Bool
  | [], [] => true
  | a :: as, b :: bs => sameValue a b && sameItems as bs
  | _, _ => false

/-- Each field of the first object is one of the second. -/
def sameFields : List (String × JsonValue) → List (String × JsonValue) → Bool
  | [], _ => true
  | (key, a) :: as, bs =>
      (match JsonValue.get? bs key with | some b => sameValue a b | none => false) &&
        sameFields as bs

end

/-- `a.get(key) == b.get(key)`. -/
def agree (a b : Fields) (key : String) : Bool :=
  sameValue (JsonValue.get a key) (JsonValue.get b key)

/-- `validate_promotion_source`, for evidence of a source stage and a payload of the client. -/
def validatePromotionSource (evidence : PromotionEvidence) (source : Option SourceRecord)
    (clientId : String) (payload : Fields) : Except DeploymentError Unit :=
  match source with
  | none => raise "promotion evidence source approval was not found"
  | some record => do
      raiseIf (record.id ≠ evidence.sourceApprovalRequestId)
        ⟨"promotion evidence source approval does not match"⟩
      raiseIf (record.clientId ≠ clientId)
        ⟨"promotion evidence source approval is outside the tenant scope"⟩
      raiseIf (record.actionType ≠ "power_platform.solution_stage")
        ⟨"promotion evidence source approval has the wrong action type"⟩
      raiseIf (record.status ≠ "approved")
        ⟨"promotion evidence source approval is not approved"⟩
      raiseIf (record.executionStatus ≠ "succeeded")
        ⟨"promotion evidence source stage has not succeeded"⟩
      raiseIf (¬ holdsText record.payload "stage" evidence.sourceStage)
        ⟨s!"promotion evidence source stage must be {evidence.sourceStage}"⟩
      match sharedKeys.find? fun key => !agree record.payload payload key with
      | some key => raise s!"promotion evidence source {key} does not match"
      | none => do
          raiseIf (¬ holdsText record.executionResult "status" "succeeded")
            ⟨"promotion evidence source execution result is not succeeded"⟩
          raiseIf (¬ holdsText record.executionResult "artifact_digest" evidence.artifactDigest)
            ⟨"promotion evidence artifact digest does not match source execution"⟩

/-! ## Requests -/

/-- The stages of a deployment request. -/
inductive Stage where
  | build
  | dev
  | test
  | prod
  deriving DecidableEq, Repr

def Stage.id : Stage → String
  | .build => "build"
  | .dev => "dev"
  | .test => "test"
  | .prod => "prod"

/-- `PowerPlatformDeploymentRequest`, under the client of its scope. -/
structure DeploymentRequest where
  clientId : String
  texts : SolutionTexts
  targets : List Fields
  stage : Stage
  promotionEvidence : Fields

/-- `PowerPlatformRollbackRequest`, whose stage is not that of the build. -/
structure RollbackRequest where
  clientId : String
  texts : SolutionTexts
  targets : List Fields
  stage : Stage
  notBuild : stage ≠ .build
  evidence : Fields

/-- What the approval payloads of both routes hold alike. -/
def sharedFields (clientId : String) (texts : SolutionTexts) (targets : List Target)
    (stage : Stage) : Fields :=
  [("format_version", .int 1), ("client_id", .text clientId),
    ("solution_name", .text texts.solutionName), ("publisher_name", .text texts.publisherName),
    ("publisher_prefix", .text texts.publisherPrefix),
    ("output_directory", .text texts.outputDirectory),
    ("deployment_targets", .array (targets.map Target.json)), ("stage", .text stage.id),
    ("credentials_included", .bool false)]

def DeploymentRequest.payload (request : DeploymentRequest) (targets : List Target)
    (evidence : Option PromotionEvidence) : Fields :=
  ("format", .text "wait-local-agent.power-platform.deployment-approval") ::
    ("promotion_evidence", .object ((evidence.map PromotionEvidence.fields).getD [])) ::
      sharedFields request.clientId request.texts targets request.stage

def RollbackRequest.payload (request : RollbackRequest) (targets : List Target)
    (artifactPath artifactDigest : String) : Fields :=
  ("format", .text "wait-local-agent.power-platform.rollback-approval") ::
    ("rollback_artifact_path", .text artifactPath) ::
      ("rollback_evidence", .object [("available", .bool true),
        ("strategy", .text rollbackStrategy), ("artifact_digest", .text artifactDigest)]) ::
          sharedFields request.clientId request.texts targets request.stage

/-- `request_power_platform_deployment_approval`: the plan that is shown, and the payload that is
stored. The source is the approval that the evidence names, if the caller sees it. -/
def requestDeployment (lib : Library) (source : ℤ → Option SourceRecord)
    (request : DeploymentRequest) : Except DeploymentError (Plan × Fields) := do
  let plan ← buildPlan lib request.texts request.targets
  let evidence ← validatePromotionEvidence request.stage.id (.object request.promotionEvidence)
  let payload := request.payload plan.targets evidence
  match evidence with
  | none => return (plan, payload)
  | some e => do
      validatePromotionSource e (source e.sourceApprovalRequestId) request.clientId payload
      return (plan, payload)

/-- What the file system says of the archive of a rollback: its resolved path, and its digest once
it is a valid solution package. -/
structure Archive where
  path : String
  digest : Except DeploymentError String

/-- `request_power_platform_rollback_approval`. -/
def requestRollback (lib : Library) (archive : Archive) (request : RollbackRequest) :
    Except DeploymentError (Plan × Fields) := do
  let plan ← buildPlan lib request.texts request.targets
  let expected ← validateRollbackEvidence (.object request.evidence)
  let actual ← archive.digest
  raiseIf (actual ≠ expected) ⟨"rollback artifact digest does not match rollback evidence"⟩
  return (plan, request.payload plan.targets archive.path expected)

/-- A call of one of the two request routes. -/
inductive ApprovalRequest where
  | deployment (source : ℤ → Option SourceRecord) (request : DeploymentRequest)
  | rollback (archive : Archive) (request : RollbackRequest)

def ApprovalRequest.accept (lib : Library) :
    ApprovalRequest → Except DeploymentError (Plan × Fields)
  | deployment source request => requestDeployment lib source request
  | rollback archive request => requestRollback lib archive request

/-! ## Stored requests -/

/-- The payload that `get_approval_request` hands out of a stored one. -/
def storedPayload (lib : Library) (payload : Fields) : Fields :=
  jsonObject lib.floats.repr
    (redactJsonText lib.words lib.floats.repr (jsonDumpsValue lib.words (.object payload)))

def payloadText (payload : Fields) (field : String) : Except DeploymentError String :=
  match JsonValue.get? payload field with
  | some (.text s) => .ok s
  | _ => raise s!"approval payload field {field} is invalid"

def objectFields? : JsonValue → Option Fields
  | .object fields => some fields
  | _ => none

/-- `deployment_targets`, whose items have to be objects. -/
def payloadTargets (payload : Fields) : Except DeploymentError (List Fields) :=
  match JsonValue.get? payload "deployment_targets" with
  | some (.array items) =>
      match items.mapM objectFields? with
      | some raws => .ok raws
      | none => raise "approval payload deployment_targets is invalid"
  | _ => raise "approval payload deployment_targets is invalid"

/-- `build_power_platform_deployment_plan_from_payload`, with the evidence that joins the plan. -/
def planFromPayload (lib : Library) (payload : Fields) :
    Except DeploymentError (Plan × Option PromotionEvidence) := do
  let solutionName ← payloadText payload "solution_name"
  let publisherName ← payloadText payload "publisher_name"
  let publisherPrefix ← payloadText payload "publisher_prefix"
  let outputDirectory ← payloadText payload "output_directory"
  let targets ← payloadTargets payload
  let plan ← buildPlan lib ⟨solutionName, publisherName, publisherPrefix, outputDirectory⟩ targets
  match JsonValue.get? payload "stage" with
  | some (.text stage) => do
      let evidence ← validatePromotionEvidence stage
        ((JsonValue.get? payload "promotion_evidence").getD (.object []))
      return (plan, evidence)
  | _ => return (plan, none)

end WaitLocalAgent.Deployment
