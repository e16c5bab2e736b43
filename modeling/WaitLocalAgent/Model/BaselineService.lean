import WaitLocalAgent.Model.Assets
import WaitLocalAgent.Model.BaselineDrift
import WaitLocalAgent.Model.ClientBaselines
import WaitLocalAgent.Model.OperationalGraph
import WaitLocalAgent.Model.PollLeases
import WaitLocalAgent.Model.Tenancy

/-! # The baseline service

It observes a client, keeps what it observed as a baseline, and compares a baseline with what it
observes later. -/

namespace WaitLocalAgent.Baselines

open Foundation JsonValue Redaction
open OperationalGraph (EntityRef)
open Assets (CanonicalAsset)
open Tenancy (ConnectorInstance ConnectorInstanceStatus)
open Polling (SyncCursor CursorStatus)

/-- The rows that `compose_baseline` reads. -/
structure Inventory where
  entityRefs : Table EntityRef.id
  canonicalAssets : List CanonicalAsset
  connectorInstances : Table ConnectorInstance.connectorInstanceId
  syncCursors : Table SyncCursor.key
  /-- `unique (client_id, canonical_id)`, which does not bind the rows without a client. -/
  unique : ∀ clientId : ClientId,
    ((canonicalAssets.filter fun asset => asset.clientId = some clientId).map
      CanonicalAsset.canonicalId).Nodup

namespace Inventory

variable (inv : Inventory) (clientId : ClientId)

def listEntityRefs : List EntityRef :=
  (inv.entityRefs.rows.filter fun ref => ref.clientId = clientId).insertionSort
    fun ref other => ref.id ≤ other.id

def listCanonicalAssets : List CanonicalAsset :=
  (inv.canonicalAssets.filter fun asset => asset.clientId = some clientId).insertionSort
    fun asset other => asset.displayName < other.displayName ∨
      (asset.displayName = other.displayName ∧ asset.canonicalId ≤ other.canonicalId)

def listConnectorInstances : List ConnectorInstance :=
  (inv.connectorInstances.rows.insertionSort fun row other =>
    row.connectorType < other.connectorType ∨
      (row.connectorType = other.connectorType ∧ (row.displayName < other.displayName ∨
        (row.displayName = other.displayName ∧
          row.connectorInstanceId.val ≤ other.connectorInstanceId.val)))).filter
    fun row => row.clientId = some clientId

def listSyncCursors : List SyncCursor :=
  inv.syncCursors.rows.insertionSort fun row other =>
    row.connectorInstanceId.val < other.connectorInstanceId.val ∨
      (row.connectorInstanceId = other.connectorInstanceId ∧
        row.cursorType.val ≤ other.cursorType.val)

end Inventory

def instanceStatusText : ConnectorInstanceStatus → String
  | .inactive => "inactive"
  | .active => "active"
  | .error => "error"
  | .disabled => "disabled"

def cursorStatusText : CursorStatus → String
  | .idle => "idle"
  | .syncing => "syncing"
  | .degraded => "degraded"
  | .failed => "failed"

/-- What `build_dashboard_summary` answers: a number for each counter but the score, which may be
missing and else is the float of a text, and the status of each source. -/
structure Posture where
  count : String → ℕ
  secureScore : Option String
  status : String → String

/-- The provider factories of the service, and what comes of them. -/
inductive Provider where
  | notConfigured
  | failing
  | answering (posture : Posture)

/-- `_POSTURE_COUNTER_SOURCES`, whose keys are those of the summary. -/
def postureCounterSources : List (String × String) :=
  [("non_operational_services", "service_health"), ("open_service_issues", "service_issues"),
    ("secure_score_percent", "secure_scores"), ("failed_sign_ins", "sign_ins"),
    ("risky_sign_ins", "sign_ins"), ("risky_users", "risky_users"),
    ("conditional_access_policies", "conditional_access"),
    ("conditional_access_disabled", "conditional_access"),
    ("conditional_access_report_only", "conditional_access"),
    ("managed_devices", "managed_devices"), ("noncompliant_devices", "managed_devices"),
    ("unencrypted_devices", "managed_devices"), ("stale_devices", "managed_devices"),
    ("intune_apps", "intune_apps"), ("compliance_policies", "compliance_policies"),
    ("autopilot_devices", "autopilot_devices"),
    ("active_defender_incidents", "defender_incidents"),
    ("high_severity_incidents", "defender_incidents"),
    ("active_defender_alerts", "defender_alerts")]

def postureSources : List String :=
  ["service_health", "service_issues", "secure_scores", "sign_ins", "conditional_access",
    "risky_users", "intune_apps", "compliance_policies", "autopilot_devices",
    "defender_incidents", "defender_alerts", "managed_devices"]

def CoverageStatus.text : CoverageStatus → String
  | .ready => "ready"
  | .partly => "partial"
  | .blocked => "blocked"
  | .notConfigured => "not_configured"
  | .failed => "failed"

def aggregateCoverage (statuses : List CoverageStatus) : CoverageStatus :=
  if !statuses.isEmpty && statuses.all (· = .ready) then .ready
  else if statuses.any (· = .failed) then .failed
  else if statuses.any (· = .blocked) then .blocked
  else if statuses.any (· = .partly) then .partly
  else .notConfigured

def instanceStatus (row : ConnectorInstance) (cursors : List SyncCursor) : CoverageStatus :=
  let status := coverageStatus (instanceStatusText row.status)
  if status ≠ .ready then status
  else
    let cursorStatuses := cursors.map fun cursor => coverageStatus (cursorStatusText cursor.status)
    if cursorStatuses.any (· = .failed) then .failed
    else if cursorStatuses.any (· ≠ .ready) then .partly
    else .ready

def groupCounts (values : List String) : List (String × JsonValue) :=
  byKey (values.dedup.map fun value => (value, .int (values.count value)))

/-- SHA-256, the word characters and the floats. -/
structure BaselineLibrary where
  sha256 : String → String
  words : WordClass
  floats : FloatRepr
  number : String → ℚ

/-- What `compose_baseline` returns of a client. -/
structure Observation where
  sourceCoverage : List (String × CoverageStatus)
  summary : List (String × JsonValue)
  sections : List (String × JsonValue)

namespace BaselineLibrary

variable (lib : BaselineLibrary)

/-- The coverage of the posture's sources, and the counters whose source is ready. -/
def posture : Provider → List (String × CoverageStatus) × List (String × JsonValue)
  | .notConfigured => ([("microsoft_posture", .notConfigured)], [])
  | .failing => ([("microsoft_posture", .failed)], [])
  | .answering posture =>
      let sources := postureSources.map fun source =>
        ("microsoft:" ++ source, coverageStatus (posture.status source))
      let summary := postureCounterSources.filterMap fun (counter, source) =>
        if coverageStatus (posture.status source) = .ready then
          some (counter, if counter = "secure_score_percent" then
              posture.secureScore.elim .null fun score => .float (lib.floats.repr score)
            else .int (posture.count counter))
        else none
      (sources ++ [("microsoft_posture", aggregateCoverage (sources.map Prod.snd))], summary)

def connectorStatuses (inv : Inventory) (clientId : ClientId) : List (String × CoverageStatus) :=
  (inv.listConnectorInstances clientId).map fun row =>
    (row.connectorInstanceId.val, instanceStatus row (inv.listSyncCursors.filter fun cursor =>
      cursor.connectorInstanceId = row.connectorInstanceId))

def environmentGraph (refs : List EntityRef) : JsonValue :=
  .object
    [("entity_type_counts", .object (groupCounts (refs.map EntityRef.entityType))),
      ("source_counts", .object (groupCounts (refs.map EntityRef.sourceSystem)))]

def canonicalAssets (assets : List CanonicalAsset) : JsonValue :=
  .object
    [("asset_type_counts", .object (groupCounts (assets.map CanonicalAsset.assetType))),
      ("assets", .object ((assets.filter fun asset => asset.canonicalId ≠ "").map fun asset =>
        (asset.canonicalId, .object [("asset_type", .text asset.assetType)])))]

def connectorReadiness (statuses : List (String × CoverageStatus)) (cursors : List SyncCursor) :
    JsonValue :=
  .object
    [("instances", .object (statuses.map fun entry => (entry.1, .text entry.2.text))),
      ("cursors", .object ((cursors.filter fun cursor =>
          (statuses.map Prod.fst).contains cursor.connectorInstanceId.val).foldl
        (fun fields cursor =>
          JsonValue.set fields (cursor.connectorInstanceId.val ++ ":" ++ cursor.cursorType.val)
            (.object [("status", .text (cursorStatusText cursor.status)),
              ("last_synced_at", cursor.lastSyncedAt.elim .null fun at_ => .text at_.val)])) []))]

def observe (inv : Inventory) (provider : Provider) (clientId : ClientId) : Observation :=
  let (microsoftCoverage, microsoftSummary) := lib.posture provider
  let statuses := connectorStatuses inv clientId
  let sections :=
    [("microsoft_posture", .object [("summary", .object microsoftSummary)]),
      ("environment_graph", environmentGraph (inv.listEntityRefs clientId)),
      ("canonical_assets", canonicalAssets (inv.listCanonicalAssets clientId)),
      ("connector_readiness", connectorReadiness statuses inv.listSyncCursors)]
  { sourceCoverage := microsoftCoverage ++
      [("environment_graph", .ready), ("canonical_assets", .ready)] ++
      statuses.map (fun entry => ("connector:" ++ entry.1, entry.2)) ++
      [("connector_readiness", aggregateCoverage
        (if statuses.isEmpty then [.notConfigured] else statuses.map Prod.snd))]
    summary :=
      [("hash", .text (normalizedHash lib.sha256 sections)),
        ("section_hashes", .object (sections.map fun entry =>
          (entry.1, .text (normalizedHash lib.sha256 [entry])))),
        ("microsoft_summary", .object microsoftSummary)]
    sections }

def composeBaseline (inv : Inventory) (provider : Provider) (clientId : String) :
    Except BaselineError Observation :=
  match normalizeClientId (some clientId) with
  | none => .error (.valueError "client_id must be non-empty")
  | some clientId => .ok (lib.observe inv provider clientId)

def coverageFields (coverage : List (String × CoverageStatus)) : List (String × JsonValue) :=
  coverage.map fun entry => (entry.1, .text entry.2.text)

/-- `create_baseline`, at a time and with the id that the store draws. -/
def createBaseline (limit : LimitOne) (s : BaselineStore) (inv : Inventory) (provider : Provider)
    (clientId generatedAt : String) (drawn : NormalizedText) :
    Except BaselineError (BaselineStore × Option ClientBaseline) := do
  let snapshot ← lib.composeBaseline inv provider clientId
  s.createClientBaseline lib.words limit
    { clientId
      generatedAt
      sourceCoverage := coverageFields snapshot.sourceCoverage
      summary := snapshot.summary
      sections := snapshot.sections
      baselineId := none
      drawn }

/-- What `diff_baseline` returns: the baseline that it took, what was found and the fresh
coverage. -/
structure BaselineDiff where
  baseline : ClientBaseline
  findings : List Finding
  sourceCoverage : List (String × CoverageStatus)

/-- The baseline that `diff_baseline` takes: the version that is asked for, else the accepted one,
else the latest one. -/
def selectBaseline (limit : LimitOne) (s : BaselineStore) (clientId : String) :
    Option ℤ → Except BaselineError (Option ClientBaseline)
  | some version => s.getClientBaseline limit (.text clientId) version
  | none => do
      let accepted ← s.getAcceptedClientBaseline limit (.text clientId)
      let versions ← s.listClientBaselines (.text clientId)
      return accepted <|> versions.head?

def diffBaseline (limit : LimitOne) (s : BaselineStore) (inv : Inventory) (provider : Provider)
    (clientId : String) (baselineVersion : Option ℤ) :
    Except BaselineError (Option BaselineDiff) := do
  let baseline ← selectBaseline limit s clientId baselineVersion
  match baseline with
  | none => return none
  | some baseline => do
      let fresh ← lib.composeBaseline inv provider clientId
      return some
        { baseline
          findings := compareNormalizedSections lib.number lib.sha256
            (jsonObject lib.floats.repr baseline.sectionsJson) fresh.sections
            (some (jsonObject lib.floats.repr baseline.sourceCoverageJson))
            (some (coverageFields fresh.sourceCoverage))
          sourceCoverage := fresh.sourceCoverage }

end BaselineLibrary

end WaitLocalAgent.Baselines
