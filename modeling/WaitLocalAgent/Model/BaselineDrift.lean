import WaitLocalAgent.Foundation.JsonSort

/-! # Baseline drift

Two observations of a client are compared section by section. -/

namespace WaitLocalAgent.Baselines

open Foundation JsonValue

def jsonSortKey (value : JsonValue) : String := .ofList (write ⟨[','], [':']⟩ value.sortKeys)

mutual

def canonicalize : JsonValue → JsonValue
  | .object fields => .object (byKey (canonicalizeFields fields))
  | .array items =>
      .array ((canonicalizeItems items).insertionSort fun item other =>
        jsonSortKey item ≤ jsonSortKey other)
  | value => value

def canonicalizeItems : List JsonValue → List JsonValue
  | [] => []
  | item :: items => canonicalize item :: canonicalizeItems items

def canonicalizeFields : List (String × JsonValue) → List (String × JsonValue)
  | [] => []
  | (key, value) :: fields => (key, canonicalize value) :: canonicalizeFields fields

end

def normalizedHash (sha256 : String → String) (sections : List (String × JsonValue)) : String :=
  sha256 (jsonSortKey (canonicalize (.object sections)))

inductive CoverageStatus where
  | ready | partly | blocked | notConfigured | failed
  deriving DecidableEq

def coverageStatus (value : String) : CoverageStatus :=
  let status := Text.lower (Text.strip value)
  if status = "ready" then .ready
  else if status = "partial" then .partly
  else if status = "blocked" then .blocked
  else if status = "not_configured" then .notConfigured
  else if status = "failed" then .failed
  else if status ∈ ["configured", "syncing", "degraded"] then .partly
  else if status ∈ ["inactive", "disabled", "missing", "not_run"] then .notConfigured
  else .failed

/-- `_coverage_status(str(value))`: what is written for another value than a text is no status. -/
def jsonStatus : JsonValue → CoverageStatus
  | .text value => coverageStatus value
  | _ => .failed

def sectionCoveragePrefixes : List (String × List String) :=
  [("microsoft_posture", ["microsoft:", "microsoft_posture"]),
    ("environment_graph", ["environment_graph"]),
    ("canonical_assets", ["canonical_assets"]),
    ("connector_readiness", ["connector:", "connector_readiness"])]

inductive Classification where
  | verificationUnavailable | new | removed | changed | resolved | worsened | improved
  deriving DecidableEq

/-- A finding, as `_finding` builds it and the comparison completes it. -/
structure Finding where
  domain : String
  path : String
  classification : Classification
  previous : JsonValue
  current : JsonValue

inductive Polarity where
  | badUp | goodUp

def posturePolarity : List (String × Polarity) :=
  [("non_operational_services", .badUp), ("open_service_issues", .badUp),
    ("failed_sign_ins", .badUp), ("risky_sign_ins", .badUp), ("risky_users", .badUp),
    ("conditional_access_disabled", .badUp), ("conditional_access_report_only", .badUp),
    ("noncompliant_devices", .badUp), ("unencrypted_devices", .badUp), ("stale_devices", .badUp),
    ("active_defender_incidents", .badUp), ("high_severity_incidents", .badUp),
    ("active_defender_alerts", .badUp), ("secure_score_percent", .goodUp)]

/-- `path.rsplit(".", 1)[-1]`. -/
def lastPart (path : String) : String := .ofList (path.toList.rtakeWhile (· != '.'))

section Values

variable (number : String → ℚ)

/-- The number that a number or a truth value stands for; a float is given by its `repr`. -/
def number? : JsonValue → Option ℚ
  | .bool value => some (if value then 1 else 0)
  | .int value => some value
  | .float repr => some (number repr)
  | _ => none

mutual

/-- `value == other`. -/
def pyEq : JsonValue → JsonValue → Bool
  | .null, other => match other with
      | .null => true
      | _ => false
  | .bool value, other => number? number other == some (if value then 1 else 0)
  | .int value, other => number? number other == some ↑value
  | .float repr, other => number? number other == some (number repr)
  | .text value, other => match other with
      | .text other => value == other
      | _ => false
  | .array items, other => match other with
      | .array others => pyEqItems items others
      | _ => false
  | .object fields, other => match other with
      | .object others =>
          pyEqFields fields others && others.all fun entry => (get? fields entry.1).isSome
      | _ => false

def pyEqItems : List JsonValue → List JsonValue → Bool
  | [], others => others.isEmpty
  | item :: items, others => match others with
      | [] => false
      | other :: others => pyEq item other && pyEqItems items others

/-- Every field is found among the others. -/
def pyEqFields : List (String × JsonValue) → List (String × JsonValue) → Bool
  | [], _ => true
  | (key, value) :: fields, others =>
      (match get? others key with
        | some other => pyEq value other
        | none => false) && pyEqFields fields others

end

/-- The entries of the first mapping whose keys the other one has not. -/
def missingFrom (fields others : List (String × JsonValue)) : List (String × JsonValue) :=
  fields.filter fun entry => (get? others entry.1).isNone

def inKeyOrder (found : List (String × List Finding)) : List Finding :=
  (found.insertionSort fun entry other => entry.1 ≤ other.1).flatMap Prod.snd

/-- `tuple(sorted(entry, key=str))`, of a mapping. -/
def shape? : JsonValue → Option (List String)
  | .object fields => some ((fields.map Prod.fst).insertionSort (· ≤ ·))
  | _ => none

def isEntityMap (value : List (String × JsonValue)) (path : String) : Bool :=
  !value.isEmpty && value.all (fun entry => (shape? entry.2).isSome) &&
    (lastPart path == "assets" ||
      (1 < value.length && (value.map fun entry => shape? entry.2).dedup.length == 1))

/-- Whether two mappings are compared entry by entry. -/
def isByEntity (before after : List (String × JsonValue)) (path : String) : Bool :=
  (lastPart path == "assets" && !(before.isEmpty && after.isEmpty)) ||
    (isEntityMap before path && isEntityMap after path)

def compareEntityMap (before after : List (String × JsonValue)) (domain path : String) :
    List Finding :=
  inKeyOrder <|
    before.map (fun (key, value) => (key, match get? after key with
      | none => [⟨domain, path ++ "." ++ key, .removed, value, .null⟩]
      | some other =>
          if pyEq number (canonicalize value) (canonicalize other) then []
          else [⟨domain, path ++ "." ++ key, .changed, value, other⟩])) ++
    (missingFrom after before).map fun (key, value) =>
      (key, [⟨domain, path ++ "." ++ key, .new, .null, value⟩])

/-- `_compare_mapping_entries`, of a mapping that is new or removed; `make` puts a value on its
side. -/
def compareMappingEntries (make : String → JsonValue → Finding) (values : List (String × JsonValue))
    (path : String) : List Finding :=
  (byKey values).map fun (key, value) => make (path ++ "." ++ key) value

def oneSided (make : String → JsonValue → Finding) (path : String) : JsonValue → List Finding
  | .object values => compareMappingEntries make values path
  | value => [make path value]

/-- What a number that changed means, by the last part of its path. -/
def classifyChange (before after : JsonValue) (path : String) : Classification :=
  match before, number? number before, number? number after with
  | .bool _, _, _ => .changed
  | _, some old, some new =>
      match (posturePolarity.find? fun entry => entry.1 = lastPart path).map Prod.snd with
      | some .badUp =>
          if new = 0 ∧ old ≠ 0 then .resolved else if old < new then .worsened else .improved
      | some .goodUp => if old < new then .improved else .worsened
      | none => .changed
  | _, _, _ => .changed

/-- The end of `_compare_values`, for values that are not both mappings. -/
def compareOthers (before after : JsonValue) (domain path : String) : List Finding :=
  if pyEq number (canonicalize before) (canonicalize after) then []
  else [⟨domain, path, classifyChange number before after path, before, after⟩]

mutual

def compareValues (domain : String) : String → JsonValue → JsonValue → List Finding
  | path, .object before, after => match after with
      | .object after =>
          if isByEntity before after path then compareEntityMap number before after domain path
          else
            inKeyOrder <|
              compareFields domain path before after ++
              (missingFrom after before).map fun (key, value) =>
                (key, oneSided (fun path value => ⟨domain, path, .new, .null, value⟩)
                  (path ++ "." ++ key) value)
      | after => compareOthers number (.object before) after domain path
  | path, before, after => compareOthers number before after domain path

/-- The findings of the keys of the mapping `before`. -/
def compareFields (domain path : String) : List (String × JsonValue) →
    List (String × JsonValue) → List (String × List Finding)
  | [], _ => []
  | (key, value) :: before, after =>
      (key, match get? after key with
        | none => oneSided (fun path value => ⟨domain, path, .removed, value, .null⟩)
            (path ++ "." ++ key) value
        | some other => compareValues domain (path ++ "." ++ key) value other) ::
      compareFields domain path before after

end

def readyCoverage : List (String × JsonValue) :=
  sectionCoveragePrefixes.map fun entry => (entry.1, .text "ready")

def coverageOf (prefixes : List String) (coverage : List (String × JsonValue)) : List JsonValue :=
  (coverage.filter fun entry =>
    prefixes.any fun start => start.toList.isPrefixOf entry.1.toList).map Prod.snd

/-- Whether no status of a section is other than ready, and there is one. -/
def isVerified (prefixes : List String) (oldCoverage newCoverage : List (String × JsonValue)) :
    Bool :=
  !(coverageOf prefixes oldCoverage ++ coverageOf prefixes newCoverage).isEmpty &&
    (coverageOf prefixes oldCoverage ++ coverageOf prefixes newCoverage).all fun status =>
      jsonStatus status = .ready

/-- A coverage that was given, unless it is empty. -/
def orElse (coverage : Option (List (String × JsonValue))) (default : List (String × JsonValue)) :
    List (String × JsonValue) :=
  match coverage with
  | some (entry :: coverage) => entry :: coverage
  | _ => default

/-- `sections.get(section, {})`. -/
def sectionOf (sections : List (String × JsonValue)) (name : String) : JsonValue :=
  (get? sections name).getD (.object [])

def compareNormalizedSections (sha256 : String → String) (before after : List (String × JsonValue))
    (beforeCoverage afterCoverage : Option (List (String × JsonValue))) : List Finding :=
  let oldCoverage := orElse beforeCoverage readyCoverage
  let newCoverage := orElse afterCoverage oldCoverage
  sectionCoveragePrefixes.flatMap fun (name, prefixes) =>
    if !isVerified prefixes oldCoverage newCoverage then
      [⟨name, name, .verificationUnavailable, get oldCoverage name, get newCoverage name⟩]
    else if normalizedHash sha256 before ≠ normalizedHash sha256 after then
      compareValues number name name (sectionOf before name) (sectionOf after name)
    else []

end Values

end WaitLocalAgent.Baselines
