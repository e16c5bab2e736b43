import WaitLocalAgent.Model.PackageXml

/-! # Artifacts of a Power Platform package

How an artifact is read: each table, column and relationship of a Power Apps artifact with what the
package makes of it. Nothing here depends on the artifacts before it. -/

namespace WaitLocalAgent.PowerPlatform

open Foundation

/-- An entry of `design_only_components`. -/
structure DesignOnly where
  id : String
  path : String
  format : String
  reason : String
  deriving DecidableEq, Repr

/-- An entry of `unsupported_components`. -/
structure Unsupported where
  id : String
  format : String
  source : Option String
  reason : String
  deriving DecidableEq, Repr

/-- The value of a key after these assignments. -/
def assigned? {α : Type} {κ : Type} [DecidableEq κ] (entries : List (κ × α)) (key : κ) : Option α :=
  (entries.reverse.find? fun entry => entry.1 = key).map Prod.snd

/-- What the tables of a Power Apps artifact are read with. -/
structure Scope where
  lib : Library
  tenant : String
  publisherPrefix : String
  format : String
  tableNames : List String
  displayNames : List (String × String)
  explicitRelationships : Bool

namespace Scope

variable (scope : Scope)

def expectedPrefix : String := scope.publisherPrefix ++ "_"

/-- `name.removeprefix(f"{publisher_prefix}_")`. -/
def unprefixed (name : String) : String :=
  if scope.expectedPrefix.toList.isPrefixOf name.toList then
    .ofList (name.toList.drop scope.expectedPrefix.toList.length)
  else name

def displayName (name : String) : String := (assigned? scope.displayNames name).getD name

def relationshipName (referenced referencing : String) : String :=
  s!"{scope.publisherPrefix}_{scope.unprefixed referenced}_{scope.unprefixed referencing}"

def relationshipDescription (referenced referencing : String) : String :=
  s!"{scope.displayName referenced} to {scope.unprefixed referencing}"

def designOnly (component path reason : String) : DesignOnly :=
  ⟨scope.lib.componentId scope.tenant component, path, scope.format, reason⟩

end Scope

/-! ## Columns -/

/-- What becomes of a column. -/
inductive ColumnKind where
  | untargeted
  | absentTarget (target : String)
  | lookup (target displayName : String)
  | unmapped (type : String)
  | string (displayName : String) (maxLength : ℤ)
  | dateOnly (displayName : String)
  deriving DecidableEq, Repr

structure Column where
  name : String
  primary : Bool
  required : Bool
  kind : ColumnKind
  deriving DecidableEq, Repr

namespace Column

def attribute? (c : Column) : Option Attribute :=
  match c.kind with
  | .lookup target displayName => some ⟨c.name, displayName, .lookup target, c.required⟩
  | .string displayName maxLength => some ⟨c.name, displayName, .string maxLength, c.required⟩
  | .dateOnly displayName => some ⟨c.name, displayName, .dateOnly, c.required⟩
  | _ => none

/-- `lookup_columns[(logical, field_name)]`. -/
def target? (c : Column) : Option String :=
  match c.kind with
  | .absentTarget target => some target
  | .lookup target _ => some target
  | _ => none

def unmappedType? (c : Column) : Option String :=
  match c.kind with
  | .unmapped type => some type
  | _ => none

/-- Why the column is left out. -/
def reason? (c : Column) : Option String :=
  match c.kind with
  | .untargeted =>
      some (s!"relationship for lookup column {c.name} was omitted because " ++
        "target_entity is missing")
  | .absentTarget target =>
      some (s!"relationship for lookup column {c.name} was omitted because " ++
        s!"target entity {target} is absent from the package")
  | .unmapped type =>
      some (s!"attribute {c.name} has unmapped WAIT type {type}; " ++
        "the field was omitted rather than guessing a Dataverse type")
  | _ => none

def designOnly? (scope : Scope) (logical : String) (c : Column) : Option DesignOnly :=
  let part := if c.unmappedType?.isSome then "attributes" else "relationships"
  c.reason?.map fun reason =>
    scope.designOnly s!"entities/{logical}/{part}/{c.name}" s!"entities/{logical}" reason

/-- What the column adds to `emitted_component_classes`. -/
def classes (c : Column) : List String :=
  match c.kind with
  | .absentTarget _ => ["withheld_relationship"]
  | _ => []

end Column

/-- `field.get("primary") is True`, of a boolean. -/
def readPrimary (logical name : String) (field : List (String × JsonValue)) :
    Except PackageError Bool :=
  match JsonValue.get field "primary" with
  | .null => .ok false
  | .bool b => .ok b
  | _ => .error (.package s!"{logical}.{name}.primary must be boolean")

def isTrue : JsonValue → Bool
  | .bool b => b
  | _ => false

def readMaxLength (logical name : String) (field : List (String × JsonValue)) :
    Except PackageError ℤ :=
  let error := .error (.package
    s!"{logical}.{name}.max_length must be an integer from 1-{maxStringMaxLength}")
  match (JsonValue.get? field "max_length").getD (.int defaultStringMaxLength) with
  | .int n => if 1 ≤ n ∧ n ≤ maxStringMaxLength then .ok n else error
  | _ => error

def readDisplayName (logical name : String) (field : List (String × JsonValue)) :
    Except PackageError String :=
  text ((JsonValue.get? field "display_name").getD (.text name)) s!"{logical}.{name}.display_name"
    maxTextLength

def Scope.readLookup (scope : Scope) (logical name : String) (field : List (String × JsonValue)) :
    Except PackageError ColumnKind :=
  match JsonValue.get field "target_entity" with
  | .null => .ok .untargeted
  | value => do
      let target ← identifier scope.lib value s!"{logical}.{name}.target_entity"
      if scope.tableNames.contains target then
        return .lookup target (← readDisplayName logical name field)
      else return .absentTarget target

def Scope.readKind (scope : Scope) (logical name : String) (field : List (String × JsonValue)) :
    Except PackageError ColumnKind :=
  let type := scope.lib.strOf ((JsonValue.get? field "type").getD (.text "String"))
  if scope.lib.casefold type = "lookup" then scope.readLookup logical name field
  else if scope.lib.casefold type = "string" then do
    let displayName ← readDisplayName logical name field
    return .string displayName (← readMaxLength logical name field)
  else if scope.lib.casefold type = "dateonly" then
    return .dateOnly (← readDisplayName logical name field)
  else return .unmapped type

def Scope.readColumn (scope : Scope) (logical : String) : JsonValue → Except PackageError Column
  | .object field => do
      let name ← identifier scope.lib (JsonValue.get field "logical_name")
        s!"{logical}.column.logical_name"
      let primary ← readPrimary logical name field
      let kind ← scope.readKind logical name field
      return ⟨name, primary, isTrue (JsonValue.get field "required"), kind⟩
  | _ => .error (.package "Dataverse table columns must contain objects")

/-- `for field in table.get("columns", [])`: the characters of a text and the keys of an object are
no objects. -/
def Scope.readColumns (scope : Scope) (logical : String) (table : List (String × JsonValue)) :
    Except PackageError (List Column) :=
  let noObject := .error (.package "Dataverse table columns must contain objects")
  match (JsonValue.get? table "columns").getD (.array []) with
  | .array items => items.mapM (scope.readColumn logical)
  | .text s => if s = "" then .ok [] else noObject
  | .object fields => if fields.isEmpty then .ok [] else noObject
  | _ => .error .typeError

/-! ## Tables -/

/-- Whether a table is emitted. -/
inductive Verdict where
  | withheld (reason : String)
  | importable (primary displayName : String)
  deriving DecidableEq, Repr

structure Table where
  logical : String
  columns : List Column
  verdict : Verdict
  deriving DecidableEq, Repr

namespace Table

def attributes (t : Table) : List Attribute := t.columns.filterMap Column.attribute?

def entity? (t : Table) : Option Entity :=
  match t.verdict with
  | .withheld _ => none
  | .importable primary displayName => some ⟨t.logical, displayName, t.attributes, primary⟩

def lookupColumns (t : Table) : List ((String × String) × String) :=
  t.columns.filterMap fun c => c.target?.map fun target => ((t.logical, c.name), target)

def reason? (t : Table) : Option String :=
  match t.verdict with
  | .withheld reason => some reason
  | .importable _ _ => none

def designOnly (scope : Scope) (t : Table) : List DesignOnly :=
  t.columns.filterMap (Column.designOnly? scope t.logical) ++
    (t.reason?.map fun reason =>
      let path := s!"entities/{t.logical}"
      scope.designOnly path path reason).toList

/-- What the table adds to `emitted_component_classes`. -/
def classes (t : Table) : List String :=
  "entity" :: t.columns.flatMap Column.classes ++
    match t.verdict with
    | .withheld _ => ["withheld_entity"]
    | .importable _ _ =>
        if t.columns.any fun c => c.unmappedType?.isSome then ["partially_mapped_entity"] else []

end Table

/-- The primary name column that a table declares or marks, or why there is none. -/
def choosePrimary (declared : Option String) (columns : List Column) : Except String String :=
  match declared, (columns.filter Column.primary).map Column.name with
  | some primary, _ => .ok primary
  | none, [primary] => .ok primary
  | none, [] => .error "entity does not declare a primary name column"
  | none, _ :: _ :: _ =>
      .error ("entity declares multiple primary columns; exactly one primary name " ++
        "column is required")

def unmappedType? (columns : List Column) (name : String) : Option String :=
  assigned? (columns.filterMap fun c => c.unmappedType?.map fun type => (c.name, type)) name

def readVerdict (logical : String) (table : List (String × JsonValue)) (columns : List Column)
    (primary : String) : Except PackageError Verdict :=
  match unmappedType? columns primary with
  | some type =>
      .ok (.withheld (s!"entity was omitted because its primary name column {primary} " ++
        s!"could not be mapped: unmapped WAIT type {type}"))
  | none =>
      if primary ∉ columns.map Column.name then
        .ok (.withheld (s!"entity was omitted because its primary name column {primary} " ++
          "could not be mapped: column is absent from columns"))
      else do
        let displayName ← text ((JsonValue.get? table "display_name").getD (.text logical))
          s!"{logical}.display_name" maxTextLength
        return .importable primary displayName

def Scope.readDeclaredPrimary (scope : Scope) (logical : String)
    (table : List (String × JsonValue)) : Except PackageError (Option String) :=
  match JsonValue.get table "primary_name_column" with
  | .null => .ok none
  | value => return some (← identifier scope.lib value s!"{logical}.primary_name_column")

def Scope.readOwnTable (scope : Scope) (logical : String) (table : List (String × JsonValue)) :
    Except PackageError Table := do
  let declared ← scope.readDeclaredPrimary logical table
  let columns ← scope.readColumns logical table
  match choosePrimary declared columns with
  | .error reason => return ⟨logical, columns, .withheld reason⟩
  | .ok primary => return ⟨logical, columns, ← readVerdict logical table columns primary⟩

def Scope.readTable (scope : Scope) : JsonValue → Except PackageError Table
  | .object table => do
      let logical ← identifier scope.lib (JsonValue.get table "logical_name")
        "Dataverse table logical_name"
      if scope.expectedPrefix.toList.isPrefixOf logical.toList then
        scope.readOwnTable logical table
      else
        return ⟨logical, [], .withheld
          (s!"entity logical_name {logical} does not use the expected publisher prefix " ++
            s!"{scope.expectedPrefix}; the name was not rewritten")⟩
  | _ => .error (.package "Power Apps artifact tables must contain objects")

/-- A name and a display name, as the first pass over the tables takes them. -/
def readTableName (lib : Library) : JsonValue → Except PackageError (String × String)
  | .object table => do
      let name ← identifier lib (JsonValue.get table "logical_name")
        "Dataverse table logical_name"
      return (name, lib.strOf ((JsonValue.get? table "display_name").getD (.text name)))
  | _ => .error (.package "Power Apps artifact tables must contain objects")

/-! ## Relationships -/

/-- What becomes of a relationship. -/
inductive Link where
  | omitted (entry : DesignOnly)
  /-- The lookup column of the relationship is removed. -/
  | dropped (entity column : String) (entry : DesignOnly)
  | related (relationship : Relationship)
  deriving DecidableEq, Repr

namespace Link

def relationship? : Link → Option Relationship
  | .related r => some r
  | _ => none

/-- The entity and the column of `_remove_lookup_attribute`. -/
def removal? : Link → Option (String × String)
  | .dropped entity column _ => some (entity, column)
  | _ => none

def designOnly? : Link → Option DesignOnly
  | .omitted entry => some entry
  | .dropped _ _ entry => some entry
  | .related _ => none

end Link

/-- The entities that an artifact emits. -/
def emittedNames (tables : List Table) : List String :=
  tables.filterMap fun t => t.entity?.map Entity.logicalName

section Links

variable (scope : Scope) (tables : List Table)

/-- The relationship of a lookup column, where relationships are inferred. -/
def Scope.inferLink (referencing column target : String) : Link :=
  if referencing ∈ emittedNames tables ∧ target ∈ emittedNames tables then
    .related ⟨scope.relationshipName target referencing, referencing, target, column,
      scope.relationshipDescription target referencing⟩
  else
    .dropped referencing column
      (scope.designOnly s!"entities/{referencing}/relationships/{column}"
        s!"entities/{referencing}"
        (s!"relationship for lookup column {column} was omitted because " ++
          "referencing or referenced entity is not importable in this package " ++
          s!"({referencing} -> {target})"))

def Scope.inferLinks : List Link :=
  tables.flatMap fun t => t.columns.filterMap fun c =>
    match c.kind with
    | .lookup target _ => some (scope.inferLink tables t.logical c.name target)
    | _ => none

def rawLookupColumn (fields : List (String × JsonValue)) : JsonValue :=
  ((JsonValue.get? fields "lookup_column").orElse fun _ =>
    (JsonValue.get? fields "referencing_attribute").orElse fun _ =>
      JsonValue.get? fields "referencing_attribute_name").getD .null

/-- A relationship whose lookup column is named. -/
def Scope.resolveLink (id name referencing referenced column : String) : Link :=
  let entry := scope.designOnly s!"{id}/{name}" s!"entities/{referencing}"
  match assigned? (tables.flatMap Table.lookupColumns) (referencing, column) with
  | none =>
      .omitted (entry (s!"relationship {name} was omitted because referencing lookup column " ++
        s!"{column} is not declared"))
  | some target =>
      if target ≠ referenced then
        .omitted (entry (s!"relationship {name} was omitted because lookup column {column} " ++
          s!"targets {target}, not {referenced}"))
      else if referencing ∉ emittedNames tables ∨ referenced ∉ emittedNames tables then
        .dropped referencing column
          (entry (s!"relationship {name} was omitted because referencing or referenced entity " ++
            s!"is not importable in this package ({referencing} -> {referenced})"))
      else
        .related ⟨name, referencing, referenced, column,
          scope.relationshipDescription referenced referencing⟩

/-- A relationship both of whose entities are named. -/
def Scope.readNamedLink (id : String) (rawReferencing rawReferenced : JsonValue)
    (fields : List (String × JsonValue)) : Except PackageError Link := do
  let referencing ← identifier scope.lib rawReferencing "relationship.referencing_entity"
  let referenced ← identifier scope.lib rawReferenced "relationship.referenced_entity"
  let rawName := match JsonValue.get fields "name" with
    | .null => .text (scope.relationshipName referenced referencing)
    | value => value
  let name ← identifier scope.lib rawName "relationship.name"
  match rawLookupColumn fields with
  | .null =>
      return .omitted (scope.designOnly s!"{id}/{name}" s!"entities/{referencing}"
        (s!"relationship {name} was omitted because its referencing lookup column " ++
          "is missing"))
  | value =>
      let column ← identifier scope.lib value "relationship.lookup_column"
      return scope.resolveLink tables id name referencing referenced column

def Scope.readLink (index : ℕ) : JsonValue → Except PackageError Link
  | .object fields =>
      let id := s!"relationships/{index}"
      match JsonValue.get fields "referencing_entity", JsonValue.get fields "referenced_entity" with
      | .null, _ | _, .null =>
          .ok (.omitted (scope.designOnly id "relationships"
            "relationship was omitted because both entities are required"))
      | rawReferencing, rawReferenced =>
          scope.readNamedLink tables id rawReferencing rawReferenced fields
  | _ => .error (.package "Power Apps artifact relationships must contain objects")

/-- `enumerate(raw_relationships, start=index)`. -/
def Scope.readLinks : ℕ → List JsonValue → Except PackageError (List Link)
  | _, [] => .ok []
  | index, raw :: rest => do
      let link ← scope.readLink tables index raw
      return link :: (← Scope.readLinks (index + 1) rest)

end Links

/-! ## Artifacts -/

/-- A Power Apps artifact. -/
structure PowerApp where
  scope : Scope
  canvas : Option Unsupported
  tables : List Table
  links : List Link

inductive Artifact where
  | powerApp (app : PowerApp)
  | flow (entry : DesignOnly)
  | connector (entry : DesignOnly)
  | unknown (entry : Unsupported)

/-- What the artifacts of a package are read with. -/
structure Reader where
  lib : Library
  tenant : String
  publisherPrefix : String

namespace Reader

variable (reader : Reader)

def format (artifact : List (String × JsonValue)) : String :=
  reader.lib.strOf (JsonValue.get artifact "format")

def readCanvas (artifact : List (String × JsonValue)) : Except PackageError (Option Unsupported) :=
  match JsonValue.get artifact "canvas_app" with
  | .null => .ok none
  | .object _ =>
      let appName := reader.lib.strOf
        ((JsonValue.get? artifact "app_name").getD (.text "canvas_app"))
      .ok (some ⟨reader.lib.componentId reader.tenant s!"canvas:{appName}", "canvas_app",
        some appName,
        "binary .msapp synthesis is unsupported; no canvas component is claimed packable"⟩)
  | _ => .error (.package "Power Apps artifact canvas_app must be an object")

def readRawRelationships (dataverse artifact : List (String × JsonValue)) :
    Except PackageError (Option (List JsonValue)) :=
  match (JsonValue.get? dataverse "relationships").getD
      (JsonValue.get artifact "relationships") with
  | .null => .ok none
  | .array items => .ok (some items)
  | _ => .error (.package "Power Apps artifact relationships must contain objects")

/-- The tables and relationships of a Power Apps artifact. -/
def readDataverse (artifact dataverse : List (String × JsonValue)) (rawTables : List JsonValue) :
    Except PackageError PowerApp := do
  let canvas ← reader.readCanvas artifact
  let names ← rawTables.mapM (readTableName reader.lib)
  let rawRelationships ← readRawRelationships dataverse artifact
  let scope : Scope := ⟨reader.lib, reader.tenant, reader.publisherPrefix,
    reader.format artifact, names.map Prod.fst, names, rawRelationships.isSome⟩
  let tables ← rawTables.mapM scope.readTable
  match rawRelationships with
  | none => return ⟨scope, canvas, tables, scope.inferLinks tables⟩
  | some items => return ⟨scope, canvas, tables, ← scope.readLinks tables 1 items⟩

def readPowerApp (artifact : List (String × JsonValue)) : Except PackageError PowerApp :=
  let error := .error (.package "Power Apps artifact dataverse.tables is required")
  match JsonValue.get artifact "dataverse" with
  | .object dataverse =>
      match JsonValue.get dataverse "tables" with
      | .array rawTables => reader.readDataverse artifact dataverse rawTables
      | _ => error
  | _ => error

def readAction : JsonValue → List String → Except PackageError String
  | .object raw, seen => do
      let id ← identifier reader.lib (JsonValue.get raw "id") "power_automate.action.id"
      raiseIf (id ∈ seen) (.package s!"duplicate power_automate.action id: {id}")
      let _ ← text (JsonValue.get raw "name") "power_automate.action.name" maxTextLength
      let _ ← text (JsonValue.get raw "kind") "power_automate.action.kind" maxTextLength
      let _ ← text (JsonValue.get raw "type") "power_automate.action.type" maxTextLength
      let _ ← text (JsonValue.get raw "method") "power_automate.action.method" maxTextLength
      match JsonValue.get raw "approval_required", JsonValue.get raw "tool_id" with
      | .bool _, .null => return id
      | .bool _, toolId =>
          let _ ← identifier reader.lib toolId "power_automate.action.tool_id"
          return id
      | _, _ => .error (.package "power_automate.action approval_required must be boolean")
  | _, _ => .error (.package "power_automate.actions must contain objects")

def readActions (value : JsonValue) : Except PackageError (List String) :=
  let error := .error (.package
    s!"Power Automate flow artifact requires 1-{maxFlowActions} power_automate.actions")
  match value with
  | .array items =>
      if items.isEmpty ∨ maxFlowActions < items.length then error
      else items.foldlM (fun seen raw => do return seen ++ [← reader.readAction raw seen]) []
  | _ => error

def readFlowPayload (artifact : List (String × JsonValue)) : Except PackageError Unit :=
  match JsonValue.get artifact "power_automate" with
  | .object payload =>
      match JsonValue.get payload "trigger" with
      | .object trigger => do
          let _ ← text (JsonValue.get trigger "name") "power_automate.trigger.name" maxTextLength
          let _ ← identifier reader.lib (JsonValue.get trigger "type")
            "power_automate.trigger.type"
          let _ ← reader.readActions (JsonValue.get payload "actions")
          match JsonValue.get artifact "requires_approval" with
          | .null | .bool _ => return ()
          | _ =>
              .error (.package
                "Power Automate flow artifact requires_approval must be boolean")
      | _ =>
          .error (.package
            "Power Automate flow artifact requires a power_automate.trigger object")
  | .null =>
      if (JsonValue.get? artifact "trigger").isSome ∨ (JsonValue.get? artifact "steps").isSome then
        .error (.package
          ("Power Automate flow artifact must nest trigger and actions under power_automate; " ++
            "the flat trigger/steps shape is not supported"))
      else
        .error (.package "Power Automate flow artifact requires a power_automate object")
  | _ => .error (.package "Power Automate flow artifact requires a power_automate object")

def readFlow (artifact : List (String × JsonValue)) : Except PackageError DesignOnly := do
  let flowId ← identifier reader.lib (JsonValue.get artifact "workflow_id") "workflow_id"
  let _ ← text ((JsonValue.get? artifact "workflow_name").getD (.text flowId)) "workflow_name"
    maxTextLength
  reader.readFlowPayload artifact
  let base := s!"modernflows/{flowId}"
  return ⟨reader.lib.componentId reader.tenant base, base, reader.format artifact,
    "the emitted flow source has no Logic Apps clientdata definition " ++
      "or connectionReferences"⟩

def readConnector (artifact : List (String × JsonValue)) : Except PackageError DesignOnly := do
  let connectorId ← identifier reader.lib (JsonValue.get artifact "connector_id") "connector_id"
  let base := s!"connectors/{connectorId}"
  return ⟨reader.lib.componentId reader.tenant base, base, reader.format artifact,
    "the emitted connector source is not a Power Platform custom connector definition"⟩

def readArtifact (index : ℕ) (artifact : List (String × JsonValue)) :
    Except PackageError Artifact :=
  let format := reader.lib.strOf ((JsonValue.get? artifact "format").getD (.text ""))
  if format = "wait-local-agent.power-apps-artifact" then
    return .powerApp (← reader.readPowerApp artifact)
  else if format = "wait-local-agent.power-automate-flow-plan" then
    return .flow (← reader.readFlow artifact)
  else if format = "wait-local-agent.power-platform.custom-connector" then
    return .connector (← reader.readConnector artifact)
  else
    return .unknown
      ⟨reader.lib.componentId reader.tenant s!"unsupported:{index}:{format}",
        if format = "" then "unknown" else format, none,
        "artifact format has no supported XML source mapping"⟩

/-- `enumerate(normalized_artifacts, start=index)`. -/
def readArtifacts : ℕ → List (List (String × JsonValue)) → Except PackageError (List Artifact)
  | _, [] => .ok []
  | index, artifact :: rest => do
      let read ← reader.readArtifact index artifact
      return read :: (← readArtifacts (index + 1) rest)

end Reader

end WaitLocalAgent.PowerPlatform
