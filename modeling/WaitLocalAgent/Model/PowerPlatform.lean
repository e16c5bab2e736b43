import WaitLocalAgent.Model.PackageArtifacts

/-! # Power Platform packages

`build_power_platform_package` and `validate_power_platform_package`. -/

namespace WaitLocalAgent.PowerPlatform

open Foundation

/-! ## Emission -/

/-- What the artifacts of a package have added so far. -/
structure Emission where
  entities : List Entity
  relationships : List Relationship
  rootComponents : List RootComponent
  unsupported : List Unsupported
  designOnly : List DesignOnly
  emittedClasses : List String
  importCompleteClasses : List String
  artifactClasses : List String
  deriving DecidableEq, Repr

namespace Emission

def empty : Emission :=
  ⟨[], [], [], [], [], ["publisher", "solution_manifest"], ["publisher", "solution_manifest"], []⟩

def removeLookupAttribute (entities : List Entity) (entity column : String) : List Entity :=
  entities.map fun e =>
    if e.logicalName = entity then
      { e with attributes := e.attributes.filter fun a => a.logicalName ≠ column }
    else e

def addEntity (e : Emission) (entity : Entity) : Emission :=
  { e with
    entities := e.entities ++ [entity]
    rootComponents := e.rootComponents ++ [⟨"1", entity.logicalName⟩]
    importCompleteClasses := e.importCompleteClasses ++ ["entity"]
    artifactClasses := e.artifactClasses ++ ["entity"] }

def withhold (e : Emission) (classes : List String) (entries : List DesignOnly) : Emission :=
  { e with
    emittedClasses := e.emittedClasses ++ classes
    designOnly := e.designOnly ++ entries }

def addTable (scope : Scope) (e : Emission) (t : Table) : Emission :=
  let e := e.withhold t.classes (t.designOnly scope)
  match t.entity? with
  | none => e
  | some entity => e.addEntity entity

def addLink (e : Emission) : Link → Emission
  | .omitted entry => e.withhold ["withheld_relationship"] [entry]
  | .dropped entity column entry =>
      { e.withhold ["withheld_relationship"] [entry] with
        entities := removeLookupAttribute e.entities entity column }
  | .related r =>
      { e with
        relationships := e.relationships ++ [r]
        rootComponents := e.rootComponents ++ [⟨"10", r.name⟩] }

def addPowerApp (e : Emission) (app : PowerApp) : Emission :=
  let e := { e with unsupported := e.unsupported ++ app.canvas.toList }
  app.links.foldl addLink (app.tables.foldl (addTable app.scope) e)

/-- A component class that is emitted without being complete. -/
def addDesign (e : Emission) (componentClass : String) (entry : DesignOnly) : Emission :=
  { e.withhold [componentClass] [entry] with
    artifactClasses := e.artifactClasses ++ [componentClass] }

def addArtifact (e : Emission) : Artifact → Emission
  | .powerApp app => e.addPowerApp app
  | .flow entry => e.addDesign "modern_flow" entry
  | .connector entry => e.addDesign "custom_connector" entry
  | .unknown entry => { e with unsupported := e.unsupported ++ [entry] }

def ofArtifacts (artifacts : List Artifact) : Emission := artifacts.foldl addArtifact empty

def deployable (e : Emission) : Bool :=
  e.artifactClasses.any fun c => e.importCompleteClasses.contains c

def packageStatus (e : Emission) : String :=
  if e.deployable ∧ e.emittedClasses.all fun c => e.importCompleteClasses.contains c then
    "deployable_source"
  else "partial_source"

end Emission

/-! ## Requests -/

structure Request where
  clientId : JsonValue
  solutionName : JsonValue
  publisherName : JsonValue
  publisherPrefix : JsonValue
  outputDirectory : JsonValue
  artifacts : List JsonValue
  connectorArtifacts : List JsonValue
  reviewArtifacts : Option (List JsonValue)

/-- The checked texts of a request. -/
structure Header where
  tenant : String
  solution : String
  publisher : String
  publisherPrefix : String
  output : String
  deriving DecidableEq, Repr

def Request.readHeader (lib : Library) (request : Request) : Except PackageError Header := do
  let tenant ← text request.clientId "client_id" 128
  let solution ← identifier lib request.solutionName "solution_name"
  let publisher ← PowerPlatform.publisherName request.publisherName
  let pre ← PowerPlatform.publisherPrefix request.publisherPrefix
  let output ← safeOutputDirectory lib request.outputDirectory
  return ⟨tenant, solution, publisher, pre, output⟩

/-- `artifacts` or their alias, with the connectors after them. -/
def Request.combined (request : Request) : Except PackageError (List JsonValue) :=
  match request.reviewArtifacts with
  | none => .ok (request.artifacts ++ request.connectorArtifacts)
  | some items =>
      if request.artifacts.isEmpty then .ok (items ++ request.connectorArtifacts)
      else .error (.package "provide artifacts or review_artifacts, not both")

def validateInputArtifact (lib : Library) (tenant : String) :
    JsonValue → Except PackageError (List (String × JsonValue))
  | .object artifact => do
      let copied ← validateFields lib tenant "artifact" artifact
      raiseIf (isTrue (JsonValue.get copied "credentials_included"))
        (.package "artifacts containing credentials are not accepted")
      raiseIf (isTrue (JsonValue.get copied "execution_started") ∨
          isTrue (JsonValue.get copied "deployment_started"))
        (.package "artifacts must not report execution or deployment started")
      let serialized ← canonicalJson (.object copied)
      raiseIf (maxInputArtifactBytes < serialized.utf8ByteSize)
        (.package "artifact exceeds the bounded input size")
      return copied
  | _ => .error (.package "artifacts must contain objects")

def validateInputArtifacts (lib : Library) (tenant : String) (items : List JsonValue) :
    Except PackageError (List (List (String × JsonValue))) := do
  raiseIf (maxInputArtifacts < items.length)
    (.package s!"artifacts must contain at most {maxInputArtifacts} items")
  items.mapM (validateInputArtifact lib tenant)

/-- A request as it is read. -/
structure Reading where
  header : Header
  publisherUniqueName : String
  artifacts : List Artifact

/-- `build_power_platform_package`, as far as it reads the request. -/
def Request.read (lib : Library) (request : Request) : Except PackageError Reading := do
  let header ← request.readHeader lib
  let combined ← request.combined
  let artifacts ← validateInputArtifacts lib header.tenant combined
  let publisherUniqueName ← publisherIdentifier lib header.publisher
  let artifacts ← Reader.readArtifacts ⟨lib, header.tenant, header.publisherPrefix⟩ 1 artifacts
  return ⟨header, publisherUniqueName, artifacts⟩

/-! ## Files -/

structure PackageFile where
  path : String
  mediaType : String
  content : String
  deriving DecidableEq, Repr

def mediaType (path : String) : Except PackageError String :=
  if ".json".toList.isSuffixOf path.toList then .ok "application/json"
  else if ".xml".toList.isSuffixOf path.toList then .ok "application/xml"
  else if ".md".toList.isSuffixOf path.toList then .ok "text/markdown"
  else .error (.package s!"generated file {path} has no supported media type")

def addFile (files : List PackageFile) (path content : String) :
    Except PackageError (List PackageFile) := do
  let path ← safeRelativePath (.text path) "generated file path"
  raiseIf (maxPackageFileBytes < content.utf8ByteSize)
    (.package s!"generated file {path} exceeds the bounded size limit")
  raiseIf (files.any fun f => f.path = path ∧ f.content ≠ content)
    (.package s!"generated file path collision: {path}")
  let media ← mediaType path
  return files.filter (fun f => f.path ≠ path) ++ [⟨path, media, content⟩]

def Unsupported.json (u : Unsupported) : JsonValue :=
  .object ([("id", .text u.id), ("format", .text u.format)] ++
    (u.source.map fun source => ("source", .text source)).toList ++
    [("reason", .text u.reason)])

def DesignOnly.json (d : DesignOnly) : JsonValue :=
  .object [("id", .text d.id), ("path", .text d.path), ("format", .text d.format),
    ("reason", .text d.reason)]

namespace Emission

variable (e : Emission)

def sortedRootComponents : List RootComponent :=
  e.rootComponents.insertionSort fun a b =>
    a.type < b.type ∨ a.type = b.type ∧ a.schemaName ≤ b.schemaName

def unsupportedJson : List JsonValue :=
  (e.unsupported.insertionSort fun a b => a.id ≤ b.id).map Unsupported.json

def designOnlyJson : List JsonValue :=
  (e.designOnly.insertionSort fun a b => a.id ≤ b.id).map DesignOnly.json

/-- The file of `components` where there are some. -/
def addComponents (files : List PackageFile) (path : String) (components : List JsonValue) :
    Except PackageError (List PackageFile) :=
  if components.isEmpty then .ok files
  else do
    let content ← canonicalJson (.object [("components", .array components)])
    addFile files path content

def files (header : Header) (publisherUniqueName : String) :
    Except PackageError (List PackageFile) := do
  let files ← addFile [] "Other/Solution.xml"
    (solutionXml header.solution header.publisher publisherUniqueName header.publisherPrefix
      e.sortedRootComponents)
  let files ← addFile files "Other/Customizations.xml"
    (customizationsXml e.entities e.relationships)
  let files ← addFile files "Other/Relationships.xml" relationshipsXml
  let files ← addComponents files "unsupported/components.json" e.unsupportedJson
  let files ← addComponents files "design_only/components.json" e.designOnlyJson
  raiseIf (maxPackageFiles < files.length)
    (.package s!"package may contain at most {maxPackageFiles} files")
  return files.insertionSort fun f g => f.path ≤ g.path

end Emission

/-! ## Building -/

def PackageFile.json (lib : Library) (f : PackageFile) : JsonValue :=
  .object [("path", .text f.path), ("media_type", .text f.mediaType),
    ("digest", .text (lib.digest f.content.toUTF8)), ("content", .text f.content)]

def packCommand (lib : Library) (output solution : String) : List String :=
  ["pac", "solution", "pack", "--folder", output, "--zipfile", lib.zipPath output solution,
    "--packagetype", "Unmanaged"]

def packageFormat : String := "wait-local-agent.power-platform.deployable-source"

def packageVersion : ℤ := 1

def pacXmlMinimumVersion : String := "2.4.1"

/-- The package before its digest is added. -/
def packageFields (lib : Library) (header : Header) (publisherUniqueName : String) (e : Emission)
    (files : List PackageFile) : List (String × JsonValue) :=
  [("format", .text packageFormat),
    ("format_version", .int packageVersion),
    ("client_id", .text header.tenant),
    ("solution", .object [
      ("unique_name", .text header.solution),
      ("publisher_name", .text header.publisher),
      ("publisher_unique_name", .text publisherUniqueName),
      ("publisher_prefix", .text header.publisherPrefix)]),
    ("output_directory", .text header.output),
    ("files", .array (files.map (PackageFile.json lib))),
    ("file_count", .int files.length),
    ("deployable", .bool e.deployable),
    ("package_status", .text e.packageStatus),
    ("credentials_included", .bool false),
    ("unsupported_components", .array e.unsupportedJson),
    ("design_only_components", .array e.designOnlyJson),
    ("pac", .object [
      ("minimum_cli_version", .text pacXmlMinimumVersion),
      ("format", .text "xml_solution"),
      ("commands", .array [.array ((packCommand lib header.output header.solution).map .text)])]),
    ("execution_started", .bool false),
    ("deployment_started", .bool false)]

def package (lib : Library) (header : Header) (publisherUniqueName : String) (e : Emission) :
    Except PackageError (List (String × JsonValue)) := do
  let files ← e.files header publisherUniqueName
  let fields := packageFields lib header publisherUniqueName e files
  let serialized ← canonicalJson (.object fields)
  raiseIf (maxPackageBytes < serialized.utf8ByteSize)
    (.package s!"package exceeds the bounded size limit of {maxPackageBytes} bytes")
  return fields ++ [("package_digest", .text (lib.digest serialized.toUTF8))]

def buildPowerPlatformPackage (lib : Library) (request : Request) :
    Except PackageError (List (String × JsonValue)) := do
  let reading ← request.read lib
  package lib reading.header reading.publisherUniqueName (.ofArtifacts reading.artifacts)

/-! ## Validation -/

/-- `value == n`, where a boolean or a float may equal an integer. -/
def equalsInt (n : ℤ) : JsonValue → Bool
  | .int m => m == n
  | .bool b => (if b then 1 else 0) == n
  | .float repr => repr == s!"{n}.0"
  | _ => false

def equalsText (s : String) : JsonValue → Bool
  | .text t => t == s
  | _ => false

def isFalse : JsonValue → Bool
  | .bool b => !b
  | _ => false

def equalsTexts : List String → JsonValue → Bool
  | texts, .array items => items.length == texts.length && (items.zip texts).all fun (v, s) =>
      equalsText s v
  | _, _ => false

def isCommand (texts : List String) : JsonValue → Bool
  | .array [command] => equalsTexts texts command
  | _ => false

def checkStatus : JsonValue → Except PackageError Unit
  | .text s =>
      raiseIf (s ≠ "deployable_source" ∧ s ≠ "partial_source")
        (.package "package_status must be deployable_source or partial_source")
  | .array _ | .object _ => .error .typeError
  | _ => .error (.package "package_status must be deployable_source or partial_source")

/-- What the validator checks of `package.solution`, with the solution's name as it stands there. -/
def checkSolution (lib : Library) : JsonValue → Except PackageError String
  | .object solution => do
      let _ ← identifier lib (JsonValue.get solution "unique_name") "solution.unique_name"
      let publisher ← publisherName (JsonValue.get solution "publisher_name")
      let uniqueName ← identifier lib (JsonValue.get solution "publisher_unique_name")
        "solution.publisher_unique_name"
      let expected ← publisherIdentifier lib publisher
      raiseIf (uniqueName ≠ expected) (.package "solution publisher identity is inconsistent")
      let _ ← publisherPrefix (JsonValue.get solution "publisher_prefix")
      return lib.strOf (JsonValue.get solution "unique_name")
  | _ => .error (.package "package.solution must be an object")

def checkComponents (lib : Library) (tenant field : String) : JsonValue → Except PackageError Unit
  | .array components => do
      raiseIf (maxInputArtifacts < components.length)
        (.package s!"{field} is outside the bounded limit")
      let _ ← validateValue lib tenant field (.array components)
  | _ => .error (.package s!"{field} is outside the bounded limit")

def isDigest (s : String) : Bool :=
  "sha256:".toList.isPrefixOf s.toList && (s.toList.drop 7).length == 64 &&
    (s.toList.drop 7).all fun c => c.isDigit || ('a' ≤ c && c ≤ 'f')

def checkContent (path : String) : JsonValue → Except PackageError String
  | .text content =>
      if hasControl content then
        .error (.package s!"package file {path} contains invalid content")
      else .ok content
  | _ => .error (.package s!"package file {path} contains invalid content")

def checkMediaType (path : String) : JsonValue → Except PackageError String
  | .text media =>
      if ["application/xml", "application/json", "text/markdown"].contains media then .ok media
      else .error (.package s!"package file {path} has an unsupported media type")
  | _ => .error (.package s!"package file {path} has an unsupported media type")

def checkDigest (lib : Library) (path content : String) : JsonValue → Except PackageError Unit
  | .text digest =>
      raiseIf (isDigest digest = false ∨ digest ≠ lib.digest content.toUTF8)
        (.package s!"package file digest mismatch: {path}")
  | _ => .error (.package s!"package file digest mismatch: {path}")

def checkFile (lib : Library) (before : List PackageFile) :
    JsonValue → Except PackageError (List PackageFile)
  | .object raw => do
      let path ← safeRelativePath (JsonValue.get raw "path") "package file path"
      raiseIf (path ∈ before.map PackageFile.path)
        (.package s!"duplicate package file path: {path}")
      let content ← checkContent path (JsonValue.get raw "content")
      raiseIf (maxPackageFileBytes < content.utf8ByteSize)
        (.package s!"package file {path} exceeds the bounded size limit")
      raiseIf (maxPackageBytes <
          (before.map fun f => f.content.utf8ByteSize).sum + content.utf8ByteSize)
        (.package "package files exceed the bounded size limit")
      let media ← checkMediaType path (JsonValue.get raw "media_type")
      raiseIf (containsSecretLikeSource lib content)
        (.package s!"package file {path} contains secret-like material")
      checkDigest lib path content (JsonValue.get raw "digest")
      return before ++ [⟨path, media, content⟩]
  | _ => .error (.package "package files must contain objects")

def requiredPaths : List String :=
  ["Other/Solution.xml", "Other/Customizations.xml", "Other/Relationships.xml"]

def checkFiles (lib : Library) (package : List (String × JsonValue)) :
    Except PackageError (List PackageFile) :=
  let outside := .error (.package
    s!"package.files must contain 1-{maxPackageFiles} items")
  match JsonValue.get package "files" with
  | .array items =>
      if items.isEmpty ∨ maxPackageFiles < items.length then outside
      else do
        raiseIf (equalsInt items.length (JsonValue.get package "file_count") = false)
          (.package "package.file_count does not match package.files")
        let files ← items.foldlM (checkFile lib) []
        raiseIf (∃ path ∈ requiredPaths, path ∉ files.map PackageFile.path)
          (.package "package is missing the official XML solution manifest")
        return files
  | _ => outside

/-- The package whose digest is compared. -/
def expectedPackage (lib : Library) (package : List (String × JsonValue)) (output : String)
    (files : List PackageFile) : List (String × JsonValue) :=
  let expected := package.filter fun entry => entry.1 ≠ "package_digest"
  let expected := JsonValue.set expected "output_directory" (.text output)
  let expected := JsonValue.set expected "files"
    (.array ((files.insertionSort fun f g => f.path ≤ g.path).map (PackageFile.json lib)))
  JsonValue.set expected "file_count" (.int files.length)

def checkPackageDigest (lib : Library) (package : List (String × JsonValue)) (output : String)
    (files : List PackageFile) : Except PackageError String := do
  let serialized ← canonicalJson (.object (expectedPackage lib package output files))
  raiseIf (maxPackageBytes < serialized.utf8ByteSize)
    (.package "package exceeds the bounded size limit")
  raiseIf (equalsText (lib.digest serialized.toUTF8) (JsonValue.get package "package_digest") =
      false)
    (.package "package digest mismatch")
  return lib.digest serialized.toUTF8

def checkPac (lib : Library) (output solution : String) : JsonValue → Except PackageError Unit
  | .object pac => do
      raiseIf (equalsText pacXmlMinimumVersion (JsonValue.get pac "minimum_cli_version") = false ∨
          equalsText "xml_solution" (JsonValue.get pac "format") = false)
        (.package "package PAC compatibility metadata is invalid")
      raiseIf (isCommand (packCommand lib output solution)
          (JsonValue.get pac "commands") = false)
        (.package "package PAC folder is not digest-bound to output_directory")
  | _ => .error (.package "package PAC compatibility metadata is invalid")

def checkFlags (package : List (String × JsonValue)) (clientId : Option JsonValue) :
    Except PackageError String := do
  raiseIf (equalsText packageFormat (JsonValue.get package "format") = false ∨
      equalsInt packageVersion (JsonValue.get package "format_version") = false)
    (.package "unsupported Power Platform package format")
  let tenant ← text (JsonValue.get package "client_id") "package.client_id" 128
  let requested ← clientId.elim (.ok tenant) fun id => text id "client_id" 128
  raiseIf (tenant ≠ requested) (.package "package is outside the requested tenant")
  checkStatus (JsonValue.get package "package_status")
  raiseIf (isTrue (JsonValue.get package "deployable") = false)
    (.package ("package contains no component that will import, so it cannot be deployed; " ++
      "it contains only design-only or unsupported components"))
  raiseIf (isFalse (JsonValue.get package "credentials_included") = false)
    (.package "package must not contain credentials")
  raiseIf (isFalse (JsonValue.get package "execution_started") = false ∨
      isFalse (JsonValue.get package "deployment_started") = false)
    (.package "package must not report execution or deployment started")
  return tenant

def validatePowerPlatformPackage (lib : Library) (clientId : Option JsonValue) :
    JsonValue → Except PackageError String
  | .object package => do
      let tenant ← checkFlags package clientId
      let output ← safeOutputDirectory lib (JsonValue.get package "output_directory")
      raiseIf (equalsText output (JsonValue.get package "output_directory") = false)
        (.package "package.output_directory is not canonical")
      let solution ← checkSolution lib (JsonValue.get package "solution")
      checkComponents lib tenant "package.unsupported_components"
        (JsonValue.get package "unsupported_components")
      checkComponents lib tenant "package.design_only_components"
        (JsonValue.get package "design_only_components")
      let files ← checkFiles lib package
      let digest ← checkPackageDigest lib package output files
      checkPac lib output solution (JsonValue.get package "pac")
      return digest
  | _ => .error (.package "package must be an object")

end WaitLocalAgent.PowerPlatform
