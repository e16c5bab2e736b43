import WaitLocalAgent.Model.PowerPlatform

/-! # Materializing a package

`materialize_power_platform_package` on a file system without symbolic links. -/

namespace WaitLocalAgent.PowerPlatform

open Foundation

abbrev FilePath := List String

structure FileSystem where
  file? : FilePath → Option ByteArray
  isDirectory : FilePath → Bool

/-- What the operating system refuses. -/
structure Disk where
  refusesDirectory : FilePath → Bool
  refusesOpen : FilePath → Bool
  /-- What a file holds when its write fails. -/
  failedWrite : FilePath → Option ByteArray
  refusesRead : FilePath → Bool

namespace FileSystem

/-- `path.mkdir(parents=True, exist_ok=True)`. -/
def makeDirectories (disk : Disk) (fs : FileSystem) (path : FilePath) : Option FileSystem :=
  if disk.refusesDirectory path || path.inits.any fun p => (fs.file? p).isSome then none
  else some { fs with isDirectory := fun p => p ∈ path.inits || fs.isDirectory p }

def write (fs : FileSystem) (path : FilePath) (bytes : ByteArray) : FileSystem :=
  { fs with file? := fun p => if p = path then some bytes else fs.file? p }

end FileSystem

/-- The settings that materialization reads. -/
structure MaterializationSettings where
  allowWriteActions : Bool
  workspace : String

/-- Where materialization takes place; `resolve` is `Path(text).expanduser().resolve()`, which
raises where a home directory is not known. -/
structure Host where
  settings : MaterializationSettings
  resolve : String → Option FilePath
  disk : Disk

inductive MaterializationStatus where
  | succeeded
  | failed
  | blocked
  deriving DecidableEq, Repr

/-- The `status` and the `materialization_started` of a result. -/
structure MaterializationResult where
  status : MaterializationStatus
  started : Bool
  message : String
  deriving DecidableEq, Repr

/-- A file of a package as it is written: its raw path, its content and its digest. -/
structure RawFile where
  path : String
  content : String
  digest : String
  deriving DecidableEq, Repr

def rawFile (value : JsonValue) : RawFile :=
  match value with
  | .object raw =>
      let field (key : String) : String := match JsonValue.get raw key with
        | .text s => s
        | _ => ""
      ⟨field "path", field "content", field "digest"⟩
  | _ => ⟨"", "", ""⟩

def rawFiles (package : List (String × JsonValue)) : List RawFile :=
  match JsonValue.get package "files" with
  | .array items => items.map rawFile
  | _ => []

/-- `path != workspace and workspace in path.parents`. -/
def inside (workspace path : FilePath) : Bool := workspace != path && workspace.isPrefixOf path

def RawFile.target (output : FilePath) (f : RawFile) : FilePath := output ++ posixParts f.path

/-- The directories of a file, and the file in them. -/
def FileSystem.withFile (output : FilePath) (fs : FileSystem) (f : RawFile) : FileSystem :=
  { fs with isDirectory := fun p => p ∈ (f.target output).dropLast.inits || fs.isDirectory p }.write
    (f.target output) f.content.toUTF8

/-- What comes of a file. -/
inductive Attempt where
  /-- The file was not opened. -/
  | refused (fs : FileSystem) (message : String)
  /-- The file was opened, and an exception was raised later. -/
  | broken (fs : FileSystem) (message : String)
  | written (fs : FileSystem)

def createFile (lib : Library) (disk : Disk) (fs : FileSystem) (target : FilePath) (f : RawFile) :
    Attempt :=
  if disk.refusesOpen target ∨ fs.isDirectory target then .refused fs "os.open failed"
  else
    match disk.failedWrite target with
    | some bytes => .broken (fs.write target bytes) "write failed"
    | none =>
        let fs := fs.write target f.content.toUTF8
        if disk.refusesRead target then .broken fs "read failed"
        else if (fs.file? target).map lib.digest ≠ some f.digest then
          .broken fs s!"on-disk digest verification failed: {f.path}"
        else .written fs

/-- One round of the loop over the files. -/
def materializeFile (lib : Library) (disk : Disk) (workspace output : FilePath) (fs : FileSystem)
    (f : RawFile) : Attempt :=
  let target := f.target output
  if inside workspace target = false then
    .refused fs "materialization file must be inside WAIT_POWER_PLATFORM_WORKSPACE"
  else
    match fs.makeDirectories disk target.dropLast with
    | none => .refused fs "mkdir failed"
    | some fs => createFile lib disk fs target f

/-- The loop over the files, with the message of the exception that ends it. -/
def materializeFiles (lib : Library) (disk : Disk) (workspace output : FilePath) :
    FileSystem → List RawFile → FileSystem × Option String
  | fs, [] => (fs, none)
  | fs, f :: rest =>
      match materializeFile lib disk workspace output fs f with
      | .refused fs message => (fs, some message)
      | .broken fs message => (fs, some message)
      | .written fs => materializeFiles lib disk workspace output fs rest

def refusedMaterialization (status : MaterializationStatus) (message : String) :
    Option MaterializationResult :=
  some ⟨status, false, message⟩

def materializeBelow (lib : Library) (host : Host) (fs : FileSystem) (workspace output : FilePath)
    (files : List RawFile) : Option MaterializationResult × FileSystem :=
  if (fs.file? output).isSome then
    (refusedMaterialization .failed "materialization output directory is not a directory", fs)
  else
    match fs.makeDirectories host.disk output with
    | none => (refusedMaterialization .failed "mkdir failed", fs)
    | some fs =>
        match materializeFiles lib host.disk workspace output fs files with
        | (fs, some message) => (refusedMaterialization .failed message, fs)
        | (fs, none) =>
            (some ⟨.succeeded, true, "Power Platform XML source was materialized locally."⟩, fs)

def rawOutput (package : List (String × JsonValue)) : String :=
  match JsonValue.get package "output_directory" with
  | .text s => s
  | _ => ""

/-- `materialize_power_platform_package`; no result where an exception escapes. -/
def materializePowerPlatformPackage (lib : Library) (host : Host) (clientId : Option JsonValue)
    (package : List (String × JsonValue)) (fs : FileSystem) :
    Option MaterializationResult × FileSystem :=
  match validatePowerPlatformPackage lib clientId (.object package) with
  | .error (.package message) => (refusedMaterialization .failed message, fs)
  | .error .typeError => (none, fs)
  | .ok _ =>
      if host.settings.allowWriteActions = false then
        (refusedMaterialization .blocked
          ("Power Platform source materialization is blocked until " ++
            "WAIT_ALLOW_WRITE_ACTIONS=true."), fs)
      else
        match host.resolve host.settings.workspace with
        | none => (none, fs)
        | some workspace =>
            if fs.isDirectory workspace = false then
              (refusedMaterialization .failed
                "WAIT_POWER_PLATFORM_WORKSPACE must already exist", fs)
            else
              match host.resolve (rawOutput package) with
              | none => (none, fs)
              | some output =>
                  if inside workspace output = false then
                    (refusedMaterialization .failed
                      ("materialization output directory must be inside " ++
                        "WAIT_POWER_PLATFORM_WORKSPACE"), fs)
                  else materializeBelow lib host fs workspace output (rawFiles package)

end WaitLocalAgent.PowerPlatform
