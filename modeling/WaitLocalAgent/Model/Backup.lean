import Mathlib

/-! # Restoring a backup

The files of the appliance, what SQLite reads in them, and `restore_state`, which replaces the live
database by the content of a backup. -/

namespace WaitLocalAgent.Backup

abbrev Bytes := List UInt8

/-- A resolved path: the parts of its directory, and its last part. -/
structure Path where
  directory : List String
  name : String
  deriving DecidableEq, Repr

def Path.parts (path : Path) : List String := path.directory ++ [path.name]

def Path.isWithin (path : Path) (root : List String) : Bool := root.isPrefixOf path.parts

def Path.sidecar (path : Path) (suffix : String) : Path := { path with name := path.name ++ suffix }

def Path.wal (path : Path) : Path := path.sidecar "-wal"

def Path.shm (path : Path) : Path := path.sidecar "-shm"

theorem Path.sidecar_ne {path : Path} {suffix : String} (h : suffix.length ≠ 0) :
    path.sidecar suffix ≠ path := by
  intro hsame
  have hlength := congrArg (fun p : Path => p.name.length) hsame
  simp only [sidecar, String.length_append] at hlength
  omega

theorem Path.wal_ne (path : Path) : path.wal ≠ path := sidecar_ne (by decide)

theorem Path.shm_ne (path : Path) : path.shm ≠ path := sidecar_ne (by decide)

theorem Path.shm_ne_wal (path : Path) : path.shm ≠ path.wal := by
  intro hsame
  have hname := congrArg (fun p : Path => p.name.toList) hsame
  simp only [shm, wal, sidecar, String.toList_append, List.append_cancel_left_eq] at hname
  exact absurd hname (by decide)

abbrev Disk := Path → Option Bytes

/-- What SQLite makes of a main file and its WAL, `vacuum into`, and what the migrations and the
startup repairs of `Store.__init__` leave, with whether they come through. -/
structure Sqlite (DB : Type) where
  content : Bytes → Option Bytes → Option DB
  vacuum : DB → Bytes
  migrate : DB → DB × Bool

/-- `Fernet`: which keys it takes, and how it decrypts. -/
structure Cipher where
  validKey : String → Bool
  decrypt : String → Bytes → Option Bytes

inductive FileOp where
  | makeParent
  | readSource
  | snapshot
  | unlink (path : Path)
  | openStore
  deriving DecidableEq

/-- What a write that fails has done to its file. -/
inductive WriteFault where
  | notOpened
  | cutOff (written : ℕ)

/-- The operations that the file system refuses. -/
structure Faults where
  fails : FileOp → Bool
  write : Option WriteFault

structure Settings where
  dataPath : Path
  backupDir : Option (List String)
  secretsBackend : String
  /-- What the vault holds as `WAIT_BACKUP_FERNET_KEY`; `none` is a vault that cannot be read. -/
  vault : Option (Option String)

inductive RestoreError where
  | backupPathError (message : String)
  | fileNotFoundError (path : Path)
  | backupEncryptionError (message : String)
  | osError
  | sqliteError
  deriving DecidableEq, Repr

/-- A program on the files; what it did before it raises stays done. -/
abbrev Restore (α : Type) := ExceptT RestoreError (StateM Disk) α

variable {DB : Type}

/-- The content of a database: its main file with its WAL applied. -/
def Sqlite.read (sql : Sqlite DB) (disk : Disk) (path : Path) : Option DB :=
  (disk path).bind fun main => sql.content main (disk path.wal)

def guardOp (faults : Faults) (op : FileOp) : Restore Unit :=
  if faults.fails op then throw .osError else pure ()

/-- `path.unlink(missing_ok=True)`. -/
def unlink (faults : Faults) (path : Path) : Restore Unit := do
  guardOp faults (.unlink path)
  modify fun disk => Function.update disk path none

def writeBytes (faults : Faults) (path : Path) (payload : Bytes) : Restore Unit :=
  match faults.write with
  | none => modify fun disk => Function.update disk path (some payload)
  | some .notOpened => throw .osError
  | some (.cutOff written) => do
      modify fun disk => Function.update disk path (some (payload.take written))
      throw .osError

def removeSqliteSidecars (faults : Faults) (path : Path) : Restore Unit := do
  unlink faults path.wal
  unlink faults path.shm

def removeSqliteFiles (faults : Faults) (path : Path) : Restore Unit := do
  unlink faults path
  removeSqliteSidecars faults path

def snapshotBytes (sql : Sqlite DB) (faults : Faults) (source : Path) : Restore Bytes := do
  guardOp faults .snapshot
  match sql.read (← get) source with
  | none => throw .sqliteError
  | some db => return sql.vacuum db

/-- `Store(path)`, up to the layout of the pages that it leaves. -/
def openStore (sql : Sqlite DB) (faults : Faults) (path : Path) : Restore Unit := do
  guardOp faults .openStore
  match sql.read (← get) path with
  | none => throw .sqliteError
  | some db => do
      modify fun disk =>
        Function.update (Function.update disk path (some (sql.vacuum (sql.migrate db).1)))
          path.wal none
      if (sql.migrate db).2 then pure () else throw .sqliteError

def Settings.roots (settings : Settings) : List (List String) :=
  settings.dataPath.directory :: settings.backupDir.toList

def confineBackupPath (path : Path) : Option Settings → Except RestoreError Path
  | none => .ok path
  | some settings =>
      if settings.roots.any path.isWithin then .ok path
      else .error (.backupPathError
        ("backup paths must remain under the appliance data directory or a configured backup root: "
          ++ ", ".intercalate (settings.roots.map fun root => "/".intercalate root)))

def backupFernet (cipher : Cipher) : Option Settings → Except RestoreError String
  | none => .error (.backupEncryptionError
      "Encrypted backups require WAIT_SECRETS_BACKEND=fernet and a local secret vault.")
  | some settings =>
      if settings.secretsBackend ≠ "fernet" then .error (.backupEncryptionError
        "Encrypted backups require WAIT_SECRETS_BACKEND=fernet and a local secret vault.")
      else
        match settings.vault with
        | none =>
            .error (.backupEncryptionError ("Encrypted backups require an initialized local " ++
            "secret vault and a stored WAIT_BACKUP_FERNET_KEY."))
        | some secret =>
            if secret.getD "" = "" then .error (.backupEncryptionError
              "Encrypted backups require WAIT_BACKUP_FERNET_KEY in the local secret vault.")
            else if cipher.validKey (secret.getD "") then .ok (secret.getD "")
            else .error (.backupEncryptionError
              "The stored WAIT_BACKUP_FERNET_KEY is not a valid Fernet key.")

/-- `fernet.decrypt(source.read_bytes())`. -/
def decryptSource (cipher : Cipher) (faults : Faults) (key : String) (source : Path) :
    Restore Bytes := do
  guardOp faults .readSource
  match cipher.decrypt key (((← get) source).getD []) with
  | some payload => return payload
  | none => throw (.backupEncryptionError ("Encrypted backup could not be decrypted with the " ++
      "configured WAIT_BACKUP_FERNET_KEY."))

/-- How both branches of `restore_state` end. -/
def replaceLive (sql : Sqlite DB) (faults : Faults) (live : Path) (payload : Bytes) :
    Restore Unit := do
  removeSqliteFiles faults live
  writeBytes faults live payload
  openStore sql faults live

def requireSource (source : Path) : Restore Unit := do
  if ((← get) source).isNone then throw (.fileNotFoundError source) else pure ()

/-- The snapshot of a plain source; when it fails, the sidecars of the live database are removed. -/
def snapshotSource (sql : Sqlite DB) (faults : Faults) (live source : Path) : Restore Bytes :=
  tryCatch (snapshotBytes sql faults source) fun e => do
    removeSqliteSidecars faults live
    throw e

def restoreState (sql : Sqlite DB) (cipher : Cipher) (faults : Faults) (settings : Option Settings)
    (live source : Path) (encrypted : Bool) : Restore Unit := do
  let source ← ExceptT.mk (pure (confineBackupPath source settings))
  requireSource source
  guardOp faults .makeParent
  if encrypted then do
    let key ← ExceptT.mk (pure (backupFernet cipher settings))
    let payload ← decryptSource cipher faults key source
    replaceLive sql faults live payload
  else do
    let payload ← snapshotSource sql faults live source
    replaceLive sql faults live payload

end WaitLocalAgent.Backup
