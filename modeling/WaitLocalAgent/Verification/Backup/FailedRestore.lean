import WaitLocalAgent.Model.Backup

/-! # Restores that fail

What a restore that raises leaves of the live database, and when that is all of it. -/

namespace WaitLocalAgent.Backup

variable {DB α β : Type} {sql : Sqlite DB} {cipher : Cipher} {faults : Faults}
  {settings : Option Settings} {live source : Path} {encrypted : Bool} {disk : Disk}

/-- What a program returns or raises, and the files that it leaves. -/
def exec (x : Restore α) (disk : Disk) : Except RestoreError α × Disk := x.run.run disk

@[simp] theorem exec_pure (a : α) : exec (pure a : Restore α) disk = (.ok a, disk) := rfl

@[simp] theorem exec_throw (e : RestoreError) :
    exec (throw e : Restore α) disk = (.error e, disk) := rfl

@[simp] theorem exec_modify (f : Disk → Disk) :
    exec (modify f : Restore Unit) disk = (.ok (), f disk) := rfl

@[simp] theorem exec_mk_pure (x : Except RestoreError α) :
    exec (ExceptT.mk (pure x) : Restore α) disk = (x, disk) := rfl

theorem exec_bind (x : Restore α) (f : α → Restore β) : exec (x >>= f) disk =
    match exec x disk with
    | (.ok a, disk') => exec (f a) disk'
    | (.error e, disk') => (.error e, disk') := by
  simp only [exec, ExceptT.run_bind, StateT.run_bind]
  rcases x.run.run disk with ⟨result, disk'⟩
  cases result with
  | ok a => rfl
  | error e => rfl

theorem exec_get_bind (f : Disk → Restore β) : exec (get >>= f) disk = exec (f disk) disk := rfl

theorem exec_tryCatch (x : Restore α) (handler : RestoreError → Restore α) :
    exec (tryCatch x handler) disk =
      match exec x disk with
      | (.ok a, disk') => (.ok a, disk')
      | (.error e, disk') => exec (handler e) disk' := by
  simp only [exec, ExceptT.run_tryCatch, StateT.run_bind]
  rcases x.run.run disk with ⟨result, disk'⟩
  cases result with
  | ok a => rfl
  | error e => rfl

theorem exec_guardOp (op : FileOp) : exec (guardOp faults op) disk =
    (if faults.fails op then .error .osError else .ok (), disk) := by
  rw [guardOp]
  split <;> rfl

theorem exec_unlink (path : Path) : exec (unlink faults path) disk =
    if faults.fails (.unlink path) then (.error .osError, disk)
    else (.ok (), Function.update disk path none) := by
  rw [unlink, exec_bind, exec_guardOp]
  split
  · rename_i hguard
    split at hguard
    · simp at hguard
    · simp_all
  · rename_i hguard
    split at hguard
    · simp_all
    · simp at hguard

/-- The files after the sidecars of a database have been removed. -/
def withoutSidecars (disk : Disk) (path : Path) : Disk :=
  Function.update (Function.update disk path.wal none) path.shm none

theorem withoutSidecars_self : withoutSidecars disk live live = disk live := by
  rw [withoutSidecars, Function.update_of_ne live.shm_ne.symm,
    Function.update_of_ne live.wal_ne.symm]

theorem withoutSidecars_wal : withoutSidecars disk live live.wal = none := by
  rw [withoutSidecars, Function.update_of_ne live.shm_ne_wal.symm, Function.update_self]

/-- What a restore finds before it touches the live database: it is refused, the plain source cannot
be read, or there is a payload. -/
inductive Prepared where
  | refused (error : RestoreError)
  | unreadable (error : RestoreError)
  | payload (payload : Bytes)

/-- The payload of an encrypted source. -/
def preparedDecrypted (cipher : Cipher) (faults : Faults) (settings : Option Settings) (disk : Disk)
    (source : Path) : Prepared :=
  match backupFernet cipher settings with
  | .error e => .refused e
  | .ok key =>
      match exec (decryptSource cipher faults key source) disk with
      | (.error e, _) => .refused e
      | (.ok payload, _) => .payload payload

def preparedSnapshot (sql : Sqlite DB) (faults : Faults) (disk : Disk) (source : Path) : Prepared :=
  match exec (snapshotBytes sql faults source) disk with
  | (.error e, _) => .unreadable e
  | (.ok payload, _) => .payload payload

def prepared (sql : Sqlite DB) (cipher : Cipher) (faults : Faults) (settings : Option Settings)
    (disk : Disk) (source : Path) (encrypted : Bool) : Prepared :=
  match confineBackupPath source settings with
  | .error e => .refused e
  | .ok source =>
      if (disk source).isNone then .refused (.fileNotFoundError source)
      else if faults.fails .makeParent then .refused .osError
      else if encrypted then preparedDecrypted cipher faults settings disk source
      else preparedSnapshot sql faults disk source

theorem plain_of_unreadable {e : RestoreError}
    (h : prepared sql cipher faults settings disk source encrypted = .unreadable e) :
    encrypted = false := by
  cases encrypted with
  | false => rfl
  | true =>
      simp only [prepared, preparedDecrypted, if_true] at h
      repeat' split at h
      all_goals cases h

theorem exec_decryptSource (cipher : Cipher) (faults : Faults) (key : String) (source : Path)
    (disk : Disk) :
    ∃ result, exec (decryptSource cipher faults key source) disk = (result, disk) := by
  rw [decryptSource, exec_bind, exec_guardOp]
  cases faults.fails .readSource with
  | true => exact ⟨_, rfl⟩
  | false =>
      simp only [Bool.false_eq_true, if_false]
      rw [exec_get_bind]
      split
      · exact ⟨_, rfl⟩
      · exact ⟨_, rfl⟩

theorem exec_snapshotBytes (sql : Sqlite DB) (faults : Faults) (source : Path) (disk : Disk) :
    ∃ result, exec (snapshotBytes sql faults source) disk = (result, disk) := by
  rw [snapshotBytes, exec_bind, exec_guardOp]
  cases faults.fails .snapshot with
  | true => exact ⟨_, rfl⟩
  | false =>
      simp only [Bool.false_eq_true, if_false]
      rw [exec_get_bind]
      split
      · exact ⟨_, rfl⟩
      · exact ⟨_, rfl⟩

theorem exec_requireSource : exec (requireSource source) disk =
    if (disk source).isNone then (.error (.fileNotFoundError source), disk)
    else (.ok (), disk) := by
  rw [requireSource, exec_get_bind]
  split <;> rfl

theorem exec_snapshotSource : exec (snapshotSource sql faults live source) disk =
    match exec (snapshotBytes sql faults source) disk with
    | (.ok payload, _) => (.ok payload, disk)
    | (.error e, _) => exec (removeSqliteSidecars faults live >>= fun _ => throw e) disk := by
  obtain ⟨result, hresult⟩ := exec_snapshotBytes sql faults source disk
  rw [snapshotSource, exec_tryCatch, hresult]
  cases result with
  | error e => rfl
  | ok payload => rfl

/-- The live database is touched only once there is a payload, or a plain source has failed. -/
theorem exec_restoreState :
    exec (restoreState sql cipher faults settings live source encrypted) disk =
      match prepared sql cipher faults settings disk source encrypted with
      | .refused e => (.error e, disk)
      | .unreadable e => exec (removeSqliteSidecars faults live >>= fun _ => throw e) disk
      | .payload payload => exec (replaceLive sql faults live payload) disk := by
  rw [restoreState, exec_bind, exec_mk_pure, prepared]
  cases confineBackupPath source settings with
  | error e => rfl
  | ok source =>
      simp only
      rw [exec_bind, exec_requireSource]
      by_cases hmissing : (disk source).isNone = true
      · simp only [hmissing, if_true]
      · simp only [hmissing, Bool.false_eq_true, if_false]
        rw [exec_bind, exec_guardOp]
        cases faults.fails .makeParent with
        | true => rfl
        | false =>
            simp only [Bool.false_eq_true, if_false]
            cases encrypted with
            | true =>
                simp only [if_true, preparedDecrypted]
                rw [exec_bind, exec_mk_pure]
                cases backupFernet cipher settings with
                | error e => rfl
                | ok key =>
                    simp only
                    rw [exec_bind]
                    obtain ⟨result, hresult⟩ := exec_decryptSource cipher faults key source disk
                    rw [hresult]
                    cases result with
                    | error e => rfl
                    | ok payload => rfl
            | false =>
                simp only [Bool.false_eq_true, if_false, preparedSnapshot]
                rw [exec_bind, exec_snapshotSource]
                rcases exec (snapshotBytes sql faults source) disk with ⟨result, disk'⟩
                cases result with
                | error e =>
                    simp only
                    rw [exec_bind, exec_bind]
                    rcases exec (removeSqliteSidecars faults live) disk with ⟨removed, disk'⟩
                    cases removed with
                    | error e' => rfl
                    | ok u => rfl
                | ok payload => rfl

theorem exec_removeSqliteSidecars : exec (removeSqliteSidecars faults live) disk =
    if faults.fails (.unlink live.wal) then (.error .osError, disk)
    else if faults.fails (.unlink live.shm) then
      (.error .osError, Function.update disk live.wal none)
    else (.ok (), withoutSidecars disk live) := by
  rw [removeSqliteSidecars, exec_bind, exec_unlink]
  cases faults.fails (.unlink live.wal) with
  | true => rfl
  | false =>
      simp only [Bool.false_eq_true, if_false]
      rw [exec_unlink]
      rfl

theorem read_removeSqliteSidecars (hwal : faults.fails (.unlink live.wal) = false) :
    sql.read (exec (removeSqliteSidecars faults live) disk).2 live =
      (disk live).bind fun main => sql.content main none := by
  rw [exec_removeSqliteSidecars, hwal]
  simp only [Bool.false_eq_true, if_false]
  split
  · simp only [Sqlite.read, Function.update_self, Function.update_of_ne live.wal_ne.symm]
  · simp only [Sqlite.read, withoutSidecars_self, withoutSidecars_wal]

theorem main_removeSqliteSidecars :
    (exec (removeSqliteSidecars faults live) disk).2 live = disk live := by
  rw [exec_removeSqliteSidecars]
  split
  · rfl
  · split
    · exact Function.update_of_ne live.wal_ne.symm _ _
    · exact withoutSidecars_self

/-- A failed restore keeps the whole content: it was refused, or it could not remove the main file,
or the WAL adds nothing to the main file or could not be removed. -/
def KeepsContent (sql : Sqlite DB) (faults : Faults) (live : Path) (disk : Disk) :
    Prepared → Prop
  | .refused _ => True
  | .unreadable _ => faults.fails (.unlink live.wal) = true ∨
      ((disk live).bind fun main => sql.content main none) = sql.read disk live
  | .payload _ => faults.fails (.unlink live) = true

/-- After a plain source that cannot be read. -/
theorem read_unreadable :
    sql.read (exec (removeSqliteSidecars faults live) disk).2 live = sql.read disk live ↔
      faults.fails (.unlink live.wal) = true ∨
        ((disk live).bind fun main => sql.content main none) = sql.read disk live := by
  cases hwal : faults.fails (.unlink live.wal) with
  | true =>
      rw [exec_removeSqliteSidecars, hwal]
      simp
  | false =>
      rw [read_removeSqliteSidecars hwal]
      simp

theorem exec_removeSqliteFiles : exec (removeSqliteFiles faults live) disk =
    if faults.fails (.unlink live) then (.error .osError, disk)
    else exec (removeSqliteSidecars faults live) (Function.update disk live none) := by
  rw [removeSqliteFiles, exec_bind, exec_unlink]
  cases faults.fails (.unlink live) with
  | true => rfl
  | false => rfl

/-- The restore has not come to write a payload: there is none, or the live main file cannot be
removed. -/
def BeforeWrite (faults : Faults) (live : Path) : Prepared → Prop
  | .payload _ => faults.fails (.unlink live) = true
  | _ => True

/-- A restore that raises before it writes a payload keeps the live main file. The content of the
database is then what it was, or the one of the main file alone, after a plain source that cannot be
read. -/
theorem failed_restore_keeps {db : DB} {error : RestoreError} {after : Disk}
    (hdb : sql.read disk live = some db)
    (hraise : exec (restoreState sql cipher faults settings live source encrypted) disk =
      (.error error, after))
    (hbefore : BeforeWrite faults live
      (prepared sql cipher faults settings disk source encrypted)) :
    after live = disk live ∧
    (sql.read after live = some db ∨
      encrypted = false ∧
        sql.read after live = (disk live).bind fun main => sql.content main none) ∧
    (sql.read after live = some db ↔ KeepsContent sql faults live disk
      (prepared sql cipher faults settings disk source encrypted)) := by
  have hafter : after = (exec (restoreState sql cipher faults settings live source encrypted)
      disk).2 := by rw [hraise]
  rw [hafter, exec_restoreState, ← hdb]
  cases hprepared : prepared sql cipher faults settings disk source encrypted with
  | refused e => exact ⟨rfl, .inl rfl, iff_of_true rfl trivial⟩
  | unreadable e =>
      have hfiles : (exec (removeSqliteSidecars faults live >>= fun _ =>
          (throw e : Restore Unit)) disk).2 = (exec (removeSqliteSidecars faults live) disk).2 := by
        rw [exec_bind]
        rcases exec (removeSqliteSidecars faults live) disk with ⟨removed, disk'⟩
        cases removed with
        | error e => rfl
        | ok u => rfl
      rw [hfiles]
      refine ⟨main_removeSqliteSidecars, ?_, read_unreadable⟩
      cases hwal : faults.fails (.unlink live.wal) with
      | true => exact .inl (read_unreadable.mpr (.inl hwal))
      | false => exact .inr ⟨plain_of_unreadable hprepared, read_removeSqliteSidecars hwal⟩
  | payload payload =>
      rw [hprepared] at hbefore
      have hmain : faults.fails (.unlink live) = true := hbefore
      have hkept : (exec (replaceLive sql faults live payload) disk).2 = disk := by
        rw [replaceLive, exec_bind, exec_removeSqliteFiles, hmain]
        rfl
      rw [hkept]
      exact ⟨rfl, .inl rfl, iff_of_true rfl hmain⟩

/-- A database of one byte, whose WAL replaces it. -/
def tinySqlite : Sqlite UInt8 where
  content main wal :=
    match wal with
    | some [page] => some page
    | _ => match main with
      | [page] => some page
      | _ => none
  vacuum page := [page]
  migrate page := (page, true)

def noFaults : Faults := ⟨fun _ => false, none⟩

def statePath : Path := ⟨["var"], "state.db"⟩

def backupPath : Path := ⟨["var"], "backup.db"⟩

/-- The live database, with or without a committed page in its WAL, and a backup that is no
database. -/
def brokenBackup (wal : Option Bytes) : Disk := fun path =>
  if path = statePath then some [1]
  else if path = statePath.wal then wal
  else if path = backupPath then some [0, 0]
  else none

def noCipher : Cipher := ⟨fun _ => false, fun _ _ => none⟩

def restoreBroken (wal : Option Bytes) : Except RestoreError Unit × Disk :=
  exec (restoreState tinySqlite noCipher noFaults none statePath backupPath false)
    (brokenBackup wal)

/-- Without a WAL the failed restore keeps the content. -/
theorem failed_restore_keeps_quiet : (restoreBroken none).2 statePath = some [1] ∧
    (tinySqlite.read (restoreBroken none).2 statePath = some 1 ∨ false = false ∧
      tinySqlite.read (restoreBroken none).2 statePath = some 1) ∧
    (tinySqlite.read (restoreBroken none).2 statePath = some 1 ↔
      KeepsContent tinySqlite noFaults statePath (brokenBackup none)
        (prepared tinySqlite noCipher noFaults none (brokenBackup none) backupPath false)) :=
  failed_restore_keeps (show tinySqlite.read (brokenBackup none) statePath = some 1 from rfl)
    (show restoreBroken none = (.error .sqliteError, (restoreBroken none).2) from rfl) trivial

/-- The WAL of the live database is removed, and what was committed in it is lost. -/
theorem not_failed_restore_keeps : ¬ ∀ (DB : Type) (sql : Sqlite DB) (cipher : Cipher)
    (faults : Faults) (settings : Option Settings) (live source : Path) (encrypted : Bool)
    (disk after : Disk) (db : DB) (error : RestoreError), sql.read disk live = some db →
    exec (restoreState sql cipher faults settings live source encrypted) disk =
      (.error error, after) → sql.read after live = some db := by
  intro h
  have hkept := h UInt8 tinySqlite noCipher noFaults none statePath backupPath false
    (brokenBackup (some [2])) (restoreBroken (some [2])).2 2 .sqliteError rfl rfl
  exact absurd hkept (by decide)

end WaitLocalAgent.Backup
