import WaitLocalAgent.Foundation.Fallible
import WaitLocalAgent.Foundation.Ledger
import WaitLocalAgent.Foundation.Table
import WaitLocalAgent.Model.ClientScope

/-! # Entries with revisions

What the tables of the template gallery and of the MSP playbooks share: entries by id, revisions
under `unique(id, version)`, and the audit events that are written beside them. -/

namespace WaitLocalAgent.Shelves

open Foundation

structure AuditEvent where
  eventType : String
  subjectId : String
  message : String
  clientId : Option ClientId
  deriving DecidableEq, Repr

inductive ShelfError where
  | keyError (key : String)
  | valueError (message : String)
  | integrityError
  | runtimeError (message : String)
  deriving DecidableEq, Repr

/-- The columns that the statements on entries and revisions name. -/
structure Columns (E R : Type) where
  id : E → String
  version : E → ℕ
  clientId : E → Option ClientId
  revisionId : R → ℕ
  entryId : R → String
  revisionVersion : R → ℕ

variable {E R : Type}

structure Shelf (C : Columns E R) where
  entries : Table C.id
  revisions : AutoTable C.revisionId
  auditEvents : List AuditEvent

namespace Shelf

variable {C : Columns E R}

def empty : Shelf C := ⟨.empty, .empty, []⟩

/-- `select * from … where id = ? and …`. -/
def selectEntry (s : Shelf C) (id : String) (admits : Option ClientId → Bool) : Option E :=
  (s.entries.find? id).filter fun e => admits (C.clientId e)

/-- `select * from … where … = ? and version = ?`. -/
def selectRevision (s : Shelf C) (entryId : String) (version : ℕ) : Option R :=
  s.revisions.table.rows.find? fun r =>
    C.entryId r == entryId && C.revisionVersion r == version

/-- The insertion of a revision, with the audit event that follows it. -/
def insertRevision (s : Shelf C) (draft : ℕ → R) (h : ∀ n, C.revisionId (draft n) = n)
    (event : AuditEvent) : Except ShelfError (Shelf C) := do
  raiseIf (s.selectRevision (C.entryId (draft 0)) (C.revisionVersion (draft 0))).isSome
    .integrityError
  return { s with
    revisions := s.revisions.insert draft h, auditEvents := s.auditEvents ++ [event] }

def insertEntry (s : Shelf C) (row : E) (draft : ℕ → R) (h : ∀ n, C.revisionId (draft n) = n)
    (event : AuditEvent) : Except ShelfError (Shelf C) :=
  match s.entries.insert? row with
  | none => .error .integrityError
  | some entries => { s with entries }.insertRevision draft h event

/-- The transaction that updates an entry: `cursor.rowcount` must be one. -/
def updateEntry (s : Shelf C) (id : String) (set : E → E) (hset : ∀ e, C.id (set e) = C.id e)
    (draft : ℕ → R) (h : ∀ n, C.revisionId (draft n) = n) (event : AuditEvent) :
    Except ShelfError (Shelf C) := do
  raiseIf (s.entries.rowcount (fun e => C.id e == id) ≠ 1) (.keyError id)
  let entries := s.entries.update (fun e => C.id e == id) set hset
  { s with entries }.insertRevision draft h event

end Shelf

inductive ShelfRead where
  | entry (id : String) (admits : Option ClientId → Bool)
  | revision (id : String) (version : ℕ)

abbrev ShelfRead.Answer (E R : Type) : ShelfRead → Type
  | .entry _ _ => Option E
  | .revision _ _ => Option R

/-- The transactions that create an entry, and that give an entry as it was read new contents. -/
inductive ShelfWrite (E N : Type) where
  | create (entry : E)
  | update (entryId : String) (existing : E) (next : N) (now : String)

/-- How the rows of a shelf are read and written. -/
structure ShelfKind (C : Columns E R) (N : Type) where
  entryFromRow : E → E
  revisionFromRow : R → R
  commit : ShelfWrite E N → Shelf C → Except ShelfError (Shelf C)

def ShelfKind.read {C : Columns E R} {N : Type} (kind : ShelfKind C N) :
    (q : ShelfRead) → Shelf C → q.Answer E R
  | .entry id admits, s => (s.selectEntry id admits).map kind.entryFromRow
  | .revision id version, s => (s.selectRevision id version).map kind.revisionFromRow

/-- A call on a shelf whose entries have contents of type `N`. -/
abbrev ShelfCall (E R N : Type) :=
  ExceptT ShelfError (Program (LedgerAction ShelfRead (ShelfWrite E N))
    (LedgerAction.Answer ShelfError (ShelfRead.Answer E R)))

variable {N α : Type}

def readEntry (id : String) (admits : Option ClientId → Bool) : ShelfCall E R N (Option E) :=
  ExceptT.lift (Program.perform (LedgerAction.read (ShelfRead.entry id admits)))

def readRevision (id : String) (version : ℕ) : ShelfCall E R N (Option R) :=
  ExceptT.lift (Program.perform (LedgerAction.read (ShelfRead.revision id version)))

def writeEntry (write : ShelfWrite E N) : ShelfCall E R N Unit :=
  ExceptT.mk (Program.perform (LedgerAction.write write))

def ofExcept (x : Except ShelfError α) : ShelfCall E R N α := ExceptT.mk (pure x)

/-- A call that nothing overlaps: what it comes to, and the shelf after it. -/
def ShelfKind.exec {C : Columns E R} (kind : ShelfKind C N) (call : ShelfCall E R N α)
    (s : Shelf C) : Except ShelfError α × Shelf C :=
  Program.exec (fun a s => LedgerAction.respond kind.read kind.commit a s ()) call.run s

/-- The calls under way on a shelf, with those that have changed it. -/
abbrev ShelfPool (C : Columns E R) (N W K α : Type) :=
  Program.Watched W K (Shelf C) (LedgerAction ShelfRead (ShelfWrite E N))
    (LedgerAction.Answer ShelfError (ShelfRead.Answer E R)) (Except ShelfError α)

/-- Any interleaving of calls, from a shelf without entries. -/
def shelfCalls {C : Columns E R} {K : Type} (W : Type) [DecidableEq W] (kind : ShelfKind C N)
    (program : K → ShelfCall E R N α) :
    Machine (ShelfPool C N W K α) (Program.PoolStep W K Unit) :=
  Program.watched (LedgerAction.respond kind.read kind.commit) (fun call => (program call).run)
    .empty

end WaitLocalAgent.Shelves
