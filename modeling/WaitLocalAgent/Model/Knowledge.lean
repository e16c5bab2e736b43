import WaitLocalAgent.Foundation.Fallible
import WaitLocalAgent.Foundation.Machine
import WaitLocalAgent.Foundation.Table
import WaitLocalAgent.Model.ClientScope

/-! # Knowledge documents

Ingesting documents with their chunks, setting their authority, and the vector index beside the
store. -/

namespace WaitLocalAgent.Knowledge

open Foundation

/-! ## Rows -/

inductive KnowledgeAuthority where
  | authoritativePolicy
  | approvedSop
  | reference
  | vendor
  | technicianNotes
  | untrusted
  deriving DecidableEq, Repr

def KnowledgeAuthority.value : KnowledgeAuthority → String
  | .authoritativePolicy => "AUTHORITATIVE_POLICY"
  | .approvedSop => "APPROVED_SOP"
  | .reference => "REFERENCE"
  | .vendor => "VENDOR"
  | .technicianNotes => "TECHNICIAN_NOTES"
  | .untrusted => "UNTRUSTED"

def authorities : List KnowledgeAuthority :=
  [.authoritativePolicy, .approvedSop, .reference, .vendor, .technicianNotes, .untrusted]

def KnowledgeAuthority.isApproved : KnowledgeAuthority → Bool
  | .authoritativePolicy | .approvedSop => true
  | _ => false

structure KnowledgeDocument where
  id : ℕ
  path : String
  title : String
  kind : String
  checksum : String
  modifiedAt : String
  chunkCount : ℕ
  indexedAt : String
  clientId : Option ClientId
  authority : KnowledgeAuthority := .untrusted
  sopVersion : Option String := none
  approvedBy : Option String := none
  approvedAt : Option String := none
  supersededBy : Option ℕ := none
  deriving DecidableEq

structure KnowledgeDocumentWrite where
  path : String
  title : String
  kind : String
  checksum : String
  modifiedAt : String
  chunks : List String
  deriving DecidableEq

structure ChunkRow where
  id : ℕ
  documentId : ℕ
  chunkIndex : ℕ
  text : String
  excerpt : String
  deriving DecidableEq

structure KnowledgeChunk where
  id : ℕ
  documentId : ℕ
  title : String
  path : String
  chunkIndex : ℕ
  text : String
  excerpt : String
  clientId : Option String
  deriving DecidableEq

structure KnowledgeStore where
  documents : AutoTable KnowledgeDocument.id
  chunks : AutoTable ChunkRow.id

namespace KnowledgeStore

def empty : KnowledgeStore := ⟨.empty, .empty⟩

/-- `select id from knowledge_documents where path = ?`. -/
def findPath (s : KnowledgeStore) (path : String) : Option KnowledgeDocument :=
  s.documents.table.rows.find? fun d => d.path == path

end KnowledgeStore

/-! ## Upserts -/

/-- `" ".join(text.split()[:36])`. -/
def excerptOf (text : String) : String :=
  String.ofList ([' '].intercalate ((Text.words text.toList).take 36))

def chunkRow (documentId chunkIndex : ℕ) (text : String) (id : ℕ) : ChunkRow where
  id := id
  documentId := documentId
  chunkIndex := chunkIndex
  text := text
  excerpt := excerptOf text

theorem chunkRow_id (documentId chunkIndex : ℕ) (text : String) (id : ℕ) :
    (chunkRow documentId chunkIndex text id).id = id := rfl

/-- The insertions of `for index, text in enumerate(document.chunks)`. -/
def insertChunks (documentId : ℕ) :
    ℕ → List String → AutoTable ChunkRow.id → AutoTable ChunkRow.id
  | _, [], chunks => chunks
  | index, text :: texts, chunks =>
      insertChunks documentId (index + 1) texts
        (chunks.insert (chunkRow documentId index text) (chunkRow_id documentId index text))

/-- `update knowledge_documents set …, client_id = coalesce(?, client_id)`. -/
def KnowledgeDocumentWrite.overwrite (write : KnowledgeDocumentWrite) (clientId : Option ClientId)
    (now : String) (document : KnowledgeDocument) : KnowledgeDocument :=
  { document with
    title := write.title, kind := write.kind, checksum := write.checksum
    modifiedAt := write.modifiedAt, chunkCount := write.chunks.length, indexedAt := now
    clientId := clientId.or document.clientId }

theorem KnowledgeDocumentWrite.overwrite_id (write : KnowledgeDocumentWrite)
    (clientId : Option ClientId) (now : String) (document : KnowledgeDocument) :
    (write.overwrite clientId now document).id = document.id := rfl

/-- The row of a new document; its authority is the default of the column. -/
def KnowledgeDocumentWrite.row (write : KnowledgeDocumentWrite) (clientId : Option ClientId)
    (now : String) (id : ℕ) : KnowledgeDocument where
  id := id
  path := write.path
  title := write.title
  kind := write.kind
  checksum := write.checksum
  modifiedAt := write.modifiedAt
  chunkCount := write.chunks.length
  indexedAt := now
  clientId := clientId

theorem KnowledgeDocumentWrite.row_id (write : KnowledgeDocumentWrite) (clientId : Option ClientId)
    (now : String) (id : ℕ) : (write.row clientId now id).id = id := rfl

def upsertDocument (s : KnowledgeStore) (clientId : Option ClientId) (now : String)
    (write : KnowledgeDocumentWrite) : KnowledgeStore × ℕ :=
  match s.findPath write.path with
  | some existing =>
      ({ documents := s.documents.update (fun d => d.id == existing.id)
          (write.overwrite clientId now) (write.overwrite_id clientId now)
         chunks := insertChunks existing.id 0 write.chunks
          (s.chunks.delete fun c => c.documentId == existing.id) },
        existing.id)
  | none =>
      let documentId := s.documents.lastKey + 1
      ({ documents := s.documents.insert (write.row clientId now) (write.row_id clientId now)
         chunks := insertChunks documentId 0 write.chunks s.chunks },
        documentId)

def upsertAll (clientId : Option ClientId) (now : String) :
    List KnowledgeDocumentWrite → KnowledgeStore → KnowledgeStore × List ℕ
  | [], s => (s, [])
  | write :: writes, s =>
      let (s, documentId) := upsertDocument s clientId now write
      let (s, documentIds) := upsertAll clientId now writes s
      (s, documentId :: documentIds)

def upsertKnowledgeDocuments (s : KnowledgeStore) (writes : List KnowledgeDocumentWrite)
    (clientId : Option String) (now : String) : KnowledgeStore × List ℕ :=
  upsertAll (normalizeClientId clientId) now writes s

def listKnowledgeChunksForDocument (s : KnowledgeStore) (documentId : ℕ) : List KnowledgeChunk :=
  match s.documents.find? documentId with
  | none => []
  | some d =>
      (s.chunks.table.rows.filter fun c => c.documentId == documentId).map fun c =>
        { id := c.id, documentId := c.documentId, title := d.title, path := d.path
          chunkIndex := c.chunkIndex, text := c.text, excerpt := c.excerpt
          clientId := d.clientId.map Subtype.val }

/-! ## Authority -/

inductive KnowledgeError where
  | valueError (message : String)
  deriving DecidableEq, Repr

def parseAuthority (authority : String) : Except KnowledgeError KnowledgeAuthority :=
  match authorities.find? fun a => a.value == Text.strip authority with
  | some a => .ok a
  | none =>
      let allowed := ", ".intercalate (authorities.map KnowledgeAuthority.value)
      .error (.valueError s!"authority must be one of: {allowed}")

def maxKnowledgeSopVersionLength : ℕ := 200

/-- The arguments of `set_knowledge_document_authority`. -/
structure AuthorityRequest where
  documentId : ℕ
  authority : String
  actor : String
  scope : ScopeArgument := .allClients
  sopVersion : Option String := none
  supersededBy : Option ℤ := none

/-- `superseded_by` must name another document of the same client. -/
def requireSuperseding (s : KnowledgeStore) (row : KnowledgeDocument) :
    Option ℕ → Except KnowledgeError Unit
  | none => .ok ()
  | some supersededBy => do
      raiseIf (supersededBy = row.id) (.valueError "superseded_by must point to another document")
      raiseIf (¬ ∃ d ∈ s.documents.table.rows, d.id = supersededBy ∧ d.clientId = row.clientId)
        (.valueError "superseded_by document is not in the same client scope")

/-- `update knowledge_documents set authority = ?, …`: only an approved document keeps who approved
it, when, and what supersedes it. -/
def KnowledgeAuthority.assign (authority : KnowledgeAuthority) (actor now : String)
    (sopVersion : Option String) (supersededBy : Option ℕ) (row : KnowledgeDocument) :
    KnowledgeDocument :=
  { row with
    authority := authority
    sopVersion := if authority.isApproved then sopVersion else none
    approvedBy := if authority.isApproved then some actor else none
    approvedAt := if authority.isApproved then some now else none
    supersededBy := if authority.isApproved then supersededBy else none }

theorem KnowledgeAuthority.assign_id (authority : KnowledgeAuthority) (actor now : String)
    (sopVersion : Option String) (supersededBy : Option ℕ) (row : KnowledgeDocument) :
    (authority.assign actor now sopVersion supersededBy row).id = row.id := rfl

def setKnowledgeDocumentAuthority (s : KnowledgeStore) (request : AuthorityRequest)
    (now : String) : Except KnowledgeError (KnowledgeStore × Option KnowledgeDocument) := do
  let authority ← parseAuthority request.authority
  let actor := Text.strip request.actor
  raiseIf (actor = "") (.valueError "authority change actor must be non-empty")
  let sopVersion := Text.stripOrNone request.sopVersion
  raiseIf (maxKnowledgeSopVersionLength < (sopVersion.getD "").length) (.valueError
    s!"sop_version must contain at most {maxKnowledgeSopVersionLength} characters")
  raiseIf (∃ id ∈ request.supersededBy, id ≤ 0)
    (.valueError "superseded_by must be a positive document id")
  let supersededBy := request.supersededBy.map Int.toNat
  let admits ← request.scope.admits.mapError .valueError
  match (s.documents.find? request.documentId).filter fun d => admits d.clientId with
  | none => return (s, none)
  | some row => do
      requireSuperseding s row supersededBy
      let set := authority.assign actor now sopVersion supersededBy
      return ({ s with
        documents := s.documents.update (fun d => d.id == row.id) set
          (authority.assign_id actor now sopVersion supersededBy) }, some (set row))

/-! ## Ingestion -/

abbrev Path := List String

def Path.text (path : Path) : String := "/" ++ "/".intercalate path

/-- `path.suffix`: from the last dot of the name, which is neither its first character nor its
last. -/
def Path.suffix (path : Path) : String :=
  let name := (path.getLast?.getD "").toList
  let extension := name.rtakeWhile (· ≠ '.')
  if extension = [] ∨ name.length ≤ extension.length + 1 then ""
  else String.ofList ('.' :: extension)

structure ExtractedDocument where
  path : Path
  title : String
  kind : String
  text : String
  checksum : String
  modifiedAt : String

/-- The file system as a call finds it, and the parser of the service. -/
structure DocumentSource where
  allowedRoot : Path
  resolve : Path → Path
  isFile : Path → Bool
  isDir : Path → Bool
  rglob : Path → List Path
  supportedSuffixes : List String
  extract : Path → Except KnowledgeError ExtractedDocument

def maxChunkChars : ℕ+ := 900

/-- `while len(current) > max_chars`, with what it leaves of `current`. -/
def splitLong (maxChars : ℕ+) (chunks : List (List Char)) (current : List Char) :
    List (List Char) × List Char :=
  if h : maxChars < current.length then
    have : (Text.trimEnds Text.isSpace (current.drop maxChars)).length < current.length := by
      have hle : (Text.trimEnds Text.isSpace (current.drop maxChars)).length ≤
          (current.drop maxChars).length :=
        (List.rdropWhile_prefix ..).length_le.trans (List.dropWhile_suffix ..).length_le
      have hpos : 0 < (maxChars : ℕ) := maxChars.pos
      rw [List.length_drop] at hle
      omega
    splitLong maxChars (chunks ++ [Text.trimEnds Text.isSpace (current.take maxChars)])
      (Text.trimEnds Text.isSpace (current.drop maxChars))
  else (chunks, current)
termination_by current.length

def addParagraph (maxChars : ℕ+) :
    List (List Char) × List Char → List Char → List (List Char) × List Char
  | (chunks, current), paragraph =>
      let normalized := [' '].intercalate (Text.words paragraph)
      if current = [] then splitLong maxChars chunks normalized
      else if current.length + 2 + normalized.length ≤ maxChars then
        splitLong maxChars chunks (current ++ [Char.ofNat 10, Char.ofNat 10] ++ normalized)
      else splitLong maxChars (chunks ++ [current]) normalized

def chunkText (text : String) (maxChars : ℕ+ := maxChunkChars) : List String :=
  let paragraphs := ((Text.blocks (Char.ofNat 10) text.toList).map
    (Text.trimEnds Text.isSpace)).filter fun paragraph => !paragraph.isEmpty
  let (chunks, current) := paragraphs.foldl (addParagraph maxChars) ([], [])
  (if current = [] then chunks else chunks ++ [current]).map String.ofList

namespace DocumentSource

def validateAllowedPath (source : DocumentSource) (target : Path) : Except KnowledgeError Unit :=
  raiseIf (¬ source.allowedRoot <+: target) (.valueError
    s!"{target.text} is outside allowed document root {source.allowedRoot.text}")

def supports (source : DocumentSource) (path : Path) : Bool :=
  source.supportedSuffixes.contains (Text.lower path.suffix)

def documentFiles (source : DocumentSource) (target : Path) :
    Except KnowledgeError (List Path) := do
  if source.isFile target then
    raiseIf (¬ source.supports target)
      (.valueError s!"{target.text} is not a supported document type")
    return [target]
  else do
    raiseIf (¬ source.isDir target) (.valueError s!"{target.text} does not exist")
    ((source.rglob target).mergeSort.filter fun candidate =>
      source.isFile candidate && source.supports candidate).mapM fun candidate => do
        source.validateAllowedPath (source.resolve candidate)
        return candidate

def prepareDocument (source : DocumentSource) (path : Path) :
    Except KnowledgeError KnowledgeDocumentWrite := do
  source.validateAllowedPath (source.resolve path)
  let extracted ← source.extract path
  let chunks := chunkText extracted.text
  raiseIf (chunks = []) (.valueError s!"{path.text} does not contain extractable text")
  return {
    path := extracted.path.text, title := extracted.title, kind := extracted.kind
    checksum := extracted.checksum, modifiedAt := extracted.modifiedAt, chunks := chunks }

def pendingDocuments (source : DocumentSource) (path : Path) :
    Except KnowledgeError (List KnowledgeDocumentWrite) := do
  let target := source.resolve path
  source.validateAllowedPath target
  let files ← source.documentFiles target
  files.mapM source.prepareDocument

end DocumentSource

/-! ## The vector index -/

/-- The payload of a point. -/
structure Payload where
  chunkId : ℕ
  documentId : ℕ
  title : String
  path : String
  clientId : String
  chunkIndex : ℕ
  text : String
  excerpt : String
  deriving DecidableEq

/-- The payload that `upsert_document_chunks` gives the point of a chunk. -/
def KnowledgeChunk.payload (chunk : KnowledgeChunk) : Payload where
  chunkId := chunk.id
  documentId := chunk.documentId
  title := chunk.title
  path := chunk.path
  clientId := chunk.clientId.getD ""
  chunkIndex := chunk.chunkIndex
  text := chunk.text
  excerpt := chunk.excerpt

def Payload.chunk (payload : Payload) : KnowledgeChunk where
  id := payload.chunkId
  documentId := payload.documentId
  title := payload.title
  path := payload.path
  chunkIndex := payload.chunkIndex
  text := payload.text
  excerpt := payload.excerpt
  clientId := if payload.clientId = "" then none else some payload.clientId

/-- The points of the collection by their ids. -/
abbrev VectorIndex := String → Option Payload

/-- `QdrantKnowledgeSearch.upsert_document_chunks`: `upsert` replaces the points of the same id. -/
def upsertDocumentChunks (pointId : ℕ → String) :
    List KnowledgeChunk → VectorIndex → VectorIndex
  | [], index => index
  | chunk :: chunks, index =>
      upsertDocumentChunks pointId chunks
        (Function.update index (pointId chunk.id) (some chunk.payload))

def maxSearchLimit : ℤ := 25

def boundedSearchLimit (limit : ℤ) : ℕ := (min (max limit 1) maxSearchLimit).toNat

def requestedClientIds : Option ScopeArgument → Except KnowledgeError (Option (List String))
  | some .allClients => .ok none
  | some (.boundClients clientIds) => .ok (some clientIds)
  | some (.text clientId) =>
      if Text.strip clientId = "" then .error (.valueError "client_id must be non-empty")
      else .ok (some [Text.strip clientId])
  | none => .error (.valueError "client_id must be non-empty")

/-- `QdrantKnowledgeSearch.search`, for the hits that the collection gives for a query and a
limit. -/
def search (hits : String → ℕ → List Payload) (query : String) (limit : ℤ)
    (scope : Option ScopeArgument) : Except KnowledgeError (List KnowledgeChunk) :=
  let bounded := boundedSearchLimit limit
  if Text.strip query = "" then .ok []
  else do
    let requested ← requestedClientIds scope
    let wanted := if requested.any fun ids => !ids.isEmpty then bounded * 4 else bounded
    let chunks := (hits query wanted).map Payload.chunk
    let admitted := match requested with
      | none => chunks
      | some ids => chunks.filter fun chunk => ids.contains (chunk.clientId.getD "")
    return admitted.take bounded

/-! ## Calls -/

/-- The store and the index beside it. -/
structure KnowledgeState where
  store : KnowledgeStore
  index : VectorIndex

/-- The service with the index, the ids of its points, and how many documents of a call reach the
index before it raises, if it does. -/
structure IngestRequest where
  source : DocumentSource
  path : Path
  clientId : Option String
  indexed : ℕ

/-- `KnowledgeIngestionService.ingest_path`; a call that raises while it indexes has written the
store. -/
def ingestPath (pointId : ℕ → String) (k : KnowledgeState) (request : IngestRequest)
    (now : String) :
    Except KnowledgeError KnowledgeState := do
  let pending ← request.source.pendingDocuments request.path
  let (store, documentIds) := upsertKnowledgeDocuments k.store pending request.clientId now
  return {
    store
    index := (documentIds.take request.indexed).foldl (fun index documentId =>
      upsertDocumentChunks pointId (listKnowledgeChunksForDocument store documentId) index)
      k.index }

inductive KnowledgeStep where
  | ingest (request : IngestRequest) (now : String)
  | setAuthority (request : AuthorityRequest) (now : String)

def KnowledgeState.step (pointId : ℕ → String) (k : KnowledgeState) : KnowledgeStep → KnowledgeState
  | .ingest request now => committed k (ingestPath pointId k request now)
  | .setAuthority request now =>
      { k with
        store := committed k.store ((setKnowledgeDocumentAuthority k.store request now).map
          Prod.fst) }

/-- Any sequence of calls, from an empty store and an empty collection. -/
def knowledge (pointId : ℕ → String) : Machine KnowledgeState KnowledgeStep where
  init := ⟨.empty, fun _ => none⟩
  step := KnowledgeState.step pointId

end WaitLocalAgent.Knowledge
