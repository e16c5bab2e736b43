import WaitLocalAgent.Foundation.Fallible
import WaitLocalAgent.Foundation.Machine
import WaitLocalAgent.Foundation.Sorted
import WaitLocalAgent.Foundation.Table
import WaitLocalAgent.Model.ClientScope

/-! # Canonical assets

The assets that collectors write, each under its client or under none, and the evidence that refers
to them. -/

namespace WaitLocalAgent.Assets

open Foundation

structure CanonicalAsset where
  id : ℕ
  canonicalId : String
  assetType : String
  displayName : String
  clientId : Option ClientId
  owner : String
  sourceModule : String
  sourceId : String
  confidence : ℚ
  firstSeen : String
  lastSeen : String
  attributesJson : String
  deriving DecidableEq

/-- The arguments of `upsert_canonical_asset`, over the attributes of an asset. -/
structure AssetWrite (δ : Type) where
  canonicalId : String
  assetType : String
  displayName : String
  attributes : δ
  clientId : Option String := none
  owner : String := ""
  sourceModule : String := ""
  sourceId : String := ""
  confidence : ℚ := 1

inductive EvidenceKind where
  | observation
  | configSnapshot
  | configDiff
  | restoreExercise
  deriving DecidableEq, Repr

/-- The columns of an evidence row that say what it is about. -/
structure Evidence where
  kind : EvidenceKind
  runId : ℕ
  assetId : Option ℕ
  deriving DecidableEq

/-- Evidence of a collector, by the canonical id that it names. -/
structure EvidenceWrite where
  kind : EvidenceKind
  canonicalId : Option String

/-- `CollectorResult`: its evidence is listed in the order in which it is written. -/
structure CollectorResult (δ : Type) where
  assets : List (AssetWrite δ)
  evidence : List EvidenceWrite

inductive AssetError where
  | keyError (message : String)
  | runtimeError (message : String)
  deriving DecidableEq, Repr

structure Store where
  assets : AutoTable CanonicalAsset.id
  evidence : List Evidence

variable {δ : Type}

/-- `select * from canonical_assets where … order by id limit 1`. -/
def firstAsset (assets : AutoTable CanonicalAsset.id) (p : CanonicalAsset → Bool) :
    Option CanonicalAsset :=
  ((assets.table.rows.filter p).insertionSort fun a b => a.id ≤ b.id).head?

def getCanonicalAssetByCanonicalId (s : Store) (canonicalId : String) (clientId : Option String) :
    Option CanonicalAsset :=
  match clientId with
  | none => firstAsset s.assets fun row => row.canonicalId == canonicalId
  | some clientId => firstAsset s.assets fun row =>
      row.clientId.map Subtype.val == some clientId && row.canonicalId == canonicalId

/-- The columns that a write assigns to the row of its asset. -/
def CanonicalAsset.refresh (dumps : δ → String) (write : AssetWrite δ) (now : String)
    (row : CanonicalAsset) : CanonicalAsset :=
  { row with
    assetType := write.assetType
    displayName := write.displayName
    owner := write.owner
    sourceModule := write.sourceModule
    sourceId := write.sourceId
    confidence := write.confidence
    lastSeen := now
    attributesJson := dumps write.attributes }

theorem CanonicalAsset.refresh_id (dumps : δ → String) (write : AssetWrite δ) (now : String)
    (row : CanonicalAsset) : (row.refresh dumps write now).id = row.id := rfl

def newAsset (dumps : δ → String) (write : AssetWrite δ) (clientId : Option ClientId)
    (now : String) (id : ℕ) : CanonicalAsset where
  id := id
  canonicalId := write.canonicalId
  assetType := write.assetType
  displayName := write.displayName
  clientId := clientId
  owner := write.owner
  sourceModule := write.sourceModule
  sourceId := write.sourceId
  confidence := write.confidence
  firstSeen := now
  lastSeen := now
  attributesJson := dumps write.attributes

theorem newAsset_id (dumps : δ → String) (write : AssetWrite δ) (clientId : Option ClientId)
    (now : String) (id : ℕ) : (newAsset dumps write clientId now id).id = id := rfl

def insertAsset (dumps : δ → String) (assets : AutoTable CanonicalAsset.id) (write : AssetWrite δ)
    (clientId : Option ClientId) (now : String) : AutoTable CanonicalAsset.id :=
  assets.insert (newAsset dumps write clientId now) (newAsset_id dumps write clientId now)

/-- `update canonical_assets set … where …`; both updates leave `client_id` as it is. -/
def refreshAssets (dumps : δ → String) (assets : AutoTable CanonicalAsset.id)
    (write : AssetWrite δ) (now : String) (p : CanonicalAsset → Bool) :
    AutoTable CanonicalAsset.id :=
  assets.update p (CanonicalAsset.refresh dumps write now)
    (CanonicalAsset.refresh_id dumps write now)

/-- The row that a write finds: under its client the row of its key, and without a client the first
row of its canonical id, whoever owns it. -/
def findAsset (assets : AutoTable CanonicalAsset.id) (canonicalId : String) :
    Option ClientId → Option CanonicalAsset
  | none => firstAsset assets fun row => row.canonicalId == canonicalId
  | some c => firstAsset assets fun row =>
      row.clientId == some c && row.canonicalId == canonicalId

def upsertRow (dumps : δ → String) (assets : AutoTable CanonicalAsset.id) (write : AssetWrite δ)
    (now : String) : AutoTable CanonicalAsset.id :=
  let clientId := normalizeClientId write.clientId
  match findAsset assets write.canonicalId clientId with
  | none => insertAsset dumps assets write clientId now
  | some row => refreshAssets dumps assets write now fun r => r.id == row.id

def upsertCanonicalAsset (dumps : δ → String) (s : Store) (write : AssetWrite δ) (now : String) :
    Except AssetError (CanonicalAsset × Store) :=
  let assets := upsertRow dumps s.assets write now
  match findAsset assets write.canonicalId (normalizeClientId write.clientId) with
  | none => .error (.runtimeError "canonical asset upsert did not return an id")
  | some row => .ok (row, { s with assets })

def orText (a b : Option String) : Option String :=
  match a with
  | none => b
  | some "" => b
  | some a => some a

def AssetWrite.within (moduleId : String) (clientId : Option String) (write : AssetWrite δ) :
    AssetWrite δ :=
  { write with
    clientId := orText write.clientId clientId
    sourceModule := if write.sourceModule = "" then moduleId else write.sourceModule }

/-- The assets of a result that have been written, by their canonical ids. -/
abbrev Written := AList fun _ : String => CanonicalAsset

/-- The loop over the assets of a result. Each of them is committed on its own. -/
def upsertAssets (dumps : δ → String) (now : String) (s : Store) (written : Written) :
    List (AssetWrite δ) → Except AssetError Written × Store
  | [] => (.ok written, s)
  | write :: writes =>
      match upsertCanonicalAsset dumps s write now with
      | .error e => (.error e, s)
      | .ok (asset, s) => upsertAssets dumps now s (written.insert asset.canonicalId asset) writes

def requireAsset (canonicalId : String) : Option CanonicalAsset → Except AssetError (Option ℕ)
  | some asset => .ok (some asset.id)
  | none => .error (.keyError s!"asset {canonicalId} not found")

/-- `_asset_id_for_canonical_id`; an observation looks at the assets of its result first, and always
needs one. -/
def assetIdOf (s : Store) (written : Written) (clientId : Option String) (write : EvidenceWrite) :
    Except AssetError (Option ℕ) :=
  let canonicalId := write.canonicalId.getD ""
  if write.kind = .observation then
    requireAsset canonicalId ((written.lookup canonicalId).or
      (getCanonicalAssetByCanonicalId s canonicalId clientId))
  else if canonicalId = "" then .ok none
  else requireAsset canonicalId (getCanonicalAssetByCanonicalId s canonicalId clientId)

/-- The loops over the evidence of a result, each row of which is committed on its own. -/
def addEvidence (runId : ℕ) (clientId : Option String) (written : Written) (s : Store) :
    List EvidenceWrite → Except AssetError Unit × Store
  | [] => (.ok (), s)
  | write :: writes =>
      match assetIdOf s written clientId write with
      | .error e => (.error e, s)
      | .ok assetId => addEvidence runId clientId written
          { s with evidence := s.evidence ++ [{ kind := write.kind, runId, assetId }] } writes

/-- `Store.persist_collector_result`, up to the operational graph. -/
def persistCollectorResult (dumps : δ → String) (s : Store) (runId : ℕ) (moduleId : String)
    (result : CollectorResult δ) (clientId : Option String) (now : String) :
    Except AssetError Unit × Store :=
  match upsertAssets dumps now s ∅ (result.assets.map (AssetWrite.within moduleId clientId)) with
  | (.error e, s) => (.error e, s)
  | (.ok written, s) => addEvidence runId clientId written s result.evidence

inductive AssetCall (δ : Type) where
  | upsert (write : AssetWrite δ) (now : String)
  | persist (runId : ℕ) (moduleId : String) (result : CollectorResult δ)
      (clientId : Option String) (now : String)

def AssetCall.clientId : AssetCall δ → Option ClientId
  | .upsert write _ => normalizeClientId write.clientId
  | .persist _ _ _ clientId _ => normalizeClientId clientId

def Store.step (dumps : δ → String) (s : Store) : AssetCall δ → Store
  | .upsert write now => committed s ((upsertCanonicalAsset dumps s write now).map Prod.snd)
  | .persist runId moduleId result clientId now =>
      (persistCollectorResult dumps s runId moduleId result clientId now).2

def warehouse (dumps : δ → String) : Machine Store (AssetCall δ) where
  init := ⟨.empty, []⟩
  step := Store.step dumps

end WaitLocalAgent.Assets
