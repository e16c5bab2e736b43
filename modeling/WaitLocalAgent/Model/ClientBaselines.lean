import WaitLocalAgent.Foundation.Machine
import WaitLocalAgent.Foundation.Table
import WaitLocalAgent.Model.ClientScope
import WaitLocalAgent.Model.Redaction

/-! # Client baselines

The snapshots of a client that later observations are compared with. One of them is accepted. -/

namespace WaitLocalAgent.Baselines

open Foundation Redaction

/-- A row of `client_baselines`. -/
structure ClientBaseline where
  baselineId : NormalizedText
  clientId : ClientId
  version : ℕ
  generatedAt : String
  accepted : Bool
  sourceCoverageJson : String
  summaryJson : String
  sectionsJson : String
  deriving DecidableEq

inductive BaselineError where
  | valueError (message : String)
  | keyError (clientId : ClientId)
  | integrityError
  | overflowError
  deriving DecidableEq

structure BaselineStore where
  clients : List ClientId
  clientBaselines : Table ClientBaseline.baselineId

/-- The row that `limit 1` leaves of those that match, in an order of SQLite's own. -/
structure LimitOne where
  pick : List ClientBaseline → Option ClientBaseline
  mem : ∀ {rows row}, pick rows = some row → row ∈ rows
  isSome : ∀ {rows}, rows ≠ [] → (pick rows).isSome

def LimitOne.first : LimitOne where
  pick := List.head?
  mem := List.mem_of_mem_head?
  isSome {rows} h := by
    cases rows with
    | nil => exact absurd rfl h
    | cons row rows => rfl

namespace BaselineStore

/-- The rows of a client, in the order in which they were inserted. -/
def rowsOf (s : BaselineStore) (clientId : ClientId) : List ClientBaseline :=
  s.clientBaselines.rows.filter fun row => row.clientId = clientId

def getClientBaseline (limit : LimitOne) (s : BaselineStore) (scope : ScopeArgument)
    (version : ℤ) : Except BaselineError (Option ClientBaseline) :=
  if version < 1 then .ok none
  else do
    let admits ← scope.admits.mapError .valueError
    raiseIf (2 ^ 63 ≤ version) .overflowError
    return limit.pick (s.clientBaselines.rows.filter fun row =>
      row.version = version && admits (some row.clientId))

def getAcceptedClientBaseline (limit : LimitOne) (s : BaselineStore) (scope : ScopeArgument) :
    Except BaselineError (Option ClientBaseline) := do
  let admits ← scope.admits.mapError .valueError
  return limit.pick (s.clientBaselines.rows.filter fun row =>
    row.accepted && admits (some row.clientId))

def listClientBaselines (s : BaselineStore) (scope : ScopeArgument) :
    Except BaselineError (List ClientBaseline) := do
  let admits ← scope.admits.mapError .valueError
  return (s.clientBaselines.rows.filter fun row => admits (some row.clientId)).insertionSort
    fun row other => row.clientId.val < other.clientId.val ∨
      (row.clientId = other.clientId ∧ other.version ≤ row.version)

/-- `insert into client_baselines …`, under its primary key and its two unique indices. -/
def insertRow (s : BaselineStore) (row : ClientBaseline) : Except BaselineError BaselineStore :=
  if (s.rowsOf row.clientId).any fun other =>
      other.version = row.version || (other.accepted && row.accepted) then
    .error .integrityError
  else
    match s.clientBaselines.insert? row with
    | none => .error .integrityError
    | some clientBaselines => .ok { s with clientBaselines }

end BaselineStore

/-- The arguments of `create_client_baseline`, and the id it draws. -/
structure NewBaseline where
  clientId : String
  generatedAt : String
  sourceCoverage : List (String × JsonValue)
  summary : List (String × JsonValue)
  sections : List (String × JsonValue)
  baselineId : Option String
  drawn : NormalizedText

def BaselineStore.createClientBaseline (w : WordClass) (limit : LimitOne) (s : BaselineStore)
    (new : NewBaseline) : Except BaselineError (BaselineStore × Option ClientBaseline) := do
  match normalizeClientId (some new.clientId) with
  | none => .error (.valueError "client_id must be non-empty")
  | some clientId =>
      raiseIf (Text.strip new.generatedAt = "")
        (.valueError "generated_at must be a non-empty ISO timestamp")
      raiseIf (clientId ∉ s.clients) (.keyError clientId)
      let version := ((s.rowsOf clientId).map ClientBaseline.version).foldl max 0 + 1
      let accepted := !(s.rowsOf clientId).any ClientBaseline.accepted
      let s ← s.insertRow
        { baselineId := (normalizeClientId new.baselineId).getD new.drawn
          clientId
          version
          generatedAt := Text.strip new.generatedAt
          accepted
          sourceCoverageJson := jsonDumpsValue w (.object new.sourceCoverage)
          summaryJson := jsonDumpsValue w (.object new.summary)
          sectionsJson := jsonDumpsValue w (.object new.sections) }
      let baseline ← s.getClientBaseline limit (.text clientId.val) version
      return (s, baseline)

/-- `update client_baselines set accepted = …`. -/
def BaselineStore.setAccepted (s : BaselineStore) (p : ClientBaseline → Bool) (accepted : Bool) :
    BaselineStore :=
  { s with clientBaselines :=
      s.clientBaselines.update p (fun row => { row with accepted }) fun _ => rfl }

def BaselineStore.acceptClientBaseline (limit : LimitOne) (s : BaselineStore)
    (scope : ScopeArgument) (version : ℤ) :
    Except BaselineError (BaselineStore × Option ClientBaseline) := do
  let target ← s.getClientBaseline limit scope version
  match target with
  | none => return (s, none)
  | some target =>
      let s := s.setAccepted (fun row => row.clientId = target.clientId) false
      -- the unique index on the accepted rows of a client
      raiseIf (1 < s.clientBaselines.rowcount fun row =>
        row.clientId = target.clientId && row.version = version) .integrityError
      let s := s.setAccepted (fun row => row.clientId = target.clientId && row.version = version)
        true
      let baseline ← s.getClientBaseline limit (.text target.clientId.val) version
      return (s, baseline)

/-- A call, with the order in which SQLite meets the rows. -/
inductive BaselineCall where
  | create (limit : LimitOne) (new : NewBaseline)
  | accept (limit : LimitOne) (scope : ScopeArgument) (version : ℤ)

def BaselineStore.perform (w : WordClass) (s : BaselineStore) :
    BaselineCall → Except BaselineError (BaselineStore × Option ClientBaseline)
  | .create limit new => s.createClientBaseline w limit new
  | .accept limit scope version => s.acceptClientBaseline limit scope version

def baselineMachine (w : WordClass) (clients : List ClientId) :
    Machine BaselineStore BaselineCall where
  init := ⟨clients, .empty⟩
  step s call := committed s ((s.perform w call).map Prod.fst)

end WaitLocalAgent.Baselines
