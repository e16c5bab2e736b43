import WaitLocalAgent.Model.Redaction

/-! # Agent platform storage

The checks and JSON texts that the extensions of the agent platform share. -/

namespace WaitLocalAgent.AgentPlatform

open Foundation JsonValue Redaction

inductive PlatformError where
  | invalid (message : String)
  | notFound (message : String)
  | conflict (message : String)
  | permission (message : String)
  /-- `sqlite3.IntegrityError`. -/
  | integrity
  | typeError
  deriving DecidableEq, Repr

/-- Library functions, `str` of a value that is no text and `datetime.fromisoformat` with a result
in UTC among them, and the clients that there are. -/
structure Library where
  words : WordClass
  floats : FloatRepr
  str : JsonValue → String
  sha256 : ByteArray → String
  casefold : String → String
  fromIso : String → Option String
  hasClient : String → Bool

def Library.strOf (lib : Library) : JsonValue → String
  | .text s => s
  | v => lib.str v

def raise {α : Type} (message : String) : Except PlatformError α := .error (.invalid message)

def isIdentifierStart (c : Char) : Bool := c.isAlphanum

def isIdentifierChar (c : Char) : Bool :=
  c.isAlphanum || c == '.' || c == '_' || c == ':' || c == '-'

/-- `_ID_RE`, which `_KEY_RE` repeats. -/
def isIdentifier (s : String) : Bool :=
  match s.toList with
  | c :: cs => isIdentifierStart c && decide (cs.length ≤ 127) && cs.all isIdentifierChar
  | [] => false

/-- `validate_identifier`, and `validate_key`, which does not name the limit apart. -/
def validateIdentifier (value label : String) : Except PlatformError String := do
  raiseIf (¬ isIdentifier (Text.strip value)) (.invalid
    s!"{label} must be 1-128 characters using letters, numbers, '.', '_', ':', or '-'")
  return Text.strip value

def validateKey (value label : String) : Except PlatformError String :=
  validateIdentifier value label

def validateText (value label : String) (minimum maximum : ℕ) (strip : Bool) :
    Except PlatformError String := do
  let normalized := if strip then Text.strip value else value
  raiseIf (normalized.length < minimum ∨ maximum < normalized.length)
    (.invalid s!"{label} must contain {minimum}-{maximum} characters")
  raiseIf (normalized.toList.any fun c =>
      c.toNat < 32 && c != '\n' && c != '\r' && c != '\t')
    (.invalid s!"{label} contains unsupported control characters")
  return normalized

def actorIdentifier (value : Option String) : String :=
  match Text.stripOrNone value with
  | some actor => String.ofList (actor.toList.take 128)
  | none => "api"

def parseIsoTimestamp (lib : Library) (value : Option String) (label : String) :
    Except PlatformError (Option String) :=
  match Text.stripOrNone value with
  | none => .ok none
  | some raw =>
      match lib.fromIso raw with
      | some timestamp => .ok (some timestamp)
      | none => raise s!"{label} must be an ISO-8601 timestamp"

def requireClient (lib : Library) (clientId : String) : Except PlatformError String := do
  let normalized ← validateIdentifier clientId "client_id"
  raiseIf (¬ lib.hasClient normalized) (.notFound "client was not found")
  return normalized

/-- `json_dumps`, of a value that `default=str` does not touch. -/
def jsonDumps (v : JsonValue) : String :=
  .ofList (v.sortKeys.writeAs (Separators.unicode ⟨[','], [':']⟩))

def jsonLoadsObject (lib : Library) (value : String) : List (String × JsonValue) :=
  match loads? lib.floats.repr value with
  | some (.object fields) => fields
  | _ => []

def jsonLoadsList (lib : Library) (value : String) : List JsonValue :=
  match loads? lib.floats.repr value with
  | some (.array items) => items
  | _ => []

def digestJson (lib : Library) (v : JsonValue) : String := lib.sha256 (jsonDumps v).toUTF8

def safeJsonValue (lib : Library) (v : JsonValue) (maxBytes : ℕ) :
    Except PlatformError JsonValue := do
  raiseIf (maxBytes < (jsonDumps v).utf8ByteSize)
    (.invalid s!"value exceeds the {maxBytes}-byte limit")
  match loads? lib.floats.repr (jsonDumps v) with
  | some value => return value
  | none => raise "value must be JSON serializable"

end WaitLocalAgent.AgentPlatform
