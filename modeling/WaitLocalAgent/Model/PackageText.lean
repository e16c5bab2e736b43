import WaitLocalAgent.Foundation.Fallible
import WaitLocalAgent.Foundation.JsonText

/-! # Text checks of Power Platform packages

The validators that the builder and the validator of a package share. -/

namespace WaitLocalAgent.PowerPlatform

open Foundation

def maxPackageFiles : ℕ := 96

def maxPackageFileBytes : ℕ := 64000

def maxPackageBytes : ℕ := 512000

def maxInputArtifacts : ℕ := 32

def maxFlowActions : ℕ := 32

def maxInputArtifactBytes : ℕ := 256000

def maxPathLength : ℕ := 240

def maxTextLength : ℕ := 240

def defaultStringMaxLength : ℤ := 100

def maxStringMaxLength : ℤ := 4000

inductive PackageError where
  /-- `PowerPlatformPackageError`. -/
  | package (message : String)
  | typeError
  deriving DecidableEq, Repr

/-- Library functions that the package leans on: `str` of a value that is no text, `str.casefold`,
`uuid5` in the package's name space, the hexadecimal SHA-256 digest of bytes, the parts of a
Windows path, the path of the archive and the `repr` of the float that a text stands for. -/
structure Library where
  str : JsonValue → String
  casefold : String → String
  uuid5 : String → String
  sha256 : ByteArray → String
  windowsParts : String → List String
  zipPath : String → String → String
  floatRepr : String → String

def Library.strOf (lib : Library) : JsonValue → String
  | .text s => s
  | v => lib.str v

def Library.componentId (lib : Library) (tenant name : String) : String :=
  lib.uuid5 s!"{tenant}:{name}"

def Library.digest (lib : Library) (bytes : ByteArray) : String := s!"sha256:{lib.sha256 bytes}"

def isControl (c : Char) : Bool :=
  c.toNat ≤ 8 || c.toNat == 11 || c.toNat == 12 || (14 ≤ c.toNat && c.toNat ≤ 31) || c.toNat == 127

def hasControl (s : String) : Bool := s.toList.any isControl

/-- A lower-case character of a pattern under `re.IGNORECASE`. -/
def sameLetter (p c : Char) : Bool :=
  c == p || c.toLower == p || (p == 'i' && (c == 'ı' || c == 'İ')) || (p == 's' && c == 'ſ') ||
    (p == 'k' && c == '\u212a')

def stripWord : List Char → List Char → Option (List Char)
  | [], cs => some cs
  | _ :: _, [] => none
  | p :: ps, c :: cs => if sameLetter p c then stripWord ps cs else none

def sourceWords : List String :=
  ["password", "passwd", "secret", "credential", "apikey", "api_key", "api-key", "accesskey",
    "access_key", "access-key", "privatekey", "private_key", "private-key", "clientsecret",
    "client_secret", "client-secret", "authorization", "token"]

def secretKey (key : String) : Bool :=
  key.toList.tails.any fun cs =>
    ("bearer" :: sourceWords).any fun word => (stripWord word.toList cs).isSome

def startsBearer (cs : List Char) : Bool :=
  match stripWord "bearer".toList cs with
  | some (c :: _) => Text.isSpace c
  | _ => false

def isBlockLetter (c : Char) : Bool :=
  c == ' ' || c.isAlpha || c == 'ı' || c == 'İ' || c == 'ſ' || c == '\u212a'

/-- `-----BEGIN [A-Z ]+-----`. -/
def startsBlock (cs : List Char) : Bool :=
  match stripWord "-----begin ".toList cs with
  | some rest =>
      !(rest.takeWhile isBlockLetter).isEmpty &&
        "-----".toList.isPrefixOf (rest.dropWhile isBlockLetter)
  | none => false

/-- `(?:api[_-]?key|client[_-]?secret)\s*=`. -/
def startsKey (cs : List Char) : Bool :=
  ["apikey", "api_key", "api-key", "clientsecret", "client_secret", "client-secret"].any
    fun word =>
      match stripWord word.toList cs with
      | some rest => (rest.dropWhile Text.isSpace).head? == some '='
      | none => false

def secretText (s : String) : Bool :=
  s.toList.tails.any fun cs => startsBearer cs || startsBlock cs || startsKey cs

def dropQuote : List Char → List Char
  | c :: cs => if c = '"' || c = '\'' then cs else c :: cs
  | [] => []

/-- `["']?(?:false|null|none)["']?\s*$`. -/
def deniesSecret (cs : List Char) : Bool :=
  ["false", "null", "none"].any fun word =>
    match stripWord word.toList (dropQuote cs) with
    | some rest =>
        ((dropQuote rest).takeWhile Text.isSpace).contains '\n' ||
          ((dropQuote rest).dropWhile Text.isSpace).isEmpty
    | none => false

/-- `\s*(?!["']?(?:false|null|none)["']?\s*$).+`. -/
def valueFollows : List Char → Bool
  | [] => false
  | c :: cs => (c != '\n' && !deniesSecret (c :: cs)) || (Text.isSpace c && valueFollows cs)

/-- A word of `_SECRET_SOURCE`, a colon and a value. -/
def assignsSecret (cs : List Char) : Bool :=
  sourceWords.any fun word =>
    match stripWord word.toList cs with
    | some rest =>
        match rest.dropWhile Text.isSpace with
        | c :: cs => c == ':' && valueFollows cs
        | [] => false
    | none => false

/-- The rests of a text after its line breaks. -/
def afterBreaks : List Char → List (List Char)
  | [] => []
  | c :: cs => if c = '\n' then cs :: afterBreaks cs else afterBreaks cs

def secretSource (cs : List Char) : Bool :=
  (cs :: afterBreaks cs).any fun line => assignsSecret (line.dropWhile Text.isSpace)

def text (value : JsonValue) (field : String) (maximum : ℕ) : Except PackageError String :=
  match value with
  | .text s =>
      if Text.strip s = "" ∨ maximum < (Text.strip s).length ∨
          s.toList.any (fun c => c.toNat < 32 || c.toNat == 127) then
        .error (.package s!"{field} must be non-empty text of at most {maximum} characters")
      else .ok (Text.strip s)
  | _ => .error (.package s!"{field} must be non-empty text of at most {maximum} characters")

def isLowerLetter (c : Char) : Bool := 'a' ≤ c && c ≤ 'z'

def isIdentifierChar (c : Char) : Bool := isLowerLetter c || c.isDigit || c == '_'

def isIdentifier (s : String) : Bool :=
  match s.toList with
  | c :: cs => isLowerLetter c && decide (cs.length ≤ 63) && cs.all isIdentifierChar
  | [] => false

def identifier (lib : Library) (value : JsonValue) (field : String) :
    Except PackageError String := do
  let normalized := lib.casefold (← text value field 64)
  if isIdentifier normalized then .ok normalized
  else .error (.package s!"{field} must be a lowercase identifier")

def publisherName (value : JsonValue) : Except PackageError String := do
  let publisher ← text value "publisher_name" 100
  if publisher.toList.all fun c => c.isAlphanum || c == '_' then .ok publisher
  else
    .error (.package "publisher_name may contain only letters, numbers, and underscores")

def publisherPrefix (value : JsonValue) : Except PackageError String := do
  let pre ← text value "publisher_prefix" 8
  match pre.toList with
  | c :: cs =>
      if c.isAlpha && decide (1 ≤ cs.length ∧ cs.length ≤ 7) && cs.all Char.isAlphanum then
        .ok pre
      else
        .error (.package
          "publisher_prefix must be 2-8 alphanumeric characters and start with a letter")
  | [] =>
      .error (.package
        "publisher_prefix must be 2-8 alphanumeric characters and start with a letter")

/-- `_publisher_identifier`: the runs of letters and digits, joined by underscores. -/
def publisherIdentifier (lib : Library) (value : String) : Except PackageError String :=
  let runs := ((lib.casefold value).toList.splitOnP fun c => !(isLowerLetter c || c.isDigit)).filter
    fun run => !run.isEmpty
  let normalized := String.ofList (List.intercalate ['_'] runs)
  identifier lib (.text (if normalized = "" then "waitpublisher" else normalized))
    "publisher_unique_name"

def posixParts (s : String) : List String :=
  let parts := ((s.toList.splitOn '/').filter fun part => part != [] && part != ['.']).map
    String.ofList
  match s.toList with
  | '/' :: '/' :: '/' :: _ => "/" :: parts
  | '/' :: '/' :: _ => "//" :: parts
  | '/' :: _ => "/" :: parts
  | _ => parts

def safeOutputDirectory (lib : Library) (value : JsonValue) : Except PackageError String := do
  let path ← text value "output_directory" maxPathLength
  raiseIf ((posixParts path ++ lib.windowsParts path).contains "..")
    (.package "output_directory may not contain traversal")
  return path

def safeRelativePath (value : JsonValue) (field : String) : Except PackageError String := do
  let path ← text value field maxPathLength
  raiseIf (path.toList.head? = some '/' ∨ '\\' ∈ path.toList ∨
      (posixParts path).any fun part => ["", ".", ".."].contains part)
    (.package s!"{field} must be a safe relative path")
  return String.intercalate "/" (posixParts path)

/-- `value in (None, "", False, [], {})`; zero equals `False`. -/
def isVoid : JsonValue → Bool
  | .null => true
  | .bool b => !b
  | .int n => n == 0
  | .float repr => repr == "0.0" || repr == "-0.0"
  | .text s => s == ""
  | .array items => items.isEmpty
  | .object fields => fields.isEmpty

/-- A `client_id` or `tenant_id` other than the package's. -/
def foreignTenant (tenant : String) : JsonValue → Bool
  | .null => false
  | .text s => s != tenant
  | _ => true

def checkField (lib : Library) (tenant field key : String) (value : JsonValue) :
    Except PackageError Unit := do
  raiseIf (key = "" ∨ hasControl key) (.package s!"{field} contains an unsafe key")
  raiseIf (["client_id", "tenant_id"].contains (lib.casefold key) ∧ foreignTenant tenant value)
    (.package "artifact is outside the requested tenant")

/-- `credentials_included`, whose value is not looked at. -/
def isCredentialsFlag (lib : Library) (key : String) : JsonValue → Bool
  | .bool _ => secretKey key && lib.casefold key == "credentials_included"
  | _ => false

/-- `_validate_value`, of a value that is neither a list nor an object. -/
def validateScalar (field : String) : JsonValue → Except PackageError Unit
  | .text s => do
      raiseIf (hasControl s ∨ maxTextLength * 16 < s.length)
        (.package s!"{field} contains unsafe or oversized text")
      raiseIf (secretText s) (.package s!"{field} contains secret-like material")
  | .float repr =>
      raiseIf (["nan", "inf", "-inf"].contains repr)
        (.package s!"{field} contains a non-finite number")
  | _ => .ok ()

mutual

def validateValue (lib : Library) (tenant field : String) :
    JsonValue → Except PackageError JsonValue
  | .object fields => do
      return .object (← validateFields lib tenant field fields)
  | .array items => do
      raiseIf (maxPackageFiles * 8 < items.length) (.package s!"{field} contains too many items")
      return .array (← validateItems lib tenant s!"{field}[]" items)
  | value => do
      validateScalar field value
      return value

def validateItems (lib : Library) (tenant field : String) :
    List JsonValue → Except PackageError (List JsonValue)
  | [] => .ok []
  | item :: items => do
      let item ← validateValue lib tenant field item
      return item :: (← validateItems lib tenant field items)

def validateFields (lib : Library) (tenant field : String) :
    List (String × JsonValue) → Except PackageError (List (String × JsonValue))
  | [] => .ok []
  | (key, value) :: fields => do
      checkField lib tenant field key value
      if isCredentialsFlag lib key value then
        return (key, value) :: (← validateFields lib tenant field fields)
      else
        raiseIf (secretKey key ∧ ¬ isVoid value)
          (.package s!"{field}.{key} contains secret-like material")
        let value ← validateValue lib tenant s!"{field}.{key}" value
        return (key, value) :: (← validateFields lib tenant field fields)

end

/-- `_canonical_json_bytes`, which are ASCII characters. -/
def canonicalJson (value : JsonValue) : Except PackageError String :=
  if value.finite then .ok (.ofList (value.sortKeys.write ⟨[','], [':']⟩))
  else .error (.package "package values must be JSON-compatible")

mutual

def containsSecretLikeValue : JsonValue → Bool
  | .object fields => containsSecretLikeField fields
  | .array items => containsSecretLikeItem items
  | _ => false

def containsSecretLikeItem : List JsonValue → Bool
  | [] => false
  | item :: items => containsSecretLikeValue item || containsSecretLikeItem items

def containsSecretLikeField : List (String × JsonValue) → Bool
  | [] => false
  | (key, item) :: fields =>
      (secretKey key && !isVoid item) || containsSecretLikeValue item ||
        containsSecretLikeField fields

end

def containsSecretLikeSource (lib : Library) (content : String) : Bool :=
  secretSource content.toList ||
    (JsonValue.loads? lib.floatRepr content).any containsSecretLikeValue

end WaitLocalAgent.PowerPlatform
