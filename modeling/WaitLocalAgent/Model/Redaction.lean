import WaitLocalAgent.Foundation.Substitution
import WaitLocalAgent.Model.PackageText
import WaitLocalAgent.Foundation.JsonSort

/-! # Redaction

What is taken out of a value before it is stored or shown. -/

namespace WaitLocalAgent.Redaction

open Foundation PowerPlatform

def redacted : String := "[redacted]"

/-- The words of `_SENSITIVE_TEXT_PATTERN`, in its order. -/
def sensitiveWords : List String :=
  ["secret", "token", "key", "apikey", "api_key", "api-key", "password", "authtoken", "auth_token",
    "auth-token", "bearer", "authorization", "x-api-key", "clientsecret", "client_secret",
    "client-secret", "accesstoken", "access_token", "access-token", "credential", "privatekey",
    "private_key", "private-key"]

def isValue (c : Char) : Bool := !Text.isSpace c && c != ',' && c != ';'

/-- The length of `word\b\s*[:=]\s*`, where a value follows it. -/
def assignment? (w : WordClass) (word : String) (cs : List Char) : Option ℕ :=
  match stripWord word.toList cs with
  | none => none
  | some rest =>
      match rest.dropWhile Text.isSpace with
      | [] => none
      | c :: value =>
          if !rest.head?.any w.isWord && (c == ':' || c == '=') &&
              (value.dropWhile Text.isSpace).head?.any isValue then
            some (cs.length - (value.dropWhile Text.isSpace).length)
          else none

/-- `_SENSITIVE_TEXT_PATTERN`, replaced by its first group and `[redacted]`. -/
def sensitiveText (w : WordClass) : Pattern := fun before cs =>
  if w.boundary before cs then
    (sensitiveWords.findSome? fun word => assignment? w word cs).map fun n =>
      (cs.take n ++ redacted.toList, n + ((cs.drop n).takeWhile isValue).length)
  else none

def isKeyChar (c : Char) : Bool := ('0' ≤ c && c ≤ '9') || ('A' ≤ c && c ≤ 'Z')

/-- `AKIA[0-9A-Z]{16}\b`. -/
def isAccessKey (w : WordClass) (cs : List Char) : Bool :=
  "AKIA".toList.isPrefixOf cs && decide (20 ≤ cs.length) && (cs.take 20).all isKeyChar &&
    !(cs.drop 20).head?.any w.isWord

/-- `_AWS_ACCESS_KEY_PATTERN`, replaced by `[redacted]`. -/
def awsAccessKey (w : WordClass) : Pattern := fun before cs =>
  if w.boundary before cs && isAccessKey w cs then some (redacted.toList, 20) else none

def redactText (w : WordClass) (s : String) : String :=
  .ofList ((awsAccessKey w).sub w false ((sensitiveText w).sub w false s.toList))

def sensitiveKeyTokens : List String :=
  ["key", "token", "secret", "password", "passwd", "credential", "authorization", "bearer",
    "private"]

def isUpper (c : Char) : Bool := 'A' ≤ c && c ≤ 'Z'

/-- `([A-Z]+)([A-Z][a-z])`: a blank stands before the last capital of a run, where a small letter
follows. -/
def splitAcronyms : List Char → List Char
  | c :: d :: e :: cs =>
      if isUpper c && isUpper d && isLowerLetter e then c :: ' ' :: splitAcronyms (d :: e :: cs)
      else c :: splitAcronyms (d :: e :: cs)
  | cs => cs

def splitHumps : List Char → List Char
  | c :: d :: cs =>
      if (isLowerLetter c || c.isDigit) && isUpper d then c :: ' ' :: splitHumps (d :: cs)
      else c :: splitHumps (d :: cs)
  | cs => cs

def normalizedKeyTokens (key : String) : List String :=
  (((splitHumps (splitAcronyms key.toList)).splitOnP fun c => !c.isAlphanum).filter
    fun token => !token.isEmpty).map fun token => .ofList (token.map Char.toLower)

def isSensitiveKey (key : String) : Bool :=
  (normalizedKeyTokens key).any (sensitiveKeyTokens.contains ·) ||
    sensitiveKeyTokens.contains (String.join (normalizedKeyTokens key))

mutual

def redactValue (w : WordClass) : JsonValue → JsonValue
  | .object fields => .object (redactMapping w fields)
  | .array items => .array (redactItems w items)
  | .text s => .text (redactText w s)
  | v => v

def redactItems (w : WordClass) : List JsonValue → List JsonValue
  | [] => []
  | v :: vs => redactValue w v :: redactItems w vs

def redactMapping (w : WordClass) : List (String × JsonValue) → List (String × JsonValue)
  | [] => []
  | (key, v) :: fields =>
      (key, if isSensitiveKey key then .text redacted else redactValue w v) ::
        redactMapping w fields

end

def jsonDumpsValue (w : WordClass) (v : JsonValue) : String :=
  .ofList ((redactValue w v).sortKeys.write ⟨[','], [':']⟩)

def redactJsonText (w : WordClass) (repr : String → String) (payloadJson : String) : String :=
  match JsonValue.loads? repr payloadJson with
  | some payload => jsonDumpsValue w payload
  | none => payloadJson

def jsonObject (repr : String → String) (payloadJson : String) : List (String × JsonValue) :=
  match JsonValue.loads? repr payloadJson with
  | some (.object fields) => fields
  | _ => []

end WaitLocalAgent.Redaction

/-! ## Configurations of connectors

What the configuration of a connector instance may hold. -/

namespace WaitLocalAgent.Redaction

open Foundation

mutual

/-- The objects as dicts, where the last value of a key counts. -/
def asDicts : JsonValue → JsonValue
  | .object fields => .object (dictOf fields)
  | .array items => .array (dictsOf items)
  | v => v

def dictsOf : List JsonValue → List JsonValue
  | [] => []
  | v :: vs => asDicts v :: dictsOf vs

def dictOf : List (String × JsonValue) → List (String × JsonValue)
  | [] => []
  | (key, v) :: fields =>
      match (dictOf fields).find? fun f => f.1 == key with
      | some last => last :: (dictOf fields).filter fun f => f.1 != key
      | none => (key, asDicts v) :: dictOf fields

end

def decode? (repr : String → String) (text : String) : Option JsonValue :=
  (JsonValue.loads? repr text).map asDicts

/-- `str.lower` of a character, as far as it is ASCII: of the other ones `İ` and the Kelvin sign
have an ASCII letter in their lower case. -/
def lowerLetter (c : Char) : List Char :=
  if c = 'İ' then ['i', '\u0307'] else [Text.lowerChar c]

def configKeyTokens (key : String) : List String :=
  ((((splitHumps (splitAcronyms key.toList)).flatMap lowerLetter).splitOnP
    fun c => !c.isAlphanum).filter fun token => !token.isEmpty).map String.ofList

def isSensitiveConfigKey (key : String) : Bool :=
  (configKeyTokens key).any (sensitiveKeyTokens.contains ·)

mutual

def containsSensitiveConfigKey (w : WordClass) : JsonValue → Bool
  | .object fields => anySensitiveField w fields
  | .array items => anySensitiveItem w items
  | .text s => redactText w s != s
  | _ => false

def anySensitiveItem (w : WordClass) : List JsonValue → Bool
  | [] => false
  | v :: vs => containsSensitiveConfigKey w v || anySensitiveItem w vs

def anySensitiveField (w : WordClass) : List (String × JsonValue) → Bool
  | [] => false
  | (key, v) :: fields =>
      isSensitiveConfigKey key || containsSensitiveConfigKey w v || anySensitiveField w fields

end

def validateConnectorConfigJson (w : WordClass) (repr : String → String) (configJson : String) :
    Except String String :=
  match decode? repr configJson with
  | none => .error "config_json must be valid JSON"
  | some payload =>
      match payload with
      | .object fields =>
          if anySensitiveField w fields then
            .error "config_json must not contain credentials or secrets"
          else .ok (.ofList (payload.sortKeys.write ⟨[','], [':']⟩))
      | _ => .error "config_json must contain a JSON object"

end WaitLocalAgent.Redaction
