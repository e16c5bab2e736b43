import WaitLocalAgent.Model.Redaction

/-! # Scrubbed texts of founder bundles

What is taken out of a text before it goes into a founder bundle. -/

namespace WaitLocalAgent.FounderBundle

open Foundation PowerPlatform Redaction

def secretLabels : List String :=
  ["apikey", "api_key", "api-key", "accesskey", "access_key", "access-key", "clientsecret",
    "client_secret", "client-secret", "secret", "token", "password", "passwd", "privatekey",
    "private_key", "private-key"]

def isQuote (c : Char) : Bool := c == '"' || c == '\''

def isSecretChar (c : Char) : Bool :=
  !Text.isSpace c && c != ',' && c != ';' && !isQuote c && c != '\x7d'

/-- `replace_assignment`: as many characters as the third group has go from the end of the match. -/
def replaceAssignment (group : List Char) (length : ℕ) : List Char :=
  group.take (group.length - length) ++ redacted.toList

/-- `(["']?)([^\s,;"'}]+)\2` behind the label and the separator `front`: what replaces the match,
and its length. -/
def secretValue? (front : List Char) : List Char → Option (List Char × ℕ)
  | [] => none
  | c :: cs =>
      if isQuote c then
        if !(cs.takeWhile isSecretChar).isEmpty && (cs.dropWhile isSecretChar).head? == some c then
          some (replaceAssignment (front ++ c :: (cs.takeWhile isSecretChar ++ [c]))
            (cs.takeWhile isSecretChar).length,
            front.length + (cs.takeWhile isSecretChar).length + 2)
        else none
      else if isSecretChar c then
        some (replaceAssignment (front ++ (c :: cs).takeWhile isSecretChar)
          ((c :: cs).takeWhile isSecretChar).length,
          front.length + ((c :: cs).takeWhile isSecretChar).length)
      else none

/-- `label\s*[:=]\s*` and the value. -/
def labelled? (cs : List Char) (label : String) : Option (List Char × ℕ) :=
  match stripWord label.toList cs with
  | none => none
  | some rest =>
      match rest.dropWhile Text.isSpace with
      | [] => none
      | sign :: value =>
          if sign == ':' || sign == '=' then
            secretValue? (cs.take (cs.length - (value.dropWhile Text.isSpace).length))
              (value.dropWhile Text.isSpace)
          else none

def secretAssignment (w : WordClass) : Pattern := fun before cs =>
  if w.boundary before cs then secretLabels.findSome? (labelled? cs) else none

/-- `[A-Za-z0-9._~+/=-]`, in any case. -/
def isTokenChar (c : Char) : Bool :=
  c.isAlphanum || ['.', '_', '~', '+', '/', '=', '-', 'ı', 'İ', 'ſ', '\u212a'].contains c

/-- `word\s+[A-Za-z0-9._~+/=-]{8,}`: the length of the match. -/
def spacedToken? (cs : List Char) (word : String) : Option ℕ :=
  match stripWord word.toList cs with
  | none => none
  | some rest =>
      if (rest.takeWhile Text.isSpace).isEmpty ||
          ((rest.dropWhile Text.isSpace).takeWhile isTokenChar).length < 8 then none
      else
        some (cs.length - rest.length + (rest.takeWhile Text.isSpace).length +
          ((rest.dropWhile Text.isSpace).takeWhile isTokenChar).length)

def tokenLabels : List String :=
  ["apikey", "api_key", "api-key", "accesskey", "access_key", "access-key", "token", "password",
    "passwd"]

/-- `_SECRET_LABEL`, replaced by its first word and `[redacted]`. -/
def secretLabel (w : WordClass) : Pattern := fun before cs =>
  if w.boundary before cs then
    (tokenLabels.findSome? (spacedToken? cs)).map fun n =>
      ((cs.take n).takeWhile (fun c => !Text.isSpace c) ++ ' ' :: redacted.toList, n)
  else none

/-- `_BEARER_SECRET`, replaced by `Bearer [redacted]`. -/
def bearerSecret (w : WordClass) : Pattern := fun before cs =>
  if w.boundary before cs then
    (spacedToken? cs "bearer").map fun n => ("Bearer ".toList ++ redacted.toList, n)
  else none

/-- `\b` behind the first characters. -/
def endsAt (w : WordClass) (cs : List Char) (n : ℕ) : Bool :=
  w.boundary (w.endsWord false (cs.take n)) (cs.drop n)

/-- The greatest length from `least` to `most` at which a word begins or ends. -/
def longest? (w : WordClass) (cs : List Char) (least most : ℕ) : Option ℕ :=
  (List.range' least (most + 1 - least)).reverse.find? (endsAt w cs)

/-- `[A-Za-z0-9_-]`. -/
def isNameChar (c : Char) : Bool := c.isAlphanum || c == '_' || c == '-'

/-- `_NAMED_SECRET`, replaced by `[redacted]`. -/
def namedSecret (w : WordClass) : Pattern := fun before cs =>
  if w.boundary before cs &&
      ("sk_live_".toList.isPrefixOf cs || "sk_test_".toList.isPrefixOf cs) then
    (longest? w cs 9 (8 + ((cs.drop 8).takeWhile isNameChar).length)).map fun n =>
      (redacted.toList, n)
  else none

/-- `[A-Za-z0-9+/]`. -/
def isBase64Char (c : Char) : Bool := c.isAlphanum || c == '+' || c == '/'

def base64ish (w : WordClass) (before : Bool) (cs : List Char) : Option ℕ :=
  let run := (cs.takeWhile isBase64Char).length
  let pads := (((cs.drop run).take 2).takeWhile (· == '=')).length
  if w.boundary before cs && 32 ≤ run then
    -- the padding is given up before the last characters are
    (longest? w cs run (run + pads)).or (longest? w cs 32 (run - 1))
  else none

/-- `[A-Za-z0-9_~+/=-]`. -/
def isDenseChar (c : Char) : Bool := c.isAlphanum || ['_', '~', '+', '/', '=', '-'].contains c

def highEntropyToken (w : WordClass) (before : Bool) (cs : List Char) : Option ℕ :=
  if w.boundary before cs then longest? w cs 32 (cs.takeWhile isDenseChar).length else none

/-- `pattern.finditer`, from a position where `skip` more characters belong to a match. -/
def findAllFrom (w : WordClass) (pattern : Bool → List Char → Option ℕ) :
    ℕ → Bool → List Char → List (List Char)
  | _, _, [] => []
  | skip + 1, _, c :: cs => findAllFrom w pattern skip (w.isWord c) cs
  | 0, before, c :: cs =>
      match pattern before (c :: cs) with
      | none => findAllFrom w pattern 0 (w.isWord c) cs
      | some n => (c :: cs).take n :: findAllFrom w pattern (n - 1) (w.isWord c) cs

/-- `text.replace(old, "[redacted]")`. -/
def replaceAll (w : WordClass) (old text : List Char) : List Char :=
  Pattern.sub w (fun _ cs => if old.isPrefixOf cs then some (redacted.toList, old.length) else none)
    false text

def isHexDigit (c : Char) : Bool :=
  c.isDigit || ('a' ≤ c && c ≤ 'f') || ('A' ≤ c && c ≤ 'F')

/-- `[a-fA-F0-9]{40,64}`, as a whole. -/
def isDigest (candidate : List Char) : Bool :=
  candidate.all isHexDigit && 40 ≤ candidate.length && candidate.length ≤ 64

/-- The loop over the matches of `_BASE64ISH` and that over those of `_HIGH_ENTROPY_TOKEN`. Whether
the entropy of a candidate is four bits or more is a computation with floats. -/
def scrubDense (w : WordClass) (isDense : List Char → Bool)
    (pattern : Bool → List Char → Option ℕ) (scrubbed : List Char) : List Char :=
  (findAllFrom w pattern 0 false scrubbed).foldl (fun scrubbed candidate =>
    if isDigest candidate then scrubbed
    else if 12 ≤ candidate.dedup.length && isDense candidate then replaceAll w candidate scrubbed
    else scrubbed) scrubbed

def scrubString (w : WordClass) (isDense : List Char → Bool) (value : String)
    (freeText : Bool) : String :=
  let scrubbed := (secretAssignment w).sub w false value.toList
  let scrubbed := (secretLabel w).sub w false scrubbed
  let scrubbed := (bearerSecret w).sub w false scrubbed
  let scrubbed := (namedSecret w).sub w false scrubbed
  let scrubbed := (awsAccessKey w).sub w false scrubbed
  let scrubbed := scrubDense w isDense (base64ish w) scrubbed
  .ofList (if freeText then scrubDense w isDense (highEntropyToken w) scrubbed else scrubbed)

end WaitLocalAgent.FounderBundle
