import WaitLocalAgent.Foundation.Decimals
import WaitLocalAgent.Foundation.Fallible

/-! # Update channel

Versions as they are read and ordered, and the check for an update. -/

namespace WaitLocalAgent.UpdateChannel

open Foundation

/-- `[0-9A-Za-z-]`. -/
def isIdentifierChar (c : Char) : Bool := c.isAlphanum || c == '-'

/-- `[0-9A-Za-z-]` or `\.`. -/
def isRunChar (c : Char) : Bool := isIdentifierChar c || c == '.'

/-- The groups of `_SEMVER_RE`. -/
structure SemverGroups where
  major : List Char
  minor : List Char
  patch : List Char
  prerelease : Option (List Char)
  build : Option (List Char)
  deriving DecidableEq

/-- `0|[1-9]\d*`, and what follows it. -/
def readNumber (d : DecimalDigits) : List Char → Option (List Char × List Char)
  | [] => none
  | c :: cs =>
      if c = '0' then some (['0'], cs)
      else if c.isDigit then some (c :: cs.takeWhile d.isDecimal, cs.dropWhile d.isDecimal)
      else none

def readDot : List Char → Option (List Char)
  | '.' :: cs => some cs
  | _ => none

/-- `(?:mark([0-9A-Za-z-]+(?:\.[0-9A-Za-z-]+)*))?`. Nothing that may follow it in the pattern could
have been part of it. -/
def readIdentifiers (mark : Char) : List Char → Option (Option (List Char) × List Char)
  | [] => some (none, [])
  | c :: cs =>
      if c = mark then
        if ((cs.takeWhile isRunChar).splitOn '.').all fun identifier => !identifier.isEmpty then
          some (some (cs.takeWhile isRunChar), cs.dropWhile isRunChar)
        else none
      else some (none, c :: cs)

def semverRe (d : DecimalDigits) (value : String) : Option SemverGroups := do
  let (major, cs) ← readNumber d value.toList
  let cs ← readDot cs
  let (minor, cs) ← readNumber d cs
  let cs ← readDot cs
  let (patch, cs) ← readNumber d cs
  let (prerelease, cs) ← readIdentifiers '-' cs
  let (build, cs) ← readIdentifiers '+' cs
  if cs = [] then some { major, minor, patch, prerelease, build } else none

/-- `_PrereleaseToken`, whose `numeric` says which kind of value it holds. -/
inductive PrereleaseToken where
  | number (value : ℕ)
  | text (value : String)
  deriving DecidableEq, Repr

structure SemVer where
  major : ℕ
  minor : ℕ
  patch : ℕ
  prerelease : List PrereleaseToken := []
  deriving DecidableEq, Repr

/-- What the first two tokens that differ say of their versions. -/
def tokensLt? : List (PrereleaseToken × PrereleaseToken) → Option Bool
  | [] => none
  | (left, right) :: rest =>
      if left = right then tokensLt? rest
      else match left, right with
        | .number m, .number n => some (decide (m < n))
        | .number _, .text _ => some true
        | .text _, .number _ => some false
        | .text s, .text t => some (decide (s < t))

def SemVer.lt (a b : SemVer) : Bool :=
  if (a.major, a.minor, a.patch) ≠ (b.major, b.minor, b.patch) then
    a.major < b.major ||
      a.major == b.major && (a.minor < b.minor || a.minor == b.minor && a.patch < b.patch)
  else if a.prerelease = [] ∧ b.prerelease = [] then false
  else if a.prerelease = [] then false
  else if b.prerelease = [] then true
  else (tokensLt? (a.prerelease.zip b.prerelease)).getD
    (decide (a.prerelease.length < b.prerelease.length))

def prereleaseToken (d : DecimalDigits) (value : String) (identifier : List Char) :
    Except String PrereleaseToken :=
  if !identifier.isEmpty && identifier.all Char.isDigit then do
    raiseIf (identifier.head? = some '0' ∧ identifier ≠ ['0'])
      s!"invalid semver prerelease: {value}"
    return .number (← d.int identifier)
  else return .text (String.ofList identifier)

def parseSemver (d : DecimalDigits) (value : String) : Except String SemVer := do
  match semverRe d value with
  | none => throw s!"invalid semver: {value}"
  | some groups =>
      let prerelease ← match groups.prerelease with
        | none => pure []
        | some prerelease => (prerelease.splitOn '.').mapM (prereleaseToken d value)
      return {
        major := ← d.int groups.major
        minor := ← d.int groups.minor
        patch := ← d.int groups.patch
        prerelease }

inductive UpdateState where
  | updateAvailable
  | upToDate
  | unknown
  | invalidSignature
  deriving DecidableEq, Repr

structure UpdateMetadata where
  version : String
  minSupported : String
  notesUrl : String

structure UpdateStatus where
  status : UpdateState
  currentVersion : String
  checkedAt : String
  detail : String := ""
  remoteVersion : Option String := none
  minSupported : Option String := none
  notesUrl : Option String := none
  warning : Option String := none
  deriving DecidableEq, Repr

structure Settings where
  updateChannelUrl : String
  updatePubkeys : List String
  updateAllowPrerelease : Bool

/-- What the channel serves: nothing that can be reached, or a document with the metadata that it
parses to and a pinned key verifies, or else the error of these steps. -/
inductive Served where
  | unreachable
  | document (verified : Except String UpdateMetadata)

def UpdateMetadata.status (metadata : UpdateMetadata) (status : UpdateState)
    (currentVersion checkedAt detail : String) : UpdateStatus where
  status := status
  currentVersion := currentVersion
  checkedAt := checkedAt
  detail := detail
  remoteVersion := some metadata.version
  minSupported := some metadata.minSupported
  notesUrl := some metadata.notesUrl

def compareVersions (d : DecimalDigits) (settings : Settings) (currentVersion checkedAt : String)
    (verified : Except String UpdateMetadata) : Except String UpdateStatus := do
  let metadata ← verified
  let remoteVersion ← parseSemver d metadata.version
  let installedVersion ← parseSemver d currentVersion
  if remoteVersion.prerelease ≠ [] ∧ ¬ settings.updateAllowPrerelease then
    return { metadata.status .upToDate currentVersion checkedAt "prerelease_ignored" with
      warning := some ("prerelease updates are disabled; " ++
        "set WAIT_UPDATE_ALLOW_PRERELEASE=true to opt in") }
  else if installedVersion.lt remoteVersion then
    return metadata.status .updateAvailable currentVersion checkedAt "trusted"
  else return metadata.status .upToDate currentVersion checkedAt "trusted"

def checkForUpdates (d : DecimalDigits) (settings : Settings) (currentVersion checkedAt : String)
    (served : Served) : UpdateStatus :=
  if settings.updateChannelUrl = "" then
    { status := .unknown, currentVersion, checkedAt, detail := "disabled" }
  else if settings.updatePubkeys = [] then
    { status := .unknown, currentVersion, checkedAt, detail := "misconfigured"
      warning := some "update checks require at least one pinned public key" }
  else match served with
    | .unreachable => { status := .unknown, currentVersion, checkedAt, detail := "unreachable" }
    | .document verified =>
        match compareVersions d settings currentVersion checkedAt verified with
        | .ok status => status
        | .error _ =>
            { status := .invalidSignature, currentVersion, checkedAt, detail := "rejected"
              warning := some "update metadata signature invalid" }

end WaitLocalAgent.UpdateChannel
