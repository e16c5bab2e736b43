import WaitLocalAgent.Foundation.Fallible
import WaitLocalAgent.Foundation.Program
import WaitLocalAgent.Foundation.Text

/-! # Outbound requests

The URL policy for provider origins, and the transport that resolves a host once, validates every
address of the answer, and connects to the first of them. -/

namespace WaitLocalAgent.NetSecurity

open Foundation

inductive Failure where
  /-- `NetSecurityError`. -/
  | netSecurity (message : String)
  | invalidUrl
  | idna
  | osError
  /-- Any other exception of a resolver, a transport or a stream. -/
  | raised (error : String)
  deriving DecidableEq, Repr

/-! ## Addresses -/

inductive Address where
  | v4 (value : BitVec 32)
  | v6 (value : BitVec 128) (scopeId : Option String)
  deriving DecidableEq, Repr

structure Ipv6Network where
  networkAddress : BitVec 128
  prefixLength : ℕ

def Ipv6Network.contains (network : Ipv6Network) (value : BitVec 128) : Bool :=
  value &&& (BitVec.allOnes 128 <<< (128 - network.prefixLength)) == network.networkAddress

def nat64Networks : List Ipv6Network :=
  [{ networkAddress := 0x0064ff9b_0000_0000_0000_0000_0000_0000#128, prefixLength := 96 },
   { networkAddress := 0x0064ff9b_0001_0000_0000_0000_0000_0000#128, prefixLength := 48 }]

def specialIpv6Networks : List Ipv6Network :=
  [{ networkAddress := 0x2002_0000_0000_0000_0000_0000_0000_0000#128, prefixLength := 16 },
   { networkAddress := 0x2001_0000_0000_0000_0000_0000_0000_0000#128, prefixLength := 32 }]

def metadataAddresses : List Address :=
  [.v4 0xA9FEA9FE#32, .v4 0xA83F8110#32,
   .v6 0xfd00_0ec2_0000_0000_0000_0000_0000_0254#128 none]

def Address.ipv4Mapped : Address → Option (BitVec 32)
  | .v4 _ => none
  | .v6 value _ => if value >>> 32 = 0xFFFF#128 then some (value.setWidth 32) else none

/-! ## URLs -/

/-- `httpx.URL`: the host in its ASCII form, and no port where it is the default one. -/
structure Url where
  scheme : String
  userinfo : String
  rawHost : String
  port : Option ℕ
  /-- Path, query and fragment. -/
  target : String
  deriving DecidableEq, Repr

def Url.netloc (url : Url) : String :=
  let host := if ':' ∈ url.rawHost.toList then "[" ++ url.rawHost ++ "]" else url.rawHost
  match url.port with
  | none => host
  | some port => host ++ ":" ++ toString port

def rstripDots (s : String) : String := String.ofList (s.toList.rdropWhile (· == '.'))

/-- `str.casefold` of a character, with `wide` for the characters beyond ASCII. -/
def foldChar (wide : Char → List Char) (c : Char) : List Char :=
  if c.toNat < 128 then [c.toLower] else wide c

/-- The names agree up to the case of ASCII letters and trailing dots. -/
def SameName (a b : String) : Prop :=
  (rstripDots a).toList.map Char.toLower = (rstripDots b).toList.map Char.toLower

instance (a b : String) : Decidable (SameName a b) :=
  inferInstanceAs (Decidable (_ = _))

/-- An entry of the socket address of a result of `getaddrinfo`. -/
inductive SockItem where
  | text (s : String)
  | number (n : ℤ)
  | other
  deriving DecidableEq, Repr

/-- How a label starts that stands for one beyond ASCII. -/
def acePrefix : List Char := "xn--".toList

/-- A URL with the raw host `x` and the host `a` is copied with its folded host `b`, which gives the
raw host `y`. -/
structure Copied (wide : Char → List Char) (encodeHost decodeHost : String → Option String)
    (x a b y : String) : Prop where
  parsed : ∃ name, encodeHost name = some x
  host : decodeHost x = some a
  folded : b = rstripDots (String.ofList (a.toList.flatMap (foldChar wide)))
  copied : encodeHost b = some y

/-- `httpx.URL`, `urlsplit`, `ipaddress` and the table of `str.casefold`, with what is documented of
them. -/
structure Library where
  /-- Case folding beyond ASCII. -/
  foldWide : Char → List Char
  /-- `httpx.URL(text)`, or an exception. -/
  parse : String → Option Url
  text : Url → String
  /-- Whether `urlsplit(text)` has a username or a password, or an exception. -/
  hasUserinfo : String → Option Bool
  /-- `url.host` of a raw host: its labels in Unicode if it starts with `xn--`. -/
  decodeHost : String → Option String
  /-- The raw host that `copy_with(host=name)` sets. -/
  encodeHost : String → Option String
  compressed : Address → String
  /-- `ipaddress.ip_address(item)`. -/
  ipAddress : SockItem → Option Address
  isGlobal : Address → Bool
  isMulticast : Address → Bool
  isReserved : Address → Bool
  isLoopback : Address → Bool
  /-- What a character folds to is folded. -/
  foldWide_idem : ∀ c, 128 ≤ c.toNat → ∀ d ∈ foldWide c, foldChar foldWide d = [d]
  /-- A URL is parsed back from its text. -/
  parse_text : ∀ url parsed, parse (Text.strip (text url)) = some parsed → parsed = url
  parse_rawHost : ∀ s url, parse s = some url → ∃ name, encodeHost name = some url.rawHost
  /-- Other raw hosts are not decoded. -/
  decodeHost_plain : ∀ x, ¬ acePrefix <+: x.toList → decodeHost x = some x
  /-- Hosts are encoded one to one. -/
  encodeHost_sameName : ∀ x a b y, Copied foldWide encodeHost decodeHost x a b y →
    (SameName y x ↔ SameName b a)
  /-- An ASCII host is kept, and some label of another one is encoded. -/
  encodeHost_ace : ∀ x a b y, Copied foldWide encodeHost decodeHost x a b y →
    y = b ∨ acePrefix <:+: y.toList
  /-- A raw host that starts with `xn--` is decoded to the host that it was encoded from. -/
  decodeHost_encodeHost : ∀ x a b y, Copied foldWide encodeHost decodeHost x a b y →
    acePrefix <+: y.toList → decodeHost y = some b
  /-- The text of an address stays as it is, where it is accepted as a host. -/
  encodeHost_compressed : ∀ a x, encodeHost (compressed a) = some x → x = compressed a
  encodeHost_v4 : ∀ value, encodeHost (compressed (.v4 value)) = some (compressed (.v4 value))
  /-- Unique local addresses, `fc00::/7`, are private. -/
  not_isGlobal_of_uniqueLocal : ∀ (value : BitVec 128) scopeId,
    value >>> 121 = 0x7E#128 → isGlobal (.v6 value scopeId) = false
  isGlobal_example : ipAddress (.text "93.184.216.34") = some (.v4 0x5DB8D822#32) ∧
    isGlobal (.v4 0x5DB8D822#32) = true ∧ isMulticast (.v4 0x5DB8D822#32) = false ∧
    isReserved (.v4 0x5DB8D822#32) = false
  isLoopback_localhost : ipAddress (.text "127.0.0.1") = some (.v4 0x7F000001#32) ∧
    isLoopback (.v4 0x7F000001#32) = true

/-- The value, or an exception where there is none. -/
def orRaise {α : Type} (error : Failure) : Option α → Except Failure α
  | some a => .ok a
  | none => .error error

namespace Library

variable (lib : Library)

def casefold (s : String) : String := String.ofList (s.toList.flatMap (foldChar lib.foldWide))

def foldName (s : String) : String := rstripDots (lib.casefold s)

def host (url : Url) : Except Failure String := orRaise .idna (lib.decodeHost url.rawHost)

def copyWith (url : Url) (host : String) : Except Failure Url :=
  orRaise .invalidUrl ((lib.encodeHost host).map fun rawHost => { url with rawHost })

end Library

/-! ## The URL policy -/

def maxUrlLength : ℕ := 2048

def loopbackHosts : List String := ["localhost", "127.0.0.1", "::1"]

section Policy

variable (lib : Library)

def normaliseAllowedHosts (allowedHosts : List String) : List String :=
  (allowedHosts.filter fun value => Text.strip value != "").map
    fun value => lib.foldName (Text.strip value)

/-- What both validations check before the host: length, syntax, scheme and credentials. -/
def parseOrigin (candidate : String) : Except Failure Url := do
  raiseIf (candidate = "" ∨ maxUrlLength < candidate.length)
    (.netSecurity "provider origin must be bounded URL text")
  let parsed ← orRaise (.netSecurity "provider origin must be a valid HTTP(S) URL")
    (lib.parse candidate)
  raiseIf (lib.casefold parsed.scheme ≠ "http" ∧ lib.casefold parsed.scheme ≠ "https")
    (.netSecurity "provider origin must use HTTP or HTTPS")
  raiseIf (lib.hasUserinfo candidate ≠ some false)
    (.netSecurity "provider origin must not contain embedded credentials")
  let host ← lib.host parsed
  raiseIf (host = "") (.netSecurity "provider origin must include a hostname")
  return parsed

def validateOperatorUrl (url : String) (allowInsecureTransport allowLoopback : Bool) :
    Except Failure Unit := do
  let parsed ← parseOrigin lib (Text.strip url)
  let host ← lib.host parsed
  let isLoopbackHost := lib.foldName host ∈ loopbackHosts
  raiseIf (isLoopbackHost ∧ !allowLoopback)
    (.netSecurity "loopback provider origins are disabled")
  raiseIf (lib.casefold parsed.scheme = "http" ∧ ¬ isLoopbackHost ∧ !allowInsecureTransport)
    (.netSecurity "non-loopback provider origins must use HTTPS")

def validateProviderOrigin (url : String) (allowedHosts : List String) (allowLoopback : Bool) :
    Except Failure Url := do
  let parsed ← parseOrigin lib (Text.strip url)
  let host ← lib.host parsed
  raiseIf (lib.foldName host ∉ normaliseAllowedHosts lib allowedHosts)
    (.netSecurity "provider origin host is not allowlisted")
  validateOperatorUrl lib (Text.strip url) false allowLoopback
  lib.copyWith parsed (lib.foldName host)

/-- `any(ip in network for network in _NAT64_NETWORKS + _SPECIAL_IPV6_NETWORKS)`. -/
def inSpecialNetwork : Address → Bool
  | .v4 _ => false
  | .v6 value _ => (nat64Networks ++ specialIpv6Networks).any fun n => n.contains value

/-- The part of `is_globally_routable` that follows the unwrapping. -/
def isGloballyRoutableUnmapped (ip : Address) : Bool :=
  if ip ∈ metadataAddresses then false
  else if inSpecialNetwork ip then false
  else lib.isGlobal ip && !lib.isMulticast ip && !lib.isReserved ip

def isGloballyRoutable (ip : Address) : Bool :=
  match ip.ipv4Mapped with
  | some mapped => isGloballyRoutableUnmapped lib (.v4 mapped)
  | none => isGloballyRoutableUnmapped lib ip

/-! ## Resolution -/

inductive Family where
  | inet
  | inet6
  | other
  deriving DecidableEq, Repr

/-- An entry of a result of `getaddrinfo`. -/
inductive ResultItem where
  | family (family : Family)
  | tuple (items : List SockItem)
  | other
  deriving DecidableEq, Repr

/-- `sockaddr[0]` of a tuple that is not empty. -/
def ResultItem.first? : ResultItem → Option SockItem
  | .tuple items => items.head?
  | _ => none

abbrev ResolverResult := List ResultItem

def addressFromResult : ResolverResult → Except Failure Address
  | .family family :: _ :: _ :: _ :: sockaddr :: _ => do
      raiseIf (family = .other) (.netSecurity "DNS returned an unsupported address result")
      let item ← orRaise (.netSecurity "DNS returned an invalid address result") sockaddr.first?
      let address ← orRaise (.netSecurity "DNS returned an invalid address") (lib.ipAddress item)
      match family, address with
      | .inet, .v6 _ _ => .error (.netSecurity "DNS returned an address-family mismatch")
      | .inet6, .v4 _ => .error (.netSecurity "DNS returned an address-family mismatch")
      | _, _ => .ok address
  | _ => .error (.netSecurity "DNS returned an unsupported address result")

/-- What the loop of `_resolve_and_validate` checks of an address. -/
def checkAddress (allowLoopback isLoopbackHost : Bool) (address : Address) : Except Failure Unit :=
  if isLoopbackHost then
    raiseIf (!allowLoopback ∨ !lib.isLoopback address)
      (.netSecurity "loopback provider origin resolved outside loopback")
  else
    raiseIf (!isGloballyRoutable lib address)
      (.netSecurity "provider origin resolved to a non-routable address")

/-- `_resolve_and_validate`, once the resolver has answered. -/
def validateResults (allowLoopback isLoopbackHost : Bool) (results : List ResolverResult) :
    Except Failure (List Address) := do
  raiseIf (results = []) (.netSecurity "provider origin DNS resolution returned no addresses")
  let addresses ← results.mapM (addressFromResult lib)
  addresses.forM (checkAddress lib allowLoopback isLoopbackHost)
  return addresses

end Policy

/-! ## Requests and responses -/

/-- `httpx.Headers`, by lower-case names, the values of a repeated one joined. -/
abbrev Headers := String → Option String

/-- `httpx.Timeout`, in seconds. -/
structure Timeout where
  connect : ℚ
  read : ℚ
  write : ℚ
  pool : ℚ
  deriving DecidableEq

inductive Extension where
  | text (s : String)
  | timeout (timeout : Timeout)
  | other (name : String)
  deriving DecidableEq

structure Request where
  method : String
  url : Url
  headers : Headers
  /-- The chunks of `request.stream`. -/
  content : List (List UInt8)
  extensions : String → Option Extension

/-- What the inner transport answers. -/
structure InnerResponse where
  statusCode : ℕ
  headers : Headers
  extensions : String → Option Extension
  /-- The stream is an `httpx.SyncByteStream`. -/
  syncStream : Bool

/-- `httpx.Response`, less its stream. -/
structure Response where
  statusCode : ℕ
  headers : Headers
  extensions : String → Option Extension

/-- What a call of the transport does outside: it asks the resolver and the inner transport. -/
inductive Action where
  | resolve (hostname : String) (port : ℕ)
  | send (request : Request)
  | closeResponse
  | closeTransport

abbrev Action.Answer : Action → Type
  | .resolve _ _ => Except Failure (List ResolverResult)
  | .send _ => Except Failure InnerResponse
  | .closeResponse => Except Failure Unit
  | .closeTransport => Except Failure Unit

abbrev Call := ExceptT Failure (Program Action Action.Answer)

abbrev Event := Σ a : Action, a.Answer

def defaultMaxResponseBytes : ℕ+ := ⟨8 * 1024 * 1024, by decide⟩

/-- `PinnedIpTransport`, which refuses a cap that is not positive. -/
structure PinnedIpTransport where
  allowedHosts : List String
  timeout : Timeout
  maxResponseBytes : ℕ+ := defaultMaxResponseBytes
  allowLoopback : Bool := false

namespace PinnedIpTransport

variable (lib : Library) (transport : PinnedIpTransport)

def liftExcept {α : Type} (x : Except Failure α) : Call α := ExceptT.mk (.done x)

def resolve (hostname : String) (port : ℕ) :
    Program Action Action.Answer (Except Failure (List ResolverResult)) :=
  .act (.resolve hostname port) .done

def send (request : Request) : Call InnerResponse :=
  ExceptT.mk (.act (.send request) .done)

def closeResponse : Call Unit :=
  ExceptT.mk (.act .closeResponse .done)

def closeTransport : Program Action Action.Answer (Except Failure Unit) :=
  .act .closeTransport .done

def resolveAndValidate (hostname : String) (port : ℕ) (isLoopbackHost : Bool) :
    Call (List Address) := do
  let results ← ExceptT.mk do
    match ← resolve hostname port with
    | .error .osError =>
        return .error (.netSecurity "provider origin DNS resolution failed")
    | answer => return answer
  liftExcept (validateResults lib transport.allowLoopback isLoopbackHost results)

def innerRequest (request : Request) (validated pinnedUrl : Url) : Request where
  method := request.method
  url := pinnedUrl
  headers := Function.update (Function.update request.headers "host" (some validated.netloc))
    "accept-encoding" (some "identity")
  content := request.content
  extensions := Function.update
    (Function.update request.extensions "timeout" (some (.timeout transport.timeout)))
    "sni_hostname" (some (.text validated.rawHost))

/-- The values of a `Content-Encoding` header. -/
def encodings (encoding : String) : List String :=
  (encoding.toList.splitOn ',').map fun value => lib.casefold (Text.strip (String.ofList value))

def refusesEncoding (encoding : Option String) : Bool :=
  match encoding with
  | none => false
  | some encoding =>
      Text.strip encoding == "" || (encodings lib encoding).any fun value => value != "identity"

/-- What `handle_request` checks of the response, and what it returns. -/
def acceptResponse (innerResponse : InnerResponse) : Call Response :=
  if refusesEncoding lib (innerResponse.headers "content-encoding") then do
    closeResponse
    throw (.netSecurity "provider response uses unsupported content encoding")
  else if !innerResponse.syncStream then
    throw (.netSecurity "provider response is not a synchronous stream")
  else
    return {
      statusCode := innerResponse.statusCode
      headers := innerResponse.headers
      extensions := innerResponse.extensions }

/-- The `try` statement of `handle_request`. -/
def exchange (innerRequest : Request) : Call Response :=
  tryCatch (send innerRequest >>= acceptResponse lib) fun error => do
    -- an exception of the close is dropped
    let _ ← ExceptT.lift closeTransport
    throw error

def resolverPort (validated : Url) : ℕ :=
  match validated.port with
  | some port => port
  | none => if validated.scheme = "https" then 443 else 80

def handleRequest (request : Request) : Call Response := do
  let validated ← liftExcept
    (validateProviderOrigin lib (lib.text request.url) transport.allowedHosts
      transport.allowLoopback)
  let host ← liftExcept (lib.host validated)
  let addresses ← resolveAndValidate lib transport validated.rawHost (resolverPort validated)
    (decide (lib.foldName host ∈ loopbackHosts))
  let pinnedAddress ← liftExcept (orRaise (.raised "list index out of range") addresses.head?)
  let pinnedUrl ← liftExcept (lib.copyWith validated (lib.compressed pinnedAddress))
  exchange lib (transport.innerRequest request validated pinnedUrl)

end PinnedIpTransport

/-! ## Bodies -/

structure CappedResponseStream where
  bytesSeen : ℕ := 0
  closed : Bool := false
  deriving DecidableEq, Repr

/-- What the inner stream does when the caller asks for the next chunk. -/
inductive Read where
  | chunk (bytes : List UInt8)
  | stop
  | raises (error : Failure)

/-- What the caller gets. -/
inductive Delivery where
  | yields (bytes : List UInt8)
  | stops
  | raises (error : Failure)

/-- What the two `close` calls of `_CappedResponseStream.close` raise. -/
structure Closes where
  inner : Except Failure Unit
  transport : Except Failure Unit

namespace CappedResponseStream

variable (stream : CappedResponseStream)

def close (closes : Closes) : CappedResponseStream × Except Failure Unit :=
  if stream.closed then (stream, .ok ())
  else ({ stream with closed := true },
    match closes.inner, closes.transport with
    | .error e, _ => .error e
    | .ok _, .error e => .error e
    | .ok _, .ok _ => .ok ())

/-- A failure of the iteration closes the stream, and an exception of that goes first. -/
def fail (closes : Closes) (error : Failure) : CappedResponseStream × Delivery :=
  match stream.close closes with
  | (closed, .ok _) => (closed, .raises error)
  | (closed, .error e) => (closed, .raises e)

/-- One round of the loop in `__iter__`. -/
def next (maxResponseBytes : ℕ) (read : Read) (closes : Closes) :
    CappedResponseStream × Delivery :=
  match read with
  | .chunk bytes =>
      let seen := { stream with bytesSeen := stream.bytesSeen + bytes.length }
      if maxResponseBytes < seen.bytesSeen then
        seen.fail closes (.netSecurity "provider response exceeds the bounded size")
      else (seen, .yields bytes)
  | .stop =>
      match stream.close closes with
      | (closed, .ok _) => (closed, .stops)
      | (closed, .error e) => (closed, .raises e)
  | .raises error => stream.fail closes error

end CappedResponseStream

/-! ## Runs -/

/-- A handled request, what was done for it, and its body so far. -/
structure Exchange where
  request : Request
  events : List Event
  outcome : Except Failure Response
  stream : CappedResponseStream
  /-- The bytes that the caller got. -/
  received : List UInt8

/-- The actions of an exchange that call the inner transport. -/
def Event.sent? : Event → Option Request
  | ⟨.send request, _⟩ => some request
  | _ => none

def Exchange.sent (e : Exchange) : List Request := e.events.filterMap Event.sent?

inductive Step where
  /-- A request, with what its actions are answered in turn. -/
  | handle (request : Request) (answers : ℕ → (a : Action) → a.Answer)
  /-- The caller asks for a chunk of the body of an earlier request. -/
  | next (index : ℕ) (read : Read) (closes : Closes)
  /-- The caller closes that body. -/
  | close (index : ℕ) (closes : Closes)

def Step.request? : Step → Option Request
  | .handle request _ => some request
  | .next _ _ _ | .close _ _ => none

section Runs

variable (lib : Library) (transport : PinnedIpTransport)

def handled (request : Request) (answers : ℕ → (a : Action) → a.Answer) : Exchange :=
  let traced := (transport.handleRequest lib request).run.traced answers
  { request, events := traced.2, outcome := traced.1, stream := {}, received := [] }

def Exchange.next (e : Exchange) (read : Read) (closes : Closes) : Exchange :=
  match e.outcome with
  | .error _ => e
  | .ok _ =>
      match e.stream.next transport.maxResponseBytes read closes with
      | (stream, .yields bytes) => { e with stream, received := e.received ++ bytes }
      | (stream, _) => { e with stream }

def Exchange.close (e : Exchange) (closes : Closes) : Exchange :=
  { e with stream := (e.stream.close closes).1 }

def step (exchanges : List Exchange) : Step → List Exchange
  | .handle request answers => exchanges ++ [handled lib transport request answers]
  | .next index read closes =>
      exchanges.modify index fun e => e.next transport read closes
  | .close index closes => exchanges.modify index fun e => e.close closes

/-- Any sequence of requests, and of reads of their bodies. -/
def session : Machine (List Exchange) Step where
  init := []
  step := step lib transport

end Runs

end WaitLocalAgent.NetSecurity
