import Mathlib.Data.List.Basic

/-!
# The wire contract

The types of the wire crate that guests and the host share: invite secrets,
streams and their preambles, the guest API's paths, errors and bodies, and the
close codes of a connection.
-/

namespace WispersAccess
namespace Wire

/-!
## Invites and activation
-/

/-- The one-time secret in an iroh invite, 16 random bytes. -/
structure InviteSecret where
  bytes : List UInt8
  length_eq : bytes.length = 16
  deriving DecidableEq, Repr

/-- Why an activation was refused. -/
inductive ActivationError where
  | malformed
  | inviteUnknown
  | inviteExpired
  | inviteConsumed
  | revoked
  | alreadyGuest
  deriving DecidableEq, Repr

def ActivationError.status : ActivationError -> Nat
  | malformed => 400
  | inviteUnknown => 403
  | revoked => 403
  | inviteExpired => 410
  | inviteConsumed => 409
  | alreadyGuest => 409

def ActivationError.asStr : ActivationError -> String
  | malformed => "malformed"
  | inviteUnknown => "invite-unknown"
  | inviteExpired => "invite-expired"
  | inviteConsumed => "invite-consumed"
  | revoked => "revoked"
  | alreadyGuest => "already-guest"

/-!
## Streams
-/

/-- The first byte of a stream says what the rest of it carries. -/
inductive StreamType where
  | reverseProxy
  | ctrl
  | forwardProxy
  deriving DecidableEq, Repr

def StreamType.byte : StreamType -> UInt8
  | reverseProxy => 0x00
  | ctrl => 0x01
  | forwardProxy => 0x02

/-- Only activated guests may open data-plane streams. -/
inductive Plane where
  | data
  | control
  deriving DecidableEq, Repr

def StreamType.plane : StreamType -> Plane
  | reverseProxy => Plane.data
  | forwardProxy => Plane.data
  | ctrl => Plane.control

inductive FirstByte where
  | typed (t : StreamType)
  | unknown (raw : UInt8)
  deriving DecidableEq, Repr

def FirstByte.ofByte (first : UInt8) : FirstByte :=
  if first = 0x00 then FirstByte.typed StreamType.reverseProxy
  else if first = 0x01 then FirstByte.typed StreamType.ctrl
  else if first = 0x02 then FirstByte.typed StreamType.forwardProxy
  else FirstByte.unknown first

theorem firstByte_ofByte_byte (t : StreamType) :
    FirstByte.ofByte t.byte = FirstByte.typed t := by
  cases t <;> rfl

theorem firstByte_typed {b : UInt8} {t : StreamType}
    (h : FirstByte.ofByte b = FirstByte.typed t) : b = t.byte := by
  unfold FirstByte.ofByte at h
  split at h
  · cases h
    assumption
  · split at h
    · cases h
      assumption
    · split at h
      · cases h
        assumption
      · cases h

structure ReverseProxyPreamble where
  appId : String
  deriving DecidableEq, Repr

structure ForwardProxyPreamble where
  host : String
  port : UInt16
  deriving DecidableEq, Repr

/-- Why a FORWARD_PROXY stream was refused. -/
inductive ForwardProxyError where
  | notAllowed
  | unreachable
  | unknown
  deriving DecidableEq, Repr

/-- The host's answer to a `ForwardProxyPreamble`; the default has no error. -/
structure ForwardProxyReply where
  error : Option ForwardProxyError := none
  deriving DecidableEq, Repr

/-!
## The guest API
-/

def sharePath : String := "/v1/share"

def eventsPath : String := "/v1/events"

def activationPath : String := "/v1/activation"

def guestPath : String := "/v1/guest"

/-- The `error` sent with a 426 Upgrade Required. -/
def clientTooOld : String := "client-too-old"

/-- An identifier of a pre-release. -/
inductive PreId where
  | numeric (n : Nat)
  | text (s : String)
  deriving DecidableEq, Repr

def PreId.lt : PreId -> PreId -> Bool
  | numeric m, numeric n => m < n
  | numeric _, text _ => true
  | text _, numeric _ => false
  | text s, text t => s < t

/-- A semantic version, without its build metadata. -/
structure Version where
  major : Nat
  minor : Nat
  patch : Nat
  pre : List PreId
  deriving DecidableEq, Repr

/-- Identifier by identifier; a longer pre-release comes after its beginnings. -/
def preLt : List PreId -> List PreId -> Bool
  | _, [] => false
  | [], _ :: _ => true
  | x :: xs, y :: ys => x.lt y || (x == y && preLt xs ys)

/-- A version without a pre-release comes after those with one. -/
def Version.lt (v w : Version) : Bool :=
  v.major < w.major || (v.major == w.major &&
    (v.minor < w.minor || (v.minor == w.minor &&
      (v.patch < w.patch || (v.patch == w.patch &&
        match v.pre, w.pre with
        | [], _ => false
        | _ :: _, [] => true
        | pre, pre' => preLt pre pre')))))

inductive AppKind where
  | web
  | jellyfin
  | immich
  deriving DecidableEq, Repr

def AppKind.asStr : AppKind -> String
  | web => "web"
  | jellyfin => "jellyfin"
  | immich => "immich"

inductive AppProxyMode where
  | reverseProxy
  | forwardProxy
  | unknown
  deriving DecidableEq, Repr

def AppProxyMode.asStr : AppProxyMode -> String
  | reverseProxy => "reverse-proxy"
  | forwardProxy => "forward-proxy"
  | unknown => "unknown"

/-- A web origin, `scheme://host[:port]`. -/
structure Origin where
  https : Bool
  host : String
  port : UInt16
  deriving DecidableEq, Repr

def Origin.defaultPort (o : Origin) : UInt16 :=
  if o.https then 443 else 80

/-- `Display` of an origin: the port is left out where it is the scheme's default. -/
def Origin.toText (o : Origin) : String :=
  let scheme := if o.https then "https" else "http"
  let base := scheme ++ "://" ++ o.host
  if o.port ≠ o.defaultPort then base ++ ":" ++ toString o.port.toNat else base

/-- A config hash is carried as 16 hex digits. -/
def hashText (hash : UInt64) : String :=
  let digits := Nat.toDigits 16 hash.toNat
  String.ofList (List.replicate (16 - digits.length) '0' ++ digits)

/-- The strong entity tag of a config hash. -/
def etag (hash : UInt64) : String :=
  "\"" ++ hashText hash ++ "\""

/-- The entries of a comma-separated header. -/
def splitCommas (header : List Char) : List (List Char) :=
  header.splitOn ','

def trimSpaces (cs : List Char) : List Char :=
  ((cs.dropWhile Char.isWhitespace).reverse.dropWhile Char.isWhitespace).reverse

/-- One or more entity tags, or `*`. -/
def matchesIfNoneMatch (hash : UInt64) (header : String) : Bool :=
  (splitCommas header.toList).any fun entry =>
    let tag := String.ofList (trimSpaces entry)
    tag == "*" || tag == etag hash || tag == "W/" ++ etag hash

structure SharedApp where
  id : String
  name : String
  kind : AppKind
  mode : AppProxyMode
  startUrl : Option String
  proxiedOrigins : List String
  deriving DecidableEq, Repr

/-- Guest-facing metadata for a share. -/
structure ShareInfo where
  configHash : UInt64
  name : String
  transport : String
  apps : List SharedApp
  caCertificates : List String
  deriving DecidableEq, Repr

/-!
## Connections
-/

/-- QUIC application close codes. -/
inductive CloseCode where
  | closing
  | unknown
  | revoked
  deriving DecidableEq, Repr

def CloseCode.code : CloseCode -> Nat
  | closing => 0
  | unknown => 1
  | revoked => 2

end Wire
end WispersAccess
