import WispersAccess.Guest.Credentials
import WispersAccess.Guest.GuestNodes
import WispersAccess.Guest.ProxiedOrigins

/-!
# Requests on the forward-proxy ports

The ports that browsers use as their HTTP proxy.  A request is for the share whose
credential it carries, or for the one that its port is fixed to.  If the share
lists the request's target, its guest node is restored and asked for a tunnel;
else a port of one share connects to the target itself.  Requests are served at
the same time, beside everything else that the client does.
-/

namespace WispersAccess
namespace Guest

open Foundation
open Wire (ForwardProxyReply UrlParser)

/-!
## Answers
-/

structure ErrorResponse where
  status : Nat
  headers : List (String × String)
  msg : String
  deriving DecidableEq, Repr

/-- A response the proxy makes itself, with `msg` as its plain-text body. -/
def errorResponse (status : Nat) (msg : String) : ErrorResponse where
  status := status
  headers := [("content-type", "text/plain; charset=utf-8")]
  msg := msg

def ErrorResponse.insert (resp : ErrorResponse) (name value : String) : ErrorResponse :=
  { resp with headers := resp.headers ++ [(name, value)] }

/-- The realm of the proxy's challenges. -/
def realm : String := "Wispers Access"

/-- The 407 that makes a webview send its share's credential. -/
def challenge : ErrorResponse :=
  (errorResponse 407 "proxy authentication required").insert "proxy-authenticate"
    ("Basic realm=\"" ++ realm ++ "\"")

/-- Not a request for a proxy.  Close, so that nothing in its body can be read as the next. -/
def notProxyRequest : ErrorResponse :=
  (errorResponse 400 "only CONNECT and http:// requests are proxied").insert "connection" "close"

def unavailableResponse : ErrorResponse :=
  errorResponse 502 "Wispers Access server unavailable"

def TerminalState.describe : TerminalState -> String
  | removed => "the share was removed by its host node"
  | revoked => "this device's access was revoked"

def goneResponse (state : TerminalState) : ErrorResponse :=
  errorResponse 410 ("This app is no longer available on this device — " ++ state.describe ++ ".")

/-- The share a request is for, and where it goes. -/
structure Destination where
  share : ShareId
  host : String
  port : UInt16
  deriving DecidableEq

namespace Destination

def authority (dest : Destination) : String :=
  dest.host ++ ":" ++ toString dest.port.toNat

end Destination

/-- Where a forward-proxy port's requests get their share from. -/
inductive ShareSource where
  /-- The credential that a request carries, one of those of this proxy. -/
  | credential (proxy : Nat)
  | fixed (share : ShareId)
  deriving DecidableEq

structure ForwardRequest where
  uri : ProxyRequest
  /-- Its `Proxy-Authorization` headers. -/
  proxyAuthorization : List (List UInt8)

/-- Where `handle_request` stands. -/
inductive ForwardPhase where
  /-- `client.row` is to find the share's row. -/
  | finding (dest : Destination)
  /-- Its apps are to be read. -/
  | reading (dest : Destination) (row : Int)
  /-- The share lists the target. -/
  | listed (dest : Destination)
  | restoring (dest : Destination) (restore : Nat)
  /-- A FORWARD_PROXY stream is asked for, as that call of the client. -/
  | opening (dest : Destination) (call : Nat)
  /-- The host has connected the stream, which has brought these bytes already. -/
  | tunnelled (dest : Destination) (rest : List UInt8)
  /-- The target is connected to without the host. -/
  | direct (dest : Destination)
  | relayed (dest : Destination)
  | answered (resp : ErrorResponse)
  | dropped
  deriving DecidableEq

structure ForwardCall where
  source : ShareSource
  request : ForwardRequest
  phase : ForwardPhase

inductive ForwardEvent where
  | findRow (order : SerialTable.QueryOrder ShareRow)
  | readApps
  | readAppsFails
  | restoreGuestNode (order : SerialTable.QueryOrder ShareRow)
  /-- The restore has returned. -/
  | restored
  /-- The stream is there or refused; the host's answer is read off it. -/
  | openTunnel (answer : List UInt8)
  | connect (ok : Bool)
  | drop

/-!
## The ports
-/

/-- A client and its forward proxies. -/
structure ProxyPorts where
  client : Client
  /-- Those of the proxies that go by credentials. -/
  issuers : List CredentialIssuer
  requests : List ForwardCall

def ProxyPorts.start (device : Device) : ProxyPorts where
  client := Client.start device
  issuers := []
  requests := []

inductive ProxyAction where
  | client (a : ClientAction)
  | startCredentialRouted
  /-- The share's credential is asked for; its password is `secret` if it has none. -/
  | credential (proxy : Nat) (order : SerialTable.QueryOrder ShareRow) (share : ShareId)
      (secret : MintedSecret)
  | request (source : ShareSource) (req : ForwardRequest)
  | handle (i : Nat) (event : ForwardEvent)

/-- What the SDK uses to take requests apart, and to read the host's replies. -/
structure ProxyCrates where
  urls : UrlParser
  /-- `BASE64.decode`, of the text's bytes. -/
  base64 : String -> Option (List UInt8)
  decodeReply : List UInt8 -> Option ForwardProxyReply

namespace ProxyPorts

def serves (s : ProxyPorts) : ShareSource -> Bool
  | ShareSource.credential proxy => proxy < s.issuers.length
  | ShareSource.fixed _ => true

/-- The share that a request is for. -/
def share (base64 : String -> Option (List UInt8)) (s : ProxyPorts) (source : ShareSource)
    (req : ForwardRequest) : Option ShareId :=
  match source with
  | ShareSource.credential proxy =>
      (s.issuers[proxy]?).bind fun issuer =>
        issuer.matchPresentedCredentials base64 req.proxyAuthorization
  | ShareSource.fixed share => some share

/-- What becomes of a request before the store is asked. -/
def receive (base64 : String -> Option (List UInt8)) (s : ProxyPorts) (source : ShareSource)
    (req : ForwardRequest) : ForwardPhase :=
  match s.share base64 source req with
  | none => ForwardPhase.answered challenge
  | some share =>
      match target req.uri with
      | none => ForwardPhase.answered notProxyRequest
      | some (host, port) => ForwardPhase.finding ⟨share, host, port⟩

def move (s : ProxyPorts) (i : Nat) (c : ForwardCall) (phase : ForwardPhase) : ProxyPorts :=
  { s with requests := s.requests.set i { c with phase := phase } }

end ProxyPorts

/-- What a call for a stream has come to, the bytes on the stream being `bytes`. -/
def NodeAnswer.stream (bytes : List UInt8) :
    NodeAnswer -> Option (Except TransportError (List UInt8))
  | opened => some (Except.ok bytes)
  | terminal state => some (Except.error (TransportError.terminal state))
  | transient => some (Except.error TransportError.transient)
  | _ => none

section
variable (text : JsonText) (slug : Slugify) (crates : ProxyCrates)

end

end Guest
end WispersAccess
