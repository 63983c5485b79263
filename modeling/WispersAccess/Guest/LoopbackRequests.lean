import WispersAccess.Guest.HopHeaders
import WispersAccess.Guest.LoopbackForwarders
import WispersAccess.Guest.ProxyRequests

/-!
# Requests on the forwarded loopback ports

Webviews that skip their proxy for loopback names find the ports of the share's
`http` loopback origins forwarded on the device.  Other apps on the device find
them too, so that a request has to carry the forwarding cookie, or to come from a
page of the share.  It goes down a FORWARD_PROXY stream of the port's share, to the
port's own target, in origin form and without the cookie.
-/

namespace WispersAccess
namespace Guest

open Foundation
open Host (eqIgnoreAsciiCase)
open Wire (AppProxyMode ForwardProxyReply Origin SharedApp UrlParser utf8)

/-!
## Ports
-/

/-- `loopback_forwarding::COOKIE_NAME`. -/
def loopbackCookieName : String := "__wispers_loopback_auth"

/-- Every origin of the share's forward-proxy apps (except those that don't parse). -/
def shareOrigins (urls : UrlParser) (apps : List SharedApp) : List Origin :=
  let listed := (apps.filter fun app => app.mode = AppProxyMode.forwardProxy).flatMap
    fun app => app.proxiedOrigins
  listed.filterMap fun origin => (Origin.parse urls origin).toOption

/-- One forwarded port of a share: what its requests need checked and where they go. -/
structure ForwardedPort where
  share : ShareId
  port : UInt16
  /-- The hosts that the share's loopback origins on this port name. -/
  hosts : List String
  cookie : RequiredCookie
  /-- All the share's origins, loopback or not, which let a request in without the cookie. -/
  shareOrigins : List Origin
  hosts_ne : hosts ≠ []

/-- What the SDK uses to take requests apart, and to read the host's replies. -/
structure LoopbackCrates where
  urls : UrlParser
  /-- The host of a text that is an `Authority`. -/
  authorityHost : String -> Option String
  decodeReply : List UInt8 -> Option ForwardProxyReply

/-- Whether the request's `Origin` header names one of the share's origins. -/
def isFromTheShare (urls : UrlParser) (headers : HeaderMap) (origins : List Origin) : Bool :=
  (((headers.get "origin").bind headerText).bind fun v => (Origin.parse urls v).toOption).any
    fun origin => origins.contains origin

/-- The host that the `Host` header names. -/
def namedHost (authorityHost : String -> Option String) (headers : HeaderMap) : Option String :=
  ((headers.get "host").bind headerText).bind authorityHost

/-- Which of the port's hosts the request is for: the one that its `Host` header names, else the
first. -/
def ForwardedPort.tunnelHost (port : ForwardedPort) (authorityHost : String -> Option String)
    (headers : HeaderMap) : String :=
  let named := namedHost authorityHost headers
  (named.bind fun host => port.hosts.find? fun h => eqIgnoreAsciiCase h host).getD
    (port.hosts.head port.hosts_ne)

/-- Only the share's own webviews get past here. -/
def ForwardedPort.admits (port : ForwardedPort) (urls : UrlParser) (headers : HeaderMap) : Bool :=
  port.cookie.isPresentedIn (headers.getAll "cookie") ||
    isFromTheShare urls headers port.shareOrigins

/-- The app itself never sees the cookie. -/
def ForwardedPort.scrub (port : ForwardedPort) (headers : HeaderMap) : HeaderMap :=
  stripCookies headers fun name => name = port.cookie.name

/-- The headers that `forward` sends down the stream. -/
def forwardHeaders (headers : HeaderMap) : HeaderMap :=
  let upgrade := isProtocolUpgradeRequest headers
  let stripped := stripHopByHopHeaders (headers.remove "proxy-connection") upgrade
  if upgrade then stripped else stripped.insert "connection" (utf8 "close")

/-- The request's target in origin form. -/
def RequestUri.originForm (uri : RequestUri) : String :=
  uri.pathAndQuery.getD "/"

/-!
## Requests
-/

/-- Where `handle_request` and `forward` stand. -/
inductive LoopbackPhase where
  /-- `client.restore_guest_node` is to find the share. -/
  | admitted
  | restoring (restore : Nat)
  /-- A FORWARD_PROXY stream to the host is asked for, as that call of the client. -/
  | opening (host : String) (call : Nat)
  /-- The HTTP connection over the stream is to begin. -/
  | connected (call : Nat)
  | sent (call : Nat)
  /-- The browser's connection is relayed, after the app's 101. -/
  | relayed (resp : HttpResponse)
  | answered (answer : Except ErrorResponse HttpResponse)
  | dropped

structure LoopbackCall where
  /-- The port it came on. -/
  port : ForwardedPort
  request : HttpRequest
  phase : LoopbackPhase

/-- A request that went down a stream. -/
structure LoopbackSent where
  /-- The request of the browser. -/
  request : Nat
  /-- The call of the client that opened the stream. -/
  call : Nat
  target : String
  headers : HeaderMap

/-- A forwarder that binds its ports, one by one; its apps are read once. -/
structure Forwarding where
  share : ShareId
  cookie : RequiredCookie
  row : Int
  apps : Option (List SharedApp)

structure ForwardedPorts where
  client : Client
  forwardings : List Forwarding
  ports : List ForwardedPort
  requests : List LoopbackCall
  /-- What went down the streams so far. -/
  sent : List LoopbackSent

def ForwardedPorts.start (device : Device) : ForwardedPorts where
  client := Client.start device
  forwardings := []
  ports := []
  requests := []
  sent := []

/-- The port of a forwarder, if the apps list a loopback origin on it. -/
def Forwarding.forwarded (forwarding : Forwarding) (urls : UrlParser) (apps : List SharedApp)
    (port : UInt16) : Option ForwardedPort :=
  match (loopbackPorts urls apps).find? fun entry => entry.1 = port with
  | some (port, first :: rest) =>
      some {
        share := forwarding.share
        port := port
        hosts := first :: rest
        cookie := forwarding.cookie
        shareOrigins := shareOrigins urls apps
        hosts_ne := List.cons_ne_nil _ _ }
  | _ => none

/-- What becomes of a request before the store is asked. -/
def ForwardedPort.receive (port : ForwardedPort) (urls : UrlParser) (req : HttpRequest) :
    LoopbackPhase :=
  if port.admits urls req.headers then LoopbackPhase.admitted
  else LoopbackPhase.answered (Except.error (errorResponse 403 "forbidden"))

namespace ForwardedPorts

def move (s : ForwardedPorts) (i : Nat) (c : LoopbackCall) (phase : LoopbackPhase) :
    ForwardedPorts :=
  { s with requests := s.requests.set i { c with phase := phase } }

def fail (s : ForwardedPorts) (i : Nat) (c : LoopbackCall) (resp : ErrorResponse) :
    ForwardedPorts :=
  s.move i c (LoopbackPhase.answered (Except.error resp))

/-- The response goes on to the browser; where both sides want it, the connection is relayed. -/
def deliver (s : ForwardedPorts) (i : Nat) (c : LoopbackCall) (resp : HttpResponse) :
    ForwardedPorts :=
  let back := rewriteResponse stripHopByHopHeaders resp
  if resp.status = 101 && isProtocolUpgradeRequest c.request.headers then
    s.move i c (LoopbackPhase.relayed back)
  else s.move i c (LoopbackPhase.answered (Except.ok back))

end ForwardedPorts

section
variable (text : JsonText) (slug : Slugify) (crates : LoopbackCrates)

end

end Guest
end WispersAccess
