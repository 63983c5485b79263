import WispersAccess.Guest.HopHeaders
import WispersAccess.Guest.ProxyRequests

/-!
# Requests on the reverse-proxy ports

The ports that browsers find shared apps on.  A request is for the app that its
host names, or for the one that its port is fixed to.  It has to carry the port's
cookie, if the port has one; then the share's guest node is restored and asked for
a stream, which the request goes down with what is not the app's taken out of it.
A browser that is not paired yet comes to the proxy's own host.
-/

namespace WispersAccess
namespace Guest

open Foundation
open Wire (utf8)

/-!
## Ports
-/

/-- Authenticates requests to a proxy port. -/
structure Authenticator where
  cookie : RequiredCookie
  /-- What issues the cookie to browsers, in pairing mode. -/
  issuer : Option CookieIssuer
  issued : forall i, issuer = some i -> i.requiredCookie = cookie

namespace Authenticator

def forCookie (cookie : RequiredCookie) : Authenticator where
  cookie := cookie
  issuer := none
  issued := nofun

def forPairing (issuer : CookieIssuer) : Authenticator where
  cookie := issuer.requiredCookie
  issuer := some issuer
  issued := by
    intro i h
    cases h
    rfl

def admits (auth : Authenticator) (headers : HeaderMap) : Bool :=
  auth.cookie.isPresentedIn (headers.getAll "cookie")

end Authenticator

/-- Where a listener's requests get their route from. -/
inductive RouteSource where
  | hostHeader
  /-- Every request goes to this one app. -/
  | fixed (share : ShareId) (app : String)
  deriving DecidableEq

structure AppPort where
  routeSource : RouteSource
  authenticator : Option Authenticator

/-!
## Requests and answers
-/

namespace RequestUri

def path (uri : RequestUri) : String :=
  let target := (uri.pathAndQuery.getD "").toList
  String.ofList ((splitOnce '?' target).elim target Prod.fst)

def query (uri : RequestUri) : Option String :=
  (splitOnce '?' (uri.pathAndQuery.getD "").toList).map fun p => String.ofList p.2

end RequestUri

def HttpRequest.extractHost (req : HttpRequest) : Option String :=
  req.uri.authority.or ((req.headers.get "host").bind headerText)

/-- What the browser gets. -/
inductive AppAnswer where
  /-- From the proxy's own host, or for want of the cookie. -/
  | own (answer : PairAnswer)
  | error (resp : ErrorResponse)
  /-- From the app, through the host. -/
  | app (resp : HttpResponse)

/-- A request to the proxy's own host. -/
def AppPort.answerOwnHost (port : AppPort) (now : Nat) (req : HttpRequest) (host : String) :
    PairAnswer × AppPort :=
  match port.authenticator.bind Authenticator.issuer with
  | some issuer =>
      let answer := Guest.answerOwnHost issuer now
        { host := host, path := req.uri.path, query := req.uri.query }
        (req.headers.getAll "cookie")
      (answer.1, { port with authenticator := some (Authenticator.forPairing answer.2) })
  | none =>
      (PairAnswer.error 404
        ("apps are served at http://<app>.<share>." ++ proxyDomain ++ ":<port>"), port)

/-- A request without the port's cookie. -/
def Authenticator.refusal (auth : Authenticator) : AppAnswer :=
  match auth.issuer with
  | some _ => AppAnswer.own PairAnswer.notPairedPage
  | none => AppAnswer.error (errorResponse 403 "forbidden")

def unknownHost (host : String) : ErrorResponse :=
  errorResponse 404 ("unknown host " ++ host ++ ": apps are served at http://<app>.<share>." ++
    proxyDomain ++ ":<port>")

def unknownShareNamed (share : String) : ErrorResponse :=
  errorResponse 404 ("unknown share '" ++ share ++ "'")

/-- The share and the app that a request is for, if it is not for the proxy itself. -/
def RouteSource.route (source : RouteSource) (req : HttpRequest) : Option Route :=
  match source with
  | fixed share app => some (Route.app share.text app)
  | hostHeader => req.extractHost.bind parseHost

/-- A request's headers without the client's cookies, where the port demands one. -/
def scrubbed (cookie : Option RequiredCookie) (headers : HeaderMap) : HeaderMap :=
  match cookie with
  | some cookie => scrub cookie headers
  | none => headers

/-!
## The ports' requests
-/

/-- Where `forward` stands. -/
inductive AppPhase where
  /-- `client.restore_guest_node` is to find the share. -/
  | admitted (share app : String)
  | restoring (share app : String) (restore : Nat)
  /-- A REVERSE_PROXY stream is asked for, as that call of the client. -/
  | opening (app : String) (call : Nat)
  /-- The HTTP connection over the stream is to begin. -/
  | connected (call : Nat)
  | sent (call : Nat)
  /-- The browser's connection is relayed, after the app's 101. -/
  | relayed (resp : HttpResponse)
  | answered (answer : AppAnswer)
  | dropped

structure AppCall where
  source : RouteSource
  /-- The cookie that the port demands. -/
  cookie : Option RequiredCookie
  request : HttpRequest
  phase : AppPhase

/-- What of the request's headers goes on. -/
def AppCall.headers (c : AppCall) : HeaderMap :=
  scrubbed c.cookie c.request.headers

inductive AppEvent where
  | restoreGuestNode (order : SerialTable.QueryOrder ShareRow)
  /-- The restore has returned. -/
  | restored
  /-- The stream is there or refused, and its preamble is written or is not. -/
  | opened (written : Bool)
  | handshakeFails
  | sendRequest
  | sendFails
  | respond (resp : HttpResponse)
  | drop

/-- A request that went down a stream. -/
structure StreamRequest where
  /-- The request of the browser. -/
  request : Nat
  /-- The call of the client that opened the stream. -/
  call : Nat
  headers : HeaderMap

structure AppPorts where
  client : Client
  ports : List AppPort
  requests : List AppCall
  /-- What went down the streams so far. -/
  sent : List StreamRequest

def AppPorts.start (device : Device) : AppPorts where
  client := Client.start device
  ports := []
  requests := []
  sent := []

inductive AppAction where
  | client (a : ClientAction)
  | listen (port : AppPort)
  | request (port : Nat) (now : Nat) (req : HttpRequest)
  | handle (i : Nat) (event : AppEvent)

/-- Only the user's own browser gets past here. -/
def AppPort.route (port : AppPort) (req : HttpRequest) (share app : String) : AppPhase :=
  match port.authenticator with
  | none => AppPhase.admitted share app
  | some auth =>
      if auth.admits req.headers then AppPhase.admitted share app
      else AppPhase.answered auth.refusal

/-- What becomes of a request before the store is asked. -/
def AppPort.receive (port : AppPort) (now : Nat) (req : HttpRequest) : AppPhase × AppPort :=
  match port.routeSource with
  | RouteSource.fixed share app => (port.route req share.text app, port)
  | RouteSource.hostHeader =>
      match req.extractHost with
      | none =>
          (AppPhase.answered (AppAnswer.error (errorResponse 400 "missing host header")), port)
      | some host =>
          match parseHost host with
          | some (Route.app share app) => (port.route req share app, port)
          | some Route.proxy =>
              let answer := port.answerOwnHost now req host
              (AppPhase.answered (AppAnswer.own answer.1), answer.2)
          | none => (AppPhase.answered (AppAnswer.error (unknownHost host)), port)

/-- The header that the host sets on errors it generated itself. -/
def errorHeader : String := "x-wispers-access-error"

/-- The host node no longer has the app. -/
def HttpResponse.saysAppNotFound (resp : HttpResponse) : Bool :=
  resp.status = 404 && (resp.headers.get errorHeader).any fun v => v = utf8 "app-not-found"

namespace AppPorts

def move (s : AppPorts) (i : Nat) (c : AppCall) (phase : AppPhase) : AppPorts :=
  { s with requests := s.requests.set i { c with phase := phase } }

def fail (s : AppPorts) (i : Nat) (c : AppCall) (resp : ErrorResponse) : AppPorts :=
  s.move i c (AppPhase.answered (AppAnswer.error resp))

/-- The response goes on to the browser; where both sides want it, the connection is relayed. -/
def deliver (s : AppPorts) (i : Nat) (c : AppCall) (resp : HttpResponse) : AppPorts :=
  let back := rewriteResponse stripHopByHopHeaders resp
  if resp.status = 101 && isProtocolUpgradeRequest c.headers then
    s.move i c (AppPhase.relayed back)
  else s.move i c (AppPhase.answered (AppAnswer.app back))

end AppPorts

section
variable (text : JsonText) (slug : Slugify)

def appEvent (s : AppPorts) (i : Nat) (c : AppCall) : AppEvent -> Option AppPorts
  | AppEvent.restoreGuestNode order =>
      match c.phase with
      | AppPhase.admitted share app =>
          match s.client.db.findRow order share with
          | none => some (s.fail i c (unknownShareNamed share))
          | some _ =>
              (clientStep text slug s.client
                (ClientAction.restoreGuestNode order share)).map fun client =>
                  { s.move i c (AppPhase.restoring share app s.client.restores.length) with client }
      | _ => none
  | AppEvent.restored =>
      match c.phase with
      | AppPhase.restoring share app restore =>
          match s.client.restores[restore]? with
          | some ⟨_, RestorePhase.returned (some (Lookup.live node))⟩ =>
              (clientStep text slug s.client
                (ClientAction.call node (NodeTask.openReverseProxyStream app))).map fun client =>
                  { s.move i c (AppPhase.opening app s.client.calls.length) with client }
          | some ⟨_, RestorePhase.returned (some (Lookup.dead state))⟩ =>
              some (s.fail i c (goneResponse state))
          | some ⟨_, RestorePhase.returned (some Lookup.unknown)⟩ =>
              some (s.fail i c (unknownShareNamed share))
          | some ⟨_, RestorePhase.returned none⟩ => some (s.fail i c unavailableResponse)
          | _ => none
      | _ => none
  | AppEvent.opened written =>
      match c.phase with
      | AppPhase.opening _ call =>
          match s.client.calls[call]? with
          | some ⟨_, _, NodePhase.returned NodeAnswer.opened⟩ =>
              if written then some (s.move i c (AppPhase.connected call))
              else some (s.fail i c unavailableResponse)
          | some ⟨_, _, NodePhase.returned (NodeAnswer.terminal state)⟩ =>
              some (s.fail i c (goneResponse state))
          | some ⟨_, _, NodePhase.returned NodeAnswer.transient⟩ =>
              some (s.fail i c unavailableResponse)
          | _ => none
      | _ => none
  | AppEvent.handshakeFails =>
      match c.phase with
      | AppPhase.connected _ => some (s.fail i c unavailableResponse)
      | _ => none
  | AppEvent.sendRequest =>
      match c.phase with
      | AppPhase.connected call =>
          some { s.move i c (AppPhase.sent call) with
            sent := s.sent ++ [⟨i, call, rewriteHeaders c.headers⟩] }
      | _ => none
  | AppEvent.sendFails =>
      match c.phase with
      | AppPhase.sent _ => some (s.fail i c unavailableResponse)
      | _ => none
  | AppEvent.respond resp =>
      match c.phase with
      | AppPhase.sent call =>
          if resp.saysAppNotFound then
            -- the list of apps is stale: it is refreshed beside everything else
            match s.client.calls[call]? with
            | some d =>
                (clientStep text slug s.client (ClientAction.call d.node NodeTask.refresh)).map
                  fun client => { s.deliver i c resp with client }
            | none => none
          else some (s.deliver i c resp)
      | _ => none
  | AppEvent.drop =>
      match c.phase with
      | AppPhase.restoring _ _ _ => some (s.move i c AppPhase.dropped)
      | AppPhase.opening _ _ => some (s.move i c AppPhase.dropped)
      | AppPhase.connected _ => some (s.move i c AppPhase.dropped)
      | AppPhase.sent _ => some (s.move i c AppPhase.dropped)
      | _ => none

def appStep (s : AppPorts) : AppAction -> Option AppPorts
  | AppAction.client a =>
      (clientStep text slug s.client a).map fun client => { s with client }
  | AppAction.listen port => some { s with ports := s.ports ++ [port] }
  | AppAction.request k now req =>
      (s.ports[k]?).map fun port =>
        let received := port.receive now req
        { s with
          ports := s.ports.set k received.2
          requests := s.requests ++
            [⟨port.routeSource, port.authenticator.map Authenticator.cookie, req, received.1⟩] }
  | AppAction.handle i event =>
      (s.requests[i]?).bind fun c => appEvent text slug s i c event

end

end Guest
end WispersAccess
