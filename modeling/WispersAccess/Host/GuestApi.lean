import WispersAccess.Foundation.RequestLoop
import WispersAccess.Host.Config
import WispersAccess.Host.Storage

/-!
# The guest API

The routes of a CTRL stream.  Parsing requests and writing responses is the HTTP
server's; a handler sees a request, the stream's context and the state database,
to which other tasks have access between any two of its own accesses.
-/

namespace WispersAccess
namespace Host

open Foundation
open Wire (InviteSecret ActivationError ShareInfo ReverseProxyPreamble ForwardProxyPreamble
  ForwardProxyReply utf8)

/-!
## Requests and responses
-/

structure Request where
  method : String
  path : String
  /-- The SDK version in the `User-Agent`. -/
  clientVersion : Option Wire.Version
  ifNoneMatch : Option String
  /-- The body, if it can be read to its end. -/
  body : Option (List UInt8)
  deriving DecidableEq, Repr

inductive Body where
  | full (bytes : List UInt8)
  /-- The server-sent events of the share, until the guest goes away. -/
  | events
  deriving DecidableEq, Repr

structure Response where
  status : Nat
  headers : List (String × String)
  body : Body
  deriving DecidableEq, Repr

/-- How the peer's side of a stream ends. -/
inductive StreamEnd where
  | fin
  | reset
  deriving DecidableEq, Repr

structure StreamInput where
  bytes : List UInt8
  ended : StreamEnd
  deriving DecidableEq, Repr

/-- An HTTP/1 server on a stream; with an answer it learns whether the body was read. -/
abbrev HttpServer :=
  Server StreamInput Request (Response × Bool) UInt8

/-!
## What a stream's handler meets
-/

/-- The JSON of the messages a host reads and writes. -/
structure Codecs where
  activation : List UInt8 -> Option InviteSecret
  shareInfo : ShareInfo -> List UInt8
  reversePreamble : List UInt8 -> Option ReverseProxyPreamble
  forwardPreamble : List UInt8 -> Option ForwardProxyPreamble

/-- Everything outside the host's code that a handler depends on. -/
structure World where
  hashSecret : InviteSecret -> SecretHash
  codecs : Codecs
  /-- The server of a CTRL stream. -/
  http : HttpServer
  /-- The server of a REVERSE_PROXY stream, which relays a stream after a 101. -/
  upgrading : HttpServer
  /-- The number of requests the stream lives for. -/
  turns : Nat
  /-- The time of the handler's n-th access to the database. -/
  clock : Nat -> DateTime
  /-- What other tasks have left of the database at the n-th access; `none` where SQLite
  refuses. -/
  access : Nat -> StateDb -> Option StateDb
  /-- The response of an upstream to the n-th request, made for a user, and whether the
  request's body was read; no response where the upstream cannot be reached. -/
  upstream : Nat -> String -> String -> Request -> Option Response × Bool
  /-- Whether a tunnel's target can be connected to. -/
  connects : String -> Bool
  /-- What comes back through a tunnel. -/
  relayed : List UInt8
  /-- Where writing a forward-proxy reply breaks off, if it does. -/
  replyCut : Option Nat

/-- Context needed to serve an incoming stream, frozen when the stream is accepted. -/
structure StreamContext where
  config : ShareConfig
  transport : TransportKind
  deriving DecidableEq, Repr

structure Peer where
  peerId : String
  userId : Option String
  deriving DecidableEq, Repr

def Peer.isAuthorized (peer : Peer) : Bool :=
  peer.userId.isSome

/-- What the requests of a CTRL stream leave behind. -/
structure ApiState where
  db : StateDb
  accesses : Nat
  /-- A redemption answered `Activated`. -/
  activated : Bool

/-!
## The handlers
-/

def minClientVersion : Wire.Version where
  major := 0
  minor := 0
  patch := 0
  pre := []

def olderThan (version : Option Wire.Version) (minimum : Wire.Version) : Bool :=
  (version.getD ⟨0, 0, 0, []⟩).lt minimum

def clientTooOld (version : Option Wire.Version) : Bool :=
  olderThan version minClientVersion

def errorResponse (status : Nat) (msg : String) : Response where
  status := status
  headers := [("content-type", "application/json")]
  body := Body.full (utf8 ("\x7b\"error\":\"" ++ msg ++ "\"\x7d"))

def cacheHeaders (config : ShareConfig) : List (String × String) :=
  [("etag", Wire.etag config.configHash), ("cache-control", "no-cache")]

/-- A 200 with the share as JSON. -/
def shareResponse (w : World) (headers : List (String × String)) (ctx : StreamContext) :
    Response where
  status := 200
  headers := headers ++ [("content-type", "application/json")]
  body := Body.full (w.codecs.shareInfo (shareInfo ctx.config ctx.transport))

def getShare (w : World) (req : Request) (ctx : StreamContext) : Response :=
  let upToDate :=
    match req.ifNoneMatch with
    | some header => Wire.matchesIfNoneMatch ctx.config.configHash header
    | none => false
  if upToDate then
    { status := 304, headers := cacheHeaders ctx.config, body := Body.full [] }
  else shareResponse w (cacheHeaders ctx.config) ctx

def getEvents : Response where
  status := 200
  headers := [("content-type", "text/event-stream"), ("cache-control", "no-cache")]
  body := Body.events

def maxActivationBody : Nat := 1024

def refuseActivation (why : ActivationError) : Response :=
  errorResponse why.status why.asStr

/-- Redeem the secret in the body, binding the peer. -/
def postActivation (w : World) (ctx : StreamContext) (peerId : String) (req : Request)
    (s : ApiState) : Response × ApiState :=
  match req.body with
  | none => (refuseActivation ActivationError.malformed, s)
  | some body =>
      if maxActivationBody < body.length then (refuseActivation ActivationError.malformed, s)
      else
        match w.codecs.activation body with
        | none => (refuseActivation ActivationError.malformed, s)
        | some secret =>
            match w.access s.accesses s.db with
            | none =>
                (errorResponse 500 "state database error", { s with accesses := s.accesses + 1 })
            | some db =>
                match db.redeemInvite w.hashSecret secret peerId (w.clock s.accesses) with
                | (Except.ok (Redemption.activated _), db') =>
                    (shareResponse w (cacheHeaders ctx.config) ctx,
                      { db := db', accesses := s.accesses + 1, activated := true })
                | (Except.ok (Redemption.refused why), db') =>
                    (refuseActivation why, { s with db := db', accesses := s.accesses + 1 })
                | (Except.error _, db') =>
                    (errorResponse 500 "state database error",
                      { s with db := db', accesses := s.accesses + 1 })

/-- Look the guest up, and then remove the number found. -/
def deleteGuest (w : World) (peerId : String) (s : ApiState) : Response × ApiState :=
  match w.access s.accesses s.db with
  | none => (errorResponse 500 "state database error", { s with accesses := s.accesses + 1 })
  | some db =>
      match db.guestByPeer peerId with
      | none => (errorResponse 404 "no such guest", { s with db := db, accesses := s.accesses + 1 })
      | some guest =>
          match w.access (s.accesses + 1) db with
          | none =>
              (errorResponse 500 "state database error",
                { s with db := db, accesses := s.accesses + 2 })
          | some db' =>
              match db'.removeGuest guest.number with
              | (Except.error _, db'') =>
                  (errorResponse 500 "state database error",
                    { s with db := db'', accesses := s.accesses + 2 })
              | (Except.ok _, db'') =>
                  ({ status := 204, headers := [], body := Body.full [] },
                    { s with db := db'', accesses := s.accesses + 2 })

/-- Route the request to its handler. -/
def route (w : World) (ctx : StreamContext) (peer : Peer) (s : ApiState) (req : Request) :
    (Response × Bool) × ApiState :=
  if clientTooOld req.clientVersion then ((errorResponse 426 Wire.clientTooOld, false), s)
  -- Unauthorised peers are only allowed to activate.
  else if ¬ (peer.isAuthorized = true ∨ req.path = Wire.activationPath) then
    ((errorResponse 403 "not-activated", false), s)
  else if req.method = "GET" ∧ req.path = Wire.sharePath then
    ((getShare w req ctx, false), s)
  else if req.method = "GET" ∧ req.path = Wire.eventsPath then ((getEvents, false), s)
  else if req.method = "POST" ∧ req.path = Wire.activationPath then
    let answer := postActivation w ctx peer.peerId req s
    ((answer.1, true), answer.2)
  else if req.method = "DELETE" ∧ req.path = Wire.guestPath then
    let answer := deleteGuest w peer.peerId s
    ((answer.1, false), answer.2)
  else if req.path ∈ [Wire.sharePath, Wire.eventsPath, Wire.activationPath, Wire.guestPath] then
    ((errorResponse 405 "method not allowed", false), s)
  else ((errorResponse 404 "no such route", false), s)

/-- Serve one CTRL stream, from the byte after its type. -/
def serveApi (w : World) (ctx : StreamContext) (peer : Peer) (db : StateDb)
    (input : StreamInput) : Served UInt8 ApiState :=
  w.http.run (route w ctx peer) w.turns (w.http.start input)
    { db := db, accesses := 0, activated := false }

end Host
end WispersAccess
