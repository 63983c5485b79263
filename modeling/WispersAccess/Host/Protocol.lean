import WispersAccess.Host.GuestApi

/-!
# The stream dispatcher

What becomes of a stream: its type byte decides who handles it, CTRL streams go
to the guest API, REVERSE_PROXY streams to the app their preamble names and
FORWARD_PROXY streams to the origin theirs names.  A handler leaves behind what
it wrote, what it did not read and whom it dialled.
-/

namespace WispersAccess
namespace Host

open Foundation
open Wire (FirstByte StreamType Plane ReverseProxyPreamble ForwardProxyPreamble
  ForwardProxyError ForwardProxyReply readMessage writeMessage utf8)

/-- What the connection is closed with depends on it. -/
inductive StreamOutcome where
  | served
  /-- An unauthorised peer tried to open a data-plane stream. -/
  | refused
  deriving DecidableEq, Repr

inductive HandleError where
  | streamType
  | reversePreamble (e : FrameError)
  | forwardPreamble (e : FrameError)
  | forwardReply
  | http
  /-- The `expect` of the user a data-plane stream acts for. -/
  | noUser
  deriving DecidableEq, Repr

def HandleError.context : HandleError -> String
  | streamType => "reading stream type"
  | reversePreamble _ => "reading REVERSE_PROXY preamble"
  | forwardPreamble _ => "reading FORWARD_PROXY preamble"
  | forwardReply => "writing FORWARD_PROXY reply"
  | http => "HTTP/1 connection error"
  | noUser => "data plane peers are authorized"

/-- What the handler of a stream leaves behind. -/
structure Handled where
  outcome : Except HandleError StreamOutcome
  written : List UInt8
  unread : List UInt8
  /-- The addresses connections were opened to, in order. -/
  dials : List String
  /-- The target a tunnel was connected to. -/
  tunnel : Option String
  db : StateDb
  /-- A redemption answered `Activated`. -/
  activated : Bool

/-- Nothing was written and nobody dialled. -/
def Handled.silent (outcome : Except HandleError StreamOutcome) (unread : List UInt8)
    (db : StateDb) : Handled where
  outcome := outcome
  written := []
  unread := unread
  dials := []
  tunnel := none
  db := db
  activated := false

/-- The type byte of a stream, and what follows it; no byte where the stream is opened
and closed without one. -/
def readStreamType (input : StreamInput) :
    Except HandleError (Option FirstByte × List UInt8) :=
  match input.bytes with
  | first :: rest => Except.ok (some (FirstByte.ofByte first), rest)
  | [] =>
      match input.ended with
      | StreamEnd.fin => Except.ok (none, [])
      | StreamEnd.reset => Except.error HandleError.streamType

/-!
## Reverse-proxy streams
-/

/-- Resolved target of an HTTP stream. -/
inductive Target where
  | upstream (addr : String)
  /-- The stream named an app the share does not have. -/
  | unknownApp (configHash : UInt64)
  /-- The stream named an app in forward-proxy mode, which old clients do not know. -/
  | clientTooOld
  deriving DecidableEq, Repr

def appTarget (config : ShareConfig) (appId : String) : Target :=
  match (config.findApp appId).map AppConfig.mode with
  | some (AppProxyMode.reverseProxy upstream) => Target.upstream upstream
  | some (AppProxyMode.forwardProxy _ _) => Target.clientTooOld
  | none => Target.unknownApp config.configHash

def errorHeader : String := "x-wispers-access-error"

def configHashHeader : String := "x-wispers-access-config-hash"

def proxyErrorResponse (status : Nat) (headers : List (String × String)) (msg : String) :
    Response where
  status := status
  headers := ("content-type", "text/plain; charset=utf-8") :: headers
  body := Body.full (utf8 msg)

/-- Handle one request of a reverse-proxy stream; the state is what was dialled so far. -/
def handleRequest (w : World) (target : Target) (userId : String) (dials : List String)
    (req : Request) : (Response × Bool) × List String :=
  match target with
  | Target.unknownApp configHash =>
      ((proxyErrorResponse 404
        [(errorHeader, "app-not-found"), (configHashHeader, Wire.hashText configHash)]
        "app not found", false), dials)
  | Target.clientTooOld =>
      ((proxyErrorResponse 426 [(errorHeader, Wire.clientTooOld)]
        "This app needs a newer version of Wispers Access. Please update.", false), dials)
  | Target.upstream addr =>
      match w.upstream dials.length addr userId req with
      | (some response, bodyRead) => ((response, bodyRead), dials ++ [addr])
      | (none, bodyRead) =>
          ((proxyErrorResponse 502 [] "upstream unavailable", bodyRead), dials ++ [addr])

/-- Serve HTTP over a stream, forwarding every request to the target. -/
def serveReverseProxy (w : World) (target : Target) (userId : String) (db : StateDb)
    (input : StreamInput) : Handled :=
  let served := w.upgrading.run (handleRequest w target userId) w.turns
    (w.upgrading.start input) []
  { outcome :=
      if served.failed then Except.error HandleError.http else Except.ok StreamOutcome.served
    written := served.written
    unread := []
    dials := served.state
    tunnel := none
    db := db
    activated := false }

/-!
## Forward-proxy streams
-/

/-- What of a reply gets out, and whether all of it does. -/
def writeReply (w : World) (reply : ForwardProxyReply) : List UInt8 × Bool :=
  match w.replyCut with
  | none => (writeMessage reply.toJson, true)
  | some sent => ((writeMessage reply.toJson).take sent, false)

/-- Answer with an error and finish the stream. -/
def refuse (w : World) (error : ForwardProxyError) (dials : List String) (db : StateDb)
    (unread : List UInt8) : Handled :=
  let reply := writeReply w { error := some error }
  { outcome :=
      if reply.2 then Except.ok StreamOutcome.served else Except.error HandleError.forwardReply
    written := reply.1
    unread := unread
    dials := dials
    tunnel := none
    db := db
    activated := false }

def tunnelTarget (preamble : ForwardProxyPreamble) : String :=
  preamble.host ++ ":" ++ toString preamble.port.toNat

/-- Serve one FORWARD_PROXY stream, after its type byte. -/
def serveForwardProxy (w : World) (config : ShareConfig) (db : StateDb)
    (bytes : List UInt8) : Handled :=
  match readMessage w.codecs.forwardPreamble bytes with
  | (Except.error e, unread) =>
      Handled.silent (Except.error (HandleError.forwardPreamble e)) unread db
  | (Except.ok preamble, rest) =>
      let target := tunnelTarget preamble
      if config.hasProxiedOrigin preamble.host preamble.port = false then
        refuse w ForwardProxyError.notAllowed [] db rest
      else if w.connects target = false then
        refuse w ForwardProxyError.unreachable [target] db rest
      else
        let reply := writeReply w { error := none }
        if reply.2 then
          { outcome := Except.ok StreamOutcome.served
            written := reply.1 ++ w.relayed
            unread := []
            dials := [target]
            tunnel := some target
            db := db
            activated := false }
        else
          { outcome := Except.error HandleError.forwardReply
            written := reply.1
            unread := rest
            dials := [target]
            tunnel := some target
            db := db
            activated := false }

/-!
## The dispatcher
-/

def dataPlane : Option FirstByte -> Bool
  | some (FirstByte.typed t) => t.plane = Plane.data
  | some (FirstByte.unknown _) => false
  | none => false

/-- The stream goes to the handler of its type. -/
def dispatch (w : World) (ctx : StreamContext) (peer : Peer) (db : StateDb)
    (first : Option FirstByte) (rest : StreamInput) : Handled :=
  match first with
  | some (FirstByte.typed StreamType.ctrl) =>
      let served := serveApi w ctx peer db rest
      { outcome := Except.ok StreamOutcome.served
        written := served.written
        unread := []
        dials := []
        tunnel := none
        db := served.state.db
        activated := served.state.activated }
  | some (FirstByte.typed StreamType.reverseProxy) =>
      match peer.userId with
      | none => Handled.silent (Except.error HandleError.noUser) rest.bytes db
      | some userId =>
          match readMessage w.codecs.reversePreamble rest.bytes with
          | (Except.error e, unread) =>
              Handled.silent (Except.error (HandleError.reversePreamble e)) unread db
          | (Except.ok preamble, bytes) =>
              serveReverseProxy w (appTarget ctx.config preamble.appId) userId db
                { rest with bytes := bytes }
  | some (FirstByte.typed StreamType.forwardProxy) =>
      match peer.userId with
      | none => Handled.silent (Except.error HandleError.noUser) rest.bytes db
      | some _ => serveForwardProxy w ctx.config db rest.bytes
  | some (FirstByte.unknown _) =>
      Handled.silent (Except.ok StreamOutcome.served) rest.bytes db
  | none => Handled.silent (Except.ok StreamOutcome.served) rest.bytes db

/-- Handle one accepted stream. -/
def handle (w : World) (ctx : StreamContext) (peer : Peer) (db : StateDb)
    (input : StreamInput) : Handled :=
  match readStreamType input with
  | Except.error e => Handled.silent (Except.error e) [] db
  | Except.ok (first, rest) =>
      if dataPlane first = true ∧ peer.isAuthorized = false then
        Handled.silent (Except.ok StreamOutcome.refused) rest db
      else dispatch w ctx peer db first { input with bytes := rest }

theorem serveForwardProxy_outcome (w : World) (config : ShareConfig) (db : StateDb)
    (bytes : List UInt8) :
    (serveForwardProxy w config db bytes).outcome ≠ Except.error HandleError.noUser := by
  have hrefuse : forall error dials unread,
      (refuse w error dials db unread).outcome ≠ Except.error HandleError.noUser := by
    intro error dials unread
    unfold refuse
    simp only
    split <;> simp
  unfold serveForwardProxy
  split
  · simp [Handled.silent]
  · simp only
    split
    · exact hrefuse _ _ _
    · split
      · exact hrefuse _ _ _
      · split <;> simp

/-- The `expect` of a data-plane stream's user never fails. -/
theorem handle_has_user (w : World) (ctx : StreamContext) (peer : Peer) (db : StateDb)
    (input : StreamInput) :
    (handle w ctx peer db input).outcome ≠ Except.error HandleError.noUser := by
  have hdispatch : forall first rest,
      ¬ (dataPlane first = true ∧ peer.isAuthorized = false) ->
      (dispatch w ctx peer db first rest).outcome ≠ Except.error HandleError.noUser := by
    intro first rest hallowed
    unfold dispatch
    split
    · simp
    · cases huser : peer.userId with
      | none => simp [dataPlane, StreamType.plane, Peer.isAuthorized, huser] at hallowed
      | some userId =>
          simp only
          split
          · simp [Handled.silent]
          · simp only [serveReverseProxy]
            split <;> simp
    · cases huser : peer.userId with
      | none => simp [dataPlane, StreamType.plane, Peer.isAuthorized, huser] at hallowed
      | some userId => exact serveForwardProxy_outcome w ctx.config db rest.bytes
    · simp [Handled.silent]
    · simp [Handled.silent]
  unfold handle
  cases hfirst : readStreamType input with
  | error e =>
      unfold readStreamType at hfirst
      split at hfirst
      · cases hfirst
      · split at hfirst
        · cases hfirst
        · cases hfirst
          simp [Handled.silent]
  | ok result =>
      rcases result with ⟨first, rest⟩
      simp only
      split
      · simp [Handled.silent]
      · rename_i hallowed
        exact hdispatch _ _ hallowed

/-!
## A quiet world
-/

/-- A stream on which no request comes. -/
def HttpServer.quiet : HttpServer where
  State := Unit
  start := fun _ => ()
  next := fun _ => ServerStep.finished [] false

/-- A world in which no message can be read, no request comes and nobody answers. -/
def World.quiet : World where
  hashSecret := doubledSecret
  codecs :=
    { activation := fun _ => none
      shareInfo := fun _ => []
      reversePreamble := fun _ => none
      forwardPreamble := fun _ => none }
  http := HttpServer.quiet
  upgrading := HttpServer.quiet
  turns := 0
  clock := fun _ => fromSecs 0
  access := fun _ db => some db
  upstream := fun _ _ _ _ => (none, false)
  connects := fun _ => false
  relayed := []
  replyCut := none

end Host
end WispersAccess
