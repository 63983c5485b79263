import Mathlib.Algebra.Group.Nat.Defs
import Mathlib.Algebra.Ring.Int.Defs
import WispersAccess.Foundation.Slots
import WispersAccess.Host.Access

/-!
# Serving guests over iroh

The host as a system of tasks over the state database: one task for each
connection, which looks the peer up, lets an unknown key activate, registers the
guest's connection and accepts its streams; one handler for each stream; and the
calls of `revoke_guest`, which first mark the row and then close the registered
connections.  Each action is one access to the database or to the registry, or
one message of a peer, so a run of the system is one interleaving of the tasks.
-/

namespace WispersAccess
namespace Host

open Foundation
open Wire (InviteSecret FirstByte Plane)

/-!
## Connections
-/

/-- Where the task of a connection stands. -/
inductive ConnPhase where
  /-- `handle_incoming` has not looked the peer up yet. -/
  | accepted
  /-- An unknown key: `activate` waits for its one stream. -/
  | activating
  /-- `activate` handles the stream inline. -/
  | activatingOn (stream : Nat)
  /-- `serve_guest` was entered with this guest. -/
  | authorised (guest : GuestNode)
  /-- The visit is recorded, the connection not registered yet. -/
  | touched (guest : GuestNode)
  /-- Registered, and accepting streams. -/
  | serving (guest : GuestNode)
  | ended
  deriving DecidableEq, Repr

structure Conn where
  peerId : String
  phase : ConnPhase
  /-- Neither side has closed the connection. -/
  isOpen : Bool
  deriving DecidableEq, Repr

/-- The guest the connection is served as, resolved once and never looked up again. -/
def Conn.guest (conn : Conn) : Option GuestNode :=
  match conn.phase with
  | ConnPhase.authorised guest => some guest
  | ConnPhase.touched guest => some guest
  | ConnPhase.serving guest => some guest
  | _ => none

/-- `number as i32`, as `serve_guest` registers it. -/
def asI32 (number : Int) : Int :=
  Int.bmod number (2 ^ 32)

/-- The number the connection is registered under, while it is. -/
def Conn.registeredUnder (conn : Conn) : Option Int :=
  match conn.phase with
  | ConnPhase.serving guest => some (asI32 guest.number)
  | _ => none

/-!
## Streams
-/

/-- Where the handler of a stream stands. -/
inductive StreamPhase where
  /-- Opened by the peer, not accepted yet. -/
  | opened
  /-- `protocol::handle` was entered for a peer with this user. -/
  | handling (userId : Option String)
  /-- A CTRL stream whose requests are routed. -/
  | routing (userId : Option String)
  /-- `delete_guest` between its look-up and its removal. -/
  | removing (userId : String) (number : Int)
  /-- A data-plane stream that is served. -/
  | proxied (userId : String)
  | refused
  | finished
  deriving DecidableEq, Repr

structure Stream where
  conn : Nat
  /-- The type byte; `none` where the peer closes the stream without one. -/
  first : Option FirstByte
  phase : StreamPhase
  deriving DecidableEq, Repr

/-- The user the handler acts for. -/
def Stream.userId (stream : Stream) : Option String :=
  match stream.phase with
  | StreamPhase.handling userId => userId
  | StreamPhase.routing userId => userId
  | StreamPhase.removing userId _ => some userId
  | StreamPhase.proxied userId => some userId
  | _ => none

/-- A REVERSE_PROXY or FORWARD_PROXY stream whose proxying has begun. -/
def Stream.Served (stream : Stream) : Prop :=
  exists userId, stream.phase = StreamPhase.proxied userId

/-!
## The tasks
-/

inductive ConnAction where
  | lookUp
  | acceptActivation (sid : Nat)
  /-- No stream in time, or the connection went away before one. -/
  | giveUpActivation
  /-- The second look-up, once the activation stream was handled. -/
  | lookUpAgain
  /-- The state database refuses a look-up. -/
  | lookUpFails
  | touch (now : DateTime)
  | touchFails
  | register
  /-- The peer or the network ends the connection. -/
  | disconnect
  /-- The accept loop ends, and the connection is unregistered. -/
  | unregister
  deriving DecidableEq, Repr

/-- `close` and return. -/
def Conn.close (conn : Conn) : Conn :=
  { conn with phase := ConnPhase.ended, isOpen := false }

/-- Serve a guest that is not revoked; close the connection of a revoked one. -/
def Conn.serveUnlessRevoked (conn : Conn) (guest : GuestNode) : Conn :=
  if guest.revokedAt.isSome then conn.close
  else { conn with phase := ConnPhase.authorised guest }

/-- `handle_incoming`, `activate` and `serve_guest`, step by step. -/
def Conn.step (db : StateDb) (streams : List Stream) (c : Nat) (conn : Conn) :
    ConnAction -> Option Conn
  | ConnAction.lookUp =>
      match conn.phase with
      | ConnPhase.accepted =>
          match db.guestByPeer conn.peerId with
          | some guest => some (conn.serveUnlessRevoked guest)
          | none => some { conn with phase := ConnPhase.activating }
      | _ => none
  | ConnAction.acceptActivation sid =>
      match conn.phase, streams[sid]? with
      | ConnPhase.activating, some stream =>
          if stream.conn = c ∧ stream.phase = StreamPhase.opened then
            some { conn with phase := ConnPhase.activatingOn sid }
          else none
      | _, _ => none
  | ConnAction.giveUpActivation =>
      match conn.phase with
      | ConnPhase.activating => some conn.close
      | _ => none
  | ConnAction.lookUpAgain =>
      match conn.phase with
      | ConnPhase.activatingOn sid =>
          match (streams[sid]?).map Stream.phase with
          | some StreamPhase.refused => some conn.close
          | some StreamPhase.finished =>
              match db.guestByPeer conn.peerId with
              | some guest => some (conn.serveUnlessRevoked guest)
              | none => some conn.close
          | _ => none
      | _ => none
  | ConnAction.lookUpFails =>
      match conn.phase with
      | ConnPhase.accepted => some conn.close
      | ConnPhase.activatingOn _ => some conn.close
      | _ => none
  | ConnAction.touch _ =>
      match conn.phase with
      | ConnPhase.authorised guest => some { conn with phase := ConnPhase.touched guest }
      | _ => none
  | ConnAction.touchFails =>
      match conn.phase with
      | ConnPhase.authorised guest => some { conn with phase := ConnPhase.touched guest }
      | _ => none
  | ConnAction.register =>
      match conn.phase with
      | ConnPhase.touched guest => some { conn with phase := ConnPhase.serving guest }
      | _ => none
  | ConnAction.disconnect => some { conn with isOpen := false }
  | ConnAction.unregister =>
      match conn.phase with
      | ConnPhase.serving _ => if conn.isOpen then none else some conn.close
      | _ => none

/-- The database operation a step of a connection's task makes. -/
def ConnAction.storageOp (conn : Conn) : ConnAction -> Option StorageOp
  | ConnAction.touch now => some (StorageOp.touchGuest conn.peerId now)
  | _ => none

inductive StreamAction where
  | accept
  | dispatch
  | postActivation (secret : InviteSecret) (now : DateTime)
  /-- `delete_guest` looks the guest up. -/
  | findGuest
  /-- `delete_guest` removes the row of the number it found. -/
  | removeGuest
  /-- The removal fails on the state database. -/
  | removeFails
  | finish
  deriving DecidableEq, Repr

/-- `protocol::handle` up to the dispatch on the type byte. -/
def Stream.dispatch (stream : Stream) (userId : Option String) : StreamPhase :=
  match stream.first with
  | some (FirstByte.typed t) =>
      if t.plane = Plane.data then
        match userId with
        | none => StreamPhase.refused
        | some userId => StreamPhase.proxied userId
      else StreamPhase.routing userId
  | some (FirstByte.unknown _) => StreamPhase.finished
  | none => StreamPhase.finished

def Stream.step (db : StateDb) (conn : Conn) (sid : Nat) (stream : Stream) :
    StreamAction -> Option Stream
  | StreamAction.accept =>
      match stream.phase, conn.phase with
      | StreamPhase.opened, ConnPhase.serving guest =>
          some { stream with phase := StreamPhase.handling (some guest.userId) }
      | StreamPhase.opened, ConnPhase.activatingOn sid' =>
          if sid' = sid then some { stream with phase := StreamPhase.handling none } else none
      | _, _ => none
  | StreamAction.dispatch =>
      match stream.phase with
      | StreamPhase.handling userId => some { stream with phase := stream.dispatch userId }
      | _ => none
  | StreamAction.postActivation _ _ =>
      match stream.phase with
      | StreamPhase.routing _ => some stream
      | _ => none
  | StreamAction.findGuest =>
      match stream.phase with
      | StreamPhase.routing (some userId) =>
          match db.guestByPeer conn.peerId with
          | some guest => some { stream with phase := StreamPhase.removing userId guest.number }
          | none => some stream
      | _ => none
  | StreamAction.removeGuest =>
      match stream.phase with
      | StreamPhase.removing userId _ =>
          some { stream with phase := StreamPhase.routing (some userId) }
      | _ => none
  | StreamAction.removeFails =>
      match stream.phase with
      | StreamPhase.removing userId _ =>
          some { stream with phase := StreamPhase.routing (some userId) }
      | _ => none
  | StreamAction.finish =>
      match stream.phase with
      | StreamPhase.handling _ => some { stream with phase := StreamPhase.finished }
      | StreamPhase.routing _ => some { stream with phase := StreamPhase.finished }
      | StreamPhase.proxied _ => some { stream with phase := StreamPhase.finished }
      | _ => none

/-- The database operation a step of a stream's handler makes. -/
def StreamAction.storageOp (peerId : String) (stream : Stream) :
    StreamAction -> Option StorageOp
  | StreamAction.postActivation secret now => some (StorageOp.redeemInvite secret peerId now)
  | StreamAction.removeGuest =>
      match stream.phase with
      | StreamPhase.removing _ number => some (StorageOp.removeGuest number)
      | _ => none
  | _ => none

/-!
## The host
-/

structure HostState where
  db : StateDb
  conns : List Conn
  streams : List Stream
  /-- The numbers whose revocation is marked, and whose connections are not closed yet. -/
  revoking : List Int

def HostState.init : HostState where
  db := StateDb.fresh
  conns := []
  streams := []
  revoking := []

inductive HostAction where
  | createInvite (invite : NewInvite) (now : DateTime)
  | connect (peerId : String)
  | onConn (c : Nat) (a : ConnAction)
  | openStream (c : Nat) (first : Option FirstByte)
  | onStream (sid : Nat) (a : StreamAction)
  /-- `revoke_guest`: mark the row. -/
  | markRevoked (number : Int) (now : DateTime)
  /-- `revoke_guest`: tell the registered connections of the guest to close. -/
  | closeConnections (number : Int)
  /-- The daemon stops and starts again. -/
  | restart
  deriving DecidableEq, Repr

/-- The pass of `close_connections` over one connection. -/
def Conn.told (number : Int) (conn : Conn) : Conn :=
  if conn.registeredUnder = some number then { conn with isOpen := false } else conn

def Stream.stop (stream : Stream) : Stream :=
  { stream with phase := StreamPhase.finished }

section
variable (hashSecret : InviteSecret -> SecretHash)

def StateDb.perform (db : StateDb) : Option StorageOp -> StateDb
  | none => db
  | some op => db.apply hashSecret op

def HostState.stepConn (s : HostState) (c : Nat) (a : ConnAction) : Option HostState :=
  match s.conns[c]? with
  | none => none
  | some conn =>
      (conn.step s.db s.streams c a).map fun conn' =>
        { s with
          conns := s.conns.set c conn'
          db := s.db.perform hashSecret (a.storageOp conn) }

def HostState.stepStream (s : HostState) (sid : Nat) (a : StreamAction) : Option HostState :=
  match s.streams[sid]? with
  | none => none
  | some stream =>
      match s.conns[stream.conn]? with
      | none => none
      | some conn =>
          (stream.step s.db conn sid a).map fun stream' =>
            { s with
              streams := s.streams.set sid stream'
              db := s.db.perform hashSecret (a.storageOp conn.peerId stream) }

def hostStep (s : HostState) : HostAction -> Option HostState
  | HostAction.createInvite invite now =>
      some { s with db := s.db.perform hashSecret (some (StorageOp.createInvite invite now)) }
  | HostAction.connect peerId =>
      some { s with conns := s.conns ++ [⟨peerId, ConnPhase.accepted, true⟩] }
  | HostAction.onConn c a => s.stepConn hashSecret c a
  | HostAction.openStream c first =>
      match s.conns[c]? with
      | none => none
      | some conn =>
          if conn.isOpen then
            some { s with streams := s.streams ++ [⟨c, first, StreamPhase.opened⟩] }
          else none
  | HostAction.onStream sid a => s.stepStream hashSecret sid a
  | HostAction.markRevoked number now =>
      match (s.db.revokeGuest number now).1 with
      | Except.error _ => some s  -- the call returns the error
      | Except.ok _ =>
          some { s with
            db := s.db.perform hashSecret (some (StorageOp.revokeGuest number now))
            revoking := number :: s.revoking }
  | HostAction.closeConnections number =>
      if number ∈ s.revoking then
        some { s with
          conns := s.conns.map (Conn.told number)
          revoking := s.revoking.erase number }
      else none
  | HostAction.restart =>
      some { s with
        conns := s.conns.map Conn.close
        streams := s.streams.map Stream.stop
        revoking := [] }

/-- The database operation of an action, if it makes one. -/
def HostState.storageOp (s : HostState) : HostAction -> Option StorageOp
  | HostAction.createInvite invite now => some (StorageOp.createInvite invite now)
  | HostAction.onConn c a => (s.conns[c]?).bind fun conn => a.storageOp conn
  | HostAction.onStream sid a =>
      (s.streams[sid]?).bind fun stream =>
        (s.conns[stream.conn]?).bind fun conn => a.storageOp conn.peerId stream
  | HostAction.markRevoked number now =>
      match (s.db.revokeGuest number now).1 with
      | Except.error _ => none
      | Except.ok _ => some (StorageOp.revokeGuest number now)
  | _ => none

end

end Host
end WispersAccess
