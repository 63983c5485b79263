import WispersAccess.Foundation.Slots
import WispersAccess.Guest.ForwardProxy
import WispersAccess.Host.Protocol

/-!
# Whom the host dials

The host takes streams from its guests while its config is reloaded.  Each
stream is handled under the config that was served when it was accepted, so
every connection opened for it is one that config lists.
-/

namespace WispersAccess
namespace Host

open Foundation
open Wire (FirstByte StreamType Plane ReverseProxyPreamble ForwardProxyPreamble
  ForwardProxyError ForwardProxyReply readMessage writeMessage utf8)

/-!
## What a config lists
-/

/-- A stream that reached the host, and all that comes with it. -/
structure GuestStream where
  world : World
  peer : Peer
  input : StreamInput
  /-- What the handler was entered with, once the stream is accepted. -/
  entered : Option (StreamContext × StateDb)
  /-- The connections opened for the stream so far. -/
  dialled : List String

def GuestStream.handled (stream : GuestStream) (ctx : StreamContext) (db : StateDb) : Handled :=
  handle stream.world ctx stream.peer db stream.input

structure Gateway where
  /-- The config as last loaded. -/
  config : ShareConfig
  transport : TransportKind
  streams : List GuestStream

def Gateway.init (config : ShareConfig) (transport : TransportKind) : Gateway where
  config := config
  transport := transport
  streams := []

/-- A config that hashes alike is not taken. -/
def Gateway.reload (s : Gateway) (fresh : ShareConfig) : Gateway :=
  if fresh.configHash ≠ s.config.configHash then { s with config := fresh } else s

def GuestStream.accept (stream : GuestStream) (ctx : StreamContext) (db : StateDb) :
    Option GuestStream :=
  match stream.entered with
  | none => some { stream with entered := some (ctx, db) }
  | some _ => none

def GuestStream.dial (stream : GuestStream) : Option GuestStream :=
  match stream.entered with
  | none => none
  | some (ctx, db) =>
      match (stream.handled ctx db).dials[stream.dialled.length]? with
      | none => none
      | some addr => some { stream with dialled := stream.dialled ++ [addr] }

def Gateway.onStream (s : Gateway) (sid : Nat) (f : GuestStream -> Option GuestStream) :
    Option Gateway :=
  match s.streams[sid]? with
  | none => none
  | some stream => (f stream).map fun stream' => { s with streams := s.streams.set sid stream' }

/-- What was dialled for a stream, its handler dials. -/
def Gateway.Sound (s : Gateway) : Prop :=
  forall (sid : Nat) (stream : GuestStream), s.streams[sid]? = some stream ->
    forall addr, addr ∈ stream.dialled ->
      exists ctx db, stream.entered = some (ctx, db) ∧ addr ∈ (stream.handled ctx db).dials

end Host
end WispersAccess
