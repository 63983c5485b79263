import WispersAccess.Wire.Message

/-!
# Tunnels on the guest's side

A guest node opens a FORWARD_PROXY stream and reads the host's answer off it.
The tunnel is open only if the answer has no error.
-/

namespace WispersAccess
namespace Guest

open Foundation
open Wire (ForwardProxyReply ForwardProxyError readMessage writeMessage)

/-- Why a share is permanently unusable. -/
inductive TerminalState where
  /-- The share was deleted on the host. -/
  | removed
  | revoked
  deriving DecidableEq, Repr

inductive TransportError where
  | terminal (state : TerminalState)
  /-- An outage or a broken connection. -/
  | transient
  deriving DecidableEq, Repr

/-- Why a FORWARD_PROXY stream was not connected. -/
inductive TunnelRefusal where
  | gone (state : TerminalState)
  | notAllowed
  | unreachable
  | unavailable
  deriving DecidableEq, Repr

section
variable (decodeReply : List UInt8 -> Option ForwardProxyReply)

/-- What comes of opening a stream, which yields the bytes of the host's answer; a tunnel
carries what follows its reply. -/
def openTunnel (stream : Except TransportError (List UInt8)) :
    Except TunnelRefusal (List UInt8) :=
  match stream with
  | Except.error (TransportError.terminal state) => Except.error (TunnelRefusal.gone state)
  | Except.error TransportError.transient => Except.error TunnelRefusal.unavailable
  | Except.ok answer =>
      match readMessage decodeReply answer with
      | (Except.error _, _) => Except.error TunnelRefusal.unavailable
      | (Except.ok reply, rest) =>
          match reply.error with
          | none => Except.ok rest
          | some ForwardProxyError.notAllowed => Except.error TunnelRefusal.notAllowed
          | some ForwardProxyError.unreachable => Except.error TunnelRefusal.unreachable
          | some ForwardProxyError.unknown => Except.error TunnelRefusal.unavailable

end

variable {decodeReply : List UInt8 -> Option ForwardProxyReply}

end Guest
end WispersAccess
