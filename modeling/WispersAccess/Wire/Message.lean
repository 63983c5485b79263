import WispersAccess.Foundation.Framing
import WispersAccess.Wire.Contract

/-!
# Framed messages

The preambles and the forward-proxy reply travel as length-prefixed JSON.  The
JSON of a message is the business of its codec; the frame around it is not.
-/

namespace WispersAccess
namespace Wire

open Foundation

/-- The UTF-8 bytes of a text. -/
def utf8 (s : String) : List UInt8 :=
  s.toUTF8.data.toList

/-- Upper bound on one framed message. -/
def maxMessageLen : Nat := 64 * 1024

/-- What is written for the JSON of a message. -/
def writeMessage (json : List UInt8) : List UInt8 :=
  frame json

/-- Read one message off the stream; the second part is what stays unread. -/
def readMessage {M : Type} (decode : List UInt8 -> Option M) (bytes : List UInt8) :
    Except FrameError M × List UInt8 :=
  match readFrame maxMessageLen bytes with
  | Except.error (FrameError.tooLong n) => (Except.error (FrameError.tooLong n), bytes.drop 4)
  | Except.error e => (Except.error e, [])
  | Except.ok (payload, rest) =>
      match decode payload with
      | none => (Except.error FrameError.decode, rest)
      | some m => (Except.ok m, rest)

theorem readMessage_writeMessage {M : Type} {decode : List UInt8 -> Option M}
    {json : List UInt8} {m : M} (hdecode : decode json = some m)
    (hlength : json.length ≤ maxMessageLen) (rest : List UInt8) :
    readMessage decode (writeMessage json ++ rest) = (Except.ok m, rest) := by
  have hread : readFrame maxMessageLen (frame json ++ rest) = Except.ok (json, rest) := by
    apply readFrame_frame rest hlength
    unfold maxMessageLen at hlength
    omega
  unfold readMessage writeMessage
  rw [hread]
  simp [hdecode]

def ForwardProxyError.asStr : ForwardProxyError -> String
  | notAllowed => "not-allowed"
  | unreachable => "unreachable"
  | unknown => "unknown"

/-- The JSON of a reply; an absent error is left out. -/
def ForwardProxyReply.toJson (reply : ForwardProxyReply) : List UInt8 :=
  match reply.error with
  | none => utf8 "\x7b\x7d"
  | some e => utf8 ("\x7b\"error\":\"" ++ e.asStr ++ "\"\x7d")

end Wire
end WispersAccess
