import WispersAccess.Guest.RefreshNotices

/-!
# Connectivity checks

The desktop app asks a share's host node whether anything has changed, and takes
the answer for a sign of life.  It is told what has changed, and has to make out
from that whether the share is online.
-/

namespace WispersAccess
namespace Desktop

open Foundation
open Guest

/-!
## The client
-/

inductive SdkError where
  | noSuchShare
  /-- The store failed. -/
  | storage
  /-- The host node, or the hub in front of it, could not be reached or refused. -/
  | hostNode
  deriving DecidableEq, Repr

/-- A share in the client: the store, its guest node, if it has one by now, and what the
observer has been told. -/
structure ClientShare where
  db : DB
  /-- Whether the node has been found dead. -/
  node : Option (Option TerminalState)
  told : List Share

/-- What the client finds for a share. -/
inductive RestoredNode where
  | live (node : WatchedNode)
  | dead
  | unknown

section
variable (text : JsonText) (id : Int)

/-- `Client::restore_guest_node`. -/
def restoreGuestNode (restoring : Except TransportError Unit) (s : ClientShare) :
    Except SdkError RestoredNode × ClientShare :=
  match s.db.readTerminalState id with
  | none => (Except.ok RestoredNode.unknown, s)
  | some stored =>
      match stored.bind TerminalState.parse, s.node, restoring with
      | some _, _, _ => (Except.ok RestoredNode.dead, s)
      | none, some dead, _ => (Except.ok (RestoredNode.live ⟨s.db, dead, s.told⟩), s)
      | none, none, Except.ok () => (Except.ok (RestoredNode.live ⟨s.db, none, s.told⟩), s)
      | none, none, Except.error (TransportError.terminal state) =>
          let written := { s with db := s.db.writeTerminalState id state.asStr }
          match written.db.readShare text id with
          | none => (Except.error SdkError.storage, written)
          | some share => (Except.ok RestoredNode.dead, { written with told := s.told ++ [share] })
      | none, none, Except.error TransportError.transient => (Except.error SdkError.hostNode, s)

end

/-!
## The check
-/

inductive Availability where
  | online
  | offline
  | unknown
  | described (state : ShareState)
  deriving DecidableEq, Repr

def describeState : ShareState -> String
  | ShareState.live => "live"
  | ShareState.outdated => "outdated"
  | ShareState.removed => "removed"
  | ShareState.revoked => "revoked"

def Availability.asStr : Availability -> String
  | online => "online"
  | offline => "offline"
  | unknown => "unknown"
  | described state => describeState state

structure ShareStatus where
  availability : Availability
  lastConnectedMs : Option Nat

section
variable (text : JsonText) (id : Int)

end

/-!
## What is said and what is stored
-/

section
variable {text : JsonText} {id : Int} {s : CheckedShare} {now : Nat} {outside : Outside}

variable {before after : Share}

end

/-!
## The check
-/

end Desktop
end WispersAccess
