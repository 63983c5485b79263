import WispersAccess.Foundation.OnceMap
import WispersAccess.Guest.Device

/-!
# Guest nodes

What a client does with the shares of its device while it runs.  The first use of
a share restores its guest node, which is kept in a map from then on; a guest node
opens streams to the host and checks its connection; leaving a share takes its
node out of the map.  All these calls run at the same time, beside the joins and
leaves of the device.  A terminal answer of the host is kept in the guest node
that got it and in the store.

A call moves by one access to the store, to the map or to a node, or by an answer
from outside.  It can be dropped where it waits.
-/

namespace WispersAccess
namespace Guest

open Foundation

/-!
## Nodes
-/

/-- What `transports::restore` reads off a row: whose secrets to load, and the host. -/
structure HostColumns where
  share : ShareId
  transport : String
  irohEndpointId : Option String
  wispersConnectBackend : Option String
  deriving DecidableEq, Repr

def ShareRow.hostColumns (r : ShareRow) : HostColumns where
  share := r.shareId
  transport := r.transport
  irohEndpointId := r.irohEndpointId
  wispersConnectBackend := r.wispersConnectBackend

structure GuestNode where
  label : String
  row : Int
  /-- What its transport was restored from. -/
  host : HostColumns
  /-- Set once the transport reports a terminal failure. -/
  dead : Option TerminalState
  /-- The connection check that holds the gate. -/
  probeGate : Option Nat
  /-- Whether a stream was ever opened. -/
  lastUsed : Bool
  deriving DecidableEq, Repr

def GuestNode.new (label : String) (row : Int) (host : HostColumns) : GuestNode where
  label := label
  row := row
  host := host
  dead := none
  probeGate := none
  lastUsed := false

/-- The gate is given back by the call that holds it. -/
def GuestNode.leaveGate (node : GuestNode) (call : Nat) : GuestNode :=
  { node with probeGate := if node.probeGate = some call then none else node.probeGate }

/-!
## Calls
-/

/-- What is found for a share. -/
inductive Lookup where
  | live (node : Nat)
  | dead (state : TerminalState)
  | unknown
  deriving DecidableEq, Repr

/-- Where `restore_guest_node` stands, once it has found a row. -/
inductive RestorePhase where
  | found
  /-- No terminal state is stored. -/
  | alive
  | named (share : ShareId)
  /-- It waits for the cell of its share to be filled, or to be free. -/
  | waiting (share : ShareId) (cell : Nat)
  | initialising (share : ShareId) (cell : Nat)
  | labelled (share : ShareId) (cell : Nat) (label : String)
  /-- The transport is being restored. -/
  | restoring (share : ShareId) (cell : Nat) (label : String) (host : HostColumns)
  /-- The transport was turned away for good, which is to be stored. -/
  | rejected (state : TerminalState)
  | stored (state : TerminalState)
  /-- Nothing where it returns an error. -/
  | returned (result : Option Lookup)
  deriving DecidableEq, Repr

structure RestoreCall where
  row : Int
  phase : RestorePhase
  deriving DecidableEq, Repr

inductive RestoreEvent where
  | readTerminalState
  | readShareId
  | takeEntry
  | enterCell
  | readNames
  | readHost
  | answer (transport : Except TransportError Unit)
  | writeTerminalState
  | storeFails
  | readShare
  | drop

/-- What a guest node is asked for. -/
inductive NodeTask where
  | openReverseProxyStream (appId : String)
  | openForwardProxyStream (host : String) (port : UInt16)
  | refresh
  | checkConnection
  deriving DecidableEq, Repr

inductive NodeAnswer where
  | opened
  | terminal (state : TerminalState)
  | transient
  /-- A check returns nothing. -/
  | checked
  | dropped
  deriving DecidableEq, Repr

inductive NodePhase where
  /-- It waits for the gate. -/
  | gated
  | probing
  /-- `open_stream_ungated` is to look whether the node is dead. -/
  | ready
  | opening
  /-- A terminal answer came, which is to be recorded. -/
  | learned (state : TerminalState)
  | marked (state : TerminalState)
  | stored (state : TerminalState)
  | returned (answer : NodeAnswer)
  deriving DecidableEq, Repr

structure NodeCall where
  node : Nat
  task : NodeTask
  phase : NodePhase
  deriving DecidableEq, Repr

inductive ConnectionCheck where
  | noConnection
  | alive
  | dead
  deriving DecidableEq, Repr

inductive NodeEvent where
  | passGate
  /-- The probe answers; the node is asked whether it was used recently if that matters. -/
  | probed (check : Except TransportError ConnectionCheck) (recentlyUsed : Bool)
  | readDead
  | answer (stream : Except TransportError Unit)
  | markDead
  | writeTerminalState
  | storeFails
  | readShare
  | drop

/-- Where `leave` stands, once it has found a row. -/
inductive LeavePhase where
  | found
  /-- The entry is removed, and its node is to be closed. -/
  | removed (cell : Option Nat)
  | closing (node : Nat)
  | closed
  /-- The transport says goodbye and the row goes, as that call of the device. -/
  | goodbye (call : Nat)
  | returned (ok : Bool)
  deriving DecidableEq, Repr

structure LeaveCall where
  share : ShareId
  row : Int
  phase : LeavePhase
  deriving DecidableEq, Repr

/-!
## The client
-/

structure Client where
  device : Device
  guestNodes : OnceMap ShareId Nat
  /-- Every guest node ever made. -/
  nodes : List GuestNode
  restores : List RestoreCall
  calls : List NodeCall
  leaves : List LeaveCall

/-- A client that starts on what the device has stored. -/
def Client.start (device : Device) : Client where
  device := { device with db := device.db.prepare, calls := [] }
  guestNodes := OnceMap.empty
  nodes := []
  restores := []
  calls := []
  leaves := []

inductive ClientAction where
  /-- A step of the joins, leaves and refreshes of the device. -/
  | device (a : DeviceAction)
  | restoreGuestNode (order : SerialTable.QueryOrder ShareRow) (key : String)
  | restore (i : Nat) (event : RestoreEvent)
  | call (node : Nat) (task : NodeTask)
  | node (i : Nat) (event : NodeEvent)
  | leave (order : SerialTable.QueryOrder ShareRow) (share : ShareId)
  | leaving (i : Nat)

namespace Client

def db (s : Client) : DB :=
  s.device.db

def writeTerminalState (s : Client) (row : Int) (state : TerminalState) : Client :=
  { s with device := { s.device with db := s.db.writeTerminalState row state.asStr } }

def moveRestore (s : Client) (i : Nat) (c : RestoreCall) (phase : RestorePhase) : Client :=
  { s with restores := s.restores.set i { c with phase := phase } }

def moveCall (s : Client) (i : Nat) (c : NodeCall) (phase : NodePhase) : Client :=
  { s with calls := s.calls.set i { c with phase := phase } }

def setNode (s : Client) (n : Nat) (node : GuestNode) : Client :=
  { s with nodes := s.nodes.set n node }

def moveLeave (s : Client) (i : Nat) (c : LeaveCall) (phase : LeavePhase) : Client :=
  { s with leaves := s.leaves.set i { c with phase := phase } }

end Client

/-- The cell that a restore fills. -/
def RestorePhase.holds : RestorePhase -> Option Nat
  | initialising _ cell => some cell
  | labelled _ cell _ => some cell
  | restoring _ cell _ _ => some cell
  | _ => none

/-- The share id that a restore has read. -/
def RestorePhase.share : RestorePhase -> Option ShareId
  | named share => some share
  | waiting share _ => some share
  | initialising share _ => some share
  | labelled share _ _ => some share
  | restoring share _ _ _ => some share
  | _ => none

/-- The permit is given back. -/
def RestorePhase.giveBack (phase : RestorePhase) (m : OnceMap ShareId Nat) : OnceMap ShareId Nat :=
  match phase.holds with
  | some cell => m.release cell
  | none => m

/-- A restore ends without filling its cell. -/
def Client.endRestore (s : Client) (i : Nat) (c : RestoreCall) (phase : RestorePhase) : Client :=
  { s.moveRestore i c phase with guestNodes := c.phase.giveBack s.guestNodes }

/-- What a call returns: a check nothing, whatever its node answers. -/
def NodeTask.returns (task : NodeTask) (answer : NodeAnswer) : NodePhase :=
  match task with
  | checkConnection => NodePhase.returned NodeAnswer.checked
  | _ => NodePhase.returned answer

/-- A call that returns gives the gate back, if it has it. -/
def Client.endCall (s : Client) (i : Nat) (c : NodeCall) (node : GuestNode) (phase : NodePhase) :
    Client :=
  (s.moveCall i c phase).setNode c.node (node.leaveGate i)

section
variable (text : JsonText) (slug : Slugify)

def restoreEvent (s : Client) (i : Nat) (c : RestoreCall) : RestoreEvent -> Option Client
  | RestoreEvent.readTerminalState =>
      match c.phase with
      | RestorePhase.found =>
          match s.db.readTerminalState c.row with
          | none => some (s.endRestore i c (RestorePhase.returned none))
          | some column =>
              match column.bind TerminalState.parse with
              | some state =>
                  some (s.endRestore i c (RestorePhase.returned (some (Lookup.dead state))))
              | none => some (s.moveRestore i c RestorePhase.alive)
      | _ => none
  | RestoreEvent.readShareId =>
      match c.phase with
      | RestorePhase.alive =>
          match s.db.readShareId c.row with
          | none => some (s.endRestore i c (RestorePhase.returned none))
          | some share => some (s.moveRestore i c (RestorePhase.named share))
      | _ => none
  | RestoreEvent.takeEntry =>
      match c.phase with
      | RestorePhase.named share =>
          some { s.moveRestore i c
              (RestorePhase.waiting share (s.guestNodes.entryOrDefault share).2) with
            guestNodes := (s.guestNodes.entryOrDefault share).1 }
      | _ => none
  | RestoreEvent.enterCell =>
      match c.phase with
      | RestorePhase.waiting share cell =>
          match s.guestNodes.value cell with
          | some node =>
              some (s.endRestore i c (RestorePhase.returned (some (Lookup.live node))))
          | none =>
              (s.guestNodes.acquire cell i).map fun m =>
                { s.moveRestore i c (RestorePhase.initialising share cell) with guestNodes := m }
      | _ => none
  | RestoreEvent.readNames =>
      match c.phase with
      | RestorePhase.initialising share cell =>
          match s.db.readNames c.row with
          | none => some (s.endRestore i c (RestorePhase.returned none))
          | some names => some (s.moveRestore i c (RestorePhase.labelled share cell names.2.2))
      | _ => none
  | RestoreEvent.readHost =>
      match c.phase with
      | RestorePhase.labelled share cell label =>
          match s.db.row c.row with
          | none => some (s.endRestore i c (RestorePhase.returned none))
          | some r =>
              some (s.moveRestore i c (RestorePhase.restoring share cell label r.hostColumns))
      | _ => none
  | RestoreEvent.answer transport =>
      match c.phase with
      | RestorePhase.restoring _ cell label host =>
          match transport with
          | Except.ok _ =>
              some { s.moveRestore i c
                  (RestorePhase.returned (some (Lookup.live s.nodes.length))) with
                guestNodes := s.guestNodes.fill cell s.nodes.length
                nodes := s.nodes ++ [GuestNode.new label c.row host] }
          | Except.error (TransportError.terminal state) =>
              some (s.endRestore i c (RestorePhase.rejected state))
          | Except.error TransportError.transient =>
              some (s.endRestore i c (RestorePhase.returned none))
      | _ => none
  | RestoreEvent.writeTerminalState =>
      match c.phase with
      | RestorePhase.rejected state =>
          some ((s.moveRestore i c (RestorePhase.stored state)).writeTerminalState c.row state)
      | _ => none
  | RestoreEvent.storeFails =>
      match c.phase with
      | RestorePhase.rejected _ => some (s.endRestore i c (RestorePhase.returned none))
      | _ => none
  | RestoreEvent.readShare =>
      match c.phase with
      | RestorePhase.stored state =>
          match s.db.readShare text c.row with
          | none => some (s.endRestore i c (RestorePhase.returned none))
          | some _ => some (s.endRestore i c (RestorePhase.returned (some (Lookup.dead state))))
      | _ => none
  | RestoreEvent.drop =>
      match c.phase with
      | RestorePhase.waiting _ _ => some (s.endRestore i c (RestorePhase.returned none))
      | RestorePhase.restoring _ _ _ _ => some (s.endRestore i c (RestorePhase.returned none))
      | _ => none

/-- A check without a live connection reconnects if the share was in use. -/
def afterProbe (s : Client) (i : Nat) (c : NodeCall) (node : GuestNode) (recentlyUsed : Bool) :
    Option Client :=
  if recentlyUsed then
    if node.lastUsed then some (s.moveCall i c NodePhase.ready) else none
  else some (s.endCall i c node (c.task.returns NodeAnswer.checked))

def nodeEvent (s : Client) (i : Nat) (c : NodeCall) (node : GuestNode) : NodeEvent -> Option Client
  | NodeEvent.passGate =>
      match c.phase, node.probeGate with
      | NodePhase.gated, none =>
          match c.task with
          | NodeTask.checkConnection =>
              some ((s.moveCall i c NodePhase.probing).setNode c.node
                { node with probeGate := some i })
          | _ => some (s.moveCall i c NodePhase.ready)
      | _, _ => none
  | NodeEvent.probed check recentlyUsed =>
      match c.phase with
      | NodePhase.probing =>
          match check with
          | Except.ok ConnectionCheck.alive =>
              some (s.endCall i c node (c.task.returns NodeAnswer.checked))
          | Except.ok ConnectionCheck.noConnection => afterProbe s i c node recentlyUsed
          | Except.ok ConnectionCheck.dead => afterProbe s i c node recentlyUsed
          | Except.error (TransportError.terminal state) =>
              some (s.moveCall i c (NodePhase.learned state))
          | Except.error TransportError.transient => afterProbe s i c node recentlyUsed
      | _ => none
  | NodeEvent.readDead =>
      match c.phase with
      | NodePhase.ready =>
          match node.dead with
          | some state => some (s.endCall i c node (c.task.returns (NodeAnswer.terminal state)))
          | none => some (s.moveCall i c NodePhase.opening)
      | _ => none
  | NodeEvent.answer stream =>
      match c.phase with
      | NodePhase.opening =>
          match stream with
          | Except.ok _ =>
              some (s.endCall i c { node with lastUsed := true } (c.task.returns NodeAnswer.opened))
          | Except.error (TransportError.terminal state) =>
              some (s.moveCall i c (NodePhase.learned state))
          | Except.error TransportError.transient =>
              some (s.endCall i c node (c.task.returns NodeAnswer.transient))
      | _ => none
  | NodeEvent.markDead =>
      match c.phase with
      | NodePhase.learned state =>
          some ((s.moveCall i c (NodePhase.marked state)).setNode c.node
            { node with dead := some state })
      | _ => none
  | NodeEvent.writeTerminalState =>
      match c.phase with
      | NodePhase.marked state =>
          some ((s.moveCall i c (NodePhase.stored state)).writeTerminalState node.row state)
      | _ => none
  | NodeEvent.storeFails =>
      match c.phase with
      | NodePhase.marked state =>
          some (s.endCall i c node (c.task.returns (NodeAnswer.terminal state)))
      | _ => none
  | NodeEvent.readShare =>
      match c.phase with
      | NodePhase.stored state =>
          some (s.endCall i c node (c.task.returns (NodeAnswer.terminal state)))
      | _ => none
  | NodeEvent.drop =>
      match c.phase with
      | NodePhase.gated => some (s.endCall i c node (NodePhase.returned NodeAnswer.dropped))
      | NodePhase.probing => some (s.endCall i c node (NodePhase.returned NodeAnswer.dropped))
      | NodePhase.opening => some (s.endCall i c node (NodePhase.returned NodeAnswer.dropped))
      | _ => none

def leaveEvent (s : Client) (i : Nat) (c : LeaveCall) : Option Client :=
  match c.phase with
  | LeavePhase.found =>
      some { s.moveLeave i c (LeavePhase.removed (s.guestNodes.entry c.share)) with
        guestNodes := s.guestNodes.remove c.share }
  | LeavePhase.removed cell =>
      match cell.bind s.guestNodes.value with
      | some node => some (s.moveLeave i c (LeavePhase.closing node))
      | none => some (s.moveLeave i c LeavePhase.closed)
  | LeavePhase.closing _ => some (s.moveLeave i c LeavePhase.closed)
  | LeavePhase.closed =>
      match s.db.readTransportKind c.row with
      | none => some (s.moveLeave i c (LeavePhase.returned false))
      | some transport =>
          some { s.moveLeave i c (LeavePhase.goodbye s.device.calls.length) with
            device := s.device.begin s.db c.row (Phase.leaving transport false) }
  | LeavePhase.goodbye call =>
      match s.device.calls[call]? with
      | some { phase := Phase.returned, .. } => some (s.moveLeave i c (LeavePhase.returned true))
      | _ => none
  | LeavePhase.returned _ => none

/-- What the device does on its own.  Its leaves begin as leaves of the client, and terminal
states are written by the client's calls. -/
def DeviceAction.isOwn : DeviceAction -> Bool
  | joinIroh _ _ => true
  | joinWispersConnect _ _ _ => true
  | leave _ _ => false
  | call _ _ => true
  | refresh (StoreOp.writeTerminalState _ _) => false
  | refresh _ => true
  | restart => false

def clientStep (s : Client) : ClientAction -> Option Client
  | ClientAction.device a =>
      if a.isOwn then
        (deviceStep text slug s.device a).map fun device => { s with device := device }
      else none
  | ClientAction.restoreGuestNode order key =>
      match s.db.findRow order key with
      | none => some s
      | some found => some { s with restores := s.restores ++ [⟨found.1, RestorePhase.found⟩] }
  | ClientAction.restore i event =>
      (s.restores[i]?).bind fun c => restoreEvent text s i c event
  | ClientAction.call node task =>
      if node < s.nodes.length then
        some { s with calls := s.calls ++ [⟨node, task, NodePhase.gated⟩] }
      else none
  | ClientAction.node i event =>
      (s.calls[i]?).bind fun c =>
        (s.nodes[c.node]?).bind fun node => nodeEvent s i c node event
  | ClientAction.leave order share =>
      match s.db.findRow order share.text with
      | none => some s
      | some found =>
          some { s with leaves := s.leaves ++ [⟨share, found.1, LeavePhase.found⟩] }
  | ClientAction.leaving i =>
      (s.leaves[i]?).bind fun c => leaveEvent s i c

end

end Guest
end WispersAccess
