import WispersAccess.Foundation.ActionSystem
import WispersAccess.Foundation.OnceMap
import WispersAccess.Guest.Storage

/-!
# Ports of the per-share proxy

Each share has a port of its own, which whoever asks for it first binds: the
calls of `share_port` find a cell for the share in the map, and one of them fills
it with the bound port.  `release` takes the cell out of the map and closes the
port that is in it, and the proxy closes all ports in its map when it goes.
-/

namespace WispersAccess
namespace Guest

open Foundation

/-!
## The system
-/

/-- A `BoundPort`: its accept loops run, until they are aborted. -/
structure ServedPort where
  share : ShareId
  port : Nat
  serving : Bool
  deriving DecidableEq, Repr

inductive PortPhase where
  | started
  | waiting (cell : Nat)
  /-- The call has the cell's permit, and looks for the share's row. -/
  | looking (cell : Nat)
  | reading (cell : Nat)
  | binding (cell : Nat) (remembered : Option Nat)
  | bound (cell : Nat) (port : Nat)
  /-- The port is served, but not in the cell yet. -/
  | filling (cell : Nat) (bound : Nat)
  | returned (port : Option Nat)
  deriving DecidableEq, Repr

def PortPhase.isReturned : PortPhase -> Bool
  | returned _ => true
  | _ => false

structure SharePortCall where
  share : ShareId
  phase : PortPhase
  deriving DecidableEq, Repr

inductive ReleasePhase where
  | started
  /-- The cell, if there was one, is taken out of the map. -/
  | removed (cell : Option Nat)
  | returned
  deriving DecidableEq, Repr

structure ReleaseCall where
  share : ShareId
  phase : ReleasePhase
  deriving DecidableEq, Repr

/-- The cell that the release has taken out of the map. -/
def ReleaseCall.taken (release : ReleaseCall) : Option Nat :=
  match release.phase with
  | ReleasePhase.removed cell => cell
  | _ => none

structure SharePorts where
  /-- The shares' rows, and the ports remembered in them. -/
  rows : ShareId -> Option (Option Nat)
  boundPorts : OnceMap ShareId Nat
  /-- Every port ever served. -/
  ports : List ServedPort
  calls : List SharePortCall
  releases : List ReleaseCall
  dropped : Bool

inductive PortBinding where
  /-- The remembered port is free, or becomes so in time. -/
  | again
  /-- Another port is bound and remembered. -/
  | fresh (port : Nat)
  | fails
  deriving DecidableEq, Repr

inductive PortEvent where
  | takeCell
  | foundBound
  | acquire
  | findRow
  /-- The remembered port is read, unless the store fails. -/
  | readPort (fails : Bool)
  | bind (binding : PortBinding)
  | serve
  | fill
  /-- The caller loses interest. -/
  | cancel
  deriving DecidableEq, Repr

inductive SharePortAction where
  | addRow (share : ShareId)
  | deleteRow (share : ShareId)
  /-- A port is remembered by a bind that nobody waits for any more. -/
  | remember (share : ShareId) (port : Nat)
  | sharePort (share : ShareId)
  | call (i : Nat) (event : PortEvent)
  | release (share : ShareId)
  | remove (r : Nat)
  /-- A release looks into the cell that it has removed. -/
  | close (r : Nat)
  | dropProxy
  deriving DecidableEq, Repr

namespace SharePorts

def start (rows : ShareId -> Option (Option Nat)) : SharePorts where
  rows := rows
  boundPorts := OnceMap.empty
  ports := []
  calls := []
  releases := []
  dropped := false

/-- The port in the share's cell. -/
def boundPort (s : SharePorts) (share : ShareId) : Option Nat :=
  (s.boundPorts.entry share).bind s.boundPorts.value

/-- `write_forward_proxy_port`, which changes nothing if the row is gone. -/
def writePort (s : SharePorts) (share : ShareId) (port : Nat) : SharePorts :=
  match s.rows share with
  | none => s
  | some _ => { s with rows := Function.update s.rows share (some (some port)) }

/-- Nothing is served on the port. -/
def isFree (s : SharePorts) (port : Nat) : Bool :=
  s.ports.all fun served => !(served.serving && served.port == port)

/-- `BoundPort::release`: abort the port's accept loops. -/
def closePort (s : SharePorts) (bound : Nat) : SharePorts :=
  { s with ports := s.ports.modify bound fun served => { served with serving := false } }

def goes (s : SharePorts) (i : Nat) (call : SharePortCall) (phase : PortPhase) : SharePorts :=
  { s with calls := s.calls.set i { call with phase := phase } }

/-- The call ends without a port, and gives its permit back. -/
def givesUp (s : SharePorts) (i : Nat) (call : SharePortCall) (cell : Nat) : SharePorts :=
  ({ s with boundPorts := s.boundPorts.release cell } : SharePorts).goes i call
    (PortPhase.returned none)

/-- `share_port`, step by step. -/
def portEvent (s : SharePorts) (i : Nat) (call : SharePortCall) : PortEvent -> Option SharePorts
  | PortEvent.takeCell =>
      match call.phase with
      | PortPhase.started =>
          let taken := s.boundPorts.entryOrDefault call.share
          some (({ s with boundPorts := taken.1 } : SharePorts).goes i call
            (PortPhase.waiting taken.2))
      | _ => none
  | PortEvent.foundBound =>
      match call.phase with
      | PortPhase.waiting cell =>
          (s.boundPorts.value cell).bind fun bound =>
            (s.ports[bound]?).map fun served =>
              s.goes i call (PortPhase.returned (some served.port))
      | _ => none
  | PortEvent.acquire =>
      match call.phase with
      | PortPhase.waiting cell =>
          (s.boundPorts.acquire cell i).map fun cells =>
            ({ s with boundPorts := cells } : SharePorts).goes i call (PortPhase.looking cell)
      | _ => none
  | PortEvent.findRow =>
      match call.phase with
      | PortPhase.looking cell =>
          match s.rows call.share with
          | none => some (s.givesUp i call cell)
          | some _ => some (s.goes i call (PortPhase.reading cell))
      | _ => none
  | PortEvent.readPort fails =>
      match call.phase with
      | PortPhase.reading cell =>
          match fails, s.rows call.share with
          | false, some remembered => some (s.goes i call (PortPhase.binding cell remembered))
          | _, _ => some (s.givesUp i call cell)
      | _ => none
  | PortEvent.bind binding =>
      match call.phase, binding with
      | PortPhase.binding cell (some port), PortBinding.again =>
          if s.isFree port then some (s.goes i call (PortPhase.bound cell port)) else none
      | PortPhase.binding cell _, PortBinding.fresh port =>
          if s.isFree port then
            some ((s.writePort call.share port).goes i call (PortPhase.bound cell port))
          else none
      | PortPhase.binding cell _, PortBinding.fails => some (s.givesUp i call cell)
      | _, _ => none
  | PortEvent.serve =>
      match call.phase with
      | PortPhase.bound cell port =>
          some (({ s with
            ports := s.ports ++ [{ share := call.share, port := port, serving := true }]
          } : SharePorts).goes i call (PortPhase.filling cell s.ports.length))
      | _ => none
  | PortEvent.fill =>
      match call.phase with
      | PortPhase.filling cell bound =>
          (s.ports[bound]?).map fun served =>
            ({ s with boundPorts := s.boundPorts.fill cell bound } : SharePorts).goes i call
              (PortPhase.returned (some served.port))
      | _ => none
  | PortEvent.cancel =>
      match call.phase with
      | PortPhase.started => some (s.goes i call (PortPhase.returned none))
      | PortPhase.waiting _ => some (s.goes i call (PortPhase.returned none))
      | PortPhase.reading cell => some (s.givesUp i call cell)
      | PortPhase.binding cell _ => some (s.givesUp i call cell)
      | PortPhase.bound cell _ => some (s.givesUp i call cell)
      | _ => none

/-- Nobody uses the proxy. -/
def idle (s : SharePorts) : Bool :=
  s.calls.all (fun call => call.phase.isReturned) &&
    s.releases.all fun release => release.phase == ReleasePhase.returned

/-- `Drop`: close the port in each cell of the map. -/
def closeAll (s : SharePorts) : SharePorts :=
  { s with
    ports := s.ports.mapIdx fun bound served =>
      if s.boundPort served.share = some bound then { served with serving := false } else served
    dropped := true }

end SharePorts

def sharePortStep (s : SharePorts) : SharePortAction -> Option SharePorts
  | SharePortAction.addRow share => some { s with rows := Function.update s.rows share (some none) }
  | SharePortAction.deleteRow share => some { s with rows := Function.update s.rows share none }
  | SharePortAction.remember share port => some (s.writePort share port)
  | SharePortAction.sharePort share =>
      if s.dropped then none
      else some { s with calls := s.calls ++ [{ share := share, phase := PortPhase.started }] }
  | SharePortAction.call i event => (s.calls[i]?).bind fun call => s.portEvent i call event
  | SharePortAction.release share =>
      if s.dropped then none
      else some { s with
        releases := s.releases ++ [{ share := share, phase := ReleasePhase.started }] }
  | SharePortAction.remove r =>
      match s.releases[r]? with
      | some ⟨share, ReleasePhase.started⟩ =>
          some { s with
            boundPorts := s.boundPorts.remove share
            releases := s.releases.set r
              { share := share, phase := ReleasePhase.removed (s.boundPorts.entry share) } }
      | _ => none
  | SharePortAction.close r =>
      match s.releases[r]? with
      | some ⟨share, ReleasePhase.removed cell⟩ =>
          let returned :=
            { s with releases := s.releases.set r { share, phase := ReleasePhase.returned } }
          match cell.bind s.boundPorts.value with
          | some bound => some (returned.closePort bound)
          | none => some returned
      | _ => none
  | SharePortAction.dropProxy => if s.idle && !s.dropped then some s.closeAll else none

/-!
## What a step does
-/

/-- The cell that a call has taken. -/
def PortPhase.cell : PortPhase -> Option Nat
  | waiting cell => some cell
  | looking cell => some cell
  | reading cell => some cell
  | binding cell _ => some cell
  | bound cell _ => some cell
  | filling cell _ => some cell
  | _ => none

/-- The cell whose permit a call has. -/
def PortPhase.permit : PortPhase -> Option Nat
  | looking cell => some cell
  | reading cell => some cell
  | binding cell _ => some cell
  | bound cell _ => some cell
  | filling cell _ => some cell
  | _ => none

/-- The port that a call serves and is about to put into its cell. -/
def PortPhase.serves : PortPhase -> Option (Nat × Nat)
  | filling cell n => some (cell, n)
  | _ => none

/-- Everything that a step of a call can do. -/
inductive SharePortEffect (s : SharePorts) (i : Nat) (share : ShareId) :
    PortPhase -> SharePorts -> PortPhase -> Prop where
  | took {cells : OnceMap ShareId Nat} {cell : Nat}
      (hentry : OnceMap.EntryStep s.boundPorts share cells cell) :
      SharePortEffect s i share PortPhase.started { s with boundPorts := cells }
        (PortPhase.waiting cell)
  | acquired {cell : Nat} {cells : OnceMap ShareId Nat}
      (hacquire : s.boundPorts.acquire cell i = some cells) :
      SharePortEffect s i share (PortPhase.waiting cell) { s with boundPorts := cells }
        (PortPhase.looking cell)
  | went {phase next : PortPhase} {cell : Nat} (rows : ShareId -> Option (Option Nat))
      (hphase : phase.permit = some cell) (hnext : next.permit = some cell)
      (hserves : phase.serves = none) :
      SharePortEffect s i share phase { s with rows := rows } next
  | gaveUp {phase : PortPhase} {cell : Nat} (hphase : phase.permit = some cell)
      (hserves : phase.serves = none) :
      SharePortEffect s i share phase { s with boundPorts := s.boundPorts.release cell }
        (PortPhase.returned none)
  | ended {phase : PortPhase} {port : Option Nat} (hphase : phase.permit = none) :
      SharePortEffect s i share phase s (PortPhase.returned port)
  | served {cell port : Nat} :
      SharePortEffect s i share (PortPhase.bound cell port)
        { s with ports := s.ports ++ [{ share := share, port := port, serving := true }] }
        (PortPhase.filling cell s.ports.length)
  | filled {cell bound : Nat} {port : Option Nat} :
      SharePortEffect s i share (PortPhase.filling cell bound)
        { s with boundPorts := s.boundPorts.fill cell bound } (PortPhase.returned port)

theorem writePort_rows (s : SharePorts) (share : ShareId) (port : Nat) :
    exists rows, s.writePort share port = { s with rows := rows } := by
  unfold SharePorts.writePort
  split
  · exact ⟨s.rows, rfl⟩
  · exact ⟨_, rfl⟩

theorem portEvent_effect {s t : SharePorts} {i : Nat} {call : SharePortCall} {event : PortEvent}
    (h : s.portEvent i call event = some t) :
    exists mid next, SharePortEffect s i call.share call.phase mid next ∧
      t = mid.goes i call next := by
  rcases call with ⟨share, phase⟩
  cases event with
  | takeCell =>
      simp only [SharePorts.portEvent] at h
      split at h
      · cases h
        exact ⟨_, _, SharePortEffect.took (OnceMap.entryOrDefault_step s.boundPorts share), rfl⟩
      · cases h
  | foundBound =>
      simp only [SharePorts.portEvent] at h
      split at h
      · rcases Option.bind_eq_some_iff.mp h with ⟨bound, -, hport⟩
        rcases Option.map_eq_some_iff.mp hport with ⟨served, -, rfl⟩
        exact ⟨_, _, SharePortEffect.ended rfl, rfl⟩
      · cases h
  | acquire =>
      simp only [SharePorts.portEvent] at h
      split at h
      · rcases Option.map_eq_some_iff.mp h with ⟨cells, hacquire, rfl⟩
        exact ⟨_, _, SharePortEffect.acquired hacquire, rfl⟩
      · cases h
  | findRow =>
      simp only [SharePorts.portEvent] at h
      split at h
      · rename_i cell
        split at h
        · cases h
          exact ⟨_, _, SharePortEffect.gaveUp rfl rfl, rfl⟩
        · cases h
          exact ⟨_, _, SharePortEffect.went s.rows rfl rfl rfl, rfl⟩
      · cases h
  | readPort fails =>
      simp only [SharePorts.portEvent] at h
      split at h
      · split at h
        · cases h
          exact ⟨_, _, SharePortEffect.went s.rows rfl rfl rfl, rfl⟩
        · cases h
          exact ⟨_, _, SharePortEffect.gaveUp rfl rfl, rfl⟩
      · cases h
  | bind binding =>
      simp only [SharePorts.portEvent] at h
      split at h
      · split at h
        · cases h
          exact ⟨_, _, SharePortEffect.went s.rows rfl rfl rfl, rfl⟩
        · cases h
      · rename_i port
        split at h
        · cases h
          rcases writePort_rows s share port with ⟨rows, hrows⟩
          rw [hrows]
          exact ⟨_, _, SharePortEffect.went rows rfl rfl rfl, rfl⟩
        · cases h
      · cases h
        exact ⟨_, _, SharePortEffect.gaveUp rfl rfl, rfl⟩
      · cases h
  | serve =>
      simp only [SharePorts.portEvent] at h
      split at h
      · cases h
        exact ⟨_, _, SharePortEffect.served, rfl⟩
      · cases h
  | fill =>
      simp only [SharePorts.portEvent] at h
      split at h
      · rcases Option.map_eq_some_iff.mp h with ⟨served, -, rfl⟩
        exact ⟨_, _, SharePortEffect.filled, rfl⟩
      · cases h
  | cancel =>
      simp only [SharePorts.portEvent] at h
      split at h
      · cases h
        exact ⟨_, _, SharePortEffect.ended rfl, rfl⟩
      · cases h
        exact ⟨_, _, SharePortEffect.ended rfl, rfl⟩
      · cases h
        exact ⟨_, _, SharePortEffect.gaveUp rfl rfl, rfl⟩
      · cases h
        exact ⟨_, _, SharePortEffect.gaveUp rfl rfl, rfl⟩
      · cases h
        exact ⟨_, _, SharePortEffect.gaveUp rfl rfl, rfl⟩
      · cases h

end Guest
end WispersAccess
