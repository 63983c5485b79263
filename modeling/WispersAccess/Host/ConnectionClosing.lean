import WispersAccess.Foundation.ActionSystem
import WispersAccess.Foundation.Slots
import WispersAccess.Host.Config
import WispersAccess.Wire.Contract

/-!
# Closing the guests' connections

Revoking a guest and shutting down ask connections to close and wait for them, each
call on its own.  Over iroh a closer closes the connection itself.  Over Wispers
Connect it leaves the code with the task that owns the connection, which finds it
between two streams.  Tasks and calls get their turns in any order, and the clock
may run on before any of them.
-/

namespace WispersAccess
namespace Host
namespace Closing

open Foundation
open Wire (CloseCode)

/-!
## Connections
-/

inductive ConnectionEnd where
  /-- The server closed it with this code. -/
  | closed (code : CloseCode)
  /-- Closing it with this code failed. -/
  | closeFailed (code : CloseCode)
  /-- The guest ended it, or the network. -/
  | gone
  deriving DecidableEq, Repr

/-- Where the task of a connection stands. -/
inductive ConnectionPhase where
  /-- It is not registered yet. -/
  | accepted
  /-- It is registered, and accepts streams. -/
  | serving
  /-- It has left its loop with a code. -/
  | closing (code : CloseCode)
  /-- It is done with the connection, and unregisters next. -/
  | leaving
  | unregistered
  deriving DecidableEq, Repr

structure GuestNodeConnection where
  number : Int32
  phase : ConnectionPhase
  /-- What the closer has left with the task. -/
  closeRequest : Option CloseCode
  ended : Option ConnectionEnd
  deriving DecidableEq, Repr

def GuestNodeConnection.new (number : Int32) : GuestNodeConnection where
  number := number
  phase := ConnectionPhase.accepted
  closeRequest := none
  ended := none

/-- The first end counts. -/
def GuestNodeConnection.finish (c : GuestNodeConnection) (e : ConnectionEnd) :
    GuestNodeConnection :=
  { c with ended := c.ended.or (some e) }

def GuestNodeConnection.registered (c : GuestNodeConnection) : Bool :=
  c.phase ≠ ConnectionPhase.accepted && c.phase ≠ ConnectionPhase.unregistered

/-- The closer, which is called for connections that are registered. -/
def GuestNodeConnection.close (transport : TransportKind) (c : GuestNodeConnection)
    (code : CloseCode) : GuestNodeConnection :=
  match transport with
  | TransportKind.wispersConnect => { c with closeRequest := some code }
  | TransportKind.iroh => c.finish (ConnectionEnd.closed code)

inductive ConnectionAction where
  | register
  | gone
  /-- `accept_stream` fails, or `accept_bi`. -/
  | streamFails
  /-- The task finds what the closer left. -/
  | takeRequest
  /-- `close_with_error`, which may fail. -/
  | closeWithError (ok : Bool)
  | unregister
  deriving DecidableEq, Repr

/-- A step of a connection, where the map of connections may be locked. -/
def connectionStep (locked : Bool) (c : GuestNodeConnection) :
    ConnectionAction -> Option GuestNodeConnection
  | ConnectionAction.register =>
      if c.phase = ConnectionPhase.accepted ∧ locked = false then
        some { c with phase := ConnectionPhase.serving }
      else none
  | ConnectionAction.gone => some (c.finish ConnectionEnd.gone)
  | ConnectionAction.streamFails =>
      if c.phase = ConnectionPhase.serving ∧ c.ended.isSome then
        some { c with phase := ConnectionPhase.leaving }
      else none
  | ConnectionAction.takeRequest =>
      match c.phase, c.closeRequest with
      | ConnectionPhase.serving, some code =>
          some { c with phase := ConnectionPhase.closing code }
      | _, _ => none
  | ConnectionAction.closeWithError ok =>
      match c.phase with
      | ConnectionPhase.closing code =>
          let e := if ok then ConnectionEnd.closed code else ConnectionEnd.closeFailed code
          some { c.finish e with phase := ConnectionPhase.leaving }
      | _ => none
  | ConnectionAction.unregister =>
      if c.phase = ConnectionPhase.leaving ∧ locked = false then
        some { c with phase := ConnectionPhase.unregistered }
      else none

/-!
## Calls
-/

inductive CallKind where
  | revokeGuest (number : Int)
  | shutdown
  deriving DecidableEq, Repr

def CallKind.code : CallKind -> CloseCode
  | revokeGuest _ => CloseCode.revoked
  | shutdown => CloseCode.closing

/-- Which connections a call asks to close. -/
def CallKind.which (kind : CallKind) (c : GuestNodeConnection) : Bool :=
  match kind with
  | revokeGuest number => c.number.toInt = number
  | shutdown => true

inductive CallPhase where
  /-- The transport revokes the guest first. -/
  | revoking
  /-- The transport refused to. -/
  | failed
  /-- `close_connections` waits for the lock on the map. -/
  | locking
  /-- It holds the lock; these connections are still to come. -/
  | sweeping (left : List Nat)
  /-- It polls, next at `wake`, after so many sleeps. -/
  | waiting (wake sleeps : Nat)
  /-- `close_connections` has returned. -/
  | returned (gaveUp : Bool)
  deriving DecidableEq, Repr

structure CloseCall where
  kind : CallKind
  phase : CallPhase
  /-- The connections whose closers were called. -/
  asked : List Nat
  /-- The time when the last of them was. -/
  swept : Nat
  deriving DecidableEq, Repr

def CallKind.start (kind : CallKind) : CloseCall where
  kind := kind
  phase :=
    match kind with
    | revokeGuest _ => CallPhase.revoking
    | shutdown => CallPhase.locking
  asked := []
  swept := 0

def CloseCall.locks (call : CloseCall) : Bool :=
  match call.phase with
  | CallPhase.sweeping _ => true
  | _ => false

/-- Milliseconds that a call waits at most, and how long it sleeps between two looks. -/
def closeGrace : Nat := 2000

def closePoll : Nat := 50

structure ServingHandle where
  now : Nat
  /-- Every connection that was ever accepted. -/
  connections : List GuestNodeConnection
  calls : List CloseCall

def ServingHandle.new : ServingHandle where
  now := 0
  connections := []
  calls := []

namespace ServingHandle

/-- A call holds the map for reading, so that nobody registers or unregisters. -/
def locked (s : ServingHandle) : Bool :=
  s.calls.any CloseCall.locks

/-- What the map has. -/
def ids (s : ServingHandle) : List Nat :=
  (List.range s.connections.length).filter fun i =>
    (s.connections[i]?).any GuestNodeConnection.registered

/-- How many of the connections that the call would ask are still registered. -/
def pending (s : ServingHandle) (kind : CallKind) : Nat :=
  (s.connections.filter fun c => c.registered && kind.which c).length

end ServingHandle

inductive CallAction where
  /-- The transport's `revoke_guest` returns. -/
  | revoked (ok : Bool)
  /-- The lock is there, and the map comes in this order. -/
  | lock (order : List Nat)
  /-- The next connection is asked to close, if it is to be. -/
  | visit
  | swept
  | poll
  deriving DecidableEq, Repr

inductive ClosingAction where
  | accept (number : Int32)
  | connection (i : Nat) (a : ConnectionAction)
  | start (kind : CallKind)
  | call (k : Nat) (a : CallAction)
  | tick (ms : Nat)
  deriving DecidableEq, Repr

namespace ServingHandle

def setCall (s : ServingHandle) (k : Nat) (call : CloseCall) : ServingHandle :=
  { s with calls := s.calls.set k call }

/-- The connection is asked, if the call means it. -/
def visit (transport : TransportKind) (s : ServingHandle) (k : Nat) (call : CloseCall) (i : Nat)
    (left : List Nat) : Option ServingHandle :=
  (s.connections[i]?).map fun c =>
    if call.kind.which c then
      { s with connections := s.connections.set i (c.close transport call.kind.code) }.setCall k
        { call with phase := CallPhase.sweeping left, asked := call.asked ++ [i] }
    else s.setCall k { call with phase := CallPhase.sweeping left }

def callStep (transport : TransportKind) (s : ServingHandle) (k : Nat) (call : CloseCall) :
    CallAction -> Option ServingHandle
  | CallAction.revoked ok =>
      if call.phase = CallPhase.revoking then
        some (s.setCall k
          { call with phase := if ok then CallPhase.locking else CallPhase.failed })
      else none
  | CallAction.lock order =>
      if call.phase = CallPhase.locking ∧ order.Perm s.ids then
        some (s.setCall k { call with phase := CallPhase.sweeping order })
      else none
  | CallAction.visit =>
      match call.phase with
      | CallPhase.sweeping (i :: left) => s.visit transport k call i left
      | _ => none
  | CallAction.swept =>
      if call.phase = CallPhase.sweeping [] then
        some (s.setCall k
          (if call.asked = [] then { call with phase := CallPhase.returned false, swept := s.now }
          else { call with phase := CallPhase.waiting s.now 0, swept := s.now }))
      else none
  | CallAction.poll =>
      match call.phase with
      | CallPhase.waiting wake sleeps =>
          if s.now < wake then none
          else if s.pending call.kind = 0 ∨ call.swept + closeGrace ≤ s.now then
            some (s.setCall k
              { call with phase := CallPhase.returned (decide (s.pending call.kind ≠ 0)) })
          else
            some (s.setCall k
              { call with phase := CallPhase.waiting (s.now + closePoll) (sleeps + 1) })
      | _ => none

def step (transport : TransportKind) (s : ServingHandle) :
    ClosingAction -> Option ServingHandle
  | ClosingAction.accept number =>
      some { s with connections := s.connections ++ [GuestNodeConnection.new number] }
  | ClosingAction.connection i a =>
      (s.connections[i]?).bind fun c =>
        (connectionStep s.locked c a).map fun c' =>
          { s with connections := s.connections.set i c' }
  | ClosingAction.start kind => some { s with calls := s.calls ++ [kind.start] }
  | ClosingAction.call k a =>
      (s.calls[k]?).bind fun call => s.callStep transport k call a
  | ClosingAction.tick ms => some { s with now := s.now + ms }

end ServingHandle

/-!
## What a step of a connection does
-/

namespace GuestNodeConnection

/-- The connection has ended, or its task ends it before it accepts another stream. -/
def Closes (c : GuestNodeConnection) : Prop :=
  c.ended.isSome = true ∨ (c.phase = ConnectionPhase.serving ∧ c.closeRequest.isSome = true) ∨
    exists code, c.phase = ConnectionPhase.closing code

/-- The connection ends with the code, or did, or may. -/
def Carries (c : GuestNodeConnection) (code : CloseCode) : Prop :=
  c.closeRequest = some code ∨ c.phase = ConnectionPhase.closing code ∨
    c.ended = some (ConnectionEnd.closed code)

/-- A task is done with a connection only once it has ended. -/
def Settled (c : GuestNodeConnection) : Prop :=
  c.phase = ConnectionPhase.leaving ∨ c.phase = ConnectionPhase.unregistered ->
    c.ended.isSome = true

theorem ended_finish (c : GuestNodeConnection) (e : ConnectionEnd) :
    (c.finish e).ended.isSome = true := by
  cases h : c.ended with
  | none => simp [finish, h]
  | some _ => simp [finish, h]

theorem carries_finish {c : GuestNodeConnection} {e : ConnectionEnd} {code : CloseCode}
    (h : (c.finish e).Carries code) : c.Carries code ∨ e = ConnectionEnd.closed code := by
  rcases h with hrequest | hphase | hended
  · exact Or.inl (Or.inl hrequest)
  · exact Or.inl (Or.inr (Or.inl hphase))
  · cases hold : c.ended with
    | none =>
        right
        simpa [finish, hold] using hended
    | some _ =>
        left
        right
        right
        simpa [finish, hold] using hended

end GuestNodeConnection

/-- What stays as it is about a connection. -/
structure Lasts (c c' : GuestNodeConnection) : Prop where
  number : c'.number = c.number
  closes : c.Closes -> c'.Closes
  settled : c.Settled -> c'.Settled
  begun : c.phase ≠ ConnectionPhase.accepted -> c'.phase ≠ ConnectionPhase.accepted
  out : c.phase = ConnectionPhase.unregistered -> c'.phase = ConnectionPhase.unregistered

theorem Lasts.refl (c : GuestNodeConnection) : Lasts c c :=
  ⟨rfl, id, id, id, id⟩

theorem which_congr {c c' : GuestNodeConnection} (h : c'.number = c.number) (kind : CallKind) :
    kind.which c' = kind.which c := by
  cases kind with
  | revokeGuest number =>
      unfold CallKind.which
      rw [h]
  | shutdown => rfl

theorem lasts_finish (c : GuestNodeConnection) (e : ConnectionEnd) : Lasts c (c.finish e) :=
  ⟨rfl, fun _ => Or.inl (c.ended_finish e), fun _ _ => c.ended_finish e, id, id⟩

/-- A step of its task, or the loss of the connection. -/
structure Moves (locked : Bool) (c c' : GuestNodeConnection) : Prop extends Lasts c c' where
  carries : forall code, c'.Carries code -> c.Carries code
  kept : locked = true -> c.registered = true -> c'.registered = true

section
variable {transport : TransportKind} {c : GuestNodeConnection} {code : CloseCode}

theorem lasts_close : Lasts c (c.close transport code) := by
  cases transport with
  | wispersConnect =>
      refine ⟨rfl, ?_, id, id, id⟩
      intro hcloses
      rcases hcloses with hended | ⟨hserving, -⟩ | hclosing
      · exact Or.inl hended
      · exact Or.inr (Or.inl ⟨hserving, rfl⟩)
      · exact Or.inr (Or.inr hclosing)
  | iroh => exact lasts_finish c _

theorem registered_close : (c.close transport code).registered = c.registered := by
  cases transport with
  | wispersConnect => rfl
  | iroh => rfl

theorem carries_close {code' : CloseCode} (h : (c.close transport code).Carries code') :
    c.Carries code' ∨ code' = code := by
  cases transport with
  | wispersConnect =>
      rcases h with hrequest | hphase | hended
      · cases hrequest
        exact Or.inr rfl
      · exact Or.inl (Or.inr (Or.inl hphase))
      · exact Or.inl (Or.inr (Or.inr hended))
  | iroh =>
      rcases GuestNodeConnection.carries_finish h with hold | hnew
      · exact Or.inl hold
      · cases hnew
        exact Or.inr rfl

end

/-!
## What a step does
-/

/-- A call's steps that ask no connection. -/
inductive CallMoves (s : ServingHandle) (call : CloseCall) : CallAction -> CallPhase -> Prop where
  | revoked : call.phase = CallPhase.revoking ->
      CallMoves s call (CallAction.revoked true) CallPhase.locking
  | refused : call.phase = CallPhase.revoking ->
      CallMoves s call (CallAction.revoked false) CallPhase.failed
  | locked (order : List Nat) : call.phase = CallPhase.locking -> order.Perm s.ids ->
      CallMoves s call (CallAction.lock order) (CallPhase.sweeping order)
  | skipped (i : Nat) (left : List Nat) (c : GuestNodeConnection) :
      call.phase = CallPhase.sweeping (i :: left) -> s.connections[i]? = some c ->
      call.kind.which c = false -> CallMoves s call CallAction.visit (CallPhase.sweeping left)
  | done (wake sleeps : Nat) : call.phase = CallPhase.waiting wake sleeps -> wake ≤ s.now ->
      s.pending call.kind = 0 -> CallMoves s call CallAction.poll (CallPhase.returned false)
  | gaveUp (wake sleeps : Nat) : call.phase = CallPhase.waiting wake sleeps ->
      call.swept + closeGrace ≤ s.now ->
      CallMoves s call CallAction.poll (CallPhase.returned true)
  | slept (wake sleeps : Nat) : call.phase = CallPhase.waiting wake sleeps -> wake ≤ s.now ->
      s.now < call.swept + closeGrace ->
      CallMoves s call CallAction.poll (CallPhase.waiting (s.now + closePoll) (sleeps + 1))

inductive Effect (transport : TransportKind) (s : ServingHandle) :
    ClosingAction -> ServingHandle -> Prop where
  | accepted (number : Int32) : Effect transport s (ClosingAction.accept number)
      { s with connections := s.connections ++ [GuestNodeConnection.new number] }
  | moved (i : Nat) (a : ConnectionAction) (c c' : GuestNodeConnection) :
      s.connections[i]? = some c -> Moves s.locked c c' ->
      Effect transport s (ClosingAction.connection i a)
        { s with connections := s.connections.set i c' }
  | started (kind : CallKind) : Effect transport s (ClosingAction.start kind)
      { s with calls := s.calls ++ [kind.start] }
  | called (k : Nat) (a : CallAction) (call : CloseCall) (phase : CallPhase) :
      s.calls[k]? = some call -> CallMoves s call a phase ->
      Effect transport s (ClosingAction.call k a) (s.setCall k { call with phase := phase })
  | asked (k i : Nat) (left : List Nat) (call : CloseCall) (c : GuestNodeConnection) :
      s.calls[k]? = some call -> call.phase = CallPhase.sweeping (i :: left) ->
      s.connections[i]? = some c -> call.kind.which c = true ->
      Effect transport s (ClosingAction.call k CallAction.visit)
        ({ s with connections := s.connections.set i (c.close transport call.kind.code) }.setCall k
          { call with phase := CallPhase.sweeping left, asked := call.asked ++ [i] })
  | swept (k : Nat) (call : CloseCall) (phase : CallPhase) :
      s.calls[k]? = some call -> call.phase = CallPhase.sweeping [] ->
      (call.asked = [] ∧ phase = CallPhase.returned false ∨ phase = CallPhase.waiting s.now 0) ->
      Effect transport s (ClosingAction.call k CallAction.swept)
        (s.setCall k { call with phase := phase, swept := s.now })
  | ticked (ms : Nat) : Effect transport s (ClosingAction.tick ms) { s with now := s.now + ms }

theorem callStep_effect {transport : TransportKind} {s t : ServingHandle} {k : Nat}
    {call : CloseCall} {a : CallAction} (hcall : s.calls[k]? = some call)
    (h : s.callStep transport k call a = some t) :
    Effect transport s (ClosingAction.call k a) t := by
  cases a with
  | revoked ok =>
      simp only [ServingHandle.callStep] at h
      split at h
      · rename_i hphase
        cases h
        cases ok with
        | true => exact Effect.called k _ call _ hcall (CallMoves.revoked hphase)
        | false => exact Effect.called k _ call _ hcall (CallMoves.refused hphase)
      · cases h
  | lock order =>
      simp only [ServingHandle.callStep] at h
      split at h
      · rename_i hopen
        cases h
        exact Effect.called k _ call _ hcall (CallMoves.locked order hopen.left hopen.right)
      · cases h
  | visit =>
      simp only [ServingHandle.callStep] at h
      split at h
      · rename_i i left hphase
        rcases Option.map_eq_some_iff.mp h with ⟨c, hc, hvisit⟩
        subst hvisit
        by_cases hwhich : call.kind.which c = true
        · rw [if_pos hwhich]
          exact Effect.asked k i left call c hcall hphase hc hwhich
        · rw [if_neg hwhich]
          exact Effect.called k _ call _ hcall
            (CallMoves.skipped i left c hphase hc (Bool.eq_false_iff.mpr hwhich))
      · cases h
  | swept =>
      simp only [ServingHandle.callStep] at h
      split at h
      · rename_i hphase
        cases h
        by_cases hnone : call.asked = []
        · rw [if_pos hnone]
          exact Effect.swept k call _ hcall hphase (Or.inl ⟨hnone, rfl⟩)
        · rw [if_neg hnone]
          exact Effect.swept k call _ hcall hphase (Or.inr rfl)
      · cases h
  | poll =>
      simp only [ServingHandle.callStep] at h
      split at h
      · rename_i wake sleeps hphase
        split at h
        · cases h
        · rename_i hwake
          split at h
          · rename_i hover
            cases h
            by_cases hpending : s.pending call.kind = 0
            · rw [decide_eq_false (not_not_intro hpending)]
              exact Effect.called k _ call _ hcall
                (CallMoves.done wake sleeps hphase (Nat.not_lt.mp hwake) hpending)
            · rw [decide_eq_true hpending]
              exact Effect.called k _ call _ hcall
                (CallMoves.gaveUp wake sleeps hphase (hover.resolve_left hpending))
          · rename_i hover
            cases h
            exact Effect.called k _ call _ hcall
              (CallMoves.slept wake sleeps hphase (Nat.not_lt.mp hwake)
                (Nat.not_le.mp fun hlate => hover (Or.inr hlate)))
      · cases h

section
variable {transport : TransportKind} {s t : ServingHandle} {a : ClosingAction}

/-- What stays as it is about a call. -/
structure CallLasts (call call' : CloseCall) : Prop where
  kind : call'.kind = call.kind
  asked : forall i, i ∈ call.asked -> i ∈ call'.asked

theorem CallLasts.refl (call : CloseCall) : CallLasts call call :=
  ⟨rfl, fun _ => id⟩

theorem Effect.connections (h : Effect transport s a t) :
    Grows Lasts s.connections t.connections := by
  cases h with
  | accepted number => exact grows_append Lasts.refl _ _
  | moved i a c c' hc hmoves => exact grows_set Lasts.refl hc hmoves.toLasts
  | started | called | swept | ticked => exact Grows.refl Lasts.refl _
  | asked k i left call c hcall hphase hc hwhich => exact grows_set Lasts.refl hc lasts_close

theorem Effect.calls (h : Effect transport s a t) : Grows CallLasts s.calls t.calls := by
  cases h with
  | accepted | moved | ticked => exact Grows.refl CallLasts.refl _
  | started kind => exact grows_append CallLasts.refl _ _
  | called k a call phase hcall hmoves =>
      exact grows_set CallLasts.refl hcall ⟨rfl, fun _ => id⟩
  | asked k i left call c hcall hphase hc hwhich =>
      exact grows_set CallLasts.refl hcall ⟨rfl, fun _ => List.mem_append_left _⟩
  | swept k call phase hcall hphase hnext =>
      exact grows_set CallLasts.refl hcall ⟨rfl, fun _ => id⟩

/-- While a call holds the lock, nobody unregisters. -/
theorem Effect.kept (h : Effect transport s a t) (hlocked : s.locked = true) :
    Grows (fun c c' => c.registered = true -> c'.registered = true) s.connections
      t.connections := by
  have hrefl : forall c : GuestNodeConnection, c.registered = true -> c.registered = true :=
    fun _ => id
  cases h with
  | accepted number => exact grows_append hrefl _ _
  | moved i a c c' hc hmoves => exact grows_set hrefl hc (hmoves.kept hlocked)
  | started | called | swept | ticked => exact Grows.refl hrefl _
  | asked k i left call c hcall hphase hc hwhich =>
      refine grows_set hrefl hc ?_
      rw [registered_close]
      exact id

theorem Effect.now (h : Effect transport s a t) : s.now ≤ t.now := by
  cases h with
  | ticked ms => exact Nat.le_add_right _ _
  | _ => exact Nat.le_refl _

end

end Closing
end Host
end WispersAccess
