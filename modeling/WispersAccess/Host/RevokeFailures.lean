import WispersAccess.Host.Serving

/-!
# Revocations that stop half way

`ServingHandle::revoke_guest` first lets the transport revoke the guest and then
tells the registered connections of the guest to close.  On iroh the first part
is a row update and a query; on Wispers Connect it reads the group, revokes the
node and deregisters it, each with the hub.  Every one of these steps may fail,
or take effect and have its answer lost, and the call returns at the first error.
-/

namespace WispersAccess
namespace Host

open Foundation

/-- How a step against a remote or a database ends. -/
inductive StepOutcome where
  | done
  /-- The step has no effect and reports an error. -/
  | failed
  /-- The step takes effect, and still reports an error. -/
  | lost
  deriving DecidableEq, Repr

inductive RevokeError where
  | storage (e : StorageError)
  | hub
  | noNode (number : Int)
  | neverActivated (number : Int)
  | unknownNode (number : Int)
  | hostNotRegistered
  deriving DecidableEq, Repr

/-- The messages of the errors that the host makes itself. -/
def RevokeError.text : RevokeError -> Option String
  | storage _ => none
  | hub => none
  | noNode number => some ("no node " ++ toString number)
  | neverActivated number => some ("node " ++ toString number ++ " has never been activated.")
  | unknownNode number => some ("Node " ++ toString number ++ " is unknown")
  | hostNotRegistered => some "host node not registered"

/-!
## The two transports
-/

structure IrohOutcomes where
  now : DateTime
  update : StepOutcome
  select : StepOutcome
  deriving DecidableEq, Repr

/-- `HostNode::revoke_guest` on iroh. -/
def irohRevokeGuest (db : StateDb) (number : Int) (o : IrohOutcomes) :
    Except RevokeError Unit × StateDb :=
  match o.update with
  | StepOutcome.failed => (Except.error (RevokeError.storage StorageError.db), db)
  | StepOutcome.lost =>
      (Except.error (RevokeError.storage StorageError.db), db.markRevoked number o.now)
  | StepOutcome.done =>
      if o.select = StepOutcome.done then
        match db.revokeGuest number o.now with
        | (Except.ok _, marked) => (Except.ok (), marked)
        | (Except.error e, marked) => (Except.error (RevokeError.storage e), marked)
      else
        (Except.error (RevokeError.storage StorageError.db), db.markRevoked number o.now)

/-- A node's state in the group; the last stands for all states short of activated. -/
inductive NodeState where
  | activated
  | revoked
  | registered
  deriving DecidableEq, Repr

/-- A node of the group: its place in the roster, and whether the hub lists it. -/
structure HubNode where
  state : NodeState
  listed : Bool
  deriving DecidableEq, Repr

structure Hub where
  nodes : Int -> Option HubNode
  /-- The host's group, once it is registered. -/
  groupId : Option String

/-- What `group_info` lists for the node. -/
def Hub.listedState (hub : Hub) (number : Int) : Option NodeState :=
  (hub.nodes number).bind fun node => if node.listed then some node.state else none

def Hub.update (hub : Hub) (number : Int) (f : HubNode -> HubNode) : Hub :=
  { hub with nodes := fun n => if n = number then (hub.nodes n).map f else hub.nodes n }

def Hub.revokeNode (hub : Hub) (number : Int) : Hub :=
  hub.update number fun node => { node with state := NodeState.revoked }

def Hub.deleteNode (hub : Hub) (number : Int) : Hub :=
  hub.update number fun node => { node with listed := false }

structure HubOutcomes where
  groupInfo : StepOutcome
  revokeNode : StepOutcome
  deleteNode : StepOutcome
  deriving DecidableEq, Repr

/-- The end of `revoke_on_hub`: deregister the node, which is revoked by now. -/
def deregister (hub : Hub) (number : Int) (o : HubOutcomes) : Except RevokeError Unit × Hub :=
  match hub.groupId with
  | none => (Except.error RevokeError.hostNotRegistered, hub)
  | some _ =>
      match o.deleteNode with
      | StepOutcome.failed => (Except.error RevokeError.hub, hub)
      | StepOutcome.lost => (Except.error RevokeError.hub, hub.deleteNode number)
      | StepOutcome.done => (Except.ok (), hub.deleteNode number)

def revokeOnHub (hub : Hub) (number : Int) (o : HubOutcomes) : Except RevokeError Unit × Hub :=
  if o.groupInfo = StepOutcome.done then
    match hub.listedState number with
    | some NodeState.activated =>
        match o.revokeNode with
        | StepOutcome.failed => (Except.error RevokeError.hub, hub)
        | StepOutcome.lost => (Except.error RevokeError.hub, hub.revokeNode number)
        | StepOutcome.done => deregister (hub.revokeNode number) number o
    | some NodeState.revoked => deregister hub number o
    | some NodeState.registered => (Except.error (RevokeError.neverActivated number), hub)
    | none => (Except.error (RevokeError.unknownNode number), hub)
  else (Except.error RevokeError.hub, hub)

/-- `number` fits an `i32`. -/
def FitsI32 (number : Int) : Prop :=
  -(2 ^ 31) ≤ number ∧ number < 2 ^ 31

instance (number : Int) : Decidable (FitsI32 number) :=
  inferInstanceAs (Decidable (_ ∧ _))

/-- `HostNode::revoke_guest` on Wispers Connect. -/
def wispersConnectRevokeGuest (hub : Hub) (number : Int) (o : HubOutcomes) :
    Except RevokeError Unit × Hub :=
  if FitsI32 number then revokeOnHub hub number o
  else (Except.error (RevokeError.noNode number), hub)

/-!
## The serving handle

The handle works with any transport's host node.
-/

section
variable {Roster Outcomes Peer : Type}

/-- The part of the `HostNode` trait that revokes, with what the roster says of a
guest number: whether it is revoked, and whose connections are its. -/
structure HostNode (Roster Outcomes Peer : Type) where
  revokeGuest : Roster -> Int -> Outcomes -> Except RevokeError Unit × Roster
  IsRevoked : Roster -> Int -> Prop
  peerOf : Roster -> Int -> Option Peer

/-- A live connection that is registered. -/
structure GuestNodeConnection (Peer : Type) where
  number : Int
  peer : Peer
  /-- Its closer was called. -/
  told : Bool
  deriving DecidableEq, Repr

structure RevocationState (Roster Peer : Type) where
  roster : Roster
  connections : List (GuestNodeConnection Peer)

/-- The pass of `close_connections`. -/
def closeConnections (number : Int) (connections : List (GuestNodeConnection Peer)) :
    List (GuestNodeConnection Peer) :=
  connections.map fun c => if c.number = number then { c with told := true } else c

/-- `revoke_guest`; the connections in `late` register after the pass, or after the
transport's error, and before the call returns. -/
def RevocationState.revokeGuest (node : HostNode Roster Outcomes Peer)
    (s : RevocationState Roster Peer) (number : Int) (o : Outcomes)
    (late : List (GuestNodeConnection Peer)) :
    Except RevokeError Unit × RevocationState Roster Peer :=
  match node.revokeGuest s.roster number o with
  | (Except.error e, roster) => (Except.error e, ⟨roster, s.connections ++ late⟩)
  | (Except.ok (), roster) =>
      (Except.ok (), ⟨roster, closeConnections number s.connections ++ late⟩)

/-- Every registered connection of the guest has been told to close. -/
def AllTold (node : HostNode Roster Outcomes Peer) (roster : Roster) (number : Int)
    (connections : List (GuestNodeConnection Peer)) : Prop :=
  forall c, c ∈ connections -> node.peerOf roster number = some c.peer -> c.told = true

/-- The guest is not revoked, or every registered connection of it has been told to close. -/
def CutOrKept (node : HostNode Roster Outcomes Peer) (s : RevocationState Roster Peer)
    (number : Int) : Prop :=
  ¬ node.IsRevoked s.roster number ∨ AllTold node s.roster number s.connections

/-- Every connection of the guest that is not told yet is registered under its number. -/
def UntoldUnder (node : HostNode Roster Outcomes Peer) (roster : Roster) (number : Int)
    (connections : List (GuestNodeConnection Peer)) : Prop :=
  forall c, c ∈ connections -> node.peerOf roster number = some c.peer -> c.told = false ->
    c.number = number

theorem allTold_append {node : HostNode Roster Outcomes Peer} {roster : Roster} {number : Int}
    {front back : List (GuestNodeConnection Peer)} :
    AllTold node roster number (front ++ back) <->
      AllTold node roster number front ∧ AllTold node roster number back := by
  unfold AllTold
  simp only [List.mem_append, or_imp, forall_and]

theorem allTold_closeConnections {node : HostNode Roster Outcomes Peer} {roster : Roster}
    {number : Int} {connections : List (GuestNodeConnection Peer)} :
    AllTold node roster number (closeConnections number connections) <->
      UntoldUnder node roster number connections := by
  unfold AllTold UntoldUnder closeConnections
  constructor
  · intro h c hc hpeer huntold
    by_contra hother
    have htold := h c (List.mem_map.mpr ⟨c, hc, if_neg hother⟩) hpeer
    rw [huntold] at htold
    cases htold
  · intro h d hd hpeer
    rcases List.mem_map.mp hd with ⟨c, hc, rfl⟩
    by_cases hnumber : c.number = number
    · rw [if_pos hnumber]
    · rw [if_neg hnumber] at hpeer ⊢
      cases htold : c.told with
      | true => rfl
      | false => exact absurd (h c hc hpeer htold) hnumber

/-- What is left of a call, for any transport that keeps the guest's peer. -/
theorem revokeGuest_cut_iff {node : HostNode Roster Outcomes Peer}
    (hpeer : forall roster number o,
      node.peerOf (node.revokeGuest roster number o).2 number = node.peerOf roster number)
    (s : RevocationState Roster Peer) (number : Int) (o : Outcomes)
    (late : List (GuestNodeConnection Peer)) :
    CutOrKept node (s.revokeGuest node number o late).2 number <->
      ¬ node.IsRevoked (node.revokeGuest s.roster number o).2 number ∨
        (AllTold node s.roster number late ∧
          ((node.revokeGuest s.roster number o).1 = Except.ok () ∧
              UntoldUnder node s.roster number s.connections ∨
            AllTold node s.roster number s.connections)) := by
  have hkept := hpeer s.roster number o
  have htold : forall connections,
      AllTold node (node.revokeGuest s.roster number o).2 number connections <->
        AllTold node s.roster number connections := by
    intro connections
    unfold AllTold
    rw [hkept]
  have hunder : AllTold node s.roster number s.connections ->
      UntoldUnder node s.roster number s.connections := by
    intro h c hc hp huntold
    rw [h c hc hp] at huntold
    cases huntold
  unfold CutOrKept RevocationState.revokeGuest
  rcases hcall : node.revokeGuest s.roster number o with ⟨result, roster⟩
  rw [hcall] at htold
  cases result with
  | error e =>
      simp only [htold, allTold_append]
      constructor
      · intro hfails
        rcases hfails with h | ⟨hbefore, hlate⟩
        · exact Or.inl h
        · exact Or.inr ⟨hlate, Or.inr hbefore⟩
      · intro hfails
        rcases hfails with h | ⟨hlate, ⟨hok, _⟩ | hbefore⟩
        · exact Or.inl h
        · cases hok
        · exact Or.inr ⟨hbefore, hlate⟩
  | ok u =>
      simp only [htold, allTold_append, allTold_closeConnections]
      constructor
      · intro hfails
        rcases hfails with h | ⟨hbefore, hlate⟩
        · exact Or.inl h
        · exact Or.inr ⟨hlate, Or.inl ⟨trivial, hbefore⟩⟩
      · intro hfails
        rcases hfails with h | ⟨hlate, ⟨_, hbefore⟩ | hbefore⟩
        · exact Or.inl h
        · exact Or.inr ⟨hbefore, hlate⟩
        · exact Or.inr ⟨hunder hbefore, hlate⟩

/-!
## Calls, retries and connections in any order
-/

inductive RevocationAction (Roster Outcomes Peer : Type) where
  | revokeGuest (number : Int) (o : Outcomes) (late : List (GuestNodeConnection Peer))
  | register (c : GuestNodeConnection Peer)
  | unregister (i : Nat)
  /-- Anything else that happens to the roster: activations, removals, offline revocations. -/
  | rosterMoves (roster : Roster)

def revocationStep (node : HostNode Roster Outcomes Peer) (s : RevocationState Roster Peer) :
    RevocationAction Roster Outcomes Peer -> Option (RevocationState Roster Peer)
  | RevocationAction.revokeGuest number o late => some (s.revokeGuest node number o late).2
  | RevocationAction.register c => some { s with connections := s.connections ++ [c] }
  | RevocationAction.unregister i => some { s with connections := s.connections.eraseIdx i }
  | RevocationAction.rosterMoves roster => some { s with roster := roster }

/-- Where the action is a call of `revoke_guest`, it returns with the guest kept or cut off. -/
def ReturnsCut (node : HostNode Roster Outcomes Peer) (s : RevocationState Roster Peer) :
    RevocationAction Roster Outcomes Peer -> Prop
  | RevocationAction.revokeGuest number o late =>
      CutOrKept node (s.revokeGuest node number o late).2 number
  | _ => True

/-- `takesEffect`: some step of the call revokes the guest; `succeeds`: all report success. -/
def CutsWhen (node : HostNode Roster Outcomes Peer)
    (takesEffect succeeds : Roster -> Int -> Outcomes -> Prop)
    (s : RevocationState Roster Peer) : RevocationAction Roster Outcomes Peer -> Prop
  | RevocationAction.revokeGuest number o late =>
      (¬ node.IsRevoked s.roster number ∧ ¬ takesEffect s.roster number o) ∨
        (AllTold node s.roster number late ∧
          (succeeds s.roster number o ∧ UntoldUnder node s.roster number s.connections ∨
            AllTold node s.roster number s.connections))
  | _ => True

/-- One transport's `revoke_guest`, as the serving handle needs to know it. -/
structure RevokesLike (node : HostNode Roster Outcomes Peer)
    (takesEffect succeeds : Roster -> Int -> Outcomes -> Prop) : Prop where
  peer : forall roster number o,
    node.peerOf (node.revokeGuest roster number o).2 number = node.peerOf roster number
  revoked : forall roster number o,
    node.IsRevoked (node.revokeGuest roster number o).2 number <->
      node.IsRevoked roster number ∨ takesEffect roster number o
  ok : forall roster number o,
    (node.revokeGuest roster number o).1 = Except.ok () <-> succeeds roster number o

theorem RevokesLike.returnsCut_iff {node : HostNode Roster Outcomes Peer}
    {takesEffect succeeds : Roster -> Int -> Outcomes -> Prop}
    (h : RevokesLike node takesEffect succeeds) (s : RevocationState Roster Peer)
    (a : RevocationAction Roster Outcomes Peer) :
    ReturnsCut node s a <-> CutsWhen node takesEffect succeeds s a := by
  cases a with
  | revokeGuest number o late =>
      simp only [ReturnsCut, CutsWhen]
      rw [revokeGuest_cut_iff h.peer, h.revoked, h.ok, not_or]
  | register c => exact Iff.rfl
  | unregister i => exact Iff.rfl
  | rosterMoves roster => exact Iff.rfl

end

/-!
## Iroh
-/

def irohHostNode : HostNode StateDb IrohOutcomes String where
  revokeGuest := irohRevokeGuest
  IsRevoked db number := exists row, db.guests.lookup number = some row ∧ row.revokedAt ≠ none
  peerOf db number := (db.guests.lookup number).map GuestsRow.peerId

/-- The row update takes effect on a row. -/
def IrohTakesEffect (db : StateDb) (number : Int) (o : IrohOutcomes) : Prop :=
  o.update ≠ StepOutcome.failed ∧ db.guests.lookup number ≠ none

def IrohSucceeds (db : StateDb) (number : Int) (o : IrohOutcomes) : Prop :=
  o.update = StepOutcome.done ∧ o.select = StepOutcome.done ∧ db.guests.lookup number ≠ none

theorem irohRevokeGuest_snd (db : StateDb) (number : Int) (o : IrohOutcomes) :
    (irohRevokeGuest db number o).2 =
      if o.update = StepOutcome.failed then db else db.markRevoked number o.now := by
  unfold irohRevokeGuest
  cases hupdate : o.update with
  | failed => rfl
  | lost => rfl
  | done =>
      by_cases hselect : o.select = StepOutcome.done
      · have hmarked := StateDb.revokeGuest_snd db number o.now
        rcases hcall : db.revokeGuest number o.now with ⟨result, marked⟩
        rw [hcall] at hmarked
        cases result <;> simp [hselect, ← hmarked]
      · simp [hselect]

theorem markRevoked_eq_none_iff {db : StateDb} {number : Int} {now : DateTime} :
    (db.markRevoked number now).guests.lookup number = none <->
      db.guests.lookup number = none := by
  rw [StateDb.markRevoked_lookup, Option.map_eq_none_iff]

theorem iroh_peer (db : StateDb) (number : Int) (o : IrohOutcomes) :
    irohHostNode.peerOf (irohHostNode.revokeGuest db number o).2 number =
      irohHostNode.peerOf db number := by
  change ((irohRevokeGuest db number o).2.guests.lookup number).map GuestsRow.peerId =
    (db.guests.lookup number).map GuestsRow.peerId
  rw [irohRevokeGuest_snd]
  split
  · rfl
  · cases hrow : db.guests.lookup number with
    | none => rw [markRevoked_eq_none_iff.mpr hrow]
    | some row =>
        rcases StateDb.markRevoked_becomes hrow number o.now with ⟨later, hlater, hbecomes, _⟩
        rw [hlater]
        exact congrArg some hbecomes.peerId

theorem iroh_revoked (db : StateDb) (number : Int) (o : IrohOutcomes) :
    irohHostNode.IsRevoked (irohHostNode.revokeGuest db number o).2 number <->
      irohHostNode.IsRevoked db number ∨ IrohTakesEffect db number o := by
  change (exists row, (irohRevokeGuest db number o).2.guests.lookup number = some row ∧
    row.revokedAt ≠ none) <-> (exists row, db.guests.lookup number = some row ∧
      row.revokedAt ≠ none) ∨ IrohTakesEffect db number o
  rw [irohRevokeGuest_snd]
  by_cases hupdate : o.update = StepOutcome.failed
  · simp [IrohTakesEffect, hupdate]
  · rw [if_neg hupdate]
    cases hrow : db.guests.lookup number with
    | none => simp [IrohTakesEffect, hrow, markRevoked_eq_none_iff.mpr hrow]
    | some row =>
        rcases StateDb.markRevoked_becomes hrow number o.now with ⟨later, hlater, _, hmarked, _⟩
        simp [IrohTakesEffect, hrow, hlater, hupdate, hmarked rfl]

theorem iroh_ok (db : StateDb) (number : Int) (o : IrohOutcomes) :
    (irohHostNode.revokeGuest db number o).1 = Except.ok () <-> IrohSucceeds db number o := by
  change (irohRevokeGuest db number o).1 = Except.ok () <-> IrohSucceeds db number o
  unfold irohRevokeGuest IrohSucceeds
  cases hupdate : o.update with
  | failed => simp
  | lost => simp
  | done =>
      by_cases hselect : o.select = StepOutcome.done
      · rcases hcall : db.revokeGuest number o.now with ⟨result, marked⟩
        cases result with
        | ok guest =>
            have hok : (db.revokeGuest number o.now).1 = Except.ok guest := by rw [hcall]
            rcases StateDb.revokeGuest_ok hok with ⟨row, _, hrow, _⟩
            simp [hselect, hrow]
        | error e =>
            have herror : (db.revokeGuest number o.now).1 = Except.error e := by rw [hcall]
            simp [hselect, (StateDb.revokeGuest_error herror).right]
      · simp [hselect]

theorem iroh_revokesLike : RevokesLike irohHostNode IrohTakesEffect IrohSucceeds where
  peer := iroh_peer
  revoked := iroh_revoked
  ok := iroh_ok

/-!
## Wispers Connect
-/

def wispersConnectHostNode : HostNode Hub HubOutcomes Int where
  revokeGuest := wispersConnectRevokeGuest
  IsRevoked hub number :=
    exists node, hub.nodes number = some node ∧ node.state = NodeState.revoked
  peerOf _ number := some number

/-- `revoke_node` takes effect on a listed, activated node. -/
def HubTakesEffect (hub : Hub) (number : Int) (o : HubOutcomes) : Prop :=
  FitsI32 number ∧ o.groupInfo = StepOutcome.done ∧
    hub.listedState number = some NodeState.activated ∧ o.revokeNode ≠ StepOutcome.failed

def HubSucceeds (hub : Hub) (number : Int) (o : HubOutcomes) : Prop :=
  FitsI32 number ∧ o.groupInfo = StepOutcome.done ∧
    (hub.listedState number = some NodeState.activated ∧ o.revokeNode = StepOutcome.done ∨
      hub.listedState number = some NodeState.revoked) ∧
    hub.groupId ≠ none ∧ o.deleteNode = StepOutcome.done

def Hub.IsRevoked (hub : Hub) (number : Int) : Prop :=
  exists node, hub.nodes number = some node ∧ node.state = NodeState.revoked

theorem deleteNode_isRevoked (hub : Hub) (number : Int) :
    (hub.deleteNode number).IsRevoked number <-> hub.IsRevoked number := by
  unfold Hub.IsRevoked Hub.deleteNode Hub.update
  cases hnode : hub.nodes number <;> simp [hnode]

theorem revokeNode_isRevoked {hub : Hub} {number : Int} {state : NodeState}
    (h : hub.listedState number = some state) : (hub.revokeNode number).IsRevoked number := by
  rcases Option.bind_eq_some_iff.mp h with ⟨node, hnode, _⟩
  exact ⟨{ node with state := NodeState.revoked }, by simp [Hub.revokeNode, Hub.update, hnode],
    rfl⟩

theorem deregister_isRevoked (hub : Hub) (number : Int) (o : HubOutcomes) :
    (deregister hub number o).2.IsRevoked number <-> hub.IsRevoked number := by
  unfold deregister
  cases hub.groupId with
  | none => exact Iff.rfl
  | some groupId =>
      cases o.deleteNode with
      | failed => exact Iff.rfl
      | lost => exact deleteNode_isRevoked hub number
      | done => exact deleteNode_isRevoked hub number

theorem deregister_ok {hub : Hub} {number : Int} {o : HubOutcomes} :
    (deregister hub number o).1 = Except.ok () <->
      hub.groupId ≠ none ∧ o.deleteNode = StepOutcome.done := by
  unfold deregister
  cases hub.groupId with
  | none => simp
  | some groupId => cases o.deleteNode <;> simp

theorem hub_revoked (hub : Hub) (number : Int) (o : HubOutcomes) :
    (wispersConnectRevokeGuest hub number o).2.IsRevoked number <->
      hub.IsRevoked number ∨ HubTakesEffect hub number o := by
  unfold wispersConnectRevokeGuest revokeOnHub HubTakesEffect
  by_cases hfits : FitsI32 number
  · by_cases hgroup : o.groupInfo = StepOutcome.done
    · rw [if_pos hfits, if_pos hgroup]
      cases hlisted : hub.listedState number with
      | none => simp
      | some state =>
          cases state with
          | registered => simp
          | revoked => simp [deregister_isRevoked]
          | activated =>
              cases hrevoke : o.revokeNode with
              | failed => simp
              | lost => simp [hfits, hgroup, revokeNode_isRevoked hlisted]
              | done => simp [hfits, hgroup, deregister_isRevoked, revokeNode_isRevoked hlisted]
    · simp [hfits, hgroup]
  · simp [hfits]

theorem hub_ok (hub : Hub) (number : Int) (o : HubOutcomes) :
    (wispersConnectRevokeGuest hub number o).1 = Except.ok () <-> HubSucceeds hub number o := by
  unfold wispersConnectRevokeGuest revokeOnHub HubSucceeds
  by_cases hfits : FitsI32 number
  · by_cases hgroup : o.groupInfo = StepOutcome.done
    · rw [if_pos hfits, if_pos hgroup]
      cases hlisted : hub.listedState number with
      | none => simp
      | some state =>
          cases state with
          | registered => simp
          | revoked => simp [hfits, hgroup, deregister_ok]
          | activated =>
              cases hrevoke : o.revokeNode with
              | failed => simp
              | lost => simp
              | done =>
                  have hid : (hub.revokeNode number).groupId = hub.groupId := rfl
                  simp [hfits, hgroup, deregister_ok, hid]
    · simp [hfits, hgroup]
  · simp [hfits]

theorem wispersConnect_revokesLike :
    RevokesLike wispersConnectHostNode HubTakesEffect HubSucceeds where
  peer _ _ _ := rfl
  revoked := hub_revoked
  ok := hub_ok

/-!
## Both transports
-/

/-- On both transports, over any sequence of calls and retries of `revoke_guest` with
any outcomes of their steps: every call returns with the guest not revoked or all
its connections told to close exactly if each call meets `CutsWhen`. -/
theorem revoke_guest_cuts_off_iff (iroh : RevocationState StateDb String)
    (irohActs : List (RevocationAction StateDb IrohOutcomes String))
    (hub : RevocationState Hub Int) (hubActs : List (RevocationAction Hub HubOutcomes Int)) :
    (Meets (revocationStep irohHostNode) (ReturnsCut irohHostNode) iroh irohActs <->
      Meets (revocationStep irohHostNode)
        (CutsWhen irohHostNode IrohTakesEffect IrohSucceeds) iroh irohActs) ∧
    (Meets (revocationStep wispersConnectHostNode) (ReturnsCut wispersConnectHostNode)
        hub hubActs <->
      Meets (revocationStep wispersConnectHostNode)
        (CutsWhen wispersConnectHostNode HubTakesEffect HubSucceeds) hub hubActs) := by
  constructor
  · exact meets_congr iroh_revokesLike.returnsCut_iff
  · exact meets_congr wispersConnect_revokesLike.returnsCut_iff

/-- Node 2 is revoked, its deregistration fails, and its connection is not told to close. -/
theorem half_done_revocation_keeps_connection :
    ¬ forall (s : RevocationState Hub Int) (acts : List (RevocationAction Hub HubOutcomes Int)),
      Meets (revocationStep wispersConnectHostNode) (ReturnsCut wispersConnectHostNode)
        s acts := by
  intro h
  let hub : Hub :=
    { nodes := fun n => if n = 2 then some ⟨NodeState.activated, true⟩ else none
      groupId := some "group" }
  have hcall := (h ⟨hub, [⟨2, 2, false⟩]⟩
    [RevocationAction.revokeGuest 2 ⟨StepOutcome.done, StepOutcome.done, StepOutcome.failed⟩
      []]).left
  rcases hcall with hkept | htold
  · exact hkept ⟨⟨NodeState.revoked, true⟩, rfl, rfl⟩
  · have := htold ⟨2, 2, false⟩ (List.mem_singleton.mpr rfl) rfl
    cases this

end Host
end WispersAccess
