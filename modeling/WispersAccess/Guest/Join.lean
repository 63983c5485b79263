import WispersAccess.Foundation.ActionSystem
import WispersAccess.Host.Storage

/-!
# Joining a share over iroh

A device joins a share with an invite.  Each join makes a row and an endpoint key
of its own, asks the host to activate that key with the invite's secret, and then
stores what it needs to come back.  Any of its steps may fail, the request and
the answer may get lost, and the host serves others in between.  A key goes by
its endpoint id, which is the peer id the host sees.
-/

namespace WispersAccess
namespace Guest

open Foundation
open Host (StateDb DateTime SecretHash StorageOp Redemption)
open Wire (InviteSecret ActivationError ShareInfo)

/-!
## The device's store
-/

/-- A row of `shares`, as far as a join fills it in. -/
structure SharesRow where
  shareId : String
  irohEndpointId : Option String
  info : Option ShareInfo
  complete : Bool
  deriving DecidableEq, Repr

structure Store where
  shares : RowTable SharesRow
  /-- The `iroh_secret` of each share, by share id. -/
  secrets : List (String × String)

namespace Store

def newRow (store : Store) (shareId : String) : Store :=
  { store with
    shares := store.shares.insert
      { shareId := shareId, irohEndpointId := none, info := none, complete := false } }

def updateRow (store : Store) (row : Int) (f : SharesRow -> SharesRow) : Store :=
  { store with shares := store.shares.mapRows fun id r => if id = row then f r else r }

def writeIrohEndpointId (store : Store) (row : Int) (host : String) : Store :=
  store.updateRow row fun r => { r with irohEndpointId := some host }

def saveSecret (store : Store) (shareId key : String) : Store :=
  { store with secrets := (shareId, key) :: store.secrets.filter fun p => p.1 ≠ shareId }

def recordJoin (store : Store) (row : Int) (info : ShareInfo) : Store :=
  store.updateRow row fun r => { r with info := some info, complete := true }

def deleteRow (store : Store) (row : Int) : Store :=
  { store with shares := store.shares.deleteRow row }

end Store

/-!
## The exchange
-/

/-- The host's answer to an activation. -/
inductive Answer where
  | share (info : ShareInfo)
  | refused (why : ActivationError)
  /-- Any other status. -/
  | failed
  deriving DecidableEq, Repr

/-- What to tell the user about an invite the host refused; nothing for refusals about
the device's key. -/
def refusal : ActivationError -> Option String
  | ActivationError.inviteConsumed =>
      some "This invite has been used already. Ask for a new one."
  | ActivationError.inviteExpired => some "This invite has expired. Ask for a new one."
  | ActivationError.inviteUnknown => some "This invite is no longer valid. Ask for a new one."
  | ActivationError.malformed => none
  | ActivationError.revoked => none
  | ActivationError.alreadyGuest => none

inductive JoinError where
  | inviteRefused (text : String)
  | hostNode
  | storage
  deriving DecidableEq, Repr

/-- What a join makes of an answer that is not the share. -/
def JoinError.ofAnswer : Answer -> JoinError
  | Answer.refused why =>
      match refusal why with
      | some text => inviteRefused text
      | none => hostNode
  | _ => hostNode

/-- Where `join` stands. -/
inductive JoinPhase where
  | started
  /-- The endpoint is bound with a fresh key. -/
  | bound (key : String)
  | connected (key : String)
  /-- The activation is sent. -/
  | requested (key : String)
  | activated (key : String) (info : ShareInfo)
  /-- The host's endpoint id is written. -/
  | addressed (key : String) (info : ShareInfo)
  /-- The key is saved. -/
  | saved (key : String) (info : ShareInfo)
  deriving DecidableEq, Repr

structure Join where
  row : Int
  phase : JoinPhase
  deriving DecidableEq, Repr

/-- The key of a join that has not sent its activation yet. -/
def Join.unsent (j : Join) : Option String :=
  match j.phase with
  | JoinPhase.bound key => some key
  | JoinPhase.connected key => some key
  | _ => none

structure JoinState where
  /-- The state database of the host. -/
  db : StateDb
  store : Store
  /-- The join underway. -/
  join : Option Join
  /-- The keys generated for joins with this invite. -/
  keys : List String
  /-- The activations on their way, by key. -/
  requests : List String
  /-- The answers on their way back. -/
  answers : List (String × Answer)
  /-- What the joins so far returned, in order. -/
  returned : List (Except JoinError String)

inductive JoinAction where
  | newRow (shareId : String)
  | bind (key : String)
  | openStream
  | send
  | receive
  | writeEndpointId
  | saveSecret
  | record
  /-- A step of the join underway returns an error. -/
  | fail (e : JoinError)
  | loseRequest (key : String)
  | loseAnswer (key : String)
  /-- The host handles an activation. -/
  | handle (key : String) (now : DateTime) (info : ShareInfo)
  /-- The host's state database refuses the redemption. -/
  | handleFails (key : String)
  /-- Whatever else happens to the host's state database. -/
  | hostOp (op : StorageOp)
  deriving DecidableEq, Repr

/-- Return an error: the row goes. -/
def JoinState.giveUp (s : JoinState) (j : Join) (e : JoinError) : JoinState :=
  { s with
    store := s.store.deleteRow j.row
    join := none
    returned := s.returned ++ [Except.error e] }

section
variable (hashSecret : InviteSecret -> SecretHash) (host : String) (secret : InviteSecret)

/-- The answer to an activation with this key, and what it does to the host. -/
def activation (db : StateDb) (key : String) (now : DateTime) (info : ShareInfo) :
    Answer × StateDb :=
  match db.redeemInvite hashSecret secret key now with
  | (Except.ok (Redemption.activated _), db') => (Answer.share info, db')
  | (Except.ok (Redemption.refused why), db') => (Answer.refused why, db')
  | (Except.error _, db') => (Answer.failed, db')

/-- No other device has the invite, and no other device has a key of this one. -/
def JoinState.foreign (s : JoinState) : StorageOp -> Bool
  | StorageOp.redeemInvite secret' peerId _ => secret' ≠ secret ∧ peerId ∉ s.keys
  | _ => true

def joinStep (s : JoinState) : JoinAction -> Option JoinState
  | JoinAction.newRow shareId =>
      match s.join with
      | some _ => none
      | none =>
          some { s with
            store := s.store.newRow shareId
            join := some { row := s.store.shares.nextRowid, phase := JoinPhase.started } }
  | JoinAction.bind key =>
      match s.join with
      | some ⟨row, JoinPhase.started⟩ =>
          if key ∈ s.keys ∨ (s.db.guestRow key).isSome then none
          else
            some { s with
              join := some { row := row, phase := JoinPhase.bound key }
              keys := key :: s.keys }
      | _ => none
  | JoinAction.openStream =>
      match s.join with
      | some ⟨row, JoinPhase.bound key⟩ =>
          some { s with join := some { row := row, phase := JoinPhase.connected key } }
      | _ => none
  | JoinAction.send =>
      match s.join with
      | some ⟨row, JoinPhase.connected key⟩ =>
          some { s with
            join := some { row := row, phase := JoinPhase.requested key }
            requests := s.requests ++ [key] }
      | _ => none
  | JoinAction.receive =>
      match s.join with
      | some ⟨row, JoinPhase.requested key⟩ =>
          match s.answers.lookup key with
          | none => none
          | some (Answer.share info) =>
              some { s with join := some { row := row, phase := JoinPhase.activated key info } }
          | some answer =>
              some (s.giveUp ⟨row, JoinPhase.requested key⟩ (JoinError.ofAnswer answer))
      | _ => none
  | JoinAction.writeEndpointId =>
      match s.join with
      | some ⟨row, JoinPhase.activated key info⟩ =>
          some { s with
            store := s.store.writeIrohEndpointId row host
            join := some { row := row, phase := JoinPhase.addressed key info } }
      | _ => none
  | JoinAction.saveSecret =>
      match s.join with
      | some ⟨row, JoinPhase.addressed key info⟩ =>
          (s.store.shares.lookup row).map fun r =>
            { s with
              store := s.store.saveSecret r.shareId key
              join := some { row := row, phase := JoinPhase.saved key info } }
      | _ => none
  | JoinAction.record =>
      match s.join with
      | some ⟨row, JoinPhase.saved _ info⟩ =>
          (s.store.shares.lookup row).map fun r =>
            { s with
              store := s.store.recordJoin row info
              join := none
              returned := s.returned ++ [Except.ok r.shareId] }
      | _ => none
  | JoinAction.fail e => s.join.map fun j => s.giveUp j e
  | JoinAction.loseRequest key => some { s with requests := s.requests.erase key }
  | JoinAction.loseAnswer key =>
      some { s with answers := s.answers.filter fun p => p.1 ≠ key }
  | JoinAction.handle key now info =>
      if key ∈ s.requests then
        let answer := activation hashSecret secret s.db key now info
        some { s with
          db := answer.2
          requests := s.requests.erase key
          answers := s.answers ++ [(key, answer.1)] }
      else none
  | JoinAction.handleFails key =>
      if key ∈ s.requests then
        some { s with
          requests := s.requests.erase key
          answers := s.answers ++ [(key, Answer.failed)] }
      else none
  | JoinAction.hostOp op =>
      if s.foreign secret op = true then some { s with db := s.db.apply hashSecret op } else none

end

end Guest
end WispersAccess
