import WispersAccess.Foundation.ActionSystem
import WispersAccess.Foundation.RowTable
import WispersAccess.Wire.Contract

/-!
# The state database

The invites and the guest nodes of a share, as the daemon keeps them in SQLite,
and the operations on them.  Each operation is one database access: the daemon
holds the connection's lock for it, and a statement or transaction that fails
leaves the tables as they were.
-/

namespace WispersAccess
namespace Host

open Foundation
open Wire (InviteSecret ActivationError)

/-!
## Time
-/

/-- A UTC instant: whole seconds since the epoch and the nanoseconds above them. -/
structure DateTime where
  secs : Int
  nanos : Nat
  deriving DecidableEq, Repr

def DateTime.Before (s t : DateTime) : Prop :=
  s.secs < t.secs ∨ (s.secs = t.secs ∧ s.nanos < t.nanos)

/-- The `_at` columns hold Unix seconds. -/
def toSecs (t : DateTime) : Int :=
  t.secs

def fromSecs (secs : Int) : DateTime where
  secs := secs
  nanos := 0

/-!
## The tables
-/

/-- The SHA-256 of an invite secret. -/
structure SecretHash where
  bytes : List UInt8
  length_eq : bytes.length = 32
  deriving DecidableEq, Repr

/-- A collision-free stand-in for SHA-256, to run the model on. -/
def doubledSecret (secret : InviteSecret) : SecretHash where
  bytes := secret.bytes ++ secret.bytes
  length_eq := by simp [secret.length_eq]

theorem doubledSecret_injective : Function.Injective doubledSecret := by
  intro s t h
  have hbytes : s.bytes ++ s.bytes = t.bytes ++ t.bytes := congrArg SecretHash.bytes h
  have hlen : s.bytes.length = t.bytes.length := s.length_eq.trans t.length_eq.symm
  cases s
  cases t
  simpa using (List.append_inj hbytes hlen).left

/-- The secret that repeats one byte. -/
def repeatedSecret (b : UInt8) : InviteSecret where
  bytes := List.replicate 16 b
  length_eq := rfl

/-- A row of `invites`, without its id. -/
structure InvitesRow where
  secretHash : SecretHash
  userId : String
  nodeName : String
  createdAt : Int
  expiresAt : Int
  consumedAt : Option Int
  deriving DecidableEq, Repr

/-- A row of `guests`, without its id. -/
structure GuestsRow where
  peerId : String
  userId : String
  displayName : String
  inviteId : Int
  activatedAt : Int
  lastSeenAt : Option Int
  revokedAt : Option Int
  deriving DecidableEq, Repr

structure StateDb where
  invites : RowTable InvitesRow
  guests : RowTable GuestsRow

/-- A fresh database, after the migrations. -/
def StateDb.fresh : StateDb where
  invites := RowTable.empty
  guests := RowTable.empty

inductive StorageError where
  /-- SQLite refused the statement. -/
  | db
  | noSuchGuest (number : Int)
  deriving DecidableEq, Repr

structure NewInvite where
  secret : InviteSecret
  userId : String
  nodeName : String
  expiresAt : DateTime
  deriving DecidableEq, Repr

/-- A guest node: a transport identity bound to the share by redeeming an invite. -/
structure GuestNode where
  number : Int
  peerId : String
  userId : String
  displayName : String
  activatedAt : DateTime
  lastSeenAt : Option DateTime
  revokedAt : Option DateTime
  deriving DecidableEq, Repr

inductive Redemption where
  | activated (guest : GuestNode)
  | refused (why : ActivationError)
  deriving DecidableEq, Repr

def guestFromRow (id : Int) (row : GuestsRow) : GuestNode where
  number := id
  peerId := row.peerId
  userId := row.userId
  displayName := row.displayName
  activatedAt := fromSecs row.activatedAt
  lastSeenAt := row.lastSeenAt.map fromSecs
  revokedAt := row.revokedAt.map fromSecs

@[simp] theorem guestFromRow_revokedAt (id : Int) (row : GuestsRow) :
    (guestFromRow id row).revokedAt = row.revokedAt.map fromSecs := rfl

/-!
## The operations
-/

namespace StateDb

/-- The row of `guests` that `peer_id = ?1` selects, with its id. -/
def guestRow (db : StateDb) (peerId : String) : Option (Int × GuestsRow) :=
  db.guests.findRow fun row => row.peerId = peerId

def guestByPeer (db : StateDb) (peerId : String) : Option GuestNode :=
  (db.guestRow peerId).map fun r => guestFromRow r.1 r.2

def touchGuest (db : StateDb) (peerId : String) (now : DateTime) : StateDb :=
  { db with
    guests := db.guests.mapRows fun _ row =>
      if row.peerId = peerId then { row with lastSeenAt := some (toSecs now) } else row }

def removeGuest (db : StateDb) (number : Int) : Except StorageError Unit × StateDb :=
  match db.guests.lookup number with
  | none => (Except.error (StorageError.noSuchGuest number), db)
  | some _ => (Except.ok (), { db with guests := db.guests.deleteRow number })

/-- The update of `revoke_guest`; a row already revoked keeps its first time. -/
def markRevoked (db : StateDb) (number : Int) (now : DateTime) : StateDb :=
  { db with
    guests := db.guests.mapRows fun id row =>
      if id = number ∧ row.revokedAt = none then
        { row with revokedAt := some (toSecs now) }
      else row }

def revokeGuest (db : StateDb) (number : Int) (now : DateTime) :
    Except StorageError GuestNode × StateDb :=
  let marked := db.markRevoked number now
  match marked.guests.lookup number with
  | none => (Except.error (StorageError.noSuchGuest number), marked)
  | some row => (Except.ok (guestFromRow number row), marked)

/-- The row a redemption inserts. -/
def newGuestsRow (peerId : String) (inviteId : Int) (invite : InvitesRow) (nowSecs : Int) :
    GuestsRow where
  peerId := peerId
  userId := invite.userId
  displayName := invite.nodeName
  inviteId := inviteId
  activatedAt := nowSecs
  lastSeenAt := none
  revokedAt := none

/-- The two statements of a redemption: insert the guest, mark the invite consumed. -/
def bindGuest (db : StateDb) (peerId : String) (inviteId : Int) (invite : InvitesRow)
    (nowSecs : Int) : StateDb where
  guests := db.guests.insert (newGuestsRow peerId inviteId invite nowSecs)
  invites := db.invites.mapRows fun id row =>
    if id = inviteId then { row with consumedAt := some nowSecs } else row

section
variable (hashSecret : InviteSecret -> SecretHash)

def createInvite (db : StateDb) (invite : NewInvite) (now : DateTime) :
    Except StorageError Int × StateDb :=
  match db.invites.findRow fun row => row.secretHash = hashSecret invite.secret with
  | some _ => (Except.error StorageError.db, db)  -- `secret_hash` is UNIQUE
  | none =>
      (Except.ok db.invites.nextRowid,
        { db with
          invites := db.invites.insert
            { secretHash := hashSecret invite.secret
              userId := invite.userId
              nodeName := invite.nodeName
              createdAt := toSecs now
              expiresAt := toSecs invite.expiresAt
              consumedAt := none } })

/-- The guest with this peer id, and the hash of the invite it redeemed. -/
def boundGuest (db : StateDb) (peerId : String) : Option (GuestNode × SecretHash) :=
  match db.guestRow peerId with
  | none => none
  | some r =>
      (db.invites.lookup r.2.inviteId).map fun invite =>
        (guestFromRow r.1 r.2, invite.secretHash)

def redeemInvite (db : StateDb) (secret : InviteSecret) (peerId : String) (now : DateTime) :
    Except StorageError Redemption × StateDb :=
  match db.boundGuest peerId with
  | some (guest, boundHash) =>
      if guest.revokedAt.isSome then
        (Except.ok (Redemption.refused ActivationError.revoked), db)
      else if boundHash = hashSecret secret then
        (Except.ok (Redemption.activated guest), db)
      else
        (Except.ok (Redemption.refused ActivationError.alreadyGuest), db)
  | none =>
      match db.invites.findRow fun row => row.secretHash = hashSecret secret with
      | none => (Except.ok (Redemption.refused ActivationError.inviteUnknown), db)
      | some (inviteId, invite) =>
          if invite.consumedAt.isSome then
            (Except.ok (Redemption.refused ActivationError.inviteConsumed), db)
          else if invite.expiresAt ≤ toSecs now then
            (Except.ok (Redemption.refused ActivationError.inviteExpired), db)
          else if (db.guestRow peerId).isSome then
            (Except.error StorageError.db, db)  -- `peer_id` is UNIQUE
          else
            (Except.ok (Redemption.activated
              (guestFromRow db.guests.nextRowid
                (newGuestsRow peerId inviteId invite (toSecs now)))),
              db.bindGuest peerId inviteId invite (toSecs now))

end

end StateDb

/-!
## Runs of the database
-/

inductive StorageOp where
  | createInvite (invite : NewInvite) (now : DateTime)
  | redeemInvite (secret : InviteSecret) (peerId : String) (now : DateTime)
  | touchGuest (peerId : String) (now : DateTime)
  | removeGuest (number : Int)
  | revokeGuest (number : Int) (now : DateTime)
  deriving DecidableEq, Repr

section
variable (hashSecret : InviteSecret -> SecretHash)

def StateDb.apply (db : StateDb) : StorageOp -> StateDb
  | StorageOp.createInvite invite now => (db.createInvite hashSecret invite now).2
  | StorageOp.redeemInvite secret peerId now => (db.redeemInvite hashSecret secret peerId now).2
  | StorageOp.touchGuest peerId now => db.touchGuest peerId now
  | StorageOp.removeGuest number => (db.removeGuest number).2
  | StorageOp.revokeGuest number now => (db.revokeGuest number now).2

/-- Every operation is enabled in every database. -/
def storageStep (db : StateDb) (op : StorageOp) : Option StateDb :=
  some (db.apply hashSecret op)

end

end Host
end WispersAccess
