import WispersAccess.Guest.StorageRuns

/-!
# A device that joins and leaves shares

A join makes a row, lets its transport activate the device and keep its secrets,
and records what the host told.  A leave says goodbye, forgets the secrets and
deletes the row.  Any number of them run at the same time; each of their steps is
one access to the store or to the secret store, or an answer from outside, and
each may fail.  Refreshes write to the store meanwhile, and the process may stop.
-/

namespace WispersAccess
namespace Guest

open Foundation
open Wire (ShareInfo)

/-!
## Secrets
-/

inductive SecretScope where
  /-- Key material of one share. -/
  | share (id : ShareId)
  /-- The client's own secrets. -/
  | client
  deriving DecidableEq, Repr

structure Secret where
  scope : SecretScope
  key : String
  value : List UInt8
  deriving DecidableEq, Repr

def irohSecretKey : String := "iroh_secret"

def rootKey : String := "root_key"

def registration : String := "registration"

def saveSecret (secrets : List Secret) (scope : SecretScope) (key : String)
    (value : List UInt8) : List Secret :=
  { scope, key, value } :: secrets.filter fun e => ¬ (e.scope = scope ∧ e.key = key)

/-- Deleting what is not there is not an error. -/
def deleteSecret (secrets : List Secret) (scope : SecretScope) (key : String) : List Secret :=
  secrets.filter fun e => ¬ (e.scope = scope ∧ e.key = key)

/-- `NodeSecrets::delete_all`. -/
def deleteNodeState (secrets : List Secret) (share : ShareId) : List Secret :=
  deleteSecret (deleteSecret secrets (SecretScope.share share) rootKey)
    (SecretScope.share share) registration

/-- What leaving deletes, by transport. -/
def forgetSecrets (secrets : List Secret) (share : ShareId) : Transport -> List Secret
  | Transport.iroh => deleteSecret secrets (SecretScope.share share) irohSecretKey
  | Transport.wispersConnect => deleteNodeState secrets share
  | Transport.tailscale => secrets

/-!
## Calls
-/

/-- Where a call stands. -/
inductive Phase where
  -- a join over iroh
  | irohStarted
  | irohActivated (info : ShareInfo)
  | irohAddressed (info : ShareInfo)
  -- a join over Wispers Connect
  | wcStarted (backend : Option String)
  /-- The hub has taken the registration, which is not saved yet. -/
  | wcRegistering (share : ShareId) (backend : Option String)
  | wcRootSaved (share : ShareId) (backend : Option String)
  | wcRegistered (share : ShareId) (backend : Option String)
  | wcFetched (share : ShareId) (backend : Option String) (info : ShareInfo)
  /-- The join failed after registration and logs the node out again. -/
  | wcRollback (share : ShareId)
  -- `record_join`, once the transport has joined
  | joined (info : ShareInfo)
  | infoWritten (share : ShareId) (info : ShareInfo)
  | nameWritten (share : ShareId) (name : String)
  | labelled
  | marked
  /-- The join returns an error as soon as its row is deleted. -/
  | failed
  -- a leave
  | leaving (transport : Transport) (loggedOut : Bool)
  | forgotten
  | returned
  deriving DecidableEq

structure Call where
  row : Int
  phase : Phase
  deriving DecidableEq

/-- What may happen to a call next. -/
inductive Event where
  | activate (info : ShareInfo)
  | writeIrohEndpointId (host : String)
  | saveIrohSecret (key : List UInt8)
  | register
  | saveRootKey (key : List UInt8)
  | saveRegistration (bytes : List UInt8)
  | fetch (info : ShareInfo)
  | writeBackend
  /-- `activate_and_fetch` fails. -/
  | abandon
  | logout
  | logoutFails
  | writeShareInfo
  | writeDisplayName
  | writeDedupedHostname
  | markComplete
  | readShare
  /-- The step of a join that comes next fails. -/
  | fail
  /-- A leave reads the share id and deletes the secrets. -/
  | forget
  /-- A leave cannot read the share id. -/
  | forgetFails
  | deleteRow
  deriving DecidableEq

structure Device where
  db : DB
  secrets : List Secret
  calls : List Call

def Device.start : Device where
  db := DB.empty
  secrets := []
  calls := []

inductive DeviceAction where
  | joinIroh (shareId : ShareId) (now : Int)
  | joinWispersConnect (shareId : ShareId) (now : Int) (backend : Option String)
  | leave (order : SerialTable.QueryOrder ShareRow) (key : String)
  | call (i : Nat) (event : Event)
  /-- A refresh of some share writes to the store. -/
  | refresh (op : StoreOp)
  /-- The process stops and starts again. -/
  | restart

/-- A phase in which a step of a join may fail with nothing but the row to undo. -/
def Phase.mayFail : Phase -> Bool
  | irohStarted => true
  | irohActivated _ => true
  | irohAddressed _ => true
  | wcStarted _ => true
  | wcRegistering _ _ => true
  | wcRootSaved _ _ => true
  | joined _ => true
  | infoWritten _ _ => true
  | nameWritten _ _ => true
  | labelled => true
  | marked => true
  | _ => false

def StoreOp.isRefresh : StoreOp -> Bool
  | writeShareInfo _ _ => true
  | writeTerminalState _ _ => true
  | writeOutdated _ _ => true
  | _ => false

section
variable (text : JsonText) (slug : Slugify)

/-- A name for the share: what the host says, or the share id. -/
def recordedName (share : ShareId) (info : ShareInfo) : String :=
  if info.name = "" then share.text else info.name

/-- The store, the secrets and the phase of a call after an event. -/
def callStep (db : DB) (secrets : List Secret) (c : Call) :
    Event -> Option (DB × List Secret × Phase)
  | Event.activate info =>
      match c.phase with
      | Phase.irohStarted => some (db, secrets, Phase.irohActivated info)
      | _ => none
  | Event.writeIrohEndpointId host =>
      match c.phase with
      | Phase.irohActivated info =>
          some (db.writeIrohEndpointId c.row host, secrets, Phase.irohAddressed info)
      | _ => none
  | Event.saveIrohSecret key =>
      match c.phase with
      | Phase.irohAddressed info =>
          (db.readShareId c.row).map fun share =>
            (db, saveSecret secrets (SecretScope.share share) irohSecretKey key, Phase.joined info)
      | _ => none
  | Event.register =>
      match c.phase with
      | Phase.wcStarted backend =>
          (db.readShareId c.row).map fun share =>
            (db, secrets, Phase.wcRegistering share backend)
      | _ => none
  | Event.saveRootKey key =>
      match c.phase with
      | Phase.wcRegistering share backend =>
          some (db, saveSecret secrets (SecretScope.share share) rootKey key,
            Phase.wcRootSaved share backend)
      | _ => none
  | Event.saveRegistration bytes =>
      match c.phase with
      | Phase.wcRootSaved share backend =>
          some (db, saveSecret secrets (SecretScope.share share) registration bytes,
            Phase.wcRegistered share backend)
      | _ => none
  | Event.fetch info =>
      match c.phase with
      | Phase.wcRegistered share backend => some (db, secrets, Phase.wcFetched share backend info)
      | _ => none
  | Event.writeBackend =>
      match c.phase with
      | Phase.wcFetched _ backend info =>
          some (db.writeWispersConnectBackend c.row backend, secrets, Phase.joined info)
      | _ => none
  | Event.abandon =>
      match c.phase with
      | Phase.wcRegistered share _ => some (db, secrets, Phase.wcRollback share)
      | Phase.wcFetched share _ _ => some (db, secrets, Phase.wcRollback share)
      | _ => none
  | Event.logout =>
      match c.phase with
      | Phase.wcRollback share => some (db, deleteNodeState secrets share, Phase.failed)
      | Phase.leaving Transport.wispersConnect false =>
          (db.readShareId c.row).map fun share =>
            (db, deleteNodeState secrets share, Phase.leaving Transport.wispersConnect true)
      | _ => none
  | Event.logoutFails =>
      match c.phase with
      | Phase.wcRollback _ => some (db, secrets, Phase.failed)
      | _ => none
  | Event.writeShareInfo =>
      match c.phase with
      | Phase.joined info =>
          (db.readShareId c.row).bind fun share =>
            (db.writeShareInfo text c.row info).map fun db' =>
              (db', secrets, Phase.infoWritten share info)
      | _ => none
  | Event.writeDisplayName =>
      match c.phase with
      | Phase.infoWritten share info =>
          some (db.writeDisplayName c.row (recordedName share info), secrets,
            Phase.nameWritten share (recordedName share info))
      | _ => none
  | Event.writeDedupedHostname =>
      match c.phase with
      | Phase.nameWritten share name =>
          (db.writeDedupedHostname c.row ((hostSlug slug name).getD share.text)).map fun p =>
            (p.1, secrets, Phase.labelled)
      | _ => none
  | Event.markComplete =>
      match c.phase with
      | Phase.labelled => some (db.markComplete c.row, secrets, Phase.marked)
      | _ => none
  | Event.readShare =>
      match c.phase with
      | Phase.marked => (db.readShare text c.row).map fun _ => (db, secrets, Phase.returned)
      | _ => none
  | Event.fail => if c.phase.mayFail then some (db, secrets, Phase.failed) else none
  | Event.forget =>
      match c.phase with
      | Phase.leaving transport _ =>
          (db.readShareId c.row).map fun share =>
            (db, forgetSecrets secrets share transport, Phase.forgotten)
      | _ => none
  | Event.forgetFails =>
      match c.phase with
      | Phase.leaving _ _ => some (db, secrets, Phase.forgotten)
      | _ => none
  | Event.deleteRow =>
      match c.phase with
      | Phase.failed => some (db.deleteRow c.row, secrets, Phase.returned)
      | Phase.forgotten => some (db.deleteRow c.row, secrets, Phase.returned)
      | _ => none

def Device.begin (s : Device) (db : DB) (row : Int) (phase : Phase) : Device :=
  { s with db := db, calls := s.calls ++ [⟨row, phase⟩] }

def deviceStep (s : Device) : DeviceAction -> Option Device
  | DeviceAction.joinIroh shareId now =>
      (s.db.newRow shareId now).map fun p => s.begin p.1 p.2 Phase.irohStarted
  | DeviceAction.joinWispersConnect shareId now backend =>
      (s.db.newRow shareId now).map fun p => s.begin p.1 p.2 (Phase.wcStarted backend)
  | DeviceAction.leave order key =>
      (s.db.findRow order key).bind fun found =>
        (s.db.readTransportKind found.1).map fun transport =>
          s.begin s.db found.1 (Phase.leaving transport false)
  | DeviceAction.call i event =>
      (s.calls[i]?).bind fun c =>
        (callStep text slug s.db s.secrets c event).map fun p =>
          { db := p.1, secrets := p.2.1, calls := s.calls.set i { c with phase := p.2.2 } }
  | DeviceAction.refresh op =>
      if op.isRefresh then (storeStep text s.db op).map fun db => { s with db := db } else none
  | DeviceAction.restart => some { s with db := s.db.prepare, calls := [] }

end

/-!
## The writes of a step
-/

/-- The write to the store that an event of a call is. -/
def callOp (slug : Slugify) (c : Call) : Event -> Option StoreOp
  | Event.writeIrohEndpointId host => some (StoreOp.writeIrohEndpointId c.row host)
  | Event.writeBackend =>
      match c.phase with
      | Phase.wcFetched _ backend _ => some (StoreOp.writeWispersConnectBackend c.row backend)
      | _ => none
  | Event.writeShareInfo =>
      match c.phase with
      | Phase.joined info => some (StoreOp.writeShareInfo c.row info)
      | _ => none
  | Event.writeDisplayName =>
      match c.phase with
      | Phase.infoWritten share info =>
          some (StoreOp.writeDisplayName c.row (recordedName share info))
      | _ => none
  | Event.writeDedupedHostname =>
      match c.phase with
      | Phase.nameWritten share name =>
          some (StoreOp.writeDedupedHostname c.row ((hostSlug slug name).getD share.text))
      | _ => none
  | Event.markComplete => some (StoreOp.markComplete c.row)
  | Event.deleteRow => some (StoreOp.deleteRow c.row)
  | _ => none

def deviceOp (slug : Slugify) (s : Device) : DeviceAction -> Option StoreOp
  | DeviceAction.joinIroh shareId now => some (StoreOp.newRow shareId now)
  | DeviceAction.joinWispersConnect shareId now _ => some (StoreOp.newRow shareId now)
  | DeviceAction.leave _ _ => none
  | DeviceAction.call i event => (s.calls[i]?).bind fun c => callOp slug c event
  | DeviceAction.refresh op => some op
  | DeviceAction.restart => some StoreOp.reopen

/-- A write, if there is one. -/
def writeStep (text : JsonText) (db : DB) : Option StoreOp -> Option DB
  | none => some db
  | some op => storeStep text db op

section
variable {text : JsonText} {slug : Slugify}

theorem callStep_db {db db' : DB} {secrets secrets' : List Secret} {c : Call} {phase : Phase}
    {event : Event} (h : callStep text slug db secrets c event = some (db', secrets', phase)) :
    writeStep text db (callOp slug c event) = some db' := by
  rcases c with ⟨row, current⟩
  cases event with
  | writeShareInfo =>
      simp only [callStep] at h
      split at h
      · rcases Option.bind_eq_some_iff.mp h with ⟨share, -, hwrite⟩
        rcases Option.map_eq_some_iff.mp hwrite with ⟨next, hnext, heq⟩
        cases heq
        exact hnext
      · cases h
  | writeDedupedHostname =>
      simp only [callStep] at h
      split at h
      · rcases Option.map_eq_some_iff.mp h with ⟨p, hwrite, heq⟩
        cases heq
        exact Option.map_eq_some_iff.mpr ⟨p, hwrite, rfl⟩
      · cases h
  | writeIrohEndpointId | writeBackend | writeDisplayName | markComplete | deleteRow =>
      simp only [callStep] at h
      split at h
      all_goals
        cases h
        try rfl
  -- the others leave the store alone, and some read the share id off it
  | saveIrohSecret | register | readShare | forget =>
      simp only [callStep] at h
      split at h
      · rcases Option.map_eq_some_iff.mp h with ⟨share, -, heq⟩
        cases heq
        rfl
      · cases h
  | logout =>
      simp only [callStep] at h
      split at h
      · cases h
        rfl
      · rcases Option.map_eq_some_iff.mp h with ⟨share, -, heq⟩
        cases heq
        rfl
      · cases h
  | activate | saveRootKey | saveRegistration | fetch | abandon | logoutFails | fail
  | forgetFails =>
      simp only [callStep] at h
      split at h
      all_goals
        cases h
        try rfl

theorem deviceStep_db {s t : Device} {a : DeviceAction}
    (h : deviceStep text slug s a = some t) :
    writeStep text s.db (deviceOp slug s a) = some t.db := by
  cases a with
  | joinIroh shareId now =>
      rcases Option.map_eq_some_iff.mp h with ⟨p, hnew, rfl⟩
      exact Option.map_eq_some_iff.mpr ⟨p, hnew, rfl⟩
  | joinWispersConnect shareId now backend =>
      rcases Option.map_eq_some_iff.mp h with ⟨p, hnew, rfl⟩
      exact Option.map_eq_some_iff.mpr ⟨p, hnew, rfl⟩
  | leave order key =>
      rcases Option.bind_eq_some_iff.mp h with ⟨found, -, hread⟩
      rcases Option.map_eq_some_iff.mp hread with ⟨transport, -, rfl⟩
      rfl
  | call i event =>
      rcases Option.bind_eq_some_iff.mp h with ⟨c, hc, hstep⟩
      rcases Option.map_eq_some_iff.mp hstep with ⟨⟨db', secrets', phase⟩, hcall, rfl⟩
      show writeStep text s.db ((s.calls[i]?).bind fun c => callOp slug c event) = some db'
      rw [hc, Option.bind_some]
      exact callStep_db hcall
  | refresh op =>
      simp only [deviceStep] at h
      split at h
      · rcases Option.map_eq_some_iff.mp h with ⟨db', hwrite, rfl⟩
        exact hwrite
      · cases h
  | restart =>
      cases h
      rfl

end

end Guest
end WispersAccess
