import WispersAccess.Foundation.SerialTable
import WispersAccess.Guest.ForwardProxy
import WispersAccess.Wire.Documents
import Mathlib.Algebra.GroupWithZero.Nat
import Mathlib.Data.List.Sort

/-!
# The guest's store

The shares a device has joined and the apps in them, as the SDK keeps them in
SQLite, and the operations on a share's row.  Each operation is one database
access under the connection's lock; one that fails leaves the tables as they
were.  An operation that reads a row that is gone returns nothing.
-/

namespace WispersAccess
namespace Guest

open Foundation
open Wire (AppKind AppProxyMode SharedApp ShareInfo hashText parseHash)

/-!
## Texts and enumerations
-/

/-- `str::len`, in bytes. -/
def byteLen (s : String) : Nat :=
  (s.toList.map Char.utf8Size).sum

def isUuidChar (c : Char) : Bool :=
  ('0' ≤ c && c ≤ '9') || ('a' ≤ c && c ≤ 'f') || c == '-'

/-- The text of a UUID: 36 lowercase hexadecimal digits and hyphens. -/
def isUuidText (s : String) : Bool :=
  s.toList.length = 36 && s.toList.all isUuidChar

/-- Device-local id of a share. -/
structure ShareId where
  text : String
  minted : isUuidText text = true
  deriving DecidableEq, Repr

/-- Share ids to run the model on. -/
def firstShare : ShareId where
  text := "11111111-1111-4111-8111-111111111111"
  minted := by decide

def secondShare : ShareId where
  text := "22222222-2222-4222-8222-222222222222"
  minted := by decide

/-- What a host tells about a share without apps. -/
def familyInfo : ShareInfo where
  configHash := 7
  name := "Family"
  transport := "iroh"
  apps := []
  caCertificates := []

inductive Transport where
  | wispersConnect
  | iroh
  | tailscale
  deriving DecidableEq, Repr

def Transport.asStr : Transport -> String
  | wispersConnect => "wispers-connect"
  | iroh => "iroh"
  | tailscale => "tailscale"

def Transport.parse (name : String) : Option Transport :=
  if name = "wispers-connect" then some wispersConnect
  else if name = "iroh" then some iroh
  else if name = "tailscale" then some tailscale
  else none

def TerminalState.asStr : TerminalState -> String
  | removed => "removed"
  | revoked => "revoked"

def TerminalState.parse (s : String) : Option TerminalState :=
  if s = "removed" then some removed
  else if s = "revoked" then some revoked
  else none

inductive ShareState where
  | live
  | outdated
  | removed
  | revoked
  deriving DecidableEq, Repr

def TerminalState.shareState : TerminalState -> ShareState
  | removed => ShareState.removed
  | revoked => ShareState.revoked

theorem Transport.parse_asStr (t : Transport) : Transport.parse t.asStr = some t := by
  cases t <;> rfl

theorem Transport.eq_asStr_of_parse {name : String} {t : Transport}
    (h : Transport.parse name = some t) : name = t.asStr := by
  unfold Transport.parse at h
  split at h
  · cases h
    assumption
  · split at h
    · cases h
      assumption
    · split at h
      · cases h
        assumption
      · cases h

theorem TerminalState.parse_asStr (t : TerminalState) : TerminalState.parse t.asStr = some t := by
  cases t <;> rfl

/-!
## The tables
-/

/-- A row of `shares`.  `complete` is NULL until a join marks it. -/
structure ShareRow where
  shareId : ShareId
  displayName : Option String
  hostname : Option String
  transport : String
  wispersConnectBackend : Option String
  irohEndpointId : Option String
  configHash : Option String
  createdAt : Int
  complete : Option Bool
  terminalState : Option String
  outdated : Bool
  caCertificates : String
  deriving DecidableEq, Repr

/-- The row `new_row` inserts, with the columns' defaults. -/
def ShareRow.new (shareId : ShareId) (now : Int) : ShareRow where
  shareId := shareId
  displayName := none
  hostname := none
  transport := Transport.wispersConnect.asStr
  wispersConnectBackend := none
  irohEndpointId := none
  configHash := none
  createdAt := now
  complete := none
  terminalState := none
  outdated := false
  caCertificates := "[]"

/-- A row of `apps`; the kind and the mode are texts, the origins a JSON list. -/
structure AppRow where
  share : Int
  position : Nat
  appId : String
  name : String
  kind : String
  mode : String
  startUrl : Option String
  proxiedOrigins : String
  deriving DecidableEq, Repr

structure DB where
  shares : SerialTable ShareRow
  apps : List AppRow

/-- The share as the SDK's API presents it. -/
structure Share where
  id : ShareId
  name : String
  label : String
  transport : Transport
  apps : List SharedApp
  caCertificates : List String
  state : ShareState
  joinedAt : Int
  deriving DecidableEq, Repr

namespace DB

def empty : DB where
  shares := SerialTable.empty
  apps := []

def row (db : DB) (id : Int) : Option ShareRow :=
  db.shares.lookup id

/-- `UPDATE shares SET … WHERE id = ?`. -/
def updateShare (db : DB) (id : Int) (f : ShareRow -> ShareRow) : DB :=
  { db with shares := db.shares.updateRow id f }

/-!
## Rows come and go
-/

/-- Insert a row for a join; its share id must be new. -/
def newRow (db : DB) (shareId : ShareId) (now : Int) : Option (DB × Int) :=
  if db.shares.rows.any fun r => r.2.shareId = shareId then none
  else some ({ db with shares := db.shares.insert (ShareRow.new shareId now) }, db.shares.nextId)

/-- `complete = TRUE AND (hostname = ?1 OR share_id = ?1)`. -/
def matchesKey (key : String) (r : ShareRow) : Bool :=
  SerialTable.isTrue
    (SerialTable.andAlso (SerialTable.eqValue r.complete true)
      (SerialTable.orElse (SerialTable.eqValue r.hostname key)
        (SerialTable.eqValue (some r.shareId.text) key)))

/-- Look a share up by its hostname label (or share id). -/
def findRow (order : SerialTable.QueryOrder ShareRow) (db : DB) (key : String) :
    Option (Int × ShareRow) :=
  SerialTable.findRow order db.shares (matchesKey key)

def getAllRows (db : DB) : List Int :=
  (db.shares.rows.filter fun r =>
    SerialTable.isTrue (SerialTable.eqValue r.2.complete true)).map Prod.fst

def markComplete (db : DB) (id : Int) : DB :=
  db.updateShare id fun r => { r with complete := some true }

/-- The share's apps go with its row. -/
def deleteRow (db : DB) (id : Int) : DB where
  shares := db.shares.deleteRow id
  apps := db.apps.filter fun app => app.share ≠ id

/-- `DELETE FROM shares WHERE complete = FALSE`; the apps go with their rows. -/
def cleanUpIncompleteRows (db : DB) : DB :=
  let stale := fun (r : ShareRow) => SerialTable.isTrue (SerialTable.eqValue r.complete false)
  { shares := db.shares.keepRows fun _ r => !stale r
    apps := db.apps.filter fun app => !((db.row app.share).any stale) }

/-- What opening the store does to tables at the latest version of the schema. -/
def prepare (db : DB) : DB :=
  db.cleanUpIncompleteRows

/-!
## Columns
-/

def writeDisplayName (db : DB) (id : Int) (name : String) : DB :=
  db.updateShare id fun r => { r with displayName := some name }

def writeWispersConnectBackend (db : DB) (id : Int) (backend : Option String) : DB :=
  db.updateShare id fun r => { r with wispersConnectBackend := backend }

def writeIrohEndpointId (db : DB) (id : Int) (hostEndpointId : String) : DB :=
  db.updateShare id fun r =>
    { r with transport := Transport.iroh.asStr, irohEndpointId := some hostEndpointId }

def writeTerminalState (db : DB) (id : Int) (state : String) : DB :=
  db.updateShare id fun r => { r with terminalState := some state }

/-- The second part says whether this write changed the value. -/
def writeOutdated (db : DB) (id : Int) (outdated : Bool) : DB × Bool :=
  (db.updateShare id fun r => { r with outdated := outdated },
    (db.row id).any fun r => r.outdated ≠ outdated)

/-- `(share id, display name, hostname label)`. -/
def readNames (db : DB) (id : Int) : Option (ShareId × String × String) :=
  (db.row id).map fun r => (r.shareId, r.displayName.getD "", r.hostname.getD "")

def readShareId (db : DB) (id : Int) : Option ShareId :=
  (db.row id).map fun r => r.shareId

def readTransportKind (db : DB) (id : Int) : Option Transport :=
  (db.row id).bind fun r => Transport.parse r.transport

/-- No hash is read off a column that is NULL or not a hash. -/
def readShareConfigHash (db : DB) (id : Int) : Option (Option UInt64) :=
  (db.row id).map fun r => r.configHash.bind parseHash

def readTerminalState (db : DB) (id : Int) : Option (Option String) :=
  (db.row id).map fun r => r.terminalState

def readOutdated (db : DB) (id : Int) : Option Bool :=
  (db.row id).map fun r => r.outdated

def readJoinedAt (db : DB) (id : Int) : Option Int :=
  (db.row id).map fun r => max r.createdAt 0

/-!
## Share info
-/

section
variable (text : JsonText)

def appRow (id : Int) (position : Nat) (app : SharedApp) : AppRow where
  share := id
  position := position
  appId := app.id
  name := app.name
  kind := app.kind.asStr
  mode := app.mode.asStr
  startUrl := app.startUrl
  proxiedOrigins := text.printTexts app.proxiedOrigins

/-- One transaction.  An app id may occur once in a share, and apps need their share. -/
def writeShareInfo (db : DB) (id : Int) (info : ShareInfo) : Option DB :=
  if (info.apps.map fun app => app.id).Nodup ∧ ((db.row id).isSome ∨ info.apps = []) then
    some {
      shares := db.shares.updateRow id fun r => { r with
        displayName := some info.name
        configHash := some (hashText info.configHash)
        caCertificates := text.printTexts info.caCertificates }
      apps := (db.apps.filter fun app => app.share ≠ id) ++ info.apps.mapIdx (appRow text id) }
  else none

def AppRow.read (app : AppRow) : SharedApp where
  id := app.appId
  name := app.name
  kind := AppKind.parseOrWeb app.kind
  mode := AppProxyMode.parse app.mode
  startUrl := app.startUrl
  proxiedOrigins := (text.parseTexts app.proxiedOrigins).getD []

/-- The apps as last fetched, in the host's order. -/
def readApps (db : DB) (id : Int) : List SharedApp :=
  ((db.apps.filter fun app => app.share = id).insertionSort
    fun a b => a.position ≤ b.position).map (AppRow.read text)

def readCaCertificates (db : DB) (id : Int) : Option (List String) :=
  (db.row id).bind fun r => text.parseTexts r.caCertificates

/-- The state of a share whose terminal state and outdated mark are read. -/
def stateOf (terminal : Option String) (outdated : Bool) : ShareState :=
  match terminal.bind TerminalState.parse with
  | some state => state.shareState
  | none => if outdated then ShareState.outdated else ShareState.live

/-- `read_share` with nothing happening between its queries. -/
def readShare (db : DB) (id : Int) : Option Share := do
  let (shareId, name, label) <- db.readNames id
  let terminal <- db.readTerminalState id
  let outdated <- db.readOutdated id
  let transport <- db.readTransportKind id
  let caCertificates <- db.readCaCertificates text id
  let joinedAt <- db.readJoinedAt id
  return {
    id := shareId
    name := name
    label := label
    transport := transport
    apps := db.readApps text id
    caCertificates := caCertificates
    state := stateOf terminal outdated
    joinedAt := joinedAt }

end

end DB

end Guest
end WispersAccess
