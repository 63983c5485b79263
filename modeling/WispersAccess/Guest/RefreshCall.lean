import WispersAccess.Guest.RefreshRuns
import WispersAccess.Guest.Snapshot

/-!
# One refresh

A refresh of a guest node from its call to its return, with nothing else going
on: what it writes, what it tells the observer, and what it returns, wherever an
access to the store fails.
-/

namespace WispersAccess
namespace Guest

open Foundation
open Wire (ShareInfo)

/-- What a refresh of a guest node returns. -/
inductive NodeRefresh where
  | refreshed (info : Option ShareInfo)
  | terminal
  | outdated
  | transient
  deriving DecidableEq

/-- The accesses to the store that fail of themselves.  A refresh makes each at most once. -/
structure StoreFaults where
  readHash : Bool
  writeTerminalState : Bool
  writeOutdated : Bool
  writeShareInfo : Bool
  readShare : Bool
  deriving DecidableEq

def StoreFaults.none : StoreFaults where
  readHash := false
  writeTerminalState := false
  writeOutdated := false
  writeShareInfo := false
  readShare := false

/-- A share's guest node, with the store and what the observer has been told. -/
structure WatchedNode where
  db : DB
  dead : Option TerminalState
  told : List Share

namespace WatchedNode

section
variable (text : JsonText) (id : Int) (faults : StoreFaults)

/-- `on_share_changed(read_share()?)`. -/
def tellShare (s : WatchedNode) : Option WatchedNode :=
  if faults.readShare then none
  else (s.db.readShare text id).map fun share => { s with told := s.told ++ [share] }

def recordTerminalError (state : TerminalState) (s : WatchedNode) : WatchedNode :=
  let marked := { s with dead := some state }
  if faults.writeTerminalState then marked
  else
    let written := { marked with db := s.db.writeTerminalState id state.asStr }
    (written.tellShare text id faults).getD written

def openStream (answer : Except TransportError Unit) (s : WatchedNode) :
    Except TransportError Unit × WatchedNode :=
  match s.dead with
  | some state => (Except.error (TransportError.terminal state), s)
  | none =>
      match answer with
      | Except.error (TransportError.terminal state) =>
          (Except.error (TransportError.terminal state), s.recordTerminalError text id faults state)
      | other => (other, s)

def storeInfo (info : Option ShareInfo) (s : WatchedNode) : Option WatchedNode :=
  match info with
  | none => some s
  | some info =>
      if faults.writeShareInfo then none
      else (s.db.writeShareInfo text id info).map fun db => { s with db := db }

/-- The host asks for a newer SDK. -/
def turnAway (s : WatchedNode) : NodeRefresh × WatchedNode :=
  if faults.writeOutdated then (NodeRefresh.transient, s)
  else
    let (db, changed) := s.db.writeOutdated id true
    let marked := { s with db := db }
    if changed then
      match marked.tellShare text id faults with
      | none => (NodeRefresh.transient, marked)
      | some told => (NodeRefresh.outdated, told)
    else (NodeRefresh.outdated, marked)

/-- The host serves: nothing has changed, or this is the share now. -/
def takeAnswer (info : Option ShareInfo) (s : WatchedNode) : NodeRefresh × WatchedNode :=
  if faults.writeOutdated then (NodeRefresh.transient, s)
  else
    let (db, previouslyOutdated) := s.db.writeOutdated id false
    let cleared := { s with db := db }
    match cleared.storeInfo text id faults info with
    | none => (NodeRefresh.transient, cleared)
    | some stored =>
        if previouslyOutdated || info.isSome then
          match stored.tellShare text id faults with
          | none => (NodeRefresh.transient, stored)
          | some told => (NodeRefresh.refreshed info, told)
        else (NodeRefresh.refreshed info, stored)

/-- `GuestNode::refresh`.  The host's answer may depend on the hash it is told. -/
def refresh (opening : Except TransportError Unit) (answer : Option UInt64 -> Fetched)
    (s : WatchedNode) : NodeRefresh × WatchedNode :=
  match s.openStream text id faults opening with
  | (Except.error (TransportError.terminal _), s) => (NodeRefresh.terminal, s)
  | (Except.error TransportError.transient, s) => (NodeRefresh.transient, s)
  | (Except.ok (), s) =>
      match if faults.readHash then none else s.db.readShareConfigHash id with
      | none => (NodeRefresh.transient, s)
      | some known =>
          match answer known with
          | Fetched.unchanged => s.takeAnswer text id faults none
          | Fetched.info info => s.takeAnswer text id faults (some info)
          | Fetched.tooOld => s.turnAway text id faults
          | Fetched.failed => (NodeRefresh.transient, s)

end

end WatchedNode

/-!
## The share after a write
-/

/-- The state of a share once its mark is written. -/
def ShareState.marked (outdated : Bool) : ShareState -> ShareState
  | live => if outdated then ShareState.outdated else live
  | ShareState.outdated => if outdated then ShareState.outdated else live
  | removed => removed
  | revoked => revoked

namespace DB

section
variable {text : JsonText} {db : DB} {id : Int} {share : Share}

/-- The share that a row and its apps hold. -/
def shareOf (text : JsonText) (db : DB) (id : Int) (r : ShareRow) (transport : Transport)
    (caCertificates : List String) : Share where
  id := r.shareId
  name := r.displayName.getD ""
  label := r.hostname.getD ""
  transport := transport
  apps := db.readApps text id
  caCertificates := caCertificates
  state := stateOf r.terminalState r.outdated
  joinedAt := max r.createdAt 0

theorem readShare_eq_some_iff {r : ShareRow} (hr : db.row id = some r) :
    db.readShare text id = some share <->
      exists transport certificates, Transport.parse r.transport = some transport ∧
        text.parseTexts r.caCertificates = some certificates ∧
        shareOf text db id r transport certificates = share := by
  simp only [readShare, readNames, readTerminalState, readOutdated, readTransportKind,
    readCaCertificates, readJoinedAt, hr, Option.map_some, Option.bind_some, Option.bind_eq_bind]
  constructor
  · intro h
    rcases Option.bind_eq_some_iff.mp h with ⟨transport, htransport, h⟩
    rcases Option.bind_eq_some_iff.mp h with ⟨certificates, hcertificates, h⟩
    exact ⟨transport, certificates, htransport, hcertificates, Option.some.inj h⟩
  · intro hread
    rcases hread with ⟨transport, certificates, htransport, hcertificates, rfl⟩
    rw [htransport, hcertificates]
    rfl

theorem row_of_readShare (h : db.readShare text id = some share) :
    exists r, db.row id = some r := by
  cases hrow : db.row id with
  | none => simp [readShare, readNames, hrow] at h
  | some r => exact ⟨r, rfl⟩

/-- A write of other columns than the ones a share is read off. -/
theorem readShare_updateState {f : ShareRow -> ShareRow} {state : ShareState}
    (h : db.readShare text id = some share)
    (hf : forall r, db.row id = some r -> f r = { r with
      terminalState := (f r).terminalState, outdated := (f r).outdated } ∧
      stateOf (f r).terminalState (f r).outdated = state) :
    (db.updateShare id f).readShare text id = some { share with state := state } := by
  rcases row_of_readShare h with ⟨r, hr⟩
  rcases (readShare_eq_some_iff hr).mp h with ⟨transport, certificates, htransport,
    hcertificates, rfl⟩
  rcases hf r hr with ⟨hcolumns, hstate⟩
  apply (readShare_eq_some_iff (row_updateShare_self hr)).mpr
  refine ⟨transport, certificates, ?_, ?_, ?_⟩
  · rw [hcolumns]
    exact htransport
  · rw [hcolumns]
    exact hcertificates
  · rw [← hstate, hcolumns]
    rfl

theorem stateOf_marked (terminal : Option String) (before outdated : Bool) :
    stateOf terminal outdated = (stateOf terminal before).marked outdated := by
  unfold stateOf
  cases terminal.bind TerminalState.parse with
  | none => cases before <;> cases outdated <;> rfl
  | some state => cases state <;> rfl

theorem readShare_writeOutdated (h : db.readShare text id = some share) (outdated : Bool) :
    (db.writeOutdated id outdated).1.readShare text id =
      some { share with state := share.state.marked outdated } := by
  apply readShare_updateState h
  intro r hr
  rcases (readShare_eq_some_iff hr).mp h with ⟨transport, certificates, _, _, rfl⟩
  exact ⟨rfl, stateOf_marked r.terminalState r.outdated outdated⟩

/-- A write that does not move the mark does not change the state. -/
theorem marked_of_unmoved (h : db.readShare text id = some share) {outdated : Bool}
    (hmoved : (db.writeOutdated id outdated).2 = false) :
    share.state.marked outdated = share.state := by
  rcases row_of_readShare h with ⟨r, hr⟩
  rcases (readShare_eq_some_iff hr).mp h with ⟨transport, certificates, _, _, rfl⟩
  simp only [writeOutdated, hr, Option.any_some, decide_eq_false_iff_not, ne_eq,
    not_not] at hmoved
  show (stateOf r.terminalState r.outdated).marked outdated =
    stateOf r.terminalState r.outdated
  rw [← stateOf_marked, hmoved]

theorem readShare_writeTerminalState (h : db.readShare text id = some share)
    (state : TerminalState) :
    (db.writeTerminalState id state.asStr).readShare text id =
      some { share with state := state.shareState } := by
  apply readShare_updateState h
  intro r hr
  refine ⟨rfl, ?_⟩
  simp [stateOf, TerminalState.parse_asStr]

theorem readShare_writeShareInfo {db' : DB} {info : ShareInfo}
    (h : db.readShare text id = some share) (hwrite : db.writeShareInfo text id info = some db') :
    db'.readShare text id = some { share with
      name := info.name, apps := info.apps, caCertificates := info.caCertificates } := by
  rcases row_of_readShare h with ⟨r, hr⟩
  rcases (readShare_eq_some_iff hr).mp h with ⟨transport, certificates, htransport, _, rfl⟩
  have hrow := writeShareInfo_some hwrite id
  rw [hr, Option.map_some, if_pos rfl] at hrow
  apply (readShare_eq_some_iff hrow).mpr
  refine ⟨transport, info.caCertificates, htransport, text.parseTexts_printTexts _, ?_⟩
  unfold shareOf
  rw [readApps_writeShareInfo hwrite]
  rfl

end

end DB

/-!
## A refresh among others

The call is one of the refreshes that run beside each other, taken from its start to its return.
-/

section
variable {text : JsonText} {w : Host.World} {id : Int} {host : ShareHost} {faults : StoreFaults}

/-- From here on a lone refresh gets to the store. -/
def Reaches (text : JsonText) (w : Host.World) (id : Int) (host : ShareHost) (db : DB)
    (phase : RefreshPhase) (db' : DB) : Prop :=
  exists acts t, Run (refreshStep text w id) { db, host, calls := [phase] } acts t ∧ t.db = db'

theorem reaches_here (db : DB) (phase : RefreshPhase) : Reaches text w id host db phase db :=
  ⟨[], _, Run.nil _, rfl⟩

theorem reaches_event {db mid db' : DB} {phase phase' : RefreshPhase} (event : RefreshEvent)
    (hevent : refreshEvent text w id db host phase event = some (mid, phase'))
    (hrest : Reaches text w id host mid phase' db') : Reaches text w id host db phase db' := by
  rcases hrest with ⟨acts, t, hrun, hdb⟩
  refine ⟨RefreshAction.call 0 event :: acts, t, Run.cons ?_ hrun, hdb⟩
  simp [refreshStep, hevent]

theorem db_of_tellShare {s told : WatchedNode} (h : s.tellShare text id faults = some told) :
    told.db = s.db := by
  unfold WatchedNode.tellShare at h
  split at h
  · cases h
  · rcases Option.map_eq_some_iff.mp h with ⟨share, _, rfl⟩
    rfl

/-- What is told does not matter to the store. -/
theorem db_told (s : WatchedNode) (out : NodeRefresh) :
    (match s.tellShare text id faults with
      | none => (NodeRefresh.transient, s)
      | some told => (out, told)).2.db = s.db := by
  cases htell : s.tellShare text id faults with
  | none => rfl
  | some told => exact db_of_tellShare htell

theorem reaches_turnAway (s : WatchedNode) :
    Reaches text w id host s.db RefreshPhase.refused (s.turnAway text id faults).2.db := by
  unfold WatchedNode.turnAway
  split
  · exact reaches_here _ _
  · refine reaches_event RefreshEvent.markOutdated rfl ?_
    dsimp only
    split
    · rw [db_told]
      exact reaches_here _ _
    · exact reaches_here _ _

theorem reaches_takeAnswer (s : WatchedNode) (version : Nat) (info : Option ShareInfo) :
    Reaches text w id host s.db (RefreshPhase.answered version info)
      (s.takeAnswer text id faults info).2.db := by
  unfold WatchedNode.takeAnswer
  split
  · exact reaches_here _ _
  · cases info with
    | none =>
        refine reaches_event RefreshEvent.clearOutdated rfl ?_
        dsimp only [WatchedNode.storeInfo]
        split
        · rw [db_told]
          exact reaches_here _ _
        · exact reaches_here _ _
    | some info =>
        refine reaches_event RefreshEvent.clearOutdated rfl ?_
        dsimp only
        cases hstored : WatchedNode.storeInfo text id faults (some info)
            { s with db := (s.db.writeOutdated id false).1 } with
        | none => exact reaches_here _ _
        | some stored =>
            unfold WatchedNode.storeInfo at hstored
            dsimp only at hstored
            split at hstored
            · cases hstored
            · rcases Option.map_eq_some_iff.mp hstored with ⟨db', hwrite, rfl⟩
              refine reaches_event RefreshEvent.storeInfo
                (congrArg (Option.map _) hwrite) ?_
              simp only [Option.isSome_some, Bool.or_true, if_true]
              rw [db_told]
              exact reaches_here _ _

/-- What a refresh leaves in the store, over a stream the host has just taken up, is what a
refresh of the system leaves there that nothing interrupts. -/
theorem refresh_is_run (s : WatchedNode) (served : Answering) (hdead : s.dead = none) :
    exists acts t, Run (refreshStep text w id) { db := s.db, host, calls := [] } acts t ∧
      t.db = (s.refresh text id faults (Except.ok ()) fun known =>
        fetched text (hostAnswer text w ⟨host.current, host.transport⟩ known served)).2.db := by
  have hreaches : Reaches text w id host s.db (RefreshPhase.opened none)
      (s.refresh text id faults (Except.ok ()) fun known =>
        fetched text (hostAnswer text w ⟨host.current, host.transport⟩ known served)).2.db := by
    refine reaches_event RefreshEvent.accept rfl ?_
    unfold WatchedNode.refresh WatchedNode.openStream
    rw [hdead]
    dsimp only
    split
    · exact reaches_here _ _
    · rename_i known hknown
      split at hknown
      · cases hknown
      · refine reaches_event RefreshEvent.readHash
          (congrArg (Option.map _) hknown) ?_
        refine reaches_event (RefreshEvent.answer served)
          (congrArg (Option.map _) host.newest_current) ?_
        cases fetched text (hostAnswer text w ⟨host.current, host.transport⟩ known served) with
        | unchanged => exact reaches_takeAnswer s host.newest none
        | info info => exact reaches_takeAnswer s host.newest (some info)
        | tooOld => exact reaches_turnAway s
        | failed => exact reaches_here _ _
  rcases hreaches with ⟨acts, t, hrun, hdb⟩
  exact ⟨RefreshAction.start :: acts, t, Run.cons rfl hrun, hdb⟩

end

end Guest
end WispersAccess
