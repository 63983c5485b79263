import WispersAccess.Foundation.CompactJson
import WispersAccess.Foundation.Reader
import WispersAccess.Guest.StoredShare
import Mathlib.Data.List.Infix

/-!
# Reading a share

A share is put together from seven queries, each with the lock to itself, so that
other tasks may write between any two of them.  What comes out was in the store at
one moment where each write leaves either what is still to be read or what has
been read.
-/

namespace WispersAccess
namespace Guest

open Foundation
open Wire (SharedApp ShareInfo)

/-!
## The queries
-/

inductive ShareQuery where
  | names
  | terminalState
  | outdated
  | transportKind
  | apps
  | caCertificates
  | joinedAt
  deriving DecidableEq

/-- What a query comes to; nothing where the row is gone, apart from the apps. -/
def ShareQuery.Value : ShareQuery -> Type
  | names => Option (ShareId × String × String)
  | terminalState => Option (Option String)
  | outdated => Option Bool
  | transportKind => Option Transport
  | apps => List SharedApp
  | caCertificates => Option (List String)
  | joinedAt => Option Int

abbrev ShareReader (α : Type) :=
  Reader ShareQuery ShareQuery.Value α

/-- A query that returns an error ends the reading. -/
def orFail {α β : Type} (next : β -> ShareReader (Option α)) : Option β -> ShareReader (Option α)
  | none => Reader.done none
  | some value => next value

section
variable (text : JsonText) (id : Int)

def answerQuery (db : DB) : (query : ShareQuery) -> query.Value
  | ShareQuery.names => db.readNames id
  | ShareQuery.terminalState => db.readTerminalState id
  | ShareQuery.outdated => db.readOutdated id
  | ShareQuery.transportKind => db.readTransportKind id
  | ShareQuery.apps => db.readApps text id
  | ShareQuery.caCertificates => db.readCaCertificates text id
  | ShareQuery.joinedAt => db.readJoinedAt id

end

/-- The fields after the state. -/
def readRest (shareId : ShareId) (name label : String) (state : ShareState) :
    ShareReader (Option Share) :=
  Reader.ask ShareQuery.transportKind (orFail fun transport =>
    Reader.ask ShareQuery.apps fun apps =>
      Reader.ask ShareQuery.caCertificates (orFail fun caCertificates =>
        Reader.ask ShareQuery.joinedAt (orFail fun joinedAt =>
          Reader.done (some {
            id := shareId, name, label, transport, apps, caCertificates, state, joinedAt }))))

/-- The mark is asked for only where no terminal state is stored. -/
def readState (next : ShareState -> ShareReader (Option Share)) (terminal : Option String) :
    ShareReader (Option Share) :=
  match terminal.bind TerminalState.parse with
  | some state => next state.shareState
  | none =>
      Reader.ask ShareQuery.outdated (orFail fun outdated =>
        next (if outdated then ShareState.outdated else ShareState.live))

/-- `read_share`, query by query. -/
def shareReader : ShareReader (Option Share) :=
  Reader.ask ShareQuery.names (orFail fun (shareId, name, label) =>
    Reader.ask ShareQuery.terminalState (orFail (readState (readRest shareId name label))))

/-- What the store holds of a share at a moment. -/
structure DB.Holds (text : JsonText) (db : DB) (id : Int) (share : Share) : Prop where
  copy : db.readCopy text id = some ⟨share.name, share.apps, share.caCertificates⟩
  state : ((db.readTerminalState id).bind fun terminal =>
    (db.readOutdated id).map fun outdated => DB.stateOf terminal outdated) = some share.state

section
variable {text : JsonText} {id : Int}

theorem eval_orFail {α β : Type} {get : forall query : ShareQuery, query.Value}
    {next : β -> ShareReader (Option α)} (value : Option β) :
    (orFail next value).eval get = value.bind fun value => (next value).eval get := by
  cases value with
  | none => rfl
  | some value => rfl

theorem eval_readState {get : forall query : ShareQuery, query.Value}
    {next : ShareState -> ShareReader (Option Share)} {terminal : Option String} {outdated : Bool}
    (hget : get ShareQuery.outdated = some outdated) :
    (readState next terminal).eval get = (next (DB.stateOf terminal outdated)).eval get := by
  unfold readState DB.stateOf
  cases terminal.bind TerminalState.parse with
  | some state => rfl
  | none =>
      show (orFail _ (get ShareQuery.outdated)).eval get = _
      rw [hget]
      rfl

theorem eval_readRest (db : DB) (shareId : ShareId) (name label : String) (state : ShareState) :
    (readRest shareId name label state).eval (answerQuery text id db) =
      (db.readTransportKind id).bind fun transport =>
        (db.readCaCertificates text id).bind fun caCertificates =>
          (db.readJoinedAt id).bind fun joinedAt =>
            some {
              id := shareId, name, label, transport, apps := db.readApps text id, caCertificates,
              state, joinedAt } := by
  show (orFail _ (db.readTransportKind id)).eval _ = _
  rw [eval_orFail]
  refine congrArg _ (funext fun transport => ?_)
  show (orFail _ (db.readCaCertificates text id)).eval _ = _
  rw [eval_orFail]
  refine congrArg _ (funext fun caCertificates => ?_)
  show (orFail _ (db.readJoinedAt id)).eval _ = _
  rw [eval_orFail]
  rfl

/-- With nothing in between, the queries come to `read_share`. -/
theorem eval_shareReader (db : DB) :
    shareReader.eval (answerQuery text id db) = db.readShare text id := by
  cases hrow : db.row id with
  | none =>
      have hnames : db.readNames id = none := by
        unfold DB.readNames
        rw [hrow]
        rfl
      unfold DB.readShare
      rw [hnames]
      show (orFail _ (db.readNames id)).eval _ = none
      rw [hnames]
      rfl
  | some r =>
      have hnames : db.readNames id =
          some (r.shareId, r.displayName.getD "", r.hostname.getD "") := by
        unfold DB.readNames
        rw [hrow]
        rfl
      have hterminal : db.readTerminalState id = some r.terminalState := by
        unfold DB.readTerminalState
        rw [hrow]
        rfl
      have houtdated : db.readOutdated id = some r.outdated := by
        unfold DB.readOutdated
        rw [hrow]
        rfl
      have hreader : shareReader.eval (answerQuery text id db) =
          (readRest r.shareId (r.displayName.getD "") (r.hostname.getD "")
            (DB.stateOf r.terminalState r.outdated)).eval (answerQuery text id db) := by
        show (orFail _ (db.readNames id)).eval _ = _
        rw [hnames]
        show (orFail _ (db.readTerminalState id)).eval _ = _
        rw [hterminal]
        exact eval_readState houtdated
      rw [hreader, eval_readRest]
      unfold DB.readShare
      rw [hnames, hterminal, houtdated]
      rfl

theorem holds_of_readShare {db : DB} {share : Share} (h : db.readShare text id = some share) :
    db.Holds text id share := by
  rcases Option.bind_eq_some_iff.mp h with ⟨⟨shareId, name, label⟩, hnames, h⟩
  rcases Option.bind_eq_some_iff.mp h with ⟨terminal, hterminal, h⟩
  rcases Option.bind_eq_some_iff.mp h with ⟨outdated, houtdated, h⟩
  rcases Option.bind_eq_some_iff.mp h with ⟨transport, -, h⟩
  rcases Option.bind_eq_some_iff.mp h with ⟨caCertificates, hcertificates, h⟩
  rcases Option.bind_eq_some_iff.mp h with ⟨joinedAt, -, h⟩
  cases h
  constructor
  · unfold DB.readCopy
    rw [hnames, Option.bind_eq_bind, Option.bind_some, hcertificates]
    rfl
  · rw [hterminal, Option.bind_some, houtdated]
    rfl

/-!
## Rows that are gone
-/

/-- A row that was deleted; its id is not given again. -/
def RowGone (id : Int) (db : DB) : Prop :=
  db.row id = none ∧ id < db.shares.nextId

/-- What the queries answer for a row that is gone. -/
def GoneAnswer : (query : ShareQuery) -> query.Value -> Prop
  | ShareQuery.names, value => value = none
  | ShareQuery.terminalState, value => value = none
  | ShareQuery.outdated, value => value = none
  | ShareQuery.transportKind, value => value = none
  | ShareQuery.apps, _ => True
  | ShareQuery.caCertificates, value => value = none
  | ShareQuery.joinedAt, value => value = none

theorem rowGone_failing :
    Failing (answerQuery text id) (storeStep text) (RowGone id) GoneAnswer where
  answers := by
    intro db query hgone
    cases query with
    | apps => trivial
    | caCertificates =>
        show (db.row id).bind _ = none
        rw [hgone.left]
        rfl
    | transportKind =>
        show (db.row id).bind _ = none
        rw [hgone.left]
        rfl
    | names | terminalState | outdated | joinedAt =>
        show (db.row id).map _ = none
        rw [hgone.left]
        rfl
  keeps := by
    intro db op db' hgone hwrite
    refine ⟨?_, Int.lt_of_lt_of_le hgone.right (storeStep_nextId_le hwrite)⟩
    cases hrow : db'.row id with
    | none => rfl
    | some r' =>
        rcases storeStep_origin hwrite hrow with ⟨shareId, now, -, hid, -⟩ | ⟨r, hr, -⟩
        · exact absurd hid (Int.ne_of_lt hgone.right)
        · rw [hgone.left] at hr
          cases hr

theorem guarded_orFail {α β : Type} {kind : forall query : ShareQuery, query.Value -> Prop}
    {next : β -> ShareReader (Option α)} (h : forall value, (next value).Guarded kind)
    (value : Option β) : (orFail next value).Guarded kind := by
  cases value with
  | none => trivial
  | some value => exact h value

theorem guarded_readRest (shareId : ShareId) (name label : String) (state : ShareState) :
    (readRest shareId name label state).Guarded GoneAnswer := by
  refine ⟨fun _ hnone => hnone ▸ rfl, guarded_orFail fun transport => ⟨?_, fun apps => ?_⟩⟩
  · intro apps _
    exact fun _ hnone => hnone ▸ rfl
  · refine ⟨fun _ hnone => hnone ▸ rfl, guarded_orFail fun caCertificates => ?_⟩
    exact ⟨fun _ hnone => hnone ▸ rfl, guarded_orFail fun joinedAt => trivial⟩

/-- Where the row goes away in between, nothing comes out. -/
theorem guarded_shareReader : shareReader.Guarded GoneAnswer := by
  refine ⟨fun _ hnone => hnone ▸ rfl, guarded_orFail fun names => ?_⟩
  rcases names with ⟨shareId, name, label⟩
  refine ⟨fun _ hnone => hnone ▸ rfl, guarded_orFail fun terminal => ?_⟩
  unfold readState
  cases terminal.bind TerminalState.parse with
  | some state => exact guarded_readRest shareId name label state.shareState
  | none =>
      exact ⟨fun _ hnone => hnone ▸ rfl, guarded_orFail fun outdated =>
        guarded_readRest shareId name label _⟩

/-!
## Reading beside writers
-/

/-- A store on which a `read_share` is under way. -/
abbrev ShareReading :=
  Reading DB ShareQuery ShareQuery.Value (Option Share)

/-- A query of the `read_share`, or a write of another task. -/
abbrev shareReadingStep (text : JsonText) (id : Int) :
    ShareReading -> ReadingAction StoreOp -> Option ShareReading :=
  readingStep (answerQuery text id) (storeStep text)

/-- A write of another task deletes the row, or leaves what is still to be read, or leaves what
has been read. -/
abbrev ReadUndisturbed (text : JsonText) (id : Int) :
    ShareReading -> ReadingAction StoreOp -> Prop :=
  Undisturbed (answerQuery text id) (storeStep text) (RowGone id)

/-- What an undisturbed `read_share` returns was in the store at one moment of the call. -/
theorem read_share_returns_snapshot {db : DB} {acts : List (ReadingAction StoreOp)}
    {s : ShareReading}
    (hrun : Run (shareReadingStep text id) (Reading.start db shareReader) acts s)
    (hmeets : Meets (shareReadingStep text id) (ReadUndisturbed text id)
      (Reading.start db shareReader) acts) {share : Share}
    (hresult : s.rest.result = some (some share)) :
    exists front back mid, acts = front ++ back ∧
      Run (shareReadingStep text id) (Reading.start db shareReader) front mid ∧
      mid.store.Holds text id share := by
  rcases reading_takes_snapshot rowGone_failing rfl guarded_shareReader hrun hmeets hresult with
    ⟨front, back, mid, hacts, hmid, heval⟩
  refine ⟨front, back, mid, hacts, hmid, holds_of_readShare ?_⟩
  rw [← eval_shareReader]
  exact heval

end

/-!
## A reading that is torn
-/

def storedFamily : DB where
  shares := SerialTable.empty.insert { ShareRow.new firstShare 0 with
    displayName := some "Family"
    hostname := some "family"
    transport := Transport.iroh.asStr
    configHash := some (Wire.hashText familyInfo.configHash)
    complete := some true }
  apps := []

def sharedPhotos : SharedApp where
  id := "photos"
  name := "Photos"
  kind := Wire.AppKind.web
  mode := Wire.AppProxyMode.reverseProxy
  startUrl := none
  proxiedOrigins := []

/-- The share under a new name and with an app. -/
def renamedInfo : ShareInfo :=
  { familyInfo with configHash := 8, name := "Friends", apps := [sharedPhotos] }

/-- A refresh stores its answer between the queries for the name and for the apps. -/
def tornRead : List (ReadingAction StoreOp) :=
  List.replicate 4 ReadingAction.read ++
    ReadingAction.write (StoreOp.writeShareInfo 1 renamedInfo) ::
    List.replicate 3 ReadingAction.read

/-- The old name beside the new app. -/
def tornShare : Share where
  id := firstShare
  name := "Family"
  label := "family"
  transport := Transport.iroh
  apps := [sharedPhotos]
  caCertificates := []
  state := ShareState.live
  joinedAt := 0

instance decidableHolds (text : JsonText) (db : DB) (id : Int) (share : Share) :
    Decidable (db.Holds text id share) :=
  decidable_of_iff
    (db.readCopy text id = some ⟨share.name, share.apps, share.caCertificates⟩ ∧
      ((db.readTerminalState id).bind fun terminal =>
        (db.readOutdated id).map fun outdated => DB.stateOf terminal outdated) = some share.state)
    ⟨fun h => ⟨h.left, h.right⟩, fun h => ⟨h.copy, h.state⟩⟩

/-- It is returned, and was in the store at no moment of the call. -/
theorem read_share_torn :
    exists s, Run (shareReadingStep Json.compact 1) (Reading.start storedFamily shareReader)
        tornRead s ∧
      s.rest.result = some (some tornShare) ∧
      forall front back mid, tornRead = front ++ back ->
        Run (shareReadingStep Json.compact 1) (Reading.start storedFamily shareReader) front mid ->
          ¬ mid.store.Holds Json.compact 1 tornShare := by
  have hend : ((exec (shareReadingStep Json.compact 1) (Reading.start storedFamily shareReader)
      tornRead).bind fun s => s.rest.result) = some (some tornShare) := by
    decide +kernel
  have hall : forall front, front ∈ tornRead.inits ->
      forall mid, mid ∈ exec (shareReadingStep Json.compact 1)
          (Reading.start storedFamily shareReader) front ->
        ¬ mid.store.Holds Json.compact 1 tornShare := by
    decide +kernel
  rcases Option.bind_eq_some_iff.mp hend with ⟨s, hs, hresult⟩
  refine ⟨s, run_iff_exec.mpr hs, hresult, ?_⟩
  intro front back mid hacts hfront
  refine hall front ?_ mid (run_iff_exec.mp hfront)
  rw [hacts]
  exact (List.mem_inits _ _).mpr (List.prefix_append _ _)

/-- The app is new and the name stays, once the name has been read. -/
def undisturbedRead : List (ReadingAction StoreOp) :=
  ReadingAction.read ::
    ReadingAction.write (StoreOp.writeShareInfo 1 { renamedInfo with name := "Family" }) ::
    List.replicate 6 ReadingAction.read

theorem read_share_returns_snapshot_with_new_app :
    exists s, Run (shareReadingStep Json.compact 1) (Reading.start storedFamily shareReader)
        undisturbedRead s ∧
      exists front back mid, undisturbedRead = front ++ back ∧
        Run (shareReadingStep Json.compact 1) (Reading.start storedFamily shareReader) front mid ∧
        mid.store.Holds Json.compact 1 tornShare := by
  have hend : ((exec (shareReadingStep Json.compact 1) (Reading.start storedFamily shareReader)
      undisturbedRead).bind fun s => s.rest.result) = some (some tornShare) := by
    decide +kernel
  have hnames : ((storeStep Json.compact storedFamily
      (StoreOp.writeShareInfo 1 { renamedInfo with name := "Family" })).map fun db =>
        db.readNames 1) = some (storedFamily.readNames 1) := by
    decide +kernel
  have hmeets : Meets (shareReadingStep Json.compact 1) (ReadUndisturbed Json.compact 1)
      (Reading.start storedFamily shareReader) undisturbedRead := by
    refine ⟨trivial, ?_⟩
    intro asked hasked
    cases hasked
    refine ⟨?_, fun written _ => meets_of_forall (fun a ha _ => ?_) written⟩
    · intro db (hwrite : storeStep Json.compact storedFamily _ = some db)
      refine Or.inr (Or.inl ?_)
      intro e he
      rw [hwrite] at hnames
      cases List.mem_singleton.mp he
      exact Option.some.inj hnames
    · rw [List.eq_of_mem_replicate ha]
      trivial
  rcases Option.bind_eq_some_iff.mp hend with ⟨s, hs, hresult⟩
  have hrun := run_iff_exec.mpr hs
  exact ⟨s, hrun, read_share_returns_snapshot hrun hmeets hresult⟩

end Guest
end WispersAccess
