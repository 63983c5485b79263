import WispersAccess.Foundation.ActionSystem
import WispersAccess.Guest.Labels

/-!
# The guest's store over time

The writes a store sees, one after the other, and what each of them leaves of a
row.  A share id never changes, a label changes only where one is claimed, and
only `mark_complete` completes a row.
-/

namespace WispersAccess
namespace Guest

open Foundation
open Wire (ShareInfo)

/-- One write to the store. -/
inductive StoreOp where
  | newRow (shareId : ShareId) (now : Int)
  | writeDisplayName (id : Int) (name : String)
  | writeDedupedHostname (id : Int) (hostname : String)
  | writeWispersConnectBackend (id : Int) (backend : Option String)
  | writeIrohEndpointId (id : Int) (host : String)
  | writeShareInfo (id : Int) (info : ShareInfo)
  | markComplete (id : Int)
  | writeTerminalState (id : Int) (state : TerminalState)
  | writeOutdated (id : Int) (outdated : Bool)
  | deleteRow (id : Int)
  /-- The process stops, and the store is opened again. -/
  | reopen
  deriving DecidableEq

section
variable (text : JsonText)

/-- The store after a write; nothing where the write is refused. -/
def storeStep (db : DB) : StoreOp -> Option DB
  | StoreOp.newRow shareId now => (db.newRow shareId now).map Prod.fst
  | StoreOp.writeDisplayName id name => some (db.writeDisplayName id name)
  | StoreOp.writeDedupedHostname id hostname =>
      (db.writeDedupedHostname id hostname).map Prod.fst
  | StoreOp.writeWispersConnectBackend id backend =>
      some (db.writeWispersConnectBackend id backend)
  | StoreOp.writeIrohEndpointId id host => some (db.writeIrohEndpointId id host)
  | StoreOp.writeShareInfo id info => db.writeShareInfo text id info
  | StoreOp.markComplete id => some (db.markComplete id)
  | StoreOp.writeTerminalState id state => some (db.writeTerminalState id state.asStr)
  | StoreOp.writeOutdated id outdated => some (db.writeOutdated id outdated).1
  | StoreOp.deleteRow id => some (db.deleteRow id)
  | StoreOp.reopen => some db.prepare

end

/-!
## Rows after a write
-/

namespace DB

theorem row_updateShare {db : DB} {id j : Int} {f : ShareRow -> ShareRow} :
    (db.updateShare id f).row j = (db.row j).map fun r => if j = id then f r else r :=
  SerialTable.lookup_updateRow db.shares id j f

theorem row_updateShare_self {db : DB} {id : Int} {f : ShareRow -> ShareRow} {r : ShareRow}
    (hr : db.row id = some r) : (db.updateShare id f).row id = some (f r) := by
  rw [row_updateShare, hr, Option.map_some, if_pos rfl]

theorem row_updateShare_other {db : DB} {id j : Int} {f : ShareRow -> ShareRow} (hj : j ≠ id) :
    (db.updateShare id f).row j = db.row j := by
  rw [row_updateShare]
  cases db.row j with
  | none => rfl
  | some r => rw [Option.map_some, if_neg hj]

theorem newRow_eq_some_iff {db db' : DB} {shareId : ShareId} {now id : Int} :
    db.newRow shareId now = some (db', id) <->
      (forall j r, db.row j = some r -> r.shareId ≠ shareId) ∧ id = db.shares.nextId ∧
        db' = { db with shares := db.shares.insert (ShareRow.new shareId now) } := by
  have htaken : (db.shares.rows.any fun r => r.2.shareId = shareId) = true <->
      exists j r, db.row j = some r ∧ r.shareId = shareId := by
    simp only [List.any_eq_true, decide_eq_true_eq]
    constructor
    · intro hrow
      rcases hrow with ⟨r, hr, heq⟩
      exact ⟨r.1, r.2, SerialTable.lookup_eq_some_iff.mpr hr, heq⟩
    · intro hrow
      rcases hrow with ⟨j, r, hr, heq⟩
      exact ⟨(j, r), SerialTable.lookup_eq_some_iff.mp hr, heq⟩
  unfold newRow
  split
  · rename_i h
    rcases htaken.mp h with ⟨j, r, hr, heq⟩
    constructor
    · intro hnone
      cases hnone
    · intro hnew
      rcases hnew with ⟨hfree, -, -⟩
      exact absurd heq (hfree j r hr)
  · rename_i h
    constructor
    · intro hsome
      cases hsome
      exact ⟨fun j r hr heq => h (htaken.mpr ⟨j, r, hr, heq⟩), rfl, rfl⟩
    · intro hold
      rcases hold with ⟨-, rfl, rfl⟩
      rfl

theorem row_newRow {db db' : DB} {shareId : ShareId} {now id : Int}
    (h : db.newRow shareId now = some (db', id)) (j : Int) (r : ShareRow) :
    db'.row j = some r <-> db.row j = some r ∨ (j = id ∧ r = ShareRow.new shareId now) := by
  rcases newRow_eq_some_iff.mp h with ⟨-, rfl, rfl⟩
  exact SerialTable.lookup_insert_eq_some_iff

theorem row_deleteRow {db : DB} {id j : Int} {r : ShareRow} :
    (db.deleteRow id).row j = some r <-> db.row j = some r ∧ j ≠ id :=
  SerialTable.lookup_deleteRow_eq_some_iff

theorem row_prepare {db : DB} {j : Int} {r : ShareRow} :
    db.prepare.row j = some r <-> db.row j = some r ∧ r.complete ≠ some false := by
  refine SerialTable.lookup_keepRows_eq_some_iff.trans (and_congr_right fun _ => ?_)
  rw [Bool.not_eq_true', ← Bool.not_eq_true, SerialTable.isTrue_eqValue]

theorem writeShareInfo_some {text : JsonText} {db db' : DB} {id : Int} {info : ShareInfo}
    (h : db.writeShareInfo text id info = some db') (j : Int) :
    db'.row j = (db.row j).map fun r =>
      if j = id then
        { r with
          displayName := some info.name
          configHash := some (Wire.hashText info.configHash)
          caCertificates := text.printTexts info.caCertificates }
      else r := by
  unfold writeShareInfo at h
  split at h
  · cases h
    exact SerialTable.lookup_updateRow _ _ _ _
  · cases h

theorem nextId_writeShareInfo {text : JsonText} {db db' : DB} {id : Int} {info : ShareInfo}
    (h : db.writeShareInfo text id info = some db') : db'.shares.nextId = db.shares.nextId := by
  unfold writeShareInfo at h
  split at h
  · cases h
    rfl
  · cases h

theorem mem_getAllRows {db : DB} {id : Int} :
    id ∈ db.getAllRows <-> exists r, db.row id = some r ∧ r.complete = some true := by
  unfold getAllRows
  simp only [List.mem_map, List.mem_filter, SerialTable.isTrue_eqValue]
  constructor
  · intro h
    rcases h with ⟨r, ⟨hr, hcomplete⟩, rfl⟩
    exact ⟨r.2, SerialTable.lookup_eq_some_iff.mpr hr, hcomplete⟩
  · intro h
    rcases h with ⟨r, hr, hcomplete⟩
    exact ⟨(id, r), ⟨SerialTable.lookup_eq_some_iff.mp hr, hcomplete⟩, rfl⟩

theorem matchesKey_iff {key : String} {r : ShareRow} :
    matchesKey key r = true <->
      r.complete = some true ∧ (r.hostname = some key ∨ r.shareId.text = key) := by
  unfold matchesKey
  simp

end DB

/-- What every write leaves of a row that it does not delete. -/
structure RowKept (op : StoreOp) (id : Int) (r r' : ShareRow) : Prop where
  shareId : r'.shareId = r.shareId
  complete : r'.complete = if op = StoreOp.markComplete id then some true else r.complete
  hostname : (forall hostname, op ≠ StoreOp.writeDedupedHostname id hostname) ->
    r'.hostname = r.hostname
  transport : (forall host, op ≠ StoreOp.writeIrohEndpointId id host) ->
    r'.transport = r.transport

/-- A write to one row that keeps its share id, its label and whether it is complete. -/
theorem RowKept.of_update {op : StoreOp} {id : Int} {f : ShareRow -> ShareRow}
    (hop : forall j, op ≠ StoreOp.markComplete j) (hshare : forall r, (f r).shareId = r.shareId)
    (hcomplete : forall r, (f r).complete = r.complete)
    (hhostname : forall r, (forall hostname, op ≠ StoreOp.writeDedupedHostname id hostname) ->
      (f r).hostname = r.hostname)
    (htransport : forall r, (forall host, op ≠ StoreOp.writeIrohEndpointId id host) ->
      (f r).transport = r.transport) (j : Int) (r : ShareRow) :
    RowKept op j r (if j = id then f r else r) := by
  by_cases hj : j = id
  · subst hj
    rw [if_pos rfl]
    exact ⟨hshare r, by rw [if_neg (hop j), hcomplete r], hhostname r, htransport r⟩
  · rw [if_neg hj]
    exact ⟨rfl, by rw [if_neg (hop j)], fun _ => rfl, fun _ => rfl⟩

/-- What a write can do to the rows: add one, delete one, sweep, or rewrite in place. -/
inductive RowsStep (db : DB) (op : StoreOp) (db' : DB) : Prop where
  | added (shareId : ShareId) (now : Int) (hop : op = StoreOp.newRow shareId now)
      (hfree : forall j r, db.row j = some r -> r.shareId ≠ shareId)
      (hrows : forall j r, db'.row j = some r <->
        db.row j = some r ∨ (j = db.shares.nextId ∧ r = ShareRow.new shareId now))
      (hnext : db'.shares.nextId = db.shares.nextId + 1)
  | deleted (id : Int) (hop : op = StoreOp.deleteRow id)
      (hrows : forall j r, db'.row j = some r <-> db.row j = some r ∧ j ≠ id)
      (hnext : db'.shares.nextId = db.shares.nextId)
  | swept (hop : op = StoreOp.reopen)
      (hrows : forall j r, db'.row j = some r <-> db.row j = some r ∧ r.complete ≠ some false)
      (hnext : db'.shares.nextId = db.shares.nextId)
  | rewritten (hadd : forall shareId now, op ≠ StoreOp.newRow shareId now)
      (hdelete : forall id, op ≠ StoreOp.deleteRow id) (g : Int -> ShareRow -> ShareRow)
      (hrows : forall j, db'.row j = (db.row j).map (g j))
      (hkept : forall j r, RowKept op j r (g j r))
      (hnext : db'.shares.nextId = db.shares.nextId)

theorem RowsStep.of_update {db : DB} {op : StoreOp} {id : Int} {f : ShareRow -> ShareRow}
    (hadd : forall shareId now, op ≠ StoreOp.newRow shareId now)
    (hdelete : forall j, op ≠ StoreOp.deleteRow j)
    (hkept : forall j r, RowKept op j r (if j = id then f r else r)) :
    RowsStep db op (db.updateShare id f) :=
  RowsStep.rewritten hadd hdelete (fun j r => if j = id then f r else r)
    (fun _ => DB.row_updateShare) hkept rfl

/-- A write to columns that no lemma here is about. -/
theorem RowsStep.of_plain {db : DB} {op : StoreOp} {id : Int} {f : ShareRow -> ShareRow}
    (hadd : forall shareId now, op ≠ StoreOp.newRow shareId now)
    (hdelete : forall j, op ≠ StoreOp.deleteRow j)
    (hmark : forall j, op ≠ StoreOp.markComplete j)
    (hplain : forall r, (f r).shareId = r.shareId ∧ (f r).complete = r.complete ∧
      (f r).hostname = r.hostname ∧ (f r).transport = r.transport) :
    RowsStep db op (db.updateShare id f) :=
  RowsStep.of_update hadd hdelete
    (RowKept.of_update hmark (fun r => (hplain r).left) (fun r => (hplain r).right.left)
      (fun r _ => (hplain r).right.right.left) (fun r _ => (hplain r).right.right.right))

theorem storeStep_rows {text : JsonText} {db db' : DB} {op : StoreOp}
    (h : storeStep text db op = some db') : RowsStep db op db' := by
  cases op with
  | newRow shareId now =>
      rcases Option.map_eq_some_iff.mp h with ⟨⟨next, id⟩, hnew, rfl⟩
      have hrows := DB.row_newRow hnew
      rcases DB.newRow_eq_some_iff.mp hnew with ⟨hfree, rfl, rfl⟩
      exact RowsStep.added shareId now rfl hfree hrows rfl
  | deleteRow id =>
      cases h
      exact RowsStep.deleted id rfl (fun _ _ => DB.row_deleteRow) rfl
  | reopen =>
      cases h
      exact RowsStep.swept rfl (fun _ _ => DB.row_prepare) rfl
  | markComplete id =>
      cases h
      refine RowsStep.of_update (fun _ _ => nofun) (fun _ => nofun) ?_
      intro j r
      by_cases hj : j = id
      · subst hj
        rw [if_pos rfl]
        exact ⟨rfl, by rw [if_pos rfl], fun _ => rfl, fun _ => rfl⟩
      · rw [if_neg hj]
        have hop : StoreOp.markComplete id ≠ StoreOp.markComplete j := by
          intro heq
          cases heq
          exact hj rfl
        exact ⟨rfl, by rw [if_neg hop], fun _ => rfl, fun _ => rfl⟩
  | writeDedupedHostname id hostname =>
      rcases Option.map_eq_some_iff.mp h with ⟨⟨next, label⟩, hwrite, rfl⟩
      rcases DB.writeDedupedHostname_some hwrite with ⟨r, -, rfl, -⟩
      refine RowsStep.of_update (fun _ _ => nofun) (fun _ => nofun) ?_
      exact RowKept.of_update (fun _ => nofun) (fun _ => rfl) (fun _ => rfl)
        (fun _ hnot => absurd rfl (hnot hostname)) (fun _ _ => rfl)
  | writeShareInfo id info =>
      refine RowsStep.rewritten (fun _ _ => nofun) (fun _ => nofun) _
        (DB.writeShareInfo_some h) ?_ ?_
      · exact RowKept.of_update (fun _ => nofun) (fun _ => rfl) (fun _ => rfl)
          (fun _ _ => rfl) (fun _ _ => rfl)
      · exact DB.nextId_writeShareInfo h
  | writeIrohEndpointId id host =>
      cases h
      refine RowsStep.of_update (fun _ _ => nofun) (fun _ => nofun) ?_
      exact RowKept.of_update (fun _ => nofun) (fun _ => rfl) (fun _ => rfl)
        (fun _ _ => rfl) (fun _ hnot => absurd rfl (hnot host))
  | writeDisplayName id name =>
      cases h
      exact RowsStep.of_plain (fun _ _ => nofun) (fun _ => nofun) (fun _ => nofun)
        fun _ => ⟨rfl, rfl, rfl, rfl⟩
  | writeWispersConnectBackend id backend =>
      cases h
      exact RowsStep.of_plain (fun _ _ => nofun) (fun _ => nofun) (fun _ => nofun)
        fun _ => ⟨rfl, rfl, rfl, rfl⟩
  | writeTerminalState id state =>
      cases h
      exact RowsStep.of_plain (fun _ _ => nofun) (fun _ => nofun) (fun _ => nofun)
        fun _ => ⟨rfl, rfl, rfl, rfl⟩
  | writeOutdated id outdated =>
      cases h
      exact RowsStep.of_plain (fun _ _ => nofun) (fun _ => nofun) (fun _ => nofun)
        fun _ => ⟨rfl, rfl, rfl, rfl⟩

/-- A row that is not deleted stays, unless a sweep takes it. -/
theorem storeStep_survives {text : JsonText} {db db' : DB} {op : StoreOp}
    (h : storeStep text db op = some db') {id : Int} {r : ShareRow} (hr : db.row id = some r)
    (hdelete : op ≠ StoreOp.deleteRow id) (hsweep : r.complete ≠ some false) :
    exists r', db'.row id = some r' ∧ RowKept op id r r' := by
  have hsame : (forall j, op ≠ StoreOp.markComplete j) -> RowKept op id r r := by
    intro hmark
    exact ⟨rfl, by rw [if_neg (hmark id)], fun _ => rfl, fun _ => rfl⟩
  cases storeStep_rows h with
  | added shareId now hop _ hrows _ =>
      subst hop
      exact ⟨r, (hrows id r).mpr (Or.inl hr), hsame fun _ => nofun⟩
  | deleted j hop hrows _ =>
      subst hop
      have hid : id ≠ j := fun heq => hdelete (by rw [heq])
      exact ⟨r, (hrows id r).mpr ⟨hr, hid⟩, hsame fun _ => nofun⟩
  | swept hop hrows _ =>
      subst hop
      exact ⟨r, (hrows id r).mpr ⟨hr, hsweep⟩, hsame fun _ => nofun⟩
  | rewritten _ _ g hrows hkept _ =>
      refine ⟨g id r, ?_, hkept id r⟩
      rw [hrows, hr, Option.map_some]

/-- A row is new, or was there before. -/
theorem storeStep_origin {text : JsonText} {db db' : DB} {op : StoreOp}
    (h : storeStep text db op = some db') {id : Int} {r' : ShareRow}
    (hr' : db'.row id = some r') :
    (exists shareId now, op = StoreOp.newRow shareId now ∧ id = db.shares.nextId ∧
        r' = ShareRow.new shareId now) ∨
      exists r, db.row id = some r ∧ op ≠ StoreOp.deleteRow id ∧ RowKept op id r r' := by
  have hsame : (forall j, op ≠ StoreOp.markComplete j) -> RowKept op id r' r' := by
    intro hmark
    exact ⟨rfl, by rw [if_neg (hmark id)], fun _ => rfl, fun _ => rfl⟩
  cases storeStep_rows h with
  | added shareId now hop _ hrows _ =>
      subst hop
      rcases (hrows id r').mp hr' with hold | ⟨hid, hnew⟩
      · exact Or.inr ⟨r', hold, nofun, hsame fun _ => nofun⟩
      · exact Or.inl ⟨shareId, now, rfl, hid, hnew⟩
  | deleted j hop hrows _ =>
      subst hop
      rcases (hrows id r').mp hr' with ⟨hold, hid⟩
      refine Or.inr ⟨r', hold, ?_, hsame fun _ => nofun⟩
      intro heq
      cases heq
      exact hid rfl
  | swept hop hrows _ =>
      subst hop
      exact Or.inr ⟨r', ((hrows id r').mp hr').left, nofun, hsame fun _ => nofun⟩
  | rewritten _ hdelete g hrows hkept _ =>
      rw [hrows] at hr'
      rcases Option.map_eq_some_iff.mp hr' with ⟨r, hr, rfl⟩
      exact Or.inr ⟨r, hr, hdelete id, hkept id r⟩

/-- Row ids are not given again. -/
theorem storeStep_nextId_le {text : JsonText} {db db' : DB} {op : StoreOp}
    (h : storeStep text db op = some db') : db.shares.nextId ≤ db'.shares.nextId := by
  cases storeStep_rows h with
  | added _ _ _ _ _ hnext => omega
  | deleted _ _ _ hnext => omega
  | swept _ _ hnext => omega
  | rewritten _ _ _ _ _ hnext => omega

/-!
## Single columns
-/

/-- The write leaves what `column` reads off the row as it is. -/
def StoreOp.Leaves {β : Type _} (column : ShareRow -> β) (id : Int) : StoreOp -> Prop
  | writeDisplayName j name =>
      j = id -> forall r : ShareRow, column { r with displayName := some name } = column r
  | writeDedupedHostname j _ =>
      j = id -> forall (r : ShareRow) label, column { r with hostname := some label } = column r
  | writeWispersConnectBackend j backend =>
      j = id -> forall r : ShareRow, column { r with wispersConnectBackend := backend } = column r
  | writeIrohEndpointId j host =>
      j = id -> forall r : ShareRow,
        column { r with transport := Transport.iroh.asStr, irohEndpointId := some host } = column r
  | writeShareInfo j _ =>
      j = id -> forall (r : ShareRow) name hash certs,
        column { r with displayName := name, configHash := hash, caCertificates := certs } =
          column r
  | markComplete j =>
      j = id -> forall r : ShareRow, column { r with complete := some true } = column r
  | writeTerminalState j state =>
      j = id -> forall r : ShareRow, column { r with terminalState := some state.asStr } = column r
  | writeOutdated j outdated =>
      j = id -> forall r : ShareRow, column { r with outdated := outdated } = column r
  | newRow _ _ => True
  | deleteRow _ => True
  | reopen => True

section
variable {β : Type _} {column : ShareRow -> β} {id : Int} {r' : ShareRow}

theorem DB.column_updateShare {db : DB} {j : Int} {f : ShareRow -> ShareRow}
    (hr' : (db.updateShare j f).row id = some r')
    (hf : j = id -> forall r, column (f r) = column r) :
    exists r, db.row id = some r ∧ column r' = column r := by
  rw [DB.row_updateShare] at hr'
  rcases Option.map_eq_some_iff.mp hr' with ⟨r, hr, rfl⟩
  refine ⟨r, hr, ?_⟩
  split
  · rename_i hid
    exact hf hid.symm r
  · rfl

/-- A row is new, or has in a column that the write leaves what it had before. -/
theorem storeStep_column {text : JsonText} {db db' : DB} {op : StoreOp}
    (h : storeStep text db op = some db') (hleaves : op.Leaves column id)
    (hr' : db'.row id = some r') :
    (exists shareId now, op = StoreOp.newRow shareId now ∧ id = db.shares.nextId ∧
        r' = ShareRow.new shareId now) ∨
      exists r, db.row id = some r ∧ column r' = column r := by
  cases op with
  | newRow shareId now =>
      rcases Option.map_eq_some_iff.mp h with ⟨⟨next, j⟩, hnew, rfl⟩
      rcases (DB.row_newRow hnew id r').mp hr' with hold | ⟨hid, rfl⟩
      · exact Or.inr ⟨r', hold, rfl⟩
      · exact Or.inl ⟨shareId, now, rfl, hid.trans (DB.newRow_eq_some_iff.mp hnew).right.left, rfl⟩
  | writeDedupedHostname j hostname =>
      rcases Option.map_eq_some_iff.mp h with ⟨⟨next, label⟩, hwrite, rfl⟩
      rcases DB.writeDedupedHostname_some hwrite with ⟨r, -, rfl, -⟩
      exact Or.inr (DB.column_updateShare hr' fun hid r => hleaves hid r label)
  | writeShareInfo j info =>
      rw [DB.writeShareInfo_some h] at hr'
      rcases Option.map_eq_some_iff.mp hr' with ⟨r, hr, rfl⟩
      refine Or.inr ⟨r, hr, ?_⟩
      split
      · rename_i hid
        exact hleaves hid.symm r _ _ _
      · rfl
  | deleteRow j =>
      cases h
      exact Or.inr ⟨r', (DB.row_deleteRow.mp hr').left, rfl⟩
  | reopen =>
      cases h
      exact Or.inr ⟨r', (DB.row_prepare.mp hr').left, rfl⟩
  | writeDisplayName | writeWispersConnectBackend | writeIrohEndpointId | markComplete
  | writeTerminalState | writeOutdated =>
      cases h
      exact Or.inr (DB.column_updateShare hr' hleaves)

end

end Guest
end WispersAccess
