import WispersAccess.Guest.StorageRuns

/-!
# The stored copy of a share

What a guest keeps of the share info it was told: the name, the apps and the
certificates, and the hash they came with.  They are written together, and what
is written reads back.
-/

namespace WispersAccess
namespace Guest

open Foundation
open Wire (SharedApp ShareInfo hashText)

/-- What the host's share info leaves on the guest. -/
structure ShareCopy where
  name : String
  apps : List SharedApp
  caCertificates : List String
  deriving DecidableEq, Repr

def ShareCopy.ofInfo (info : ShareInfo) : ShareCopy where
  name := info.name
  apps := info.apps
  caCertificates := info.caCertificates

namespace DB

section
variable (text : JsonText)

/-- The copy in the store; nothing where the row is gone. -/
def readCopy (db : DB) (id : Int) : Option ShareCopy := do
  let (_, name, _) <- db.readNames id
  let caCertificates <- db.readCaCertificates text id
  return { name, apps := db.readApps text id, caCertificates }

end

section
variable {text : JsonText} {db db' : DB} {id : Int} {info : ShareInfo}

/-- Apps as they are stored come back as they were. -/
@[simp] theorem AppRow.read_appRow (id : Int) (position : Nat) (app : SharedApp) :
    AppRow.read text (appRow text id position app) = app := by
  simp [AppRow.read, appRow]

theorem readApps_appRows (id : Int) (apps : List SharedApp) :
    (((apps.mapIdx (appRow text id)).filter fun app => app.share = id).insertionSort
      fun a b => a.position ≤ b.position).map (AppRow.read text) = apps := by
  have hmine : (apps.mapIdx (appRow text id)).filter (fun app => app.share = id) =
      apps.mapIdx (appRow text id) := by
    rw [List.filter_eq_self]
    intro app happ
    rcases List.mem_mapIdx.mp happ with ⟨i, hi, rfl⟩
    exact decide_eq_true rfl
  have hsorted : (apps.mapIdx (appRow text id)).Pairwise fun a b => a.position ≤ b.position := by
    rw [List.pairwise_iff_getElem]
    intro i j hi hj hij
    rw [List.getElem_mapIdx, List.getElem_mapIdx]
    exact Nat.le_of_lt hij
  rw [hmine, hsorted.insertionSort_eq]
  refine List.ext_getElem? fun i => ?_
  rw [List.getElem?_map, List.getElem?_mapIdx, Option.map_map]
  cases apps[i]? with
  | none => rfl
  | some app =>
      rw [Option.map_some]
      exact congrArg some (AppRow.read_appRow id i app)

theorem writeShareInfo_apps (h : db.writeShareInfo text id info = some db') :
    db'.apps = (db.apps.filter fun app => app.share ≠ id) ++ info.apps.mapIdx (appRow text id) := by
  unfold writeShareInfo at h
  split at h
  · cases h
    rfl
  · cases h

theorem readApps_writeShareInfo (h : db.writeShareInfo text id info = some db') :
    db'.readApps text id = info.apps := by
  have hothers : (db.apps.filter fun app => app.share ≠ id).filter (fun app => app.share = id) =
      [] := by
    rw [List.filter_eq_nil_iff]
    intro app happ
    have hne := of_decide_eq_true (List.mem_filter.mp happ).right
    simpa using hne
  unfold readApps
  rw [writeShareInfo_apps h, List.filter_append, hothers, List.nil_append]
  exact readApps_appRows id info.apps

/-- The apps of other shares are left alone. -/
theorem readApps_writeShareInfo_other (h : db.writeShareInfo text id info = some db') {j : Int}
    (hj : j ≠ id) : db'.readApps text j = db.readApps text j := by
  have hold : (db.apps.filter fun app => app.share ≠ id).filter (fun app => app.share = j) =
      db.apps.filter fun app => app.share = j := by
    rw [List.filter_filter]
    refine List.filter_congr fun app _ => ?_
    by_cases happ : app.share = j
    · simp [happ, hj]
    · simp [happ]
  have hnew : (info.apps.mapIdx (appRow text id)).filter (fun app => app.share = j) = [] := by
    rw [List.filter_eq_nil_iff]
    intro app happ
    rcases List.mem_mapIdx.mp happ with ⟨i, hi, rfl⟩
    have hid : id ≠ j := fun heq => hj heq.symm
    simp [appRow, hid]
  unfold readApps
  rw [writeShareInfo_apps h, List.filter_append, hold, hnew, List.append_nil]

/-- A write of share info succeeds where the row is there and app ids differ. -/
theorem exists_writeShareInfo {r : ShareRow} (hr : db.row id = some r)
    (hids : (info.apps.map fun app => app.id).Nodup) :
    exists db', db.writeShareInfo text id info = some db' := by
  unfold writeShareInfo
  rw [if_pos ⟨hids, Or.inl (by rw [hr]; rfl)⟩]
  exact ⟨_, rfl⟩

/-- What is written is what is read, with its hash. -/
theorem readCopy_writeShareInfo {r : ShareRow} (hr : db.row id = some r)
    (h : db.writeShareInfo text id info = some db') :
    db'.readCopy text id = some (ShareCopy.ofInfo info) ∧
      db'.readShareConfigHash id = some (some info.configHash) := by
  have hrow := writeShareInfo_some h id
  rw [hr, Option.map_some, if_pos rfl] at hrow
  constructor
  · unfold readCopy readNames readCaCertificates
    rw [hrow, readApps_writeShareInfo h]
    simp [ShareCopy.ofInfo]
  · unfold readShareConfigHash
    rw [hrow]
    simp

theorem readCopy_writeShareInfo_other (h : db.writeShareInfo text id info = some db') {j : Int}
    (hj : j ≠ id) : db'.readCopy text j = db.readCopy text j ∧
      db'.readShareConfigHash j = db.readShareConfigHash j := by
  have hrow : db'.row j = db.row j := by
    rw [writeShareInfo_some h j]
    cases db.row j with
    | none => rfl
    | some r => rw [Option.map_some, if_neg hj]
  constructor
  · unfold readCopy readNames readCaCertificates
    rw [hrow, readApps_writeShareInfo_other h hj]
  · unfold readShareConfigHash
    rw [hrow]

end

/-!
## Other writes
-/

section
variable {text : JsonText} {db db' : DB} {id : Int}

/-- The copy and its hash are read off three columns and the share's apps. -/
theorem readCopy_congr
    (hrow : (db'.row id).map (fun r => (r.displayName, r.configHash, r.caCertificates)) =
      (db.row id).map fun r => (r.displayName, r.configHash, r.caCertificates))
    (happs : db'.readApps text id = db.readApps text id) :
    db'.readCopy text id = db.readCopy text id ∧
      db'.readShareConfigHash id = db.readShareConfigHash id := by
  unfold readCopy readNames readCaCertificates readShareConfigHash
  rw [happs]
  cases hold : db.row id with
  | none =>
      rw [hold, Option.map_none, Option.map_eq_none_iff] at hrow
      rw [hrow]
      exact ⟨rfl, rfl⟩
  | some r =>
      rw [hold, Option.map_some] at hrow
      rcases Option.map_eq_some_iff.mp hrow with ⟨r', hr', hcolumns⟩
      simp only [Prod.mk.injEq] at hcolumns
      rw [hr']
      simp [hcolumns]

theorem readApps_filter {keep : AppRow -> Bool} {shares : SerialTable ShareRow}
    (hkeep : forall app, app ∈ db.apps -> app.share = id -> keep app = true) :
    DB.readApps text { shares, apps := db.apps.filter keep } id = db.readApps text id := by
  have hmine : (db.apps.filter keep).filter (fun app => app.share = id) =
      db.apps.filter fun app => app.share = id := by
    rw [List.filter_filter]
    refine List.filter_congr fun app happ => ?_
    by_cases hid : app.share = id
    · simp [hid, hkeep app happ hid]
    · simp [hid]
  unfold readApps
  rw [hmine]

/-- An update of other columns, or of another row. -/
theorem readCopy_updateShare {j : Int} {f : ShareRow -> ShareRow}
    (hf : j = id -> forall r, (f r).displayName = r.displayName ∧
      (f r).configHash = r.configHash ∧ (f r).caCertificates = r.caCertificates) :
    (db.updateShare j f).readCopy text id = db.readCopy text id ∧
      (db.updateShare j f).readShareConfigHash id = db.readShareConfigHash id := by
  refine readCopy_congr ?_ rfl
  rw [row_updateShare, Option.map_map]
  refine congrArg (fun columns => Option.map columns (db.row id)) (funext fun r => ?_)
  show (fun r => (r.displayName, r.configHash, r.caCertificates)) (if id = j then f r else r) = _
  by_cases hid : id = j
  · rcases hf hid.symm r with ⟨hname, hhash, hcertificates⟩
    simp only [if_pos hid, hname, hhash, hcertificates]
  · rw [if_neg hid]

end

end DB

/-- Writes that neither change what is stored of a share's info nor remove it.  Its info is
written by its join and by its refreshes, and its row is deleted when it is left. -/
def StoreOp.sparesCopy (id : Int) : StoreOp -> Bool
  | writeShareInfo j _ => j ≠ id
  | writeDisplayName j _ => j ≠ id
  | deleteRow j => j ≠ id
  | _ => true

theorem storeStep_sparesCopy {text : JsonText} {db db' : DB} {op : StoreOp} {id : Int}
    {r : ShareRow} (h : storeStep text db op = some db') (hop : op.sparesCopy id = true)
    (hr : db.row id = some r) (hcomplete : r.complete ≠ some false) :
    (exists r', db'.row id = some r' ∧ (r'.complete = r.complete ∨ r'.complete = some true)) ∧
      db'.readCopy text id = db.readCopy text id ∧
      db'.readShareConfigHash id = db.readShareConfigHash id := by
  have hdelete : op ≠ StoreOp.deleteRow id := by
    intro hsame
    subst hsame
    simp [StoreOp.sparesCopy] at hop
  rcases storeStep_survives h hr hdelete hcomplete with ⟨r', hr', hkept⟩
  constructor
  · refine ⟨r', hr', ?_⟩
    rw [hkept.complete]
    split
    · exact Or.inr rfl
    · exact Or.inl rfl
  · cases op with
    | newRow shareId now =>
        rcases Option.map_eq_some_iff.mp h with ⟨⟨next, row⟩, hnew, rfl⟩
        refine DB.readCopy_congr ?_ ?_
        · rw [(DB.row_newRow hnew id r).mpr (Or.inl hr), hr]
        · rcases DB.newRow_eq_some_iff.mp hnew with ⟨-, -, rfl⟩
          rfl
    | deleteRow j =>
        cases h
        have hj : id ≠ j := fun heq => hdelete (by rw [heq])
        refine DB.readCopy_congr ?_ (DB.readApps_filter ?_)
        · rw [DB.row_deleteRow.mpr ⟨hr, hj⟩, hr]
        · intro app _ hid
          rw [hid]
          exact decide_eq_true hj
    | reopen =>
        cases h
        refine DB.readCopy_congr ?_ (DB.readApps_filter ?_)
        · rw [DB.row_prepare.mpr ⟨hr, hcomplete⟩, hr]
        · intro app _ hid
          have hstays : SerialTable.isTrue (SerialTable.eqValue r.complete false) = false :=
            Bool.eq_false_iff.mpr fun h => hcomplete ((SerialTable.isTrue_eqValue _ _).mp h)
          rw [hid, hr]
          simp [hstays]
    | writeShareInfo j info =>
        have hj : id ≠ j := fun heq => (of_decide_eq_true hop) heq.symm
        exact DB.readCopy_writeShareInfo_other h hj
    | writeDisplayName j name =>
        cases h
        exact DB.readCopy_updateShare fun hj => absurd hj (of_decide_eq_true hop)
    | writeDedupedHostname j hostname =>
        rcases Option.map_eq_some_iff.mp h with ⟨⟨next, label⟩, hwrite, rfl⟩
        rcases DB.writeDedupedHostname_some hwrite with ⟨q, -, rfl, -⟩
        exact DB.readCopy_updateShare fun _ _ => ⟨rfl, rfl, rfl⟩
    | writeWispersConnectBackend | writeIrohEndpointId | markComplete | writeTerminalState
    | writeOutdated =>
        cases h
        exact DB.readCopy_updateShare fun _ _ => ⟨rfl, rfl, rfl⟩

end Guest
end WispersAccess
