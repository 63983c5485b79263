import WispersAccess.Foundation.CompactJson
import WispersAccess.Foundation.Transaction
import WispersAccess.Guest.StoredShare

/-!
# Writing share info

Share info is written in one transaction: the share's own columns, then its
earlier apps go and the new ones come, each in a statement of its own.
-/

namespace WispersAccess
namespace Guest

open Foundation
open Wire (AppKind AppProxyMode SharedApp ShareInfo hashText)

/-- A statement on the guest's store that does not go through. -/
inductive StoreError where
  /-- A constraint of the schema refuses it. -/
  | constraint
  | sqlite
  deriving DecidableEq, Repr

namespace DB

/-!
## The statements
-/

section
variable (text : JsonText) (id : Int)

/-- `UPDATE shares SET display_name = ?1, config_hash = ?2, ca_certificates = ?3`. -/
def updateInfo (info : ShareInfo) (db : DB) : DB :=
  db.updateShare id fun r => { r with
    displayName := some info.name
    configHash := some (hashText info.configHash)
    caCertificates := text.printTexts info.caCertificates }

/-- `DELETE FROM apps WHERE share_id = ?1`. -/
def deleteApps (db : DB) : DB :=
  { db with apps := db.apps.filter fun app => app.share ≠ id }

/-- `INSERT INTO apps`.  The key is the share and the app id, and the share must be there. -/
def insertApp (position : Nat) (app : SharedApp) (db : DB) : Except StoreError (Unit × DB) :=
  if (db.row id).isNone ∨ exists stored, stored ∈ db.apps ∧ stored.share = id ∧
      stored.appId = app.id then
    Except.error StoreError.constraint
  else Except.ok ((), { db with apps := db.apps ++ [appRow text id position app] })

def insertApps (position : Nat) : List SharedApp -> Tx DB StoreError Unit
  | [] => return ()
  | app :: rest => do
      Tx.statement (insertApp text id position app)
      insertApps (position + 1) rest

/-- `write_share_info`, statement by statement. -/
def writeShareInfoTx (info : ShareInfo) : Tx DB StoreError (Ending Unit) := do
  Tx.execute (updateInfo text id info)
  Tx.execute (deleteApps id)
  insertApps text id 0 info.apps
  return Ending.committed ()

end

/-!
## The inserts
-/

section
variable {text : JsonText} {id : Int} {db : DB} {position : Nat} {app : SharedApp}

/-- The app ids that are taken in the share. -/
def appIds (db : DB) (id : Int) : List String :=
  (db.apps.filter fun app => app.share = id).map fun app => app.appId

theorem mem_appIds {appId : String} : appId ∈ db.appIds id <->
    exists stored, stored ∈ db.apps ∧ stored.share = id ∧ stored.appId = appId := by
  unfold appIds
  simp only [List.mem_map, List.mem_filter, decide_eq_true_eq, and_assoc]

theorem insertApp_ok (hrow : (db.row id).isSome) (hfree : app.id ∉ db.appIds id) :
    insertApp text id position app db =
      Except.ok ((), { db with apps := db.apps ++ [appRow text id position app] }) := by
  unfold insertApp
  rw [if_neg]
  intro h
  rcases h with hnone | htaken
  · rw [Option.isNone_iff_eq_none.mp hnone] at hrow
    cases hrow
  · exact hfree (mem_appIds.mpr htaken)

theorem insertApp_refused (h : (db.row id).isNone ∨ app.id ∈ db.appIds id) :
    insertApp text id position app db = Except.error StoreError.constraint := by
  unfold insertApp
  rw [if_pos]
  cases h with
  | inl hnone => exact Or.inl hnone
  | inr htaken => exact Or.inr (mem_appIds.mp htaken)

theorem appIds_insert :
    appIds { db with apps := db.apps ++ [appRow text id position app] } id =
      db.appIds id ++ [app.id] := by
  unfold appIds
  rw [List.filter_append, List.map_append]
  simp [appRow]

/-- The apps go in, in their order, where the share is there and no id comes twice. -/
theorem insertApps_ok {apps : List SharedApp} {n : Nat}
    (hrow : (db.row id).isSome ∨ apps = [])
    (hids : (db.appIds id ++ apps.map fun app => app.id).Nodup) :
    exists m, insertApps text id position apps Tx.noFaults ⟨db, n⟩ =
      Except.ok ((), ⟨{ db with
        apps := db.apps ++ apps.mapIdx fun i => appRow text id (position + i) }, m⟩) := by
  induction apps generalizing db position n with
  | nil =>
      refine ⟨n, ?_⟩
      simp [insertApps]
  | cons app rest ih =>
      have hsome : (db.row id).isSome := hrow.resolve_right (List.cons_ne_nil _ _)
      have hfree : app.id ∉ db.appIds id := by
        intro htaken
        have hdisjoint := (List.nodup_append.mp hids).right.right
        exact hdisjoint _ htaken _ (List.mem_cons_self ..) rfl
      unfold insertApps
      rw [Tx.bind_ok (Tx.statement_ok (insertApp_ok hsome hfree))]
      have hids' : (appIds { db with apps := db.apps ++ [appRow text id position app] } id ++
          rest.map fun app => app.id).Nodup := by
        rw [appIds_insert, List.append_assoc]
        exact hids
      rcases @ih { db with apps := db.apps ++ [appRow text id position app] } (position + 1)
        (n + 1) (Or.inl hsome) hids' with ⟨m, hm⟩
      refine ⟨m, ?_⟩
      rw [hm]
      simp [List.mapIdx_cons, Nat.add_assoc, Nat.add_comm 1]

/-- They are refused where it is not so. -/
theorem insertApps_refused {apps : List SharedApp} {n : Nat} (hdb : (db.appIds id).Nodup)
    (h : ((db.row id).isNone ∧ apps ≠ []) ∨
      ¬ (db.appIds id ++ apps.map fun app => app.id).Nodup) :
    insertApps text id position apps Tx.noFaults ⟨db, n⟩ =
      Except.error StoreError.constraint := by
  induction apps generalizing db position n with
  | nil =>
      rcases h with ⟨_, hnil⟩ | hids
      · exact absurd rfl hnil
      · rw [List.map_nil, List.append_nil] at hids
        exact absurd hdb hids
  | cons app rest ih =>
      unfold insertApps
      by_cases hrefused : (db.row id).isNone ∨ app.id ∈ db.appIds id
      · exact Tx.bind_error (Tx.statement_error (insertApp_refused hrefused))
      rcases not_or.mp hrefused with ⟨hsome, hfree⟩
      have hrow : (db.row id).isSome := by
        rw [Option.isNone_iff_eq_none] at hsome
        exact Option.isSome_iff_ne_none.mpr hsome
      rw [Tx.bind_ok (Tx.statement_ok (insertApp_ok hrow hfree))]
      apply ih
      · rw [appIds_insert]
        exact List.nodup_append.mpr ⟨hdb, List.nodup_singleton _, by
          intro a ha b hb hab
          rw [List.mem_singleton] at hb
          exact hfree (by rw [← hb, ← hab]; exact ha)⟩
      · rcases h with ⟨hnone, _⟩ | hids
        · exact absurd hnone hsome
        · refine Or.inr fun hids' => hids ?_
          rw [appIds_insert, List.append_assoc] at hids'
          exact hids'

/-!
## As one step
-/

theorem appIds_deleteApps : appIds (deleteApps id db) id = [] := by
  unfold appIds deleteApps
  rw [List.map_eq_nil_iff, List.filter_eq_nil_iff]
  intro app happ
  have hne := of_decide_eq_true (List.mem_filter.mp happ).right
  simpa using hne

/-- The rest of the transaction, once the earlier apps are gone. -/
theorem writeShareInfoTx_eq (text : JsonText) (id : Int) (info : ShareInfo) (db : DB) :
    writeShareInfoTx text id info Tx.noFaults ⟨db, 1⟩ =
      (do
        insertApps text id 0 info.apps
        return Ending.committed () : Tx DB StoreError (Ending Unit)) Tx.noFaults
        ⟨deleteApps id (updateInfo text id info db), 3⟩ := by
  unfold writeShareInfoTx
  rw [Tx.bind_ok (Tx.execute_ok _), Tx.bind_ok (Tx.execute_ok _)]

theorem row_cleared {info : ShareInfo} :
    ((deleteApps id (updateInfo text id info db)).row id).isSome = (db.row id).isSome := by
  show ((updateInfo text id info db).row id).isSome = _
  unfold updateInfo
  rw [row_updateShare]
  cases db.row id <;> rfl

theorem transact_write_ok {info : ShareInfo} {db' : DB}
    (h : db.writeShareInfo text id info = some db') :
    Tx.transact Tx.noFaults (writeShareInfoTx text id info) db = (Except.ok (), db') := by
  unfold writeShareInfo at h
  split at h
  · rename_i hgoes
    have hids : (appIds (deleteApps id (updateInfo text id info db)) id ++
        info.apps.map fun app => app.id).Nodup := by
      rw [appIds_deleteApps, List.nil_append]
      exact hgoes.left
    have hrow : ((deleteApps id (updateInfo text id info db)).row id).isSome ∨ info.apps = [] := by
      rw [row_cleared]
      exact hgoes.right
    rcases @insertApps_ok text _ _ 0 _ 3 hrow hids with ⟨m, hinserts⟩
    have hrun := writeShareInfoTx_eq text id info db
    rw [Tx.bind_ok hinserts, Tx.pure_run] at hrun
    rw [Tx.transact_committed hrun]
    cases h
    simp [deleteApps, updateInfo, updateShare]
  · cases h

theorem transact_write_refused {info : ShareInfo} (h : db.writeShareInfo text id info = none) :
    Tx.transact Tx.noFaults (writeShareInfoTx text id info) db =
      (Except.error StoreError.constraint, db) := by
  unfold writeShareInfo at h
  split at h
  · cases h
  · rename_i hrefused
    have hnodup : (appIds (deleteApps id (updateInfo text id info db)) id).Nodup := by
      rw [appIds_deleteApps]
      exact List.nodup_nil
    have hwhy : ((deleteApps id (updateInfo text id info db)).row id).isNone ∧ info.apps ≠ [] ∨
        ¬ (appIds (deleteApps id (updateInfo text id info db)) id ++
          info.apps.map fun app => app.id).Nodup := by
      rw [appIds_deleteApps, List.nil_append, ← Option.not_isSome, row_cleared]
      rcases not_and_or.mp hrefused with hids | hgone
      · exact Or.inr hids
      · exact Or.inl (by simpa using hgone)
    apply Tx.transact_refused
    rw [writeShareInfoTx_eq]
    exact Tx.bind_error (insertApps_refused hnodup hwhy)

theorem failsOrRuns_insertApps (apps : List SharedApp) :
    (insertApps text id position apps).FailsOrRuns := by
  induction apps generalizing position with
  | nil => exact Tx.failsOrRuns_pure _
  | cons app rest ih => exact (Tx.failsOrRuns_statement _).bind fun _ => ih

theorem failsOrRuns_writeShareInfoTx (info : ShareInfo) :
    (writeShareInfoTx text id info).FailsOrRuns := by
  apply (Tx.failsOrRuns_execute _).bind
  intro _
  apply (Tx.failsOrRuns_execute _).bind
  intro _
  apply (failsOrRuns_insertApps info.apps).bind
  intro _
  exact Tx.failsOrRuns_pure _

/-- Whatever fails, the write is an error that changes nothing, or the write in one step. -/
theorem transact_write_cases (faults : Faults StoreError) (info : ShareInfo) (db : DB) :
    (exists e, Tx.transact faults (writeShareInfoTx text id info) db = (Except.error e, db)) ∨
      exists db', db.writeShareInfo text id info = some db' ∧
        Tx.transact faults (writeShareInfoTx text id info) db = (Except.ok (), db') := by
  rcases Tx.transact_faults (failsOrRuns_writeShareInfoTx info) faults db with herror | hsame
  · exact Or.inl herror
  · cases hwrite : db.writeShareInfo text id info with
    | none => exact Or.inl ⟨_, hsame.trans (transact_write_refused hwrite)⟩
    | some db' => exact Or.inr ⟨db', rfl, hsame.trans (transact_write_ok hwrite)⟩

end

/-!
## What is written is read back
-/

open Tx in
/-- A write of share info that goes through is read back as it was given, whatever the row held
before; one that fails, at any statement, changes nothing; and it goes through where nothing
fails and the app ids differ. -/
theorem shareInfo_round_trips (text : JsonText) (db : DB) (id : Int) (r : ShareRow)
    (hr : db.row id = some r) (info : ShareInfo) (faults : Faults StoreError) :
    (forall db', transact faults (writeShareInfoTx text id info) db = (Except.ok (), db') ->
      db'.readApps text id = info.apps ∧
      db'.readCaCertificates text id = some info.caCertificates ∧
      (db'.readNames id).map (fun names => names.2.1) = some info.name ∧
      db'.readShareConfigHash id = some (some info.configHash)) ∧
    (forall e db', transact faults (writeShareInfoTx text id info) db = (Except.error e, db') ->
      db' = db) ∧
    ((info.apps.map fun app => app.id).Nodup ->
      exists db', transact noFaults (writeShareInfoTx text id info) db = (Except.ok (), db')) := by
  refine ⟨?_, ?_, ?_⟩
  · intro db' hok
    rcases transact_write_cases faults info db with ⟨e, herror⟩ | ⟨written, hwrite, hcommit⟩
    · rw [herror] at hok
      cases hok
    · rw [hcommit] at hok
      cases hok
      have hrow := writeShareInfo_some hwrite id
      rw [hr, Option.map_some, if_pos rfl] at hrow
      have hcertificates : db'.readCaCertificates text id = some info.caCertificates := by
        simp [readCaCertificates, hrow]
      have hname : (db'.readNames id).map (fun names => names.2.1) = some info.name := by
        simp [readNames, hrow]
      exact ⟨readApps_writeShareInfo hwrite, hcertificates, hname,
        (readCopy_writeShareInfo hr hwrite).right⟩
  · intro e db' herror
    have hsame := transact_error (congrArg Prod.fst herror)
    rw [herror] at hsame
    exact hsame
  · intro hids
    rcases @exists_writeShareInfo text _ _ _ _ hr hids with ⟨db', hwrite⟩
    exact ⟨db', transact_write_ok hwrite⟩

open Tx in
theorem shareInfo_round_trips_over_an_earlier_app :
    let photos : SharedApp :=
      ⟨"photos", "Photos", AppKind.immich, AppProxyMode.forwardProxy, none, ["https://p.lan"]⟩
    let films : SharedApp :=
      ⟨"films", "Films", AppKind.web, AppProxyMode.unknown, some "https://f.lan/", []⟩
    let db : DB :=
      { shares := SerialTable.empty.insert (ShareRow.new firstShare 0)
        apps := [appRow Json.compact 1 0 photos] }
    exists db', transact noFaults (writeShareInfoTx Json.compact 1
        { familyInfo with apps := [films, photos] }) db = (Except.ok (), db') ∧
      db'.readApps Json.compact 1 = [films, photos] := by
  intro photos films db
  have h := shareInfo_round_trips Json.compact db 1 (ShareRow.new firstShare 0) rfl
    { familyInfo with apps := [films, photos] } noFaults
  rcases h.right.right (by decide) with ⟨db', hok⟩
  exact ⟨db', hok, (h.left db' hok).left⟩

end DB

end Guest
end WispersAccess
