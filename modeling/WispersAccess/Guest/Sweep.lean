import WispersAccess.Foundation.CompactJson
import WispersAccess.Guest.StorageRuns

/-!
# The sweep of unfinished joins

Opening the store deletes the rows whose `complete` is FALSE.  No write ever puts
FALSE there: a row starts out as NULL and `mark_complete` makes it TRUE.  So the
sweep finds nothing, and what a stopped join has left stays.
-/

namespace WispersAccess
namespace Guest

open Foundation
open Wire (ShareInfo)

section
variable {text : JsonText}

/-- No row has a `complete` that the sweep would match. -/
def NeverFalse (db : DB) : Prop :=
  forall id r, db.row id = some r -> r.complete ≠ some false

theorem neverFalse_empty : NeverFalse DB.empty := by
  intro id r hr
  cases hr

theorem RowKept.complete_ne_false {op : StoreOp} {id : Int} {r r' : ShareRow}
    (h : RowKept op id r r') (hr : r.complete ≠ some false) : r'.complete ≠ some false := by
  rw [h.complete]
  split
  · simp
  · exact hr

theorem storeStep_neverFalse {db db' : DB} {op : StoreOp} (hinv : NeverFalse db)
    (h : storeStep text db op = some db') : NeverFalse db' := by
  intro id r' hr'
  rcases storeStep_origin h hr' with ⟨shareId, now, -, -, rfl⟩ | ⟨r, hr, -, hkept⟩
  · simp [ShareRow.new]
  · exact hkept.complete_ne_false (hinv id r hr)

/-- What `complete` is after these writes, if it was `before`. -/
def completeAfter (id : Int) (ops : List StoreOp) (before : Option Bool) : Option Bool :=
  if StoreOp.markComplete id ∈ ops then some true else before

theorem completeAfter_cons {id : Int} {op : StoreOp} {ops : List StoreOp} {r r' : ShareRow}
    (h : RowKept op id r r') :
    completeAfter id ops r'.complete = completeAfter id (op :: ops) r.complete := by
  unfold completeAfter
  rw [h.complete]
  by_cases hop : op = StoreOp.markComplete id
  · subst hop
    simp
  · have hop' : StoreOp.markComplete id ≠ op := fun heq => hop heq.symm
    simp [hop, hop']

/-- A row nobody deletes stays, complete if it is marked. -/
theorem row_survives {db last : DB} {ops : List StoreOp} (hrun : Run (storeStep text) db ops last)
    (hinv : NeverFalse db) {id : Int} {r : ShareRow} (hr : db.row id = some r)
    (hdelete : StoreOp.deleteRow id ∉ ops) :
    exists r', last.row id = some r' ∧ r'.complete = completeAfter id ops r.complete := by
  induction hrun generalizing r with
  | nil db => exact ⟨r, hr, rfl⟩
  | @cons db mid last op rest hstep _ ih =>
      rw [List.mem_cons, not_or] at hdelete
      have hop : op ≠ StoreOp.deleteRow id := fun heq => hdelete.left heq.symm
      rcases storeStep_survives hstep hr hop (hinv id r hr) with ⟨r1, hr1, hkept⟩
      rcases ih (storeStep_neverFalse hinv hstep) hr1 hdelete.right with ⟨r', hr', hcomplete⟩
      exact ⟨r', hr', hcomplete.trans (completeAfter_cons hkept)⟩

/-- Where a row comes from: it was there, or one of the writes added it. -/
theorem row_origin {db last : DB} {ops : List StoreOp} (hrun : Run (storeStep text) db ops last)
    {id : Int} {r' : ShareRow} (hr' : last.row id = some r') :
    (exists r, db.row id = some r ∧ StoreOp.deleteRow id ∉ ops ∧
        r'.complete = completeAfter id ops r.complete) ∨
      exists front shareId now back mid,
        ops = front ++ StoreOp.newRow shareId now :: back ∧ Run (storeStep text) db front mid ∧
          id = mid.shares.nextId ∧ StoreOp.deleteRow id ∉ back ∧
          r'.complete = completeAfter id back none := by
  induction hrun with
  | nil db => exact Or.inl ⟨r', hr', List.not_mem_nil, rfl⟩
  | @cons db mid last op rest hstep _ ih =>
      rcases ih hr' with ⟨r1, hr1, hdelete, hcomplete⟩ |
        ⟨front, shareId, now, back, mid', rfl, hfront, hid, hdelete, hcomplete⟩
      · rcases storeStep_origin hstep hr1 with ⟨shareId, now, rfl, hid, rfl⟩ | ⟨r, hr, hop, hkept⟩
        · exact Or.inr ⟨[], shareId, now, rest, db, rfl, Run.nil db, hid, hdelete, hcomplete⟩
        · refine Or.inl ⟨r, hr, ?_, hcomplete.trans (completeAfter_cons hkept)⟩
          rw [List.mem_cons, not_or]
          exact ⟨fun heq => hop heq.symm, hdelete⟩
      · exact Or.inr ⟨op :: front, shareId, now, back, mid', rfl, Run.cons hstep hfront, hid,
          hdelete, hcomplete⟩

end

/-- Every row is a completed join, and a label belongs to a share that can be found. -/
structure Swept (db : DB) : Prop where
  complete : forall id r, db.row id = some r -> r.complete = some true
  visible : forall id r label, db.row id = some r -> r.hostname = some label ->
    id ∈ db.getAllRows ∧ exists order, db.findRow order label = some (id, r)

theorem swept_iff {db : DB} :
    Swept db <-> forall id r, db.row id = some r -> r.complete = some true := by
  constructor
  · exact fun h => h.complete
  · intro h
    refine ⟨h, ?_⟩
    intro id r label hr hlabel
    constructor
    · exact DB.mem_getAllRows.mpr ⟨r, hr, h id r hr⟩
    · exact SerialTable.exists_order_findRow hr (DB.matchesKey_iff.mpr ⟨h id r hr, Or.inl hlabel⟩)

/-- Every row that a join has added is marked complete or deleted before the process stops. -/
def JoinsFinished (text : JsonText) (ops : List StoreOp) : Prop :=
  forall front shareId now back mid, ops = front ++ StoreOp.newRow shareId now :: back ->
    Run (storeStep text) DB.empty front mid ->
      StoreOp.markComplete mid.shares.nextId ∈ back ∨ StoreOp.deleteRow mid.shares.nextId ∈ back

/-- Opening the store leaves completed joins only if, and only if, no join was stopped. -/
theorem reopened_store_swept_iff {text : JsonText} {ops : List StoreOp} {db : DB}
    (hrun : Run (storeStep text) DB.empty ops db) :
    Swept db.prepare <-> JoinsFinished text ops := by
  have hinv : NeverFalse db :=
    hrun.invariant (fun _ _ _ hs hstep => storeStep_neverFalse hs hstep) neverFalse_empty
  rw [swept_iff]
  constructor
  · intro hcomplete front shareId now back mid heq hfront
    subst heq
    rcases hrun.split with ⟨mid', hfront', hrest⟩
    cases hfront.unique hfront'
    cases hrest with
    | cons hstep hback =>
        by_cases hdelete : StoreOp.deleteRow mid.shares.nextId ∈ back
        · exact Or.inr hdelete
        · have hmid : NeverFalse mid :=
            hfront.invariant (fun _ _ _ hs hstep => storeStep_neverFalse hs hstep) neverFalse_empty
          rcases Option.map_eq_some_iff.mp hstep with ⟨⟨next, id⟩, hnew, rfl⟩
          rcases (DB.newRow_eq_some_iff.mp hnew).right with ⟨rfl, -⟩
          have hrow : next.row mid.shares.nextId = some (ShareRow.new shareId now) :=
            (DB.row_newRow hnew _ _).mpr (Or.inr ⟨rfl, rfl⟩)
          rcases row_survives hback (storeStep_neverFalse hmid hstep) hrow hdelete with
            ⟨r', hr', hafter⟩
          have htrue := hcomplete _ r' (DB.row_prepare.mpr ⟨hr', hinv _ r' hr'⟩)
          rw [htrue] at hafter
          unfold completeAfter at hafter
          split at hafter
          · exact Or.inl (by assumption)
          · cases hafter
  · intro hfinished id r' hr'
    rcases row_origin hrun (DB.row_prepare.mp hr').left with ⟨r, hr, -⟩ |
      ⟨front, shareId, now, back, mid, hops, hfront, rfl, hdelete, hcomplete⟩
    · cases hr
    · rcases hfinished front shareId now back mid hops hfront with hmark | hgone
      · rw [hcomplete]
        exact if_pos hmark
      · exact absurd hgone hdelete

/-!
## A stopped join
-/

/-- The writes of a join of that share, up to its label. -/
def stoppedJoin : List StoreOp :=
  [StoreOp.newRow firstShare 0, StoreOp.writeIrohEndpointId 1 "host",
    StoreOp.writeShareInfo 1 familyInfo, StoreOp.writeDisplayName 1 "Family",
    StoreOp.writeDedupedHostname 1 "family"]

/-- The process stops before the row is marked complete: the row outlives the sweep and keeps
its label, no query finds it, and the next share of that name gets another label. -/
theorem stopped_join_keeps_its_label :
    exists db, Run (storeStep Json.compact) DB.empty stoppedJoin db ∧ ¬ Swept db.prepare ∧
      (db.prepare.row 1).map (fun r => (r.complete, r.hostname)) = some (none, some "family") ∧
      db.prepare.getAllRows = [] ∧
      forall order, db.prepare.findRow order "family" = none := by
  have hrow : ((exec (storeStep Json.compact) DB.empty stoppedJoin).bind fun db =>
      (db.prepare.row 1).map fun r => (r.complete, r.hostname)) = some (none, some "family") := by
    decide
  have hnone : ((exec (storeStep Json.compact) DB.empty stoppedJoin).map fun db =>
      (db.prepare.getAllRows, db.prepare.shares.rows.filter fun r =>
        DB.matchesKey "family" r.2)) = some ([], []) := by
    decide
  rcases Option.bind_eq_some_iff.mp hrow with ⟨db, hdb, hcolumns⟩
  rw [hdb, Option.map_some] at hnone
  rcases Prod.mk.inj (Option.some.inj hnone) with ⟨hall, hmatches⟩
  refine ⟨db, run_iff_exec.mpr hdb, ?_, hcolumns, hall, ?_⟩
  · intro hswept
    rcases Option.map_eq_some_iff.mp hcolumns with ⟨r, hr, heq⟩
    have htrue := hswept.complete 1 r hr
    rw [(Prod.mk.inj heq).left] at htrue
    cases htrue
  · intro order
    unfold DB.findRow SerialTable.findRow
    rw [hmatches]
    cases hpick : order.pick [] with
    | none => rfl
    | some r => cases order.pick_mem _ _ hpick

/-- A join that was marked complete, and one that was stopped. -/
theorem reopened_store_swept_iff_for_family :
    exists db, Run (storeStep Json.compact) DB.empty
        (stoppedJoin ++ [StoreOp.markComplete 1]) db ∧
      (Swept db.prepare <->
        JoinsFinished Json.compact (stoppedJoin ++ [StoreOp.markComplete 1])) := by
  have hsome : (exec (storeStep Json.compact) DB.empty
      (stoppedJoin ++ [StoreOp.markComplete 1])).isSome = true := by
    decide
  rcases Option.isSome_iff_exists.mp hsome with ⟨db, hdb⟩
  have hrun := run_iff_exec.mpr hdb
  exact ⟨db, hrun, reopened_store_swept_iff hrun⟩

end Guest
end WispersAccess
