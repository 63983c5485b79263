import WispersAccess.Foundation.CompactJson
import WispersAccess.Guest.Refresh
import WispersAccess.Host.Protocol

/-!
# The stored copy over time

Whatever the order of refreshes and reloads, the stored copy is one that the host
told with the stored hash.  It is not always the newest one that a refresh was
answered with: a refresh that stores late puts an older copy in its place.
-/

namespace WispersAccess
namespace Guest

open Foundation
open Wire (ShareInfo)
open Host (ShareConfig TransportKind shareInfo)

/-!
## The store after a step
-/

section
variable {text : JsonText} {id : Int} {db db' : DB} {host : ShareHost}
  {phase phase' : RefreshPhase} {event : RefreshEvent}

theorem readCopy_writeOutdated (text : JsonText) (db : DB) (id : Int) (outdated : Bool) :
    (db.writeOutdated id outdated).1.readCopy text id = db.readCopy text id ∧
      (db.writeOutdated id outdated).1.readShareConfigHash id = db.readShareConfigHash id :=
  DB.readCopy_updateShare fun _ _ => ⟨rfl, rfl, rfl⟩

/-- An event leaves the copy alone, unless it stores the share info of a 200. -/
theorem RefreshEffect.copy (h : RefreshEffect text id host db phase event db' phase') :
    (db'.readCopy text id = db.readCopy text id ∧
        db'.readShareConfigHash id = db.readShareConfigHash id) ∨
      exists version info, phase = RefreshPhase.cleared version info ∧
        phase' = RefreshPhase.finished version ∧ db.writeShareInfo text id info = some db' := by
  cases h with
  | stored version info db' hwrite => exact Or.inr ⟨version, info, rfl, rfl, hwrite⟩
  | confirmed | cleared | marked => exact Or.inl (readCopy_writeOutdated text db id _)
  | asked | acceptedEarly | accepted | unchanged | told | refused | failed =>
      exact Or.inl ⟨rfl, rfl⟩

theorem RefreshEffect.row (h : RefreshEffect text id host db phase event db' phase') {r : ShareRow}
    (hr : db.row id = some r) :
    exists r', db'.row id = some r' ∧ r'.complete = r.complete := by
  cases h with
  | stored version info db' hwrite =>
      have hrow := DB.writeShareInfo_some hwrite id
      rw [hr, Option.map_some, if_pos rfl] at hrow
      exact ⟨_, hrow, rfl⟩
  | confirmed | cleared | marked => exact ⟨_, DB.row_updateShare_self hr, rfl⟩
  | asked | acceptedEarly | accepted | unchanged | told | refused | failed => exact ⟨r, hr, rfl⟩

end

/-!
## The copy and its hash
-/

/-- The share info of some config of the host, stored with its hash. -/
structure DB.Records (text : JsonText) (db : DB) (id : Int) (info : ShareInfo) : Prop where
  copy : db.readCopy text id = some (ShareCopy.ofInfo info)
  hash : db.readShareConfigHash id = some (some info.configHash)

/-- A share that has been joined, with no refresh under way.  An upgrade of the tables forgets
the hash. -/
structure Refreshing.Joined (text : JsonText) (id : Int) (s : Refreshing) : Prop where
  row : exists r, s.db.row id = some r ∧ r.complete = some true
  copy : s.db.readShareConfigHash id = some none ∨
    exists config, config ∈ s.host.versions ∧
      s.db.Records text id (shareInfo config s.host.transport)
  calls : s.calls = []

/-!
## What a join leaves
-/

section
variable {text : JsonText} {slug : Slugify} {id : Int} {config : ShareConfig}
  {transport : TransportKind}

/-- The writes of `record_join`, the share info and then its name. -/
theorem records_of_join {db db' db'' : DB} {secrets secrets' secrets'' : List Secret}
    {phase phase' : Phase} {r : ShareRow} (hname : config.name ≠ "") (hr : db.row id = some r)
    (hinfo : callStep text slug db secrets ⟨id, Phase.joined (shareInfo config transport)⟩
      Event.writeShareInfo = some (db', secrets', phase))
    (hnamed : callStep text slug db' secrets' ⟨id, phase⟩ Event.writeDisplayName =
      some (db'', secrets'', phase')) :
    db''.Records text id (shareInfo config transport) ∧
      exists r'', db''.row id = some r'' ∧ r''.complete = r.complete := by
  rcases Option.bind_eq_some_iff.mp hinfo with ⟨share, -, hwrite⟩
  rcases Option.map_eq_some_iff.mp hwrite with ⟨mid, hmid, heq⟩
  cases heq
  cases hnamed
  rcases DB.readCopy_writeShareInfo hr hmid with ⟨hcopy, hhash⟩
  have hrow := DB.writeShareInfo_some hmid id
  rw [hr, Option.map_some, if_pos rfl] at hrow
  have hsame : recordedName share (shareInfo config transport) = config.name := if_neg hname
  have hnamed : (db'.writeDisplayName id (recordedName share (shareInfo config transport))).row id =
      _ := DB.row_updateShare_self hrow
  -- a name that is not empty is written once more
  have hkept : (db'.writeDisplayName id (recordedName share (shareInfo config transport))).readCopy
        text id = db'.readCopy text id ∧
      (db'.writeDisplayName id
        (recordedName share (shareInfo config transport))).readShareConfigHash id =
          db'.readShareConfigHash id := by
    refine DB.readCopy_congr ?_ rfl
    rw [hnamed, hrow, hsame]
    rfl
  exact ⟨⟨hkept.left.trans hcopy, hkept.right.trans hhash⟩, _, hnamed, rfl⟩

theorem storeStep_records {db db' : DB} {op : StoreOp} {info : ShareInfo}
    (hs : db.Records text id info ∧ exists r, db.row id = some r ∧ r.complete ≠ some false)
    (hop : op.sparesCopy id = true) (h : storeStep text db op = some db') :
    db'.Records text id info ∧ exists r, db'.row id = some r ∧ r.complete ≠ some false := by
  rcases hs with ⟨hrecords, r, hr, hcomplete⟩
  rcases storeStep_sparesCopy h hop hr hcomplete with ⟨⟨r', hr', hsame⟩, hcopy, hhash⟩
  refine ⟨⟨hcopy.trans hrecords.copy, hhash.trans hrecords.hash⟩, r', hr', ?_⟩
  rcases hsame with hsame | hsame
  · rw [hsame]
    exact hcomplete
  · rw [hsame]
    nofun

/-- A join that has written the share info and the name leaves the share joined, whatever else
is written until its row is marked complete. -/
theorem joined_of_records {db db' : DB} {ops : List StoreOp} {r r' : ShareRow} {host : ShareHost}
    (hrecords : db.Records text id (shareInfo config host.transport)) (hr : db.row id = some r)
    (hcomplete : r.complete ≠ some false) (hrun : Run (storeStep text) db ops db')
    (hspares : forall op, op ∈ ops -> op.sparesCopy id = true) (hr' : db'.row id = some r')
    (hdone : r'.complete = some true) (hconfig : config ∈ host.versions) :
    Refreshing.Joined text id { db := db', host, calls := [] } where
  row := ⟨r', hr', hdone⟩
  copy := by
    have hend := hrun.invariant_of_meets (fun _ _ _ hs hop h => storeStep_records hs hop h)
      (meets_of_forall (fun op hop _ => hspares op hop) db) ⟨hrecords, r, hr, hcomplete⟩
    exact Or.inr ⟨config, hconfig, hend.left⟩
  calls := rfl

end

/-- The copy in the store is what the host told with the hash in the store. -/
structure Refreshing.Faithful (text : JsonText) (id : Int) (s : Refreshing) : Prop where
  row : exists r, s.db.row id = some r ∧ r.complete = some true
  copy : forall hash, s.db.readShareConfigHash id = some (some hash) ->
    exists config, config ∈ s.host.versions ∧ config.configHash = hash ∧
      s.db.Records text id (shareInfo config s.host.transport)
  calls : forall (i : Nat) (phase : RefreshPhase), s.calls[i]? = some phase -> phase.Fits s.host

/-- Different configs of a host's history have different hashes. -/
def ShareHost.HashesApart (host : ShareHost) : Prop :=
  forall config, config ∈ host.versions -> forall config', config' ∈ host.versions ->
    config.configHash = config'.configHash -> config = config'

section
variable {text : JsonText} {w : Host.World} {id : Int} {s t : Refreshing}

theorem Refreshing.Joined.faithful (h : s.Joined text id) : s.Faithful text id where
  row := h.row
  copy := by
    intro hash hhash
    rcases h.copy with hnone | ⟨config, hconfig, hrecords⟩
    · rw [hnone] at hhash
      cases hhash
    · refine ⟨config, hconfig, ?_, hrecords⟩
      rw [hrecords.hash] at hhash
      exact Option.some.inj (Option.some.inj hhash)
  calls := by
    intro i phase hphase
    rw [h.calls] at hphase
    cases hphase

/-- Where hashes tell configs apart, the stored hash says whose info is stored. -/
theorem Refreshing.Faithful.records (hs : s.Faithful text id) (hapart : s.host.HashesApart)
    {config : ShareConfig} (hconfig : config ∈ s.host.versions)
    (hhash : s.db.readShareConfigHash id = some (some config.configHash)) :
    s.db.readCopy text id = some (ShareCopy.ofInfo (shareInfo config s.host.transport)) := by
  rcases hs.copy _ hhash with ⟨told, htold, heq, hrecords⟩
  rw [← hapart told htold config hconfig heq]
  exact hrecords.copy

/-- A step of a refresh, taken apart. -/
theorem refreshStep_call {i : Nat} {event : RefreshEvent}
    (h : refreshStep text w id s (RefreshAction.call i event) = some t) :
    exists phase db phase', s.calls[i]? = some phase ∧
      RefreshEffect text id s.host s.db phase event db phase' ∧
      t = { s with db := db, calls := s.calls.set i phase' } := by
  rcases Option.bind_eq_some_iff.mp h with ⟨phase, hphase, hevent⟩
  rcases Option.map_eq_some_iff.mp hevent with ⟨⟨db, phase'⟩, heffect, rfl⟩
  exact ⟨phase, db, phase', hphase, refreshEvent_effect heffect, rfl⟩

theorem refreshStep_other {op : StoreOp}
    (h : refreshStep text w id s (RefreshAction.other op) = some t) :
    op.sparesCopy id = true ∧
      exists db, storeStep text s.db op = some db ∧ t = { s with db := db } := by
  simp only [refreshStep] at h
  split at h
  · rename_i hop
    rcases Option.map_eq_some_iff.mp h with ⟨db, hwrite, rfl⟩
    exact ⟨hop, db, hwrite, rfl⟩
  · cases h

theorem refreshStep_grown {a : RefreshAction} (h : refreshStep text w id s a = some t) :
    s.host.Grown t.host := by
  cases a with
  | start =>
      cases h
      exact ShareHost.Grown.refl _
  | call i event =>
      rcases refreshStep_call h with ⟨phase, db, phase', -, -, rfl⟩
      exact ShareHost.Grown.refl _
  | reload fresh =>
      cases h
      exact s.host.grown_reload fresh
  | other op =>
      rcases refreshStep_other h with ⟨-, db, -, rfl⟩
      exact ShareHost.Grown.refl _

theorem refreshRun_grown {acts : List RefreshAction} (h : Run (refreshStep text w id) s acts t) :
    s.host.Grown t.host := by
  induction h with
  | nil s => exact ShareHost.Grown.refl _
  | cons hstep _ ih => exact (refreshStep_grown hstep).trans ih

theorem ShareHost.Grown.apart {host host' : ShareHost} (h : host.Grown host')
    (hapart : host'.HashesApart) : host.HashesApart :=
  fun _ hconfig _ hconfig' => hapart _ (h.versions.subset hconfig) _ (h.versions.subset hconfig')

/-- A copy that is faithful stays so where neither it nor its hash changes. -/
theorem Refreshing.Faithful.of_same_copy (hs : s.Faithful text id)
    (hhost : s.host.Grown t.host)
    (hrow : exists r, t.db.row id = some r ∧ r.complete = some true)
    (hcopy : t.db.readCopy text id = s.db.readCopy text id ∧
      t.db.readShareConfigHash id = s.db.readShareConfigHash id)
    (hcalls : forall (i : Nat) (phase : RefreshPhase), t.calls[i]? = some phase ->
      phase.Fits t.host) :
    t.Faithful text id where
  row := hrow
  copy := by
    intro hash hhash
    rw [hcopy.right] at hhash
    rcases hs.copy hash hhash with ⟨config, hconfig, heq, hrecords⟩
    refine ⟨config, hhost.versions.subset hconfig, heq, ?_⟩
    rw [hhost.transport]
    exact ⟨hcopy.left.trans hrecords.copy, hcopy.right.trans hrecords.hash⟩
  calls := hcalls

theorem refreshStep_faithful {a : RefreshAction} (hs : s.Faithful text id)
    (h : refreshStep text w id s a = some t) : t.Faithful text id := by
  cases a with
  | start =>
      cases h
      refine hs.of_same_copy (ShareHost.Grown.refl _) hs.row ⟨rfl, rfl⟩ ?_
      intro i phase hphase
      rcases slot_append_eq_some_iff.mp hphase with hold | ⟨-, rfl⟩
      · exact hs.calls i phase hold
      · trivial
  | call i event =>
      rcases refreshStep_call h with ⟨phase, db, phase', hphase, heffect, rfl⟩
      have hcalls : forall (j : Nat) (q : RefreshPhase), (s.calls.set i phase')[j]? = some q ->
          q.Fits s.host := by
        intro j q hq
        rcases (slot_set_eq_some_iff hphase).mp hq with ⟨-, rfl⟩ | ⟨-, hold⟩
        · exact heffect.fits (hs.calls i phase hphase)
        · exact hs.calls j q hold
      rcases hs.row with ⟨r, hr, hcomplete⟩
      rcases heffect.row hr with ⟨r', hr', hsame⟩
      have hrow : exists r', db.row id = some r' ∧ r'.complete = some true :=
        ⟨r', hr', hsame.trans hcomplete⟩
      rcases heffect.copy with hcopy | ⟨version, info, rfl, rfl, hwrite⟩
      · exact hs.of_same_copy (ShareHost.Grown.refl _) hrow hcopy hcalls
      · rcases hs.calls i _ hphase with ⟨config, hconfig, rfl⟩
        rcases DB.readCopy_writeShareInfo hr hwrite with ⟨hcopy, hhash⟩
        refine ⟨hrow, ?_, hcalls⟩
        intro hash hread
        refine ⟨config, List.mem_of_getElem? hconfig, ?_, ⟨hcopy, hhash⟩⟩
        exact Option.some.inj (Option.some.inj (hhash.symm.trans hread))
  | reload fresh =>
      cases h
      have hgrown := s.host.grown_reload fresh
      exact hs.of_same_copy hgrown hs.row ⟨rfl, rfl⟩ fun i phase hphase =>
        hgrown.fits (hs.calls i phase hphase)
  | other op =>
      rcases refreshStep_other h with ⟨hop, db, hwrite, rfl⟩
      rcases hs.row with ⟨r, hr, hcomplete⟩
      rcases storeStep_sparesCopy hwrite hop hr (by rw [hcomplete]; nofun) with
        ⟨⟨r', hr', hsame⟩, hcopy⟩
      exact hs.of_same_copy (ShareHost.Grown.refl _)
        ⟨r', hr', hsame.elim (fun h => h.trans hcomplete) fun h => h⟩ hcopy hs.calls

theorem refreshRun_faithful {acts : List RefreshAction} (hs : s.Faithful text id)
    (hrun : Run (refreshStep text w id) s acts t) : t.Faithful text id :=
  hrun.invariant (fun _ _ _ hs h => refreshStep_faithful hs h) hs

end

/-!
## The newest answer
-/

def RefreshPhase.completedFrom : RefreshPhase -> Option Nat
  | finished version => some version
  | _ => none

/-- The versions that the completed refreshes were answered from. -/
def Refreshing.completed (s : Refreshing) : List Nat :=
  s.calls.filterMap RefreshPhase.completedFrom

/-- The newest version that a completed refresh was answered from. -/
structure Refreshing.Newest (s : Refreshing) (version : Nat) : Prop where
  completed : version ∈ s.completed
  newest : forall other, other ∈ s.completed -> other ≤ version

/-- No refresh that was answered from a newer version has completed before one that stores. -/
def RefreshPhase.NotOvertaken (completed : List Nat) : RefreshPhase -> Prop
  | cleared version _ => forall other, other ∈ completed -> other ≤ version
  | _ => True

/-- A 304 that is newer than what has completed finds stored the hash that it confirms. -/
def RefreshPhase.Confirms (id : Int) (s : Refreshing) : RefreshPhase -> Prop
  | answered version none =>
      (exists other, other ∈ s.completed ∧ version ≤ other) ∨
        s.db.readShareConfigHash id =
          (s.host.versions[version]?).map fun config => some config.configHash
  | _ => True

/-- A refresh that completes is still in order. -/
def InOrder (id : Int) (s : Refreshing) : RefreshAction -> Prop
  | RefreshAction.call i RefreshEvent.storeInfo =>
      forall phase, phase ∈ s.calls[i]? -> phase.NotOvertaken s.completed
  | RefreshAction.call i RefreshEvent.clearOutdated =>
      forall phase, phase ∈ s.calls[i]? -> phase.Confirms id s
  | _ => True

instance decidableNotOvertaken (completed : List Nat) :
    (phase : RefreshPhase) -> Decidable (phase.NotOvertaken completed)
  | RefreshPhase.cleared version _ =>
      inferInstanceAs (Decidable (forall other, other ∈ completed -> other ≤ version))
  | RefreshPhase.opened _ => isTrue trivial
  | RefreshPhase.asked _ _ => isTrue trivial
  | RefreshPhase.answered _ _ => isTrue trivial
  | RefreshPhase.refused => isTrue trivial
  | RefreshPhase.finished _ => isTrue trivial
  | RefreshPhase.failed => isTrue trivial

instance decidableConfirms (id : Int) (s : Refreshing) :
    (phase : RefreshPhase) -> Decidable (phase.Confirms id s)
  | RefreshPhase.answered version none =>
      inferInstanceAs (Decidable ((exists other, other ∈ s.completed ∧ version ≤ other) ∨
        s.db.readShareConfigHash id =
          (s.host.versions[version]?).map fun config => some config.configHash))
  | RefreshPhase.answered _ (some _) => isTrue trivial
  | RefreshPhase.opened _ => isTrue trivial
  | RefreshPhase.asked _ _ => isTrue trivial
  | RefreshPhase.cleared _ _ => isTrue trivial
  | RefreshPhase.refused => isTrue trivial
  | RefreshPhase.finished _ => isTrue trivial
  | RefreshPhase.failed => isTrue trivial

instance decidableInOrder (id : Int) (s : Refreshing) :
    (a : RefreshAction) -> Decidable (InOrder id s a)
  | RefreshAction.call i RefreshEvent.storeInfo =>
      inferInstanceAs (Decidable
        (forall phase, phase ∈ s.calls[i]? -> phase.NotOvertaken s.completed))
  | RefreshAction.call i RefreshEvent.clearOutdated =>
      inferInstanceAs (Decidable (forall phase, phase ∈ s.calls[i]? -> phase.Confirms id s))
  | RefreshAction.call _ RefreshEvent.readHash => isTrue trivial
  | RefreshAction.call _ RefreshEvent.accept => isTrue trivial
  | RefreshAction.call _ (RefreshEvent.answer _) => isTrue trivial
  | RefreshAction.call _ RefreshEvent.markOutdated => isTrue trivial
  | RefreshAction.call _ RefreshEvent.fail => isTrue trivial
  | RefreshAction.start => isTrue trivial
  | RefreshAction.reload _ => isTrue trivial
  | RefreshAction.other _ => isTrue trivial

/-- The stored hash is that of the newest answer. -/
def Refreshing.UpToDate (id : Int) (s : Refreshing) : Prop :=
  forall version, s.Newest version -> exists config, s.host.versions[version]? = some config ∧
    s.db.readShareConfigHash id = some (some config.configHash)

section
variable {text : JsonText} {w : Host.World} {id : Int} {s t : Refreshing}

theorem Refreshing.UpToDate.of_same_calls (hs : s.UpToDate id) (hhost : s.host.Grown t.host)
    (hhash : t.db.readShareConfigHash id = s.db.readShareConfigHash id)
    (hcalls : forall version, version ∈ t.completed <-> version ∈ s.completed) :
    t.UpToDate id := by
  intro version hnewest
  have hold : s.Newest version :=
    ⟨(hcalls version).mp hnewest.completed, fun other hother =>
      hnewest.newest other ((hcalls other).mpr hother)⟩
  rcases hs version hold with ⟨config, hconfig, hstored⟩
  exact ⟨config, hhost.version hconfig, hhash.trans hstored⟩

theorem mem_completed {version : Nat} :
    version ∈ s.completed <-> RefreshPhase.finished version ∈ s.calls := by
  unfold Refreshing.completed
  rw [List.mem_filterMap]
  constructor
  · intro h
    rcases h with ⟨phase, hphase, heq⟩
    cases phase with
    | finished other =>
        cases heq
        exact hphase
    | _ => cases heq
  · intro hphase
    exact ⟨_, hphase, rfl⟩

/-- What completes at a step is what the step's refresh completes with. -/
theorem completed_set (db : DB) {i : Nat} {phase : RefreshPhase} (phase' : RefreshPhase)
    (hphase : s.calls[i]? = some phase)
    (hopen : forall version, phase ≠ RefreshPhase.finished version) (version : Nat) :
    version ∈ Refreshing.completed { s with db := db, calls := s.calls.set i phase' } <->
      version ∈ s.completed ∨ phase' = RefreshPhase.finished version := by
  rw [mem_completed, mem_completed, List.mem_iff_getElem?, List.mem_iff_getElem?]
  constructor
  · intro h
    rcases h with ⟨j, hj⟩
    rcases (slot_set_eq_some_iff hphase).mp hj with ⟨-, heq⟩ | ⟨-, hold⟩
    · exact Or.inr heq.symm
    · exact Or.inl ⟨j, hold⟩
  · intro h
    rcases h with ⟨j, hj⟩ | rfl
    · refine ⟨j, (slot_set_eq_some_iff hphase).mpr (Or.inr ⟨?_, hj⟩)⟩
      intro hsame
      subst hsame
      exact hopen version (Option.some.inj (hphase.symm.trans hj))
    · exact ⟨i, slot_set_self hphase _⟩

theorem RefreshEffect.not_finished {host : ShareHost} {db db' : DB} {phase phase' : RefreshPhase}
    {event : RefreshEvent} (h : RefreshEffect text id host db phase event db' phase')
    (version : Nat) : phase ≠ RefreshPhase.finished version := by
  intro heq
  subst heq
  cases h with
  | failed _ _ hrunning => cases hrunning

/-- What is still newest once more has completed was newest before, if it had completed. -/
theorem Refreshing.Newest.of_completed {version : Nat} (h : t.Newest version)
    (hold : version ∈ s.completed)
    (hmore : forall other, other ∈ s.completed -> other ∈ t.completed) : s.Newest version where
  completed := hold
  newest := fun other hother => h.newest other (hmore other hother)

/-- A refresh that is in order leaves the store up to date. -/
theorem RefreshEffect.upToDate {i : Nat} {event : RefreshEvent} {db : DB}
    {phase phase' : RefreshPhase} (hfaithful : s.Faithful text id) (hs : s.UpToDate id)
    (horder : InOrder id s (RefreshAction.call i event)) (hphase : s.calls[i]? = some phase)
    (heffect : RefreshEffect text id s.host s.db phase event db phase') :
    Refreshing.UpToDate id { s with db := db, calls := s.calls.set i phase' } := by
  have hcompleted := completed_set db phase' hphase heffect.not_finished
  have hmore : forall other, other ∈ s.completed ->
      other ∈ Refreshing.completed { s with db := db, calls := s.calls.set i phase' } :=
    fun other hother => (hcompleted other).mpr (Or.inl hother)
  cases heffect with
  | confirmed version =>
      have hkept := (readCopy_writeOutdated text s.db id false).right
      intro newest hnewest
      have hold : newest ∈ s.completed -> exists config,
          s.host.versions[newest]? = some config ∧
            (s.db.writeOutdated id false).1.readShareConfigHash id =
              some (some config.configHash) := by
        intro hdone
        rcases hs newest (hnewest.of_completed hdone hmore) with ⟨config, hconfig, hstored⟩
        exact ⟨config, hconfig, hkept.trans hstored⟩
      rcases (hcompleted newest).mp hnewest.completed with hdone | heq
      · exact hold hdone
      · cases heq
        rcases horder _ hphase with ⟨other, hdone, hle⟩ | hstored
        · have hge := hnewest.newest other (hmore other hdone)
          exact hold (Nat.le_antisymm hge hle ▸ hdone)
        · have hconfig := List.getElem?_eq_getElem (hfaithful.calls i _ hphase)
          rw [hconfig, Option.map_some] at hstored
          exact ⟨_, hconfig, hkept.trans hstored⟩
  | stored version info db hwrite =>
      intro newest hnewest
      have hle : newest ≤ version := by
        rcases (hcompleted newest).mp hnewest.completed with hdone | heq
        · exact horder _ hphase newest hdone
        · cases heq
          exact Nat.le_refl _
      have hge := hnewest.newest version ((hcompleted version).mpr (Or.inr rfl))
      cases Nat.le_antisymm hle hge
      rcases hfaithful.calls i _ hphase with ⟨config, hconfig, rfl⟩
      rcases hfaithful.row with ⟨r, hr, -⟩
      exact ⟨config, hconfig, (DB.readCopy_writeShareInfo hr hwrite).right⟩
  | cleared | marked =>
      refine hs.of_same_calls (ShareHost.Grown.refl _)
        (readCopy_writeOutdated text s.db id _).right fun version => ?_
      exact (hcompleted version).trans (or_iff_left nofun)
  | asked | acceptedEarly | accepted | unchanged | told | refused | failed =>
      refine hs.of_same_calls (ShareHost.Grown.refl _) rfl fun version => ?_
      exact (hcompleted version).trans (or_iff_left nofun)

theorem refreshStep_upToDate {a : RefreshAction}
    (hs : s.Faithful text id ∧ s.UpToDate id) (horder : InOrder id s a)
    (h : refreshStep text w id s a = some t) : t.Faithful text id ∧ t.UpToDate id := by
  refine ⟨refreshStep_faithful hs.left h, ?_⟩
  cases a with
  | start =>
      cases h
      refine hs.right.of_same_calls (ShareHost.Grown.refl _) rfl fun version => ?_
      rw [mem_completed, mem_completed]
      exact List.mem_append.trans (or_iff_left (by simp))
  | call i event =>
      rcases refreshStep_call h with ⟨phase, db, phase', hphase, heffect, rfl⟩
      exact heffect.upToDate hs.left hs.right horder hphase
  | reload fresh =>
      cases h
      exact hs.right.of_same_calls (s.host.grown_reload fresh) rfl fun _ => Iff.rfl
  | other op =>
      rcases refreshStep_other h with ⟨hop, db, hwrite, rfl⟩
      rcases hs.left.row with ⟨r, hr, hcomplete⟩
      exact hs.right.of_same_calls (ShareHost.Grown.refl _)
        (storeStep_sparesCopy hwrite hop hr (by rw [hcomplete]; nofun)).right.right
        fun _ => Iff.rfl

/-- In every run whose refreshes are in order, the stored copy is at all times the one of the
newest version that a completed refresh was answered from. -/
theorem stored_copy_newest_of_in_order {acts : List RefreshAction} (hjoined : s.Joined text id)
    (hrun : Run (refreshStep text w id) s acts t)
    (horder : Meets (refreshStep text w id) (InOrder id) s acts) (hapart : t.host.HashesApart)
    {version : Nat} (hnewest : t.Newest version) :
    exists config, t.host.versions[version]? = some config ∧
      t.db.readCopy text id =
        some (ShareCopy.ofInfo (shareInfo config t.host.transport)) := by
  have hstart : s.UpToDate id := by
    intro first hfirst
    have hnone := mem_completed.mp hfirst.completed
    rw [hjoined.calls] at hnone
    cases hnone
  rcases hrun.invariant_of_meets (fun _ _ _ hs hc h => refreshStep_upToDate hs hc h) horder
    ⟨hjoined.faithful, hstart⟩ with ⟨hfaithful, hupToDate⟩
  rcases hupToDate version hnewest with ⟨config, hconfig, hstored⟩
  exact ⟨config, hconfig, hfaithful.records hapart (List.mem_of_getElem? hconfig) hstored⟩

end

/-!
## A refresh that stores late
-/

/-- The config that a guest of the family joined with. -/
def joinedConfig : ShareConfig where
  name := "Family"
  apps := []
  caCertificates := []

def immichConfig : ShareConfig where
  name := "Family"
  apps := [{
    id := "photos", name := "Photos", kind := Wire.AppKind.immich
    mode := Host.AppProxyMode.reverseProxy "localhost:2283" }]
  caCertificates := []

def jellyfinConfig : ShareConfig where
  name := "Family"
  apps := immichConfig.apps ++ [{
    id := "films", name := "Films", kind := Wire.AppKind.jellyfin
    mode := Host.AppProxyMode.reverseProxy "localhost:8096" }]
  caCertificates := []

def joinedFamily : Refreshing where
  db := {
    shares := SerialTable.empty.insert { ShareRow.new firstShare 0 with
      displayName := some "Family"
      hostname := some "family"
      transport := Transport.iroh.asStr
      configHash := some (Wire.hashText joinedConfig.configHash)
      complete := some true }
    apps := [] }
  host := { transport := TransportKind.iroh, versions := [joinedConfig], nonempty := by simp }
  calls := []

theorem joinedFamily_joined : joinedFamily.Joined Json.compact 1 where
  row := ⟨_, rfl, rfl⟩
  copy := by
    refine Or.inr ⟨joinedConfig, List.mem_singleton_self _, ?_, ?_⟩
    · decide +kernel
    · decide +kernel
  calls := rfl

/-- A guest that is not turned away. -/
def welcome : Answering where
  peer := { peerId := "guest", userId := some "user" }
  client := some ⟨0, 1, 0, []⟩
  api := { db := Host.StateDb.fresh, accesses := 0, activated := false }

theorem fetched_welcome {text : JsonText} {w : Host.World} {config : ShareConfig}
    {transport : TransportKind} {known : Option UInt64} :
    fetched text (hostAnswer text w ⟨config, transport⟩ known welcome) =
      if known = some config.configHash then Fetched.unchanged
      else Fetched.info (shareInfo config transport) :=
  fetched_hostAnswer_welcome rfl rfl

/-- What a refresh does up to its answer, once it has started. -/
def askAndAnswer (i : Nat) : List RefreshAction :=
  [RefreshAction.call i RefreshEvent.readHash, RefreshAction.call i RefreshEvent.accept,
    RefreshAction.call i (RefreshEvent.answer welcome)]

def storeAnswer (i : Nat) : List RefreshAction :=
  [RefreshAction.call i RefreshEvent.clearOutdated, RefreshAction.call i RefreshEvent.storeInfo]

/-- A second refresh asks after a reload and stores before the first one does. -/
def overtaken : List RefreshAction :=
  RefreshAction.reload immichConfig :: RefreshAction.start :: askAndAnswer 0 ++
    RefreshAction.reload jellyfinConfig :: RefreshAction.start :: askAndAnswer 1 ++
    storeAnswer 1 ++ storeAnswer 0

/-- Both refreshes complete, and the copy is that of the older answer. -/
theorem overtaken_refresh_goes_back :
    joinedFamily.Joined Json.compact 1 ∧
      exists t, Run (refreshStep Json.compact Host.World.quiet 1) joinedFamily overtaken t ∧
        t.calls = [RefreshPhase.finished 1, RefreshPhase.finished 2] ∧
        t.host.versions = [joinedConfig, immichConfig, jellyfinConfig] ∧
        t.db.readCopy Json.compact 1 =
          some (ShareCopy.ofInfo (shareInfo immichConfig TransportKind.iroh)) ∧
        ShareCopy.ofInfo (shareInfo immichConfig TransportKind.iroh) ≠
          ShareCopy.ofInfo (shareInfo jellyfinConfig TransportKind.iroh) := by
  have hend : (exec (refreshStep Json.compact Host.World.quiet 1) joinedFamily overtaken).map
      (fun t => (t.calls, t.host.versions, t.db.readCopy Json.compact 1)) =
        some ([RefreshPhase.finished 1, RefreshPhase.finished 2],
          [joinedConfig, immichConfig, jellyfinConfig],
          some (ShareCopy.ofInfo (shareInfo immichConfig TransportKind.iroh))) := by
    simp only [overtaken, askAndAnswer, storeAnswer, List.cons_append, List.nil_append, exec,
      refreshStep, refreshEvent, fetched_welcome]
    decide +kernel
  rcases Option.map_eq_some_iff.mp hend with ⟨t, ht, heq⟩
  simp only [Prod.mk.injEq] at heq
  rcases heq with ⟨hcalls, hversions, hcopy⟩
  exact ⟨joinedFamily_joined, t, run_iff_exec.mpr ht, hcalls, hversions, hcopy, by decide⟩

/-- A refresh that nothing overtakes. -/
def inTurn : List RefreshAction :=
  RefreshAction.reload immichConfig :: RefreshAction.start :: askAndAnswer 0 ++ storeAnswer 0

theorem stored_copy_newest_in_turn :
    exists t, Run (refreshStep Json.compact Host.World.quiet 1) joinedFamily inTurn t ∧
      exists config, t.host.versions[1]? = some config ∧
        t.db.readCopy Json.compact 1 =
          some (ShareCopy.ofInfo (shareInfo config t.host.transport)) := by
  have hend : (exec (refreshStep Json.compact Host.World.quiet 1) joinedFamily inTurn).map
      (fun t => (t.calls, t.host.versions)) =
        some ([RefreshPhase.finished 1], [joinedConfig, immichConfig]) := by
    simp only [inTurn, askAndAnswer, storeAnswer, List.cons_append, List.nil_append, exec,
      refreshStep, refreshEvent, fetched_welcome]
    decide +kernel
  have horder : Meets (refreshStep Json.compact Host.World.quiet 1) (InOrder 1) joinedFamily
      inTurn := by
    decide +kernel
  rcases Option.map_eq_some_iff.mp hend with ⟨t, ht, heq⟩
  rcases Prod.mk.inj heq with ⟨hcalls, hversions⟩
  have hapart : t.host.HashesApart := by
    unfold ShareHost.HashesApart
    rw [hversions]
    decide +kernel
  have hnewest : t.Newest 1 := by
    constructor
    · rw [mem_completed, hcalls]
      exact List.mem_singleton_self _
    · intro other hother
      rw [mem_completed, hcalls, List.mem_singleton] at hother
      cases hother
      exact Nat.le_refl 1
  have hrun := run_iff_exec.mpr ht
  exact ⟨t, hrun, stored_copy_newest_of_in_order joinedFamily_joined hrun horder hapart hnewest⟩

end Guest
end WispersAccess
