import WispersAccess.Guest.Device

/-!
# What the events of a call do

Each phase of a join or a leave promises something about the call's row and about
the secrets of its share.  An event moves the call on, writes to its row, saves or
deletes secrets of its share, or deletes the row, and keeps the promises of the
phase it leads to.
-/

namespace WispersAccess
namespace Guest

open Foundation
open Wire (ShareInfo)

/-!
## The promises of a phase
-/

def NoSecrets (secrets : List Secret) (share : ShareId) : Prop :=
  forall e, e ∈ secrets -> e.scope ≠ SecretScope.share share

/-- The keys under which a transport keeps secrets. -/
def KeyFits (transport key : String) : Prop :=
  (transport = Transport.iroh.asStr ∧ key = irohSecretKey) ∨
    (transport = Transport.wispersConnect.asStr ∧ (key = rootKey ∨ key = registration))

/-- A join that has neither marked its row complete nor failed. -/
def Phase.pending : Phase -> Bool
  | marked => false
  | failed => false
  | leaving _ _ => false
  | forgotten => false
  | returned => false
  | _ => true

/-- A join whose row is not complete. -/
def Phase.unfinished (phase : Phase) : Bool :=
  phase.pending || phase = failed

/-- What a phase promises about its row and the secrets of its share. -/
def Phase.Holds (secrets : List Secret) (r : ShareRow) : Phase -> Prop
  | irohStarted => r.complete = none ∧ NoSecrets secrets r.shareId
  | irohActivated _ => r.complete = none ∧ NoSecrets secrets r.shareId
  | irohAddressed _ =>
      r.complete = none ∧ r.transport = Transport.iroh.asStr ∧ NoSecrets secrets r.shareId
  | wcStarted _ =>
      r.complete = none ∧ r.transport = Transport.wispersConnect.asStr ∧
        NoSecrets secrets r.shareId
  | wcRegistering share _ =>
      r.complete = none ∧ r.transport = Transport.wispersConnect.asStr ∧ r.shareId = share ∧
        NoSecrets secrets r.shareId
  | wcRootSaved share _ =>
      r.complete = none ∧ r.transport = Transport.wispersConnect.asStr ∧ r.shareId = share
  | wcRegistered share _ =>
      r.complete = none ∧ r.transport = Transport.wispersConnect.asStr ∧ r.shareId = share
  | wcFetched share _ _ =>
      r.complete = none ∧ r.transport = Transport.wispersConnect.asStr ∧ r.shareId = share
  | wcRollback share =>
      r.complete = none ∧ r.transport = Transport.wispersConnect.asStr ∧ r.shareId = share
  | joined _ => r.complete = none
  | infoWritten _ _ => r.complete = none
  | nameWritten _ _ => r.complete = none
  | labelled => r.complete = none
  | marked => r.complete = some true
  | failed => r.complete = none ∧ NoSecrets secrets r.shareId
  | leaving transport loggedOut =>
      r.complete = some true ∧ r.transport = transport.asStr ∧
        (loggedOut = true -> NoSecrets secrets r.shareId)
  | forgotten => r.complete = some true ∧ NoSecrets secrets r.shareId
  | returned => True

/-- A join that fails here would leave secrets behind. -/
def Phase.saved : Phase -> Bool
  | wcRootSaved _ _ => true
  | joined _ => true
  | infoWritten _ _ => true
  | nameWritten _ _ => true
  | labelled => true
  | marked => true
  | _ => false

/-- No join fails once it has saved a secret, unless it logs out again; and no leave fails
to read the share id.  Where the row is gone, its secrets are too. -/
def TidyCall (db : DB) (c : Call) : Event -> Prop
  | Event.fail => c.phase.saved = false ∨ db.row c.row = none
  | Event.logoutFails => False
  | Event.forgetFails =>
      c.phase = Phase.leaving Transport.wispersConnect true ∨ db.row c.row = none
  | _ => True

theorem NoSecrets.mono {secrets secrets' : List Secret} {share : ShareId}
    (h : NoSecrets secrets share) (hsub : forall e, e ∈ secrets' -> e ∈ secrets) :
    NoSecrets secrets' share :=
  fun e he => h e (hsub e he)

/-- Promises are about the secrets of the row's share only, and none asks for a secret. -/
theorem Phase.Holds.mono {secrets secrets' : List Secret} {r : ShareRow} {phase : Phase}
    (h : phase.Holds secrets r)
    (hsub : NoSecrets secrets r.shareId -> NoSecrets secrets' r.shareId) :
    phase.Holds secrets' r := by
  cases phase with
  | irohStarted | irohActivated | failed | forgotten => exact ⟨h.left, hsub h.right⟩
  | irohAddressed | wcStarted => exact ⟨h.left, h.right.left, hsub h.right.right⟩
  | wcRegistering =>
      exact ⟨h.left, h.right.left, h.right.right.left, hsub h.right.right.right⟩
  | leaving =>
      exact ⟨h.left, h.right.left, fun hout => hsub (h.right.right hout)⟩
  -- these promise nothing about secrets
  | wcRootSaved | wcRegistered | wcFetched | wcRollback => exact h
  | joined | infoWritten | nameWritten | labelled | marked => exact h
  | returned => trivial

theorem Phase.Holds.complete_none {secrets : List Secret} {r : ShareRow} {phase : Phase}
    (h : phase.Holds secrets r) (hphase : phase.unfinished = true) : r.complete = none := by
  cases phase with
  | irohStarted | irohActivated | irohAddressed | failed => exact h.left
  | wcStarted | wcRegistering | wcRootSaved | wcRegistered | wcFetched | wcRollback =>
      exact h.left
  | joined | infoWritten | nameWritten | labelled => exact h
  | marked | leaving | forgotten | returned => cases hphase

theorem Phase.unfinished_of_pending {phase : Phase} (h : phase.pending = true) :
    phase.unfinished = true := by
  unfold unfinished
  rw [h]
  rfl

/-!
## Deleting secrets
-/

theorem mem_deleteSecret {secrets : List Secret} {scope : SecretScope} {key : String}
    {e : Secret} :
    e ∈ deleteSecret secrets scope key <-> e ∈ secrets ∧ ¬ (e.scope = scope ∧ e.key = key) := by
  unfold deleteSecret
  rw [List.mem_filter, decide_eq_true_eq]

theorem mem_saveSecret {secrets : List Secret} {scope : SecretScope} {key : String}
    {value : List UInt8} {e : Secret} (h : e ∈ saveSecret secrets scope key value) :
    e ∈ secrets ∨ (e.scope = scope ∧ e.key = key) := by
  rcases List.mem_cons.mp h with rfl | hold
  · exact Or.inr ⟨rfl, rfl⟩
  · exact Or.inl (List.mem_of_mem_filter hold)

/-- What a save adds is of the share and under the key. -/
theorem saveSecret_fits {secrets : List Secret} {share : ShareId} {transport key : String}
    {value : List UInt8} (hkey : KeyFits transport key) :
    forall e, e ∈ saveSecret secrets (SecretScope.share share) key value ->
      e ∈ secrets ∨ (e.scope = SecretScope.share share ∧ KeyFits transport e.key) := by
  intro e he
  rcases mem_saveSecret he with hmem | ⟨hscope, heq⟩
  · exact Or.inl hmem
  · rw [← heq] at hkey
    exact Or.inr ⟨hscope, hkey⟩

theorem mem_of_mem_forgetSecrets {secrets : List Secret} {share : ShareId}
    {transport : Transport} {e : Secret} (h : e ∈ forgetSecrets secrets share transport) :
    e ∈ secrets := by
  cases transport with
  | iroh => exact (mem_deleteSecret.mp h).left
  | wispersConnect => exact (mem_deleteSecret.mp (mem_deleteSecret.mp h).left).left
  | tailscale => exact h

/-- Leaving deletes every secret that its transport may have saved. -/
theorem noSecrets_forgetSecrets {secrets : List Secret} {share : ShareId} {transport : Transport}
    (hfits : forall e, e ∈ secrets -> e.scope = SecretScope.share share ->
      KeyFits transport.asStr e.key) :
    NoSecrets (forgetSecrets secrets share transport) share := by
  intro e he hscope
  have hkey := hfits e (mem_of_mem_forgetSecrets he) hscope
  cases transport with
  | iroh =>
      rcases hkey with ⟨-, hkey⟩ | ⟨hname, -⟩
      · exact (mem_deleteSecret.mp he).right ⟨hscope, hkey⟩
      · exact absurd hname (by decide)
  | wispersConnect =>
      rcases hkey with ⟨hname, -⟩ | ⟨-, hkey | hkey⟩
      · exact absurd hname (by decide)
      · exact (mem_deleteSecret.mp (mem_deleteSecret.mp he).left).right ⟨hscope, hkey⟩
      · exact (mem_deleteSecret.mp he).right ⟨hscope, hkey⟩
  | tailscale =>
      rcases hkey with ⟨hname, -⟩ | ⟨hname, -⟩
      · exact absurd hname (by decide)
      · exact absurd hname (by decide)

theorem mem_of_mem_deleteNodeState {secrets : List Secret} {share : ShareId} {e : Secret}
    (h : e ∈ deleteNodeState secrets share) : e ∈ secrets := by
  have hforget : e ∈ forgetSecrets secrets share Transport.wispersConnect := h
  exact mem_of_mem_forgetSecrets hforget

theorem noSecrets_deleteNodeState {secrets : List Secret} {share : ShareId}
    (hfits : forall e, e ∈ secrets -> e.scope = SecretScope.share share ->
      KeyFits Transport.wispersConnect.asStr e.key) :
    NoSecrets (deleteNodeState secrets share) share := by
  show NoSecrets (forgetSecrets secrets share Transport.wispersConnect) share
  exact noSecrets_forgetSecrets hfits

/-!
## What an event does
-/

/-- What an event of a call can do, and what it keeps of the promises of its phase. -/
inductive CallEffect (db : DB) (secrets : List Secret) (c : Call) :
    DB -> List Secret -> Phase -> Prop where
  /-- The call moves on. -/
  | moved (phase : Phase)
      (hholds : forall r, db.row c.row = some r -> c.phase.Holds secrets r ->
        phase.Holds secrets r)
      (hpending : phase.pending = true -> c.phase.pending = true)
      (hkept : c.phase.unfinished = true -> phase.unfinished = true)
      (hunfinished : phase.unfinished = true -> c.phase.unfinished = true ∨ db.row c.row = none) :
      CallEffect db secrets c db secrets phase
  /-- A join writes to its row. -/
  | wrote (db' : DB) (phase : Phase) (hpending : c.phase.pending = true)
      (hphase : phase.pending = true ∨ phase = Phase.marked)
      (hnext : db'.shares.nextId = db.shares.nextId)
      (hother : forall j, j ≠ c.row -> db'.row j = db.row j)
      (hown : forall r, db.row c.row = some r -> c.phase.Holds secrets r ->
        exists r', db'.row c.row = some r' ∧ r'.shareId = r.shareId ∧
          phase.Holds secrets r' ∧
          (r'.transport = r.transport ∨ NoSecrets secrets r.shareId)) :
      CallEffect db secrets c db' secrets phase
  /-- A join saves a secret of its share. -/
  | saved (secrets' : List Secret) (phase : Phase) (hpending : c.phase.pending = true)
      (hphase : phase.pending = true)
      (hown : forall r, db.row c.row = some r -> c.phase.Holds secrets r ->
        phase.Holds secrets' r ∧ forall e, e ∈ secrets' -> e ∈ secrets ∨
          (e.scope = SecretScope.share r.shareId ∧ KeyFits r.transport e.key)) :
      CallEffect db secrets c db secrets' phase
  /-- A call deletes the secrets of its share. -/
  | forgot (secrets' : List Secret) (phase : Phase)
      (hsub : forall e, e ∈ secrets' -> e ∈ secrets)
      (hholds : forall r, db.row c.row = some r -> c.phase.Holds secrets r ->
        phase.Holds secrets' r)
      (hpending : phase.pending = false)
      (hphase : phase.unfinished = c.phase.unfinished) :
      CallEffect db secrets c db secrets' phase
  /-- A call deletes its row and returns. -/
  | deleted (hphase : c.phase = Phase.failed ∨ c.phase = Phase.forgotten) :
      CallEffect db secrets c (db.deleteRow c.row) secrets Phase.returned

/-- A join that writes to columns its phases say nothing about. -/
theorem CallEffect.of_update {db : DB} {secrets : List Secret} {c : Call} {phase : Phase}
    {f : ShareRow -> ShareRow} (hpending : c.phase.pending = true)
    (hphase : phase.pending = true ∨ phase = Phase.marked)
    (hshare : forall r, (f r).shareId = r.shareId)
    (hholds : forall r, c.phase.Holds secrets r -> phase.Holds secrets (f r) ∧
      ((f r).transport = r.transport ∨ NoSecrets secrets r.shareId)) :
    CallEffect db secrets c (db.updateShare c.row f) secrets phase := by
  refine CallEffect.wrote _ phase hpending hphase rfl (fun j hj => DB.row_updateShare_other hj) ?_
  intro r hr hold
  exact ⟨f r, DB.row_updateShare_self hr, hshare r, (hholds r hold).left, (hholds r hold).right⟩

/-- The call moves on to a phase that promises no more, its join neither ending nor failing. -/
theorem CallEffect.of_phase {db : DB} {secrets : List Secret} {c : Call} {phase : Phase}
    (hphase : phase.pending = c.phase.pending) (hunfinished : phase.unfinished = c.phase.unfinished)
    (hholds : forall r, db.row c.row = some r -> c.phase.Holds secrets r ->
      phase.Holds secrets r) :
    CallEffect db secrets c db secrets phase :=
  CallEffect.moved phase hholds (fun h => hphase ▸ h) (fun h => hunfinished ▸ h)
    (fun h => Or.inl (hunfinished ▸ h))

theorem Phase.Holds.failed {secrets : List Secret} {r : ShareRow} {phase : Phase}
    (h : phase.Holds secrets r) (hmay : phase.mayFail = true) (hsaved : phase.saved = false) :
    Phase.failed.Holds secrets r := by
  cases phase with
  | irohStarted | irohActivated => exact h
  | irohAddressed | wcStarted => exact ⟨h.left, h.right.right⟩
  | wcRegistering => exact ⟨h.left, h.right.right.right⟩
  | wcRootSaved | joined | infoWritten | nameWritten | labelled | marked => cases hsaved
  | wcRegistered | wcFetched | wcRollback | failed | leaving | forgotten | returned => cases hmay

theorem Phase.unfinished_of_mayFail {phase : Phase} (hmay : phase.mayFail = true)
    (hsaved : phase.saved = false) : phase.unfinished = true := by
  cases phase with
  | marked => cases hsaved
  | wcRegistered | wcFetched | wcRollback | failed | leaving | forgotten | returned => cases hmay
  | _ => rfl

/-- A failure before anything is saved. -/
theorem CallEffect.of_fail {db : DB} {secrets : List Secret} {c : Call}
    (hmay : c.phase.mayFail = true) (hclean : c.phase.saved = false ∨ db.row c.row = none) :
    CallEffect db secrets c db secrets Phase.failed := by
  refine CallEffect.moved Phase.failed ?_ nofun (fun _ => rfl) ?_
  · intro r hr hold
    rcases hclean with hsaved | hgone
    · exact hold.failed hmay hsaved
    · rw [hgone] at hr
      cases hr
  · intro _
    rcases hclean with hsaved | hgone
    · exact Or.inl (Phase.unfinished_of_mayFail hmay hsaved)
    · exact Or.inr hgone

theorem readShareId_eq_some {db : DB} {id : Int} {share : ShareId}
    (h : db.readShareId id = some share) : exists r, db.row id = some r ∧ r.shareId = share :=
  Option.map_eq_some_iff.mp h

section
variable {text : JsonText} {slug : Slugify}

/-- Every event that keeps tidy keeps the promises of its call. -/
theorem callStep_effect {db db' : DB} {secrets secrets' : List Secret} {c : Call} {phase : Phase}
    {event : Event} (h : callStep text slug db secrets c event = some (db', secrets', phase))
    (hclean : TidyCall db c event)
    (hfits : forall r, db.row c.row = some r -> forall e, e ∈ secrets ->
      e.scope = SecretScope.share r.shareId -> KeyFits r.transport e.key) :
    CallEffect db secrets c db' secrets' phase := by
  rcases c with ⟨row, current⟩
  cases event with
  | activate | fetch =>
      simp only [callStep] at h
      split at h
      · cases h
        exact CallEffect.of_phase rfl rfl fun _ _ hold => hold
      · cases h
  | writeIrohEndpointId host =>
      simp only [callStep] at h
      split at h
      · cases h
        refine CallEffect.of_update rfl (Or.inl rfl) (fun _ => rfl) ?_
        intro r hold
        exact ⟨⟨hold.left, rfl, hold.right⟩, Or.inr hold.right⟩
      · cases h
  | saveIrohSecret key =>
      simp only [callStep] at h
      split at h
      · rcases Option.map_eq_some_iff.mp h with ⟨share, hread, heq⟩
        cases heq
        rcases readShareId_eq_some hread with ⟨r, hr, rfl⟩
        refine CallEffect.saved _ _ rfl rfl ?_
        intro r' hr' hold
        rw [hr] at hr'
        cases hr'
        constructor
        · exact hold.left
        · exact saveSecret_fits (Or.inl ⟨hold.right.left, rfl⟩)
      · cases h
  | register =>
      simp only [callStep] at h
      split at h
      · rcases Option.map_eq_some_iff.mp h with ⟨share, hread, heq⟩
        cases heq
        rcases readShareId_eq_some hread with ⟨r, hr, rfl⟩
        refine CallEffect.of_phase rfl rfl ?_
        intro r' hr' hold
        rw [hr] at hr'
        cases hr'
        exact ⟨hold.left, hold.right.left, rfl, hold.right.right⟩
      · cases h
  | saveRootKey key =>
      simp only [callStep] at h
      split at h
      · cases h
        refine CallEffect.saved _ _ rfl rfl ?_
        intro r hr hrow
        rcases hrow with ⟨hcomplete, htransport, rfl, -⟩
        constructor
        · exact ⟨hcomplete, htransport, rfl⟩
        · exact saveSecret_fits (Or.inr ⟨htransport, Or.inl rfl⟩)
      · cases h
  | saveRegistration bytes =>
      simp only [callStep] at h
      split at h
      · cases h
        refine CallEffect.saved _ _ rfl rfl ?_
        intro r hr hrow
        rcases hrow with ⟨hcomplete, htransport, rfl⟩
        constructor
        · exact ⟨hcomplete, htransport, rfl⟩
        · exact saveSecret_fits (Or.inr ⟨htransport, Or.inr rfl⟩)
      · cases h
  | writeBackend =>
      simp only [callStep] at h
      split at h
      · cases h
        exact CallEffect.of_update rfl (Or.inl rfl) (fun _ => rfl)
          fun _ hold => ⟨hold.left, Or.inl rfl⟩
      · cases h
  | abandon =>
      simp only [callStep] at h
      split at h
      · cases h
        exact CallEffect.of_phase rfl rfl fun _ _ hold => hold
      · cases h
        exact CallEffect.of_phase rfl rfl fun _ _ hold => hold
      · cases h
  | logout =>
      simp only [callStep] at h
      split at h
      · cases h
        refine CallEffect.forgot _ _ (fun _ he => mem_of_mem_deleteNodeState he) ?_ rfl rfl
        intro r hr hrow
        rcases hrow with ⟨hcomplete, htransport, rfl⟩
        constructor
        · exact hcomplete
        · exact noSecrets_deleteNodeState fun e he hscope =>
            htransport ▸ hfits r hr e he hscope
      · rcases Option.map_eq_some_iff.mp h with ⟨share, hread, heq⟩
        cases heq
        rcases readShareId_eq_some hread with ⟨r, hr, rfl⟩
        refine CallEffect.forgot _ _ (fun _ he => mem_of_mem_deleteNodeState he) ?_ rfl rfl
        intro r' hr' hrow
        rcases hrow with ⟨hcomplete, htransport, -⟩
        rw [hr] at hr'
        cases hr'
        refine ⟨hcomplete, htransport, fun _ => ?_⟩
        exact noSecrets_deleteNodeState fun e he hscope =>
          htransport ▸ hfits r hr e he hscope
      · cases h
  | logoutFails => exact absurd hclean id
  | writeShareInfo =>
      simp only [callStep] at h
      split at h
      · rcases Option.bind_eq_some_iff.mp h with ⟨share, hread, hwrite⟩
        rcases Option.map_eq_some_iff.mp hwrite with ⟨next, hnext, heq⟩
        cases heq
        have hrows := DB.writeShareInfo_some hnext
        refine CallEffect.wrote _ _ rfl (Or.inl rfl) (DB.nextId_writeShareInfo hnext) ?_ ?_
        · intro j hj
          rw [hrows]
          cases db.row j with
          | none => rfl
          | some r => rw [Option.map_some, if_neg hj]
        · intro r hr hold
          have hown := hrows row
          rw [hr, Option.map_some, if_pos rfl] at hown
          exact ⟨_, hown, rfl, hold, Or.inl rfl⟩
      · cases h
  | writeDisplayName =>
      simp only [callStep] at h
      split at h
      · cases h
        exact CallEffect.of_update rfl (Or.inl rfl) (fun _ => rfl) fun _ hold => ⟨hold, Or.inl rfl⟩
      · cases h
  | writeDedupedHostname =>
      simp only [callStep] at h
      split at h
      · rcases Option.map_eq_some_iff.mp h with ⟨⟨next, label⟩, hwrite, heq⟩
        cases heq
        rcases DB.writeDedupedHostname_some hwrite with ⟨r, -, rfl, -⟩
        exact CallEffect.of_update rfl (Or.inl rfl) (fun _ => rfl) fun _ hold => ⟨hold, Or.inl rfl⟩
      · cases h
  | markComplete =>
      simp only [callStep] at h
      split at h
      · cases h
        exact CallEffect.of_update rfl (Or.inr rfl) (fun _ => rfl) fun _ _ => ⟨rfl, Or.inl rfl⟩
      · cases h
  | readShare =>
      simp only [callStep] at h
      split at h
      · rcases Option.map_eq_some_iff.mp h with ⟨share, -, heq⟩
        cases heq
        exact CallEffect.of_phase rfl rfl fun _ _ _ => trivial
      · cases h
  | fail =>
      simp only [callStep] at h
      split at h
      · rename_i hmay
        cases h
        exact CallEffect.of_fail hmay hclean
      · cases h
  | forget =>
      simp only [callStep] at h
      split at h
      · rename_i transport loggedOut
        rcases Option.map_eq_some_iff.mp h with ⟨share, hread, heq⟩
        cases heq
        rcases readShareId_eq_some hread with ⟨r, hr, rfl⟩
        refine CallEffect.forgot _ _ (fun _ he => mem_of_mem_forgetSecrets he) ?_ rfl rfl
        intro r' hr' hrow
        rcases hrow with ⟨hcomplete, htransport, -⟩
        rw [hr] at hr'
        cases hr'
        exact ⟨hcomplete, noSecrets_forgetSecrets
          fun e he hscope => htransport ▸ hfits r hr e he hscope⟩
      · cases h
  | forgetFails =>
      simp only [callStep] at h
      split at h
      · rename_i transport loggedOut
        cases h
        refine CallEffect.of_phase rfl rfl ?_
        intro r hr hrow
        rcases hrow with ⟨hcomplete, -, hout⟩
        rcases hclean with hphase | hgone
        · cases hphase
          exact ⟨hcomplete, hout rfl⟩
        · have hgone' : db.row row = none := hgone
          rw [hgone'] at hr
          cases hr
      · cases h
  | deleteRow =>
      simp only [callStep] at h
      split at h
      · cases h
        exact CallEffect.deleted (Or.inl rfl)
      · cases h
        exact CallEffect.deleted (Or.inr rfl)
      · cases h

end

end Guest
end WispersAccess
