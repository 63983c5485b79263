import WispersAccess.Guest.DeadShares

/-!
# Leaving a share

A leave takes the share's guest node out of the map before its transport says
goodbye, and deletes the row at the end.  In between the row is as it was, so that
a restore makes a new node for the share and puts it into the map.  No such node is
made as long as the restores keep away from a leave.
-/

namespace WispersAccess
namespace Guest

open Foundation

/-!
## Leaves under way
-/

/-- The entry is removed, and the leave has not returned. -/
def LeavePhase.underWay : LeavePhase -> Bool
  | found => false
  | returned _ => false
  | _ => true

/-- A restore has found no terminal state, and is not done with the cell of its share. -/
def RestorePhase.pastCheck : RestorePhase -> Bool
  | alive => true
  | named _ => true
  | waiting _ _ => true
  | initialising _ _ => true
  | labelled _ _ _ => true
  | restoring _ _ _ _ => true
  | _ => false

namespace Client

def Leaving (s : Client) (share : ShareId) : Prop :=
  exists c, c ∈ s.leaves ∧ c.share = share ∧ c.phase.underWay = true

/-- A leave of the share has returned, and not with an error. -/
def Left (s : Client) (share : ShareId) : Prop :=
  exists c, c ∈ s.leaves ∧ c.share = share ∧ c.phase = LeavePhase.returned true

instance (s : Client) (share : ShareId) : Decidable (s.Leaving share) :=
  inferInstanceAs (Decidable (exists c, c ∈ s.leaves ∧ c.share = share ∧
    c.phase.underWay = true))

end Client

/-- A restore that is past its check is another share's. -/
def RestoreCall.KeepsOff (c : RestoreCall) (share : ShareId) (row : Int) : Prop :=
  c.phase.pastCheck = true -> c.row ≠ row ∧ c.phase.share ≠ some share

instance (c : RestoreCall) (share : ShareId) (row : Int) : Decidable (c.KeepsOff share row) :=
  inferInstanceAs (Decidable (c.phase.pastCheck = true -> _))

/-- The share id that a join makes a row for. -/
def DeviceAction.minted : DeviceAction -> Option ShareId
  | joinIroh share _ => some share
  | joinWispersConnect share _ _ => some share
  | _ => none

/-- Restores keep away from a leave of the share: none of the share is past its check when the
entry is removed, and one that checks before the leave has returned finds a terminal state.  The
leave looks the share up where it is named alone, and the share's id is not minted again. -/
def RestoresKeepAway (share : ShareId) (s : Client) : ClientAction -> Prop
  | ClientAction.leave _ other => other = share -> s.db.NamedAlone share
  | ClientAction.leaving i =>
      forall c, c ∈ s.leaves[i]? -> c.share = share -> c.phase = LeavePhase.found ->
        forall d, d ∈ s.restores -> d.KeepsOff share c.row
  | ClientAction.restore i RestoreEvent.readTerminalState =>
      s.Leaving share -> forall c, c ∈ s.restores[i]? -> forall r, r ∈ s.db.row c.row ->
        r.shareId = share -> (r.terminalState.bind TerminalState.parse).isSome = true
  | ClientAction.device a => a.minted = some share -> forall c, c ∈ s.leaves -> c.share ≠ share
  | _ => True

instance decidableKeepAway (share : ShareId) (s : Client) (a : ClientAction) :
    Decidable (RestoresKeepAway share s a) := by
  unfold RestoresKeepAway
  split
  all_goals infer_instance

/-!
## The call that says goodbye
-/

/-- A leave of the device: its row goes when it returns. -/
def Phase.SaysGoodbye (db : DB) (row : Int) : Phase -> Prop
  | leaving _ _ => True
  | forgotten => True
  | returned => db.row row = none
  | _ => False

section
variable {text : JsonText} {slug : Slugify}

theorem callStep_saysGoodbye {db db' : DB} {secrets secrets' : List Secret} {c : Call}
    {phase : Phase} {event : Event}
    (h : callStep text slug db secrets c event = some (db', secrets', phase))
    (hc : c.phase.SaysGoodbye db c.row) : phase.SaysGoodbye db' c.row := by
  rcases c with ⟨row, current⟩
  cases current with
  | leaving transport loggedOut =>
      cases event with
      | logout =>
          simp only [callStep] at h
          split at h
          · rename_i heq
            cases heq
          · rcases Option.map_eq_some_iff.mp h with ⟨share, -, heq⟩
            cases heq
            trivial
          · cases h
      | forget =>
          rcases Option.map_eq_some_iff.mp h with ⟨share, -, heq⟩
          cases heq
          trivial
      | forgetFails =>
          cases h
          trivial
      | fail => cases h
      | _ => cases h
  | forgotten =>
      cases event with
      | deleteRow =>
          cases h
          show (db.deleteRow row).row row = none
          cases hrow : (db.deleteRow row).row row with
          | none => rfl
          | some r => exact absurd rfl (DB.row_deleteRow.mp hrow).right
      | _ => cases h
  | returned =>
      cases event with
      | _ => cases h
  | _ => cases hc

end

/-!
## What holds of a leave
-/

/-- A leave of the share has its row, and no restore makes a node for it: the entry is removed,
and stays so until the row is gone. -/
structure LeaveFits (s : Client) (share : ShareId) (c : LeaveCall) : Prop where
  own : s.db.OwnRow c.row share
  only : forall id r, s.db.row id = some r -> r.shareId = share -> id = c.row
  off : c.phase.underWay = true ∨ c.phase = LeavePhase.returned true ->
    s.guestNodes.entry share = none ∧ forall d, d ∈ s.restores -> d.KeepsOff share c.row
  goodbye : forall call, c.phase = LeavePhase.goodbye call ->
    exists d, s.device.calls[call]? = some d ∧ d.row = c.row ∧ d.phase.SaysGoodbye s.db c.row
  gone : c.phase = LeavePhase.returned true -> s.db.row c.row = none

theorem Phase.SaysGoodbye.kept {db db' : DB} {row : Int} {phase : Phase}
    (h : phase.SaysGoodbye db row) (hrows : RowsKept db db') (hrow : row < db.shares.nextId) :
    phase.SaysGoodbye db' row := by
  cases phase with
  | returned =>
      cases hrow' : db'.row row with
      | none => exact hrow'
      | some r' =>
          rcases hrows.origin row r' hrow' hrow with ⟨r, hr, -⟩
          have hgone : db.row row = none := h
          rw [hgone] at hr
          cases hr
  | leaving | forgotten => trivial
  | _ => exact absurd h id

section
variable {text : JsonText} {slug : Slugify} {s t : Client} {share : ShareId}

/-- Only joins make rows. -/
theorem deviceOp_newRow {device device' : Device} {a : DeviceAction} {now : Int}
    (hstep : deviceStep text slug device a = some device')
    (hop : deviceOp slug device a = some (StoreOp.newRow share now)) : a.minted = some share := by
  cases a with
  | joinIroh | joinWispersConnect =>
      cases hop
      rfl
  | call i event =>
      rcases Option.bind_eq_some_iff.mp hop with ⟨c, -, hcall⟩
      cases event with
      | writeBackend | writeShareInfo | writeDisplayName | writeDedupedHostname =>
          simp only [callOp] at hcall
          split at hcall
          · cases hcall
          · cases hcall
      | _ => cases hcall
  | refresh op =>
      cases hop
      cases hstep
  | leave | restart => cases hop

/-- A share id comes from the row before the step, or from the join that the step is. -/
theorem ClientEffect.minted {a : ClientAction} (h : ClientEffect text slug s a t) {id : Int}
    {r' : ShareRow} (hr' : t.db.row id = some r') :
    (exists r, s.db.row id = some r ∧ r'.shareId = r.shareId) ∨
      exists b, a = ClientAction.device b ∧ b.minted = some r'.shareId := by
  have hsame : t.db = s.db -> exists r, s.db.row id = some r ∧ r'.shareId = r.shareId := by
    intro hdb
    exact ⟨r', hdb ▸ hr', rfl⟩
  have hwrote : forall j state, t.db = s.db.writeTerminalState j state ->
      exists r, s.db.row id = some r ∧ r'.shareId = r.shareId := by
    intro j state hdb
    rw [hdb] at hr'
    rcases Option.map_eq_some_iff.mp (DB.row_updateShare.symm.trans hr') with ⟨r, hr, rfl⟩
    refine ⟨r, hr, ?_⟩
    split
    · rfl
    · rfl
  cases h with
  | @device b device hown hstep =>
      have hstore := deviceStep_db hstep
      cases hop : deviceOp slug s.device b with
      | none =>
          rw [hop] at hstore
          exact Or.inl (hsame (Option.some.inj hstore).symm)
      | some op =>
          rw [hop] at hstore
          rcases storeStep_origin hstore hr' with
            ⟨shareId, now, rfl, -, rfl⟩ | ⟨r, hr, -, hkept⟩
          · exact Or.inr ⟨b, rfl, deviceOp_newRow hstep hop⟩
          · exact Or.inl ⟨r, hr, hkept.shareId⟩
  | restore hc heffect =>
      cases heffect with
      | wrote hphase => exact Or.inl (hwrote _ _ rfl)
      | checked | named | entered | served | acquired | labelled | addressed | created | rejected
      | dead | failed => exact Or.inl (hsame rfl)
  | node hc hnode heffect =>
      cases heffect with
      | wrote hphase => exact Or.inl (hwrote _ _ rfl)
      | passed | gated | reconnecting | opening | probeLearned | streamLearned | marked | ended =>
          exact Or.inl (hsame rfl)
  | leaving hc heffect =>
      cases heffect with
      | removed | closing | closed | failed | goodbye | returned => exact Or.inl (hsame rfl)
  | unknown | found | called | leaveFound => exact Or.inl (hsame rfl)

end

/-!
## What a step leaves of it
-/

section
variable {text : JsonText} {slug : Slugify} {s t : Client} {share : ShareId} {row : Int}

/-- A call of the device that says goodbye goes on to, and keeps its row. -/
theorem deviceStep_saysGoodbye {device device' : Device} {a : DeviceAction} (hown : a.isOwn = true)
    (h : deviceStep text slug device a = some device') {call : Nat} {d : Call}
    (hd : device.calls[call]? = some d) (hrow : d.row < device.db.shares.nextId)
    (hgoodbye : d.phase.SaysGoodbye device.db d.row) :
    exists d', device'.calls[call]? = some d' ∧ d'.row = d.row ∧
      d'.phase.SaysGoodbye device'.db d.row := by
  have hkept := hgoodbye.kept (writeStep_rowsKept (deviceStep_db h)) hrow
  cases a with
  | joinIroh minted now =>
      rcases Option.map_eq_some_iff.mp h with ⟨p, -, rfl⟩
      exact ⟨d, slot_append_eq_some_iff.mpr (Or.inl hd), rfl, hkept⟩
  | joinWispersConnect minted now backend =>
      rcases Option.map_eq_some_iff.mp h with ⟨p, -, rfl⟩
      exact ⟨d, slot_append_eq_some_iff.mpr (Or.inl hd), rfl, hkept⟩
  | call i event =>
      rcases Option.bind_eq_some_iff.mp h with ⟨c, hc, hstep⟩
      rcases Option.map_eq_some_iff.mp hstep with ⟨⟨db', secrets', phase⟩, hcall, rfl⟩
      by_cases hi : call = i
      · subst hi
        rw [hc] at hd
        cases hd
        exact ⟨_, slot_set_self hc _, rfl, callStep_saysGoodbye hcall hgoodbye⟩
      · exact ⟨d, (slot_set_eq_some_iff hc).mpr (Or.inr ⟨hi, hd⟩), rfl, hkept⟩
  | refresh op =>
      simp only [deviceStep] at h
      split at h
      · rcases Option.map_eq_some_iff.mp h with ⟨db', -, rfl⟩
        exact ⟨d, hd, rfl, hkept⟩
      · cases h
  | leave | restart => cases hown

theorem ClientEffect.saysGoodbye {a : ClientAction} (h : ClientEffect text slug s a t)
    (hs : s.Coherent) {call : Nat} {d : Call} (hd : s.device.calls[call]? = some d)
    (hrow : d.row < s.db.shares.nextId) (hgoodbye : d.phase.SaysGoodbye s.db d.row) :
    exists d', t.device.calls[call]? = some d' ∧ d'.row = d.row ∧
      d'.phase.SaysGoodbye t.db d.row := by
  have hkept := hgoodbye.kept (h.grown hs).rows hrow
  cases h with
  | device hown hstep => exact deviceStep_saysGoodbye hown hstep hd hrow hgoodbye
  | restore hc heffect =>
      cases heffect with
      | checked | named | entered | served | acquired | labelled | addressed | created | rejected
      | wrote | dead | failed => exact ⟨d, hd, rfl, hkept⟩
  | node hc hnode heffect =>
      cases heffect with
      | passed | gated | reconnecting | opening | probeLearned | streamLearned | marked | wrote
      | ended => exact ⟨d, hd, rfl, hkept⟩
  | leaving hc heffect =>
      cases heffect with
      | goodbye hphase hread => exact ⟨d, slot_append_eq_some_iff.mpr (Or.inl hd), rfl, hkept⟩
      | removed | closing | closed | failed | returned => exact ⟨d, hd, rfl, hkept⟩
  | unknown | found | called | leaveFound => exact ⟨d, hd, rfl, hkept⟩

/-- A restore that keeps off the share leaves its entry alone, and goes on to keep off if it does
not find the share alive. -/
theorem RestoreEffect.keepsOff {i : Nat} {c : RestoreCall} {event : RestoreEvent}
    (h : RestoreEffect s i c event t) (hc : s.restores[i]? = some c)
    (hcheck : event = RestoreEvent.readTerminalState -> forall r, s.db.row c.row = some r ->
      r.terminalState.bind TerminalState.parse = none -> c.row ≠ row)
    (honly : forall id r, s.db.row id = some r -> r.shareId = share -> id = row)
    (hentry : s.guestNodes.entry share = none)
    (hoff : forall d, d ∈ s.restores -> d.KeepsOff share row) :
    t.guestNodes.entry share = none ∧ forall d, d ∈ t.restores -> d.KeepsOff share row := by
  have hmoved : forall phase : RestorePhase, (phase.pastCheck = true -> c.row ≠ row ∧
      phase.share ≠ some share) -> forall d, d ∈ s.restores.set i { c with phase := phase } ->
        d.KeepsOff share row := by
    intro phase hphase d hd
    rcases List.mem_or_eq_of_mem_set hd with hmem | rfl
    · exact hoff d hmem
    · exact hphase
  have hown := hoff c (List.mem_of_getElem? hc)
  unfold RestoreCall.KeepsOff at hown
  cases h with
  | checked hphase hr hterminal =>
      exact ⟨hentry, hmoved _ fun _ => ⟨hcheck rfl _ hr hterminal, nofun⟩⟩
  | named hphase hr =>
      rw [hphase] at hown
      refine ⟨hentry, hmoved _ fun _ => ⟨(hown rfl).left, ?_⟩⟩
      intro hshare
      exact (hown rfl).left (honly _ _ hr (Option.some.inj hshare))
  | @entered other cell m hphase hstep =>
      rw [hphase] at hown
      have hother : share ≠ other := by
        intro heq
        subst heq
        exact (hown rfl).right rfl
      exact ⟨(hstep.entry_other hother).trans hentry, hmoved _ fun _ => hown rfl⟩
  | acquired hphase hacquire =>
      rw [hphase] at hown
      have hsame := (OnceMap.acquire_some hacquire).right.right.right.left
      exact ⟨(congrFun hsame share).trans hentry, hmoved _ fun _ => hown rfl⟩
  | labelled label hphase =>
      rw [hphase] at hown
      exact ⟨hentry, hmoved _ fun _ => hown rfl⟩
  | addressed hphase hr =>
      rw [hphase] at hown
      exact ⟨hentry, hmoved _ fun _ => hown rfl⟩
  | served | created | wrote => exact ⟨hentry, hmoved _ nofun⟩
  | rejected | dead | failed =>
      refine ⟨?_, hmoved _ nofun⟩
      unfold Client.endRestore RestorePhase.giveBack
      split
      · exact hentry
      · exact hentry

end

/-!
## Steps
-/

section
variable {text : JsonText} {slug : Slugify} {s t : Client} {share : ShareId} {a : ClientAction}

/-- The entry of the share stays removed. -/
theorem ClientEffect.off_kept (h : ClientEffect text slug s a t)
    (hcond : RestoresKeepAway share s a) {c : LeaveCall} (hc : c ∈ s.leaves)
    (hshare : c.share = share) (hfits : LeaveFits s share c)
    (hoff : c.phase.underWay = true ∨ c.phase = LeavePhase.returned true) :
    t.guestNodes.entry share = none ∧ forall d, d ∈ t.restores -> d.KeepsOff share c.row := by
  have hbefore := hfits.off hoff
  cases h with
  | found hfind =>
      refine ⟨hbefore.left, ?_⟩
      intro d hd
      rcases List.mem_append.mp hd with hold | hnew
      · exact hbefore.right d hold
      · rw [List.mem_singleton.mp hnew]
        exact nofun
  | @restore i event d t hd heffect =>
      refine heffect.keepsOff hd ?_ hfits.only hbefore.left hbefore.right
      intro heq r hr hterminal hrow
      subst heq
      rw [hrow] at hr
      rcases hoff with hunderWay | hreturned
      · -- the row is there, so that the restore would find its terminal state
        have hfound := hcond ⟨c, hc, hshare, hunderWay⟩ d hd r (hrow ▸ hr) (hfits.own r hr)
        rw [hterminal] at hfound
        cases hfound
      · rw [hfits.gone hreturned] at hr
        cases hr
  | node hd hnode heffect =>
      cases heffect with
      | passed | gated | reconnecting | opening | probeLearned | streamLearned | marked | wrote
      | ended => exact hbefore
  | leaving hd heffect =>
      cases heffect with
      | removed hphase => exact ⟨OnceMap.entry_remove_none hbefore.left, hbefore.right⟩
      | closing | closed | failed | goodbye | returned => exact hbefore
  | unknown | device | called | leaveFound => exact hbefore

/-- A step leaves what holds of a leave that does not move. -/
theorem ClientEffect.leave_kept (h : ClientEffect text slug s a t) (hs : s.Coherent)
    (hcond : RestoresKeepAway share s a) {c : LeaveCall} (hc : c ∈ s.leaves)
    (hshare : c.share = share) (hfits : LeaveFits s share c) : LeaveFits t share c := by
  have hrows := (h.grown hs).rows
  have hknown : c.row < s.db.shares.nextId := by
    rcases List.getElem?_of_mem hc with ⟨i, hi⟩
    exact hs.leaves i c hi
  constructor
  · exact hrows.ownRow hknown hfits.own
  · intro id r' hr' hr'share
    rcases h.minted hr' with ⟨r, hr, hsame⟩ | ⟨b, rfl, hminted⟩
    · exact hfits.only id r hr (hsame ▸ hr'share)
    · exact absurd hshare (hcond (hr'share ▸ hminted) c hc)
  · exact h.off_kept hcond hc hshare hfits
  · intro call hphase
    rcases hfits.goodbye call hphase with ⟨d, hd, hrow, hgoodbye⟩
    rw [← hrow] at hgoodbye hknown ⊢
    exact h.saysGoodbye hs hd hknown hgoodbye
  · intro hphase
    cases hrow : t.db.row c.row with
    | none => rfl
    | some r' =>
        rcases hrows.origin c.row r' hrow hknown with ⟨r, hr, -⟩
        rw [hfits.gone hphase] at hr
        cases hr

/-- A leave that moves, apart from what it changes itself. -/
theorem LeaveFits.moved {c : LeaveCall} {phase : LeavePhase} (hfits : LeaveFits s share c)
    (hdb : t.db = s.db)
    (hoff : phase.underWay = true ∨ phase = LeavePhase.returned true ->
      t.guestNodes.entry share = none ∧ forall d, d ∈ t.restores -> d.KeepsOff share c.row)
    (hgoodbye : forall call, phase = LeavePhase.goodbye call ->
      exists d, t.device.calls[call]? = some d ∧ d.row = c.row ∧ d.phase.SaysGoodbye t.db c.row)
    (hgone : phase = LeavePhase.returned true -> t.db.row c.row = none) :
    LeaveFits t share { c with phase := phase } where
  own := hdb ▸ hfits.own
  only := hdb ▸ hfits.only
  off := hoff
  goodbye := hgoodbye
  gone := hgone

theorem LeaveEffect.fits {i : Nat} {c : LeaveCall} (h : LeaveEffect s i c t)
    (hc : s.leaves[i]? = some c) (hshare : c.share = share)
    (hcond : RestoresKeepAway share s (ClientAction.leaving i)) (hfits : LeaveFits s share c) :
    exists phase, t.leaves = s.leaves.set i { c with phase := phase } ∧
      LeaveFits t share { c with phase := phase } := by
  have hbefore : c.phase.underWay = true ->
      s.guestNodes.entry share = none ∧ forall d, d ∈ s.restores -> d.KeepsOff share c.row := by
    intro hunderWay
    exact hfits.off (Or.inl hunderWay)
  cases h with
  | removed hphase =>
      refine ⟨_, rfl, hfits.moved rfl ?_ nofun nofun⟩
      intro _
      refine ⟨?_, hcond c hc hshare hphase⟩
      rw [← hshare]
      exact OnceMap.entry_remove_self _ _
  | closing node hphase =>
      refine ⟨_, rfl, hfits.moved rfl (fun _ => hbefore ?_) nofun nofun⟩
      rw [hphase]
      rfl
  | closed hphase =>
      refine ⟨_, rfl, hfits.moved rfl (fun _ => hbefore ?_) nofun nofun⟩
      rcases hphase with ⟨cell, hphase⟩ | ⟨node, hphase⟩
      · rw [hphase]
        rfl
      · rw [hphase]
        rfl
  | failed hphase =>
      refine ⟨_, rfl, hfits.moved rfl ?_ nofun nofun⟩
      intro hcall
      rcases hcall with hunderWay | hreturned
      · cases hunderWay
      · cases hreturned
  | goodbye hphase hread =>
      refine ⟨_, rfl, hfits.moved rfl (fun _ => hbefore ?_) ?_ nofun⟩
      · rw [hphase]
        rfl
      · intro call hcall
        cases hcall
        exact ⟨_, slot_append_eq_some_iff.mpr (Or.inr ⟨rfl, rfl⟩), rfl, trivial⟩
  | returned hphase hcall =>
      refine ⟨_, rfl, hfits.moved rfl (fun _ => hbefore ?_) nofun ?_⟩
      · rw [hphase]
        rfl
      · intro _
        rcases hfits.goodbye _ hphase with ⟨d, hd, -, hgone⟩
        rw [hcall] at hd
        cases hd
        exact hgone

/-- What holds of every leave of the share. -/
def Client.LeavesFit (s : Client) (share : ShareId) : Prop :=
  forall c, c ∈ s.leaves -> c.share = share -> LeaveFits s share c

theorem ClientEffect.leavesFit (h : ClientEffect text slug s a t) (hs : s.Coherent)
    (hcond : RestoresKeepAway share s a) (hfits : s.LeavesFit share) : t.LeavesFit share := by
  have hkept : forall c, c ∈ s.leaves -> c.share = share -> LeaveFits t share c := by
    intro c hc hshare
    exact h.leave_kept hs hcond hc hshare (hfits c hc hshare)
  intro c hc hshare
  cases h with
  | @leaveFound order other id r hfind =>
      rcases List.mem_append.mp hc with hold | hnew
      · exact hkept c hold hshare
      · rw [List.mem_singleton.mp hnew] at hshare ⊢
        cases hshare
        have hr : s.db.row id = some r := (SerialTable.findRow_some hfind).left
        have hown : r.shareId = other := DB.NamedAlone.findRow (hcond rfl) hfind
        refine ⟨?_, ?_, ?_, nofun, nofun⟩
        · intro r' hr'
          rw [show s.db.row id = some r' from hr'] at hr
          cases hr
          exact hown
        · intro j r' hr' hshare
          exact hs.distinct.shares j id r' r hr' hr (hshare.trans hown.symm)
        · intro hcall
          rcases hcall with hunderWay | hreturned
          · cases hunderWay
          · cases hreturned
  | restore hd heffect =>
      cases heffect with
      | checked | named | entered | served | acquired | labelled | addressed | created | rejected
      | wrote | dead | failed => exact hkept c hc hshare
  | node hd hnode heffect =>
      cases heffect with
      | passed | gated | reconnecting | opening | probeLearned | streamLearned | marked | wrote
      | ended => exact hkept c hc hshare
  | @leaving i d t hd heffect =>
      by_cases hdshare : d.share = share
      · rcases heffect.fits hd hdshare hcond (hfits d (List.mem_of_getElem? hd) hdshare) with
          ⟨phase, hleaves, hmoved⟩
        rw [hleaves] at hc
        rcases List.mem_or_eq_of_mem_set hc with hold | rfl
        · exact hkept c hold hshare
        · exact hmoved
      · rcases heffect.moves with ⟨phase, hleaves, -⟩
        rw [hleaves] at hc
        rcases List.mem_or_eq_of_mem_set hc with hold | rfl
        · exact hkept c hold hshare
        · exact absurd hshare hdshare
  | unknown | device | found | called => exact hkept c hc hshare

end

/-!
## No node for a share that is being left
-/

section
variable {text : JsonText} {slug : Slugify} {s t : Client} {share : ShareId} {a : ClientAction}

/-- A node is only made by a restore, for the share that the restore has read. -/
theorem ClientEffect.new_node (h : ClientEffect text slug s a t) (hs : s.Coherent) {n : Nat}
    {node : GuestNode} (hn : s.nodes.length ≤ n) (hnode : t.nodes[n]? = some node) :
    exists c, c ∈ s.restores ∧ c.phase.pastCheck = true ∧
      c.phase.share = some node.host.share := by
  rcases h.node_after hnode with ⟨old, hold, -⟩ |
    ⟨-, i, c, share, cell, label, host, hc, hphase, rfl⟩
  · exact absurd (slot_lt hold) (Nat.not_lt.mpr hn)
  · have hfits := (hs.restores i c hc).right
    rw [hphase] at hfits
    refine ⟨c, List.mem_of_getElem? hc, ?_, ?_⟩
    · rw [hphase]
      rfl
    · rw [hphase]
      exact congrArg some hfits.right.right.right.symm

/-- In every run in which the restores keep away from the leaves of a share, no guest node is made
for the share from the moment at which a leave removes its entry until it returns, and the share
has no entry once a leave has returned without an error. -/
theorem left_share_has_no_node {device : Device} {before : List DeviceAction}
    {acts : List ClientAction}
    (hdevice : Run (deviceStep text slug) Device.start before device)
    (hrun : Run (clientStep text slug) (Client.start device) acts s)
    (hmeets : Meets (clientStep text slug) (RestoresKeepAway share) (Client.start device) acts) :
    (s.Leaving share -> forall a t, clientStep text slug s a = some t -> forall n node,
      s.nodes.length ≤ n -> t.nodes[n]? = some node -> node.host.share ≠ share) ∧
    (s.Left share -> s.guestNodes.entry share = none) := by
  have hinv : s.Coherent ∧ s.LeavesFit share := by
    refine @Run.invariant_of_meets _ _ (clientStep text slug) (RestoresKeepAway share)
      (fun u => u.Coherent ∧ u.LeavesFit share) ?_ _ _ _ hrun hmeets
      ⟨coherent_start (run_labels hdevice).toLabelsDistinct, nofun⟩
    intro u a v h hcond hstep
    rcases h with ⟨hu, hfits⟩
    have heffect := clientStep_effect hstep
    exact ⟨heffect.coherent hu, heffect.leavesFit hu hcond hfits⟩
  rcases hinv with ⟨hs, hfits⟩
  constructor
  · intro h a t hstep n node hn hnode hsame
    rcases h with ⟨c, hc, hshare, hunderWay⟩
    rcases (clientStep_effect hstep).new_node hs hn hnode with ⟨d, hd, hpast, hdshare⟩
    have hoff := ((hfits c hc hshare).off (Or.inl hunderWay)).right d hd hpast
    exact hoff.right (hsame ▸ hdshare)
  · intro h
    rcases h with ⟨c, hc, hshare, hreturned⟩
    exact ((hfits c hc hshare).off (Or.inr hreturned)).left

end

/-- The client's first leave goes as far as its goodbye, which is the device's first call. -/
def saidGoodbye : List ClientAction :=
  [ClientAction.leaving 0, ClientAction.leaving 0,
    ClientAction.device (DeviceAction.call 0 Event.forget),
    ClientAction.device (DeviceAction.call 0 Event.deleteRow), ClientAction.leaving 0]

/-- The share is left after it was restored; its node is closed. -/
def restoredAndLeft : List ClientAction :=
  firstRestore ++ [ClientAction.leave SerialTable.QueryOrder.byId firstShare,
    ClientAction.leaving 0, ClientAction.leaving 0] ++ saidGoodbye

theorem left_share_has_no_node_when_restored_before :
    exists device s,
      Run (deviceStep Json.compact Slugify.ascii) Device.start (wholeJoin 0 firstShare familyInfo)
        device ∧
      Run (clientStep Json.compact Slugify.ascii) (Client.start device) restoredAndLeft s ∧
      s.nodes.length = 1 ∧ s.guestNodes.entry firstShare = none := by
  have hend : ((exec (deviceStep Json.compact Slugify.ascii) Device.start
      (wholeJoin 0 firstShare familyInfo)).bind fun device =>
        (exec (clientStep Json.compact Slugify.ascii) (Client.start device) restoredAndLeft).map
          fun s => (decide (Meets (clientStep Json.compact Slugify.ascii)
            (RestoresKeepAway firstShare) (Client.start device) restoredAndLeft),
              s.nodes.length, s.leaves)) =
      some (true, 1, [⟨firstShare, 1, LeavePhase.returned true⟩]) := by
    decide +kernel
  rcases Option.bind_eq_some_iff.mp hend with ⟨device, hdevice, hrest⟩
  rcases Option.map_eq_some_iff.mp hrest with ⟨s, hs, heq⟩
  simp only [Prod.mk.injEq] at heq
  rcases heq with ⟨hmeets, hnodes, hleaves⟩
  have hjoined := run_iff_exec.mpr hdevice
  have hrun := run_iff_exec.mpr hs
  have hleft : s.Left firstShare := by
    refine ⟨⟨firstShare, 1, LeavePhase.returned true⟩, ?_, rfl, rfl⟩
    rw [hleaves]
    exact List.mem_singleton.mpr rfl
  exact ⟨device, s, hjoined, hrun, hnodes,
    (left_share_has_no_node hjoined hrun (of_decide_eq_true hmeets)).right hleft⟩

/-!
## A restore in between
-/

/-- The share is restored for the first time after a leave has removed its entry. -/
def leftMeanwhile : List ClientAction :=
  [ClientAction.leave SerialTable.QueryOrder.byId firstShare, ClientAction.leaving 0] ++
    firstRestore.dropLast

/-- The restore makes a node for the share, which stays in the map when the leave has returned. -/
theorem restored_while_leaving :
    exists device s t u,
      Run (deviceStep Json.compact Slugify.ascii) Device.start (wholeJoin 0 firstShare familyInfo)
        device ∧
      Run (clientStep Json.compact Slugify.ascii) (Client.start device) leftMeanwhile s ∧
      s.Leaving firstShare ∧ s.nodes.length = 0 ∧
      clientStep Json.compact Slugify.ascii s
        (ClientAction.restore 0 (RestoreEvent.answer (Except.ok ()))) = some t ∧
      (exists node, t.nodes[0]? = some node ∧ node.host.share = firstShare) ∧
      Run (clientStep Json.compact Slugify.ascii) t saidGoodbye u ∧ u.Left firstShare ∧
      u.guestNodes.entry firstShare ≠ none := by
  have hend : ((exec (deviceStep Json.compact Slugify.ascii) Device.start
      (wholeJoin 0 firstShare familyInfo)).bind fun device =>
        (exec (clientStep Json.compact Slugify.ascii) (Client.start device) leftMeanwhile).bind
          fun s => (clientStep Json.compact Slugify.ascii s
            (ClientAction.restore 0 (RestoreEvent.answer (Except.ok ())))).bind fun t =>
              (exec (clientStep Json.compact Slugify.ascii) t saidGoodbye).map fun u =>
                (decide (s.Leaving firstShare), s.nodes.length,
                  (t.nodes[0]?).map fun node => node.host.share, u.leaves,
                  u.guestNodes.entry firstShare)) =
      some (true, 0, some firstShare, [⟨firstShare, 1, LeavePhase.returned true⟩], some 0) := by
    decide +kernel
  rcases Option.bind_eq_some_iff.mp hend with ⟨device, hdevice, hrest⟩
  rcases Option.bind_eq_some_iff.mp hrest with ⟨s, hs, hrest⟩
  rcases Option.bind_eq_some_iff.mp hrest with ⟨t, ht, hrest⟩
  rcases Option.map_eq_some_iff.mp hrest with ⟨u, hu, heq⟩
  simp only [Prod.mk.injEq] at heq
  rcases heq with ⟨hleaving, hnodes, hnode, hleaves, hentry⟩
  rcases Option.map_eq_some_iff.mp hnode with ⟨node, hnode, hshare⟩
  have hleft : u.Left firstShare := by
    refine ⟨⟨firstShare, 1, LeavePhase.returned true⟩, ?_, rfl, rfl⟩
    rw [hleaves]
    exact List.mem_singleton.mpr rfl
  refine ⟨device, s, t, u, run_iff_exec.mpr hdevice, run_iff_exec.mpr hs,
    of_decide_eq_true hleaving, hnodes, ht, ⟨node, hnode, hshare⟩, run_iff_exec.mpr hu,
    hleft, ?_⟩
  rw [hentry]
  nofun

end Guest
end WispersAccess
