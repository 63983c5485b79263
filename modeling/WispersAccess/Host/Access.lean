import WispersAccess.Host.StorageRuns

/-!
# A peer's access

What the guest table says about one peer, on its own terms: a peer is unknown, a
guest, or revoked.  The state database refines this life cycle for every peer at
once; later modules reason about the life cycle and not about rows.
-/

namespace WispersAccess
namespace Host

open Foundation
open Wire (InviteSecret)

/-- What the share knows of a peer. -/
inductive Access where
  | unknown
  | guest
  | revoked
  deriving DecidableEq, Repr

/-- What an operation means for one peer. -/
inductive AccessEvent where
  | none
  | activated
  | removed
  | revoked
  deriving DecidableEq, Repr

/-- A guest is revoked or removed, an unknown peer activated, a revoked one removed. -/
def Access.after : Access -> AccessEvent -> Access
  | Access.unknown, AccessEvent.activated => Access.guest
  | Access.guest, AccessEvent.revoked => Access.revoked
  | _, AccessEvent.removed => Access.unknown
  | access, _ => access

theorem after_unknown {e : AccessEvent} (he : e ≠ AccessEvent.activated) :
    Access.unknown.after e = Access.unknown := by
  cases e with
  | activated => exact absurd rfl he
  | none => rfl
  | removed => rfl
  | revoked => rfl

theorem after_revoked {e : AccessEvent} (he : e ≠ AccessEvent.removed) :
    Access.revoked.after e = Access.revoked := by
  cases e with
  | removed => exact absurd rfl he
  | none => rfl
  | activated => rfl
  | revoked => rfl

namespace StateDb

def access (db : StateDb) (peerId : String) : Access :=
  match db.guestRow peerId with
  | none => Access.unknown
  | some r => if r.2.revokedAt.isSome then Access.revoked else Access.guest

/-- Number `number` stands for `peerId`. -/
def NumberOf (db : StateDb) (number : Int) (peerId : String) : Prop :=
  exists row, db.guests.lookup number = some row ∧ row.peerId = peerId

instance (db : StateDb) (number : Int) (peerId : String) :
    Decidable (db.NumberOf number peerId) :=
  match h : db.guests.lookup number with
  | none => isFalse (by simp [NumberOf, h])
  | some row => decidable_of_iff (row.peerId = peerId) (by simp [NumberOf, h])

theorem access_eq_unknown_iff {db : StateDb} {peerId : String} :
    db.access peerId = Access.unknown <-> db.guestRow peerId = none := by
  unfold access
  cases hrow : db.guestRow peerId with
  | none => simp
  | some r => by_cases hrevoked : r.2.revokedAt.isSome <;> simp [hrevoked]

theorem access_of_row {db : StateDb} (hdb : db.PeersDistinct) {n : Int} {row : GuestsRow}
    (hrow : db.guests.lookup n = some row) :
    db.access row.peerId =
      if row.revokedAt.isSome then Access.revoked else Access.guest := by
  unfold access
  rw [hdb.guestRow_eq hrow]

theorem access_unknown_of_no_number {db : StateDb} {peerId : String}
    (h : forall n, ¬ db.NumberOf n peerId) : db.access peerId = Access.unknown := by
  rw [access_eq_unknown_iff, guestRow_eq_none_iff]
  intro n row hrow hpeer
  exact h n ⟨row, hrow, hpeer⟩

/-- The look-up the host makes of a connecting peer. -/
theorem access_of_guestByPeer {db : StateDb} {peerId : String} {guest : GuestNode}
    (h : db.guestByPeer peerId = some guest) :
    db.access peerId = if guest.revokedAt.isSome then Access.revoked else Access.guest := by
  unfold guestByPeer at h
  rcases Option.map_eq_some_iff.mp h with ⟨r, hr, rfl⟩
  unfold access
  rw [hr]
  simp

theorem numberOf_of_guestByPeer {db : StateDb} {peerId : String} {guest : GuestNode}
    (h : db.guestByPeer peerId = some guest) : db.NumberOf guest.number peerId := by
  unfold guestByPeer at h
  rcases Option.map_eq_some_iff.mp h with ⟨r, hr, rfl⟩
  rcases guestRow_some hr with ⟨hrow, hpeer⟩
  exact ⟨r.2, hrow, hpeer⟩

section
variable (hashSecret : InviteSecret -> SecretHash)

/-- The redemption answers `Activated`. -/
def Activates (db : StateDb) (secret : InviteSecret) (peerId : String) (now : DateTime) : Prop :=
  exists guest,
    (db.redeemInvite hashSecret secret peerId now).1 = Except.ok (Redemption.activated guest)

instance (db : StateDb) (secret : InviteSecret) (peerId : String) (now : DateTime) :
    Decidable (db.Activates hashSecret secret peerId now) :=
  match h : (db.redeemInvite hashSecret secret peerId now).1 with
  | Except.ok (Redemption.activated guest) => isTrue ⟨guest, h⟩
  | Except.ok (Redemption.refused why) => isFalse (by simp [Activates, h])
  | Except.error e => isFalse (by simp [Activates, h])

/-- What `op` means for `peerId`. -/
def accessEvent (db : StateDb) (peerId : String) : StorageOp -> AccessEvent
  | StorageOp.redeemInvite secret q now =>
      if q = peerId ∧ db.Activates hashSecret secret q now then AccessEvent.activated
      else AccessEvent.none
  | StorageOp.removeGuest number =>
      if db.NumberOf number peerId then AccessEvent.removed else AccessEvent.none
  | StorageOp.revokeGuest number _ =>
      if db.NumberOf number peerId then AccessEvent.revoked else AccessEvent.none
  | _ => AccessEvent.none

variable {hashSecret}

/-!
## The database refines the life cycle
-/

theorem access_of_activates {db : StateDb} {secret : InviteSecret} {peerId : String}
    {now : DateTime} (h : db.Activates hashSecret secret peerId now) :
    db.access peerId ≠ Access.revoked := by
  intro hrevoked
  rcases h with ⟨guest, hguest⟩
  unfold access at hrevoked
  cases hrow : db.guestRow peerId with
  | none => simp [hrow] at hrevoked
  | some r =>
      have hmark : r.2.revokedAt ≠ none := by
        intro hnone
        simp [hrow, hnone] at hrevoked
      exact redeemInvite_of_revoked hrow hmark secret now guest hguest

theorem accessEvent_removed {db : StateDb} {peerId : String} {op : StorageOp}
    (h : db.accessEvent hashSecret peerId op = AccessEvent.removed) :
    exists number row, op = StorageOp.removeGuest number ∧
      db.guests.lookup number = some row ∧ row.peerId = peerId := by
  cases op with
  | removeGuest number =>
      simp only [accessEvent] at h
      split at h
      · rename_i hnumber
        rcases hnumber with ⟨row, hrow, hpeer⟩
        exact ⟨number, row, rfl, hrow, hpeer⟩
      · cases h
  | createInvite new now => cases h
  | touchGuest q now => cases h
  | redeemInvite secret q now =>
      simp only [accessEvent] at h
      split at h <;> cases h
  | revokeGuest number now =>
      simp only [accessEvent] at h
      split at h <;> cases h

theorem accessEvent_activated {db : StateDb} {peerId : String} {op : StorageOp}
    (h : db.accessEvent hashSecret peerId op = AccessEvent.activated) :
    exists secret now, op = StorageOp.redeemInvite secret peerId now ∧
      db.Activates hashSecret secret peerId now := by
  cases op with
  | redeemInvite secret q now =>
      simp only [accessEvent] at h
      split at h
      · rename_i hactivates
        rcases hactivates with ⟨rfl, hactivates⟩
        exact ⟨secret, now, rfl, hactivates⟩
      · cases h
  | createInvite new now => cases h
  | touchGuest q now => cases h
  | removeGuest number =>
      simp only [accessEvent] at h
      split at h <;> cases h
  | revokeGuest number now =>
      simp only [accessEvent] at h
      split at h <;> cases h

/-- A redemption of an unknown peer answers `Activated` by creating its row. -/
theorem creates_of_activates {db : StateDb} {secret : InviteSecret} {peerId : String}
    {now : DateTime} (hunknown : db.guestRow peerId = none)
    (h : db.Activates hashSecret secret peerId now) :
    exists inviteId invite, CreatesGuest hashSecret db secret peerId now inviteId invite := by
  rcases h with ⟨guest, hguest⟩
  rcases redeemInvite_cases hashSecret db secret peerId now with
    hcreates | ⟨bound, hbound, _⟩ | ⟨why, heq⟩ | heq
  · exact hcreates
  · rcases boundGuest_some hbound with ⟨r, _, hrow, _⟩
    rw [hunknown] at hrow
    cases hrow
  · rw [heq] at hguest
    cases hguest
  · rw [heq] at hguest
    cases hguest

theorem activates_of_creates {db : StateDb} {secret : InviteSecret} {peerId : String}
    {now : DateTime} {inviteId : Int} {invite : InvitesRow}
    (h : CreatesGuest hashSecret db secret peerId now inviteId invite) :
    db.Activates hashSecret secret peerId now :=
  ⟨_, by rw [h.redeemInvite_eq]⟩

theorem access_apply_of_unknown {db : StateDb} {peerId : String} {op : StorageOp}
    (hnext : (db.apply hashSecret op).PeersDistinct)
    (hunknown : db.guestRow peerId = none) :
    (db.apply hashSecret op).access peerId =
      Access.unknown.after (db.accessEvent hashSecret peerId op) := by
  have hfree := guestRow_eq_none_iff.mp hunknown
  by_cases hevent : db.accessEvent hashSecret peerId op = AccessEvent.activated
  · rcases accessEvent_activated hevent with ⟨secret, now, rfl, hactivates⟩
    rcases creates_of_activates hunknown hactivates with ⟨inviteId, invite, hcreates⟩
    have hnew : (db.apply hashSecret (StorageOp.redeemInvite secret peerId now)).guests.lookup
        db.guests.nextRowid = some (newGuestsRow peerId inviteId invite (toSecs now)) := by
      rw [apply, hcreates.redeemInvite_eq]
      exact bindGuest_lookup_eq_some_iff.mpr (Or.inr ⟨rfl, rfl⟩)
    rw [hevent]
    exact access_of_row hnext hnew
  · rw [after_unknown hevent]
    apply access_unknown_of_no_number
    intro n h
    rcases h with ⟨later, hlater, hpeer⟩
    rcases apply_guest_inv hlater with
      ⟨old, hold, hbecomes⟩ | ⟨secret, q, now, inviteId, invite, rfl, hcreates, _, rfl⟩
    · exact hfree n old hold (hbecomes.peerId.symm.trans hpeer)
    · apply hevent
      have hq : q = peerId := hpeer
      simp [accessEvent, hq]
      rw [← hq]
      exact activates_of_creates hcreates

theorem access_apply_of_row {db : StateDb} (hdb : db.PeersDistinct) {op : StorageOp}
    (hnext : (db.apply hashSecret op).PeersDistinct) {n : Int} {row : GuestsRow}
    (hrow : db.guests.lookup n = some row) :
    (db.apply hashSecret op).access row.peerId =
      (db.access row.peerId).after (db.accessEvent hashSecret row.peerId op) := by
  have hnumber : forall m, db.NumberOf m row.peerId <-> m = n := by
    intro m
    constructor
    · intro h
      rcases h with ⟨other, hother, hpeer⟩
      exact hdb m n other row hother hrow hpeer
    · intro hm
      exact ⟨row, by rw [hm, hrow], rfl⟩
  rcases apply_guest hashSecret hrow op with rfl | ⟨later, hlater, hbecomes⟩
  · have hremoved : (db.apply hashSecret (StorageOp.removeGuest n)).access row.peerId =
        Access.unknown := by
      apply access_unknown_of_no_number
      intro m h
      rcases h with ⟨other, hother, hpeer⟩
      rcases removeGuest_lookup_eq_some_iff.mp hother with ⟨hold, hm⟩
      exact hm ((hnumber m).mp ⟨other, hold, hpeer⟩)
    rw [hremoved]
    simp only [accessEvent, hnumber, if_true]
    cases db.access row.peerId <;> rfl
  · have haccess := access_of_row hnext hlater
    rw [hbecomes.peerId] at haccess
    rw [haccess, access_of_row hdb hrow]
    rcases apply_mark hrow hlater with ⟨now, rfl, hmarked⟩ | ⟨hop, hmark⟩
    · rw [if_pos (Option.isSome_iff_ne_none.mpr hmarked)]
      simp only [accessEvent, hnumber, if_true]
      split <;> rfl
    · rw [hmark]
      cases op with
      | createInvite new now => split <;> rfl
      | touchGuest q now => split <;> rfl
      | redeemInvite secret q now =>
          simp only [accessEvent]
          split <;> split <;> rfl
      | removeGuest number =>
          have hne : number ≠ n := by
            intro heq
            subst heq
            exact (removeGuest_lookup_eq_some_iff.mp hlater).right rfl
          simp only [accessEvent, hnumber, hne, if_false]
          split <;> rfl
      | revokeGuest number now =>
          have hne : number ≠ n := by
            intro heq
            subst heq
            exact hop now rfl
          simp only [accessEvent, hnumber, hne, if_false]
          split <;> rfl

/-- Every operation moves every peer along its life cycle. -/
theorem access_apply {db : StateDb} (hdb : db.PeersDistinct) (peerId : String)
    (op : StorageOp) :
    (db.apply hashSecret op).access peerId =
      (db.access peerId).after (db.accessEvent hashSecret peerId op) := by
  have hnext : (db.apply hashSecret op).PeersDistinct := peersDistinct_apply hdb op
  cases hrow : db.guestRow peerId with
  | none =>
      rw [access_eq_unknown_iff.mpr hrow]
      exact access_apply_of_unknown hnext hrow
  | some r =>
      rcases guestRow_some hrow with ⟨hlookup, rfl⟩
      exact access_apply_of_row hdb hnext hlookup

end

end StateDb

end Host
end WispersAccess
