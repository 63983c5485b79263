import WispersAccess.Host.Storage

/-!
# What the storage operations do

One specification for each operation of the state database, in terms of the
rows before and after it.  Later modules cite these and do not unfold the
operations.
-/

namespace WispersAccess
namespace Host

open Foundation
open Wire (InviteSecret ActivationError)

/-!
## Rows over time

A row keeps who it is about.  Only its last-seen time moves freely, a
revocation stays as it was set, and a consumed invite stays consumed.
-/

structure GuestsRow.Becomes (row later : GuestsRow) : Prop where
  peerId : later.peerId = row.peerId
  userId : later.userId = row.userId
  displayName : later.displayName = row.displayName
  inviteId : later.inviteId = row.inviteId
  activatedAt : later.activatedAt = row.activatedAt
  revokedAt : forall t, row.revokedAt = some t -> later.revokedAt = some t

theorem GuestsRow.Becomes.refl (row : GuestsRow) : row.Becomes row :=
  ⟨rfl, rfl, rfl, rfl, rfl, fun _ h => h⟩

theorem GuestsRow.Becomes.trans {row mid later : GuestsRow}
    (h : row.Becomes mid) (h' : mid.Becomes later) : row.Becomes later where
  peerId := h'.peerId.trans h.peerId
  userId := h'.userId.trans h.userId
  displayName := h'.displayName.trans h.displayName
  inviteId := h'.inviteId.trans h.inviteId
  activatedAt := h'.activatedAt.trans h.activatedAt
  revokedAt t ht := h'.revokedAt t (h.revokedAt t ht)

structure InvitesRow.Becomes (row later : InvitesRow) : Prop where
  secretHash : later.secretHash = row.secretHash
  userId : later.userId = row.userId
  nodeName : later.nodeName = row.nodeName
  expiresAt : later.expiresAt = row.expiresAt
  consumedAt : row.consumedAt ≠ none -> later.consumedAt ≠ none

theorem InvitesRow.Becomes.refl (row : InvitesRow) : row.Becomes row :=
  ⟨rfl, rfl, rfl, rfl, fun h => h⟩

theorem InvitesRow.Becomes.trans {row mid later : InvitesRow}
    (h : row.Becomes mid) (h' : mid.Becomes later) : row.Becomes later where
  secretHash := h'.secretHash.trans h.secretHash
  userId := h'.userId.trans h.userId
  nodeName := h'.nodeName.trans h.nodeName
  expiresAt := h'.expiresAt.trans h.expiresAt
  consumedAt hrow := h'.consumedAt (h.consumedAt hrow)

namespace StateDb

/-- No two rows of `guests` have one peer id. -/
def PeersDistinct (db : StateDb) : Prop :=
  forall i j row row', db.guests.lookup i = some row -> db.guests.lookup j = some row' ->
    row.peerId = row'.peerId -> i = j

theorem guestRow_some {db : StateDb} {peerId : String} {r : Int × GuestsRow}
    (h : db.guestRow peerId = some r) :
    db.guests.lookup r.1 = some r.2 ∧ r.2.peerId = peerId := by
  rcases RowTable.findRow_some h with ⟨hlookup, hpeer⟩
  exact ⟨hlookup, by simpa using hpeer⟩

theorem guestRow_eq_none_iff {db : StateDb} {peerId : String} :
    db.guestRow peerId = none <->
      forall n row, db.guests.lookup n = some row -> row.peerId ≠ peerId := by
  unfold guestRow
  rw [RowTable.findRow_eq_none_iff]
  simp

theorem PeersDistinct.guestRow_eq {db : StateDb} (hdb : db.PeersDistinct)
    {n : Int} {row : GuestsRow} (hrow : db.guests.lookup n = some row) :
    db.guestRow row.peerId = some (n, row) := by
  apply RowTable.findRow_eq_some_of_unique hrow
  · simp
  · intro j other hother hpeer
    exact hdb j n other row hother hrow (by simpa using hpeer)

theorem boundGuest_some {db : StateDb} {peerId : String} {guest : GuestNode}
    {hash : SecretHash} (h : db.boundGuest peerId = some (guest, hash)) :
    exists r invite, db.guestRow peerId = some r ∧ guest = guestFromRow r.1 r.2 ∧
      db.invites.lookup r.2.inviteId = some invite ∧ invite.secretHash = hash := by
  unfold boundGuest at h
  cases hrow : db.guestRow peerId with
  | none =>
      rw [hrow] at h
      cases h
  | some r =>
      rw [hrow] at h
      rcases Option.map_eq_some_iff.mp h with ⟨invite, hinvite, hpair⟩
      cases hpair
      exact ⟨r, invite, rfl, rfl, hinvite, rfl⟩

/-!
## Revocation, removal and last-seen times
-/

theorem markRevoked_lookup (db : StateDb) (number : Int) (now : DateTime) (n : Int) :
    (db.markRevoked number now).guests.lookup n =
      (db.guests.lookup n).map fun row =>
        if n = number ∧ row.revokedAt = none then
          { row with revokedAt := some (toSecs now) }
        else row := by
  simp [markRevoked]

theorem markRevoked_becomes {db : StateDb} {n : Int} {row : GuestsRow}
    (h : db.guests.lookup n = some row) (number : Int) (now : DateTime) :
    exists later, (db.markRevoked number now).guests.lookup n = some later ∧
      row.Becomes later ∧ (n = number -> later.revokedAt ≠ none) ∧
      (n ≠ number -> later = row) := by
  simp only [markRevoked_lookup, h, Option.map_some, Option.some.injEq, exists_eq_left']
  by_cases hmark : n = number ∧ row.revokedAt = none
  · rw [if_pos hmark]
    refine ⟨⟨rfl, rfl, rfl, rfl, rfl, ?_⟩, by simp, fun hne => absurd hmark.left hne⟩
    intro t ht
    rw [hmark.right] at ht
    cases ht
  · rw [if_neg hmark]
    exact ⟨GuestsRow.Becomes.refl row, fun hn hnone => hmark ⟨hn, hnone⟩, fun _ => rfl⟩

@[simp] theorem revokeGuest_snd (db : StateDb) (number : Int) (now : DateTime) :
    (db.revokeGuest number now).2 = db.markRevoked number now := by
  simp only [revokeGuest]
  split <;> rfl

/-- `revoke_guest` answers with the row of that number, marked. -/
theorem revokeGuest_ok {db : StateDb} {number : Int} {now : DateTime} {guest : GuestNode}
    (h : (db.revokeGuest number now).1 = Except.ok guest) :
    exists row later, db.guests.lookup number = some row ∧
      (db.markRevoked number now).guests.lookup number = some later ∧
      guest = guestFromRow number later ∧ row.Becomes later ∧ later.revokedAt ≠ none := by
  cases hrow : db.guests.lookup number with
  | none =>
      have hmarked : (db.markRevoked number now).guests.lookup number = none := by
        rw [markRevoked_lookup, hrow]
        rfl
      simp [revokeGuest, hmarked] at h
  | some row =>
      rcases markRevoked_becomes hrow number now with
        ⟨later, hlater, hbecomes, hrevoked, _⟩
      simp only [revokeGuest, hlater, Except.ok.injEq] at h
      exact ⟨row, later, rfl, hlater, h.symm, hbecomes, hrevoked rfl⟩

theorem revokeGuest_error {db : StateDb} {number : Int} {now : DateTime} {e : StorageError}
    (h : (db.revokeGuest number now).1 = Except.error e) :
    e = StorageError.noSuchGuest number ∧ db.guests.lookup number = none := by
  cases hrow : db.guests.lookup number with
  | none =>
      have hmarked : (db.markRevoked number now).guests.lookup number = none := by
        rw [markRevoked_lookup, hrow]
        rfl
      simp only [revokeGuest, hmarked, Except.error.injEq] at h
      exact ⟨h.symm, rfl⟩
  | some row =>
      rcases markRevoked_becomes hrow number now with ⟨later, hlater, _⟩
      simp [revokeGuest, hlater] at h

theorem removeGuest_lookup_eq_some_iff {db : StateDb} {number n : Int} {row : GuestsRow} :
    (db.removeGuest number).2.guests.lookup n = some row <->
      db.guests.lookup n = some row ∧ n ≠ number := by
  unfold removeGuest
  cases hrow : db.guests.lookup number with
  | none =>
      constructor
      · intro h
        refine ⟨h, ?_⟩
        intro hn
        rw [hn] at h
        exact absurd (hrow.symm.trans h) (by simp)
      · exact And.left
  | some found => exact RowTable.lookup_deleteRow_eq_some_iff

@[simp] theorem removeGuest_invites (db : StateDb) (number : Int) :
    (db.removeGuest number).2.invites = db.invites := by
  unfold removeGuest
  cases db.guests.lookup number <;> rfl

theorem touchGuest_becomes {db : StateDb} {n : Int} {row : GuestsRow}
    (h : db.guests.lookup n = some row) (peerId : String) (now : DateTime) :
    exists later, (db.touchGuest peerId now).guests.lookup n = some later ∧
      row.Becomes later ∧ later.revokedAt = row.revokedAt ∧
      (row.peerId ≠ peerId -> later = row) := by
  simp only [touchGuest, RowTable.lookup_mapRows, h, Option.map_some, Option.some.injEq,
    exists_eq_left']
  by_cases hpeer : row.peerId = peerId
  · rw [if_pos hpeer]
    exact ⟨⟨rfl, rfl, rfl, rfl, rfl, fun _ h => h⟩, rfl, fun hne => absurd hpeer hne⟩
  · rw [if_neg hpeer]
    exact ⟨GuestsRow.Becomes.refl row, rfl, fun _ => rfl⟩

/-!
## Redemption
-/

section
variable (hashSecret : InviteSecret -> SecretHash)

/-- The redemption that binds `peerId` to `invite`: the peer is not a guest, and
the invite with this secret is neither consumed nor expired. -/
structure CreatesGuest (db : StateDb) (secret : InviteSecret) (peerId : String)
    (now : DateTime) (inviteId : Int) (invite : InvitesRow) : Prop where
  no_guest : db.guestRow peerId = none
  found : db.invites.findRow (fun row => row.secretHash = hashSecret secret) =
    some (inviteId, invite)
  unconsumed : invite.consumedAt = none
  in_time : toSecs now < invite.expiresAt

variable {hashSecret}

theorem CreatesGuest.lookup_invite {db : StateDb} {secret : InviteSecret} {peerId : String}
    {now : DateTime} {inviteId : Int} {invite : InvitesRow}
    (h : CreatesGuest hashSecret db secret peerId now inviteId invite) :
    db.invites.lookup inviteId = some invite ∧ invite.secretHash = hashSecret secret := by
  rcases RowTable.findRow_some h.found with ⟨hlookup, hhash⟩
  exact ⟨hlookup, by simpa using hhash⟩

theorem CreatesGuest.redeemInvite_eq {db : StateDb} {secret : InviteSecret} {peerId : String}
    {now : DateTime} {inviteId : Int} {invite : InvitesRow}
    (h : CreatesGuest hashSecret db secret peerId now inviteId invite) :
    db.redeemInvite hashSecret secret peerId now =
      (Except.ok (Redemption.activated (guestFromRow db.guests.nextRowid
        (newGuestsRow peerId inviteId invite (toSecs now)))),
        db.bindGuest peerId inviteId invite (toSecs now)) := by
  have hbound : db.boundGuest peerId = none := by
    simp [boundGuest, h.no_guest]
  have hexpiry : ¬ invite.expiresAt ≤ toSecs now := Int.not_le.mpr h.in_time
  simp [redeemInvite, hbound, h.found, h.unconsumed, hexpiry, h.no_guest]

variable (hashSecret) in
/-- Everything a redemption can do. -/
theorem redeemInvite_cases (db : StateDb) (secret : InviteSecret) (peerId : String)
    (now : DateTime) :
    (exists inviteId invite, CreatesGuest hashSecret db secret peerId now inviteId invite) ∨
    (exists guest, db.boundGuest peerId = some (guest, hashSecret secret) ∧
      guest.revokedAt = none ∧
      db.redeemInvite hashSecret secret peerId now =
        (Except.ok (Redemption.activated guest), db)) ∨
    (exists why, db.redeemInvite hashSecret secret peerId now =
      (Except.ok (Redemption.refused why), db)) ∨
    db.redeemInvite hashSecret secret peerId now = (Except.error StorageError.db, db) := by
  unfold redeemInvite
  cases hbound : db.boundGuest peerId with
  | some pair =>
      rcases pair with ⟨guest, boundHash⟩
      by_cases hrevoked : guest.revokedAt.isSome = true
      · exact Or.inr (Or.inr (Or.inl ⟨ActivationError.revoked, by simp [hrevoked]⟩))
      · by_cases hhash : boundHash = hashSecret secret
        · refine Or.inr (Or.inl ⟨guest, by rw [hhash], by simpa using hrevoked, ?_⟩)
          simp [hrevoked, hhash]
        · exact Or.inr (Or.inr (Or.inl ⟨ActivationError.alreadyGuest, by simp [hrevoked, hhash]⟩))
  | none =>
      cases hfound : db.invites.findRow fun row => row.secretHash = hashSecret secret with
      | none => exact Or.inr (Or.inr (Or.inl ⟨ActivationError.inviteUnknown, rfl⟩))
      | some found =>
          rcases found with ⟨inviteId, invite⟩
          by_cases hconsumed : invite.consumedAt.isSome = true
          · exact Or.inr (Or.inr (Or.inl ⟨ActivationError.inviteConsumed, by simp [hconsumed]⟩))
          by_cases hexpired : invite.expiresAt ≤ toSecs now
          · exact Or.inr (Or.inr (Or.inl
              ⟨ActivationError.inviteExpired, by simp [hconsumed, hexpired]⟩))
          by_cases hguest : (db.guestRow peerId).isSome = true
          · exact Or.inr (Or.inr (Or.inr (by simp [hconsumed, hexpired, hguest])))
          · refine Or.inl ⟨inviteId, invite, ?_⟩
            exact
              { no_guest := by simpa using hguest
                found := hfound
                unconsumed := by simpa using hconsumed
                in_time := Int.not_le.mp hexpired }

variable (hashSecret) in
/-- Either a redemption creates the guest, or the database stays as it is. -/
theorem redeemInvite_snd (db : StateDb) (secret : InviteSecret) (peerId : String)
    (now : DateTime) :
    (exists inviteId invite, CreatesGuest hashSecret db secret peerId now inviteId invite ∧
      (db.redeemInvite hashSecret secret peerId now).2 =
        db.bindGuest peerId inviteId invite (toSecs now)) ∨
    (db.redeemInvite hashSecret secret peerId now).2 = db := by
  rcases redeemInvite_cases hashSecret db secret peerId now with
    ⟨inviteId, invite, hcreates⟩ | ⟨guest, _, _, heq⟩ | ⟨why, heq⟩ | heq
  · exact Or.inl ⟨inviteId, invite, hcreates, by rw [hcreates.redeemInvite_eq]⟩
  · exact Or.inr (by rw [heq])
  · exact Or.inr (by rw [heq])
  · exact Or.inr (by rw [heq])

/-- A peer with a revoked row is not activated, whatever secret it presents. -/
theorem redeemInvite_of_revoked {db : StateDb} {peerId : String} {r : Int × GuestsRow}
    (hrow : db.guestRow peerId = some r) (hrevoked : r.2.revokedAt ≠ none)
    (secret : InviteSecret) (now : DateTime) (guest : GuestNode) :
    (db.redeemInvite hashSecret secret peerId now).1 ≠
      Except.ok (Redemption.activated guest) := by
  intro hactivated
  rcases redeemInvite_cases hashSecret db secret peerId now with
    ⟨inviteId, invite, hcreates⟩ | ⟨bound, hbound, hlive, _⟩ | ⟨why, heq⟩ | heq
  · rw [hcreates.no_guest] at hrow
    cases hrow
  · rcases boundGuest_some hbound with ⟨r', _, hrow', hguest, _⟩
    rw [hrow] at hrow'
    cases hrow'
    rw [hguest, guestFromRow_revokedAt, Option.map_eq_none_iff] at hlive
    exact hrevoked hlive
  · rw [heq] at hactivated
    cases hactivated
  · rw [heq] at hactivated
    cases hactivated

theorem bindGuest_lookup_eq_some_iff {db : StateDb} {peerId : String} {inviteId : Int}
    {invite : InvitesRow} {nowSecs : Int} {n : Int} {row : GuestsRow} :
    (db.bindGuest peerId inviteId invite nowSecs).guests.lookup n = some row <->
      db.guests.lookup n = some row ∨
        (n = db.guests.nextRowid ∧ row = newGuestsRow peerId inviteId invite nowSecs) :=
  RowTable.lookup_insert_eq_some_iff

theorem bindGuest_invite {db : StateDb} {i : Int} {row : InvitesRow}
    (h : db.invites.lookup i = some row) (peerId : String) (inviteId : Int)
    (invite : InvitesRow) (nowSecs : Int) :
    exists later, (db.bindGuest peerId inviteId invite nowSecs).invites.lookup i = some later ∧
      row.Becomes later ∧ (i = inviteId -> later.consumedAt ≠ none) := by
  simp only [bindGuest, RowTable.lookup_mapRows, h, Option.map_some, Option.some.injEq,
    exists_eq_left']
  by_cases hi : i = inviteId
  · rw [if_pos hi]
    exact ⟨⟨rfl, rfl, rfl, rfl, fun _ => by simp⟩, fun _ => by simp⟩
  · rw [if_neg hi]
    exact ⟨InvitesRow.Becomes.refl row, fun h => absurd h hi⟩

/-!
## All operations together
-/

theorem createInvite_guests (db : StateDb) (invite : NewInvite) (now : DateTime) :
    (db.createInvite hashSecret invite now).2.guests = db.guests := by
  unfold createInvite
  cases db.invites.findRow fun row => row.secretHash = hashSecret invite.secret <;> rfl

theorem createInvite_invite {db : StateDb} (new : NewInvite) (now : DateTime)
    {i : Int} {row : InvitesRow} (h : db.invites.lookup i = some row) :
    (db.createInvite hashSecret new now).2.invites.lookup i = some row := by
  unfold createInvite
  cases db.invites.findRow fun row => row.secretHash = hashSecret new.secret with
  | none => exact RowTable.lookup_insert_of_some h
  | some found => exact h

variable (hashSecret) in
/-- A guest's row survives every operation but the removal of its number. -/
theorem apply_guest {db : StateDb} {n : Int} {row : GuestsRow}
    (h : db.guests.lookup n = some row) (op : StorageOp) :
    op = StorageOp.removeGuest n ∨
      exists later, (db.apply hashSecret op).guests.lookup n = some later ∧ row.Becomes later := by
  cases op with
  | createInvite new now =>
      refine Or.inr ⟨row, ?_, GuestsRow.Becomes.refl row⟩
      rw [StateDb.apply, createInvite_guests, h]
  | redeemInvite secret peerId now =>
      refine Or.inr ⟨row, ?_, GuestsRow.Becomes.refl row⟩
      rcases redeemInvite_snd hashSecret db secret peerId now with
        ⟨inviteId, invite, _, heq⟩ | heq
      · rw [StateDb.apply, heq]
        exact bindGuest_lookup_eq_some_iff.mpr (Or.inl h)
      · rw [StateDb.apply, heq]
        exact h
  | touchGuest peerId now =>
      rcases touchGuest_becomes h peerId now with
        ⟨later, hlater, hbecomes, _⟩
      exact Or.inr ⟨later, hlater, hbecomes⟩
  | removeGuest number =>
      by_cases hn : n = number
      · exact Or.inl (by rw [hn])
      · exact Or.inr ⟨row, removeGuest_lookup_eq_some_iff.mpr ⟨h, hn⟩,
          GuestsRow.Becomes.refl row⟩
  | revokeGuest number now =>
      rcases markRevoked_becomes h number now with
        ⟨later, hlater, hbecomes, _⟩
      exact Or.inr ⟨later, by rw [StateDb.apply, revokeGuest_snd, hlater], hbecomes⟩

/-- Only the revocation of its number moves a row's mark. -/
theorem apply_mark {db : StateDb} {op : StorageOp} {n : Int} {row later : GuestsRow}
    (hrow : db.guests.lookup n = some row)
    (hlater : (db.apply hashSecret op).guests.lookup n = some later) :
    (exists now, op = StorageOp.revokeGuest n now ∧ later.revokedAt ≠ none) ∨
      ((forall now, op ≠ StorageOp.revokeGuest n now) ∧ later.revokedAt = row.revokedAt) := by
  cases op with
  | createInvite new now =>
      rw [StateDb.apply, createInvite_guests, hrow] at hlater
      cases hlater
      exact Or.inr ⟨fun _ => by simp, rfl⟩
  | redeemInvite secret peerId now =>
      refine Or.inr ⟨fun _ => by simp, ?_⟩
      rw [StateDb.apply] at hlater
      rcases redeemInvite_snd hashSecret db secret peerId now with
        ⟨inviteId, invite, _, heq⟩ | heq
      · rw [heq, show (db.bindGuest peerId inviteId invite (toSecs now)).guests.lookup n =
          some row from bindGuest_lookup_eq_some_iff.mpr (Or.inl hrow)] at hlater
        cases hlater
        rfl
      · rw [heq, hrow] at hlater
        cases hlater
        rfl
  | touchGuest peerId now =>
      rcases touchGuest_becomes hrow peerId now with ⟨later', hlater', _, hmark, _⟩
      rw [StateDb.apply, hlater'] at hlater
      cases hlater
      exact Or.inr ⟨fun _ => by simp, hmark⟩
  | removeGuest number =>
      rw [StateDb.apply, removeGuest_lookup_eq_some_iff, hrow] at hlater
      cases hlater.left
      exact Or.inr ⟨fun _ => by simp, rfl⟩
  | revokeGuest number now =>
      rcases markRevoked_becomes hrow number now with ⟨later', hlater', _, hmarked, hother⟩
      rw [StateDb.apply, revokeGuest_snd, hlater'] at hlater
      cases hlater
      by_cases hn : n = number
      · rw [← hn]
        exact Or.inl ⟨now, rfl, hmarked hn⟩
      · refine Or.inr ⟨?_, by rw [hother hn]⟩
        intro t h
        cases h
        exact hn rfl

/-- A guest's row after an operation is an earlier row, or was just created. -/
theorem apply_guest_inv {db : StateDb} {op : StorageOp} {n : Int} {later : GuestsRow}
    (h : (db.apply hashSecret op).guests.lookup n = some later) :
    (exists row, db.guests.lookup n = some row ∧ row.Becomes later) ∨
      exists secret peerId now inviteId invite,
        op = StorageOp.redeemInvite secret peerId now ∧
        CreatesGuest hashSecret db secret peerId now inviteId invite ∧
        n = db.guests.nextRowid ∧
        later = newGuestsRow peerId inviteId invite (toSecs now) := by
  cases hrow : db.guests.lookup n with
  | some row =>
      refine Or.inl ⟨row, rfl, ?_⟩
      rcases apply_guest hashSecret hrow op with hop | ⟨later', hlater', hbecomes⟩
      · rw [hop] at h
        exact absurd rfl (removeGuest_lookup_eq_some_iff.mp h).right
      · rw [hlater'] at h
        cases h
        exact hbecomes
  | none =>
      cases op with
      | createInvite new now =>
          rw [StateDb.apply, createInvite_guests, hrow] at h
          cases h
      | redeemInvite secret peerId now =>
          rw [StateDb.apply] at h
          rcases redeemInvite_snd hashSecret db secret peerId now with
            ⟨inviteId, invite, hcreates, heq⟩ | heq
          · rw [heq] at h
            cases bindGuest_lookup_eq_some_iff.mp h with
            | inl hold =>
                rw [hrow] at hold
                cases hold
            | inr hnew =>
                exact Or.inr ⟨secret, peerId, now, inviteId, invite, rfl, hcreates, hnew⟩
          · rw [heq, hrow] at h
            cases h
      | touchGuest peerId now => simp [StateDb.apply, touchGuest, hrow] at h
      | removeGuest number =>
          have := (removeGuest_lookup_eq_some_iff.mp h).left
          rw [hrow] at this
          cases this
      | revokeGuest number now =>
          rw [StateDb.apply, revokeGuest_snd, markRevoked_lookup, hrow] at h
          cases h

variable (hashSecret) in
/-- Invites are never removed, and keep what they say. -/
theorem apply_invite {db : StateDb} {i : Int} {row : InvitesRow}
    (h : db.invites.lookup i = some row) (op : StorageOp) :
    exists later, (db.apply hashSecret op).invites.lookup i = some later ∧ row.Becomes later := by
  cases op with
  | createInvite new now =>
      exact ⟨row, createInvite_invite new now h, InvitesRow.Becomes.refl row⟩
  | redeemInvite secret peerId now =>
      rw [StateDb.apply]
      rcases redeemInvite_snd hashSecret db secret peerId now with
        ⟨inviteId, invite, _, heq⟩ | heq
      · rw [heq]
        rcases bindGuest_invite h peerId inviteId invite (toSecs now) with
          ⟨later, hlater, hbecomes, _⟩
        exact ⟨later, hlater, hbecomes⟩
      · rw [heq]
        exact ⟨row, h, InvitesRow.Becomes.refl row⟩
  | touchGuest peerId now => exact ⟨row, h, InvitesRow.Becomes.refl row⟩
  | removeGuest number =>
      exact ⟨row, by rw [StateDb.apply, removeGuest_invites, h], InvitesRow.Becomes.refl row⟩
  | revokeGuest number now =>
      exact ⟨row, by rw [StateDb.apply, revokeGuest_snd]; exact h, InvitesRow.Becomes.refl row⟩

/-!
## One invite
-/

variable (hashSecret) in
/-- The invite a secret stands for. -/
def inviteFor (db : StateDb) (secret : InviteSecret) : Option (Int × InvitesRow) :=
  db.invites.findRow fun row => row.secretHash = hashSecret secret

theorem bindGuest_inviteFor {db : StateDb} {secret : InviteSecret} {i : Int} {row : InvitesRow}
    (h : db.inviteFor hashSecret secret = some (i, row)) (peerId : String) (inviteId : Int)
    (invite : InvitesRow) (nowSecs : Int) :
    (db.bindGuest peerId inviteId invite nowSecs).inviteFor hashSecret secret =
      some (i, if i = inviteId then { row with consumedAt := some nowSecs } else row) := by
  unfold inviteFor bindGuest at *
  simp only
  rw [RowTable.findRow_mapRows, h]
  · rfl
  · intro id v
    split
    · rfl
    · rfl

/-- An operation redeems the invite, or leaves it as it is. -/
theorem apply_inviteFor {db : StateDb} {secret : InviteSecret} {i : Int} {row : InvitesRow}
    (h : db.inviteFor hashSecret secret = some (i, row)) (op : StorageOp) :
    (db.apply hashSecret op).inviteFor hashSecret secret = some (i, row) ∨
      exists secret' peerId now, op = StorageOp.redeemInvite secret' peerId now ∧
        hashSecret secret' = hashSecret secret ∧
        CreatesGuest hashSecret db secret' peerId now i row ∧
        (db.apply hashSecret op).inviteFor hashSecret secret =
          some (i, { row with consumedAt := some (toSecs now) }) := by
  cases op with
  | createInvite new now =>
      left
      rw [apply]
      unfold createInvite
      split
      · exact h
      · exact RowTable.findRow_insert_of_some h _
  | redeemInvite secret' peerId now =>
      rw [apply]
      rcases redeemInvite_snd hashSecret db secret' peerId now with
        ⟨inviteId, invite, hcreates, heq⟩ | heq
      · rw [heq, bindGuest_inviteFor h]
        by_cases hi : i = inviteId
        · right
          have hrow := RowTable.findRow_some h
          have hinvite := hcreates.lookup_invite
          rw [← hi, hrow.left] at hinvite
          cases hinvite.left
          refine ⟨secret', peerId, now, rfl, ?_, ?_, by rw [if_pos hi]⟩
          · rw [← hinvite.right]
            simpa using hrow.right
          · rw [hi]
            exact hcreates
        · left
          rw [if_neg hi]
      · rw [heq]
        exact Or.inl h
  | touchGuest peerId now => exact Or.inl h
  | removeGuest number =>
      left
      unfold inviteFor at *
      rw [apply, removeGuest_invites]
      exact h
  | revokeGuest number now =>
      left
      rw [apply, revokeGuest_snd]
      exact h

end

end StateDb

end Host
end WispersAccess
