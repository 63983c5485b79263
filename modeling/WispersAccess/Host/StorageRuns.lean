import Mathlib.Data.List.Induction
import WispersAccess.Host.StorageLemmas

/-!
# Runs of the state database

What holds of the guest and invite tables after any sequence of operations on a
fresh database: the invariant that ties the two tables together, the history of
the rows that were created, and what a guest number stands for over time.
-/

namespace WispersAccess
namespace Host

open Foundation
open Wire (InviteSecret)

/-- Every guest row comes from an invite that is there and consumed. -/
def StateDb.RowsBacked (db : StateDb) : Prop :=
  forall n row, db.guests.lookup n = some row ->
    exists invite, db.invites.lookup row.inviteId = some invite ∧
      invite.consumedAt ≠ none ∧ row.userId = invite.userId ∧ row.displayName = invite.nodeName

structure StateDb.Consistent (db : StateDb) : Prop where
  peers : db.PeersDistinct
  backed : db.RowsBacked

theorem consistent_fresh : StateDb.fresh.Consistent where
  peers := by
    intro i j row row' h
    cases h
  backed := by
    intro n row h
    cases h

section
variable (hashSecret : InviteSecret -> SecretHash)

/-- A row that a redemption put into `guests`. -/
structure Creation where
  number : Int
  peerId : String
  inviteId : Int
  time : DateTime
  deriving DecidableEq, Repr

/-- The row an operation adds to `guests`, if it adds one. -/
def createdRow (db : StateDb) : StorageOp -> Option Creation
  | StorageOp.redeemInvite secret peerId now =>
      ((db.redeemInvite hashSecret secret peerId now).2.guests.lookup db.guests.nextRowid).map
        fun row =>
          { number := db.guests.nextRowid
            peerId := row.peerId
            inviteId := row.inviteId
            time := now }
  | _ => none

/-- The rows created over a run on a fresh database. -/
def creations (ops : List StorageOp) : List Creation :=
  observations (storageStep hashSecret) (createdRow hashSecret) StateDb.fresh ops

variable {hashSecret}

/-!
## One operation
-/

theorem createdRow_some {db : StateDb} {op : StorageOp} {c : Creation}
    (h : createdRow hashSecret db op = some c) :
    exists secret invite, op = StorageOp.redeemInvite secret c.peerId c.time ∧
      StateDb.CreatesGuest hashSecret db secret c.peerId c.time c.inviteId invite ∧
      c.number = db.guests.nextRowid := by
  cases op with
  | redeemInvite secret peerId now =>
      rcases Option.map_eq_some_iff.mp h with ⟨row, hrow, rfl⟩
      have hcreated : (db.apply hashSecret (StorageOp.redeemInvite secret peerId now)).guests.lookup
          db.guests.nextRowid = some row := hrow
      rcases StateDb.apply_guest_inv hcreated with
        ⟨old, hold, _⟩ | ⟨secret', peerId', now', inviteId, invite, hop, hcreates, _, rfl⟩
      · rw [RowTable.lookup_nextRowid] at hold
        cases hold
      · cases hop
        exact ⟨secret, invite, rfl, hcreates, rfl⟩
  | createInvite new now => cases h
  | touchGuest peerId now => cases h
  | removeGuest number => cases h
  | revokeGuest number now => cases h

theorem createdRow_of_creates {db : StateDb} {secret : InviteSecret} {peerId : String}
    {now : DateTime} {inviteId : Int} {invite : InvitesRow}
    (h : StateDb.CreatesGuest hashSecret db secret peerId now inviteId invite) :
    createdRow hashSecret db (StorageOp.redeemInvite secret peerId now) =
      some ⟨db.guests.nextRowid, peerId, inviteId, now⟩ := by
  simp [createdRow, h.redeemInvite_eq, StateDb.bindGuest, StateDb.newGuestsRow]

/-- Creating a guest consumes the invite. -/
theorem createdRow_consumes {db : StateDb} {op : StorageOp} {c : Creation}
    (h : createdRow hashSecret db op = some c) :
    exists invite, (db.apply hashSecret op).invites.lookup c.inviteId = some invite ∧
      invite.consumedAt ≠ none := by
  rcases createdRow_some h with ⟨secret, invite, rfl, hcreates, _⟩
  rcases StateDb.bindGuest_invite hcreates.lookup_invite.left c.peerId c.inviteId invite
    (toSecs c.time) with
    ⟨later, hlater, _, hconsumed⟩
  refine ⟨later, ?_, hconsumed rfl⟩
  rw [StateDb.apply, hcreates.redeemInvite_eq, hlater]

theorem peersDistinct_apply {db : StateDb} (h : db.PeersDistinct) (op : StorageOp) :
    (db.apply hashSecret op).PeersDistinct := by
  intro i j row row' hi hj hpeer
  rcases StateDb.apply_guest_inv hi with
    ⟨old, hold, hbecomes⟩ | ⟨secret, peerId, now, inviteId, invite, rfl, hcreates, hn, hnew⟩
  · rcases StateDb.apply_guest_inv hj with
      ⟨old', hold', hbecomes'⟩ | ⟨secret, peerId, now, inviteId, invite, rfl, hcreates, hn, hnew⟩
    · apply h i j old old' hold hold'
      rw [← hbecomes.peerId, ← hbecomes'.peerId, hpeer]
    · have hfree := StateDb.guestRow_eq_none_iff.mp hcreates.no_guest i old hold
      rw [← hbecomes.peerId, hpeer, hnew] at hfree
      exact absurd rfl hfree
  · rcases StateDb.apply_guest_inv hj with
      ⟨old', hold', hbecomes'⟩ | ⟨_, _, _, _, _, _, _, hn', _⟩
    · have hfree := StateDb.guestRow_eq_none_iff.mp hcreates.no_guest j old' hold'
      rw [← hbecomes'.peerId, ← hpeer, hnew] at hfree
      exact absurd rfl hfree
    · exact hn.trans hn'.symm

theorem rowsBacked_apply {db : StateDb} (h : db.RowsBacked) (op : StorageOp) :
    (db.apply hashSecret op).RowsBacked := by
  intro n row hrow
  rcases StateDb.apply_guest_inv hrow with
    ⟨old, hold, hbecomes⟩ | ⟨secret, peerId, now, inviteId, invite, rfl, hcreates, hn, rfl⟩
  · rcases h n old hold with ⟨invite, hinvite, hconsumed, huser, hname⟩
    rcases StateDb.apply_invite hashSecret hinvite op with ⟨later, hlater, hbec⟩
    refine ⟨later, ?_, hbec.consumedAt hconsumed, ?_, ?_⟩
    · rw [hbecomes.inviteId, hlater]
    · rw [hbecomes.userId, huser, hbec.userId]
    · rw [hbecomes.displayName, hname, hbec.nodeName]
  · rcases StateDb.bindGuest_invite hcreates.lookup_invite.left peerId inviteId invite
      (toSecs now) with
      ⟨later, hlater, hbec, hconsumed⟩
    refine ⟨later, ?_, hconsumed rfl, hbec.userId.symm, hbec.nodeName.symm⟩
    rw [StateDb.apply, hcreates.redeemInvite_eq]
    exact hlater

theorem StateDb.Consistent.apply {db : StateDb} (h : db.Consistent) (op : StorageOp) :
    (db.apply hashSecret op).Consistent where
  peers := peersDistinct_apply h.peers op
  backed := rowsBacked_apply h.backed op

/-!
## Whole runs
-/

theorem storageStep_some {db next : StateDb} {op : StorageOp}
    (h : storageStep hashSecret db op = some next) : next = db.apply hashSecret op :=
  (Option.some.inj h).symm

theorem consistent_run {db later : StateDb} {ops : List StorageOp}
    (hrun : Run (storageStep hashSecret) db ops later) (hdb : db.Consistent) :
    later.Consistent := by
  apply hrun.invariant (I := StateDb.Consistent) _ hdb
  intro s op t hs hstep
  rw [storageStep_some hstep]
  exact hs.apply op

/-- A guest's row survives a run in which its number is not removed. -/
theorem guest_run {db later : StateDb} {ops : List StorageOp} {n : Int} {row : GuestsRow}
    (hrun : Run (storageStep hashSecret) db ops later)
    (hrow : db.guests.lookup n = some row) :
    StorageOp.removeGuest n ∈ ops ∨
      exists row', later.guests.lookup n = some row' ∧ row.Becomes row' := by
  induction hrun generalizing row with
  | nil s => exact Or.inr ⟨row, hrow, GuestsRow.Becomes.refl row⟩
  | @cons s mid t op rest hstep _ ih =>
      rcases StateDb.apply_guest hashSecret hrow op with
        rfl | ⟨row', hrow', hbecomes⟩
      · exact Or.inl (List.mem_cons_self ..)
      · rw [← storageStep_some hstep] at hrow'
        cases ih hrow' with
        | inl hremoved => exact Or.inl (List.mem_cons_of_mem _ hremoved)
        | inr hkept =>
            rcases hkept with ⟨last, hlast, hbecomes'⟩
            exact Or.inr ⟨last, hlast, hbecomes.trans hbecomes'⟩

theorem invite_run {db later : StateDb} {ops : List StorageOp} {i : Int} {row : InvitesRow}
    (hrun : Run (storageStep hashSecret) db ops later)
    (hrow : db.invites.lookup i = some row) :
    exists row', later.invites.lookup i = some row' ∧ row.Becomes row' := by
  apply hrun.invariant
    (I := fun s => exists row', s.invites.lookup i = some row' ∧ row.Becomes row')
    _ ⟨row, hrow, InvitesRow.Becomes.refl row⟩
  intro s op t h hstep
  rcases h with ⟨mid, hmid, hbecomes⟩
  rw [storageStep_some hstep]
  rcases StateDb.apply_invite hashSecret hmid op with ⟨last, hlast, hbecomes'⟩
  exact ⟨last, hlast, hbecomes.trans hbecomes'⟩

/-!
## The history of the created rows
-/

/-- An invite that leads to a row later on is not consumed yet. -/
theorem unconsumed_of_created {db later : StateDb} {ops : List StorageOp} {c : Creation}
    (hrun : Run (storageStep hashSecret) db ops later)
    (hc : c ∈ observations (storageStep hashSecret) (createdRow hashSecret) db ops)
    {invite : InvitesRow} (hinvite : db.invites.lookup c.inviteId = some invite) :
    invite.consumedAt = none := by
  rcases mem_observations hrun hc with ⟨front, op, back, mid, _, hfront, hcreated⟩
  rcases createdRow_some hcreated with ⟨secret, found, _, hcreates, _⟩
  rcases invite_run hfront hinvite with ⟨row', hrow', hbecomes⟩
  by_contra hconsumed
  rw [hcreates.lookup_invite.left] at hrow'
  cases hrow'
  exact hbecomes.consumedAt hconsumed hcreates.unconsumed

/-- Each invite leads to at most one new row over a whole run. -/
theorem creations_invites_distinct {db later : StateDb} {ops : List StorageOp}
    (hrun : Run (storageStep hashSecret) db ops later) :
    (observations (storageStep hashSecret) (createdRow hashSecret) db ops).Pairwise
      fun c d => c.inviteId ≠ d.inviteId := by
  induction hrun with
  | nil s => exact List.Pairwise.nil
  | @cons s mid t op rest hstep hrest ih =>
      simp only [observations, hstep]
      cases hcreated : createdRow hashSecret s op with
      | none => exact ih
      | some c =>
          apply List.pairwise_cons.mpr
          refine ⟨?_, ih⟩
          intro d hd hsame
          rcases createdRow_consumes hcreated with ⟨invite, hinvite, hconsumed⟩
          rw [← storageStep_some hstep, hsame] at hinvite
          exact hconsumed (unconsumed_of_created hrest hd hinvite)

theorem creation_unique {ops : List StorageOp} {db : StateDb} {c d : Creation}
    (hrun : Run (storageStep hashSecret) StateDb.fresh ops db)
    (hc : c ∈ creations hashSecret ops) (hd : d ∈ creations hashSecret ops)
    (hinvite : c.inviteId = d.inviteId) : c = d := by
  have hsymm : Std.Symm fun c d : Creation => c.inviteId ≠ d.inviteId :=
    ⟨fun _ _ h => h.symm⟩
  by_contra hne
  exact (creations_invites_distinct hrun).forall hc hd hne hinvite

/-- The stored expiry and the redemption's time are whole seconds, and still the
redemption lies before the instant the expiry was taken from. -/
theorem before_of_secs_lt {now expiry : DateTime} (h : toSecs now < toSecs expiry) :
    now.Before expiry :=
  Or.inl h

theorem creation_in_time {ops : List StorageOp} {db : StateDb} {c : Creation}
    (hrun : Run (storageStep hashSecret) StateDb.fresh ops db)
    (hc : c ∈ creations hashSecret ops) :
    exists invite, db.invites.lookup c.inviteId = some invite ∧
      forall expiry, toSecs expiry = invite.expiresAt -> c.time.Before expiry := by
  rcases mem_observations hrun hc with ⟨front, op, back, mid, rfl, hfront, hcreated⟩
  rcases createdRow_some hcreated with ⟨secret, invite, _, hcreates, _⟩
  rcases hrun.split with ⟨mid', hfront', hback⟩
  rw [← hfront.unique hfront'] at hback
  rcases invite_run hback hcreates.lookup_invite.left with ⟨later, hlater, hbecomes⟩
  refine ⟨later, hlater, ?_⟩
  intro expiry hexpiry
  apply before_of_secs_lt
  rw [hexpiry, hbecomes.expiresAt]
  exact hcreates.in_time

/-- The history misses no row: every row of the table was created in the run. -/
theorem row_has_creation {ops : List StorageOp} {db : StateDb}
    (hrun : Run (storageStep hashSecret) StateDb.fresh ops db)
    {n : Int} {row : GuestsRow} (hrow : db.guests.lookup n = some row) :
    exists c, c ∈ creations hashSecret ops ∧ c.number = n ∧ c.peerId = row.peerId ∧
      c.inviteId = row.inviteId := by
  induction ops using List.reverseRecOn generalizing db row with
  | nil =>
      cases hrun
      cases hrow
  | append_singleton front op ih =>
      rcases hrun.split with ⟨mid, hfront, hlast⟩
      unfold creations
      rw [observations_append hfront]
      cases hlast with
      | cons hstep hnil =>
          cases hnil
          rw [storageStep_some hstep] at hrow
          rcases StateDb.apply_guest_inv hrow with
            ⟨old, hold, hbecomes⟩ |
              ⟨secret, peerId, now, inviteId, invite, rfl, hcreates, rfl, rfl⟩
          · rcases ih hfront hold with ⟨c, hc, hn, hpeer, hinvite⟩
            refine ⟨c, List.mem_append_left _ hc, hn, ?_, ?_⟩
            · rw [hpeer, hbecomes.peerId]
            · rw [hinvite, hbecomes.inviteId]
          · refine ⟨⟨mid.guests.nextRowid, peerId, inviteId, now⟩, ?_, rfl, rfl, rfl⟩
            apply List.mem_append_right
            simp [observations, storageStep, createdRow_of_creates hcreates]

/-!
## The guest and invite tables
-/

/-- After any run on a fresh database: the peers of the guests are distinct,
every guest row is backed by a consumed invite it took its user and name from,
an invite led to a row for at most one peer over the whole run, every row was
created before its invite's expiry, and a revocation stays as long as its row. -/
theorem guest_and_invite_tables {ops : List StorageOp} {db : StateDb}
    (hrun : Run (storageStep hashSecret) StateDb.fresh ops db) :
    db.PeersDistinct ∧
    db.RowsBacked ∧
    (forall c d, c ∈ creations hashSecret ops -> d ∈ creations hashSecret ops ->
      c.inviteId = d.inviteId -> c.peerId = d.peerId) ∧
    (forall c, c ∈ creations hashSecret ops ->
      exists invite, db.invites.lookup c.inviteId = some invite ∧
        forall expiry, toSecs expiry = invite.expiresAt -> c.time.Before expiry) ∧
    (forall n row, db.guests.lookup n = some row ->
      exists c, c ∈ creations hashSecret ops ∧ c.number = n ∧ c.peerId = row.peerId ∧
        c.inviteId = row.inviteId) ∧
    (forall front back mid n row t, ops = front ++ back ->
      Run (storageStep hashSecret) StateDb.fresh front mid ->
      mid.guests.lookup n = some row -> row.revokedAt = some t ->
      StorageOp.removeGuest n ∈ back ∨
        exists later, db.guests.lookup n = some later ∧ later.revokedAt = some t) := by
  have hconsistent := consistent_run hrun consistent_fresh
  refine ⟨hconsistent.peers, hconsistent.backed, ?_, ?_, ?_, ?_⟩
  · intro c d hc hd hinvite
    rw [creation_unique hrun hc hd hinvite]
  · intro c hc
    exact creation_in_time hrun hc
  · intro n row hrow
    exact row_has_creation hrun hrow
  · intro front back mid n row t hops hfront hrow hrevoked
    rw [hops] at hrun
    rcases hrun.split with ⟨mid', hfront', hback⟩
    rw [← hfront.unique hfront'] at hback
    cases guest_run hback hrow with
    | inl hremoved => exact Or.inl hremoved
    | inr hkept =>
        rcases hkept with ⟨later, hlater, hbecomes⟩
        exact Or.inr ⟨later, hlater, hbecomes.revokedAt t hrevoked⟩

end

theorem guest_and_invite_tables_after_redemption :
    ((StateDb.fresh.apply doubledSecret
        (StorageOp.createInvite ⟨repeatedSecret 1, "alice", "phone", ⟨87400, 0⟩⟩ ⟨1000, 0⟩)).apply
      doubledSecret
        (StorageOp.redeemInvite (repeatedSecret 1) "peer-a" ⟨1001, 500⟩)).RowsBacked :=
  (guest_and_invite_tables (Run.cons rfl (Run.cons rfl (Run.nil _)))).right.left

end Host
end WispersAccess
