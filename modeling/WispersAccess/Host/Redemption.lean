import WispersAccess.Foundation.Transaction
import WispersAccess.Host.StorageRuns

/-!
# Redeeming an invite

A redemption is one transaction of up to four statements, which ends without a
commit wherever it refuses.  A guest that asks again is told again what it was
told before.
-/

namespace WispersAccess
namespace Host

open Foundation
open Wire (InviteSecret ActivationError)

/-!
## The statements
-/

namespace StateDb

/-- `INSERT INTO guests`, with the number of the new row. -/
def insertGuest (row : GuestsRow) (db : StateDb) : Except StorageError (Int × StateDb) :=
  if (db.guestRow row.peerId).isSome then Except.error StorageError.db  -- `peer_id` is UNIQUE
  else Except.ok (db.guests.nextRowid, { db with guests := db.guests.insert row })

/-- `UPDATE invites SET consumed_at = ?1 WHERE id = ?2`. -/
def consumeInvite (inviteId : Int) (nowSecs : Int) (db : StateDb) : StateDb :=
  { db with
    invites := db.invites.mapRows fun id row =>
      if id = inviteId then { row with consumedAt := some nowSecs } else row }

section
variable (hashSecret : InviteSecret -> SecretHash)

/-- `redeem_invite` for a peer that is not a guest. -/
def redeemUnbound (secret : InviteSecret) (peerId : String) (now : DateTime) :
    Tx StateDb StorageError (Ending Redemption) := do
  -- Check invite validity.
  let invite <- Tx.query fun db =>
    db.invites.findRow fun row => row.secretHash = hashSecret secret
  match invite with
  | none => return Ending.dropped (Redemption.refused ActivationError.inviteUnknown)
  | some (inviteId, invite) =>
      if invite.consumedAt.isSome then
        return Ending.dropped (Redemption.refused ActivationError.inviteConsumed)
      else if invite.expiresAt ≤ toSecs now then
        return Ending.dropped (Redemption.refused ActivationError.inviteExpired)
      else
        -- Finally, redeem the invite.
        let row := newGuestsRow peerId inviteId invite (toSecs now)
        let number <- Tx.statement (insertGuest row)
        Tx.execute (consumeInvite inviteId (toSecs now))
        return Ending.committed (Redemption.activated (guestFromRow number row))

/-- `redeem_invite`, statement by statement. -/
def redeemInviteTx (secret : InviteSecret) (peerId : String) (now : DateTime) :
    Tx StateDb StorageError (Ending Redemption) := do
  let existing <- Tx.query fun db => db.boundGuest peerId
  match existing with
  | some (guest, boundHash) =>
      return Ending.dropped <|
        if guest.revokedAt.isSome then Redemption.refused ActivationError.revoked
        else if boundHash = hashSecret secret then Redemption.activated guest
        else Redemption.refused ActivationError.alreadyGuest
  | none => redeemUnbound hashSecret secret peerId now

variable {hashSecret}

/-!
## As one step
-/

section
variable {db : StateDb} {secret : InviteSecret} {peerId : String} {now : DateTime}

theorem transact_bound {guest : GuestNode} {boundHash : SecretHash}
    (hbound : db.boundGuest peerId = some (guest, boundHash)) :
    Tx.transact Tx.noFaults (redeemInviteTx hashSecret secret peerId now) db =
      db.redeemInvite hashSecret secret peerId now := by
  have hrun : redeemInviteTx hashSecret secret peerId now Tx.noFaults ⟨db, 1⟩ =
      Except.ok (Ending.dropped
        (if guest.revokedAt.isSome then Redemption.refused ActivationError.revoked
          else if boundHash = hashSecret secret then Redemption.activated guest
          else Redemption.refused ActivationError.alreadyGuest), ⟨db, 2⟩) := by
    unfold redeemInviteTx
    rw [Tx.bind_ok (Tx.query_ok _)]
    simp only [hbound, Tx.pure_run]
  rw [Tx.transact_dropped hrun]
  unfold redeemInvite
  simp only [hbound]
  split_ifs <;> rfl

theorem insertGuest_ok {row : GuestsRow} (hfree : ¬ (db.guestRow row.peerId).isSome) :
    insertGuest row db =
      Except.ok (db.guests.nextRowid, { db with guests := db.guests.insert row }) :=
  if_neg hfree

theorem insertGuest_taken {row : GuestsRow} (htaken : (db.guestRow row.peerId).isSome) :
    insertGuest row db = Except.error StorageError.db :=
  if_pos htaken

theorem redeemInviteTx_unbound (hbound : db.boundGuest peerId = none) :
    redeemInviteTx hashSecret secret peerId now Tx.noFaults ⟨db, 1⟩ =
      redeemUnbound hashSecret secret peerId now Tx.noFaults ⟨db, 2⟩ := by
  unfold redeemInviteTx
  rw [Tx.bind_ok (Tx.query_ok _)]
  simp only [hbound]

theorem transact_unbound (hbound : db.boundGuest peerId = none) :
    Tx.transact Tx.noFaults (redeemInviteTx hashSecret secret peerId now) db =
      db.redeemInvite hashSecret secret peerId now := by
  have hrest : redeemInviteTx hashSecret secret peerId now Tx.noFaults ⟨db, 1⟩ =
      redeemUnbound hashSecret secret peerId now Tx.noFaults ⟨db, 2⟩ :=
    redeemInviteTx_unbound hbound
  unfold redeemUnbound at hrest
  rw [Tx.bind_ok (Tx.query_ok _)] at hrest
  unfold redeemInvite
  simp only [hbound]
  cases hfound : db.invites.findRow fun row => row.secretHash = hashSecret secret with
  | none =>
      simp only [hfound, Tx.pure_run] at hrest
      exact Tx.transact_dropped hrest
  | some found =>
      rcases found with ⟨inviteId, invite⟩
      simp only [hfound] at hrest ⊢
      by_cases hconsumed : invite.consumedAt.isSome
      · rw [if_pos hconsumed] at hrest ⊢
        exact Tx.transact_dropped hrest
      rw [if_neg hconsumed] at hrest ⊢
      by_cases hexpired : invite.expiresAt ≤ toSecs now
      · rw [if_pos hexpired] at hrest ⊢
        exact Tx.transact_dropped hrest
      rw [if_neg hexpired] at hrest ⊢
      by_cases hguest : (db.guestRow peerId).isSome
      · rw [Tx.bind_error (Tx.statement_error (insertGuest_taken hguest))] at hrest
        rw [if_pos hguest]
        exact Tx.transact_refused hrest
      · rw [Tx.bind_ok (Tx.statement_ok (insertGuest_ok hguest)),
          Tx.bind_ok (Tx.execute_ok _), Tx.pure_run] at hrest
        rw [if_neg hguest]
        exact Tx.transact_committed hrest

/-- Where nothing fails, the transaction is the redemption in one step. -/
theorem transact_redeemInviteTx (db : StateDb) :
    Tx.transact Tx.noFaults (redeemInviteTx hashSecret secret peerId now) db =
      db.redeemInvite hashSecret secret peerId now := by
  cases hbound : db.boundGuest peerId with
  | none => exact transact_unbound hbound
  | some pair => exact transact_bound hbound

theorem failsOrRuns_redeemUnbound :
    (redeemUnbound hashSecret secret peerId now).FailsOrRuns := by
  apply (Tx.failsOrRuns_query _).bind
  intro invite
  cases invite with
  | none => exact Tx.failsOrRuns_pure _
  | some found =>
      rcases found with ⟨inviteId, invite⟩
      dsimp only
      split
      · exact Tx.failsOrRuns_pure _
      split
      · exact Tx.failsOrRuns_pure _
      apply (Tx.failsOrRuns_statement _).bind
      intro number
      exact (Tx.failsOrRuns_execute _).bind fun _ => Tx.failsOrRuns_pure _

theorem failsOrRuns_redeemInviteTx :
    (redeemInviteTx hashSecret secret peerId now).FailsOrRuns := by
  apply (Tx.failsOrRuns_query _).bind
  intro existing
  cases existing with
  | none => exact failsOrRuns_redeemUnbound
  | some pair => exact Tx.failsOrRuns_pure _

/-- Whatever fails, a redemption is an error that changes nothing or goes as where nothing
fails. -/
theorem transact_redeem_cases (hashSecret : InviteSecret -> SecretHash)
    (faults : Faults StorageError) (db : StateDb) :
    (exists e, Tx.transact faults (redeemInviteTx hashSecret secret peerId now) db =
      (Except.error e, db)) ∨
    Tx.transact faults (redeemInviteTx hashSecret secret peerId now) db =
      db.redeemInvite hashSecret secret peerId now := by
  rw [← transact_redeemInviteTx]
  exact Tx.transact_faults failsOrRuns_redeemInviteTx faults db

/-!
## Asking again
-/

/-- The secret bound this row to the peer, and the guest is not revoked. -/
structure BoundBy (hashSecret : InviteSecret -> SecretHash) (secret : InviteSecret)
    (peerId : String) (number : Int) (row : GuestsRow) (db : StateDb) : Prop where
  found : db.guestRow peerId = some (number, row)
  live : row.revokedAt = none
  invite : exists invite, db.invites.lookup row.inviteId = some invite ∧
    invite.secretHash = hashSecret secret

theorem BoundBy.redeemInvite_eq {number : Int} {row : GuestsRow} {db : StateDb}
    (h : BoundBy hashSecret secret peerId number row db) :
    db.redeemInvite hashSecret secret peerId now =
      (Except.ok (Redemption.activated (guestFromRow number row)), db) := by
  rcases h.invite with ⟨invite, hinvite, hhash⟩
  have hbound : db.boundGuest peerId = some (guestFromRow number row, hashSecret secret) := by
    simp [boundGuest, h.found, hinvite, hhash]
  simp [redeemInvite, hbound, h.live]

/-- An activated guest is bound by the secret it presented. -/
theorem boundBy_of_activated {db bound : StateDb} {guest : GuestNode} (hdb : db.Consistent)
    (h : db.redeemInvite hashSecret secret peerId now =
      (Except.ok (Redemption.activated guest), bound)) :
    bound.Consistent ∧ exists row, guest = guestFromRow guest.number row ∧
      BoundBy hashSecret secret peerId guest.number row bound := by
  have hstep : db.apply hashSecret (StorageOp.redeemInvite secret peerId now) = bound :=
    congrArg Prod.snd h
  have hconsistent : bound.Consistent := by
    rw [← hstep]
    exact hdb.apply _
  refine ⟨hconsistent, ?_⟩
  rcases redeemInvite_cases hashSecret db secret peerId now with
    ⟨inviteId, invite, hcreates⟩ | ⟨told, hbound, hlive, heq⟩ | ⟨why, heq⟩ | heq
  · rw [hcreates.redeemInvite_eq] at h
    cases h
    refine ⟨newGuestsRow peerId inviteId invite (toSecs now), rfl, ?_⟩
    constructor
    · exact hconsistent.peers.guestRow_eq (bindGuest_lookup_eq_some_iff.mpr (Or.inr ⟨rfl, rfl⟩))
    · rfl
    · rcases bindGuest_invite hcreates.lookup_invite.left peerId inviteId invite (toSecs now) with
        ⟨later, hlater, hbecomes, _⟩
      exact ⟨later, hlater, hbecomes.secretHash.trans hcreates.lookup_invite.right⟩
  · rw [heq] at h
    cases h
    rcases boundGuest_some hbound with ⟨⟨number, row⟩, invite, hrow, hguest, hinvite, hhash⟩
    cases hguest
    refine ⟨row, rfl, hrow, ?_, invite, hinvite, hhash⟩
    rw [guestFromRow_revokedAt, Option.map_eq_none_iff] at hlive
    exact hlive
  · rw [heq] at h
    cases h
  · rw [heq] at h
    cases h

end

end

end StateDb

section
variable {hashSecret : InviteSecret -> SecretHash} {secret : InviteSecret} {peerId : String}

/-- An operation that neither revokes nor removes this guest. -/
def StorageOp.Spares (number : Int) (op : StorageOp) : Prop :=
  op ≠ StorageOp.removeGuest number ∧ forall now, op ≠ StorageOp.revokeGuest number now

open StateDb in
theorem boundBy_apply {number : Int} {row : GuestsRow} {db : StateDb} (hdb : db.Consistent)
    (h : BoundBy hashSecret secret peerId number row db) {op : StorageOp}
    (hspares : op.Spares number) :
    exists row', row.Becomes row' ∧
      BoundBy hashSecret secret peerId number row' (db.apply hashSecret op) := by
  rcases guestRow_some h.found with ⟨hrow, hpeer⟩
  rcases apply_guest hashSecret hrow op with hremoved | ⟨row', hrow', hbecomes⟩
  · exact absurd hremoved hspares.left
  refine ⟨row', hbecomes, ?_⟩
  constructor
  · have hfound := (hdb.apply op).peers.guestRow_eq hrow'
    rw [hbecomes.peerId, hpeer] at hfound
    exact hfound
  · rcases apply_mark hrow hrow' with ⟨now, hrevokes, _⟩ | ⟨_, hmark⟩
    · exact absurd hrevokes (hspares.right now)
    · exact hmark.trans h.live
  · rcases h.invite with ⟨invite, hinvite, hhash⟩
    rcases apply_invite hashSecret hinvite op with ⟨later, hlater, hbecomes'⟩
    rw [hbecomes.inviteId]
    exact ⟨later, hlater, hbecomes'.secretHash.trans hhash⟩

theorem boundBy_run {number : Int} {row : GuestsRow} {db later : StateDb} {ops : List StorageOp}
    (hrun : Run (storageStep hashSecret) db ops later) (hdb : db.Consistent)
    (h : StateDb.BoundBy hashSecret secret peerId number row db)
    (hspares : forall op, op ∈ ops -> op.Spares number) :
    exists row', row.Becomes row' ∧
      StateDb.BoundBy hashSecret secret peerId number row' later := by
  induction hrun generalizing row with
  | nil s => exact ⟨row, GuestsRow.Becomes.refl row, h⟩
  | @cons s mid t op rest hstep _ ih =>
      rw [storageStep_some hstep] at ih
      rcases boundBy_apply hdb h (hspares op (List.mem_cons_self ..)) with
        ⟨row', hbecomes, h'⟩
      rcases ih (hdb.apply op) h' fun op hop => hspares op (List.mem_cons_of_mem _ hop) with
        ⟨last, hbecomes', hlast⟩
      exact ⟨last, hbecomes.trans hbecomes', hlast⟩

end

section
variable (hashSecret : InviteSecret -> SecretHash)

/-!
## The redemption of an invite
-/

open Tx StateDb in
/-- Once a redemption has activated a guest, and as long as the guest is neither revoked nor
removed, redeeming again at any time activates the same guest and changes nothing; and a
redemption that is refused or fails, at whichever statement, changes nothing. -/
theorem redemption_idempotent_and_atomic (secret : InviteSecret) (peerId : String) :
    (forall ops db, Run (storageStep hashSecret) StateDb.fresh ops db ->
      forall faults now guest bound,
        transact faults (redeemInviteTx hashSecret secret peerId now) db =
          (Except.ok (Redemption.activated guest), bound) ->
        forall further later, Run (storageStep hashSecret) bound further later ->
          (forall op, op ∈ further -> op.Spares guest.number) ->
          forall now', exists again,
            again.number = guest.number ∧ again.userId = guest.userId ∧
            again.displayName = guest.displayName ∧ again.activatedAt = guest.activatedAt ∧
            transact noFaults (redeemInviteTx hashSecret secret peerId now') later =
              (Except.ok (Redemption.activated again), later)) ∧
    (forall db faults now,
      (forall guest, (transact faults (redeemInviteTx hashSecret secret peerId now) db).1 ≠
        Except.ok (Redemption.activated guest)) ->
      (transact faults (redeemInviteTx hashSecret secret peerId now) db).2 = db) := by
  constructor
  · intro ops db hrun faults now guest bound hactivated further later hlater hspares now'
    have hredeemed : db.redeemInvite hashSecret secret peerId now =
        (Except.ok (Redemption.activated guest), bound) := by
      rcases transact_redeem_cases hashSecret faults db with ⟨e, herror⟩ | heq
      · rw [herror] at hactivated
        cases hactivated
      · rw [← heq, hactivated]
    rcases boundBy_of_activated (consistent_run hrun consistent_fresh) hredeemed with
      ⟨hconsistent, row, hguest, hbound⟩
    rcases boundBy_run hlater hconsistent hbound hspares with ⟨row', hbecomes, hbound'⟩
    refine ⟨guestFromRow guest.number row', rfl, ?_, ?_, ?_, ?_⟩
    · rw [hguest]
      exact hbecomes.userId
    · rw [hguest]
      exact hbecomes.displayName
    · rw [hguest]
      exact congrArg fromSecs hbecomes.activatedAt
    · rw [transact_redeemInviteTx]
      exact hbound'.redeemInvite_eq
  · intro db faults now hnot
    rcases transact_redeem_cases hashSecret faults db with ⟨e, herror⟩ | heq
    · rw [herror]
    · rw [heq] at hnot ⊢
      rcases redeemInvite_cases hashSecret db secret peerId now with
        ⟨inviteId, invite, hcreates⟩ | ⟨told, hbound, hlive, hsame⟩ | ⟨why, hsame⟩ | hsame
      · rw [hcreates.redeemInvite_eq] at hnot
        exact absurd rfl (hnot _)
      · rw [hsame]
      · rw [hsame]
      · rw [hsame]

end

open Tx StateDb in
theorem redemption_idempotent_past_expiry :
    let invited := StateDb.fresh.apply doubledSecret
      (StorageOp.createInvite ⟨repeatedSecret 1, "alice", "phone", ⟨87400, 0⟩⟩ ⟨1000, 0⟩)
    let bound := invited.apply doubledSecret
      (StorageOp.redeemInvite (repeatedSecret 1) "peer-a" ⟨1001, 500⟩)
    let later := (bound.apply doubledSecret (StorageOp.touchGuest "peer-a" ⟨1002, 0⟩)).apply
      doubledSecret (StorageOp.revokeGuest 2 ⟨1003, 0⟩)
    exists again, again.number = 1 ∧ again.userId = "alice" ∧ again.displayName = "phone" ∧
      again.activatedAt = ⟨1001, 0⟩ ∧
      transact noFaults (redeemInviteTx doubledSecret (repeatedSecret 1) "peer-a" ⟨90000, 0⟩)
        later = (Except.ok (Redemption.activated again), later) :=
  (redemption_idempotent_and_atomic doubledSecret (repeatedSecret 1) "peer-a").left
    [StorageOp.createInvite ⟨repeatedSecret 1, "alice", "phone", ⟨87400, 0⟩⟩ ⟨1000, 0⟩] _
    (Run.cons rfl (Run.nil _)) noFaults ⟨1001, 500⟩
    ⟨1, "peer-a", "alice", "phone", ⟨1001, 0⟩, none, none⟩ _
    (transact_redeemInviteTx _)
    [StorageOp.touchGuest "peer-a" ⟨1002, 0⟩, StorageOp.revokeGuest 2 ⟨1003, 0⟩] _
    (Run.cons rfl (Run.cons rfl (Run.nil _)))
    (by
      intro op hop
      simp only [List.mem_cons, List.not_mem_nil, or_false] at hop
      rcases hop with rfl | rfl
      · exact ⟨by simp, by simp⟩
      · exact ⟨by simp, by simp⟩)
    ⟨90000, 0⟩

end Host
end WispersAccess
