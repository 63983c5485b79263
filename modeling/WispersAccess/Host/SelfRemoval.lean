import WispersAccess.Host.Revocation

/-!
# Guests that remove themselves

`DELETE /v1/guest` removes the calling guest's row, and leaves its connections to
the guest.  This module says what a peer can still reach after that, and whose
rows the two database accesses of `delete_guest` can touch.
-/

namespace WispersAccess
namespace Host

open Foundation
open Wire (InviteSecret FirstByte StreamType)

section
variable {hashSecret : InviteSecret -> SecretHash}

/-!
## Access after a removal
-/

/-- Stream `sid` is a DELETE of `peerId` whose removal takes the row of `peerId`,
and is answered with 204. -/
def HostState.Leaves (s : HostState) (peerId : String) (sid : Nat) : Prop :=
  exists (stream : Stream) (conn : Conn) (userId : String) (number : Int),
    s.streams[sid]? = some stream ∧ s.conns[stream.conn]? = some conn ∧ conn.peerId = peerId ∧
    stream.phase = StreamPhase.removing userId number ∧ s.db.NumberOf number peerId

variable (hashSecret) in
/-- The action redeems an invite for `peerId`. -/
def HostState.Redeems (s : HostState) (peerId : String) (a : HostAction) : Prop :=
  exists secret now, s.storageOp a = some (StorageOp.redeemInvite secret peerId now) ∧
    s.db.Activates hashSecret secret peerId now

theorem Leaves.storageOp {s : HostState} {peerId : String} {sid : Nat}
    (h : s.Leaves peerId sid) :
    exists number, s.db.NumberOf number peerId ∧
      s.storageOp (HostAction.onStream sid StreamAction.removeGuest) =
        some (StorageOp.removeGuest number) := by
  rcases h with ⟨stream, conn, userId, number, hstream, hconn, _, hphase, hnumber⟩
  refine ⟨number, hnumber, ?_⟩
  simp [HostState.storageOp, hstream, hconn, StreamAction.storageOp, hphase]

theorem unknown_of_leaves {s t : HostState} {peerId : String} {sid : Nat}
    (hs : s.db.Consistent) (hleaves : s.Leaves peerId sid)
    (h : hostStep hashSecret s (HostAction.onStream sid StreamAction.removeGuest) = some t) :
    t.db.access peerId = Access.unknown := by
  rcases Leaves.storageOp hleaves with ⟨number, hnumber, hop⟩
  have hevent : s.accessEvent hashSecret peerId
      (HostAction.onStream sid StreamAction.removeGuest) = AccessEvent.removed := by
    rw [HostState.accessEvent, hop]
    exact if_pos hnumber
  rw [access_hostStep hs h, hevent]
  cases s.db.access peerId <;> rfl

theorem unknown_hostStep {s t : HostState} {a : HostAction} {peerId : String}
    (hs : s.db.Consistent) (hunknown : s.db.access peerId = Access.unknown)
    (hredeems : ¬ s.Redeems hashSecret peerId a) (h : hostStep hashSecret s a = some t) :
    t.db.access peerId = Access.unknown := by
  rw [access_hostStep hs h, hunknown]
  apply after_unknown
  intro hactivated
  unfold HostState.accessEvent at hactivated
  cases hop : s.storageOp a with
  | none => simp [hop] at hactivated
  | some op =>
      simp only [hop] at hactivated
      rcases StateDb.accessEvent_activated hactivated with ⟨secret, now, rfl, hactivates⟩
      exact hredeems ⟨secret, now, hop, hactivates⟩

/-- What holds of a peer that left, until it redeems an invite again. -/
structure HostState.Departed (s : HostState) (peerId : String) (A : Nat -> Prop) (N : Nat) :
    Prop where
  consistent : s.db.Consistent
  unknown : s.db.access peerId = Access.unknown
  admitted : s.NoAdmission peerId A N

theorem departed_run {s t : HostState} {acts : List HostAction} {peerId : String}
    {A : Nat -> Prop} {N : Nat} (hrun : Run (hostStep hashSecret) s acts t)
    (hmeets : Meets (hostStep hashSecret) (fun s a => ¬ s.Redeems hashSecret peerId a) s acts)
    (hs : s.Departed peerId A N) : t.Departed peerId A N := by
  apply hrun.invariant_of_meets _ hmeets hs
  intro s a t hs hredeems hstep
  exact
    { consistent := consistent_hostRun (Run.single hstep) hs.consistent
      unknown := unknown_hostStep hs.consistent hs.unknown hredeems hstep
      admitted := noAdmission_hostStep hs.admitted (by rw [hs.unknown]; simp) hstep }

/-- Connection `c` was looked up as a guest's and is served as that guest. -/
def HostState.Admitted (s : HostState) (c : Nat) : Prop :=
  exists conn guest, s.conns[c]? = some conn ∧ conn.guest = some guest

/-- After a peer's own DELETE took its row, and until it redeems an invite again, its
streams are served only on connections that were looked up before the removal. -/
theorem departed_guest_served {s removed t : HostState} {pre post : List HostAction}
    {peerId : String} {sid₀ : Nat}
    (hpre : Run (hostStep hashSecret) HostState.init pre s)
    (hleaves : s.Leaves peerId sid₀)
    (hremove : hostStep hashSecret s (HostAction.onStream sid₀ StreamAction.removeGuest) =
      some removed)
    (hpost : Run (hostStep hashSecret) removed post t)
    (hagain : Meets (hostStep hashSecret) (fun s a => ¬ s.Redeems hashSecret peerId a)
      removed post)
    {sid : Nat} {stream : Stream} {conn : Conn} (hlater : removed.streams.length ≤ sid)
    (hstream : t.streams[sid]? = some stream) (hconn : t.conns[stream.conn]? = some conn)
    (hpeer : conn.peerId = peerId) (hserved : stream.Served) :
    removed.Admitted stream.conn := by
  have hs : s.db.Consistent := consistent_reachable hpre
  have hremoved : removed.Departed peerId removed.Admitted removed.streams.length :=
    { consistent := consistent_hostRun (Run.single hremove) hs
      unknown := unknown_of_leaves hs hleaves hremove
      admitted := noAdmission_start fun c conn hconn _ guest hguest =>
        ⟨conn, guest, hconn, hguest⟩ }
  have ht := departed_run hpost hagain hremoved
  rcases hserved with ⟨userId, hphase⟩
  have huser : stream.userId = some userId := by rw [Stream.userId, hphase]
  have howns : t.Owns peerId stream.conn := by
    intro conn' hconn'
    rw [hconn] at hconn'
    cases hconn'
    exact hpeer
  exact ht.admitted.streams sid stream hlater hstream userId huser howns

theorem not_redeems {a : HostAction}
    (ha : forall sid secret now,
      a ≠ HostAction.onStream sid (StreamAction.postActivation secret now))
    (s : HostState) (peerId : String) : ¬ s.Redeems hashSecret peerId a := by
  intro h
  rcases h with ⟨secret, now, hop, _⟩
  rcases storageOp_redeemInvite hop with ⟨sid, _, _, rfl, _⟩
  exact ha sid secret now rfl

end

/-- Alice opens a CTRL stream on her connection, and her DELETE finds her number. -/
def aliceLeaves : List HostAction :=
  aliceJoins ++ registers 0 ++ opens 0 1 StreamType.ctrl ++
    [HostAction.onStream 1 StreamAction.findGuest]

/-- Alice's row is removed. -/
def aliceLeft : List HostAction :=
  aliceLeaves ++ [HostAction.onStream 1 StreamAction.removeGuest]

theorem aliceLeaves_leaves : (hostAfter aliceLeaves).Leaves "peer-a" 1 :=
  ⟨⟨0, some (FirstByte.typed StreamType.ctrl), StreamPhase.removing "alice" 1⟩,
    ⟨"peer-a", ConnPhase.serving ⟨1, "peer-a", "alice", "phone", ⟨1001, 0⟩, none, none⟩, true⟩,
    "alice", 1, rfl, rfl, rfl, rfl,
    ⟨⟨"peer-a", "alice", "phone", 1, 1001, some 1002, none⟩, rfl, rfl⟩⟩

theorem kept_away_of_no_activation {acts : List HostAction}
    (h : forall sid secret now,
      HostAction.onStream sid (StreamAction.postActivation secret now) ∉ acts)
    (hashSecret : InviteSecret -> SecretHash) (s : HostState) (peerId : String) :
    Meets (hostStep hashSecret) (fun s a => ¬ s.Redeems hashSecret peerId a) s acts := by
  apply meets_of_forall
  intro a ha s
  apply not_redeems
  intro sid secret now heq
  subst heq
  exact h sid secret now ha

theorem departed_alice_served : (hostAfter aliceLeft).Admitted 0 := by
  have hpre : Run (hostStep doubledSecret) HostState.init aliceLeaves (hostAfter aliceLeaves) :=
    run_iff_exec.mpr rfl
  have hremove : hostStep doubledSecret (hostAfter aliceLeaves)
      (HostAction.onStream 1 StreamAction.removeGuest) = some (hostAfter aliceLeft) := rfl
  have hpost : Run (hostStep doubledSecret) (hostAfter aliceLeft)
      (opens 0 2 StreamType.reverseProxy)
      (hostAfter (aliceLeft ++ opens 0 2 StreamType.reverseProxy)) := run_iff_exec.mpr rfl
  exact departed_guest_served hpre aliceLeaves_leaves hremove hpost
    (kept_away_of_no_activation (by simp [opens]) _ _ _) (Nat.le_refl 2) rfl rfl rfl
    ⟨"alice", rfl⟩

/-- Alice's stream is served on the connection she left open. -/
theorem departed_guest_keeps_access :
    ¬ forall (pre post : List HostAction) (s removed t : HostState) (peerId : String)
        (sid₀ sid : Nat) (stream : Stream) (conn : Conn),
      Run (hostStep doubledSecret) HostState.init pre s -> s.Leaves peerId sid₀ ->
      hostStep doubledSecret s (HostAction.onStream sid₀ StreamAction.removeGuest) =
        some removed ->
      Run (hostStep doubledSecret) removed post t ->
      Meets (hostStep doubledSecret) (fun s a => ¬ s.Redeems doubledSecret peerId a)
        removed post ->
      removed.streams.length ≤ sid -> t.streams[sid]? = some stream ->
      t.conns[stream.conn]? = some conn -> conn.peerId = peerId -> ¬ stream.Served := by
  intro h
  exact h aliceLeaves (opens 0 2 StreamType.reverseProxy) _ _ _ "peer-a" 1 2 _ _
    (run_iff_exec.mpr rfl) aliceLeaves_leaves rfl (run_iff_exec.mpr rfl)
    (kept_away_of_no_activation (by simp [opens]) _ _ _) (Nat.le_refl 2) rfl rfl rfl
    ⟨"alice", rfl⟩

section
variable (hashSecret : InviteSecret -> SecretHash)

/-!
## The rows of other guests
-/

/-- The peer whose request takes a step, if it is one. -/
def HostState.requester (s : HostState) : HostAction -> Option String
  | HostAction.onStream sid _ =>
      (s.streams[sid]?).bind fun stream => (s.conns[stream.conn]?).map Conn.peerId
  | _ => none

/-- A step of a request keeps the rows of all peers but the one that made it. -/
def LeavesOthers (s : HostState) (a : HostAction) : Prop :=
  forall peerId t number row, s.requester a = some peerId -> hostStep hashSecret s a = some t ->
    s.db.guests.lookup number = some row -> row.peerId ≠ peerId ->
    t.db.guests.lookup number = some row

/-- The removal of a `delete_guest` finds no row under the number it looked up, or
still the row of the peer that made the request. -/
def RemovesOwn (s : HostState) (a : HostAction) : Prop :=
  forall peerId number row, s.requester a = some peerId ->
    s.storageOp a = some (StorageOp.removeGuest number) ->
    s.db.guests.lookup number = some row -> row.peerId = peerId

/-- An activation is given the number that a pending removal of another peer looked up. -/
def Reissues (s : HostState) (a : HostAction) : Prop :=
  exists (secret : InviteSecret) (peerId : String) (now : DateTime) (sid : Nat)
      (stream : Stream) (conn : Conn) (userId : String),
    s.storageOp a = some (StorageOp.redeemInvite secret peerId now) ∧
    s.db.access peerId = Access.unknown ∧ s.db.Activates hashSecret secret peerId now ∧
    s.streams[sid]? = some stream ∧ s.conns[stream.conn]? = some conn ∧
    stream.phase = StreamPhase.removing userId s.db.guests.nextRowid ∧ conn.peerId ≠ peerId

variable {hashSecret}

variable (hashSecret) in
theorem removeGuest_enabled {s : HostState} {sid : Nat} {stream : Stream} {conn : Conn}
    {userId : String} {number : Int} (hstream : s.streams[sid]? = some stream)
    (hconn : s.conns[stream.conn]? = some conn)
    (hphase : stream.phase = StreamPhase.removing userId number) :
    exists t,
      hostStep hashSecret s (HostAction.onStream sid StreamAction.removeGuest) = some t := by
  simp [hostStep, HostState.stepStream, hstream, hconn, Stream.step, hphase]

theorem leavesOthers_iff_removesOwn (s : HostState) (a : HostAction) :
    LeavesOthers hashSecret s a <-> RemovesOwn s a := by
  constructor
  · intro h peerId number row hrequester hop hrow
    by_contra hother
    rcases storageOp_removeGuest hop with ⟨sid, stream, conn, userId, rfl, hstream, hconn, hphase⟩
    rcases removeGuest_enabled hashSecret hstream hconn hphase with ⟨t, hstep⟩
    have hkept := h peerId t number row hrequester hstep hrow hother
    rw [hostStep_db hstep, hop] at hkept
    exact (StateDb.removeGuest_lookup_eq_some_iff.mp hkept).right rfl
  · intro h peerId t number row hrequester hstep hrow hother
    rw [hostStep_db hstep]
    cases hop : s.storageOp a with
    | none => exact hrow
    | some op =>
        cases a with
        | onStream sid b =>
            rcases storageOp_onStream hop with ⟨stream, conn, hstream, hconn, hb⟩
            cases b with
            | postActivation secret now =>
                cases hb
                rcases StateDb.redeemInvite_snd hashSecret s.db secret conn.peerId now with
                  ⟨inviteId, invite, _, heq⟩ | heq
                · rw [StateDb.perform, StateDb.apply, heq]
                  exact StateDb.bindGuest_lookup_eq_some_iff.mpr (Or.inl hrow)
                · rw [StateDb.perform, StateDb.apply, heq]
                  exact hrow
            | removeGuest =>
                simp only [StreamAction.storageOp] at hb
                split at hb
                · rename_i userId number' hphase
                  cases hb
                  refine StateDb.removeGuest_lookup_eq_some_iff.mpr ⟨hrow, ?_⟩
                  intro hsame
                  subst hsame
                  exact hother (h peerId _ row hrequester hop hrow)
                · cases hb
            | _ => cases hb
        | _ => cases hrequester

/-!
## Numbers that are reissued

A removal that looked its number up finds another peer's row only if the number
was given to that peer in between.
-/

structure HostState.PendingOwn (s : HostState) : Prop where
  linked : forall (sid : Nat) (stream : Stream), s.streams[sid]? = some stream ->
    exists conn, s.conns[stream.conn]? = some conn
  own : forall (sid : Nat) (stream : Stream) (conn : Conn) (userId : String) (number : Int)
      (row : GuestsRow), s.streams[sid]? = some stream -> s.conns[stream.conn]? = some conn ->
    stream.phase = StreamPhase.removing userId number ->
    s.db.guests.lookup number = some row -> row.peerId = conn.peerId

theorem pendingOwn_init : HostState.init.PendingOwn where
  linked := by
    intro sid stream hstream
    cases hstream
  own := by
    intro sid stream conn userId number row hstream
    cases hstream

theorem linked_hostStep {s t : HostState} {a : HostAction} (hs : s.PendingOwn)
    (h : hostStep hashSecret s a = some t) {sid : Nat} {stream' : Stream}
    (hstream' : t.streams[sid]? = some stream') :
    exists conn, t.conns[stream'.conn]? = some conn := by
  have hbefore : exists conn, s.conns[stream'.conn]? = some conn := by
    rcases streams_cases h hstream' with
      ⟨stream, hstream, rfl | rfl | ⟨conn, b, hconn, hstep⟩⟩ | ⟨_, _, conn, hconn, _⟩
    · exact hs.linked sid stream' hstream
    · exact hs.linked sid stream hstream
    · exact ⟨conn, by rw [(streamStep_some hstep).left.left, hconn]⟩
    · exact ⟨conn, hconn⟩
  rcases hbefore with ⟨conn, hconn⟩
  rcases conns_grow h _ conn hconn with ⟨later, hlater, _⟩
  exact ⟨later, hlater⟩

/-- The row under a number is the one from before, or an activation just created it. -/
theorem row_hostStep {s t : HostState} {a : HostAction} (h : hostStep hashSecret s a = some t)
    {number : Int} {row : GuestsRow} (hrow : t.db.guests.lookup number = some row) :
    s.db.NumberOf number row.peerId ∨
      (number = s.db.guests.nextRowid ∧ s.db.access row.peerId = Access.unknown ∧
        exists secret now, s.storageOp a = some (StorageOp.redeemInvite secret row.peerId now) ∧
          s.db.Activates hashSecret secret row.peerId now) := by
  rw [hostStep_db h] at hrow
  cases hop : s.storageOp a with
  | none =>
      rw [hop] at hrow
      exact Or.inl ⟨row, hrow, rfl⟩
  | some op =>
      rw [hop] at hrow
      rcases StateDb.apply_guest_inv hrow with
        ⟨old, hold, hbecomes⟩ | ⟨secret, peerId, now, inviteId, invite, rfl, hcreates, hn, rfl⟩
      · exact Or.inl ⟨old, hold, hbecomes.peerId.symm⟩
      · exact Or.inr ⟨hn, StateDb.access_eq_unknown_iff.mpr hcreates.no_guest, secret, now, rfl,
          StateDb.activates_of_creates hcreates⟩

theorem pendingOwn_hostStep {s t : HostState} {a : HostAction} (hs : s.PendingOwn)
    (hreissues : ¬ Reissues hashSecret s a) (h : hostStep hashSecret s a = some t) :
    t.PendingOwn where
  linked := fun sid stream hstream => linked_hostStep hs h hstream
  own := by
    intro sid stream' conn' userId number row hstream' hconn' hremoving hrow
    rcases removing_hostStep h hstream' hremoving with ⟨stream, hstream, hsame, hwhen⟩
    rcases hs.linked sid stream hstream with ⟨conn, hconn⟩
    have hpeer : conn'.peerId = conn.peerId := by
      rcases conns_grow h _ conn hconn with ⟨later, hlater, hbecomes⟩
      rw [← hsame, hconn'] at hlater
      cases hlater
      exact hbecomes.left
    rw [hpeer]
    rcases row_hostStep h hrow with ⟨old, hold, hsamePeer⟩ |
      ⟨hnew, hunknown, secret, now, hop, hactivates⟩
    · rw [← hsamePeer]
      rcases hwhen with hbefore | ⟨found, hfound, other, hother, hotherPeer⟩
      · exact hs.own sid stream conn userId number old hstream hconn hbefore hold
      · rw [hconn] at hfound
        cases hfound
        rw [hold] at hother
        cases hother
        exact hotherPeer
    · rcases hwhen with hbefore | ⟨found, hfound, other, hother, _⟩
      · by_contra hne
        apply hreissues
        rw [hnew] at hbefore
        exact ⟨secret, row.peerId, now, sid, stream, conn, userId, hop, hunknown, hactivates,
          hstream, hconn, hbefore, fun heq => hne heq.symm⟩
      · rw [hnew, RowTable.lookup_nextRowid] at hother
        cases hother

theorem removesOwn_of_pendingOwn {s : HostState} (hs : s.PendingOwn) (a : HostAction) :
    RemovesOwn s a := by
  intro peerId number row hrequester hop hrow
  rcases storageOp_removeGuest hop with ⟨sid, stream, conn, userId, rfl, hstream, hconn, hphase⟩
  have hpeer : conn.peerId = peerId := by
    simpa [HostState.requester, hstream, hconn] using hrequester
  rw [← hpeer]
  exact hs.own sid stream conn userId number row hstream hconn hphase hrow

theorem removesOwn_of_no_reissue {s : HostState} {acts : List HostAction}
    (hs : s.PendingOwn)
    (hmeets : Meets (hostStep hashSecret) (fun s a => ¬ Reissues hashSecret s a) s acts) :
    Meets (hostStep hashSecret) RemovesOwn s acts := by
  induction acts generalizing s with
  | nil => trivial
  | cons a rest ih =>
      refine ⟨removesOwn_of_pendingOwn hs a, ?_⟩
      intro mid hstep
      exact ih (pendingOwn_hostStep hs hmeets.left hstep) (hmeets.right mid hstep)

/-- The steps of every request keep the rows of all other peers exactly if each
removal finds the row it looked up, or none; in particular they do in every run in
which no activation is given a number that a pending removal of another peer looked up. -/
theorem requests_leave_other_guests (acts : List HostAction) :
    (Meets (hostStep hashSecret) (LeavesOthers hashSecret) HostState.init acts <->
      Meets (hostStep hashSecret) RemovesOwn HostState.init acts) ∧
    (Meets (hostStep hashSecret) (fun s a => ¬ Reissues hashSecret s a) HostState.init acts ->
      Meets (hostStep hashSecret) (LeavesOthers hashSecret) HostState.init acts) := by
  have hiff : Meets (hostStep hashSecret) (LeavesOthers hashSecret) HostState.init acts <->
      Meets (hostStep hashSecret) RemovesOwn HostState.init acts :=
    meets_congr leavesOthers_iff_removesOwn
  refine ⟨hiff, ?_⟩
  intro hmeets
  exact hiff.mpr (removesOwn_of_no_reissue pendingOwn_init hmeets)

end

/-- Two DELETEs of Alice look her number up; the first removal frees it, and the
activation of `peer-b` is given it. -/
def numberReissued : List HostAction :=
  aliceJoins ++ registers 0 ++ opens 0 1 StreamType.ctrl ++ opens 0 2 StreamType.ctrl ++
    [HostAction.onStream 1 StreamAction.findGuest, HostAction.onStream 2 StreamAction.findGuest,
      HostAction.onStream 1 StreamAction.removeGuest] ++
    joins 1 3 "peer-b" (repeatedSecret 2)

/-- Alice's second removal takes the row of `peer-b`. -/
theorem request_removes_another_guest :
    ¬ forall acts, Meets (hostStep doubledSecret) (LeavesOthers doubledSecret)
      HostState.init acts := by
  intro h
  have hrun : Run (hostStep doubledSecret) HostState.init numberReissued
      (hostAfter numberReissued) := run_iff_exec.mpr rfl
  have hmeets := h (numberReissued ++ [HostAction.onStream 2 StreamAction.removeGuest])
  have hlast := ((meets_append hrun).mp hmeets).right.left
  have hkept := hlast "peer-a" _ 1 ⟨"peer-b", "alice", "tablet", 2, 1001, none, none⟩
    rfl rfl rfl (by decide)
  cases hkept

end Host
end WispersAccess
