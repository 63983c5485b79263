import WispersAccess.Host.ServingLemmas

/-!
# Revocation over whole runs

What a revocation keeps out, and where it fails to: a revoked peer is never
activated again unless the removal of `delete_guest` takes its marked row, and
its streams are cut off unless one of its connections was looked up before the
row was marked and is not registered under the number when the registry is
passed over.
-/

namespace WispersAccess
namespace Host

open Foundation
open Wire (InviteSecret FirstByte StreamType)

section
variable {hashSecret : InviteSecret -> SecretHash}

/-!
## No admission while the peer is no guest
-/

/-- The connection with this number is one of `peerId`, if it is there. -/
def HostState.Owns (s : HostState) (peerId : String) (c : Nat) : Prop :=
  forall conn, s.conns[c]? = some conn -> conn.peerId = peerId

/-- Every connection of `peerId` that is served as a guest is one of `A`, and so is
the connection of every stream from `N` on that is handled for a user. -/
structure HostState.NoAdmission (s : HostState) (peerId : String) (A : Nat -> Prop)
    (N : Nat) : Prop where
  conns : forall (c : Nat) (conn : Conn), s.conns[c]? = some conn -> conn.peerId = peerId ->
    forall guest, conn.guest = some guest -> A c
  streams : forall (sid : Nat) (stream : Stream), N ≤ sid -> s.streams[sid]? = some stream ->
    forall userId, stream.userId = some userId -> s.Owns peerId stream.conn -> A stream.conn

theorem noAdmission_start {s : HostState} {peerId : String} {A : Nat -> Prop}
    (hA : forall (c : Nat) (conn : Conn), s.conns[c]? = some conn -> conn.peerId = peerId ->
      forall guest, conn.guest = some guest -> A c) :
    s.NoAdmission peerId A s.streams.length where
  conns := hA
  streams := by
    intro sid stream hsid hstream
    exact absurd (slot_lt hstream) (Nat.not_lt.mpr hsid)

theorem owns_before {s t : HostState} {a : HostAction} {peerId : String} {c : Nat}
    (h : hostStep hashSecret s a = some t) (howns : t.Owns peerId c) : s.Owns peerId c := by
  intro conn hconn
  rcases conns_grow h c conn hconn with ⟨later, hlater, hbecomes⟩
  exact hbecomes.left.symm.trans (howns later hlater)

theorem noAdmission_hostStep {s t : HostState} {a : HostAction} {peerId : String}
    {A : Nat -> Prop} {N : Nat} (hs : s.NoAdmission peerId A N)
    (haccess : s.db.access peerId ≠ Access.guest) (h : hostStep hashSecret s a = some t) :
    t.NoAdmission peerId A N where
  conns := by
    intro c conn' hconn' hpeer guest hguest
    rcases admitted_hostStep h hconn' hguest with ⟨conn, hconn, hsame, hbefore⟩ | hnow
    · exact hs.conns c conn hconn (hsame.symm.trans hpeer) guest hbefore
    · rw [hpeer] at hnow
      exact absurd hnow haccess
  streams := by
    intro sid stream' hsid hstream' userId huser howns
    rcases handled_hostStep h hstream' huser with ⟨stream, hstream, hsame, hwho⟩
    rw [hsame] at howns ⊢
    have hbefore : s.Owns peerId stream.conn := owns_before h howns
    rcases hwho with huser' | ⟨conn, guest, hconn, hguest⟩
    · exact hs.streams sid stream hsid hstream userId huser' hbefore
    · exact hs.conns _ conn hconn (hbefore conn hconn) guest hguest

/-!
## A revocation is permanent
-/

/-- The removal of `delete_guest` takes the row of `peerId` although it is revoked. -/
def HostState.RemovesRevoked (s : HostState) (peerId : String) (a : HostAction) : Prop :=
  exists number row, s.storageOp a = some (StorageOp.removeGuest number) ∧
    s.db.guests.lookup number = some row ∧ row.peerId = peerId ∧ row.revokedAt ≠ none

theorem not_removesRevoked {a : HostAction}
    (ha : forall sid, a ≠ HostAction.onStream sid StreamAction.removeGuest) (s : HostState)
    (peerId : String) : ¬ s.RemovesRevoked peerId a := by
  intro h
  rcases h with ⟨number, row, hop, _⟩
  rcases storageOp_removeGuest hop with ⟨sid, _, _, _, rfl, _⟩
  exact ha sid rfl

theorem kept_of_no_removal {acts : List HostAction}
    (h : forall sid, HostAction.onStream sid StreamAction.removeGuest ∉ acts) (s : HostState)
    (peerId : String) :
    Meets (hostStep hashSecret) (fun s a => ¬ s.RemovesRevoked peerId a) s acts := by
  apply meets_of_forall
  intro a ha s
  apply not_removesRevoked
  intro sid heq
  subst heq
  exact h sid ha

theorem revoked_hostStep {s t : HostState} {a : HostAction} {peerId : String}
    (hs : s.db.Consistent) (hrevoked : s.db.access peerId = Access.revoked)
    (hkept : ¬ s.RemovesRevoked peerId a) (h : hostStep hashSecret s a = some t) :
    t.db.access peerId = Access.revoked := by
  rw [access_hostStep hs h, hrevoked]
  apply after_revoked
  intro hremoved
  unfold HostState.accessEvent at hremoved
  cases hop : s.storageOp a with
  | none => simp [hop] at hremoved
  | some op =>
      simp only [hop] at hremoved
      rcases StateDb.accessEvent_removed hremoved with ⟨number, row, rfl, hrow, hpeer⟩
      apply hkept
      refine ⟨number, row, hop, hrow, hpeer, ?_⟩
      intro hmark
      have haccess := StateDb.access_of_row hs.peers hrow
      rw [hpeer, hrevoked, hmark] at haccess
      cases haccess

theorem revoked_run {s t : HostState} {acts : List HostAction} {peerId : String}
    (hrun : Run (hostStep hashSecret) s acts t)
    (hmeets : Meets (hostStep hashSecret) (fun s a => ¬ s.RemovesRevoked peerId a) s acts)
    (hs : s.db.Consistent) (hrevoked : s.db.access peerId = Access.revoked) :
    t.db.access peerId = Access.revoked := by
  have hinvariant : t.db.Consistent ∧ t.db.access peerId = Access.revoked := by
    apply hrun.invariant_of_meets
      (I := fun s => s.db.Consistent ∧ s.db.access peerId = Access.revoked) _ hmeets
      ⟨hs, hrevoked⟩
    intro s a t h hkept hstep
    rcases h with ⟨hs, hrevoked⟩
    refine ⟨?_, revoked_hostStep hs hrevoked hkept hstep⟩
    rw [hostStep_db hstep]
    exact consistent_perform hs _
  exact hinvariant.right

/-- The mark of `revoke_guest` on the row of a guest. -/
theorem revoked_of_marked {s t : HostState} {number : Int} {row : GuestsRow} {now : DateTime}
    (hs : s.db.Consistent) (hrow : s.db.guests.lookup number = some row)
    (h : hostStep hashSecret s (HostAction.markRevoked number now) = some t) :
    t.db.access row.peerId = Access.revoked := by
  rcases StateDb.markRevoked_becomes hrow number now with
    ⟨later, hlater, hbecomes, hmarked, _⟩
  have hdb : t.db = s.db.apply hashSecret (StorageOp.revokeGuest number now) := by
    rcases markRevoked_some h with ⟨⟨e, herror⟩, _⟩ | ⟨_, rfl⟩
    · rw [(StateDb.revokeGuest_error herror).right] at hrow
      cases hrow
    · rfl
  have hnext : t.db.PeersDistinct := by
    rw [hdb]
    exact peersDistinct_apply hs.peers _
  have hlook : t.db.guests.lookup number = some later := by
    rw [hdb, StateDb.apply, StateDb.revokeGuest_snd, hlater]
  have haccess := StateDb.access_of_row hnext hlook
  rw [hbecomes.peerId] at haccess
  rw [haccess, if_pos (Option.isSome_iff_ne_none.mpr (hmarked rfl))]

/-- Once `revoke_guest` has marked a peer's row, the peer is never activated again in
a run where no removal of `delete_guest` takes the marked row. -/
theorem revocation_is_permanent {s marked t : HostState} {pre post : List HostAction}
    {number : Int} {row : GuestsRow} {now : DateTime}
    (hpre : Run (hostStep hashSecret) HostState.init pre s)
    (hrow : s.db.guests.lookup number = some row)
    (hmark : hostStep hashSecret s (HostAction.markRevoked number now) = some marked)
    (hpost : Run (hostStep hashSecret) marked post t)
    (hkept : Meets (hostStep hashSecret) (fun s a => ¬ s.RemovesRevoked row.peerId a) marked post)
    (secret : InviteSecret) (later : DateTime) :
    ¬ t.db.Activates hashSecret secret row.peerId later := by
  intro hactivates
  have hs : s.db.Consistent := consistent_reachable hpre
  have hmarked : marked.db.Consistent := consistent_hostRun (Run.single hmark) hs
  have hrevoked : t.db.access row.peerId = Access.revoked :=
    revoked_run hpost hkept hmarked (revoked_of_marked hs hrow hmark)
  exact StateDb.access_of_activates hactivates hrevoked

theorem revocation_is_permanent_for_alice :
    ¬ (hostAfter (aliceJoins ++ [HostAction.markRevoked 1 ⟨2000, 0⟩,
      HostAction.closeConnections 1])).db.Activates doubledSecret (repeatedSecret 2) "peer-a"
        ⟨3000, 0⟩ := by
  have hpre : Run (hostStep doubledSecret) HostState.init aliceJoins (hostAfter aliceJoins) :=
    run_iff_exec.mpr rfl
  have hrow : (hostAfter aliceJoins).db.guests.lookup 1 =
      some ⟨"peer-a", "alice", "phone", 1, 1001, none, none⟩ := rfl
  have hmark : hostStep doubledSecret (hostAfter aliceJoins)
      (HostAction.markRevoked 1 ⟨2000, 0⟩) =
        some (hostAfter (aliceJoins ++ [HostAction.markRevoked 1 ⟨2000, 0⟩])) := rfl
  have hpost : Run (hostStep doubledSecret)
      (hostAfter (aliceJoins ++ [HostAction.markRevoked 1 ⟨2000, 0⟩]))
      [HostAction.closeConnections 1] _ := Run.single rfl
  exact revocation_is_permanent hpre hrow hmark hpost
    (kept_of_no_removal (by simp) _ _) (repeatedSecret 2) ⟨3000, 0⟩

/-- Alice's DELETE looked her up before she was revoked; its removal takes the marked
row, and her key redeems another invite. -/
theorem revocation_is_not_permanent :
    ¬ forall (pre post : List HostAction) (s marked t : HostState) (number : Int)
        (row : GuestsRow) (now later : DateTime) (secret : InviteSecret),
      Run (hostStep doubledSecret) HostState.init pre s ->
      s.db.guests.lookup number = some row ->
      hostStep doubledSecret s (HostAction.markRevoked number now) = some marked ->
      Run (hostStep doubledSecret) marked post t ->
      ¬ t.db.Activates doubledSecret secret row.peerId later := by
  intro h
  exact h (aliceJoins ++ registers 0 ++ opens 0 1 StreamType.ctrl ++
      [HostAction.onStream 1 StreamAction.findGuest])
    [HostAction.closeConnections 1, HostAction.onStream 1 StreamAction.removeGuest]
    _ _ _ 1 _ ⟨2000, 0⟩ ⟨3000, 0⟩ (repeatedSecret 2)
    (run_iff_exec.mpr rfl) rfl rfl (run_iff_exec.mpr rfl) ⟨_, rfl⟩

/-!
## A revocation cuts the guest off
-/

/-- Every open connection that is served as the guest `peerId` is registered, and
under `number`. -/
def HostState.AllRegistered (s : HostState) (peerId : String) (number : Int) : Prop :=
  forall (c : Nat) (conn : Conn), s.conns[c]? = some conn -> conn.peerId = peerId ->
    conn.isOpen = true -> forall guest, conn.guest = some guest ->
      conn.registeredUnder = some number

/-- The connections of `peerId` that are closed. -/
def HostState.ClosedConn (s : HostState) (peerId : String) (c : Nat) : Prop :=
  exists conn, s.conns[c]? = some conn ∧ conn.peerId = peerId ∧ conn.isOpen = false

theorem closedConn_hostStep {s t : HostState} {a : HostAction} {peerId : String} {c : Nat}
    (h : hostStep hashSecret s a = some t) (hc : s.ClosedConn peerId c) :
    t.ClosedConn peerId c := by
  rcases hc with ⟨conn, hconn, hpeer, hclosed⟩
  rcases conns_grow h c conn hconn with ⟨later, hlater, hbecomes⟩
  exact ⟨later, hlater, hbecomes.left.trans hpeer, hbecomes.right hclosed⟩

/-- After the pass, a connection served as the guest is closed. -/
theorem closed_of_allRegistered {s t : HostState} {peerId : String} {number : Int}
    (hreg : s.AllRegistered peerId number)
    (h : hostStep hashSecret s (HostAction.closeConnections number) = some t)
    {c : Nat} {conn : Conn} (hconn : t.conns[c]? = some conn) (hpeer : conn.peerId = peerId)
    {guest : GuestNode} (hguest : conn.guest = some guest) : t.ClosedConn peerId c := by
  refine ⟨conn, hconn, hpeer, ?_⟩
  rw [closeConnections_some h] at hconn
  rcases slot_map_eq_some hconn with ⟨before, hbefore, rfl⟩
  rw [told_guest] at hguest
  cases hopen : before.isOpen with
  | false => exact (told_becomes number before).right hopen
  | true =>
      have hpeer' : before.peerId = peerId := (told_becomes number before).left.symm.trans hpeer
      have hregistered := hreg c before hbefore hpeer' hopen guest hguest
      rw [Conn.told, if_pos hregistered]

/-- No stream from `N` on belongs to a connection of `A`. -/
def HostState.NoStreamOn (s : HostState) (A : Nat -> Prop) (N : Nat) : Prop :=
  forall (sid : Nat) (stream : Stream), N ≤ sid -> s.streams[sid]? = some stream ->
    ¬ A stream.conn

/-- A closed connection gets no new streams. -/
theorem noStreamOn_hostStep {s t : HostState} {a : HostAction} {peerId : String} {N : Nat}
    {A : Nat -> Prop} (hA : forall c, A c -> s.ClosedConn peerId c) (hs : s.NoStreamOn A N)
    (h : hostStep hashSecret s a = some t) : t.NoStreamOn A N := by
  intro sid stream' hsid hstream' hmem
  cases hold : s.streams[sid]? with
  | some stream =>
      rcases streams_grow h sid stream hold with ⟨later, hlater, hbecomes⟩
      rw [hstream'] at hlater
      cases hlater
      rw [hbecomes.left] at hmem
      exact hs sid stream hsid hold hmem
  | none =>
      rcases opened_hostStep h hold hstream' with ⟨conn, hconn, hopen⟩
      rcases hA _ hmem with ⟨conn', hconn', _, hclosed⟩
      rw [hconn] at hconn'
      cases hconn'
      rw [hopen] at hclosed
      cases hclosed

/-- What holds from the end of `revoke_guest` on. -/
structure HostState.CutOff (s : HostState) (peerId : String) (A : Nat -> Prop) (N : Nat) :
    Prop where
  consistent : s.db.Consistent
  revoked : s.db.access peerId = Access.revoked
  admitted : s.NoAdmission peerId A N
  closed : forall c, A c -> s.ClosedConn peerId c
  streams : s.NoStreamOn A N

theorem cutOff_run {s t : HostState} {acts : List HostAction} {peerId : String}
    {A : Nat -> Prop} {N : Nat} (hrun : Run (hostStep hashSecret) s acts t)
    (hmeets : Meets (hostStep hashSecret) (fun s a => ¬ s.RemovesRevoked peerId a) s acts)
    (hs : s.CutOff peerId A N) : t.CutOff peerId A N := by
  apply hrun.invariant_of_meets _ hmeets hs
  intro s a t hs hkept hstep
  exact
    { consistent := consistent_hostRun (Run.single hstep) hs.consistent
      revoked := revoked_hostStep hs.consistent hs.revoked hkept hstep
      admitted := noAdmission_hostStep hs.admitted (by rw [hs.revoked]; simp) hstep
      closed := fun c hc => closedConn_hostStep hstep (hs.closed c hc)
      streams := noStreamOn_hostStep hs.closed hs.streams hstep }

theorem HostState.CutOff.not_served {s : HostState} {peerId : String} {A : Nat -> Prop} {N : Nat}
    (hs : s.CutOff peerId A N) {sid : Nat} {stream : Stream} {conn : Conn} (hsid : N ≤ sid)
    (hstream : s.streams[sid]? = some stream) (hconn : s.conns[stream.conn]? = some conn)
    (hpeer : conn.peerId = peerId) : ¬ stream.Served := by
  intro h
  rcases h with ⟨userId, hphase⟩
  have huser : stream.userId = some userId := by rw [Stream.userId, hphase]
  have howns : s.Owns peerId stream.conn := by
    intro conn' hconn'
    rw [hconn] at hconn'
    cases hconn'
    exact hpeer
  exact hs.streams sid stream hsid hstream
    (hs.admitted.streams sid stream hsid hstream userId huser howns)

/-- After `revoke_guest` has passed over the registry, no stream opened later by the
revoked peer is served, in a run where at that pass every open connection served
as the guest was registered under the number, and where no removal of
`delete_guest` takes the marked row. -/
theorem revocation_cuts_off {s marked s' closed t : HostState}
    {pre mid post : List HostAction} {number : Int} {row : GuestsRow} {now : DateTime}
    (hpre : Run (hostStep hashSecret) HostState.init pre s)
    (hrow : s.db.guests.lookup number = some row)
    (hmark : hostStep hashSecret s (HostAction.markRevoked number now) = some marked)
    (hmid : Run (hostStep hashSecret) marked mid s')
    (hclose : hostStep hashSecret s' (HostAction.closeConnections number) = some closed)
    (hpost : Run (hostStep hashSecret) closed post t)
    (hreg : s'.AllRegistered row.peerId number)
    (hkept : Meets (hostStep hashSecret) (fun s a => ¬ s.RemovesRevoked row.peerId a) marked
      (mid ++ HostAction.closeConnections number :: post))
    {sid : Nat} {stream : Stream} {conn : Conn} (hlater : closed.streams.length ≤ sid)
    (hstream : t.streams[sid]? = some stream) (hconn : t.conns[stream.conn]? = some conn)
    (hpeer : conn.peerId = row.peerId) : ¬ stream.Served := by
  have hs : s.db.Consistent := consistent_reachable hpre
  have hmarked : marked.db.Consistent := consistent_hostRun (Run.single hmark) hs
  rcases (meets_append hmid).mp hkept with ⟨hkeptMid, hkeptClose, hkeptPost⟩
  have hs' : s'.db.Consistent := consistent_hostRun hmid hmarked
  have hrevoked' : s'.db.access row.peerId = Access.revoked :=
    revoked_run hmid hkeptMid hmarked (revoked_of_marked hs hrow hmark)
  have hcut : closed.CutOff row.peerId (closed.ClosedConn row.peerId) closed.streams.length :=
    { consistent := consistent_hostRun (Run.single hclose) hs'
      revoked := revoked_hostStep hs' hrevoked' hkeptClose hclose
      admitted := noAdmission_start fun c conn hconn hpeer guest hguest =>
        closed_of_allRegistered hreg hclose hconn hpeer hguest
      closed := fun c hc => hc
      streams := fun sid stream hsid hstream =>
        absurd (slot_lt hstream) (Nat.not_lt.mpr hsid) }
  exact (cutOff_run hpost (hkeptPost _ hclose) hcut).not_served hlater hstream hconn hpeer

theorem revocation_cuts_off_alice :
    ¬ (⟨1, none, StreamPhase.opened⟩ : Stream).Served := by
  have hpre : Run (hostStep doubledSecret) HostState.init (aliceJoins ++ registers 0)
      (hostAfter (aliceJoins ++ registers 0)) := run_iff_exec.mpr rfl
  have hrow : (hostAfter (aliceJoins ++ registers 0)).db.guests.lookup 1 =
      some ⟨"peer-a", "alice", "phone", 1, 1001, some 1002, none⟩ := rfl
  have hpost : Run (hostStep doubledSecret)
      (hostAfter (aliceJoins ++ registers 0 ++
        [HostAction.markRevoked 1 ⟨2000, 0⟩, HostAction.closeConnections 1]))
      [HostAction.connect "peer-a", HostAction.openStream 1 none]
      (hostAfter (aliceJoins ++ registers 0 ++
        [HostAction.markRevoked 1 ⟨2000, 0⟩, HostAction.closeConnections 1,
          HostAction.connect "peer-a", HostAction.openStream 1 none])) := run_iff_exec.mpr rfl
  have hreg : (hostAfter (aliceJoins ++ registers 0 ++
      [HostAction.markRevoked 1 ⟨2000, 0⟩])).AllRegistered "peer-a" 1 := by
    intro c conn hconn _ _ guest _
    cases c with
    | zero =>
        rw [← Option.some.inj (hconn : some _ = some conn)]
        rfl
    | succ c => cases hconn
  exact revocation_cuts_off hpre hrow rfl (Run.nil _) rfl hpost hreg
    (kept_of_no_removal (by simp) _ _) (Nat.le_refl 1) rfl rfl rfl

/-- Alice's connection was looked up before the mark and registered after the pass. -/
theorem revocation_does_not_cut_off :
    ¬ forall (pre mid post : List HostAction) (s marked s' closed t : HostState)
        (number : Int) (row : GuestsRow) (now : DateTime) (sid : Nat) (stream : Stream)
        (conn : Conn),
      Run (hostStep doubledSecret) HostState.init pre s ->
      s.db.guests.lookup number = some row ->
      hostStep doubledSecret s (HostAction.markRevoked number now) = some marked ->
      Run (hostStep doubledSecret) marked mid s' ->
      hostStep doubledSecret s' (HostAction.closeConnections number) = some closed ->
      Run (hostStep doubledSecret) closed post t ->
      closed.streams.length ≤ sid -> t.streams[sid]? = some stream ->
      t.conns[stream.conn]? = some conn -> conn.peerId = row.peerId -> ¬ stream.Served := by
  intro h
  exact h aliceJoins [] (registers 0 ++ opens 0 1 StreamType.reverseProxy)
    _ _ _ _ _ 1 _ ⟨2000, 0⟩ 1 _ _ (run_iff_exec.mpr rfl) rfl rfl (Run.nil _) rfl
    (run_iff_exec.mpr rfl) (by decide) rfl rfl rfl ⟨"alice", rfl⟩

end

end Host
end WispersAccess
