import WispersAccess.Host.Serving

/-!
# What a step of the host can do

For each part of the host's state, all that one step can do to it: the database
moves by the storage operation of the action, connections and streams keep their
place and their owner, and a connection is admitted only while its peer is a
guest.
-/

namespace WispersAccess
namespace Host

open Foundation
open Wire (InviteSecret FirstByte Plane)

section
variable {hashSecret : InviteSecret -> SecretHash}

/-!
## The two kinds of tasks
-/

theorem stepConn_some {s t : HostState} {c : Nat} {a : ConnAction}
    (h : s.stepConn hashSecret c a = some t) :
    exists conn conn', s.conns[c]? = some conn ∧ conn.step s.db s.streams c a = some conn' ∧
      t = { s with
        conns := s.conns.set c conn'
        db := s.db.perform hashSecret (a.storageOp conn) } := by
  unfold HostState.stepConn at h
  cases hconn : s.conns[c]? with
  | none =>
      rw [hconn] at h
      cases h
  | some conn =>
      rw [hconn] at h
      rcases Option.map_eq_some_iff.mp h with ⟨conn', hstep, rfl⟩
      exact ⟨conn, conn', rfl, hstep, rfl⟩

theorem stepStream_some {s t : HostState} {sid : Nat} {a : StreamAction}
    (h : s.stepStream hashSecret sid a = some t) :
    exists stream conn stream', s.streams[sid]? = some stream ∧
      s.conns[stream.conn]? = some conn ∧ stream.step s.db conn sid a = some stream' ∧
      t = { s with
        streams := s.streams.set sid stream'
        db := s.db.perform hashSecret (a.storageOp conn.peerId stream) } := by
  unfold HostState.stepStream at h
  cases hstream : s.streams[sid]? with
  | none =>
      rw [hstream] at h
      cases h
  | some stream =>
      rw [hstream] at h
      cases hconn : s.conns[stream.conn]? with
      | none => simp [hconn] at h
      | some conn =>
          simp only [hconn] at h
          rcases Option.map_eq_some_iff.mp h with ⟨stream', hstep, rfl⟩
          exact ⟨stream, conn, stream', rfl, hconn, hstep, rfl⟩

theorem openStream_some {s t : HostState} {c : Nat} {first : Option FirstByte}
    (h : hostStep hashSecret s (HostAction.openStream c first) = some t) :
    exists conn, s.conns[c]? = some conn ∧ conn.isOpen = true ∧
      t = { s with streams := s.streams ++ [⟨c, first, StreamPhase.opened⟩] } := by
  simp only [hostStep] at h
  cases hconn : s.conns[c]? with
  | none =>
      rw [hconn] at h
      cases h
  | some conn =>
      simp only [hconn] at h
      cases hopen : conn.isOpen with
      | false => simp [hopen] at h
      | true =>
          simp only [hopen, if_true, Option.some.injEq] at h
          exact ⟨conn, rfl, hopen, h.symm⟩

theorem markRevoked_some {s t : HostState} {number : Int} {now : DateTime}
    (h : hostStep hashSecret s (HostAction.markRevoked number now) = some t) :
    ((exists e, (s.db.revokeGuest number now).1 = Except.error e) ∧ t = s) ∨
      (exists guest, (s.db.revokeGuest number now).1 = Except.ok guest) ∧
        t = { s with
          db := s.db.perform hashSecret (some (StorageOp.revokeGuest number now))
          revoking := number :: s.revoking } := by
  simp only [hostStep] at h
  cases hrevoke : (s.db.revokeGuest number now).1 with
  | error e =>
      simp only [hrevoke, Option.some.injEq] at h
      exact Or.inl ⟨⟨e, rfl⟩, h.symm⟩
  | ok guest =>
      simp only [hrevoke, Option.some.injEq] at h
      exact Or.inr ⟨⟨guest, rfl⟩, h.symm⟩

theorem closeConnections_some {s t : HostState} {number : Int}
    (h : hostStep hashSecret s (HostAction.closeConnections number) = some t) :
    t = { s with
      conns := s.conns.map (Conn.told number)
      revoking := s.revoking.erase number } := by
  simp only [hostStep] at h
  split at h
  · exact (Option.some.inj h).symm
  · cases h

/-!
## The database
-/

/-- Every step of the host is one storage operation, or none. -/
theorem hostStep_db {s t : HostState} {a : HostAction} (h : hostStep hashSecret s a = some t) :
    t.db = s.db.perform hashSecret (s.storageOp a) := by
  cases a with
  | createInvite invite now =>
      cases h
      rfl
  | connect peerId =>
      cases h
      rfl
  | onConn c a =>
      rcases stepConn_some h with ⟨conn, conn', hconn, _, rfl⟩
      simp [HostState.storageOp, hconn]
  | openStream c first =>
      rcases openStream_some h with ⟨conn, _, _, rfl⟩
      rfl
  | onStream sid a =>
      rcases stepStream_some h with ⟨stream, conn, stream', hstream, hconn, _, rfl⟩
      simp [HostState.storageOp, hstream, hconn]
  | markRevoked number now =>
      cases hrevoke : (s.db.revokeGuest number now).1 with
      | error e =>
          simp only [hostStep, hrevoke, Option.some.injEq] at h
          rw [← h, HostState.storageOp, hrevoke]
          rfl
      | ok guest =>
          simp only [hostStep, hrevoke, Option.some.injEq] at h
          rw [← h, HostState.storageOp, hrevoke]
  | closeConnections number =>
      rw [closeConnections_some h]
      rfl
  | restart =>
      cases h
      rfl

theorem storageOp_onStream {s : HostState} {sid : Nat} {a : StreamAction} {op : StorageOp}
    (h : s.storageOp (HostAction.onStream sid a) = some op) :
    exists stream conn, s.streams[sid]? = some stream ∧ s.conns[stream.conn]? = some conn ∧
      a.storageOp conn.peerId stream = some op := by
  rcases Option.bind_eq_some_iff.mp h with ⟨stream, hstream, hrest⟩
  rcases Option.bind_eq_some_iff.mp hrest with ⟨conn, hconn, hop⟩
  exact ⟨stream, conn, hstream, hconn, hop⟩

/-- Only a `delete_guest` removes rows, and the row of the number it looked up. -/
theorem storageOp_removeGuest {s : HostState} {a : HostAction} {number : Int}
    (h : s.storageOp a = some (StorageOp.removeGuest number)) :
    exists sid stream conn userId, a = HostAction.onStream sid StreamAction.removeGuest ∧
      s.streams[sid]? = some stream ∧ s.conns[stream.conn]? = some conn ∧
      stream.phase = StreamPhase.removing userId number := by
  cases a with
  | onStream sid a =>
      rcases storageOp_onStream h with ⟨stream, conn, hstream, hconn, hop⟩
      cases a with
      | removeGuest =>
          simp only [StreamAction.storageOp] at hop
          split at hop
          · rename_i userId number' hphase
            cases hop
            exact ⟨sid, stream, conn, userId, rfl, hstream, hconn, hphase⟩
          · cases hop
      | _ => cases hop
  | onConn c a =>
      rcases Option.bind_eq_some_iff.mp h with ⟨conn, _, hop⟩
      cases a <;> cases hop
  | markRevoked number' now =>
      simp only [HostState.storageOp] at h
      split at h <;> cases h
  | _ => cases h

/-- Only an activation redeems invites, for the peer of its connection. -/
theorem storageOp_redeemInvite {s : HostState} {a : HostAction} {secret : InviteSecret}
    {peerId : String} {now : DateTime}
    (h : s.storageOp a = some (StorageOp.redeemInvite secret peerId now)) :
    exists sid stream conn, a = HostAction.onStream sid (StreamAction.postActivation secret now) ∧
      s.streams[sid]? = some stream ∧ s.conns[stream.conn]? = some conn ∧
      conn.peerId = peerId := by
  cases a with
  | onStream sid a =>
      rcases storageOp_onStream h with ⟨stream, conn, hstream, hconn, hop⟩
      cases a with
      | postActivation secret' now' =>
          cases hop
          exact ⟨sid, stream, conn, rfl, hstream, hconn, rfl⟩
      | removeGuest =>
          simp only [StreamAction.storageOp] at hop
          split at hop <;> cases hop
      | _ => cases hop
  | onConn c a =>
      rcases Option.bind_eq_some_iff.mp h with ⟨conn, _, hop⟩
      cases a <;> cases hop
  | markRevoked number' now' =>
      simp only [HostState.storageOp] at h
      split at h <;> cases h
  | _ => cases h

theorem consistent_perform {db : StateDb} (h : db.Consistent) (op : Option StorageOp) :
    (db.perform hashSecret op).Consistent := by
  cases op with
  | none => exact h
  | some op => exact h.apply op

theorem consistent_hostRun {s t : HostState} {acts : List HostAction}
    (hrun : Run (hostStep hashSecret) s acts t) (hs : s.db.Consistent) : t.db.Consistent := by
  apply hrun.invariant (I := fun s => s.db.Consistent) _ hs
  intro s a t hs hstep
  rw [hostStep_db hstep]
  exact consistent_perform hs _

theorem consistent_reachable {s : HostState} {acts : List HostAction}
    (hrun : Run (hostStep hashSecret) HostState.init acts s) : s.db.Consistent :=
  consistent_hostRun hrun consistent_fresh

variable (hashSecret) in
/-- What an action means for a peer's access. -/
def HostState.accessEvent (s : HostState) (peerId : String) (a : HostAction) : AccessEvent :=
  match s.storageOp a with
  | none => AccessEvent.none
  | some op => s.db.accessEvent hashSecret peerId op

theorem access_hostStep {s t : HostState} {a : HostAction} (hs : s.db.Consistent)
    (h : hostStep hashSecret s a = some t) (peerId : String) :
    t.db.access peerId =
      (s.db.access peerId).after (s.accessEvent hashSecret peerId a) := by
  rw [hostStep_db h]
  unfold HostState.accessEvent
  cases hop : s.storageOp a with
  | none => cases haccess : s.db.access peerId <;> exact haccess
  | some op => exact StateDb.access_apply hs.peers peerId op

/-!
## Connections and streams keep their place
-/

def Conn.Becomes (conn later : Conn) : Prop :=
  later.peerId = conn.peerId ∧ (conn.isOpen = false -> later.isOpen = false)

def Stream.Becomes (stream later : Stream) : Prop :=
  later.conn = stream.conn ∧ later.first = stream.first

theorem Conn.Becomes.refl (conn : Conn) : conn.Becomes conn :=
  ⟨rfl, id⟩

theorem Stream.Becomes.refl (stream : Stream) : stream.Becomes stream :=
  ⟨rfl, rfl⟩

theorem close_becomes (conn : Conn) : conn.Becomes conn.close :=
  ⟨rfl, fun _ => rfl⟩

theorem serveUnlessRevoked_becomes (conn : Conn) (guest : GuestNode) :
    conn.Becomes (conn.serveUnlessRevoked guest) := by
  unfold Conn.serveUnlessRevoked
  split
  · exact close_becomes conn
  · exact ⟨rfl, id⟩

@[simp] theorem told_guest (number : Int) (conn : Conn) :
    (conn.told number).guest = conn.guest := by
  unfold Conn.told
  split <;> rfl

theorem told_becomes (number : Int) (conn : Conn) : conn.Becomes (conn.told number) := by
  unfold Conn.told
  split
  · exact ⟨rfl, fun _ => rfl⟩
  · exact Conn.Becomes.refl conn

/-!
## Admission

A connection starts being served as a guest only where a look-up finds its peer
bound and not revoked, and a handler acts for a user only on such a connection.
-/

@[simp] theorem close_guest (conn : Conn) : conn.close.guest = none := rfl

theorem serveUnlessRevoked_guest {conn : Conn} {guest found : GuestNode}
    (h : (conn.serveUnlessRevoked found).guest = some guest) :
    guest = found ∧ found.revokedAt = none := by
  unfold Conn.serveUnlessRevoked at h
  cases hrevoked : found.revokedAt with
  | none =>
      simp only [hrevoked, Option.isSome_none, Bool.false_eq_true, if_false] at h
      exact ⟨(Option.some.inj h).symm, rfl⟩
  | some time => simp [hrevoked] at h

/-- A look-up in the state database that lets the connection be served. -/
def StateDb.Admits (db : StateDb) (peerId : String) (guest : GuestNode) : Prop :=
  db.guestByPeer peerId = some guest ∧ guest.revokedAt = none

theorem access_of_admits {db : StateDb} {peerId : String} {guest : GuestNode}
    (h : db.Admits peerId guest) : db.access peerId = Access.guest := by
  rw [StateDb.access_of_guestByPeer h.left, h.right]
  rfl

/-- What a step of a connection's task makes of the connection: it keeps its place, and
becomes served as a guest by such a look-up only. -/
structure Conn.StepsTo (db : StateDb) (conn later : Conn) : Prop where
  becomes : conn.Becomes later
  admitted : forall guest, later.guest = some guest ->
    conn.guest = some guest ∨ db.Admits conn.peerId guest

theorem Conn.StepsTo.close (db : StateDb) (conn : Conn) : conn.StepsTo db conn.close where
  becomes := close_becomes conn
  admitted guest hguest := by cases hguest

/-- The task of a connection goes on to a phase without a guest, or with the same one. -/
theorem Conn.StepsTo.phase {db : StateDb} {conn : Conn} {phase : ConnPhase}
    (hguest : ({ conn with phase := phase } : Conn).guest = none ∨
      ({ conn with phase := phase } : Conn).guest = conn.guest) :
    conn.StepsTo db { conn with phase := phase } where
  becomes := ⟨rfl, id⟩
  admitted guest hlater := by
    cases hguest with
    | inl hnone =>
        rw [hnone] at hlater
        cases hlater
    | inr hsame => exact Or.inl (hsame.symm.trans hlater)

theorem Conn.StepsTo.serveUnlessRevoked {db : StateDb} {conn : Conn} {found : GuestNode}
    (hfound : db.guestByPeer conn.peerId = some found) :
    conn.StepsTo db (conn.serveUnlessRevoked found) where
  becomes := serveUnlessRevoked_becomes conn found
  admitted guest hguest := by
    rcases serveUnlessRevoked_guest hguest with ⟨rfl, hlive⟩
    exact Or.inr ⟨hfound, hlive⟩

theorem connStep_some {db : StateDb} {streams : List Stream} {c : Nat} {conn conn' : Conn}
    {a : ConnAction} (h : conn.step db streams c a = some conn') : conn.StepsTo db conn' := by
  cases a with
  | lookUp =>
      simp only [Conn.step] at h
      split at h
      · cases hfound : db.guestByPeer conn.peerId with
        | none =>
            simp only [hfound, Option.some.injEq] at h
            rw [← h]
            exact Conn.StepsTo.phase (Or.inl rfl)
        | some found =>
            simp only [hfound, Option.some.injEq] at h
            rw [← h]
            exact Conn.StepsTo.serveUnlessRevoked hfound
      · cases h
  | acceptActivation sid =>
      simp only [Conn.step] at h
      split at h
      · split at h
        · rw [← Option.some.inj h]
          exact Conn.StepsTo.phase (Or.inl rfl)
        · cases h
      · cases h
  | giveUpActivation =>
      simp only [Conn.step] at h
      split at h
      · rw [← Option.some.inj h]
        exact Conn.StepsTo.close db conn
      · cases h
  | lookUpAgain =>
      simp only [Conn.step] at h
      split at h
      · split at h
        · rw [← Option.some.inj h]
          exact Conn.StepsTo.close db conn
        · cases hfound : db.guestByPeer conn.peerId with
          | none =>
              simp only [hfound, Option.some.injEq] at h
              rw [← h]
              exact Conn.StepsTo.close db conn
          | some found =>
              simp only [hfound, Option.some.injEq] at h
              rw [← h]
              exact Conn.StepsTo.serveUnlessRevoked hfound
        · cases h
      · cases h
  | lookUpFails =>
      simp only [Conn.step] at h
      split at h
      · rw [← Option.some.inj h]
        exact Conn.StepsTo.close db conn
      · rw [← Option.some.inj h]
        exact Conn.StepsTo.close db conn
      · cases h
  | touch now =>
      simp only [Conn.step] at h
      split at h
      · rename_i found hphase
        rw [← Option.some.inj h]
        exact Conn.StepsTo.phase (Or.inr (by simp [Conn.guest, hphase]))
      · cases h
  | touchFails =>
      simp only [Conn.step] at h
      split at h
      · rename_i found hphase
        rw [← Option.some.inj h]
        exact Conn.StepsTo.phase (Or.inr (by simp [Conn.guest, hphase]))
      · cases h
  | register =>
      simp only [Conn.step] at h
      split at h
      · rename_i found hphase
        rw [← Option.some.inj h]
        exact Conn.StepsTo.phase (Or.inr (by simp [Conn.guest, hphase]))
      · cases h
  | disconnect =>
      simp only [Conn.step, Option.some.injEq] at h
      rw [← h]
      exact ⟨⟨rfl, fun _ => rfl⟩, fun guest hguest => Or.inl hguest⟩
  | unregister =>
      simp only [Conn.step] at h
      split at h
      · split at h
        · cases h
        · rw [← Option.some.inj h]
          exact Conn.StepsTo.close db conn
      · cases h

/-- Everything a step of a stream's handler can do. -/
inductive Stream.Moves (db : StateDb) (conn : Conn) (sid : Nat) (stream : Stream) :
    StreamAction -> Stream -> Prop where
  | accept {guest : GuestNode} (hopened : stream.phase = StreamPhase.opened)
      (hserving : conn.phase = ConnPhase.serving guest) :
      stream.Moves db conn sid StreamAction.accept
        { stream with phase := StreamPhase.handling (some guest.userId) }
  | acceptInline (hopened : stream.phase = StreamPhase.opened)
      (hactivating : conn.phase = ConnPhase.activatingOn sid) :
      stream.Moves db conn sid StreamAction.accept
        { stream with phase := StreamPhase.handling none }
  | dispatch {userId : Option String} (hhandling : stream.phase = StreamPhase.handling userId) :
      stream.Moves db conn sid StreamAction.dispatch
        { stream with phase := stream.dispatch userId }
  | postActivation {userId : Option String} {secret : InviteSecret} {now : DateTime}
      (hrouting : stream.phase = StreamPhase.routing userId) :
      stream.Moves db conn sid (StreamAction.postActivation secret now) stream
  | findGuest {userId : String} {guest : GuestNode}
      (hrouting : stream.phase = StreamPhase.routing (some userId))
      (hfound : db.guestByPeer conn.peerId = some guest) :
      stream.Moves db conn sid StreamAction.findGuest
        { stream with phase := StreamPhase.removing userId guest.number }
  | findNone {userId : String} (hrouting : stream.phase = StreamPhase.routing (some userId))
      (hnone : db.guestByPeer conn.peerId = none) :
      stream.Moves db conn sid StreamAction.findGuest stream
  | removeGuest {userId : String} {number : Int}
      (hremoving : stream.phase = StreamPhase.removing userId number) :
      stream.Moves db conn sid StreamAction.removeGuest
        { stream with phase := StreamPhase.routing (some userId) }
  | removeFails {userId : String} {number : Int}
      (hremoving : stream.phase = StreamPhase.removing userId number) :
      stream.Moves db conn sid StreamAction.removeFails
        { stream with phase := StreamPhase.routing (some userId) }
  | finish : stream.Moves db conn sid StreamAction.finish stream.stop

theorem streamStep_moves {db : StateDb} {conn : Conn} {sid : Nat} {stream stream' : Stream}
    {a : StreamAction} (h : stream.step db conn sid a = some stream') :
    stream.Moves db conn sid a stream' := by
  cases a with
  | accept =>
      simp only [Stream.step] at h
      split at h
      · rename_i guest hopened hserving
        rw [← Option.some.inj h]
        exact Stream.Moves.accept hopened hserving
      · rename_i sid' hopened hactivating
        split at h
        · rename_i hsid
          rw [hsid] at hactivating
          rw [← Option.some.inj h]
          exact Stream.Moves.acceptInline hopened hactivating
        · cases h
      · cases h
  | dispatch =>
      simp only [Stream.step] at h
      split at h
      · rename_i userId hhandling
        rw [← Option.some.inj h]
        exact Stream.Moves.dispatch hhandling
      · cases h
  | postActivation secret now =>
      simp only [Stream.step] at h
      split at h
      · rename_i userId hrouting
        rw [← Option.some.inj h]
        exact Stream.Moves.postActivation hrouting
      · cases h
  | findGuest =>
      simp only [Stream.step] at h
      split at h
      · rename_i userId hrouting
        cases hfound : db.guestByPeer conn.peerId with
        | none =>
            simp only [hfound, Option.some.injEq] at h
            rw [← h]
            exact Stream.Moves.findNone hrouting hfound
        | some guest =>
            simp only [hfound, Option.some.injEq] at h
            rw [← h]
            exact Stream.Moves.findGuest hrouting hfound
      · cases h
  | removeGuest =>
      simp only [Stream.step] at h
      split at h
      · rename_i userId number hremoving
        rw [← Option.some.inj h]
        exact Stream.Moves.removeGuest hremoving
      · cases h
  | removeFails =>
      simp only [Stream.step] at h
      split at h
      · rename_i userId number hremoving
        rw [← Option.some.inj h]
        exact Stream.Moves.removeFails hremoving
      · cases h
  | finish =>
      simp only [Stream.step] at h
      split at h
      · rw [← Option.some.inj h]
        exact Stream.Moves.finish
      · rw [← Option.some.inj h]
        exact Stream.Moves.finish
      · rw [← Option.some.inj h]
        exact Stream.Moves.finish
      · cases h

theorem dispatch_userId (stream : Stream) (userId : Option String) :
    ({ stream with phase := stream.dispatch userId } : Stream).userId = userId ∨
      ({ stream with phase := stream.dispatch userId } : Stream).userId = none := by
  unfold Stream.dispatch
  cases stream.first with
  | none => exact Or.inr rfl
  | some first =>
      cases first with
      | unknown raw => exact Or.inr rfl
      | typed t =>
          cases t with
          | ctrl => exact Or.inl rfl
          | reverseProxy => cases userId <;> exact Or.inl rfl
          | forwardProxy => cases userId <;> exact Or.inl rfl

theorem streamStep_some {db : StateDb} {conn : Conn} {sid : Nat} {stream stream' : Stream}
    {a : StreamAction} (h : stream.step db conn sid a = some stream') :
    stream.Becomes stream' ∧
      forall userId, stream'.userId = some userId ->
        stream.userId = some userId ∨
          exists guest, conn.guest = some guest ∧ userId = guest.userId := by
  cases streamStep_moves h with
  | @accept guest hopened hserving =>
      refine ⟨⟨rfl, rfl⟩, fun userId huser => Or.inr ⟨guest, ?_, ?_⟩⟩
      · rw [Conn.guest, hserving]
      · exact (Option.some.inj huser).symm
  | acceptInline hopened hactivating =>
      exact ⟨⟨rfl, rfl⟩, fun userId huser => by cases huser⟩
  | @dispatch found hhandling =>
      refine ⟨⟨rfl, rfl⟩, fun userId huser => Or.inl ?_⟩
      cases dispatch_userId stream found with
      | inl hsame => rw [← huser, hsame, Stream.userId, hhandling]
      | inr hnone =>
          rw [hnone] at huser
          cases huser
  | postActivation hrouting => exact ⟨Stream.Becomes.refl stream, fun _ huser => Or.inl huser⟩
  | findGuest hrouting hfound =>
      refine ⟨⟨rfl, rfl⟩, fun userId huser => Or.inl ?_⟩
      rw [← huser, Stream.userId, hrouting]
      rfl
  | findNone hrouting hnone => exact ⟨Stream.Becomes.refl stream, fun _ huser => Or.inl huser⟩
  | removeGuest hremoving =>
      refine ⟨⟨rfl, rfl⟩, fun userId huser => Or.inl ?_⟩
      rw [← huser, Stream.userId, hremoving]
      rfl
  | removeFails hremoving =>
      refine ⟨⟨rfl, rfl⟩, fun userId huser => Or.inl ?_⟩
      rw [← huser, Stream.userId, hremoving]
      rfl
  | finish => exact ⟨⟨rfl, rfl⟩, fun userId huser => by cases huser⟩

theorem dispatch_ne_removing (stream : Stream) (user : Option String) (userId : String)
    (number : Int) : stream.dispatch user ≠ StreamPhase.removing userId number := by
  intro h
  unfold Stream.dispatch at h
  cases hfirst : stream.first with
  | none =>
      rw [hfirst] at h
      cases h
  | some first =>
      rw [hfirst] at h
      cases first with
      | unknown raw => cases h
      | typed t => cases t <;> cases user <;> cases h

/-- `delete_guest` goes on to remove the number its look-up found for the peer. -/
theorem streamStep_removing {db : StateDb} {conn : Conn} {sid : Nat} {stream stream' : Stream}
    {a : StreamAction} (h : stream.step db conn sid a = some stream') {userId : String}
    {number : Int} (hremoving : stream'.phase = StreamPhase.removing userId number) :
    stream.phase = StreamPhase.removing userId number ∨ db.NumberOf number conn.peerId := by
  cases streamStep_moves h with
  | accept hopened hserving => cases hremoving
  | acceptInline hopened hactivating => cases hremoving
  | dispatch hhandling => exact absurd hremoving (dispatch_ne_removing stream _ userId number)
  | postActivation hrouting => exact Or.inl hremoving
  | findGuest hrouting hfound =>
      cases hremoving
      exact Or.inr (StateDb.numberOf_of_guestByPeer hfound)
  | findNone hrouting hnone => exact Or.inl hremoving
  | removeGuest hbefore => cases hremoving
  | removeFails hbefore => cases hremoving
  | finish => cases hremoving

/-!
## One step of the host
-/

theorem conns_grow {s t : HostState} {a : HostAction} (h : hostStep hashSecret s a = some t) :
    Grows Conn.Becomes s.conns t.conns := by
  cases a with
  | createInvite invite now =>
      cases h
      exact Grows.refl Conn.Becomes.refl _
  | connect peerId =>
      cases h
      exact grows_append Conn.Becomes.refl _ _
  | onConn c a =>
      rcases stepConn_some h with ⟨conn, conn', hconn, hstep, rfl⟩
      exact grows_set Conn.Becomes.refl hconn (connStep_some hstep).becomes
  | openStream c first =>
      rcases openStream_some h with ⟨conn, _, _, rfl⟩
      exact Grows.refl Conn.Becomes.refl _
  | onStream sid a =>
      rcases stepStream_some h with ⟨stream, conn, stream', _, _, _, rfl⟩
      exact Grows.refl Conn.Becomes.refl _
  | markRevoked number now =>
      rcases markRevoked_some h with ⟨_, rfl⟩ | ⟨_, rfl⟩
      · exact Grows.refl Conn.Becomes.refl _
      · exact Grows.refl Conn.Becomes.refl _
  | closeConnections number =>
      rw [closeConnections_some h]
      exact grows_map (told_becomes number) _
  | restart =>
      cases h
      exact grows_map close_becomes _

theorem streams_grow {s t : HostState} {a : HostAction} (h : hostStep hashSecret s a = some t) :
    Grows Stream.Becomes s.streams t.streams := by
  cases a with
  | createInvite invite now =>
      cases h
      exact Grows.refl Stream.Becomes.refl _
  | connect peerId =>
      cases h
      exact Grows.refl Stream.Becomes.refl _
  | onConn c a =>
      rcases stepConn_some h with ⟨conn, conn', _, _, rfl⟩
      exact Grows.refl Stream.Becomes.refl _
  | openStream c first =>
      rcases openStream_some h with ⟨conn, _, _, rfl⟩
      exact grows_append Stream.Becomes.refl _ _
  | onStream sid a =>
      rcases stepStream_some h with ⟨stream, conn, stream', hstream, _, hstep, rfl⟩
      exact grows_set Stream.Becomes.refl hstream (streamStep_some hstep).left
  | markRevoked number now =>
      rcases markRevoked_some h with ⟨_, rfl⟩ | ⟨_, rfl⟩
      · exact Grows.refl Stream.Becomes.refl _
      · exact Grows.refl Stream.Becomes.refl _
  | closeConnections number =>
      rw [closeConnections_some h]
      exact Grows.refl Stream.Becomes.refl _
  | restart =>
      cases h
      exact grows_map (fun stream => (⟨rfl, rfl⟩ : stream.Becomes stream.stop)) _

/-- All that a step can do to a connection. -/
theorem conns_cases {s t : HostState} {a : HostAction} (h : hostStep hashSecret s a = some t)
    {c : Nat} {conn' : Conn} (hconn' : t.conns[c]? = some conn') :
    (exists conn, s.conns[c]? = some conn ∧
      (conn' = conn ∨ (exists b, conn.step s.db s.streams c b = some conn') ∨
        (exists number, conn' = conn.told number) ∨ conn' = conn.close)) ∨
      conn'.phase = ConnPhase.accepted := by
  cases a with
  | createInvite invite now =>
      cases h
      exact Or.inl ⟨conn', hconn', Or.inl rfl⟩
  | connect peerId =>
      cases h
      rcases slot_append_eq_some_iff.mp hconn' with hold | ⟨_, rfl⟩
      · exact Or.inl ⟨conn', hold, Or.inl rfl⟩
      · exact Or.inr rfl
  | onConn c' a =>
      rcases stepConn_some h with ⟨conn, next, hconn, hstep, rfl⟩
      rcases (slot_set_eq_some_iff hconn).mp hconn' with ⟨rfl, rfl⟩ | ⟨_, hold⟩
      · exact Or.inl ⟨conn, hconn, Or.inr (Or.inl ⟨a, hstep⟩)⟩
      · exact Or.inl ⟨conn', hold, Or.inl rfl⟩
  | openStream c' first =>
      rcases openStream_some h with ⟨conn, _, _, rfl⟩
      exact Or.inl ⟨conn', hconn', Or.inl rfl⟩
  | onStream sid a =>
      rcases stepStream_some h with ⟨stream, conn, stream', _, _, _, rfl⟩
      exact Or.inl ⟨conn', hconn', Or.inl rfl⟩
  | markRevoked number now =>
      rcases markRevoked_some h with ⟨_, rfl⟩ | ⟨_, rfl⟩
      · exact Or.inl ⟨conn', hconn', Or.inl rfl⟩
      · exact Or.inl ⟨conn', hconn', Or.inl rfl⟩
  | closeConnections number =>
      rw [closeConnections_some h] at hconn'
      rcases slot_map_eq_some hconn' with ⟨conn, hconn, rfl⟩
      exact Or.inl ⟨conn, hconn, Or.inr (Or.inr (Or.inl ⟨number, rfl⟩))⟩
  | restart =>
      cases h
      rcases slot_map_eq_some hconn' with ⟨conn, hconn, rfl⟩
      exact Or.inl ⟨conn, hconn, Or.inr (Or.inr (Or.inr rfl))⟩

/-- All that a step can do to a stream. -/
theorem streams_cases {s t : HostState} {a : HostAction} (h : hostStep hashSecret s a = some t)
    {sid : Nat} {stream' : Stream} (hstream' : t.streams[sid]? = some stream') :
    (exists stream, s.streams[sid]? = some stream ∧
      (stream' = stream ∨ stream' = stream.stop ∨
        exists conn b, s.conns[stream.conn]? = some conn ∧
          stream.step s.db conn sid b = some stream')) ∨
      (s.streams[sid]? = none ∧ stream'.phase = StreamPhase.opened ∧
        exists conn, s.conns[stream'.conn]? = some conn ∧ conn.isOpen = true) := by
  cases a with
  | createInvite invite now =>
      cases h
      exact Or.inl ⟨stream', hstream', Or.inl rfl⟩
  | connect peerId =>
      cases h
      exact Or.inl ⟨stream', hstream', Or.inl rfl⟩
  | onConn c a =>
      rcases stepConn_some h with ⟨conn, conn', _, _, rfl⟩
      exact Or.inl ⟨stream', hstream', Or.inl rfl⟩
  | openStream c first =>
      rcases openStream_some h with ⟨conn, hconn, hopen, rfl⟩
      rcases slot_append_eq_some_iff.mp hstream' with hold | ⟨hsid, rfl⟩
      · exact Or.inl ⟨stream', hold, Or.inl rfl⟩
      · exact Or.inr ⟨by simp [hsid], rfl, conn, hconn, hopen⟩
  | onStream sid' a =>
      rcases stepStream_some h with ⟨stream, conn, next, hstream, hconn, hstep, rfl⟩
      rcases (slot_set_eq_some_iff hstream).mp hstream' with ⟨rfl, rfl⟩ | ⟨_, hold⟩
      · exact Or.inl ⟨stream, hstream, Or.inr (Or.inr ⟨conn, a, hconn, hstep⟩)⟩
      · exact Or.inl ⟨stream', hold, Or.inl rfl⟩
  | markRevoked number now =>
      rcases markRevoked_some h with ⟨_, rfl⟩ | ⟨_, rfl⟩
      · exact Or.inl ⟨stream', hstream', Or.inl rfl⟩
      · exact Or.inl ⟨stream', hstream', Or.inl rfl⟩
  | closeConnections number =>
      rw [closeConnections_some h] at hstream'
      exact Or.inl ⟨stream', hstream', Or.inl rfl⟩
  | restart =>
      cases h
      rcases slot_map_eq_some hstream' with ⟨stream, hstream, rfl⟩
      exact Or.inl ⟨stream, hstream, Or.inr (Or.inl rfl)⟩

/-- A connection served as a guest was so before, or its peer is a guest right now. -/
theorem admitted_hostStep {s t : HostState} {a : HostAction}
    (h : hostStep hashSecret s a = some t) {c : Nat} {conn' : Conn} {guest : GuestNode}
    (hconn' : t.conns[c]? = some conn') (hguest : conn'.guest = some guest) :
    (exists conn, s.conns[c]? = some conn ∧ conn'.peerId = conn.peerId ∧
      conn.guest = some guest) ∨
      s.db.access conn'.peerId = Access.guest := by
  rcases conns_cases h hconn' with
    ⟨conn, hconn, rfl | ⟨b, hstep⟩ | ⟨number, rfl⟩ | rfl⟩ | haccepted
  · exact Or.inl ⟨conn', hconn, rfl, hguest⟩
  · rcases connStep_some hstep with ⟨hbecomes, hadmits⟩
    rcases hadmits guest hguest with hbefore | hnow
    · exact Or.inl ⟨conn, hconn, hbecomes.left, hbefore⟩
    · rw [hbecomes.left]
      exact Or.inr (access_of_admits hnow)
  · exact Or.inl ⟨conn, hconn, (told_becomes number conn).left, by rw [← hguest, told_guest]⟩
  · cases hguest
  · rw [Conn.guest, haccepted] at hguest
    cases hguest

/-- A handler that acts for a user did so before, or just accepted its stream on a
connection served as a guest. -/
theorem handled_hostStep {s t : HostState} {a : HostAction}
    (h : hostStep hashSecret s a = some t) {sid : Nat} {stream' : Stream} {userId : String}
    (hstream' : t.streams[sid]? = some stream') (huser : stream'.userId = some userId) :
    exists stream, s.streams[sid]? = some stream ∧ stream'.conn = stream.conn ∧
      (stream.userId = some userId ∨
        exists conn guest, s.conns[stream.conn]? = some conn ∧ conn.guest = some guest) := by
  rcases streams_cases h hstream' with
    ⟨stream, hstream, rfl | rfl | ⟨conn, b, hconn, hstep⟩⟩ | ⟨_, hopened, _⟩
  · exact ⟨stream', hstream, rfl, Or.inl huser⟩
  · cases huser
  · rcases streamStep_some hstep with ⟨hbecomes, hhandled⟩
    refine ⟨stream, hstream, hbecomes.left, ?_⟩
    rcases hhandled userId huser with hbefore | ⟨guest, hguest, _⟩
    · exact Or.inl hbefore
    · exact Or.inr ⟨conn, guest, hconn, hguest⟩
  · rw [Stream.userId, hopened] at huser
    cases huser

/-- A stream that was not there is opened on a connection that is open. -/
theorem opened_hostStep {s t : HostState} {a : HostAction}
    (h : hostStep hashSecret s a = some t) {sid : Nat} {stream' : Stream}
    (hnew : s.streams[sid]? = none) (hstream' : t.streams[sid]? = some stream') :
    exists conn, s.conns[stream'.conn]? = some conn ∧ conn.isOpen = true := by
  rcases streams_cases h hstream' with ⟨stream, hstream, _⟩ | ⟨_, _, hopen⟩
  · rw [hnew] at hstream
    cases hstream
  · exact hopen

/-- A `delete_guest` that is about to remove a number was so before, or just found
the number of its peer. -/
theorem removing_hostStep {s t : HostState} {a : HostAction}
    (h : hostStep hashSecret s a = some t) {sid : Nat} {stream' : Stream} {userId : String}
    {number : Int} (hstream' : t.streams[sid]? = some stream')
    (hremoving : stream'.phase = StreamPhase.removing userId number) :
    exists stream, s.streams[sid]? = some stream ∧ stream'.conn = stream.conn ∧
      (stream.phase = StreamPhase.removing userId number ∨
        exists conn, s.conns[stream.conn]? = some conn ∧ s.db.NumberOf number conn.peerId) := by
  rcases streams_cases h hstream' with
    ⟨stream, hstream, rfl | rfl | ⟨conn, b, hconn, hstep⟩⟩ | ⟨_, hopened, _⟩
  · exact ⟨stream', hstream, rfl, Or.inl hremoving⟩
  · cases hremoving
  · refine ⟨stream, hstream, (streamStep_some hstep).left.left, ?_⟩
    rcases streamStep_removing hstep hremoving with hbefore | hfound
    · exact Or.inl hbefore
    · exact Or.inr ⟨conn, hconn, hfound⟩
  · rw [hopened] at hremoving
    cases hremoving

end

/-!
## A guest joins
-/

/-- `peerId` connects as connection `c`, and activates on stream `sid`. -/
def joins (c sid : Nat) (peerId : String) (secret : InviteSecret) : List HostAction :=
  [HostAction.connect peerId,
    HostAction.onConn c ConnAction.lookUp,
    HostAction.openStream c (some (FirstByte.typed Wire.StreamType.ctrl)),
    HostAction.onConn c (ConnAction.acceptActivation sid),
    HostAction.onStream sid StreamAction.accept,
    HostAction.onStream sid StreamAction.dispatch,
    HostAction.onStream sid (StreamAction.postActivation secret ⟨1001, 0⟩),
    HostAction.onStream sid StreamAction.finish,
    HostAction.onConn c ConnAction.lookUpAgain]

/-- Two invites, the first of them redeemed by `peer-a`, which is about to be served. -/
def aliceJoins : List HostAction :=
  [HostAction.createInvite ⟨repeatedSecret 1, "alice", "phone", ⟨87400, 0⟩⟩ ⟨1000, 0⟩,
    HostAction.createInvite ⟨repeatedSecret 2, "alice", "tablet", ⟨87400, 0⟩⟩ ⟨1000, 0⟩] ++
    joins 0 0 "peer-a" (repeatedSecret 1)

/-- The host registers connection `c`. -/
def registers (c : Nat) : List HostAction :=
  [HostAction.onConn c (ConnAction.touch ⟨1002, 0⟩), HostAction.onConn c ConnAction.register]

/-- `peer-a` opens stream `sid` on connection `c`, and the host dispatches it. -/
def opens (c sid : Nat) (t : Wire.StreamType) : List HostAction :=
  [HostAction.openStream c (some (FirstByte.typed t)),
    HostAction.onStream sid StreamAction.accept,
    HostAction.onStream sid StreamAction.dispatch]

/-- The state a list of actions leads to from a fresh host. -/
def hostAfter (acts : List HostAction) : HostState :=
  (exec (hostStep doubledSecret) HostState.init acts).getD HostState.init

example : (hostAfter (aliceJoins ++ registers 0)).conns.map Conn.registeredUnder =
    [some 1] := by
  decide

end Host
end WispersAccess
