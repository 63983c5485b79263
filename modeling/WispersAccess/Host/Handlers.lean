import WispersAccess.Host.Protocol
import WispersAccess.Host.Serving

/-!
# The handlers as the serving system runs them

The serving system keeps of a stream's handler only where it stands and what it
does to the state database.  Here its steps are compared with the handlers
themselves: the dispatch, the redemption of `post_activation`, and the two
accesses of `delete_guest`.
-/

namespace WispersAccess
namespace Host

open Foundation
open Wire (FirstByte StreamType Plane readMessage)

/-!
## The dispatch
-/

/-- The stream the serving system runs for this input. -/
def Stream.Carries (stream : Stream) (input : StreamInput) : Prop :=
  exists rest, readStreamType input = Except.ok (stream.first, rest)

theorem dispatch_refused_iff {stream : Stream} {userId : Option String} :
    stream.dispatch userId = StreamPhase.refused <->
      dataPlane stream.first = true ∧ userId = none := by
  unfold Stream.dispatch
  cases stream.first with
  | none => simp [dataPlane]
  | some first =>
      cases first with
      | unknown raw => simp [dataPlane]
      | typed t =>
          cases t with
          | ctrl => simp [dataPlane, StreamType.plane]
          | reverseProxy => cases userId <;> simp [dataPlane, StreamType.plane]
          | forwardProxy => cases userId <;> simp [dataPlane, StreamType.plane]

/-- The serving system refuses the streams that the handler refuses. -/
theorem dispatch_refuses {w : World} {ctx : StreamContext} {peer : Peer} {db : StateDb}
    {input : StreamInput} {stream : Stream} (hcarries : stream.Carries input)
    (hrefused : stream.dispatch peer.userId = StreamPhase.refused) :
    (handle w ctx peer db input).outcome = Except.ok StreamOutcome.refused := by
  rcases hcarries with ⟨rest, hread⟩
  rcases dispatch_refused_iff.mp hrefused with ⟨hdata, huser⟩
  have hstranger : peer.isAuthorized = false := by
    simp [Peer.isAuthorized, huser]
  simp [handle, hread, hdata, hstranger, Handled.silent]

/-- A handler that dials anyone runs on a stream that the serving system proxies. -/
theorem dispatch_proxied {w : World} {ctx : StreamContext} {peer : Peer} {db : StateDb}
    {input : StreamInput} {stream : Stream} (hcarries : stream.Carries input) {addr : String}
    (hdial : addr ∈ (handle w ctx peer db input).dials) :
    exists userId, stream.dispatch peer.userId = StreamPhase.proxied userId := by
  rcases hcarries with ⟨rest, hread⟩
  have hsilent : forall outcome unread, addr ∉ (Handled.silent outcome unread db).dials := by
    intro outcome unread h
    cases h
  simp only [handle, hread] at hdial
  split at hdial
  · exact absurd hdial (hsilent _ _)
  · rename_i hallowed
    unfold dispatch at hdial
    split at hdial
    · cases hdial
    · rename_i hfirst
      cases huser : peer.userId with
      | none =>
          rw [huser] at hdial
          exact absurd hdial (hsilent _ _)
      | some userId => exact ⟨userId, by simp [Stream.dispatch, hfirst, StreamType.plane]⟩
    · rename_i hfirst
      cases huser : peer.userId with
      | none =>
          rw [huser] at hdial
          exact absurd hdial (hsilent _ _)
      | some userId => exact ⟨userId, by simp [Stream.dispatch, hfirst, StreamType.plane]⟩
    · exact absurd hdial (hsilent _ _)
    · exact absurd hdial (hsilent _ _)

/-!
## The requests
-/

/-- An activation leaves the database as it found it, or makes the one access of the
serving system's step. -/
theorem postActivation_performs (w : World) (ctx : StreamContext) (peerId : String)
    (req : Request) (s : ApiState) (stream : Stream) :
    (postActivation w ctx peerId req s).2.db = s.db ∨
      exists db secret, w.access s.accesses s.db = some db ∧
        (postActivation w ctx peerId req s).2.db =
          db.perform w.hashSecret
            ((StreamAction.postActivation secret (w.clock s.accesses)).storageOp peerId
              stream) := by
  unfold postActivation
  cases req.body with
  | none => exact Or.inl rfl
  | some body =>
      by_cases hlong : maxActivationBody < body.length
      · left
        simp only [if_pos hlong]
      · simp only [if_neg hlong]
        cases w.codecs.activation body with
        | none => exact Or.inl rfl
        | some secret =>
            cases haccess : w.access s.accesses s.db with
            | none => exact Or.inl rfl
            | some db =>
                right
                refine ⟨db, secret, rfl, ?_⟩
                simp only [StreamAction.storageOp, StateDb.perform, StateDb.apply]
                rcases db.redeemInvite w.hashSecret secret peerId (w.clock s.accesses) with
                  ⟨result, db'⟩
                cases result with
                | error e => rfl
                | ok redemption => cases redemption <;> rfl

/-- A removal is the second of two accesses, and takes the number that the first one found
for the peer. -/
theorem deleteGuest_performs (w : World) (peerId : String) (s : ApiState) (conn : Nat)
    (userId : String) :
    (deleteGuest w peerId s).2.db = s.db ∨
      (exists db, w.access s.accesses s.db = some db ∧
        (deleteGuest w peerId s).2.db = db) ∨
      exists db guest db', w.access s.accesses s.db = some db ∧
        db.guestByPeer peerId = some guest ∧ w.access (s.accesses + 1) db = some db' ∧
        (deleteGuest w peerId s).2.db =
          db'.perform w.hashSecret
            (StreamAction.removeGuest.storageOp peerId
              { conn := conn
                first := some (FirstByte.typed StreamType.ctrl)
                phase := StreamPhase.removing userId guest.number }) := by
  unfold deleteGuest
  cases haccess : w.access s.accesses s.db with
  | none => exact Or.inl rfl
  | some db =>
      right
      cases hguest : db.guestByPeer peerId with
      | none => exact Or.inl ⟨db, rfl, by simp [hguest]⟩
      | some guest =>
          cases haccess' : w.access (s.accesses + 1) db with
          | none => exact Or.inl ⟨db, rfl, by simp [hguest, haccess']⟩
          | some db' =>
              right
              refine ⟨db, guest, db', rfl, hguest, haccess', ?_⟩
              simp only [hguest, haccess', StreamAction.storageOp, StateDb.perform,
                StateDb.apply]
              rcases db'.removeGuest guest.number with ⟨result, db''⟩
              cases result <;> rfl

end Host
end WispersAccess
