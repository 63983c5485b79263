import WispersAccess.Host.Protocol

/-!
# What a peer that is not a guest gets

An unauthorised peer is answered without a look at the share: until it redeems
an invite, two hosts that differ in what they serve answer it alike.  Its
data-plane streams are refused at the type byte.
-/

namespace WispersAccess
namespace Host

open Foundation
open Wire (FirstByte StreamType Plane)

/-!
## The guest API
-/

/-- An activation is answered without the share, or it redeems an invite. -/
theorem postActivation_cases (w : World) (peerId : String) (req : Request) (s : ApiState) :
    (exists answer : Response × ApiState, answer.2.activated = s.activated ∧
      forall ctx, postActivation w ctx peerId req s = answer) ∨
    (forall ctx, (postActivation w ctx peerId req s).2.activated = true) := by
  unfold postActivation
  cases req.body with
  | none => exact Or.inl ⟨_, rfl, fun _ => rfl⟩
  | some body =>
      by_cases hlong : maxActivationBody < body.length
      · simp only [if_pos hlong]
        exact Or.inl ⟨_, rfl, fun _ => rfl⟩
      · simp only [if_neg hlong]
        cases w.codecs.activation body with
        | none => exact Or.inl ⟨_, rfl, fun _ => rfl⟩
        | some secret =>
            cases w.access s.accesses s.db with
            | none => exact Or.inl ⟨_, rfl, fun _ => rfl⟩
            | some db =>
                simp only
                rcases db.redeemInvite w.hashSecret secret peerId (w.clock s.accesses) with
                  ⟨result, db'⟩
                cases result with
                | error e => exact Or.inl ⟨_, rfl, fun _ => rfl⟩
                | ok redemption =>
                    cases redemption with
                    | refused why => exact Or.inl ⟨_, rfl, fun _ => rfl⟩
                    | activated guest => exact Or.inr fun _ => rfl

/-- The same holds of every request of an unauthorised peer. -/
theorem route_cases (w : World) {peer : Peer} (hpeer : peer.userId = none) (s : ApiState)
    (req : Request) :
    (exists answer : (Response × Bool) × ApiState, answer.2.activated = s.activated ∧
      forall ctx, route w ctx peer s req = answer) ∨
    (forall ctx, (route w ctx peer s req).2.activated = true) := by
  have hstranger : peer.isAuthorized = false := by
    simp [Peer.isAuthorized, hpeer]
  unfold route
  by_cases hold : clientTooOld req.clientVersion = true
  · simp only [if_pos hold]
    exact Or.inl ⟨_, rfl, fun _ => rfl⟩
  · simp only [if_neg hold]
    by_cases hpath : req.path = Wire.activationPath
    · have hshare : ¬ (req.method = "GET" ∧ req.path = Wire.sharePath) := by
        rw [hpath]
        exact fun h => absurd h.right (by decide)
      have hevents : ¬ (req.method = "GET" ∧ req.path = Wire.eventsPath) := by
        rw [hpath]
        exact fun h => absurd h.right (by decide)
      have hguest : ¬ (req.method = "DELETE" ∧ req.path = Wire.guestPath) := by
        rw [hpath]
        exact fun h => absurd h.right (by decide)
      simp only [hpath, or_true, not_true_eq_false, if_false]
      simp only [hpath] at hshare hevents hguest
      simp only [if_neg hshare, if_neg hevents, if_neg hguest]
      by_cases hpost : req.method = "POST"
      · simp only [hpost, true_and, if_true]
        cases postActivation_cases w peer.peerId req s with
        | inl h =>
            rcases h with ⟨answer, hactivated, hanswer⟩
            simp only [hanswer]
            exact Or.inl ⟨_, hactivated, fun _ => rfl⟩
        | inr h => exact Or.inr h
      · simp only [hpost, false_and, if_false]
        exact Or.inl ⟨_, rfl, fun _ => rfl⟩
    · have hdenied : ¬ (peer.isAuthorized = true ∨ req.path = Wire.activationPath) := by
        simp [hstranger, hpath]
      simp only [if_pos hdenied]
      exact Or.inl ⟨_, rfl, fun _ => rfl⟩

/-- As long as nothing is redeemed, a stream of requests is served alike. -/
theorem serveApi_congr (w : World) (ctx ctx' : StreamContext) {peer : Peer}
    (hpeer : peer.userId = none) (db : StateDb) (input : StreamInput)
    (hend : (serveApi w ctx peer db input).state.activated = false) :
    serveApi w ctx peer db input = serveApi w ctx' peer db input := by
  unfold serveApi at hend ⊢
  apply Server.run_congr (I := fun s : ApiState => s.activated = false) _ _ _ _ _ hend
  · intro s req h
    cases route_cases w hpeer s req with
    | inl hsame =>
        rcases hsame with ⟨answer, hactivated, hanswer⟩
        rw [hanswer, hactivated] at h
        exact h
    | inr hredeemed =>
        rw [hredeemed] at h
        cases h
  · intro s req h
    cases route_cases w hpeer s req with
    | inl hsame =>
        rcases hsame with ⟨answer, _, hanswer⟩
        rw [hanswer, hanswer]
    | inr hredeemed =>
        rw [hredeemed] at h
        cases h

/-!
## Streams
-/

/-- A data-plane stream is refused at its type byte. -/
theorem handle_dataPlane {w : World} {ctx : StreamContext} {peer : Peer} {db : StateDb}
    {input : StreamInput} {t : StreamType} {rest : List UInt8}
    (hbytes : input.bytes = t.byte :: rest) (ht : t.plane = Plane.data)
    (hpeer : peer.userId = none) :
    handle w ctx peer db input =
      Handled.silent (Except.ok StreamOutcome.refused) rest db := by
  have hstranger : peer.isAuthorized = false := by
    simp [Peer.isAuthorized, hpeer]
  simp [handle, readStreamType, hbytes, Wire.firstByte_ofByte_byte, dataPlane, ht, hstranger]

/-- A stream of an unauthorised peer is a CTRL stream, or it is left without a word. -/
theorem handle_stranger (w : World) {peer : Peer} (hpeer : peer.userId = none) (db : StateDb)
    (input : StreamInput) :
    (exists rest, input.bytes = StreamType.ctrl.byte :: rest ∧ forall ctx,
      handle w ctx peer db input =
        dispatch w ctx peer db (some (FirstByte.typed StreamType.ctrl))
          { input with bytes := rest }) ∨
    (exists outcome unread, forall ctx,
      handle w ctx peer db input = Handled.silent outcome unread db) := by
  have hstranger : peer.isAuthorized = false := by
    simp [Peer.isAuthorized, hpeer]
  cases hbytes : input.bytes with
  | nil =>
      right
      unfold handle readStreamType
      rw [hbytes]
      cases input.ended with
      | fin => exact ⟨_, _, fun _ => rfl⟩
      | reset => exact ⟨_, _, fun _ => rfl⟩
  | cons b rest =>
      cases hfirst : FirstByte.ofByte b with
      | unknown raw =>
          right
          refine ⟨Except.ok StreamOutcome.served, rest, ?_⟩
          intro ctx
          simp [handle, readStreamType, hbytes, hfirst, dataPlane, dispatch]
      | typed t =>
          have hb : b = t.byte := Wire.firstByte_typed hfirst
          cases ht : t.plane with
          | data =>
              right
              refine ⟨Except.ok StreamOutcome.refused, rest, ?_⟩
              intro ctx
              exact handle_dataPlane (by rw [hbytes, hb]) ht hpeer
          | control =>
              have hctrl : t = StreamType.ctrl := by
                cases t with
                | ctrl => rfl
                | reverseProxy => cases ht
                | forwardProxy => cases ht
              left
              refine ⟨rest, by rw [hb, hctrl], ?_⟩
              intro ctx
              simp [handle, readStreamType, hbytes, hfirst, hctrl, dataPlane, StreamType.plane]

/-- Nothing about the share leaks to a peer that is not a guest: whatever it sends, unless
it redeems an invite, two hosts with different shares answer with the same bytes and the
same outcome.  Nobody is dialled for it, and its data-plane streams are not read past
their type byte. -/
theorem strangers_learn_nothing (w : World) (ctx ctx' : StreamContext) (peer : Peer)
    (db : StateDb) (input : StreamInput) (hpeer : peer.userId = none) :
    ((handle w ctx peer db input).activated = false ->
      (handle w ctx peer db input).written = (handle w ctx' peer db input).written ∧
      (handle w ctx peer db input).outcome = (handle w ctx' peer db input).outcome) ∧
    (handle w ctx peer db input).dials = [] ∧
    (forall t rest, input.bytes = StreamType.byte t :: rest -> t.plane = Plane.data ->
      (handle w ctx peer db input).outcome = Except.ok StreamOutcome.refused ∧
      (handle w ctx peer db input).written = [] ∧
      (handle w ctx peer db input).unread = rest) := by
  refine ⟨?_, ?_, ?_⟩
  · intro hend
    cases handle_stranger w hpeer db input with
    | inl hctrl =>
        rcases hctrl with ⟨rest, _, hhandle⟩
        rw [hhandle ctx] at hend
        rw [hhandle ctx, hhandle ctx']
        have hserved := serveApi_congr w ctx ctx' hpeer db { input with bytes := rest } hend
        exact ⟨congrArg Served.written hserved, rfl⟩
    | inr hsilent =>
        rcases hsilent with ⟨outcome, unread, hhandle⟩
        rw [hhandle ctx, hhandle ctx']
        exact ⟨rfl, rfl⟩
  · cases handle_stranger w hpeer db input with
    | inl hctrl =>
        rcases hctrl with ⟨rest, _, hhandle⟩
        rw [hhandle ctx]
        rfl
    | inr hsilent =>
        rcases hsilent with ⟨outcome, unread, hhandle⟩
        rw [hhandle ctx]
        rfl
  · intro t rest hbytes ht
    rw [handle_dataPlane hbytes ht hpeer]
    exact ⟨rfl, rfl, rfl⟩

/-- A stranger whose CTRL stream ends before its first request, and one that opens a
REVERSE_PROXY stream, at a share and at another one. -/
theorem strangers_learn_nothing_at_the_door :
    let mallory : Peer := { peerId := "mallory", userId := none }
    let share : StreamContext :=
      { config := { name := "Family", apps := [], caCertificates := [] }
        transport := TransportKind.iroh }
    let other : StreamContext :=
      { config := { name := "Dev", apps := [], caCertificates := ["pem"] }
        transport := TransportKind.iroh }
    let ctrl : StreamInput := { bytes := [StreamType.ctrl.byte], ended := StreamEnd.fin }
    let proxy : StreamInput :=
      { bytes := [StreamType.reverseProxy.byte, 0, 0], ended := StreamEnd.fin }
    mallory.userId = none ∧
    ((handle World.quiet share mallory StateDb.fresh ctrl).written =
        (handle World.quiet other mallory StateDb.fresh ctrl).written ∧
      (handle World.quiet share mallory StateDb.fresh ctrl).outcome =
        (handle World.quiet other mallory StateDb.fresh ctrl).outcome) ∧
    (handle World.quiet share mallory StateDb.fresh proxy).dials = [] ∧
    (handle World.quiet share mallory StateDb.fresh proxy).outcome =
        Except.ok StreamOutcome.refused ∧
      (handle World.quiet share mallory StateDb.fresh proxy).written = [] ∧
      (handle World.quiet share mallory StateDb.fresh proxy).unread = [0, 0] := by
  intro mallory share other ctrl proxy
  have hctrl := strangers_learn_nothing World.quiet share other mallory StateDb.fresh ctrl rfl
  have hproxy := strangers_learn_nothing World.quiet share other mallory StateDb.fresh proxy rfl
  exact ⟨rfl, hctrl.left rfl, hproxy.right.left,
    hproxy.right.right StreamType.reverseProxy [0, 0] rfl rfl⟩

end Host
end WispersAccess
