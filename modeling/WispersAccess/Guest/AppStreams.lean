import WispersAccess.Foundation.Tickets
import WispersAccess.Guest.AppRequests
import WispersAccess.Guest.NamedShares

/-!
# What goes down the reverse-proxy streams

A stream that a request goes down was opened for that request alone.  It is a
stream to the app that the request's host names, at the host of a share that had
the name, and the request was let in before.
-/

namespace WispersAccess
namespace Guest

open Foundation
open Wire (utf8)

/-!
## What a step of a request does
-/

/-- A request that is answered, dropped or served. -/
def AppPhase.ended : AppPhase -> Bool
  | relayed _ => true
  | answered _ => true
  | dropped => true
  | _ => false

section
variable (text : JsonText) (slug : Slugify) (s : Client) (i : Nat) (c : AppCall)

/-- Everything that a step of a request can do, to itself, to the client and to the streams. -/
inductive AppEffect : AppPhase -> Client -> List StreamRequest -> Prop where
  | restoring {share app : String} {order : SerialTable.QueryOrder ShareRow} {row : Int}
      {r : ShareRow} (hphase : c.phase = AppPhase.admitted share app)
      (hfind : s.db.findRow order share = some (row, r)) :
      AppEffect (AppPhase.restoring share app s.restores.length)
        { s with restores := s.restores ++ [⟨row, RestorePhase.found⟩] } []
  | opening {share app : String} {restore node : Nat} {d : RestoreCall}
      (hphase : c.phase = AppPhase.restoring share app restore)
      (hd : s.restores[restore]? = some d)
      (hlive : d.phase = RestorePhase.returned (some (Lookup.live node)))
      (hnode : node < s.nodes.length) :
      AppEffect (AppPhase.opening app s.calls.length)
        { s with calls := s.calls ++
          [⟨node, NodeTask.openReverseProxyStream app, NodePhase.gated⟩] } []
  | connected {app : String} {call : Nat} (hphase : c.phase = AppPhase.opening app call) :
      AppEffect (AppPhase.connected call) s []
  | sent {call : Nat} (hphase : c.phase = AppPhase.connected call) :
      AppEffect (AppPhase.sent call) s [⟨i, call, rewriteHeaders c.headers⟩]
  | refreshing {node : Nat} (phase : AppPhase) (hrunning : c.phase.ended = false)
      (hended : phase.ended = true) (hnode : node < s.nodes.length) :
      AppEffect phase { s with calls := s.calls ++ [⟨node, NodeTask.refresh, NodePhase.gated⟩] } []
  | ended (phase : AppPhase) (hrunning : c.phase.ended = false) (hended : phase.ended = true) :
      AppEffect phase s []

end

section
variable {text : JsonText} {slug : Slugify}

/-- A response is delivered by a request that has ended then. -/
theorem AppPorts.deliver_eq (s : AppPorts) (i : Nat) (c : AppCall) (resp : HttpResponse) :
    exists phase, phase.ended = true ∧ s.deliver i c resp = s.move i c phase := by
  unfold AppPorts.deliver
  simp only
  split
  · exact ⟨_, rfl, rfl⟩
  · exact ⟨_, rfl, rfl⟩

theorem AppEffect.of_ended {s : Client} {i : Nat} {c : AppCall} {phase phase' : AppPhase}
    (hphase : c.phase = phase) (hrunning : phase.ended = false) (hended : phase'.ended = true) :
    AppEffect s i c phase' s [] :=
  AppEffect.ended phase' (by rw [hphase]; exact hrunning) hended

theorem appEvent_effect {s t : AppPorts} {i : Nat} {c : AppCall} {event : AppEvent}
    (h : appEvent text slug s i c event = some t) : exists phase client added,
      t = { s.move i c phase with client := client, sent := s.sent ++ added } ∧
        AppEffect s.client i c phase client added := by
  have hsame : forall phase, AppEffect s.client i c phase s.client [] ->
      t = s.move i c phase -> exists phase client added,
        t = { s.move i c phase with client := client, sent := s.sent ++ added } ∧
          AppEffect s.client i c phase client added := by
    intro phase heffect heq
    refine ⟨phase, s.client, [], ?_, heffect⟩
    rw [heq, List.append_nil]
    rfl
  cases event with
  | restoreGuestNode order =>
      simp only [appEvent] at h
      split at h
      · rename_i share app hphase
        split at h
        · cases h
          exact hsame _ (AppEffect.of_ended hphase rfl rfl) rfl
        · rename_i found hfind
          rcases Option.map_eq_some_iff.mp h with ⟨client, hstep, rfl⟩
          simp only [clientStep, hfind] at hstep
          cases hstep
          exact ⟨_, _, [], by rw [List.append_nil]; rfl, AppEffect.restoring hphase hfind⟩
      · cases h
  | restored =>
      simp only [appEvent] at h
      split at h
      · rename_i share app restore hphase
        split at h
        · rename_i row node hd
          rcases Option.map_eq_some_iff.mp h with ⟨client, hstep, rfl⟩
          simp only [clientStep] at hstep
          split at hstep
          · rename_i hnode
            cases hstep
            exact ⟨_, _, [], by rw [List.append_nil]; rfl,
              AppEffect.opening hphase hd rfl hnode⟩
          · cases hstep
        · cases h
          exact hsame _ (AppEffect.of_ended hphase rfl rfl) rfl
        · cases h
          exact hsame _ (AppEffect.of_ended hphase rfl rfl) rfl
        · cases h
          exact hsame _ (AppEffect.of_ended hphase rfl rfl) rfl
        · cases h
      · cases h
  | opened written =>
      simp only [appEvent] at h
      split at h
      · rename_i app call hphase
        split at h
        · split at h
          · cases h
            exact hsame _ (AppEffect.connected hphase) rfl
          · cases h
            exact hsame _ (AppEffect.of_ended hphase rfl rfl) rfl
        · cases h
          exact hsame _ (AppEffect.of_ended hphase rfl rfl) rfl
        · cases h
          exact hsame _ (AppEffect.of_ended hphase rfl rfl) rfl
        · cases h
      · cases h
  | handshakeFails =>
      simp only [appEvent] at h
      split at h
      · rename_i call hphase
        cases h
        exact hsame _ (AppEffect.of_ended hphase rfl rfl) rfl
      · cases h
  | sendRequest =>
      simp only [appEvent] at h
      split at h
      · rename_i call hphase
        cases h
        exact ⟨_, _, _, rfl, AppEffect.sent hphase⟩
      · cases h
  | sendFails =>
      simp only [appEvent] at h
      split at h
      · rename_i call hphase
        cases h
        exact hsame _ (AppEffect.of_ended hphase rfl rfl) rfl
      · cases h
  | respond resp =>
      simp only [appEvent] at h
      split at h
      · rename_i call hphase
        rcases s.deliver_eq i c resp with ⟨phase, hended, hdeliver⟩
        rw [hdeliver] at h
        split at h
        · split at h
          · rename_i d hd
            rcases Option.map_eq_some_iff.mp h with ⟨client, hstep, rfl⟩
            simp only [clientStep] at hstep
            split at hstep
            · rename_i hnode
              cases hstep
              exact ⟨phase, _, [], by rw [List.append_nil]; rfl,
                AppEffect.refreshing phase (by rw [hphase]; rfl) hended hnode⟩
            · cases hstep
          · cases h
        · cases h
          exact hsame _ (AppEffect.of_ended hphase rfl hended) rfl
      · cases h
  | drop =>
      simp only [appEvent] at h
      split at h
      · rename_i hphase
        cases h
        exact hsame _ (AppEffect.of_ended hphase rfl rfl) rfl
      · rename_i hphase
        cases h
        exact hsame _ (AppEffect.of_ended hphase rfl rfl) rfl
      · rename_i hphase
        cases h
        exact hsame _ (AppEffect.of_ended hphase rfl rfl) rfl
      · rename_i hphase
        cases h
        exact hsame _ (AppEffect.of_ended hphase rfl rfl) rfl
      · cases h

/-- The client is left as it is, or takes a step. -/
theorem AppEffect.client {s client : Client} {i : Nat} {c : AppCall} {phase : AppPhase}
    {added : List StreamRequest} (h : AppEffect s i c phase client added) :
    client = s ∨ exists a, ClientEffect text slug s a client := by
  cases h with
  | restoring hphase hfind => exact Or.inr ⟨_, ClientEffect.found hfind⟩
  | opening hphase hd hlive hnode => exact Or.inr ⟨_, ClientEffect.called hnode⟩
  | refreshing phase hrunning hended hnode => exact Or.inr ⟨_, ClientEffect.called hnode⟩
  | connected | sent | ended => exact Or.inl rfl

theorem appStep_client {s t : AppPorts} {a : AppAction} (h : appStep text slug s a = some t) :
    t.client = s.client ∨ exists b, ClientEffect text slug s.client b t.client := by
  cases a with
  | client b =>
      rcases Option.map_eq_some_iff.mp h with ⟨client, hstep, rfl⟩
      exact Or.inr ⟨b, clientStep_effect hstep⟩
  | listen port =>
      cases h
      exact Or.inl rfl
  | request k now req =>
      rcases Option.map_eq_some_iff.mp h with ⟨port, -, rfl⟩
      exact Or.inl rfl
  | handle i event =>
      rcases Option.bind_eq_some_iff.mp h with ⟨c, -, hevent⟩
      rcases appEvent_effect hevent with ⟨phase, client, added, rfl, heffect⟩
      exact heffect.client

end

/-!
## What holds of a request
-/

/-- The request is for the app, and carries the cookie that the port demands. -/
structure LetIn (source : RouteSource) (demanded : Option RequiredCookie) (req : HttpRequest)
    (share app : String) : Prop where
  route : source.route req = some (Route.app share app)
  cookie : forall cookie, demanded = some cookie ->
    cookie.isPresentedIn (req.headers.getAll "cookie") = true

def AppCall.LetIn (c : AppCall) (share app : String) : Prop :=
  Guest.LetIn c.source c.cookie c.request share app

/-- The call of a stream that nothing went down yet. -/
def AppPhase.stream : AppPhase -> Option Nat
  | opening _ call => some call
  | connected call => some call
  | _ => none

/-- A request keeps to what it was let in for. -/
structure AppFits (seen : DB -> Prop) (s : Client) (c : AppCall) : Prop where
  admitted : forall share app, c.phase = AppPhase.admitted share app -> c.LetIn share app
  restoring : forall share app k, c.phase = AppPhase.restoring share app k ->
    c.LetIn share app ∧ s.RestoresNamed seen k share
  opening : forall call, c.phase.stream = some call ->
    exists share app, c.LetIn share app ∧
      s.AsksNamed seen call (NodeTask.openReverseProxyStream app) share

section
variable {text : JsonText} {slug : Slugify} {seen : DB -> Prop}

theorem AppFits.of_ended {s : Client} {c : AppCall} (h : c.phase.ended = true) :
    AppFits seen s c where
  admitted := by
    intro share app hphase
    rw [hphase] at h
    cases h
  restoring := by
    intro share app k hphase
    rw [hphase] at h
    cases h
  opening := by
    intro call hcall
    cases hphase : c.phase with
    | relayed | answered | dropped =>
        rw [hphase] at hcall
        cases hcall
    | admitted | restoring | opening | connected | sent =>
        rw [hphase] at h
        cases h

theorem AppFits.mono {seen' : DB -> Prop} {s : Client} {c : AppCall} (h : AppFits seen s c)
    (hseen : forall past, seen past -> seen' past) : AppFits seen' s c where
  admitted := h.admitted
  restoring := by
    intro share app k hphase
    rcases h.restoring share app k hphase with ⟨hlet, hrestores⟩
    exact ⟨hlet, hrestores.mono hseen⟩
  opening := by
    intro call hcall
    rcases h.opening call hcall with ⟨share, app, hlet, hopens⟩
    exact ⟨share, app, hlet, hopens.mono hseen⟩

/-- A step of the client leaves what holds of the requests. -/
theorem AppFits.kept {s t : Client} {c : AppCall} (h : AppFits seen s c)
    (hclient : t = s ∨ exists a, ClientEffect text slug s a t) (hs : s.Coherent)
    (hosted : s.Hosted seen) : AppFits seen t c := by
  rcases hclient with rfl | ⟨a, heffect⟩
  · exact h
  · refine ⟨h.admitted, ?_, ?_⟩
    · intro share app k hphase
      rcases h.restoring share app k hphase with ⟨hlet, hrestores⟩
      exact ⟨hlet, heffect.restoresNamed hs hosted hrestores⟩
    · intro call hcall
      rcases h.opening call hcall with ⟨share, app, hlet, hopens⟩
      exact ⟨share, app, hlet, heffect.asksNamed hs hopens⟩

/-- What a step of a request leads to. -/
theorem AppEffect.fits {s client : Client} {i : Nat} {c : AppCall} {phase : AppPhase}
    {added : List StreamRequest} (h : AppEffect s i c phase client added) (hseen : seen s.db)
    (hfits : AppFits seen s c) : AppFits seen client { c with phase := phase } := by
  cases h with
  | @restoring share app order row r hphase hfind =>
      refine ⟨nofun, ?_, nofun⟩
      intro share' app' k heq
      cases heq
      exact ⟨hfits.admitted share app hphase, restoresNamed_found hseen hfind⟩
  | @opening share app restore node d hphase hd hlive hnode =>
      rcases hfits.restoring share app restore hphase with ⟨hlet, hrestores⟩
      refine ⟨nofun, nofun, ?_⟩
      intro call hcall
      cases hcall
      exact ⟨share, app, hlet, hrestores.called hd hlive⟩
  | @connected app call hphase =>
      refine ⟨nofun, nofun, ?_⟩
      intro call' hcall
      cases hcall
      rcases hfits.opening call (by rw [hphase]; rfl) with ⟨share, app, hlet, hopens⟩
      exact ⟨share, app, hlet, hopens⟩
  | sent hphase => exact ⟨nofun, nofun, nofun⟩
  | refreshing phase hrunning hended hnode => exact AppFits.of_ended hended
  | ended phase hrunning hended => exact AppFits.of_ended hended

end

/-!
## The ports
-/

theorem route_spec {port : AppPort} {req : HttpRequest} {share app : String}
    (hroute : port.routeSource.route req = some (Route.app share app)) :
    port.route req share app = AppPhase.admitted share app ∧
        LetIn port.routeSource (port.authenticator.map Authenticator.cookie) req share app ∨
      exists answer, port.route req share app = AppPhase.answered answer := by
  unfold AppPort.route
  cases port.authenticator with
  | none => exact Or.inl ⟨rfl, hroute, nofun⟩
  | some auth =>
      simp only
      split
      · rename_i hadmits
        refine Or.inl ⟨rfl, hroute, ?_⟩
        intro cookie hcookie
        cases hcookie
        exact hadmits
      · exact Or.inr ⟨_, rfl⟩

/-- A request that has just come is let in, or answered. -/
theorem receive_spec (port : AppPort) (now : Nat) (req : HttpRequest) :
    (exists share app, (port.receive now req).1 = AppPhase.admitted share app ∧
      LetIn port.routeSource (port.authenticator.map Authenticator.cookie) req share app) ∨
    exists answer, (port.receive now req).1 = AppPhase.answered answer := by
  have hadmit : forall share app, (port.receive now req).1 = port.route req share app ->
      port.routeSource.route req = some (Route.app share app) ->
      (exists share app, (port.receive now req).1 = AppPhase.admitted share app ∧
        LetIn port.routeSource (port.authenticator.map Authenticator.cookie) req share app) ∨
      exists answer, (port.receive now req).1 = AppPhase.answered answer := by
    intro share app hsame hroute
    rw [hsame]
    rcases route_spec hroute with ⟨hin, hlet⟩ | hanswer
    · exact Or.inl ⟨share, app, hin, hlet⟩
    · exact Or.inr hanswer
  cases hsource : port.routeSource with
  | fixed share app =>
      rw [hsource] at hadmit
      exact hadmit share.text app (by simp only [AppPort.receive, hsource]) rfl
  | hostHeader =>
      rw [hsource] at hadmit
      cases hhost : req.extractHost with
      | none =>
          refine Or.inr ⟨AppAnswer.error (errorResponse 400 "missing host header"), ?_⟩
          simp only [AppPort.receive, hsource, hhost]
      | some host =>
          cases hparse : parseHost host with
          | none =>
              refine Or.inr ⟨AppAnswer.error (unknownHost host), ?_⟩
              simp only [AppPort.receive, hsource, hhost, hparse]
          | some route =>
              cases route with
              | proxy =>
                  refine Or.inr ⟨AppAnswer.own (port.answerOwnHost now req host).1, ?_⟩
                  simp only [AppPort.receive, hsource, hhost, hparse]
              | app share app =>
                  refine hadmit share app ?_ ?_
                  · simp only [AppPort.receive, hsource, hhost, hparse]
                  · simp only [RouteSource.route, hhost, Option.bind_some, hparse]

/-- The stores that the client has had. -/
def AppStores (past : AppPorts -> Prop) (db : DB) : Prop :=
  exists v, past v ∧ v.client.db = db

/-- What went down a stream is a request that was let in, with what is not the app's taken out. -/
def SentFits (seen : DB -> Prop) (s : AppPorts) (e : StreamRequest) : Prop :=
  exists c share app, s.requests[e.request]? = some c ∧ c.LetIn share app ∧
    s.client.AsksNamed seen e.call (NodeTask.openReverseProxyStream app) share ∧
      e.headers = rewriteHeaders c.headers

/-- Nothing of the request went down a stream yet. -/
def AppPhase.waits : AppPhase -> Bool
  | admitted _ _ => true
  | restoring _ _ _ => true
  | opening _ _ => true
  | connected _ => true
  | _ => false

/-- The streams that requests have, and those that were used. -/
def AppPorts.StreamsOnce (s : AppPorts) : Prop :=
  UsedOnce (fun c : AppCall => c.phase.stream) (fun c : AppCall => c.phase.waits)
    s.client.calls.length s.requests (s.sent.map fun e => (e.request, e.call))

/-- What holds all along of the ports. -/
structure AppPortsFit (seen : DB -> Prop) (s : AppPorts) : Prop where
  coherent : s.client.Coherent
  hosted : s.client.Hosted seen
  requests : forall (i : Nat) (c : AppCall), s.requests[i]? = some c -> AppFits seen s.client c
  streams : s.StreamsOnce
  sent : forall e, e ∈ s.sent -> SentFits seen s e

section
variable {text : JsonText} {slug : Slugify} {seen seen' : DB -> Prop}

/-- Something goes down a stream only where the request has one, and has not used it. -/
theorem AppEffect.added {s client : Client} {i : Nat} {c : AppCall} {phase : AppPhase}
    {added : List StreamRequest} (h : AppEffect s i c phase client added) :
    added = [] ∨ exists call, c.phase = AppPhase.connected call ∧ phase = AppPhase.sent call ∧
      client = s ∧ added = [⟨i, call, rewriteHeaders c.headers⟩] := by
  cases h with
  | sent hphase => exact Or.inr ⟨_, hphase, rfl, rfl, rfl⟩
  | restoring | opening | connected | refreshing | ended => exact Or.inl rfl

/-- A stream is the one that the request has, or a new one. -/
theorem AppEffect.stream {s client : Client} {i : Nat} {c : AppCall} {phase : AppPhase}
    {added : List StreamRequest} (h : AppEffect s i c phase client added) {call : Nat}
    (hcall : phase.stream = some call) : c.phase.stream = some call ∨
      call = s.calls.length ∧ s.calls.length < client.calls.length := by
  cases h with
  | opening =>
      cases hcall
      refine Or.inr ⟨rfl, ?_⟩
      rw [List.length_append]
      exact Nat.lt_succ_self _
  | connected hphase =>
      cases hcall
      exact Or.inl (by rw [hphase]; rfl)
  | restoring | sent => cases hcall
  | refreshing phase hrunning hended | ended phase hrunning hended =>
      cases phase with
      | opening | connected => cases hended
      | admitted | restoring | sent | relayed | answered | dropped => cases hcall

theorem AppEffect.waits {s client : Client} {i : Nat} {c : AppCall} {phase : AppPhase}
    {added : List StreamRequest} (h : AppEffect s i c phase client added)
    (hwaits : phase.waits = true) : c.phase.waits = true := by
  cases h with
  | restoring hphase | opening hphase | connected hphase =>
      rw [hphase]
      rfl
  | sent => cases hwaits
  | refreshing phase hrunning hended | ended phase hrunning hended =>
      cases phase with
      | admitted | restoring | opening | connected | sent => cases hended
      | relayed | answered | dropped => cases hwaits

/-- What a step does to the streams. -/
theorem AppEffect.streamsOnce {s : AppPorts} {i : Nat} {c : AppCall} {phase : AppPhase}
    {client : Client} {added : List StreamRequest} (h : AppEffect s.client i c phase client added)
    (hs : s.StreamsOnce) (hc : s.requests[i]? = some c) (hle : s.client.calls.length ≤
      client.calls.length) : AppPorts.StreamsOnce
        { s.move i c phase with client := client, sent := s.sent ++ added } := by
  show UsedOnce _ _ client.calls.length (s.requests.set i { c with phase := phase })
    ((s.sent ++ added).map _)
  rw [List.map_append]
  rcases h.added with rfl | ⟨call, hphase, rfl, rfl, rfl⟩
  · rw [List.map_nil, List.append_nil]
    exact UsedOnce.moved hs hc (fun call hcall => h.stream hcall) h.waits hle
  · exact UsedOnce.uses hs hc (by rw [hphase]; rfl) (by rw [hphase]; rfl) rfl rfl

theorem SentFits.moved {s t : AppPorts} {e : StreamRequest} (h : SentFits seen s e)
    (hclient : t.client = s.client ∨ exists a, ClientEffect text slug s.client a t.client)
    (hs : s.client.Coherent) (hseen : forall past, seen past -> seen' past)
    (hrequests : forall c, s.requests[e.request]? = some c ->
      exists phase, t.requests[e.request]? = some { c with phase := phase }) :
    SentFits seen' t e := by
  rcases h with ⟨c, share, app, hc, hlet, hopens, hheaders⟩
  rcases hrequests c hc with ⟨phase, hc'⟩
  refine ⟨_, share, app, hc', hlet, ?_, hheaders⟩
  rcases hclient with hsame | ⟨a, heffect⟩
  · exact hsame ▸ hopens.mono hseen
  · exact (heffect.asksNamed hs hopens).mono hseen

/-- What a step leads to for the client, and for what it does not touch. -/
structure StepKeeps (seen seen' : DB -> Prop) (s t : AppPorts) : Prop where
  coherent : t.client.Coherent
  hosted : t.client.Hosted seen'
  requests : forall c, AppFits seen s.client c -> AppFits seen' t.client c
  calls : s.client.calls.length ≤ t.client.calls.length

theorem AppPortsFit.keeps {s t : AppPorts} (hs : AppPortsFit seen s)
    (hclient : t.client = s.client ∨ exists a, ClientEffect text slug s.client a t.client)
    (hnow : seen s.client.db) (hseen : forall past, seen past -> seen' past) :
    StepKeeps seen seen' s t where
  coherent := by
    rcases hclient with hsame | ⟨a, heffect⟩
    · exact hsame ▸ hs.coherent
    · exact heffect.coherent hs.coherent
  hosted := by
    refine Client.Hosted.mono ?_ hseen
    rcases hclient with hsame | ⟨a, heffect⟩
    · exact hsame ▸ hs.hosted
    · exact heffect.hosted hs.coherent hs.hosted hnow
  requests := fun c hc => (hc.kept hclient hs.coherent hs.hosted).mono hseen
  calls := by
    rcases hclient with hsame | ⟨a, heffect⟩
    · rw [hsame]
    · exact heffect.calls_le

/-- A step that leaves the requests alone. -/
theorem AppPortsFit.of_same {s t : AppPorts} (hs : AppPortsFit seen s)
    (hclient : t.client = s.client ∨ exists a, ClientEffect text slug s.client a t.client)
    (hnow : seen s.client.db) (hseen : forall past, seen past -> seen' past)
    (hrequests : t.requests = s.requests) (hsent : t.sent = s.sent) : AppPortsFit seen' t where
  coherent := (hs.keeps hclient hnow hseen).coherent
  hosted := (hs.keeps hclient hnow hseen).hosted
  requests := by
    intro i c hc
    rw [hrequests] at hc
    exact (hs.keeps hclient hnow hseen).requests c (hs.requests i c hc)
  streams := by
    unfold AppPorts.StreamsOnce
    rw [hrequests, hsent]
    exact UsedOnce.issues hs.streams (hs.keeps hclient hnow hseen).calls
  sent := by
    rw [hsent]
    intro e he
    refine (hs.sent e he).moved hclient hs.coherent hseen fun c hc => ⟨c.phase, ?_⟩
    rw [hrequests]
    exact hc

/-- A request comes. -/
theorem AppPortsFit.of_received {s t : AppPorts} (hs : AppPortsFit seen s) {d : AppCall}
    (hclient : t.client = s.client) (hnow : seen s.client.db)
    (hseen : forall past, seen past -> seen' past)
    (hd : (exists share app, d.phase = AppPhase.admitted share app ∧ d.LetIn share app) ∨
      exists answer, d.phase = AppPhase.answered answer)
    (hrequests : t.requests = s.requests ++ [d]) (hsent : t.sent = s.sent) :
    AppPortsFit seen' t := by
  have hsame : t.client = s.client ∨
      exists a, ClientEffect Json.compact Slugify.ascii s.client a t.client := Or.inl hclient
  have hkeeps := hs.keeps hsame hnow hseen
  have hnone : d.phase.stream = none := by
    rcases hd with ⟨share, app, hphase, -⟩ | ⟨answer, hphase⟩
    · rw [hphase]
      rfl
    · rw [hphase]
      rfl
  have hfits : AppFits seen' t.client d := by
    rcases hd with ⟨share, app, hphase, hlet⟩ | ⟨answer, hphase⟩
    · refine ⟨?_, ?_, ?_⟩
      · intro share' app' heq
        rw [hphase] at heq
        cases heq
        exact hlet
      · intro share' app' k heq
        rw [hphase] at heq
        cases heq
      · intro call hcall
        rw [hnone] at hcall
        cases hcall
    · exact AppFits.of_ended (by rw [hphase]; rfl)
  refine ⟨hkeeps.coherent, hkeeps.hosted, ?_, ?_, ?_⟩
  · intro i c hc
    rw [hrequests] at hc
    rcases slot_append_eq_some_iff.mp hc with hc | ⟨rfl, rfl⟩
    · exact hkeeps.requests c (hs.requests i c hc)
    · exact hfits
  · unfold AppPorts.StreamsOnce
    rw [hrequests, hsent]
    exact UsedOnce.issues (UsedOnce.joined hs.streams hnone) hkeeps.calls
  · rw [hsent]
    intro e he
    refine (hs.sent e he).moved hsame hs.coherent hseen fun c hc => ⟨c.phase, ?_⟩
    rw [hrequests]
    exact slot_append_eq_some_iff.mpr (Or.inl hc)

/-- A request moves. -/
theorem AppPortsFit.of_moved {s : AppPorts} (hs : AppPortsFit seen s) {i : Nat} {c : AppCall}
    (hc : s.requests[i]? = some c) {phase : AppPhase} {client : Client}
    {added : List StreamRequest} (h : AppEffect s.client i c phase client added)
    (hnow : seen s.client.db) (hseen : forall past, seen past -> seen' past) :
    AppPortsFit seen' { s.move i c phase with client := client, sent := s.sent ++ added } := by
  have hclient : client = s.client ∨
      exists a, ClientEffect Json.compact Slugify.ascii s.client a client := h.client
  have hkeeps := hs.keeps (t := { s with client := client }) hclient hnow hseen
  refine ⟨hkeeps.coherent, hkeeps.hosted, ?_, h.streamsOnce hs.streams hc hkeeps.calls, ?_⟩
  · intro j d hd
    rcases (slot_set_eq_some_iff hc).mp hd with ⟨rfl, rfl⟩ | ⟨-, hd⟩
    · exact (h.fits hnow (hs.requests _ c hc)).mono hseen
    · exact hkeeps.requests d (hs.requests j d hd)
  · intro e he
    rcases List.mem_append.mp he with hold | hnew
    · refine (hs.sent e hold).moved hclient hs.coherent hseen ?_
      intro d hd
      by_cases hi : e.request = i
      · rw [hi, hc] at hd
        cases hd
        exact ⟨phase, hi ▸ slot_set_self hc _⟩
      · exact ⟨d.phase, (slot_set_eq_some_iff hc).mpr (Or.inr ⟨hi, hd⟩)⟩
    · rcases h.added with rfl | ⟨call, hphase, -, -, rfl⟩
      · cases hnew
      · cases List.mem_singleton.mp hnew
        have hopening := (hs.requests i c hc).kept hclient hs.coherent hs.hosted
        rcases hopening.opening call (by rw [hphase]; rfl) with ⟨share, app, hlet, hopens⟩
        exact ⟨_, share, app, slot_set_self hc _, hlet, hopens.mono hseen, rfl⟩

theorem appStep_fits {s t : AppPorts} {a : AppAction} (hs : AppPortsFit seen s)
    (h : appStep text slug s a = some t) (hnow : seen s.client.db)
    (hseen : forall past, seen past -> seen' past) : AppPortsFit seen' t := by
  have hclient := appStep_client h
  cases a with
  | client b =>
      rcases Option.map_eq_some_iff.mp h with ⟨client, -, rfl⟩
      exact hs.of_same hclient hnow hseen rfl rfl
  | listen port =>
      cases h
      exact hs.of_same hclient hnow hseen rfl rfl
  | request k now req =>
      rcases Option.map_eq_some_iff.mp h with ⟨port, -, rfl⟩
      exact hs.of_received rfl hnow hseen (receive_spec port now req) rfl rfl
  | handle i event =>
      rcases Option.bind_eq_some_iff.mp h with ⟨c, hc, hevent⟩
      rcases appEvent_effect hevent with ⟨phase, client, added, rfl, heffect⟩
      exact hs.of_moved hc heffect hnow hseen

/-- What went down a stream: a request that was let in, to the app that its host names, at the host
that a share of the name was joined with, and nothing of what is the client's own. -/
structure OwnStream (seen : DB -> Prop) (s : AppPorts) (e : StreamRequest) (c : AppCall)
    (share app : String) : Prop where
  request : s.requests[e.request]? = some c
  letIn : c.LetIn share app
  dialled : exists id d node, NamedBy seen share id ∧ s.client.calls[e.call]? = some d ∧
    d.task = NodeTask.openReverseProxyStream app ∧ s.client.nodes[d.node]? = some node ∧
      JoinedWith seen s.client.db node.row id node.host
  headers : e.headers = rewriteHeaders c.headers
  hidden : forall own cookie : RequiredCookie, c.cookie = some own ->
    cookie.name = own.name ∨ isPairingCookie cookie.name = true ->
      cookie.isPresentedIn (e.headers.getAll "cookie") = false

theorem getAll_cookie_rewriteHeaders (headers : HeaderMap) :
    (rewriteHeaders headers).getAll "cookie" = headers.getAll "cookie" := by
  have hplain : "cookie" ∉ hopByHopNames ∧ "cookie" ∉ handshakeNames := by decide
  rw [getAll_rewriteHeaders, if_neg hplain.left, if_pos (Or.inr hplain.right)]

theorem appPortsFit_start {device : Device} (hcoherent : (Client.start device).Coherent) :
    AppPortsFit seen (AppPorts.start device) where
  coherent := hcoherent
  hosted := hosted_start device
  requests := by
    intro i c hc
    cases hc
  streams := usedOnce_nil
  sent := by
    intro e he
    cases he

/-- In every run each stream carries one request and each request goes down one stream at most, to
where it was let in for. -/
theorem requests_on_streams_of_their_own {device : Device} {before : List DeviceAction}
    {acts : List AppAction} {s : AppPorts}
    (hdevice : Run (deviceStep text slug) Device.start before device)
    (hrun : Run (appStep text slug) (AppPorts.start device) acts s) :
    (s.sent.map StreamRequest.call).Nodup ∧ (s.sent.map StreamRequest.request).Nodup ∧
      forall e, e ∈ s.sent -> exists c share app,
        OwnStream (AppStores (Passes (appStep text slug) (AppPorts.start device) acts))
          s e c share app := by
  have hstart : AppPortsFit
      (AppStores (Passes (appStep text slug) (AppPorts.start device) []))
        (AppPorts.start device) := by
    exact appPortsFit_start (coherent_start (run_labels hdevice).toLabelsDistinct)
  have hend : AppPortsFit
      (AppStores (Passes (appStep text slug) (AppPorts.start device) acts)) s := by
    refine @Run.invariant_of_past _ _ (appStep text slug) (fun _ _ => True)
      (fun past u => AppPortsFit
        (AppStores (Passes (appStep text slug) (AppPorts.start device) past)) u)
      _ hstart ?_ _ _ hrun (meets_of_forall (fun _ _ _ => trivial) _)
    intro past u a v hpast hu _ hstep
    refine appStep_fits hu hstep ⟨u, hpast.passes, rfl⟩ ?_
    intro db hdb
    rcases hdb with ⟨w, hw, heq⟩
    exact ⟨w, hw.append [a], heq⟩
  have hcalls := hend.streams.ticket_once
  have hrequests := hend.streams.holder_once
  rw [List.map_map] at hcalls hrequests
  refine ⟨hcalls, hrequests, ?_⟩
  intro e he
  rcases hend.sent e he with ⟨c, share, app, hc, hlet, ⟨id, hnamed, hasks⟩, hheaders⟩
  rcases hasks with ⟨d, node, hd, htask, hnode, hshare⟩
  refine ⟨c, share, app, hc, hlet, ⟨id, d, node, hnamed, hd, htask, hnode,
    hshare ▸ hend.hosted.nodes _ node hnode⟩, hheaders, ?_⟩
  intro own cookie hown hname
  rw [hheaders, getAll_cookie_rewriteHeaders, AppCall.headers, hown]
  exact isPresentedIn_scrub own _ hname

end

/-!
## A browser with the app's cookie
-/

def webviewCookie : RequiredCookie where
  name := "__wispers_proxy_auth"
  value := "s3cret"

/-- A request of the client's own webview for an app of the share labelled `family`. -/
def webviewRequest : HttpRequest where
  method := "GET"
  uri := { scheme := none, authority := none, pathAndQuery := some "/photos?page=2" }
  headers := HeaderMap.mk [("host", utf8 "photos.family.wa.localhost:8000"),
    ("cookie", utf8 "a=1; __wispers_proxy_auth=s3cret"), ("connection", utf8 "keep-alive")]
  body := []

/-- The request is let in, and goes down a stream. -/
def webviewRun : List AppAction :=
  [AppAction.listen ⟨RouteSource.hostHeader, some (Authenticator.forCookie webviewCookie)⟩,
    AppAction.request 0 0 webviewRequest,
    AppAction.handle 0 (AppEvent.restoreGuestNode SerialTable.QueryOrder.byId)] ++
  firstRestore.tail.map AppAction.client ++
  [AppAction.handle 0 AppEvent.restored] ++
  [NodeEvent.passGate, NodeEvent.readDead, NodeEvent.answer (Except.ok ())].map
    (fun event => AppAction.client (ClientAction.node 0 event)) ++
  [AppAction.handle 0 (AppEvent.opened true), AppAction.handle 0 AppEvent.sendRequest]

theorem webview_request_on_its_stream :
    exists device s e c,
      Run (deviceStep Json.compact Slugify.ascii) Device.start
        (wholeJoin 0 firstShare familyInfo) device ∧
      Run (appStep Json.compact Slugify.ascii) (AppPorts.start device) webviewRun s ∧
      s.sent[0]? = some e ∧ e.headers.getAll "cookie" = [utf8 "a=1"] ∧
      e.headers.getAll "connection" = [utf8 "close"] ∧
      OwnStream (AppStores (Passes (appStep Json.compact Slugify.ascii) (AppPorts.start device)
        webviewRun)) s e c "family" "photos" := by
  have hend : ((exec (deviceStep Json.compact Slugify.ascii) Device.start
      (wholeJoin 0 firstShare familyInfo)).bind fun device =>
        (exec (appStep Json.compact Slugify.ascii) (AppPorts.start device) webviewRun).map fun s =>
          (s.sent[0]?).map fun e => (e.headers.getAll "cookie", e.headers.getAll "connection",
            (s.requests[e.request]?).map fun c => c.source.route c.request)) =
      some (some ([utf8 "a=1"], [utf8 "close"],
        some (some (Route.app "family" "photos")))) := by
    decide +kernel
  rcases Option.bind_eq_some_iff.mp hend with ⟨device, hdevice, hrest⟩
  rcases Option.map_eq_some_iff.mp hrest with ⟨s, hs, hsent⟩
  rcases Option.map_eq_some_iff.mp hsent with ⟨e, he, heq⟩
  simp only [Prod.mk.injEq] at heq
  rcases heq with ⟨hcookie, hconnection, hroute⟩
  have hjoined := run_iff_exec.mpr hdevice
  have hrun := run_iff_exec.mpr hs
  rcases (requests_on_streams_of_their_own hjoined hrun).right.right e
    (List.mem_of_getElem? he) with ⟨c, share, app, hown⟩
  rw [hown.request, Option.map_some, hown.letIn.route] at hroute
  cases hroute
  exact ⟨device, s, e, c, hjoined, hrun, he, hcookie, hconnection, hown⟩

end Guest
end WispersAccess
