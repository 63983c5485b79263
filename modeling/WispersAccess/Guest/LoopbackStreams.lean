import WispersAccess.Foundation.Tickets
import WispersAccess.Guest.LoopbackRequests
import WispersAccess.Guest.NamedShares

/-!
# What goes down the streams of forwarded ports

A request gets a stream of its own if it carries the forwarding cookie, or names in
its `Origin` header an origin that the share listed when its ports were forwarded.
The stream is one to a loopback origin that the share listed then, at the host of a
share that was found by the id.
-/

namespace WispersAccess
namespace Guest

open Foundation
open Host (TransportKind eqIgnoreAsciiCase shareInfo)
open Wire (AppProxyMode Origin SharedApp UrlParser utf8)

/-!
## What the ports are for
-/

/-- A forward-proxy app lists the origin. -/
def Lists (urls : UrlParser) (apps : List SharedApp) (origin : Origin) : Prop :=
  exists app text, app ∈ apps ∧ app.mode = AppProxyMode.forwardProxy ∧
    text ∈ app.proxiedOrigins ∧ Origin.parse urls text = Except.ok origin

/-- The apps are those of a row of the share, as it was stored. -/
def StoredApps (text : JsonText) (seen : DB -> Prop) (share : ShareId) (apps : List SharedApp) :
    Prop :=
  exists past row r, seen past ∧ past.row row = some r ∧ r.shareId = share ∧
    past.readApps text row = apps

theorem StoredApps.mono {text : JsonText} {seen seen' : DB -> Prop} {share : ShareId}
    {apps : List SharedApp} (h : StoredApps text seen share apps)
    (hseen : forall past, seen past -> seen' past) : StoredApps text seen' share apps := by
  rcases h with ⟨past, row, r, hpast, hrow⟩
  exact ⟨past, row, r, hseen past hpast, hrow⟩

/-- An `http` loopback origin on the port. -/
def OnLoopback (origin : Origin) (port : UInt16) : Prop :=
  origin.isLoopback = true ∧ origin.https = false ∧ origin.port = port

/-- A forwarded port has the hosts of the loopback origins that the apps list on it. -/
structure ForwardedPort.Serves (port : ForwardedPort) (urls : UrlParser) (apps : List SharedApp) :
    Prop where
  cookie : port.cookie.name = loopbackCookieName
  hosts : forall host, host ∈ port.hosts <->
    exists origin, Lists urls apps origin ∧ OnLoopback origin port.port ∧ origin.host = host
  origins : forall origin, origin ∈ port.shareOrigins <-> Lists urls apps origin

/-- The port is for apps that a share of its id listed. -/
def ForwardedPort.Fits (port : ForwardedPort) (text : JsonText) (urls : UrlParser)
    (seen : DB -> Prop) : Prop :=
  exists id apps, NamedBy seen port.share.text id ∧ StoredApps text seen id apps ∧
    port.Serves urls apps

/-- A forwarder keeps to the row that its share's id found. -/
structure ForwardingFits (text : JsonText) (seen : DB -> Prop) (db : DB)
    (forwarding : Forwarding) : Prop where
  cookie : forwarding.cookie.name = loopbackCookieName
  known : forwarding.row < db.shares.nextId
  apps : exists id, NamedBy seen forwarding.share.text id ∧ db.OwnRow forwarding.row id ∧
    forall apps, forwarding.apps = some apps -> apps = [] ∨ StoredApps text seen id apps

section
variable {text : JsonText} {urls : UrlParser} {seen seen' : DB -> Prop}

theorem mem_shareOrigins {apps : List SharedApp} {origin : Origin} :
    origin ∈ shareOrigins urls apps <-> Lists urls apps origin := by
  unfold shareOrigins Lists
  simp only [List.mem_filterMap, List.mem_flatMap, List.mem_filter, decide_eq_true_eq]
  constructor
  · intro h
    rcases h with ⟨text, ⟨app, ⟨happ, hmode⟩, htext⟩, hparse⟩
    refine ⟨app, text, happ, hmode, htext, ?_⟩
    cases hresult : Origin.parse urls text with
    | error e =>
        rw [hresult] at hparse
        cases hparse
    | ok parsed =>
        rw [hresult] at hparse
        exact congrArg Except.ok (Option.some.inj hparse)
  · intro h
    rcases h with ⟨app, text, happ, hmode, htext, hparse⟩
    refine ⟨text, ⟨app, ⟨happ, hmode⟩, htext⟩, ?_⟩
    rw [hparse]
    rfl

theorem ForwardedPort.Fits.mono {port : ForwardedPort} (h : port.Fits text urls seen)
    (hseen : forall past, seen past -> seen' past) : port.Fits text urls seen' := by
  rcases h with ⟨id, apps, hnamed, hstored, hserves⟩
  exact ⟨id, apps, hnamed.mono hseen, hstored.mono hseen, hserves⟩

theorem ForwardingFits.mono {db : DB} {forwarding : Forwarding}
    (h : ForwardingFits text seen db forwarding) (hseen : forall past, seen past -> seen' past) :
    ForwardingFits text seen' db forwarding where
  cookie := h.cookie
  known := h.known
  apps := by
    rcases h.apps with ⟨id, hnamed, hown, happs⟩
    exact ⟨id, hnamed.mono hseen, hown, fun apps heq => (happs apps heq).imp_right fun hstored =>
      hstored.mono hseen⟩

theorem ForwardingFits.kept {db db' : DB} {forwarding : Forwarding}
    (h : ForwardingFits text seen db forwarding) (hrows : RowsKept db db') :
    ForwardingFits text seen db' forwarding where
  cookie := h.cookie
  known := Int.lt_of_lt_of_le h.known hrows.next
  apps := by
    rcases h.apps with ⟨id, hnamed, hown, happs⟩
    exact ⟨id, hnamed, hrows.ownRow h.known hown, happs⟩

theorem row_of_readApps {db : DB} (happs : db.AppsOwned) {id : Int} {app : SharedApp}
    (happ : app ∈ db.readApps text id) : exists r, db.row id = some r := by
  rcases List.mem_map.mp happ with ⟨row, hrow, -⟩
  rcases List.mem_filter.mp ((List.mem_insertionSort _).mp hrow) with ⟨hmem, hid⟩
  rcases happs row hmem with ⟨r, hr⟩
  exact ⟨r, of_decide_eq_true hid ▸ hr⟩

/-- Apps that are there are those of the row, if it is there. -/
theorem ForwardingFits.read {db : DB} {forwarding : Forwarding} (happs : db.AppsOwned)
    (hseen : seen db) (h : ForwardingFits text seen db forwarding) :
    ForwardingFits text seen db
      { forwarding with apps := some (db.readApps text forwarding.row) } := by
  rcases h.apps with ⟨id, hnamed, hown, -⟩
  refine ⟨h.cookie, h.known, id, hnamed, hown, ?_⟩
  intro apps heq
  cases heq
  cases hread : db.readApps text forwarding.row with
  | nil => exact Or.inl rfl
  | cons app rest =>
      right
      have hmem : app ∈ db.readApps text forwarding.row := by
        rw [hread]
        exact List.mem_cons_self
      rcases row_of_readApps happs hmem with ⟨r, hr⟩
      exact ⟨db, forwarding.row, r, hseen, hr, hown r hr, hread⟩

/-- A tree has each key once. -/
theorem Ascending.unique {ports : LoopbackPorts} (h : ports.Ascending) {port : UInt16}
    {hosts hosts' : List String} (hmem : (port, hosts) ∈ ports) (hmem' : (port, hosts') ∈ ports) :
    hosts = hosts' := by
  have hnodup : (ports.map Prod.fst).Nodup := h.imp fun hlt heq => absurd (heq ▸ hlt)
    (UInt16.lt_irrefl _)
  exact congrArg Prod.snd (List.inj_on_of_nodup_map hnodup hmem hmem' rfl)

/-- A port of a forwarder is for what its apps list. -/
theorem serves_forwarded {forwarding : Forwarding} {apps : List SharedApp} {number : UInt16}
    {port : ForwardedPort} (hcookie : forwarding.cookie.name = loopbackCookieName)
    (h : forwarding.forwarded urls apps number = some port) :
    port.share = forwarding.share ∧ port.Serves urls apps := by
  unfold Forwarding.forwarded at h
  split at h
  · rename_i number' first rest hfind
    cases h
    have hentry := List.mem_of_find?_eq_some hfind
    refine ⟨rfl, hcookie, ?_, fun origin => mem_shareOrigins⟩
    intro host
    constructor
    · intro hhost
      rcases names_loopbackPorts.mp ⟨first :: rest, hentry, hhost⟩ with
        ⟨app, text, origin, happ, hmode, htext, hparse, hloopback, hhttps, hport, hhost⟩
      exact ⟨origin, ⟨app, text, happ, hmode, htext, hparse⟩, ⟨hloopback, hhttps, hport⟩, hhost⟩
    · intro hlisted
      rcases hlisted with
        ⟨origin, ⟨app, text, happ, hmode, htext, hparse⟩, ⟨hloopback, hhttps, hport⟩, hhost⟩
      rcases names_loopbackPorts.mpr
        ⟨app, text, origin, happ, hmode, htext, hparse, hloopback, hhttps, hport, hhost⟩ with
        ⟨hosts, hmem, hhost⟩
      exact (Ascending.unique ascending_loopbackPorts hentry hmem) ▸ hhost
  · cases h

theorem ForwardedPort.Serves.apps_ne {port : ForwardedPort} {apps : List SharedApp}
    (h : port.Serves urls apps) : apps ≠ [] := by
  intro hnil
  rcases (h.hosts _).mp (List.head_mem port.hosts_ne) with ⟨origin, ⟨app, -, happ, -⟩, -⟩
  rw [hnil] at happ
  cases happ

theorem ForwardingFits.forwarded {db : DB} {forwarding : Forwarding}
    (h : ForwardingFits text seen db forwarding) {apps : List SharedApp}
    (happs : forwarding.apps = some apps) {number : UInt16} {port : ForwardedPort}
    (hport : forwarding.forwarded urls apps number = some port) : port.Fits text urls seen := by
  rcases serves_forwarded h.cookie hport with ⟨hshare, hserves⟩
  rcases h.apps with ⟨id, hnamed, -, hread⟩
  rcases hread apps happs with hnil | hstored
  · exact absurd hnil hserves.apps_ne
  · exact ⟨id, apps, hshare ▸ hnamed, hstored, hserves⟩

end

/-!
## Hosts and headers
-/

section
variable (port : ForwardedPort) (authorityHost : String -> Option String) (headers : HeaderMap)

end

/-!
## What a step of a request does
-/

/-- A request that is answered, dropped or served. -/
def LoopbackPhase.ended : LoopbackPhase -> Bool
  | relayed _ => true
  | answered _ => true
  | dropped => true
  | _ => false

/-- The call of a stream that nothing went down yet. -/
def LoopbackPhase.stream : LoopbackPhase -> Option Nat
  | opening _ call => some call
  | connected call => some call
  | _ => none

/-- Nothing of the request went down a stream yet. -/
def LoopbackPhase.waits : LoopbackPhase -> Bool
  | admitted => true
  | restoring _ => true
  | opening _ _ => true
  | connected _ => true
  | _ => false

theorem LoopbackPhase.idle {phase : LoopbackPhase} (h : phase.ended = true) :
    phase.stream = none ∧ phase.waits = false := by
  cases phase with
  | relayed | answered | dropped => exact ⟨rfl, rfl⟩
  | admitted | restoring | opening | connected | sent => cases h

/-- The request of a call, as it goes down a stream. -/
def LoopbackCall.sends (c : LoopbackCall) (i call : Nat) : LoopbackSent where
  request := i
  call := call
  target := c.request.uri.originForm
  headers := forwardHeaders (c.port.scrub c.request.headers)

/-- The target that a call's stream goes to. -/
def LoopbackCall.task (c : LoopbackCall) (authorityHost : String -> Option String) : NodeTask :=
  NodeTask.openForwardProxyStream (c.port.tunnelHost authorityHost c.request.headers) c.port.port

section
variable (authorityHost : String -> Option String) (s : Client) (i : Nat) (c : LoopbackCall)

/-- Everything that a step of a request can do, to itself, to the client and to the streams. -/
inductive LoopbackEffect : LoopbackPhase -> Client -> List LoopbackSent -> Prop where
  | restoring {order : SerialTable.QueryOrder ShareRow} {row : Int} {r : ShareRow}
      (hphase : c.phase = LoopbackPhase.admitted)
      (hfind : s.db.findRow order c.port.share.text = some (row, r)) :
      LoopbackEffect (LoopbackPhase.restoring s.restores.length)
        { s with restores := s.restores ++ [⟨row, RestorePhase.found⟩] } []
  | opening {restore node : Nat} {d : RestoreCall} (host : String)
      (hphase : c.phase = LoopbackPhase.restoring restore) (hd : s.restores[restore]? = some d)
      (hlive : d.phase = RestorePhase.returned (some (Lookup.live node)))
      (hnode : node < s.nodes.length) :
      LoopbackEffect (LoopbackPhase.opening host s.calls.length)
        { s with calls := s.calls ++ [⟨node, c.task authorityHost, NodePhase.gated⟩] } []
  | connected {host : String} {call : Nat} (hphase : c.phase = LoopbackPhase.opening host call) :
      LoopbackEffect (LoopbackPhase.connected call) s []
  | sent {call : Nat} (hphase : c.phase = LoopbackPhase.connected call) :
      LoopbackEffect (LoopbackPhase.sent call) s [c.sends i call]
  | ended (phase : LoopbackPhase) (hrunning : c.phase.ended = false)
      (hended : phase.ended = true) : LoopbackEffect phase s []

end

section
variable {text : JsonText} {slug : Slugify} {crates : LoopbackCrates}

/-- A response is delivered by a request that has ended then. -/
theorem ForwardedPorts.deliver_eq (s : ForwardedPorts) (i : Nat) (c : LoopbackCall)
    (resp : HttpResponse) : exists phase, phase.ended = true ∧
      s.deliver i c resp = s.move i c phase := by
  unfold ForwardedPorts.deliver
  simp only
  split
  · exact ⟨_, rfl, rfl⟩
  · exact ⟨_, rfl, rfl⟩

theorem LoopbackEffect.of_ended {authorityHost : String -> Option String} {s : Client} {i : Nat}
    {c : LoopbackCall} {phase phase' : LoopbackPhase} (hphase : c.phase = phase)
    (hrunning : phase.ended = false) (hended : phase'.ended = true) :
    LoopbackEffect authorityHost s i c phase' s [] :=
  LoopbackEffect.ended phase' (by rw [hphase]; exact hrunning) hended

/-- The client is left as it is, or takes a step. -/
theorem LoopbackEffect.client {authorityHost : String -> Option String} {s client : Client}
    {i : Nat} {c : LoopbackCall} {phase : LoopbackPhase} {added : List LoopbackSent}
    (h : LoopbackEffect authorityHost s i c phase client added) :
    client = s ∨ exists a, ClientEffect text slug s a client := by
  cases h with
  | restoring hphase hfind => exact Or.inr ⟨_, ClientEffect.found hfind⟩
  | opening host hphase hd hlive hnode => exact Or.inr ⟨_, ClientEffect.called hnode⟩
  | connected | sent | ended => exact Or.inl rfl

end

/-!
## What holds of a request
-/

section
variable (text : JsonText) (crates : LoopbackCrates) (seen : DB -> Prop)

/-- A request keeps to the share and the target of its port. -/
structure LoopbackFits (s : Client) (c : LoopbackCall) : Prop where
  port : c.port.Fits text crates.urls seen
  letIn : c.phase.waits = true -> c.port.admits crates.urls c.request.headers = true
  restoring : forall k, c.phase = LoopbackPhase.restoring k ->
    s.RestoresNamed seen k c.port.share.text
  opening : forall call, c.phase.stream = some call ->
    s.AsksNamed seen call (c.task crates.authorityHost) c.port.share.text

/-- What went down a stream is a request that was let in, to the target of its port. -/
def LoopbackSent.Fits (e : LoopbackSent) (s : ForwardedPorts) : Prop :=
  exists c, s.requests[e.request]? = some c ∧ c.port.Fits text crates.urls seen ∧
    c.port.admits crates.urls c.request.headers = true ∧
    s.client.AsksNamed seen e.call (c.task crates.authorityHost) c.port.share.text ∧
    e = c.sends e.request e.call

end

section
variable {text : JsonText} {slug : Slugify} {crates : LoopbackCrates} {seen seen' : DB -> Prop}

theorem LoopbackFits.of_ended {s : Client} {c : LoopbackCall}
    (hport : c.port.Fits text crates.urls seen) (h : c.phase.ended = true) :
    LoopbackFits text crates seen s c where
  port := hport
  letIn := by
    intro hwaits
    rw [(LoopbackPhase.idle h).right] at hwaits
    cases hwaits
  restoring := by
    intro k hphase
    rw [hphase] at h
    cases h
  opening := by
    intro call hcall
    rw [(LoopbackPhase.idle h).left] at hcall
    cases hcall

theorem LoopbackFits.mono {s : Client} {c : LoopbackCall} (h : LoopbackFits text crates seen s c)
    (hseen : forall past, seen past -> seen' past) : LoopbackFits text crates seen' s c where
  port := h.port.mono hseen
  letIn := h.letIn
  restoring := fun k hphase => (h.restoring k hphase).mono hseen
  opening := fun call hcall => (h.opening call hcall).mono hseen

/-- A step of the client leaves what holds of the requests. -/
theorem LoopbackFits.kept {s t : Client} {c : LoopbackCall} (h : LoopbackFits text crates seen s c)
    (hclient : t = s ∨ exists a, ClientEffect text slug s a t) (hs : s.Coherent)
    (hosted : s.Hosted seen) : LoopbackFits text crates seen t c := by
  rcases hclient with rfl | ⟨a, heffect⟩
  · exact h
  · exact ⟨h.port, h.letIn, fun k hphase => heffect.restoresNamed hs hosted (h.restoring k hphase),
      fun call hcall => heffect.asksNamed hs (h.opening call hcall)⟩

/-- What a step of a request leads to. -/
theorem LoopbackEffect.fits {s client : Client} {i : Nat} {c : LoopbackCall}
    {phase : LoopbackPhase} {added : List LoopbackSent}
    (h : LoopbackEffect crates.authorityHost s i c phase client added) (hseen : seen s.db)
    (hfits : LoopbackFits text crates seen s c) :
    LoopbackFits text crates seen client { c with phase := phase } := by
  have hletIn : c.phase.waits = true -> phase.waits = true ->
      c.port.admits crates.urls c.request.headers = true := fun hwaits _ => hfits.letIn hwaits
  cases h with
  | restoring hphase hfind =>
      rw [hphase] at hletIn
      refine ⟨hfits.port, hletIn rfl, ?_, nofun⟩
      intro k heq
      cases heq
      exact restoresNamed_found hseen hfind
  | opening host hphase hd hlive hnode =>
      have hrestores := hfits.restoring _ hphase
      rw [hphase] at hletIn
      refine ⟨hfits.port, hletIn rfl, nofun, ?_⟩
      intro call hcall
      cases hcall
      exact hrestores.called hd hlive
  | connected hphase =>
      have hopening := hfits.opening
      rw [hphase] at hletIn hopening
      refine ⟨hfits.port, hletIn rfl, nofun, ?_⟩
      intro call hcall
      cases hcall
      exact hopening _ rfl
  | sent hphase => exact ⟨hfits.port, nofun, nofun, nofun⟩
  | ended phase hrunning hended => exact LoopbackFits.of_ended hfits.port hended

/-- Something goes down a stream only where the request has one, and has not used it. -/
theorem LoopbackEffect.added {authorityHost : String -> Option String} {s client : Client}
    {i : Nat} {c : LoopbackCall} {phase : LoopbackPhase} {added : List LoopbackSent}
    (h : LoopbackEffect authorityHost s i c phase client added) :
    added = [] ∨ exists call, c.phase = LoopbackPhase.connected call ∧
      phase = LoopbackPhase.sent call ∧ client = s ∧ added = [c.sends i call] := by
  cases h with
  | sent hphase => exact Or.inr ⟨_, hphase, rfl, rfl, rfl⟩
  | restoring | opening | connected | ended => exact Or.inl rfl

/-- A stream is the one that the request has, or a new one. -/
theorem LoopbackEffect.stream {authorityHost : String -> Option String} {s client : Client}
    {i : Nat} {c : LoopbackCall} {phase : LoopbackPhase} {added : List LoopbackSent}
    (h : LoopbackEffect authorityHost s i c phase client added) {call : Nat}
    (hcall : phase.stream = some call) : c.phase.stream = some call ∨
      call = s.calls.length ∧ s.calls.length < client.calls.length := by
  cases h with
  | opening =>
      cases hcall
      refine Or.inr ⟨rfl, ?_⟩
      rw [List.length_append]
      exact Nat.lt_succ_self _
  | connected hphase =>
      cases hcall
      exact Or.inl (by rw [hphase]; rfl)
  | restoring | sent => cases hcall
  | ended phase hrunning hended =>
      rw [(LoopbackPhase.idle hended).left] at hcall
      cases hcall

theorem LoopbackEffect.waits {authorityHost : String -> Option String} {s client : Client}
    {i : Nat} {c : LoopbackCall} {phase : LoopbackPhase} {added : List LoopbackSent}
    (h : LoopbackEffect authorityHost s i c phase client added) (hwaits : phase.waits = true) :
    c.phase.waits = true := by
  cases h with
  | restoring hphase | opening host hphase | connected hphase =>
      rw [hphase]
      rfl
  | sent => cases hwaits
  | ended phase hrunning hended =>
      rw [(LoopbackPhase.idle hended).right] at hwaits
      cases hwaits

end

/-!
## The ports
-/

/-- The streams that requests have, and those that were used. -/
def ForwardedPorts.StreamsOnce (s : ForwardedPorts) : Prop :=
  UsedOnce (fun c : LoopbackCall => c.phase.stream) (fun c : LoopbackCall => c.phase.waits)
    s.client.calls.length s.requests (s.sent.map fun e => (e.request, e.call))

/-- What holds all along of the ports. -/
structure ForwardedPortsFit (text : JsonText) (crates : LoopbackCrates) (seen : DB -> Prop)
    (s : ForwardedPorts) : Prop where
  coherent : s.client.Coherent
  hosted : s.client.Hosted seen
  owned : s.client.db.AppsOwned
  forwardings : forall (k : Nat) (forwarding : Forwarding), s.forwardings[k]? = some forwarding ->
    ForwardingFits text seen s.client.db forwarding
  ports : forall (k : Nat) (port : ForwardedPort), s.ports[k]? = some port ->
    port.Fits text crates.urls seen
  requests : forall (i : Nat) (c : LoopbackCall), s.requests[i]? = some c ->
    LoopbackFits text crates seen s.client c
  streams : s.StreamsOnce
  sent : forall e, e ∈ s.sent -> e.Fits text crates seen s

section
variable {text : JsonText} {slug : Slugify} {crates : LoopbackCrates} {seen seen' : DB -> Prop}

/-- What a step does to the streams. -/
theorem LoopbackEffect.streamsOnce {authorityHost : String -> Option String} {s : ForwardedPorts}
    {i : Nat} {c : LoopbackCall} {phase : LoopbackPhase} {client : Client}
    {added : List LoopbackSent}
    (h : LoopbackEffect authorityHost s.client i c phase client added) (hs : s.StreamsOnce)
    (hc : s.requests[i]? = some c) (hle : s.client.calls.length ≤ client.calls.length) :
    ForwardedPorts.StreamsOnce
      { s.move i c phase with client := client, sent := s.sent ++ added } := by
  show UsedOnce _ _ client.calls.length (s.requests.set i { c with phase := phase })
    ((s.sent ++ added).map _)
  rw [List.map_append]
  rcases h.added with rfl | ⟨call, hphase, rfl, rfl, rfl⟩
  · rw [List.map_nil, List.append_nil]
    exact UsedOnce.moved hs hc (fun call hcall => h.stream hcall) h.waits hle
  · exact UsedOnce.uses hs hc (by rw [hphase]; rfl) (by rw [hphase]; rfl) rfl rfl

theorem LoopbackSent.Fits.moved {s t : ForwardedPorts} {e : LoopbackSent}
    (h : e.Fits text crates seen s)
    (hclient : t.client = s.client ∨ exists a, ClientEffect text slug s.client a t.client)
    (hs : s.client.Coherent) (hseen : forall past, seen past -> seen' past)
    (hrequests : forall c, s.requests[e.request]? = some c ->
      exists phase, t.requests[e.request]? = some { c with phase := phase }) :
    e.Fits text crates seen' t := by
  rcases h with ⟨c, hc, hport, hadmits, hasks, hsends⟩
  rcases hrequests c hc with ⟨phase, hc'⟩
  refine ⟨_, hc', hport.mono hseen, hadmits, ?_, hsends⟩
  rcases hclient with hsame | ⟨a, heffect⟩
  · exact hsame ▸ hasks.mono hseen
  · exact (heffect.asksNamed hs hasks).mono hseen

/-- What a step leads to for the client, and for what it does not touch. -/
structure ForwardedPortsFit.Keeps (text : JsonText) (crates : LoopbackCrates)
    (seen seen' : DB -> Prop) (s t : Client) : Prop where
  coherent : t.Coherent
  hosted : t.Hosted seen'
  owned : t.db.AppsOwned
  forwarding : forall forwarding, ForwardingFits text seen s.db forwarding ->
    ForwardingFits text seen' t.db forwarding
  request : forall c, LoopbackFits text crates seen s c -> LoopbackFits text crates seen' t c
  calls : s.calls.length ≤ t.calls.length

theorem ForwardedPortsFit.keeps {s : ForwardedPorts} {client : Client}
    (hs : ForwardedPortsFit text crates seen s)
    (hclient : client = s.client ∨ exists a, ClientEffect text slug s.client a client)
    (hnow : seen s.client.db) (hseen : forall past, seen past -> seen' past) :
    ForwardedPortsFit.Keeps text crates seen seen' s.client client := by
  have hrequest : forall c, LoopbackFits text crates seen s.client c ->
      LoopbackFits text crates seen' client c := by
    intro c hc
    exact (hc.kept hclient hs.coherent hs.hosted).mono hseen
  rcases hclient with rfl | ⟨a, heffect⟩
  · exact ⟨hs.coherent, hs.hosted.mono hseen, hs.owned, fun forwarding h => h.mono hseen, hrequest,
      Nat.le_refl _⟩
  · exact ⟨heffect.coherent hs.coherent, (heffect.hosted hs.coherent hs.hosted hnow).mono hseen,
      heffect.appsOwned hs.owned,
      fun forwarding h => (h.kept (heffect.grown hs.coherent).rows).mono hseen, hrequest,
      heffect.calls_le⟩

/-- A step that leaves the requests alone. -/
theorem ForwardedPortsFit.of_same {s t : ForwardedPorts} (hs : ForwardedPortsFit text crates seen s)
    (hclient : t.client = s.client ∨ exists a, ClientEffect text slug s.client a t.client)
    (hnow : seen s.client.db) (hseen : forall past, seen past -> seen' past)
    (hforwardings : forall (k : Nat) (forwarding : Forwarding),
      t.forwardings[k]? = some forwarding -> ForwardingFits text seen' t.client.db forwarding)
    (hports : forall (k : Nat) (port : ForwardedPort), t.ports[k]? = some port ->
      port.Fits text crates.urls seen')
    (hrequests : t.requests = s.requests) (hsent : t.sent = s.sent) :
    ForwardedPortsFit text crates seen' t := by
  have hkeeps := hs.keeps hclient hnow hseen
  refine ⟨hkeeps.coherent, hkeeps.hosted, hkeeps.owned, hforwardings, hports, ?_, ?_, ?_⟩
  · intro i c hc
    rw [hrequests] at hc
    exact hkeeps.request c (hs.requests i c hc)
  · unfold ForwardedPorts.StreamsOnce
    rw [hrequests, hsent]
    exact UsedOnce.issues hs.streams hkeeps.calls
  · rw [hsent]
    intro e he
    refine (hs.sent e he).moved hclient hs.coherent hseen fun c hc => ⟨c.phase, ?_⟩
    rw [hrequests]
    exact hc

/-- A request that has just come is let in, or answered. -/
theorem ForwardedPort.receive_spec (port : ForwardedPort) (urls : UrlParser) (req : HttpRequest) :
    (port.receive urls req = LoopbackPhase.admitted ∧ port.admits urls req.headers = true) ∨
      (port.receive urls req).ended = true := by
  unfold ForwardedPort.receive
  split
  · rename_i hadmits
    exact Or.inl ⟨rfl, hadmits⟩
  · exact Or.inr rfl

/-- A request comes. -/
theorem ForwardedPortsFit.of_received {s : ForwardedPorts}
    (hs : ForwardedPortsFit text crates seen s) (hnow : seen s.client.db)
    (hseen : forall past, seen past -> seen' past) {k : Nat} {port : ForwardedPort}
    (hport : s.ports[k]? = some port) (req : HttpRequest) :
    ForwardedPortsFit text crates seen'
      { s with requests := s.requests ++ [⟨port, req, port.receive crates.urls req⟩] } := by
  have hsame : s.client = s.client ∨
      exists a, ClientEffect text Slugify.ascii s.client a s.client := Or.inl rfl
  have hkeeps := hs.keeps hsame hnow hseen
  have hfitting := (hs.ports k port hport).mono hseen
  have hnew : LoopbackFits text crates seen' s.client ⟨port, req, port.receive crates.urls req⟩ ∧
      (port.receive crates.urls req).stream = none := by
    rcases port.receive_spec crates.urls req with ⟨hadmitted, hadmits⟩ | hended
    · rw [hadmitted]
      exact ⟨⟨hfitting, fun _ => hadmits, nofun, nofun⟩, rfl⟩
    · exact ⟨LoopbackFits.of_ended hfitting hended, (LoopbackPhase.idle hended).left⟩
  refine ⟨hkeeps.coherent, hkeeps.hosted, hkeeps.owned,
    fun j forwarding hj => hkeeps.forwarding forwarding (hs.forwardings j forwarding hj),
    fun j port hj => (hs.ports j port hj).mono hseen, ?_, ?_, ?_⟩
  · intro i c hc
    rcases slot_append_eq_some_iff.mp hc with hc | ⟨rfl, rfl⟩
    · exact hkeeps.request c (hs.requests i c hc)
    · exact hnew.left
  · exact UsedOnce.joined hs.streams hnew.right
  · intro e he
    refine (hs.sent e he).moved hsame hs.coherent hseen fun c hc => ⟨c.phase, ?_⟩
    exact slot_append_eq_some_iff.mpr (Or.inl hc)

/-- A request moves. -/
theorem ForwardedPortsFit.of_moved {s : ForwardedPorts}
    (hs : ForwardedPortsFit text crates seen s) {i : Nat} {c : LoopbackCall}
    (hc : s.requests[i]? = some c) {phase : LoopbackPhase} {client : Client}
    {added : List LoopbackSent}
    (h : LoopbackEffect crates.authorityHost s.client i c phase client added)
    (hnow : seen s.client.db) (hseen : forall past, seen past -> seen' past) :
    ForwardedPortsFit text crates seen'
      { s.move i c phase with client := client, sent := s.sent ++ added } := by
  have hclient : client = s.client ∨
      exists a, ClientEffect text Slugify.ascii s.client a client := h.client
  have hkeeps := hs.keeps hclient hnow hseen
  refine ⟨hkeeps.coherent, hkeeps.hosted, hkeeps.owned,
    fun j forwarding hj => hkeeps.forwarding forwarding (hs.forwardings j forwarding hj),
    fun j port hj => (hs.ports j port hj).mono hseen, ?_,
    h.streamsOnce hs.streams hc hkeeps.calls, ?_⟩
  · intro j d hd
    rcases (slot_set_eq_some_iff hc).mp hd with ⟨rfl, rfl⟩ | ⟨-, hd⟩
    · exact (h.fits hnow (hs.requests _ c hc)).mono hseen
    · exact hkeeps.request d (hs.requests j d hd)
  · intro e he
    rcases List.mem_append.mp he with hold | hnew
    · refine (hs.sent e hold).moved hclient hs.coherent hseen ?_
      intro d hd
      by_cases hi : e.request = i
      · rw [hi, hc] at hd
        cases hd
        exact ⟨phase, hi ▸ slot_set_self hc _⟩
      · exact ⟨d.phase, (slot_set_eq_some_iff hc).mpr (Or.inr ⟨hi, hd⟩)⟩
    · rcases h.added with rfl | ⟨call, hphase, -, -, rfl⟩
      · cases hnew
      · cases List.mem_singleton.mp hnew
        have hfits := hkeeps.request c (hs.requests i c hc)
        exact ⟨_, slot_set_self hc _, hfits.port, hfits.letIn (by rw [hphase]; rfl),
          hfits.opening call (by rw [hphase]; rfl), rfl⟩

end

/-!
## A page of a development server
-/

end Guest
end WispersAccess
