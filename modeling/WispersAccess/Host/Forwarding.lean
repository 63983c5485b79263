import WispersAccess.Guest.AppRequests

/-!
# A request on its way to an app and back

The guest's proxy takes a request apart and puts it together again for its stream,
the host does so for the app, and both do it with the response on its way back.
Between them is an HTTP connection.  What an app gets of a request, and a browser
of the response, comes to this.
-/

namespace WispersAccess
namespace Host

open Foundation
open Guest (HeaderMap HttpRequest HttpResponse Carriage RequiredCookie hopByHopNames
  handshakeNames requestFraming responseFraming trimBlanks rewriteHeaders rewriteResponse
  isProtocolUpgradeRequest stripHopByHopHeaders scrubbed isPairingCookie)
open Wire (utf8)

/-!
## The host's functions
-/

/-- The header that tells an app who is behind a request. -/
def identityHeader : String := "x-wispers-access-user"

/-- The making of header values: a text is taken as it is, or not at all. -/
structure HeaderValues where
  fromStr : String -> Option (List UInt8)
  bytes : forall s value, fromStr s = some value -> value = utf8 s

def injectIdentity (values : HeaderValues) (headers : HeaderMap) (userId : String) : HeaderMap :=
  let headers := headers.remove identityHeader
  match values.fromStr userId with
  | some value => headers.insert identityHeader value
  | none => headers

def stripHopByHop (headers : HeaderMap) (isUpgrade : Bool) : HeaderMap :=
  headers.withoutHop ["keep-alive", "proxy-authenticate", "proxy-authorization", "te", "trailers"]
    ["connection", "upgrade"] isUpgrade

def connectionListsUpgrade (headers : HeaderMap) : Bool :=
  headers.connectionLists "upgrade"

def isUpgradeRequest (headers : HeaderMap) : Bool :=
  headers.containsKey "upgrade" && connectionListsUpgrade headers

/-- The request as the app gets it. -/
def upstreamRequest (values : HeaderValues) (userId : String) (req : HttpRequest) : HttpRequest :=
  let upgrade := isUpgradeRequest req.headers
  { req with headers := injectIdentity values (stripHopByHop req.headers upgrade) userId }

/-- Forward the request to the app: the response on its way back, and whether the stream and the
app's connection are relayed from then on. -/
def forwardToUpstream (values : HeaderValues) (userId : String) (app : HttpRequest -> HttpResponse)
    (req : HttpRequest) : HttpResponse × Bool :=
  let resp := app (upstreamRequest values userId req)
  (rewriteResponse stripHopByHop resp, resp.status = 101 && isUpgradeRequest req.headers)

theorem isUpgradeRequest_eq : isUpgradeRequest = isProtocolUpgradeRequest :=
  rfl

theorem getAll_injectIdentity (values : HeaderValues) (headers : HeaderMap) (userId name : String) :
    (injectIdentity values headers userId).getAll name =
      if name = identityHeader then (values.fromStr userId).toList else headers.getAll name := by
  unfold injectIdentity
  cases values.fromStr userId with
  | none =>
      simp only [HeaderMap.getAll_remove]
      rfl
  | some value =>
      simp only [HeaderMap.getAll_insert, HeaderMap.getAll_remove, Option.toList_some]
      by_cases hname : name = identityHeader
      · rw [if_pos hname, if_pos hname]
      · rw [if_neg hname, if_neg hname, if_neg hname]

/-!
## The way of a request
-/

/-- The connection over a stream, for a request and for its response. -/
structure StreamConnection where
  there : Carriage requestFraming
  back : Carriage responseFraming

/-- What is left of a request on its way, where nothing breaks. -/
structure Exchange where
  /-- The request as the host gets it. -/
  atHost : HttpRequest
  atApp : HttpRequest
  fromApp : HttpResponse
  hostRelays : Bool
  atBrowser : HttpResponse
  guestRelays : Bool

/-- A request of a browser, through the guest's proxy and the host's to the app, and its response
back. -/
def exchange (conn : StreamConnection) (values : HeaderValues) (userId : String)
    (app : HttpRequest -> HttpResponse) (cookie : Option RequiredCookie) (req : HttpRequest) :
    Option Exchange := do
  let headers := scrubbed cookie req.headers
  let arrived <- conn.there.carry (rewriteHeaders headers)
  let atHost := { req with headers := arrived }
  let (answer, hostRelays) := forwardToUpstream values userId app atHost
  let returned <- conn.back.carry answer.headers
  let resp := { answer with headers := returned }
  some
    { atHost := atHost
      atApp := upstreamRequest values userId atHost
      fromApp := app (upstreamRequest values userId atHost)
      hostRelays := hostRelays
      atBrowser := rewriteResponse stripHopByHopHeaders resp
      guestRelays := resp.status = 101 && isProtocolUpgradeRequest headers }

/-- What an app gets of a request: who the user is, whatever the request says, and nothing that
was the client's own or for one connection only. -/
structure AppGets (values : HeaderValues) (userId : String) (cookie : Option RequiredCookie)
    (req got : HttpRequest) : Prop where
  line : got.method = req.method ∧ got.uri = req.uri ∧ got.body = req.body
  identity : got.headers.getAll identityHeader = (values.fromStr userId).toList
  hop : forall name, name ∈ hopByHopNames -> got.headers.getAll name = []
  handshake : forall name, name ∈ handshakeNames -> got.headers.getAll name =
    if isProtocolUpgradeRequest req.headers then (req.headers.getAll name).map trimBlanks else []
  cookies : got.headers.getAll "cookie" =
    ((scrubbed cookie req.headers).getAll "cookie").map trimBlanks
  hidden : forall own secret : RequiredCookie, cookie = some own ->
    secret.name = own.name ∨ isPairingCookie secret.name = true ->
      secret.isPresentedIn (got.headers.getAll "cookie") = false
  others : forall name, name ∉ hopByHopNames ++ handshakeNames ++ requestFraming ->
    name ∉ [identityHeader, "cookie"] ->
      got.headers.getAll name = (req.headers.getAll name).map trimBlanks

section
variable {conn : StreamConnection} {values : HeaderValues} {userId : String}
  {app : HttpRequest -> HttpResponse} {cookie : Option RequiredCookie} {req : HttpRequest}
  {x : Exchange}

theorem getAll_scrubbed_of_ne (cookie : Option RequiredCookie) (headers : HeaderMap)
    {name : String} (hname : name ≠ "cookie") :
    (scrubbed cookie headers).getAll name = headers.getAll name := by
  cases cookie with
  | none => rfl
  | some own => exact Guest.getAll_stripCookies_of_ne headers _ hname

/-- Cookies have no part in it. -/
theorem upgrade_scrubbed (cookie : Option RequiredCookie) (headers : HeaderMap) :
    isProtocolUpgradeRequest (scrubbed cookie headers) = isProtocolUpgradeRequest headers := by
  have hcookie : "cookie" ∉ handshakeNames := by decide
  apply Guest.isProtocolUpgradeRequest_congr
  intro name hname
  exact getAll_scrubbed_of_ne cookie headers fun heq => hcookie (heq ▸ hname)

/-- What the guest passes on asks for an upgrade just if what it got did. -/
theorem upgrade_rewriteHeaders (headers : HeaderMap) :
    isProtocolUpgradeRequest (rewriteHeaders headers) = isProtocolUpgradeRequest headers := by
  have hplain : forall name, name ∈ handshakeNames -> name ∉ hopByHopNames := by decide
  cases hupgrade : isProtocolUpgradeRequest headers with
  | true =>
      rw [← hupgrade]
      apply Guest.isProtocolUpgradeRequest_congr
      intro name hname
      rw [Guest.getAll_rewriteHeaders, if_neg (hplain name hname), if_pos (Or.inl hupgrade)]
  | false =>
      have hgone : (rewriteHeaders headers).getAll "upgrade" = [] := by
        rw [Guest.getAll_rewriteHeaders, if_neg (by decide), if_neg (by rw [hupgrade]; decide),
          if_neg (by decide)]
      unfold isProtocolUpgradeRequest HeaderMap.containsKey HeaderMap.get
      rw [hgone]
      rfl

theorem exchange_eq_some (h : exchange conn values userId app cookie req = some x) :
    exists arrived returned,
      conn.there.carry (rewriteHeaders (scrubbed cookie req.headers)) = some arrived ∧
      x.atHost = { req with headers := arrived } ∧
      x.atApp = upstreamRequest values userId x.atHost ∧ x.fromApp = app x.atApp ∧
      conn.back.carry (rewriteResponse stripHopByHop x.fromApp).headers = some returned ∧
      x.atBrowser = rewriteResponse stripHopByHopHeaders
        { rewriteResponse stripHopByHop x.fromApp with headers := returned } ∧
      x.hostRelays = (x.fromApp.status = 101 && isUpgradeRequest arrived) ∧
      x.guestRelays = ((rewriteResponse stripHopByHop x.fromApp).status = 101 &&
        isProtocolUpgradeRequest (scrubbed cookie req.headers)) := by
  unfold exchange at h
  simp only [Option.bind_eq_bind, Option.bind_eq_some_iff, Option.some.injEq] at h
  rcases h with ⟨arrived, harrived, returned, hreturned, rfl⟩
  exact ⟨arrived, returned, harrived, rfl, rfl, rfl, hreturned, rfl, rfl, rfl⟩

/-- The host takes a request for an upgrade just if the browser asked for one. -/
theorem upgrade_at_host {arrived : HeaderMap}
    (h : conn.there.carry (rewriteHeaders (scrubbed cookie req.headers)) = some arrived) :
    isUpgradeRequest arrived = isProtocolUpgradeRequest req.headers := by
  rw [isUpgradeRequest_eq, conn.there.upgrade h, upgrade_rewriteHeaders, upgrade_scrubbed]

/-- The headers that an app gets, by their names. -/
theorem getAll_atApp {arrived : HeaderMap} {name : String} (hname : name ∉ requestFraming)
    (h : conn.there.carry (rewriteHeaders (scrubbed cookie req.headers)) = some arrived) :
    (upstreamRequest values userId { req with headers := arrived }).headers.getAll name =
      if name = identityHeader then (values.fromStr userId).toList
      else if name ∈ hopByHopNames ∨
          isProtocolUpgradeRequest req.headers = false ∧ name ∈ handshakeNames then []
      else ((scrubbed cookie req.headers).getAll name).map trimBlanks := by
  show (injectIdentity values (stripHopByHop arrived (isUpgradeRequest arrived)) userId).getAll
    name = _
  have hstrip : (stripHopByHop arrived (isUpgradeRequest arrived)).getAll name =
      if name ∈ hopByHopNames ∨ isUpgradeRequest arrived = false ∧ name ∈ handshakeNames then []
      else arrived.getAll name := HeaderMap.getAll_withoutHop arrived name _ _ _
  rw [getAll_injectIdentity]
  by_cases hidentity : name = identityHeader
  · rw [if_pos hidentity, if_pos hidentity]
  · rw [if_neg hidentity, if_neg hidentity, hstrip, upgrade_at_host h,
      conn.there.carried _ _ _ h hname, Guest.getAll_rewriteHeaders, upgrade_scrubbed]
    by_cases hgone : name ∈ hopByHopNames ∨
        isProtocolUpgradeRequest req.headers = false ∧ name ∈ handshakeNames
    · rw [if_pos hgone, if_pos hgone]
    · have hkept : isProtocolUpgradeRequest req.headers = true ∨ name ∉ handshakeNames := by
        by_contra hnot
        rw [not_or, not_not, Bool.not_eq_true] at hnot
        exact hgone (Or.inr hnot)
      rw [if_neg hgone, if_neg hgone, if_neg fun hhop => hgone (Or.inl hhop), if_pos hkept]

/-- Whatever a browser sends, the app gets the user's identity as the host knows it, none of the
client's cookies, and the rest as it was sent. -/
theorem app_gets_scrubbed_request (h : exchange conn values userId app cookie req = some x) :
    AppGets values userId cookie req x.atApp := by
  rcases exchange_eq_some h with ⟨arrived, returned, harrived, hhost, happ, -⟩
  have hgot : forall name, name ∉ requestFraming -> x.atApp.headers.getAll name =
      if name = identityHeader then (values.fromStr userId).toList
      else if name ∈ hopByHopNames ∨
          isProtocolUpgradeRequest req.headers = false ∧ name ∈ handshakeNames then []
      else ((scrubbed cookie req.headers).getAll name).map trimBlanks := by
    intro name hname
    rw [happ, hhost]
    exact getAll_atApp hname harrived
  have hline : x.atApp.method = req.method ∧ x.atApp.uri = req.uri ∧ x.atApp.body = req.body := by
    rw [happ, hhost]
    exact ⟨rfl, rfl, rfl⟩
  have hcookies : x.atApp.headers.getAll "cookie" =
      ((scrubbed cookie req.headers).getAll "cookie").map trimBlanks := by
    rw [hgot "cookie" (by decide), if_neg (by decide),
      if_neg (fun hor => hor.elim (by decide) fun hand => absurd hand.right (by decide))]
  refine ⟨hline, ?_, ?_, ?_, hcookies, ?_, ?_⟩
  · rw [hgot identityHeader (by decide), if_pos rfl]
  · intro name hname
    have hplain : forall name, name ∈ hopByHopNames ->
        name ∉ requestFraming ∧ name ≠ identityHeader := by decide
    rw [hgot name (hplain name hname).left, if_neg (hplain name hname).right,
      if_pos (Or.inl hname)]
  · intro name hname
    have hplain : forall name, name ∈ handshakeNames -> name ∉ requestFraming ∧
        name ≠ identityHeader ∧ name ∉ hopByHopNames ∧ name ≠ "cookie" := by decide
    rcases hplain name hname with ⟨hframing, hidentity, hhop, hcookie⟩
    rw [hgot name hframing, if_neg hidentity, getAll_scrubbed_of_ne _ _ hcookie]
    cases isProtocolUpgradeRequest req.headers with
    | true => simp [hhop]
    | false => simp [hname]
  · intro own secret hown hsecret
    rw [hcookies, Guest.isPresentedIn_trimmed, hown]
    exact Guest.isPresentedIn_scrub own req.headers hsecret
  · intro name hname hown
    simp only [List.mem_append, not_or] at hname
    simp only [List.mem_cons, List.not_mem_nil, or_false, not_or] at hown
    rw [hgot name hname.right, if_neg hown.left,
      if_neg (fun hor => hor.elim hname.left.left fun hand => hname.left.right hand.right),
      getAll_scrubbed_of_ne _ _ hown.right]

end

/-!
## A socket of a web app
-/

/-- A connection that trims and nothing else. -/
def trimming (own : List String) : Carriage own where
  carry := fun headers => some ⟨headers.entries.map fun e => (e.1, trimBlanks e.2)⟩
  carried := by
    intro sent arrived name h _
    cases h
    unfold HeaderMap.getAll
    rw [List.filter_map, List.map_map, List.map_map]
    rfl

def trimmingConnection : StreamConnection where
  there := trimming requestFraming
  back := trimming responseFraming

/-- Visible texts are taken. -/
def visibleValues : HeaderValues where
  fromStr := Guest.headerFromStr
  bytes := by
    intro s value h
    unfold Guest.headerFromStr at h
    split at h
    · exact (Option.some.inj h).symm
    · cases h

/-- A request for a socket, by a page that would like to be another user. -/
def socketRequest : HttpRequest where
  method := "GET"
  uri := { scheme := none, authority := none, pathAndQuery := some "/socket" }
  headers := HeaderMap.mk [("host", utf8 "chat.family.wa.localhost"),
    ("connection", utf8 "keep-alive, Upgrade"), ("upgrade", utf8 "websocket"),
    (identityHeader, utf8 "admin"), ("te", utf8 "trailers"),
    ("cookie", utf8 "theme=dark; __wispers_proxy_auth=s3cret")]
  body := []

def switching (_ : HttpRequest) : HttpResponse where
  status := 101
  headers := HeaderMap.mk [("upgrade", utf8 "websocket")]
  body := []

/-- The port's cookie. -/
def proxyCookie : RequiredCookie where
  name := "__wispers_proxy_auth"
  value := "s3cret"

theorem exchange_socketRequest :
    (exchange trimmingConnection visibleValues "7" switching (some proxyCookie) socketRequest).map
        (fun x => ([identityHeader, "cookie", "te"].map x.atApp.headers.getAll, x.guestRelays)) =
      some ([[utf8 "7"], [utf8 "theme=dark"], []], true) := by
  decide +kernel

theorem app_gets_socketRequest :
    exists x, exchange trimmingConnection visibleValues "7" switching (some proxyCookie)
        socketRequest = some x ∧
      [identityHeader, "cookie", "te"].map x.atApp.headers.getAll =
        [[utf8 "7"], [utf8 "theme=dark"], []] ∧
      AppGets visibleValues "7" (some proxyCookie) socketRequest x.atApp := by
  rcases Option.map_eq_some_iff.mp exchange_socketRequest with ⟨x, hx, heq⟩
  rw [Prod.mk.injEq] at heq
  exact ⟨x, hx, heq.left, app_gets_scrubbed_request hx⟩

end Host
end WispersAccess
