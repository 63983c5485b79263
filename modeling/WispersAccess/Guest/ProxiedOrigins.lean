import WispersAccess.Foundation.CompactJson
import WispersAccess.Guest.StoredShare
import WispersAccess.Host.ConfigFile

/-!
# What a share proxies

The guest checks the target of a proxy request against the apps it has stored,
the host checks it against its config.  The two come to the same.
-/

namespace WispersAccess
namespace Guest

open Foundation
open Wire (AppProxyMode Origin SharedApp ShareInfo UrlParser)
open Host (AppConfig ConfigCrates ShareConfig TransportKind checkScheme eqIgnoreAsciiCase shareInfo)

/-!
## Requests
-/

/-- The authority of a request's URI. -/
structure Authority where
  host : String
  port : Option UInt16

/-- What a proxy request says about where it goes. -/
structure ProxyRequest where
  connect : Bool
  scheme : Option String
  authority : Option Authority

def ProxyRequest.port (req : ProxyRequest) (authority : Authority) : Option UInt16 :=
  if req.connect then authority.port
  else if req.scheme = some "http" then some (authority.port.getD 80)
  else none

/-- Where a proxy request goes: the authority of a CONNECT, or the host and port of an absolute
`http` URL. -/
def target (req : ProxyRequest) : Option (String × UInt16) :=
  req.authority.bind fun authority =>
    (req.port authority).map fun port => (asciiLowercase authority.host, port)

/-- Whether a forward-proxy app of the share lists an origin at `host:port`. -/
def listsOrigin (urls : UrlParser) (apps : List SharedApp) (host : String) (port : UInt16) : Bool :=
  let listed := (apps.filter fun app => app.mode = AppProxyMode.forwardProxy).flatMap
    fun app => app.proxiedOrigins
  (listed.filterMap fun origin => (Origin.parse urls origin).toOption).any
    fun origin => origin.host = host && origin.port == port

theorem target_lowercase {req : ProxyRequest} {host : String} {port : UInt16}
    (h : target req = some (host, port)) : asciiLowercase host = host := by
  rcases Option.bind_eq_some_iff.mp h with ⟨authority, -, hport⟩
  rcases Option.map_eq_some_iff.mp hport with ⟨_, -, heq⟩
  cases heq
  exact asciiLowercase_idem _

/-!
## The two checks
-/

section
variable {urls : UrlParser}

theorem listsOrigin_iff {apps : List SharedApp} {host : String} {port : UInt16} :
    listsOrigin urls apps host port = true <->
      exists app text o, app ∈ apps ∧ app.mode = AppProxyMode.forwardProxy ∧
        text ∈ app.proxiedOrigins ∧ Origin.parse urls text = Except.ok o ∧
        o.host = host ∧ o.port = port := by
  unfold listsOrigin
  simp only [List.any_eq_true, List.mem_filterMap, List.mem_flatMap, List.mem_filter,
    Bool.and_eq_true, decide_eq_true_eq, beq_iff_eq]
  constructor
  · intro h
    rcases h with ⟨o, ⟨text, ⟨app, ⟨happ, hmode⟩, htext⟩, hparse⟩, hhost, hport⟩
    cases hresult : Origin.parse urls text with
    | error e =>
        rw [hresult] at hparse
        cases hparse
    | ok o' =>
        rw [hresult] at hparse
        cases hparse
        exact ⟨app, text, o, happ, hmode, htext, hresult, hhost, hport⟩
  · intro h
    rcases h with ⟨app, text, o, happ, hmode, htext, hparse, hhost, hport⟩
    refine ⟨o, ⟨text, ⟨app, ⟨happ, hmode⟩, htext⟩, ?_⟩, hhost, hport⟩
    rw [hparse]
    rfl

/-- Parsed hosts are lowercase, so that case makes no difference for them. -/
theorem eqIgnoreAsciiCase_iff {o : Origin} (ho : o.Parsed urls) {host : String}
    (hlower : asciiLowercase host = host) :
    eqIgnoreAsciiCase o.host host = true <-> o.host = host := by
  rcases ho with ⟨s, url, hurl, horigin⟩
  have hself : asciiLowercase o.host = o.host := by
    refine asciiLowercase_eq_self fun c hc hupper => ?_
    have hchar := urls.host_chars s url o hurl horigin c hc
    simp [Wire.isHostChar, hupper.left, hupper.right] at hchar
  have heq : eqIgnoreAsciiCase o.host host = true <->
      asciiLowercase o.host = asciiLowercase host := by
    unfold eqIgnoreAsciiCase asciiLowercase
    rw [decide_eq_true_eq, String.ofList_inj]
  rw [heq, hself, hlower]

/-- The apps that guests are told of list what the config lists. -/
theorem listsOrigin_shareInfo {crates : ConfigCrates} {config : ShareConfig}
    (hconfig : config.Accepted urls crates) (transport : TransportKind) {host : String}
    (hlower : asciiLowercase host = host) (port : UInt16) :
    listsOrigin urls (shareInfo config transport).apps host port =
      config.hasProxiedOrigin host port := by
  rw [Bool.eq_iff_iff, listsOrigin_iff, Host.hasProxiedOrigin_iff]
  constructor
  · intro h
    rcases h with ⟨shared, text, o, hshared, hmode, htext, hparse, hhost, hport⟩
    rcases List.mem_map.mp hshared with ⟨app, happ, rfl⟩
    cases hkind : app.mode with
    | reverseProxy upstream =>
        simp [AppConfig.shared, Host.AppProxyMode.wire, hkind] at hmode
    | forwardProxy startUrl origins =>
        simp only [AppConfig.shared, hkind] at htext
        rcases List.mem_map.mp htext with ⟨origin, horigin, rfl⟩
        have haccepted := (hconfig.apps app happ).mode
        rw [hkind] at haccepted
        have hparsed := (haccepted.right.right origin horigin).left
        rw [Origin.parse_toText hparsed] at hparse
        cases hparse
        exact ⟨app, startUrl, origins, o, happ, hkind, horigin,
          (eqIgnoreAsciiCase_iff hparsed hlower).mpr hhost, hport⟩
  · intro h
    rcases h with ⟨app, startUrl, origins, origin, happ, hkind, horigin, hhost, hport⟩
    have haccepted := (hconfig.apps app happ).mode
    rw [hkind] at haccepted
    have hparsed := (haccepted.right.right origin horigin).left
    refine ⟨app.shared, origin.toText, origin, List.mem_map_of_mem happ, ?_, ?_,
      Origin.parse_toText hparsed, (eqIgnoreAsciiCase_iff hparsed hlower).mp hhost, hport⟩
    · simp [AppConfig.shared, Host.AppProxyMode.wire, hkind]
    · simp only [AppConfig.shared, hkind]
      exact List.mem_map_of_mem horigin

/-- Told to the guest, stored and read back, the apps list for every request what the host's
config lists. -/
theorem guest_and_host_agree {json : JsonText} {crates : ConfigCrates} {file : String}
    {config : ShareConfig} (hparse : ShareConfig.parse crates urls file = Except.ok config)
    (transport : TransportKind) {db : DB} {id : Int} {r : ShareRow} (hr : db.row id = some r) :
    exists info db', ShareInfo.decode json ((shareInfo config transport).encode json) = some info ∧
      db.writeShareInfo json id info = some db' ∧
      forall req host port, target req = some (host, port) ->
        listsOrigin urls (db'.readApps json id) host port =
          config.hasProxiedOrigin host port := by
  have hconfig := Host.ShareConfig.parse_ok hparse
  have hids : ((shareInfo config transport).apps.map fun app => app.id).Nodup := by
    have hsame : (shareInfo config transport).apps.map (fun app => app.id) =
        config.apps.map AppConfig.id := by
      simp [shareInfo, AppConfig.shared]
    rw [hsame]
    exact hconfig.ids
  rcases (@DB.exists_writeShareInfo json) hr hids with ⟨db', hwrite⟩
  refine ⟨_, db', ShareInfo.decode_encode json _, hwrite, ?_⟩
  intro req host port htarget
  rw [DB.readApps_writeShareInfo hwrite]
  exact listsOrigin_shareInfo hconfig transport (target_lowercase htarget) port

end

/-!
## A development server
-/

/-- A share of an app on the host's own machine. -/
def developmentFile : String :=
  "name = \"Dev\"\n[[app]]\nid = \"dev\"\nmode = \"forward-proxy\"\n" ++
    "start_url = \"http://localhost:4200/\"\nproxied_origins = [\"http://localhost:4200\"]\n"

/-- What this file holds. -/
def developmentCrates : ConfigCrates where
  toml := fun text =>
    if text = developmentFile then
      some (Json.obj [("name", Json.str "Dev"), ("app", Json.arr [Json.obj
        [("id", Json.str "dev"), ("mode", Json.str "forward-proxy"),
          ("start_url", Json.str "http://localhost:4200/"),
          ("proxied_origins", Json.ofTexts ["http://localhost:4200"])]])])
    else none
  pemSections := fun _ => Except.ok []
  addRoot := fun _ => Except.ok ()
  base64 := fun _ => ""

def developmentConfig : ShareConfig where
  name := "Dev"
  apps := [{
    id := "dev", name := "dev", kind := Wire.AppKind.web
    mode := Host.AppProxyMode.forwardProxy "http://localhost:4200/"
      [{ https := false, host := "localhost", port := 4200 }] }]
  caCertificates := []

theorem parse_developmentFile : ShareConfig.parse developmentCrates UrlParser.development
    developmentFile = Except.ok developmentConfig := by
  decide +kernel

/-- The store with a row for the first share. -/
def oneRow : DB :=
  { DB.empty with shares := SerialTable.empty.insert (ShareRow.new firstShare 0) }

/-- A CONNECT to the development server. -/
def developmentRequest : ProxyRequest where
  connect := true
  scheme := none
  authority := some ⟨"LOCALHOST", some 4200⟩

/-- A CONNECT to the development server is let through on both sides. -/
theorem guest_and_host_agree_on_development :
    exists info db', ShareInfo.decode Json.compact
        ((shareInfo developmentConfig TransportKind.iroh).encode Json.compact) = some info ∧
      oneRow.writeShareInfo Json.compact 1 info = some db' ∧
      target developmentRequest = some ("localhost", 4200) ∧
      listsOrigin UrlParser.development (db'.readApps Json.compact 1) "localhost" 4200 = true := by
  have hrow : oneRow.row 1 = some (ShareRow.new firstShare 0) := by decide
  rcases @guest_and_host_agree _ Json.compact _ _ _ parse_developmentFile TransportKind.iroh _ _ _
    hrow with ⟨info, db', hdecode, hwrite, hagree⟩
  have htarget : target developmentRequest = some ("localhost", 4200) := by decide
  refine ⟨info, db', hdecode, hwrite, htarget, ?_⟩
  rw [hagree _ _ _ htarget]
  decide

end Guest
end WispersAccess
