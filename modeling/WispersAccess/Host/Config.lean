import WispersAccess.Wire.Message

/-!
# The share config

A validated `share.toml`: the apps of the share, how guests reach them, and what
a guest is told about them.
-/

namespace WispersAccess
namespace Host

open Wire (AppKind Origin SharedApp ShareInfo utf8)

inductive TransportKind where
  | wispersConnect
  | iroh
  deriving DecidableEq, Repr

def TransportKind.asStr : TransportKind -> String
  | wispersConnect => "wispers-connect"
  | iroh => "iroh"

/-- How guest nodes reach an app, with what the mode needs. -/
inductive AppProxyMode where
  /-- Requests go to `upstream`, normalised to `host:port`. -/
  | reverseProxy (upstream : String)
  /-- Guests tunnel connections to `origins`. -/
  | forwardProxy (startUrl : String) (origins : List Origin)
  deriving DecidableEq, Repr

def AppProxyMode.wire : AppProxyMode -> Wire.AppProxyMode
  | reverseProxy _ => Wire.AppProxyMode.reverseProxy
  | forwardProxy _ _ => Wire.AppProxyMode.forwardProxy

structure AppConfig where
  id : String
  name : String
  kind : AppKind
  mode : AppProxyMode
  deriving DecidableEq, Repr

structure ShareConfig where
  name : String
  apps : List AppConfig
  caCertificates : List String
  deriving DecidableEq, Repr

def ShareConfig.findApp (config : ShareConfig) (appId : String) : Option AppConfig :=
  config.apps.find? fun app => app.id = appId

/-- `eq_ignore_ascii_case`; lowering a letter here lowers ASCII letters only. -/
def eqIgnoreAsciiCase (s t : String) : Bool :=
  s.toList.map Char.toLower = t.toList.map Char.toLower

/-- Whether a forward-proxy app lists an origin at `host:port`. -/
def ShareConfig.hasProxiedOrigin (config : ShareConfig) (host : String) (port : UInt16) : Bool :=
  config.apps.any fun app =>
    match app.mode with
    | AppProxyMode.forwardProxy _ origins =>
        origins.any fun o => eqIgnoreAsciiCase o.host host && o.port == port
    | AppProxyMode.reverseProxy _ => false

/-!
## The config hash
-/

/-- One byte into 64-bit FNV-1a. -/
def fnv1aByte (h : UInt64) (b : UInt8) : UInt64 :=
  (h ^^^ b.toUInt64) * 0x100000001b3

/-- A field, and the zero byte that separates it from the next. -/
def fnv1aWrite (h : UInt64) (field : String) : UInt64 :=
  (utf8 field ++ [0]).foldl fnv1aByte h

/-- The fields of an app, in the order they are hashed. -/
def AppConfig.hashedFields (app : AppConfig) : List String :=
  [app.id, app.name, app.kind.asStr, app.mode.wire.asStr] ++
    match app.mode with
    | AppProxyMode.reverseProxy upstream => [upstream]
    | AppProxyMode.forwardProxy startUrl origins =>
        [startUrl, toString origins.length] ++ origins.map Origin.toText

def ShareConfig.hashedFields (config : ShareConfig) : List String :=
  config.name :: config.apps.flatMap AppConfig.hashedFields ++ config.caCertificates

def ShareConfig.configHash (config : ShareConfig) : UInt64 :=
  config.hashedFields.foldl fnv1aWrite 0xcbf29ce484222325

/-!
## What a guest is told
-/

/-- The app as guests see it, without its upstream. -/
def AppConfig.shared (app : AppConfig) : SharedApp where
  id := app.id
  name := app.name
  kind := app.kind
  mode := app.mode.wire
  startUrl :=
    match app.mode with
    | AppProxyMode.reverseProxy _ => none
    | AppProxyMode.forwardProxy startUrl _ => some startUrl
  proxiedOrigins :=
    match app.mode with
    | AppProxyMode.reverseProxy _ => []
    | AppProxyMode.forwardProxy _ origins => origins.map Origin.toText

def shareInfo (config : ShareConfig) (transport : TransportKind) : ShareInfo where
  configHash := config.configHash
  name := config.name
  transport := transport.asStr
  apps := config.apps.map AppConfig.shared
  caCertificates := config.caCertificates

theorem findApp_some {config : ShareConfig} {appId : String} {app : AppConfig}
    (h : config.findApp appId = some app) : app ∈ config.apps ∧ app.id = appId := by
  refine ⟨List.mem_of_find?_eq_some h, ?_⟩
  simpa using List.find?_some h

theorem hasProxiedOrigin_iff {config : ShareConfig} {host : String} {port : UInt16} :
    config.hasProxiedOrigin host port = true <->
      exists app startUrl origins o, app ∈ config.apps ∧
        app.mode = AppProxyMode.forwardProxy startUrl origins ∧ o ∈ origins ∧
        eqIgnoreAsciiCase o.host host = true ∧ o.port = port := by
  unfold ShareConfig.hasProxiedOrigin
  rw [List.any_eq_true]
  constructor
  · intro hfound
    rcases hfound with ⟨app, happ, h⟩
    cases hmode : app.mode with
    | reverseProxy upstream => simp [hmode] at h
    | forwardProxy startUrl origins =>
        simp only [hmode, List.any_eq_true, Bool.and_eq_true, beq_iff_eq] at h
        rcases h with ⟨o, ho, hhost, hport⟩
        exact ⟨app, startUrl, origins, o, happ, hmode, ho, hhost, hport⟩
  · intro hfound
    rcases hfound with ⟨app, startUrl, origins, o, happ, hmode, ho, hhost, hport⟩
    refine ⟨app, happ, ?_⟩
    simp only [hmode, List.any_eq_true, Bool.and_eq_true, beq_iff_eq]
    exact ⟨o, ho, hhost, hport⟩

end Host
end WispersAccess
