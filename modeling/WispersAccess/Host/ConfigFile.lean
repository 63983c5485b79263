import WispersAccess.Host.Config
import WispersAccess.Wire.Documents
import WispersAccess.Wire.Urls

/-!
# The config file

How a `share.toml` is read, normalised and validated.  Reading TOML and PEM, and
checking a certificate, are the business of the crates the program uses.
-/

namespace WispersAccess
namespace Host

open Foundation
open Wire (AppKind Origin OriginError UrlParser utf8)

/-- What stands between the BEGIN and END lines of a PEM section. -/
inductive SectionKind where
  | certificate
  | other (label : String)
  deriving DecidableEq, Repr

/-- The crates a config file is read with. -/
structure ConfigCrates where
  /-- A TOML document, as the tree that serde reads. -/
  toml : String -> Option Json
  pemSections : String -> Except String (List (SectionKind × List UInt8))
  /-- `RootCertStore::add`. -/
  addRoot : List UInt8 -> Except String Unit
  base64 : List UInt8 -> String

/-!
## The file as written
-/

/-- One `[[app]]` block as written. -/
structure AppEntry where
  id : String
  name : String
  kind : AppKind
  forwardProxy : Bool
  upstream : Option String
  startUrl : Option String
  proxiedOrigins : Option (List String)

structure ShareFile where
  name : String
  apps : List AppEntry
  caCertificates : List String

/-- `deny_unknown_fields`. -/
def onlyFields (names : List String) (fields : List (String × Json)) : Option Unit :=
  if fields.all fun f => names.contains f.1 then some () else none

/-- The mode of an app; a typo must not parse. -/
def modeName (s : String) : Option Bool :=
  if s = "reverse-proxy" then some false
  else if s = "forward-proxy" then some true
  else none

def AppEntry.ofJson (j : Json) : Option AppEntry := do
  let fields <- j.readFields
  onlyFields ["id", "name", "kind", "mode", "upstream", "start_url", "proxied_origins"] fields
  let id <- Json.required Json.readText "id" fields
  let name <- Json.defaulted "" Json.readText "name" fields
  let kind <- Json.defaulted AppKind.web (fun v => v.readText.bind AppKind.parse) "kind" fields
  let forwardProxy <- Json.defaulted false (fun v => v.readText.bind modeName) "mode" fields
  let upstream <- Json.defaulted none (fun v => v.readText.map some) "upstream" fields
  let startUrl <- Json.defaulted none (fun v => v.readText.map some) "start_url" fields
  let proxiedOrigins <- Json.defaulted none
    (fun v => (Json.readArray Json.readText v).map some) "proxied_origins" fields
  return { id, name, kind, forwardProxy, upstream, startUrl, proxiedOrigins }

/-- The `[transport]` section of an old file, which the state DB has taken over. -/
def readLegacyTransport (j : Json) : Option Unit := do
  let fields <- j.readFields
  let kind <- Json.required Json.readText "kind" fields
  if kind = "wispers-connect" then
    onlyFields ["kind", "backend"] fields
    let _ <- Json.defaulted none (fun v => v.readText.map some) "backend" fields
    return ()
  else if kind = "iroh" then onlyFields ["kind"] fields
  else none

def ShareFile.ofJson (j : Json) : Option ShareFile := do
  let fields <- j.readFields
  onlyFields ["name", "app", "ca_certificates", "transport"] fields
  let name <- Json.required Json.readText "name" fields
  let apps <- Json.defaulted [] (Json.readArray AppEntry.ofJson) "app" fields
  let caCertificates <-
    Json.defaulted [] (Json.readArray Json.readText) "ca_certificates" fields
  let _ <- Json.defaulted () readLegacyTransport "transport" fields
  return { name, apps, caCertificates }

/-!
## Errors
-/

inductive UpstreamError where
  | empty
  /-- Expected `host:port` or `:port`. -/
  | noPort (s : String)
  | invalidPort (port : String)
  | portZero
  deriving DecidableEq, Repr

inductive AppError where
  /-- `start_url` and `proxied_origins` need forward-proxy mode. -/
  | needsForwardProxy
  | upstreamMissing
  /-- `upstream` does not apply to forward-proxy mode. -/
  | upstreamInForwardProxy
  /-- Forward-proxy mode needs kind `web`. -/
  | kindNotWeb
  /-- Forward-proxy mode needs `start_url` and `proxied_origins`. -/
  | originsMissing
  | invalidOrigin (text : String) (e : OriginError)
  /-- iOS guest nodes can't reach https on a loopback name. -/
  | loopbackNotHttp (origin : Origin)
  /-- Android guest nodes block plain http to other hosts. -/
  | notHttps (origin : Origin)
  | startUrlNotUrl
  | invalidStartUrl (e : OriginError)
  /-- The origin of `start_url` is not in `proxied_origins`. -/
  | startUrlNotProxied (origin : Origin)
  deriving DecidableEq, Repr

inductive CertificateError where
  | notPem (e : String)
  | noCertificate
  | notCertificate (kind : SectionKind)
  | manySections
  | notX509 (e : String)
  deriving DecidableEq, Repr

inductive ConfigError where
  /-- Not TOML, or not the fields of a share file. -/
  | parse
  | emptyName
  | invalidAppId (id : String)
  | duplicateAppId (id : String)
  | invalidUpstream (app : String) (reason : UpstreamError)
  | invalidApp (app : String) (reason : AppError)
  /-- Entries are counted from 1. -/
  | invalidCaCertificate (number : Nat) (reason : CertificateError)
  deriving DecidableEq, Repr

/-!
## Validation
-/

def isIdChar (c : Char) : Bool :=
  c.isAlphanum || c == '-' || c == '_'

/-- Share and app ids need to be file-system and DNS-label safe. -/
def isValidId (s : String) : Bool :=
  s ≠ "" && (utf8 s).length ≤ 64 && s.toList.all isIdChar &&
    !(s.toList.head? = some '-' || s.toList.head? = some '_') &&
    !(s.toList.getLast? = some '-' || s.toList.getLast? = some '_')

/-- Parse an upstream dial target into a normalised `host:port`. -/
def parseUpstream (s : String) : Except UpstreamError String :=
  let s := trim s
  if s = "" then Except.error UpstreamError.empty
  else
    match rsplitOnce ':' s.toList with
    | none => Except.error (UpstreamError.noPort s)
    | some (host, port) =>
        match parseU16 (String.ofList port) with
        | none => Except.error (UpstreamError.invalidPort (String.ofList port))
        | some n =>
            if n = 0 then Except.error UpstreamError.portZero
            else
              let host := if host = [] then "localhost" else String.ofList host
              Except.ok (host ++ ":" ++ toString n.toNat)

/-- A loopback name takes `http`, every other name `https`. -/
def checkScheme (origin : Origin) : Except AppError Unit :=
  match origin.isLoopback, origin.https with
  | true, true => Except.error (AppError.loopbackNotHttp origin)
  | false, false => Except.error (AppError.notHttps origin)
  | _, _ => Except.ok ()

section
variable (urls : UrlParser)

def parseProxiedOrigin (text : String) : Except AppError Origin :=
  match Origin.parse urls text with
  | Except.error e => Except.error (AppError.invalidOrigin text e)
  | Except.ok origin =>
      match checkScheme origin with
      | Except.error e => Except.error e
      | Except.ok () => Except.ok origin

/-- Parse a forward-proxy app's start URL and origins, which must cover the start URL. -/
def parseForwardProxy (startUrl : String) (origins : List String) :
    Except AppError AppProxyMode := do
  let origins <- origins.mapM (parseProxiedOrigin urls)
  match urls.parse (trim startUrl) with
  | none => Except.error AppError.startUrlNotUrl
  | some url =>
      match Origin.of url with
      | Except.error e => Except.error (AppError.invalidStartUrl e)
      | Except.ok startOrigin =>
          if startOrigin ∈ origins then Except.ok (AppProxyMode.forwardProxy url.text origins)
          else Except.error (AppError.startUrlNotProxied startOrigin)

/-- The mode of an app with what the mode needs. -/
def parseMode (entry : AppEntry) : Except ConfigError AppProxyMode :=
  let invalid := fun reason => Except.error (ConfigError.invalidApp entry.id reason)
  if entry.forwardProxy then
    if entry.upstream.isSome then invalid AppError.upstreamInForwardProxy
    else if entry.kind ≠ AppKind.web then invalid AppError.kindNotWeb
    else
      match entry.startUrl, entry.proxiedOrigins with
      | some startUrl, some origins =>
          match parseForwardProxy urls startUrl origins with
          | Except.error reason => invalid reason
          | Except.ok mode => Except.ok mode
      | _, _ => invalid AppError.originsMissing
  else if entry.startUrl.isSome || entry.proxiedOrigins.isSome then
    invalid AppError.needsForwardProxy
  else
    match entry.upstream with
    | none => invalid AppError.upstreamMissing
    | some upstream =>
        match parseUpstream upstream with
        | Except.error reason => Except.error (ConfigError.invalidUpstream entry.id reason)
        | Except.ok upstream => Except.ok (AppProxyMode.reverseProxy upstream)

/-- Validate one `[[app]]` block and fill in its defaults. -/
def parseApp (entry : AppEntry) : Except ConfigError AppConfig :=
  if isValidId entry.id then
    match parseMode urls entry with
    | Except.error e => Except.error e
    | Except.ok mode =>
        Except.ok {
          id := entry.id
          name := if trim entry.name = "" then entry.id else entry.name
          kind := entry.kind
          mode := mode }
  else Except.error (ConfigError.invalidAppId entry.id)

/-- The apps in the order of the file, after those already read. -/
def parseApps (apps : List AppConfig) : List AppEntry -> Except ConfigError (List AppConfig)
  | [] => Except.ok apps
  | entry :: rest =>
      match parseApp urls entry with
      | Except.error e => Except.error e
      | Except.ok app =>
          if apps.any fun a => a.id = app.id then Except.error (ConfigError.duplicateAppId app.id)
          else parseApps (apps ++ [app]) rest

end

section
variable (crates : ConfigCrates)

/-- The lines of an encoded certificate, of at most 64 characters each. -/
def pemLines (base64 : List Char) : List (List Char) :=
  base64.toChunks 64

def pemCertificate (der : List UInt8) : String :=
  "-----BEGIN CERTIFICATE-----\n" ++
    String.ofList ((pemLines (crates.base64 der).toList).flatMap fun line => line ++ ['\n']) ++
    "-----END CERTIFICATE-----\n"

/-- Check an entry, which must hold one certificate, and re-encode it. -/
def parseCaCertificate (pem : String) : Except CertificateError String :=
  match crates.pemSections pem with
  | Except.error e => Except.error (CertificateError.notPem e)
  | Except.ok [] => Except.error CertificateError.noCertificate
  | Except.ok [(SectionKind.certificate, der)] =>
      match crates.addRoot der with
      | Except.error e => Except.error (CertificateError.notX509 e)
      | Except.ok () => Except.ok (pemCertificate crates der)
  | Except.ok [(kind, _)] => Except.error (CertificateError.notCertificate kind)
  | Except.ok _ => Except.error CertificateError.manySections

/-- The entries from the n-th on. -/
def parseCaCertificates (n : Nat) : List String -> Except ConfigError (List String)
  | [] => Except.ok []
  | pem :: rest =>
      match parseCaCertificate crates pem with
      | Except.error reason => Except.error (ConfigError.invalidCaCertificate n reason)
      | Except.ok certificate =>
          match parseCaCertificates (n + 1) rest with
          | Except.error e => Except.error e
          | Except.ok certificates => Except.ok (certificate :: certificates)

/-- Parse, normalise, and validate. -/
def ShareConfig.parse (urls : UrlParser) (text : String) : Except ConfigError ShareConfig :=
  match (crates.toml text).bind ShareFile.ofJson with
  | none => Except.error ConfigError.parse
  | some file =>
      if trim file.name = "" then Except.error ConfigError.emptyName
      else
        match parseApps urls [] file.apps with
        | Except.error e => Except.error e
        | Except.ok apps =>
            match parseCaCertificates crates 1 file.caCertificates with
            | Except.error e => Except.error e
            | Except.ok caCertificates => Except.ok { name := file.name, apps, caCertificates }

end

/-!
## Accepted configs
-/

section
variable {urls : UrlParser} {crates : ConfigCrates}

/-- What an accepted app's mode has been checked for. -/
def AppProxyMode.Accepted (urls : UrlParser) (kind : AppKind) : AppProxyMode -> Prop
  | reverseProxy upstream => exists s, parseUpstream s = Except.ok upstream
  | forwardProxy startUrl origins =>
      kind = AppKind.web ∧
        (exists s url start, urls.parse s = some url ∧ url.text = startUrl ∧
          Origin.of url = Except.ok start ∧ start ∈ origins) ∧
        forall o, o ∈ origins -> o.Parsed urls ∧ checkScheme o = Except.ok ()

/-- What an accepted app has been checked for. -/
structure AppConfig.Accepted (urls : UrlParser) (app : AppConfig) : Prop where
  id : isValidId app.id = true
  name : trim app.name ≠ ""
  mode : app.mode.Accepted urls app.kind

/-- What an accepted config has been checked for. -/
structure ShareConfig.Accepted (urls : UrlParser) (crates : ConfigCrates)
    (config : ShareConfig) : Prop where
  name : trim config.name ≠ ""
  apps : forall app, app ∈ config.apps -> app.Accepted urls
  ids : (config.apps.map AppConfig.id).Nodup
  caCertificates : forall pem, pem ∈ config.caCertificates ->
    exists der, pem = pemCertificate crates der

theorem parseProxiedOrigin_ok {text : String} {o : Origin}
    (h : parseProxiedOrigin urls text = Except.ok o) :
    Origin.parse urls text = Except.ok o ∧ checkScheme o = Except.ok () := by
  unfold parseProxiedOrigin at h
  split at h
  · cases h
  · rename_i origin hparse
    split at h
    · cases h
    · rename_i hscheme
      cases h
      exact ⟨hparse, hscheme⟩

theorem mapM_ok {α β ε : Type _} {f : α -> Except ε β} {xs : List α} {ys : List β}
    (h : xs.mapM f = Except.ok ys) : forall y, y ∈ ys -> exists x, x ∈ xs ∧ f x = Except.ok y := by
  induction xs generalizing ys with
  | nil =>
      cases h
      intro y hy
      cases hy
  | cons x rest ih =>
      rw [List.mapM_cons] at h
      cases hx : f x with
      | error e =>
          rw [hx] at h
          cases h
      | ok z =>
          cases hrest : rest.mapM f with
          | error e =>
              rw [hx, hrest] at h
              cases h
          | ok zs =>
              rw [hx, hrest] at h
              cases h
              intro y hy
              rcases List.mem_cons.mp hy with rfl | hy
              · exact ⟨x, List.mem_cons_self, hx⟩
              · rcases ih hrest y hy with ⟨x', hx', hfx⟩
                exact ⟨x', List.mem_cons_of_mem _ hx', hfx⟩

theorem parseForwardProxy_ok {startUrl : String} {origins : List String} {mode : AppProxyMode}
    (h : parseForwardProxy urls startUrl origins = Except.ok mode) :
    mode.Accepted urls AppKind.web := by
  unfold parseForwardProxy at h
  cases horigins : origins.mapM (parseProxiedOrigin urls) with
  | error e =>
      rw [horigins] at h
      cases h
  | ok parsed =>
      rw [horigins] at h
      simp only [bind, Except.bind] at h
      split at h
      · cases h
      · rename_i url hurl
        split at h
        · cases h
        · rename_i start hstart
          split at h
          · rename_i hmem
            cases h
            refine ⟨rfl, ⟨_, url, start, hurl, rfl, hstart, hmem⟩, ?_⟩
            intro o ho
            rcases mapM_ok horigins o ho with ⟨text, -, hparse⟩
            rcases parseProxiedOrigin_ok hparse with ⟨horigin, hscheme⟩
            exact ⟨Origin.parsed_of_parse horigin, hscheme⟩
          · cases h

theorem parseMode_ok {entry : AppEntry} {mode : AppProxyMode}
    (h : parseMode urls entry = Except.ok mode) : mode.Accepted urls entry.kind := by
  unfold parseMode at h
  simp only at h
  split at h
  · split at h
    · cases h
    · split at h
      · cases h
      · rename_i hkind
        split at h
        · split at h
          · cases h
          · rename_i hmode
            cases h
            rw [Decidable.not_not.mp hkind]
            exact parseForwardProxy_ok hmode
        · cases h
  · split at h
    · cases h
    · split at h
      · cases h
      · split at h
        · cases h
        · rename_i hupstream
          cases h
          exact ⟨_, hupstream⟩

theorem ascii_of_isIdChar {c : Char} (h : isIdChar c = true) : c.toNat < 128 := by
  unfold isIdChar at h
  simp only [Bool.or_eq_true, beq_iff_eq] at h
  rcases h with (halnum | rfl) | rfl
  · exact ascii_of_isAlphanum halnum
  · decide
  · decide

theorem isWhiteSpace_of_isIdChar {c : Char} (h : isIdChar c = true) : isWhiteSpace c = false := by
  have hall : forall c : Char, c.toNat < 128 -> isIdChar c = true -> isWhiteSpace c = false :=
    forall_ascii (by decide)
  exact hall c (ascii_of_isIdChar h) h

theorem isValidId_chars {id : String} (h : isValidId id = true) :
    id ≠ "" ∧ (utf8 id).length ≤ 64 ∧ forall c, c ∈ id.toList -> isIdChar c = true := by
  unfold isValidId at h
  simp only [Bool.and_eq_true, decide_eq_true_eq, List.all_eq_true] at h
  exact ⟨h.left.left.left.left, h.left.left.left.right, h.left.left.right⟩

theorem isValidId_head {id : String} (h : isValidId id = true) : id.toList.head? ≠ some '-' := by
  intro hdash
  unfold isValidId at h
  simp [hdash] at h

theorem parseApp_ok {entry : AppEntry} {app : AppConfig}
    (h : parseApp urls entry = Except.ok app) : app.Accepted urls := by
  unfold parseApp at h
  split at h
  · rename_i hid
    split at h
    · cases h
    · rename_i mode hmode
      cases h
      refine ⟨hid, ?_, parseMode_ok hmode⟩
      show trim (if trim entry.name = "" then entry.id else entry.name) ≠ ""
      split
      · rcases isValidId_chars hid with ⟨hnonempty, -, hchars⟩
        rw [trim_eq_self fun c hc => isWhiteSpace_of_isIdChar (hchars c hc)]
        exact hnonempty
      · assumption
  · cases h

theorem parseApps_ok {entries : List AppEntry} {apps parsed : List AppConfig}
    (h : parseApps urls apps entries = Except.ok parsed)
    (happs : forall app, app ∈ apps -> app.Accepted urls)
    (hids : (apps.map AppConfig.id).Nodup) :
    (forall app, app ∈ parsed -> app.Accepted urls) ∧ (parsed.map AppConfig.id).Nodup := by
  induction entries generalizing apps with
  | nil =>
      cases h
      exact ⟨happs, hids⟩
  | cons entry rest ih =>
      unfold parseApps at h
      split at h
      · cases h
      · rename_i app happ
        split at h
        · cases h
        · rename_i hnew
          refine ih h ?_ ?_
          · intro a ha
            rcases List.mem_append.mp ha with ha | ha
            · exact happs a ha
            · rw [List.mem_singleton.mp ha]
              exact parseApp_ok happ
          · rw [List.map_append, List.nodup_append]
            refine ⟨hids, by simp, ?_⟩
            intro id hid id' hid' heq
            rcases List.mem_map.mp hid with ⟨a, ha, rfl⟩
            have hsame : id' = app.id := List.mem_singleton.mp hid'
            refine hnew (List.any_eq_true.mpr ⟨a, ha, ?_⟩)
            rw [decide_eq_true_eq, heq, hsame]

theorem parseCaCertificate_ok {pem certificate : String}
    (h : parseCaCertificate crates pem = Except.ok certificate) :
    exists der, certificate = pemCertificate crates der := by
  unfold parseCaCertificate at h
  split at h
  · cases h
  · cases h
  · rename_i der _
    split at h
    · cases h
    · cases h
      exact ⟨der, rfl⟩
  · cases h
  · cases h

theorem parseCaCertificates_ok {n : Nat} {pems certificates : List String}
    (h : parseCaCertificates crates n pems = Except.ok certificates) :
    forall pem, pem ∈ certificates -> exists der, pem = pemCertificate crates der := by
  induction pems generalizing n certificates with
  | nil =>
      cases h
      intro pem hpem
      cases hpem
  | cons entry rest ih =>
      unfold parseCaCertificates at h
      split at h
      · cases h
      · rename_i certificate hcertificate
        split at h
        · cases h
        · rename_i others hothers
          cases h
          intro pem hpem
          rcases List.mem_cons.mp hpem with rfl | hpem
          · exact parseCaCertificate_ok hcertificate
          · exact ih hothers pem hpem

/-- A config that is accepted has passed every check. -/
theorem ShareConfig.parse_ok {text : String} {config : ShareConfig}
    (h : ShareConfig.parse crates urls text = Except.ok config) :
    config.Accepted urls crates := by
  unfold ShareConfig.parse at h
  split at h
  · cases h
  · rename_i file _
    split at h
    · cases h
    · rename_i hname
      split at h
      · cases h
      · rename_i apps happs
        split at h
        · cases h
        · rename_i certificates hcertificates
          cases h
          rcases parseApps_ok happs (by simp) List.nodup_nil with ⟨haccepted, hids⟩
          exact ⟨hname, haccepted, hids, parseCaCertificates_ok hcertificates⟩

end

end Host
end WispersAccess
