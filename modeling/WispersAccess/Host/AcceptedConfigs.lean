import WispersAccess.Host.ConfigHash

/-!
# What an accepted config is like

Upstreams and start URLs are normalised while a config is read.  What is stored
would be read as itself again, names what a guest may open, and keeps the rule
on schemes.
-/

namespace WispersAccess
namespace Host

open Foundation
open Wire (AppKind Origin Url UrlParser)

/-!
## Upstreams
-/

/-- An upstream as it is stored: a host and a port that are read as themselves. -/
structure NormalUpstream (upstream : String) : Prop where
  parts : exists host port, host ≠ "" ∧ 1 ≤ port ∧ port ≤ 65535 ∧
    upstream = host ++ ":" ++ toString port
  unchanged : parseUpstream upstream = Except.ok upstream

/-- The parts an accepted upstream is put together from. -/
theorem parseUpstream_parts {s upstream : String} (h : parseUpstream s = Except.ok upstream) :
    exists (host : String) (n : UInt16), host ≠ "" ∧ n ≠ 0 ∧
      (forall c, host.toList.head? = some c -> isWhiteSpace c = false) ∧
      upstream = host ++ ":" ++ toString n.toNat := by
  unfold parseUpstream at h
  simp only at h
  split at h
  · cases h
  split at h
  · cases h
  rename_i host port hsplit
  split at h
  · cases h
  rename_i n hport
  split at h
  · cases h
  rename_i hn
  cases h
  have htext := (rsplitOnce_some hsplit).left
  by_cases hhost : host = []
  · refine ⟨"localhost", n, by decide, hn, ?_, ?_⟩
    · intro c hc
      cases hc
      decide
    · rw [if_pos hhost]
  · refine ⟨String.ofList host, n, ?_, hn, ?_, ?_⟩
    · intro hempty
      exact hhost (by simpa using congrArg String.toList hempty)
    · intro c hc
      rw [String.toList_ofList] at hc
      refine @head?_trim s c ?_
      rw [htext, List.head?_append, hc]
      rfl
    · rw [if_neg hhost]

/-- A host and a port are read as they are. -/
theorem parseUpstream_normal {host : String} {n : UInt16} (hhost : host ≠ "") (hn : n ≠ 0)
    (hhead : forall c, host.toList.head? = some c -> isWhiteSpace c = false) :
    parseUpstream (host ++ ":" ++ toString n.toNat) =
      Except.ok (host ++ ":" ++ toString n.toNat) := by
  have hlist : (host ++ ":" ++ toString n.toNat).toList =
      host.toList ++ ':' :: (toString n.toNat).toList := by
    rw [String.toList_append, String.toList_append, List.append_assoc]
    rfl
  have hdigits : (toString n.toNat).toList = Nat.toDigits 10 n.toNat := by
    rw [Nat.toString_eq_ofList_toDigits, String.toList_ofList]
  have hnonempty : host.toList ≠ [] := fun hnil => hhost (String.toList_eq_nil_iff.mp hnil)
  have htrim : trim (host ++ ":" ++ toString n.toNat) = host ++ ":" ++ toString n.toNat := by
    apply trim_eq_self_of_ends
    · intro c hc
      rw [hlist, List.head?_append_of_ne_nil _ hnonempty] at hc
      exact hhead c hc
    · intro c hc
      rw [hlist, hdigits, ← List.singleton_append, ← List.append_assoc,
        List.getLast?_append_of_ne_nil _ Nat.toDigits_ne_nil] at hc
      have hdigit := isDigit_of_mem_toDigits (List.mem_of_getLast? hc)
      have hall : forall c : Char, c.toNat < 128 -> c.isDigit = true -> isWhiteSpace c = false :=
        forall_ascii (by decide)
      exact hall c (ascii_of_isDigit hdigit) hdigit
  have hcolon : ':' ∉ (toString n.toNat).toList := by
    intro hmem
    rw [hdigits] at hmem
    exact absurd (isDigit_of_mem_toDigits hmem) (by decide)
  have hsplit : rsplitOnce ':' (host ++ ":" ++ toString n.toNat).toList =
      some (host.toList, (toString n.toNat).toList) := by
    rw [hlist]
    exact rsplitOnce_append hcolon host.toList
  have hupstream : host ++ ":" ++ toString n.toNat ≠ "" := by
    intro hempty
    have hlists := congrArg String.toList hempty
    rw [hlist] at hlists
    simp at hlists
  unfold parseUpstream
  simp only [htrim, if_neg hupstream, hsplit, String.ofList_toList, parseU16_toString, if_neg hn,
    if_neg hnonempty]

theorem normalUpstream_of_parse {s upstream : String} (h : parseUpstream s = Except.ok upstream) :
    NormalUpstream upstream := by
  rcases parseUpstream_parts h with ⟨host, n, hhost, hn, hhead, rfl⟩
  have hpositive : n.toNat ≠ 0 := fun hzero => hn (UInt16.toNat_inj.mp hzero)
  have hbound := n.toNat_lt
  constructor
  · exact ⟨host, n.toNat, hhost, by omega, by omega, rfl⟩
  · exact parseUpstream_normal hhost hn hhead

/-!
## Origins
-/

/-- An origin keeps the rule on schemes if it is http exactly on the loopback. -/
theorem checkScheme_eq_ok_iff {o : Origin} :
    checkScheme o = Except.ok () <-> (o.https = false <-> o.isLoopback = true) := by
  unfold checkScheme
  cases o.isLoopback <;> cases o.https <;> simp

/-- A URL that is read was printed as a text that is read as it again. -/
def PrintsParse (urls : UrlParser) : Prop :=
  forall s url, urls.parse s = some url -> urls.parse url.text = some url

/-- A forward-proxy app, as the config it is part of has it. -/
structure NormalForwardProxy (urls : UrlParser) (config : ShareConfig) (kind : AppKind)
    (startUrl : String) (origins : List Origin) : Prop where
  kind : kind = AppKind.web
  start : exists url o, urls.parse startUrl = some url ∧ Origin.of url = Except.ok o ∧
    config.hasProxiedOrigin o.host o.port = true
  schemes : forall o, o ∈ origins -> (o.https = false <-> o.isLoopback = true)

/-- What holds of the mode of an accepted app. -/
def AppProxyMode.Normal (urls : UrlParser) (config : ShareConfig) (kind : AppKind) :
    AppProxyMode -> Prop
  | reverseProxy upstream => NormalUpstream upstream
  | forwardProxy startUrl origins => NormalForwardProxy urls config kind startUrl origins

structure AppConfig.Normal (urls : UrlParser) (config : ShareConfig) (app : AppConfig) :
    Prop where
  id : isValidId app.id = true
  name : trim app.name ≠ ""
  mode : app.mode.Normal urls config app.kind
  found : config.findApp app.id = some app

structure ShareConfig.Normal (urls : UrlParser) (config : ShareConfig) : Prop where
  name : trim config.name ≠ ""
  ids : (config.apps.map AppConfig.id).Nodup
  apps : forall app, app ∈ config.apps -> app.Normal urls config

section
variable {urls : UrlParser} {crates : ConfigCrates} {config : ShareConfig}

theorem AppProxyMode.Accepted.normal {app : AppConfig} (hurls : PrintsParse urls)
    (happ : app ∈ config.apps) (hmode : app.mode.Accepted urls app.kind) :
    app.mode.Normal urls config app.kind := by
  cases heq : app.mode with
  | reverseProxy upstream =>
      rw [heq] at hmode
      rcases hmode with ⟨s, hs⟩
      exact normalUpstream_of_parse hs
  | forwardProxy startUrl origins =>
      rw [heq] at hmode
      rcases hmode with ⟨hkind, ⟨s, url, start, hurl, htext, hstart, hmem⟩, horigins⟩
      constructor
      · exact hkind
      · refine ⟨url, start, ?_, hstart, ?_⟩
        · rw [← htext]
          exact hurls s url hurl
        · rw [hasProxiedOrigin_iff]
          refine ⟨app, startUrl, origins, start, happ, heq, hmem, ?_, rfl⟩
          unfold eqIgnoreAsciiCase
          exact decide_eq_true rfl
      · intro o ho
        exact checkScheme_eq_ok_iff.mp (horigins o ho).right

/-- A config that is accepted is normal, and its apps are found under their ids. -/
theorem accepted_config_normal {text : String} (hurls : PrintsParse urls)
    (h : ShareConfig.parse crates urls text = Except.ok config) : config.Normal urls := by
  have hc := ShareConfig.parse_ok h
  constructor
  · exact hc.name
  · exact hc.ids
  · intro app happ
    have haccepted := hc.apps app happ
    constructor
    · exact haccepted.id
    · exact haccepted.name
    · exact AppProxyMode.Accepted.normal hurls happ haccepted.mode
    · exact hc.findApp happ

end

/-!
## A share with both kinds of apps
-/

def officeFile : String :=
  "name = \"Office\"\n[[app]]\nid = \"wiki\"\nupstream = \" :08080 \"\n" ++
    "[[app]]\nid = \"dev\"\nname = \" \"\nmode = \"forward-proxy\"\n" ++
    "start_url = \"http://localhost:4200\"\nproxied_origins = [\"http://localhost:4200/\"]\n"

/-- What this file holds. -/
def ConfigCrates.office : ConfigCrates where
  toml := fun text =>
    if text = officeFile then
      some (Json.obj [("name", Json.str "Office"), ("app", Json.arr [
        Json.obj [("id", Json.str "wiki"), ("upstream", Json.str " :08080 ")],
        Json.obj [("id", Json.str "dev"), ("name", Json.str " "),
          ("mode", Json.str "forward-proxy"), ("start_url", Json.str "http://localhost:4200"),
          ("proxied_origins", Json.ofTexts ["http://localhost:4200/"])]])])
    else none
  pemSections := fun _ => Except.ok []
  addRoot := fun _ => Except.ok ()
  base64 := fun _ => ""

def officeConfig : ShareConfig where
  name := "Office"
  apps := [
    { id := "wiki", name := "wiki", kind := AppKind.web
      mode := AppProxyMode.reverseProxy "localhost:8080" },
    { id := "dev", name := "dev", kind := AppKind.web
      mode := AppProxyMode.forwardProxy "http://localhost:4200/"
        [{ https := false, host := "localhost", port := 4200 }] }]
  caCertificates := []

theorem parse_officeFile : ShareConfig.parse ConfigCrates.office UrlParser.development
    officeFile = Except.ok officeConfig := by
  decide +kernel

theorem development_printsParse : PrintsParse UrlParser.development := by
  intro s url hurl
  change (if s = "http://localhost:4200" ∨ s = "http://localhost:4200/" then
    some Wire.developmentUrl else none) = some url at hurl
  split at hurl
  · cases hurl
    decide
  · cases hurl

/-- The upstream, the names and the start URL of this share come out normal. -/
theorem officeConfig_normal :
    ShareConfig.parse ConfigCrates.office UrlParser.development officeFile =
        Except.ok officeConfig ∧ officeConfig.Normal UrlParser.development :=
  ⟨parse_officeFile, accepted_config_normal development_printsParse parse_officeFile⟩

end Host
end WispersAccess
