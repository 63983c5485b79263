import WispersAccess.Foundation.Slots
import WispersAccess.Host.ConfigFile

/-!
# What the config hash tells apart

The hash reads the fields of a config, each followed by a zero byte.  The bytes
determine the fields as long as no field has zero bytes of its own, and the
fields determine the share.
-/

namespace WispersAccess
namespace Host

open Foundation
open Wire (AppKind Origin UrlParser utf8)

/-!
## The bytes
-/

/-- The bytes that go into the hash. -/
def ShareConfig.fedBytes (config : ShareConfig) : List UInt8 :=
  terminated 0 (config.hashedFields.map utf8)

/-- How many zero bytes each of the hashed fields has. -/
def ShareConfig.zeroBytes (config : ShareConfig) : List Nat :=
  config.hashedFields.map fun field => (utf8 field).count 0

theorem configHash_eq (config : ShareConfig) :
    config.configHash = config.fedBytes.foldl fnv1aByte 0xcbf29ce484222325 := by
  have hfields : forall (fields : List String) (h : UInt64), fields.foldl fnv1aWrite h =
      (terminated 0 (fields.map utf8)).foldl fnv1aByte h := by
    intro fields
    induction fields with
    | nil =>
        intro h
        rfl
    | cons field rest ih =>
        intro h
        have hcons : terminated 0 ((field :: rest).map utf8) =
            (utf8 field ++ [0]) ++ terminated 0 (rest.map utf8) :=
          rfl
        rw [hcons, List.foldl_append, List.foldl_cons, ih]
        rfl
  exact hfields config.hashedFields _

theorem hashedFields_of_fedBytes {config config' : ShareConfig}
    (hbytes : config.fedBytes = config'.fedBytes) (hzeros : config.zeroBytes = config'.zeroBytes) :
    config.hashedFields = config'.hashedFields := by
  have hfields : config.hashedFields.map utf8 = config'.hashedFields.map utf8 := by
    refine terminated_injective hbytes ?_
    rw [List.map_map, List.map_map]
    exact hzeros
  exact List.map_injective_iff.mpr (fun _ _ h => Wire.utf8_injective h) hfields

/-!
## The fields
-/

theorem eq_of_map_eq {α β : Type _} {f : α -> β} {xs ys : List α} (h : xs.map f = ys.map f)
    (hf : forall x, x ∈ xs -> forall y, y ∈ ys -> f x = f y -> x = y) : xs = ys := by
  induction xs generalizing ys with
  | nil =>
      cases ys with
      | nil => rfl
      | cons y ys => cases h
  | cons x xs ih =>
      cases ys with
      | nil => cases h
      | cons y ys =>
          rcases List.cons.inj h with ⟨hhead, htail⟩
          have hx := hf x List.mem_cons_self y List.mem_cons_self hhead
          have hxs := ih htail fun x' hx' y' hy' =>
            hf x' (List.mem_cons_of_mem _ hx') y' (List.mem_cons_of_mem _ hy')
          rw [hx, hxs]

section
variable {urls : UrlParser} {crates : ConfigCrates}

/-- The fields of an app say where they end. -/
theorem AppConfig.hashedFields_append_inj {app app' : AppConfig} {rest rest' : List String}
    (happ : app.Accepted urls) (happ' : app'.Accepted urls)
    (h : app.hashedFields ++ rest = app'.hashedFields ++ rest') : app = app' ∧ rest = rest' := by
  rcases app with ⟨id, name, kind, mode⟩
  rcases app' with ⟨id', name', kind', mode'⟩
  simp only [hashedFields, List.cons_append, List.nil_append, List.cons.injEq] at h
  rcases h with ⟨rfl, rfl, hkind, hmode, htail⟩
  have hsame := Wire.AppKind.asStr_injective hkind
  subst hsame
  have hwire := Wire.AppProxyMode.asStr_injective hmode
  cases mode with
  | reverseProxy upstream =>
      cases mode' with
      | forwardProxy startUrl' origins' => cases hwire
      | reverseProxy upstream' =>
          rcases List.cons.inj htail with ⟨rfl, hrest⟩
          exact ⟨rfl, hrest⟩
  | forwardProxy startUrl origins =>
      cases mode' with
      | reverseProxy upstream' => cases hwire
      | forwardProxy startUrl' origins' =>
          simp only [List.cons_append, List.cons.injEq] at htail
          rcases htail with ⟨rfl, hcount, htail⟩
          have hlength : (origins.map Origin.toText).length =
              (origins'.map Origin.toText).length := by
            rw [List.length_map, List.length_map]
            exact toString_nat_injective hcount
          rcases List.append_inj htail hlength with ⟨htexts, hrest⟩
          have horigins : origins = origins' := by
            refine eq_of_map_eq htexts fun o ho o' ho' heq => ?_
            exact Origin.toText_injective (happ.mode.right.right o ho).left
              (happ'.mode.right.right o' ho').left heq
          rw [horigins]
          exact ⟨rfl, hrest⟩

theorem pemCertificate_head (der : List UInt8) :
    (pemCertificate crates der).toList.head? = some '-' := by
  unfold pemCertificate
  rw [String.toList_append, String.toList_append, List.append_assoc]
  rfl

/-- No app begins where a certificate stands. -/
theorem hashedFields_ne_certificates {app : AppConfig} {rest certificates : List String}
    (happ : app.Accepted urls)
    (hcertificates : forall pem, pem ∈ certificates ->
      exists der, pem = pemCertificate crates der) :
    certificates ≠ app.hashedFields ++ rest := by
  intro h
  have hmem : app.id ∈ certificates := by
    rw [h]
    exact List.mem_append_left _ List.mem_cons_self
  rcases hcertificates app.id hmem with ⟨der, hpem⟩
  apply isValidId_head happ.id
  rw [hpem]
  exact pemCertificate_head der

theorem apps_hashedFields_inj {apps apps' : List AppConfig}
    {certificates certificates' : List String}
    (happs : forall app, app ∈ apps -> app.Accepted urls)
    (happs' : forall app, app ∈ apps' -> app.Accepted urls)
    (hcertificates : forall pem, pem ∈ certificates -> exists der, pem = pemCertificate crates der)
    (hcertificates' : forall pem, pem ∈ certificates' ->
      exists der, pem = pemCertificate crates der)
    (h : apps.flatMap AppConfig.hashedFields ++ certificates =
      apps'.flatMap AppConfig.hashedFields ++ certificates') :
    apps = apps' ∧ certificates = certificates' := by
  induction apps generalizing apps' with
  | nil =>
      cases apps' with
      | nil => exact ⟨rfl, h⟩
      | cons app' rest' =>
          rw [List.flatMap_cons, List.append_assoc] at h
          exact absurd h
            (hashedFields_ne_certificates (happs' app' List.mem_cons_self) hcertificates)
  | cons app rest ih =>
      cases apps' with
      | nil =>
          rw [List.flatMap_cons, List.append_assoc] at h
          exact absurd h.symm
            (hashedFields_ne_certificates (happs app List.mem_cons_self) hcertificates')
      | cons app' rest' =>
          rw [List.flatMap_cons, List.flatMap_cons, List.append_assoc, List.append_assoc] at h
          rcases AppConfig.hashedFields_append_inj (happs app List.mem_cons_self)
            (happs' app' List.mem_cons_self) h with ⟨rfl, hrest⟩
          rcases ih (fun a ha => happs a (List.mem_cons_of_mem _ ha))
            (fun a ha => happs' a (List.mem_cons_of_mem _ ha)) hrest with ⟨rfl, hsame⟩
          exact ⟨rfl, hsame⟩

/-- The hashed fields are all there is to an accepted config. -/
theorem ShareConfig.hashedFields_injective {config config' : ShareConfig}
    (hc : config.Accepted urls crates) (hc' : config'.Accepted urls crates)
    (h : config.hashedFields = config'.hashedFields) : config = config' := by
  rcases List.cons.inj h with ⟨hname, hfields⟩
  rcases apps_hashedFields_inj hc.apps hc'.apps hc.caCertificates hc'.caCertificates hfields with
    ⟨happs, hcertificates⟩
  cases config
  cases config'
  cases hname
  cases happs
  cases hcertificates
  rfl

/-!
## The share
-/

/-- Guests are told the same, and every app goes to the same upstream or origins. -/
structure SameShare (config config' : ShareConfig) : Prop where
  name : forall transport, (shareInfo config transport).name = (shareInfo config' transport).name
  apps : forall transport, (shareInfo config transport).apps = (shareInfo config' transport).apps
  caCertificates : forall transport,
    (shareInfo config transport).caCertificates = (shareInfo config' transport).caCertificates
  targets : forall id, (config.findApp id).map AppConfig.mode =
    (config'.findApp id).map AppConfig.mode

/-- An app of an accepted config is found under its id. -/
theorem ShareConfig.Accepted.findApp {config : ShareConfig} (hc : config.Accepted urls crates)
    {app : AppConfig} (happ : app ∈ config.apps) : config.findApp app.id = some app := by
  exact (find_key_eq_some_iff hc.ids).mpr ⟨happ, rfl⟩

theorem sameShare_iff {config config' : ShareConfig} (hc : config.Accepted urls crates)
    (hc' : config'.Accepted urls crates) : SameShare config config' <-> config = config' := by
  constructor
  · intro h
    have happs : config.apps = config'.apps := by
      refine eq_of_map_eq (h.apps TransportKind.iroh) fun app happ app' happ' hshared => ?_
      have hid : app.id = app'.id := congrArg Wire.SharedApp.id hshared
      have hname : app.name = app'.name := congrArg Wire.SharedApp.name hshared
      have hkind : app.kind = app'.kind := congrArg Wire.SharedApp.kind hshared
      have hmode : app.mode = app'.mode := by
        have htarget := h.targets app.id
        rw [hc.findApp happ, hid, hc'.findApp happ'] at htarget
        exact Option.some.inj htarget
      cases app
      cases app'
      cases hid
      cases hname
      cases hkind
      cases hmode
      rfl
    have hname : config.name = config'.name := h.name TransportKind.iroh
    have hcertificates : config.caCertificates = config'.caCertificates :=
      h.caCertificates TransportKind.iroh
    cases config
    cases config'
    cases hname
    cases happs
    cases hcertificates
    rfl
  · intro heq
    subst heq
    exact ⟨fun _ => rfl, fun _ => rfl, fun _ => rfl, fun _ => rfl⟩

/-- Two configs that feed the hash the same bytes are the same share if, and only if, their
fields have zero bytes in the same places. -/
theorem equal_bytes_same_share_iff {text text' : String} {config config' : ShareConfig}
    (h : ShareConfig.parse crates urls text = Except.ok config)
    (h' : ShareConfig.parse crates urls text' = Except.ok config')
    (hbytes : config.fedBytes = config'.fedBytes) :
    SameShare config config' <-> config.zeroBytes = config'.zeroBytes := by
  have hc := ShareConfig.parse_ok h
  have hc' := ShareConfig.parse_ok h'
  rw [sameShare_iff hc hc']
  constructor
  · intro heq
    subst heq
    rfl
  · intro hzeros
    exact ShareConfig.hashedFields_injective hc hc' (hashedFields_of_fedBytes hbytes hzeros)

end

/-!
## A name with zero bytes
-/

/-- A share with one app. -/
def familyFile : String :=
  "name = \"Family\"\n\n[[app]]\nid = \"photos\"\nname = \"Photos\"\nupstream = \":3000\"\n"

/-- A share without apps, whose name has zero bytes in it. -/
def impostorFile : String :=
  "name = \"Family\\u0000photos\\u0000Photos\\u0000web\\u0000reverse-proxy\\u0000localhost:3000\"\n"

/-- What these files hold. -/
def ConfigCrates.families : ConfigCrates where
  toml := fun text =>
    if text = familyFile then
      some (Json.obj [("name", Json.str "Family"), ("app", Json.arr [Json.obj
        [("id", Json.str "photos"), ("name", Json.str "Photos"), ("upstream", Json.str ":3000")]])])
    else if text = impostorFile then
      some (Json.obj [("name", Json.str
        "Family\u0000photos\u0000Photos\u0000web\u0000reverse-proxy\u0000localhost:3000")])
    else none
  pemSections := fun _ => Except.ok []
  addRoot := fun _ => Except.ok ()
  base64 := fun _ => ""

def familyConfig : ShareConfig where
  name := "Family"
  apps := [{
    id := "photos", name := "Photos", kind := AppKind.web
    mode := AppProxyMode.reverseProxy "localhost:3000" }]
  caCertificates := []

def impostorConfig : ShareConfig where
  name := "Family\u0000photos\u0000Photos\u0000web\u0000reverse-proxy\u0000localhost:3000"
  apps := []
  caCertificates := []

theorem parse_familyFile : ShareConfig.parse ConfigCrates.families UrlParser.development
    familyFile = Except.ok familyConfig := by
  decide +kernel

theorem parse_impostorFile : ShareConfig.parse ConfigCrates.families UrlParser.development
    impostorFile = Except.ok impostorConfig := by
  decide +kernel

theorem fedBytes_impostorConfig : familyConfig.fedBytes = impostorConfig.fedBytes := by
  decide +kernel

/-- Two shares that feed the hash the same bytes. -/
theorem impostor_has_same_hash :
    ShareConfig.parse ConfigCrates.families UrlParser.development familyFile =
        Except.ok familyConfig ∧
      ShareConfig.parse ConfigCrates.families UrlParser.development impostorFile =
        Except.ok impostorConfig ∧
      familyConfig.fedBytes = impostorConfig.fedBytes ∧
      familyConfig.configHash = impostorConfig.configHash ∧
      ¬ SameShare familyConfig impostorConfig := by
  refine ⟨parse_familyFile, parse_impostorFile, fedBytes_impostorConfig, ?_, ?_⟩
  · rw [configHash_eq, configHash_eq, fedBytes_impostorConfig]
  · intro hsame
    exact absurd (hsame.name TransportKind.iroh) (by decide)

/-- These two differ in their zero bytes. -/
theorem equal_bytes_same_share_for_families :
    familyConfig.zeroBytes ≠ impostorConfig.zeroBytes ∧
      (SameShare familyConfig impostorConfig <->
        familyConfig.zeroBytes = impostorConfig.zeroBytes) :=
  ⟨by decide +kernel,
    equal_bytes_same_share_iff parse_familyFile parse_impostorFile fedBytes_impostorConfig⟩

end Host
end WispersAccess
