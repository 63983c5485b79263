import Mathlib.Logic.Relation
import WispersAccess.Foundation.CompactJson
import WispersAccess.Wire.Documents

/-!
# Documents of other versions

A peer of another version writes fields this build does not know, leaves out
those that have a default, and names kinds and modes this build does not know.
What is left of a document is read as before, and the rest as its default.
-/

namespace WispersAccess
namespace Wire

open Foundation
open Json (required defaulted readText readArray readOptional)

/-!
## Apps
-/

namespace SharedApp

def fieldNames : List String :=
  ["id", "name", "kind", "mode", "start_url", "proxied_origins"]

inductive DefaultedField where
  | kind
  | mode
  | startUrl
  | proxiedOrigins
  deriving DecidableEq, Repr

def DefaultedField.name : DefaultedField -> String
  | kind => "kind"
  | mode => "mode"
  | startUrl => "start_url"
  | proxiedOrigins => "proxied_origins"

/-- The app without what the field says. -/
def DefaultedField.reset : DefaultedField -> SharedApp -> SharedApp
  | kind, app => { app with kind := AppKind.web }
  | mode, app => { app with mode := AppProxyMode.reverseProxy }
  | startUrl, app => { app with startUrl := none }
  | proxiedOrigins, app => { app with proxiedOrigins := [] }

/-- One difference to another version, in the document of an app and in the app it is read as. -/
inductive Edit : Json × SharedApp -> Json × SharedApp -> Prop where
  | add {front back : List (String × Json)} {app : SharedApp} (name : String) (value : Json)
      (hname : name ∉ fieldNames) :
      Edit (Json.obj (front ++ back), app) (Json.obj (front ++ (name, value) :: back), app)
  | drop {front back : List (String × Json)} {app : SharedApp} {value : Json}
      (field : DefaultedField) :
      Edit (Json.obj (front ++ (field.name, value) :: back), app)
        (Json.obj (front ++ back), field.reset app)
  | unknownKind {front back : List (String × Json)} {app : SharedApp} {value : Json} (s : String)
      (hs : forall kind : AppKind, kind.asStr ≠ s) :
      Edit (Json.obj (front ++ ("kind", value) :: back), app)
        (Json.obj (front ++ ("kind", Json.str s) :: back), { app with kind := AppKind.web })
  | unknownMode {front back : List (String × Json)} {app : SharedApp} {value : Json} (s : String)
      (hs : forall mode : AppProxyMode, mode.asStr ≠ s) :
      Edit (Json.obj (front ++ ("mode", value) :: back), app)
        (Json.obj (front ++ ("mode", Json.str s) :: back),
          { app with mode := AppProxyMode.unknown })

theorem ofJson_eq_some_iff {fields : List (String × Json)} {app : SharedApp} :
    SharedApp.ofJson (Json.obj fields) = some app <->
      required readText "id" fields = some app.id ∧
      required readText "name" fields = some app.name ∧
      defaulted AppKind.web (fun v => v.readText.map AppKind.parseOrWeb) "kind" fields =
        some app.kind ∧
      defaulted AppProxyMode.reverseProxy (fun v => v.readText.map AppProxyMode.parse) "mode"
        fields = some app.mode ∧
      defaulted none (readOptional readText) "start_url" fields = some app.startUrl ∧
      defaulted [] (readArray readText) "proxied_origins" fields = some app.proxiedOrigins := by
  rcases app with ⟨id, name, kind, mode, startUrl, proxiedOrigins⟩
  simp only [SharedApp.ofJson, Json.readFields, Option.bind_eq_bind, Option.bind_some,
    Option.bind_eq_some_iff, Option.pure_def, Option.some.injEq, SharedApp.mk.injEq]
  constructor
  · intro h
    rcases h with ⟨_, hid, _, hname, _, hkind, _, hmode, _, hstart, _, horigins, rfl, rfl, rfl,
      rfl, rfl, rfl⟩
    exact ⟨hid, hname, hkind, hmode, hstart, horigins⟩
  · intro h
    rcases h with ⟨hid, hname, hkind, hmode, hstart, horigins⟩
    exact ⟨_, hid, _, hname, _, hkind, _, hmode, _, hstart, _, horigins, rfl, rfl, rfl, rfl, rfl,
      rfl⟩

end SharedApp

theorem AppKind.parseOrWeb_unknown {s : String} (hs : forall kind : AppKind, kind.asStr ≠ s) :
    AppKind.parseOrWeb s = AppKind.web := by
  unfold parseOrWeb
  rw [if_neg fun h => hs AppKind.jellyfin h.symm, if_neg fun h => hs AppKind.immich h.symm]

theorem AppProxyMode.parse_unknown {s : String} (hs : forall mode : AppProxyMode, mode.asStr ≠ s) :
    AppProxyMode.parse s = AppProxyMode.unknown := by
  unfold parse
  rw [if_neg fun h => hs AppProxyMode.reverseProxy h.symm,
    if_neg fun h => hs AppProxyMode.forwardProxy h.symm]

namespace SharedApp

/-- An edited document is read as the edited app. -/
theorem Edit.ofJson {doc doc' : Json} {app app' : SharedApp} (h : Edit (doc, app) (doc', app'))
    (hread : SharedApp.ofJson doc = some app) : SharedApp.ofJson doc' = some app' := by
  cases h with
  | add name value hname =>
      simp only [fieldNames, List.mem_cons, List.not_mem_nil, or_false, not_or] at hname
      rcases hname with ⟨hid, hnm, hkind, hmode, hstart, horigins⟩
      rw [ofJson_eq_some_iff] at hread ⊢
      rw [Json.required_insert_of_ne hid, Json.required_insert_of_ne hnm,
        Json.defaulted_insert_of_ne hkind, Json.defaulted_insert_of_ne hmode,
        Json.defaulted_insert_of_ne hstart, Json.defaulted_insert_of_ne horigins]
      exact hread
  | drop field =>
      rw [ofJson_eq_some_iff] at hread ⊢
      rcases hread with ⟨hid, hname, hkind, hmode, hstart, horigins⟩
      cases field with
      | kind =>
          have hmissing := Json.missing_of_defaulted hkind
          simp [DefaultedField.name, Json.required_insert_of_ne, Json.defaulted_insert_of_ne]
            at hid hname hmode hstart horigins
          exact ⟨hid, hname, Json.defaulted_missing hmissing, hmode, hstart, horigins⟩
      | mode =>
          have hmissing := Json.missing_of_defaulted hmode
          simp [DefaultedField.name, Json.required_insert_of_ne, Json.defaulted_insert_of_ne]
            at hid hname hkind hstart horigins
          exact ⟨hid, hname, hkind, Json.defaulted_missing hmissing, hstart, horigins⟩
      | startUrl =>
          have hmissing := Json.missing_of_defaulted hstart
          simp [DefaultedField.name, Json.required_insert_of_ne, Json.defaulted_insert_of_ne]
            at hid hname hkind hmode horigins
          exact ⟨hid, hname, hkind, hmode, Json.defaulted_missing hmissing, horigins⟩
      | proxiedOrigins =>
          have hmissing := Json.missing_of_defaulted horigins
          simp [DefaultedField.name, Json.required_insert_of_ne, Json.defaulted_insert_of_ne]
            at hid hname hkind hmode hstart
          exact ⟨hid, hname, hkind, hmode, hstart, Json.defaulted_missing hmissing⟩
  | unknownKind s hs =>
      rw [ofJson_eq_some_iff] at hread ⊢
      rcases hread with ⟨hid, hname, hkind, hmode, hstart, horigins⟩
      have hmissing := Json.missing_of_defaulted hkind
      have hweb : AppKind.parseOrWeb s = AppKind.web := AppKind.parseOrWeb_unknown hs
      rw [Json.defaulted_found hmissing]
      simp [Json.required_insert_of_ne, Json.defaulted_insert_of_ne]
        at hid hname hmode hstart horigins ⊢
      exact ⟨hid, hname, ⟨s, rfl, hweb⟩, hmode, hstart, horigins⟩
  | unknownMode s hs =>
      rw [ofJson_eq_some_iff] at hread ⊢
      rcases hread with ⟨hid, hname, hkind, hmode, hstart, horigins⟩
      have hmissing := Json.missing_of_defaulted hmode
      have hunknown : AppProxyMode.parse s = AppProxyMode.unknown := AppProxyMode.parse_unknown hs
      rw [Json.defaulted_found hmissing]
      simp [Json.required_insert_of_ne, Json.defaulted_insert_of_ne]
        at hid hname hkind hstart horigins ⊢
      exact ⟨hid, hname, hkind, ⟨s, rfl, hunknown⟩, hstart, horigins⟩

end SharedApp

/-!
## Shares
-/

namespace ShareInfo

def fieldNames : List String :=
  ["config_hash", "name", "transport", "apps", "ca_certificates"]

/-- One difference to another version, in the document of a share and in the share it is
read as. -/
inductive Edit : Json × ShareInfo -> Json × ShareInfo -> Prop where
  | add {front back : List (String × Json)} {info : ShareInfo} (name : String) (value : Json)
      (hname : name ∉ fieldNames) :
      Edit (Json.obj (front ++ back), info) (Json.obj (front ++ (name, value) :: back), info)
  | drop {front back : List (String × Json)} {info : ShareInfo} {value : Json} :
      Edit (Json.obj (front ++ ("ca_certificates", value) :: back), info)
        (Json.obj (front ++ back), { info with caCertificates := [] })
  | app {front back : List (String × Json)} {docs docs' : List Json} {apps apps' : List SharedApp}
      {info : ShareInfo} {doc doc' : Json} {app app' : SharedApp}
      (hlength : docs.length = apps.length) (happs : info.apps = apps ++ app :: apps')
      (hedit : SharedApp.Edit (doc, app) (doc', app')) :
      Edit (Json.obj (front ++ ("apps", Json.arr (docs ++ doc :: docs')) :: back), info)
        (Json.obj (front ++ ("apps", Json.arr (docs ++ doc' :: docs')) :: back),
          { info with apps := apps ++ app' :: apps' })

/-- A document that differs from that of a share by any number of edits, and the share it is
to be read as. -/
def Version (info : ShareInfo) (doc : Json) (info' : ShareInfo) : Prop :=
  Relation.ReflTransGen Edit (info.toJson, info) (doc, info')

theorem ofJson_eq_some_iff {fields : List (String × Json)} {info : ShareInfo} :
    ShareInfo.ofJson (Json.obj fields) = some info <->
      required (fun v => v.readText.bind parseHash) "config_hash" fields =
        some info.configHash ∧
      required readText "name" fields = some info.name ∧
      required readText "transport" fields = some info.transport ∧
      required (readArray SharedApp.ofJson) "apps" fields = some info.apps ∧
      defaulted [] (readArray readText) "ca_certificates" fields = some info.caCertificates := by
  rcases info with ⟨configHash, name, transport, apps, caCertificates⟩
  simp only [ShareInfo.ofJson, Json.readFields, Option.bind_eq_bind, Option.bind_some,
    Option.bind_eq_some_iff, Option.pure_def, Option.some.injEq, ShareInfo.mk.injEq]
  constructor
  · intro h
    rcases h with ⟨_, hhash, _, hname, _, htransport, _, happs, _, hca, rfl, rfl, rfl, rfl, rfl⟩
    exact ⟨hhash, hname, htransport, happs, hca⟩
  · intro h
    rcases h with ⟨hhash, hname, htransport, happs, hca⟩
    exact ⟨_, hhash, _, hname, _, htransport, _, happs, _, hca, rfl, rfl, rfl, rfl, rfl⟩

theorem Edit.ofJson {doc doc' : Json} {info info' : ShareInfo}
    (h : Edit (doc, info) (doc', info')) (hread : ShareInfo.ofJson doc = some info) :
    ShareInfo.ofJson doc' = some info' := by
  cases h with
  | add name value hname =>
      simp only [fieldNames, List.mem_cons, List.not_mem_nil, or_false, not_or] at hname
      rcases hname with ⟨hhash, hnm, htransport, happs, hca⟩
      rw [ofJson_eq_some_iff] at hread ⊢
      rw [Json.required_insert_of_ne hhash, Json.required_insert_of_ne hnm,
        Json.required_insert_of_ne htransport, Json.required_insert_of_ne happs,
        Json.defaulted_insert_of_ne hca]
      exact hread
  | drop =>
      rw [ofJson_eq_some_iff] at hread ⊢
      rcases hread with ⟨hhash, hname, htransport, happs, hca⟩
      have hmissing := Json.missing_of_defaulted hca
      simp [Json.required_insert_of_ne] at hhash hname htransport happs
      exact ⟨hhash, hname, htransport, happs, Json.defaulted_missing hmissing⟩
  | app hlength hsplit hedit =>
      rw [ofJson_eq_some_iff] at hread ⊢
      rcases hread with ⟨hhash, hname, htransport, happs, hca⟩
      have hmissing := Json.missing_of_required happs
      rw [Json.required_found hmissing] at happs ⊢
      rw [hsplit] at happs
      rcases (Json.mapM_append_cons_eq_some_iff hlength).mp happs with ⟨hbefore, happ, hafter⟩
      have happs' := (Json.mapM_append_cons_eq_some_iff hlength).mpr
        ⟨hbefore, hedit.ofJson happ, hafter⟩
      simp [Json.required_insert_of_ne, Json.defaulted_insert_of_ne] at hhash hname htransport hca ⊢
      exact ⟨hhash, hname, htransport, happs', hca⟩

/-- A document of another version is read as the share it is to be read as. -/
theorem Version.ofJson {info info' : ShareInfo} {doc : Json} (h : Version info doc info') :
    ShareInfo.ofJson doc = some info' := by
  -- the documents between are read as the shares between
  have hread : forall edited : Json × ShareInfo,
      Relation.ReflTransGen Edit (info.toJson, info) edited ->
        ShareInfo.ofJson edited.1 = some edited.2 := by
    intro edited hedits
    induction hedits with
    | refl => exact ShareInfo.ofJson_toJson info
    | tail _ hedit ih => exact Edit.ofJson hedit ih
  exact hread _ h

end ShareInfo

/-!
## Replies
-/

def ForwardProxyError.parse (s : String) : ForwardProxyError :=
  if s = "not-allowed" then notAllowed
  else if s = "unreachable" then unreachable
  else unknown

def ForwardProxyReply.document (reply : ForwardProxyReply) : Json :=
  Json.obj (match reply.error with
    | none => []
    | some e => [("error", Json.str e.asStr)])

def ForwardProxyReply.ofJson (j : Json) : Option ForwardProxyReply := do
  let fields <- j.readFields
  let error <- defaulted none (readOptional fun v => v.readText.map ForwardProxyError.parse)
    "error" fields
  return { error }

@[simp] theorem ForwardProxyError.parse_asStr (e : ForwardProxyError) :
    ForwardProxyError.parse e.asStr = e := by
  cases e <;> rfl

theorem ForwardProxyError.parse_unknown {s : String}
    (hs : forall e : ForwardProxyError, e.asStr ≠ s) :
    ForwardProxyError.parse s = ForwardProxyError.unknown := by
  unfold parse
  rw [if_neg fun h => hs notAllowed h.symm, if_neg fun h => hs unreachable h.symm]

@[simp] theorem ForwardProxyReply.ofJson_document (reply : ForwardProxyReply) :
    ForwardProxyReply.ofJson reply.document = some reply := by
  rcases reply with ⟨_ | e⟩
  · rfl
  · simp [document, ofJson, Json.readFields, defaulted, Json.field, readOptional, readText]

/-- The bytes of a reply are its document in compact form. -/
theorem ForwardProxyReply.encodeJson_document (reply : ForwardProxyReply) :
    encodeJson Json.compact reply.document = reply.toJson := by
  rcases reply with ⟨_ | e⟩
  · rfl
  · cases e <;> rfl

/-- A reply with an error this build does not know is read as one, if it is read at all. -/
theorem ForwardProxyReply.error_of_unknown {fields : List (String × Json)} {s : String}
    {reply : ForwardProxyReply} (hmem : ("error", Json.str s) ∈ fields)
    (hs : forall e : ForwardProxyError, e.asStr ≠ s)
    (hread : ForwardProxyReply.ofJson (Json.obj fields) = some reply) :
    reply.error = some ForwardProxyError.unknown := by
  rcases List.append_of_mem hmem with ⟨front, back, rfl⟩
  rcases reply with ⟨error⟩
  simp only [ofJson, Json.readFields, Option.bind_eq_bind, Option.bind_some,
    Option.bind_eq_some_iff, Option.pure_def, Option.some.injEq,
    ForwardProxyReply.mk.injEq] at hread
  rcases hread with ⟨_, herror, rfl⟩
  have hmissing := Json.missing_of_defaulted herror
  rw [Json.defaulted_found hmissing] at herror
  simp only [readOptional, readText, Option.map_some, Option.some.injEq] at herror
  rw [← herror, ForwardProxyError.parse_unknown hs]

/-!
## Peers of other versions
-/

/-- What a peer of another version writes about a share is read as the share it is to be read
as, and an error it names stays an error. -/
theorem share_info_survives_versions (text : JsonText) :
    (forall info : ShareInfo, ShareInfo.decode text (info.encode text) = some info) ∧
    (forall (info : ShareInfo) (doc : Json) (info' : ShareInfo),
      ShareInfo.Version info doc info' ->
        ShareInfo.decode text (encodeJson text doc) = some info') ∧
    forall (fields : List (String × Json)) (s : String) (reply : ForwardProxyReply),
      ("error", Json.str s) ∈ fields -> (forall e : ForwardProxyError, e.asStr ≠ s) ->
        decodeJson text ForwardProxyReply.ofJson (encodeJson text (Json.obj fields)) =
          some reply ->
            reply.error = some ForwardProxyError.unknown := by
  constructor
  · exact ShareInfo.decode_encode text
  · constructor
    · intro info doc info' hversion
      exact decodeJson_encodeJson hversion.ofJson text
    · intro fields s reply hmem hs hread
      unfold decodeJson encodeJson at hread
      rw [ofUtf8_utf8, Option.bind_some, text.parse_print, Option.bind_some] at hread
      exact ForwardProxyReply.error_of_unknown hmem hs hread

/-!
## A newer host
-/

def mediaApp (kind : AppKind) : SharedApp where
  id := "media"
  name := "Media"
  kind := kind
  mode := AppProxyMode.reverseProxy
  startUrl := none
  proxiedOrigins := []

/-- A share with one app. -/
def mediaShare (kind : AppKind) : ShareInfo where
  configHash := 1
  name := "Family"
  transport := "iroh"
  apps := [mediaApp kind]
  caCertificates := []

/-- Its document, as a host writes it that knows one kind and one field more. -/
def newerDocument : Json :=
  Json.obj [("config_hash", Json.str (hashText 1)), ("name", Json.str "Family"),
    ("transport", Json.str "iroh"),
    ("apps", Json.arr [Json.obj [("id", Json.str "media"), ("name", Json.str "Media"),
      ("kind", Json.str "plex"), ("mode", Json.str "reverse-proxy")]]),
    ("motto", Json.str "all together")]

theorem newerDocument_version :
    ShareInfo.Version (mediaShare AppKind.jellyfin) newerDocument (mediaShare AppKind.web) := by
  have hkind : SharedApp.Edit
      (Json.obj ([("id", Json.str "media"), ("name", Json.str "Media")] ++
        ("kind", Json.str "jellyfin") :: [("mode", Json.str "reverse-proxy")]), _)
      (Json.obj ([("id", Json.str "media"), ("name", Json.str "Media")] ++
        ("kind", Json.str "plex") :: [("mode", Json.str "reverse-proxy")]), _) :=
    @SharedApp.Edit.unknownKind _ _ (mediaApp AppKind.jellyfin) _ "plex"
      (by intro kind; cases kind <;> decide)
  have happ := @ShareInfo.Edit.app
    [("config_hash", Json.str (hashText 1)), ("name", Json.str "Family"),
      ("transport", Json.str "iroh")] [] [] [] [] [] (mediaShare AppKind.jellyfin) _ _ _ _
    rfl rfl hkind
  have hmotto := @ShareInfo.Edit.add
    [("config_hash", Json.str (hashText 1)), ("name", Json.str "Family"),
      ("transport", Json.str "iroh"),
      ("apps", Json.arr [Json.obj [("id", Json.str "media"), ("name", Json.str "Media"),
        ("kind", Json.str "plex"), ("mode", Json.str "reverse-proxy")]])] []
    (mediaShare AppKind.web) "motto" (Json.str "all together") (by decide)
  exact Relation.ReflTransGen.tail (Relation.ReflTransGen.single happ) hmotto

theorem share_info_survives_newer_host :
    ShareInfo.decode Json.compact (encodeJson Json.compact newerDocument) =
        some (mediaShare AppKind.web) ∧
      forall reply : ForwardProxyReply,
        decodeJson Json.compact ForwardProxyReply.ofJson
            (encodeJson Json.compact (Json.obj [("error", Json.str "later")])) = some reply ->
          reply.error = some ForwardProxyError.unknown := by
  rcases share_info_survives_versions Json.compact with ⟨_, hversions, hreplies⟩
  constructor
  · exact hversions _ _ _ newerDocument_version
  · intro reply hread
    refine hreplies [("error", Json.str "later")] "later" reply (List.mem_cons_self ..) ?_ hread
    intro e
    cases e <;> decide

end Wire
end WispersAccess
