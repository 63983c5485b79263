import WispersAccess.Guest.Addresses
import WispersAccess.Guest.Lookup
import WispersAccess.Host.ConfigHash
import WispersAccess.Host.Protocol

/-!
# From an app's address to the app

The guest makes an app's address from the share's label and the app's id.  What
comes back from a browser is looked up twice: the label in the guest's store, the
app id in the host's config.
-/

namespace WispersAccess
namespace Guest

open Foundation
open Wire (UrlParser)
open Host (AppConfig ConfigCrates ShareConfig appTarget isIdChar isValidId)

/-!
## Characters
-/

theorem isIdChar_toLower {c : Char} (h : isIdChar c = true) :
    isIdChar c.toLower = true ∧ c.toLower ≠ '.' ∧ c.toLower ≠ ':' ∧ c.toLower ≠ '/' := by
  have hall : forall c : Char, c.toNat < 128 -> isIdChar c = true ->
      isIdChar c.toLower = true ∧ c.toLower ≠ '.' ∧ c.toLower ≠ ':' ∧ c.toLower ≠ '/' :=
    forall_ascii (by decide)
  exact hall c (Host.ascii_of_isIdChar h) h

theorem isSlugChar_spec {c : Char} (h : isSlugChar c = true) :
    c.toLower = c ∧ c ≠ '.' ∧ c ≠ ':' ∧ c ≠ '/' := by
  have hall : forall c : Char, c.toNat < 128 -> isSlugChar c = true ->
      c.toLower = c ∧ c ≠ '.' ∧ c ≠ ':' ∧ c ≠ '/' :=
    forall_ascii (by decide)
  exact hall c (Nat.lt_succ_of_le (ascii_of_isSlugChar h)) h

/-- Has no uppercase ASCII letter. -/
def NoCapitals (s : String) : Prop :=
  forall c, c ∈ s.toList -> ¬ ('A' ≤ c ∧ c ≤ 'Z')

theorem noCapitals_iff {s : String} : NoCapitals s <-> asciiLowercase s = s := by
  constructor
  · exact asciiLowercase_eq_self
  · intro h c hc hupper
    have hall : forall c : Char, c.toNat < 128 -> 'A' ≤ c ∧ c ≤ 'Z' -> c.toLower ≠ c :=
      forall_ascii (by decide)
    refine hall c (Nat.lt_of_le_of_lt hupper.right (by decide)) hupper ?_
    unfold asciiLowercase at h
    have hmap : s.toList.map Char.toLower = s.toList := by
      rw [← String.toList_ofList (l := s.toList.map Char.toLower), h]
    exact List.map_inj_left.mp (hmap.trans (List.map_id' s.toList).symm) c hc

theorem IsLabel.asciiLowercase {label : String} (h : IsLabel label) :
    asciiLowercase label = label := by
  unfold Foundation.asciiLowercase
  rw [List.map_congr_left fun c hc => (isSlugChar_spec (h.chars c hc)).left, List.map_id',
    String.ofList_toList]

/-- A text is free of the characters that separate the parts of an address. -/
structure Unseparated (s : String) : Prop where
  nonempty : s ≠ ""
  dot : '.' ∉ s.toList
  colon : ':' ∉ s.toList
  slash : '/' ∉ s.toList

theorem IsLabel.unseparated {label : String} (h : IsLabel label) : Unseparated label where
  nonempty := h.nonempty
  dot := fun hmem => (isSlugChar_spec (h.chars _ hmem)).right.left rfl
  colon := fun hmem => (isSlugChar_spec (h.chars _ hmem)).right.right.left rfl
  slash := fun hmem => (isSlugChar_spec (h.chars _ hmem)).right.right.right rfl

theorem unseparated_asciiLowercase {id : String} (h : isValidId id = true) :
    Unseparated (asciiLowercase id) := by
  rcases Host.isValidId_chars h with ⟨hnonempty, -, hchars⟩
  have hlower : forall c, c ∈ (asciiLowercase id).toList ->
      c ≠ '.' ∧ c ≠ ':' ∧ c ≠ '/' := by
    intro c hc
    unfold asciiLowercase at hc
    rw [String.toList_ofList] at hc
    rcases List.mem_map.mp hc with ⟨d, hd, rfl⟩
    exact (isIdChar_toLower (hchars d hd)).right
  refine ⟨?_, fun hmem => (hlower _ hmem).left rfl, fun hmem => (hlower _ hmem).right.left rfl,
    fun hmem => (hlower _ hmem).right.right rfl⟩
  intro hempty
  apply hnonempty
  unfold asciiLowercase at hempty
  rw [String.ofList_eq_empty_iff, List.map_eq_nil_iff] at hempty
  exact String.toList_eq_nil_iff.mp hempty

theorem slash_not_mem_of_isValidId {id : String} (h : isValidId id = true) :
    '/' ∉ id.toList := by
  intro hmem
  have hslash : isIdChar '/' = false := by decide
  rw [(Host.isValidId_chars h).right.right _ hmem] at hslash
  cases hslash

/-!
## Requests
-/

/-- The route of the request that a browser makes at an app's address. -/
theorem route_of_address {label appId : String} (hlabel : IsLabel label)
    (hid : isValidId appId = true) (port : UInt16) :
    exists req, browserRequest (appOrigin port label appId) = some req ∧
      parseHost req.host = some (Route.app label (asciiLowercase appId)) := by
  refine ⟨_, browserRequest_appOrigin (slash_not_mem_of_isValidId hid) hlabel.unseparated.slash
    port, ?_⟩
  have hhost : asciiLowercase (appHost appId label) = appHost (asciiLowercase appId) label := by
    have hdot : asciiLowercase "." = "." := by decide
    have hdomain : asciiLowercase proxyDomain = proxyDomain := by decide
    unfold appHost
    simp only [asciiLowercase_append, hdot, hdomain, hlabel.asciiLowercase]
  have happ := unseparated_asciiLowercase hid
  have hshare := hlabel.unseparated
  rw [hhost]
  exact parseHost_appHost happ.nonempty hshare.nonempty happ.dot hshare.dot happ.colon
    hshare.colon port

/-- An address leads back to the row of the share and to the app. -/
def LeadsBack (config : ShareConfig) (db : DB) (order : SerialTable.QueryOrder ShareRow)
    (port : UInt16) (label : String) (id : Int) (app : AppConfig) : Prop :=
  exists req share appId r, browserRequest (appOrigin port label app.id) = some req ∧
    parseHost req.host = some (Route.app share appId) ∧
    db.findRow order share = some (id, r) ∧ config.findApp appId = some app ∧
    appTarget config appId = appTarget config app.id

/-- Addresses that lead to the same place are of the same share and the same app. -/
theorem leadsBack_unique {config : ShareConfig} {db : DB}
    {order : SerialTable.QueryOrder ShareRow} {port : UInt16} {label label' : String} {id id' : Int}
    {app app' : AppConfig} (h : LeadsBack config db order port label id app)
    (h' : LeadsBack config db order port label' id' app')
    (hsame : browserRequest (appOrigin port label app.id) =
      browserRequest (appOrigin port label' app'.id)) : id = id' ∧ app = app' := by
  rcases h with ⟨req, share, appId, r, hreq, hroute, hfound, happ, -⟩
  rcases h' with ⟨req', share', appId', r', hreq', hroute', hfound', happ', -⟩
  rw [hsame, hreq'] at hreq
  cases hreq
  rw [hroute'] at hroute
  cases hroute
  rw [hfound'] at hfound
  rw [happ'] at happ
  cases hfound
  cases happ
  exact ⟨rfl, rfl⟩

section
variable {urls : UrlParser} {crates : ConfigCrates} {text : JsonText} {slug : Slugify}

/-- An app's address leads back to it if, and only if, its id has no capitals and no other
share's id is the label. -/
theorem address_leads_back_iff {file : String} {config : ShareConfig}
    (hparse : ShareConfig.parse crates urls file = Except.ok config) {app : AppConfig}
    (happ : app ∈ config.apps) {s : Device} {acts : List DeviceAction}
    (hrun : Run (deviceStep text slug) Device.start acts s) {id : Int} {r : ShareRow}
    (hr : s.db.row id = some r) (hcomplete : r.complete = some true) {label : String}
    (hlabel : r.hostname = some label) (port : UInt16) :
    (forall order, LeadsBack config s.db order port label id app) <->
      NoCapitals app.id ∧ forall j q, s.db.row j = some q -> q.complete = some true ->
        q.shareId.text = label -> j = id := by
  have hconfig := Host.ShareConfig.parse_ok hparse
  have hlabels := run_labels hrun
  rcases route_of_address (hlabels.fit id r label hr hlabel) (hconfig.apps app happ).id port with
    ⟨req, hreq, hroute⟩
  rw [noCapitals_iff]
  constructor
  · intro h
    have hroutes : forall {order q}, LeadsBack config s.db order port label id app ->
        s.db.findRow order label = some q ->
          q.1 = id ∧ config.findApp (asciiLowercase app.id) = some app := by
      intro order q hleads hq
      rcases hleads with ⟨req', share, appId, r', hreq', hroute', hfound, hfind, -⟩
      rw [hreq] at hreq'
      cases hreq'
      rw [hroute] at hroute'
      cases hroute'
      rw [hq] at hfound
      cases hfound
      exact ⟨rfl, hfind⟩
    constructor
    · rcases SerialTable.exists_order_findRow hr
        (DB.matchesKey_iff.mpr ⟨hcomplete, Or.inl hlabel⟩) with ⟨order, hfound⟩
      exact (Host.findApp_some (hroutes (h order) hfound).right).right.symm
    · intro j q hq hdone htext
      rcases SerialTable.exists_order_findRow hq
        (DB.matchesKey_iff.mpr ⟨hdone, Or.inr htext⟩) with ⟨order, hfound⟩
      exact (hroutes (h order) hfound).left
  · intro hname order
    rcases hname with ⟨hlower, honly⟩
    rw [hlower] at hroute
    refine ⟨req, label, app.id, r, hreq, hroute, ?_, hconfig.findApp happ, rfl⟩
    refine SerialTable.findRow_eq_some_of_unique hr
      (DB.matchesKey_iff.mpr ⟨hcomplete, Or.inl hlabel⟩) ?_
    intro j q hq hmatches
    rcases DB.matchesKey_iff.mp hmatches with ⟨hdone, hlabel' | htext⟩
    · exact hlabels.labels j id q r label hq hr hlabel' hlabel
    · exact honly j q hq hdone htext

end

/-!
## An id with a capital
-/

/-- A share of one app, whose id has a capital. -/
def capitalFile : String :=
  "name = \"Family\"\n\n[[app]]\nid = \"Photos\"\nupstream = \":3000\"\n"

/-- A share of one app, whose id has none. -/
def plainFile : String :=
  "name = \"Family\"\n\n[[app]]\nid = \"photos\"\nupstream = \":3000\"\n"

/-- What these files hold. -/
def photosCrates : ConfigCrates where
  toml := fun text =>
    if text = capitalFile then
      some (Json.obj [("name", Json.str "Family"), ("app", Json.arr [Json.obj
        [("id", Json.str "Photos"), ("upstream", Json.str ":3000")]])])
    else if text = plainFile then
      some (Json.obj [("name", Json.str "Family"), ("app", Json.arr [Json.obj
        [("id", Json.str "photos"), ("upstream", Json.str ":3000")]])])
    else none
  pemSections := fun _ => Except.ok []
  addRoot := fun _ => Except.ok ()
  base64 := fun _ => ""

def photosApp (id : String) : AppConfig where
  id := id
  name := id
  kind := Wire.AppKind.web
  mode := Host.AppProxyMode.reverseProxy "localhost:3000"

def photosConfig (id : String) : ShareConfig where
  name := "Family"
  apps := [photosApp id]
  caCertificates := []

theorem parse_plainFile : ShareConfig.parse photosCrates UrlParser.development plainFile =
    Except.ok (photosConfig "photos") := by
  decide +kernel

/-- A device that has joined one share, called Family. -/
theorem family_joined :
    exists s r, Run (deviceStep Json.compact Slugify.ascii) Device.start
        (wholeJoin 0 firstShare familyInfo) s ∧
      s.db.row 1 = some r ∧ r.shareId = firstShare ∧ r.complete = some true ∧
      r.hostname = some "family" ∧
      forall j q, s.db.row j = some q -> j = 1 := by
  have hend : ((exec (deviceStep Json.compact Slugify.ascii) Device.start
      (wholeJoin 0 firstShare familyInfo)).map fun s => ((s.db.row 1).map fun r =>
        (r.shareId, r.complete, r.hostname), s.db.shares.rows.map Prod.fst)) =
      some (some (firstShare, some true, some "family"), [1]) := by
    decide +kernel
  rcases Option.map_eq_some_iff.mp hend with ⟨s, hs, heq⟩
  rcases Prod.mk.inj heq with ⟨hrow, hids⟩
  rcases Option.map_eq_some_iff.mp hrow with ⟨r, hr, hcolumns⟩
  simp only [Prod.mk.injEq] at hcolumns
  refine ⟨s, r, run_iff_exec.mpr hs, hr, hcolumns.left, hcolumns.right.left, hcolumns.right.right,
    ?_⟩
  intro j q hq
  have hmem : j ∈ s.db.shares.rows.map Prod.fst :=
    List.mem_map_of_mem (SerialTable.lookup_eq_some_iff.mp hq)
  rw [hids] at hmem
  exact List.mem_singleton.mp hmem

/-- A browser lowers the capital, and the host has no app of that id. -/
theorem capital_address_is_lost :
    ShareConfig.parse photosCrates UrlParser.development capitalFile =
        Except.ok (photosConfig "Photos") ∧
      (browserRequest (appOrigin 4000 "family" "Photos")).map (fun req => parseHost req.host) =
        some (some (Route.app "family" "photos")) ∧
      appTarget (photosConfig "Photos") "photos" =
        Host.Target.unknownApp (photosConfig "Photos").configHash ∧
      exists s, Run (deviceStep Json.compact Slugify.ascii) Device.start
          (wholeJoin 0 firstShare familyInfo) s ∧
        (exists r, s.db.row 1 = some r ∧ r.complete = some true ∧ r.hostname = some "family") ∧
        forall order, ¬ LeadsBack (photosConfig "Photos") s.db order 4000 "family" 1
          (photosApp "Photos") := by
  have hroute : (browserRequest (appOrigin 4000 "family" "Photos")).map
      (fun req => parseHost req.host) = some (some (Route.app "family" "photos")) := by
    decide +kernel
  rcases family_joined with ⟨s, r, hrun, hr, -, hcomplete, hlabel, -⟩
  refine ⟨by decide +kernel, hroute, by decide +kernel, s, hrun, ⟨r, hr, hcomplete, hlabel⟩, ?_⟩
  intro order h
  rcases h with ⟨req, share, appId, r', hreq, hparse, -, hfind, -⟩
  have hreq' : browserRequest (appOrigin 4000 "family" "Photos") = some req := hreq
  rw [hreq', Option.map_some, hparse] at hroute
  cases hroute
  exact absurd hfind (by decide +kernel)

theorem address_leads_back_for_photos :
    exists s, Run (deviceStep Json.compact Slugify.ascii) Device.start
        (wholeJoin 0 firstShare familyInfo) s ∧
      forall order, LeadsBack (photosConfig "photos") s.db order 4000 "family" 1
        (photosApp "photos") := by
  rcases family_joined with ⟨s, r, hrun, hr, -, hcomplete, hlabel, honly⟩
  refine ⟨s, hrun, ?_⟩
  refine (address_leads_back_iff parse_plainFile (List.mem_singleton.mpr rfl) hrun hr hcomplete
    hlabel 4000).mpr ⟨?_, fun j q hq _ _ => honly j q hq⟩
  rw [noCapitals_iff]
  decide

end Guest
end WispersAccess
