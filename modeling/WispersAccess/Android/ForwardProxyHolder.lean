import Mathlib.Data.Finset.Dedup
import Mathlib.Data.Finset.Insert
import WispersAccess.Foundation.ActionSystem
import WispersAccess.Foundation.Slots
import WispersAccess.Guest.CredentialMatch
import WispersAccess.Guest.Storage
import WispersAccess.Wire.Urls

/-!
# Which origins the web views proxy

The Android app's web views have one proxy override for all shares.  A collector
sets it from the list of shares, one list after the other, and skips the lists that
come and go while it is busy.  A window waits until its app's origins were routed
before it loads anything.
-/

namespace WispersAccess
namespace Android

open Foundation
open Guest (CredentialIssuer DB MintedSecret ProxyCredential Share ShareId ShareRow ShareState
  Transport firstShare firstShareDb isBase64 someSecret)
open Wire (AppKind AppProxyMode Origin SharedApp UrlParser)

/-!
## The holder
-/

/-- An origin's rule in the override. -/
def hostPort (origin : Origin) : String :=
  origin.host ++ ":" ++ toString origin.port.toNat

/-- The rules of an app, unless one of its origins does not parse. -/
def proxiedHostPorts (urls : UrlParser) (app : SharedApp) : Option (List String) :=
  app.proxiedOrigins.mapM fun text => (Origin.parse urls text).toOption.map hostPort

/-- The rules of every app of the shares. -/
def listedHostPorts (urls : UrlParser) (shares : List Share) : Finset String :=
  ((shares.flatMap Share.apps).flatMap fun app => (proxiedHostPorts urls app).getD []).toFinset

/-- The app can be opened in a web view that goes through the proxy. -/
def opens (urls : UrlParser) (app : SharedApp) : Bool :=
  app.mode = AppProxyMode.forwardProxy && app.startUrl.isSome && (proxiedHostPorts urls app).isSome

/-- The realm of the proxy's challenges. -/
def realm : String := "Wispers Access"

/-- The proxy's address. -/
def proxyHost : String := "127.0.0.1"

structure WebViewProxyParams where
  profile : String
  credential : ProxyCredential
  realm : String
  deriving DecidableEq, Repr

def profileName (shareId : ShareId) : String :=
  "share-" ++ shareId.text

/-- What a web view answers a challenge with. -/
def WebViewProxyParams.answer (params : WebViewProxyParams) (host challenge : Option String) :
    Option ProxyCredential :=
  if host = some proxyHost ∧ challenge = some params.realm then some params.credential else none

/-- A browse window of a forward-proxy app; it loads the app once it has the parameters. -/
structure BrowseWindow where
  share : ShareId
  hostPorts : Finset String
  params : Option WebViewProxyParams

inductive Collector where
  /-- The proxy is not up. -/
  | starting
  | failed
  | idle
  /-- It has asked for this override. -/
  | routing (hostPorts : Finset String)
  /-- The override is set, and the callback is still to come. -/
  | applied (hostPorts : Finset String)
  deriving DecidableEq

structure ForwardProxyHolder where
  /-- The list of shares, once it is loaded. -/
  shares : Option (List Share)
  collector : Collector
  /-- What the collector was given last. -/
  collected : Option (Finset String)
  /-- What the web views send to the proxy; everything else goes direct. -/
  override : Finset String
  routed : Option (Finset String)
  windows : List BrowseWindow
  /-- The proxy's passwords. -/
  issuer : CredentialIssuer

namespace ForwardProxyHolder

def launched : ForwardProxyHolder where
  shares := none
  collector := Collector.starting
  collected := none
  override := ∅
  routed := none
  windows := []
  issuer := CredentialIssuer.start

inductive Action where
  /-- A share is joined, left or refreshed. -/
  | setShares (shares : List Share)
  | startProxy (ok : Bool)
  /-- The collector takes the list as it is. -/
  | collect
  | applyOverride
  | publish
  /-- A window opens for an app of a share that is listed. -/
  | openApp (shareId : ShareId) (appId : String)
  /-- `webViewProxyParams` returns; the proxy looks up the share, and mints the secret if it has
  none for it. -/
  | grant (i : Nat) (order : SerialTable.QueryOrder ShareRow) (db : DB) (secret : MintedSecret)

section
variable (urls : UrlParser)

/-- What the list of shares has. -/
def listed (s : ForwardProxyHolder) : Finset String :=
  (s.shares.map (listedHostPorts urls)).getD ∅

/-- The window of an app that can be opened. -/
def window (shares : List Share) (shareId : ShareId) (appId : String) : Option BrowseWindow := do
  let share <- shares.find? fun share => share.id = shareId
  if share.state = ShareState.live then
    let app <- share.apps.find? fun app => app.id = appId
    if opens urls app then
      return ⟨share.id, ((proxiedHostPorts urls app).getD []).toFinset, none⟩
    else none
  else none

def step (s : ForwardProxyHolder) : Action -> Option ForwardProxyHolder
  | Action.setShares shares => some { s with shares := some shares }
  | Action.startProxy ok =>
      if s.collector = Collector.starting then
        some { s with collector := if ok then Collector.idle else Collector.failed }
      else none
  | Action.collect =>
      match s.collector, s.shares with
      | Collector.idle, some shares =>
          let hostPorts := listedHostPorts urls shares
          -- `distinctUntilChanged`
          if s.collected = some hostPorts then none
          else some { s with
            collector := Collector.routing hostPorts, collected := some hostPorts }
      | _, _ => none
  | Action.applyOverride =>
      match s.collector with
      | Collector.routing hostPorts =>
          some { s with collector := Collector.applied hostPorts, override := hostPorts }
      | _ => none
  | Action.publish =>
      match s.collector with
      | Collector.applied hostPorts =>
          some { s with collector := Collector.idle, routed := some hostPorts }
      | _ => none
  | Action.openApp shareId appId =>
      (s.shares.bind fun shares => window urls shares shareId appId).map fun w =>
        { s with windows := s.windows ++ [w] }
  | Action.grant i order db secret =>
      (s.windows[i]?).bind fun w =>
        if w.params = none ∧ s.routed.any (fun hostPorts => w.hostPorts ⊆ hostPorts) then
          (Guest.credential order db s.issuer w.share secret).map fun minted =>
            { s with
              windows := s.windows.set i
                { w with params := some ⟨profileName w.share, minted.1, realm⟩ }
              issuer := minted.2 }
        else none

end

/-!
## What a step does
-/

inductive Effect (urls : UrlParser) (s : ForwardProxyHolder) :
    Action -> ForwardProxyHolder -> Prop where
  | listed (shares : List Share) :
      Effect urls s (Action.setShares shares) { s with shares := some shares }
  | started (ok : Bool) : s.collector = Collector.starting ->
      Effect urls s (Action.startProxy ok)
        { s with collector := if ok then Collector.idle else Collector.failed }
  | collected (shares : List Share) : s.collector = Collector.idle -> s.shares = some shares ->
      Effect urls s Action.collect { s with
        collector := Collector.routing (listedHostPorts urls shares)
        collected := some (listedHostPorts urls shares) }
  | applied (hostPorts : Finset String) : s.collector = Collector.routing hostPorts ->
      Effect urls s Action.applyOverride
        { s with collector := Collector.applied hostPorts, override := hostPorts }
  | published (hostPorts : Finset String) : s.collector = Collector.applied hostPorts ->
      Effect urls s Action.publish
        { s with collector := Collector.idle, routed := some hostPorts }
  | opened (shareId : ShareId) (appId : String) (w : BrowseWindow) : w.params = none ->
      Effect urls s (Action.openApp shareId appId) { s with windows := s.windows ++ [w] }
  | granted (i : Nat) (order : SerialTable.QueryOrder ShareRow) (db : DB) (secret : MintedSecret)
      (w : BrowseWindow) (hostPorts : Finset String) (credential : ProxyCredential)
      (issuer : CredentialIssuer) : s.windows[i]? = some w -> s.routed = some hostPorts ->
      w.hostPorts ⊆ hostPorts ->
      Guest.credential order db s.issuer w.share secret = some (credential, issuer) ->
      Effect urls s (Action.grant i order db secret) { s with
        windows := s.windows.set i
          { w with params := some ⟨profileName w.share, credential, realm⟩ }
        issuer := issuer }

section
variable {urls : UrlParser} {s t : ForwardProxyHolder} {a : Action}

/-- Where the collector stands, the override is at what it was given last, or one step behind. -/
def InStep (s : ForwardProxyHolder) : Prop :=
  match s.collector with
  | Collector.starting | Collector.failed =>
      s.collected = none ∧ s.routed = none ∧ s.override = ∅
  | Collector.idle => s.collected = s.routed ∧ s.override = s.collected.getD ∅
  | Collector.routing hostPorts => s.collected = some hostPorts
  | Collector.applied hostPorts => s.collected = some hostPorts ∧ s.override = hostPorts

theorem Effect.inStep (h : Effect urls s a t) (hs : s.InStep) : t.InStep := by
  cases h with
  | listed | opened | granted => exact hs
  | started ok hstarting =>
      unfold InStep at hs
      rw [hstarting] at hs
      cases ok with
      | false => exact hs
      | true =>
          refine ⟨hs.left.trans hs.right.left.symm, ?_⟩
          show s.override = s.collected.getD ∅
          rw [hs.left]
          exact hs.right.right
  | collected shares hidle hshares => exact rfl
  | applied hostPorts hrouting =>
      unfold InStep at hs
      rw [hrouting] at hs
      exact ⟨hs, rfl⟩
  | published hostPorts happlied =>
      unfold InStep at hs
      rw [happlied] at hs
      refine ⟨hs.left, ?_⟩
      show s.override = s.collected.getD ∅
      rw [hs.left]
      exact hs.right

/-- What is listed once stays listed. -/
def KeepsListed (urls : UrlParser) (hostPorts : Finset String) (s : ForwardProxyHolder) :
    Action -> Prop
  | Action.setShares shares =>
      hostPorts ⊆ s.listed urls -> hostPorts ⊆ listedHostPorts urls shares
  | _ => True

instance {urls : UrlParser} {hostPorts : Finset String} (s : ForwardProxyHolder) (a : Action) :
    Decidable (KeepsListed urls hostPorts s a) := by
  unfold KeepsListed
  split
  · infer_instance
  · infer_instance

/-- Rules that were routed are in the override, and those that were collected are listed. -/
structure Keeps (urls : UrlParser) (hostPorts : Finset String) (s : ForwardProxyHolder) :
    Prop where
  inStep : s.InStep
  routed : forall r, s.routed = some r -> hostPorts ⊆ r ->
    hostPorts ⊆ s.override ∧ exists c, s.collected = some c ∧ hostPorts ⊆ c
  collected : forall c, s.collected = some c -> hostPorts ⊆ c -> hostPorts ⊆ s.listed urls
  windows : forall (i : Nat) w params, s.windows[i]? = some w -> w.params = some params ->
    w.hostPorts = hostPorts -> exists r, s.routed = some r ∧ hostPorts ⊆ r

theorem Effect.keeps {hostPorts : Finset String} (h : Effect urls s a t)
    (hs : Keeps urls hostPorts s) (hkeeps : KeepsListed urls hostPorts s a) :
    Keeps urls hostPorts t := by
  have hstep := h.inStep hs.inStep
  have hin := hs.inStep
  unfold InStep at hin
  cases h with
  | listed shares =>
      exact ⟨hstep, hs.routed, fun c hc hsub => hkeeps (hs.collected c hc hsub), hs.windows⟩
  | started ok hstarting => exact ⟨hstep, hs.routed, hs.collected, hs.windows⟩
  | collected shares hidle hshares =>
      have hnow : s.listed urls = listedHostPorts urls shares := by
        unfold ForwardProxyHolder.listed
        rw [hshares]
        rfl
      refine ⟨hstep, ?_, ?_, hs.windows⟩
      · intro r hr hsub
        rcases hs.routed r hr hsub with ⟨hoverride, c, hc, hsub'⟩
        refine ⟨hoverride, _, rfl, ?_⟩
        rw [← hnow]
        exact hs.collected c hc hsub'
      · intro c hc hsub
        cases hc
        show hostPorts ⊆ s.listed urls
        rw [hnow]
        exact hsub
  | applied target hrouting =>
      rw [hrouting] at hin
      refine ⟨hstep, ?_, hs.collected, hs.windows⟩
      intro r hr hsub
      rcases hs.routed r hr hsub with ⟨-, c, hc, hsub'⟩
      rw [hin] at hc
      cases hc
      exact ⟨hsub', target, hin, hsub'⟩
  | published target happlied =>
      rw [happlied] at hin
      refine ⟨hstep, ?_, hs.collected, ?_⟩
      · intro r hr hsub
        cases hr
        refine ⟨?_, target, hin.left, hsub⟩
        show hostPorts ⊆ s.override
        rw [hin.right]
        exact hsub
      · intro i w params hw hparams hsame
        rcases hs.windows i w params hw hparams hsame with ⟨r, hr, hsub⟩
        rcases hs.routed r hr hsub with ⟨-, c, hc, hsub'⟩
        rw [hin.left] at hc
        cases hc
        exact ⟨target, rfl, hsub'⟩
  | opened shareId appId w hnew =>
      refine ⟨hstep, hs.routed, hs.collected, ?_⟩
      intro i w' params hw' hparams hsame
      rcases slot_append_eq_some_iff.mp hw' with hw' | ⟨-, rfl⟩
      · exact hs.windows i w' params hw' hparams hsame
      · rw [hnew] at hparams
        cases hparams
  | granted i order db secret w r credential issuer hw hr hsub hcredential =>
      refine ⟨hstep, hs.routed, hs.collected, ?_⟩
      intro j w' params hw' hparams hsame
      rcases (slot_set_eq_some_iff hw).mp hw' with ⟨-, rfl⟩ | ⟨-, hw'⟩
      · exact ⟨r, hr, hsame ▸ hsub⟩
      · exact hs.windows j w' params hw' hparams hsame

/-!
## Whose credentials the windows have
-/

/-- A window that has parameters has those of its share. -/
def Own (s : ForwardProxyHolder) : Prop :=
  forall (i : Nat) w params, s.windows[i]? = some w -> w.params = some params ->
    params.profile = profileName w.share ∧ params.realm = realm ∧
      exists secret, params.credential = ⟨w.share.text, secret.text⟩ ∧
        s.issuer.passwordOf w.share = some secret

theorem passwordOf_later {order : SerialTable.QueryOrder ShareRow} {db : DB}
    {issuer later : CredentialIssuer} {share other : ShareId} {secret minted : MintedSecret}
    {c : ProxyCredential} (h : Guest.credential order db issuer share secret = some (c, later))
    (hminted : issuer.passwordOf other = some minted) : later.passwordOf other = some minted := by
  unfold Guest.credential at h
  split at h
  · cases h
  · cases h
    exact CredentialIssuer.passwordOf_mintPassword hminted

theorem Effect.own (h : Effect urls s a t) (hs : s.Own) : t.Own := by
  cases h with
  | listed | started | collected | applied | published => exact hs
  | opened shareId appId w hnew =>
      intro i w' params hw' hparams
      rcases slot_append_eq_some_iff.mp hw' with hw' | ⟨-, rfl⟩
      · exact hs i w' params hw' hparams
      · rw [hnew] at hparams
        cases hparams
  | granted i order db secret w r credential issuer hw hr hsub hcredential =>
      intro j w' params hw' hparams
      rcases (slot_set_eq_some_iff hw).mp hw' with ⟨-, rfl⟩ | ⟨-, hw'⟩
      · cases hparams
        rcases CredentialIssuer.passwordOf_credential hcredential with ⟨minted, hc, hminted⟩
        exact ⟨rfl, rfl, minted, hc, hminted⟩
      · rcases hs j w' params hw' hparams with ⟨hprofile, hrealm, minted, hc, hminted⟩
        exact ⟨hprofile, hrealm, minted, hc, passwordOf_later hcredential hminted⟩

end

end ForwardProxyHolder

end Android
end WispersAccess
