import WispersAccess.Foundation.Slots
import WispersAccess.Guest.Device
import WispersAccess.Guest.StoredShare
import WispersAccess.Host.GuestApi

/-!
# Refreshing a share

Tasks of the guest ask the host whether a share has changed since the stored
copy, and store the answer.  Any number of them may be under way at once, while
the host swaps its config on a reload; each request is served against the config
that was in force when the host took up its stream.
-/

namespace WispersAccess
namespace Guest

open Foundation
open Wire (ShareInfo)
open Host (ShareConfig TransportKind shareInfo)

/-!
## The host
-/

/-- A host with the configs it has served, the current one last. -/
structure ShareHost where
  transport : TransportKind
  versions : List ShareConfig
  nonempty : versions ≠ []

namespace ShareHost

def current (host : ShareHost) : ShareConfig :=
  host.versions.getLast host.nonempty

/-- The place of the current config in the history. -/
def newest (host : ShareHost) : Nat :=
  host.versions.length - 1

/-- The running config is replaced if the file's has another hash. -/
def reload (host : ShareHost) (fresh : ShareConfig) : ShareHost :=
  if fresh.configHash ≠ host.current.configHash then
    { host with versions := host.versions ++ [fresh], nonempty := by simp }
  else host

theorem newest_current (host : ShareHost) : host.versions[host.newest]? = some host.current := by
  unfold newest current
  rw [← List.getLast?_eq_getElem?, List.getLast?_eq_some_getLast host.nonempty]

/-- A reload only adds to the history. -/
theorem versions_reload (host : ShareHost) (fresh : ShareConfig) :
    host.versions <+: (host.reload fresh).versions := by
  unfold reload
  split
  · exact List.prefix_append _ _
  · exact List.prefix_refl _

theorem transport_reload (host : ShareHost) (fresh : ShareConfig) :
    (host.reload fresh).transport = host.transport := by
  unfold reload
  split
  · rfl
  · rfl

end ShareHost

/-!
## Asking for the share
-/

/-- `GET /v1/share`, conditional where a hash is known. -/
def shareRequest (client : Option Wire.Version) (known : Option UInt64) : Host.Request where
  method := "GET"
  path := Wire.sharePath
  clientVersion := client
  ifNoneMatch := known.map Wire.etag
  body := some []

/-- What `fetch_info` makes of an answer. -/
inductive Fetched where
  | unchanged
  | info (info : ShareInfo)
  | tooOld
  | failed
  deriving DecidableEq

/-- What the host meets as it answers: the peer, its SDK and the state database. -/
structure Answering where
  peer : Host.Peer
  client : Option Wire.Version
  api : Host.ApiState

section
variable (text : JsonText) (w : Host.World)

def fetched (resp : Host.Response) : Fetched :=
  if resp.status = 304 then Fetched.unchanged
  else if resp.status = 200 then
    match resp.body with
    | Host.Body.full body =>
        match ShareInfo.decode text body with
        | some info => Fetched.info info
        | none => Fetched.failed
    | Host.Body.events => Fetched.failed
  else if resp.status = 426 then Fetched.tooOld
  else Fetched.failed

/-- A world whose share info is written as JSON. -/
def writingJson : Host.World :=
  { w with codecs := { w.codecs with shareInfo := ShareInfo.encode text } }

/-- The host's answer to a guest that knows a hash. -/
def hostAnswer (ctx : Host.StreamContext) (known : Option UInt64) (served : Answering) :
    Host.Response :=
  (Host.route (writingJson text w) ctx served.peer served.api
    (shareRequest served.client known)).1.1

end

/-!
## Refreshes
-/

/-- Where a refresh stands.  The version is the config that its stream is served against, once
the host has taken it up. -/
inductive RefreshPhase where
  | opened (version : Option Nat)
  | asked (known : Option UInt64) (version : Option Nat)
  | answered (version : Nat) (info : Option ShareInfo)
  /-- The mark is cleared, and the share info is still to be stored. -/
  | cleared (version : Nat) (info : ShareInfo)
  /-- The host asked for a newer SDK. -/
  | refused
  /-- All is written. -/
  | finished (version : Nat)
  | failed
  deriving DecidableEq

inductive RefreshEvent where
  | readHash
  | accept
  | answer (served : Answering)
  | clearOutdated
  | storeInfo
  | markOutdated
  /-- The answer is lost, or the store refuses. -/
  | fail

/-- A refresh that has not returned. -/
def RefreshPhase.running : RefreshPhase -> Bool
  | finished _ => false
  | failed => false
  | _ => true

structure Refreshing where
  db : DB
  host : ShareHost
  calls : List RefreshPhase

inductive RefreshAction where
  | start
  | call (i : Nat) (event : RefreshEvent)
  | reload (fresh : ShareConfig)
  /-- Another task writes to the store. -/
  | other (op : StoreOp)

section
variable (text : JsonText) (w : Host.World) (id : Int)

/-- What comes of the answer to a refresh. -/
def answerPhase (version : Nat) : Fetched -> RefreshPhase
  | Fetched.unchanged => RefreshPhase.answered version none
  | Fetched.info info => RefreshPhase.answered version (some info)
  | Fetched.tooOld => RefreshPhase.refused
  | Fetched.failed => RefreshPhase.failed

/-- The store and the phase of a refresh after an event. -/
def refreshEvent (db : DB) (host : ShareHost) (phase : RefreshPhase) :
    RefreshEvent -> Option (DB × RefreshPhase)
  | RefreshEvent.readHash =>
      match phase with
      | RefreshPhase.opened version =>
          (db.readShareConfigHash id).map fun known => (db, RefreshPhase.asked known version)
      | _ => none
  | RefreshEvent.accept =>
      match phase with
      | RefreshPhase.opened none => some (db, RefreshPhase.opened (some host.newest))
      | RefreshPhase.asked known none => some (db, RefreshPhase.asked known (some host.newest))
      | _ => none
  | RefreshEvent.answer served =>
      match phase with
      | RefreshPhase.asked known (some version) =>
          (host.versions[version]?).map fun config =>
            (db, answerPhase version
              (fetched text (hostAnswer text w ⟨config, host.transport⟩ known served)))
      | _ => none
  | RefreshEvent.clearOutdated =>
      match phase with
      | RefreshPhase.answered version none =>
          some ((db.writeOutdated id false).1, RefreshPhase.finished version)
      | RefreshPhase.answered version (some info) =>
          some ((db.writeOutdated id false).1, RefreshPhase.cleared version info)
      | _ => none
  | RefreshEvent.storeInfo =>
      match phase with
      | RefreshPhase.cleared version info =>
          (db.writeShareInfo text id info).map fun db' => (db', RefreshPhase.finished version)
      | _ => none
  | RefreshEvent.markOutdated =>
      match phase with
      | RefreshPhase.refused => some ((db.writeOutdated id true).1, RefreshPhase.failed)
      | _ => none
  | RefreshEvent.fail => if phase.running then some (db, RefreshPhase.failed) else none

/-- A step of the guest's tasks or of the host. -/
def refreshStep (s : Refreshing) : RefreshAction -> Option Refreshing
  | RefreshAction.start => some { s with calls := s.calls ++ [RefreshPhase.opened none] }
  | RefreshAction.call i event =>
      (s.calls[i]?).bind fun phase =>
        (refreshEvent text w id s.db s.host phase event).map fun p =>
          { s with db := p.1, calls := s.calls.set i p.2 }
  | RefreshAction.reload fresh => some { s with host := s.host.reload fresh }
  | RefreshAction.other op =>
      if op.sparesCopy id then (storeStep text s.db op).map fun db => { s with db := db } else none

end

/-!
## Answers
-/

section
variable {text : JsonText} {w : Host.World} {config : ShareConfig} {transport : TransportKind}
  {known : Option UInt64}

theorem fetched_shareResponse (headers : List (String × String)) :
    fetched text (Host.shareResponse (writingJson text w) headers ⟨config, transport⟩) =
      Fetched.info (shareInfo config transport) := by
  show (match ShareInfo.decode text ((shareInfo config transport).encode text) with
    | some info => Fetched.info info
    | none => Fetched.failed) = _
  rw [Wire.ShareInfo.decode_encode]

/-- A 304 is given to a guest that knows the hash of the config, and the share to others. -/
theorem fetched_getShare (client : Option Wire.Version) :
    fetched text (Host.getShare (writingJson text w) (shareRequest client known)
        ⟨config, transport⟩) =
      if known = some config.configHash then Fetched.unchanged
      else Fetched.info (shareInfo config transport) := by
  unfold Host.getShare
  cases known with
  | none =>
      rw [if_neg (by nofun)]
      exact fetched_shareResponse _
  | some hash =>
      show fetched text (if Wire.matchesIfNoneMatch config.configHash (Wire.etag hash) = true then _
        else _) = _
      by_cases hhash : config.configHash = hash
      · rw [if_pos (Wire.matchesIfNoneMatch_etag_iff.mpr hhash), if_pos (by rw [hhash])]
        rfl
      · rw [if_neg (fun h => hhash (Wire.matchesIfNoneMatch_etag_iff.mp h)),
          if_neg (fun h => hhash (Option.some.inj h).symm)]
        exact fetched_shareResponse _

theorem fetched_hostAnswer_welcome {served : Answering}
    (hclient : Host.clientTooOld served.client = false) (hpeer : served.peer.isAuthorized = true) :
    fetched text (hostAnswer text w ⟨config, transport⟩ known served) =
      if known = some config.configHash then Fetched.unchanged
      else Fetched.info (shareInfo config transport) := by
  have hallowed : Host.clientTooOld (shareRequest served.client known).clientVersion ≠ true :=
    ne_true_of_eq_false hclient
  unfold hostAnswer Host.route
  rw [if_neg hallowed, if_neg (not_not.mpr (Or.inl hpeer)), if_pos ⟨rfl, rfl⟩]
  exact fetched_getShare served.client

theorem fetched_hostAnswer_too_old {served : Answering}
    (hclient : Host.clientTooOld served.client = true) :
    fetched text (hostAnswer text w ⟨config, transport⟩ known served) = Fetched.tooOld := by
  have hold : Host.clientTooOld (shareRequest served.client known).clientVersion = true := hclient
  unfold hostAnswer Host.route
  rw [if_pos hold]
  rfl

theorem fetched_hostAnswer_unauthorized {served : Answering}
    (hclient : Host.clientTooOld served.client = false) (hpeer : served.peer.isAuthorized = false) :
    fetched text (hostAnswer text w ⟨config, transport⟩ known served) = Fetched.failed := by
  have hallowed : Host.clientTooOld (shareRequest served.client known).clientVersion ≠ true :=
    ne_true_of_eq_false hclient
  have hpath : (shareRequest served.client known).path ≠ Wire.activationPath :=
    show Wire.sharePath ≠ Wire.activationPath by decide
  unfold hostAnswer Host.route
  rw [if_neg hallowed, if_pos (not_or.mpr ⟨ne_true_of_eq_false hpeer, hpath⟩)]
  rfl

/-- What an answer can be. -/
theorem fetched_hostAnswer (text : JsonText) (w : Host.World) (config : ShareConfig)
    (transport : TransportKind) (known : Option UInt64) (served : Answering) :
    (fetched text (hostAnswer text w ⟨config, transport⟩ known served) = Fetched.unchanged ∧
        known = some config.configHash) ∨
      fetched text (hostAnswer text w ⟨config, transport⟩ known served) =
        Fetched.info (shareInfo config transport) ∨
      fetched text (hostAnswer text w ⟨config, transport⟩ known served) = Fetched.tooOld ∨
      fetched text (hostAnswer text w ⟨config, transport⟩ known served) = Fetched.failed := by
  cases hclient : Host.clientTooOld served.client with
  | true => exact Or.inr (Or.inr (Or.inl (fetched_hostAnswer_too_old hclient)))
  | false =>
      cases hpeer : served.peer.isAuthorized with
      | false => exact Or.inr (Or.inr (Or.inr (fetched_hostAnswer_unauthorized hclient hpeer)))
      | true =>
          rw [fetched_hostAnswer_welcome hclient hpeer]
          split
          · rename_i hknown
            exact Or.inl ⟨rfl, hknown⟩
          · exact Or.inr (Or.inl rfl)

end

/-!
## What an event does
-/

/-- Everything that an event of a refresh can do. -/
inductive RefreshEffect (text : JsonText) (id : Int) (host : ShareHost) (db : DB) :
    RefreshPhase -> RefreshEvent -> DB -> RefreshPhase -> Prop where
  | asked (known : Option UInt64) (version : Option Nat)
      (hread : db.readShareConfigHash id = some known) :
      RefreshEffect text id host db (RefreshPhase.opened version) RefreshEvent.readHash db
        (RefreshPhase.asked known version)
  /-- The host takes up the stream before the guest has read its hash, or after. -/
  | acceptedEarly :
      RefreshEffect text id host db (RefreshPhase.opened none) RefreshEvent.accept db
        (RefreshPhase.opened (some host.newest))
  | accepted (known : Option UInt64) :
      RefreshEffect text id host db (RefreshPhase.asked known none) RefreshEvent.accept db
        (RefreshPhase.asked known (some host.newest))
  /-- A 304. -/
  | unchanged (version : Nat) (config : ShareConfig) (served : Answering)
      (hconfig : host.versions[version]? = some config) :
      RefreshEffect text id host db
        (RefreshPhase.asked (some config.configHash) (some version)) (RefreshEvent.answer served)
        db (RefreshPhase.answered version none)
  /-- A 200. -/
  | told (known : Option UInt64) (version : Nat) (config : ShareConfig) (served : Answering)
      (hconfig : host.versions[version]? = some config) :
      RefreshEffect text id host db (RefreshPhase.asked known (some version))
        (RefreshEvent.answer served) db
        (RefreshPhase.answered version (some (shareInfo config host.transport)))
  /-- A 426. -/
  | refused (known : Option UInt64) (version : Nat) (served : Answering) :
      RefreshEffect text id host db (RefreshPhase.asked known (some version))
        (RefreshEvent.answer served) db RefreshPhase.refused
  /-- A 304 ends a refresh without a write to the copy. -/
  | confirmed (version : Nat) :
      RefreshEffect text id host db (RefreshPhase.answered version none)
        RefreshEvent.clearOutdated (db.writeOutdated id false).1 (RefreshPhase.finished version)
  | cleared (version : Nat) (info : ShareInfo) :
      RefreshEffect text id host db (RefreshPhase.answered version (some info))
        RefreshEvent.clearOutdated (db.writeOutdated id false).1
        (RefreshPhase.cleared version info)
  | stored (version : Nat) (info : ShareInfo) (db' : DB)
      (hwrite : db.writeShareInfo text id info = some db') :
      RefreshEffect text id host db (RefreshPhase.cleared version info) RefreshEvent.storeInfo db'
        (RefreshPhase.finished version)
  | marked :
      RefreshEffect text id host db RefreshPhase.refused RefreshEvent.markOutdated
        (db.writeOutdated id true).1 RefreshPhase.failed
  | failed (phase : RefreshPhase) (event : RefreshEvent) (hrunning : phase.running = true) :
      RefreshEffect text id host db phase event db RefreshPhase.failed

section
variable {text : JsonText} {w : Host.World} {id : Int} {db db' : DB} {host : ShareHost}
  {phase phase' : RefreshPhase} {event : RefreshEvent}

theorem refreshEvent_effect
    (h : refreshEvent text w id db host phase event = some (db', phase')) :
    RefreshEffect text id host db phase event db' phase' := by
  cases event with
  | readHash =>
      simp only [refreshEvent] at h
      split at h
      · rcases Option.map_eq_some_iff.mp h with ⟨known, hread, heq⟩
        cases heq
        exact RefreshEffect.asked known _ hread
      · cases h
  | accept =>
      simp only [refreshEvent] at h
      split at h
      · cases h
        exact RefreshEffect.acceptedEarly
      · cases h
        exact RefreshEffect.accepted _
      · cases h
  | answer served =>
      simp only [refreshEvent] at h
      split at h
      · rename_i known version
        rcases Option.map_eq_some_iff.mp h with ⟨config, hconfig, heq⟩
        cases heq
        rcases fetched_hostAnswer text w config host.transport known served with
          ⟨hfetched, rfl⟩ | hfetched | hfetched | hfetched
        · rw [hfetched]
          exact RefreshEffect.unchanged version config served hconfig
        · rw [hfetched]
          exact RefreshEffect.told known version config served hconfig
        · rw [hfetched]
          exact RefreshEffect.refused known version served
        · rw [hfetched]
          exact RefreshEffect.failed _ _ rfl
      · cases h
  | clearOutdated =>
      simp only [refreshEvent] at h
      split at h
      · cases h
        exact RefreshEffect.confirmed _
      · cases h
        exact RefreshEffect.cleared _ _
      · cases h
  | storeInfo =>
      simp only [refreshEvent] at h
      split at h
      · rcases Option.map_eq_some_iff.mp h with ⟨next, hwrite, heq⟩
        cases heq
        exact RefreshEffect.stored _ _ _ hwrite
      · cases h
  | markOutdated =>
      simp only [refreshEvent] at h
      split at h
      · cases h
        exact RefreshEffect.marked
      · cases h
  | fail =>
      simp only [refreshEvent] at h
      split at h
      · rename_i hrunning
        cases h
        exact RefreshEffect.failed _ _ hrunning
      · cases h

end

/-!
## What a refresh holds
-/

/-- What a phase says of the host's history. -/
def RefreshPhase.Fits (host : ShareHost) : RefreshPhase -> Prop
  | opened (some version) => version < host.versions.length
  | asked _ (some version) => version < host.versions.length
  | answered version none => version < host.versions.length
  | answered version (some info) =>
      exists config, host.versions[version]? = some config ∧
        info = shareInfo config host.transport
  | cleared version info =>
      exists config, host.versions[version]? = some config ∧
        info = shareInfo config host.transport
  | finished version => version < host.versions.length
  | _ => True

theorem ShareHost.newest_lt (host : ShareHost) : host.newest < host.versions.length :=
  (List.getElem?_eq_some_iff.mp host.newest_current).1

section
variable {text : JsonText} {id : Int} {db db' : DB} {host host' : ShareHost}
  {phase phase' : RefreshPhase} {event : RefreshEvent}

/-- A refresh only holds what the host had in its history. -/
theorem RefreshEffect.fits (h : RefreshEffect text id host db phase event db' phase')
    (hfits : phase.Fits host) : phase'.Fits host := by
  cases h with
  | asked known version hread =>
      cases version with
      | none => trivial
      | some version => exact hfits
  | acceptedEarly | accepted => exact host.newest_lt
  | told known version config served hconfig => exact ⟨config, hconfig, rfl⟩
  | stored version info db' hwrite =>
      rcases hfits with ⟨config, hconfig, -⟩
      exact (List.getElem?_eq_some_iff.mp hconfig).1
  | unchanged | confirmed | cleared => exact hfits
  | refused | marked | failed => trivial

/-- The history of a host only grows. -/
structure ShareHost.Grown (host host' : ShareHost) : Prop where
  versions : host.versions <+: host'.versions
  transport : host'.transport = host.transport

theorem ShareHost.Grown.refl (host : ShareHost) : host.Grown host where
  versions := List.prefix_refl _
  transport := rfl

theorem ShareHost.Grown.trans {host'' : ShareHost} (h : host.Grown host')
    (h' : host'.Grown host'') : host.Grown host'' where
  versions := h.versions.trans h'.versions
  transport := h'.transport.trans h.transport

theorem ShareHost.grown_reload (host : ShareHost) (fresh : ShareConfig) :
    host.Grown (host.reload fresh) where
  versions := host.versions_reload fresh
  transport := host.transport_reload fresh

theorem ShareHost.Grown.version (h : host.Grown host') {version : Nat} {config : ShareConfig}
    (hconfig : host.versions[version]? = some config) :
    host'.versions[version]? = some config := by
  rcases h.versions with ⟨later, hlater⟩
  rw [← hlater, List.getElem?_append_left (List.getElem?_eq_some_iff.mp hconfig).1, hconfig]

theorem ShareHost.Grown.fits (h : host.Grown host') (hfits : phase.Fits host) :
    phase.Fits host' := by
  have hlength : host.versions.length ≤ host'.versions.length := h.versions.length_le
  have htold : forall {version : Nat} {info : ShareInfo},
      (exists config, host.versions[version]? = some config ∧
        info = shareInfo config host.transport) ->
      exists config, host'.versions[version]? = some config ∧
        info = shareInfo config host'.transport := by
    intro version info hanswer
    rcases hanswer with ⟨config, hconfig, rfl⟩
    exact ⟨config, h.version hconfig, by rw [h.transport]⟩
  cases phase with
  | opened version =>
      cases version with
      | none => trivial
      | some version => exact Nat.lt_of_lt_of_le hfits hlength
  | asked known version =>
      cases version with
      | none => trivial
      | some version => exact Nat.lt_of_lt_of_le hfits hlength
  | answered version info =>
      cases info with
      | none => exact Nat.lt_of_lt_of_le hfits hlength
      | some info => exact htold hfits
  | cleared version info => exact htold hfits
  | finished version => exact Nat.lt_of_lt_of_le hfits hlength
  | refused | failed => trivial

end

end Guest
end WispersAccess
