import WispersAccess.Guest.JoinedHosts
import WispersAccess.Guest.ProxyRequests
import WispersAccess.Guest.TerminalStates

/-!
# Shares kept apart on the forward proxies

Every stream that a request opens is one of its own share's: it goes to the host
that the share was joined with, and to a target that the share lists.  Rows are
found by labels that hosts have a say in as well as by share ids, so that this
holds as long as no other share's label is the id of the request's share.
-/

namespace WispersAccess
namespace Guest

open Foundation
open Wire (ForwardProxyReply ShareInfo UrlParser utf8)
open Host (TransportKind shareInfo)

/-!
## Apps belong to rows
-/

/-- The apps' foreign key. -/
def DB.AppsOwned (db : DB) : Prop :=
  forall app, app ∈ db.apps -> exists r, db.row app.share = some r

section
variable {text : JsonText} {db db' : DB}

theorem appsOwned_updateShare (h : db.AppsOwned) {id : Int} {f : ShareRow -> ShareRow} :
    (db.updateShare id f).AppsOwned := by
  intro app happ
  rcases h app happ with ⟨r, hr⟩
  rw [DB.row_updateShare, hr]
  exact ⟨_, rfl⟩

/-- Apps are only written for a row that is there. -/
theorem DB.row_of_writeShareInfo {id : Int} {info : ShareInfo}
    (h : db.writeShareInfo text id info = some db') (happs : info.apps ≠ []) :
    exists r, db.row id = some r := by
  unfold DB.writeShareInfo at h
  split at h
  · rename_i hguard
    rcases hguard.right with hrow | hnone
    · exact Option.isSome_iff_exists.mp hrow
    · exact absurd hnone happs
  · cases h

theorem storeStep_appsOwned {op : StoreOp} (h : db.AppsOwned)
    (hstep : storeStep text db op = some db') : db'.AppsOwned := by
  cases op with
  | newRow shareId now =>
      rcases Option.map_eq_some_iff.mp hstep with ⟨⟨next, id⟩, hnew, rfl⟩
      intro app happ
      rcases DB.newRow_eq_some_iff.mp hnew with ⟨-, rfl, rfl⟩
      rcases h app happ with ⟨r, hr⟩
      exact ⟨r, (DB.row_newRow hnew app.share r).mpr (Or.inl hr)⟩
  | writeDedupedHostname id hostname =>
      rcases Option.map_eq_some_iff.mp hstep with ⟨⟨next, label⟩, hwrite, rfl⟩
      rcases DB.writeDedupedHostname_some hwrite with ⟨r, -, rfl, -⟩
      exact appsOwned_updateShare h
  | writeShareInfo id info =>
      intro app happ
      rw [DB.writeShareInfo_some hstep]
      rw [DB.writeShareInfo_apps hstep] at happ
      rcases List.mem_append.mp happ with hold | hnew
      · rcases h app (List.mem_filter.mp hold).left with ⟨r, hr⟩
        rw [hr]
        exact ⟨_, rfl⟩
      · rcases List.mem_mapIdx.mp hnew with ⟨position, hposition, rfl⟩
        rcases DB.row_of_writeShareInfo hstep (List.ne_nil_of_length_pos
          (Nat.lt_of_le_of_lt (Nat.zero_le position) hposition)) with ⟨r, hr⟩
        show exists r, (db.row id).map _ = some r
        rw [hr]
        exact ⟨_, rfl⟩
  | deleteRow id =>
      cases hstep
      intro app happ
      rcases List.mem_filter.mp happ with ⟨hmem, hid⟩
      rcases h app hmem with ⟨r, hr⟩
      exact ⟨r, DB.row_deleteRow.mpr ⟨hr, by simpa using hid⟩⟩
  | reopen =>
      cases hstep
      intro app happ
      rcases List.mem_filter.mp happ with ⟨hmem, hkept⟩
      rcases h app hmem with ⟨r, hr⟩
      refine ⟨r, DB.row_prepare.mpr ⟨hr, ?_⟩⟩
      intro hcomplete
      rw [hr] at hkept
      simp only [Option.any_some, hcomplete] at hkept
      exact absurd hkept (by decide)
  | writeDisplayName | writeWispersConnectBackend | writeIrohEndpointId | markComplete
  | writeTerminalState | writeOutdated =>
      cases hstep
      exact appsOwned_updateShare h

end

/-!
## What a step of a request does
-/

/-- A request that is answered, dropped or served. -/
def ForwardPhase.ended : ForwardPhase -> Bool
  | tunnelled _ _ => true
  | relayed _ => true
  | answered _ => true
  | dropped => true
  | _ => false

/-- The share and the target of a request that was let in, as long as it is not answered. -/
def ForwardPhase.destination : ForwardPhase -> Option Destination
  | finding dest => some dest
  | reading dest _ => some dest
  | listed dest => some dest
  | restoring dest _ => some dest
  | opening dest _ => some dest
  | tunnelled dest _ => some dest
  | direct dest => some dest
  | relayed dest => some dest
  | _ => none

section
variable (text : JsonText) (crates : ProxyCrates) (s : Client) (c : ForwardCall)

/-- Everything that a step of a request can do, to itself and to the client. -/
inductive ForwardEffect : ForwardEvent -> ForwardPhase -> Client -> Prop where
  | found {dest : Destination} {order : SerialTable.QueryOrder ShareRow} {row : Int} {r : ShareRow}
      (hphase : c.phase = ForwardPhase.finding dest)
      (hfind : s.db.findRow order dest.share.text = some (row, r)) :
      ForwardEffect (ForwardEvent.findRow order) (ForwardPhase.reading dest row) s
  | listed {dest : Destination} {row : Int} (hphase : c.phase = ForwardPhase.reading dest row)
      (hlisted : listsOrigin crates.urls (s.db.readApps text row) dest.host dest.port = true) :
      ForwardEffect ForwardEvent.readApps (ForwardPhase.listed dest) s
  | direct {dest : Destination} {row : Int} {share : ShareId}
      (hphase : c.phase = ForwardPhase.reading dest row)
      (hsource : c.source = ShareSource.fixed share) :
      ForwardEffect ForwardEvent.readApps (ForwardPhase.direct dest) s
  | restoring {dest : Destination} {order : SerialTable.QueryOrder ShareRow} {row : Int}
      {r : ShareRow} (hphase : c.phase = ForwardPhase.listed dest)
      (hfind : s.db.findRow order dest.share.text = some (row, r)) :
      ForwardEffect (ForwardEvent.restoreGuestNode order)
        (ForwardPhase.restoring dest s.restores.length)
        { s with restores := s.restores ++ [⟨row, RestorePhase.found⟩] }
  | opening {dest : Destination} {restore node : Nat} {d : RestoreCall}
      (hphase : c.phase = ForwardPhase.restoring dest restore)
      (hd : s.restores[restore]? = some d)
      (hlive : d.phase = RestorePhase.returned (some (Lookup.live node)))
      (hnode : node < s.nodes.length) :
      ForwardEffect ForwardEvent.restored (ForwardPhase.opening dest s.calls.length)
        { s with calls := s.calls ++
          [⟨node, NodeTask.openForwardProxyStream dest.host dest.port, NodePhase.gated⟩] }
  | tunnelled {dest : Destination} {call : Nat} {answer : List UInt8} (rest : List UInt8)
      (hphase : c.phase = ForwardPhase.opening dest call) :
      ForwardEffect (ForwardEvent.openTunnel answer) (ForwardPhase.tunnelled dest rest) s
  | relayed {dest : Destination} (hphase : c.phase = ForwardPhase.direct dest) :
      ForwardEffect (ForwardEvent.connect true) (ForwardPhase.relayed dest) s
  | answered {event : ForwardEvent} (resp : ErrorResponse) (hrunning : c.phase.ended = false) :
      ForwardEffect event (ForwardPhase.answered resp) s
  | dropped (hrunning : c.phase.ended = false) :
      ForwardEffect ForwardEvent.drop ForwardPhase.dropped s

end

section
variable {text : JsonText} {slug : Slugify} {crates : ProxyCrates}

/-- The client is left as it is, or takes a step. -/
theorem ForwardEffect.client {s client : Client} {c : ForwardCall} {event : ForwardEvent}
    {phase : ForwardPhase} (h : ForwardEffect text crates s c event phase client) :
    client = s ∨ exists a, ClientEffect text slug s a client := by
  cases h with
  | restoring hphase hfind => exact Or.inr ⟨_, ClientEffect.found hfind⟩
  | opening hphase hd hlive hnode => exact Or.inr ⟨_, ClientEffect.called hnode⟩
  | found | listed | direct | tunnelled | relayed | answered | dropped => exact Or.inl rfl

/-- A request that moves is running, and goes on to where it was let in. -/
theorem ForwardEffect.running {s client : Client} {c : ForwardCall} {event : ForwardEvent}
    {phase : ForwardPhase} (h : ForwardEffect text crates s c event phase client) :
    c.phase.ended = false ∧
      forall dest, phase.destination = some dest -> c.phase.destination = some dest := by
  cases h with
  | answered resp hrunning => exact ⟨hrunning, nofun⟩
  | dropped hrunning => exact ⟨hrunning, nofun⟩
  | found hphase | listed hphase | direct hphase | restoring hphase | opening hphase
  | tunnelled _ hphase | relayed hphase =>
      rw [hphase]
      exact ⟨rfl, fun _ h => h⟩

end

/-!
## The client's part
-/

/-- The restore is one of the share, and finds no other share's node. -/
def Client.RestoresFor (s : Client) (restore : Nat) (share : ShareId) : Prop :=
  exists c, s.restores[restore]? = some c ∧ s.db.OwnRow c.row share ∧
    (forall other, c.phase.share = some other -> other = share) ∧
    forall n, c.phase = RestorePhase.returned (some (Lookup.live n)) ->
      exists node, s.nodes[n]? = some node ∧ node.host.share = share

/-- The call asks a node of the share for a stream to the target. -/
def Client.OpensFor (s : Client) (call : Nat) (dest : Destination) : Prop :=
  exists d node, s.calls[call]? = some d ∧
    d.task = NodeTask.openForwardProxyStream dest.host dest.port ∧
      s.nodes[d.node]? = some node ∧ node.host.share = dest.share

section
variable {text : JsonText} {slug : Slugify} {s t : Client} {a : ClientAction} {seen : DB -> Prop}

theorem ClientEffect.appsOwned (h : ClientEffect text slug s a t) (hs : s.db.AppsOwned) :
    t.db.AppsOwned := by
  cases h with
  | @device b device hown hstep =>
      have hwrite := deviceStep_db hstep
      cases hop : deviceOp slug s.device b with
      | none =>
          rw [hop] at hwrite
          have hsame : s.device.db = device.db := Option.some.inj hwrite
          show device.db.AppsOwned
          rw [← hsame]
          exact hs
      | some op =>
          rw [hop] at hwrite
          exact storeStep_appsOwned hs hwrite
  | restore hc heffect =>
      cases heffect with
      | wrote hphase => exact appsOwned_updateShare hs
      | checked | named | entered | served | acquired | labelled | addressed | created | rejected
      | dead | failed => exact hs
  | node hc hnode heffect =>
      cases heffect with
      | wrote hphase => exact appsOwned_updateShare hs
      | passed | gated | reconnecting | opening | probeLearned | streamLearned | marked | ended =>
          exact hs
  | leaving hc heffect =>
      cases heffect with
      | removed | closing | closed | failed | goodbye | returned => exact hs
  | unknown | found | called | leaveFound => exact hs

/-- What a step of a restore of the share leads to. -/
theorem RestoreEffect.restoresFor {i : Nat} {c : RestoreCall} {event : RestoreEvent}
    (h : RestoreEffect s i c event t) (hs : s.Coherent) (hosted : s.Hosted seen)
    (hc : s.restores[i]? = some c) {share : ShareId} (hown : s.db.OwnRow c.row share)
    (hshare : forall other, c.phase.share = some other -> other = share) :
    exists phase, t.restores = s.restores.set i { c with phase := phase } ∧
      (forall other, phase.share = some other -> other = share) ∧
      forall n, phase = RestorePhase.returned (some (Lookup.live n)) ->
        exists node, t.nodes[n]? = some node ∧ node.host.share = share := by
  have hfits := (hs.restores i c hc).right
  cases h with
  | named hphase hr =>
      refine ⟨_, rfl, ?_, nofun⟩
      intro other hother
      cases hother
      exact hown _ hr
  | entered hphase hentry =>
      rw [hphase] at hshare
      exact ⟨_, rfl, hshare, nofun⟩
  | @served other cell node hphase hvalue =>
      rw [hphase] at hshare hfits
      refine ⟨_, rfl, nofun, ?_⟩
      intro n hn
      cases hn
      rcases hosted.values cell node hvalue with ⟨found, hfound, hkey⟩
      exact ⟨found, hfound, (hkey.unique hfits.right).trans (hshare other rfl)⟩
  | acquired hphase hacquire =>
      rw [hphase] at hshare
      exact ⟨_, rfl, hshare, nofun⟩
  | labelled label hphase =>
      rw [hphase] at hshare
      exact ⟨_, rfl, hshare, nofun⟩
  | addressed hphase hr =>
      rw [hphase] at hshare
      exact ⟨_, rfl, hshare, nofun⟩
  | @created other cell label host hphase =>
      rw [hphase] at hshare hfits
      refine ⟨_, rfl, nofun, ?_⟩
      intro n hn
      cases hn
      exact ⟨_, slot_append_eq_some_iff.mpr (Or.inr ⟨rfl, rfl⟩),
        hfits.right.right.right.trans (hshare other rfl)⟩
  | checked | rejected | wrote | dead | failed => exact ⟨_, rfl, nofun, nofun⟩

theorem ClientEffect.restoresFor (h : ClientEffect text slug s a t) (hs : s.Coherent)
    (hosted : s.Hosted seen) {k : Nat} {share : ShareId} (hfor : s.RestoresFor k share) :
    t.RestoresFor k share := by
  have hgrown := h.grown hs
  rcases hfor with ⟨c, hc, hown, hshare, hlive⟩
  have hown' := hgrown.rows.ownRow (hs.restores k c hc).left hown
  have hlive' : forall n, c.phase = RestorePhase.returned (some (Lookup.live n)) ->
      exists node, t.nodes[n]? = some node ∧ node.host.share = share := by
    intro n hn
    rcases hlive n hn with ⟨node, hnode, hhost⟩
    rcases hgrown.nodes n node hnode with ⟨node', hnode', -, hsame⟩
    exact ⟨node', hnode', hsame ▸ hhost⟩
  have hkept : t.restores[k]? = some c -> t.RestoresFor k share := by
    intro hc'
    exact ⟨c, hc', hown', hshare, hlive'⟩
  cases h with
  | found hfind => exact hkept (slot_append_eq_some_iff.mpr (Or.inl hc))
  | @restore i event d t hd heffect =>
      by_cases hi : k = i
      · subst hi
        rw [hc] at hd
        cases hd
        rcases heffect.restoresFor hs hosted hc hown hshare with
          ⟨phase, hrestores, hshare', hlive''⟩
        exact ⟨{ c with phase := phase }, hrestores ▸ slot_set_self hc _, hown', hshare', hlive''⟩
      · rcases heffect.moves with ⟨phase, hrestores, -⟩
        exact hkept (hrestores ▸ (slot_set_eq_some_iff hd).mpr (Or.inr ⟨hi, hc⟩))
  | node hd hnode heffect =>
      rcases heffect.moves with ⟨phase, -, hrestores, -⟩
      exact hkept (hrestores ▸ hc)
  | leaving hd heffect =>
      cases heffect with
      | removed | closing | closed | failed | goodbye | returned => exact hkept hc
  | unknown | device | called | leaveFound => exact hkept hc

theorem ClientEffect.opensFor (h : ClientEffect text slug s a t) (hs : s.Coherent) {k : Nat}
    {dest : Destination} (hfor : s.OpensFor k dest) : t.OpensFor k dest := by
  rcases hfor with ⟨d, node, hd, htask, hnode, hshare⟩
  have hkept : forall d', t.calls[k]? = some d' -> d'.node = d.node -> d'.task = d.task ->
      t.OpensFor k dest := by
    intro d' hd' hsame htask'
    rcases (h.grown hs).nodes _ _ hnode with ⟨node', hnode', -, hhost⟩
    exact ⟨d', node', hd', htask'.trans htask, hsame ▸ hnode', hhost ▸ hshare⟩
  cases h with
  | called hn => exact hkept d (slot_append_eq_some_iff.mpr (Or.inl hd)) rfl rfl
  | @node i event c node' t hc hnode' heffect =>
      rcases heffect.moves with ⟨phase, hcalls, -⟩
      by_cases hi : k = i
      · subst hi
        rw [hc] at hd
        cases hd
        exact hkept { d with phase := phase } (hcalls ▸ slot_set_self hc _) rfl rfl
      · exact hkept d (hcalls ▸ (slot_set_eq_some_iff hc).mpr (Or.inr ⟨hi, hd⟩)) rfl rfl
  | restore hc heffect =>
      rcases heffect.moves with ⟨phase, -, hcalls, -⟩
      exact hkept d (hcalls ▸ hd) rfl rfl
  | leaving hc heffect =>
      cases heffect with
      | removed | closing | closed | failed | goodbye | returned => exact hkept d hd rfl rfl
  | unknown | device | found | leaveFound => exact hkept d hd rfl rfl

end

/-!
## What holds of a request
-/

/-- A request that has found its target listed, and uses the host for it. -/
def ForwardPhase.throughHost : ForwardPhase -> Option Destination
  | listed dest => some dest
  | restoring dest _ => some dest
  | opening dest _ => some dest
  | tunnelled dest _ => some dest
  | _ => none

/-- The share listed the target at some time, as its apps were stored. -/
def ListedBy (text : JsonText) (crates : ProxyCrates) (seen : DB -> Prop) (dest : Destination) :
    Prop :=
  exists past id r, seen past ∧ past.row id = some r ∧ r.complete = some true ∧
    r.shareId = dest.share ∧
      listsOrigin crates.urls (past.readApps text id) dest.host dest.port = true

theorem ListedBy.mono {text : JsonText} {crates : ProxyCrates} {seen seen' : DB -> Prop}
    {dest : Destination} (h : ListedBy text crates seen dest)
    (hseen : forall past, seen past -> seen' past) : ListedBy text crates seen' dest := by
  rcases h with ⟨past, id, r, hpast, hrow⟩
  exact ⟨past, id, r, hseen past hpast, hrow⟩

/-- A request keeps to its share's row, restore and node. -/
structure RequestFits (text : JsonText) (crates : ProxyCrates) (seen : DB -> Prop) (s : Client)
    (source : ShareSource) (phase : ForwardPhase) : Prop where
  reading : forall dest row, phase = ForwardPhase.reading dest row ->
    row < s.db.shares.nextId ∧ forall r, s.db.row row = some r ->
      r.complete = some true ∧ r.shareId = dest.share
  listed : forall dest, phase.throughHost = some dest -> ListedBy text crates seen dest
  restoring : forall dest k, phase = ForwardPhase.restoring dest k -> s.RestoresFor k dest.share
  opening : forall dest k, phase = ForwardPhase.opening dest k -> s.OpensFor k dest
  fixed : forall dest, phase = ForwardPhase.direct dest ∨ phase = ForwardPhase.relayed dest ->
    exists share, source = ShareSource.fixed share

section
variable {text : JsonText} {slug : Slugify} {crates : ProxyCrates} {seen : DB -> Prop}

/-- A request that has ended, or not begun to use anything. -/
theorem RequestFits.of_idle {s : Client} {source : ShareSource} {phase : ForwardPhase}
    (hreading : forall dest row, phase ≠ ForwardPhase.reading dest row)
    (hhost : phase.throughHost = none)
    (hdirect : forall dest, phase ≠ ForwardPhase.direct dest ∧
      phase ≠ ForwardPhase.relayed dest) :
    RequestFits text crates seen s source phase where
  reading := fun dest row heq => absurd heq (hreading dest row)
  listed := by
    intro dest hdest
    rw [hhost] at hdest
    cases hdest
  restoring := by
    intro dest k hsame
    subst hsame
    cases hhost
  opening := by
    intro dest k hsame
    subst hsame
    cases hhost
  fixed := by
    intro dest h
    rcases h with heq | heq
    · exact absurd heq (hdirect dest).left
    · exact absurd heq (hdirect dest).right

theorem RequestFits.mono {seen' : DB -> Prop} {s : Client} {source : ShareSource}
    {phase : ForwardPhase} (h : RequestFits text crates seen s source phase)
    (hseen : forall past, seen past -> seen' past) :
    RequestFits text crates seen' s source phase where
  reading := h.reading
  listed := fun dest hdest => (h.listed dest hdest).mono hseen
  restoring := h.restoring
  opening := h.opening
  fixed := h.fixed

/-- A step of the client leaves what holds of the requests. -/
theorem RequestFits.kept {s t : Client} {source : ShareSource} {phase : ForwardPhase}
    (h : RequestFits text crates seen s source phase) {a : ClientAction}
    (heffect : ClientEffect text slug s a t) (hs : s.Coherent) (hosted : s.Hosted seen) :
    RequestFits text crates seen t source phase where
  reading := by
    intro dest row hphase
    rcases h.reading dest row hphase with ⟨hknown, hrow⟩
    have hrows := (heffect.grown hs).rows
    refine ⟨Int.lt_of_lt_of_le hknown hrows.next, ?_⟩
    intro r' hr'
    rcases (heffect.hostsKept hs hosted.joins).left row r' hr' hknown with ⟨r, hr, hsame⟩
    rcases hrows.origin row r' hr' hknown with ⟨q, hq, hshare⟩
    rw [hr] at hq
    cases hq
    rcases hrow r hr with ⟨hcomplete, hown⟩
    exact ⟨(hsame hcomplete).left, hshare.trans hown⟩
  listed := h.listed
  restoring := by
    intro dest k hphase
    exact heffect.restoresFor hs hosted (h.restoring dest k hphase)
  opening := by
    intro dest k hphase
    exact heffect.opensFor hs (h.opening dest k hphase)
  fixed := h.fixed

theorem RequestFits.same {s t : Client} {source : ShareSource} {phase : ForwardPhase}
    (h : RequestFits text crates seen s source phase)
    (hclient : t = s ∨ exists a, ClientEffect text slug s a t) (hs : s.Coherent)
    (hosted : s.Hosted seen) : RequestFits text crates seen t source phase := by
  rcases hclient with rfl | ⟨a, heffect⟩
  · exact h
  · exact h.kept heffect hs hosted

/-- Apps that list something are those of a row. -/
theorem row_of_listsOrigin {db : DB} (happs : db.AppsOwned) {id : Int} {host : String}
    {port : UInt16}
    (hlisted : listsOrigin crates.urls (db.readApps text id) host port = true) :
    exists r, db.row id = some r := by
  rcases listsOrigin_iff.mp hlisted with ⟨app, _, _, happ, _⟩
  rcases List.mem_map.mp happ with ⟨row, hrow, -⟩
  rcases List.mem_filter.mp ((List.mem_insertionSort _).mp hrow) with ⟨hmem, hid⟩
  rcases happs row hmem with ⟨r, hr⟩
  exact ⟨r, of_decide_eq_true hid ▸ hr⟩

/-- A query for a share by its id. -/
def ForwardEvent.looksUp : ForwardEvent -> Bool
  | findRow _ => true
  | restoreGuestNode _ => true
  | _ => false

/-- A step that looks a share up does so where the share is named alone. -/
def LooksUpItsOwn (s : ProxyPorts) : ProxyAction -> Prop
  | ProxyAction.handle i event =>
      event.looksUp = true -> forall c, c ∈ s.requests[i]? ->
        forall dest, dest ∈ c.phase.destination -> s.client.db.NamedAlone dest.share
  | _ => True

instance decidableLooksUp (s : ProxyPorts) (a : ProxyAction) : Decidable (LooksUpItsOwn s a) := by
  unfold LooksUpItsOwn
  split
  all_goals infer_instance

/-- What a step of a request leads to. -/
theorem ForwardEffect.fits {s client : Client} {c : ForwardCall} {event : ForwardEvent}
    {phase : ForwardPhase} (h : ForwardEffect text crates s c event phase client)
    (happs : s.db.AppsOwned) (hseen : seen s.db)
    (hown : event.looksUp = true -> forall dest, c.phase.destination = some dest ->
      s.db.NamedAlone dest.share)
    (hfits : RequestFits text crates seen s c.source c.phase) :
    RequestFits text crates seen client c.source phase := by
  cases h with
  | @found dest order row r hphase hfind =>
      have halone : s.db.NamedAlone dest.share := hown rfl dest (by rw [hphase]; rfl)
      rcases SerialTable.findRow_some hfind with ⟨hr, hmatches⟩
      refine ⟨?_, nofun, nofun, nofun, nofun⟩
      intro dest' row' heq
      cases heq
      refine ⟨SerialTable.lt_nextId_of_lookup hr, ?_⟩
      intro r' hr'
      have hsame : s.db.row row = some r := hr
      rw [hr'] at hsame
      cases hsame
      exact ⟨(DB.matchesKey_iff.mp hmatches).left, halone.findRow hfind⟩
  | @listed dest row hphase hlisted =>
      refine ⟨nofun, ?_, nofun, nofun, nofun⟩
      intro dest' hdest
      cases hdest
      rcases row_of_listsOrigin happs hlisted with ⟨r, hr⟩
      rcases (hfits.reading dest row hphase).right r hr with ⟨hcomplete, hshare⟩
      exact ⟨s.db, row, r, hseen, hr, hcomplete, hshare, hlisted⟩
  | direct hphase hsource => exact ⟨nofun, nofun, nofun, nofun, fun _ _ => ⟨_, hsource⟩⟩
  | @restoring dest order row r hphase hfind =>
      have halone : s.db.NamedAlone dest.share := hown rfl dest (by rw [hphase]; rfl)
      have hr : s.db.row row = some r := (SerialTable.findRow_some hfind).left
      refine ⟨nofun, ?_, ?_, nofun, nofun⟩
      · intro dest' hdest
        cases hdest
        exact hfits.listed dest (by rw [hphase]; rfl)
      · intro dest' k heq
        cases heq
        refine ⟨_, slot_append_eq_some_iff.mpr (Or.inr ⟨rfl, rfl⟩), ?_, nofun, nofun⟩
        intro r' hr'
        rw [show s.db.row row = some r' from hr'] at hr
        cases hr
        exact halone.findRow hfind
  | @opening dest restore node d hphase hd hlive hnode =>
      rcases hfits.restoring dest restore hphase with ⟨d', hd', -, -, hfound⟩
      rw [hd] at hd'
      cases hd'
      rcases hfound node hlive with ⟨found, hfound, hshare⟩
      refine ⟨nofun, ?_, nofun, ?_, nofun⟩
      · intro dest' hdest
        cases hdest
        exact hfits.listed dest (by rw [hphase]; rfl)
      · intro dest' k heq
        cases heq
        exact ⟨_, found, slot_append_eq_some_iff.mpr (Or.inr ⟨rfl, rfl⟩), rfl, hfound, hshare⟩
  | @tunnelled dest call answer rest hphase =>
      refine ⟨nofun, ?_, nofun, nofun, nofun⟩
      intro dest' hdest
      cases hdest
      exact hfits.listed dest (by rw [hphase]; rfl)
  | @relayed dest hphase =>
      exact ⟨nofun, nofun, nofun, nofun, fun _ _ => hfits.fixed dest (Or.inl hphase)⟩
  | answered resp hrunning => exact RequestFits.of_idle nofun rfl fun _ => ⟨nofun, nofun⟩
  | dropped hrunning => exact RequestFits.of_idle nofun rfl fun _ => ⟨nofun, nofun⟩

end

/-!
## Runs
-/

/-- The request was let in, if its share was known when it came. -/
def Admitted (base64 : String -> Option (List UInt8)) (past : ProxyPorts -> Prop) (i : Nat)
    (c : ForwardCall) : Prop :=
  exists v, past v ∧ v.requests.length = i ∧
    (v.share base64 c.source c.request = none -> c.phase = ForwardPhase.answered challenge) ∧
      forall dest, c.phase.destination = some dest ->
        v.share base64 c.source c.request = some dest.share ∧
          target c.request.uri = some (dest.host, dest.port)

section
variable {text : JsonText} {slug : Slugify} {crates : ProxyCrates}

theorem Admitted.mono {base64 : String -> Option (List UInt8)} {past past' : ProxyPorts -> Prop}
    {i : Nat} {c : ForwardCall} (h : Admitted base64 past i c)
    (hpast : forall v, past v -> past' v) : Admitted base64 past' i c := by
  rcases h with ⟨v, hv, hlen⟩
  exact ⟨v, hpast v hv, hlen⟩

theorem Admitted.moved {base64 : String -> Option (List UInt8)} {past : ProxyPorts -> Prop}
    {i : Nat} {c : ForwardCall} {phase : ForwardPhase} (h : Admitted base64 past i c)
    (hrunning : c.phase.ended = false)
    (hdest : forall dest, phase.destination = some dest -> c.phase.destination = some dest) :
    Admitted base64 past i { c with phase := phase } := by
  rcases h with ⟨v, hv, hlen, hchallenge, hadmitted⟩
  refine ⟨v, hv, hlen, ?_, fun dest heq => hadmitted dest (hdest dest heq)⟩
  intro hnone
  rw [hchallenge hnone] at hrunning
  cases hrunning

end

/-!
## A development server
-/

end Guest
end WispersAccess
