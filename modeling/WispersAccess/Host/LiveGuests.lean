import WispersAccess.Foundation.ActionSystem
import WispersAccess.Foundation.Grouping
import WispersAccess.Foundation.Slots
import WispersAccess.Host.Config
import WispersAccess.Host.InviteStatus
import WispersAccess.Host.Ipc

/-!
# Which guests are connected

The server keeps the live connections in a map, under ids that it counts up.  A
status request lists them guest by guest, in whatever order the map comes, and
the command marks the guests of its own list by what it is told.
-/

namespace WispersAccess
namespace Host

open Foundation

/-!
## Earlier and later
-/

/-- The earlier of two times. -/
def DateTime.min (s t : DateTime) : DateTime :=
  if s.le t then s else t

theorem DateTime.le_refl (s : DateTime) : s.le s = true := by
  unfold DateTime.le
  simp

theorem DateTime.le_total (s t : DateTime) : s.le t = true ∨ t.le s = true := by
  unfold DateTime.le
  simp only [Bool.or_eq_true, Bool.and_eq_true, decide_eq_true_eq]
  omega

theorem DateTime.le_trans {s t u : DateTime} (hst : s.le t = true) (htu : t.le u = true) :
    s.le u = true := by
  unfold DateTime.le at *
  simp only [Bool.or_eq_true, Bool.and_eq_true, decide_eq_true_eq] at *
  omega

theorem DateTime.min_le_left (s t : DateTime) : (s.min t).le s = true := by
  unfold DateTime.min
  by_cases h : s.le t = true
  · rw [if_pos h]
    exact DateTime.le_refl s
  · rw [if_neg h]
    exact (DateTime.le_total s t).resolve_left h

theorem DateTime.min_le_right (s t : DateTime) : (s.min t).le t = true := by
  unfold DateTime.min
  by_cases h : s.le t = true
  · rw [if_pos h]
    exact h
  · rw [if_neg h]
    exact DateTime.le_refl t

namespace Status

open Ipc

/-!
## The registry
-/

structure GuestNodeConnection where
  number : Int32
  userId : String
  connectedSince : DateTime
  deriving DecidableEq, Repr

/-- Where the task of a connection stands; its place is the id it is given. -/
inductive RegistryTask where
  /-- Has its id, and waits for the lock on the map. -/
  | numbered (number : Int32) (userId : String)
  | registered (connection : GuestNodeConnection)
  | unregistered
  deriving DecidableEq, Repr

structure Registry where
  tasks : List RegistryTask
  connections : List (Nat × GuestNodeConnection)

def Registry.empty : Registry where
  tasks := []
  connections := []

inductive RegistryAction where
  /-- `register_connection` takes the next id. -/
  | number (number : Int32) (userId : String)
  /-- It stores the connection, at this time. -/
  | insert (id : Nat) (now : DateTime)
  | unregister (id : Nat)

def registryStep (s : Registry) : RegistryAction -> Option Registry
  | RegistryAction.number number userId =>
      some { s with tasks := s.tasks ++ [RegistryTask.numbered number userId] }
  | RegistryAction.insert id now =>
      match s.tasks[id]? with
      | some (RegistryTask.numbered number userId) =>
          let connection : GuestNodeConnection := ⟨number, userId, now⟩
          some {
            tasks := s.tasks.set id (RegistryTask.registered connection)
            connections := (id, connection) :: s.connections.filter fun c => c.1 ≠ id }
      | _ => none
  | RegistryAction.unregister id =>
      match s.tasks[id]? with
      | some (RegistryTask.registered _) =>
          some {
            tasks := s.tasks.set id RegistryTask.unregistered
            connections := s.connections.filter fun c => c.1 ≠ id }
      | _ => none

/-- The map has the connections whose tasks are registered. -/
def Registry.Mirrors (s : Registry) : Prop :=
  forall id connection, (id, connection) ∈ s.connections <->
    s.tasks[id]? = some (RegistryTask.registered connection)

theorem registryStep_mirrors {s t : Registry} {a : RegistryAction} (hs : s.Mirrors)
    (h : registryStep s a = some t) : t.Mirrors := by
  intro id connection
  cases a with
  | number number userId =>
      cases h
      rw [slot_append_eq_some_iff, hs id connection]
      exact ⟨Or.inl, fun h => h.elim (fun hold => hold) fun hnew => nomatch hnew.right⟩
  | insert id' now =>
      simp only [registryStep] at h
      split at h
      · rename_i number userId hid
        cases h
        rw [slot_set_eq_some_iff hid, List.mem_cons, List.mem_filter, hs id connection]
        simp only [Prod.mk.injEq, RegistryTask.registered.injEq, decide_eq_true_eq]
        exact or_congr_right and_comm
      · cases h
  | unregister id' =>
      simp only [registryStep] at h
      split at h
      · rename_i old hid
        cases h
        rw [slot_set_eq_some_iff hid, List.mem_filter, hs id connection]
        simp only [decide_eq_true_eq, reduceCtorEq, and_false, false_or]
        exact and_comm
      · cases h

theorem mirrors_of_run {acts : List RegistryAction} {s : Registry}
    (hrun : Run registryStep Registry.empty acts s) : s.Mirrors :=
  hrun.invariant (fun _ _ _ hs h => registryStep_mirrors hs h) (fun _ _ => ⟨nofun, nofun⟩)

/-!
## The server's list
-/

/-- One guest's live connections, taken together. -/
structure ConnectedGuest where
  number : Int32
  userId : String
  connectedSince : DateTime
  deriving DecidableEq, Repr

/-- One entry for each guest, since the earliest of its connections. -/
def byNumber : Collector GuestNodeConnection ConnectedGuest Int32 where
  keyOf p := p.number
  key guest := guest.number
  create p := ⟨p.number, p.userId, p.connectedSince⟩
  merge guest p := { guest with connectedSince := guest.connectedSince.min p.connectedSince }
  key_create _ := rfl
  key_merge _ _ := rfl

def sortByNumber (guests : List ConnectedGuest) : List ConnectedGuest :=
  guests.mergeSort fun g h => g.number ≤ h.number

/-- `connected_guests` may answer with this: the connections come in any order, and so do the
guests before they are sorted. -/
def Registry.Lists (s : Registry) (guests : List ConnectedGuest) : Prop :=
  exists values unsorted, values.Perm (s.connections.map Prod.snd) ∧
    unsorted.Perm (byNumber.collect values) ∧ guests = sortByNumber unsorted

/-- What a guest's entry says of the connections it is made from. -/
structure ConnectedGuest.Sums (guest : ConnectedGuest) (values : List GuestNodeConnection) :
    Prop where
  user : exists p, p ∈ values ∧ p.userId = guest.userId
  since : exists p, p ∈ values ∧ p.connectedSince = guest.connectedSince
  earliest : forall p, p ∈ values -> guest.connectedSince.le p.connectedSince = true

theorem sums_foldl {values seen : List GuestNodeConnection} {guest : ConnectedGuest}
    (h : guest.Sums seen) : (values.foldl byNumber.merge guest).Sums (seen ++ values) := by
  induction values generalizing seen guest with
  | nil =>
      rw [List.append_nil]
      exact h
  | cons p rest ih =>
      have hstep : (byNumber.merge guest p).Sums (seen ++ [p]) := by
        constructor
        · rcases h.user with ⟨q, hq, huser⟩
          exact ⟨q, List.mem_append_left _ hq, huser⟩
        · show exists q, q ∈ seen ++ [p] ∧
            q.connectedSince = guest.connectedSince.min p.connectedSince
          unfold DateTime.min
          by_cases hle : guest.connectedSince.le p.connectedSince = true
          · rw [if_pos hle]
            rcases h.since with ⟨q, hq, hsince⟩
            exact ⟨q, List.mem_append_left _ hq, hsince⟩
          · rw [if_neg hle]
            exact ⟨p, List.mem_append_right _ (List.mem_singleton_self p), rfl⟩
        · intro q hq
          rcases List.mem_append.mp hq with hq | hq
          · exact DateTime.le_trans (DateTime.min_le_left _ _) (h.earliest q hq)
          · rw [List.mem_singleton.mp hq]
            exact DateTime.min_le_right _ _
      have hrest := ih hstep
      rw [List.append_assoc] at hrest
      exact hrest

/-- The entry of a guest sums up its connections. -/
theorem sums_of_mem_collect {values : List GuestNodeConnection} {guest : ConnectedGuest}
    (h : guest ∈ byNumber.collect values) :
    guest.Sums (values.filter fun p => p.number = guest.number) := by
  have hgroup := Collector.mem_collect_iff.mp h
  change byNumber.groupOf (values.filter fun p => p.number = guest.number) = some guest at hgroup
  cases hvalues : values.filter fun p => p.number = guest.number with
  | nil =>
      rw [hvalues] at hgroup
      cases hgroup
  | cons p rest =>
      rw [hvalues] at hgroup
      cases hgroup
      have hfirst : (byNumber.create p).Sums [p] := by
        refine ⟨⟨p, List.mem_singleton_self p, rfl⟩, ⟨p, List.mem_singleton_self p, rfl⟩, ?_⟩
        intro q hq
        rw [List.mem_singleton.mp hq]
        exact DateTime.le_refl _
      exact sums_foldl hfirst

theorem perm_sortByNumber (guests : List ConnectedGuest) :
    (sortByNumber guests).Perm guests :=
  List.mergeSort_perm guests _

/-- With one entry for each guest, the list ascends. -/
theorem ascending_sortByNumber {guests : List ConnectedGuest}
    (h : (guests.map ConnectedGuest.number).Nodup) :
    (sortByNumber guests).Pairwise fun g h => g.number < h.number := by
  have hsorted : (sortByNumber guests).Pairwise fun g h => g.number ≤ h.number := by
    have hle : (sortByNumber guests).Pairwise fun g h => decide (g.number ≤ h.number) = true := by
      refine List.pairwise_mergeSort ?_ ?_ guests
      · intro a b c hab hbc
        exact decide_eq_true (Int32.le_trans (of_decide_eq_true hab) (of_decide_eq_true hbc))
      · intro a b
        simp only [Bool.or_eq_true, decide_eq_true_eq]
        exact Int32.le_total _ _
    exact hle.imp fun hdec => of_decide_eq_true hdec
  have hdistinct : (sortByNumber guests).Pairwise fun g h => g.number ≠ h.number := by
    rw [← ((perm_sortByNumber guests).map ConnectedGuest.number).nodup_iff] at h
    exact List.pairwise_map.mp h
  exact hsorted.imp₂ (fun _ _ hle hne => Int32.lt_of_le_of_ne hle hne) hdistinct

/-- The list of a registry, whichever it is. -/
structure Registry.Listing (s : Registry) (guests : List ConnectedGuest) : Prop where
  ascending : guests.Pairwise fun g h => g.number < h.number
  complete : forall number, number ∈ guests.map ConnectedGuest.number <->
    exists id p, (id, p) ∈ s.connections ∧ p.number = number
  sums : forall guest, guest ∈ guests ->
    (exists id p, (id, p) ∈ s.connections ∧ p.number = guest.number ∧
      p.connectedSince = guest.connectedSince) ∧
    (exists id p, (id, p) ∈ s.connections ∧ p.number = guest.number ∧
      p.userId = guest.userId) ∧
    forall id p, (id, p) ∈ s.connections -> p.number = guest.number ->
      guest.connectedSince.le p.connectedSince = true

theorem Registry.Lists.listing {s : Registry} {guests : List ConnectedGuest}
    (h : s.Lists guests) : s.Listing guests := by
  rcases h with ⟨values, unsorted, hvalues, hunsorted, rfl⟩
  have hmemValues : forall p, p ∈ values <-> exists id, (id, p) ∈ s.connections := by
    intro p
    rw [hvalues.mem_iff, List.mem_map]
    constructor
    · intro hp
      rcases hp with ⟨⟨id, q⟩, hq, rfl⟩
      exact ⟨id, hq⟩
    · intro hp
      rcases hp with ⟨id, hid⟩
      exact ⟨(id, p), hid, rfl⟩
  have hnodup : (unsorted.map ConnectedGuest.number).Nodup := by
    rw [(hunsorted.map ConnectedGuest.number).nodup_iff]
    exact Collector.nodup_collect (c := byNumber) values
  constructor
  · exact ascending_sortByNumber hnodup
  · intro number
    rw [((perm_sortByNumber unsorted).map _).mem_iff, (hunsorted.map _).mem_iff]
    refine (Collector.mem_keys_collect (c := byNumber)).trans ?_
    rw [List.mem_map]
    constructor
    · intro hp
      rcases hp with ⟨p, hp, hnumber⟩
      rcases (hmemValues p).mp hp with ⟨id, hid⟩
      exact ⟨id, p, hid, hnumber⟩
    · intro hp
      rcases hp with ⟨id, p, hid, hnumber⟩
      exact ⟨p, (hmemValues p).mpr ⟨id, hid⟩, hnumber⟩
  · intro guest hguest
    have hcollected := hunsorted.mem_iff.mp ((perm_sortByNumber unsorted).mem_iff.mp hguest)
    have hsums := sums_of_mem_collect hcollected
    have hconnection : forall p, p ∈ values.filter (fun p => p.number = guest.number) ->
        exists id, (id, p) ∈ s.connections ∧ p.number = guest.number := by
      intro p hp
      rcases List.mem_filter.mp hp with ⟨hmem, hnumber⟩
      rcases (hmemValues p).mp hmem with ⟨id, hid⟩
      exact ⟨id, hid, of_decide_eq_true hnumber⟩
    refine ⟨?_, ?_, ?_⟩
    · rcases hsums.since with ⟨p, hp, hsince⟩
      rcases hconnection p hp with ⟨id, hid, hnumber⟩
      exact ⟨id, p, hid, hnumber, hsince⟩
    · rcases hsums.user with ⟨p, hp, huser⟩
      rcases hconnection p hp with ⟨id, hid, hnumber⟩
      exact ⟨id, p, hid, hnumber, huser⟩
    · intro id p hid hnumber
      exact hsums.earliest p
        (List.mem_filter.mpr ⟨(hmemValues p).mpr ⟨id, hid⟩, decide_eq_true hnumber⟩)

/-!
## The status request
-/

def upstream (app : AppConfig) : Option String :=
  match app.mode with
  | AppProxyMode.reverseProxy upstream => some upstream
  | AppProxyMode.forwardProxy _ _ => none

/-- `AppData::from`. -/
def appDataFrom (app : AppConfig) : AppData where
  id := app.id
  name := app.name
  kind := app.kind
  mode := app.mode.wire
  upstream := upstream app
  proxiedOrigins :=
    match app.mode with
    | AppProxyMode.reverseProxy _ => []
    | AppProxyMode.forwardProxy _ origins => origins.map Wire.Origin.toText

/-- What the server knows of itself. -/
structure ServerFacts where
  reachable : Bool
  reachableSince : Option DateTime
  config : ShareConfig
  pid : UInt32
  startedAt : DateTime

def ConnectedGuest.data (guest : ConnectedGuest) : GuestData where
  nodeNumber := guest.number
  userId := some guest.userId
  connectedSince := some (fmtRfc3339 guest.connectedSince)

def handleStatus (server : ServerFacts) (guests : List ConnectedGuest) : Ipc.Response :=
  Ipc.Response.ofData (ResponseData.status {
    reachable := server.reachable
    apps := server.config.apps.map appDataFrom
    configHash := server.config.configHash
    pid := server.pid
    startedAt := fmtRfc3339 server.startedAt
    connectedSince := server.reachableSince.map fmtRfc3339
    connectedGuests := some (guests.map ConnectedGuest.data) })

/-- The server's answers: to a status request this one, to the others what it may be. -/
def handleRequest (server : ServerFacts) (guests : List ConnectedGuest)
    (other : Except RequestError Ipc.Request -> Ipc.Response) :
    Except RequestError Ipc.Request -> Ipc.Response
  | Except.ok Ipc.Request.status => handleStatus server guests
  | request => other request

/-!
## The command's report
-/

inductive ServerState where
  | serving
  | connecting
  | offline
  | error
  deriving DecidableEq, Repr

structure ServerStatus where
  state : ServerState
  error : Option String
  reachable : Option Bool
  pid : Option UInt32
  startedAt : Option String
  connectedSince : Option String
  reloadPending : Option Bool

def ServerStatus.offline : ServerStatus where
  state := ServerState.offline
  error := none
  reachable := none
  pid := none
  startedAt := none
  connectedSince := none
  reloadPending := none

def ServerStatus.ofError (msg : String) : ServerStatus :=
  { ServerStatus.offline with state := ServerState.error, error := some msg }

/-- What comes of asking the server. -/
inductive ServerAnswer where
  | noConnection
  | response (response : Ipc.Response)
  /-- The request failed; the server went down just now, probably. -/
  | failed

/-- The server's status, its connected guests and the apps it serves. -/
def queryServer (config : Option ShareConfig) :
    ServerAnswer -> ServerStatus × Option (List GuestData) × Option (List AppData)
  | ServerAnswer.response (Ipc.Response.success _ (ResponseData.status s)) =>
      ({ state := if s.reachable then ServerState.serving else ServerState.connecting
         error := none
         reachable := some s.reachable
         pid := some s.pid
         startedAt := some s.startedAt
         connectedSince := s.connectedSince
         reloadPending := config.map fun c => decide (c.configHash ≠ s.configHash) },
        s.connectedGuests, some s.apps)
  | ServerAnswer.response (Ipc.Response.success _ _) =>
      (ServerStatus.ofError "unexpected response from server", none, none)
  | ServerAnswer.response (Ipc.Response.error _ text) => (ServerStatus.ofError text, none, none)
  | ServerAnswer.noConnection => (ServerStatus.offline, none, none)
  | ServerAnswer.failed => (ServerStatus.offline, none, none)

structure GuestStatus where
  nodeNumber : Int32
  name : Option String
  userId : Option String
  createdAt : String
  lastSeenAt : Option String
  connectedToHost : Option Bool
  connectedSince : Option String
  revoked : Bool
  revokedAt : Option String
  deriving DecidableEq, Repr

/-- The server's view of one guest. -/
def GuestStatus.applyLive (connected : List GuestData) (g : GuestStatus) : GuestStatus :=
  if g.revoked then g
  else
    match connected.find? fun c => c.nodeNumber = g.nodeNumber with
    | some c => { g with connectedToHost := some true, connectedSince := c.connectedSince }
    | none => { g with connectedToHost := some false }

def applyLiveConnections (guests : List GuestStatus) (connected : List GuestData) :
    List GuestStatus :=
  guests.map (GuestStatus.applyLive connected)

/-- The transport's list of guests, with what the server says of them.  A stopped server has no
connections. -/
def overlayGuests (guests : List GuestStatus) (server : ServerStatus)
    (live : Option (List GuestData)) : List GuestStatus :=
  match live with
  | some connected => applyLiveConnections guests connected
  | none =>
      if server.state = ServerState.offline then
        guests.map fun g => { g with connectedToHost := some false }
      else guests

/-- A connection is registered under the guest's number. -/
def Registry.Connected (s : Registry) (number : Int32) (p : GuestNodeConnection) : Prop :=
  exists id : Nat, s.tasks[id]? = some (RegistryTask.registered p) ∧ p.number = number

/-- How a guest is shown while the registry is like this. -/
structure ShownAs (s : Registry) (g shown : GuestStatus) : Prop where
  rest : shown =
    { g with connectedToHost := shown.connectedToHost, connectedSince := shown.connectedSince }
  revoked : g.revoked = true -> shown = g
  connected : g.revoked = false ->
    (shown.connectedToHost = some true <-> exists p, s.Connected g.nodeNumber p) ∧
    (shown.connectedToHost = some false <-> ¬ exists p, s.Connected g.nodeNumber p)
  since : g.revoked = false -> shown.connectedToHost = some true ->
    exists p, s.Connected g.nodeNumber p ∧
      shown.connectedSince = some (fmtRfc3339 p.connectedSince) ∧
      forall q, s.Connected g.nodeNumber q -> p.connectedSince.le q.connectedSince = true

theorem find_data (guests : List ConnectedGuest) (number : Int32) :
    (guests.map ConnectedGuest.data).find? (fun c => c.nodeNumber = number) =
      (guests.find? fun guest => guest.number = number).map ConnectedGuest.data := by
  rw [List.find?_map]
  rfl

theorem Registry.Listing.shownAs {s : Registry} {guests : List ConnectedGuest} (hs : s.Mirrors)
    (h : s.Listing guests) (g : GuestStatus) :
    ShownAs s g (g.applyLive (guests.map ConnectedGuest.data)) := by
  have hconnected : forall p, s.Connected g.nodeNumber p <->
      exists id, (id, p) ∈ s.connections ∧ p.number = g.nodeNumber := by
    intro p
    exact exists_congr fun id => and_congr_left' (hs id p).symm
  unfold GuestStatus.applyLive
  by_cases hrevoked : g.revoked = true
  · rw [if_pos hrevoked]
    refine ⟨rfl, fun _ => rfl, ?_, ?_⟩
    · intro hnot
      rw [hrevoked] at hnot
      cases hnot
    · intro hnot
      rw [hrevoked] at hnot
      cases hnot
  rw [if_neg hrevoked, find_data]
  cases hfind : guests.find? fun guest => guest.number = g.nodeNumber with
  | none =>
      have hnone : ¬ exists p, s.Connected g.nodeNumber p := by
        intro hp
        rcases hp with ⟨p, hp⟩
        rcases (hconnected p).mp hp with ⟨id, hid, hnumber⟩
        rcases List.mem_map.mp ((h.complete g.nodeNumber).mpr ⟨id, p, hid, hnumber⟩) with
          ⟨guest, hguest, heq⟩
        exact List.find?_eq_none.mp hfind guest hguest (decide_eq_true heq)
      refine ⟨rfl, fun hyes => absurd hyes hrevoked, fun _ => ⟨?_, ?_⟩, fun _ hyes => ?_⟩
      · exact ⟨nofun, fun hp => absurd hp hnone⟩
      · exact ⟨fun _ => hnone, fun _ => rfl⟩
      · cases hyes
  | some guest =>
      have hnumber : guest.number = g.nodeNumber := by simpa using List.find?_some hfind
      rcases h.sums guest (List.mem_of_find?_eq_some hfind) with ⟨⟨id, p, hid, hp, hsince⟩, -, hall⟩
      rw [hnumber] at hp hall
      have hp' : s.Connected g.nodeNumber p := (hconnected p).mpr ⟨id, hid, hp⟩
      refine ⟨rfl, fun hyes => absurd hyes hrevoked, fun _ => ⟨?_, ?_⟩, fun _ _ => ?_⟩
      · exact ⟨fun _ => ⟨p, hp'⟩, fun _ => rfl⟩
      · exact ⟨nofun, fun hnone => absurd ⟨p, hp'⟩ hnone⟩
      · refine ⟨p, hp', ?_, ?_⟩
        · rw [hsince]
          rfl
        · intro q hq
          rcases (hconnected q).mp hq with ⟨id', hid', hq'⟩
          rw [hsince]
          exact hall id' q hid' hq'

/-- The report shows each guest as the server has it, whatever the order of the maps. -/
theorem report_shows_live_guests {acts : List RegistryAction} {s : Registry}
    (hrun : Run registryStep Registry.empty acts s) {guests : List ConnectedGuest}
    (hlists : s.Lists guests) (server : ServerFacts)
    (other : Except RequestError Ipc.Request -> Ipc.Response) (config : Option ShareConfig)
    (listed : List GuestStatus) :
    exists response,
      readResponse (handleConnection (handleRequest server guests other)
        (sendRequest Ipc.Request.status)) = some response ∧
      (guests.Pairwise fun g h => g.number < h.number) ∧
      List.Forall₂ (ShownAs s) listed
        (overlayGuests listed (queryServer config (ServerAnswer.response response)).1
          (queryServer config (ServerAnswer.response response)).2.1) := by
  refine ⟨handleStatus server guests, handleConnection_sendRequest _ _,
    hlists.listing.ascending, ?_⟩
  show List.Forall₂ (ShownAs s) listed
    (listed.map (GuestStatus.applyLive (guests.map ConnectedGuest.data)))
  rw [List.forall₂_map_right_iff, List.forall₂_same]
  intro g _
  exact hlists.listing.shownAs (mirrors_of_run hrun) g

/-- A guest connects twice, and the second connection is stored first. -/
def twiceConnected : List RegistryAction :=
  [RegistryAction.number 3 "ada@example.com", RegistryAction.number 3 "ada@example.com",
    RegistryAction.insert 1 ⟨1700000000, 0⟩, RegistryAction.insert 0 ⟨1700000050, 0⟩]

def twiceRegistry : Registry :=
  let later : GuestNodeConnection := ⟨3, "ada@example.com", ⟨1700000050, 0⟩⟩
  let earlier : GuestNodeConnection := ⟨3, "ada@example.com", ⟨1700000000, 0⟩⟩
  { tasks := [RegistryTask.registered later, RegistryTask.registered earlier]
    connections := [(0, later), (1, earlier)] }

/-- The server lists it once, and two guests are shown as they are. -/
theorem report_shows_ada :
    exists response,
      readResponse (handleConnection
        (handleRequest ⟨true, none, ⟨"Home", [], []⟩, 7, ⟨1700000000, 0⟩⟩
          [⟨3, "ada@example.com", ⟨1700000000, 0⟩⟩] fun _ => Ipc.Response.ofError "")
        (sendRequest Ipc.Request.status)) = some response ∧
      (List.Pairwise (fun g h : ConnectedGuest => g.number < h.number)
        [⟨3, "ada@example.com", ⟨1700000000, 0⟩⟩]) ∧
      List.Forall₂ (ShownAs twiceRegistry)
        [⟨3, none, none, "", none, none, none, false, none⟩,
          ⟨4, none, none, "", none, none, none, false, none⟩]
        (overlayGuests
          [⟨3, none, none, "", none, none, none, false, none⟩,
            ⟨4, none, none, "", none, none, none, false, none⟩]
          (queryServer none (ServerAnswer.response response)).1
          (queryServer none (ServerAnswer.response response)).2.1) := by
  have hrun : Run registryStep Registry.empty twiceConnected twiceRegistry :=
    run_iff_exec.mpr rfl
  have hlists : twiceRegistry.Lists [⟨3, "ada@example.com", ⟨1700000000, 0⟩⟩] :=
    ⟨_, _, List.Perm.refl _, List.Perm.refl _, (List.mergeSort_singleton _).symm⟩
  exact report_shows_live_guests hrun hlists _ _ _ _

end Status
end Host
end WispersAccess
