import Mathlib.Data.List.Chain
import WispersAccess.Foundation.ActionSystem
import WispersAccess.Foundation.Broadcast
import WispersAccess.Foundation.Slots
import WispersAccess.Host.Config
import WispersAccess.Wire.Documents

/-!
# Telling guests of a changed share

`waserver reload` swaps the served config for the one on disk, if its hash is
another, and tells the events streams of the guests.  A stream passes on what the
channel still keeps for it, between heartbeats.  Reloads come one after the other,
as the IPC server answers one request at a time.
-/

namespace WispersAccess
namespace Host

open Foundation
open Wire (hashText)

/-!
## The system
-/

/-- How many events the channel keeps for a stream that does not read them. -/
def eventsCapacity : Nat := 16

def eventShareChanged : String := "share-changed"

def sseEvent (configHash : UInt64) : String :=
  "event: " ++ eventShareChanged ++ "\ndata: \x7b\"config_hash\":\"" ++ hashText configHash ++
    "\"\x7d\n\n"

def connectedFrame : String := ": connected\n\n"

def pingFrame : String := ": ping\n\n"

/-- A response to `GET /v1/events`, while its guest is there. -/
structure EventStream where
  events : Receiver UInt64
  /-- The hash of the config that was served when the stream subscribed. -/
  known : UInt64
  /-- The frames of its body so far. -/
  body : List String
  deriving DecidableEq, Repr

structure ReloadOutcome where
  changed : Bool
  config : ShareConfig
  deriving DecidableEq, Repr

/-- Where `reload` stands. -/
inductive ReloadPhase where
  | idle
  /-- `share.toml` was loaded. -/
  | loaded (fresh : ShareConfig)
  /-- The config was swapped, and the event is to be sent. -/
  | swapped (fresh : ShareConfig)
  deriving DecidableEq, Repr

structure EventHost where
  /-- The config as last loaded. -/
  config : ShareConfig
  reload : ReloadPhase
  /-- What the last reload answered; an error where the file is no valid config. -/
  outcome : Option (Option ReloadOutcome)
  /-- Every hash that was sent to the channel. -/
  sent : List UInt64
  streams : List EventStream
  deriving DecidableEq, Repr

def EventHost.start (config : ShareConfig) : EventHost where
  config := config
  reload := ReloadPhase.idle
  outcome := none
  sent := []
  streams := []

inductive EventAction where
  /-- A reload begins, and finds this on disk. -/
  | load (file : Option ShareConfig)
  | swap
  | send
  | getEvents
  | poll (stream : Nat)
  | heartbeat (stream : Nat)

/-- The stream takes the next event, if there is one; what was missed is left out of the body. -/
def EventStream.poll (sent : List UInt64) (stream : EventStream) : Option EventStream :=
  (stream.events.recv eventsCapacity sent).map fun events =>
    { stream with
      events := events
      body := stream.body ++ (events.got.drop stream.events.got.length).map sseEvent }

def eventStep (s : EventHost) : EventAction -> Option EventHost
  | EventAction.load file =>
      match s.reload with
      | ReloadPhase.idle =>
          match file with
          | none => some { s with outcome := some none }
          | some fresh => some { s with reload := ReloadPhase.loaded fresh }
      | _ => none
  | EventAction.swap =>
      match s.reload with
      | ReloadPhase.loaded fresh =>
          if fresh.configHash ≠ s.config.configHash then
            some { s with config := fresh, reload := ReloadPhase.swapped fresh }
          else
            some { s with
              reload := ReloadPhase.idle, outcome := some (some ⟨false, fresh⟩) }
      | _ => none
  | EventAction.send =>
      match s.reload with
      | ReloadPhase.swapped fresh =>
          some { s with
            reload := ReloadPhase.idle
            outcome := some (some ⟨true, fresh⟩)
            sent := s.sent ++ [fresh.configHash] }
      | _ => none
  | EventAction.getEvents =>
      some { s with
        streams := s.streams ++
          [⟨Receiver.subscribe s.sent, s.config.configHash, [connectedFrame]⟩] }
  | EventAction.poll k =>
      (s.streams[k]?).bind fun stream =>
        (stream.poll s.sent).map fun stream' => { s with streams := s.streams.set k stream' }
  | EventAction.heartbeat k =>
      (s.streams[k]?).map fun stream =>
        { s with
          streams := s.streams.set k { stream with body := stream.body ++ [pingFrame] } }

/-!
## What the channel says
-/

/-- The last hash a listener has: the one it began with, if none came. -/
def lastHash (first : UInt64) (hashes : List UInt64) : UInt64 :=
  hashes.getLast?.getD first

theorem lastHash_append (first : UInt64) (hashes : List UInt64) (hash : UInt64) :
    lastHash first (hashes ++ [hash]) = hash := by
  unfold lastHash
  rw [List.getLast?_append]
  rfl

/-- No hash is sent twice in a row. -/
def Alternating (first : UInt64) (hashes : List UInt64) : Prop :=
  (first :: hashes).IsChain (· ≠ ·)

theorem Alternating.append {first : UInt64} {hashes : List UInt64} (h : Alternating first hashes)
    {hash : UInt64} (hnew : hash ≠ lastHash first hashes) :
    Alternating first (hashes ++ [hash]) := by
  unfold Alternating
  rw [← List.cons_append]
  refine List.IsChain.append h (List.isChain_singleton hash) ?_
  intro x hx y hy
  rw [List.getLast?_cons] at hx
  cases hx
  cases hy
  exact Ne.symm hnew

/-- No swap waits to be announced. -/
def EventHost.Settled (s : EventHost) : Prop :=
  forall fresh, s.reload ≠ ReloadPhase.swapped fresh

/-- What holds of the host's side: between reloads the last hash sent is that of the served config,
and that of the config that the last reload returned. -/
structure Announced (first : UInt64) (s : EventHost) : Prop where
  alternating : Alternating first s.sent
  settled : s.Settled -> lastHash first s.sent = s.config.configHash ∧
    forall o, s.outcome = some (some o) -> o.config.configHash = s.config.configHash
  swapped : forall fresh, s.reload = ReloadPhase.swapped fresh ->
    s.config = fresh ∧ fresh.configHash ≠ lastHash first s.sent

/-- What holds of a stream. -/
structure Listens (first : UInt64) (s : EventHost) (stream : EventStream) : Prop where
  follows : stream.events.Follows eventsCapacity s.sent
  known : lastHash stream.known (s.sent.drop stream.events.start) = lastHash first s.sent ∨
    s.sent.length = stream.events.start ∧
      exists fresh, s.reload = ReloadPhase.swapped fresh ∧ stream.known = fresh.configHash
  body : stream.body.filter (fun frame => frame ≠ pingFrame) =
    connectedFrame :: stream.events.got.map sseEvent

section
variable {first : UInt64} {s t : EventHost} {a : EventAction} {stream : EventStream}

theorem sseEvent_ne_pingFrame (hash : UInt64) : sseEvent hash ≠ pingFrame := by
  intro heq
  have hhead := congrArg (fun frame : String => frame.toList.head?) heq
  simp [sseEvent, pingFrame] at hhead

theorem eventStep_announced (h : eventStep s a = some t) (hs : Announced first s) :
    Announced first t := by
  cases a with
  | load file =>
      simp only [eventStep] at h
      split at h
      · rename_i hidle
        have hsettled : s.Settled := by
          intro fresh heq
          rw [hidle] at heq
          cases heq
        cases file with
        | none =>
            cases h
            exact ⟨hs.alternating, fun _ => ⟨(hs.settled hsettled).left, nofun⟩, hs.swapped⟩
        | some fresh =>
            cases h
            exact ⟨hs.alternating, fun _ => hs.settled hsettled, nofun⟩
      · cases h
  | swap =>
      simp only [eventStep] at h
      split at h
      · rename_i fresh hloaded
        have hsettled : s.Settled := by
          intro other heq
          rw [hloaded] at heq
          cases heq
        rcases hs.settled hsettled with ⟨hlast, -⟩
        split at h
        · rename_i hchanged
          cases h
          refine ⟨hs.alternating, fun hnot => absurd rfl (hnot fresh), ?_⟩
          intro other heq
          cases heq
          exact ⟨rfl, hlast ▸ hchanged⟩
        · rename_i hsame
          cases h
          refine ⟨hs.alternating, fun _ => ⟨hlast, ?_⟩, nofun⟩
          intro o ho
          cases ho
          exact not_not.mp hsame
      · cases h
  | send =>
      simp only [eventStep] at h
      split at h
      · rename_i fresh hswapped
        rcases hs.swapped fresh hswapped with ⟨hconfig, hnew⟩
        cases h
        refine ⟨hs.alternating.append hnew, fun _ => ⟨?_, ?_⟩, nofun⟩
        · rw [lastHash_append, hconfig]
        · intro o ho
          cases ho
          rw [hconfig]
      · cases h
  | getEvents =>
      cases h
      exact ⟨hs.alternating, hs.settled, hs.swapped⟩
  | poll k =>
      rcases Option.bind_eq_some_iff.mp h with ⟨stream, -, hpoll⟩
      rcases Option.map_eq_some_iff.mp hpoll with ⟨stream', -, rfl⟩
      exact ⟨hs.alternating, hs.settled, hs.swapped⟩
  | heartbeat k =>
      rcases Option.map_eq_some_iff.mp h with ⟨stream, -, rfl⟩
      exact ⟨hs.alternating, hs.settled, hs.swapped⟩

/-- A stream that has just subscribed. -/
theorem listens_subscribe (hs : Announced first s) :
    Listens first s ⟨Receiver.subscribe s.sent, s.config.configHash, [connectedFrame]⟩ where
  follows := Receiver.follows_subscribe _ _
  known := by
    have hempty : s.sent.drop (Receiver.subscribe s.sent).start = [] := List.drop_length
    cases hreload : s.reload with
    | swapped fresh =>
        exact Or.inr ⟨rfl, fresh, rfl, by rw [(hs.swapped fresh hreload).left]⟩
    | idle | loaded =>
        refine Or.inl ?_
        rw [hempty]
        refine ((hs.settled ?_).left).symm
        intro fresh heq
        rw [hreload] at heq
        cases heq
  body := by
    show [connectedFrame].filter (fun frame => frame ≠ pingFrame) = [connectedFrame]
    decide

theorem Listens.poll (h : Listens first s stream) {stream' : EventStream}
    (hpoll : stream.poll s.sent = some stream') : Listens first s stream' := by
  rcases Option.map_eq_some_iff.mp hpoll with ⟨events, hrecv, rfl⟩
  refine ⟨h.follows.recv hrecv, ?_, ?_⟩
  · show lastHash stream.known (s.sent.drop events.start) = _ ∨ s.sent.length = events.start ∧ _
    rw [Receiver.recv_start hrecv]
    exact h.known
  · show (stream.body ++ (events.got.drop stream.events.got.length).map sseEvent).filter _ = _
    rw [List.filter_append, h.body]
    rcases Receiver.recv_eq_some hrecv with ⟨-, rfl⟩ | ⟨-, v, -, rfl⟩
    · rw [List.drop_length]
      exact List.append_nil _
    · rw [List.drop_left]
      simp [sseEvent_ne_pingFrame]

theorem Listens.heartbeat (h : Listens first s stream) :
    Listens first s { stream with body := stream.body ++ [pingFrame] } where
  follows := h.follows
  known := h.known
  body := by
    rw [List.filter_append, h.body]
    exact List.append_nil _

/-- A step of a reload leaves what holds of the streams. -/
theorem Listens.kept (h : Listens first s stream)
    (hsent : t.sent = s.sent ∧ (t.reload = s.reload ∨ s.Settled) ∨
      exists fresh, s.reload = ReloadPhase.swapped fresh ∧
        t.sent = s.sent ++ [fresh.configHash]) : Listens first t stream := by
  rcases hsent with ⟨hsent, hreload⟩ | ⟨fresh, hswapped, hsent⟩
  · refine ⟨hsent ▸ h.follows, ?_, h.body⟩
    rw [hsent]
    rcases h.known with hknown | ⟨hlen, fresh, hfresh, hknown⟩
    · exact Or.inl hknown
    · rcases hreload with hsame | hsettled
      · exact Or.inr ⟨hlen, fresh, hsame.trans hfresh, hknown⟩
      · exact absurd hfresh (hsettled fresh)
  · have hstart : stream.events.start ≤ s.sent.length :=
      Nat.le_trans h.follows.started h.follows.sent
    refine ⟨hsent ▸ h.follows.send _, Or.inl ?_, h.body⟩
    rw [hsent, List.drop_append_of_le_length hstart, lastHash_append, lastHash_append]

/-- What holds all along of the host and its streams. -/
structure EventsFit (first : UInt64) (s : EventHost) : Prop where
  announced : Announced first s
  streams : forall (k : Nat) (stream : EventStream), s.streams[k]? = some stream ->
    Listens first s stream

theorem eventStep_fits (h : eventStep s a = some t) (hs : EventsFit first s) :
    EventsFit first t := by
  refine ⟨eventStep_announced h hs.announced, ?_⟩
  intro k stream hstream
  cases a with
  | load file =>
      simp only [eventStep] at h
      split at h
      · rename_i hidle
        have hsettled : s.Settled := by
          intro fresh heq
          rw [hidle] at heq
          cases heq
        cases file with
        | none =>
            cases h
            exact (hs.streams k stream hstream).kept (Or.inl ⟨rfl, Or.inr hsettled⟩)
        | some fresh =>
            cases h
            exact (hs.streams k stream hstream).kept (Or.inl ⟨rfl, Or.inr hsettled⟩)
      · cases h
  | swap =>
      simp only [eventStep] at h
      split at h
      · rename_i fresh hloaded
        have hsettled : s.Settled := by
          intro other heq
          rw [hloaded] at heq
          cases heq
        split at h
        · cases h
          exact (hs.streams k stream hstream).kept (Or.inl ⟨rfl, Or.inr hsettled⟩)
        · cases h
          exact (hs.streams k stream hstream).kept (Or.inl ⟨rfl, Or.inr hsettled⟩)
      · cases h
  | send =>
      simp only [eventStep] at h
      split at h
      · rename_i fresh hswapped
        cases h
        exact (hs.streams k stream hstream).kept (Or.inr ⟨fresh, hswapped, rfl⟩)
      · cases h
  | getEvents =>
      cases h
      refine Listens.kept ?_ (Or.inl ⟨rfl, Or.inl rfl⟩) (s := s)
      rcases slot_append_eq_some_iff.mp hstream with hold | ⟨-, rfl⟩
      · exact hs.streams k stream hold
      · exact listens_subscribe hs.announced
  | poll i =>
      rcases Option.bind_eq_some_iff.mp h with ⟨old, hold, hpoll⟩
      rcases Option.map_eq_some_iff.mp hpoll with ⟨new, hnew, rfl⟩
      refine Listens.kept ?_ (Or.inl ⟨rfl, Or.inl rfl⟩) (s := s)
      rcases (slot_set_eq_some_iff hold).mp hstream with ⟨-, rfl⟩ | ⟨-, hother⟩
      · exact (hs.streams i old hold).poll hnew
      · exact hs.streams k stream hother
  | heartbeat i =>
      rcases Option.map_eq_some_iff.mp h with ⟨old, hold, rfl⟩
      refine Listens.kept ?_ (Or.inl ⟨rfl, Or.inl rfl⟩) (s := s)
      rcases (slot_set_eq_some_iff hold).mp hstream with ⟨-, rfl⟩ | ⟨-, hother⟩
      · exact (hs.streams i old hold).heartbeat
      · exact hs.streams k stream hother

/-- What a guest hears over its events stream. -/
structure Hears (s : EventHost) (stream : EventStream) : Prop where
  /-- Hashes that were sent since, in their order, each once. -/
  inOrder : List.Sublist stream.events.got (s.sent.drop stream.events.start)
  /-- Nothing else but heartbeats. -/
  body : stream.body.filter (fun frame => frame ≠ pingFrame) =
    connectedFrame :: stream.events.got.map sseEvent
  /-- As many polls as the channel keeps events, and one, bring the stream up to date: it has all
  of the last events, and the last is the hash of the config that is served then. -/
  upToDate : forall events, stream.events.recvAll eventsCapacity s.sent (eventsCapacity + 1) =
      events ->
    s.sent.drop (max stream.events.start (s.sent.length - eventsCapacity)) <:+ events.got ∧
      (s.Settled -> lastHash stream.known events.got = s.config.configHash)

/-- In every run no hash is announced twice in a row, a reload that returned a config left one of
its hash in place, and every events stream hears of the changes in order, and of the last. -/
theorem guests_hear_of_reloads {config : ShareConfig} {acts : List EventAction}
    (hrun : Run eventStep (EventHost.start config) acts s) :
    Alternating config.configHash s.sent ∧
      (s.Settled -> forall o, s.outcome = some (some o) ->
        o.config.configHash = s.config.configHash) ∧
      forall stream, stream ∈ s.streams -> Hears s stream := by
  have hstart : EventsFit config.configHash (EventHost.start config) := by
    refine ⟨⟨List.isChain_singleton _, fun _ => ⟨rfl, nofun⟩, nofun⟩, ?_⟩
    intro k stream hstream
    cases hstream
  have hend : EventsFit config.configHash s :=
    Run.invariant (fun u a v hu hstep => eventStep_fits hstep hu) hrun hstart
  refine ⟨hend.announced.alternating, fun hsettled => (hend.announced.settled hsettled).right, ?_⟩
  intro stream hmem
  rcases List.getElem?_of_mem hmem with ⟨k, hk⟩
  have hlistens := hend.streams k stream hk
  refine ⟨?_, hlistens.body, ?_⟩
  · exact hlistens.follows.inOrder.trans ((List.take_sublist _ _).drop _)
  · intro events hevents
    rcases hlistens.follows.recvAll (eventsCapacity + 1) with ⟨hfollows, hsame⟩
    have hdrained := Receiver.drained_recvAll hlistens.follows
    rw [hevents] at hfollows hsame hdrained
    refine ⟨hsame ▸ (hfollows.drained hdrained).right, ?_⟩
    intro hsettled
    have hlast := hfollows.getLast?_of_drained hdrained (by decide)
    rcases hlistens.known with hknown | ⟨-, fresh, hfresh, -⟩
    · rw [hsame] at hlast
      unfold lastHash at hknown ⊢
      rw [hlast, hknown]
      exact (hend.announced.settled hsettled).left
    · exact absurd hfresh (hsettled fresh)

end

/-!
## A share that gets another name
-/

def namedShare (name : String) : ShareConfig where
  name := name
  apps := []
  caCertificates := []

/-- A guest listens, and the share's name is changed. -/
def renamingRun : List EventAction :=
  [EventAction.getEvents, EventAction.load (some (namedShare "Friends")), EventAction.swap,
    EventAction.heartbeat 0, EventAction.send, EventAction.poll 0]

theorem guest_hears_of_renaming :
    exists s stream, Run eventStep (EventHost.start (namedShare "Family")) renamingRun s ∧
      s.streams = [stream] ∧ stream.events.got = [(namedShare "Friends").configHash] ∧
      Hears s stream := by
  have hend : (exec eventStep (EventHost.start (namedShare "Family")) renamingRun).map
      (fun s => s.streams.map fun stream => stream.events.got) =
        some [[(namedShare "Friends").configHash]] := by
    decide +kernel
  rcases Option.map_eq_some_iff.mp hend with ⟨s, hs, heq⟩
  rcases List.map_eq_cons_iff.mp heq with ⟨stream, rest, hstreams, hgot, hrest⟩
  rw [List.map_eq_nil_iff.mp hrest] at hstreams
  have hrun := run_iff_exec.mpr hs
  refine ⟨s, stream, hrun, hstreams, hgot, ?_⟩
  exact (guests_hear_of_reloads hrun).right.right stream (hstreams ▸ List.mem_cons_self)

end Host
end WispersAccess
