import WispersAccess.Foundation.Slots
import WispersAccess.Guest.Lookup
import WispersAccess.Guest.ProxiedOrigins

/-!
# Loopback forwarders

A forwarder has the ports of the loopback origins that its share listed when the
call that made it read the store.  Later calls for the share get the same forwarder
as long as somebody holds it, whatever the store says by then.  A call holds the
map's lock from its first look until it is done, and takes no port that a live
forwarder of another share has.
-/

namespace WispersAccess
namespace Guest

open Foundation
open Wire (AppProxyMode Origin SharedApp ShareInfo UrlParser)
open Host (TransportKind shareInfo)

/-!
## Ports of loopback origins
-/

/-- The ports as a `BTreeMap` has them, each with its hosts. -/
abbrev LoopbackPorts : Type :=
  List (UInt16 × List String)

/-- Put the host under the port of the origin, unless it is there. -/
def LoopbackPorts.add (origin : Origin) : LoopbackPorts -> LoopbackPorts
  | [] => [(origin.port, [origin.host])]
  | (port, hosts) :: rest =>
      if origin.port < port then (origin.port, [origin.host]) :: (port, hosts) :: rest
      else if origin.port = port then
        (port, if hosts.any (fun host => host = origin.host) then hosts else hosts ++ [origin.host])
          :: rest
      else (port, hosts) :: LoopbackPorts.add origin rest

/-- The `http` loopback origins of the share's forward-proxy apps. -/
def loopbackOrigins (urls : UrlParser) (apps : List SharedApp) : List Origin :=
  let listed := (apps.filter fun app => app.mode = AppProxyMode.forwardProxy).flatMap
    fun app => app.proxiedOrigins
  (listed.filterMap fun origin => (Origin.parse urls origin).toOption).filter
    fun origin => origin.isLoopback && !origin.https

/-- The ports of the share's `http` loopback origins, each with the hosts that the origins on it
name. -/
def loopbackPorts (urls : UrlParser) (apps : List SharedApp) : LoopbackPorts :=
  (loopbackOrigins urls apps).foldl (fun ports origin => ports.add origin) []

namespace LoopbackPorts

/-- The port is there, with the host among its hosts. -/
def Names (ports : LoopbackPorts) (port : UInt16) (host : String) : Prop :=
  exists hosts, (port, hosts) ∈ ports ∧ host ∈ hosts

/-- The keys of the tree go up. -/
def Ascending (ports : LoopbackPorts) : Prop :=
  (ports.map Prod.fst).Pairwise fun p q => p < q

section
variable {ports : LoopbackPorts} {origin : Origin}

theorem mem_keys_add {port : UInt16} :
    port ∈ (ports.add origin).map Prod.fst <-> port = origin.port ∨ port ∈ ports.map Prod.fst := by
  induction ports with
  | nil => simp [add]
  | cons entry rest ih =>
      rcases entry with ⟨key, hosts⟩
      unfold add
      split
      · simp
      · split
        · rename_i hkey
          simp [hkey]
        · rw [List.map_cons, List.map_cons, List.mem_cons, List.mem_cons, ih]
          exact or_left_comm

theorem ascending_add (h : ports.Ascending) : (ports.add origin).Ascending := by
  induction ports with
  | nil => simp [add, Ascending]
  | cons entry rest ih =>
      rcases entry with ⟨key, hosts⟩
      rcases List.pairwise_cons.mp h with ⟨hkey, hrest⟩
      unfold add
      split
      · rename_i hbelow
        refine List.pairwise_cons.mpr ⟨?_, h⟩
        intro port hport
        rcases List.mem_cons.mp hport with rfl | hport
        · exact hbelow
        · exact UInt16.lt_trans hbelow (hkey port hport)
      · rename_i hnotBelow
        split
        · exact h
        · rename_i hother
          refine List.pairwise_cons.mpr ⟨?_, ih hrest⟩
          intro port hport
          rcases mem_keys_add.mp hport with rfl | hport
          · exact UInt16.lt_of_le_of_ne (UInt16.not_lt.mp hnotBelow) (fun heq => hother heq.symm)
          · exact hkey port hport

theorem names_cons {key port : UInt16} {hosts : List String} {rest : LoopbackPorts}
    {host : String} : Names ((key, hosts) :: rest) port host <->
      (port = key ∧ host ∈ hosts) ∨ rest.Names port host := by
  simp [Names, or_and_right, exists_or]

theorem names_add {port : UInt16} {host : String} :
    (ports.add origin).Names port host <->
      (port = origin.port ∧ host = origin.host) ∨ ports.Names port host := by
  induction ports with
  | nil => simp [add, Names]
  | cons entry rest ih =>
      rcases entry with ⟨key, hosts⟩
      unfold add
      split
      · rw [names_cons, List.mem_singleton]
      · split
        · rename_i hkey
          have hhosts : host ∈ (if hosts.any (fun host => host = origin.host) then hosts
              else hosts ++ [origin.host]) <-> host = origin.host ∨ host ∈ hosts := by
            split
            · rename_i hany
              have hmem : origin.host ∈ hosts := by simpa using hany
              constructor
              · exact Or.inr
              · intro hhost
                rcases hhost with rfl | hhost
                · exact hmem
                · exact hhost
            · simp [or_comm]
          rw [names_cons, names_cons, hhosts, hkey, and_or_left, or_assoc]
        · rw [names_cons, names_cons, ih]
          exact or_left_comm

theorem ascending_foldl {origins : List Origin} (h : ports.Ascending) :
    (origins.foldl (fun ports origin => ports.add origin) ports).Ascending := by
  induction origins generalizing ports with
  | nil => exact h
  | cons first rest ih => exact ih (ascending_add h)

theorem names_foldl {origins : List Origin} {port : UInt16} {host : String} :
    Names (origins.foldl (fun ports origin => ports.add origin) ports) port host <->
      ports.Names port host ∨ exists origin, origin ∈ origins ∧ origin.port = port ∧
        origin.host = host := by
  induction origins generalizing ports with
  | nil => simp
  | cons first rest ih =>
      rw [List.foldl_cons, ih, names_add]
      simp only [List.mem_cons, or_and_right, exists_or, exists_eq_left]
      constructor
      · intro hnamed
        rcases hnamed with (⟨rfl, rfl⟩ | hold) | hlater
        · exact Or.inr (Or.inl ⟨rfl, rfl⟩)
        · exact Or.inl hold
        · exact Or.inr (Or.inr hlater)
      · intro hnamed
        rcases hnamed with hold | ⟨rfl, rfl⟩ | hlater
        · exact Or.inl (Or.inr hold)
        · exact Or.inl (Or.inl ⟨rfl, rfl⟩)
        · exact Or.inr hlater

end

end LoopbackPorts

section
variable {urls : UrlParser} {apps : List SharedApp}

theorem mem_loopbackOrigins {origin : Origin} :
    origin ∈ loopbackOrigins urls apps <->
      (exists app text, app ∈ apps ∧ app.mode = AppProxyMode.forwardProxy ∧
        text ∈ app.proxiedOrigins ∧ Origin.parse urls text = Except.ok origin) ∧
      origin.isLoopback = true ∧ origin.https = false := by
  have hparsed : forall text, (Origin.parse urls text).toOption = some origin <->
      Origin.parse urls text = Except.ok origin := by
    intro text
    cases Origin.parse urls text with
    | error e => simp [Except.toOption]
    | ok o => simp [Except.toOption]
  simp only [loopbackOrigins, List.mem_filter, List.mem_filterMap, List.mem_flatMap, hparsed,
    Bool.and_eq_true, Bool.not_eq_true', decide_eq_true_eq]
  refine and_congr_left fun _ => ?_
  constructor
  · intro hlisted
    rcases hlisted with ⟨text, ⟨app, ⟨happ, hmode⟩, htext⟩, hparse⟩
    exact ⟨app, text, happ, hmode, htext, hparse⟩
  · intro hlisted
    rcases hlisted with ⟨app, text, happ, hmode, htext, hparse⟩
    exact ⟨text, ⟨app, ⟨happ, hmode⟩, htext⟩, hparse⟩

/-- What is forwarded is what the share lists: a host is on a port just if a forward-proxy app has
an `http` loopback origin with the two. -/
theorem names_loopbackPorts {port : UInt16} {host : String} :
    (loopbackPorts urls apps).Names port host <->
      exists app text origin, app ∈ apps ∧ app.mode = AppProxyMode.forwardProxy ∧
        text ∈ app.proxiedOrigins ∧ Origin.parse urls text = Except.ok origin ∧
        origin.isLoopback = true ∧ origin.https = false ∧ origin.port = port ∧
        origin.host = host := by
  have hlisted : (loopbackPorts urls apps).Names port host <->
      exists origin, origin ∈ loopbackOrigins urls apps ∧ origin.port = port ∧
        origin.host = host := by
    unfold loopbackPorts
    rw [LoopbackPorts.names_foldl]
    simp [LoopbackPorts.Names]
  rw [hlisted]
  constructor
  · intro hlisted
    rcases hlisted with ⟨origin, horigin, hport, hhost⟩
    rcases mem_loopbackOrigins.mp horigin with
      ⟨⟨app, text, happ, hmode, htext, hparse⟩, hloopback, hhttp⟩
    exact ⟨app, text, origin, happ, hmode, htext, hparse, hloopback, hhttp, hport, hhost⟩
  · intro hlisted
    rcases hlisted with
      ⟨app, text, origin, happ, hmode, htext, hparse, hloopback, hhttp, hport, hhost⟩
    exact ⟨origin, mem_loopbackOrigins.mpr ⟨⟨app, text, happ, hmode, htext, hparse⟩, hloopback,
      hhttp⟩, hport, hhost⟩

theorem ascending_loopbackPorts : (loopbackPorts urls apps).Ascending :=
  LoopbackPorts.ascending_foldl List.Pairwise.nil

end

/-!
## The system
-/

/-- A `LoopbackForwarder`, with the share its requests go to and the references that are held. -/
structure LoopbackForwarder where
  share : ShareId
  boundPorts : LoopbackPorts
  strong : Nat
  deriving DecidableEq, Repr

/-- The ports being forwarded. -/
def LoopbackForwarder.ports (forwarder : LoopbackForwarder) : List UInt16 :=
  forwarder.boundPorts.map Prod.fst

inductive LoopbackError where
  | noSuchShare (share : ShareId)
  | storage
  | portInUse (text : String)
  deriving DecidableEq, Repr

/-- Where a call of `forward_loopback_origins` is. -/
inductive ForwarderPhase where
  /-- For the map's lock. -/
  | waiting
  | findingRow
  | readingApps (row : Int)
  /-- The ports bound so far, and those still to bind. -/
  | binding (apps : List SharedApp) (bound rest : LoopbackPorts)
  /-- The port is a live forwarder's, and the error is to name its share. -/
  | findingHolder (port : UInt16) (holder : ShareId)
  | readingNames (port : UInt16) (row : Int)
  | returned (forwarder : Nat)
  | failed (e : LoopbackError)
  deriving DecidableEq, Repr

namespace ForwarderPhase

/-- The call is between taking the lock and giving it back. -/
def holdsLock : ForwarderPhase -> Bool
  | findingRow => true
  | readingApps _ => true
  | binding _ _ _ => true
  | findingHolder _ _ => true
  | readingNames _ _ => true
  | _ => false

/-- The call fails, or looks up what its error is to say. -/
def givingUp : ForwarderPhase -> Bool
  | findingHolder _ _ => true
  | readingNames _ _ => true
  | failed _ => true
  | _ => false

/-- The ports of the forwarder in the making. -/
def bound : ForwarderPhase -> List UInt16
  | binding _ bound _ => bound.map Prod.fst
  | _ => []

end ForwarderPhase

structure ForwarderCall where
  share : ShareId
  phase : ForwarderPhase
  deriving DecidableEq, Repr

inductive ForwarderEvent where
  | lock
  | findRow (order : SerialTable.QueryOrder ShareRow)
  | readApps
  /-- Bind the next port; it may be taken on the device. -/
  | bindNext (binds : Bool)
  | findHolder (order : SerialTable.QueryOrder ShareRow)
  | readNames
  | storageFails
  | finish

inductive ForwarderAction where
  | store (op : StoreOp)
  | forwardLoopbackOrigins (share : ShareId)
  | call (i : Nat) (event : ForwarderEvent)
  /-- Somebody who has a forwarder passes it on. -/
  | cloneForwarder (forwarder : Nat)
  | dropForwarder (forwarder : Nat)

structure LoopbackForwarders where
  db : DB
  /-- Every forwarder ever made, live as long as references to it are held. -/
  objects : List LoopbackForwarder
  /-- Each share's forwarder, by a weak reference. -/
  forwarders : List (ShareId × Nat)
  calls : List ForwarderCall

namespace LoopbackForwarders

def start (db : DB) : LoopbackForwarders where
  db := db
  objects := []
  forwarders := []
  calls := []

/-- `Weak::upgrade`: the forwarder, if it is live. -/
def upgrade (s : LoopbackForwarders) (forwarder : Nat) : Option LoopbackForwarder :=
  s.objects[forwarder]?.filter fun object => 0 < object.strong

/-- The live forwarder that the map has for the share. -/
def liveForwarder (s : LoopbackForwarders) (share : ShareId) : Option Nat :=
  (s.forwarders.find? fun entry => entry.1 = share).bind fun entry =>
    (s.upgrade entry.2).map fun _ => entry.2

/-- The map without the entries of dropped forwarders. -/
def retained (s : LoopbackForwarders) : List (ShareId × Nat) :=
  s.forwarders.filter fun entry => (s.upgrade entry.2).isSome

/-- The share whose live forwarder has the port. -/
def holder (s : LoopbackForwarders) (port : UInt16) : Option ShareId :=
  (s.forwarders.find? fun entry =>
    (s.upgrade entry.2).any fun other => other.ports.contains port).map Prod.fst

def locked (s : LoopbackForwarders) : Bool :=
  s.calls.any fun c => c.phase.holdsLock

def setPhase (s : LoopbackForwarders) (i : Nat) (phase : ForwarderPhase) : LoopbackForwarders :=
  { s with calls := s.calls.modify i fun c => { c with phase } }

/-- The references to a forwarder that is live. -/
def setStrong (s : LoopbackForwarders) (forwarder : Nat) (f : Nat -> Nat) : LoopbackForwarders :=
  { s with objects := s.objects.modify forwarder fun object =>
      { object with strong := f object.strong } }

/-- The forwarder is made, and is its share's from now on. -/
def insertForwarder (s : LoopbackForwarders) (share : ShareId) (bound : LoopbackPorts) :
    LoopbackForwarders :=
  { s with
    objects := s.objects ++ [{ share, boundPorts := bound, strong := 1 }]
    forwarders :=
      (s.forwarders.filter fun entry => entry.1 ≠ share) ++ [(share, s.objects.length)] }

section
variable (text : JsonText) (urls : UrlParser)

def callEvent (s : LoopbackForwarders) (i : Nat) (c : ForwarderCall) :
    ForwarderEvent -> Option LoopbackForwarders
  | ForwarderEvent.lock =>
      match c.phase with
      | ForwarderPhase.waiting =>
          if s.locked then none
          else
            match s.liveForwarder c.share with
            | some live =>
                some ((s.setStrong live (fun n => n + 1)).setPhase i (ForwarderPhase.returned live))
            | none =>
                some ({ s with forwarders := s.retained }.setPhase i ForwarderPhase.findingRow)
      | _ => none
  | ForwarderEvent.findRow order =>
      match c.phase with
      | ForwarderPhase.findingRow =>
          match s.db.findRow order c.share.text with
          | none => some (s.setPhase i (ForwarderPhase.failed (LoopbackError.noSuchShare c.share)))
          | some found => some (s.setPhase i (ForwarderPhase.readingApps found.1))
      | _ => none
  | ForwarderEvent.readApps =>
      match c.phase with
      | ForwarderPhase.readingApps row =>
          let apps := s.db.readApps text row
          some (s.setPhase i (ForwarderPhase.binding apps [] (loopbackPorts urls apps)))
      | _ => none
  | ForwarderEvent.bindNext binds =>
      match c.phase with
      | ForwarderPhase.binding apps bound ((port, hosts) :: rest) =>
          match s.holder port with
          | some holder => some (s.setPhase i (ForwarderPhase.findingHolder port holder))
          | none =>
              if binds then
                some (s.setPhase i (ForwarderPhase.binding apps (bound ++ [(port, hosts)]) rest))
              else
                some (s.setPhase i (ForwarderPhase.failed (LoopbackError.portInUse
                  s!"Port {port} is already in use on this device.")))
      | _ => none
  | ForwarderEvent.findHolder order =>
      match c.phase with
      | ForwarderPhase.findingHolder port holder =>
          match s.db.findRow order holder.text with
          | none => some (s.setPhase i (ForwarderPhase.failed (LoopbackError.noSuchShare holder)))
          | some found => some (s.setPhase i (ForwarderPhase.readingNames port found.1))
      | _ => none
  | ForwarderEvent.readNames =>
      match c.phase with
      | ForwarderPhase.readingNames port row =>
          match s.db.readNames row with
          | none => some (s.setPhase i (ForwarderPhase.failed LoopbackError.storage))
          | some (_, name, _) =>
              some (s.setPhase i (ForwarderPhase.failed (LoopbackError.portInUse
                s!"Port {port} is in use by an app of the share {name}.")))
      | _ => none
  | ForwarderEvent.storageFails =>
      match c.phase with
      | ForwarderPhase.findingRow | ForwarderPhase.readingApps _ |
        ForwarderPhase.findingHolder _ _ | ForwarderPhase.readingNames _ _ =>
          some (s.setPhase i (ForwarderPhase.failed LoopbackError.storage))
      | _ => none
  | ForwarderEvent.finish =>
      match c.phase with
      | ForwarderPhase.binding _ bound [] =>
          some ((s.insertForwarder c.share bound).setPhase i
            (ForwarderPhase.returned s.objects.length))
      | _ => none

def step (s : LoopbackForwarders) : ForwarderAction -> Option LoopbackForwarders
  | ForwarderAction.store op => (storeStep text s.db op).map fun db => { s with db }
  | ForwarderAction.forwardLoopbackOrigins share =>
      some { s with calls := s.calls ++ [⟨share, ForwarderPhase.waiting⟩] }
  | ForwarderAction.call i event =>
      s.calls[i]?.bind fun c => s.callEvent text urls i c event
  | ForwarderAction.cloneForwarder forwarder =>
      (s.upgrade forwarder).map fun _ => s.setStrong forwarder fun n => n + 1
  | ForwarderAction.dropForwarder forwarder =>
      (s.upgrade forwarder).map fun _ => s.setStrong forwarder fun n => n - 1

end

/-!
## What an event does
-/

section
variable (text : JsonText) (urls : UrlParser) (s : LoopbackForwarders) (i : Nat)
  (c : ForwarderCall)

/-- Everything that an event of a call can do. -/
inductive CallEffect : ForwarderEvent -> LoopbackForwarders -> Prop where
  | shared {live : Nat} (hphase : c.phase = ForwarderPhase.waiting) (hfree : s.locked = false)
      (hlive : s.liveForwarder c.share = some live) :
      CallEffect ForwarderEvent.lock
        ((s.setStrong live (fun n => n + 1)).setPhase i (ForwarderPhase.returned live))
  | locked (hphase : c.phase = ForwarderPhase.waiting) (hfree : s.locked = false)
      (hnone : s.liveForwarder c.share = none) :
      CallEffect ForwarderEvent.lock
        ({ s with forwarders := s.retained }.setPhase i ForwarderPhase.findingRow)
  | found {order : SerialTable.QueryOrder ShareRow} {row : Int} {r : ShareRow}
      (hphase : c.phase = ForwarderPhase.findingRow)
      (hfind : s.db.findRow order c.share.text = some (row, r)) :
      CallEffect (ForwarderEvent.findRow order) (s.setPhase i (ForwarderPhase.readingApps row))
  | listed {row : Int} (hphase : c.phase = ForwarderPhase.readingApps row) :
      CallEffect ForwarderEvent.readApps (s.setPhase i (ForwarderPhase.binding
        (s.db.readApps text row) [] (loopbackPorts urls (s.db.readApps text row))))
  | bound {apps : List SharedApp} {bound rest : LoopbackPorts} {port : UInt16}
      {hosts : List String} {binds : Bool}
      (hphase : c.phase = ForwarderPhase.binding apps bound ((port, hosts) :: rest))
      (hnone : s.holder port = none) :
      CallEffect (ForwarderEvent.bindNext binds)
        (s.setPhase i (ForwarderPhase.binding apps (bound ++ [(port, hosts)]) rest))
  | made {apps : List SharedApp} {bound : LoopbackPorts}
      (hphase : c.phase = ForwarderPhase.binding apps bound []) :
      CallEffect ForwarderEvent.finish ((s.insertForwarder c.share bound).setPhase i
        (ForwarderPhase.returned s.objects.length))
  | gaveUp {event : ForwarderEvent} {phase : ForwarderPhase}
      (hheld : c.phase.holdsLock = true) (hgivingUp : phase.givingUp = true) :
      CallEffect event (s.setPhase i phase)

end

section
variable {text : JsonText} {urls : UrlParser} {s t : LoopbackForwarders} {i : Nat}
  {c : ForwarderCall} {event : ForwarderEvent}

theorem callEffect_of_callEvent (h : s.callEvent text urls i c event = some t) :
    CallEffect text urls s i c event t := by
  cases event with
  | lock =>
      simp only [callEvent] at h
      split at h
      · rename_i hphase
        split at h
        · cases h
        · rename_i hlocked
          have hfree : s.locked = false := by simpa using hlocked
          split at h
          · rename_i live hlive
            cases h
            exact CallEffect.shared hphase hfree hlive
          · rename_i hnone
            cases h
            exact CallEffect.locked hphase hfree hnone
      · cases h
  | findRow order =>
      simp only [callEvent] at h
      split at h
      · rename_i hphase
        split at h
        · cases h
          exact CallEffect.gaveUp (by rw [hphase]; rfl) rfl
        · rename_i found hfind
          cases h
          exact CallEffect.found hphase hfind
      · cases h
  | readApps =>
      simp only [callEvent] at h
      split at h
      · rename_i row hphase
        cases h
        exact CallEffect.listed hphase
      · cases h
  | bindNext binds =>
      simp only [callEvent] at h
      split at h
      · rename_i apps bound port hosts rest hphase
        have hheld : c.phase.holdsLock = true := by rw [hphase]; rfl
        split at h
        · cases h
          exact CallEffect.gaveUp hheld rfl
        · rename_i hnone
          split at h
          · cases h
            exact CallEffect.bound hphase hnone
          · cases h
            exact CallEffect.gaveUp hheld rfl
      · cases h
  | findHolder order =>
      simp only [callEvent] at h
      split at h
      · rename_i port holder hphase
        have hheld : c.phase.holdsLock = true := by rw [hphase]; rfl
        split at h
        · cases h
          exact CallEffect.gaveUp hheld rfl
        · cases h
          exact CallEffect.gaveUp hheld rfl
      · cases h
  | readNames =>
      simp only [callEvent] at h
      split at h
      · rename_i port row hphase
        have hheld : c.phase.holdsLock = true := by rw [hphase]; rfl
        split at h
        · cases h
          exact CallEffect.gaveUp hheld rfl
        · cases h
          exact CallEffect.gaveUp hheld rfl
      · cases h
  | storageFails =>
      simp only [callEvent] at h
      have hgaveUp : c.phase.holdsLock = true ∧
          s.setPhase i (ForwarderPhase.failed LoopbackError.storage) = t := by
        cases hphase : c.phase <;> simp_all [ForwarderPhase.holdsLock]
      rcases hgaveUp with ⟨hheld, rfl⟩
      exact CallEffect.gaveUp hheld rfl
  | finish =>
      simp only [callEvent] at h
      split at h
      · rename_i apps bound hphase
        cases h
        exact CallEffect.made hphase
      · cases h

/-!
## Live forwarders and calls after an update
-/

theorem upgrade_eq_some_iff {forwarder : Nat} {object : LoopbackForwarder} :
    s.upgrade forwarder = some object <->
      s.objects[forwarder]? = some object ∧ 0 < object.strong := by
  simp [upgrade, Option.filter_eq_some_iff]

theorem calls_setPhase {phase : ForwarderPhase} {j : Nat} {d : ForwarderCall}
    (hc : s.calls[i]? = some c) :
    (s.setPhase i phase).calls[j]? = some d <->
      (j = i ∧ d = { c with phase }) ∨ (j ≠ i ∧ s.calls[j]? = some d) :=
  slot_modify_eq_some_iff hc

theorem objects_setStrong {forwarder : Nat} {f : Nat -> Nat} {object changed : LoopbackForwarder}
    {id : Nat} (hobject : s.objects[forwarder]? = some object) :
    (s.setStrong forwarder f).objects[id]? = some changed <->
      (id = forwarder ∧ changed = { object with strong := f object.strong }) ∨
        (id ≠ forwarder ∧ s.objects[id]? = some changed) :=
  slot_modify_eq_some_iff hobject

theorem holdsLock_of_unlocked (hfree : s.locked = false) {j : Nat} {d : ForwarderCall}
    (hd : s.calls[j]? = some d) : d.phase.holdsLock = false := by
  unfold locked at hfree
  rw [List.any_eq_false] at hfree
  simpa using hfree d (List.mem_of_getElem? hd)

end

/-!
## No port of two shares

The map has every live forwarder, and one call at a time may add to it.
-/

structure Sound (s : LoopbackForwarders) : Prop where
  keys : (s.forwarders.map Prod.fst).Nodup
  /-- No live forwarder is out of the map's sight. -/
  listed : forall id object, s.upgrade id = some object -> (object.share, id) ∈ s.forwarders
  shares : forall share id, (share, id) ∈ s.forwarders ->
    exists object, s.objects[id]? = some object ∧ object.share = share
  apart : forall id id' object object', s.upgrade id = some object ->
    s.upgrade id' = some object' -> object.share ≠ object'.share ->
      forall port, port ∈ object.ports -> port ∉ object'.ports
  alone : forall (i j : Nat) c d, s.calls[i]? = some c -> s.calls[j]? = some d ->
    c.phase.holdsLock = true -> d.phase.holdsLock = true -> i = j
  /-- Who has the lock has found no live forwarder of its share. -/
  fresh : forall (i : Nat) c, s.calls[i]? = some c -> c.phase.holdsLock = true ->
    forall id object, s.upgrade id = some object -> object.share ≠ c.share
  /-- What is bound for a forwarder in the making is nobody else's. -/
  free : forall (i : Nat) c, s.calls[i]? = some c -> forall port, port ∈ c.phase.bound ->
    forall id object, s.upgrade id = some object -> port ∉ object.ports

theorem sound_start (db : DB) : (start db).Sound where
  keys := List.nodup_nil
  listed := fun _ _ h => nomatch h
  shares := fun _ _ h => nomatch h
  apart := fun _ _ _ _ h => nomatch h
  alone := fun _ _ _ _ h => nomatch h
  fresh := fun _ _ h => nomatch h
  free := fun _ _ h => nomatch h

section
variable {text : JsonText} {urls : UrlParser} {s t : LoopbackForwarders} {i : Nat}
  {c : ForwarderCall} {event : ForwarderEvent}

/-- The map leads to the share's live forwarder, if there is one. -/
theorem liveForwarder_eq_some_iff (h : s.Sound) {share : ShareId} {live : Nat} :
    s.liveForwarder share = some live <->
      exists object, s.upgrade live = some object ∧ object.share = share := by
  constructor
  · intro hlive
    rcases Option.bind_eq_some_iff.mp hlive with ⟨entry, hfind, hupgrade⟩
    rcases Option.map_eq_some_iff.mp hupgrade with ⟨object, hobject, rfl⟩
    rcases (find_key_eq_some_iff h.keys).mp hfind with ⟨hentry, hkey⟩
    rcases h.shares entry.1 entry.2 hentry with ⟨listed, hlisted, hshare⟩
    have hsame : listed = object :=
      Option.some.inj (hlisted.symm.trans (upgrade_eq_some_iff.mp hobject).left)
    exact ⟨object, hobject, by rw [← hsame, hshare, hkey]⟩
  · intro hlive
    rcases hlive with ⟨object, hobject, rfl⟩
    have hfind := (find_key_eq_some_iff h.keys).mpr ⟨h.listed live object hobject, rfl⟩
    rw [liveForwarder, hfind, Option.bind_some, hobject]
    rfl

theorem liveForwarder_eq_none (h : s.Sound) {share : ShareId}
    (hnone : s.liveForwarder share = none) {id : Nat} {object : LoopbackForwarder}
    (hlive : s.upgrade id = some object) : object.share ≠ share := by
  intro hshare
  rw [(liveForwarder_eq_some_iff h).mpr ⟨object, hlive, hshare⟩] at hnone
  cases hnone

/-- Without a holder the port is no live forwarder's. -/
theorem holder_eq_none (h : s.Sound) {port : UInt16} (hnone : s.holder port = none) {id : Nat}
    {object : LoopbackForwarder} (hlive : s.upgrade id = some object) : port ∉ object.ports := by
  intro hport
  have hfind := List.find?_eq_none.mp (Option.map_eq_none_iff.mp hnone) _ (h.listed id object hlive)
  simp [hlive, hport] at hfind

theorem sound_setPhase (h : s.Sound) (hc : s.calls[i]? = some c) {phase : ForwarderPhase}
    (hheld : phase.holdsLock = true -> c.phase.holdsLock = true)
    (hfree : forall port, port ∈ phase.bound -> forall id object, s.upgrade id = some object ->
      port ∉ object.ports) : (s.setPhase i phase).Sound where
  keys := h.keys
  listed := h.listed
  shares := h.shares
  apart := h.apart
  alone := by
    intro j k d e hd he hdheld heheld
    rcases (calls_setPhase hc).mp hd with ⟨rfl, rfl⟩ | ⟨-, hother⟩
    · rcases (calls_setPhase hc).mp he with ⟨rfl, rfl⟩ | ⟨-, he⟩
      · rfl
      · exact h.alone j k c e hc he (hheld hdheld) heheld
    · rcases (calls_setPhase hc).mp he with ⟨rfl, rfl⟩ | ⟨-, he⟩
      · exact h.alone j k d c hother hc hdheld (hheld heheld)
      · exact h.alone j k d e hother he hdheld heheld
  fresh := by
    intro j d hd hdheld
    rcases (calls_setPhase hc).mp hd with ⟨rfl, rfl⟩ | ⟨-, hd⟩
    · exact h.fresh j c hc (hheld hdheld)
    · exact h.fresh j d hd hdheld
  free := by
    intro j d hd
    rcases (calls_setPhase hc).mp hd with ⟨rfl, rfl⟩ | ⟨-, hd⟩
    · exact hfree
    · exact h.free j d hd

/-- The lock is taken by a call whose share has no live forwarder. -/
theorem sound_lock (h : s.Sound) (hc : s.calls[i]? = some c) (hfree : s.locked = false)
    (hnone : s.liveForwarder c.share = none) :
    ({ s with forwarders := s.retained }.setPhase i ForwarderPhase.findingRow).Sound where
  keys := h.keys.sublist (List.filter_sublist.map Prod.fst)
  listed := by
    intro id object hlive
    refine List.mem_filter.mpr ⟨h.listed id object hlive, ?_⟩
    show (s.upgrade id).isSome = true
    rw [show s.upgrade id = some object from hlive]
    rfl
  shares := fun share id hmem => h.shares share id (List.mem_filter.mp hmem).left
  apart := h.apart
  alone := by
    have hother : forall (j : Nat) d, (s.setPhase i ForwarderPhase.findingRow).calls[j]? = some d ->
        d.phase.holdsLock = true -> j = i := by
      intro j d hd hheld
      rcases (calls_setPhase hc).mp hd with ⟨hj, -⟩ | ⟨-, hd⟩
      · exact hj
      · rw [holdsLock_of_unlocked hfree hd] at hheld
        cases hheld
    intro j k d e hd he hdheld heheld
    rw [hother j d hd hdheld, hother k e he heheld]
  fresh := by
    intro j d hd hheld id object hlive
    rcases (calls_setPhase hc).mp hd with ⟨rfl, rfl⟩ | ⟨-, hd⟩
    · exact liveForwarder_eq_none h hnone hlive
    · have hunheld := holdsLock_of_unlocked hfree hd
      rw [hheld] at hunheld
      cases hunheld
  free := by
    intro j d hd
    rcases (calls_setPhase hc).mp hd with ⟨rfl, rfl⟩ | ⟨-, hd⟩
    · intro port hport
      cases hport
    · exact h.free j d hd

/-- References come and go; at most a forwarder goes with them. -/
theorem sound_setStrong (h : s.Sound) {forwarder : Nat} {f : Nat -> Nat}
    (hlive : (s.upgrade forwarder).isSome = true) : (s.setStrong forwarder f).Sound := by
  rcases Option.isSome_iff_exists.mp hlive with ⟨held, hheld⟩
  have hobject := (upgrade_eq_some_iff.mp hheld).left
  have hbefore : forall id object, (s.setStrong forwarder f).upgrade id = some object ->
      exists before, s.upgrade id = some before ∧ before.share = object.share ∧
        before.ports = object.ports := by
    intro id object hupgrade
    rcases upgrade_eq_some_iff.mp hupgrade with ⟨hslot, hstrong⟩
    rcases (objects_setStrong hobject).mp hslot with ⟨rfl, rfl⟩ | ⟨-, hslot⟩
    · exact ⟨held, hheld, rfl, rfl⟩
    · exact ⟨object, upgrade_eq_some_iff.mpr ⟨hslot, hstrong⟩, rfl, rfl⟩
  refine
    { keys := h.keys
      listed := ?_
      shares := ?_
      apart := ?_
      alone := h.alone
      fresh := ?_
      free := ?_ }
  · intro id object hupgrade
    rcases hbefore id object hupgrade with ⟨before, hbefore, hshare, -⟩
    exact hshare ▸ h.listed id before hbefore
  · intro share id hmem
    rcases h.shares share id hmem with ⟨object, hslot, hshare⟩
    by_cases hid : id = forwarder
    · subst hid
      have heq : held = object := Option.some.inj (hobject.symm.trans hslot)
      exact ⟨_, (objects_setStrong hobject).mpr (Or.inl ⟨rfl, rfl⟩), by rw [heq]; exact hshare⟩
    · exact ⟨object, (objects_setStrong hobject).mpr (Or.inr ⟨hid, hslot⟩), hshare⟩
  · intro id id' object object' hupgrade hupgrade' hne port hport
    rcases hbefore id object hupgrade with ⟨before, hb, hshare, hports⟩
    rcases hbefore id' object' hupgrade' with ⟨before', hb', hshare', hports'⟩
    rw [← hports']
    exact h.apart id id' before before' hb hb' (by rw [hshare, hshare']; exact hne) port
      (hports ▸ hport)
  · intro j d hd hdheld id object hupgrade
    rcases hbefore id object hupgrade with ⟨before, hb, hshare, -⟩
    exact hshare ▸ h.fresh j d hd hdheld id before hb
  · intro j d hd port hport id object hupgrade
    rcases hbefore id object hupgrade with ⟨before, hb, -, hports⟩
    exact hports ▸ h.free j d hd port hport id before hb

theorem upgrade_insertForwarder {share : ShareId} {bound : LoopbackPorts} {id : Nat}
    {object : LoopbackForwarder} (h : (s.insertForwarder share bound).upgrade id = some object) :
    s.upgrade id = some object ∨ (id = s.objects.length ∧ object = ⟨share, bound, 1⟩) := by
  rcases upgrade_eq_some_iff.mp h with ⟨hslot, hstrong⟩
  rcases slot_append_eq_some_iff.mp hslot with hslot | hnew
  · exact Or.inl (upgrade_eq_some_iff.mpr ⟨hslot, hstrong⟩)
  · exact Or.inr hnew

/-- Only a call with the lock has a forwarder in the making. -/
theorem bound_eq_nil {phase : ForwarderPhase} (h : phase.holdsLock = false) : phase.bound = [] := by
  cases phase with
  | binding apps bound rest => cases h
  | waiting | findingRow | readingApps | findingHolder | readingNames | returned | failed => rfl

/-- A forwarder is added while nobody has the lock. -/
theorem sound_insertForwarder (h : s.Sound) {share : ShareId} {bound : LoopbackPorts}
    (hunlocked : forall (j : Nat) d, s.calls[j]? = some d -> d.phase.holdsLock = false)
    (hfresh : forall id object, s.upgrade id = some object -> object.share ≠ share)
    (hfree : forall port, port ∈ bound.map Prod.fst -> forall id object,
      s.upgrade id = some object -> port ∉ object.ports) :
    (s.insertForwarder share bound).Sound := by
  refine
    { keys := ?_
      listed := ?_
      shares := ?_
      apart := ?_
      alone := h.alone
      fresh := ?_
      free := ?_ }
  · show (((s.forwarders.filter fun entry => entry.1 ≠ share) ++ _).map Prod.fst).Nodup
    rw [List.map_append, List.nodup_append]
    refine ⟨h.keys.sublist (List.filter_sublist.map Prod.fst), List.nodup_singleton _, ?_⟩
    intro key hkey other hother heq
    rcases List.mem_map.mp hkey with ⟨entry, hentry, rfl⟩
    have hne := of_decide_eq_true (List.mem_filter.mp hentry).right
    exact hne (heq.trans (List.mem_singleton.mp hother))
  · intro id object hupgrade
    refine List.mem_append.mpr ?_
    rcases upgrade_insertForwarder hupgrade with hold | ⟨rfl, rfl⟩
    · exact Or.inl (List.mem_filter.mpr ⟨h.listed id object hold,
        decide_eq_true (hfresh id object hold)⟩)
    · exact Or.inr (List.mem_singleton.mpr rfl)
  · intro key id hmem
    rcases List.mem_append.mp hmem with hold | hnew
    · rcases h.shares key id (List.mem_filter.mp hold).left with ⟨object, hslot, hshare⟩
      exact ⟨object, slot_append_eq_some_iff.mpr (Or.inl hslot), hshare⟩
    · cases List.mem_singleton.mp hnew
      exact ⟨_, slot_append_eq_some_iff.mpr (Or.inr ⟨rfl, rfl⟩), rfl⟩
  · intro id id' object object' hupgrade hupgrade' hne port hport
    rcases upgrade_insertForwarder hupgrade with hold | ⟨rfl, rfl⟩
    · rcases upgrade_insertForwarder hupgrade' with hold' | ⟨rfl, rfl⟩
      · exact h.apart id id' object object' hold hold' hne port hport
      · exact fun hnew => hfree port hnew id object hold hport
    · rcases upgrade_insertForwarder hupgrade' with hold' | ⟨rfl, rfl⟩
      · exact hfree port hport id' object' hold'
      · exact absurd rfl hne
  · intro j d hd hheld
    rw [hunlocked j d hd] at hheld
    cases hheld
  · intro j d hd port hport
    rw [bound_eq_nil (hunlocked j d hd)] at hport
    cases hport

theorem sound_callEffect (h : s.Sound) (hc : s.calls[i]? = some c)
    (heffect : CallEffect text urls s i c event t) : t.Sound := by
  cases heffect with
  | shared hphase hfree hlive =>
      rename_i live
      rcases (liveForwarder_eq_some_iff h).mp hlive with ⟨object, hobject, -⟩
      have hbumped : (s.setStrong live (fun n => n + 1)).Sound :=
        sound_setStrong h (by rw [hobject]; rfl)
      exact sound_setPhase hbumped hc nofun nofun
  | locked hphase hfree hnone => exact sound_lock h hc hfree hnone
  | found hphase hfind => exact sound_setPhase h hc (fun _ => by rw [hphase]; rfl) nofun
  | listed hphase => exact sound_setPhase h hc (fun _ => by rw [hphase]; rfl) nofun
  | bound hphase hnone =>
      rename_i apps bound rest port hosts binds
      refine sound_setPhase h hc (fun _ => by rw [hphase]; rfl) ?_
      intro taken htaken id object hlive
      have hsplit : taken ∈ bound.map Prod.fst ∨ taken = port := by
        simpa [ForwarderPhase.bound] using htaken
      rcases hsplit with hold | rfl
      · exact h.free i c hc taken (by rw [hphase]; exact hold) id object hlive
      · exact holder_eq_none h hnone hlive
  | made hphase =>
      rename_i apps bound
      have hheld : c.phase.holdsLock = true := by rw [hphase]; rfl
      have hreturned : (s.setPhase i (ForwarderPhase.returned s.objects.length)).Sound :=
        sound_setPhase h hc nofun nofun
      refine sound_insertForwarder hreturned ?_ (h.fresh i c hc hheld) ?_
      · intro j d hd
        rcases (calls_setPhase hc).mp hd with ⟨rfl, rfl⟩ | ⟨hj, hd⟩
        · rfl
        · by_contra hdheld
          exact hj (h.alone j i d c hd hc (by simpa using hdheld) hheld)
      · intro port hport
        exact h.free i c hc port (by rw [hphase]; exact hport)
  | gaveUp hheld hgivingUp =>
      rename_i phase
      refine sound_setPhase h hc (fun _ => hheld) ?_
      cases phase with
      | findingHolder | readingNames | failed => exact nofun
      | waiting | findingRow | readingApps | binding | returned => cases hgivingUp

theorem step_sound {a : ForwarderAction} (h : s.Sound) (hstep : s.step text urls a = some t) :
    t.Sound := by
  cases a with
  | store op =>
      rcases Option.map_eq_some_iff.mp hstep with ⟨db, -, rfl⟩
      exact ⟨h.keys, h.listed, h.shares, h.apart, h.alone, h.fresh, h.free⟩
  | forwardLoopbackOrigins share =>
      cases hstep
      have hwaiting : forall {j : Nat} {d : ForwarderCall},
          (s.calls ++ [⟨share, ForwarderPhase.waiting⟩])[j]? = some d ->
            s.calls[j]? = some d ∨ d.phase = ForwarderPhase.waiting := by
        intro j d hd
        rcases slot_append_eq_some_iff.mp hd with hold | ⟨-, rfl⟩
        · exact Or.inl hold
        · exact Or.inr rfl
      refine ⟨h.keys, h.listed, h.shares, h.apart, ?_, ?_, ?_⟩
      · intro j k d e hd he hdheld heheld
        rcases hwaiting hd with hold | hphase
        · rcases hwaiting he with hold' | hphase'
          · exact h.alone j k d e hold hold' hdheld heheld
          · rw [hphase'] at heheld
            cases heheld
        · rw [hphase] at hdheld
          cases hdheld
      · intro j d hd hheld
        rcases hwaiting hd with hold | hphase
        · exact h.fresh j d hold hheld
        · rw [hphase] at hheld
          cases hheld
      · intro j d hd port hport
        rcases hwaiting hd with hold | hphase
        · exact h.free j d hold port hport
        · rw [hphase] at hport
          cases hport
  | call i event =>
      rcases Option.bind_eq_some_iff.mp hstep with ⟨c, hc, hevent⟩
      exact sound_callEffect h hc (callEffect_of_callEvent hevent)
  | cloneForwarder forwarder =>
      rcases Option.map_eq_some_iff.mp hstep with ⟨object, hlive, rfl⟩
      exact sound_setStrong h (by rw [hlive]; rfl)
  | dropForwarder forwarder =>
      rcases Option.map_eq_some_iff.mp hstep with ⟨object, hlive, rfl⟩
      exact sound_setStrong h (by rw [hlive]; rfl)

end

/-!
## Where a returned forwarder is from
-/

section
variable (text : JsonText) (urls : UrlParser) (first : LoopbackForwarders)
  (past : List ForwarderAction) (i : Nat)

/-- The call found the row of its share. -/
def RowFound (share : ShareId) (row : Int) : Prop :=
  exists order, Took (step text urls) first past
    (ForwarderAction.call i (ForwarderEvent.findRow order)) fun _ u =>
      u.calls[i]? = some ⟨share, ForwarderPhase.findingRow⟩ ∧
        exists r, u.db.findRow order share.text = some (row, r)

/-- The call read the apps that the store had for its share. -/
def AppsRead (share : ShareId) (apps : List SharedApp) : Prop :=
  exists row, Took (step text urls) first past
    (ForwarderAction.call i ForwarderEvent.readApps) fun before u =>
      RowFound text urls first before i share row ∧ u.db.readApps text row = apps

/-- The call made the forwarder, with the ports of the apps that it had read. -/
def Made (share : ShareId) (bound : LoopbackPorts) (forwarder : Nat) : Prop :=
  exists apps, Took (step text urls) first past
    (ForwarderAction.call i ForwarderEvent.finish) fun before u =>
      u.objects.length = forwarder ∧ AppsRead text urls first before i share apps ∧
        bound = loopbackPorts urls apps

/-- The call found the forwarder live when it took the lock. -/
def FoundLive (share : ShareId) (forwarder : Nat) : Prop :=
  Took (step text urls) first past (ForwarderAction.call i ForwarderEvent.lock) fun _ u =>
    u.liveForwarder share = some forwarder

/-- What a call knows it has from the run so far. -/
def CallRecorded (objects : List LoopbackForwarder) (c : ForwarderCall) : Prop :=
  match c.phase with
  | ForwarderPhase.readingApps row => RowFound text urls first past i c.share row
  | ForwarderPhase.binding apps bound rest =>
      AppsRead text urls first past i c.share apps ∧ bound ++ rest = loopbackPorts urls apps
  | ForwarderPhase.returned forwarder =>
      exists object, objects[forwarder]? = some object ∧ object.share = c.share ∧
        (Made text urls first past i c.share object.boundPorts forwarder ∨
          FoundLive text urls first past i c.share forwarder)
  | _ => True

/-- The run so far accounts for every call and every forwarder. -/
structure Recorded (s : LoopbackForwarders) : Prop where
  calls : forall (i : Nat) c, s.calls[i]? = some c ->
    CallRecorded text urls first past i s.objects c
  objects : forall (forwarder : Nat) object, s.objects[forwarder]? = some object ->
    exists i, Made text urls first past i object.share object.boundPorts forwarder

end

/-- A forwarder keeps its share and its ports. -/
def SameForwarder (object changed : LoopbackForwarder) : Prop :=
  changed.share = object.share ∧ changed.boundPorts = object.boundPorts

section
variable {text : JsonText} {urls : UrlParser} {first s t : LoopbackForwarders}
  {past : List ForwarderAction} {a : ForwarderAction} {i : Nat} {c : ForwarderCall}
  {event : ForwarderEvent}

theorem same_refl (object : LoopbackForwarder) : SameForwarder object object :=
  ⟨rfl, rfl⟩

theorem grows_setStrong (s : LoopbackForwarders) (forwarder : Nat) (f : Nat -> Nat) :
    Grows SameForwarder s.objects (s.setStrong forwarder f).objects := by
  have hsame : forall object : LoopbackForwarder,
      SameForwarder object { object with strong := f object.strong } :=
    fun _ => ⟨rfl, rfl⟩
  exact grows_modify same_refl hsame s.objects forwarder

theorem CallRecorded.later {objects objects' : List LoopbackForwarder}
    (h : CallRecorded text urls first past i objects c)
    (hgrows : Grows SameForwarder objects objects') (a : ForwarderAction) :
    CallRecorded text urls first (past ++ [a]) i objects' c := by
  unfold CallRecorded at h ⊢
  cases hphase : c.phase with
  | readingApps row =>
      rw [hphase] at h
      rcases h with ⟨order, hfound⟩
      exact ⟨order, hfound.append [a]⟩
  | binding apps bound rest =>
      rw [hphase] at h
      rcases h with ⟨⟨row, hread⟩, hports⟩
      exact ⟨⟨row, hread.append [a]⟩, hports⟩
  | returned forwarder =>
      rw [hphase] at h
      rcases h with ⟨object, hobject, hshare, horigin⟩
      rcases hgrows forwarder object hobject with ⟨changed, hchanged, hsame⟩
      refine ⟨changed, hchanged, hsame.left.trans hshare, ?_⟩
      rcases horigin with ⟨apps, hmade⟩ | hlive
      · exact Or.inl ⟨apps, by rw [hsame.right]; exact hmade.append [a]⟩
      · exact Or.inr (hlive.append [a])
  | waiting | findingRow | findingHolder | readingNames | failed => trivial

theorem Made.later {share : ShareId} {bound : LoopbackPorts} {forwarder : Nat}
    (h : Made text urls first past i share bound forwarder) (a : ForwarderAction) :
    Made text urls first (past ++ [a]) i share bound forwarder := by
  rcases h with ⟨apps, hmade⟩
  exact ⟨apps, hmade.append [a]⟩

/-- Calls and forwarders that are as they were stay accounted for. -/
theorem recorded_step (h : Recorded text urls first past s)
    (hgrows : Grows SameForwarder s.objects t.objects)
    (hcalls : forall (j : Nat) d, t.calls[j]? = some d -> s.calls[j]? = some d ∨
      CallRecorded text urls first (past ++ [a]) j t.objects d)
    (hobjects : forall (forwarder : Nat) object, t.objects[forwarder]? = some object ->
      (exists before, s.objects[forwarder]? = some before ∧ SameForwarder before object) ∨
        exists j, Made text urls first (past ++ [a]) j object.share object.boundPorts forwarder) :
    Recorded text urls first (past ++ [a]) t where
  calls := by
    intro j d hd
    rcases hcalls j d hd with hold | hnew
    · exact (h.calls j d hold).later hgrows a
    · exact hnew
  objects := by
    intro forwarder object hobject
    rcases hobjects forwarder object hobject with ⟨before, hbefore, hshare, hbound⟩ | hnew
    · rcases h.objects forwarder before hbefore with ⟨j, hmade⟩
      exact ⟨j, by rw [hshare, hbound]; exact hmade.later a⟩
    · exact hnew

theorem calls_after {phase : ForwarderPhase} {objects : List LoopbackForwarder}
    (hc : s.calls[i]? = some c)
    (hphase : CallRecorded text urls first past i objects { c with phase }) (j : Nat)
    (d : ForwarderCall) (hd : (s.setPhase i phase).calls[j]? = some d) :
    s.calls[j]? = some d ∨ CallRecorded text urls first past j objects d := by
  rcases (calls_setPhase hc).mp hd with ⟨rfl, rfl⟩ | ⟨-, hother⟩
  · exact Or.inr hphase
  · exact Or.inl hother

/-- A step in which a call gets to another phase, and the forwarders stay as they are. -/
theorem recorded_setPhase (h : Recorded text urls first past s) (hc : s.calls[i]? = some c)
    {phase : ForwarderPhase} (hcalls : t.calls = (s.setPhase i phase).calls)
    (hobjects : t.objects = s.objects)
    (hphase : CallRecorded text urls first (past ++ [a]) i s.objects { c with phase }) :
    Recorded text urls first (past ++ [a]) t := by
  refine recorded_step h ?_ ?_ ?_
  · rw [hobjects]
    exact Grows.refl same_refl s.objects
  · rw [hcalls, hobjects]
    exact calls_after hc hphase
  · intro forwarder object hobject
    exact Or.inl ⟨object, hobjects ▸ hobject, same_refl object⟩

theorem before_setStrong {forwarder : Nat} {f : Nat -> Nat}
    (hlive : (s.upgrade forwarder).isSome = true) (id : Nat) (object : LoopbackForwarder)
    (hobject : (s.setStrong forwarder f).objects[id]? = some object) :
    exists before, s.objects[id]? = some before ∧ SameForwarder before object := by
  rcases Option.isSome_iff_exists.mp hlive with ⟨held, hheld⟩
  have hslot := (upgrade_eq_some_iff.mp hheld).left
  rcases (objects_setStrong hslot).mp hobject with ⟨rfl, rfl⟩ | ⟨-, hold⟩
  · exact ⟨held, hslot, same_refl held⟩
  · exact ⟨object, hold, same_refl object⟩

theorem recorded_callEffect (hrun : Run (step text urls) first past s) (hsound : s.Sound)
    (h : Recorded text urls first past s) (hc : s.calls[i]? = some c)
    (heffect : CallEffect text urls s i c event t) :
    Recorded text urls first (past ++ [ForwarderAction.call i event]) t := by
  have hrecorded := h.calls i c hc
  cases heffect with
  | @shared live hphase hfree hlive =>
      rcases (liveForwarder_eq_some_iff hsound).mp hlive with ⟨object, hupgrade, hshare⟩
      have hheld : (s.upgrade live).isSome = true := by rw [hupgrade]; rfl
      have hgrows := grows_setStrong s live fun n => n + 1
      refine recorded_step h hgrows (calls_after hc ?_) ?_
      · rcases hgrows live object (upgrade_eq_some_iff.mp hupgrade).left with
          ⟨changed, hchanged, hsame⟩
        exact ⟨changed, hchanged, hsame.left.trans hshare, Or.inr (hrun.took_last hlive)⟩
      · intro forwarder object hobject
        exact Or.inl (before_setStrong hheld forwarder object hobject)
  | locked hphase hfree hnone => exact recorded_setPhase h hc rfl rfl trivial
  | @found order row r hphase hfind =>
      refine recorded_setPhase h hc rfl rfl ?_
      refine ⟨order, hrun.took_last ⟨?_, r, hfind⟩⟩
      rw [hc, ← hphase]
  | @listed row hphase =>
      refine recorded_setPhase h hc rfl rfl ?_
      simp only [CallRecorded, hphase] at hrecorded
      exact ⟨⟨row, hrun.took_last ⟨hrecorded, rfl⟩⟩, List.nil_append _⟩
  | @bound apps bound rest port hosts binds hphase hnone =>
      refine recorded_setPhase h hc rfl rfl ?_
      simp only [CallRecorded, hphase] at hrecorded
      rcases hrecorded with ⟨⟨row, hread⟩, hports⟩
      exact ⟨⟨row, hread.append _⟩, by rw [← hports, List.append_assoc]; rfl⟩
  | @made apps bound hphase =>
      simp only [CallRecorded, hphase, List.append_nil] at hrecorded
      rcases hrecorded with ⟨hread, hports⟩
      have hmade : Made text urls first (past ++ [ForwarderAction.call i ForwarderEvent.finish]) i
          c.share bound s.objects.length := ⟨apps, hrun.took_last ⟨rfl, hread, hports⟩⟩
      refine recorded_step h (grows_append same_refl s.objects _) (calls_after hc ?_) ?_
      · exact ⟨⟨c.share, bound, 1⟩, slot_append_eq_some_iff.mpr (Or.inr ⟨rfl, rfl⟩), rfl,
          Or.inl hmade⟩
      · intro forwarder object hobject
        rcases slot_append_eq_some_iff.mp hobject with hold | ⟨rfl, rfl⟩
        · exact Or.inl ⟨object, hold, same_refl object⟩
        · exact Or.inr ⟨i, hmade⟩
  | @gaveUp _ phase hheld hgivingUp =>
      refine recorded_setPhase h hc rfl rfl ?_
      cases phase with
      | findingHolder | readingNames | failed => trivial
      | waiting | findingRow | readingApps | binding | returned => cases hgivingUp

theorem step_recorded (hrun : Run (step text urls) first past s) (hsound : s.Sound)
    (h : Recorded text urls first past s) (hstep : s.step text urls a = some t) :
    Recorded text urls first (past ++ [a]) t := by
  have hobjects : forall (forwarder : Nat) object, s.objects[forwarder]? = some object ->
      exists before, s.objects[forwarder]? = some before ∧ SameForwarder before object :=
    fun _ object hobject => ⟨object, hobject, same_refl object⟩
  have hcalls : forall (j : Nat) d, s.calls[j]? = some d -> s.calls[j]? = some d ∨
      CallRecorded text urls first (past ++ [a]) j t.objects d := fun _ _ => Or.inl
  cases a with
  | store op =>
      rcases Option.map_eq_some_iff.mp hstep with ⟨db, -, rfl⟩
      exact recorded_step h (Grows.refl same_refl s.objects) hcalls
        fun forwarder object hobject => Or.inl (hobjects forwarder object hobject)
  | forwardLoopbackOrigins share =>
      cases hstep
      refine recorded_step h (Grows.refl same_refl s.objects) ?_
        fun forwarder object hobject => Or.inl (hobjects forwarder object hobject)
      intro j d hd
      rcases slot_append_eq_some_iff.mp hd with hold | ⟨-, rfl⟩
      · exact Or.inl hold
      · exact Or.inr trivial
  | call i event =>
      rcases Option.bind_eq_some_iff.mp hstep with ⟨c, hc, hevent⟩
      exact recorded_callEffect hrun hsound h hc (callEffect_of_callEvent hevent)
  | cloneForwarder forwarder =>
      rcases Option.map_eq_some_iff.mp hstep with ⟨object, hlive, rfl⟩
      exact recorded_step h (grows_setStrong s forwarder _) hcalls fun id object hobject =>
        Or.inl (before_setStrong (by rw [hlive]; rfl) id object hobject)
  | dropForwarder forwarder =>
      rcases Option.map_eq_some_iff.mp hstep with ⟨object, hlive, rfl⟩
      exact recorded_step h (grows_setStrong s forwarder _) hcalls fun id object hobject =>
        Or.inl (before_setStrong (by rw [hlive]; rfl) id object hobject)

theorem recorded_start (db : DB) : Recorded text urls (start db) [] (start db) where
  calls := fun _ _ h => nomatch h
  objects := fun _ _ h => nomatch h

theorem run_recorded {db : DB} {acts : List ForwarderAction}
    (hrun : Run (step text urls) (start db) acts s) :
    s.Sound ∧ Recorded text urls (start db) acts s := by
  have hpast := Run.invariant_of_past (C := fun _ _ => True)
    (I := fun past u => u.Sound ∧ Recorded text urls (start db) past u)
    ⟨sound_start db, recorded_start db⟩ ?_ hrun (meets_of_forall (fun _ _ _ => trivial) _)
  · exact hpast
  · intro past u a v hpast hu _ hstep
    exact ⟨step_sound hu.left hstep, step_recorded hpast hu.left hu.right hstep⟩

/-- A returned forwarder is the share's, and has the ports of the apps that its maker read; no
port is forwarded for two shares. -/
theorem forwarders_match_when_made {db : DB} {acts : List ForwarderAction}
    (hrun : Run (step text urls) (start db) acts s) :
    (forall (i : Nat) share forwarder,
      s.calls[i]? = some ⟨share, ForwarderPhase.returned forwarder⟩ ->
        exists object maker, s.objects[forwarder]? = some object ∧ object.share = share ∧
          Made text urls (start db) acts maker share object.boundPorts forwarder ∧
          (maker = i ∨ FoundLive text urls (start db) acts i share forwarder)) ∧
      forall id id' object object', s.upgrade id = some object -> s.upgrade id' = some object' ->
        object.share ≠ object'.share -> forall port, port ∈ object.ports ->
          port ∉ object'.ports := by
  rcases run_recorded hrun with ⟨hsound, hrecorded⟩
  refine ⟨?_, hsound.apart⟩
  intro i share forwarder hreturned
  rcases hrecorded.calls i _ hreturned with ⟨object, hobject, hshare, horigin⟩
  change object.share = share at hshare
  rcases horigin with hmade | hlive
  · exact ⟨object, i, hobject, hshare, hmade, Or.inl rfl⟩
  · rcases hrecorded.objects forwarder object hobject with ⟨maker, hmade⟩
    exact ⟨object, maker, hobject, hshare, hshare ▸ hmade, Or.inr hlive⟩

/-- A share's first call, with one port to bind, and nobody else around. -/
theorem run_lone_call {db : DB} {share : ShareId} {order : SerialTable.QueryOrder ShareRow}
    {row : Int} {r : ShareRow} {port : UInt16} {hosts : List String}
    (hfind : db.findRow order share.text = some (row, r))
    (hports : loopbackPorts urls (db.readApps text row) = [(port, hosts)]) :
    Run (step text urls) (start db)
      [ForwarderAction.forwardLoopbackOrigins share,
        ForwarderAction.call 0 ForwarderEvent.lock,
        ForwarderAction.call 0 (ForwarderEvent.findRow order),
        ForwarderAction.call 0 ForwarderEvent.readApps,
        ForwarderAction.call 0 (ForwarderEvent.bindNext true),
        ForwarderAction.call 0 ForwarderEvent.finish]
      { db
        objects := [⟨share, [(port, hosts)], 1⟩]
        forwarders := [(share, 0)]
        calls := [⟨share, ForwarderPhase.returned 0⟩] } := by
  have hfound : step text urls
      ⟨db, [], [], [⟨share, ForwarderPhase.findingRow⟩]⟩
      (ForwarderAction.call 0 (ForwarderEvent.findRow order)) =
      some ⟨db, [], [], [⟨share, ForwarderPhase.readingApps row⟩]⟩ := by
    simp [step, callEvent, hfind, setPhase]
  have hread : step text urls
      ⟨db, [], [], [⟨share, ForwarderPhase.readingApps row⟩]⟩
      (ForwarderAction.call 0 ForwarderEvent.readApps) =
      some ⟨db, [], [], [⟨share, ForwarderPhase.binding (db.readApps text row) []
        [(port, hosts)]⟩]⟩ := by
    simp [step, callEvent, hports, setPhase]
  exact Run.cons rfl (Run.cons rfl (Run.cons hfound (Run.cons hread
    (Run.cons rfl (Run.single rfl)))))

end

/-!
## A refresh that the forwarder does not see
-/

/-- The first share is joined, and there is no other. -/
def FirstAlone (db : DB) : Prop :=
  (exists r, db.row 1 = some r ∧ r.complete = some true ∧ r.shareId = firstShare) ∧
    forall j q, db.row j = some q -> j = 1

theorem firstAlone_findRow {db : DB} (h : FirstAlone db) :
    exists r, forall order, db.findRow order firstShare.text = some (1, r) := by
  rcases h with ⟨⟨r, hr, hcomplete, hshare⟩, honly⟩
  have hmatches : DB.matchesKey firstShare.text r = true :=
    DB.matchesKey_iff.mpr ⟨hcomplete, Or.inr (by rw [hshare])⟩
  exact ⟨r, fun order => SerialTable.findRow_eq_some_of_unique hr hmatches
    fun j q hq _ => honly j q hq⟩

/-- A refresh leaves the share joined. -/
theorem firstAlone_refresh {db : DB} (h : FirstAlone db) (info : ShareInfo)
    (hids : (info.apps.map fun app => app.id).Nodup) :
    exists db', db.writeShareInfo Json.compact 1 info = some db' ∧ FirstAlone db' ∧
      db'.readApps Json.compact 1 = info.apps := by
  rcases h with ⟨⟨r, hr, hcomplete, hshare⟩, honly⟩
  have hexists : exists db', db.writeShareInfo Json.compact 1 info = some db' :=
    DB.exists_writeShareInfo hr hids
  rcases hexists with ⟨db', hwrite⟩
  have hrows := DB.writeShareInfo_some hwrite
  refine ⟨db', hwrite, ⟨?_, ?_⟩, DB.readApps_writeShareInfo hwrite⟩
  · have hr' := hrows 1
    rw [hr, Option.map_some, if_pos rfl] at hr'
    exact ⟨_, hr', hcomplete, hshare⟩
  · intro j q hq
    rw [hrows] at hq
    rcases Option.map_eq_some_iff.mp hq with ⟨q', hq', -⟩
    exact honly j q' hq'

def developmentRow : ShareRow :=
  { ShareRow.new firstShare 0 with complete := some true }

/-- A store with the development share. -/
theorem exists_developmentStore :
    exists db, FirstAlone db ∧
      loopbackPorts UrlParser.development (db.readApps Json.compact 1) =
        [(4200, ["localhost"])] := by
  have halone : FirstAlone { DB.empty with shares := SerialTable.empty.insert developmentRow } := by
    refine ⟨⟨_, rfl, rfl, rfl⟩, ?_⟩
    intro j q hq
    rcases SerialTable.lookup_insert_eq_some_iff.mp hq with hold | hnew
    · cases hold
    · exact hnew.left
  rcases firstAlone_refresh halone (shareInfo developmentConfig TransportKind.iroh) (by decide) with
    ⟨db, -, hdb, happs⟩
  refine ⟨db, hdb, ?_⟩
  rw [happs]
  decide

theorem first_call_makes_its_forwarder :
    exists db acts s, Run (step Json.compact UrlParser.development) (start db) acts s ∧
      s.calls[0]? = some ⟨firstShare, ForwarderPhase.returned 0⟩ ∧
      exists object maker, s.objects[0]? = some object ∧ object.share = firstShare ∧
        Made Json.compact UrlParser.development (start db) acts maker firstShare object.boundPorts
          0 ∧
        (maker = 0 ∨
          FoundLive Json.compact UrlParser.development (start db) acts 0 firstShare 0) := by
  rcases exists_developmentStore with ⟨db, halone, hports⟩
  rcases firstAlone_findRow halone with ⟨r, hfind⟩
  have hrun := run_lone_call (hfind SerialTable.QueryOrder.byId) hports
  exact ⟨db, _, _, hrun, rfl, (forwarders_match_when_made hrun).left 0 firstShare 0 rfl⟩

/-- A share that has stopped listing its origins still gets the forwarder for them. -/
theorem refreshed_share_gets_its_old_ports :
    exists db acts s t r object, Run (step Json.compact UrlParser.development) (start db) acts s ∧
      s.step Json.compact UrlParser.development
        (ForwarderAction.call 1 ForwarderEvent.lock) = some t ∧
      t.calls[1]? = some ⟨firstShare, ForwarderPhase.returned 0⟩ ∧
      t.objects[0]? = some object ∧ object.ports = [4200] ∧
      (forall order, t.db.findRow order firstShare.text = some (1, r)) ∧
      loopbackPorts UrlParser.development (t.db.readApps Json.compact 1) = [] := by
  rcases exists_developmentStore with ⟨db, halone, hports⟩
  rcases firstAlone_findRow halone with ⟨r, hfind⟩
  rcases firstAlone_refresh halone familyInfo (by decide) with
    ⟨db', hwrite, halone', happs⟩
  rcases firstAlone_findRow halone' with ⟨r', hfind'⟩
  have hmade := run_lone_call (hfind SerialTable.QueryOrder.byId) hports
  have hstore : step Json.compact UrlParser.development
      ⟨db, [⟨firstShare, [(4200, ["localhost"])], 1⟩], [(firstShare, 0)],
        [⟨firstShare, ForwarderPhase.returned 0⟩]⟩
      (ForwarderAction.store (StoreOp.writeShareInfo 1 familyInfo)) =
      some ⟨db', [⟨firstShare, [(4200, ["localhost"])], 1⟩], [(firstShare, 0)],
        [⟨firstShare, ForwarderPhase.returned 0⟩]⟩ := by
    simp [step, storeStep, hwrite]
  have hrun := (hmade.append (Run.single hstore)).append
    (Run.single (a := ForwarderAction.forwardLoopbackOrigins firstShare) rfl)
  refine ⟨db, _, _, _, r', _, hrun, rfl, rfl, rfl, rfl, hfind', ?_⟩
  show loopbackPorts UrlParser.development (db'.readApps Json.compact 1) = []
  rw [happs]
  rfl

end LoopbackForwarders

end Guest
end WispersAccess
