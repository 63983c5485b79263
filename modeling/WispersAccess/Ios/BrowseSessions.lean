import Mathlib.Data.Finset.Erase
import Mathlib.Data.Finset.Insert
import Mathlib.Logic.Function.Basic
import WispersAccess.Foundation.ActionSystem
import WispersAccess.Foundation.Slots
import WispersAccess.Guest.Storage

/-!
# The apps that are kept warm

The iOS app keeps the web view of an app whose browser left the screen for a
while, so that coming back finds the page as it was.  A task sleeps for each
such app and closes its session when it wakes, unless the app was reopened in
time.  All of this happens on the main actor, one call after the other; the
tasks wake in any order and as late as the actor lets them.
-/

namespace WispersAccess
namespace Ios

open Foundation
open Guest (ShareId)

/-!
## The store
-/

structure SharedAppId where
  shareId : ShareId
  appId : String
  deriving DecidableEq, Repr

/-- A session, known by the number of sessions that were started before it. -/
structure BrowseSession where
  key : SharedAppId
  id : Nat
  deriving DecidableEq, Repr

/-- A task that sleeps and then closes the app's session. -/
structure EvictionTask where
  key : SharedAppId
  due : Nat
  isCancelled : Bool
  isFinished : Bool
  deriving DecidableEq, Repr

structure BrowseSessionStore where
  /-- Seconds since the app was launched. -/
  now : Nat
  sessions : List BrowseSession
  onScreen : Finset SharedAppId
  /-- Every eviction task that was ever created. -/
  tasks : List EvictionTask
  evictionTasks : SharedAppId -> Option Nat
  /-- How many sessions were started, and which of them were stopped. -/
  started : Nat
  stopped : List Nat

/-- How many seconds a session that is off the screen stays warm. -/
def warmTTL : Nat := 300

def EvictionTask.cancel (task : EvictionTask) : EvictionTask := { task with isCancelled := true }

def EvictionTask.finish (task : EvictionTask) : EvictionTask := { task with isFinished := true }

namespace BrowseSessionStore

def launched : BrowseSessionStore where
  now := 0
  sessions := []
  onScreen := ∅
  tasks := []
  evictionTasks := fun _ => none
  started := 0
  stopped := []

def session (s : BrowseSessionStore) (key : SharedAppId) : Option BrowseSession :=
  s.sessions.find? fun session => session.key = key

def isWarm (s : BrowseSessionStore) (key : SharedAppId) : Bool :=
  s.sessions.any fun session => session.key = key

def cancelEviction (s : BrowseSessionStore) (key : SharedAppId) : BrowseSessionStore :=
  { s with
    tasks :=
      match s.evictionTasks key with
      | none => s.tasks
      | some j => s.tasks.modify j EvictionTask.cancel
    evictionTasks := Function.update s.evictionTasks key none }

def scheduleEviction (s : BrowseSessionStore) (key : SharedAppId) : BrowseSessionStore :=
  let s := s.cancelEviction key
  { s with
    tasks := s.tasks ++ [⟨key, s.now + warmTTL, false, false⟩]
    evictionTasks := Function.update s.evictionTasks key (some s.tasks.length) }

def markActive (s : BrowseSessionStore) (key : SharedAppId) : BrowseSessionStore :=
  let s := s.cancelEviction key
  { s with onScreen := insert key s.onScreen }

def resignActive (s : BrowseSessionStore) (key : SharedAppId) : BrowseSessionStore :=
  { s with onScreen := s.onScreen.erase key }.scheduleEviction key

/-- A new session goes to the end of the list. -/
def start (s : BrowseSessionStore) (key : SharedAppId) : BrowseSessionStore :=
  { s with sessions := s.sessions ++ [⟨key, s.started⟩], started := s.started + 1 }

/-- `open`, up to the session that it returns. -/
def openApp (s : BrowseSessionStore) (key : SharedAppId) : BrowseSessionStore :=
  match s.session key with
  | some _ => s.markActive key
  | none => (s.start key).markActive key

/-- The first session of the app is stopped and leaves the list. -/
def removeSession (s : BrowseSessionStore) (key : SharedAppId) : BrowseSessionStore :=
  match s.session key with
  | none => s
  | some session =>
      { s with
        sessions := s.sessions.eraseP fun session => session.key = key
        stopped := s.stopped ++ [session.id] }

def close (s : BrowseSessionStore) (key : SharedAppId) : BrowseSessionStore :=
  let s := (s.cancelEviction key).removeSession key
  { s with onScreen := s.onScreen.erase key }

def closeShare (s : BrowseSessionStore) (share : ShareId) : BrowseSessionStore :=
  ((s.sessions.filter fun session => session.key.shareId = share).map BrowseSession.key).foldl
    close s

def finishTask (s : BrowseSessionStore) (j : Nat) : BrowseSessionStore :=
  { s with tasks := s.tasks.modify j EvictionTask.finish }

end BrowseSessionStore

inductive StoreAction where
  /-- A second passes. -/
  | tick
  /-- The app's browser appears. -/
  | openApp (key : SharedAppId)
  /-- The app's browser disappears. -/
  | resignActive (key : SharedAppId)
  | close (key : SharedAppId)
  /-- The share is being removed. -/
  | closeShare (share : ShareId)
  /-- An eviction task is past its sleep, which ends early when it is cancelled. -/
  | wake (task : Nat)
  deriving DecidableEq

def storeStep (s : BrowseSessionStore) : StoreAction -> Option BrowseSessionStore
  | StoreAction.tick => some { s with now := s.now + 1 }
  | StoreAction.openApp key => some (s.openApp key)
  | StoreAction.resignActive key => some (s.resignActive key)
  | StoreAction.close key => some (s.close key)
  | StoreAction.closeShare share => some (s.closeShare share)
  | StoreAction.wake j =>
      match s.tasks[j]? with
      | none => none
      | some task =>
          if task.isFinished then
            none
          else if task.isCancelled then
            some (s.finishTask j)
          else if s.now < task.due then
            none
          else if task.key ∈ s.onScreen then
            some (s.finishTask j)
          else
            some ((s.close task.key).finishTask j)

/-!
## What an operation does to the tasks
-/

namespace BrowseSessionStore

variable {s t : BrowseSessionStore} {key : SharedAppId} {j : Nat} {task : EvictionTask}

/-- A task that will close its app's session when its sleep is over. -/
def Pending (s : BrowseSessionStore) (j : Nat) (task : EvictionTask) : Prop :=
  s.tasks[j]? = some task ∧ task.isCancelled = false ∧ task.isFinished = false

/-- The pending tasks are those that the store has for their apps. -/
structure Scheduled (s : BrowseSessionStore) : Prop where
  mapped : forall key j, s.evictionTasks key = some j ->
    exists task, s.Pending j task ∧ task.key = key
  pending : forall j task, s.Pending j task -> s.evictionTasks task.key = some j

@[simp] theorem cancelEviction_now : (s.cancelEviction key).now = s.now := rfl

@[simp] theorem cancelEviction_sessions : (s.cancelEviction key).sessions = s.sessions := rfl

@[simp] theorem cancelEviction_onScreen : (s.cancelEviction key).onScreen = s.onScreen := rfl

@[simp] theorem cancelEviction_started : (s.cancelEviction key).started = s.started := rfl

@[simp] theorem cancelEviction_stopped : (s.cancelEviction key).stopped = s.stopped := rfl

@[simp] theorem cancelEviction_evictionTasks :
    (s.cancelEviction key).evictionTasks = Function.update s.evictionTasks key none := rfl

@[simp] theorem cancelEviction_session (other : SharedAppId) :
    (s.cancelEviction key).session other = s.session other := rfl

/-- After cancelling, the pending tasks are those of the other apps. -/
theorem pending_cancelEviction (hs : s.Scheduled) :
    (s.cancelEviction key).Pending j task <-> s.Pending j task ∧ task.key ≠ key := by
  unfold cancelEviction
  cases hkey : s.evictionTasks key with
  | none =>
      have hother : s.Pending j task -> task.key ≠ key := by
        intro h heq
        have hmap := hs.pending j task h
        rw [heq, hkey] at hmap
        cases hmap
      exact ⟨fun h => ⟨h, hother h⟩, And.left⟩
  | some k =>
      rcases hs.mapped key k hkey with ⟨old, hold, holdKey⟩
      constructor
      · intro h
        rcases (slot_modify_eq_some_iff hold.left).mp h.left with ⟨-, htask⟩ | ⟨hne, htask⟩
        · have hcancelled := h.right.left
          rw [htask] at hcancelled
          cases hcancelled
        · refine ⟨⟨htask, h.right⟩, ?_⟩
          intro heq
          have hmap := hs.pending j task ⟨htask, h.right⟩
          rw [heq, hkey] at hmap
          exact hne (Option.some.inj hmap).symm
      · intro h
        rcases h with ⟨hpending, hne⟩
        refine ⟨(slot_modify_eq_some_iff hold.left).mpr (Or.inr ⟨?_, hpending.left⟩),
          hpending.right⟩
        intro heq
        have hsame := hpending.left
        rw [heq, hold.left] at hsame
        cases hsame
        exact hne holdKey

theorem Scheduled.cancelEviction (hs : s.Scheduled) (key : SharedAppId) :
    (s.cancelEviction key).Scheduled where
  mapped := by
    intro other j h
    rw [cancelEviction_evictionTasks] at h
    by_cases heq : other = key
    · rw [heq, Function.update_self] at h
      cases h
    · rw [Function.update_of_ne heq] at h
      rcases hs.mapped other j h with ⟨task, hpending, htask⟩
      refine ⟨task, (pending_cancelEviction hs).mpr ⟨hpending, ?_⟩, htask⟩
      rw [htask]
      exact heq
  pending := by
    intro j task h
    rcases (pending_cancelEviction hs).mp h with ⟨hpending, hne⟩
    rw [cancelEviction_evictionTasks, Function.update_of_ne hne]
    exact hs.pending j task hpending

theorem pending_scheduleEviction (hs : s.Scheduled) :
    (s.scheduleEviction key).Pending j task <->
      (s.Pending j task ∧ task.key ≠ key) ∨
        (j = s.tasks.length ∧ task = ⟨key, s.now + warmTTL, false, false⟩) := by
  have hlength : (s.cancelEviction key).tasks.length = s.tasks.length := by
    unfold BrowseSessionStore.cancelEviction
    cases s.evictionTasks key with
    | none => rfl
    | some k => exact List.length_modify ..
  rw [← pending_cancelEviction hs]
  unfold Pending scheduleEviction
  rw [slot_append_eq_some_iff, hlength, cancelEviction_now]
  constructor
  · intro h
    rcases h with ⟨hold | hnew, hrest⟩
    · exact Or.inl ⟨hold, hrest⟩
    · exact Or.inr hnew
  · intro h
    rcases h with ⟨hold, hrest⟩ | ⟨hj, rfl⟩
    · exact ⟨Or.inl hold, hrest⟩
    · exact ⟨Or.inr ⟨hj, rfl⟩, rfl, rfl⟩

theorem Scheduled.scheduleEviction (hs : s.Scheduled) (key : SharedAppId) :
    (s.scheduleEviction key).Scheduled := by
  have hlength : (s.cancelEviction key).tasks.length = s.tasks.length := by
    unfold BrowseSessionStore.cancelEviction
    cases s.evictionTasks key with
    | none => rfl
    | some k => exact List.length_modify ..
  have hmap : (s.scheduleEviction key).evictionTasks =
      Function.update (s.cancelEviction key).evictionTasks key (some s.tasks.length) := by
    rw [← hlength]
    rfl
  constructor
  · intro other j h
    by_cases heq : other = key
    · rw [hmap, heq, Function.update_self] at h
      exact ⟨_, (pending_scheduleEviction hs).mpr (Or.inr ⟨(Option.some.inj h).symm, rfl⟩),
        heq.symm⟩
    · rw [hmap, Function.update_of_ne heq] at h
      rcases (hs.cancelEviction key).mapped other j h with ⟨task, hpending, htask⟩
      exact ⟨task,
        (pending_scheduleEviction hs).mpr (Or.inl ((pending_cancelEviction hs).mp hpending)), htask⟩
  · intro j task h
    rw [hmap]
    rcases (pending_scheduleEviction hs).mp h with ⟨hpending, hne⟩ | ⟨hj, htask⟩
    · rw [Function.update_of_ne hne]
      exact (hs.cancelEviction key).pending j task
        ((pending_cancelEviction hs).mpr ⟨hpending, hne⟩)
    · rw [htask, hj, Function.update_self]

/-- A task that was cancelled may finish. -/
theorem pending_finishTask {done : EvictionTask} {k : Nat} (hdone : s.tasks[k]? = some done)
    (hcancelled : done.isCancelled = true) :
    (s.finishTask k).Pending j task <-> s.Pending j task := by
  unfold Pending finishTask
  rw [slot_modify_eq_some_iff hdone]
  constructor
  · intro h
    rcases h with ⟨⟨-, htask⟩ | ⟨-, htask⟩, hrest⟩
    · have hnot := hrest.left
      rw [htask, show done.finish.isCancelled = done.isCancelled from rfl, hcancelled] at hnot
      cases hnot
    · exact ⟨htask, hrest⟩
  · intro h
    refine ⟨Or.inr ⟨?_, h.left⟩, h.right⟩
    intro heq
    have hsame := h.left
    rw [heq, hdone] at hsame
    cases hsame
    rw [hcancelled] at h
    cases h.right.left

/-!
## What an operation does to the sessions
-/

theorem session_eq_some_iff (hkeys : (s.sessions.map BrowseSession.key).Nodup)
    {session : BrowseSession} :
    s.session key = some session <-> session ∈ s.sessions ∧ session.key = key :=
  find_key_eq_some_iff hkeys

theorem session_eq_none_iff :
    s.session key = none <-> forall session, session ∈ s.sessions -> session.key ≠ key := by
  unfold BrowseSessionStore.session
  rw [List.find?_eq_none]
  simp only [decide_eq_true_eq]

/-- The session that is stopped is taken out of its place. -/
theorem removeSession_split {session : BrowseSession} (h : s.session key = some session) :
    exists front back, s.sessions = front ++ session :: back ∧
      (s.removeSession key).sessions = front ++ back ∧
      (s.removeSession key).stopped = s.stopped ++ [session.id] := by
  rcases List.find?_eq_some_iff_append.mp h with ⟨hkey, front, back, hsplit, hfront⟩
  refine ⟨front, back, hsplit, ?_, ?_⟩
  · unfold removeSession
    rw [h]
    show s.sessions.eraseP _ = _
    rw [hsplit, List.eraseP_append_right]
    · rw [List.eraseP_cons_of_pos]
      exact hkey
    · intro other hother
      have hne := hfront other hother
      simpa using hne
  · unfold removeSession
    rw [h]

theorem mem_removeSession (hkeys : (s.sessions.map BrowseSession.key).Nodup)
    {other : BrowseSession} :
    other ∈ (s.removeSession key).sessions <-> other ∈ s.sessions ∧ other.key ≠ key := by
  cases h : s.session key with
  | none =>
      have hsame : (s.removeSession key).sessions = s.sessions := by
        unfold removeSession
        rw [h]
      rw [hsame]
      exact ⟨fun hother => ⟨hother, session_eq_none_iff.mp h other hother⟩, And.left⟩
  | some session =>
      rcases removeSession_split h with ⟨front, back, hsplit, hrest, -⟩
      have hkey : session.key = key := ((session_eq_some_iff hkeys).mp h).right
      rw [hsplit, List.map_append, List.map_cons, List.nodup_middle, ← List.map_append] at hkeys
      rw [hrest, hsplit, List.mem_append, List.mem_append, List.mem_cons]
      constructor
      · intro hmem
        refine ⟨hmem.imp id Or.inr, ?_⟩
        intro heq
        refine (List.nodup_cons.mp hkeys).left ?_
        rw [hkey, ← heq]
        exact List.mem_map_of_mem (List.mem_append.mpr hmem)
      · intro hmem
        rcases hmem with ⟨hfront | rfl | hback, hne⟩
        · exact Or.inl hfront
        · exact absurd hkey hne
        · exact Or.inr hback

theorem nodup_removeSession (hkeys : (s.sessions.map BrowseSession.key).Nodup) :
    ((s.removeSession key).sessions.map BrowseSession.key).Nodup := by
  cases h : s.session key with
  | none =>
      unfold removeSession
      rw [h]
      exact hkeys
  | some session =>
      rcases removeSession_split h with ⟨front, back, hsplit, hrest, -⟩
      rw [hsplit, List.map_append, List.map_cons, List.nodup_middle, ← List.map_append] at hkeys
      rw [hrest]
      exact hkeys.of_cons

/-- The sessions that were ever started. -/
def ids (s : BrowseSessionStore) : List Nat :=
  s.sessions.map BrowseSession.id ++ s.stopped

theorem ids_removeSession : (s.removeSession key).ids.Perm s.ids := by
  unfold ids
  cases h : s.session key with
  | none =>
      unfold removeSession
      rw [h]
  | some session =>
      rcases removeSession_split h with ⟨front, back, hsplit, hrest, hstopped⟩
      rw [hrest, hstopped, hsplit, List.map_append, List.map_append, List.map_cons]
      have hmoved : (front.map BrowseSession.id ++ back.map BrowseSession.id ++
          (s.stopped ++ [session.id])).Perm
          (session.id ::
            (front.map BrowseSession.id ++ back.map BrowseSession.id ++ s.stopped)) := by
        rw [← List.append_assoc]
        exact List.perm_append_singleton _ _
      refine hmoved.trans ?_
      rw [← List.cons_append]
      exact List.Perm.append_right _ List.perm_middle.symm

theorem removeSession_tasks : (s.removeSession key).tasks = s.tasks := by
  unfold removeSession
  split <;> rfl

theorem removeSession_evictionTasks :
    (s.removeSession key).evictionTasks = s.evictionTasks := by
  unfold removeSession
  split <;> rfl

theorem removeSession_onScreen : (s.removeSession key).onScreen = s.onScreen := by
  unfold removeSession
  split <;> rfl

theorem removeSession_started : (s.removeSession key).started = s.started := by
  unfold removeSession
  split <;> rfl

theorem removeSession_now : (s.removeSession key).now = s.now := by
  unfold removeSession
  split <;> rfl

/-!
## Every operation keeps the store tidy
-/

/-- What holds between the calls: an app has one session at most, what is on screen is warm, and a
session that is off the screen has a task to close it. -/
structure Tidy (s : BrowseSessionStore) : Prop where
  scheduled : s.Scheduled
  keys : (s.sessions.map BrowseSession.key).Nodup
  ids : s.ids.Perm (List.range s.started)
  shown : forall key, key ∈ s.onScreen ->
    s.evictionTasks key = none ∧ exists session, session ∈ s.sessions ∧ session.key = key
  waits : forall session, session ∈ s.sessions -> session.key ∉ s.onScreen ->
    s.evictionTasks session.key ≠ none

theorem Tidy.of_now (hs : s.Tidy) (now : Nat) : { s with now := now }.Tidy :=
  ⟨⟨hs.scheduled.mapped, hs.scheduled.pending⟩, hs.keys, hs.ids, hs.shown, hs.waits⟩

theorem mem_close (hs : s.Tidy) {other : BrowseSession} :
    other ∈ (s.close key).sessions <-> other ∈ s.sessions ∧ other.key ≠ key :=
  mem_removeSession (s := s.cancelEviction key) hs.keys

theorem pending_close (hs : s.Tidy) :
    (s.close key).Pending j task <-> s.Pending j task ∧ task.key ≠ key := by
  rw [← pending_cancelEviction hs.scheduled]
  unfold Pending
  rw [show (s.close key).tasks = (s.cancelEviction key).tasks from removeSession_tasks]

theorem close_evictionTasks :
    (s.close key).evictionTasks = Function.update s.evictionTasks key none :=
  removeSession_evictionTasks

theorem close_onScreen : (s.close key).onScreen = s.onScreen.erase key := by
  show ((s.cancelEviction key).removeSession key).onScreen.erase key = _
  rw [removeSession_onScreen, cancelEviction_onScreen]

theorem close_now : (s.close key).now = s.now :=
  removeSession_now

theorem Tidy.close (hs : s.Tidy) (key : SharedAppId) : (s.close key).Tidy where
  scheduled := by
    have hcancelled := hs.scheduled.cancelEviction key
    have hpending : forall j task, (s.close key).Pending j task <->
        (s.cancelEviction key).Pending j task := by
      intro j task
      rw [pending_close hs, pending_cancelEviction hs.scheduled]
    have hmap : (s.close key).evictionTasks = (s.cancelEviction key).evictionTasks :=
      close_evictionTasks
    constructor
    · intro other j h
      rw [hmap] at h
      rcases hcancelled.mapped other j h with ⟨task, htask, hkey⟩
      exact ⟨task, (hpending j task).mpr htask, hkey⟩
    · intro j task h
      rw [hmap]
      exact hcancelled.pending j task ((hpending j task).mp h)
  keys := nodup_removeSession (s := s.cancelEviction key) hs.keys
  ids := by
    have hstarted : (s.close key).started = s.started := removeSession_started
    rw [hstarted]
    exact (ids_removeSession (s := s.cancelEviction key)).trans hs.ids
  shown := by
    intro other hother
    rw [close_onScreen] at hother
    rcases Finset.mem_erase.mp hother with ⟨hne, hmem⟩
    rcases hs.shown other hmem with ⟨hnone, session, hsession, hkey⟩
    rw [close_evictionTasks, Function.update_of_ne hne]
    refine ⟨hnone, session, (mem_close hs).mpr ⟨hsession, ?_⟩, hkey⟩
    rw [hkey]
    exact hne
  waits := by
    intro session hsession hoff
    rcases (mem_close hs).mp hsession with ⟨hmem, hne⟩
    rw [close_evictionTasks, Function.update_of_ne hne]
    refine hs.waits session hmem ?_
    intro hon
    rw [close_onScreen] at hoff
    exact hoff (Finset.mem_erase.mpr ⟨hne, hon⟩)

theorem Tidy.finishTask (hs : s.Tidy) {done : EvictionTask} {k : Nat}
    (hdone : s.tasks[k]? = some done) (hcancelled : done.isCancelled = true) :
    (s.finishTask k).Tidy := by
  refine ⟨?_, hs.keys, hs.ids, hs.shown, hs.waits⟩
  constructor
  · intro key j h
    rcases hs.scheduled.mapped key j h with ⟨task, htask, hkey⟩
    exact ⟨task, (pending_finishTask hdone hcancelled).mpr htask, hkey⟩
  · intro j task h
    exact hs.scheduled.pending j task ((pending_finishTask hdone hcancelled).mp h)

theorem Tidy.resignActive (hs : s.Tidy) (key : SharedAppId) : (s.resignActive key).Tidy where
  scheduled := Scheduled.scheduleEviction (s := { s with onScreen := s.onScreen.erase key })
    ⟨hs.scheduled.mapped, hs.scheduled.pending⟩ key
  keys := hs.keys
  ids := hs.ids
  shown := by
    intro other hother
    rcases Finset.mem_erase.mp (show other ∈ s.onScreen.erase key from hother) with ⟨hne, hmem⟩
    refine ⟨?_, (hs.shown other hmem).right⟩
    show Function.update (Function.update s.evictionTasks key none) key _ other = none
    rw [Function.update_of_ne hne, Function.update_of_ne hne]
    exact (hs.shown other hmem).left
  waits := by
    intro session hsession hoff
    show Function.update (Function.update s.evictionTasks key none) key _ session.key ≠ none
    by_cases heq : session.key = key
    · rw [heq, Function.update_self]
      exact Option.some_ne_none _
    · rw [Function.update_of_ne heq, Function.update_of_ne heq]
      refine hs.waits session hsession ?_
      intro hon
      exact hoff (Finset.mem_erase.mpr ⟨heq, hon⟩)

/-- An app whose session is there, or was just started, comes on screen. -/
theorem tidy_markActive (hscheduled : s.Scheduled)
    (hkeys : (s.sessions.map BrowseSession.key).Nodup) (hids : s.ids.Perm (List.range s.started))
    (hshown : forall other, other ∈ insert key s.onScreen ->
      exists session, session ∈ s.sessions ∧ session.key = other)
    (hnone : forall other, other ∈ s.onScreen -> s.evictionTasks other = none)
    (hwaits : forall session, session ∈ s.sessions -> session.key ≠ key ->
      session.key ∉ s.onScreen -> s.evictionTasks session.key ≠ none) :
    (s.markActive key).Tidy where
  scheduled := ⟨(hscheduled.cancelEviction key).mapped, (hscheduled.cancelEviction key).pending⟩
  keys := hkeys
  ids := hids
  shown := by
    intro other hother
    refine ⟨?_, hshown other hother⟩
    show Function.update s.evictionTasks key none other = none
    by_cases heq : other = key
    · rw [heq, Function.update_self]
    · rw [Function.update_of_ne heq]
      rcases Finset.mem_insert.mp (show other ∈ insert key s.onScreen from hother) with h | h
      · exact absurd h heq
      · exact hnone other h
  waits := by
    intro session hsession hoff
    rcases not_or.mp (fun h => hoff (Finset.mem_insert.mpr h)) with ⟨hne, hold⟩
    show Function.update s.evictionTasks key none session.key ≠ none
    rw [Function.update_of_ne hne]
    exact hwaits session hsession hne hold

theorem Tidy.openApp (hs : s.Tidy) (key : SharedAppId) : (s.openApp key).Tidy := by
  unfold BrowseSessionStore.openApp
  cases hsession : s.session key with
  | some session =>
      have hfound := (session_eq_some_iff hs.keys).mp hsession
      refine tidy_markActive hs.scheduled hs.keys hs.ids ?_ (fun other h => (hs.shown other h).left)
        (fun session hmem _ => hs.waits session hmem)
      intro other hother
      rcases Finset.mem_insert.mp hother with rfl | hold
      · exact ⟨session, hfound⟩
      · exact (hs.shown other hold).right
  | none =>
      have hnone := session_eq_none_iff.mp hsession
      refine tidy_markActive (s := s.start key) ⟨hs.scheduled.mapped, hs.scheduled.pending⟩
        ?_ ?_ ?_ (fun other h => (hs.shown other h).left) ?_
      · show ((s.sessions ++ [_]).map BrowseSession.key).Nodup
        rw [List.map_append, List.nodup_append]
        refine ⟨hs.keys, List.nodup_singleton _, ?_⟩
        intro other hother new hnew heq
        rcases List.mem_map.mp hother with ⟨session, hmem, rfl⟩
        exact hnone session hmem (heq.trans (List.mem_singleton.mp hnew))
      · show ((s.sessions ++ [_]).map BrowseSession.id ++ s.stopped).Perm
          (List.range (s.started + 1))
        rw [List.map_append, List.append_assoc, List.range_succ]
        refine List.perm_middle.trans ?_
        exact (List.Perm.cons _ hs.ids).trans (List.perm_append_singleton _ _).symm
      · intro other hother
        rcases Finset.mem_insert.mp hother with rfl | hold
        · exact ⟨_, List.mem_append_right _ (List.mem_singleton_self _), rfl⟩
        · rcases (hs.shown other hold).right with ⟨session, hmem, hkey⟩
          exact ⟨session, List.mem_append_left _ hmem, hkey⟩
      · intro session hmem hne hoff
        rcases List.mem_append.mp hmem with hold | hnew
        · exact hs.waits session hold hoff
        · rw [List.mem_singleton.mp hnew] at hne
          exact absurd rfl hne

/-- Several apps are closed, one after the other. -/
theorem Tidy.closeAll (hs : s.Tidy) (keys : List SharedAppId) :
    (keys.foldl BrowseSessionStore.close s).Tidy ∧
      (keys.foldl BrowseSessionStore.close s).now = s.now ∧
      (forall session, session ∈ (keys.foldl BrowseSessionStore.close s).sessions <->
        session ∈ s.sessions ∧ session.key ∉ keys) ∧
      (forall j task, (keys.foldl BrowseSessionStore.close s).Pending j task ->
        s.Pending j task) := by
  induction keys generalizing s with
  | nil => exact ⟨hs, rfl, by simp, fun _ _ h => h⟩
  | cons key rest ih =>
      rcases ih (hs.close key) with ⟨htidy, hnow, hmem, hpending⟩
      refine ⟨htidy, hnow.trans close_now, ?_, ?_⟩
      · intro session
        rw [List.foldl_cons, hmem session, mem_close hs, List.mem_cons, not_or, and_assoc]
      · intro j task h
        exact ((pending_close hs).mp (hpending j task h)).left

theorem mem_closeShare (hs : s.Tidy) {share : ShareId} {session : BrowseSession}
    (hmem : session ∈ s.sessions) (hne : session.key.shareId ≠ share) :
    session ∈ (s.closeShare share).sessions := by
  refine ((hs.closeAll _).right.right.left session).mpr ⟨hmem, ?_⟩
  intro hkey
  rcases List.mem_map.mp hkey with ⟨other, hother, heq⟩
  rcases List.mem_filter.mp hother with ⟨-, hshare⟩
  rw [heq] at hshare
  exact hne (of_decide_eq_true hshare)

/-- A pending task is not of an app on screen. -/
theorem Tidy.pending_offScreen (hs : s.Tidy) (h : s.Pending j task) : task.key ∉ s.onScreen := by
  intro hon
  have hmap := hs.scheduled.pending j task h
  rw [(hs.shown task.key hon).left] at hmap
  cases hmap

/-- Closing an app cancels its task. -/
theorem close_tasks (hs : s.Tidy) (h : s.Pending j task) :
    (s.close task.key).tasks[j]? = some task.cancel := by
  have htasks : (s.close task.key).tasks = (s.cancelEviction task.key).tasks := removeSession_tasks
  rw [htasks]
  unfold cancelEviction
  rw [hs.scheduled.pending j task h]
  exact (slot_modify_eq_some_iff h.left).mpr (Or.inl ⟨rfl, rfl⟩)

end BrowseSessionStore

/-!
## Steps of the store
-/

section
variable {s t : BrowseSessionStore} {a : StoreAction} {j : Nat} {task : EvictionTask}

open BrowseSessionStore

/-- A task wakes: it was cancelled, or its app goes. -/
theorem storeStep_wake (hs : s.Tidy) (h : storeStep s (StoreAction.wake j) = some t) :
    exists task, s.tasks[j]? = some task ∧
      ((task.isCancelled = true ∧ t = s.finishTask j) ∨
        (s.Pending j task ∧ task.due ≤ s.now ∧ t = (s.close task.key).finishTask j)) := by
  cases hj : s.tasks[j]? with
  | none =>
      simp only [storeStep, hj] at h
      cases h
  | some task =>
      simp only [storeStep, hj] at h
      refine ⟨task, rfl, ?_⟩
      by_cases hfinished : task.isFinished
      · rw [if_pos hfinished] at h
        cases h
      by_cases hcancelled : task.isCancelled
      · rw [if_neg hfinished, if_pos hcancelled] at h
        cases h
        exact Or.inl ⟨hcancelled, rfl⟩
      have hpending : s.Pending j task :=
        ⟨hj, Bool.eq_false_iff.mpr hcancelled, Bool.eq_false_iff.mpr hfinished⟩
      by_cases hdue : s.now < task.due
      · rw [if_neg hfinished, if_neg hcancelled, if_pos hdue] at h
        cases h
      rw [if_neg hfinished, if_neg hcancelled, if_neg hdue,
        if_neg (hs.pending_offScreen hpending)] at h
      cases h
      exact Or.inr ⟨hpending, Nat.le_of_not_lt hdue, rfl⟩

theorem storeStep_tidy (hs : s.Tidy) (h : storeStep s a = some t) : t.Tidy := by
  cases a with
  | tick =>
      cases h
      exact hs.of_now _
  | openApp key =>
      cases h
      exact hs.openApp key
  | resignActive key =>
      cases h
      exact hs.resignActive key
  | close key =>
      cases h
      exact hs.close key
  | closeShare share =>
      cases h
      exact (hs.closeAll _).left
  | wake j =>
      rcases storeStep_wake hs h with ⟨task, hj, ⟨hcancelled, rfl⟩ | ⟨hpending, -, rfl⟩⟩
      · exact hs.finishTask hj hcancelled
      · exact (hs.close task.key).finishTask (close_tasks hs hpending) rfl

theorem storeStep_now (hs : s.Tidy) (h : storeStep s a = some t) :
    t.now = s.now + [a].count StoreAction.tick := by
  cases a with
  | tick =>
      cases h
      rfl
  | openApp key =>
      cases h
      unfold BrowseSessionStore.openApp
      cases s.session key with
      | some session => rfl
      | none => rfl
  | resignActive key =>
      cases h
      rfl
  | close key =>
      cases h
      exact close_now
  | closeShare share =>
      cases h
      exact (hs.closeAll _).right.left
  | wake j =>
      rcases storeStep_wake hs h with ⟨task, -, ⟨-, rfl⟩ | ⟨-, -, rfl⟩⟩
      · rfl
      · exact close_now

/-- A pending task was pending before, its app left alone, or its app just left the screen. -/
theorem pending_storeStep (hs : s.Tidy) (h : storeStep s a = some t) (hp : t.Pending j task) :
    (s.Pending j task ∧ a ≠ StoreAction.openApp task.key ∧ a ≠ StoreAction.resignActive task.key) ∨
      (a = StoreAction.resignActive task.key ∧ task.due = s.now + warmTTL) := by
  cases a with
  | tick =>
      cases h
      exact Or.inl ⟨hp, nofun, nofun⟩
  | openApp key =>
      cases h
      have hcancelled : (s.cancelEviction key).Pending j task := by
        unfold BrowseSessionStore.openApp at hp
        cases hsession : s.session key with
        | some session =>
            rw [hsession] at hp
            exact hp
        | none =>
            rw [hsession] at hp
            exact hp
      rcases (pending_cancelEviction hs.scheduled).mp hcancelled with ⟨hpending, hne⟩
      refine Or.inl ⟨hpending, ?_, nofun⟩
      intro heq
      cases heq
      exact hne rfl
  | resignActive key =>
      cases h
      rcases (pending_scheduleEviction (s := { s with onScreen := s.onScreen.erase key })
        ⟨hs.scheduled.mapped, hs.scheduled.pending⟩).mp hp with ⟨hpending, hne⟩ | ⟨-, rfl⟩
      · refine Or.inl ⟨hpending, nofun, ?_⟩
        intro heq
        cases heq
        exact hne rfl
      · exact Or.inr ⟨rfl, rfl⟩
  | close key =>
      cases h
      exact Or.inl ⟨((pending_close hs).mp hp).left, nofun, nofun⟩
  | closeShare share =>
      cases h
      exact Or.inl ⟨(hs.closeAll _).right.right.right j task hp, nofun, nofun⟩
  | wake k =>
      rcases storeStep_wake hs h with ⟨done, hk, ⟨hcancelled, rfl⟩ | ⟨hpending, -, rfl⟩⟩
      · exact Or.inl ⟨(pending_finishTask hk hcancelled).mp hp, nofun, nofun⟩
      · have hclosed := (pending_finishTask (close_tasks hs hpending) rfl).mp hp
        exact Or.inl ⟨((pending_close hs).mp hclosed).left, nofun, nofun⟩

/-- A session stays, unless it is closed, or a task closes it whose sleep is over. -/
theorem session_storeStep (hs : s.Tidy) (h : storeStep s a = some t) {session : BrowseSession}
    (hmem : session ∈ s.sessions) :
    session ∈ t.sessions ∨ a = StoreAction.close session.key ∨
      a = StoreAction.closeShare session.key.shareId ∨
      exists j task, a = StoreAction.wake j ∧ s.Pending j task ∧ task.key = session.key ∧
        task.due ≤ s.now := by
  cases a with
  | tick =>
      cases h
      exact Or.inl hmem
  | openApp key =>
      cases h
      unfold BrowseSessionStore.openApp
      cases s.session key with
      | some other => exact Or.inl hmem
      | none => exact Or.inl (List.mem_append_left _ hmem)
  | resignActive key =>
      cases h
      exact Or.inl hmem
  | close key =>
      cases h
      by_cases heq : session.key = key
      · exact Or.inr (Or.inl (by rw [heq]))
      · exact Or.inl ((mem_close hs).mpr ⟨hmem, heq⟩)
  | closeShare share =>
      cases h
      by_cases heq : session.key.shareId = share
      · exact Or.inr (Or.inr (Or.inl (by rw [heq])))
      · exact Or.inl (mem_closeShare hs hmem heq)
  | wake k =>
      rcases storeStep_wake hs h with ⟨task, -, ⟨-, rfl⟩ | ⟨hpending, hdue, rfl⟩⟩
      · exact Or.inl hmem
      · by_cases heq : session.key = task.key
        · exact Or.inr (Or.inr (Or.inr ⟨k, task, rfl, hpending, heq.symm, hdue⟩))
        · exact Or.inl ((mem_close hs).mpr ⟨hmem, heq⟩)

/-- A pending task can wake just when its sleep is over, and its app is not warm then. -/
theorem storeStep_wake_pending (hs : s.Tidy) (hp : s.Pending j task) :
    ((storeStep s (StoreAction.wake j)).isSome <-> task.due ≤ s.now) ∧
      forall t, storeStep s (StoreAction.wake j) = some t -> t.isWarm task.key = false := by
  constructor
  · simp only [storeStep, hp.left, hp.right.left, hp.right.right, Bool.false_eq_true, if_false,
      if_neg (hs.pending_offScreen hp)]
    by_cases hdue : s.now < task.due
    · rw [if_pos hdue]
      exact ⟨nofun, fun h => absurd hdue (Nat.not_lt.mpr h)⟩
    · rw [if_neg hdue]
      exact ⟨fun _ => Nat.le_of_not_lt hdue, fun _ => rfl⟩
  · intro t h
    rcases storeStep_wake hs h with ⟨woken, hj, ⟨hcancelled, -⟩ | ⟨-, -, rfl⟩⟩
    · rw [hp.left] at hj
      cases hj
      rw [hp.right.left] at hcancelled
      cases hcancelled
    · rw [hp.left] at hj
      cases hj
      refine List.any_eq_false.mpr ?_
      intro session hsession hkey
      exact ((mem_close hs).mp hsession).right (of_decide_eq_true hkey)

end

/-!
## Runs of the store
-/

/-- The app's browser disappeared at that time, and did not appear or disappear since. -/
def LeftScreen (past : List StoreAction) (key : SharedAppId) (time : Nat) : Prop :=
  exists before after, past = before ++ StoreAction.resignActive key :: after ∧
    StoreAction.openApp key ∉ after ∧ StoreAction.resignActive key ∉ after ∧
    time = before.count StoreAction.tick

theorem LeftScreen.snoc {past : List StoreAction} {key : SharedAppId} {time : Nat}
    (h : LeftScreen past key time) {a : StoreAction} (hopen : a ≠ StoreAction.openApp key)
    (hresign : a ≠ StoreAction.resignActive key) : LeftScreen (past ++ [a]) key time := by
  rcases h with ⟨before, after, rfl, hnoOpen, hnoResign, htime⟩
  refine ⟨before, after ++ [a], by simp, ?_, ?_, htime⟩
  · intro hmem
    rcases List.mem_append.mp hmem with hmem | hmem
    · exact hnoOpen hmem
    · exact hopen (List.mem_singleton.mp hmem).symm
  · intro hmem
    rcases List.mem_append.mp hmem with hmem | hmem
    · exact hnoResign hmem
    · exact hresign (List.mem_singleton.mp hmem).symm

/-- The store is tidy, and its tasks sleep since their apps left the screen. -/
structure Timed (past : List StoreAction) (s : BrowseSessionStore) : Prop where
  tidy : s.Tidy
  now : s.now = past.count StoreAction.tick
  left : forall j task, s.Pending j task ->
    exists time, LeftScreen past task.key time ∧ task.due = time + warmTTL

theorem timed_launched : Timed [] BrowseSessionStore.launched where
  tidy := by
    refine ⟨⟨nofun, ?_⟩, List.nodup_nil, List.Perm.refl _, ?_, nofun⟩
    · intro j task h
      exact absurd h.left nofun
    · intro key h
      exact absurd h (Finset.notMem_empty key)
  now := rfl
  left := fun j task h => absurd h.left nofun

theorem Timed.step {past : List StoreAction} {s t : BrowseSessionStore} {a : StoreAction}
    (hs : Timed past s) (h : storeStep s a = some t) : Timed (past ++ [a]) t where
  tidy := storeStep_tidy hs.tidy h
  now := by
    rw [storeStep_now hs.tidy h, hs.now, List.count_append]
  left := by
    intro j task hpending
    rcases pending_storeStep hs.tidy h hpending with ⟨hold, hopen, hresign⟩ | ⟨rfl, hdue⟩
    · rcases hs.left j task hold with ⟨time, hleft, hdue⟩
      exact ⟨time, hleft.snoc hopen hresign, hdue⟩
    · refine ⟨s.now, ⟨past, [], rfl, List.not_mem_nil, List.not_mem_nil, hs.now⟩, hdue⟩

theorem timed_of_run {acts : List StoreAction} {s : BrowseSessionStore}
    (hrun : Run storeStep BrowseSessionStore.launched acts s) : Timed acts s :=
  hrun.invariant_of_past (C := fun _ _ => True) (I := Timed) timed_launched
    (fun _ _ _ _ _ hs _ h => hs.step h) (meets_of_forall (fun _ _ _ => trivial) _)

/-- A session on screen outlasts what comes within the time to live. -/
theorem kept_of_run {s t : BrowseSessionStore} {later : List StoreAction}
    {session : BrowseSession} (hrun : Run storeStep s later t) (hs : s.Tidy)
    (hmem : session ∈ s.sessions)
    (hpending : forall j task, s.Pending j task -> task.key = session.key ->
      s.now + later.count StoreAction.tick < task.due)
    (hshort : later.count StoreAction.tick < warmTTL)
    (hclose : StoreAction.close session.key ∉ later)
    (hshare : StoreAction.closeShare session.key.shareId ∉ later) : session ∈ t.sessions := by
  induction hrun with
  | nil s => exact hmem
  | @cons s mid t a rest hstep _ ih =>
      have hcount : (a :: rest).count StoreAction.tick =
          [a].count StoreAction.tick + rest.count StoreAction.tick := by
        rw [← List.count_append]
        rfl
      rw [hcount] at hshort hpending
      have hnow := storeStep_now hs hstep
      refine ih (storeStep_tidy hs hstep) ?_ ?_ (by omega)
        (fun h => hclose (List.mem_cons_of_mem a h)) (fun h => hshare (List.mem_cons_of_mem a h))
      · rcases session_storeStep hs hstep hmem with hstays | rfl | rfl | hwoken
        · exact hstays
        · exact absurd (List.mem_cons_self ..) hclose
        · exact absurd (List.mem_cons_self ..) hshare
        · rcases hwoken with ⟨j, task, -, htask, hkey, hdue⟩
          have hlater := hpending j task htask hkey
          omega
      · intro j task htask hkey
        rcases pending_storeStep hs hstep htask with ⟨hold, -, -⟩ | ⟨-, hdue⟩
        · have hlater := hpending j task hold hkey
          omega
        · omega

/-- What the user of the roster and the browser sees of the store. -/
structure WarmApps (past : List StoreAction) (s : BrowseSessionStore) : Prop where
  /-- An app has one session at most. -/
  one : (s.sessions.map BrowseSession.key).Nodup
  /-- Each session that was started is there or was stopped, once. -/
  stopped : (s.sessions.map BrowseSession.id ++ s.stopped).Perm (List.range s.started)
  shown : forall key, key ∈ s.onScreen -> s.isWarm key = true
  /-- What removes a session: its app or share is closed, or it was off the screen for long. -/
  removed : forall a t session, storeStep s a = some t -> session ∈ s.sessions ->
    session ∉ t.sessions ->
      a = StoreAction.close session.key ∨ a = StoreAction.closeShare session.key.shareId ∨
        (session.key ∉ s.onScreen ∧ exists time, LeftScreen past session.key time ∧
          time + warmTTL ≤ past.count StoreAction.tick)
  /-- A session that is off the screen has a task that can close it from then on. -/
  evicted : forall session, session ∈ s.sessions -> session.key ∉ s.onScreen ->
    exists j time, LeftScreen past session.key time ∧
      ((storeStep s (StoreAction.wake j)).isSome <->
        time + warmTTL ≤ past.count StoreAction.tick) ∧
      forall t, storeStep s (StoreAction.wake j) = some t -> t.isWarm session.key = false
  /-- An app that is back within the time to live finds the session it had. -/
  kept : forall later t session, Run storeStep s later t -> session ∈ s.sessions ->
    session.key ∈ s.onScreen -> later.count StoreAction.tick < warmTTL ->
      StoreAction.close session.key ∉ later ->
      StoreAction.closeShare session.key.shareId ∉ later -> session ∈ t.sessions

theorem Timed.warmApps {past : List StoreAction} {s : BrowseSessionStore} (hs : Timed past s) :
    WarmApps past s where
  one := hs.tidy.keys
  stopped := hs.tidy.ids
  shown := by
    intro key hkey
    rcases (hs.tidy.shown key hkey).right with ⟨session, hmem, heq⟩
    exact List.any_eq_true.mpr ⟨session, hmem, decide_eq_true heq⟩
  removed := by
    intro a t session hstep hmem hgone
    rcases session_storeStep hs.tidy hstep hmem with hstays | hclose | hshare | hwoken
    · exact absurd hstays hgone
    · exact Or.inl hclose
    · exact Or.inr (Or.inl hshare)
    · rcases hwoken with ⟨j, task, -, hpending, hkey, hdue⟩
      rcases hs.left j task hpending with ⟨time, hleft, htime⟩
      rw [← hkey]
      refine Or.inr (Or.inr ⟨hs.tidy.pending_offScreen hpending, time, hleft, ?_⟩)
      rw [← htime, ← hs.now]
      exact hdue
  evicted := by
    intro session hmem hoff
    rcases Option.ne_none_iff_exists'.mp (hs.tidy.waits session hmem hoff) with ⟨j, hj⟩
    rcases hs.tidy.scheduled.mapped session.key j hj with ⟨task, hpending, hkey⟩
    rcases hs.left j task hpending with ⟨time, hleft, htime⟩
    have hwake := storeStep_wake_pending hs.tidy hpending
    rw [htime, hs.now, hkey] at hwake
    rw [hkey] at hleft
    exact ⟨j, time, hleft, hwake⟩
  kept := by
    intro later t session hlater hmem hon hshort hclose hshare
    refine kept_of_run hlater hs.tidy hmem ?_ hshort hclose hshare
    intro j task hpending hkey
    have hnot := hs.tidy.pending_offScreen hpending
    rw [hkey] at hnot
    exact absurd hon hnot

/-- In every run of the store, apps are kept warm for as long as they should be and no longer. -/
theorem apps_are_kept_warm {acts : List StoreAction} {s : BrowseSessionStore}
    (hrun : Run storeStep BrowseSessionStore.launched acts s) : WarmApps acts s :=
  (timed_of_run hrun).warmApps

/-- An app that is opened, left and opened again while another one is left. -/
def switchRun : List StoreAction :=
  let wiki : SharedAppId := ⟨Guest.firstShare, "wiki"⟩
  let git : SharedAppId := ⟨Guest.firstShare, "git"⟩
  [StoreAction.openApp wiki, StoreAction.resignActive wiki, StoreAction.openApp git,
    StoreAction.tick, StoreAction.resignActive git, StoreAction.openApp wiki, StoreAction.wake 0]

/-- The wiki's first task was cancelled, and the git session waits for the second one. -/
theorem switched_apps_are_warm :
    exists s, Run storeStep BrowseSessionStore.launched switchRun s ∧
      s.sessions.map BrowseSession.id = [0, 1] ∧ WarmApps switchRun s :=
  ⟨_, run_iff_exec.mpr rfl, rfl, apps_are_kept_warm (run_iff_exec.mpr rfl)⟩

end Ios
end WispersAccess
