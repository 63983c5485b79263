import WispersAccess.Foundation.ActionSystem
import WispersAccess.Foundation.OnceMap
import WispersAccess.Guest.Storage

/-!
# The connection cache

A transport keeps its connection to the host node in a cell, and the cell in a
slot.  Tasks take the cell out of the slot to open streams on its connection and
to probe it; the first that finds it empty dials, and the others wait for that
dial.  Whoever sees the connection fail puts a new cell into the slot, if the
slot still holds the one it has.
-/

namespace WispersAccess
namespace Guest

open Foundation

/-!
## The system
-/

/-- A dial to the host node, and the connection it leads to if it succeeds.  Both go by the
dial's place in the history. -/
structure Dial where
  caller : Nat
  cell : Nat
  connected : Bool
  deriving DecidableEq, Repr

inductive CacheTask where
  | openStream
  | checkConnection
  deriving DecidableEq, Repr

inductive CachePhase where
  | started
  /-- `cached_connection` has taken the cell. -/
  | looking (cell : Nat)
  /-- A stream is being opened on a cached connection, or it is being probed. -/
  | onCached (cell conn : Nat)
  /-- There is no cached connection that works. -/
  | redialling
  /-- `cached_connection_or_dial` has taken the cell. -/
  | waiting (cell : Nat)
  | dialling (cell dial : Nat)
  /-- A stream is being opened on the connection that was dialled. -/
  | onDialled (cell conn : Nat)
  /-- The connection was seen to fail; whether the task then goes on to dial. -/
  | evicting (cell conn : Nat) (again : Bool)
  | returned
  deriving DecidableEq, Repr

structure CacheCall where
  task : CacheTask
  phase : CachePhase
  deriving DecidableEq, Repr

structure ConnectionCache where
  cells : OnceMap Unit Nat
  dials : List Dial
  calls : List CacheCall

inductive CacheEvent where
  /-- Take the cell in the slot. -/
  | takeCell
  | lookInside
  /-- The cell was filled meanwhile. -/
  | foundFilled
  | startDial
  | dialled
  | dialFails
  /-- The stream is open, or the probe answered. -/
  | succeeds
  /-- The stream is open, but the host node has closed the connection for good. -/
  | closedMeanwhile
  /-- The connection fails, and the host node may have closed it for good. -/
  | fails (terminal : Bool)
  | timesOut
  | evict
  /-- The caller loses interest. -/
  | cancel
  deriving DecidableEq, Repr

inductive CacheAction where
  | start (task : CacheTask)
  | call (i : Nat) (event : CacheEvent)
  | dropConnection
  deriving DecidableEq, Repr

namespace ConnectionCache

def start : ConnectionCache where
  cells := (OnceMap.empty.entryOrDefault ()).1
  dials := []
  calls := []

/-- The cell in the slot. -/
def slot (s : ConnectionCache) : Option Nat :=
  s.cells.entry ()

/-- The call goes on to a phase. -/
def goes (s : ConnectionCache) (i : Nat) (call : CacheCall) (phase : CachePhase) :
    ConnectionCache :=
  { s with calls := s.calls.set i { call with phase := phase } }

/-- `evict`: only the cell that failed is replaced. -/
def evictCell (s : ConnectionCache) (cell : Nat) : ConnectionCache :=
  if s.slot = some cell then { s with cells := s.cells.renew () } else s

/-- A step of a call.  Only Iroh looks at a connection again once a stream is open on it. -/
def cacheEvent (transport : Transport) (s : ConnectionCache) (i : Nat) (call : CacheCall) :
    CacheEvent -> Option ConnectionCache
  | CacheEvent.takeCell =>
      match call.phase with
      | CachePhase.started => s.slot.map fun cell => s.goes i call (CachePhase.looking cell)
      | CachePhase.redialling => s.slot.map fun cell => s.goes i call (CachePhase.waiting cell)
      | _ => none
  | CacheEvent.lookInside =>
      match call.phase with
      | CachePhase.looking cell =>
          match s.cells.value cell, call.task with
          | some conn, _ => some (s.goes i call (CachePhase.onCached cell conn))
          | none, CacheTask.openStream => some (s.goes i call CachePhase.redialling)
          | none, CacheTask.checkConnection => some (s.goes i call CachePhase.returned)
      | _ => none
  | CacheEvent.foundFilled =>
      match call.phase with
      | CachePhase.waiting cell =>
          (s.cells.value cell).map fun conn => s.goes i call (CachePhase.onDialled cell conn)
      | _ => none
  | CacheEvent.startDial =>
      match call.phase with
      | CachePhase.waiting cell =>
          (s.cells.acquire cell i).map fun cells =>
            ({ s with
              cells := cells
              dials := s.dials ++ [{ caller := i, cell := cell, connected := false }]
            } : ConnectionCache).goes i call (CachePhase.dialling cell s.dials.length)
      | _ => none
  | CacheEvent.dialled =>
      match call.phase with
      | CachePhase.dialling cell dial =>
          some (({ s with
            cells := s.cells.fill cell dial
            dials := s.dials.modify dial fun d => { d with connected := true }
          } : ConnectionCache).goes i call (CachePhase.onDialled cell dial))
      | _ => none
  | CacheEvent.dialFails =>
      match call.phase with
      | CachePhase.dialling cell _ =>
          some (({ s with cells := s.cells.release cell } : ConnectionCache).goes i call
            CachePhase.returned)
      | _ => none
  | CacheEvent.succeeds =>
      match call.phase with
      | CachePhase.onCached _ _ => some (s.goes i call CachePhase.returned)
      | CachePhase.onDialled _ _ => some (s.goes i call CachePhase.returned)
      | _ => none
  | CacheEvent.closedMeanwhile =>
      if transport = Transport.iroh ∧ call.task = CacheTask.openStream then
        match call.phase with
        | CachePhase.onCached _ _ => some (s.goes i call CachePhase.returned)
        | CachePhase.onDialled _ _ => some (s.goes i call CachePhase.returned)
        | _ => none
      else none
  | CacheEvent.fails terminal =>
      match call.phase with
      | CachePhase.onCached cell conn =>
          some (s.goes i call (CachePhase.evicting cell conn
            (call.task = CacheTask.openStream && !terminal)))
      | CachePhase.onDialled cell conn =>
          some (s.goes i call (CachePhase.evicting cell conn false))
      | _ => none
  | CacheEvent.timesOut =>
      match call.task, call.phase with
      | CacheTask.checkConnection, CachePhase.onCached cell conn =>
          some (s.goes i call (CachePhase.evicting cell conn false))
      | _, _ => none
  | CacheEvent.evict =>
      match call.phase with
      | CachePhase.evicting cell _ again =>
          some ((s.evictCell cell).goes i call
            (if again then CachePhase.redialling else CachePhase.returned))
      | _ => none
  | CacheEvent.cancel =>
      match call.phase with
      | CachePhase.dialling cell _ =>
          some (({ s with cells := s.cells.release cell } : ConnectionCache).goes i call
            CachePhase.returned)
      | CachePhase.evicting _ _ _ => none
      | CachePhase.returned => none
      | _ => some (s.goes i call CachePhase.returned)

end ConnectionCache

def cacheStep (transport : Transport) (s : ConnectionCache) : CacheAction -> Option ConnectionCache
  | CacheAction.start task =>
      some { s with calls := s.calls ++ [{ task := task, phase := CachePhase.started }] }
  | CacheAction.call i event => (s.calls[i]?).bind fun call => s.cacheEvent transport i call event
  | CacheAction.dropConnection => some { s with cells := s.cells.renew () }

/-!
## What a step does
-/

/-- Everything that a step of a call can do. -/
inductive CacheEffect (s : ConnectionCache) (i : Nat) :
    CacheTask -> CachePhase -> CacheEvent -> ConnectionCache -> CachePhase -> Prop where
  | took (task : CacheTask) (cell : Nat) (hslot : s.slot = some cell) :
      CacheEffect s i task CachePhase.started CacheEvent.takeCell s (CachePhase.looking cell)
  | tookAgain (task : CacheTask) (cell : Nat) (hslot : s.slot = some cell) :
      CacheEffect s i task CachePhase.redialling CacheEvent.takeCell s (CachePhase.waiting cell)
  | found (task : CacheTask) (cell conn : Nat) (hvalue : s.cells.value cell = some conn) :
      CacheEffect s i task (CachePhase.looking cell) CacheEvent.lookInside s
        (CachePhase.onCached cell conn)
  | missed (cell : Nat) (hvalue : s.cells.value cell = none) :
      CacheEffect s i CacheTask.openStream (CachePhase.looking cell) CacheEvent.lookInside s
        CachePhase.redialling
  | shared (task : CacheTask) (cell conn : Nat) (hvalue : s.cells.value cell = some conn) :
      CacheEffect s i task (CachePhase.waiting cell) CacheEvent.foundFilled s
        (CachePhase.onDialled cell conn)
  | dials (task : CacheTask) (cell : Nat) (cells : OnceMap Unit Nat)
      (hacquire : s.cells.acquire cell i = some cells) :
      CacheEffect s i task (CachePhase.waiting cell) CacheEvent.startDial
        { s with
          cells := cells
          dials := s.dials ++ [{ caller := i, cell := cell, connected := false }] }
        (CachePhase.dialling cell s.dials.length)
  | dialled (task : CacheTask) (cell dial : Nat) :
      CacheEffect s i task (CachePhase.dialling cell dial) CacheEvent.dialled
        { s with
          cells := s.cells.fill cell dial
          dials := s.dials.modify dial fun d => { d with connected := true } }
        (CachePhase.onDialled cell dial)
  | undialled (task : CacheTask) (cell dial : Nat) (event : CacheEvent) :
      CacheEffect s i task (CachePhase.dialling cell dial) event
        { s with cells := s.cells.release cell } CachePhase.returned
  | failed (task : CacheTask) (phase : CachePhase) (event : CacheEvent) (cell conn : Nat)
      (again : Bool)
      (hseen : (phase = CachePhase.onCached cell conn ∧
          (again = true -> task = CacheTask.openStream)) ∨
        (phase = CachePhase.onDialled cell conn ∧ again = false))
      (hevent : event = CacheEvent.timesOut ∨ exists terminal, event = CacheEvent.fails terminal) :
      CacheEffect s i task phase event s (CachePhase.evicting cell conn again)
  | evicted (task : CacheTask) (cell conn : Nat) (again : Bool) :
      CacheEffect s i task (CachePhase.evicting cell conn again) CacheEvent.evict
        (s.evictCell cell) (if again then CachePhase.redialling else CachePhase.returned)
  | done (task : CacheTask) (phase : CachePhase) (event : CacheEvent)
      (hidle : forall cell dial, phase ≠ CachePhase.dialling cell dial) :
      CacheEffect s i task phase event s CachePhase.returned

theorem cacheEvent_effect {transport : Transport} {s t : ConnectionCache} {i : Nat}
    {task : CacheTask} {phase : CachePhase} {event : CacheEvent}
    (h : s.cacheEvent transport i { task := task, phase := phase } event = some t) :
    exists mid next, CacheEffect s i task phase event mid next ∧
      t = mid.goes i { task := task, phase := phase } next := by
  cases event with
  | takeCell =>
      simp only [ConnectionCache.cacheEvent] at h
      split at h
      · rcases Option.map_eq_some_iff.mp h with ⟨cell, hslot, rfl⟩
        exact ⟨_, _, CacheEffect.took task cell hslot, rfl⟩
      · rcases Option.map_eq_some_iff.mp h with ⟨cell, hslot, rfl⟩
        exact ⟨_, _, CacheEffect.tookAgain task cell hslot, rfl⟩
      · cases h
  | lookInside =>
      simp only [ConnectionCache.cacheEvent] at h
      split at h
      · rename_i cell
        cases hvalue : s.cells.value cell with
        | some conn =>
            simp only [hvalue] at h
            cases h
            exact ⟨_, _, CacheEffect.found task cell conn hvalue, rfl⟩
        | none =>
            cases task with
            | openStream =>
                simp only [hvalue] at h
                cases h
                exact ⟨_, _, CacheEffect.missed cell hvalue, rfl⟩
            | checkConnection =>
                simp only [hvalue] at h
                cases h
                exact ⟨_, _, CacheEffect.done _ _ _ (by intro _ _ hphase; cases hphase), rfl⟩
      · cases h
  | foundFilled =>
      simp only [ConnectionCache.cacheEvent] at h
      split at h
      · rename_i cell
        rcases Option.map_eq_some_iff.mp h with ⟨conn, hvalue, rfl⟩
        exact ⟨_, _, CacheEffect.shared task cell conn hvalue, rfl⟩
      · cases h
  | startDial =>
      simp only [ConnectionCache.cacheEvent] at h
      split at h
      · rename_i cell
        rcases Option.map_eq_some_iff.mp h with ⟨cells, hacquire, rfl⟩
        exact ⟨_, _, CacheEffect.dials task cell cells hacquire, rfl⟩
      · cases h
  | dialled =>
      simp only [ConnectionCache.cacheEvent] at h
      split at h
      · rename_i cell dial
        cases h
        exact ⟨_, _, CacheEffect.dialled task cell dial, rfl⟩
      · cases h
  | dialFails =>
      simp only [ConnectionCache.cacheEvent] at h
      split at h
      · rename_i cell dial
        cases h
        exact ⟨_, _, CacheEffect.undialled task cell dial _, rfl⟩
      · cases h
  | succeeds =>
      simp only [ConnectionCache.cacheEvent] at h
      split at h
      · cases h
        exact ⟨_, _, CacheEffect.done _ _ _ (by intro _ _ hphase; cases hphase), rfl⟩
      · cases h
        exact ⟨_, _, CacheEffect.done _ _ _ (by intro _ _ hphase; cases hphase), rfl⟩
      · cases h
  | closedMeanwhile =>
      simp only [ConnectionCache.cacheEvent] at h
      split at h
      · split at h
        · cases h
          exact ⟨_, _, CacheEffect.done _ _ _ (by intro _ _ hphase; cases hphase), rfl⟩
        · cases h
          exact ⟨_, _, CacheEffect.done _ _ _ (by intro _ _ hphase; cases hphase), rfl⟩
        · cases h
      · cases h
  | fails terminal =>
      simp only [ConnectionCache.cacheEvent] at h
      split at h
      · rename_i cell conn
        cases h
        refine ⟨_, _, CacheEffect.failed task _ _ cell conn _ (Or.inl ⟨rfl, ?_⟩)
          (Or.inr ⟨terminal, rfl⟩), rfl⟩
        intro hagain
        exact of_decide_eq_true (Bool.and_eq_true_iff.mp hagain).left
      · rename_i cell conn
        cases h
        exact ⟨_, _, CacheEffect.failed task _ _ cell conn _ (Or.inr ⟨rfl, rfl⟩)
          (Or.inr ⟨terminal, rfl⟩), rfl⟩
      · cases h
  | timesOut =>
      simp only [ConnectionCache.cacheEvent] at h
      split at h
      · rename_i cell conn
        cases h
        refine ⟨_, _, CacheEffect.failed _ _ _ cell conn false (Or.inl ⟨rfl, ?_⟩)
          (Or.inl rfl), rfl⟩
        intro hagain
        cases hagain
      · cases h
  | evict =>
      simp only [ConnectionCache.cacheEvent] at h
      split at h
      · rename_i cell conn again
        cases h
        exact ⟨_, _, CacheEffect.evicted task cell conn again, rfl⟩
      · cases h
  | cancel =>
      simp only [ConnectionCache.cacheEvent] at h
      split at h
      · rename_i cell dial
        cases h
        exact ⟨_, _, CacheEffect.undialled task cell dial _, rfl⟩
      · cases h
      · cases h
      · rename_i hdialling _ _
        cases h
        exact ⟨_, _, CacheEffect.done _ _ _ hdialling, rfl⟩

/-- Everything that a step can do. -/
inductive CacheStep (s : ConnectionCache) : CacheAction -> ConnectionCache -> Prop where
  | started (task : CacheTask) :
      CacheStep s (CacheAction.start task)
        { s with calls := s.calls ++ [{ task := task, phase := CachePhase.started }] }
  | called (i : Nat) (call : CacheCall) (event : CacheEvent) (mid : ConnectionCache)
      (next : CachePhase) (hcall : s.calls[i]? = some call)
      (heffect : CacheEffect s i call.task call.phase event mid next) :
      CacheStep s (CacheAction.call i event) (mid.goes i call next)
  | dropped : CacheStep s CacheAction.dropConnection { s with cells := s.cells.renew () }

theorem cacheStep_step {transport : Transport} {s t : ConnectionCache} {a : CacheAction}
    (h : cacheStep transport s a = some t) : CacheStep s a t := by
  cases a with
  | start task =>
      cases h
      exact CacheStep.started task
  | call i event =>
      rcases Option.bind_eq_some_iff.mp h with ⟨call, hcall, hevent⟩
      rcases cacheEvent_effect hevent with ⟨mid, next, heffect, rfl⟩
      exact CacheStep.called i call event mid next hcall heffect
  | dropConnection =>
      cases h
      exact CacheStep.dropped

/-!
## What a connection is to its cell
-/

/-- The connection that a phase uses, and its cell. -/
def CachePhase.connection : CachePhase -> Option (Nat × Nat)
  | onCached cell conn => some (cell, conn)
  | onDialled cell conn => some (cell, conn)
  | evicting cell conn _ => some (cell, conn)
  | _ => none

/-- What a call in this phase relies on. -/
def ConnectionCache.Backs (s : ConnectionCache) (i : Nat) (phase : CachePhase) : Prop :=
  (forall cell conn, phase.connection = some (cell, conn) -> s.cells.value cell = some conn) ∧
    forall cell n, phase = CachePhase.dialling cell n ->
      s.cells.HeldBy cell i ∧ s.dials[n]? = some { caller := i, cell := cell, connected := false }

/-- A cell holds the one connection that was dialled for it. -/
structure ConnectionCache.Sound (s : ConnectionCache) : Prop where
  holds : forall cell conn, s.cells.value cell = some conn ->
    exists dial, s.dials[conn]? = some dial ∧ dial.cell = cell ∧ dial.connected = true
  kept : forall (n : Nat) dial, s.dials[n]? = some dial -> dial.connected = true ->
    s.cells.value dial.cell = some n
  backs : forall (i : Nat) call, s.calls[i]? = some call -> s.Backs i call.phase

section
variable {s mid t : ConnectionCache} {i j : Nat} {task : CacheTask} {phase next : CachePhase}
  {event : CacheEvent} {call : CacheCall} {a : CacheAction}

theorem evictCell_dials (s : ConnectionCache) (cell : Nat) :
    (s.evictCell cell).dials = s.dials := by
  unfold ConnectionCache.evictCell
  split <;> rfl

theorem CacheEffect.calls (h : CacheEffect s i task phase event mid next) :
    mid.calls = s.calls := by
  cases h
  case evicted cell conn again =>
    unfold ConnectionCache.evictCell
    split <;> rfl
  all_goals rfl

/-- The calls once one of them went on. -/
theorem CacheEffect.goes_calls {other : CacheCall}
    (h : CacheEffect s i task phase event mid next) (hcall : s.calls[i]? = some call) :
    (mid.goes i call next).calls[j]? = some other <->
      (j = i ∧ other = { call with phase := next }) ∨ (j ≠ i ∧ s.calls[j]? = some other) := by
  rw [← h.calls] at hcall ⊢
  exact slot_set_eq_some_iff hcall

theorem CacheEffect.extends (h : CacheEffect s i task phase event mid next)
    (hbacks : s.Backs i phase) : s.cells.Extends mid.cells := by
  cases h with
  | dials task cell cells hacquire => exact (OnceMap.acquire_some hacquire).right.right.left
  | dialled task cell dial => exact (hbacks.right cell dial rfl).left.extends_fill dial
  | undialled task cell dial event => exact OnceMap.extends_release s.cells cell
  | evicted task cell conn again =>
      unfold ConnectionCache.evictCell
      split
      · exact OnceMap.extends_renew s.cells ()
      · exact OnceMap.Extends.refl s.cells
  | _ => exact OnceMap.Extends.refl s.cells

/-- A dial as it is after one of them has succeeded. -/
theorem modify_dial {dials : List Dial} {n m : Nat} {dial : Dial}
    (h : (dials.modify n fun d => { d with connected := true })[m]? = some dial) :
    exists old, dials[m]? = some old ∧ dial.caller = old.caller ∧ dial.cell = old.cell ∧
      (dial.connected = true <-> old.connected = true ∨ m = n) := by
  rw [List.getElem?_modify] at h
  rcases Option.map_eq_some_iff.mp h with ⟨old, hold, rfl⟩
  by_cases hn : n = m
  · exact ⟨old, hold, by simp [hn], by simp [hn], by simp [hn]⟩
  · have hother : m ≠ n := fun hm => hn hm.symm
    exact ⟨old, hold, by simp [hn], by simp [hn], by simp [hn, hother]⟩

theorem dial_modify {dials : List Dial} {n m : Nat} {dial : Dial} (h : dials[m]? = some dial) :
    exists new, (dials.modify n fun d => { d with connected := true })[m]? = some new ∧
      new.cell = dial.cell ∧ (dial.connected = true ∨ m = n -> new.connected = true) := by
  rw [List.getElem?_modify, h]
  by_cases hn : n = m
  · exact ⟨_, rfl, by simp [hn], by simp [hn]⟩
  · have hother : m ≠ n := fun hm => hn hm.symm
    exact ⟨_, rfl, by simp [hn], by simp [hn, hother]⟩

theorem backs_connection {cell conn : Nat} (hconn : phase.connection = some (cell, conn))
    (hvalue : s.cells.value cell = some conn) : s.Backs i phase := by
  constructor
  · intro c n hc
    rw [hconn] at hc
    cases hc
    exact hvalue
  · intro c n heq
    subst heq
    cases hconn

theorem backs_idle (hconn : phase.connection = none)
    (hdial : forall cell n, phase ≠ CachePhase.dialling cell n) : s.Backs i phase := by
  constructor
  · intro c n hc
    rw [hconn] at hc
    cases hc
  · intro c n hphase
    exact absurd hphase (hdial c n)

/-- What another call relies on stays. -/
theorem ConnectionCache.Backs.other {phase' : CachePhase} (h : s.Backs j phase')
    (heffect : CacheEffect s i task phase event mid next) (hbacks : s.Backs i phase)
    (hj : j ≠ i) : mid.Backs j phase' := by
  constructor
  · intro cell conn hconn
    exact (heffect.extends hbacks).value (h.left cell conn hconn)
  · intro cell n hphase
    rcases h.right cell n hphase with ⟨hheld, hdial⟩
    cases heffect with
    | dials task c cells hacquire =>
        constructor
        · exact (OnceMap.acquire_some hacquire).right.right.right.right cell j hheld
        · exact slot_append_eq_some_iff.mpr (Or.inl hdial)
    | dialled task c dial =>
        rcases hbacks.right c dial rfl with ⟨hown, hownDial⟩
        constructor
        · exact hheld.fill hown hj dial
        · have hother : dial ≠ n := by
            intro hsame
            rw [hsame, hdial] at hownDial
            cases hownDial
            exact hj rfl
          show (s.dials.modify dial _)[n]? = _
          rw [List.getElem?_modify, hdial]
          simp [hother]
    | undialled task c dial event =>
        exact ⟨hheld.release (hbacks.right c dial rfl).left hj, hdial⟩
    | evicted task c conn again =>
        unfold ConnectionCache.evictCell
        split
        · exact ⟨hheld.renew (), hdial⟩
        · exact ⟨hheld, hdial⟩
    | _ => exact ⟨hheld, hdial⟩

/-- What the call relies on in its new phase. -/
theorem CacheEffect.backs_next (h : CacheEffect s i task phase event mid next)
    (hbacks : s.Backs i phase) : mid.Backs i next := by
  cases h with
  | found task cell conn hvalue => exact backs_connection rfl hvalue
  | shared task cell conn hvalue => exact backs_connection rfl hvalue
  | dials task cell cells hacquire =>
      constructor
      · intro c n hconn
        cases hconn
      · intro c n hphase
        cases hphase
        exact ⟨(OnceMap.acquire_some hacquire).right.left,
          slot_append_eq_some_iff.mpr (Or.inr ⟨rfl, rfl⟩)⟩
  | dialled task cell dial =>
      exact backs_connection rfl ((hbacks.right cell dial rfl).left.value_fill dial)
  | failed task phase event cell conn again hseen hevent =>
      rcases hseen with ⟨rfl, -⟩ | ⟨rfl, -⟩
      · exact backs_connection rfl (hbacks.left cell conn rfl)
      · exact backs_connection rfl (hbacks.left cell conn rfl)
  | evicted task cell conn again =>
      cases again with
      | true => exact backs_idle rfl (by intro c n hphase; cases hphase)
      | false => exact backs_idle rfl (by intro c n hphase; cases hphase)
  | _ => exact backs_idle rfl (by intro c n hphase; cases hphase)

theorem CacheEffect.holds (h : CacheEffect s i task phase event mid next) (hsound : s.Sound)
    (hbacks : s.Backs i phase) {cell conn : Nat} (hvalue : mid.cells.value cell = some conn) :
    exists dial, mid.dials[conn]? = some dial ∧ dial.cell = cell ∧ dial.connected = true := by
  cases h with
  | dials task c cells hacquire =>
      rcases hsound.holds cell conn (OnceMap.value_of_acquire hacquire hvalue) with
        ⟨dial, hdial, hkept⟩
      exact ⟨dial, slot_append_eq_some_iff.mpr (Or.inl hdial), hkept⟩
  | dialled task c n =>
      rcases OnceMap.value_of_fill hvalue with hold | ⟨rfl, rfl⟩
      · rcases hsound.holds cell conn hold with ⟨dial, hdial, hcell, hconnected⟩
        rcases dial_modify (n := n) hdial with ⟨new, hnew, hsame, hgrown⟩
        exact ⟨new, hnew, hsame.trans hcell, hgrown (Or.inl hconnected)⟩
      · rcases dial_modify (n := conn) (hbacks.right cell conn rfl).right with
          ⟨new, hnew, hsame, hgrown⟩
        exact ⟨new, hnew, hsame, hgrown (Or.inr rfl)⟩
  | undialled task c n event =>
      have hsame : (s.cells.release c).value cell = s.cells.value cell :=
        OnceMap.value_modifyCell fun _ => rfl
      exact hsound.holds cell conn (hsame.symm.trans hvalue)
  | evicted task c n again =>
      rw [evictCell_dials]
      unfold ConnectionCache.evictCell at hvalue
      split at hvalue
      · exact hsound.holds cell conn (OnceMap.value_of_renew hvalue)
      · exact hsound.holds cell conn hvalue
  | _ => exact hsound.holds cell conn hvalue

theorem CacheEffect.kept (h : CacheEffect s i task phase event mid next) (hsound : s.Sound)
    (hbacks : s.Backs i phase) {n : Nat} {dial : Dial} (hdial : mid.dials[n]? = some dial)
    (hconnected : dial.connected = true) : mid.cells.value dial.cell = some n := by
  have hextends := h.extends hbacks
  cases h with
  | dials task c cells hacquire =>
      rcases slot_append_eq_some_iff.mp hdial with hold | ⟨-, rfl⟩
      · exact hextends.value (hsound.kept n dial hold hconnected)
      · cases hconnected
  | dialled task c m =>
      rcases modify_dial hdial with ⟨old, hold, -, hcell, hiff⟩
      rw [hcell]
      rcases hiff.mp hconnected with hbefore | rfl
      · exact hextends.value (hsound.kept n old hold hbefore)
      · rcases hbacks.right c n rfl with ⟨hheld, hown⟩
        rw [hown] at hold
        cases hold
        exact hheld.value_fill n
  | evicted task c conn again =>
      rw [evictCell_dials] at hdial
      exact hextends.value (hsound.kept n dial hdial hconnected)
  | _ => exact hextends.value (hsound.kept n dial hdial hconnected)

theorem CacheStep.sound (h : CacheStep s a t) (hsound : s.Sound) : t.Sound := by
  cases h with
  | started task =>
      constructor
      · exact hsound.holds
      · exact hsound.kept
      · intro j call hj
        rcases slot_append_eq_some_iff.mp hj with hold | ⟨-, rfl⟩
        · exact hsound.backs j call hold
        · exact backs_idle rfl (by intro c n hphase; cases hphase)
  | called i call event mid next hcall heffect =>
      have hbacks := hsound.backs i call hcall
      constructor
      · intro cell conn hvalue
        exact heffect.holds hsound hbacks hvalue
      · intro n dial hdial hconnected
        exact heffect.kept hsound hbacks hdial hconnected
      · intro j other hj
        rcases (heffect.goes_calls hcall).mp hj with ⟨rfl, rfl⟩ | ⟨hother, hold⟩
        · exact heffect.backs_next hbacks
        · have hkept : mid.Backs j other.phase :=
            (hsound.backs j other hold).other heffect hbacks hother
          exact hkept
  | dropped =>
      have hextends := OnceMap.extends_renew s.cells ()
      constructor
      · intro cell conn hvalue
        exact hsound.holds cell conn (OnceMap.value_of_renew hvalue)
      · intro n dial hdial hconnected
        exact hextends.value (hsound.kept n dial hdial hconnected)
      · intro j other hj
        rcases hsound.backs j other hj with ⟨hvalues, hdials⟩
        constructor
        · intro cell conn hconn
          exact hextends.value (hvalues cell conn hconn)
        · intro cell n hphase
          exact ⟨(hdials cell n hphase).left.renew (), (hdials cell n hphase).right⟩

/-!
## Who dials
-/

/-- A dial is one that there was, or the call's first. -/
theorem CacheEffect.dial (h : CacheEffect s i task phase event mid next) {n : Nat} {dial : Dial}
    (hdial : mid.dials[n]? = some dial) :
    (exists old, s.dials[n]? = some old ∧ dial.caller = old.caller ∧ dial.cell = old.cell) ∨
      (n = s.dials.length ∧ dial.caller = i ∧ phase = CachePhase.waiting dial.cell ∧
        next = CachePhase.dialling dial.cell n ∧ dial.cell < s.cells.cells.length) := by
  cases h with
  | dials task c cells hacquire =>
      rcases slot_append_eq_some_iff.mp hdial with hold | ⟨rfl, rfl⟩
      · exact Or.inl ⟨dial, hold, rfl, rfl⟩
      · exact Or.inr ⟨rfl, rfl, rfl, rfl, OnceMap.lt_of_acquire hacquire⟩
  | dialled task c m =>
      rcases modify_dial hdial with ⟨old, hold, hcaller, hcell, -⟩
      exact Or.inl ⟨old, hold, hcaller, hcell⟩
  | evicted task c conn again =>
      rw [evictCell_dials] at hdial
      exact Or.inl ⟨dial, hdial, rfl, rfl⟩
  | _ => exact Or.inl ⟨dial, hdial, rfl, rfl⟩

theorem CacheEffect.dials_le (h : CacheEffect s i task phase event mid next) :
    s.dials.length ≤ mid.dials.length := by
  cases h with
  | dials task c cells hacquire =>
      show s.dials.length ≤ (s.dials ++ [_]).length
      rw [List.length_append]
      exact Nat.le_add_right ..
  | dialled task c m =>
      show s.dials.length ≤ (s.dials.modify m _).length
      rw [List.length_modify]
  | evicted task c conn again => rw [evictCell_dials]
  | _ => exact Nat.le_refl _

/-- The call has not dialled. -/
def CachePhase.undialled : CachePhase -> Bool
  | started => true
  | looking _ => true
  | onCached _ _ => true
  | redialling => true
  | waiting _ => true
  | evicting _ _ again => again
  | _ => false

/-- Only calls that open a stream come here. -/
def CachePhase.opens : CachePhase -> Bool
  | redialling => true
  | waiting _ => true
  | dialling _ _ => true
  | evicting _ _ again => again
  | _ => false

/-- Each dial is that of one call, which opens a stream. -/
structure ConnectionCache.Lone (s : ConnectionCache) : Prop where
  opens : forall (i : Nat) call, s.calls[i]? = some call -> call.phase.opens = true ->
    call.task = CacheTask.openStream
  callers : forall (n : Nat) dial, s.dials[n]? = some dial ->
    exists call, s.calls[dial.caller]? = some call ∧ call.task = CacheTask.openStream ∧
      call.phase.undialled = false
  once : forall (n m : Nat) dial dial', s.dials[n]? = some dial -> s.dials[m]? = some dial' ->
    dial.caller = dial'.caller -> n = m

theorem CacheEffect.opens (h : CacheEffect s i task phase event mid next)
    (hphase : phase.opens = true -> task = CacheTask.openStream) (hnext : next.opens = true) :
    task = CacheTask.openStream := by
  cases h with
  | missed cell hvalue => rfl
  | failed task phase event cell conn again hseen hevent =>
      rcases hseen with ⟨-, hagain⟩ | ⟨-, rfl⟩
      · exact hagain hnext
      · cases hnext
  | evicted task cell conn again =>
      cases again with
      | true => exact hphase rfl
      | false => cases hnext
  | tookAgain task cell hslot => exact hphase rfl
  | dials task cell cells hacquire => exact hphase rfl
  | _ => cases hnext

theorem CacheEffect.undialled_of_next (h : CacheEffect s i task phase event mid next)
    (hnext : next.undialled = true) : phase.undialled = true := by
  cases h with
  | failed task phase event cell conn again hseen hevent =>
      rcases hseen with ⟨rfl, -⟩ | ⟨-, rfl⟩
      · rfl
      · cases hnext
  | evicted task cell conn again =>
      cases again with
      | true => rfl
      | false => cases hnext
  | took task cell hslot => rfl
  | tookAgain task cell hslot => rfl
  | found task cell conn hvalue => rfl
  | missed cell hvalue => rfl
  | _ => cases hnext

theorem CacheStep.lone (h : CacheStep s a t) (hlone : s.Lone) : t.Lone := by
  cases h with
  | started task =>
      constructor
      · intro j call hj hopens
        rcases slot_append_eq_some_iff.mp hj with hold | ⟨-, rfl⟩
        · exact hlone.opens j call hold hopens
        · cases hopens
      · intro n dial hdial
        rcases hlone.callers n dial hdial with ⟨call, hcall, hrest⟩
        exact ⟨call, slot_append_eq_some_iff.mpr (Or.inl hcall), hrest⟩
      · exact hlone.once
  | called i call event mid next hcall heffect =>
      constructor
      · intro j other hj hopens
        rcases (heffect.goes_calls hcall).mp hj with ⟨rfl, rfl⟩ | ⟨-, hold⟩
        · exact heffect.opens (hlone.opens j call hcall) hopens
        · exact hlone.opens j other hold hopens
      · intro n dial hdial
        rcases heffect.dial hdial with ⟨old, hold, hcaller, -⟩ | ⟨-, hcaller, hphase, hnext, -⟩
        · rcases hlone.callers n old hold with ⟨other, hother, htask, hdialled⟩
          rw [hcaller]
          by_cases hi : old.caller = i
          · rw [hi, hcall] at hother
            cases hother
            refine ⟨{ call with phase := next },
              (heffect.goes_calls hcall).mpr (Or.inl ⟨hi, rfl⟩), htask, ?_⟩
            · rw [Bool.eq_false_iff]
              intro hnext
              rw [heffect.undialled_of_next hnext] at hdialled
              cases hdialled
          · exact ⟨other, (heffect.goes_calls hcall).mpr (Or.inr ⟨hi, hother⟩), htask, hdialled⟩
        · have htask : call.task = CacheTask.openStream :=
            hlone.opens i call hcall (by rw [hphase]; rfl)
          refine ⟨{ call with phase := next },
            (heffect.goes_calls hcall).mpr (Or.inl ⟨hcaller, rfl⟩), htask, ?_⟩
          rw [hnext]
          rfl
      · have hfirst : forall (n : Nat) old, s.dials[n]? = some old -> old.caller = i ->
            forall cell, call.phase ≠ CachePhase.waiting cell := by
          intro n old hold hi cell hphase
          rcases hlone.callers n old hold with ⟨other, hother, -, hdialled⟩
          rw [hi, hcall] at hother
          cases hother
          rw [hphase] at hdialled
          cases hdialled
        intro n m dial dial' hdial hdial' hsame
        rcases heffect.dial hdial with ⟨old, hold, hcaller, -⟩ | ⟨hn, hcaller, hphase, -⟩
        · rcases heffect.dial hdial' with ⟨old', hold', hcaller', -⟩ | ⟨-, hcaller', hphase, -⟩
          · exact hlone.once n m old old' hold hold' (hcaller.symm.trans (hsame.trans hcaller'))
          · exact absurd hphase
              (hfirst n old hold (hcaller.symm.trans (hsame.trans hcaller')) _)
        · rcases heffect.dial hdial' with ⟨old', hold', hcaller', -⟩ | ⟨hm, -⟩
          · exact absurd hphase
              (hfirst m old' hold' (hcaller'.symm.trans (hsame.symm.trans hcaller)) _)
          · rw [hn, hm]
  | dropped => exact ⟨hlone.opens, hlone.callers, hlone.once⟩

end

end Guest
end WispersAccess
