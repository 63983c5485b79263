import WispersAccess.Guest.ConnectionCache

/-!
# Runs of the connection cache

A connection that is dropped is not used by the calls that start afterwards, and
one that fails is only ever replaced while the slot still holds it: cells are
told apart by their place, and each comes to hold one connection at most.
-/

namespace WispersAccess
namespace Guest

open Foundation

section
variable {s mid t : ConnectionCache} {i j : Nat} {task : CacheTask} {phase next : CachePhase}
  {event : CacheEvent} {call : CacheCall} {a : CacheAction}

/-!
## Cells since a connection was dropped
-/

/-- The cell that a call has taken. -/
def CachePhase.cell : CachePhase -> Option Nat
  | looking cell => some cell
  | onCached cell _ => some cell
  | waiting cell => some cell
  | dialling cell _ => some cell
  | onDialled cell _ => some cell
  | evicting cell _ _ => some cell
  | _ => none

theorem cell_of_connection {cell conn : Nat} (h : phase.connection = some (cell, conn)) :
    phase.cell = some cell := by
  cases phase <;> cases h <;> rfl

/-- Dials are for cells that there are. -/
def ConnectionCache.Placed (s : ConnectionCache) : Prop :=
  forall (n : Nat) dial, s.dials[n]? = some dial -> dial.cell < s.cells.cells.length

/-- The first calls, dials and cells are from before; the slot, and the calls started since,
have later cells. -/
structure ConnectionCache.Since (s : ConnectionCache) (calls dials cells : Nat) : Prop where
  size : cells ≤ s.cells.cells.length
  slot : forall cell, s.slot = some cell -> cells ≤ cell
  dialled : dials ≤ s.dials.length
  dials : forall (n : Nat) dial, n < dials -> s.dials[n]? = some dial -> dial.cell < cells
  calls : forall (i : Nat) call cell, calls ≤ i -> s.calls[i]? = some call ->
    call.phase.cell = some cell -> cells ≤ cell

theorem CacheEffect.slot (h : CacheEffect s i task phase event mid next) :
    mid.slot = s.slot ∨ mid.slot = some s.cells.cells.length ∧
      exists cell conn again, phase = CachePhase.evicting cell conn again ∧ s.slot = some cell := by
  cases h with
  | dials task c cells hacquire =>
      have hentry : cells.entry = s.cells.entry :=
        (OnceMap.acquire_some hacquire).right.right.right.left
      exact Or.inl (congrFun hentry ())
  | evicted task c conn again =>
      unfold ConnectionCache.evictCell
      split
      · rename_i hslot
        exact Or.inr ⟨OnceMap.entry_renew s.cells (), c, conn, again, rfl, hslot⟩
      · exact Or.inl rfl
  | _ => exact Or.inl rfl

/-- A call has the cell that it had, or takes the one in the slot. -/
theorem CacheEffect.cell (h : CacheEffect s i task phase event mid next) {cell : Nat}
    (hcell : next.cell = some cell) : phase.cell = some cell ∨ s.slot = some cell := by
  cases h with
  | took task c hslot =>
      cases hcell
      exact Or.inr hslot
  | tookAgain task c hslot =>
      cases hcell
      exact Or.inr hslot
  | failed task phase event c conn again hseen hevent =>
      rcases hseen with ⟨rfl, -⟩ | ⟨rfl, -⟩
      · exact Or.inl hcell
      · exact Or.inl hcell
  | evicted task c conn again =>
      cases again with
      | true => cases hcell
      | false => cases hcell
  | missed c hvalue => cases hcell
  | done task phase event hidle => cases hcell
  | undialled task c dial event => cases hcell
  | _ => exact Or.inl hcell

theorem CacheStep.placed (h : CacheStep s a t) (hsound : s.Sound) (hplaced : s.Placed) :
    t.Placed := by
  cases h with
  | started task => exact hplaced
  | called i call event mid next hcall heffect =>
      intro n dial hdial
      have hle := (heffect.extends (hsound.backs i call hcall)).length_le
      rcases heffect.dial hdial with ⟨old, hold, -, hcell⟩ | ⟨-, -, -, -, hlt⟩
      · rw [hcell]
        exact Nat.lt_of_lt_of_le (hplaced n old hold) hle
      · exact Nat.lt_of_lt_of_le hlt hle
  | dropped =>
      intro n dial hdial
      exact Nat.lt_of_lt_of_le (hplaced n dial hdial) (OnceMap.extends_renew s.cells ()).length_le

theorem CacheStep.since {calls dials cells : Nat} (h : CacheStep s a t) (hsound : s.Sound)
    (hsince : s.Since calls dials cells) : t.Since calls dials cells := by
  cases h with
  | started task =>
      constructor
      · exact hsince.size
      · exact hsince.slot
      · exact hsince.dialled
      · exact hsince.dials
      · intro j call cell hj hcall hcell
        rcases slot_append_eq_some_iff.mp hcall with hold | ⟨-, rfl⟩
        · exact hsince.calls j call cell hj hold hcell
        · cases hcell
  | called i call event mid next hcall heffect =>
      have hle := (heffect.extends (hsound.backs i call hcall)).length_le
      constructor
      · exact Nat.le_trans hsince.size hle
      · intro cell hcell
        rcases heffect.slot with hsame | ⟨hnew, -⟩
        · exact hsince.slot cell (hsame.symm.trans hcell)
        · rw [← Option.some.inj (hnew.symm.trans hcell)]
          exact hsince.size
      · exact Nat.le_trans hsince.dialled heffect.dials_le
      · intro n dial hn hdial
        rcases heffect.dial hdial with ⟨old, hold, -, hcell⟩ | ⟨hlast, -⟩
        · rw [hcell]
          exact hsince.dials n old hn hold
        · have hdialled := hsince.dialled
          omega
      · intro j other cell hj hother hcell
        rcases (heffect.goes_calls hcall).mp hother with ⟨rfl, rfl⟩ | ⟨-, hold⟩
        · rcases heffect.cell hcell with hkept | hslot
          · exact hsince.calls j call cell hj hcall hkept
          · exact hsince.slot cell hslot
        · exact hsince.calls j other cell hj hold hcell
  | dropped =>
      constructor
      · exact Nat.le_trans hsince.size (OnceMap.extends_renew s.cells ()).length_le
      · intro cell hcell
        rw [← Option.some.inj ((OnceMap.entry_renew s.cells ()).symm.trans hcell)]
        exact hsince.size
      · exact hsince.dialled
      · exact hsince.dials
      · exact hsince.calls

/-- Where the connection is dropped, everything is from before. -/
theorem since_drop (hplaced : s.Placed) :
    ({ s with cells := s.cells.renew () } : ConnectionCache).Since s.calls.length s.dials.length
      s.cells.cells.length := by
  constructor
  · exact (OnceMap.extends_renew s.cells ()).length_le
  · intro cell hcell
    exact Nat.le_of_eq (Option.some.inj ((OnceMap.entry_renew s.cells ()).symm.trans hcell))
  · exact Nat.le_refl _
  · intro n dial _ hdial
    exact hplaced n dial hdial
  · intro i call cell hi hcall _
    exact absurd (slot_lt hcall) (Nat.not_lt.mpr hi)

/-- A call started since uses a connection dialled since. -/
theorem ConnectionCache.Since.connection {calls dials cells cell conn : Nat}
    (hsince : s.Since calls dials cells) (hsound : s.Sound) (hi : calls ≤ i)
    (hcall : s.calls[i]? = some call) (hconn : call.phase.connection = some (cell, conn)) :
    dials ≤ conn := by
  by_contra hold
  rcases hsound.holds cell conn ((hsound.backs i call hcall).left cell conn hconn) with
    ⟨dial, hdial, hcell, -⟩
  have hbefore := hsince.dials conn dial (Nat.lt_of_not_le hold) hdial
  have hafter := hsince.calls i call cell hi hcall (cell_of_connection hconn)
  omega

end

/-!
## What a call goes through
-/

section
variable (transport : Transport) (acts : List CacheAction)

/-- The call is in the phase at some moment of the run. -/
def Reached (i : Nat) (phase : CachePhase) : Prop :=
  exists front back u call, acts = front ++ back ∧
    Run (cacheStep transport) ConnectionCache.start front u ∧ u.calls[i]? = some call ∧
    call.phase = phase

/-- The call saw the connection fail, or its probe time out. -/
def SawFail (i cell conn : Nat) : Prop :=
  exists front event back u call, acts = front ++ CacheAction.call i event :: back ∧
    Run (cacheStep transport) ConnectionCache.start front u ∧ u.calls[i]? = some call ∧
    (call.phase = CachePhase.onCached cell conn ∨ call.phase = CachePhase.onDialled cell conn) ∧
    (event = CacheEvent.timesOut ∨ exists terminal, event = CacheEvent.fails terminal)

end

/-- The phases of a call that has waited on the cell. -/
def CachePhase.HasWaited (cell : Nat) : CachePhase -> Prop
  | waiting c => c = cell
  | dialling c _ => c = cell
  | onDialled c _ => c = cell
  | evicting c _ again => c = cell ∧ again = false
  | returned => True
  | _ => False

/-- The phases of a call that has used the connection it waited for. -/
def CachePhase.HasShared (cell conn : Nat) : CachePhase -> Prop
  | onDialled c n => c = cell ∧ n = conn
  | evicting c n again => c = cell ∧ n = conn ∧ again = false
  | returned => True
  | _ => False

section
variable {transport : Transport} {acts back : List CacheAction} {s u mid : ConnectionCache}
  {i j cell conn : Nat} {task : CacheTask} {phase next : CachePhase} {event : CacheEvent}
  {call : CacheCall}

theorem CacheEffect.hasWaited (h : CacheEffect s i task phase event mid next)
    (hphase : phase.HasWaited cell) : next.HasWaited cell := by
  cases h with
  | failed task phase event c n again hseen hevent =>
      rcases hseen with ⟨rfl, -⟩ | ⟨rfl, hagain⟩
      · cases hphase
      · exact ⟨hphase, hagain⟩
  | evicted task c n again =>
      rw [hphase.right]
      trivial
  | done task phase event hidle => trivial
  | undialled task c dial event => trivial
  | shared task c n hvalue => exact hphase
  | dials task c cells hacquire => exact hphase
  | dialled task c dial => exact hphase
  | _ => cases hphase

theorem CacheEffect.hasShared (h : CacheEffect s i task phase event mid next)
    (hphase : phase.HasShared cell conn) : next.HasShared cell conn := by
  cases h with
  | failed task phase event c n again hseen hevent =>
      rcases hseen with ⟨rfl, -⟩ | ⟨rfl, hagain⟩
      · cases hphase
      · exact ⟨hphase.left, hphase.right, hagain⟩
  | evicted task c n again =>
      rw [hphase.right.right]
      trivial
  | done task phase event hidle => trivial
  | _ => cases hphase

/-- A call never leaves phases that no step leaves. -/
theorem phase_stays {P : CachePhase -> Prop}
    (hP : forall s i task phase event mid next, CacheEffect s i task phase event mid next ->
      P phase -> P next)
    (hrun : Run (cacheStep transport) u back s)
    (hcall : exists call, u.calls[i]? = some call ∧ P call.phase) :
    exists call, s.calls[i]? = some call ∧ P call.phase := by
  refine @Run.invariant _ _ (cacheStep transport)
    (fun s => exists call, s.calls[i]? = some call ∧ P call.phase) ?_ _ _ _ hrun hcall
  intro s a t hs hstep
  rcases hs with ⟨call, hcall, hphase⟩
  cases cacheStep_step hstep with
  | started task => exact ⟨call, slot_append_eq_some_iff.mpr (Or.inl hcall), hphase⟩
  | called j other event mid next hother heffect =>
      by_cases hij : i = j
      · rw [hij, hother] at hcall
        cases hcall
        exact ⟨_, (heffect.goes_calls hother).mpr (Or.inl ⟨hij, rfl⟩),
          hP _ _ _ _ _ _ _ heffect hphase⟩
      · exact ⟨call, (heffect.goes_calls hother).mpr (Or.inr ⟨hij, hcall⟩), hphase⟩
  | dropped => exact ⟨call, hcall, hphase⟩

theorem cache_sound (hrun : Run (cacheStep transport) ConnectionCache.start acts s) :
    s.Sound ∧ s.Lone ∧ s.Placed := by
  refine @Run.invariant _ _ (cacheStep transport) (fun s => s.Sound ∧ s.Lone ∧ s.Placed) ?_ _ _ _
    hrun ⟨?_, ?_, ?_⟩
  · intro s a t h hstep
    rcases h with ⟨hsound, hlone, hplaced⟩
    have heffect := cacheStep_step hstep
    exact ⟨heffect.sound hsound, heffect.lone hlone, heffect.placed hsound hplaced⟩
  · constructor
    · intro cell conn hvalue
      have hempty := (OnceMap.entryOrDefault_step OnceMap.empty ()).value hvalue
      cases hempty
    · nofun
    · nofun
  · constructor <;> nofun
  · nofun

/-- What is in a cell stays there. -/
theorem value_stays (hfront : Run (cacheStep transport) ConnectionCache.start acts u)
    (hback : Run (cacheStep transport) u back s) (hvalue : u.cells.value cell = some conn) :
    s.cells.value cell = some conn := by
  have hboth : s.Sound ∧ s.cells.value cell = some conn := by
    refine @Run.invariant _ _ (cacheStep transport)
      (fun s => s.Sound ∧ s.cells.value cell = some conn) ?_ _ _ _ hback
      ⟨(cache_sound hfront).left, hvalue⟩
    intro s a t h hstep
    rcases h with ⟨hsound, hvalue⟩
    have heffect := cacheStep_step hstep
    refine ⟨heffect.sound hsound, ?_⟩
    cases heffect with
    | started task => exact hvalue
    | called i call event mid next hcall heffect =>
        exact (heffect.extends (hsound.backs i call hcall)).value hvalue
    | dropped => exact (OnceMap.extends_renew s.cells ()).value hvalue
  exact hboth.right

/-- A call that has waited on a cell uses what is in that cell. -/
theorem shared_of_waited {c : Nat}
    (hrun : Run (cacheStep transport) ConnectionCache.start acts s)
    (hwaited : Reached transport acts i (CachePhase.waiting cell))
    (hshared : Reached transport acts i (CachePhase.onDialled c conn)) :
    s.cells.value cell = some conn := by
  rcases hwaited with ⟨front, back, u, call, rfl, hu, hcall, hwaiting⟩
  rcases hshared with ⟨front', back', u', call', hacts, hu', hcall', hused⟩
  have hvalue : u'.cells.value c = some conn :=
    ((cache_sound hu').left.backs i call' hcall').left c conn (by rw [hused]; rfl)
  rcases hrun.split with ⟨v, hv, hback⟩
  rw [hv.unique hu] at hback
  rcases List.append_eq_append_iff.mp hacts with ⟨more, rfl, hrest⟩ | ⟨more, rfl, hrest⟩
  · -- it waits before it uses the connection
    rcases hu'.split with ⟨v', hv', hmore⟩
    rw [hv'.unique hu] at hmore
    rcases phase_stays (P := CachePhase.HasWaited cell)
      (fun _ _ _ _ _ _ _ heffect hphase => heffect.hasWaited hphase) hmore
      ⟨call, hcall, by rw [hwaiting]; rfl⟩ with ⟨later, hlater, hphase⟩
    rw [hcall'] at hlater
    cases hlater
    rw [hused] at hphase
    have hc : c = cell := hphase
    rw [hrest] at hback
    rcases hback.split with ⟨w, hw, hlast⟩
    rw [hw.unique hmore] at hlast
    rw [← hc]
    exact value_stays hu' hlast hvalue
  · -- it would use the connection before it waits
    rcases hu.split with ⟨v', hv', hmore⟩
    rw [hv'.unique hu'] at hmore
    rcases phase_stays (P := CachePhase.HasShared c conn)
      (fun _ _ _ _ _ _ _ heffect hphase => heffect.hasShared hphase) hmore
      ⟨call', hcall', by rw [hused]; exact ⟨rfl, rfl⟩⟩ with ⟨later, hlater, hphase⟩
    rw [hcall] at hlater
    cases hlater
    rw [hwaiting] at hphase
    cases hphase

theorem SawFail.append (h : SawFail transport acts i cell conn) (more : List CacheAction) :
    SawFail transport (acts ++ more) i cell conn := by
  rcases h with ⟨front, event, back, u, call, rfl, hrest⟩
  refine ⟨front, event, back ++ more, u, call, ?_, hrest⟩
  rw [List.append_assoc, List.cons_append]

theorem CacheEffect.evicting {c n : Nat} {again : Bool}
    (h : CacheEffect s i task phase event mid next)
    (hnext : next = CachePhase.evicting c n again) :
    (phase = CachePhase.onCached c n ∨ phase = CachePhase.onDialled c n) ∧
      (event = CacheEvent.timesOut ∨ exists terminal, event = CacheEvent.fails terminal) := by
  cases h with
  | failed task phase event c' n' again' hseen hevent =>
      cases hnext
      rcases hseen with ⟨hphase, -⟩ | ⟨hphase, -⟩
      · exact ⟨Or.inl hphase, hevent⟩
      · exact ⟨Or.inr hphase, hevent⟩
  | evicted task c' n' again' =>
      cases again' with
      | true => cases hnext
      | false => cases hnext
  | _ => cases hnext

/-- Whoever is about to evict a connection saw it fail. -/
theorem evicting_saw_fail (hrun : Run (cacheStep transport) ConnectionCache.start acts s) :
    forall (i : Nat) call cell conn again, s.calls[i]? = some call ->
      call.phase = CachePhase.evicting cell conn again -> SawFail transport acts i cell conn := by
  refine @Run.invariant_of_past _ _ (cacheStep transport) (fun _ _ => True)
    (fun past s => forall (i : Nat) call cell conn again, s.calls[i]? = some call ->
      call.phase = CachePhase.evicting cell conn again -> SawFail transport past i cell conn)
    ConnectionCache.start ?_ ?_ _ _ hrun (meets_of_forall (fun _ _ _ => trivial) _)
  · nofun
  · intro past s a t hpast hs _ hstep i call cell conn again hcall hphase
    cases cacheStep_step hstep with
    | started task =>
        rcases slot_append_eq_some_iff.mp hcall with hold | ⟨-, rfl⟩
        · exact (hs i call cell conn again hold hphase).append _
        · cases hphase
    | called j other event mid next hother heffect =>
        rcases (heffect.goes_calls hother).mp hcall with ⟨rfl, rfl⟩ | ⟨-, hold⟩
        · rcases heffect.evicting hphase with ⟨hused, hevent⟩
          exact ⟨past, event, [], s, other, rfl, hpast, hother, hused, hevent⟩
        · exact (hs i call cell conn again hold hphase).append _
    | dropped => exact (hs i call cell conn again hcall hphase).append _

/-- What the calls started after a drop find is from after it. -/
theorem since_stays {calls dials cells : Nat}
    (hrun : Run (cacheStep transport) u back s) (hsound : u.Sound)
    (hsince : u.Since calls dials cells) : s.Since calls dials cells := by
  have hboth : s.Sound ∧ s.Since calls dials cells := by
    refine @Run.invariant _ _ (cacheStep transport)
      (fun s => s.Sound ∧ s.Since calls dials cells) ?_ _ _ _ hrun ⟨hsound, hsince⟩
    intro s a t h hstep
    rcases h with ⟨hsound, hsince⟩
    have heffect := cacheStep_step hstep
    exact ⟨heffect.sound hsound, heffect.since hsound hsince⟩
  exact hboth.right

/-- Only a call that saw the connection in the slot fail puts a new cell there. -/
theorem evicts_what_failed {t : ConnectionCache}
    (hrun : Run (cacheStep transport) ConnectionCache.start acts s)
    (hstep : cacheStep transport s (CacheAction.call i event) = some t) (hslot : t.slot ≠ s.slot) :
    exists cell conn, s.slot = some cell ∧ s.cells.value cell = some conn ∧
      SawFail transport acts i cell conn := by
  cases cacheStep_step hstep with
  | called i call event mid next hcall heffect =>
      rcases heffect.slot with hsame | ⟨-, cell, conn, again, hphase, hcell⟩
      · exact absurd hsame hslot
      · have hbacks := (cache_sound hrun).left.backs i call hcall
        exact ⟨cell, conn, hcell, hbacks.left cell conn (by rw [hphase]; rfl),
          evicting_saw_fail hrun i call cell conn again hcall hphase⟩

/-- A call started after a drop uses no connection whose dial began before it. -/
theorem drop_forgets {front : List CacheAction} {call : CacheCall}
    (hu : Run (cacheStep transport) ConnectionCache.start front u)
    (hback : Run (cacheStep transport) u (CacheAction.dropConnection :: back) s)
    (hi : u.calls.length ≤ i) (hcall : s.calls[i]? = some call)
    (hconn : call.phase.connection = some (cell, conn)) : u.dials.length ≤ conn := by
  rcases cache_sound hu with ⟨hsound, -, hplaced⟩
  have hend := (cache_sound (hu.append hback)).left
  cases hback with
  | cons hdrop hrest =>
      have hdropped := (cacheStep_step hdrop).sound hsound
      cases hdrop
      have hsince := since_stays hrest hdropped (since_drop hplaced)
      exact hsince.connection hend hi hcall hconn

/-- In every run a call evicts only a connection that it saw fail or time out, and that is the
one in the slot; a call started after `drop_connection` uses no connection whose dial began
before; a call dials once at most, and only to open a stream; and the calls that wait on one
cell come to use the one connection that is dialled for it. -/
theorem connection_cache_guarantees
    (hrun : Run (cacheStep transport) ConnectionCache.start acts s) :
    (forall i event t, cacheStep transport s (CacheAction.call i event) = some t ->
      t.slot ≠ s.slot -> exists cell conn, s.slot = some cell ∧ s.cells.value cell = some conn ∧
        SawFail transport acts i cell conn) ∧
    (forall front back u, acts = front ++ CacheAction.dropConnection :: back ->
      Run (cacheStep transport) ConnectionCache.start front u ->
      forall (i : Nat) call cell conn, u.calls.length ≤ i -> s.calls[i]? = some call ->
        call.phase.connection = some (cell, conn) -> u.dials.length ≤ conn) ∧
    (forall (n : Nat) dial, s.dials[n]? = some dial ->
      (exists call, s.calls[dial.caller]? = some call ∧ call.task = CacheTask.openStream) ∧
      forall (m : Nat) dial', s.dials[m]? = some dial' -> dial'.caller = dial.caller -> m = n) ∧
    (forall i j cell c c' conn conn',
      Reached transport acts i (CachePhase.waiting cell) ->
      Reached transport acts j (CachePhase.waiting cell) ->
      Reached transport acts i (CachePhase.onDialled c conn) ->
      Reached transport acts j (CachePhase.onDialled c' conn') -> conn = conn') ∧
    (forall (n m : Nat) dial dial', s.dials[n]? = some dial -> s.dials[m]? = some dial' ->
      dial.connected = true -> dial'.connected = true -> dial.cell = dial'.cell -> n = m) := by
  rcases cache_sound hrun with ⟨hsound, hlone, -⟩
  refine ⟨?_, ?_, ?_, ?_, ?_⟩
  · intro i event t hstep hslot
    exact evicts_what_failed hrun hstep hslot
  · intro front back u heq hu i call cell conn hi hcall hconn
    subst heq
    rcases hrun.split with ⟨v, hv, hback⟩
    rw [hv.unique hu] at hback
    exact drop_forgets hu hback hi hcall hconn
  · intro n dial hdial
    constructor
    · rcases hlone.callers n dial hdial with ⟨call, hcall, htask, -⟩
      exact ⟨call, hcall, htask⟩
    · intro m dial' hdial' hsame
      exact hlone.once m n dial' dial hdial' hdial hsame
  · intro i j cell c c' conn conn' hi hj hconn hconn'
    have hfirst := shared_of_waited hrun hi hconn
    have hsecond := shared_of_waited hrun hj hconn'
    exact Option.some.inj (hfirst.symm.trans hsecond)
  · intro n m dial dial' hdial hdial' hconnected hconnected' hcell
    have hfirst := hsound.kept n dial hdial hconnected
    have hsecond := hsound.kept m dial' hdial' hconnected'
    rw [hcell] at hfirst
    exact Option.some.inj (hfirst.symm.trans hsecond)

/-- A stream is opened, the connection dropped, and another stream opened. -/
def droppedBetween : List CacheAction :=
  let opens (i : Nat) : List CacheAction :=
    CacheAction.start CacheTask.openStream ::
      [CacheEvent.takeCell, CacheEvent.lookInside, CacheEvent.takeCell, CacheEvent.startDial,
        CacheEvent.dialled].map (CacheAction.call i)
  opens 0 ++ CacheAction.dropConnection :: opens 1

theorem connection_cache_guarantees_for_redial :
    exists s, Run (cacheStep Transport.iroh) ConnectionCache.start droppedBetween s ∧
      s.dials.length = 2 ∧
      forall (n m : Nat) dial dial', s.dials[n]? = some dial -> s.dials[m]? = some dial' ->
        dial.connected = true -> dial'.connected = true -> dial.cell = dial'.cell -> n = m := by
  have hend : (exec (cacheStep Transport.iroh) ConnectionCache.start droppedBetween).map
      (fun s => s.dials.length) = some 2 := by
    decide
  rcases Option.map_eq_some_iff.mp hend with ⟨s, hs, hdials⟩
  have hrun := run_iff_exec.mpr hs
  exact ⟨s, hrun, hdials, (connection_cache_guarantees hrun).right.right.right.right⟩

end

end Guest
end WispersAccess
