import WispersAccess.Foundation.ActionSystem
import WispersAccess.Foundation.Slots

/-!
# Bound ports

A proxy's port has an accept loop for each loopback address.  The port can be
bound again, which stops the loops and starts new ones, and it is released when
its proxy goes.  Both may happen at once: a rebind takes the handles of the loops
out of the port, waits for the loops to end, binds the port and puts the new
handles back.
-/

namespace WispersAccess
namespace Guest

open Foundation

/-!
## Ports
-/

inductive AcceptLoop where
  | running
  /-- It ends the next time it is scheduled. -/
  | aborted
  | stopped
  deriving DecidableEq, Repr

def AcceptLoop.abort : AcceptLoop -> AcceptLoop
  | running => aborted
  | aborted => aborted
  | stopped => stopped

/-- Where a call of `rebind` is; loops are named by their places in the list of all. -/
inductive Rebind where
  /-- The handles are taken, and the loops aborted one by one. -/
  | aborting (todo old : List Nat)
  | waiting (old : List Nat)
  | binding
  /-- The new loops run, but their handles are not in the port yet. -/
  | storing (new : List Nat)
  | finished
  deriving DecidableEq, Repr

/-- A `BoundPort` and what runs on it. -/
structure PortState where
  /-- Every loop ever started. -/
  loops : List AcceptLoop
  /-- The handles in the port. -/
  acceptLoops : List Nat
  rebinds : List Rebind
  /-- How many calls of `release` have returned. -/
  released : Nat
  deriving DecidableEq, Repr

inductive PortAction where
  | startRebind
  | abortNext (call : Nat)
  | awaitNext (call : Nat)
  /-- The port is bound to that many listeners, or not. -/
  | bind (call : Nat) (listeners : Option Nat)
  | store (call : Nat)
  | release
  /-- An aborted loop is scheduled. -/
  | stop (loop : Nat)
  deriving DecidableEq, Repr

/-- `BoundPort::serve`: a port just bound to that many listeners. -/
def PortState.serve (listeners : Nat) : PortState where
  loops := List.replicate listeners AcceptLoop.running
  acceptLoops := List.range listeners
  rebinds := []
  released := 0

/-- Abort these loops. -/
def abortAll (loops : List AcceptLoop) (handles : List Nat) : List AcceptLoop :=
  loops.mapIdx fun i loop => if i ∈ handles then loop.abort else loop

def PortState.setRebind (s : PortState) (call : Nat) (phase : Rebind) : PortState :=
  { s with rebinds := s.rebinds.set call phase }

def portStep (s : PortState) : PortAction -> Option PortState
  | PortAction.startRebind =>
      some { s with
        acceptLoops := []
        rebinds := s.rebinds ++ [Rebind.aborting s.acceptLoops s.acceptLoops] }
  | PortAction.abortNext call =>
      match s.rebinds[call]? with
      | some (Rebind.aborting (handle :: todo) old) =>
          some { s.setRebind call (Rebind.aborting todo old) with
            loops := abortAll s.loops [handle] }
      | some (Rebind.aborting [] old) => some (s.setRebind call (Rebind.waiting old))
      | _ => none
  | PortAction.awaitNext call =>
      match s.rebinds[call]? with
      | some (Rebind.waiting (handle :: old)) =>
          if s.loops[handle]? = some AcceptLoop.stopped then
            some (s.setRebind call (Rebind.waiting old))
          else none
      | some (Rebind.waiting []) => some (s.setRebind call Rebind.binding)
      | _ => none
  | PortAction.bind call listeners =>
      match s.rebinds[call]?, listeners with
      | some Rebind.binding, some n =>
          some { s.setRebind call
              (Rebind.storing ((List.range n).map fun i => s.loops.length + i)) with
            loops := s.loops ++ List.replicate n AcceptLoop.running }
      | some Rebind.binding, none => some (s.setRebind call Rebind.finished)
      | _, _ => none
  | PortAction.store call =>
      match s.rebinds[call]? with
      | some (Rebind.storing new) =>
          some { s.setRebind call Rebind.finished with acceptLoops := new }
      | _ => none
  | PortAction.release =>
      some { s with
        loops := abortAll s.loops s.acceptLoops
        released := s.released + 1 }
  | PortAction.stop loop =>
      if s.loops[loop]? = some AcceptLoop.aborted then
        some { s with loops := s.loops.set loop AcceptLoop.stopped }
      else none

/-!
## Who is to stop a loop
-/

/-- The loop runs: nobody has aborted it. -/
def PortState.runs (s : PortState) (loop : Nat) : Prop :=
  s.loops[loop]? = some AcceptLoop.running

/-- The loops a call is still to abort, or to put into the port. -/
def Rebind.holds : Rebind -> List Nat
  | aborting todo _ => todo
  | waiting _ => []
  | binding => []
  | storing new => new
  | finished => []

def Rebind.isStoring : Rebind -> Bool
  | storing _ => true
  | _ => false

def HeldByCall (rebinds : List Rebind) (loop : Nat) : Prop :=
  exists (call : Nat) (phase : Rebind), rebinds[call]? = some phase ∧ loop ∈ phase.holds

/-- Every loop that runs has its handle in the port or with a call. -/
def PortState.Held (s : PortState) : Prop :=
  forall loop, s.runs loop -> loop ∈ s.acceptLoops ∨ HeldByCall s.rebinds loop

/-- After a release no loop of the port runs, and none is about to be put into it. -/
def PortState.Quiet (s : PortState) : Prop :=
  0 < s.released ->
    (forall loop, loop ∈ s.acceptLoops -> ¬ s.runs loop) ∧
      forall phase, phase ∈ s.rebinds -> phase.isStoring = false

/-- A released port is not bound again, new loops are not on their way into a port that is
released, and nobody's loops are overwritten. -/
def PortUndisturbed (s : PortState) : PortAction -> Prop
  | PortAction.bind _ (some _) => s.released = 0
  | PortAction.release => forall phase, phase ∈ s.rebinds -> phase.isStoring = false
  | PortAction.store _ => forall loop, loop ∈ s.acceptLoops -> ¬ s.runs loop
  | _ => True

instance (s : PortState) (loop : Nat) : Decidable (s.runs loop) :=
  inferInstanceAs (Decidable (s.loops[loop]? = some AcceptLoop.running))

instance (s : PortState) (a : PortAction) : Decidable (PortUndisturbed s a) :=
  match a with
  | PortAction.bind _ (some _) => inferInstanceAs (Decidable (s.released = 0))
  | PortAction.bind _ none => isTrue trivial
  | PortAction.release =>
      inferInstanceAs (Decidable (forall phase, phase ∈ s.rebinds -> phase.isStoring = false))
  | PortAction.store _ =>
      inferInstanceAs (Decidable (forall loop, loop ∈ s.acceptLoops -> ¬ s.runs loop))
  | PortAction.startRebind => isTrue trivial
  | PortAction.abortNext _ => isTrue trivial
  | PortAction.awaitNext _ => isTrue trivial
  | PortAction.stop _ => isTrue trivial

theorem abort_ne_running (loop : AcceptLoop) : loop.abort ≠ AcceptLoop.running := by
  cases loop <;> decide

theorem abortAll_runs {s : PortState} {handles : List Nat} {loop : Nat} :
    (abortAll s.loops handles)[loop]? = some AcceptLoop.running <->
      s.runs loop ∧ loop ∉ handles := by
  unfold abortAll PortState.runs
  rw [List.getElem?_mapIdx]
  cases hloop : s.loops[loop]? with
  | none => simp
  | some state =>
      by_cases hmem : loop ∈ handles
      · simp [hmem, abort_ne_running]
      · simp [hmem]

section
variable {rebinds : List Rebind} {call loop : Nat} {phase phase' : Rebind}

/-- A call that moves on keeps a loop if its new phase does. -/
theorem HeldByCall.set (h : HeldByCall rebinds loop) (hcall : rebinds[call]? = some phase)
    (hkeeps : loop ∈ phase.holds -> loop ∈ phase'.holds) :
    HeldByCall (rebinds.set call phase') loop := by
  rcases h with ⟨other, held, hother, hmem⟩
  by_cases hsame : other = call
  · rw [hsame, hcall] at hother
    cases hother
    exact ⟨call, phase', slot_set_self hcall phase', hkeeps hmem⟩
  · exact ⟨other, held, (slot_set_eq_some_iff hcall).mpr (Or.inr ⟨hsame, hother⟩), hmem⟩

theorem heldByCall_of_set (hcall : rebinds[call]? = some phase) (hmem : loop ∈ phase'.holds) :
    HeldByCall (rebinds.set call phase') loop :=
  ⟨call, phase', slot_set_self hcall phase', hmem⟩

theorem HeldByCall.append (h : HeldByCall rebinds loop) (phase : Rebind) :
    HeldByCall (rebinds ++ [phase]) loop := by
  rcases h with ⟨other, held, hother, hmem⟩
  exact ⟨other, held, slot_append_eq_some_iff.mpr (Or.inl hother), hmem⟩

theorem heldByCall_last (rebinds : List Rebind) (hmem : loop ∈ phase.holds) :
    HeldByCall (rebinds ++ [phase]) loop :=
  ⟨rebinds.length, phase, slot_append_eq_some_iff.mpr (Or.inr ⟨rfl, rfl⟩), hmem⟩

theorem notStoring_set (h : forall phase, phase ∈ rebinds -> phase.isStoring = false)
    (hphase : phase'.isStoring = false) :
    forall phase, phase ∈ rebinds.set call phase' -> phase.isStoring = false := by
  intro phase hmem
  rcases List.mem_or_eq_of_mem_set hmem with hold | rfl
  · exact h phase hold
  · exact hphase

end

/-- What a step may do to a port. -/
inductive PortEffect (s : PortState) : PortState -> Prop where
  | taken : PortEffect s { s with
      acceptLoops := []
      rebinds := s.rebinds ++ [Rebind.aborting s.acceptLoops s.acceptLoops] }
  | abortedOne {call handle : Nat} {todo old : List Nat}
      (hcall : s.rebinds[call]? = some (Rebind.aborting (handle :: todo) old)) :
      PortEffect s { s.setRebind call (Rebind.aborting todo old) with
        loops := abortAll s.loops [handle] }
  /-- A call that holds no loop moves on, and still holds none. -/
  | moved {call : Nat} {phase phase' : Rebind} (hcall : s.rebinds[call]? = some phase)
      (hholds : phase.holds = []) (hstoring : phase'.isStoring = false) :
      PortEffect s (s.setRebind call phase')
  | bound {call n : Nat} (hcall : s.rebinds[call]? = some Rebind.binding)
      (hopen : s.released = 0) :
      PortEffect s { s.setRebind call
          (Rebind.storing ((List.range n).map fun i => s.loops.length + i)) with
        loops := s.loops ++ List.replicate n AcceptLoop.running }
  | stored {call : Nat} {new : List Nat} (hcall : s.rebinds[call]? = some (Rebind.storing new))
      (hidle : forall loop, loop ∈ s.acceptLoops -> ¬ s.runs loop) :
      PortEffect s { s.setRebind call Rebind.finished with acceptLoops := new }
  | released (hcalls : forall phase, phase ∈ s.rebinds -> phase.isStoring = false) :
      PortEffect s { s with
        loops := abortAll s.loops s.acceptLoops
        released := s.released + 1 }
  | stopped {loop : Nat} (hloop : s.loops[loop]? = some AcceptLoop.aborted) :
      PortEffect s { s with loops := s.loops.set loop AcceptLoop.stopped }

theorem portStep_effect {s s' : PortState} {a : PortAction} (hstep : portStep s a = some s')
    (hmeets : PortUndisturbed s a) : PortEffect s s' := by
  cases a with
  | startRebind =>
      cases hstep
      exact PortEffect.taken
  | abortNext call =>
      simp only [portStep] at hstep
      split at hstep
      · rename_i hcall
        cases hstep
        exact PortEffect.abortedOne hcall
      · rename_i hcall
        cases hstep
        exact PortEffect.moved hcall rfl rfl
      · cases hstep
  | awaitNext call =>
      simp only [portStep] at hstep
      split at hstep
      · rename_i hcall
        split at hstep
        · cases hstep
          exact PortEffect.moved hcall rfl rfl
        · cases hstep
      · rename_i hcall
        cases hstep
        exact PortEffect.moved hcall rfl rfl
      · cases hstep
  | bind call listeners =>
      simp only [portStep] at hstep
      split at hstep
      · rename_i hcall
        cases hstep
        exact PortEffect.bound hcall hmeets
      · rename_i hcall
        cases hstep
        exact PortEffect.moved hcall rfl rfl
      · cases hstep
  | store call =>
      simp only [portStep] at hstep
      split at hstep
      · rename_i hcall
        cases hstep
        exact PortEffect.stored hcall hmeets
      · cases hstep
  | release =>
      cases hstep
      exact PortEffect.released hmeets
  | stop loop =>
      simp only [portStep] at hstep
      split at hstep
      · rename_i hloop
        cases hstep
        exact PortEffect.stopped hloop
      · cases hstep

theorem runs_of_set_stopped {s : PortState} {loop other : Nat}
    (hloop : s.loops[loop]? = some AcceptLoop.aborted)
    (h : (s.loops.set loop AcceptLoop.stopped)[other]? = some AcceptLoop.running) :
    s.runs other := by
  rcases (slot_set_eq_some_iff hloop).mp h with ⟨_, hstopped⟩ | ⟨_, hruns⟩
  · cases hstopped
  · exact hruns

theorem PortEffect.held {s s' : PortState} (h : PortEffect s s') (hheld : s.Held) : s'.Held := by
  cases h with
  | taken =>
      intro loop hruns
      rcases hheld loop hruns with hport | hcall
      · exact Or.inr (heldByCall_last s.rebinds hport)
      · exact Or.inr (hcall.append _)
  | @abortedOne call handle todo old hcall =>
      intro loop hruns
      rcases abortAll_runs.mp hruns with ⟨hran, hother⟩
      rcases hheld loop hran with hport | hheldBy
      · exact Or.inl hport
      · refine Or.inr (hheldBy.set hcall ?_)
        intro hmem
        rcases List.mem_cons.mp hmem with rfl | htodo
        · exact absurd (List.mem_singleton.mpr rfl) hother
        · exact htodo
  | moved hcall hholds hstoring =>
      intro loop hruns
      rcases hheld loop hruns with hport | hheldBy
      · exact Or.inl hport
      · refine Or.inr (hheldBy.set hcall ?_)
        intro hmem
        rw [hholds] at hmem
        cases hmem
  | @bound call n hcall hopen =>
      intro loop hruns
      have hloops : (s.loops ++ List.replicate n AcceptLoop.running)[loop]? =
          some AcceptLoop.running := hruns
      by_cases hold : loop < s.loops.length
      · rw [List.getElem?_append_left hold] at hloops
        rcases hheld loop hloops with hport | hheldBy
        · exact Or.inl hport
        · exact Or.inr (hheldBy.set hcall nofun)
      · have hlt := slot_lt hloops
        rw [List.length_append, List.length_replicate] at hlt
        refine Or.inr (heldByCall_of_set hcall (List.mem_map.mpr ⟨loop - s.loops.length, ?_, ?_⟩))
        · rw [List.mem_range]
          omega
        · omega
  | @stored call new hcall hidle =>
      intro loop hruns
      rcases hheld loop hruns with hport | ⟨other, phase, hother, hmem⟩
      · exact absurd hruns (hidle loop hport)
      · by_cases hsame : other = call
        · rw [hsame, hcall] at hother
          cases hother
          exact Or.inl hmem
        · exact Or.inr ⟨other, phase,
            (slot_set_eq_some_iff hcall).mpr (Or.inr ⟨hsame, hother⟩), hmem⟩
  | released hcalls =>
      intro loop hruns
      rcases abortAll_runs.mp hruns with ⟨hran, hother⟩
      rcases hheld loop hran with hport | hheldBy
      · exact absurd hport hother
      · exact Or.inr hheldBy
  | stopped hloop =>
      intro loop hruns
      exact hheld loop (runs_of_set_stopped hloop hruns)

theorem PortEffect.quiet {s s' : PortState} (h : PortEffect s s') (hquiet : s.Quiet) :
    s'.Quiet := by
  cases h with
  | taken =>
      intro hreleased
      constructor
      · nofun
      · intro phase hmem
        rcases List.mem_append.mp hmem with hold | hlast
        · exact (hquiet hreleased).right phase hold
        · rw [List.mem_singleton.mp hlast]
          rfl
  | abortedOne hcall =>
      intro hreleased
      rcases hquiet hreleased with ⟨hidle, hcalls⟩
      constructor
      · intro loop hmem hruns
        exact hidle loop hmem (abortAll_runs.mp hruns).left
      · exact notStoring_set hcalls rfl
  | moved hcall hholds hstoring =>
      intro hreleased
      rcases hquiet hreleased with ⟨hidle, hcalls⟩
      exact ⟨hidle, notStoring_set hcalls hstoring⟩
  | bound hcall hopen =>
      intro hreleased
      have hzero : 0 < s.released := hreleased
      omega
  | stored hcall hidle =>
      intro hreleased
      have hstoring := (hquiet hreleased).right _ (List.mem_of_getElem? hcall)
      cases hstoring
  | released hcalls =>
      intro _
      constructor
      · intro loop hmem hruns
        exact (abortAll_runs.mp hruns).right hmem
      · exact hcalls
  | stopped hloop =>
      intro hreleased
      rcases hquiet hreleased with ⟨hidle, hcalls⟩
      constructor
      · intro loop hmem hruns
        exact hidle loop hmem (runs_of_set_stopped hloop hruns)
      · exact hcalls

theorem held_serve (listeners : Nat) : (PortState.serve listeners).Held := by
  intro loop hruns
  have hlt := slot_lt hruns
  refine Or.inl (List.mem_range.mpr ?_)
  simpa [PortState.serve] using hlt

/-- In every run in which a released port is not bound again, nothing is on its way into a
port that is released and nobody's loops are overwritten: once a release has returned and
every rebind has finished, no accept loop runs. -/
theorem released_port_stays_released {listeners : Nat} {acts : List PortAction} {s : PortState}
    (hrun : Run portStep (PortState.serve listeners) acts s)
    (hmeets : Meets portStep PortUndisturbed (PortState.serve listeners) acts)
    (hreleased : 0 < s.released)
    (hfinished : forall phase, phase ∈ s.rebinds -> phase = Rebind.finished) :
    forall loop, ¬ s.runs loop := by
  have hboth : s.Held ∧ s.Quiet := by
    refine @Run.invariant_of_meets _ _ portStep PortUndisturbed (fun s => s.Held ∧ s.Quiet) ?_ _ _ _
      hrun hmeets ⟨held_serve listeners, nofun⟩
    intro s a s' hinv hcond hstep
    have heffect := portStep_effect hstep hcond
    exact ⟨heffect.held hinv.left, heffect.quiet hinv.right⟩
  rcases hboth with ⟨hheld, hquiet⟩
  intro loop hruns
  rcases hheld loop hruns with hport | ⟨call, phase, hcall, hmem⟩
  · exact (hquiet hreleased).left loop hport hruns
  · rw [hfinished phase (List.mem_of_getElem? hcall)] at hmem
    cases hmem

/-!
## A port that is released while it is being bound
-/

/-- The proxy goes while its port is being bound again. -/
def releasedMeanwhile : List PortAction :=
  [PortAction.startRebind, PortAction.abortNext 0, PortAction.abortNext 0, PortAction.stop 0,
    PortAction.awaitNext 0, PortAction.awaitNext 0, PortAction.release,
    PortAction.bind 0 (some 1), PortAction.store 0]

/-- Its new loop runs on. -/
theorem loop_runs_after_release :
    exists s, Run portStep (PortState.serve 1) releasedMeanwhile s ∧ 0 < s.released ∧
      (forall phase, phase ∈ s.rebinds -> phase = Rebind.finished) ∧
      exists loop, s.runs loop := by
  refine ⟨{ loops := [AcceptLoop.stopped, AcceptLoop.running], acceptLoops := [1]
            rebinds := [Rebind.finished], released := 1 }, run_iff_exec.mpr (by decide), by decide,
    by decide, 1, rfl⟩

/-- A port that is bound again, and then released. -/
def reboundThenReleased : List PortAction :=
  [PortAction.startRebind, PortAction.abortNext 0, PortAction.abortNext 0, PortAction.stop 0,
    PortAction.awaitNext 0, PortAction.awaitNext 0, PortAction.bind 0 (some 1),
    PortAction.store 0, PortAction.release]

theorem released_port_stays_released_after_rebind :
    ¬ PortState.runs
      { loops := [AcceptLoop.stopped, AcceptLoop.aborted], acceptLoops := [1]
        rebinds := [Rebind.finished], released := 1 } 1 := by
  have hrun : Run portStep (PortState.serve 1) reboundThenReleased
      { loops := [AcceptLoop.stopped, AcceptLoop.aborted], acceptLoops := [1]
        rebinds := [Rebind.finished], released := 1 } :=
    run_iff_exec.mpr (by decide)
  have hmeets : Meets portStep PortUndisturbed (PortState.serve 1) reboundThenReleased := by
    decide
  exact released_port_stays_released hrun hmeets (by decide) (by decide) 1

end Guest
end WispersAccess
