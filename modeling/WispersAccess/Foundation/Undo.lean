import Mathlib.Data.List.Basic

/-!
# Scripts that are rolled back

A script carries out operations on a world, and registers between them how to
undo what is done.  When it stops half way, the undo steps registered by then are
run, the last one first.
-/

namespace WispersAccess
namespace Foundation

variable {Op ε World : Type _}

/-- How an operation fails. -/
inductive Fault where
  /-- Nothing has changed. -/
  | before
  /-- It has taken effect, and reports an error all the same. -/
  | after
  deriving DecidableEq, Repr

inductive ScriptStep (Op ε World : Type _) where
  | act (op : Op) (effect : World -> World)
  /-- Go on only if the world is as it has to be. -/
  | require (e : ε) (holds : World -> Bool)
  | push (what : String) (undo : World -> World)

abbrev Script (Op ε World : Type _) := List (ScriptStep Op ε World)

/-- Why a script stops. -/
inductive Stop (Op ε : Type _) where
  | failed (op : Op)
  | refused (e : ε)
  deriving DecidableEq, Repr

/-- A script under way: the world, and the undo steps in the order they were registered. -/
structure Job (World : Type _) where
  world : World
  undos : List (String × (World -> World))

namespace Job

def start (w : World) : Job World where
  world := w
  undos := []

def apply (job : Job World) (effect : World -> World) : Job World :=
  { job with world := effect job.world }

def push (job : Job World) (what : String) (undo : World -> World) : Job World :=
  { job with undos := job.undos ++ [(what, undo)] }

/-- The world after the undo steps, of which the last is run first. -/
def rolledBack (job : Job World) : World :=
  job.undos.foldr (fun u w => u.2 w) job.world

@[simp] theorem rolledBack_push (job : Job World) (what : String) (undo : World -> World) :
    (job.push what undo).rolledBack = (job.apply undo).rolledBack := by
  simp [rolledBack, push, apply, List.foldr_append]

end Job

namespace Script

def exec (faults : Op -> Option Fault) :
    Script Op ε World -> Job World -> Except (Stop Op ε) Unit × Job World
  | [], job => (Except.ok (), job)
  | ScriptStep.act op effect :: rest, job =>
      match faults op with
      | some Fault.before => (Except.error (Stop.failed op), job)
      | some Fault.after => (Except.error (Stop.failed op), job.apply effect)
      | none => exec faults rest (job.apply effect)
  | ScriptStep.require e holds :: rest, job =>
      if holds job.world then exec faults rest job
      else (Except.error (Stop.refused e), job)
  | ScriptStep.push what undo :: rest, job => exec faults rest (job.push what undo)

/-- Run a script, and roll it back if it stops. -/
def attempt (faults : Op -> Option Fault) (script : Script Op ε World) (w : World) :
    Except (Stop Op ε) Unit × World :=
  match exec faults script (Job.start w) with
  | (Except.ok (), job) => (Except.ok (), job.world)
  | (Except.error e, job) => (Except.error e, job.rolledBack)

/-- The first operation that fails, if the script gets that far. -/
def firstFailing (faults : Op -> Option Fault) : Script Op ε World -> Option (Op × Fault)
  | [] => none
  | ScriptStep.act op _ :: rest =>
      match faults op with
      | some fault => some (op, fault)
      | none => firstFailing faults rest
  | ScriptStep.require _ _ :: rest => firstFailing faults rest
  | ScriptStep.push _ _ :: rest => firstFailing faults rest

/-- The result of a script whose requirements are met. -/
def outcome (faults : Op -> Option Fault) (script : Script Op ε World) :
    Except (Stop Op ε) Unit :=
  match firstFailing faults script with
  | none => Except.ok ()
  | some p => Except.error (Stop.failed p.1)

/-- The operations of a script. -/
def ops : Script Op ε World -> List Op
  | [] => []
  | ScriptStep.act op _ :: rest => op :: ops rest
  | ScriptStep.require _ _ :: rest => ops rest
  | ScriptStep.push _ _ :: rest => ops rest

/-- The script has no requirements. -/
def Unconditional (script : Script Op ε World) : Prop :=
  forall step, step ∈ script -> forall e holds, step ≠ ScriptStep.require e holds

section
variable {faults : Op -> Option Fault} {script rest : Script Op ε World} {job job' : Job World}

theorem exec_act (op : Op) (effect : World -> World) (job : Job World) :
    exec faults (ScriptStep.act op effect :: rest) job =
      match faults op with
      | some Fault.before => (Except.error (Stop.failed op), job)
      | some Fault.after => (Except.error (Stop.failed op), job.apply effect)
      | none => exec faults rest (job.apply effect) := rfl

theorem exec_require (e : ε) (holds : World -> Bool) (job : Job World) :
    exec faults (ScriptStep.require e holds :: rest) job =
      if holds job.world then exec faults rest job
      else (Except.error (Stop.refused e), job) := rfl

theorem firstFailing_act (op : Op) (effect : World -> World) :
    firstFailing faults (ScriptStep.act op effect :: rest) =
      match faults op with
      | some fault => some (op, fault)
      | none => firstFailing faults rest := rfl

theorem exec_append (job : Job World) : exec faults (script ++ rest) job =
    match exec faults script job with
    | (Except.ok (), job') => exec faults rest job'
    | (Except.error e, job') => (Except.error e, job') := by
  induction script generalizing job with
  | nil => rfl
  | cons step script ih =>
      cases step with
      | act op effect =>
          rw [List.cons_append, exec_act, exec_act]
          cases hfault : faults op with
          | none => exact ih _
          | some fault => cases fault <;> rfl
      | require e holds =>
          rw [List.cons_append, exec_require, exec_require]
          by_cases hholds : holds job.world = true
          · rw [if_pos hholds, if_pos hholds]
            exact ih _
          · rw [if_neg hholds, if_neg hholds]
      | push what undo => exact ih _

theorem exec_noFaults (h : exec faults script job = (Except.ok (), job')) :
    exec (fun _ => none) script job = (Except.ok (), job') := by
  induction script generalizing job with
  | nil => exact h
  | cons step script ih =>
      cases step with
      | act op effect =>
          rw [exec_act] at h
          split at h
          · cases h
          · cases h
          · exact ih h
      | require e holds =>
          rw [exec_require] at h
          split at h
          · rename_i hholds
            rw [exec_require, if_pos hholds]
            exact ih h
          · cases h
      | push what undo => exact ih h

theorem attempt_ok {w : World} (h : exec faults script (Job.start w) = (Except.ok (), job)) :
    attempt faults script w = (Except.ok (), job.world) := by
  rw [attempt, h]

theorem attempt_error {w : World} {e : Stop Op ε} (job : Job World)
    (h : exec faults script (Job.start w) = (Except.error e, job)) :
    attempt faults script w = (Except.error e, job.rolledBack) := by
  rw [attempt, h]

/-- A script that comes to its end does what it does when nothing fails. -/
theorem attempt_noFaults {w w' : World} (h : attempt faults script w = (Except.ok (), w')) :
    attempt (fun _ => none) script w = (Except.ok (), w') := by
  unfold attempt at h
  split at h
  · rename_i job hexec
    rw [attempt_ok (exec_noFaults hexec)]
    exact h
  · cases h

theorem firstFailing_append : firstFailing faults (script ++ rest) =
    (firstFailing faults script).or (firstFailing faults rest) := by
  induction script with
  | nil => rfl
  | cons step script ih =>
      cases step with
      | act op effect =>
          rw [List.cons_append, firstFailing_act, firstFailing_act]
          cases hfault : faults op with
          | none => exact ih
          | some fault => rfl
      | require e holds => exact ih
      | push what undo => exact ih

theorem mem_ops_of_firstFailing {p : Op × Fault} (h : firstFailing faults script = some p) :
    p.1 ∈ ops script := by
  induction script with
  | nil => cases h
  | cons step script ih =>
      cases step with
      | act op effect =>
          rw [firstFailing_act] at h
          split at h
          · cases h
            exact List.mem_cons_self
          · exact List.mem_cons_of_mem _ (ih h)
      | require e holds => exact ih h
      | push what undo => exact ih h

/-- A script in which nothing fails runs as it does without faults. -/
theorem exec_of_firstFailing_none (h : firstFailing faults script = none) (job : Job World) :
    exec faults script job = exec (fun _ => none) script job := by
  induction script generalizing job with
  | nil => rfl
  | cons step script ih =>
      cases step with
      | act op effect =>
          rw [firstFailing_act] at h
          split at h
          · cases h
          · rename_i hnone
            rw [exec_act, exec_act, hnone]
            exact ih h _
      | require e holds =>
          rw [exec_require, exec_require, ih h]
      | push what undo => exact ih h _

theorem attempt_of_firstFailing_none (h : firstFailing faults script = none) (w : World) :
    attempt faults script w = attempt (fun _ => none) script w := by
  rw [attempt, exec_of_firstFailing_none h, attempt]

/-- A script without requirements stops at the first operation that fails, and there only. -/
theorem exec_unconditional (h : Unconditional script) (job : Job World) :
    (exec faults script job).1 = outcome faults script := by
  induction script generalizing job with
  | nil => rfl
  | cons step script ih =>
      have hrest : Unconditional script := fun s hs => h s (List.mem_cons_of_mem _ hs)
      cases step with
      | act op effect =>
          rw [exec_act, outcome, firstFailing_act]
          cases hfault : faults op with
          | none => exact ih hrest _
          | some fault => cases fault <;> rfl
      | require e holds => exact absurd rfl (h _ List.mem_cons_self e holds)
      | push what undo => exact ih hrest _

/-- A step keeps what is known of a job. -/
def StepKeeps (P : Job World -> Prop) : ScriptStep Op ε World -> Prop
  | ScriptStep.act _ effect => forall job, P job -> P (job.apply effect)
  | ScriptStep.require _ _ => True
  | ScriptStep.push what undo => forall job, P job -> P (job.push what undo)

/-- What every step keeps, the script keeps, wherever it stops. -/
theorem exec_keeps {P : Job World -> Prop} (hsteps : forall step, step ∈ script -> StepKeeps P step)
    (h : P job) : P (exec faults script job).2 := by
  induction script generalizing job with
  | nil => exact h
  | cons step script ih =>
      have hrest : forall step, step ∈ script -> StepKeeps P step :=
        fun s hs => hsteps s (List.mem_cons_of_mem _ hs)
      have hstep := hsteps step List.mem_cons_self
      cases step with
      | act op effect =>
          rw [exec_act]
          split
          · exact h
          · exact hstep job h
          · exact ih hrest (hstep job h)
      | require e holds =>
          rw [exec_require]
          split
          · exact ih hrest h
          · exact h
      | push what undo => exact ih hrest (hstep job h)

end

end Script

end Foundation
end WispersAccess
