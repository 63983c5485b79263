/-!
# Runs of action systems

A system is given by a partial step function: `step s a` is the state after
action `a`, or nothing where the action is not enabled in `s`.  This module
collects what proofs about such systems share: runs, their splitting, the
induction that turns a step lemma into a run lemma, and the observations a run
leaves behind.
-/

namespace WispersAccess
namespace Foundation

variable {State Action Obs : Type _}

/-- The actions, taken one after the other, lead from the first state to the last. -/
inductive Run (step : State -> Action -> Option State) :
    State -> List Action -> State -> Prop where
  | nil (s : State) : Run step s [] s
  | cons {s mid t : State} {a : Action} {rest : List Action} :
      step s a = some mid -> Run step mid rest t -> Run step s (a :: rest) t

/-- The executable form of a run. -/
def exec (step : State -> Action -> Option State) : State -> List Action -> Option State
  | s, [] => some s
  | s, a :: rest => (step s a).bind fun mid => exec step mid rest

/-- Every action of a run meets `C` in the state it is taken in. -/
def Meets (step : State -> Action -> Option State) (C : State -> Action -> Prop) :
    State -> List Action -> Prop
  | _, [] => True
  | s, a :: rest => C s a ∧ forall mid, step s a = some mid -> Meets step C mid rest

/-- What `observe` sees along a run, in order. -/
def observations (step : State -> Action -> Option State)
    (observe : State -> Action -> Option Obs) : State -> List Action -> List Obs
  | _, [] => []
  | s, a :: rest =>
      (observe s a).toList ++
        match step s a with
        | none => []
        | some mid => observations step observe mid rest

variable {step : State -> Action -> Option State}

/-!
## Splitting and joining runs
-/

theorem run_iff_exec {s t : State} {acts : List Action} :
    Run step s acts t <-> exec step s acts = some t := by
  constructor
  · intro h
    induction h with
    | nil s => rfl
    | cons hstep _ ih =>
        simp only [exec, hstep, Option.bind_some]
        exact ih
  · intro h
    induction acts generalizing s with
    | nil =>
        cases h
        exact Run.nil _
    | cons a rest ih =>
        rcases Option.bind_eq_some_iff.mp h with ⟨mid, hstep, hrest⟩
        exact Run.cons hstep (ih hrest)

theorem Run.single {s t : State} {a : Action} (h : step s a = some t) :
    Run step s [a] t :=
  Run.cons h (Run.nil t)

theorem Run.append {s mid t : State} {front back : List Action}
    (hfront : Run step s front mid) (hback : Run step mid back t) :
    Run step s (front ++ back) t := by
  induction hfront with
  | nil s => exact hback
  | cons hstep _ ih => exact Run.cons hstep (ih hback)

theorem Run.split {s t : State} {front back : List Action}
    (h : Run step s (front ++ back) t) :
    exists mid, Run step s front mid ∧ Run step mid back t := by
  induction front generalizing s with
  | nil => exact ⟨s, Run.nil s, h⟩
  | cons a rest ih =>
      cases h with
      | cons hstep hrest =>
          rcases ih hrest with ⟨mid, hfront, hback⟩
          exact ⟨mid, Run.cons hstep hfront, hback⟩

theorem Run.unique {s t u : State} {acts : List Action}
    (ht : Run step s acts t) (hu : Run step s acts u) : t = u := by
  rw [run_iff_exec] at ht hu
  exact Option.some.inj (ht.symm.trans hu)

/-- Whether a run meets a condition can be computed. -/
instance decidableMeets {C : State -> Action -> Prop} [forall s a, Decidable (C s a)] :
    (s : State) -> (acts : List Action) -> Decidable (Meets step C s acts)
  | _, [] => isTrue trivial
  | s, a :: rest =>
      match hstep : step s a with
      | none => decidable_of_iff (C s a) (by simp [Meets, hstep])
      | some mid =>
          have _ : Decidable (Meets step C mid rest) := decidableMeets mid rest
          decidable_of_iff (C s a ∧ Meets step C mid rest) (by simp [Meets, hstep])

theorem meets_append {C : State -> Action -> Prop} {s mid : State}
    {front back : List Action} (hrun : Run step s front mid) :
    Meets step C s (front ++ back) <->
      Meets step C s front ∧ Meets step C mid back := by
  induction hrun with
  | nil s => simp [Meets]
  | cons hstep _ ih =>
      simp only [List.cons_append, Meets, hstep, Option.some.injEq, forall_eq', ih]
      exact and_assoc.symm

theorem meets_congr {C D : State -> Action -> Prop}
    (hCD : forall s a, C s a <-> D s a) {s : State} {acts : List Action} :
    Meets step C s acts <-> Meets step D s acts := by
  induction acts generalizing s with
  | nil => exact Iff.rfl
  | cons a rest ih => simp only [Meets, hCD, ih]

theorem meets_of_forall {C : State -> Action -> Prop} {acts : List Action}
    (h : forall a, a ∈ acts -> forall s, C s a) (s : State) : Meets step C s acts := by
  induction acts generalizing s with
  | nil => trivial
  | cons a rest ih =>
      refine ⟨h a (List.mem_cons_self ..) s, ?_⟩
      intro mid _
      exact ih (fun b hb => h b (List.mem_cons_of_mem _ hb)) mid

/-!
## Invariants

A step lemma may use a condition that every step of the run meets; the run
lemma then carries the invariant to the last state.
-/

theorem Run.invariant_of_meets {C : State -> Action -> Prop} {I : State -> Prop}
    (hpreserves : forall s a t, I s -> C s a -> step s a = some t -> I t)
    {s t : State} {acts : List Action}
    (hrun : Run step s acts t) (hmeets : Meets step C s acts) (hs : I s) : I t := by
  induction hrun with
  | nil s => exact hs
  | cons hstep _ ih =>
      exact ih (hmeets.right _ hstep) (hpreserves _ _ _ hs hmeets.left hstep)

theorem Run.invariant {I : State -> Prop}
    (hpreserves : forall s a t, I s -> step s a = some t -> I t)
    {s t : State} {acts : List Action}
    (hrun : Run step s acts t) (hs : I s) : I t := by
  induction hrun with
  | nil s => exact hs
  | cons hstep _ ih => exact ih (hpreserves _ _ _ hs hstep)

/-!
## The past of a run
-/

/-- The run passes the state. -/
def Passes (step : State -> Action -> Option State) (start : State) (acts : List Action)
    (u : State) : Prop :=
  exists front back, acts = front ++ back ∧ Run step start front u

theorem Run.passes {start s : State} {acts : List Action} (hrun : Run step start acts s) :
    Passes step start acts s :=
  ⟨acts, [], (List.append_nil acts).symm, hrun⟩

theorem Passes.append {start u : State} {acts : List Action} (h : Passes step start acts u)
    (more : List Action) : Passes step start (acts ++ more) u := by
  rcases h with ⟨front, back, rfl, hfront⟩
  exact ⟨front, back ++ more, List.append_assoc front back more, hfront⟩

theorem Passes.first {start mid u : State} {a : Action} {rest : List Action}
    (hstep : step start a = some mid) (h : Passes step mid rest u) :
    Passes step start (a :: rest) u := by
  rcases h with ⟨front, back, rfl, hfront⟩
  exact ⟨a :: front, back, rfl, Run.cons hstep hfront⟩

/-- The run takes the action, after a past and in a state that the property is of. -/
def Took (step : State -> Action -> Option State) (start : State) (acts : List Action)
    (a : Action) (P : List Action -> State -> Prop) : Prop :=
  exists front back u, acts = front ++ a :: back ∧ Run step start front u ∧ P front u

theorem Took.append {start : State} {acts : List Action} {a : Action}
    {P : List Action -> State -> Prop} (h : Took step start acts a P) (more : List Action) :
    Took step start (acts ++ more) a P := by
  rcases h with ⟨front, back, u, rfl, hfront, hP⟩
  exact ⟨front, back ++ more, u, List.append_assoc front (a :: back) more, hfront, hP⟩

theorem Run.took_last {start s : State} {acts : List Action} {a : Action}
    {P : List Action -> State -> Prop} (hrun : Run step start acts s) (hP : P acts s) :
    Took step start (acts ++ [a]) a P :=
  ⟨acts, [], s, rfl, hrun, hP⟩

/-- Where each step decides whether a property goes on to hold, it holds all along the run just
if every step meets the condition. -/
theorem Run.passes_iff_meets {C : State -> Action -> Prop} {B P : State -> Prop}
    (hB : forall s a t, B s -> step s a = some t -> B t)
    (hP : forall s a t, B s -> P s -> step s a = some t -> (C s a <-> P t))
    {start s : State} {acts : List Action} (hrun : Run step start acts s)
    (hstart : B start) (hfirst : P start) :
    (forall u, Passes step start acts u -> P u) <-> Meets step C start acts := by
  induction hrun with
  | nil s =>
      constructor
      · intro _
        trivial
      · intro _ u h
        rcases h with ⟨front, back, hnil, hfront⟩
        rw [(List.append_eq_nil_iff.mp hnil.symm).left] at hfront
        cases hfront
        exact hfirst
  | @cons s mid t a rest hstep _ ih =>
      have hmid := hP s a mid hstart hfirst hstep
      constructor
      · intro hall
        have hpasses : P mid := hall mid ⟨[a], rest, rfl, Run.single hstep⟩
        refine ⟨hmid.mpr hpasses, ?_⟩
        intro mid' hstep'
        rw [hstep] at hstep'
        cases hstep'
        refine (ih (hB s a mid hstart hstep) hpasses).mp ?_
        intro u hu
        exact hall u (hu.first hstep)
      · intro h u hpassed
        rcases h with ⟨hC, hmeets⟩
        rcases hpassed with ⟨front, back, hacts, hfront⟩
        cases hfront with
        | nil => exact hfirst
        | cons hstep' hrest =>
            cases hacts
            rw [hstep] at hstep'
            cases hstep'
            exact (ih (hB s a mid hstart hstep) (hmid.mp hC)).mpr (hmeets mid hstep) u
              ⟨_, back, rfl, hrest⟩

/-- An invariant that may speak of the actions taken so far. -/
theorem Run.invariant_of_past {C : State -> Action -> Prop} {I : List Action -> State -> Prop}
    {start : State} (hstart : I [] start)
    (hpreserves : forall past s a t, Run step start past s -> I past s -> C s a ->
      step s a = some t -> I (past ++ [a]) t)
    {s : State} {acts : List Action} (hrun : Run step start acts s)
    (hmeets : Meets step C start acts) : I acts s := by
  have hall : forall past u, Run step start past u -> I past u ->
      forall rest, Run step u rest s -> Meets step C u rest -> I (past ++ rest) s := by
    clear hrun hmeets
    intro past u hpast hu rest hrest
    induction hrest generalizing past with
    | nil u =>
        intro _
        rw [List.append_nil]
        exact hu
    | @cons u mid s a rest hstep _ ih =>
        intro h
        rcases h with ⟨hC, hmeets⟩
        have hmid := ih (past ++ [a]) (hpast.append (Run.single hstep))
          (hpreserves past u a mid hpast hu hC hstep) (hmeets mid hstep)
        rw [List.append_assoc] at hmid
        exact hmid
  exact hall [] start (Run.nil start) hstart acts hrun hmeets

/-!
## Observations
-/

theorem observations_append {observe : State -> Action -> Option Obs}
    {s mid : State} {front back : List Action} (hrun : Run step s front mid) :
    observations step observe s (front ++ back) =
      observations step observe s front ++ observations step observe mid back := by
  induction hrun with
  | nil s => rfl
  | cons hstep _ ih =>
      simp only [List.cons_append, observations, hstep, ih, List.append_assoc]

theorem mem_observations {observe : State -> Action -> Option Obs}
    {s t : State} {acts : List Action} {o : Obs} (hrun : Run step s acts t)
    (ho : o ∈ observations step observe s acts) :
    exists front a back mid,
      acts = front ++ a :: back ∧ Run step s front mid ∧ observe mid a = some o := by
  induction hrun with
  | nil s => cases ho
  | @cons s next t a rest hstep _ ih =>
      simp only [observations, hstep, List.mem_append, Option.mem_toList] at ho
      cases ho with
      | inl hnow => exact ⟨[], a, rest, s, rfl, Run.nil s, hnow⟩
      | inr hlater =>
          rcases ih hlater with ⟨front, b, back, mid, hacts, hfront, hob⟩
          exact ⟨a :: front, b, back, mid, by rw [hacts]; rfl, Run.cons hstep hfront, hob⟩

end Foundation
end WispersAccess
