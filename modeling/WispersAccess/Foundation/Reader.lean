import Mathlib.Data.List.Induction
import WispersAccess.Foundation.ActionSystem

/-!
# Reading a store query by query

A value that is put together from the answers to several queries, while others
write to the store between any two of them.  Such a reader takes a snapshot where
every write either leaves what is still to be asked, or leaves what was answered.
-/

namespace WispersAccess
namespace Foundation

/-- Asks one query after the other; an answer may decide what is asked next. -/
inductive Reader (Query : Type) (Value : Query -> Type) (α : Type) where
  | done (result : α)
  | ask (query : Query) (next : Value query -> Reader Query Value α)

namespace Reader

variable {Query : Type} {Value : Query -> Type} {α : Type}

/-- The result where nothing is written in between. -/
def eval (get : forall query, Value query) : Reader Query Value α -> α
  | done result => result
  | ask query next => (next (get query)).eval get

/-- The result of a reader that is done. -/
def result : Reader Query Value α -> Option α
  | done result => some result
  | ask _ _ => none

theorem result_eq_some {reader : Reader Query Value α} {value : α}
    (h : reader.result = some value) : reader = done value := by
  cases reader with
  | done result =>
      cases h
      rfl
  | ask query next => cases h

/-- The query may still be asked. -/
def MayAsk (query : Query) : Reader Query Value α -> Prop
  | done _ => False
  | ask first next => query = first ∨ exists value, (next value).MayAsk query

/-- What is left of a reader after some answers. -/
inductive Reaches (whole : Reader Query Value α) :
    List ((query : Query) × Value query) -> Reader Query Value α -> Prop where
  | start : Reaches whole [] whole
  | answer {seen : List ((query : Query) × Value query)} {query : Query}
      {next : Value query -> Reader Query Value α} (h : Reaches whole seen (ask query next))
      (value : Value query) : Reaches whole (seen ++ [⟨query, value⟩]) (next value)

/-- Whatever answers of a kind it gets, it comes to nothing. -/
def Fails (kind : forall query, Value query -> Prop) : Reader Query Value (Option α) -> Prop
  | done result => result = none
  | ask query next => forall value, kind query value -> (next value).Fails kind

/-- Until it is done, answers of a kind make it come to nothing. -/
def Guarded (kind : forall query, Value query -> Prop) : Reader Query Value (Option α) -> Prop
  | done _ => True
  | ask query next =>
      (ask query next).Fails kind ∧ forall value, (next value).Guarded kind

theorem eval_congr {get get' : forall query, Value query} {reader : Reader Query Value α}
    (h : forall query, reader.MayAsk query -> get query = get' query) :
    reader.eval get = reader.eval get' := by
  induction reader with
  | done result => rfl
  | ask query next ih =>
      show (next (get query)).eval get = (next (get' query)).eval get'
      rw [← h query (Or.inl rfl)]
      exact ih (get query) fun other hother => h other (Or.inr ⟨_, hother⟩)

/-- Where the answers given still hold, reading all over again comes to what the rest does. -/
theorem Reaches.eval_eq {whole rest : Reader Query Value α}
    {seen : List ((query : Query) × Value query)} {get : forall query, Value query}
    (h : Reaches whole seen rest) (hseen : forall e, e ∈ seen -> get e.1 = e.2) :
    whole.eval get = rest.eval get := by
  induction h with
  | start => rfl
  | @answer seen query next _ value ih =>
      have hvalue : get query = value :=
        hseen ⟨query, value⟩ (List.mem_append_right _ (List.mem_singleton_self _))
      rw [ih fun e he => hseen e (List.mem_append_left _ he)]
      show (next (get query)).eval get = (next value).eval get
      rw [hvalue]

end Reader

/-!
## Reading beside writers
-/

/-- A store with a reader, and what it was answered. -/
structure Reading (State Query : Type) (Value : Query -> Type) (α : Type) where
  store : State
  seen : List ((query : Query) × Value query)
  rest : Reader Query Value α

inductive ReadingAction (Op : Type) where
  | read
  | write (op : Op)
  deriving DecidableEq

section
variable {State Query Op : Type} {Value : Query -> Type} {α : Type}

def Reading.start (store : State) (whole : Reader Query Value α) : Reading State Query Value α where
  store := store
  seen := []
  rest := whole

variable (get : State -> (query : Query) -> Value query) (write : State -> Op -> Option State)

/-- The reader asks, or somebody writes. -/
def readingStep (s : Reading State Query Value α) :
    ReadingAction Op -> Option (Reading State Query Value α)
  | ReadingAction.read =>
      match s.rest with
      | Reader.done _ => none
      | Reader.ask query next =>
          some { s with
            seen := s.seen ++ [⟨query, get s.store query⟩]
            rest := next (get s.store query) }
  | ReadingAction.write op => (write s.store op).map fun store => { s with store := store }

/-- A write leaves what may still be asked, or leaves what was answered, or makes the reading
fail. -/
def Undisturbed (gone : State -> Prop) (s : Reading State Query Value α) :
    ReadingAction Op -> Prop
  | ReadingAction.read => True
  | ReadingAction.write op =>
      forall store, write s.store op = some store ->
        (forall query, s.rest.MayAsk query -> get store query = get s.store query) ∨
          (forall e, e ∈ s.seen -> get store e.1 = e.2) ∨ gone store

/-- The reading so far agrees with a state that the run went through. -/
def Snapshot (first : Reading State Query Value α) (acts : List (ReadingAction Op))
    (s : Reading State Query Value α) : Prop :=
  exists front back mid, acts = front ++ back ∧
    Run (readingStep get write) first front mid ∧
    first.rest.eval (get mid.store) = s.rest.eval (get s.store)

end

section
variable {State Query Op : Type} {Value : Query -> Type} {α : Type}
  {get : State -> (query : Query) -> Value query} {write : State -> Op -> Option State}

theorem Snapshot.snoc {first s t : Reading State Query Value α} {acts : List (ReadingAction Op)}
    (h : Snapshot get write first acts s) (a : ReadingAction Op)
    (heval : t.rest.eval (get t.store) = s.rest.eval (get s.store)) :
    Snapshot get write first (acts ++ [a]) t := by
  rcases h with ⟨front, back, mid, rfl, hrun, hmid⟩
  exact ⟨front, back ++ [a], mid, List.append_assoc .., hrun, hmid.trans heval.symm⟩

/-- Where the store makes readings fail and keeps doing so. -/
structure Failing (get : State -> (query : Query) -> Value query)
    (write : State -> Op -> Option State) (gone : State -> Prop)
    (kind : forall query, Value query -> Prop) : Prop where
  answers : forall store query, gone store -> kind query (get store query)
  keeps : forall store op store', gone store -> write store op = some store' -> gone store'

variable {gone : State -> Prop} {kind : forall query, Value query -> Prop}

/-- What holds of a reading after the actions of a run. -/
structure ReadingHolds (get : State -> (query : Query) -> Value query)
    (write : State -> Op -> Option State) (gone : State -> Prop)
    (kind : forall query, Value query -> Prop) (first : Reading State Query Value (Option α))
    (acts : List (ReadingAction Op)) (s : Reading State Query Value (Option α)) : Prop where
  reaches : Reader.Reaches first.rest s.seen s.rest
  guarded : s.rest.Guarded kind
  snapshot : Snapshot get write first acts s ∨ (gone s.store ∧ s.rest.Fails kind)

theorem ReadingHolds.asked {first s t : Reading State Query Value (Option α)}
    {acts : List (ReadingAction Op)} (hfailing : Failing get write gone kind)
    (hs : ReadingHolds get write gone kind first acts s)
    (hstep : readingStep get write s ReadingAction.read = some t) :
    ReadingHolds get write gone kind first (acts ++ [ReadingAction.read]) t := by
  rcases s with ⟨store, seen, rest⟩
  cases rest with
  | done result => cases hstep
  | ask query next =>
      cases hstep
      constructor
      · exact hs.reaches.answer _
      · exact hs.guarded.right _
      · rcases hs.snapshot with hsnapshot | ⟨hgone, hfails⟩
        · exact Or.inl (hsnapshot.snoc _ rfl)
        · exact Or.inr ⟨hgone, hfails _ (hfailing.answers store query hgone)⟩

theorem ReadingHolds.written {first s t : Reading State Query Value (Option α)}
    {acts : List (ReadingAction Op)} {op : Op} (hfailing : Failing get write gone kind)
    (hrun : Run (readingStep get write) first acts s)
    (hs : ReadingHolds get write gone kind first acts s)
    (hundisturbed : Undisturbed get write gone s (ReadingAction.write op))
    (hstep : readingStep get write s (ReadingAction.write op) = some t) :
    ReadingHolds get write gone kind first (acts ++ [ReadingAction.write op]) t := by
  rcases s with ⟨old, seen, rest⟩
  rcases Option.map_eq_some_iff.mp hstep with ⟨store, hwrite, rfl⟩
  refine ⟨hs.reaches, hs.guarded, ?_⟩
  rcases hs.snapshot with hsnapshot | ⟨hgone, hfails⟩
  · rcases hundisturbed store hwrite with hask | hseen | hgone
    · exact Or.inl (hsnapshot.snoc _ (Reader.eval_congr hask))
    · -- what was answered holds after the write
      exact Or.inl ⟨_, [], _, (List.append_nil _).symm, hrun.append (Run.single hstep),
        hs.reaches.eval_eq hseen⟩
    · cases rest with
      | done result => exact Or.inl (hsnapshot.snoc _ rfl)
      | ask query next => exact Or.inr ⟨hgone, hs.guarded.left⟩
  · exact Or.inr ⟨hfailing.keeps _ _ _ hgone hwrite, hfails⟩

theorem reading_holds (hfailing : Failing get write gone kind)
    {first s : Reading State Query Value (Option α)} (hfirst : first.seen = [])
    (hguarded : first.rest.Guarded kind) {acts : List (ReadingAction Op)}
    (hrun : Run (readingStep get write) first acts s)
    (hmeets : Meets (readingStep get write) (Undisturbed get write gone) first acts) :
    ReadingHolds get write gone kind first acts s := by
  induction acts using List.reverseRecOn generalizing s with
  | nil =>
      cases hrun
      refine ⟨?_, hguarded, Or.inl ⟨[], [], first, rfl, Run.nil _, rfl⟩⟩
      rw [hfirst]
      exact Reader.Reaches.start
  | append_singleton acts a ih =>
      rcases hrun.split with ⟨mid, hfront, hlast⟩
      rcases (meets_append hfront).mp hmeets with ⟨hbefore, hundisturbed, -⟩
      have hmid := ih hfront hbefore
      cases hlast with
      | cons hstep hnil =>
          cases hnil
          cases a with
          | read => exact hmid.asked hfailing hstep
          | write op => exact hmid.written hfailing hfront hundisturbed hstep

/-- What an undisturbed reading comes to is what it would have come to in one go, at some state
that the run went through. -/
theorem reading_takes_snapshot (hfailing : Failing get write gone kind)
    {first s : Reading State Query Value (Option α)} (hfirst : first.seen = [])
    (hguarded : first.rest.Guarded kind) {acts : List (ReadingAction Op)}
    (hrun : Run (readingStep get write) first acts s)
    (hmeets : Meets (readingStep get write) (Undisturbed get write gone) first acts) {result : α}
    (hresult : s.rest.result = some (some result)) :
    exists front back mid, acts = front ++ back ∧
      Run (readingStep get write) first front mid ∧
      first.rest.eval (get mid.store) = some result := by
  have hs := reading_holds hfailing hfirst hguarded hrun hmeets
  have hdone := Reader.result_eq_some hresult
  rcases hs.snapshot with ⟨front, back, mid, hacts, hmid, heval⟩ | ⟨-, hfails⟩
  · rw [hdone] at heval
    exact ⟨front, back, mid, hacts, hmid, heval⟩
  · rw [hdone] at hfails
    cases hfails

end

end Foundation
end WispersAccess
