/-!
# Database transactions

A transaction executes statements on its own view of the database, any of which
may be refused or fail.  Its writes are there once it has committed; one that
fails, or is dropped before, leaves the database as it was.
-/

namespace WispersAccess
namespace Foundation

variable {Db ε α β : Type _}

/-- A transaction under way: what it sees, and how many statements it has executed. -/
structure Session (Db : Type _) where
  view : Db
  executed : Nat

/-- Which statements fail for reasons of their own.  The transaction begins with the first and
commits with the last. -/
abbrev Faults (ε : Type _) := Nat -> Option ε

/-- A part of a transaction. -/
def Tx (Db ε α : Type _) := Faults ε -> Session Db -> Except ε (α × Session Db)

inductive Ending (α : Type _) where
  | committed (a : α)
  /-- The transaction goes out of scope without a commit. -/
  | dropped (a : α)

namespace Tx

instance : Monad (Tx Db ε) where
  pure a := fun _ s => Except.ok (a, s)
  bind x f := fun faults s =>
    match x faults s with
    | Except.error e => Except.error e
    | Except.ok (a, s') => f a faults s'

/-- One statement: it reads and writes, or is refused. -/
def statement (f : Db -> Except ε (α × Db)) : Tx Db ε α := fun faults s =>
  match faults s.executed with
  | some e => Except.error e
  | none =>
      match f s.view with
      | Except.error e => Except.error e
      | Except.ok (a, view) => Except.ok (a, { view, executed := s.executed + 1 })

/-- A query, which leaves everything as it is. -/
def query (f : Db -> α) : Tx Db ε α :=
  statement fun db => Except.ok (f db, db)

/-- A statement that is never refused. -/
def execute (f : Db -> Db) : Tx Db ε Unit :=
  statement fun db => Except.ok ((), f db)

/-- From its `BEGIN` to its `COMMIT`, where it comes to that. -/
def bracket (tx : Tx Db ε (Ending α)) : Tx Db ε (Ending α) := do
  execute id
  let ending <- tx
  match ending with
  | Ending.dropped _ => return ending
  | Ending.committed _ =>
      execute id
      return ending

/-- Run a transaction on a database. -/
def transact (faults : Faults ε) (tx : Tx Db ε (Ending α)) (db : Db) : Except ε α × Db :=
  match bracket tx faults { view := db, executed := 0 } with
  | Except.error e => (Except.error e, db)
  | Except.ok (Ending.dropped a, _) => (Except.ok a, db)
  | Except.ok (Ending.committed a, s) => (Except.ok a, s.view)

/-!
## Without faults
-/

def noFaults : Faults ε := fun _ => none

section
variable {x : Tx Db ε α} {f : α -> Tx Db ε β} {faults : Faults ε} {s s' : Session Db} {a : α}
  {e : ε}

@[simp] theorem pure_run : (pure a : Tx Db ε α) faults s = Except.ok (a, s) :=
  rfl

theorem bind_ok (h : x faults s = Except.ok (a, s')) : (x >>= f) faults s = f a faults s' := by
  show (match x faults s with
    | Except.error e => Except.error e
    | Except.ok (a, s') => f a faults s') = _
  rw [h]

theorem bind_error (h : x faults s = Except.error e) : (x >>= f) faults s = Except.error e := by
  show (match x faults s with
    | Except.error e => Except.error e
    | Except.ok (a, s') => f a faults s') = _
  rw [h]

theorem statement_ok {g : Db -> Except ε (α × Db)} {view : Db}
    (h : g s.view = Except.ok (a, view)) :
    statement g noFaults s = Except.ok (a, { view, executed := s.executed + 1 }) := by
  simp only [statement, noFaults, h]

theorem statement_error {g : Db -> Except ε (α × Db)} (h : g s.view = Except.error e) :
    statement g noFaults s = Except.error e := by
  simp only [statement, noFaults, h]

theorem query_ok (g : Db -> α) : (query g : Tx Db ε α) noFaults s =
    Except.ok (g s.view, { s with executed := s.executed + 1 }) :=
  rfl

theorem execute_ok (g : Db -> Db) : (execute g : Tx Db ε Unit) noFaults s =
    Except.ok ((), { view := g s.view, executed := s.executed + 1 }) :=
  rfl

end

section
variable {tx : Tx Db ε (Ending α)} {db view : Db} {n : Nat} {a : α} {e : ε}

theorem begin_ok (db : Db) : (execute id : Tx Db ε Unit) noFaults { view := db, executed := 0 } =
    Except.ok ((), { view := db, executed := 1 }) :=
  rfl

theorem transact_dropped
    (h : tx noFaults { view := db, executed := 1 } = Except.ok (Ending.dropped a, ⟨view, n⟩)) :
    transact noFaults tx db = (Except.ok a, db) := by
  have hbracket : tx.bracket noFaults { view := db, executed := 0 } =
      Except.ok (Ending.dropped a, ⟨view, n⟩) :=
    (bind_ok (begin_ok db)).trans (bind_ok h)
  unfold transact
  rw [hbracket]

theorem transact_committed
    (h : tx noFaults { view := db, executed := 1 } = Except.ok (Ending.committed a, ⟨view, n⟩)) :
    transact noFaults tx db = (Except.ok a, view) := by
  have hcommit : (execute id : Tx Db ε Unit) noFaults ⟨view, n⟩ =
      Except.ok ((), ⟨view, n + 1⟩) := rfl
  have hbracket : tx.bracket noFaults { view := db, executed := 0 } =
      Except.ok (Ending.committed a, ⟨view, n + 1⟩) :=
    ((bind_ok (begin_ok db)).trans (bind_ok h)).trans (bind_ok hcommit)
  unfold transact
  rw [hbracket]

theorem transact_refused (h : tx noFaults { view := db, executed := 1 } = Except.error e) :
    transact noFaults tx db = (Except.error e, db) := by
  have hbracket : tx.bracket noFaults { view := db, executed := 0 } = Except.error e :=
    (bind_ok (begin_ok db)).trans (bind_error h)
  unfold transact
  rw [hbracket]

end

/-!
## Faults
-/

/-- Faults make it fail, or make no difference. -/
def FailsOrRuns (x : Tx Db ε α) : Prop :=
  forall faults s, (exists e, x faults s = Except.error e) ∨ x faults s = x noFaults s

section
variable {x : Tx Db ε α} {f : α -> Tx Db ε β}

theorem failsOrRuns_pure (a : α) : (pure a : Tx Db ε α).FailsOrRuns :=
  fun _ _ => Or.inr rfl

theorem failsOrRuns_statement (g : Db -> Except ε (α × Db)) : (statement g).FailsOrRuns := by
  intro faults s
  cases hfault : faults s.executed with
  | some e =>
      refine Or.inl ⟨e, ?_⟩
      simp only [statement, hfault]
  | none =>
      refine Or.inr ?_
      simp only [statement, hfault, noFaults]

theorem failsOrRuns_query (g : Db -> α) : (query g : Tx Db ε α).FailsOrRuns :=
  failsOrRuns_statement _

theorem failsOrRuns_execute (g : Db -> Db) : (execute g : Tx Db ε Unit).FailsOrRuns :=
  failsOrRuns_statement _

theorem FailsOrRuns.bind (hx : x.FailsOrRuns) (hf : forall a, (f a).FailsOrRuns) :
    (x >>= f).FailsOrRuns := by
  intro faults s
  rcases hx faults s with ⟨e, herror⟩ | hsame
  · exact Or.inl ⟨e, bind_error herror⟩
  · cases hrun : x noFaults s with
    | error e =>
        refine Or.inr ?_
        rw [bind_error hrun]
        exact bind_error (hsame.trans hrun)
    | ok p =>
        rcases p with ⟨a, s'⟩
        rw [bind_ok hrun, bind_ok (hsame.trans hrun)]
        exact hf a faults s'

theorem FailsOrRuns.bracket {tx : Tx Db ε (Ending α)} (htx : tx.FailsOrRuns) :
    tx.bracket.FailsOrRuns := by
  refine (failsOrRuns_execute id).bind fun _ => htx.bind fun ending => ?_
  cases ending with
  | dropped a => exact failsOrRuns_pure _
  | committed a => exact (failsOrRuns_execute id).bind fun _ => failsOrRuns_pure _

/-- A transaction that fails leaves the database as it was. -/
theorem transact_error {faults : Faults ε} {tx : Tx Db ε (Ending α)} {db : Db} {e : ε}
    (h : (transact faults tx db).1 = Except.error e) : (transact faults tx db).2 = db := by
  unfold transact at h ⊢
  split
  · rfl
  · rfl
  · rename_i a s hrun
    rw [hrun] at h
    cases h

/-- Faults make a transaction fail, or make no difference. -/
theorem transact_faults {tx : Tx Db ε (Ending α)} (htx : tx.FailsOrRuns) (faults : Faults ε)
    (db : Db) : (exists e, transact faults tx db = (Except.error e, db)) ∨
      transact faults tx db = transact noFaults tx db := by
  unfold transact
  rcases htx.bracket faults { view := db, executed := 0 } with ⟨e, herror⟩ | hsame
  · rw [herror]
    exact Or.inl ⟨e, rfl⟩
  · rw [hsame]
    exact Or.inr rfl

end

end Tx

end Foundation
end WispersAccess
