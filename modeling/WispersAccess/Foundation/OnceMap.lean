import WispersAccess.Foundation.Slots
import Mathlib.Logic.Function.Basic

/-!
# Maps of cells that are filled once

A map from keys to cells, each of which is filled at most once, by whoever holds
its permit.  Whoever has taken a cell out of the map goes on to use it after its
entry is removed, so that a key may come to have several cells; cells are never
forgotten and named by their place.  While no entry of a key is removed, the key
has one cell.
-/

namespace WispersAccess
namespace Foundation

structure OnceCell (κ α : Type _) where
  key : κ
  /-- Who fills the cell at the moment. -/
  holder : Option Nat
  value : Option α

structure OnceMap (κ α : Type _) where
  cells : List (OnceCell κ α)
  entry : κ -> Option Nat
  entry_key : forall k i, entry k = some i -> exists cell, cells[i]? = some cell ∧ cell.key = k

namespace OnceMap

variable {κ α : Type _}

def empty : OnceMap κ α where
  cells := []
  entry := fun _ => none
  entry_key := by
    intro k i h
    cases h

/-- What is in a cell. -/
def value (m : OnceMap κ α) (i : Nat) : Option α :=
  (m.cells[i]?).bind OnceCell.value

/-- Change one cell, keeping its key. -/
def modifyCell (m : OnceMap κ α) (i : Nat) (f : OnceCell κ α -> OnceCell κ α)
    (hf : forall cell, (f cell).key = cell.key) : OnceMap κ α where
  cells := m.cells.modify i f
  entry := m.entry
  entry_key := by
    intro k j hj
    rcases m.entry_key k j hj with ⟨cell, hcell, hkey⟩
    rw [List.getElem?_modify, hcell]
    by_cases hij : i = j
    · exact ⟨f cell, by simp [hij], (hf cell).trans hkey⟩
    · exact ⟨cell, by simp [hij], hkey⟩

/-- Take the permit of a cell that nobody fills and that is not filled. -/
def acquire (m : OnceMap κ α) (i who : Nat) : Option (OnceMap κ α) :=
  (m.cells[i]?).bind fun cell =>
    if cell.holder = none ∧ cell.value.isNone then
      some (m.modifyCell i (fun cell => { cell with holder := some who }) fun _ => rfl)
    else none

/-- Give the permit back, the cell not filled. -/
def release (m : OnceMap κ α) (i : Nat) : OnceMap κ α :=
  m.modifyCell i (fun cell => { cell with holder := none }) fun _ => rfl

def fill (m : OnceMap κ α) (i : Nat) (v : α) : OnceMap κ α :=
  m.modifyCell i (fun cell => { cell with holder := none, value := some v }) fun _ => rfl

section
variable [DecidableEq κ]

def remove (m : OnceMap κ α) (k : κ) : OnceMap κ α where
  cells := m.cells
  entry := Function.update m.entry k none
  entry_key := by
    intro k' i hi
    by_cases hk : k' = k
    · rw [hk, Function.update_self] at hi
      cases hi
    · rw [Function.update_of_ne hk] at hi
      exact m.entry_key k' i hi

/-- The entry of a key, a new cell if there is none. -/
def entryOrDefault (m : OnceMap κ α) (k : κ) : OnceMap κ α × Nat :=
  match m.entry k with
  | some i => (m, i)
  | none =>
      ({ cells := m.cells ++ [{ key := k, holder := none, value := none }]
         entry := Function.update m.entry k (some m.cells.length)
         entry_key := by
          intro k' i hi
          by_cases hk : k' = k
          · rw [hk, Function.update_self] at hi
            cases hi
            exact ⟨_, slot_append_eq_some_iff.mpr (Or.inr ⟨rfl, rfl⟩), hk.symm⟩
          · rw [Function.update_of_ne hk] at hi
            rcases m.entry_key k' i hi with ⟨cell, hcell, hkey⟩
            exact ⟨cell, slot_append_eq_some_iff.mpr (Or.inl hcell), hkey⟩ }, m.cells.length)

end

/-!
## What becomes of a cell
-/

/-- The cell is one of the key's. -/
def HasKey (m : OnceMap κ α) (i : Nat) (k : κ) : Prop :=
  exists cell, m.cells[i]? = some cell ∧ cell.key = k

/-- The cell is being filled. -/
def HeldBy (m : OnceMap κ α) (i who : Nat) : Prop :=
  exists cell, m.cells[i]? = some cell ∧ cell.holder = some who ∧ cell.value = none

/-- Every cell of the first map is in the second, with its key and what was in it. -/
def Extends (m m' : OnceMap κ α) : Prop :=
  Grows (fun cell cell' => cell'.key = cell.key ∧
    forall v, cell.value = some v -> cell'.value = some v) m.cells m'.cells

section
variable {m m' : OnceMap κ α} {i j who who' : Nat} {k k' : κ} {v v' : α}

theorem value_eq_some_iff :
    m.value i = some v <-> exists cell, m.cells[i]? = some cell ∧ cell.value = some v :=
  Option.bind_eq_some_iff

theorem HasKey.unique (h : m.HasKey i k) (h' : m.HasKey i k') : k = k' := by
  rcases h with ⟨cell, hcell, hkey⟩
  rcases h' with ⟨cell', hcell', hkey'⟩
  rw [hcell] at hcell'
  cases hcell'
  exact hkey.symm.trans hkey'

theorem HeldBy.unique (h : m.HeldBy i who) (h' : m.HeldBy i who') : who = who' := by
  rcases h with ⟨cell, hcell, hholder, -⟩
  rcases h' with ⟨cell', hcell', hholder', -⟩
  rw [hcell] at hcell'
  cases hcell'
  exact Option.some.inj (hholder.symm.trans hholder')

/-- A cell that is filled already is filled by nobody. -/
theorem HeldBy.value_eq_none (h : m.HeldBy i who) : m.value i = none := by
  rcases h with ⟨cell, hcell, -, hvalue⟩
  rw [value, hcell]
  exact hvalue

theorem Extends.hasKey (h : m.Extends m') (hkey : m.HasKey i k) : m'.HasKey i k := by
  rcases hkey with ⟨cell, hcell, rfl⟩
  rcases h i cell hcell with ⟨cell', hcell', hsame, -⟩
  exact ⟨cell', hcell', hsame⟩

theorem Extends.value (h : m.Extends m') (hvalue : m.value i = some v) : m'.value i = some v := by
  rcases value_eq_some_iff.mp hvalue with ⟨cell, hcell, hv⟩
  rcases h i cell hcell with ⟨cell', hcell', -, hkept⟩
  exact value_eq_some_iff.mpr ⟨cell', hcell', hkept v hv⟩

theorem Extends.length_le (h : m.Extends m') : m.cells.length ≤ m'.cells.length := by
  by_contra hlonger
  have hlt : m'.cells.length < m.cells.length := Nat.lt_of_not_le hlonger
  rcases h _ _ (List.getElem?_eq_getElem hlt) with ⟨cell, hcell, -⟩
  exact absurd (slot_lt hcell) (Nat.lt_irrefl _)

theorem extends_of_eq (h : m'.cells = m.cells) : m.Extends m' := by
  intro i cell hcell
  exact ⟨cell, h ▸ hcell, rfl, fun _ hv => hv⟩

theorem Extends.refl (m : OnceMap κ α) : m.Extends m :=
  extends_of_eq rfl

/-!
## Cells that change
-/

variable {f : OnceCell κ α -> OnceCell κ α} {hf : forall cell, (f cell).key = cell.key}

theorem cell_modifyCell : (m.modifyCell i f hf).cells[j]? =
    (m.cells[j]?).map fun cell => if j = i then f cell else cell := by
  show (m.cells.modify i f)[j]? = _
  rw [List.getElem?_modify]
  cases m.cells[j]? with
  | none => rfl
  | some cell =>
      by_cases hij : i = j
      · simp [hij]
      · have hji : j ≠ i := fun h => hij h.symm
        simp [hij, hji]

theorem cell_modifyCell_self {cell : OnceCell κ α} (hcell : m.cells[i]? = some cell) :
    (m.modifyCell i f hf).cells[i]? = some (f cell) := by
  rw [cell_modifyCell, hcell, Option.map_some, if_pos rfl]

theorem cell_modifyCell_other (hj : j ≠ i) : (m.modifyCell i f hf).cells[j]? = m.cells[j]? := by
  rw [cell_modifyCell]
  cases m.cells[j]? with
  | none => rfl
  | some cell => rw [Option.map_some, if_neg hj]

theorem extends_modifyCell (hkept : m.value i = none ∨ forall cell, (f cell).value = cell.value) :
    m.Extends (m.modifyCell i f hf) := by
  intro j cell hcell
  by_cases hj : j = i
  · subst hj
    refine ⟨f cell, cell_modifyCell_self hcell, hf cell, ?_⟩
    intro v hv
    rcases hkept with hnone | hsame
    · rw [value, hcell] at hnone
      rw [Option.bind_some, hv] at hnone
      cases hnone
    · rw [hsame]
      exact hv
  · exact ⟨cell, (cell_modifyCell_other hj).trans hcell, rfl, fun _ hv => hv⟩

theorem hasKey_modifyCell : (m.modifyCell i f hf).HasKey j k <-> m.HasKey j k := by
  unfold HasKey
  rw [cell_modifyCell]
  cases m.cells[j]? with
  | none => simp
  | some cell =>
      by_cases hj : j = i
      · simp [hj, hf cell]
      · simp [hj]

theorem value_modifyCell (hsame : forall cell, (f cell).value = cell.value) :
    (m.modifyCell i f hf).value j = m.value j := by
  unfold value
  rw [cell_modifyCell]
  cases m.cells[j]? with
  | none => rfl
  | some cell =>
      by_cases hj : j = i
      · simp [hj, hsame cell]
      · simp [hj]

/-- Who fills another cell goes on to. -/
theorem HeldBy.modify_other (h : m.HeldBy j who) (hj : j ≠ i) :
    (m.modifyCell i f hf).HeldBy j who := by
  rcases h with ⟨cell, hcell, hheld⟩
  exact ⟨cell, (cell_modifyCell_other hj).trans hcell, hheld⟩

theorem acquire_some (h : m.acquire i who = some m') :
    m.value i = none ∧ m'.HeldBy i who ∧ m.Extends m' ∧ m'.entry = m.entry ∧
      forall j who', m.HeldBy j who' -> m'.HeldBy j who' := by
  rcases Option.bind_eq_some_iff.mp h with ⟨cell, hcell, hfree⟩
  split at hfree
  · rename_i hguard
    cases hfree
    have hvalue : cell.value = none := Option.isNone_iff_eq_none.mp hguard.right
    refine ⟨?_, ?_, extends_modifyCell (Or.inr fun _ => rfl), rfl, ?_⟩
    · rw [value, hcell]
      exact hvalue
    · exact ⟨_, cell_modifyCell_self hcell, rfl, hvalue⟩
    · intro j who' hheld
      refine hheld.modify_other ?_
      intro heq
      subst heq
      rcases hheld with ⟨cell', hcell', hholder, -⟩
      rw [hcell] at hcell'
      cases hcell'
      rw [hguard.left] at hholder
      cases hholder
  · cases hfree

theorem lt_of_acquire (h : m.acquire i who = some m') : i < m.cells.length := by
  rcases Option.bind_eq_some_iff.mp h with ⟨cell, hcell, -⟩
  exact slot_lt hcell

theorem value_of_acquire (h : m.acquire i who = some m') (hv : m'.value j = some v) :
    m.value j = some v := by
  rcases Option.bind_eq_some_iff.mp h with ⟨cell, -, hfree⟩
  split at hfree
  · cases hfree
    refine (value_modifyCell ?_).symm.trans hv
    intro _
    rfl
  · cases hfree

theorem extends_release (m : OnceMap κ α) (i : Nat) : m.Extends (m.release i) :=
  extends_modifyCell (Or.inr fun _ => rfl)

theorem HeldBy.release (h : m.HeldBy j who') (hheld : m.HeldBy i who) (hwho : who' ≠ who) :
    (m.release i).HeldBy j who' := by
  refine h.modify_other ?_
  intro heq
  subst heq
  exact hwho (h.unique hheld)

theorem HeldBy.extends_fill (h : m.HeldBy i who) (v : α) : m.Extends (m.fill i v) :=
  extends_modifyCell (Or.inl h.value_eq_none)

theorem HeldBy.fill (h : m.HeldBy j who') (hheld : m.HeldBy i who) (hwho : who' ≠ who) (v : α) :
    (m.fill i v).HeldBy j who' := by
  refine h.modify_other ?_
  intro heq
  subst heq
  exact hwho (h.unique hheld)

theorem HeldBy.value_fill (h : m.HeldBy i who) (v : α) : (m.fill i v).value i = some v := by
  rcases h with ⟨cell, hcell, -⟩
  exact value_eq_some_iff.mpr ⟨_, cell_modifyCell_self hcell, rfl⟩

/-- What is in a cell after one is filled was in it, or has just been put there. -/
theorem value_of_fill (h : (m.fill i v).value j = some v') :
    m.value j = some v' ∨ (j = i ∧ v' = v) := by
  rcases value_eq_some_iff.mp h with ⟨cell, hcell, hv⟩
  by_cases hj : j = i
  · subst hj
    refine Or.inr ⟨rfl, ?_⟩
    have hmap := (cell_modifyCell (m := m)).symm.trans hcell
    rcases Option.map_eq_some_iff.mp hmap with ⟨old, -, rfl⟩
    rw [if_pos rfl] at hv
    exact (Option.some.inj hv).symm
  · exact Or.inl (value_eq_some_iff.mpr ⟨cell, (cell_modifyCell_other hj).symm.trans hcell, hv⟩)

end

/-!
## Entries that come and go
-/

/-- All cells of the key are its entry's, so that there is one at most. -/
def Whole (m : OnceMap κ α) (k : κ) : Prop :=
  forall i, m.HasKey i k -> m.entry k = some i

section
variable {m m' : OnceMap κ α} {i j who : Nat} {k k' : κ}

theorem whole_empty (k : κ) : (empty : OnceMap κ α).Whole k := by
  intro i h
  rcases h with ⟨cell, hcell, -⟩
  cases hcell

theorem Whole.unique (h : m.Whole k) (hi : m.HasKey i k) (hj : m.HasKey j k) : i = j :=
  Option.some.inj ((h i hi).symm.trans (h j hj))

theorem Whole.modifyCell (h : m.Whole k) {f : OnceCell κ α -> OnceCell κ α}
    {hf : forall cell, (f cell).key = cell.key} : (m.modifyCell i f hf).Whole k := by
  intro j hj
  exact h j (hasKey_modifyCell.mp hj)

theorem Whole.release (h : m.Whole k) (i : Nat) : (m.release i).Whole k :=
  h.modifyCell

theorem Whole.fill (h : m.Whole k) (i : Nat) (v : α) : (m.fill i v).Whole k :=
  h.modifyCell

theorem Whole.acquire (h : m.Whole k) (hacquire : m.acquire i who = some m') : m'.Whole k := by
  rcases Option.bind_eq_some_iff.mp hacquire with ⟨cell, -, hfree⟩
  split at hfree
  · cases hfree
    exact h.modifyCell
  · cases hfree

variable [DecidableEq κ]

theorem Whole.remove (h : m.Whole k) (hk : k ≠ k') : (m.remove k').Whole k := by
  intro i hi
  show Function.update m.entry k' none k = some i
  rw [Function.update_of_ne hk]
  exact h i hi

@[simp] theorem entry_remove_self (m : OnceMap κ α) (k : κ) : (m.remove k).entry k = none :=
  Function.update_self ..

theorem entry_remove_none (hk : m.entry k = none) : (m.remove k').entry k = none := by
  show Function.update m.entry k' none k = none
  by_cases hsame : k = k'
  · rw [hsame, Function.update_self]
  · rw [Function.update_of_ne hsame]
    exact hk

/-- Either there was an entry and nothing changes, or there is a new one with a new cell. -/
inductive EntryStep (m : OnceMap κ α) (k : κ) : OnceMap κ α -> Nat -> Prop where
  | found {i : Nat} (hentry : m.entry k = some i) : EntryStep m k m i
  | made {m' : OnceMap κ α} (hnone : m.entry k = none)
      (hcells : m'.cells = m.cells ++ [{ key := k, holder := none, value := none }])
      (hentry : m'.entry = Function.update m.entry k (some m.cells.length)) :
      EntryStep m k m' m.cells.length

theorem entryOrDefault_step (m : OnceMap κ α) (k : κ) :
    EntryStep m k (m.entryOrDefault k).1 (m.entryOrDefault k).2 := by
  unfold entryOrDefault
  split
  · rename_i hentry
    exact EntryStep.found hentry
  · rename_i hnone
    exact EntryStep.made hnone rfl rfl

theorem EntryStep.hasKey (h : EntryStep m k m' i) : m'.HasKey i k := by
  cases h with
  | found hentry => exact m.entry_key k i hentry
  | made hnone hcells hentry =>
      exact ⟨_, hcells ▸ slot_append_eq_some_iff.mpr (Or.inr ⟨rfl, rfl⟩), rfl⟩

theorem EntryStep.extends (h : EntryStep m k m' i) : m.Extends m' := by
  cases h with
  | found hentry => exact Extends.refl m
  | made hnone hcells hentry =>
      unfold Extends
      rw [hcells]
      exact grows_append (fun _ => ⟨rfl, fun _ hv => hv⟩) _ _

theorem EntryStep.heldBy (h : EntryStep m k m' i) (hheld : m.HeldBy j who) : m'.HeldBy j who := by
  cases h with
  | found hentry => exact hheld
  | made hnone hcells hentry =>
      rcases hheld with ⟨cell, hcell, hcolumns⟩
      exact ⟨cell, hcells ▸ slot_append_eq_some_iff.mpr (Or.inl hcell), hcolumns⟩

/-- A new cell is empty. -/
theorem EntryStep.value (h : EntryStep m k m' i) {v : α} (hv : m'.value j = some v) :
    m.value j = some v := by
  cases h with
  | found hentry => exact hv
  | made hnone hcells hentry =>
      rcases value_eq_some_iff.mp hv with ⟨cell, hcell, hvalue⟩
      rw [hcells] at hcell
      rcases slot_append_eq_some_iff.mp hcell with hold | ⟨-, rfl⟩
      · exact value_eq_some_iff.mpr ⟨cell, hold, hvalue⟩
      · cases hvalue

/-- The entries of other keys stay as they are. -/
theorem EntryStep.entry_other (h : EntryStep m k m' i) (hk : k' ≠ k) :
    m'.entry k' = m.entry k' := by
  cases h with
  | found hentry => rfl
  | made hnone hcells hentry => rw [hentry, Function.update_of_ne hk]

theorem EntryStep.entry_kept (h : EntryStep m k m' i) (hentry : m.entry k' = some j) :
    m'.entry k' = some j := by
  by_cases hk : k' = k
  · cases h with
    | found hfound => exact hentry
    | made hnone hcells hnew =>
        rw [hk, hnone] at hentry
        cases hentry
  · rw [h.entry_other hk]
    exact hentry

theorem EntryStep.entry (h : EntryStep m k m' i) : m'.entry k = some i := by
  cases h with
  | found hentry => exact hentry
  | made hnone hcells hentry => rw [hentry, Function.update_self]

theorem EntryStep.whole (h : EntryStep m k m' i) (hwhole : m.Whole k') : m'.Whole k' := by
  cases h with
  | found hentry => exact hwhole
  | made hnone hcells hentry =>
      intro j hheld
      rcases hheld with ⟨cell, hcell, rfl⟩
      rw [hcells] at hcell
      rcases slot_append_eq_some_iff.mp hcell with hold | ⟨rfl, rfl⟩
      · have hkept := hwhole j ⟨cell, hold, rfl⟩
        by_cases hk : cell.key = k
        · rw [hk, hnone] at hkept
          cases hkept
        · rw [hentry, Function.update_of_ne hk]
          exact hkept
      · rw [hentry, Function.update_self]

/-!
## Entries that are replaced
-/

/-- Replace the entry of a key by a new cell. -/
def renew (m : OnceMap κ α) (k : κ) : OnceMap κ α :=
  ((m.remove k).entryOrDefault k).1

theorem renew_step (m : OnceMap κ α) (k : κ) :
    (m.renew k).cells = m.cells ++ [{ key := k, holder := none, value := none }] ∧
      (m.renew k).entry = Function.update (m.remove k).entry k (some m.cells.length) := by
  have hstep := entryOrDefault_step (m.remove k) k
  unfold renew
  generalize (m.remove k).entryOrDefault k = renewed at hstep
  rcases renewed with ⟨m', i⟩
  cases hstep with
  | found hentry =>
      rw [entry_remove_self] at hentry
      cases hentry
  | made hnone hcells hentry => exact ⟨hcells, hentry⟩

theorem entry_renew (m : OnceMap κ α) (k : κ) : (m.renew k).entry k = some m.cells.length := by
  rw [(renew_step m k).right, Function.update_self]

theorem extends_renew (m : OnceMap κ α) (k : κ) : m.Extends (m.renew k) := by
  unfold Extends
  rw [(renew_step m k).left]
  exact grows_append (fun _ => ⟨rfl, fun _ hv => hv⟩) _ _

theorem value_of_renew {v : α} (hv : (m.renew k).value j = some v) : m.value j = some v :=
  (entryOrDefault_step (m.remove k) k).value hv

theorem HeldBy.renew (h : m.HeldBy j who) (k : κ) : (m.renew k).HeldBy j who :=
  (entryOrDefault_step (m.remove k) k).heldBy h

end

end OnceMap

end Foundation
end WispersAccess
