import Mathlib.Data.List.Basic
import Mathlib.Data.List.Pairwise

/-!
# Tables keyed by row id

The rows of a SQL table whose integer primary key is the row id, without
`AUTOINCREMENT`: they are kept in the order of their ids, and a new row gets the
largest id in use plus one.  The order of the ids is a field of the table, so
every table built here has one row for each id.
-/

namespace WispersAccess
namespace Foundation

structure RowTable (α : Type _) where
  rows : List (Int × α)
  sorted : rows.Pairwise fun x y => x.1 < y.1

namespace RowTable

variable {α : Type _}

def empty : RowTable α where
  rows := []
  sorted := List.Pairwise.nil

def lookup (t : RowTable α) (id : Int) : Option α :=
  (t.rows.find? fun r => r.1 = id).map Prod.snd

/-- The first row whose value passes `p`, in the order of the ids. -/
def findRow (t : RowTable α) (p : α -> Bool) : Option (Int × α) :=
  t.rows.find? fun r => p r.2

/-- The id the next inserted row gets. -/
def nextRowid (t : RowTable α) : Int :=
  match t.rows.getLast? with
  | none => 1
  | some r => r.1 + 1

/-- Rewrite every row, keeping its id. -/
def mapRows (t : RowTable α) (f : Int -> α -> α) : RowTable α where
  rows := t.rows.map fun r => (r.1, f r.1 r.2)
  sorted := List.pairwise_map.mpr t.sorted

def deleteRow (t : RowTable α) (id : Int) : RowTable α where
  rows := t.rows.filter fun r => r.1 ≠ id
  sorted := t.sorted.filter _

theorem rowid_unique {t : RowTable α} {id : Int} {v w : α}
    (hv : (id, v) ∈ t.rows) (hw : (id, w) ∈ t.rows) : v = w := by
  rcases t with ⟨rows, sorted⟩
  induction rows with
  | nil => cases hv
  | cons r rest ih =>
      have hrest := (List.pairwise_cons.mp sorted).left
      cases hv with
      | head =>
          cases hw with
          | head => rfl
          | tail _ hw => exact absurd (hrest _ hw) (Int.lt_irrefl _)
      | tail _ hv =>
          cases hw with
          | head => exact absurd (hrest _ hv) (Int.lt_irrefl _)
          | tail _ hw => exact ih (List.pairwise_cons.mp sorted).right hv hw

theorem lookup_eq_some_iff {t : RowTable α} {id : Int} {v : α} :
    t.lookup id = some v <-> (id, v) ∈ t.rows := by
  unfold lookup
  rw [Option.map_eq_some_iff]
  constructor
  · intro h
    rcases h with ⟨⟨j, w⟩, hfind, rfl⟩
    have hj : j = id := by simpa using List.find?_some hfind
    rw [← hj]
    exact List.mem_of_find?_eq_some hfind
  · intro hmem
    cases hfind : t.rows.find? fun r => r.1 = id with
    | none =>
        have hnot := List.find?_eq_none.mp hfind (id, v) hmem
        simp at hnot
    | some r =>
        have hr : r.1 = id := by simpa using List.find?_some hfind
        have hrmem : (id, r.2) ∈ t.rows := by
          rw [← hr]
          exact List.mem_of_find?_eq_some hfind
        exact ⟨r, rfl, rowid_unique hrmem hmem⟩

/-!
## Insertion
-/

theorem rowid_lt_nextRowid {t : RowTable α} {id : Int} {v : α}
    (h : (id, v) ∈ t.rows) : id < t.nextRowid := by
  unfold nextRowid
  cases hlast : t.rows.getLast? with
  | none =>
      rw [List.getLast?_eq_none_iff.mp hlast] at h
      cases h
  | some r =>
      rcases List.getLast?_eq_some_iff.mp hlast with ⟨front, hrows⟩
      have hsorted := t.sorted
      rw [hrows, List.pairwise_append] at hsorted
      rw [hrows, List.mem_append] at h
      show id < r.1 + 1
      cases h with
      | inl hfront =>
          have := hsorted.right.right _ hfront r (List.mem_singleton.mpr rfl)
          omega
      | inr hr =>
          rw [← List.mem_singleton.mp hr]
          omega

theorem lt_nextRowid {t : RowTable α} {id : Int} {v : α}
    (h : t.lookup id = some v) : id < t.nextRowid :=
  rowid_lt_nextRowid (lookup_eq_some_iff.mp h)

@[simp] theorem lookup_nextRowid (t : RowTable α) : t.lookup t.nextRowid = none := by
  cases h : t.lookup t.nextRowid with
  | none => rfl
  | some v => exact absurd (lt_nextRowid h) (Int.lt_irrefl _)

def insert (t : RowTable α) (v : α) : RowTable α where
  rows := t.rows ++ [(t.nextRowid, v)]
  sorted := by
    rw [List.pairwise_append]
    refine ⟨t.sorted, List.pairwise_singleton _ _, ?_⟩
    intro x hx y hy
    rw [List.mem_singleton.mp hy]
    exact rowid_lt_nextRowid hx

theorem lookup_insert_eq_some_iff {t : RowTable α} {v w : α} {id : Int} :
    (t.insert v).lookup id = some w <->
      t.lookup id = some w ∨ (id = t.nextRowid ∧ w = v) := by
  rw [lookup_eq_some_iff, lookup_eq_some_iff]
  simp [insert]

@[simp] theorem lookup_insert_self (t : RowTable α) (v : α) :
    (t.insert v).lookup t.nextRowid = some v :=
  lookup_insert_eq_some_iff.mpr (Or.inr ⟨rfl, rfl⟩)

theorem lookup_insert_of_some {t : RowTable α} {v w : α} {id : Int}
    (h : t.lookup id = some w) : (t.insert v).lookup id = some w :=
  lookup_insert_eq_some_iff.mpr (Or.inl h)

/-!
## Updates and deletions
-/

@[simp] theorem lookup_mapRows (t : RowTable α) (f : Int -> α -> α) (id : Int) :
    (t.mapRows f).lookup id = (t.lookup id).map (f id) := by
  apply Option.ext
  intro w
  rw [lookup_eq_some_iff, Option.map_eq_some_iff]
  simp only [mapRows, List.mem_map, Prod.mk.injEq]
  constructor
  · intro h
    rcases h with ⟨r, hr, rfl, rfl⟩
    exact ⟨r.2, lookup_eq_some_iff.mpr hr, rfl⟩
  · intro h
    rcases h with ⟨v, hv, rfl⟩
    exact ⟨(id, v), lookup_eq_some_iff.mp hv, rfl, rfl⟩

theorem lookup_deleteRow_eq_some_iff {t : RowTable α} {id j : Int} {v : α} :
    (t.deleteRow id).lookup j = some v <-> t.lookup j = some v ∧ j ≠ id := by
  rw [lookup_eq_some_iff, lookup_eq_some_iff]
  simp [deleteRow]

/-!
## Searches
-/

theorem findRow_some {t : RowTable α} {p : α -> Bool} {r : Int × α}
    (h : t.findRow p = some r) : t.lookup r.1 = some r.2 ∧ p r.2 = true := by
  unfold findRow at h
  constructor
  · exact lookup_eq_some_iff.mpr (List.mem_of_find?_eq_some h)
  · simpa using List.find?_some h

theorem findRow_eq_none_iff {t : RowTable α} {p : α -> Bool} :
    t.findRow p = none <-> forall id v, t.lookup id = some v -> p v = false := by
  unfold findRow
  rw [List.find?_eq_none]
  constructor
  · intro h id v hv
    simpa using h (id, v) (lookup_eq_some_iff.mp hv)
  · intro h r hr
    simpa using h r.1 r.2 (lookup_eq_some_iff.mpr hr)

theorem findRow_isSome {t : RowTable α} {p : α -> Bool} {id : Int} {v : α}
    (hv : t.lookup id = some v) (hp : p v = true) :
    exists r, t.findRow p = some r := by
  cases hfind : t.findRow p with
  | none =>
      have hfalse := findRow_eq_none_iff.mp hfind id v hv
      rw [hp] at hfalse
      cases hfalse
  | some r => exact ⟨r, rfl⟩

/-- A row that is the only one passing `p` is the one found. -/
theorem findRow_eq_some_of_unique {t : RowTable α} {p : α -> Bool} {id : Int} {v : α}
    (hv : t.lookup id = some v) (hp : p v = true)
    (honly : forall j w, t.lookup j = some w -> p w = true -> j = id) :
    t.findRow p = some (id, v) := by
  rcases findRow_isSome hv hp with ⟨⟨j, w⟩, hfind⟩
  rcases findRow_some hfind with ⟨hw, hpw⟩
  have hj : j = id := honly j w hw hpw
  rw [hj, hv] at hw
  rw [hfind, hj, Option.some.inj hw]

theorem findRow_insert_of_some {t : RowTable α} {p : α -> Bool} {r : Int × α}
    (h : t.findRow p = some r) (v : α) : (t.insert v).findRow p = some r := by
  unfold findRow insert at *
  simp only
  rw [List.find?_append, h]
  rfl

/-- An update that leaves alone what a search looks at changes the row found. -/
theorem findRow_mapRows {t : RowTable α} {p : α -> Bool} {f : Int -> α -> α}
    (hf : forall id v, p (f id v) = p v) :
    (t.mapRows f).findRow p = (t.findRow p).map fun r => (r.1, f r.1 r.2) := by
  unfold findRow mapRows
  rw [List.find?_map]
  simp only [Function.comp_def, hf]

end RowTable

end Foundation
end WispersAccess
