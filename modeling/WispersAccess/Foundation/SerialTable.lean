import WispersAccess.Foundation.RowTable

/-!
# Tables that never give a row id twice

The rows of a SQL table whose integer primary key is the row id with
`AUTOINCREMENT`: next to the rows it keeps the largest id ever given, and a new
row gets the next one, also where the row of that largest id is gone.
-/

namespace WispersAccess
namespace Foundation

structure SerialTable (α : Type _) extends RowTable α where
  /-- The largest id ever given. -/
  seq : Int
  bounded : forall r, r ∈ rows -> r.1 ≤ seq

namespace SerialTable

variable {α : Type _}

def empty : SerialTable α where
  toRowTable := RowTable.empty
  seq := 0
  bounded := by
    intro r hr
    cases hr

def lookup (t : SerialTable α) (id : Int) : Option α :=
  t.toRowTable.lookup id

/-- The id the next inserted row gets. -/
def nextId (t : SerialTable α) : Int :=
  t.seq + 1

def insert (t : SerialTable α) (v : α) : SerialTable α where
  rows := t.rows ++ [(t.nextId, v)]
  sorted := by
    rw [List.pairwise_append]
    refine ⟨t.sorted, List.pairwise_singleton _ _, ?_⟩
    intro x hx y hy
    have hbound := t.bounded x hx
    rw [List.mem_singleton.mp hy]
    show x.1 < t.seq + 1
    omega
  seq := t.nextId
  bounded := by
    intro r hr
    show r.1 ≤ t.seq + 1
    rcases List.mem_append.mp hr with hold | hnew
    · have hbound := t.bounded r hold
      omega
    · rw [List.mem_singleton.mp hnew]
      exact Int.le_refl _

/-- Rewrite one row, keeping its id. -/
def updateRow (t : SerialTable α) (id : Int) (f : α -> α) : SerialTable α where
  toRowTable := t.toRowTable.mapRows fun j v => if j = id then f v else v
  seq := t.seq
  bounded := by
    intro r hr
    rcases List.mem_map.mp hr with ⟨s, hs, rfl⟩
    exact t.bounded s hs

/-- Keep the rows that pass `p`. -/
def keepRows (t : SerialTable α) (p : Int -> α -> Bool) : SerialTable α where
  rows := t.rows.filter fun r => p r.1 r.2
  sorted := t.sorted.filter _
  seq := t.seq
  bounded := by
    intro r hr
    exact t.bounded r (List.mem_of_mem_filter hr)

def deleteRow (t : SerialTable α) (id : Int) : SerialTable α :=
  t.keepRows fun j _ => j ≠ id

theorem lookup_eq_some_iff {t : SerialTable α} {id : Int} {v : α} :
    t.lookup id = some v <-> (id, v) ∈ t.rows :=
  RowTable.lookup_eq_some_iff

theorem le_seq_of_lookup {t : SerialTable α} {id : Int} {v : α}
    (h : t.lookup id = some v) : id ≤ t.seq :=
  t.bounded _ (lookup_eq_some_iff.mp h)

theorem lt_nextId_of_lookup {t : SerialTable α} {id : Int} {v : α}
    (h : t.lookup id = some v) : id < t.nextId :=
  Int.lt_add_one_of_le (le_seq_of_lookup h)

/-- A given id is not given again. -/
theorem ne_nextId_of_lookup {t : SerialTable α} {id : Int} {v : α}
    (h : t.lookup id = some v) : id ≠ t.nextId :=
  Int.ne_of_lt (lt_nextId_of_lookup h)

theorem lookup_insert_eq_some_iff {t : SerialTable α} {v w : α} {id : Int} :
    (t.insert v).lookup id = some w <->
      t.lookup id = some w ∨ (id = t.nextId ∧ w = v) := by
  rw [lookup_eq_some_iff, lookup_eq_some_iff]
  simp [insert]

@[simp] theorem lookup_updateRow (t : SerialTable α) (id j : Int) (f : α -> α) :
    (t.updateRow id f).lookup j = (t.lookup j).map fun v => if j = id then f v else v :=
  RowTable.lookup_mapRows t.toRowTable _ j

theorem lookup_keepRows_eq_some_iff {t : SerialTable α} {p : Int -> α -> Bool} {j : Int} {v : α} :
    (t.keepRows p).lookup j = some v <-> t.lookup j = some v ∧ p j v = true := by
  rw [lookup_eq_some_iff, lookup_eq_some_iff]
  simp [keepRows]

theorem lookup_deleteRow_eq_some_iff {t : SerialTable α} {id j : Int} {v : α} :
    (t.deleteRow id).lookup j = some v <-> t.lookup j = some v ∧ j ≠ id := by
  unfold deleteRow
  rw [lookup_keepRows_eq_some_iff]
  simp

/-!
## Conditions

A condition on a column without a value is neither true nor false, and a query
keeps the rows its condition is true of.
-/

def eqValue {β : Type _} [DecidableEq β] (column : Option β) (value : β) : Option Bool :=
  column.map fun c => c = value

def orElse : Option Bool -> Option Bool -> Option Bool
  | some true, _ => some true
  | _, some true => some true
  | some false, some false => some false
  | _, _ => none

def andAlso : Option Bool -> Option Bool -> Option Bool
  | some false, _ => some false
  | _, some false => some false
  | some true, some true => some true
  | _, _ => none

def isTrue (condition : Option Bool) : Bool :=
  condition = some true

@[simp] theorem isTrue_eqValue {β : Type _} [DecidableEq β] (column : Option β) (value : β) :
    isTrue (eqValue column value) = true <-> column = some value := by
  cases column <;> simp [isTrue, eqValue]

@[simp] theorem isTrue_orElse (a b : Option Bool) :
    isTrue (orElse a b) = true <-> isTrue a = true ∨ isTrue b = true := by
  rcases a with _ | _ | _ <;> rcases b with _ | _ | _ <;> decide

@[simp] theorem isTrue_andAlso (a b : Option Bool) :
    isTrue (andAlso a b) = true <-> isTrue a = true ∧ isTrue b = true := by
  rcases a with _ | _ | _ <;> rcases b with _ | _ | _ <;> decide

/-!
## Queries without an order

A query that asks for one row and names no order may return any of the rows that
match.
-/

/-- Which of the matching rows such a query returns. -/
structure QueryOrder (α : Type _) where
  pick : List (Int × α) -> Option (Int × α)
  pick_mem : forall rows r, pick rows = some r -> r ∈ rows
  pick_none : forall rows, pick rows = none -> rows = []

/-- The order of the row ids. -/
def QueryOrder.byId : QueryOrder α where
  pick := List.head?
  pick_mem := fun _ _ h => List.mem_of_head? h
  pick_none := fun _ h => List.head?_eq_none_iff.mp h

/-- The row ids backwards. -/
def QueryOrder.byIdDescending : QueryOrder α where
  pick := List.getLast?
  pick_mem := fun _ _ h => List.mem_of_getLast? h
  pick_none := fun _ h => List.getLast?_eq_none_iff.mp h

/-- One of the rows that pass `p`, or nothing if there is none. -/
def findRow (order : QueryOrder α) (t : SerialTable α) (p : α -> Bool) : Option (Int × α) :=
  order.pick (t.rows.filter fun r => p r.2)

section
variable {order : QueryOrder α} {t : SerialTable α} {p : α -> Bool}

theorem findRow_some {id : Int} {v : α} (h : findRow order t p = some (id, v)) :
    t.lookup id = some v ∧ p v = true := by
  have hmem := order.pick_mem _ _ h
  rw [List.mem_filter] at hmem
  exact ⟨lookup_eq_some_iff.mpr hmem.left, hmem.right⟩

theorem findRow_eq_none_iff :
    findRow order t p = none <-> forall id v, t.lookup id = some v -> p v = false := by
  constructor
  · intro h id v hv
    have hempty := order.pick_none _ h
    rw [List.filter_eq_nil_iff] at hempty
    simpa using hempty _ (lookup_eq_some_iff.mp hv)
  · intro h
    cases hfind : findRow order t p with
    | none => rfl
    | some r =>
        rcases findRow_some hfind with ⟨hv, hp⟩
        rw [h _ _ hv] at hp
        cases hp

/-- A row that is the only one passing `p` is the one found. -/
theorem findRow_eq_some_of_unique {id : Int} {v : α} (hv : t.lookup id = some v)
    (hp : p v = true) (honly : forall j w, t.lookup j = some w -> p w = true -> j = id) :
    findRow order t p = some (id, v) := by
  cases hfind : findRow order t p with
  | none =>
      rw [findRow_eq_none_iff.mp hfind id v hv] at hp
      cases hp
  | some r =>
      rcases r with ⟨j, w⟩
      rcases findRow_some hfind with ⟨hw, hpw⟩
      have hj : j = id := honly j w hw hpw
      subst hj
      rw [hv] at hw
      rw [Option.some.inj hw]

/-- Every row that passes `p` is found in some order. -/
theorem exists_order_findRow {id : Int} {v : α} (hv : t.lookup id = some v) (hp : p v = true) :
    exists order, findRow order t p = some (id, v) := by
  classical
  have hmem : (id, v) ∈ t.rows.filter fun r => p r.2 :=
    List.mem_filter.mpr ⟨lookup_eq_some_iff.mp hv, hp⟩
  refine ⟨{
    pick := fun rows => if (id, v) ∈ rows then some (id, v) else rows.head?
    pick_mem := ?_
    pick_none := ?_ }, ?_⟩
  · intro rows r h
    split at h
    · cases h
      assumption
    · exact List.mem_of_head? h
  · intro rows h
    split at h
    · cases h
    · exact List.head?_eq_none_iff.mp h
  · unfold findRow
    exact if_pos hmem

end

end SerialTable

end Foundation
end WispersAccess
