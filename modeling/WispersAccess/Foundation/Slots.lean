import Mathlib.Data.List.Nodup

/-!
# Lists whose entries keep their place

A system that starts tasks and never forgets one keeps them in a list: a new
task goes to the end, a running task changes in its place, and its position is
its name.  The lemmas here say what such a list holds after each kind of update,
and that an entry, once there, only moves along the steps of its own task.
-/

namespace WispersAccess
namespace Foundation

variable {α : Type _}

theorem slot_append_eq_some_iff {xs : List α} {y z : α} {i : Nat} :
    (xs ++ [y])[i]? = some z <-> xs[i]? = some z ∨ (i = xs.length ∧ z = y) := by
  rw [List.getElem?_append]
  by_cases hi : i < xs.length
  · rw [if_pos hi]
    constructor
    · exact Or.inl
    · intro h
      cases h with
      | inl h => exact h
      | inr h => exact absurd h.left (Nat.ne_of_lt hi)
  · have hout : xs[i]? = none := List.getElem?_eq_none (Nat.not_lt.mp hi)
    rw [if_neg hi, hout]
    rw [List.getElem?_singleton]
    by_cases hz : i - xs.length = 0
    · have hlen : i = xs.length := by omega
      simp [hlen, eq_comm]
    · have hlen : i ≠ xs.length := by omega
      simp [hz, hlen]

theorem slot_set_eq_some_iff {xs : List α} {x y z : α} {i j : Nat} (hx : xs[i]? = some x) :
    (xs.set i y)[j]? = some z <-> (j = i ∧ z = y) ∨ (j ≠ i ∧ xs[j]? = some z) := by
  have hi : i < xs.length := (List.getElem?_eq_some_iff.mp hx).1
  rw [List.getElem?_set]
  by_cases hj : i = j
  · simp [hj.symm, hi, eq_comm]
  · have hj' : j ≠ i := fun h => hj h.symm
    simp [hj, hj']

theorem slot_set_self {xs : List α} {x : α} {i : Nat} (hx : xs[i]? = some x) (y : α) :
    (xs.set i y)[i]? = some y :=
  (slot_set_eq_some_iff hx).mpr (Or.inl ⟨rfl, rfl⟩)

theorem slot_modify_eq_some_iff {xs : List α} {f : α -> α} {x z : α} {i j : Nat}
    (hx : xs[i]? = some x) :
    (xs.modify i f)[j]? = some z <-> (j = i ∧ z = f x) ∨ (j ≠ i ∧ xs[j]? = some z) := by
  rw [List.getElem?_modify]
  by_cases hj : i = j
  · subst hj
    simp [hx, eq_comm]
  · have hj' : j ≠ i := fun h => hj h.symm
    simp [hj, hj']

theorem slot_set_inj {xs : List α} {x y z : α} {i : Nat} (hx : xs[i]? = some x) :
    xs.set i y = xs.set i z <-> y = z := by
  constructor
  · intro h
    have hslot := slot_set_self hx y
    rw [h, slot_set_self hx z] at hslot
    exact (Option.some.inj hslot).symm
  · intro h
    rw [h]

theorem slot_map_eq_some {xs : List α} {f : α -> α} {z : α} {i : Nat}
    (h : (xs.map f)[i]? = some z) : exists x, xs[i]? = some x ∧ z = f x := by
  rw [List.getElem?_map] at h
  rcases Option.map_eq_some_iff.mp h with ⟨x, hx, hz⟩
  exact ⟨x, hx, hz.symm⟩

theorem slot_lt {xs : List α} {x : α} {i : Nat} (hx : xs[i]? = some x) : i < xs.length :=
  (List.getElem?_eq_some_iff.mp hx).1

/-!
## Lists with keys
-/

/-- A key that only one entry has finds that entry. -/
theorem find_key_eq_some_iff {κ : Type _} [DecidableEq κ] {key : α -> κ} {xs : List α}
    (hkeys : (xs.map key).Nodup) {k : κ} {x : α} :
    xs.find? (fun y => key y = k) = some x <-> x ∈ xs ∧ key x = k := by
  constructor
  · intro hfind
    exact ⟨List.mem_of_find?_eq_some hfind, by simpa using List.find?_some hfind⟩
  · intro h
    rcases h with ⟨hmem, rfl⟩
    cases hfind : xs.find? fun y => key y = key x with
    | none => exact absurd (List.find?_eq_none.mp hfind x hmem) (by simp)
    | some found =>
        have hkey : key found = key x := by simpa using List.find?_some hfind
        rw [List.inj_on_of_nodup_map hkeys (List.mem_of_find?_eq_some hfind) hmem hkey]

/-!
## Growing lists
-/

/-- Every entry of the first list is in its place in the second, moved along `R`. -/
def Grows (R : α -> α -> Prop) (xs ys : List α) : Prop :=
  forall (i : Nat) (x : α), xs[i]? = some x -> exists y, ys[i]? = some y ∧ R x y

section
variable {R : α -> α -> Prop}

theorem Grows.refl (hR : forall x, R x x) (xs : List α) : Grows R xs xs :=
  fun _ x hx => ⟨x, hx, hR x⟩

theorem grows_append (hR : forall x, R x x) (xs : List α) (y : α) : Grows R xs (xs ++ [y]) :=
  fun _ x hx => ⟨x, slot_append_eq_some_iff.mpr (Or.inl hx), hR x⟩

theorem grows_set (hR : forall x, R x x) {xs : List α} {x y : α} {i : Nat}
    (hx : xs[i]? = some x) (hxy : R x y) : Grows R xs (xs.set i y) := by
  intro j z hz
  by_cases hj : j = i
  · rw [hj, hx] at hz
    cases hz
    exact ⟨y, by rw [hj, slot_set_self hx], hxy⟩
  · exact ⟨z, (slot_set_eq_some_iff hx).mpr (Or.inr ⟨hj, hz⟩), hR z⟩

theorem grows_modify (hR : forall x, R x x) {f : α -> α} (hf : forall x, R x (f x)) (xs : List α)
    (i : Nat) : Grows R xs (xs.modify i f) := by
  intro j x hx
  refine ⟨if i = j then f x else x, ?_, ?_⟩
  · rw [List.getElem?_modify, hx]
    split
    · rfl
    · rfl
  · split
    · exact hf x
    · exact hR x

theorem grows_map {f : α -> α} (hf : forall x, R x (f x)) (xs : List α) :
    Grows R xs (xs.map f) := by
  intro i x hx
  exact ⟨f x, by simp [hx], hf x⟩

end

end Foundation
end WispersAccess
