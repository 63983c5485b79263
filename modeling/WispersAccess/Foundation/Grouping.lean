import Mathlib.Data.List.Induction
import Mathlib.Data.List.Nodup
import WispersAccess.Foundation.Slots

/-!
# Collecting entries by key

A loop over entries keeps one group for each key it meets: the first entry with
the key makes the group, and each later one goes into it.  This module says what
groups such a loop ends with, whatever a group is.  A second loop, which puts the
results of tasks in their places as the tasks finish, comes out the same in every
order of finishing.
-/

namespace WispersAccess
namespace Foundation

variable {α β κ : Type _}

/-- How entries go into groups. -/
structure Collector (α β κ : Type _) where
  keyOf : α -> κ
  key : β -> κ
  create : α -> β
  merge : β -> α -> β
  key_create : forall a, key (create a) = keyOf a
  key_merge : forall b a, key (merge b a) = key b

namespace Collector

section
variable (c : Collector α β κ)

/-- What becomes of the entries of one group. -/
def groupOf : List α -> Option β
  | [] => none
  | a :: rest => some (rest.foldl c.merge (c.create a))

end

section
variable {c : Collector α β κ}

theorem groupOf_append_singleton (entries : List α) (a : α) :
    c.groupOf (entries ++ [a]) =
      some (match c.groupOf entries with
        | none => c.create a
        | some b => c.merge b a) := by
  cases entries with
  | nil => rfl
  | cons first rest =>
      show some ((rest ++ [a]).foldl c.merge (c.create first)) = _
      rw [List.foldl_append]
      rfl

theorem groupOf_eq_none_iff {entries : List α} : c.groupOf entries = none <-> entries = [] := by
  cases entries with
  | nil => exact ⟨fun _ => rfl, fun _ => rfl⟩
  | cons first rest => exact ⟨nofun, nofun⟩

end

variable [DecidableEq κ]

section
variable (c : Collector α β κ)

/-- The entry goes into the group that has its key, or makes one. -/
def add (a : α) : List β -> List β
  | [] => [c.create a]
  | b :: rest => if c.key b = c.keyOf a then c.merge b a :: rest else b :: add a rest

def collect (entries : List α) : List β :=
  entries.foldl (fun groups a => c.add a groups) []

end

variable {c : Collector α β κ}

theorem mem_keys_add {a : α} {groups : List β} {k : κ} :
    k ∈ (c.add a groups).map c.key <-> k ∈ groups.map c.key ∨ k = c.keyOf a := by
  induction groups with
  | nil => simp [add, c.key_create]
  | cons b rest ih =>
      by_cases h : c.key b = c.keyOf a
      · simp only [add, if_pos h, List.map_cons, List.mem_cons, c.key_merge]
        constructor
        · exact Or.inl
        · intro hmem
          rcases hmem with hmem | hk
          · exact hmem
          · exact Or.inl (hk.trans h.symm)
      · simp only [add, if_neg h, List.map_cons, List.mem_cons, ih]
        exact or_assoc.symm

theorem nodup_add {a : α} {groups : List β} (h : (groups.map c.key).Nodup) :
    ((c.add a groups).map c.key).Nodup := by
  induction groups with
  | nil => exact List.nodup_singleton _
  | cons b rest ih =>
      rcases List.nodup_cons.mp h with ⟨hnot, hrest⟩
      by_cases hkey : c.key b = c.keyOf a
      · simp only [add, if_pos hkey, List.map_cons, c.key_merge]
        exact h
      · simp only [add, if_neg hkey, List.map_cons]
        refine List.nodup_cons.mpr ⟨?_, ih hrest⟩
        intro hmem
        rcases mem_keys_add.mp hmem with hold | hnew
        · exact hnot hold
        · exact hkey hnew

/-- A group after an entry was added is one from before, with the entry if it has its key, or it is
the entry's own. -/
theorem mem_add {a : α} {groups : List β} (h : (groups.map c.key).Nodup) {b : β} :
    b ∈ c.add a groups <->
      (b ∈ groups ∧ c.key b ≠ c.keyOf a) ∨
        (exists old, old ∈ groups ∧ c.key old = c.keyOf a ∧ b = c.merge old a) ∨
        (c.keyOf a ∉ groups.map c.key ∧ b = c.create a) := by
  induction groups with
  | nil => simp [add]
  | cons first rest ih =>
      rcases List.nodup_cons.mp h with ⟨hnot, hrest⟩
      by_cases hkey : c.key first = c.keyOf a
      · have hother : forall old, old ∈ rest -> c.key old ≠ c.keyOf a := by
          intro old hold heq
          exact hnot (List.mem_map.mpr ⟨old, hold, heq.trans hkey.symm⟩)
        simp only [add, if_pos hkey, List.mem_cons]
        constructor
        · intro hb
          rcases hb with rfl | hb
          · exact Or.inr (Or.inl ⟨first, Or.inl rfl, hkey, rfl⟩)
          · exact Or.inl ⟨Or.inr hb, hother b hb⟩
        · intro hb
          rcases hb with ⟨rfl | hb, hne⟩ | ⟨old, rfl | hold, holdKey, hmerged⟩ | ⟨hnew, -⟩
          · exact absurd hkey hne
          · exact Or.inr hb
          · exact Or.inl hmerged
          · exact absurd holdKey (hother old hold)
          · exact absurd (List.mem_map.mpr ⟨first, List.mem_cons_self, hkey⟩) hnew
      · simp only [add, if_neg hkey, List.mem_cons, ih hrest, List.map_cons, not_or]
        constructor
        · intro hb
          rcases hb with rfl | ⟨hb, hne⟩ | ⟨old, hold, hrest⟩ | ⟨hnew, hmade⟩
          · exact Or.inl ⟨Or.inl rfl, hkey⟩
          · exact Or.inl ⟨Or.inr hb, hne⟩
          · exact Or.inr (Or.inl ⟨old, Or.inr hold, hrest⟩)
          · exact Or.inr (Or.inr ⟨⟨fun heq => hkey heq.symm, hnew⟩, hmade⟩)
        · intro hb
          rcases hb with ⟨rfl | hb, hne⟩ | ⟨old, rfl | hold, holdKey, hmerged⟩ | ⟨⟨-, hnew⟩, hmade⟩
          · exact Or.inl rfl
          · exact Or.inr (Or.inl ⟨hb, hne⟩)
          · exact absurd holdKey hkey
          · exact Or.inr (Or.inr (Or.inl ⟨old, hold, holdKey, hmerged⟩))
          · exact Or.inr (Or.inr (Or.inr ⟨hnew, hmade⟩))

theorem collect_append (front back : List α) :
    c.collect (front ++ back) =
      back.foldl (fun groups a => c.add a groups) (c.collect front) :=
  List.foldl_append

theorem nodup_collect (entries : List α) : ((c.collect entries).map c.key).Nodup := by
  induction entries using List.reverseRecOn with
  | nil => exact List.nodup_nil
  | append_singleton front a ih =>
      rw [collect_append]
      exact nodup_add ih

theorem mem_keys_collect {entries : List α} {k : κ} :
    k ∈ (c.collect entries).map c.key <-> k ∈ entries.map c.keyOf := by
  induction entries using List.reverseRecOn with
  | nil => exact Iff.rfl
  | append_singleton front a ih =>
      rw [collect_append, List.map_append, List.mem_append, List.map_singleton,
        List.mem_singleton, ← ih]
      exact mem_keys_add

/-- The groups are those of the keys, each of the entries with its key in their order. -/
theorem mem_collect_iff {entries : List α} {b : β} :
    b ∈ c.collect entries <->
      c.groupOf (entries.filter fun a => c.keyOf a = c.key b) = some b := by
  induction entries using List.reverseRecOn generalizing b with
  | nil => exact ⟨nofun, nofun⟩
  | append_singleton front a ih =>
      rw [collect_append, List.filter_append]
      show b ∈ c.add a (c.collect front) <-> _
      rw [mem_add (nodup_collect front)]
      by_cases hkey : c.keyOf a = c.key b
      · rw [List.filter_cons_of_pos (by simpa using hkey), List.filter_nil,
          groupOf_append_singleton, Option.some_inj]
        constructor
        · intro hb
          rcases hb with ⟨-, hne⟩ | ⟨old, hold, holdKey, rfl⟩ | ⟨hnew, rfl⟩
          · exact absurd hkey.symm hne
          · rw [c.key_merge]
            rw [ih.mp hold]
          · have hnone : c.groupOf (front.filter fun a' => c.keyOf a' = c.key (c.create a)) =
                none := by
              rw [groupOf_eq_none_iff, List.filter_eq_nil_iff]
              intro a' ha' heq
              refine hnew (mem_keys_collect.mpr (List.mem_map.mpr ⟨a', ha', ?_⟩))
              rw [of_decide_eq_true heq, c.key_create]
            rw [hnone]
        · intro hb
          cases hgroup : c.groupOf (front.filter fun a' => c.keyOf a' = c.key b) with
          | none =>
              rw [hgroup] at hb
              refine Or.inr (Or.inr ⟨?_, hb.symm⟩)
              intro hmem
              rcases List.mem_map.mp (mem_keys_collect.mp hmem) with ⟨a', ha', heq⟩
              have hempty := List.filter_eq_nil_iff.mp (groupOf_eq_none_iff.mp hgroup) a' ha'
              exact hempty (decide_eq_true (heq.trans hkey))
          | some old =>
              rw [hgroup] at hb
              have holdKey : c.key old = c.key b := by
                rw [← hb, c.key_merge]
              refine Or.inr (Or.inl ⟨old, ih.mpr ?_, holdKey.trans hkey.symm, hb.symm⟩)
              rw [holdKey]
              exact hgroup
      · rw [List.filter_cons_of_neg (by simpa using hkey), List.filter_nil, List.append_nil, ← ih]
        constructor
        · intro hb
          rcases hb with ⟨hb, -⟩ | ⟨old, -, holdKey, rfl⟩ | ⟨-, rfl⟩
          · exact hb
          · exact absurd (holdKey.symm.trans (c.key_merge old a).symm) hkey
          · exact absurd (c.key_create a).symm hkey
        · exact fun hb => Or.inl ⟨hb, fun heq => hkey heq.symm⟩

end Collector

/-!
## Results in their places
-/

/-- Each task writes what it has found in its own place, in the order in which they finish. -/
def placeAll (init : List α) (finished : List (Nat × α)) : List α :=
  finished.foldl (fun places r => places.set r.1 r.2) init

theorem placeAll_getElem? {init : List α} {finished : List (Nat × α)}
    (hnodup : (finished.map Prod.fst).Nodup) {i : Nat} (hi : i < init.length) :
    (placeAll init finished)[i]? =
      match finished.find? fun r => r.1 = i with
      | some r => some r.2
      | none => init[i]? := by
  induction finished generalizing init with
  | nil => rfl
  | cons first rest ih =>
      rcases List.nodup_cons.mp hnodup with ⟨hnot, hrest⟩
      show (placeAll (init.set first.1 first.2) rest)[i]? = _
      rw [ih hrest (by rw [List.length_set]; exact hi)]
      by_cases hfirst : first.1 = i
      · have hnone : rest.find? (fun r => r.1 = i) = none := by
          rw [List.find?_eq_none]
          intro r hr heq
          refine hnot (List.mem_map.mpr ⟨r, hr, ?_⟩)
          rw [of_decide_eq_true heq, hfirst]
        rw [hnone, List.find?_cons_of_pos (by simpa using hfirst)]
        show (init.set first.1 first.2)[i]? = some first.2
        rw [hfirst, List.getElem?_set_self hi]
      · rw [List.find?_cons_of_neg (by simpa using hfirst), List.getElem?_set_ne hfirst]

theorem length_placeAll (init : List α) (finished : List (Nat × α)) :
    (placeAll init finished).length = init.length := by
  induction finished generalizing init with
  | nil => rfl
  | cons first rest ih => exact (ih _).trans (List.length_set ..)

/-- Whatever the order in which the tasks finish, each result is in its place. -/
theorem placeAll_of_perm {init results : List α} {finished : List (Nat × α)}
    (hlength : init.length = results.length)
    (hperm : finished.Perm (results.zipIdx.map Prod.swap)) : placeAll init finished = results := by
  have hfsts : ((results.zipIdx.map Prod.swap).map Prod.fst) = List.range results.length := by
    rw [List.map_map, List.range_eq_range']
    exact List.zipIdx_map_snd 0 results
  have hnodup : (finished.map Prod.fst).Nodup := by
    rw [(hperm.map Prod.fst).nodup_iff, hfsts]
    exact List.nodup_range
  apply List.ext_getElem?
  intro i
  by_cases hi : i < init.length
  · rw [placeAll_getElem? hnodup hi]
    have hresult : i < results.length := hlength ▸ hi
    have hmem : (i, results[i]) ∈ finished := by
      rw [hperm.mem_iff, List.mem_map]
      exact ⟨(results[i], i), by simp [List.mem_zipIdx_iff_getElem?], rfl⟩
    rw [(find_key_eq_some_iff hnodup).mpr ⟨hmem, rfl⟩]
    exact (List.getElem?_eq_getElem _).symm
  · have hout := Nat.not_lt.mp hi
    rw [List.getElem?_eq_none (by rw [length_placeAll]; exact hout),
      List.getElem?_eq_none (by rw [← hlength]; exact hout)]

end Foundation
end WispersAccess
