import Mathlib.Data.List.Basic

/-!
# Reading a stream in pieces

What a peer sends arrives in pieces of any size.  A reader that asks for a number
of items puts pieces together and leaves the rest of the last one for the next
reader, so that the pieces make no difference to what is read.
-/

namespace WispersAccess
namespace Foundation

variable {α : Type _}

/-- Take exactly that many items off the pieces; nothing where they end before. -/
def readExact : Nat -> List (List α) -> Option (List α × List (List α))
  | 0, chunks => some ([], chunks)
  | _ + 1, [] => none
  | n + 1, chunk :: chunks =>
      if n + 1 ≤ chunk.length then some (chunk.take (n + 1), chunk.drop (n + 1) :: chunks)
      else (readExact (n + 1 - chunk.length) chunks).map fun p => (chunk ++ p.1, p.2)

theorem readExact_some {n : Nat} {chunks rest : List (List α)} {xs : List α}
    (h : readExact n chunks = some (xs, rest)) :
    chunks.flatten = xs ++ rest.flatten ∧ xs.length = n := by
  induction chunks generalizing n xs with
  | nil =>
      cases n with
      | zero =>
          cases h
          exact ⟨rfl, rfl⟩
      | succ n => cases h
  | cons chunk chunks ih =>
      cases n with
      | zero =>
          cases h
          exact ⟨rfl, rfl⟩
      | succ n =>
          rw [readExact] at h
          split at h
          · rename_i hwhole
            cases h
            constructor
            · rw [List.flatten_cons, List.flatten_cons, ← List.append_assoc, List.take_append_drop]
            · rw [List.length_take]
              omega
          · rename_i hpart
            rcases Option.map_eq_some_iff.mp h with ⟨⟨ys, after⟩, hread, heq⟩
            cases heq
            rcases ih hread with ⟨hflat, hlength⟩
            constructor
            · rw [List.flatten_cons, hflat, List.append_assoc]
            · rw [List.length_append, hlength]
              omega

theorem readExact_eq_none_iff {n : Nat} {chunks : List (List α)} :
    readExact n chunks = none <-> chunks.flatten.length < n := by
  induction chunks generalizing n with
  | nil =>
      cases n with
      | zero => simp [readExact]
      | succ n => simp [readExact]
  | cons chunk chunks ih =>
      cases n with
      | zero => simp [readExact]
      | succ n =>
          rw [readExact, List.flatten_cons, List.length_append]
          split
          · constructor
            · exact nofun
            · intro hshort
              omega
          · rw [Option.map_eq_none_iff, ih]
            omega

/-- The pieces make no difference: the first items are read, the others are left. -/
theorem exists_readExact {n : Nat} {chunks : List (List α)} {xs ys : List α}
    (hflat : chunks.flatten = xs ++ ys) (hlength : xs.length = n) :
    exists rest, readExact n chunks = some (xs, rest) ∧ rest.flatten = ys := by
  cases hread : readExact n chunks with
  | none =>
      have hshort := readExact_eq_none_iff.mp hread
      rw [hflat, List.length_append] at hshort
      omega
  | some p =>
      rcases p with ⟨zs, rest⟩
      rcases readExact_some hread with ⟨hflat', hlength'⟩
      rcases List.append_inj (hflat'.symm.trans hflat) (hlength'.trans hlength.symm) with
        ⟨rfl, hrest⟩
      exact ⟨rest, rfl, hrest⟩

end Foundation
end WispersAccess
