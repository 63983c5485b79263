/-!
# Writes that may have happened

A store is written to by calls that return or fail, and a call that failed may have
written all the same.  What a key may hold then is a matter of the calls alone:
the value of a call for it after which no call for it has returned.
-/

namespace WispersAccess
namespace Foundation

structure Write (K V : Type _) where
  key : K
  value : V
  /-- The call has returned. -/
  returned : Bool

variable {K V S : Type _}

/-- What the key may hold after the writes. -/
def MayHold (first : V) (writes : List (Write K V)) (key : K) (v : V) : Prop :=
  (v = first ∧ forall w, w ∈ writes -> w.key = key -> w.returned = false) ∨
    exists front w back, writes = front ++ w :: back ∧ w.key = key ∧ w.value = v ∧
      forall w', w' ∈ back -> w'.key = key -> w'.returned = false

/-- A write, as it is seen from outside: nothing else changes, and it happens if it returns. -/
structure Write.Done (write : Write K V) (before after : K -> V) : Prop where
  others : forall key, key ≠ write.key -> after key = before key
  own : after write.key = write.value ∨
    write.returned = false ∧ after write.key = before write.key

variable {first v : V} {writes : List (Write K V)} {key : K} {write : Write K V}

theorem mayHold_nil : MayHold first [] key first :=
  Or.inl ⟨rfl, fun _ h => nomatch h⟩

theorem mayHold_own : MayHold first (writes ++ [write]) write.key write.value :=
  Or.inr ⟨writes, write, [], rfl, rfl, rfl, fun _ h => nomatch h⟩

/-- A write that is for another key, or that did not return, takes nothing away. -/
theorem MayHold.concat (h : MayHold first writes key v)
    (hwrite : write.key = key -> write.returned = false) :
    MayHold first (writes ++ [write]) key v := by
  rcases h with ⟨hfirst, hall⟩ | ⟨front, w, back, hwrites, hkey, hvalue, hback⟩
  · refine Or.inl ⟨hfirst, ?_⟩
    intro w hw hkey
    rcases List.mem_append.mp hw with hold | hnew
    · exact hall w hold hkey
    · cases List.mem_singleton.mp hnew
      exact hwrite hkey
  · refine Or.inr ⟨front, w, back ++ [write], ?_, hkey, hvalue, ?_⟩
    · rw [hwrites, List.append_assoc, List.cons_append]
    · intro w' hw' hkey'
      rcases List.mem_append.mp hw' with hold | hnew
      · exact hback w' hold hkey'
      · cases List.mem_singleton.mp hnew
        exact hwrite hkey'

/-- What the keys hold stays what they may hold. -/
theorem Write.Done.mayHold {before after : K -> V} (h : write.Done before after)
    (hbefore : forall key, MayHold first writes key (before key)) (key : K) :
    MayHold first (writes ++ [write]) key (after key) := by
  by_cases hkey : key = write.key
  · rw [hkey]
    rcases h.own with hnew | ⟨hfailed, hold⟩
    · rw [hnew]
      exact mayHold_own
    · rw [hold]
      exact (hbefore write.key).concat fun _ => hfailed
  · rw [h.others key hkey]
    exact (hbefore key).concat fun heq => absurd heq.symm hkey

/-- After a write that returned, and no other for its key, the key holds what was written. -/
theorem MayHold.eq_of_returned {front back : List (Write K V)}
    (h : MayHold first (front ++ write :: back) write.key v) (hreturned : write.returned = true)
    (hlast : forall w, w ∈ back -> w.key ≠ write.key) : v = write.value := by
  rcases h with ⟨-, hall⟩ | ⟨front', w, back', hwrites, hkey, hvalue, hback⟩
  · have hfalse := hall write (List.mem_append_right _ List.mem_cons_self) rfl
    rw [hreturned] at hfalse
    cases hfalse
  · rcases List.append_eq_append_iff.mp hwrites with ⟨mid, hfront', htail⟩ | ⟨mid, hfront, htail⟩
    · cases mid with
      | nil =>
          rw [List.nil_append] at htail
          rw [← hvalue, (List.cons.inj htail).left]
      | cons other mid =>
          -- the other write is behind the one that returned
          have hmem : w ∈ back := by
            rw [(List.cons.inj htail).right]
            exact List.mem_append_right _ List.mem_cons_self
          exact absurd hkey (hlast w hmem)
    · cases mid with
      | nil =>
          rw [List.nil_append] at htail
          rw [← hvalue, (List.cons.inj htail).left]
      | cons other mid =>
          have hmem : write ∈ back' := by
            rw [(List.cons.inj htail).right]
            exact List.mem_append_right _ List.mem_cons_self
          have hfalse := hback write hmem rfl
          rw [hreturned] at hfalse
          cases hfalse

end Foundation
end WispersAccess
