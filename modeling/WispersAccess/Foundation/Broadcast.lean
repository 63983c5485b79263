import Mathlib.Data.List.Basic

/-!
# Broadcast channels that forget

A channel keeps the last values that were sent, up to its capacity, for each of
its receivers.  A receiver that falls behind by more skips to the oldest value
that is still kept.  It gets the values since it subscribed in their order, may
miss some of them, and never misses the last ones.
-/

namespace WispersAccess
namespace Foundation

variable {α : Type _}

/-- A receiver's place among all the values that were ever sent. -/
structure Receiver (α : Type _) where
  start : Nat
  next : Nat
  /-- What it has received. -/
  got : List α
  deriving DecidableEq, Repr

namespace Receiver

/-- A new receiver gets what is sent from now on. -/
def subscribe (log : List α) : Receiver α where
  start := log.length
  next := log.length
  got := []

/-- It has received whatever was sent. -/
def Drained (log : List α) (r : Receiver α) : Prop :=
  r.next = log.length

instance (log : List α) (r : Receiver α) : Decidable (r.Drained log) :=
  inferInstanceAs (Decidable (_ = _))

/-- Receive the next value, or skip those that are not kept any more; nothing where it has to
wait. -/
def recv (capacity : Nat) (log : List α) (r : Receiver α) : Option (Receiver α) :=
  if r.next + capacity < log.length then some { r with next := log.length - capacity }
  else (log[r.next]?).map fun v => { r with next := r.next + 1, got := r.got ++ [v] }

/-- Receiving as often as this, or until it has to wait. -/
def recvAll (capacity : Nat) (log : List α) : Nat -> Receiver α -> Receiver α
  | 0, r => r
  | n + 1, r =>
      match r.recv capacity log with
      | none => r
      | some r' => r'.recvAll capacity log n

/-- What a receiver knows of the channel. -/
structure Follows (capacity : Nat) (log : List α) (r : Receiver α) : Prop where
  started : r.start ≤ r.next
  sent : r.next ≤ log.length
  /-- It gets values in their order, each once, and none from before it subscribed. -/
  inOrder : List.Sublist r.got ((log.take r.next).drop r.start)
  /-- It misses none of the last values. -/
  recent : (log.take r.next).drop (max r.start (log.length - capacity)) <:+ r.got

section
variable {capacity : Nat} {log : List α} {r r' : Receiver α}

theorem follows_subscribe (capacity : Nat) (log : List α) :
    Follows capacity log (subscribe log) where
  started := Nat.le_refl _
  sent := Nat.le_refl _
  inOrder := List.nil_sublist _
  recent := by
    have hempty : (log.take log.length).drop (max log.length (log.length - capacity)) = [] := by
      rw [List.drop_eq_nil_iff, List.length_take]
      omega
    show (log.take log.length).drop (max log.length (log.length - capacity)) <:+ []
    exact hempty ▸ List.suffix_refl []

/-- Values that are sent change nothing for a receiver but what it has to catch up on. -/
theorem Follows.send (h : Follows capacity log r) (v : α) : Follows capacity (log ++ [v]) r where
  started := h.started
  sent := by
    rw [List.length_append, List.length_singleton]
    exact Nat.le_succ_of_le h.sent
  inOrder := by
    rw [List.take_append_of_le_length h.sent]
    exact h.inOrder
  recent := by
    rw [List.take_append_of_le_length h.sent, List.length_append, List.length_singleton]
    refine List.IsSuffix.trans ?_ h.recent
    exact List.drop_suffix_drop_left _ (by omega)

theorem recv_eq_some (h : r.recv capacity log = some r') :
    r.next + capacity < log.length ∧ r' = { r with next := log.length - capacity } ∨
      log.length ≤ r.next + capacity ∧ exists v, log[r.next]? = some v ∧
        r' = { r with next := r.next + 1, got := r.got ++ [v] } := by
  unfold recv at h
  split at h
  · rename_i hlag
    exact Or.inl ⟨hlag, (Option.some.inj h).symm⟩
  · rename_i hlag
    rcases Option.map_eq_some_iff.mp h with ⟨v, hv, rfl⟩
    exact Or.inr ⟨Nat.not_lt.mp hlag, v, hv, rfl⟩

theorem Follows.recv (h : Follows capacity log r) (hrecv : r.recv capacity log = some r') :
    Follows capacity log r' := by
  have hstarted := h.started
  have hsent := h.sent
  rcases recv_eq_some hrecv with ⟨hlag, rfl⟩ | ⟨hkept, v, hv, rfl⟩
  · refine ⟨?_, ?_, ?_, ?_⟩
    · show r.start ≤ log.length - capacity
      omega
    · exact Nat.sub_le _ _
    · have hmore : log.take r.next <+: log.take (log.length - capacity) :=
        List.take_prefix_take_left (by omega)
      exact h.inOrder.trans (hmore.sublist.drop r.start)
    · have hempty : (log.take (log.length - capacity)).drop
          (max r.start (log.length - capacity)) = [] := by
        rw [List.drop_eq_nil_iff, List.length_take]
        omega
      show (log.take (log.length - capacity)).drop (max r.start (log.length - capacity)) <:+ _
      rw [hempty]
      exact List.nil_suffix
  · have hlt : r.next < log.length := (List.getElem?_eq_some_iff.mp hv).1
    have hlen : (log.take r.next).length = r.next := List.length_take_of_le hsent
    have htake : log.take (r.next + 1) = log.take r.next ++ [v] := by
      rw [List.take_add_one, hv]
      rfl
    refine ⟨?_, ?_, ?_, ?_⟩
    · exact Nat.le_succ_of_le hstarted
    · exact hlt
    · show List.Sublist (r.got ++ [v]) ((log.take (r.next + 1)).drop r.start)
      rw [htake, List.drop_append_of_le_length (by omega)]
      exact h.inOrder.append (List.Sublist.refl [v])
    · show (log.take (r.next + 1)).drop (max r.start (log.length - capacity)) <:+ r.got ++ [v]
      rw [htake, List.drop_append_of_le_length (by omega)]
      rcases h.recent with ⟨front, hfront⟩
      exact ⟨front, by rw [← List.append_assoc, hfront]⟩

theorem recv_start (h : r.recv capacity log = some r') : r'.start = r.start := by
  rcases recv_eq_some h with ⟨-, rfl⟩ | ⟨-, v, -, rfl⟩
  · rfl
  · rfl

theorem Follows.recvAll (h : Follows capacity log r) (n : Nat) :
    Follows capacity log (r.recvAll capacity log n) ∧
      (r.recvAll capacity log n).start = r.start := by
  induction n generalizing r with
  | zero => exact ⟨h, rfl⟩
  | succ n ih =>
      unfold Receiver.recvAll
      cases hrecv : r.recv capacity log with
      | none => exact ⟨h, rfl⟩
      | some r' =>
          rcases ih (h.recv hrecv) with ⟨hfollows, hstart⟩
          exact ⟨hfollows, hstart.trans (recv_start hrecv)⟩

/-- A receiver that has caught up has the last values, and nothing but values since it
subscribed. -/
theorem Follows.drained (h : Follows capacity log r) (hdrained : r.Drained log) :
    List.Sublist r.got (log.drop r.start) ∧
      log.drop (max r.start (log.length - capacity)) <:+ r.got := by
  have hall : log.take r.next = log := by
    rw [show r.next = log.length from hdrained, List.take_length]
  have hboth := And.intro h.inOrder h.recent
  rw [hall] at hboth
  exact hboth

/-- The last value it has is the last one sent since. -/
theorem Follows.getLast?_of_drained (h : Follows capacity log r) (hdrained : r.Drained log)
    (hcapacity : 0 < capacity) : r.got.getLast? = (log.drop r.start).getLast? := by
  rcases h.drained hdrained with ⟨hsub, hrecent⟩
  cases hlast : (log.drop r.start).getLast? with
  | none =>
      rw [List.getLast?_eq_none_iff] at hlast
      rw [hlast] at hsub
      rw [List.sublist_nil.mp hsub]
      rfl
  | some v =>
      rcases List.getLast?_eq_some_iff.mp hlast with ⟨front, hfront⟩
      have hlen : r.start + front.length + 1 = log.length := by
        have hlength := congrArg List.length hfront
        rw [List.length_drop, List.length_append, List.length_singleton] at hlength
        omega
      have hkept : (log.drop (max r.start (log.length - capacity))).getLast? = some v := by
        have hsplit : log.drop (max r.start (log.length - capacity)) =
            (log.drop r.start).drop (max r.start (log.length - capacity) - r.start) := by
          rw [List.drop_drop]
          congr 1
          omega
        rw [hsplit, hfront, List.drop_append_of_le_length (by omega), List.getLast?_append]
        rfl
      rcases hrecent with ⟨before, hbefore⟩
      rw [← hbefore, List.getLast?_append, hkept]
      rfl

/-- While nothing is sent, it has caught up after as many receives as the channel keeps values,
and one. -/
theorem drained_recvAll (h : Follows capacity log r) :
    (r.recvAll capacity log (capacity + 1)).Drained log := by
  have hcatch : forall n (r : Receiver α), r.next ≤ log.length -> log.length ≤ r.next + capacity ->
      log.length ≤ r.next + n -> (r.recvAll capacity log n).Drained log := by
    intro n
    induction n with
    | zero =>
        intro r hsent _ hlen
        exact Nat.le_antisymm hsent hlen
    | succ n ih =>
        intro r hsent hkept hlen
        have hlag : ¬ r.next + capacity < log.length := Nat.not_lt.mpr hkept
        unfold recvAll Receiver.recv
        rw [if_neg hlag]
        cases hv : log[r.next]? with
        | none =>
            exact Nat.le_antisymm hsent (List.getElem?_eq_none_iff.mp hv)
        | some v =>
            have hlt := (List.getElem?_eq_some_iff.mp hv).1
            refine ih _ hlt ?_ ?_
            · show log.length ≤ r.next + 1 + capacity
              omega
            · show log.length ≤ r.next + 1 + n
              omega
  by_cases hlag : r.next + capacity < log.length
  · unfold recvAll Receiver.recv
    rw [if_pos hlag]
    refine hcatch capacity _ (Nat.sub_le _ _) ?_ ?_
    · show log.length ≤ log.length - capacity + capacity
      omega
    · show log.length ≤ log.length - capacity + capacity
      omega
  · exact hcatch _ r h.sent (Nat.not_lt.mp hlag) (by omega)

end

end Receiver
end Foundation
end WispersAccess
