import WispersAccess.Foundation.Slots

/-!
# Tickets that are used once

Holders that are served at the same time are given tickets, numbered as they are
issued.  A holder waits until it uses its ticket.  Whatever the order in which
holders come, get tickets, use them and go, no ticket is used twice and no holder
uses two.
-/

namespace WispersAccess
namespace Foundation

variable {P : Type _}

/-- The tickets that holders have and those that were used, each with its holder. -/
structure UsedOnce (ticket : P -> Option Nat) (waits : P -> Bool) (issued : Nat)
    (holders : List P) (used : List (Nat × Nat)) : Prop where
  held : forall (i : Nat) (p : P) (n : Nat), holders[i]? = some p -> ticket p = some n -> n < issued
  alone : forall (i j : Nat) (p q : P) (n : Nat), holders[i]? = some p -> holders[j]? = some q ->
    ticket p = some n -> ticket q = some n -> i = j
  unused : forall (i : Nat) (p : P), holders[i]? = some p -> waits p = true ->
    i ∉ used.map Prod.fst ∧ forall n, ticket p = some n -> n ∉ used.map Prod.snd
  known : forall use, use ∈ used -> use.1 < holders.length ∧ use.2 < issued
  holder_once : (used.map Prod.fst).Nodup
  ticket_once : (used.map Prod.snd).Nodup

section
variable {ticket : P -> Option Nat} {waits : P -> Bool} {issued issued' i n : Nat}
  {holders : List P} {used : List (Nat × Nat)} {p q : P}

theorem usedOnce_nil : UsedOnce ticket waits issued [] [] where
  held := by
    intro i p n hp
    cases hp
  alone := by
    intro i j p q n hp
    cases hp
  unused := by
    intro i p hp
    cases hp
  known := by
    intro use huse
    cases huse
  holder_once := List.nodup_nil
  ticket_once := List.nodup_nil

theorem UsedOnce.issues (h : UsedOnce ticket waits issued holders used) (hle : issued ≤ issued') :
    UsedOnce ticket waits issued' holders used where
  held := fun i p n hp hn => Nat.lt_of_lt_of_le (h.held i p n hp hn) hle
  alone := h.alone
  unused := h.unused
  known := by
    intro use huse
    rcases h.known use huse with ⟨hholder, hticket⟩
    exact ⟨hholder, Nat.lt_of_lt_of_le hticket hle⟩
  holder_once := h.holder_once
  ticket_once := h.ticket_once

theorem UsedOnce.holder_lt (h : UsedOnce ticket waits issued holders used)
    (hi : i ∈ used.map Prod.fst) : i < holders.length := by
  rcases List.mem_map.mp hi with ⟨use, huse, rfl⟩
  exact (h.known use huse).left

theorem UsedOnce.ticket_lt (h : UsedOnce ticket waits issued holders used)
    (hn : n ∈ used.map Prod.snd) : n < issued := by
  rcases List.mem_map.mp hn with ⟨use, huse, rfl⟩
  exact (h.known use huse).right

/-- A holder comes, without a ticket. -/
theorem UsedOnce.joined (h : UsedOnce ticket waits issued holders used) (hnone : ticket p = none) :
    UsedOnce ticket waits issued (holders ++ [p]) used where
  held := by
    intro i q n hq hn
    rcases slot_append_eq_some_iff.mp hq with hq | ⟨rfl, rfl⟩
    · exact h.held i q n hq hn
    · rw [hnone] at hn
      cases hn
  alone := by
    intro i j q q' n hq hq' hn hn'
    rcases slot_append_eq_some_iff.mp hq with hq | ⟨rfl, rfl⟩
    · rcases slot_append_eq_some_iff.mp hq' with hq' | ⟨rfl, rfl⟩
      · exact h.alone i j q q' n hq hq' hn hn'
      · rw [hnone] at hn'
        cases hn'
    · rw [hnone] at hn
      cases hn
  unused := by
    intro i q hq hwaits
    rcases slot_append_eq_some_iff.mp hq with hq | ⟨rfl, rfl⟩
    · exact h.unused i q hq hwaits
    · refine ⟨fun hmem => absurd (h.holder_lt hmem) (Nat.lt_irrefl _), ?_⟩
      intro n hn
      rw [hnone] at hn
      cases hn
  known := by
    intro use huse
    rcases h.known use huse with ⟨hholder, hticket⟩
    rw [List.length_append]
    exact ⟨Nat.lt_of_lt_of_le hholder (Nat.le_add_right _ _), hticket⟩
  holder_once := h.holder_once
  ticket_once := h.ticket_once

/-- A holder keeps its ticket, drops it, or is given the next one. -/
theorem UsedOnce.moved (h : UsedOnce ticket waits issued holders used) (hp : holders[i]? = some p)
    (hticket : forall n, ticket q = some n -> ticket p = some n ∨ n = issued ∧ issued < issued')
    (hwaits : waits q = true -> waits p = true) (hle : issued ≤ issued') :
    UsedOnce ticket waits issued' (holders.set i q) used := by
  -- a ticket that another holder has is one that this holder had
  have hother : forall (j : Nat) (r : P) (n : Nat), holders[j]? = some r -> ticket r = some n ->
      ticket q = some n -> j = i := by
    intro j r n hr hn hnew
    rcases hticket n hnew with hold | ⟨rfl, -⟩
    · exact h.alone j i r p n hr hp hn hold
    · exact absurd (h.held j r _ hr hn) (Nat.lt_irrefl _)
  refine ⟨?_, ?_, ?_, ?_, h.holder_once, h.ticket_once⟩
  · intro j r n hr hn
    rcases (slot_set_eq_some_iff hp).mp hr with ⟨rfl, rfl⟩ | ⟨-, hr⟩
    · rcases hticket n hn with hold | ⟨rfl, hlt⟩
      · exact Nat.lt_of_lt_of_le (h.held _ p n hp hold) hle
      · exact hlt
    · exact Nat.lt_of_lt_of_le (h.held j r n hr hn) hle
  · intro j k r r' n hr hr' hn hn'
    rcases (slot_set_eq_some_iff hp).mp hr with ⟨hj, rfl⟩ | ⟨-, hold⟩
    · rcases (slot_set_eq_some_iff hp).mp hr' with ⟨hk, rfl⟩ | ⟨-, hold'⟩
      · exact hj.trans hk.symm
      · exact hj.trans (hother k r' n hold' hn' hn).symm
    · rcases (slot_set_eq_some_iff hp).mp hr' with ⟨hk, rfl⟩ | ⟨-, hold'⟩
      · exact (hother j r n hold hn hn').trans hk.symm
      · exact h.alone j k r r' n hold hold' hn hn'
  · intro j r hr hr'
    rcases (slot_set_eq_some_iff hp).mp hr with ⟨rfl, rfl⟩ | ⟨-, hr⟩
    · rcases h.unused _ p hp (hwaits hr') with ⟨hholder, htickets⟩
      refine ⟨hholder, ?_⟩
      intro n hn hmem
      rcases hticket n hn with hold | ⟨rfl, -⟩
      · exact htickets n hold hmem
      · exact absurd (h.ticket_lt hmem) (Nat.lt_irrefl _)
    · exact h.unused j r hr hr'
  · intro use huse
    rw [List.length_set]
    exact ⟨(h.known use huse).left, Nat.lt_of_lt_of_le (h.known use huse).right hle⟩

/-- A holder that waits uses its ticket. -/
theorem UsedOnce.uses (h : UsedOnce ticket waits issued holders used) (hp : holders[i]? = some p)
    (hwaits : waits p = true) (hn : ticket p = some n) (hnone : ticket q = none)
    (hdone : waits q = false) :
    UsedOnce ticket waits issued (holders.set i q) (used ++ [(i, n)]) := by
  rcases h.unused i p hp hwaits with ⟨hholder, htickets⟩
  have hmoved : UsedOnce ticket waits issued (holders.set i q) used := by
    refine h.moved hp ?_ ?_ (Nat.le_refl _)
    · intro m hm
      rw [hnone] at hm
      cases hm
    · intro hq
      rw [hdone] at hq
      cases hq
  refine ⟨hmoved.held, hmoved.alone, ?_, ?_, ?_, ?_⟩
  · intro j r hr hr'
    rcases (slot_set_eq_some_iff hp).mp hr with ⟨rfl, rfl⟩ | ⟨hj, hold⟩
    · rw [hdone] at hr'
      cases hr'
    · rcases h.unused j r hold hr' with ⟨hfirst, hsecond⟩
      simp only [List.map_append, List.map_cons, List.map_nil, List.mem_append,
        List.mem_singleton, not_or]
      refine ⟨⟨hfirst, hj⟩, fun m hm => ⟨hsecond m hm, ?_⟩⟩
      intro heq
      exact hj (h.alone j i r p n hold hp (heq ▸ hm) hn)
  · intro use huse
    rcases List.mem_append.mp huse with hold | hnew
    · exact hmoved.known use hold
    · cases List.mem_singleton.mp hnew
      rw [List.length_set]
      exact ⟨slot_lt hp, h.held i p n hp hn⟩
  · rw [List.map_append, List.map_singleton, ← List.concat_eq_append, List.nodup_concat]
    exact ⟨hholder, h.holder_once⟩
  · rw [List.map_append, List.map_singleton, ← List.concat_eq_append, List.nodup_concat]
    exact ⟨htickets n hn, h.ticket_once⟩

end

end Foundation
end WispersAccess
