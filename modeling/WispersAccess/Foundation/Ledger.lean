import Mathlib.Data.List.Basic
import Mathlib.Data.List.Nodup

/-!
# One-time tokens and their history

A history of tokens that are issued with a deadline and used later.  A token is
outstanding while no use follows its issue.  What a use is to be told is a
matter of the history alone, however the issuer keeps its books.
-/

namespace WispersAccess
namespace Foundation

inductive LedgerEvent (Token Time : Type _) where
  | issued (token : Token) (deadline : Time)
  | used (token : Token) (now : Time) (accepted : Bool)
  deriving DecidableEq, Repr

section
variable {Token Time : Type _}

open LedgerEvent

def issuedTokens (history : List (LedgerEvent Token Time)) : List Token :=
  history.filterMap fun
    | issued token _ => some token
    | used _ _ _ => none

/-- The token was issued with this deadline, and nobody used it since. -/
def Outstanding (history : List (LedgerEvent Token Time)) (token : Token) (deadline : Time) :
    Prop :=
  exists front back, history = front ++ issued token deadline :: back ∧
    forall now accepted, used token now accepted ∉ back

/-- Every use was accepted if and only if its token was outstanding and not past its deadline. -/
def Exact [LT Time] (history : List (LedgerEvent Token Time)) : Prop :=
  forall front back token now accepted, history = front ++ used token now accepted :: back ->
    (accepted = true <-> exists deadline, Outstanding front token deadline ∧ now < deadline)

theorem not_outstanding_nil {token : Token} {deadline : Time} :
    ¬ Outstanding [] token deadline := by
  intro h
  rcases h with ⟨front, back, hhistory, _⟩
  exact List.append_ne_nil_of_right_ne_nil front (List.cons_ne_nil _ _) hhistory.symm

/-- A history ends in its last event, or what is singled out in it comes before. -/
theorem concat_eq_append_cons_iff {α : Type _} {xs front back : List α} {x y : α} :
    xs ++ [x] = front ++ y :: back <->
      (back = [] ∧ x = y ∧ xs = front) ∨
        exists rest, back = rest ++ [x] ∧ xs = front ++ y :: rest := by
  constructor
  · intro h
    rcases List.eq_nil_or_concat back with rfl | ⟨rest, z, rfl⟩
    · rcases List.append_inj' h rfl with ⟨hfront, hlast⟩
      exact Or.inl ⟨rfl, (List.cons.inj hlast).left, hfront⟩
    · rw [List.concat_eq_append, ← List.cons_append, ← List.append_assoc] at h
      rcases List.append_inj' h rfl with ⟨hfront, hlast⟩
      rw [← (List.cons.inj hlast).left]
      exact Or.inr ⟨rest, List.concat_eq_append, hfront⟩
  · intro h
    rcases h with ⟨rfl, rfl, rfl⟩ | ⟨rest, rfl, rfl⟩
    · rfl
    · rw [List.append_assoc, List.cons_append]

theorem outstanding_concat_issued_iff {history : List (LedgerEvent Token Time)}
    {token other : Token} {deadline time : Time} :
    Outstanding (history ++ [issued other time]) token deadline <->
      (token = other ∧ deadline = time) ∨ Outstanding history token deadline := by
  constructor
  · intro hissued
    rcases hissued with ⟨front, back, hhistory, hunused⟩
    rcases concat_eq_append_cons_iff.mp hhistory with ⟨_, hlast, _⟩ | ⟨rest, rfl, hrest⟩
    · cases hlast
      exact Or.inl ⟨rfl, rfl⟩
    · refine Or.inr ⟨front, rest, hrest, ?_⟩
      intro now accepted hmem
      exact hunused now accepted (List.mem_append_left _ hmem)
  · intro h
    rcases h with ⟨rfl, rfl⟩ | ⟨front, back, rfl, hunused⟩
    · exact ⟨history, [], rfl, fun _ _ => List.not_mem_nil⟩
    · refine ⟨front, back ++ [issued other time], by simp, ?_⟩
      intro now accepted hmem
      rcases List.mem_append.mp hmem with hback | hlast
      · exact hunused now accepted hback
      · cases List.mem_singleton.mp hlast

theorem outstanding_concat_used_iff {history : List (LedgerEvent Token Time)}
    {token other : Token} {deadline time : Time} {accepted : Bool} :
    Outstanding (history ++ [used other time accepted]) token deadline <->
      token ≠ other ∧ Outstanding history token deadline := by
  constructor
  · intro h
    rcases h with ⟨front, back, hhistory, hunused⟩
    rcases concat_eq_append_cons_iff.mp hhistory with ⟨_, hlast, _⟩ | ⟨rest, rfl, hrest⟩
    · cases hlast
    · constructor
      · intro heq
        subst heq
        exact hunused time accepted (List.mem_append_right _ (List.mem_singleton.mpr rfl))
      · refine ⟨front, rest, hrest, ?_⟩
        intro now accepted' hmem
        exact hunused now accepted' (List.mem_append_left _ hmem)
  · intro h
    rcases h with ⟨hother, front, back, rfl, hunused⟩
    refine ⟨front, back ++ [used other time accepted], by simp, ?_⟩
    intro now accepted' hmem
    rcases List.mem_append.mp hmem with hback | hlast
    · exact hunused now accepted' hback
    · cases List.mem_singleton.mp hlast
      exact hother rfl

theorem mem_issuedTokens_of_outstanding {history : List (LedgerEvent Token Time)} {token : Token}
    {deadline : Time} (h : Outstanding history token deadline) : token ∈ issuedTokens history := by
  rcases h with ⟨front, back, rfl, _⟩
  refine List.mem_filterMap.mpr ⟨issued token deadline, ?_, rfl⟩
  exact List.mem_append_right _ (List.mem_cons_self ..)

/-- Where tokens differ, a token that is just being issued was not issued before. -/
theorem not_mem_of_nodup_concat {history : List (LedgerEvent Token Time)} {token : Token}
    {deadline : Time} (h : (issuedTokens (history ++ [issued token deadline])).Nodup) :
    token ∉ issuedTokens history := by
  unfold issuedTokens at h ⊢
  rw [List.filterMap_append] at h
  intro hmem
  exact (List.nodup_append.mp h).2.2 token hmem token (List.mem_singleton.mpr rfl) rfl

theorem exact_nil [LT Time] : Exact ([] : List (LedgerEvent Token Time)) := by
  intro front back token now accepted hhistory
  exact absurd hhistory.symm (List.append_ne_nil_of_right_ne_nil front (List.cons_ne_nil _ _))

theorem exact_concat_issued [LT Time] {history : List (LedgerEvent Token Time)} (h : Exact history)
    (token : Token) (deadline : Time) : Exact (history ++ [issued token deadline]) := by
  intro front back token' now accepted hhistory
  rcases concat_eq_append_cons_iff.mp hhistory with ⟨_, hlast, _⟩ | ⟨rest, rfl, hrest⟩
  · cases hlast
  · exact h front rest token' now accepted hrest

theorem exact_concat_used [LT Time] {history : List (LedgerEvent Token Time)} (h : Exact history)
    {token : Token} {now : Time} {accepted : Bool}
    (haccepted : accepted = true <->
      exists deadline, Outstanding history token deadline ∧ now < deadline) :
    Exact (history ++ [used token now accepted]) := by
  intro front back token' now' accepted' hhistory
  rcases concat_eq_append_cons_iff.mp hhistory with ⟨_, hlast, rfl⟩ | ⟨rest, rfl, hrest⟩
  · cases hlast
    exact haccepted
  · exact h front rest token' now' accepted' hrest

end

end Foundation
end WispersAccess
