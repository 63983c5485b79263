import WispersAccess.Host.ConnectionClosing

/-!
# What closing connections comes to

No request to close a connection is lost, and a call that closes connections waits for
all that it asked, though not forever.
-/

namespace WispersAccess
namespace Host
namespace Closing

open Foundation
open Wire (CloseCode)

/-!
## What holds all along
-/

/-- What its phase says of a call. -/
def CloseCall.InPhase (s : ServingHandle) (call : CloseCall) : Prop :=
  match call.phase with
  | CallPhase.revoking | CallPhase.failed => call.asked = []
  | CallPhase.locking => True
  | CallPhase.sweeping left =>
      forall i, i ∈ left -> exists c, s.connections[i]? = some c ∧ c.registered = true
  | CallPhase.waiting wake sleeps =>
      call.swept + closePoll * sleeps ≤ wake ∧ wake < call.swept + closeGrace + closePoll
  | CallPhase.returned true => call.swept + closeGrace ≤ s.now
  | CallPhase.returned false =>
      forall i, i ∈ call.asked -> exists c, s.connections[i]? = some c ∧
        c.phase = ConnectionPhase.unregistered

/-- A revocation closes connections only after the transport has revoked the guest. -/
def CloseCall.Cleared (past : List ClosingAction) (k : Nat) (call : CloseCall) : Prop :=
  forall number, call.kind = CallKind.revokeGuest number ->
    call.phase = CallPhase.revoking ∨ call.phase = CallPhase.failed ∨
      ClosingAction.call k (CallAction.revoked true) ∈ past

structure Accounts (past : List ClosingAction) (s : ServingHandle) : Prop where
  settled : forall (i : Nat) c, s.connections[i]? = some c -> c.Settled
  carries : forall (i : Nat) c code, s.connections[i]? = some c -> c.Carries code ->
    exists (k : Nat) (call : CloseCall), s.calls[k]? = some call ∧ call.kind.code = code ∧
      call.kind.which c = true ∧ i ∈ call.asked
  asked : forall (k : Nat) call i, s.calls[k]? = some call -> i ∈ call.asked ->
    exists c, s.connections[i]? = some c ∧ call.kind.which c = true ∧
      c.phase ≠ ConnectionPhase.accepted ∧ c.Closes
  phases : forall (k : Nat) call, s.calls[k]? = some call -> call.InPhase s
  cleared : forall (k : Nat) call, s.calls[k]? = some call -> call.Cleared past k

section
variable {transport : TransportKind} {s t : ServingHandle} {a : ClosingAction}
  {past acts : List ClosingAction}

theorem locked_of_sweeping {k : Nat} {call : CloseCall} {left : List Nat}
    (hcall : s.calls[k]? = some call) (hphase : call.phase = CallPhase.sweeping left) :
    s.locked = true := by
  refine List.any_eq_true.mpr ⟨call, List.mem_of_getElem? hcall, ?_⟩
  unfold CloseCall.locks
  rw [hphase]

/-- Whatever is done next, a call is as its phase says. -/
theorem Effect.inPhase (h : Effect transport s a t) {k : Nat} {call : CloseCall}
    (hcall : s.calls[k]? = some call) (hphase : call.InPhase s) : call.InPhase t := by
  unfold CloseCall.InPhase at hphase ⊢
  split at hphase
  · exact hphase
  · exact hphase
  · trivial
  · rename_i left hleft
    intro i hi
    rcases hphase i hi with ⟨c, hc, hregistered⟩
    rcases h.kept (locked_of_sweeping hcall hleft) i c hc with ⟨c', hc', hkept⟩
    exact ⟨c', hc', hkept hregistered⟩
  · exact hphase
  · exact Nat.le_trans hphase h.now
  · intro i hi
    rcases hphase i hi with ⟨c, hc, hout⟩
    rcases h.connections i c hc with ⟨c', hc', hlasts⟩
    exact ⟨c', hc', hlasts.out hout⟩

theorem mem_ids {i : Nat} (h : i ∈ s.ids) :
    exists c, s.connections[i]? = some c ∧ c.registered = true := by
  have hany := (List.mem_filter.mp h).right
  cases hc : s.connections[i]? with
  | none =>
      rw [hc] at hany
      cases hany
  | some c =>
      rw [hc] at hany
      exact ⟨c, rfl, hany⟩

/-- Nothing is pending, so what was asked has gone. -/
theorem out_of_pending (h : Accounts past s) {k i : Nat} {call : CloseCall}
    (hcall : s.calls[k]? = some call) (hpending : s.pending call.kind = 0) (hi : i ∈ call.asked) :
    exists c, s.connections[i]? = some c ∧ c.phase = ConnectionPhase.unregistered := by
  rcases h.asked k call i hcall hi with ⟨c, hc, hwhich, hbegun, -⟩
  refine ⟨c, hc, ?_⟩
  by_contra hphase
  have hregistered : c.registered = true := by
    simp [GuestNodeConnection.registered, hbegun, hphase]
  have hmem : c ∈ s.connections.filter fun c => c.registered && call.kind.which c := by
    refine List.mem_filter.mpr ⟨List.mem_of_getElem? hc, ?_⟩
    rw [hregistered, hwhich]
    rfl
  rw [List.eq_nil_of_length_eq_zero hpending] at hmem
  cases hmem

theorem CallMoves.inPhase (h : Accounts past s) {k : Nat} {call : CloseCall} {b : CallAction}
    {phase : CallPhase} (hcall : s.calls[k]? = some call) (hmoves : CallMoves s call b phase) :
    CloseCall.InPhase s { call with phase := phase } := by
  have hold := h.phases k call hcall
  unfold CloseCall.InPhase at hold
  cases hmoves with
  | revoked => trivial
  | refused hphase =>
      rw [hphase] at hold
      exact hold
  | locked order hphase horder =>
      intro i hi
      exact mem_ids (horder.mem_iff.mp hi)
  | skipped i left c hphase hc hwhich =>
      rw [hphase] at hold
      exact fun j hj => hold j (List.mem_cons_of_mem _ hj)
  | done wake sleeps hphase hwake hpending =>
      intro i hi
      exact out_of_pending h hcall hpending hi
  | gaveUp wake sleeps hphase hlate => exact hlate
  | slept wake sleeps hphase hwake hearly =>
      rw [hphase] at hold
      show call.swept + closePoll * (sleeps + 1) ≤ s.now + closePoll ∧
        s.now + closePoll < call.swept + closeGrace + closePoll
      simp only at hold
      rw [Nat.mul_succ]
      exact ⟨by omega, by omega⟩

theorem CloseCall.Cleared.revoked {k : Nat} {call : CloseCall} {number : Int}
    (h : call.Cleared past k) (hkind : call.kind = CallKind.revokeGuest number)
    (hrevoking : call.phase ≠ CallPhase.revoking) (hfailed : call.phase ≠ CallPhase.failed) :
    ClosingAction.call k (CallAction.revoked true) ∈ past := by
  rcases h number hkind with hphase | hphase | hmem
  · exact absurd hphase hrevoking
  · exact absurd hphase hfailed
  · exact hmem

/-- Only a revocation that the transport made goes on. -/
theorem CallMoves.cleared {k : Nat} {call : CloseCall} {b : CallAction} {phase : CallPhase}
    (hmoves : CallMoves s call b phase) (hold : call.Cleared past k) :
    CloseCall.Cleared (past ++ [ClosingAction.call k b]) k { call with phase := phase } := by
  intro number hkind
  cases hmoves with
  | revoked => exact Or.inr (Or.inr (List.mem_append_right _ (List.mem_singleton_self _)))
  | refused => exact Or.inr (Or.inl rfl)
  | locked order hphase | skipped i left c hphase | done wake sleeps hphase
  | gaveUp wake sleeps hphase | slept wake sleeps hphase =>
      have hmem := hold.revoked hkind (by simp [hphase]) (by simp [hphase])
      exact Or.inr (Or.inr (List.mem_append_left _ hmem))

theorem CloseCall.Cleared.append {k : Nat} {call : CloseCall} (h : call.Cleared past k)
    (b : ClosingAction) : call.Cleared (past ++ [b]) k := by
  intro number hkind
  rcases h number hkind with hrevoking | hfailed | hmem
  · exact Or.inl hrevoking
  · exact Or.inr (Or.inl hfailed)
  · exact Or.inr (Or.inr (List.mem_append_left _ hmem))

theorem Effect.settled (h : Effect transport s a t) (hs : Accounts past s) (i : Nat)
    (c : GuestNodeConnection) (hc : t.connections[i]? = some c) : c.Settled := by
  have hold : forall {j : Nat} {d d' : GuestNodeConnection}, s.connections[j]? = some d ->
      Lasts d d' -> d'.Settled :=
    fun hd hlasts => hlasts.settled (hs.settled _ _ hd)
  cases h with
  | accepted number =>
      rcases slot_append_eq_some_iff.mp hc with hc | ⟨-, rfl⟩
      · exact hold hc (Lasts.refl c)
      · intro hdone
        rcases hdone with hdone | hdone
        · cases hdone
        · cases hdone
  | moved j b d d' hd hmoves =>
      rcases (slot_set_eq_some_iff hd).mp hc with ⟨-, rfl⟩ | ⟨-, hc⟩
      · exact hold hd hmoves.toLasts
      · exact hold hc (Lasts.refl c)
  | started | called | swept | ticked => exact hold hc (Lasts.refl c)
  | asked k j left call d hcall hphase hd hwhich =>
      rcases (slot_set_eq_some_iff hd).mp hc with ⟨-, rfl⟩ | ⟨-, hc⟩
      · exact hold hd lasts_close
      · exact hold hc (Lasts.refl c)

theorem Effect.carries (h : Effect transport s a t) (hs : Accounts past s) (i : Nat)
    (c : GuestNodeConnection) (code : CloseCode) (hc : t.connections[i]? = some c)
    (hcarries : c.Carries code) : exists (k : Nat) (call : CloseCall), t.calls[k]? = some call ∧
      call.kind.code = code ∧ call.kind.which c = true ∧ i ∈ call.asked := by
  have hold : forall {d : GuestNodeConnection}, s.connections[i]? = some d ->
      c.number = d.number -> d.Carries code ->
        exists (k : Nat) (call : CloseCall), t.calls[k]? = some call ∧
          call.kind.code = code ∧ call.kind.which c = true ∧ i ∈ call.asked := by
    intro d hd hnumber hbefore
    rcases hs.carries i d code hd hbefore with ⟨k, call, hcall, hcode, hwhich, hi⟩
    rcases h.calls k call hcall with ⟨call', hcall', hlasts⟩
    refine ⟨k, call', hcall', ?_, ?_, hlasts.asked i hi⟩
    · rw [hlasts.kind]
      exact hcode
    · rw [hlasts.kind, which_congr hnumber]
      exact hwhich
  cases h with
  | accepted number =>
      rcases slot_append_eq_some_iff.mp hc with hc | ⟨-, rfl⟩
      · exact hold hc rfl hcarries
      · rcases hcarries with hrequest | hphase | hended
        · cases hrequest
        · cases hphase
        · cases hended
  | moved j b d d' hd hmoves =>
      rcases (slot_set_eq_some_iff hd).mp hc with ⟨rfl, rfl⟩ | ⟨-, hc⟩
      · exact hold hd hmoves.number (hmoves.carries code hcarries)
      · exact hold hc rfl hcarries
  | started | called | swept | ticked => exact hold hc rfl hcarries
  | asked k j left call d hcall hphase hd hwhich =>
      rcases (slot_set_eq_some_iff hd).mp hc with ⟨rfl, rfl⟩ | ⟨-, hc⟩
      · rcases carries_close hcarries with hbefore | hcode
        · exact hold hd lasts_close.number hbefore
        · refine ⟨k, _, slot_set_self hcall _, hcode.symm, ?_, ?_⟩
          · rw [which_congr lasts_close.number]
            exact hwhich
          · exact List.mem_append_right _ (List.mem_singleton_self _)
      · exact hold hc rfl hcarries

theorem Effect.phases (h : Effect transport s a t) (hs : Accounts past s) (k : Nat)
    (call : CloseCall) (hcall : t.calls[k]? = some call) : call.InPhase t := by
  have hold : s.calls[k]? = some call -> call.InPhase t :=
    fun hcall' => h.inPhase hcall' (hs.phases k call hcall')
  cases h with
  | accepted | moved | ticked => exact hold hcall
  | started kind =>
      rcases slot_append_eq_some_iff.mp hcall with hcall | ⟨-, rfl⟩
      · exact hold hcall
      · cases kind with
        | revokeGuest number => exact rfl
        | shutdown => exact trivial
  | called j b old phase hcall' hmoves =>
      rcases (slot_set_eq_some_iff hcall').mp hcall with ⟨rfl, rfl⟩ | ⟨-, hcall⟩
      · exact hmoves.inPhase hs hcall'
      · exact hold hcall
  | asked j i' left old c hcall' hphase hc hwhich =>
      rcases (slot_set_eq_some_iff hcall').mp hcall with ⟨rfl, rfl⟩ | ⟨-, hcall⟩
      · have hin := hs.phases k old hcall'
        unfold CloseCall.InPhase at hin
        rw [hphase] at hin
        intro i hi
        rcases hin i (List.mem_cons_of_mem _ hi) with ⟨d, hd, hregistered⟩
        by_cases hsame : i = i'
        · subst hsame
          rw [hc] at hd
          cases hd
          refine ⟨_, slot_set_self hc _, ?_⟩
          rw [registered_close]
          exact hregistered
        · exact ⟨d, (slot_set_eq_some_iff hc).mpr (Or.inr ⟨hsame, hd⟩), hregistered⟩
      · exact hold hcall
  | swept j old phase hcall' hphase hnext =>
      rcases (slot_set_eq_some_iff hcall').mp hcall with ⟨rfl, rfl⟩ | ⟨-, hcall⟩
      · rcases hnext with ⟨hnone, rfl⟩ | rfl
        · intro i hi
          rw [hnone] at hi
          cases hi
        · have hgrace : s.now < s.now + closeGrace + closePoll := by
            unfold closeGrace closePoll
            omega
          exact ⟨Nat.le_refl _, hgrace⟩
      · exact hold hcall

theorem Effect.cleared (h : Effect transport s a t) (hs : Accounts past s) (k : Nat)
    (call : CloseCall) (hcall : t.calls[k]? = some call) : call.Cleared (past ++ [a]) k := by
  have hold : forall {old : CloseCall}, s.calls[k]? = some old -> old.Cleared (past ++ [a]) k :=
    fun hcall' => (hs.cleared k _ hcall').append a
  cases h with
  | accepted | moved | ticked => exact hold hcall
  | started kind =>
      rcases slot_append_eq_some_iff.mp hcall with hcall | ⟨-, rfl⟩
      · exact hold hcall
      · intro number hkind
        cases kind with
        | revokeGuest number => exact Or.inl rfl
        | shutdown => cases hkind
  | called j b old phase hcall' hmoves =>
      rcases (slot_set_eq_some_iff hcall').mp hcall with ⟨rfl, rfl⟩ | ⟨-, hcall⟩
      · exact hmoves.cleared (hs.cleared k old hcall')
      · exact hold hcall
  | asked j i' left old c hcall' hphase | swept j old phase hcall' hphase =>
      rcases (slot_set_eq_some_iff hcall').mp hcall with ⟨rfl, rfl⟩ | ⟨-, hcall⟩
      · intro number hkind
        exact Or.inr (Or.inr ((hold hcall').revoked hkind (by simp [hphase]) (by simp [hphase])))
      · exact hold hcall

end

end Closing
end Host
end WispersAccess
