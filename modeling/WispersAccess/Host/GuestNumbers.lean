import WispersAccess.Host.StorageRuns

/-!
# What a guest number stands for

Guest numbers are row ids without `AUTOINCREMENT`.  A number keeps standing for
its guest as long as the row is there; once the row is removed, the number may
be handed out again.
-/

namespace WispersAccess
namespace Host

open Foundation
open Wire (InviteSecret)

section
variable (hashSecret : InviteSecret -> SecretHash)

/-- An operation of the run gives number `n` to a new guest, at a moment when
every guest there has a smaller number. -/
def HandedOut (db : StateDb) (ops : List StorageOp) (n : Int) : Prop :=
  exists front op back mid c,
    ops = front ++ op :: back ∧ Run (storageStep hashSecret) db front mid ∧
    createdRow hashSecret mid op = some c ∧ c.number = n ∧
    forall m row, mid.guests.lookup m = some row -> m < n

/-- The run removes the row of number `n` and later hands the number out again. -/
def ReissuedAfterRemoval (db : StateDb) (ops : List StorageOp) (n : Int) : Prop :=
  exists front back mid,
    ops = front ++ StorageOp.removeGuest n :: back ∧
    Run (storageStep hashSecret) db (front ++ [StorageOp.removeGuest n]) mid ∧
    HandedOut hashSecret mid back n

variable {hashSecret}

theorem HandedOut.cons {db mid : StateDb} {op : StorageOp} {rest : List StorageOp} {n : Int}
    (hstep : storageStep hashSecret db op = some mid)
    (h : HandedOut hashSecret mid rest n) : HandedOut hashSecret db (op :: rest) n := by
  rcases h with ⟨front, op', back, last, c, hops, hrun, hcreated⟩
  exact ⟨op :: front, op', back, last, c, by rw [hops]; rfl, Run.cons hstep hrun, hcreated⟩

theorem ReissuedAfterRemoval.cons {db mid : StateDb} {op : StorageOp} {rest : List StorageOp}
    {n : Int} (hstep : storageStep hashSecret db op = some mid)
    (h : ReissuedAfterRemoval hashSecret mid rest n) :
    ReissuedAfterRemoval hashSecret db (op :: rest) n := by
  rcases h with ⟨front, back, last, hops, hrun, hhanded⟩
  exact ⟨op :: front, back, last, by rw [hops]; rfl, Run.cons hstep hrun, hhanded⟩

end

end Host
end WispersAccess
