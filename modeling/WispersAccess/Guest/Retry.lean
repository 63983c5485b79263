import WispersAccess.Guest.JoinLemmas

/-!
# Joining again after a failure

An invite is wasted when a join fails after the host activated its key, or when
the host activates the key of a join that has failed: the next join has a key of
its own, and the host answers it that the invite is consumed.  As long as that
does not happen, a failed join can be retried.
-/

namespace WispersAccess
namespace Guest

open Foundation
open Host (StateDb DateTime SecretHash StorageOp toSecs)
open Wire (InviteSecret ActivationError ShareInfo)

section
variable {hashSecret : InviteSecret -> SecretHash} {host : String} {secret : InviteSecret}

/-!
## Redeemed invites
-/

theorem consumed_step {s t : JoinState} {a : JoinAction}
    (hconsumed : InviteConsumed hashSecret secret s.db)
    (hstep : joinStep hashSecret host secret s a = some t) :
    InviteConsumed hashSecret secret t.db := by
  cases joinStep_some hstep with
  | handle _ =>
      show InviteConsumed hashSecret secret (activation hashSecret secret s.db _ _ _).2
      rw [activation_snd]
      exact consumed_apply hconsumed _
  | hostOp _ => exact consumed_apply hconsumed _
  | _ => exact hconsumed

/-- Nobody else redeems the invite. -/
theorem consumed_of_foreign (hinj : Function.Injective hashSecret) {s : JoinState}
    {expiresAt : Int} (hs : s.Tracked hashSecret secret expiresAt) {op : StorageOp}
    (hforeign : s.foreign secret op = true)
    (hconsumed : InviteConsumed hashSecret secret (s.db.apply hashSecret op)) :
    InviteConsumed hashSecret secret s.db := by
  rcases hs.invite with ⟨⟨i, row⟩, hrow, _⟩
  rcases StateDb.apply_inviteFor hrow op with
    hsame | ⟨secret', peerId, now, heq, hhash, _, _⟩
  · rcases hconsumed with ⟨r, hr, hset⟩
    rw [hsame] at hr
    cases hr
    exact ⟨_, hrow, hset⟩
  · rw [heq] at hforeign
    have hsecret : secret' = secret := hinj hhash
    simp [JoinState.foreign, hsecret] at hforeign

/-- The join waits for an answer to its activation. -/
def Join.awaiting (j : Join) : Option String :=
  match j.phase with
  | JoinPhase.requested key => some key
  | _ => none

variable (hashSecret secret) in
/-- The step does not waste the invite: a join fails only while the invite is not
consumed, and the activation of a join that has returned is handled only once the invite
cannot be redeemed any more. -/
def KeepsInvite (s : JoinState) : JoinAction -> Prop
  | JoinAction.fail _ => ¬ InviteConsumed hashSecret secret s.db
  | JoinAction.handle key now _ =>
      s.join.bind Join.awaiting = some key ∨ ¬ InviteOpen hashSecret secret s.db now
  | _ => True

/-- The host activated the key of this join, which may not know it yet. -/
def Join.Redeemed (s : JoinState) (j : Join) : Prop :=
  match j.phase with
  | JoinPhase.started => False
  | JoinPhase.bound _ => False
  | JoinPhase.connected _ => False
  | JoinPhase.requested key =>
      key ∉ s.requests ∧
        forall answer, (key, answer) ∈ s.answers -> exists info, answer = Answer.share info
  | JoinPhase.activated _ _ => True
  | JoinPhase.addressed _ _ => True
  | JoinPhase.saved _ _ => True

theorem Join.Redeemed.mono {s t : JoinState} {j : Join} (h : j.Redeemed s)
    (hrequests : forall key, key ∈ t.requests -> key ∈ s.requests)
    (hanswers : forall key answer, key ∉ s.requests -> (key, answer) ∈ t.answers ->
      (key, answer) ∈ s.answers) : j.Redeemed t := by
  rcases j with ⟨row, phase⟩
  cases phase with
  | requested key =>
      refine ⟨fun hmem => h.left (hrequests key hmem), ?_⟩
      intro answer hanswer
      exact h.right answer (hanswers key answer h.left hanswer)
  | started => exact h
  | bound key => exact h
  | connected key => exact h
  | activated key info => trivial
  | addressed key info => trivial
  | saved key info => trivial

/-- An answer to another key changes nothing. -/
theorem Join.Redeemed.answer {s : JoinState} {j : Join} (h : j.Redeemed s) {key : String}
    (hrequest : key ∈ s.requests) (db' : StateDb) (answer : Answer) :
    j.Redeemed
      { s with
        db := db'
        requests := s.requests.erase key
        answers := s.answers ++ [(key, answer)] } := by
  apply h.mono
  · intro k hmem
    exact List.mem_of_mem_erase hmem
  · intro k a hk hmem
    rcases List.mem_append.mp hmem with hold | hnew
    · exact hold
    · cases List.mem_singleton.mp hnew
      exact absurd hrequest hk

variable (hashSecret secret) in
/-- A redeemed invite is in the hands of the join underway, or of one that succeeded. -/
def JoinState.Kept (s : JoinState) : Prop :=
  InviteConsumed hashSecret secret s.db ->
    (exists shareId, Except.ok shareId ∈ s.returned) ∨
      exists j, s.join = some j ∧ j.Redeemed s

/-- A step that leaves the results and the join with the invite alone keeps it. -/
theorem JoinState.Kept.stays {s t : JoinState} (hkept : s.Kept hashSecret secret)
    (hconsumed : InviteConsumed hashSecret secret s.db) (hreturned : t.returned = s.returned)
    (hjoin : forall j, s.join = some j -> j.Redeemed s -> t.join = some j ∧ j.Redeemed t) :
    (exists shareId, Except.ok shareId ∈ t.returned) ∨
      exists j, t.join = some j ∧ j.Redeemed t := by
  rw [hreturned]
  rcases hkept hconsumed with hsuccess | ⟨j, hj, hredeemed⟩
  · exact Or.inl hsuccess
  · exact Or.inr ⟨j, hjoin j hj hredeemed⟩

/-- A join that has sent nothing yet does not have the invite. -/
theorem not_redeemed_of_unsent {s : JoinState} {j j' : Join} (hj : s.join = some j)
    (hunsent : ¬ j.Redeemed s) (hj' : s.join = some j') : ¬ j'.Redeemed s := by
  rw [hj] at hj'
  cases hj'
  exact hunsent

theorem kept_step (hinj : Function.Injective hashSecret) {s t : JoinState} {a : JoinAction}
    {expiresAt : Int} (hs : s.Tracked hashSecret secret expiresAt)
    (hkept : s.Kept hashSecret secret) (hkeeps : KeepsInvite hashSecret secret s a)
    (hstep : joinStep hashSecret host secret s a = some t) : t.Kept hashSecret secret := by
  intro hconsumed
  cases joinStep_some hstep with
  | newRow hnone =>
      refine hkept.stays hconsumed rfl fun j hj _ => ?_
      rw [hnone] at hj
      cases hj
  | bind hjoin _ _ =>
      exact hkept.stays hconsumed rfl fun j hj hredeemed =>
        absurd hredeemed (not_redeemed_of_unsent hjoin id hj)
  | openStream hjoin =>
      exact hkept.stays hconsumed rfl fun j hj hredeemed =>
        absurd hredeemed (not_redeemed_of_unsent hjoin id hj)
  | send hjoin =>
      exact hkept.stays hconsumed rfl fun j hj hredeemed =>
        absurd hredeemed (not_redeemed_of_unsent hjoin id hj)
  | receiveShare hjoin _ => exact Or.inr ⟨_, rfl, trivial⟩
  | receiveError hjoin hanswer herror =>
      rcases hkept hconsumed with ⟨shareId, hsuccess⟩ | ⟨j, hj, hredeemed⟩
      · exact Or.inl ⟨shareId, List.mem_append.mpr (Or.inl hsuccess)⟩
      · rw [hjoin] at hj
        cases hj
        rcases hredeemed.right _ hanswer with ⟨info, hshare⟩
        exact absurd hshare (herror info)
  | writeEndpointId hjoin => exact Or.inr ⟨_, rfl, trivial⟩
  | saveSecret hjoin _ => exact Or.inr ⟨_, rfl, trivial⟩
  | @record row key info r hjoin _ =>
      exact Or.inl ⟨r.shareId, List.mem_append.mpr (Or.inr (List.mem_singleton_self _))⟩
  | fail hjoin => exact absurd hconsumed hkeeps
  | loseRequest =>
      refine hkept.stays hconsumed rfl fun j hj hredeemed => ⟨hj, ?_⟩
      apply hredeemed.mono
      · intro key hmem
        exact List.mem_of_mem_erase hmem
      · exact fun _ _ _ hmem => hmem
  | loseAnswer =>
      refine hkept.stays hconsumed rfl fun j hj hredeemed => ⟨hj, ?_⟩
      apply hredeemed.mono
      · exact fun _ hmem => hmem
      · intro key answer _ hmem
        exact (List.mem_filter.mp hmem).left
  | @handle key now info hrequest =>
      have hwaiting := mem_unhandled hrequest
      rcases activation_cases (hs.unbound key hwaiting).right now info with
        ⟨hopen, hshare, _⟩ | ⟨_, _, hsame⟩
      · -- the redemption is the one of the join underway
        rcases hkeeps with hcurrent | hclosed
        · right
          rcases Option.bind_eq_some_iff.mp hcurrent with ⟨⟨row, phase⟩, hj, hphase⟩
          cases phase with
          | requested k =>
              cases hphase
              refine ⟨_, hj, ?_, ?_⟩
              · exact (List.nodup_append.mp hs.nodup).left.not_mem_erase
              · intro answer hanswer
                rcases List.mem_append.mp hanswer with hold | hnew
                · exact absurd hold (hs.unanswered key hwaiting answer)
                · cases List.mem_singleton.mp hnew
                  exact ⟨info, hshare⟩
          | _ => cases hphase
        · exact absurd hopen hclosed
      · simp only [hsame] at hconsumed
        exact hkept.stays hconsumed rfl fun j hj hredeemed =>
          ⟨hj, hredeemed.answer hrequest _ _⟩
  | @handleFails key hrequest =>
      exact hkept.stays hconsumed rfl fun j hj hredeemed =>
        ⟨hj, hredeemed.answer hrequest _ _⟩
  | hostOp hforeign =>
      exact hkept.stays (consumed_of_foreign hinj hs hforeign hconsumed) rfl
        fun j hj hredeemed => ⟨hj, hredeemed⟩

/-!
## Runs
-/

variable (hashSecret secret) in
/-- A device about to join with an invite that nobody has redeemed. -/
structure JoinState.Minted (s : JoinState) (expiresAt : Int) : Prop where
  invite : exists r, s.db.inviteFor hashSecret secret = some r ∧ r.2.consumedAt = none ∧
    r.2.expiresAt = expiresAt
  join : s.join = none
  keys : s.keys = []
  requests : s.requests = []
  answers : s.answers = []
  returned : s.returned = []

theorem JoinState.Minted.tracked {s : JoinState} {expiresAt : Int}
    (h : s.Minted hashSecret secret expiresAt) : s.Tracked hashSecret secret expiresAt where
  invite := by
    rcases h.invite with ⟨r, hr, _, hexpires⟩
    exact ⟨r, hr, hexpires⟩
  unbound key hkey := by
    simp [JoinState.unhandled, h.requests, h.join] at hkey
  unanswered key hkey := by
    simp [JoinState.unhandled, h.requests, h.join] at hkey
  nodup := by
    simp [JoinState.unhandled, h.requests, h.join]
  answered p hp := by
    rw [h.answers] at hp
    cases hp
  row j hj := by
    rw [h.join] at hj
    cases hj

theorem JoinState.Minted.unconsumed {s : JoinState} {expiresAt : Int}
    (h : s.Minted hashSecret secret expiresAt) :
    ¬ InviteConsumed hashSecret secret s.db := by
  intro hspent
  rcases hspent with ⟨r, hr, hconsumed⟩
  rcases h.invite with ⟨r', hr', hunconsumed, _⟩
  rw [hr] at hr'
  cases hr'
  exact hconsumed hunconsumed

theorem consumed_run {s t : JoinState} {acts : List JoinAction}
    (hrun : Run (joinStep hashSecret host secret) s acts t)
    (hconsumed : InviteConsumed hashSecret secret s.db) :
    InviteConsumed hashSecret secret t.db :=
  hrun.invariant (I := fun s => InviteConsumed hashSecret secret s.db)
    (fun _ _ _ h hstep => consumed_step h hstep) hconsumed

/-- While every step keeps the invite, it is redeemed only for the join underway or for
one that succeeded. -/
theorem kept_run (hinj : Function.Injective hashSecret) {s t : JoinState}
    {acts : List JoinAction} {expiresAt : Int}
    (hrun : Run (joinStep hashSecret host secret) s acts t)
    (hkeeps : Meets (joinStep hashSecret host secret) (KeepsInvite hashSecret secret) s acts)
    (hs : s.Tracked hashSecret secret expiresAt) (hkept : s.Kept hashSecret secret) :
    t.Kept hashSecret secret :=
  (hrun.invariant_of_meets
    (I := fun s => s.Tracked hashSecret secret expiresAt ∧ s.Kept hashSecret secret)
    (fun _ _ _ h hC hstep => ⟨tracked_step h.left hstep, kept_step hinj h.left h.right hC hstep⟩)
    hkeeps ⟨hs, hkept⟩).right

/-- A step that wastes the invite leaves it redeemed. -/
theorem keeps_of_unconsumed {s t : JoinState} {a : JoinAction} {expiresAt : Int}
    (hs : s.Tracked hashSecret secret expiresAt)
    (hstep : joinStep hashSecret host secret s a = some t)
    (hunconsumed : ¬ InviteConsumed hashSecret secret t.db) :
    KeepsInvite hashSecret secret s a := by
  cases joinStep_some hstep with
  | fail _ => exact hunconsumed
  | handle hrequest =>
      rcases activation_cases (hs.unbound _ (mem_unhandled hrequest)).right _ _ with
        ⟨_, _, hconsumed⟩ | ⟨hclosed, _, _⟩
      · exact absurd hconsumed hunconsumed
      · exact Or.inr hclosed
  | _ => trivial

theorem meets_of_unconsumed {s t : JoinState} {acts : List JoinAction} {expiresAt : Int}
    (hrun : Run (joinStep hashSecret host secret) s acts t)
    (hs : s.Tracked hashSecret secret expiresAt)
    (hunconsumed : ¬ InviteConsumed hashSecret secret t.db) :
    Meets (joinStep hashSecret host secret) (KeepsInvite hashSecret secret) s acts := by
  induction hrun with
  | nil s => trivial
  | @cons s next t a rest hstep hrest ih =>
      have hnext : ¬ InviteConsumed hashSecret secret next.db :=
        fun h => hunconsumed (consumed_run hrest h)
      refine ⟨keeps_of_unconsumed hs hstep hnext, ?_⟩
      intro mid hmid
      rw [hstep] at hmid
      cases hmid
      exact ih (tracked_step hs hstep) hunconsumed

/-!
## A further join
-/

theorem activation_consumed {db : StateDb} {key : String} (hkey : db.guestRow key = none)
    (hconsumed : InviteConsumed hashSecret secret db) (now : DateTime) (info : ShareInfo) :
    activation hashSecret secret db key now info =
      (Answer.refused ActivationError.inviteConsumed, db) := by
  rcases hconsumed with ⟨⟨i, row⟩, hrow, hset⟩
  have hbound : db.boundGuest key = none := by
    simp [StateDb.boundGuest, hkey]
  have hsome : row.consumedAt.isSome = true := by
    cases hrowSet : row.consumedAt with
    | none => exact absurd hrowSet hset
    | some t => rfl
  unfold StateDb.inviteFor at hrow
  simp [activation, StateDb.redeemInvite, hbound, hrow, hsome]

/-- The share as a join leaves it on the device. -/
def joinedRow (host shareId : String) (info : ShareInfo) : SharesRow where
  shareId := shareId
  irohEndpointId := some host
  info := some info
  complete := true

/-- A join whose key is activated only has to store what it got. -/
theorem activated_completes (hashSecret : InviteSecret -> SecretHash) (host : String)
    (secret : InviteSecret) {s : JoinState} {row : Int} {key : String} {info : ShareInfo}
    (hjoin : s.join = some ⟨row, JoinPhase.activated key info⟩) {r : SharesRow}
    (hrow : s.store.shares.lookup row = some r) :
    exists t, Run (joinStep hashSecret host secret) s
        [JoinAction.writeEndpointId, JoinAction.saveSecret, JoinAction.record] t ∧
      t.returned = s.returned ++ [Except.ok r.shareId] ∧
      t.store.shares.lookup row = some (joinedRow host r.shareId info) ∧
      (r.shareId, key) ∈ t.store.secrets := by
  let addressed : JoinState :=
    { s with
      store := s.store.writeIrohEndpointId row host
      join := some ⟨row, JoinPhase.addressed key info⟩ }
  let saved : JoinState :=
    { addressed with
      store := addressed.store.saveSecret r.shareId key
      join := some ⟨row, JoinPhase.saved key info⟩ }
  let joined : JoinState :=
    { saved with
      store := saved.store.recordJoin row info
      join := none
      returned := saved.returned ++ [Except.ok r.shareId] }
  have haddressedRow : addressed.store.shares.lookup row =
      some { r with irohEndpointId := some host } := by
    simp [addressed, Store.writeIrohEndpointId, Store.updateRow, hrow]
  have hsavedRow : saved.store.shares.lookup row =
      some { r with irohEndpointId := some host } := haddressedRow
  have hwrite : joinStep hashSecret host secret s JoinAction.writeEndpointId =
      some addressed := by
    simp [joinStep, hjoin, addressed]
  have hsave : joinStep hashSecret host secret addressed JoinAction.saveSecret =
      some saved := by
    show (addressed.store.shares.lookup row).map _ = some saved
    rw [haddressedRow]
    rfl
  have hrecord : joinStep hashSecret host secret saved JoinAction.record = some joined := by
    show (saved.store.shares.lookup row).map _ = some joined
    rw [hsavedRow]
    rfl
  refine ⟨joined, Run.cons hwrite (Run.cons hsave (Run.single hrecord)), rfl, ?_, ?_⟩
  · simp [joined, Store.recordJoin, Store.updateRow, hsavedRow, joinedRow]
  · exact List.mem_cons_self ..

variable (hashSecret host secret) in
/-- The rest of a join whose activation arrives, with no further failure: it returns the
share, whose row and key are stored. -/
def JoinState.Succeeds (s : JoinState) (row : Int) (key : String) (now : DateTime)
    (info : ShareInfo) : Prop :=
  exists t shareId,
    Run (joinStep hashSecret host secret) s
      [JoinAction.handle key now info, JoinAction.receive, JoinAction.writeEndpointId,
        JoinAction.saveSecret, JoinAction.record] t ∧
    t.returned = s.returned ++ [Except.ok shareId] ∧
    t.store.shares.lookup row = some (joinedRow host shareId info) ∧
    (shareId, key) ∈ t.store.secrets

theorem succeeds_of_open {s : JoinState} {expiresAt : Int}
    (hs : s.Tracked hashSecret secret expiresAt) {row : Int} {key : String}
    (hjoin : s.join = some ⟨row, JoinPhase.requested key⟩) (hrequest : key ∈ s.requests)
    {now : DateTime} (hopen : InviteOpen hashSecret secret s.db now) (info : ShareInfo) :
    s.Succeeds hashSecret host secret row key now info := by
  have hwaiting := mem_unhandled hrequest
  have hshare : (activation hashSecret secret s.db key now info).1 = Answer.share info := by
    rcases activation_cases (hs.unbound key hwaiting).right now info with
      ⟨_, hshare, _⟩ | ⟨hclosed, _, _⟩
    · exact hshare
    · exact absurd hopen hclosed
  have hlookup : (s.answers ++ [(key, Answer.share info)]).lookup key =
      some (Answer.share info) := by
    have hnone : s.answers.lookup key = none := by
      cases h : s.answers.lookup key with
      | none => rfl
      | some answer => exact absurd (lookup_mem h) (hs.unanswered key hwaiting answer)
    simp [List.lookup_append, hnone]
  let handled : JoinState :=
    { s with
      db := (activation hashSecret secret s.db key now info).2
      requests := s.requests.erase key
      answers := s.answers ++ [(key, Answer.share info)] }
  let activated : JoinState :=
    { handled with join := some ⟨row, JoinPhase.activated key info⟩ }
  have hhandle : joinStep hashSecret host secret s (JoinAction.handle key now info) =
      some handled := by
    simp only [joinStep, if_pos hrequest, hshare]
    rfl
  have hreceive : joinStep hashSecret host secret handled JoinAction.receive =
      some activated := by
    simp only [joinStep, handled, hjoin, hlookup]
    rfl
  rcases hs.row _ hjoin with ⟨r, hr⟩
  have hactivated : activated.join = some ⟨row, JoinPhase.activated key info⟩ := rfl
  rcases activated_completes hashSecret host secret hactivated hr with
    ⟨t, hrun, hreturned, hrow, hsecret⟩
  exact ⟨t, r.shareId, Run.cons hhandle (Run.cons hreceive hrun), hreturned, hrow, hsecret⟩

/-- A failed join can be retried exactly where no step wasted the invite: then a further
join, once its activation arrives before the invite expires, succeeds, and otherwise the
host answers that the invite is consumed. -/
theorem failed_join_can_be_retried (hinj : Function.Injective hashSecret) {start s : JoinState}
    {expiresAt : Int} (hstart : start.Minted hashSecret secret expiresAt)
    {acts : List JoinAction} (hrun : Run (joinStep hashSecret host secret) start acts s)
    (herrors : forall result, result ∈ s.returned -> exists e, result = Except.error e)
    {row : Int} {key : String} (hjoin : s.join = some ⟨row, JoinPhase.requested key⟩)
    (hrequest : key ∈ s.requests) {now : DateTime} (htime : toSecs now < expiresAt)
    (info : ShareInfo) :
    (Meets (joinStep hashSecret host secret) (KeepsInvite hashSecret secret) start acts ->
      s.Succeeds hashSecret host secret row key now info) ∧
    (¬ Meets (joinStep hashSecret host secret) (KeepsInvite hashSecret secret) start acts ->
      (activation hashSecret secret s.db key now info).1 =
        Answer.refused ActivationError.inviteConsumed) := by
  have htracked : s.Tracked hashSecret secret expiresAt :=
    hrun.invariant (fun _ _ _ h hstep => tracked_step h hstep) hstart.tracked
  constructor
  · intro hkeeps
    have hkept := kept_run hinj hrun hkeeps hstart.tracked
      (fun hconsumed => absurd hconsumed hstart.unconsumed)
    have hunconsumed : ¬ InviteConsumed hashSecret secret s.db := by
      intro hconsumed
      rcases hkept hconsumed with ⟨shareId, hsuccess⟩ | ⟨j, hj, hredeemed⟩
      · rcases herrors _ hsuccess with ⟨e, he⟩
        cases he
      · rw [hjoin] at hj
        cases hj
        exact hredeemed.left hrequest
    rcases htracked.invite with ⟨r, hr, hexpires⟩
    refine succeeds_of_open htracked hjoin hrequest ⟨r, hr, ?_, ?_⟩ info
    · by_contra hset
      exact hunconsumed ⟨r, hr, hset⟩
    · rw [hexpires]
      exact htime
  · intro hwasted
    have hconsumed : InviteConsumed hashSecret secret s.db := by
      by_contra hunconsumed
      exact hwasted (meets_of_unconsumed hrun hstart.tracked hunconsumed)
    rw [activation_consumed (htracked.unbound key (mem_unhandled hrequest)).right hconsumed]

end

/-- A device that just got an invite to a share. -/
def invitedDevice : JoinState where
  db :=
    (StateDb.fresh.createInvite Host.doubledSecret
      { secret := Host.repeatedSecret 7
        userId := "Alice"
        nodeName := "Alice's phone"
        expiresAt := Host.fromSecs 1000 } (Host.fromSecs 0)).2
  store := { shares := RowTable.empty, secrets := [] }
  join := none
  keys := []
  requests := []
  answers := []
  returned := []

theorem invitedDevice_minted :
    invitedDevice.Minted Host.doubledSecret (Host.repeatedSecret 7) 1000 :=
  ⟨⟨_, rfl, rfl, rfl⟩, rfl, rfl, rfl, rfl, rfl⟩

/-- A join up to its activation. -/
def joinUpTo (shareId key : String) : List JoinAction :=
  [JoinAction.newRow shareId, JoinAction.bind key, JoinAction.openStream, JoinAction.send]

def familyShare : ShareInfo where
  configHash := 0
  name := "Family"
  transport := "iroh"
  apps := []
  caCertificates := []

/-- The activation of the first join gets lost, and the second join succeeds. -/
theorem failed_join_can_be_retried_after_lost_request :
    exists s, Run (joinStep Host.doubledSecret "host" (Host.repeatedSecret 7)) invitedDevice
        (joinUpTo "one" "key-1" ++
          [JoinAction.loseRequest "key-1", JoinAction.fail JoinError.hostNode] ++
          joinUpTo "two" "key-2") s ∧
      s.returned = [Except.error JoinError.hostNode] ∧
      s.Succeeds Host.doubledSecret "host" (Host.repeatedSecret 7) 1 "key-2"
        (Host.fromSecs 20) familyShare := by
  refine ⟨_, run_iff_exec.mpr rfl, rfl, ?_⟩
  have hmain := failed_join_can_be_retried Host.doubledSecret_injective invitedDevice_minted
    (run_iff_exec.mpr rfl : Run (joinStep Host.doubledSecret "host" (Host.repeatedSecret 7))
      invitedDevice
      (joinUpTo "one" "key-1" ++
        [JoinAction.loseRequest "key-1", JoinAction.fail JoinError.hostNode] ++
        joinUpTo "two" "key-2") _)
    (by
      intro result hresult
      exact ⟨_, List.mem_singleton.mp hresult⟩)
    rfl (List.mem_singleton_self _) (show toSecs (Host.fromSecs 20) < 1000 by decide) familyShare
  apply hmain.left
  by_contra hwasted
  exact absurd (hmain.right hwasted) (by decide)

/-- The host activates the key of the first join, its answer gets lost, and the second join
is told that the invite has been used. -/
theorem lost_answer_wastes_invite :
    exists s, Run (joinStep Host.doubledSecret "host" (Host.repeatedSecret 7)) invitedDevice
        (joinUpTo "one" "key-1" ++
          [JoinAction.handle "key-1" (Host.fromSecs 10) familyShare,
            JoinAction.loseAnswer "key-1", JoinAction.fail JoinError.hostNode] ++
          joinUpTo "two" "key-2") s ∧
      s.returned = [Except.error JoinError.hostNode] ∧
      s.join = some ⟨1, JoinPhase.requested "key-2"⟩ ∧ s.requests = ["key-2"] ∧
      toSecs (Host.fromSecs 20) < 1000 ∧
      (activation Host.doubledSecret (Host.repeatedSecret 7) s.db "key-2" (Host.fromSecs 20)
        familyShare).1 = Answer.refused ActivationError.inviteConsumed := by
  exact ⟨_, run_iff_exec.mpr rfl, rfl, rfl, rfl, by decide, rfl⟩

end Guest
end WispersAccess
