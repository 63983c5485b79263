import WispersAccess.Guest.Join
import WispersAccess.Host.StorageLemmas

/-!
# What the steps of a join do

An inversion of the steps, what an activation does to the invite, and what holds
of the keys, the messages on their way and the rows in every state of a run.
-/

namespace WispersAccess
namespace Guest

open Foundation
open Host (StateDb DateTime SecretHash StorageOp Redemption InvitesRow toSecs)
open Wire (InviteSecret ActivationError ShareInfo)

/-!
## The invite over a run
-/

section
variable (hashSecret : InviteSecret -> SecretHash) (host : String) (secret : InviteSecret)

/-- The invite is redeemed. -/
def InviteConsumed (db : StateDb) : Prop :=
  exists r, db.inviteFor hashSecret secret = some r ∧ r.2.consumedAt ≠ none

/-- The invite can be redeemed: it is not consumed and has not expired. -/
def InviteOpen (db : StateDb) (now : DateTime) : Prop :=
  exists r, db.inviteFor hashSecret secret = some r ∧ r.2.consumedAt = none ∧
    toSecs now < r.2.expiresAt

/-- The keys the host has not heard of. -/
def JoinState.unhandled (s : JoinState) : List String :=
  s.requests ++ (s.join.bind Join.unsent).toList

theorem mem_unhandled {s : JoinState} {key : String} (h : key ∈ s.requests) :
    key ∈ s.unhandled :=
  List.mem_append.mpr (Or.inl h)

/-- What holds in every state of a run, whatever goes wrong. -/
structure JoinState.Tracked (s : JoinState) (expiresAt : Int) : Prop where
  invite : exists r, s.db.inviteFor hashSecret secret = some r ∧ r.2.expiresAt = expiresAt
  unbound : forall key, key ∈ s.unhandled -> key ∈ s.keys ∧ s.db.guestRow key = none
  unanswered : forall key, key ∈ s.unhandled -> forall answer, (key, answer) ∉ s.answers
  nodup : s.unhandled.Nodup
  answered : forall p, p ∈ s.answers -> p.1 ∈ s.keys
  row : forall j, s.join = some j -> exists r, s.store.shares.lookup j.row = some r

variable {hashSecret host secret}

/-- A redemption with a key the host does not know is a matter of the invite alone. -/
theorem redeemInvite_unbound (hashSecret : InviteSecret -> SecretHash) (secret : InviteSecret)
    {db : StateDb} {key : String} (hkey : db.guestRow key = none) (now : DateTime) :
    (exists inviteId invite,
      StateDb.CreatesGuest hashSecret db secret key now inviteId invite) ∨
    (exists why, db.redeemInvite hashSecret secret key now =
      (Except.ok (Redemption.refused why), db)) ∨
    db.redeemInvite hashSecret secret key now = (Except.error Host.StorageError.db, db) := by
  rcases StateDb.redeemInvite_cases hashSecret db secret key now with
    hcreates | ⟨guest, hbound, _⟩ | hrefused | hfailed
  · exact Or.inl hcreates
  · rcases StateDb.boundGuest_some hbound with ⟨r, _, hr, _⟩
    rw [hkey] at hr
    cases hr
  · exact Or.inr (Or.inl hrefused)
  · exact Or.inr (Or.inr hfailed)

theorem createsGuest_of_open {db : StateDb} {key : String} {now : DateTime}
    (hkey : db.guestRow key = none) (hopen : InviteOpen hashSecret secret db now) :
    exists inviteId invite, StateDb.CreatesGuest hashSecret db secret key now inviteId invite := by
  rcases hopen with ⟨⟨inviteId, invite⟩, hfound, hunconsumed, htime⟩
  exact ⟨inviteId, invite, hkey, hfound, hunconsumed, htime⟩

theorem open_of_createsGuest {db : StateDb} {key : String} {now : DateTime} {inviteId : Int}
    {invite : InvitesRow}
    (h : StateDb.CreatesGuest hashSecret db secret key now inviteId invite) :
    InviteOpen hashSecret secret db now :=
  ⟨(inviteId, invite), h.found, h.unconsumed, h.in_time⟩

/-- The activation of a key the host does not know: the invite is redeemed if it is open,
and otherwise nothing changes and the share is not told. -/
theorem activation_cases {db : StateDb} {key : String} (hkey : db.guestRow key = none)
    (now : DateTime) (info : ShareInfo) :
    (InviteOpen hashSecret secret db now ∧
        (activation hashSecret secret db key now info).1 = Answer.share info ∧
        InviteConsumed hashSecret secret (activation hashSecret secret db key now info).2) ∨
      (¬ InviteOpen hashSecret secret db now ∧
        (forall other, (activation hashSecret secret db key now info).1 ≠ Answer.share other) ∧
        (activation hashSecret secret db key now info).2 = db) := by
  have hnot : forall why, db.redeemInvite hashSecret secret key now =
      (Except.ok (Redemption.refused why), db) -> ¬ InviteOpen hashSecret secret db now := by
    intro why heq hopen
    rcases createsGuest_of_open hkey hopen with ⟨inviteId, invite, hcreates⟩
    rw [hcreates.redeemInvite_eq] at heq
    cases heq
  rcases redeemInvite_unbound hashSecret secret hkey now with
    ⟨inviteId, invite, hcreates⟩ | ⟨why, heq⟩ | heq
  · left
    refine ⟨open_of_createsGuest hcreates, ?_, ?_⟩
    · simp [activation, hcreates.redeemInvite_eq]
    · refine ⟨(inviteId, { invite with consumedAt := some (toSecs now) }), ?_, by simp⟩
      simp only [activation, hcreates.redeemInvite_eq]
      rw [StateDb.bindGuest_inviteFor hcreates.found, if_pos rfl]
  · right
    refine ⟨hnot why heq, ?_, ?_⟩
    · simp [activation, heq]
    · simp [activation, heq]
  · right
    refine ⟨?_, ?_, ?_⟩
    · intro hopen
      rcases createsGuest_of_open hkey hopen with ⟨inviteId, invite, hcreates⟩
      rw [hcreates.redeemInvite_eq] at heq
      cases heq
    · simp [activation, heq]
    · simp [activation, heq]

/-- The host's database after a step: the same, or an operation on it. -/
theorem activation_snd (db : StateDb) (key : String) (now : DateTime) (info : ShareInfo) :
    (activation hashSecret secret db key now info).2 =
      db.apply hashSecret (StorageOp.redeemInvite secret key now) := by
  unfold activation
  rw [StateDb.apply]
  split
  · rename_i heq
    rw [heq]
  · rename_i heq
    rw [heq]
  · rename_i heq
    rw [heq]

/-!
## Steps
-/

variable (hashSecret host secret) in
/-- Everything a step can do. -/
inductive JoinStep (s : JoinState) : JoinAction -> JoinState -> Prop where
  | newRow {shareId : String} (hnone : s.join = none) :
      JoinStep s (JoinAction.newRow shareId)
        { s with
          store := s.store.newRow shareId
          join := some ⟨s.store.shares.nextRowid, JoinPhase.started⟩ }
  | bind {row : Int} {key : String} (hjoin : s.join = some ⟨row, JoinPhase.started⟩)
      (hfresh : key ∉ s.keys) (hunbound : s.db.guestRow key = none) :
      JoinStep s (JoinAction.bind key)
        { s with join := some ⟨row, JoinPhase.bound key⟩, keys := key :: s.keys }
  | openStream {row : Int} {key : String} (hjoin : s.join = some ⟨row, JoinPhase.bound key⟩) :
      JoinStep s JoinAction.openStream
        { s with join := some ⟨row, JoinPhase.connected key⟩ }
  | send {row : Int} {key : String} (hjoin : s.join = some ⟨row, JoinPhase.connected key⟩) :
      JoinStep s JoinAction.send
        { s with
          join := some ⟨row, JoinPhase.requested key⟩
          requests := s.requests ++ [key] }
  | receiveShare {row : Int} {key : String} {info : ShareInfo}
      (hjoin : s.join = some ⟨row, JoinPhase.requested key⟩)
      (hanswer : (key, Answer.share info) ∈ s.answers) :
      JoinStep s JoinAction.receive
        { s with join := some ⟨row, JoinPhase.activated key info⟩ }
  | receiveError {row : Int} {key : String} {answer : Answer}
      (hjoin : s.join = some ⟨row, JoinPhase.requested key⟩)
      (hanswer : (key, answer) ∈ s.answers) (herror : forall info, answer ≠ Answer.share info) :
      JoinStep s JoinAction.receive
        (s.giveUp ⟨row, JoinPhase.requested key⟩ (JoinError.ofAnswer answer))
  | writeEndpointId {row : Int} {key : String} {info : ShareInfo}
      (hjoin : s.join = some ⟨row, JoinPhase.activated key info⟩) :
      JoinStep s JoinAction.writeEndpointId
        { s with
          store := s.store.writeIrohEndpointId row host
          join := some ⟨row, JoinPhase.addressed key info⟩ }
  | saveSecret {row : Int} {key : String} {info : ShareInfo} {r : SharesRow}
      (hjoin : s.join = some ⟨row, JoinPhase.addressed key info⟩)
      (hrow : s.store.shares.lookup row = some r) :
      JoinStep s JoinAction.saveSecret
        { s with
          store := s.store.saveSecret r.shareId key
          join := some ⟨row, JoinPhase.saved key info⟩ }
  | record {row : Int} {key : String} {info : ShareInfo} {r : SharesRow}
      (hjoin : s.join = some ⟨row, JoinPhase.saved key info⟩)
      (hrow : s.store.shares.lookup row = some r) :
      JoinStep s JoinAction.record
        { s with
          store := s.store.recordJoin row info
          join := none
          returned := s.returned ++ [Except.ok r.shareId] }
  | fail {j : Join} {e : JoinError} (hjoin : s.join = some j) :
      JoinStep s (JoinAction.fail e) (s.giveUp j e)
  | loseRequest {key : String} :
      JoinStep s (JoinAction.loseRequest key) { s with requests := s.requests.erase key }
  | loseAnswer {key : String} :
      JoinStep s (JoinAction.loseAnswer key)
        { s with answers := s.answers.filter fun p => p.1 ≠ key }
  | handle {key : String} {now : DateTime} {info : ShareInfo} (hrequest : key ∈ s.requests) :
      JoinStep s (JoinAction.handle key now info)
        { s with
          db := (activation hashSecret secret s.db key now info).2
          requests := s.requests.erase key
          answers := s.answers ++ [(key, (activation hashSecret secret s.db key now info).1)] }
  | handleFails {key : String} (hrequest : key ∈ s.requests) :
      JoinStep s (JoinAction.handleFails key)
        { s with
          requests := s.requests.erase key
          answers := s.answers ++ [(key, Answer.failed)] }
  | hostOp {op : StorageOp} (hforeign : s.foreign secret op = true) :
      JoinStep s (JoinAction.hostOp op) { s with db := s.db.apply hashSecret op }

theorem lookup_mem {answers : List (String × Answer)} {key : String} {answer : Answer}
    (h : answers.lookup key = some answer) : (key, answer) ∈ answers := by
  induction answers with
  | nil => cases h
  | cons p rest ih =>
      rcases p with ⟨k, a⟩
      rw [List.lookup_cons] at h
      split at h
      · rename_i hk
        cases h
        rw [eq_of_beq hk]
        exact List.mem_cons_self ..
      · exact List.mem_cons_of_mem _ (ih h)

theorem joinStep_some {s t : JoinState} {a : JoinAction}
    (h : joinStep hashSecret host secret s a = some t) :
    JoinStep hashSecret host secret s a t := by
  cases a with
  | newRow shareId =>
      simp only [joinStep] at h
      split at h
      · cases h
      · rename_i hnone
        cases h
        exact JoinStep.newRow hnone
  | bind key =>
      simp only [joinStep] at h
      split at h
      · rename_i row hjoin
        split at h
        · cases h
        · rename_i hfresh
          cases h
          rw [not_or] at hfresh
          exact JoinStep.bind hjoin hfresh.left (by simpa using hfresh.right)
      · cases h
  | openStream =>
      simp only [joinStep] at h
      split at h
      · rename_i hjoin
        cases h
        exact JoinStep.openStream hjoin
      · cases h
  | send =>
      simp only [joinStep] at h
      split at h
      · rename_i hjoin
        cases h
        exact JoinStep.send hjoin
      · cases h
  | receive =>
      simp only [joinStep] at h
      split at h
      · rename_i row key hjoin
        split at h
        · cases h
        · rename_i info hanswer
          cases h
          exact JoinStep.receiveShare hjoin (lookup_mem hanswer)
        · rename_i answer herror hanswer
          cases h
          exact JoinStep.receiveError hjoin (lookup_mem hanswer) herror
      · cases h
  | writeEndpointId =>
      simp only [joinStep] at h
      split at h
      · rename_i hjoin
        cases h
        exact JoinStep.writeEndpointId hjoin
      · cases h
  | saveSecret =>
      simp only [joinStep] at h
      split at h
      · rename_i hjoin
        rcases Option.map_eq_some_iff.mp h with ⟨r, hrow, ht⟩
        rw [← ht]
        exact JoinStep.saveSecret hjoin hrow
      · cases h
  | record =>
      simp only [joinStep] at h
      split at h
      · rename_i hjoin
        rcases Option.map_eq_some_iff.mp h with ⟨r, hrow, ht⟩
        rw [← ht]
        exact JoinStep.record hjoin hrow
      · cases h
  | fail e =>
      rcases Option.map_eq_some_iff.mp h with ⟨j, hjoin, ht⟩
      rw [← ht]
      exact JoinStep.fail hjoin
  | loseRequest key =>
      cases h
      exact JoinStep.loseRequest
  | loseAnswer key =>
      cases h
      exact JoinStep.loseAnswer
  | handle key now info =>
      simp only [joinStep] at h
      split at h
      · rename_i hrequest
        cases h
        exact JoinStep.handle hrequest
      · cases h
  | handleFails key =>
      simp only [joinStep] at h
      split at h
      · rename_i hrequest
        cases h
        exact JoinStep.handleFails hrequest
      · cases h
  | hostOp op =>
      simp only [joinStep] at h
      split at h
      · rename_i hforeign
        cases h
        exact JoinStep.hostOp hforeign
      · cases h

/-!
## What every step preserves
-/

theorem consumed_apply {db : StateDb} (h : InviteConsumed hashSecret secret db)
    (op : StorageOp) : InviteConsumed hashSecret secret (db.apply hashSecret op) := by
  rcases h with ⟨⟨i, row⟩, hrow, hconsumed⟩
  rcases StateDb.apply_inviteFor hrow op with hsame | ⟨_, _, now, _, _, _, hredeemed⟩
  · exact ⟨(i, row), hsame, hconsumed⟩
  · exact ⟨_, hredeemed, by simp⟩

/-- A peer that does not redeem an invite is not bound to one. -/
theorem guestRow_apply {db : StateDb} {key : String} (hkey : db.guestRow key = none)
    {op : StorageOp} (hop : forall secret' now, op ≠ StorageOp.redeemInvite secret' key now) :
    (db.apply hashSecret op).guestRow key = none := by
  rw [StateDb.guestRow_eq_none_iff] at hkey ⊢
  intro n row hrow hpeer
  rcases StateDb.apply_guest_inv hrow with
    ⟨before, hbefore, hbecomes⟩ | ⟨secret', peerId, now, inviteId, invite, heq, _, _, hnew⟩
  · exact hkey n before hbefore (hbecomes.peerId.symm.trans hpeer)
  · rw [hnew] at hpeer
    have hpeerId : peerId = key := hpeer
    rw [hpeerId] at heq
    exact hop secret' now heq

/-- Steps that forget keys, lose messages or write to the store only. -/
theorem JoinState.Tracked.shrink {s t : JoinState} {expiresAt : Int}
    (hs : s.Tracked hashSecret secret expiresAt) (hdb : t.db = s.db) (hkeys : t.keys = s.keys)
    (hanswers : forall p, p ∈ t.answers -> p ∈ s.answers)
    (hunhandled : t.unhandled.Sublist s.unhandled)
    (hrow : forall j, t.join = some j -> exists r, t.store.shares.lookup j.row = some r) :
    t.Tracked hashSecret secret expiresAt where
  invite := by
    rw [hdb]
    exact hs.invite
  unbound key hkey := by
    rw [hdb, hkeys]
    exact hs.unbound key (hunhandled.subset hkey)
  unanswered key hkey answer hanswer :=
    hs.unanswered key (hunhandled.subset hkey) answer (hanswers _ hanswer)
  nodup := hs.nodup.sublist hunhandled
  answered p hp := by
    rw [hkeys]
    exact hs.answered p (hanswers p hp)
  row := hrow

theorem JoinState.Tracked.lookup_updateRow {s : JoinState} {expiresAt : Int}
    (hs : s.Tracked hashSecret secret expiresAt) {j : Join} (hj : s.join = some j)
    (f : SharesRow -> SharesRow) :
    exists r, (s.store.updateRow j.row f).shares.lookup j.row = some r := by
  rcases hs.row j hj with ⟨r, hr⟩
  exact ⟨f r, by simp [Store.updateRow, hr]⟩

/-- A key whose activation is handled is not waiting any more. -/
theorem unhandled_erase {s : JoinState} (hnodup : s.unhandled.Nodup) {key : String}
    (hrequest : key ∈ s.requests) {k : String}
    (hk : k ∈ s.requests.erase key ++ (s.join.bind Join.unsent).toList) :
    k ∈ s.unhandled ∧ k ≠ key := by
  unfold JoinState.unhandled at hnodup ⊢
  rw [List.nodup_append] at hnodup
  rcases List.mem_append.mp hk with herase | hunsent
  · have hmem := (List.Nodup.mem_erase_iff hnodup.left).mp herase
    exact ⟨List.mem_append.mpr (Or.inl hmem.right), hmem.left⟩
  · refine ⟨List.mem_append.mpr (Or.inr hunsent), ?_⟩
    intro heq
    exact hnodup.right.right key hrequest k hunsent heq.symm

theorem invite_apply {db : StateDb} {expiresAt : Int}
    (h : exists r, db.inviteFor hashSecret secret = some r ∧ r.2.expiresAt = expiresAt)
    (op : StorageOp) :
    exists r, (db.apply hashSecret op).inviteFor hashSecret secret = some r ∧
      r.2.expiresAt = expiresAt := by
  rcases h with ⟨⟨i, row⟩, hrow, hexpires⟩
  rcases StateDb.apply_inviteFor hrow op with hsame | ⟨_, _, _, _, _, _, hredeemed⟩
  · exact ⟨_, hsame, hexpires⟩
  · exact ⟨_, hredeemed, hexpires⟩

/-- An activation is answered. -/
theorem JoinState.Tracked.answer {s : JoinState} {expiresAt : Int}
    (hs : s.Tracked hashSecret secret expiresAt) {key : String} (hrequest : key ∈ s.requests)
    {db' : StateDb}
    (hinvite : exists r, db'.inviteFor hashSecret secret = some r ∧ r.2.expiresAt = expiresAt)
    (hothers : forall k, k ≠ key -> s.db.guestRow k = none -> db'.guestRow k = none)
    (answer : Answer) :
    JoinState.Tracked hashSecret secret
      { s with
        db := db'
        requests := s.requests.erase key
        answers := s.answers ++ [(key, answer)] } expiresAt where
  invite := hinvite
  unbound k hk := by
    rcases unhandled_erase hs.nodup hrequest hk with ⟨hmem, hne⟩
    rcases hs.unbound k hmem with ⟨hkey, hunbound⟩
    exact ⟨hkey, hothers k hne hunbound⟩
  unanswered k hk a ha := by
    rcases unhandled_erase hs.nodup hrequest hk with ⟨hmem, hne⟩
    rcases List.mem_append.mp ha with hold | hnew
    · exact hs.unanswered k hmem a hold
    · exact hne (congrArg Prod.fst (List.mem_singleton.mp hnew))
  nodup :=
    hs.nodup.sublist (List.Sublist.append (List.erase_sublist) (List.Sublist.refl _))
  answered p hp := by
    rcases List.mem_append.mp hp with hold | hnew
    · exact hs.answered p hold
    · rw [List.mem_singleton.mp hnew]
      exact (hs.unbound key (mem_unhandled hrequest)).left
  row := hs.row

/-- The join in progress goes on with the row it has. -/
theorem JoinState.Tracked.sameRow {s : JoinState} {expiresAt : Int}
    (hs : s.Tracked hashSecret secret expiresAt) {row : Int} {phase : JoinPhase}
    (hjoin : s.join = some ⟨row, phase⟩) {next : JoinPhase} (j : Join)
    (hj : some (⟨row, next⟩ : Join) = some j) :
    exists r, s.store.shares.lookup j.row = some r := by
  cases hj
  have hrow := hs.row _ hjoin
  exact hrow

/-- A join makes itself a key. -/
theorem JoinState.Tracked.bind {s : JoinState} {expiresAt : Int}
    (hs : s.Tracked hashSecret secret expiresAt) {row : Int} {key : String}
    (hjoin : s.join = some ⟨row, JoinPhase.started⟩) (hfresh : key ∉ s.keys)
    (hunbound : s.db.guestRow key = none) :
    JoinState.Tracked hashSecret secret
      { s with join := some ⟨row, JoinPhase.bound key⟩, keys := key :: s.keys } expiresAt := by
  have hold : s.unhandled = s.requests := by
    simp [JoinState.unhandled, hjoin, Join.unsent]
  have hcases : forall k, k ∈ s.requests ++ [key] -> k ∈ s.unhandled ∨ k = key := by
    intro k hk
    rw [hold]
    simpa using hk
  refine ⟨hs.invite, ?_, ?_, ?_, ?_, hs.sameRow hjoin⟩
  · intro k hk
    cases hcases k hk with
    | inl hmem =>
        rcases hs.unbound k hmem with ⟨hkey, hrow⟩
        exact ⟨List.mem_cons_of_mem _ hkey, hrow⟩
    | inr heq =>
        rw [heq]
        exact ⟨List.mem_cons_self .., hunbound⟩
  · intro k hk answer hanswer
    cases hcases k hk with
    | inl hmem => exact hs.unanswered k hmem answer hanswer
    | inr heq =>
        rw [heq] at hanswer
        exact hfresh (hs.answered _ hanswer)
  · have hnodup := hs.nodup
    rw [hold] at hnodup
    have hnew : key ∉ s.requests := by
      intro hmem
      exact hfresh (hs.unbound key (mem_unhandled hmem)).left
    simpa [JoinState.unhandled, Join.unsent, List.nodup_append] using
      ⟨hnodup, fun k hk heq => hnew (heq ▸ hk)⟩
  · intro p hp
    exact List.mem_cons_of_mem _ (hs.answered p hp)

theorem tracked_step {s t : JoinState} {a : JoinAction} {expiresAt : Int}
    (hs : s.Tracked hashSecret secret expiresAt)
    (hstep : joinStep hashSecret host secret s a = some t) :
    t.Tracked hashSecret secret expiresAt := by
  have hsame : forall p, p ∈ s.answers -> p ∈ s.answers := fun _ hp => hp
  cases joinStep_some hstep with
  | newRow hnone =>
      refine hs.shrink rfl rfl hsame ?_ ?_
      · simp [JoinState.unhandled, hnone, Join.unsent]
      · intro j hj
        cases hj
        exact ⟨_, RowTable.lookup_insert_self _ _⟩
  | bind hjoin hfresh hunbound => exact hs.bind hjoin hfresh hunbound
  | openStream hjoin =>
      refine hs.shrink rfl rfl hsame ?_ ?_
      · simp [JoinState.unhandled, hjoin, Join.unsent]
      · exact hs.sameRow hjoin
  | send hjoin =>
      refine hs.shrink rfl rfl hsame ?_ ?_
      · simp [JoinState.unhandled, hjoin, Join.unsent]
      · exact hs.sameRow hjoin
  | receiveShare hjoin _ =>
      refine hs.shrink rfl rfl hsame ?_ ?_
      · simp [JoinState.unhandled, hjoin, Join.unsent]
      · exact hs.sameRow hjoin
  | receiveError hjoin _ _ =>
      refine hs.shrink rfl rfl hsame ?_ ?_
      · simp [JoinState.unhandled, JoinState.giveUp]
      · intro j hj
        cases hj
  | writeEndpointId hjoin =>
      refine hs.shrink rfl rfl hsame ?_ ?_
      · simp [JoinState.unhandled, hjoin, Join.unsent]
      · intro j hj
        cases hj
        exact hs.lookup_updateRow hjoin _
  | saveSecret hjoin hrow =>
      refine hs.shrink rfl rfl hsame ?_ ?_
      · simp [JoinState.unhandled, hjoin, Join.unsent]
      · intro j hj
        cases hj
        exact ⟨_, hrow⟩
  | record hjoin _ =>
      refine hs.shrink rfl rfl hsame ?_ ?_
      · simp [JoinState.unhandled]
      · intro j hj
        cases hj
  | fail hjoin =>
      refine hs.shrink rfl rfl hsame ?_ ?_
      · simp [JoinState.unhandled, JoinState.giveUp]
      · intro j hj
        cases hj
  | loseRequest =>
      refine hs.shrink rfl rfl hsame ?_ ?_
      · exact List.Sublist.append (List.erase_sublist) (List.Sublist.refl _)
      · exact hs.row
  | loseAnswer =>
      refine hs.shrink rfl rfl ?_ ?_ ?_
      · intro p hp
        exact (List.mem_filter.mp hp).left
      · exact List.Sublist.refl _
      · exact hs.row
  | @handle key now info hrequest =>
      rw [activation_snd]
      apply hs.answer hrequest
      · exact invite_apply hs.invite _
      · intro k hk hunbound
        apply guestRow_apply hunbound
        intro secret' now' heq
        cases heq
        exact hk rfl
  | @handleFails key hrequest => exact hs.answer hrequest hs.invite (fun _ _ h => h) _
  | @hostOp op hforeign =>
      refine ⟨invite_apply hs.invite _, ?_, hs.unanswered, hs.nodup, hs.answered, hs.row⟩
      intro k hk
      rcases hs.unbound k hk with ⟨hkey, hunbound⟩
      refine ⟨hkey, guestRow_apply hunbound ?_⟩
      intro secret' now heq
      rw [heq] at hforeign
      simp [JoinState.foreign, hkey] at hforeign

end

end Guest
end WispersAccess
