import Mathlib.Data.Fintype.EquivFin
import WispersAccess.Foundation.Calendar
import WispersAccess.Host.StorageRuns

/-!
# What the status report says of an invite

The report lists the recent invites, and calls each of them pending, used or
expired.  It decides by the texts that it prints, where a redemption decides by
the row.
-/

namespace WispersAccess
namespace Host

open Foundation
open Wire (InviteSecret ActivationError)

/-!
## Times as texts
-/

/-- The `<=` of two instants. -/
def DateTime.le (s t : DateTime) : Bool :=
  s.secs < t.secs || (s.secs = t.secs && s.nanos ≤ t.nanos)

/-- RFC 3339, in whole seconds. -/
def fmtRfc3339 (t : DateTime) : String :=
  String.ofList (Rfc3339.print t.secs)

def parseRfc3339 (s : String) : Option DateTime :=
  (Rfc3339.parse s.toList).map fromSecs

theorem parseRfc3339_fmtRfc3339 (secs : Int) :
    parseRfc3339 (fmtRfc3339 (fromSecs secs)) =
      if Rfc3339.InYears secs then some (fromSecs secs) else none := by
  unfold parseRfc3339 fmtRfc3339
  rw [String.toList_ofList]
  split
  · rename_i hyears
    rw [show (fromSecs secs).secs = secs from rfl, Rfc3339.parse_print_of_inYears hyears]
    rfl
  · rename_i hyears
    rw [show (fromSecs secs).secs = secs from rfl, Rfc3339.parse_print_of_not_inYears hyears]
    rfl

/-- A stored instant has come by the second that now is in. -/
theorem fromSecs_le_iff {secs : Int} {now : DateTime} :
    (fromSecs secs).le now = true <-> secs ≤ toSecs now := by
  unfold DateTime.le fromSecs toSecs
  simp only [Bool.or_eq_true, Bool.and_eq_true, decide_eq_true_eq]
  omega

/-!
## The report
-/

/-- `INVITE_HISTORY`, in seconds. -/
def inviteHistory : Int := 7 * 24 * 60 * 60

structure InviteRow where
  id : Int
  userId : String
  nodeName : String
  createdAt : DateTime
  expiresAt : DateTime
  consumedAt : Option DateTime
  deriving DecidableEq, Repr

def inviteFromRow (id : Int) (invite : InvitesRow) : InviteRow where
  id := id
  userId := invite.userId
  nodeName := invite.nodeName
  createdAt := fromSecs invite.createdAt
  expiresAt := fromSecs invite.expiresAt
  consumedAt := invite.consumedAt.map fromSecs

/-- The WHERE clause of the listing. -/
def InvitesRow.isRecent (invite : InvitesRow) (now : DateTime) : Bool :=
  (invite.consumedAt.isNone && invite.expiresAt > toSecs now) ||
    invite.createdAt > toSecs now - inviteHistory

/-- The invites worth showing, newest first. -/
def StateDb.recentInvites (db : StateDb) (now : DateTime) : List InviteRow :=
  ((db.invites.rows.filter fun r => r.2.isRecent now).map fun r => inviteFromRow r.1 r.2).reverse

structure InviteStatus where
  nodeName : Option String
  userId : Option String
  createdAt : String
  expiresAt : String
  usedAt : Option String
  /-- `pending` | `used` | `expired` -/
  status : String
  deriving DecidableEq, Repr

def inviteStatus (usedAt : Option String) (expiresAt : String) (now : DateTime) : String :=
  if usedAt.isSome then "used"
  else
    match parseRfc3339 expiresAt with
    | some expiry => if expiry.le now then "expired" else "pending"
    | none => "pending"

def inviteRowStatus (i : InviteRow) (now : DateTime) : InviteStatus :=
  let expiresAt := fmtRfc3339 i.expiresAt
  let usedAt := i.consumedAt.map fmtRfc3339
  { status := inviteStatus usedAt expiresAt now
    nodeName := some i.nodeName
    userId := some i.userId
    createdAt := fmtRfc3339 i.createdAt
    expiresAt := expiresAt
    usedAt := usedAt }

section
variable {db : StateDb} {now : DateTime} {id : Int} {invite : InvitesRow}

theorem mem_recentInvites_iff {row : InviteRow} :
    row ∈ db.recentInvites now <->
      exists id invite, db.invites.lookup id = some invite ∧ invite.isRecent now = true ∧
        row = inviteFromRow id invite := by
  unfold StateDb.recentInvites
  rw [List.mem_reverse, List.mem_map]
  constructor
  · intro h
    rcases h with ⟨⟨id, invite⟩, hmem, rfl⟩
    rcases List.mem_filter.mp hmem with ⟨hrow, hrecent⟩
    exact ⟨id, invite, RowTable.lookup_eq_some_iff.mpr hrow, hrecent, rfl⟩
  · intro h
    rcases h with ⟨id, invite, hlookup, hrecent, rfl⟩
    exact ⟨(id, invite),
      List.mem_filter.mpr ⟨RowTable.lookup_eq_some_iff.mp hlookup, hrecent⟩, rfl⟩

/-- The newest invite comes first. -/
theorem recentInvites_newest_first (db : StateDb) (now : DateTime) :
    (db.recentInvites now).Pairwise fun row row' => row'.id < row.id := by
  unfold StateDb.recentInvites
  rw [List.pairwise_reverse, List.pairwise_map]
  exact db.invites.sorted.filter _

theorem status_inviteFromRow (id : Int) (invite : InvitesRow) (now : DateTime) :
    (inviteRowStatus (inviteFromRow id invite) now).status =
      if invite.consumedAt.isSome then "used"
      else if Rfc3339.InYears invite.expiresAt ∧ invite.expiresAt ≤ toSecs now then "expired"
      else "pending" := by
  have hexpiry : fmtRfc3339 (inviteFromRow id invite).expiresAt =
      fmtRfc3339 (fromSecs invite.expiresAt) :=
    rfl
  unfold inviteRowStatus inviteStatus
  dsimp only
  rw [hexpiry, parseRfc3339_fmtRfc3339]
  cases hconsumed : invite.consumedAt with
  | some secs => simp [inviteFromRow, hconsumed]
  | none =>
      by_cases hyears : Rfc3339.InYears invite.expiresAt
      · simp [inviteFromRow, hconsumed, hyears, fromSecs_le_iff]
      · simp [inviteFromRow, hconsumed, hyears]

end

/-!
## Invites and their secrets
-/

section
variable (hashSecret : InviteSecret -> SecretHash)

/-- Every invite has a secret, and no other invite has it. -/
structure StateDb.InvitesMinted (db : StateDb) : Prop where
  minted : forall id invite, db.invites.lookup id = some invite ->
    exists secret, hashSecret secret = invite.secretHash
  distinct : forall i j invite invite', db.invites.lookup i = some invite ->
    db.invites.lookup j = some invite' -> invite.secretHash = invite'.secretHash -> i = j

variable {hashSecret}

/-- Every row of `invites` was there before, or an operation made it of a new secret. -/
theorem StateDb.apply_invite_inv {db : StateDb} {op : StorageOp} {i : Int} {row : InvitesRow}
    (h : (db.apply hashSecret op).invites.lookup i = some row) :
    (exists old, db.invites.lookup i = some old ∧ old.secretHash = row.secretHash) ∨
      exists new now, op = StorageOp.createInvite new now ∧ i = db.invites.nextRowid ∧
        row.secretHash = hashSecret new.secret ∧
        db.invites.findRow (fun r => r.secretHash = hashSecret new.secret) = none := by
  cases op with
  | createInvite new now =>
      unfold apply createInvite at h
      dsimp only at h
      split at h
      · exact Or.inl ⟨row, h, rfl⟩
      · rename_i hfree
        rcases RowTable.lookup_insert_eq_some_iff.mp h with hold | ⟨hi, hrow⟩
        · exact Or.inl ⟨row, hold, rfl⟩
        · refine Or.inr ⟨new, now, rfl, hi, ?_, hfree⟩
          rw [hrow]
  | redeemInvite secret peerId now =>
      left
      unfold apply at h
      dsimp only at h
      rcases redeemInvite_snd hashSecret db secret peerId now with ⟨inviteId, invite, _, heq⟩ | heq
      · rw [heq] at h
        unfold bindGuest at h
        rw [RowTable.lookup_mapRows] at h
        rcases Option.map_eq_some_iff.mp h with ⟨old, hold, rfl⟩
        refine ⟨old, hold, ?_⟩
        split <;> rfl
      · rw [heq] at h
        exact ⟨row, h, rfl⟩
  | touchGuest peerId now => exact Or.inl ⟨row, h, rfl⟩
  | removeGuest number =>
      rw [apply, removeGuest_invites] at h
      exact Or.inl ⟨row, h, rfl⟩
  | revokeGuest number now =>
      rw [apply, revokeGuest_snd] at h
      exact Or.inl ⟨row, h, rfl⟩

theorem invitesMinted_fresh : StateDb.fresh.InvitesMinted hashSecret where
  minted := by
    intro id invite h
    cases h
  distinct := by
    intro i j invite invite' h
    cases h

theorem StateDb.InvitesMinted.apply {db : StateDb} (h : db.InvitesMinted hashSecret)
    (op : StorageOp) : (db.apply hashSecret op).InvitesMinted hashSecret := by
  constructor
  · intro id invite hlookup
    rcases StateDb.apply_invite_inv hlookup with
      ⟨old, hold, hsame⟩ | ⟨new, now, -, -, hnew, -⟩
    · rw [← hsame]
      exact h.minted id old hold
    · exact ⟨new.secret, hnew.symm⟩
  · intro i j invite invite' hi hj hhash
    rcases StateDb.apply_invite_inv hi with ⟨old, hold, hsame⟩ | ⟨new, now, hop, hid, hnew, hfree⟩
    · rcases StateDb.apply_invite_inv hj with
        ⟨old', hold', hsame'⟩ | ⟨new, now, -, -, hnew, hfree⟩
      · exact h.distinct i j old old' hold hold' (by rw [hsame, hsame', hhash])
      · have hdiffers := RowTable.findRow_eq_none_iff.mp hfree i old hold
        rw [hsame, hhash, hnew] at hdiffers
        simp at hdiffers
    · rcases StateDb.apply_invite_inv hj with
        ⟨old', hold', hsame'⟩ | ⟨_, _, _, hid', _, _⟩
      · have hdiffers := RowTable.findRow_eq_none_iff.mp hfree j old' hold'
        rw [hsame', ← hhash, hnew] at hdiffers
        simp at hdiffers
      · rw [hid, hid']

theorem invitesMinted_run {db later : StateDb} {ops : List StorageOp}
    (hrun : Run (storageStep hashSecret) db ops later) (hdb : db.InvitesMinted hashSecret) :
    later.InvitesMinted hashSecret := by
  apply hrun.invariant (I := StateDb.InvitesMinted hashSecret) _ hdb
  intro s op t hs hstep
  rw [storageStep_some hstep]
  exact hs.apply op

/-- What a peer without a row is answered. -/
theorem redeemInvite_unbound {db : StateDb} (hdb : db.InvitesMinted hashSecret) {id : Int}
    {invite : InvitesRow} {secret : InviteSecret} {peerId : String}
    (hlookup : db.invites.lookup id = some invite) (hsecret : hashSecret secret = invite.secretHash)
    (hfree : db.guestRow peerId = none) (now : DateTime) :
    (db.redeemInvite hashSecret secret peerId now).1 =
      if invite.consumedAt.isSome then
        Except.ok (Redemption.refused ActivationError.inviteConsumed)
      else if invite.expiresAt ≤ toSecs now then
        Except.ok (Redemption.refused ActivationError.inviteExpired)
      else
        Except.ok (Redemption.activated (guestFromRow db.guests.nextRowid
          (StateDb.newGuestsRow peerId id invite (toSecs now)))) := by
  have hbound : db.boundGuest peerId = none := by
    unfold StateDb.boundGuest
    rw [hfree]
  have hfound : db.invites.findRow (fun row => row.secretHash = hashSecret secret) =
      some (id, invite) := by
    apply RowTable.findRow_eq_some_of_unique hlookup
    · rw [hsecret, decide_eq_true_eq]
    · intro j other hother hhash
      rw [decide_eq_true_eq, hsecret] at hhash
      exact hdb.distinct j id other invite hother hlookup hhash
  unfold StateDb.redeemInvite
  simp only [hbound, hfound, hfree, Option.isSome_none, Bool.false_eq_true, if_false]
  split_ifs
  · rfl
  · rfl
  · rfl

/-!
## The report and the redemption
-/

variable (hashSecret) in
/-- What a peer without a row is answered when it redeems the invite at `now`. -/
def Answers (db : StateDb) (now : DateTime) (id : Int) (answer : Redemption -> Prop) : Prop :=
  forall invite secret peerId, db.invites.lookup id = some invite ->
    hashSecret secret = invite.secretHash -> db.guestRow peerId = none ->
      exists redemption, (db.redeemInvite hashSecret secret peerId now).1 = Except.ok redemption ∧
        answer redemption

def Redemption.IsActivated (redemption : Redemption) : Prop :=
  exists guest, redemption = Redemption.activated guest

variable (hashSecret) in
/-- The report shows every invite that can be redeemed, and calls an invite what a redemption
finds it to be. -/
structure StateDb.StatusAgrees (db : StateDb) (now : DateTime) : Prop where
  listed : forall id invite secret peerId guest, db.invites.lookup id = some invite ->
    hashSecret secret = invite.secretHash -> db.guestRow peerId = none ->
    (db.redeemInvite hashSecret secret peerId now).1 =
      Except.ok (Redemption.activated guest) ->
    exists row, row ∈ db.recentInvites now ∧ row.id = id
  pending : forall row, row ∈ db.recentInvites now ->
    ((inviteRowStatus row now).status = "pending" <->
      Answers hashSecret db now row.id Redemption.IsActivated)
  used : forall row, row ∈ db.recentInvites now ->
    ((inviteRowStatus row now).status = "used" <->
      Answers hashSecret db now row.id
        (· = Redemption.refused ActivationError.inviteConsumed))
  expired : forall row, row ∈ db.recentInvites now ->
    ((inviteRowStatus row now).status = "expired" <->
      Answers hashSecret db now row.id
        (· = Redemption.refused ActivationError.inviteExpired))

/-- There is always a peer without a row. -/
theorem exists_unbound (db : StateDb) : exists peerId, db.guestRow peerId = none := by
  rcases Infinite.exists_notMem_finset (db.guests.rows.map fun r => r.2.peerId).toFinset with
    ⟨peerId, hpeer⟩
  refine ⟨peerId, StateDb.guestRow_eq_none_iff.mpr ?_⟩
  intro id row hrow hsame
  apply hpeer
  rw [List.mem_toFinset, List.mem_map]
  exact ⟨(id, row), RowTable.lookup_eq_some_iff.mp hrow, hsame⟩

section
variable {db : StateDb} {now : DateTime} {id : Int} {invite : InvitesRow}
  {answer : Redemption -> Prop}

/-- An invite that is refused is refused to every peer. -/
theorem answers_refused_iff (hdb : db.InvitesMinted hashSecret)
    (hlookup : db.invites.lookup id = some invite) {why : ActivationError}
    (hrefused : forall secret peerId, hashSecret secret = invite.secretHash ->
      db.guestRow peerId = none ->
      (db.redeemInvite hashSecret secret peerId now).1 = Except.ok (Redemption.refused why)) :
    Answers hashSecret db now id answer <-> answer (Redemption.refused why) := by
  constructor
  · intro h
    rcases hdb.minted id invite hlookup with ⟨secret, hsecret⟩
    rcases exists_unbound db with ⟨peerId, hfree⟩
    rcases h invite secret peerId hlookup hsecret hfree with ⟨redemption, heq, hanswer⟩
    rw [hrefused secret peerId hsecret hfree] at heq
    cases heq
    exact hanswer
  · intro h invite' secret peerId hlookup' hsecret hfree
    rw [hlookup] at hlookup'
    cases hlookup'
    exact ⟨_, hrefused secret peerId hsecret hfree, h⟩

theorem answers_consumed_iff (hdb : db.InvitesMinted hashSecret)
    (hlookup : db.invites.lookup id = some invite) (hconsumed : invite.consumedAt.isSome) :
    Answers hashSecret db now id answer <->
      answer (Redemption.refused ActivationError.inviteConsumed) := by
  apply answers_refused_iff hdb hlookup
  intro secret peerId hsecret hfree
  rw [redeemInvite_unbound hdb hlookup hsecret hfree, if_pos hconsumed]

theorem answers_expired_iff (hdb : db.InvitesMinted hashSecret)
    (hlookup : db.invites.lookup id = some invite) (hopen : ¬ invite.consumedAt.isSome)
    (hexpired : invite.expiresAt ≤ toSecs now) :
    Answers hashSecret db now id answer <->
      answer (Redemption.refused ActivationError.inviteExpired) := by
  apply answers_refused_iff hdb hlookup
  intro secret peerId hsecret hfree
  rw [redeemInvite_unbound hdb hlookup hsecret hfree, if_neg hopen, if_pos hexpired]

theorem answers_activated (hdb : db.InvitesMinted hashSecret)
    (hlookup : db.invites.lookup id = some invite) (hopen : ¬ invite.consumedAt.isSome)
    (hlive : ¬ invite.expiresAt ≤ toSecs now) :
    Answers hashSecret db now id Redemption.IsActivated := by
  intro invite' secret peerId hlookup' hsecret hfree
  rw [hlookup] at hlookup'
  cases hlookup'
  rw [redeemInvite_unbound hdb hlookup hsecret hfree, if_neg hopen, if_neg hlive]
  exact ⟨_, rfl, _, rfl⟩

theorem not_answers_refused (hdb : db.InvitesMinted hashSecret)
    (hlookup : db.invites.lookup id = some invite) (hopen : ¬ invite.consumedAt.isSome)
    (hlive : ¬ invite.expiresAt ≤ toSecs now) (why : ActivationError) :
    ¬ Answers hashSecret db now id (· = Redemption.refused why) := by
  intro h
  rcases hdb.minted id invite hlookup with ⟨secret, hsecret⟩
  rcases exists_unbound db with ⟨peerId, hfree⟩
  rcases h invite secret peerId hlookup hsecret hfree with ⟨redemption, heq, hrefused⟩
  rw [redeemInvite_unbound hdb hlookup hsecret hfree, if_neg hopen, if_neg hlive, hrefused] at heq
  cases heq

/-- The invite is open, and its time is up, but not in a year that can be printed. -/
def InvitesRow.UnreadableExpiry (invite : InvitesRow) (now : DateTime) : Prop :=
  invite.consumedAt = none ∧ invite.expiresAt ≤ toSecs now ∧ ¬ Rfc3339.InYears invite.expiresAt

/-- What the report and a redemption say of one invite. -/
theorem status_iff_answers (hdb : db.InvitesMinted hashSecret)
    (hlookup : db.invites.lookup id = some invite) (hreadable : ¬ invite.UnreadableExpiry now) :
    let status := (inviteRowStatus (inviteFromRow id invite) now).status
    (status = "pending" <-> Answers hashSecret db now id Redemption.IsActivated) ∧
      (status = "used" <-> Answers hashSecret db now id
        (· = Redemption.refused ActivationError.inviteConsumed)) ∧
      (status = "expired" <-> Answers hashSecret db now id
        (· = Redemption.refused ActivationError.inviteExpired)) := by
  dsimp only
  rw [status_inviteFromRow]
  by_cases hconsumed : invite.consumedAt.isSome
  · rw [if_pos hconsumed, answers_consumed_iff hdb hlookup hconsumed,
      answers_consumed_iff hdb hlookup hconsumed, answers_consumed_iff hdb hlookup hconsumed]
    simp [Redemption.IsActivated]
  rw [if_neg hconsumed]
  by_cases hexpired : invite.expiresAt ≤ toSecs now
  · have hyears : Rfc3339.InYears invite.expiresAt := by
      by_contra hyears
      exact hreadable ⟨by simpa using hconsumed, hexpired, hyears⟩
    rw [if_pos ⟨hyears, hexpired⟩, answers_expired_iff hdb hlookup hconsumed hexpired,
      answers_expired_iff hdb hlookup hconsumed hexpired,
      answers_expired_iff hdb hlookup hconsumed hexpired]
    simp [Redemption.IsActivated]
  · rw [if_neg fun h => hexpired h.right]
    have hactivated := answers_activated hdb hlookup hconsumed hexpired
    have hrefused := not_answers_refused hdb hlookup hconsumed hexpired
    simp [hactivated, hrefused]

/-- An invite whose expiry cannot be read is called pending. -/
theorem status_of_unreadable (hunreadable : invite.UnreadableExpiry now) :
    (inviteRowStatus (inviteFromRow id invite) now).status = "pending" := by
  rcases hunreadable with ⟨hopen, -, hyears⟩
  rw [status_inviteFromRow, hopen]
  simp [hyears]

end

/-- For every reachable database and every time: the report agrees with redemption exactly if no
open invite of the last seven days has run out in a year that RFC 3339 has no text for. -/
theorem status_agrees_iff {ops : List StorageOp} {db : StateDb}
    (hrun : Run (storageStep hashSecret) StateDb.fresh ops db) (now : DateTime) :
    db.StatusAgrees hashSecret now <->
      forall id invite, db.invites.lookup id = some invite ->
        toSecs now - inviteHistory < invite.createdAt -> ¬ invite.UnreadableExpiry now := by
  have hdb := invitesMinted_run hrun invitesMinted_fresh
  constructor
  · intro h id invite hlookup hcreated hunreadable
    have hlisted : inviteFromRow id invite ∈ db.recentInvites now := by
      refine mem_recentInvites_iff.mpr ⟨id, invite, hlookup, ?_, rfl⟩
      unfold InvitesRow.isRecent
      simp [hcreated]
    have hopen : ¬ invite.consumedAt.isSome := by
      rw [hunreadable.left]
      nofun
    have hactivated := (h.pending _ hlisted).mp (status_of_unreadable hunreadable)
    rcases (answers_expired_iff hdb hlookup hopen hunreadable.right.left).mp hactivated with
      ⟨guest, hguest⟩
    cases hguest
  · intro h
    have hagree : forall row, row ∈ db.recentInvites now -> exists id invite,
        row = inviteFromRow id invite ∧ db.invites.lookup id = some invite ∧
          ¬ invite.UnreadableExpiry now := by
      intro row hrow
      rcases mem_recentInvites_iff.mp hrow with ⟨id, invite, hlookup, hrecent, heq⟩
      refine ⟨id, invite, heq, hlookup, ?_⟩
      intro hunreadable
      -- an invite that has run out is listed for its age alone
      unfold InvitesRow.isRecent at hrecent
      have hexpired := hunreadable.right.left
      simp only [Bool.or_eq_true, Bool.and_eq_true, decide_eq_true_eq] at hrecent
      exact h id invite hlookup (by omega) hunreadable
    constructor
    · intro id invite secret peerId guest hlookup hsecret hfree hredeemed
      refine ⟨inviteFromRow id invite, ?_, rfl⟩
      refine mem_recentInvites_iff.mpr ⟨id, invite, hlookup, ?_, rfl⟩
      rw [redeemInvite_unbound hdb hlookup hsecret hfree] at hredeemed
      split at hredeemed
      · cases hredeemed
      rename_i hopen
      split at hredeemed
      · cases hredeemed
      rename_i hlive
      have hnone : invite.consumedAt.isNone = true := by simpa using hopen
      unfold InvitesRow.isRecent
      simp only [hnone, Bool.true_and, Bool.or_eq_true, decide_eq_true_eq]
      exact Or.inl (Int.not_le.mp hlive)
    · intro row hrow
      rcases hagree row hrow with ⟨id, invite, rfl, hlookup, hreadable⟩
      exact (status_iff_answers hdb hlookup hreadable).left
    · intro row hrow
      rcases hagree row hrow with ⟨id, invite, rfl, hlookup, hreadable⟩
      exact (status_iff_answers hdb hlookup hreadable).right.left
    · intro row hrow
      rcases hagree row hrow with ⟨id, invite, rfl, hlookup, hreadable⟩
      exact (status_iff_answers hdb hlookup hreadable).right.right

end

/-!
## An invite over the turn of a year
-/

/-- The first second of the year 10000. -/
def yearTenThousand : Int := 253402300800

def lateInvite : NewInvite where
  secret := repeatedSecret 1
  userId := "alice"
  nodeName := "phone"
  expiresAt := fromSecs yearTenThousand

/-- The database once the invite has been made, an hour before its expiry. -/
def lateDb : StateDb :=
  StateDb.fresh.apply doubledSecret
    (StorageOp.createInvite lateInvite (fromSecs (yearTenThousand - 3600)))

/-- At its expiry, the invite is called pending, and a peer that redeems it is told it expired. -/
theorem late_invite_shown_pending :
    Run (storageStep doubledSecret) StateDb.fresh
        [StorageOp.createInvite lateInvite (fromSecs (yearTenThousand - 3600))] lateDb ∧
      ((lateDb.recentInvites (fromSecs yearTenThousand)).map fun row =>
        (row.id, (inviteRowStatus row (fromSecs yearTenThousand)).status)) = [(1, "pending")] ∧
      (lateDb.redeemInvite doubledSecret (repeatedSecret 1) "peer-a"
        (fromSecs yearTenThousand)).1 =
          Except.ok (Redemption.refused ActivationError.inviteExpired) ∧
      ¬ lateDb.StatusAgrees doubledSecret (fromSecs yearTenThousand) := by
  have hstatus : ((lateDb.recentInvites (fromSecs yearTenThousand)).map fun row =>
      (row.id, (inviteRowStatus row (fromSecs yearTenThousand)).status)) = [(1, "pending")] := by
    decide +kernel
  have hredeemed : (lateDb.redeemInvite doubledSecret (repeatedSecret 1) "peer-a"
      (fromSecs yearTenThousand)).1 =
        Except.ok (Redemption.refused ActivationError.inviteExpired) := by
    decide +kernel
  refine ⟨Run.cons rfl (Run.nil _), hstatus, hredeemed, ?_⟩
  intro h
  have hmem : (1, "pending") ∈ (lateDb.recentInvites (fromSecs yearTenThousand)).map fun row =>
      (row.id, (inviteRowStatus row (fromSecs yearTenThousand)).status) := by
    rw [hstatus]
    exact List.mem_cons_self
  rcases List.mem_map.mp hmem with ⟨row, hrow, heq⟩
  cases hpair : (row.id, (inviteRowStatus row (fromSecs yearTenThousand)).status) with
  | mk id status =>
      rw [hpair] at heq
      cases heq
      have hactivated := (h.pending row hrow).mp (Prod.mk.inj hpair).right
      rw [(Prod.mk.inj hpair).left] at hactivated
      have hrow : exists invite, lateDb.invites.lookup 1 = some invite ∧
          doubledSecret (repeatedSecret 1) = invite.secretHash :=
        ⟨_, rfl, rfl⟩
      rcases hrow with ⟨invite, hlookup, hsecret⟩
      rcases hactivated invite (repeatedSecret 1) "peer-a" hlookup hsecret rfl with
        ⟨redemption, hok, guest, hguest⟩
      rw [hredeemed, hguest] at hok
      cases hok

/-- An invite of 1970 is shown as it is. -/
theorem status_agrees_for_early_invite :
    (StateDb.fresh.apply doubledSecret
      (StorageOp.createInvite ⟨repeatedSecret 1, "alice", "phone", ⟨87400, 0⟩⟩
        ⟨1000, 0⟩)).StatusAgrees doubledSecret ⟨87400, 500⟩ := by
  refine (status_agrees_iff (Run.cons rfl (Run.nil _)) ⟨87400, 500⟩).mpr ?_
  intro id invite hlookup hcreated hunreadable
  have hinvite := RowTable.lookup_eq_some_iff.mp hlookup
  rcases List.mem_cons.mp hinvite with heq | hnone
  · cases heq
    exact absurd (show Rfc3339.InYears 87400 by decide +kernel) hunreadable.right.right
  · cases hnone

end Host
end WispersAccess
