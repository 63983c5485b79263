import WispersAccess.Guest.RefreshCall

/-!
# What a refresh tells

The observer of the shares is to hear of every change that a refresh makes, and a
refresh that fails for the moment is to have changed nothing.  Both depend on
what comes after its first write: the mark of an outdated share is cleared before
the share info is stored, and what is told is read back off the store.
-/

namespace WispersAccess
namespace Guest

open Foundation
open Wire (ShareInfo)

/-- A refresh that failed for the moment changed nothing, and what it changed, it told. -/
structure Faithful (text : JsonText) (id : Int) (s : WatchedNode)
    (out : NodeRefresh × WatchedNode) : Prop where
  unchanged : out.1 = NodeRefresh.transient ->
    out.2.db.readShare text id = s.db.readShare text id ∧
      out.2.db.readShareConfigHash id = s.db.readShareConfigHash id
  told : out.2.db.readShare text id ≠ s.db.readShare text id ->
    exists share, out.2.db.readShare text id = some share ∧ out.2.told = s.told ++ [share]

/-- The stored copy is what the host tells. -/
def Share.IsAs (share : Share) (info : ShareInfo) : Prop :=
  share.name = info.name ∧ share.apps = info.apps ∧ share.caCertificates = info.caCertificates

/-- The store takes the share info: no app id comes twice, and nothing fails. -/
def StoreFaults.Takes (faults : StoreFaults) (info : ShareInfo) : Prop :=
  faults.writeShareInfo = false ∧ (info.apps.map fun app => app.id).Nodup

/-- The share is served, and the store fails once the mark of an outdated share is cleared, or
the share cannot be read back once something is written. -/
inductive StoreGivesOut (share : Share) (hash : Option UInt64) (faults : StoreFaults) :
    Option ShareInfo -> Prop where
  | infoRefused (info : ShareInfo) (hrefused : ¬ faults.Takes info)
      (houtdated : share.state = ShareState.outdated) :
      StoreGivesOut share hash faults (some info)
  | infoUntold (info : ShareInfo) (htakes : faults.Takes info) (hread : faults.readShare = true)
      (hnews : share.state = ShareState.outdated ∨ ¬ share.IsAs info ∨
        hash ≠ some info.configHash) :
      StoreGivesOut share hash faults (some info)
  | clearedUntold (hread : faults.readShare = true)
      (houtdated : share.state = ShareState.outdated) :
      StoreGivesOut share hash faults none

/-- The refreshes that are not faithful. -/
inductive Unfaithful (share : Share) (hash : Option UInt64) (faults : StoreFaults) :
    Except TransportError Unit -> (Option UInt64 -> Fetched) -> Prop where
  | terminalUntold (state : TerminalState) (answer : Option UInt64 -> Fetched)
      (hwrite : faults.writeTerminalState = false) (hread : faults.readShare = true)
      (hnews : share.state ≠ state.shareState) :
      Unfaithful share hash faults (Except.error (TransportError.terminal state)) answer
  | markUntold (answer : Option UInt64 -> Fetched) (hhash : faults.readHash = false)
      (hanswer : answer hash = Fetched.tooOld) (hwrite : faults.writeOutdated = false)
      (hread : faults.readShare = true) (hlive : share.state = ShareState.live) :
      Unfaithful share hash faults (Except.ok ()) answer
  | unchanged (answer : Option UInt64 -> Fetched) (hhash : faults.readHash = false)
      (hanswer : answer hash = Fetched.unchanged) (hwrite : faults.writeOutdated = false)
      (hfails : StoreGivesOut share hash faults none) :
      Unfaithful share hash faults (Except.ok ()) answer
  | info (answer : Option UInt64 -> Fetched) (info : ShareInfo) (hhash : faults.readHash = false)
      (hanswer : answer hash = Fetched.info info) (hwrite : faults.writeOutdated = false)
      (hfails : StoreGivesOut share hash faults (some info)) :
      Unfaithful share hash faults (Except.ok ()) answer

/-!
## Outcomes
-/

section
variable {text : JsonText} {id : Int} {s t : WatchedNode} {out : NodeRefresh} {share : Share}

theorem faithful_of_same
    (hshare : t.db.readShare text id = s.db.readShare text id)
    (hhash : t.db.readShareConfigHash id = s.db.readShareConfigHash id) :
    Faithful text id s (out, t) where
  unchanged _ := ⟨hshare, hhash⟩
  told h := absurd hshare h

theorem faithful_of_told (hout : out ≠ NodeRefresh.transient)
    (hshare : t.db.readShare text id = some share) (htold : t.told = s.told ++ [share]) :
    Faithful text id s (out, t) where
  unchanged h := absurd h hout
  told _ := ⟨share, hshare, htold⟩

theorem not_faithful_of_untold (hshare : t.db.readShare text id ≠ s.db.readShare text id)
    (htold : t.told = s.told) : ¬ Faithful text id s (out, t) := by
  intro h
  rcases h.told hshare with ⟨share, _, htold'⟩
  rw [htold] at htold'
  exact absurd (congrArg List.length htold') (by simp)

variable {faults : StoreFaults} {hash : Option UInt64}

theorem tellShare_fails (hread : faults.readShare = true) : s.tellShare text id faults = none := by
  unfold WatchedNode.tellShare
  rw [if_pos hread]

theorem tellShare_tells (hread : faults.readShare = false)
    (hshare : s.db.readShare text id = some share) :
    s.tellShare text id faults = some { s with told := s.told ++ [share] } := by
  unfold WatchedNode.tellShare
  rw [if_neg (by rw [hread]; decide), hshare]
  rfl

/-- Whether what was written is told, or nothing new. -/
theorem faithful_written_iff (hold : s.db.readShare text id = some share) {now : Share}
    (hnow : t.db.readShare text id = some now) (htold : t.told = s.told)
    (hout : out ≠ NodeRefresh.transient) :
    Faithful text id s (match t.tellShare text id faults with
        | none => (NodeRefresh.transient, t)
        | some told => (out, told)) <->
      faults.readShare = true -> now = share ∧
        t.db.readShareConfigHash id = s.db.readShareConfigHash id := by
  cases hread : faults.readShare with
  | true =>
      rw [tellShare_fails hread]
      constructor
      · intro h _
        rcases h.unchanged rfl with ⟨hsame, hhash⟩
        rw [hnow, hold] at hsame
        exact ⟨Option.some.inj hsame, hhash⟩
      · intro h
        rcases h rfl with ⟨rfl, hhash⟩
        exact faithful_of_same (hnow.trans hold.symm) hhash
  | false =>
      rw [tellShare_tells hread hnow]
      constructor
      · intro _ h
        cases h
      · intro _
        exact faithful_of_told hout hnow (by rw [htold])

/-!
## The host serves
-/

theorem ShareState.marked_false_iff {state : ShareState} :
    state.marked false = state <-> state ≠ ShareState.outdated := by
  cases state <;> decide

theorem ShareState.marked_true_iff {state : ShareState} :
    state.marked true = state <-> state ≠ ShareState.live := by
  cases state <;> decide

/-- The node once the mark is written. -/
def marking (id : Int) (outdated : Bool) (s : WatchedNode) : WatchedNode :=
  { s with db := (s.db.writeOutdated id outdated).1 }

theorem takeAnswer_eq (hwrite : faults.writeOutdated = false) (info : Option ShareInfo) :
    s.takeAnswer text id faults info =
      match (marking id false s).storeInfo text id faults info with
      | none => (NodeRefresh.transient, marking id false s)
      | some stored =>
          if (s.db.writeOutdated id false).2 || info.isSome then
            match stored.tellShare text id faults with
            | none => (NodeRefresh.transient, stored)
            | some told => (NodeRefresh.refreshed info, told)
          else (NodeRefresh.refreshed info, stored) := by
  unfold WatchedNode.takeAnswer
  rw [if_neg (by rw [hwrite]; decide)]
  rfl

theorem turnAway_eq (hwrite : faults.writeOutdated = false) :
    s.turnAway text id faults =
      if (s.db.writeOutdated id true).2 then
        match (marking id true s).tellShare text id faults with
        | none => (NodeRefresh.transient, marking id true s)
        | some told => (NodeRefresh.outdated, told)
      else (NodeRefresh.outdated, marking id true s) := by
  unfold WatchedNode.turnAway
  rw [if_neg (by rw [hwrite]; decide)]
  rfl

theorem marked_eq_iff {outdated : Bool} :
    { share with state := share.state.marked outdated } = share <->
      share.state.marked outdated = share.state := by
  constructor
  · intro h
    exact congrArg Share.state h
  · intro h
    rw [h]

theorem updated_eq_iff (info : ShareInfo) :
    { share with
        name := info.name, apps := info.apps, caCertificates := info.caCertificates
        state := share.state.marked false } = share <->
      share.IsAs info ∧ share.state ≠ ShareState.outdated := by
  rw [← ShareState.marked_false_iff]
  constructor
  · intro h
    exact ⟨⟨(congrArg Share.name h).symm, (congrArg Share.apps h).symm,
      (congrArg Share.caCertificates h).symm⟩, congrArg Share.state h⟩
  · intro hsame
    rcases hsame with ⟨⟨hname, happs, hcertificates⟩, hstate⟩
    rw [← hname, ← happs, ← hcertificates, hstate]

/-- The answer that nothing has changed. -/
theorem takeAnswer_none (hash : Option UInt64) (hwrite : faults.writeOutdated = false)
    (hold : s.db.readShare text id = some share) :
    Faithful text id s (s.takeAnswer text id faults none) <->
      ¬ StoreGivesOut share hash faults none := by
  have hcleared := DB.readShare_writeOutdated hold false
  have hhash := (readCopy_writeOutdated text s.db id false).right
  have hgives : ¬ StoreGivesOut share hash faults none <->
      (faults.readShare = true -> share.state ≠ ShareState.outdated) := by
    constructor
    · intro h hread houtdated
      exact h (StoreGivesOut.clearedUntold hread houtdated)
    · intro h hgives
      cases hgives with
      | clearedUntold hread houtdated => exact h hread houtdated
  rw [hgives, takeAnswer_eq hwrite]
  cases hmoved : (s.db.writeOutdated id false).2 with
  | true =>
      refine (faithful_written_iff (t := marking id false s) hold hcleared rfl
        (by intro h; cases h)).trans ?_
      rw [marked_eq_iff, ShareState.marked_false_iff]
      exact ⟨fun h hread => (h hread).left, fun h hread => ⟨h hread, hhash⟩⟩
  | false =>
      have hunmoved := DB.marked_of_unmoved hold hmoved
      constructor
      · intro _ _
        exact ShareState.marked_false_iff.mp hunmoved
      · intro _
        rw [hunmoved] at hcleared
        exact faithful_of_same (hcleared.trans hold.symm) hhash

theorem storeInfo_takes (hold : s.db.readShare text id = some share) {info : ShareInfo}
    (htakes : faults.Takes info) :
    exists db', s.storeInfo text id faults (some info) = some { s with db := db' } ∧
      db'.readShare text id = some { share with
        name := info.name, apps := info.apps, caCertificates := info.caCertificates } ∧
      db'.readShareConfigHash id = some (some info.configHash) := by
  rcases DB.row_of_readShare hold with ⟨r, hr⟩
  have hwrite : exists db', s.db.writeShareInfo text id info = some db' :=
    DB.exists_writeShareInfo hr htakes.right
  rcases hwrite with ⟨db', hdb'⟩
  refine ⟨db', ?_, DB.readShare_writeShareInfo hold hdb',
    (DB.readCopy_writeShareInfo hr hdb').right⟩
  simp [WatchedNode.storeInfo, htakes.left, hdb']

theorem storeInfo_refused {info : ShareInfo} (hrefused : ¬ faults.Takes info) :
    s.storeInfo text id faults (some info) = none := by
  unfold WatchedNode.storeInfo
  cases hfault : faults.writeShareInfo with
  | true => rfl
  | false =>
      have hids : ¬ (info.apps.map fun app => app.id).Nodup := fun h => hrefused ⟨hfault, h⟩
      have hnone : s.db.writeShareInfo text id info = none := by
        unfold DB.writeShareInfo
        rw [if_neg (fun h => hids h.left)]
      simp [hnone]

/-- The answer that this is the share now. -/
theorem takeAnswer_some (hwrite : faults.writeOutdated = false)
    (hold : s.db.readShare text id = some share)
    (hknown : s.db.readShareConfigHash id = some hash) (info : ShareInfo) :
    Faithful text id s (s.takeAnswer text id faults (some info)) <->
      ¬ StoreGivesOut share hash faults (some info) := by
  have hcleared := DB.readShare_writeOutdated hold false
  have hhash := (readCopy_writeOutdated text s.db id false).right
  rw [takeAnswer_eq hwrite]
  by_cases htakes : faults.Takes info
  · have hstored : exists db', (marking id false s).storeInfo text id faults (some info) =
        some { s with db := db' } ∧
        db'.readShare text id = some { share with
          name := info.name, apps := info.apps, caCertificates := info.caCertificates
          state := share.state.marked false } ∧
        db'.readShareConfigHash id = some (some info.configHash) :=
      storeInfo_takes (s := marking id false s) hcleared htakes
    rcases hstored with ⟨db', hstored, hnow, hnewhash⟩
    simp only [hstored, Option.isSome_some, Bool.or_true, if_true]
    refine (faithful_written_iff (t := { s with db := db' }) hold hnow rfl
      (by intro h; cases h)).trans ?_
    rw [updated_eq_iff, hnewhash, hknown, Option.some.injEq]
    constructor
    · intro h hgives
      cases hgives with
      | infoRefused _ hrefused _ => exact hrefused htakes
      | infoUntold _ _ hread hnews =>
          rcases h hread with ⟨⟨his, hlive⟩, hsame⟩
          rcases hnews with houtdated | hnot | hhash'
          · exact hlive houtdated
          · exact hnot his
          · exact hhash' hsame.symm
    · intro h hread
      by_contra hnews
      refine h (StoreGivesOut.infoUntold info htakes hread ?_)
      by_contra hsame
      rw [not_or, not_or, not_not, ne_eq, not_not] at hsame
      exact hnews ⟨⟨hsame.right.left, hsame.left⟩, hsame.right.right.symm⟩
  · simp only [storeInfo_refused htakes]
    constructor
    · intro h hgives
      have hsame := (h.unchanged rfl).left
      cases hgives with
      | infoRefused _ _ houtdated =>
          have hstill := Option.some.inj ((hcleared.symm.trans hsame).trans hold)
          exact ShareState.marked_false_iff.mp (marked_eq_iff.mp hstill) houtdated
      | infoUntold _ htakes' _ _ => exact htakes htakes'
    · intro h
      have hlive : share.state ≠ ShareState.outdated :=
        fun houtdated => h (StoreGivesOut.infoRefused info htakes houtdated)
      rw [ShareState.marked_false_iff.mpr hlive] at hcleared
      exact faithful_of_same (hcleared.trans hold.symm) hhash

/-!
## The host turns the guest away
-/

theorem turnAway_iff (hwrite : faults.writeOutdated = false)
    (hold : s.db.readShare text id = some share) :
    Faithful text id s (s.turnAway text id faults) <->
      (faults.readShare = true -> share.state ≠ ShareState.live) := by
  have hmarked := DB.readShare_writeOutdated hold true
  have hhash := (readCopy_writeOutdated text s.db id true).right
  rw [turnAway_eq hwrite]
  cases hmoved : (s.db.writeOutdated id true).2 with
  | true =>
      refine (faithful_written_iff (t := marking id true s) hold hmarked rfl
        (by intro h; cases h)).trans ?_
      rw [marked_eq_iff, ShareState.marked_true_iff]
      exact ⟨fun h hread => (h hread).left, fun h hread => ⟨h hread, hhash⟩⟩
  | false =>
      have hunmoved := DB.marked_of_unmoved hold hmoved
      constructor
      · intro _ _
        exact ShareState.marked_true_iff.mp hunmoved
      · intro _
        rw [hunmoved] at hmarked
        exact faithful_of_same (hmarked.trans hold.symm) hhash

theorem recordTerminalError_iff (hold : s.db.readShare text id = some share)
    (state : TerminalState) :
    Faithful text id s (NodeRefresh.terminal, s.recordTerminalError text id faults state) <->
      (faults.writeTerminalState = false -> faults.readShare = true ->
        share.state = state.shareState) := by
  have hwritten := DB.readShare_writeTerminalState hold state
  unfold WatchedNode.recordTerminalError
  cases hwrite : faults.writeTerminalState with
  | true =>
      constructor
      · intro _ h
        cases h
      · intro _
        exact faithful_of_same rfl rfl
  | false =>
      cases hread : faults.readShare with
      | true =>
          simp only [tellShare_fails hread, Bool.false_eq_true, if_false, Option.getD_none,
            forall_const]
          constructor
          · intro h
            by_contra hnews
            refine absurd h (not_faithful_of_untold ?_ rfl)
            intro hsame
            have hshare := Option.some.inj ((hwritten.symm.trans hsame).trans hold)
            exact hnews (congrArg Share.state hshare).symm
          · intro h
            have hsame : { share with state := state.shareState } = share := by
              rw [← h]
            rw [hsame] at hwritten
            constructor
            · intro hout
              cases hout
            · intro hnews
              exact absurd (hwritten.trans hold.symm) hnews
      | false =>
          constructor
          · intro _ _ h
            cases h
          · intro _
            have htells := tellShare_tells (s := { s with
              dead := some state, db := s.db.writeTerminalState id state.asStr }) hread hwritten
            simp only [htells]
            exact faithful_of_told (by intro h; cases h) hwritten rfl

/-!
## Refreshes
-/

/-- A stream is open, and the host answers. -/
theorem refresh_opened (hold : s.db.readShare text id = some share)
    (hknown : s.db.readShareConfigHash id = some hash) (hdead : s.dead = none)
    (answer : Option UInt64 -> Fetched) :
    Faithful text id s (s.refresh text id faults (Except.ok ()) answer) <->
      ¬ Unfaithful share hash faults (Except.ok ()) answer := by
  have hopen : s.openStream text id faults (Except.ok ()) = (Except.ok (), s) := by
    unfold WatchedNode.openStream
    rw [hdead]
  have hunchanged : Faithful text id s (NodeRefresh.transient, s) := faithful_of_same rfl rfl
  unfold WatchedNode.refresh
  rw [hopen]
  cases hhash : faults.readHash with
  | true =>
      refine iff_of_true hunchanged ?_
      intro h
      cases h with
      | markUntold _ hfine | unchanged _ hfine | info _ _ hfine =>
          rw [hhash] at hfine
          cases hfine
  | false =>
      simp only [Bool.false_eq_true, if_false, hknown]
      cases hwrite : faults.writeOutdated with
      | true =>
          have hnot : ¬ Unfaithful share hash faults (Except.ok ()) answer := by
            intro h
            cases h with
            | markUntold _ _ _ hfine | unchanged _ _ _ hfine | info _ _ _ _ hfine =>
                rw [hwrite] at hfine
                cases hfine
          refine iff_of_true ?_ hnot
          cases answer hash with
          | failed => exact hunchanged
          | unchanged | info info | tooOld =>
              simp only [WatchedNode.takeAnswer, WatchedNode.turnAway, hwrite, if_true]
              exact hunchanged
      | false =>
          cases hanswer : answer hash with
          | unchanged =>
              refine (takeAnswer_none hash hwrite hold).trans (not_congr ?_)
              constructor
              · exact Unfaithful.unchanged answer hhash hanswer hwrite
              · intro h
                cases h with
                | unchanged _ _ _ _ hfails => exact hfails
                | markUntold _ _ hother | info _ _ _ hother =>
                    rw [hanswer] at hother
                    cases hother
          | info info =>
              refine (takeAnswer_some hwrite hold hknown info).trans (not_congr ?_)
              constructor
              · exact Unfaithful.info answer info hhash hanswer hwrite
              · intro h
                cases h with
                | info _ _ _ hsame _ hfails =>
                    rw [hanswer] at hsame
                    cases hsame
                    exact hfails
                | markUntold _ _ hother | unchanged _ _ hother =>
                    rw [hanswer] at hother
                    cases hother
          | tooOld =>
              refine (turnAway_iff hwrite hold).trans ?_
              constructor
              · intro h hun
                cases hun with
                | markUntold _ _ _ _ hread hlive => exact h hread hlive
                | unchanged _ _ hother | info _ _ _ hother =>
                    rw [hanswer] at hother
                    cases hother
              · intro h hread hlive
                exact h (Unfaithful.markUntold answer hhash hanswer hwrite hread hlive)
          | failed =>
              refine iff_of_true hunchanged ?_
              intro h
              cases h with
              | markUntold _ _ hother | unchanged _ _ hother | info _ _ _ hother =>
                  rw [hanswer] at hother
                  cases hother

/-- A refresh that fails for the moment leaves the stored share and its hash as they were, and
every change is told to the observer, unless the store fails the refresh once it has written. -/
theorem refresh_faithful_iff (text : JsonText) (id : Int) (faults : StoreFaults)
    (s : WatchedNode) (share : Share) (hash : Option UInt64)
    (hold : s.db.readShare text id = some share)
    (hknown : s.db.readShareConfigHash id = some hash)
    (opening : Except TransportError Unit) (answer : Option UInt64 -> Fetched) :
    Faithful text id s (s.refresh text id faults opening answer) <->
      (s.dead = none -> ¬ Unfaithful share hash faults opening answer) := by
  cases hdead : s.dead with
  | some state =>
      have hclosed : s.openStream text id faults opening =
          (Except.error (TransportError.terminal state), s) := by
        unfold WatchedNode.openStream
        rw [hdead]
      unfold WatchedNode.refresh
      rw [hclosed]
      refine iff_of_true (faithful_of_same rfl rfl) ?_
      intro h
      cases h
  | none =>
      simp only [true_implies]
      cases opening with
      | ok _ => exact refresh_opened hold hknown hdead answer
      | error e =>
          cases e with
          | terminal state =>
              have hlearned : s.openStream text id faults
                  (Except.error (TransportError.terminal state)) =
                    (Except.error (TransportError.terminal state),
                      s.recordTerminalError text id faults state) := by
                unfold WatchedNode.openStream
                rw [hdead]
              unfold WatchedNode.refresh
              rw [hlearned]
              refine (recordTerminalError_iff hold state).trans ?_
              constructor
              · intro h hun
                cases hun with
                | terminalUntold _ _ hwrite hread hnews => exact hnews (h hwrite hread)
              · intro h hwrite hread
                by_contra hnews
                exact h (Unfaithful.terminalUntold state answer hwrite hread hnews)
          | transient =>
              have hclosed : s.openStream text id faults (Except.error TransportError.transient) =
                  (Except.error TransportError.transient, s) := by
                unfold WatchedNode.openStream
                rw [hdead]
              unfold WatchedNode.refresh
              rw [hclosed]
              refine iff_of_true (faithful_of_same rfl rfl) ?_
              intro h
              cases h

end

/-!
## Where nothing fails
-/

section
variable {text : JsonText} {id : Int} {s : WatchedNode} {share : Share} {hash : Option UInt64}

end

/-!
## An outdated share whose info is refused
-/

/-- A share the host has turned this device away from. -/
def outdatedFamily : WatchedNode where
  db := {
    shares := SerialTable.empty.insert { ShareRow.new firstShare 0 with
      displayName := some "Family"
      hostname := some "family"
      transport := Transport.iroh.asStr
      complete := some true
      outdated := true }
    apps := [] }
  dead := none
  told := []

/-- Share info with an app id in it twice. -/
def photosTwice : ShareInfo :=
  let photos : Wire.SharedApp :=
    ⟨"photos", "Photos", Wire.AppKind.web, Wire.AppProxyMode.reverseProxy, none, []⟩
  { familyInfo with apps := [photos, photos] }

/-- The refresh fails, and still the share is live now, which nobody is told. -/
theorem outdated_mark_lost :
    (outdatedFamily.db.readShare Json.compact 1).map Share.state = some ShareState.outdated ∧
      (outdatedFamily.refresh Json.compact 1 StoreFaults.none (Except.ok ())
        fun _ => Fetched.info photosTwice).1 = NodeRefresh.transient ∧
      ((outdatedFamily.refresh Json.compact 1 StoreFaults.none (Except.ok ())
        fun _ => Fetched.info photosTwice).2.db.readShare Json.compact 1).map Share.state =
          some ShareState.live ∧
      (outdatedFamily.refresh Json.compact 1 StoreFaults.none (Except.ok ())
        fun _ => Fetched.info photosTwice).2.told = [] ∧
      ¬ Faithful Json.compact 1 outdatedFamily
        (outdatedFamily.refresh Json.compact 1 StoreFaults.none (Except.ok ())
          fun _ => Fetched.info photosTwice) := by
  have hstate : (outdatedFamily.db.readShare Json.compact 1).map Share.state =
      some ShareState.outdated := by decide +kernel
  have hnow : ((outdatedFamily.refresh Json.compact 1 StoreFaults.none (Except.ok ())
      fun _ => Fetched.info photosTwice).2.db.readShare Json.compact 1).map Share.state =
        some ShareState.live := by decide +kernel
  have htransient : (outdatedFamily.refresh Json.compact 1 StoreFaults.none (Except.ok ())
      fun _ => Fetched.info photosTwice).1 = NodeRefresh.transient := by decide +kernel
  refine ⟨hstate, htransient, hnow, by decide +kernel, ?_⟩
  intro h
  rw [(h.unchanged htransient).left, hstate] at hnow
  cases hnow

theorem refresh_faithful_for_family :
    Faithful Json.compact 1 outdatedFamily
      (outdatedFamily.refresh Json.compact 1 StoreFaults.none (Except.ok ())
        fun _ => Fetched.info familyInfo) := by
  have hold : exists share, outdatedFamily.db.readShare Json.compact 1 = some share :=
    Option.isSome_iff_exists.mp (by decide +kernel)
  rcases hold with ⟨share, hold⟩
  refine (refresh_faithful_iff Json.compact 1 StoreFaults.none outdatedFamily share none hold
    (by decide +kernel) (Except.ok ()) _).mpr ?_
  intro _ h
  cases h with
  | markUntold _ _ hother | unchanged _ _ hother => cases hother
  | info _ _ _ hsame _ hfails =>
      cases hsame
      cases hfails with
      | infoRefused _ hrefused _ => exact hrefused ⟨rfl, by decide⟩
      | infoUntold _ _ hread _ => cases hread

end Guest
end WispersAccess
