import WispersAccess.Foundation.CompactJson
import WispersAccess.Foundation.Slots
import WispersAccess.Guest.LabelRuns

/-!
# Looking shares up

A share is looked up by its label or by its share id, in one query.  Each column
is unique, but a label may be the text of another row's share id, and then the
query may return either.  As long as no label is chosen like that, every complete
row is found under both of its names.
-/

namespace WispersAccess
namespace Guest

open Foundation
open Wire (ShareInfo)

section
variable {text : JsonText}

/-!
## Rows apart
-/

/-- Share ids and labels are each one row's, and no label is another row's share id. -/
structure LabelsApart (db : DB) : Prop extends LabelsDistinct db where
  apart : forall i j r r', db.row i = some r -> db.row j = some r' ->
    r.hostname = some r'.shareId.text -> i = j

/-- The share id minted is no row's label, and the first free label of a row is not another
row's share id. -/
def ApartOp (db : DB) : StoreOp -> Prop
  | StoreOp.newRow shareId _ => forall j r, db.row j = some r -> r.hostname ≠ some shareId.text
  | StoreOp.writeDedupedHostname id hostname =>
      forall n, n ≤ db.shares.rows.length + 1 -> db.firstFree id hostname n = true ->
        forall j r, db.row j = some r -> j ≠ id -> r.shareId.text ≠ candidate hostname n
  | _ => True

/-- A property of all rows is one of the rows there are. -/
instance decidableForallRows (db : DB) (p : Int -> ShareRow -> Prop)
    [forall j r, Decidable (p j r)] : Decidable (forall j r, db.row j = some r -> p j r) :=
  decidable_of_iff (forall e, e ∈ db.shares.rows -> p e.1 e.2)
    ⟨fun h j r hr => h (j, r) (SerialTable.lookup_eq_some_iff.mp hr),
      fun h e he => h e.1 e.2 (SerialTable.lookup_eq_some_iff.mpr he)⟩

instance decidableApartOp (db : DB) : (op : StoreOp) -> Decidable (ApartOp db op)
  | StoreOp.newRow shareId _ =>
      inferInstanceAs (Decidable (forall j r, db.row j = some r ->
        r.hostname ≠ some shareId.text))
  | StoreOp.writeDedupedHostname id hostname =>
      decidable_of_iff (forall n, n < db.shares.rows.length + 2 ->
          db.firstFree id hostname n = true ->
            forall j r, db.row j = some r -> j ≠ id -> r.shareId.text ≠ candidate hostname n)
        ⟨fun h n hn => h n (Nat.lt_succ_of_le hn), fun h n hn => h n (Nat.le_of_lt_succ hn)⟩
  | StoreOp.writeDisplayName _ _ => isTrue trivial
  | StoreOp.writeWispersConnectBackend _ _ => isTrue trivial
  | StoreOp.writeIrohEndpointId _ _ => isTrue trivial
  | StoreOp.writeShareInfo _ _ => isTrue trivial
  | StoreOp.markComplete _ => isTrue trivial
  | StoreOp.writeTerminalState _ _ => isTrue trivial
  | StoreOp.writeOutdated _ _ => isTrue trivial
  | StoreOp.deleteRow _ => isTrue trivial
  | StoreOp.reopen => isTrue trivial

theorem labelsApart_empty : LabelsApart DB.empty where
  toLabelsDistinct := labelsDistinct_empty
  apart := by
    intro i j r r' hr
    cases hr

theorem storeStep_apart {db db' : DB} {op : StoreOp} (hinv : LabelsApart db)
    (hop : ApartOp db op) (h : storeStep text db op = some db') : LabelsApart db' := by
  refine ⟨storeStep_distinct hinv.toLabelsDistinct h, ?_⟩
  intro i j q q' hq hq' hlabel
  rcases storeStep_label h hq hlabel with ⟨r, hr, -, hold | ⟨hostname, rfl, hclaims⟩⟩
  · rcases storeStep_shareId h hq' with ⟨now, rfl, -⟩ | ⟨r', hr', hshare'⟩
    · exact absurd hold (hop i r hr)
    · rw [hshare'] at hold
      exact hinv.apart i j r r' hr hr' hold
  · rcases storeStep_shareId h hq' with ⟨now, hnew, -⟩ | ⟨r', hr', hshare'⟩
    · cases hnew
    · by_cases hij : j = i
      · exact hij.symm
      · rcases hclaims.source with hown | ⟨n, hn, hfirst, hcandidate⟩
        · -- the fallback is the row's own share id
          rw [hshare'] at hown
          exact hinv.shares i j r r' hr hr' (ShareId.text_injective hown.symm)
        · rw [hshare'] at hcandidate
          exact absurd hcandidate (hop n hn hfirst j r' hr' hij)

/-!
## Labels of completed joins
-/

/-- Where a row comes from, and that a label once claimed is not lost. -/
theorem storeStep_labelled {db db' : DB} {op : StoreOp} (h : storeStep text db op = some db')
    {id : Int} {r' : ShareRow} (hr' : db'.row id = some r') :
    (id = db.shares.nextId ∧ r'.complete = none) ∨
      exists r, db.row id = some r ∧ (r.hostname.isSome = true -> r'.hostname.isSome = true) ∧
        r'.complete = if op = StoreOp.markComplete id then some true else r.complete := by
  rcases storeStep_origin h hr' with ⟨shareId, now, -, hid, rfl⟩ | ⟨r, hr, -, hkept⟩
  · exact Or.inl ⟨hid, rfl⟩
  · refine Or.inr ⟨r, hr, ?_, hkept.complete⟩
    intro hlabel
    by_cases hop : exists hostname, op = StoreOp.writeDedupedHostname id hostname
    · rcases hop with ⟨hostname, rfl⟩
      rcases Option.map_eq_some_iff.mp h with ⟨⟨next, label⟩, hwrite, rfl⟩
      rcases DB.writeDedupedHostname_some hwrite with ⟨-, -, rfl, -⟩
      rw [DB.row_updateShare_self hr] at hr'
      rw [← Option.some.inj hr']
      rfl
    · rw [hkept.hostname fun hostname heq => hop ⟨hostname, heq⟩]
      exact hlabel

/-- A call completes its row only once it has labelled it. -/
theorem callStep_marks {slug : Slugify} {db db' : DB} {secrets secrets' : List Secret} {c : Call}
    {phase : Phase} {event : Event} {id : Int}
    (h : callStep text slug db secrets c event = some (db', secrets', phase))
    (hop : callOp slug c event = some (StoreOp.markComplete id)) :
    c.row = id ∧ c.phase = Phase.labelled := by
  cases event with
  | markComplete =>
      cases hop
      simp only [callStep] at h
      split at h
      · exact ⟨rfl, by assumption⟩
      · cases h
  | writeBackend =>
      simp only [callOp] at hop
      split at hop
      all_goals cases hop
  | writeShareInfo =>
      simp only [callOp] at hop
      split at hop
      all_goals cases hop
  | writeDisplayName =>
      simp only [callOp] at hop
      split at hop
      all_goals cases hop
  | writeDedupedHostname =>
      simp only [callOp] at hop
      split at hop
      all_goals cases hop
  | _ => cases hop

/-- A call that comes to have labelled its row has just done so. -/
theorem callStep_labelled {slug : Slugify} {db db' : DB} {secrets secrets' : List Secret}
    {c : Call} {event : Event}
    (h : callStep text slug db secrets c event = some (db', secrets', Phase.labelled)) :
    exists hostname label, db.writeDedupedHostname c.row hostname = some (db', label) := by
  cases event with
  | writeDedupedHostname =>
      simp only [callStep] at h
      split at h
      · rcases Option.map_eq_some_iff.mp h with ⟨⟨next, label⟩, hwrite, heq⟩
        cases heq
        exact ⟨_, label, hwrite⟩
      · cases h
  | writeShareInfo =>
      simp only [callStep] at h
      split at h
      · rcases Option.bind_eq_some_iff.mp h with ⟨share, -, hwrite⟩
        rcases Option.map_eq_some_iff.mp hwrite with ⟨next, -, heq⟩
        cases heq
      · cases h
  | saveIrohSecret _ | register | readShare | forget | logout =>
      simp only [callStep] at h
      split at h
      all_goals simp at h
  | _ =>
      simp only [callStep] at h
      split at h
      all_goals cases h

end

/-!
## The device
-/

/-- What every write of a step has to meet. -/
def Apart (slug : Slugify) (s : Device) (a : DeviceAction) : Prop :=
  forall op, deviceOp slug s a = some op -> ApartOp s.db op

instance decidableApart (slug : Slugify) (s : Device) (a : DeviceAction) :
    Decidable (Apart slug s a) :=
  match hop : deviceOp slug s a with
  | none => isTrue fun _ heq => absurd (hop.symm.trans heq) nofun
  | some op =>
      decidable_of_iff (ApartOp s.db op)
        ⟨fun h _ heq => Option.some.inj (hop.symm.trans heq) ▸ h, fun h => h op hop⟩

/-- What holds in every run whose writes keep labels apart. -/
structure Addressed (s : Device) : Prop where
  apart : LabelsApart s.db
  known : forall (i : Nat) (c : Call), s.calls[i]? = some c -> c.row < s.db.shares.nextId
  labelled : forall (i : Nat) (c : Call), s.calls[i]? = some c -> c.phase = Phase.labelled ->
    forall r, s.db.row c.row = some r -> r.hostname.isSome = true
  complete : forall id r, s.db.row id = some r -> r.complete = some true ->
    r.hostname.isSome = true

theorem addressed_start : Addressed Device.start where
  apart := labelsApart_empty
  known := by
    intro i c hc
    cases hc
  labelled := by
    intro i c hc
    cases hc
  complete := by
    intro id r hr
    cases hr

section
variable {text : JsonText} {slug : Slugify}

theorem writeStep_apart {db db' : DB} {op : Option StoreOp} (hinv : LabelsApart db)
    (hop : forall o, op = some o -> ApartOp db o) (h : writeStep text db op = some db') :
    LabelsApart db' := by
  cases op with
  | none =>
      cases h
      exact hinv
  | some op => exact storeStep_apart hinv (hop op rfl) h

theorem writeStep_nextId_le {db db' : DB} {op : Option StoreOp}
    (h : writeStep text db op = some db') : db.shares.nextId ≤ db'.shares.nextId := by
  cases op with
  | none =>
      cases h
      exact Int.le_refl _
  | some op => exact storeStep_nextId_le h

theorem writeStep_labelled {db db' : DB} {op : Option StoreOp}
    (h : writeStep text db op = some db') {id : Int} {r' : ShareRow}
    (hr' : db'.row id = some r') :
    (id = db.shares.nextId ∧ r'.complete = none) ∨
      exists r, db.row id = some r ∧ (r.hostname.isSome = true -> r'.hostname.isSome = true) ∧
        r'.complete = if op = some (StoreOp.markComplete id) then some true else r.complete := by
  cases op with
  | none =>
      cases h
      exact Or.inr ⟨r', hr', fun hlabel => hlabel, by simp⟩
  | some op => simpa using storeStep_labelled h hr'

/-- Calls after a step: those before, moved or not, and one that has just begun. -/
theorem deviceStep_calls {s t : Device} {a : DeviceAction} (h : deviceStep text slug s a = some t)
    {i : Nat} {d : Call} (hd : t.calls[i]? = some d) :
    (exists c, s.calls[i]? = some c ∧ d.row = c.row ∧
        (d.phase = c.phase ∨ exists event secrets', a = DeviceAction.call i event ∧
          callStep text slug s.db s.secrets c event = some (t.db, secrets', d.phase))) ∨
      (d.row < t.db.shares.nextId ∧ d.phase ≠ Phase.labelled) := by
  have hbegun : forall {c : Call}, (s.calls ++ [c])[i]? = some d ->
      s.calls[i]? = some d ∨ d = c := by
    intro c hd
    rcases slot_append_eq_some_iff.mp hd with hd | ⟨-, rfl⟩
    · exact Or.inl hd
    · exact Or.inr rfl
  cases a with
  | joinIroh shareId now =>
      rcases Option.map_eq_some_iff.mp h with ⟨⟨db', id⟩, hnew, rfl⟩
      rcases hbegun hd with hd | rfl
      · exact Or.inl ⟨d, hd, rfl, Or.inl rfl⟩
      · rcases DB.newRow_eq_some_iff.mp hnew with ⟨-, rfl, rfl⟩
        exact Or.inr ⟨Int.lt_succ _, nofun⟩
  | joinWispersConnect shareId now backend =>
      rcases Option.map_eq_some_iff.mp h with ⟨⟨db', id⟩, hnew, rfl⟩
      rcases hbegun hd with hd | rfl
      · exact Or.inl ⟨d, hd, rfl, Or.inl rfl⟩
      · rcases DB.newRow_eq_some_iff.mp hnew with ⟨-, rfl, rfl⟩
        exact Or.inr ⟨Int.lt_succ _, nofun⟩
  | leave order key =>
      rcases Option.bind_eq_some_iff.mp h with ⟨found, hfound, hread⟩
      rcases Option.map_eq_some_iff.mp hread with ⟨transport, -, rfl⟩
      rcases hbegun hd with hd | rfl
      · exact Or.inl ⟨d, hd, rfl, Or.inl rfl⟩
      · exact Or.inr ⟨SerialTable.lt_nextId_of_lookup (SerialTable.findRow_some hfound).left, nofun⟩
  | call j event =>
      rcases Option.bind_eq_some_iff.mp h with ⟨c, hc, hstep⟩
      rcases Option.map_eq_some_iff.mp hstep with ⟨⟨db', secrets', phase⟩, hcall, rfl⟩
      rcases (slot_set_eq_some_iff hc).mp hd with ⟨rfl, rfl⟩ | ⟨-, hd⟩
      · exact Or.inl ⟨c, hc, rfl, Or.inr ⟨event, secrets', rfl, hcall⟩⟩
      · exact Or.inl ⟨d, hd, rfl, Or.inl rfl⟩
  | refresh op =>
      simp only [deviceStep] at h
      split at h
      · rcases Option.map_eq_some_iff.mp h with ⟨db', -, rfl⟩
        exact Or.inl ⟨d, hd, rfl, Or.inl rfl⟩
      · cases h
  | restart =>
      cases h
      cases hd

/-- A step completes the row of a call that has labelled it. -/
theorem deviceStep_marks {s t : Device} {a : DeviceAction} {id : Int}
    (h : deviceStep text slug s a = some t)
    (hop : deviceOp slug s a = some (StoreOp.markComplete id)) :
    exists (i : Nat) (c : Call), s.calls[i]? = some c ∧ c.row = id ∧
      c.phase = Phase.labelled := by
  cases a with
  | call i event =>
      rcases Option.bind_eq_some_iff.mp h with ⟨c, hc, hstep⟩
      rcases Option.map_eq_some_iff.mp hstep with ⟨⟨db', secrets', phase⟩, hcall, rfl⟩
      simp only [deviceOp] at hop
      rw [hc, Option.bind_some] at hop
      exact ⟨i, c, hc, callStep_marks hcall hop⟩
  | refresh op =>
      cases hop
      cases h
  | _ => cases hop

theorem deviceStep_addressed {s t : Device} {a : DeviceAction} (hs : Addressed s)
    (hapart : Apart slug s a) (h : deviceStep text slug s a = some t) : Addressed t := by
  have hwrite := deviceStep_db h
  have hnext := writeStep_nextId_le hwrite
  refine ⟨writeStep_apart hs.apart hapart hwrite, ?_, ?_, ?_⟩
  · intro i d hd
    rcases deviceStep_calls h hd with ⟨c, hc, hrow, -⟩ | ⟨hknown, -⟩
    · have hknown := hs.known i c hc
      omega
    · exact hknown
  · intro i d hd hphase r' hr'
    rcases deviceStep_calls h hd with ⟨c, hc, hrow, hsame | ⟨event, secrets', rfl, hcall⟩⟩ |
      ⟨-, hnew⟩
    · rcases writeStep_labelled hwrite hr' with ⟨hid, -⟩ | ⟨r, hr, hkept, -⟩
      · have hknown := hs.known i c hc
        omega
      · rw [hrow] at hr
        exact hkept (hs.labelled i c hc (hsame ▸ hphase) r hr)
    · rw [hphase] at hcall
      rcases callStep_labelled hcall with ⟨hostname, label, hclaim⟩
      rcases DB.writeDedupedHostname_some hclaim with ⟨r, hr, hdb, -⟩
      rw [hrow, hdb, DB.row_updateShare_self hr] at hr'
      rw [← Option.some.inj hr']
      rfl
    · exact absurd hphase hnew
  · intro id r' hr' hcomplete
    rcases writeStep_labelled hwrite hr' with ⟨-, hnone⟩ | ⟨r, hr, hkept, hmark⟩
    · rw [hnone] at hcomplete
      cases hcomplete
    · refine hkept ?_
      by_cases hop : deviceOp slug s a = some (StoreOp.markComplete id)
      · rcases deviceStep_marks h hop with ⟨i, c, hc, rfl, hphase⟩
        exact hs.labelled i c hc hphase r hr
      · rw [if_neg hop] at hmark
        exact hs.complete id r hr (hmark ▸ hcomplete)

theorem run_addressed {s : Device} {acts : List DeviceAction}
    (hrun : Run (deviceStep text slug) Device.start acts s)
    (hapart : Meets (deviceStep text slug) (Apart slug) Device.start acts) : Addressed s :=
  hrun.invariant_of_meets (fun _ _ _ hs hop h => deviceStep_addressed hs hop h) hapart
    addressed_start

/-!
## What lookups find
-/

/-- Complete rows are found by both of their names, and a label can always be claimed. -/
structure Addressable (db : DB) : Prop where
  found : forall id r, db.row id = some r -> r.complete = some true ->
    exists label, r.hostname = some label ∧ forall order,
      db.findRow order label = some (id, r) ∧ db.findRow order r.shareId.text = some (id, r)
  short : forall id r label, db.row id = some r -> r.hostname = some label -> byteLen label ≤ 63
  different : forall i j r r' label, db.row i = some r -> db.row j = some r' ->
    r.hostname = some label -> r'.hostname = some label -> i = j
  claims : forall id r hostname, db.row id = some r ->
    exists db' label, db.writeDedupedHostname id hostname = some (db', label)

/-- Where rows are apart, a name of a complete row is no other row's. -/
theorem LabelsApart.findRow {db : DB} (h : LabelsApart db) {id : Int} {r : ShareRow}
    {key : String} (hr : db.row id = some r) (hcomplete : r.complete = some true)
    (hkey : r.hostname = some key ∨ r.shareId.text = key)
    (order : SerialTable.QueryOrder ShareRow) : db.findRow order key = some (id, r) := by
  refine SerialTable.findRow_eq_some_of_unique hr (DB.matchesKey_iff.mpr ⟨hcomplete, hkey⟩) ?_
  intro j q hq hmatches
  rcases hkey with hlabel | htext
  · rcases (DB.matchesKey_iff.mp hmatches).right with hlabel' | htext'
    · exact h.labels j id q r key hq hr hlabel' hlabel
    · exact (h.apart id j r q hr hq (htext' ▸ hlabel)).symm
  · rcases (DB.matchesKey_iff.mp hmatches).right with hlabel' | htext'
    · exact h.apart j id q r hq hr (htext ▸ hlabel')
    · exact h.shares j id q r hq hr (ShareId.text_injective (htext'.trans htext.symm))

/-- No complete row but the share's own has the share's id as its label. -/
def DB.NamedAlone (db : DB) (share : ShareId) : Prop :=
  forall id r, db.row id = some r -> r.complete = some true ->
    r.hostname = some share.text -> r.shareId = share

instance (db : DB) (share : ShareId) : Decidable (db.NamedAlone share) :=
  decidableForallRows db _

/-- Then a query for the share's id finds its own row. -/
theorem DB.NamedAlone.findRow {db : DB} {share : ShareId} (h : db.NamedAlone share)
    {order : SerialTable.QueryOrder ShareRow} {id : Int} {r : ShareRow}
    (hfind : db.findRow order share.text = some (id, r)) : r.shareId = share := by
  rcases SerialTable.findRow_some hfind with ⟨hr, hmatches⟩
  rcases DB.matchesKey_iff.mp hmatches with ⟨hcomplete, hlabel | htext⟩
  · exact h id r hr hcomplete hlabel
  · exact ShareId.text_injective htext

theorem LabelsApart.claims {db : DB} (h : LabelsApart db) {id : Int} {r : ShareRow}
    (hr : db.row id = some r) (hostname : String) :
    exists db' label, db.writeDedupedHostname id hostname = some (db', label) := by
  refine DB.exists_writeDedupedHostname hr ?_ hostname
  intro j q hq hj hlabel
  exact hj (h.apart j id q r hq hr hlabel)

/-- As long as no label is another row's share id, labels and share ids name one share each. -/
theorem device_addressable {s : Device} {acts : List DeviceAction}
    (hrun : Run (deviceStep text slug) Device.start acts s)
    (hapart : Meets (deviceStep text slug) (Apart slug) Device.start acts) :
    Addressable s.db := by
  have hs := run_addressed hrun hapart
  refine ⟨?_, fun _ _ _ hr hlabel => ((run_labels hrun).fit _ _ _ hr hlabel).short,
    hs.apart.labels, fun _ _ hostname hr => hs.apart.claims hr hostname⟩
  intro id r hr hcomplete
  rcases Option.isSome_iff_exists.mp (hs.complete id r hr hcomplete) with ⟨label, hlabel⟩
  refine ⟨label, hlabel, fun order => ⟨?_, ?_⟩⟩
  · exact hs.apart.findRow hr hcomplete (Or.inl hlabel) order
  · exact hs.apart.findRow hr hcomplete (Or.inr rfl) order

end

/-!
## A share named like another's id
-/

/-- A join over iroh that succeeds, as the i-th call. -/
def wholeJoin (i : Nat) (shareId : ShareId) (info : ShareInfo) : List DeviceAction :=
  DeviceAction.joinIroh shareId 0 ::
    [Event.activate info, Event.writeIrohEndpointId "host", Event.saveIrohSecret [1, 2, 3],
      Event.writeShareInfo, Event.writeDisplayName, Event.writeDedupedHostname,
      Event.markComplete, Event.readShare].map (DeviceAction.call i)

/-- The second host calls its share what the first share's id is. -/
def impostorInfo : ShareInfo :=
  { familyInfo with name := firstShare.text }

def impostorJoined : List DeviceAction :=
  wholeJoin 0 firstShare familyInfo ++ wholeJoin 1 secondShare impostorInfo

/-- The second share gets the first one's id as its label, so that the query for it may return
the second. -/
theorem impostor_found_by_share_id :
    exists s r r', Run (deviceStep Json.compact Slugify.ascii) Device.start impostorJoined s ∧
      s.db.row 1 = some r ∧ r.shareId = firstShare ∧ r.complete = some true ∧
      s.db.row 2 = some r' ∧ r'.hostname = some firstShare.text ∧
      s.db.findRow SerialTable.QueryOrder.byIdDescending firstShare.text = some (2, r') ∧
      ¬ Addressable s.db := by
  have hend : ((exec (deviceStep Json.compact Slugify.ascii) Device.start impostorJoined).map
      fun s => ((s.db.row 1).map fun r => (r.shareId, r.complete),
        (s.db.row 2).map fun r => r.hostname,
        (s.db.findRow SerialTable.QueryOrder.byIdDescending firstShare.text).map Prod.fst)) =
      some (some (firstShare, some true), some (some firstShare.text), some 2) := by
    decide +kernel
  rcases Option.map_eq_some_iff.mp hend with ⟨s, hs, heq⟩
  simp only [Prod.mk.injEq] at heq
  rcases heq with ⟨hfirst, hsecond, hfound⟩
  rcases Option.map_eq_some_iff.mp hfirst with ⟨r, hr, hcolumns⟩
  rcases Option.map_eq_some_iff.mp hsecond with ⟨r', hr', hlabel⟩
  rcases Option.map_eq_some_iff.mp hfound with ⟨⟨id, q⟩, hq, rfl⟩
  have hrow : s.db.row 2 = some q := (SerialTable.findRow_some hq).left
  rw [hr'] at hrow
  cases hrow
  rcases Prod.mk.inj hcolumns with ⟨hshare, hcomplete⟩
  refine ⟨s, r, r', run_iff_exec.mpr hs, hr, hshare, hcomplete, hr', hlabel, hq, ?_⟩
  intro haddressable
  rcases haddressable.found 1 r hr hcomplete with ⟨label, -, hfind⟩
  have hother := (hfind SerialTable.QueryOrder.byIdDescending).right
  rw [hshare, hq] at hother
  cases hother

/-- Two shares of one name. -/
theorem device_addressable_for_families :
    exists s, Run (deviceStep Json.compact Slugify.ascii) Device.start
        (wholeJoin 0 firstShare familyInfo ++ wholeJoin 1 secondShare familyInfo) s ∧
      Addressable s.db := by
  have hsome : (exec (deviceStep Json.compact Slugify.ascii) Device.start
      (wholeJoin 0 firstShare familyInfo ++ wholeJoin 1 secondShare familyInfo)).isSome = true := by
    decide +kernel
  rcases Option.isSome_iff_exists.mp hsome with ⟨s, hs⟩
  have hrun := run_iff_exec.mpr hs
  exact ⟨s, hrun, device_addressable hrun (by decide +kernel)⟩

end Guest
end WispersAccess
