import WispersAccess.Guest.CallEffects
import WispersAccess.Guest.ClientRuns

/-!
# The hosts of joined shares

A join writes down its host before it marks its row complete, and nothing else
writes to the row meanwhile.  A complete row therefore keeps the host that its
share was joined with, and so does every guest node that was restored from it.
-/

namespace WispersAccess
namespace Guest

open Foundation

/-!
## Joins that are pending
-/

/-- Every row has one pending join at most, and is not complete before that is done. -/
structure Device.OneJoin (s : Device) : Prop where
  known : forall (i : Nat) (c : Call), s.calls[i]? = some c -> c.row < s.db.shares.nextId
  single : forall (i j : Nat) (c d : Call), s.calls[i]? = some c -> s.calls[j]? = some d ->
    c.phase.pending = true -> d.phase.pending = true -> c.row = d.row -> i = j
  incomplete : forall (i : Nat) (c : Call), s.calls[i]? = some c -> c.phase.pending = true ->
    forall r, s.db.row c.row = some r -> r.complete ≠ some true

section
variable {text : JsonText} {slug : Slugify}

/-- A call that is pending after an event was so before. -/
theorem callStep_pending {db db' : DB} {secrets secrets' : List Secret} {c : Call} {phase : Phase}
    {event : Event} (h : callStep text slug db secrets c event = some (db', secrets', phase))
    (hpending : phase.pending = true) : c.phase.pending = true := by
  rcases c with ⟨row, current⟩
  cases event with
  | writeShareInfo =>
      simp only [callStep] at h
      split at h
      · rfl
      · cases h
  | fail =>
      simp only [callStep] at h
      split at h
      · cases h
        cases hpending
      · cases h
  | logout =>
      simp only [callStep] at h
      split at h
      · rfl
      · rcases Option.map_eq_some_iff.mp h with ⟨share, -, heq⟩
        cases heq
        cases hpending
      · cases h
  | readShare | forget =>
      simp only [callStep] at h
      split at h
      · rcases Option.map_eq_some_iff.mp h with ⟨share, -, heq⟩
        cases heq
        cases hpending
      · cases h
  | abandon =>
      simp only [callStep] at h
      split at h
      · rfl
      · rfl
      · cases h
  | forgetFails | markComplete =>
      simp only [callStep] at h
      split at h
      · cases h
        cases hpending
      · cases h
  | deleteRow =>
      simp only [callStep] at h
      split at h
      · cases h
        cases hpending
      · cases h
        cases hpending
      · cases h
  | _ =>
      simp only [callStep] at h
      split at h
      · rfl
      · cases h

/-- A call that completes its row is pending no longer. -/
theorem callStep_completes {db db' : DB} {secrets secrets' : List Secret} {c : Call}
    {phase : Phase} {event : Event} {id : Int}
    (h : callStep text slug db secrets c event = some (db', secrets', phase))
    (hop : callOp slug c event = some (StoreOp.markComplete id)) :
    c.row = id ∧ c.phase.pending = true ∧ phase = Phase.marked := by
  rcases callStep_marks h hop with ⟨hrow, hphase⟩
  refine ⟨hrow, by rw [hphase]; rfl, ?_⟩
  rcases c with ⟨row, current⟩
  cases hphase
  cases event with
  | markComplete =>
      cases h
      rfl
  | writeIrohEndpointId | deleteRow => cases hop
  | _ => cases hop

end

/-!
## Steps of the device
-/

theorem oneJoin_start {device : Device} (hcalls : device.calls = []) : device.OneJoin where
  known := by
    intro i c hc
    rw [hcalls] at hc
    cases hc
  single := by
    intro i j c d hc
    rw [hcalls] at hc
    cases hc
  incomplete := by
    intro i c hc
    rw [hcalls] at hc
    cases hc

/-- What a step leaves of the rows: a complete row stays complete, and keeps its host. -/
def HostsKept (db db' : DB) : Prop :=
  forall id r', db'.row id = some r' -> id < db.shares.nextId -> exists r, db.row id = some r ∧
    (r.complete = some true -> r'.complete = some true ∧ r'.hostColumns = r.hostColumns)

theorem HostsKept.refl (db : DB) : HostsKept db db :=
  fun _ r' hr' _ => ⟨r', hr', fun hcomplete => ⟨hcomplete, rfl⟩⟩

section
variable {text : JsonText} {slug : Slugify} {s t : Device} {a : DeviceAction}

/-- A row that is complete after a step was so before, or has just been completed. -/
theorem deviceStep_complete (h : deviceStep text slug s a = some t) {id : Int} {r' : ShareRow}
    (hr' : t.db.row id = some r') (hcomplete : r'.complete = some true) :
    (exists r, s.db.row id = some r ∧ r.complete = some true) ∨
      deviceOp slug s a = some (StoreOp.markComplete id) := by
  rcases writeStep_labelled (deviceStep_db h) hr' with ⟨-, hnone⟩ | ⟨r, hr, -, hmark⟩
  · rw [hnone] at hcomplete
    cases hcomplete
  · by_cases hop : deviceOp slug s a = some (StoreOp.markComplete id)
    · exact Or.inr hop
    · rw [if_neg hop] at hmark
      exact Or.inl ⟨r, hr, hmark ▸ hcomplete⟩

/-- A join begins with a row of its own. -/
theorem Device.OneJoin.begin (hs : s.OneJoin) {share : ShareId} {now row : Int} {db : DB}
    (hnew : s.db.newRow share now = some (db, row)) (phase : Phase) :
    (s.begin db row phase).OneJoin := by
  have hrows := DB.row_newRow hnew
  rcases DB.newRow_eq_some_iff.mp hnew with ⟨-, rfl, rfl⟩
  have hold : forall (i : Nat) (c : Call), s.calls[i]? = some c -> c.row ≠ s.db.shares.nextId := by
    intro i c hc
    exact Int.ne_of_lt (hs.known i c hc)
  refine ⟨?_, ?_, ?_⟩
  · intro i c hc
    show c.row < s.db.shares.nextId + 1
    rcases slot_append_eq_some_iff.mp hc with hc | ⟨-, rfl⟩
    · have hlt := hs.known i c hc
      omega
    · exact Int.lt_succ _
  · intro i j c d hc hd hpending hpending' hrow
    rcases slot_append_eq_some_iff.mp hc with hc | ⟨rfl, rfl⟩
    · rcases slot_append_eq_some_iff.mp hd with hd | ⟨rfl, rfl⟩
      · exact hs.single i j c d hc hd hpending hpending' hrow
      · exact absurd hrow (hold i c hc)
    · rcases slot_append_eq_some_iff.mp hd with hd | ⟨rfl, rfl⟩
      · exact absurd hrow.symm (hold j d hd)
      · rfl
  · intro i c hc hpending r hr
    rcases (hrows c.row r).mp hr with hr | ⟨-, rfl⟩
    · rcases slot_append_eq_some_iff.mp hc with hc | ⟨rfl, rfl⟩
      · exact hs.incomplete i c hc hpending r hr
      · exact absurd rfl (SerialTable.ne_nextId_of_lookup hr)
    · exact nofun

/-- A leave is no pending join. -/
theorem Device.OneJoin.begin_leave (hs : s.OneJoin) {row : Int} (hrow : row < s.db.shares.nextId)
    (transport : Transport) : (s.begin s.db row (Phase.leaving transport false)).OneJoin := by
  refine ⟨?_, ?_, ?_⟩
  · intro i c hc
    rcases slot_append_eq_some_iff.mp hc with hc | ⟨-, rfl⟩
    · exact hs.known i c hc
    · exact hrow
  · intro i j c d hc hd hpending hpending'
    rcases slot_append_eq_some_iff.mp hc with hc | ⟨-, rfl⟩
    · rcases slot_append_eq_some_iff.mp hd with hd | ⟨-, rfl⟩
      · exact hs.single i j c d hc hd hpending hpending'
      · cases hpending'
    · cases hpending
  · intro i c hc hpending
    rcases slot_append_eq_some_iff.mp hc with hc | ⟨-, rfl⟩
    · exact hs.incomplete i c hc hpending
    · cases hpending

/-- A write of a refresh, which completes no row. -/
theorem Device.OneJoin.same_calls (hs : s.OneJoin) (hcalls : t.calls = s.calls)
    (hnext : s.db.shares.nextId ≤ t.db.shares.nextId)
    (hcomplete : forall id r', t.db.row id = some r' -> r'.complete = some true ->
      exists r, s.db.row id = some r ∧ r.complete = some true) : t.OneJoin := by
  refine ⟨?_, ?_, ?_⟩
  · intro i c hc
    have hlt := hs.known i c (hcalls ▸ hc)
    omega
  · intro i j c d hc hd
    exact hs.single i j c d (hcalls ▸ hc) (hcalls ▸ hd)
  · intro i c hc hpending r' hr' hdone
    rcases hcomplete c.row r' hr' hdone with ⟨r, hr, hdone⟩
    exact hs.incomplete i c (hcalls ▸ hc) hpending r hr hdone

theorem Device.OneJoin.call (hs : s.OneJoin) {i : Nat} {event : Event}
    (h : deviceStep text slug s (DeviceAction.call i event) = some t) : t.OneJoin := by
  have hstep := h
  rcases Option.bind_eq_some_iff.mp h with ⟨c, hc, hevent⟩
  rcases Option.map_eq_some_iff.mp hevent with ⟨⟨db, secrets, phase⟩, hcall, rfl⟩
  have hnext := writeStep_nextId_le (callStep_db hcall)
  -- a pending call was one before, in its place and with its row
  have hbefore : forall (j : Nat) (d : Call),
      (s.calls.set i { c with phase := phase })[j]? = some d ->
      d.phase.pending = true -> exists d', s.calls[j]? = some d' ∧ d'.row = d.row ∧
        d'.phase.pending = true := by
    intro j d hd hpending
    rcases (slot_set_eq_some_iff hc).mp hd with ⟨rfl, rfl⟩ | ⟨-, hd⟩
    · exact ⟨c, hc, rfl, callStep_pending hcall hpending⟩
    · exact ⟨d, hd, rfl, hpending⟩
  refine ⟨?_, ?_, ?_⟩
  · intro j d hd
    rcases (slot_set_eq_some_iff hc).mp hd with ⟨rfl, rfl⟩ | ⟨-, hd⟩
    · exact Int.lt_of_lt_of_le (hs.known j c hc) hnext
    · exact Int.lt_of_lt_of_le (hs.known j d hd) hnext
  · intro j k d e hd he hpending hpending' hrow
    rcases hbefore j d hd hpending with ⟨d', hd', hdrow, hdpending⟩
    rcases hbefore k e he hpending' with ⟨e', he', herow, hepending⟩
    exact hs.single j k d' e' hd' he' hdpending hepending (hdrow.trans (hrow.trans herow.symm))
  · intro j d hd hpending r' hr' hdone
    rcases hbefore j d hd hpending with ⟨d', hd', hdrow, hdpending⟩
    rcases deviceStep_complete hstep hr' hdone with ⟨r, hr, hdone⟩ | hop
    · exact hs.incomplete j d' hd' hdpending r (hdrow ▸ hr) hdone
    · have hop' : callOp slug c event = some (StoreOp.markComplete d.row) := by
        simp only [deviceOp] at hop
        rw [hc, Option.bind_some] at hop
        exact hop
      rcases callStep_completes hcall hop' with ⟨hrow, hcpending, rfl⟩
      have hsame := hs.single j i d' c hd' hc hdpending hcpending (hdrow.trans hrow.symm)
      subst hsame
      rw [slot_set_self hc] at hd
      cases hd
      cases hpending

theorem deviceStep_oneJoin (hs : s.OneJoin) (hown : a.isOwn = true)
    (h : deviceStep text slug s a = some t) : t.OneJoin := by
  have hstep := h
  cases a with
  | joinIroh share now =>
      rcases Option.map_eq_some_iff.mp h with ⟨⟨db, row⟩, hnew, rfl⟩
      exact hs.begin hnew _
  | joinWispersConnect share now backend =>
      rcases Option.map_eq_some_iff.mp h with ⟨⟨db, row⟩, hnew, rfl⟩
      exact hs.begin hnew _
  | call i event => exact hs.call h
  | refresh op =>
      simp only [deviceStep] at h
      split at h
      · rename_i hrefresh
        rcases Option.map_eq_some_iff.mp h with ⟨db, hwrite, rfl⟩
        refine hs.same_calls rfl (storeStep_nextId_le hwrite) ?_
        intro id r' hr' hdone
        rcases deviceStep_complete hstep hr' hdone with hbefore | hop
        · exact hbefore
        · cases hop
          cases hrefresh
      · cases h
  | leave | restart => cases hown

/-- Only a pending join writes to the columns of its host. -/
theorem deviceOp_leaves_host (hs : s.OneJoin) (h : deviceStep text slug s a = some t) {op : StoreOp}
    (hop : deviceOp slug s a = some op) {id : Int} {r : ShareRow} (hr : s.db.row id = some r)
    (hcomplete : r.complete = some true) : op.Leaves ShareRow.hostColumns id := by
  cases a with
  | call i event =>
      rcases Option.bind_eq_some_iff.mp h with ⟨c, hc, hstep⟩
      rcases Option.map_eq_some_iff.mp hstep with ⟨⟨db, secrets, phase⟩, hcall, rfl⟩
      simp only [deviceOp] at hop
      rw [hc, Option.bind_some] at hop
      have hdone : c.phase.pending = true -> c.row ≠ id := by
        intro hpending heq
        subst heq
        exact hs.incomplete i c hc hpending r hr hcomplete
      cases event with
      | writeIrohEndpointId host =>
          cases hop
          simp only [callStep] at hcall
          split at hcall
          · rename_i info hphase
            intro hrow
            exact absurd hrow (hdone (by rw [hphase]; rfl))
          · cases hcall
      | writeBackend =>
          simp only [callOp] at hop
          split at hop
          · rename_i share backend info hphase
            cases hop
            intro hrow
            exact absurd hrow (hdone (by rw [hphase]; rfl))
          · cases hop
      | writeShareInfo =>
          simp only [callOp] at hop
          split at hop
          · cases hop
            exact fun _ _ _ _ _ => rfl
          · cases hop
      | writeDisplayName =>
          simp only [callOp] at hop
          split at hop
          · cases hop
            exact fun _ _ => rfl
          · cases hop
      | writeDedupedHostname =>
          simp only [callOp] at hop
          split at hop
          · cases hop
            exact fun _ _ _ => rfl
          · cases hop
      | markComplete =>
          cases hop
          exact fun _ _ => rfl
      | deleteRow =>
          cases hop
          trivial
      | _ => cases hop
  | refresh op' =>
      cases hop
      cases op with
      | writeShareInfo => exact fun _ _ _ _ _ => rfl
      | writeTerminalState | writeOutdated => exact fun _ _ => rfl
      | _ => cases h
  | joinIroh | joinWispersConnect | restart =>
      cases hop
      trivial
  | leave => cases hop

theorem deviceStep_hostsKept (hs : s.OneJoin) (h : deviceStep text slug s a = some t) :
    HostsKept s.db t.db := by
  intro id r' hr' hid
  have hwrite := deviceStep_db h
  cases hop : deviceOp slug s a with
  | none =>
      rw [hop] at hwrite
      have hsame : s.db = t.db := Option.some.inj hwrite
      exact hsame ▸ HostsKept.refl s.db id r' (hsame ▸ hr') hid
  | some op =>
      rw [hop] at hwrite
      rcases storeStep_origin hwrite hr' with ⟨_, _, _, hnew, _⟩ | ⟨r, hr, -, hkept⟩
      · omega
      · refine ⟨r, hr, fun hcomplete => ⟨?_, ?_⟩⟩
        · rw [hkept.complete]
          split
          · rfl
          · exact hcomplete
        · have hleaves := deviceOp_leaves_host hs h hop hr hcomplete
          rcases storeStep_column hwrite hleaves hr' with ⟨_, _, _, hnew, _⟩ | ⟨q, hq, hhost⟩
          · omega
          · rw [hr] at hq
            cases hq
            exact hhost

end

/-!
## The client's nodes
-/

/-- A complete row of the share was seen to have this host, and has it as long as it is there. -/
structure JoinedWith (seen : DB -> Prop) (db : DB) (row : Int) (share : ShareId)
    (host : HostColumns) : Prop where
  known : row < db.shares.nextId
  joined : exists past r, seen past ∧ past.row row = some r ∧ r.complete = some true ∧
    r.shareId = share ∧ r.hostColumns = host
  still : forall r, db.row row = some r -> r.complete = some true ∧ r.hostColumns = host

theorem JoinedWith.kept {seen : DB -> Prop} {db db' : DB} {row : Int} {share : ShareId}
    {host : HostColumns} (h : JoinedWith seen db row share host) (hkept : HostsKept db db')
    (hnext : db.shares.nextId ≤ db'.shares.nextId) : JoinedWith seen db' row share host where
  known := Int.lt_of_lt_of_le h.known hnext
  joined := h.joined
  still := by
    intro r' hr'
    rcases hkept row r' hr' h.known with ⟨r, hr, hsame⟩
    rcases h.still r hr with ⟨hcomplete, hhost⟩
    rcases hsame hcomplete with ⟨hcomplete', hhost'⟩
    exact ⟨hcomplete', hhost'.trans hhost⟩

theorem JoinedWith.mono {seen seen' : DB -> Prop} {db : DB} {row : Int} {share : ShareId}
    {host : HostColumns} (h : JoinedWith seen db row share host)
    (hseen : forall past, seen past -> seen' past) : JoinedWith seen' db row share host where
  known := h.known
  joined := by
    rcases h.joined with ⟨past, r, hpast, hr⟩
    exact ⟨past, r, hseen past hpast, hr⟩
  still := h.still

/-- Nodes are restored from rows of joined shares, each in a cell of its share. -/
structure Client.Hosted (seen : DB -> Prop) (s : Client) : Prop where
  joins : s.device.OneJoin
  complete : forall c, c ∈ s.restores -> forall r, s.db.row c.row = some r ->
    r.complete = some true
  restores : forall c, c ∈ s.restores -> forall share cell label host,
    c.phase = RestorePhase.restoring share cell label host -> JoinedWith seen s.db c.row share host
  nodes : forall (n : Nat) (node : GuestNode), s.nodes[n]? = some node ->
    JoinedWith seen s.db node.row node.host.share node.host
  values : forall cell n, s.guestNodes.value cell = some n ->
    exists node, s.nodes[n]? = some node ∧ s.guestNodes.HasKey cell node.host.share

section
variable {text : JsonText} {slug : Slugify} {s t : Client} {a : ClientAction} {seen : DB -> Prop}

theorem hosted_start (device : Device) : (Client.start device).Hosted seen where
  joins := oneJoin_start rfl
  complete := by
    intro c hc
    cases hc
  restores := by
    intro c hc
    cases hc
  nodes := by
    intro n node hnode
    cases hnode
  values := by
    intro cell n hn
    cases hn

theorem Client.Hosted.mono {seen' : DB -> Prop} (hs : s.Hosted seen)
    (hseen : forall past, seen past -> seen' past) : s.Hosted seen' where
  joins := hs.joins
  complete := hs.complete
  restores := by
    intro c hc share cell label host hphase
    exact (hs.restores c hc share cell label host hphase).mono hseen
  nodes := by
    intro n node hnode
    exact (hs.nodes n node hnode).mono hseen
  values := hs.values

/-- The write of a terminal state, the only one that is not the device's. -/
theorem hostsKept_writeTerminalState (db : DB) (id : Int) (state : String) :
    HostsKept db (db.writeTerminalState id state) := by
  intro j r' hr' _
  rcases @DB.column_updateShare _ (fun r => (r.complete, r.hostColumns)) _ _ _ _ _ hr'
    fun _ _ => rfl with ⟨r, hr, hsame⟩
  rcases Prod.mk.inj hsame with ⟨hcomplete, hhost⟩
  exact ⟨r, hr, fun hdone => ⟨hcomplete.trans hdone, hhost⟩⟩

theorem Device.OneJoin.writeTerminalState {device : Device} (hs : device.OneJoin) (id : Int)
    (state : String) :
    Device.OneJoin { device with db := device.db.writeTerminalState id state } := by
  refine hs.same_calls rfl (Int.le_refl _) ?_
  intro j r' hr' hdone
  rcases @DB.column_updateShare _ ShareRow.complete _ _ _ _ _ hr' fun _ _ => rfl with
    ⟨r, hr, hsame⟩
  exact ⟨r, hr, hsame ▸ hdone⟩

theorem ClientEffect.hostsKept (h : ClientEffect text slug s a t) (hs : s.Coherent)
    (hjoins : s.device.OneJoin) : HostsKept s.db t.db ∧ t.device.OneJoin := by
  have hsame : HostsKept s.db s.db ∧ s.device.OneJoin := ⟨HostsKept.refl s.db, hjoins⟩
  cases h with
  | device hown hstep =>
      exact ⟨deviceStep_hostsKept hjoins hstep, deviceStep_oneJoin hjoins hown hstep⟩
  | restore hc heffect =>
      cases heffect with
      | wrote hphase =>
          exact ⟨hostsKept_writeTerminalState _ _ _, hjoins.writeTerminalState _ _⟩
      | checked | named | entered | served | acquired | labelled | addressed | created | rejected
      | dead | failed => exact hsame
  | node hc hnode heffect =>
      cases heffect with
      | wrote hphase =>
          exact ⟨hostsKept_writeTerminalState _ _ _, hjoins.writeTerminalState _ _⟩
      | passed | gated | reconnecting | opening | probeLearned | streamLearned | marked | ended =>
          exact hsame
  | @leaving i c t hc heffect =>
      cases heffect with
      | goodbye hphase hread =>
          exact ⟨HostsKept.refl s.db, hjoins.begin_leave (hs.leaves i c hc) _⟩
      | removed | closing | closed | failed | returned => exact hsame
  | unknown | found | called | leaveFound => exact hsame

/-- A restore after a step was there before, with its row, or has just found a complete row; it is
restoring a transport from what it has just read, unless it was before. -/
theorem ClientEffect.restore_after (h : ClientEffect text slug s a t) {c : RestoreCall}
    (hc : c ∈ t.restores) :
    (c.phase = RestorePhase.found ∧ exists r, s.db.row c.row = some r ∧ r.complete = some true) ∨
      exists d, d ∈ s.restores ∧ d.row = c.row ∧ forall share cell label host,
        c.phase = RestorePhase.restoring share cell label host -> d = c ∨
          (d.phase = RestorePhase.labelled share cell label ∧
            exists r, s.db.row c.row = some r ∧ r.hostColumns = host) := by
  have hold : c ∈ s.restores -> exists d, d ∈ s.restores ∧ d.row = c.row ∧
      forall share cell label host, c.phase = RestorePhase.restoring share cell label host ->
        d = c ∨ (d.phase = RestorePhase.labelled share cell label ∧
          exists r, s.db.row c.row = some r ∧ r.hostColumns = host) := by
    intro hmem
    exact ⟨c, hmem, rfl, fun _ _ _ _ _ => Or.inl rfl⟩
  cases h with
  | @found order key id r hfind =>
      rcases List.mem_append.mp hc with hmem | hnew
      · exact Or.inr (hold hmem)
      · rw [List.mem_singleton.mp hnew]
        rcases SerialTable.findRow_some hfind with ⟨hr, hmatches⟩
        exact Or.inl ⟨rfl, r, hr, (DB.matchesKey_iff.mp hmatches).left⟩
  | @restore i event d t hd heffect =>
      have hmem := List.mem_of_getElem? hd
      cases heffect with
      | @addressed share cell label r hphase hr =>
          rcases List.mem_or_eq_of_mem_set hc with hbefore | rfl
          · exact Or.inr (hold hbefore)
          · refine Or.inr ⟨d, hmem, rfl, ?_⟩
            intro share' cell' label' host heq
            cases heq
            exact Or.inr ⟨hphase, r, hr, rfl⟩
      | checked | named | entered | served | acquired | labelled | created | rejected | wrote | dead
      | failed =>
          rcases List.mem_or_eq_of_mem_set hc with hbefore | rfl
          · exact Or.inr (hold hbefore)
          · exact Or.inr ⟨d, hmem, rfl, nofun⟩
  | node hd hnode heffect =>
      cases heffect with
      | passed | gated | reconnecting | opening | probeLearned | streamLearned | marked | wrote
      | ended => exact Or.inr (hold hc)
  | leaving hd heffect =>
      cases heffect with
      | removed | closing | closed | failed | goodbye | returned => exact Or.inr (hold hc)
  | unknown | device | called | leaveFound => exact Or.inr (hold hc)

/-- What is in a cell after a step was there before, or is a node that a restore has just made. -/
theorem ClientEffect.value_after (h : ClientEffect text slug s a t) {cell n : Nat}
    (hn : t.guestNodes.value cell = some n) : s.guestNodes.value cell = some n ∨
      exists (i : Nat) (c : RestoreCall) (share : ShareId) (label : String) (host : HostColumns),
        s.restores[i]? = some c ∧
        c.phase = RestorePhase.restoring share cell label host ∧
          t.nodes[n]? = some (GuestNode.new label c.row host) := by
  cases h with
  | @restore i event c t hc heffect =>
      cases heffect with
      | entered hphase hentry => exact Or.inl (hentry.value hn)
      | acquired hphase hacquire => exact Or.inl (OnceMap.value_of_acquire hacquire hn)
      | created hphase =>
          rcases OnceMap.value_of_fill hn with hold | ⟨rfl, rfl⟩
          · exact Or.inl hold
          · exact Or.inr ⟨i, c, _, _, _, hc, hphase,
              slot_append_eq_some_iff.mpr (Or.inr ⟨rfl, rfl⟩)⟩
      | rejected | dead | failed =>
          refine Or.inl ((value_giveBack c.phase s.guestNodes cell).symm.trans ?_)
          exact hn
      | checked | named | served | labelled | addressed | wrote => exact Or.inl hn
  | node hd hnode heffect =>
      cases heffect with
      | passed | gated | reconnecting | opening | probeLearned | streamLearned | marked | wrote
      | ended => exact Or.inl hn
  | leaving hd heffect =>
      cases heffect with
      | removed | closing | closed | failed | goodbye | returned => exact Or.inl hn
  | unknown | device | found | called | leaveFound => exact Or.inl hn

theorem ClientEffect.hosted (h : ClientEffect text slug s a t) (hs : s.Coherent)
    (hosted : s.Hosted seen) (hseen : seen s.db) : t.Hosted seen := by
  have hgrown := h.grown hs
  rcases h.hostsKept hs hosted.joins with ⟨hkept, hjoins⟩
  have hjoined : forall (i : Nat) (c : RestoreCall) share cell label host,
      s.restores[i]? = some c -> c.phase = RestorePhase.restoring share cell label host ->
        JoinedWith seen t.db c.row share host ∧ host.share = share ∧
          s.guestNodes.HasKey cell share := by
    intro i c share cell label host hc hphase
    have hfits := (hs.restores i c hc).right
    rw [hphase] at hfits
    exact ⟨(hosted.restores c (List.mem_of_getElem? hc) share cell label host hphase).kept hkept
      hgrown.rows.next, hfits.right.right.right, hfits.right.left⟩
  refine ⟨hjoins, ?_, ?_, ?_, ?_⟩
  · intro c hc r' hr'
    have hbefore : c.row < s.db.shares.nextId -> (forall r, s.db.row c.row = some r ->
        r.complete = some true) -> r'.complete = some true := by
      intro hknown hcomplete
      rcases hkept c.row r' hr' hknown with ⟨r, hr, hsame⟩
      exact (hsame (hcomplete r hr)).left
    rcases h.restore_after hc with ⟨-, r, hr, hdone⟩ | ⟨d, hd, hrow, -⟩
    · refine hbefore (SerialTable.lt_nextId_of_lookup hr) ?_
      intro q hq
      rw [hr] at hq
      cases hq
      exact hdone
    · rcases List.getElem?_of_mem hd with ⟨i, hi⟩
      exact hbefore (hrow ▸ (hs.restores i d hi).left) (hrow ▸ hosted.complete d hd)
  · intro c hc share cell label host hphase
    rcases h.restore_after hc with ⟨hfound, -⟩ | ⟨d, hd, hrow, hrestoring⟩
    · rw [hphase] at hfound
      cases hfound
    · rcases List.getElem?_of_mem hd with ⟨i, hi⟩
      rcases hrestoring share cell label host hphase with rfl | ⟨hdphase, r, hr, hhost⟩
      · exact (hjoined i d share cell label host hi hphase).left
      · rcases hs.restores i d hi with ⟨hknown, hfits⟩
        rw [hdphase] at hfits
        rw [hrow] at hknown hfits
        have hcomplete := hosted.complete d hd r (hrow ▸ hr)
        have hbefore : JoinedWith seen s.db c.row share host := by
          refine ⟨hknown, ⟨s.db, r, hseen, hr, hcomplete, hfits.left r hr, hhost⟩, ?_⟩
          intro q hq
          rw [hr] at hq
          cases hq
          exact ⟨hcomplete, hhost⟩
        exact hbefore.kept hkept hgrown.rows.next
  · intro n node hnode
    rcases h.node_after hnode with ⟨old, hold, hrow, hhost⟩ |
      ⟨-, i, c, share, cell, label, host, hc, hphase, rfl⟩
    · rw [hrow, hhost]
      exact (hosted.nodes n old hold).kept hkept hgrown.rows.next
    · rcases hjoined i c share cell label host hc hphase with ⟨hwith, hshare, -⟩
      show JoinedWith seen t.db c.row host.share host
      rw [hshare]
      exact hwith
  · intro cell n hn
    rcases h.value_after hn with hold | ⟨i, c, share, label, host, hc, hphase, hnode⟩
    · rcases hosted.values cell n hold with ⟨node, hnode, hkey⟩
      rcases hgrown.nodes n node hnode with ⟨node', hnode', -, hhost⟩
      exact ⟨node', hnode', hhost ▸ hgrown.cells.hasKey hkey⟩
    · rcases hjoined i c share cell label host hc hphase with ⟨-, hshare, hkey⟩
      refine ⟨_, hnode, ?_⟩
      show t.guestNodes.HasKey cell host.share
      rw [hshare]
      exact hgrown.cells.hasKey hkey

end

end Guest
end WispersAccess
