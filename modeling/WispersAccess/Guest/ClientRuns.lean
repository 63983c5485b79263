import WispersAccess.Guest.ClientEffects
import WispersAccess.Guest.Lookup

/-!
# Runs of the client

What holds in every state that a client can reach: each call and each node keeps
to the row and the cell of its share, and a cell is filled by the one call that
has its permit.
-/

namespace WispersAccess
namespace Guest

open Foundation

/-!
## Rows
-/

/-- The terminal state that is stored for a share. -/
def DB.terminal (db : DB) (id : Int) : Option TerminalState :=
  (db.row id).bind fun r => r.terminalState.bind TerminalState.parse

/-- The row is the share's, if it is there. -/
def DB.OwnRow (db : DB) (id : Int) (share : ShareId) : Prop :=
  forall r, db.row id = some r -> r.shareId = share

section
variable {text : JsonText} {db db' : DB} {op : StoreOp} {id : Int}

theorem terminal_eq_some {state : TerminalState} (h : db.terminal id = some state) :
    exists r, db.row id = some r ∧ r.terminalState.bind TerminalState.parse = some state :=
  Option.bind_eq_some_iff.mp h

theorem terminal_writeTerminalState {r : ShareRow} (hr : db.row id = some r)
    (state : TerminalState) :
    (db.writeTerminalState id state.asStr).terminal id = some state := by
  have hrow : (db.writeTerminalState id state.asStr).row id = _ := DB.row_updateShare_self hr
  rw [DB.terminal, hrow]
  exact TerminalState.parse_asStr state

/-- Only `write_terminal_state` changes the terminal state of a row. -/
theorem storeStep_terminalState (h : storeStep text db op = some db')
    (hop : forall state, op ≠ StoreOp.writeTerminalState id state) {r' : ShareRow}
    (hr' : db'.row id = some r') : (id = db.shares.nextId ∧ r'.terminalState = none) ∨
      exists r, db.row id = some r ∧ r'.terminalState = r.terminalState := by
  have hleaves : op.Leaves ShareRow.terminalState id := by
    cases op with
    | writeTerminalState j state =>
        intro hid
        exact absurd (congrArg (StoreOp.writeTerminalState · state) hid) (hop state)
    | newRow | deleteRow | reopen => trivial
    | writeShareInfo => exact fun _ _ _ _ _ => rfl
    | writeDedupedHostname => exact fun _ _ _ => rfl
    | _ => exact fun _ _ => rfl
  rcases storeStep_column h hleaves hr' with ⟨shareId, now, -, hid, rfl⟩ | hold
  · exact Or.inl ⟨hid, rfl⟩
  · exact Or.inr hold

end

/-- What the writes of a step leave of the rows: their ids are not given twice, and a row
keeps its share id. -/
structure RowsKept (db db' : DB) : Prop where
  next : db.shares.nextId ≤ db'.shares.nextId
  origin : forall id r', db'.row id = some r' -> id < db.shares.nextId ->
    exists r, db.row id = some r ∧ r'.shareId = r.shareId

section
variable {text : JsonText} {slug : Slugify} {db db' : DB} {op : Option StoreOp} {id : Int}

theorem RowsKept.refl (db : DB) : RowsKept db db where
  next := Int.le_refl _
  origin := fun _ r' hr' _ => ⟨r', hr', rfl⟩

theorem storeStep_rowsKept {op : StoreOp} (h : storeStep text db op = some db') :
    RowsKept db db' := by
  refine ⟨storeStep_nextId_le h, ?_⟩
  intro id r' hr' hid
  rcases storeStep_origin h hr' with ⟨_, _, _, rfl, _⟩ | ⟨r, hr, _, hkept⟩
  · exact absurd hid (Int.lt_irrefl _)
  · exact ⟨r, hr, hkept.shareId⟩

theorem writeStep_rowsKept (h : writeStep text db op = some db') : RowsKept db db' := by
  cases op with
  | none =>
      cases h
      exact RowsKept.refl db
  | some op => exact storeStep_rowsKept h

theorem writeStep_distinct (hinv : LabelsDistinct db) (h : writeStep text db op = some db') :
    LabelsDistinct db' := by
  cases op with
  | none =>
      cases h
      exact hinv
  | some op => exact storeStep_distinct hinv h

theorem RowsKept.ownRow (h : RowsKept db db') {share : ShareId} (hid : id < db.shares.nextId)
    (hown : db.OwnRow id share) : db'.OwnRow id share := by
  intro r' hr'
  rcases h.origin id r' hr' hid with ⟨r, hr, hshare⟩
  rw [hshare]
  exact hown r hr

end

/-- The device does not write terminal states on its own. -/
theorem deviceOp_ne_terminal {slug : Slugify} {device : Device} {a : DeviceAction} {id : Int}
    {state : TerminalState} (hown : a.isOwn = true) :
    deviceOp slug device a ≠ some (StoreOp.writeTerminalState id state) := by
  intro hop
  cases a with
  | call i event =>
      rcases Option.bind_eq_some_iff.mp hop with ⟨c, -, hcall⟩
      cases event with
      | writeBackend | writeShareInfo | writeDisplayName | writeDedupedHostname =>
          simp only [callOp] at hcall
          split at hcall
          · cases hcall
          · cases hcall
      | _ => cases hcall
  | refresh op =>
      cases hop
      cases hown
  | _ => cases hop

/-!
## Coherence
-/

/-- A restore keeps to its row, to the cell of its share and to the permit. -/
def RestoreFits (s : Client) (i : Nat) (row : Int) : RestorePhase -> Prop
  | RestorePhase.named share => s.db.OwnRow row share
  | RestorePhase.waiting share cell => s.db.OwnRow row share ∧ s.guestNodes.HasKey cell share
  | RestorePhase.initialising share cell =>
      s.db.OwnRow row share ∧ s.guestNodes.HasKey cell share ∧ s.guestNodes.HeldBy cell i
  | RestorePhase.labelled share cell _ =>
      s.db.OwnRow row share ∧ s.guestNodes.HasKey cell share ∧ s.guestNodes.HeldBy cell i
  | RestorePhase.restoring share cell _ host =>
      s.db.OwnRow row share ∧ s.guestNodes.HasKey cell share ∧ s.guestNodes.HeldBy cell i ∧
        host.share = share
  | RestorePhase.returned (some (Lookup.live n)) => n < s.nodes.length
  | _ => True

/-- A guest node is in a cell of its share. -/
structure NodeFits (s : Client) (n : Nat) (node : GuestNode) : Prop where
  known : node.row < s.db.shares.nextId
  own : s.db.OwnRow node.row node.host.share
  kept : exists cell, s.guestNodes.value cell = some n ∧
    s.guestNodes.HasKey cell node.host.share

structure Client.Coherent (s : Client) : Prop where
  distinct : LabelsDistinct s.db
  restores : forall (i : Nat) (c : RestoreCall), s.restores[i]? = some c ->
    c.row < s.db.shares.nextId ∧ RestoreFits s i c.row c.phase
  nodes : forall (n : Nat) (node : GuestNode), s.nodes[n]? = some node -> NodeFits s n node
  calls : forall (i : Nat) (c : NodeCall), s.calls[i]? = some c -> c.node < s.nodes.length
  values : forall cell n, s.guestNodes.value cell = some n -> n < s.nodes.length
  leaves : forall (i : Nat) (c : LeaveCall), s.leaves[i]? = some c ->
    c.row < s.db.shares.nextId

/-- Nodes are only added, and keep their rows and hosts. -/
structure Client.Grown (s t : Client) : Prop where
  rows : RowsKept s.db t.db
  cells : s.guestNodes.Extends t.guestNodes
  nodes : Grows (fun node node' => node'.row = node.row ∧ node'.host = node.host) s.nodes t.nodes

section
variable {s t : Client} {i : Nat}

theorem Client.Grown.length_le (h : s.Grown t) : s.nodes.length ≤ t.nodes.length := by
  by_contra hlt
  have hlast : t.nodes.length < s.nodes.length := Nat.lt_of_not_le hlt
  rcases h.nodes _ _ (List.getElem?_eq_getElem hlast) with ⟨node', hnode', -⟩
  exact absurd (slot_lt hnode') (Nat.lt_irrefl _)

theorem RestoreFits.grown {row : Int} {phase : RestorePhase} (h : RestoreFits s i row phase)
    (hgrown : s.Grown t) (hrow : row < s.db.shares.nextId)
    (hheld : forall cell, s.guestNodes.HeldBy cell i -> t.guestNodes.HeldBy cell i) :
    RestoreFits t i row phase := by
  have hlen := hgrown.length_le
  cases phase with
  | named share => exact hgrown.rows.ownRow hrow h
  | waiting share cell =>
      exact ⟨hgrown.rows.ownRow hrow h.left, hgrown.cells.hasKey h.right⟩
  | initialising share cell =>
      exact ⟨hgrown.rows.ownRow hrow h.left, hgrown.cells.hasKey h.right.left,
        hheld cell h.right.right⟩
  | labelled share cell label =>
      exact ⟨hgrown.rows.ownRow hrow h.left, hgrown.cells.hasKey h.right.left,
        hheld cell h.right.right⟩
  | restoring share cell label host =>
      exact ⟨hgrown.rows.ownRow hrow h.left, hgrown.cells.hasKey h.right.left,
        hheld cell h.right.right.left, h.right.right.right⟩
  | returned result =>
      rcases result with _ | ⟨n⟩ | _ | _
      · trivial
      · exact Nat.lt_of_lt_of_le h hlen
      · trivial
      · trivial
  | found | alive | rejected | stored => trivial

theorem RestoreFits.held {row : Int} {phase : RestorePhase} {cell : Nat}
    (h : RestoreFits s i row phase) (hholds : phase.holds = some cell) :
    s.guestNodes.HeldBy cell i := by
  cases phase with
  | initialising share k =>
      cases hholds
      exact h.right.right
  | labelled share k label =>
      cases hholds
      exact h.right.right
  | restoring share k label host =>
      cases hholds
      exact h.right.right.left
  | _ => cases hholds

theorem NodeFits.grown {n : Nat} {node node' : GuestNode} (h : NodeFits s n node)
    (hgrown : s.Grown t) (hsame : node'.row = node.row ∧ node'.host = node.host) :
    NodeFits t n node' := by
  rcases h.kept with ⟨cell, hvalue, hkey⟩
  refine ⟨?_, ?_, cell, hgrown.cells.value hvalue, ?_⟩
  · have hnext := hgrown.rows.next
    have hknown := h.known
    rw [hsame.left]
    omega
  · rw [hsame.left, hsame.right]
    exact hgrown.rows.ownRow h.known h.own
  · rw [hsame.right]
    exact hgrown.cells.hasKey hkey

/-- A step whose calls and nodes still fit keeps the client coherent. -/
theorem Client.Coherent.grown (hs : s.Coherent) (hgrown : s.Grown t)
    (hdistinct : LabelsDistinct t.db)
    (hrestores : forall (j : Nat) (c : RestoreCall), t.restores[j]? = some c ->
      (s.restores[j]? = some c ∧
        forall cell, s.guestNodes.HeldBy cell j -> t.guestNodes.HeldBy cell j) ∨
      (c.row < t.db.shares.nextId ∧ RestoreFits t j c.row c.phase))
    (hnodes : forall (n : Nat) (node : GuestNode), t.nodes[n]? = some node ->
      n < s.nodes.length ∨ NodeFits t n node)
    (hcalls : forall (j : Nat) (c : NodeCall), t.calls[j]? = some c ->
      (exists d, s.calls[j]? = some d ∧ c.node = d.node) ∨ c.node < s.nodes.length)
    (hvalues : forall cell n, t.guestNodes.value cell = some n -> n < t.nodes.length)
    (hleaves : forall (j : Nat) (c : LeaveCall), t.leaves[j]? = some c ->
      (exists d, s.leaves[j]? = some d ∧ c.row = d.row) ∨ c.row < t.db.shares.nextId) :
    t.Coherent := by
  have hnext := hgrown.rows.next
  have hlen := hgrown.length_le
  refine ⟨hdistinct, ?_, ?_, ?_, hvalues, ?_⟩
  · intro j c hc
    rcases hrestores j c hc with ⟨hold, hheld⟩ | hnew
    · rcases hs.restores j c hold with ⟨hrow, hfits⟩
      exact ⟨by omega, hfits.grown hgrown hrow hheld⟩
    · exact hnew
  · intro n node hnode
    rcases hnodes n node hnode with hold | hnew
    · have hget := List.getElem?_eq_getElem hold
      rcases hgrown.nodes _ _ hget with ⟨node', hnode', hsame⟩
      rw [hnode] at hnode'
      cases hnode'
      exact (hs.nodes _ _ hget).grown hgrown hsame
    · exact hnew
  · intro j c hc
    rcases hcalls j c hc with ⟨d, hd, hnode⟩ | hnew
    · have hknown := hs.calls j d hd
      omega
    · omega
  · intro j c hc
    rcases hleaves j c hc with ⟨d, hd, hrow⟩ | hnew
    · have hknown := hs.leaves j d hd
      omega
    · exact hnew

/-!
## The permit given back
-/

theorem extends_giveBack (phase : RestorePhase) (m : OnceMap ShareId Nat) :
    m.Extends (phase.giveBack m) := by
  unfold RestorePhase.giveBack
  split
  · exact OnceMap.extends_release _ _
  · exact OnceMap.Extends.refl _

theorem value_giveBack (phase : RestorePhase) (m : OnceMap ShareId Nat) (cell : Nat) :
    (phase.giveBack m).value cell = m.value cell := by
  unfold RestorePhase.giveBack
  split
  · exact OnceMap.value_modifyCell fun _ => rfl
  · rfl

theorem heldBy_giveBack {row : Int} {phase : RestorePhase} {cell j : Nat}
    (hfits : RestoreFits s i row phase) (hj : j ≠ i) (hheld : s.guestNodes.HeldBy cell j) :
    (phase.giveBack s.guestNodes).HeldBy cell j := by
  unfold RestorePhase.giveBack
  split
  · rename_i k hholds
    exact hheld.release (hfits.held hholds) hj
  · exact hheld

end

/-!
## Steps
-/

section
variable {text : JsonText} {slug : Slugify} {s t : Client} {i : Nat}

/-- A step that leaves the nodes alone. -/
theorem Client.Grown.of_rows (hrows : RowsKept s.db t.db)
    (hcells : s.guestNodes.Extends t.guestNodes) (hnodes : t.nodes = s.nodes) : s.Grown t where
  rows := hrows
  cells := hcells
  nodes := by
    rw [hnodes]
    exact Grows.refl (fun _ => ⟨rfl, rfl⟩) s.nodes

/-- A restore moves on, and may change the map meanwhile. -/
theorem Client.Coherent.restore_moved (hs : s.Coherent) {c : RestoreCall}
    (hc : s.restores[i]? = some c) {phase : RestorePhase} {m : OnceMap ShareId Nat}
    (hcells : s.guestNodes.Extends m)
    (hheld : forall j cell, j ≠ i -> s.guestNodes.HeldBy cell j -> m.HeldBy cell j)
    (hvalues : forall cell n, m.value cell = some n -> s.guestNodes.value cell = some n)
    (hfits : RestoreFits { s.moveRestore i c phase with guestNodes := m } i c.row phase) :
    Client.Coherent { s.moveRestore i c phase with guestNodes := m } := by
  refine hs.grown (Client.Grown.of_rows (RowsKept.refl _) hcells rfl) hs.distinct ?_ ?_ ?_ ?_ ?_
  · intro j d hd
    rcases (slot_set_eq_some_iff hc).mp hd with ⟨rfl, rfl⟩ | ⟨hj, hd⟩
    · exact Or.inr ⟨(hs.restores j c hc).left, hfits⟩
    · exact Or.inl ⟨hd, fun cell => hheld j cell hj⟩
  · intro n node hnode
    exact Or.inl (slot_lt hnode)
  · intro j d hd
    exact Or.inl ⟨d, hd, rfl⟩
  · intro cell n hn
    exact hs.values cell n (hvalues cell n hn)
  · intro j d hd
    exact Or.inl ⟨d, hd, rfl⟩

theorem Client.Coherent.restore_kept (hs : s.Coherent) {c : RestoreCall}
    (hc : s.restores[i]? = some c) {phase : RestorePhase}
    (hfits : RestoreFits (s.moveRestore i c phase) i c.row phase) :
    (s.moveRestore i c phase).Coherent :=
  hs.restore_moved hc (OnceMap.Extends.refl _) (fun _ _ _ h => h) (fun _ _ h => h) hfits

theorem Client.Coherent.restore_ended (hs : s.Coherent) {c : RestoreCall}
    (hc : s.restores[i]? = some c) {phase : RestorePhase}
    (hfits : RestoreFits (s.endRestore i c phase) i c.row phase) :
    (s.endRestore i c phase).Coherent := by
  refine hs.restore_moved hc (extends_giveBack _ _) ?_ ?_ hfits
  · intro j cell hj hheld
    exact heldBy_giveBack (hs.restores i c hc).right hj hheld
  · intro cell n hn
    rw [value_giveBack] at hn
    exact hn

/-- A write of a terminal state, which is all that such a step changes in the store. -/
theorem Client.Coherent.wrote (hs : s.Coherent) (row : Int) (state : TerminalState) :
    (s.writeTerminalState row state).Coherent := by
  have hwrite : storeStep Json.compact s.db (StoreOp.writeTerminalState row state) =
      some (s.writeTerminalState row state).db := rfl
  refine hs.grown (Client.Grown.of_rows (storeStep_rowsKept hwrite) (OnceMap.Extends.refl _) rfl)
    (storeStep_distinct hs.distinct hwrite) ?_ ?_ ?_ hs.values ?_
  · intro j d hd
    exact Or.inl ⟨hd, fun _ h => h⟩
  · intro n node hnode
    exact Or.inl (slot_lt hnode)
  · intro j d hd
    exact Or.inl ⟨d, hd, rfl⟩
  · intro j d hd
    exact Or.inl ⟨d, hd, rfl⟩

theorem RestoreEffect.coherent {c : RestoreCall} {event : RestoreEvent}
    (h : RestoreEffect s i c event t) (hs : s.Coherent) (hc : s.restores[i]? = some c) :
    t.Coherent := by
  have hfits := (hs.restores i c hc).right
  cases h with
  | checked hphase hr hterminal => exact hs.restore_kept hc trivial
  | named hphase hr =>
      refine hs.restore_kept hc ?_
      intro r' hr'
      rw [show s.db.row c.row = some r' from hr'] at hr
      cases hr
      rfl
  | @entered share cell m hphase hentry =>
      rw [hphase] at hfits
      refine hs.restore_moved hc hentry.extends ?_ ?_ ⟨hfits, hentry.hasKey⟩
      · intro j k _ hheld
        exact hentry.heldBy hheld
      · intro k n hn
        exact hentry.value hn
  | served hphase hvalue => exact hs.restore_kept hc (hs.values _ _ hvalue)
  | acquired hphase hacquire =>
      rw [hphase] at hfits
      rcases OnceMap.acquire_some hacquire with ⟨hnone, hheld, hext, hentry, hothers⟩
      refine hs.restore_moved hc hext ?_ ?_ ⟨hfits.left, hext.hasKey hfits.right, hheld⟩
      · intro j k _ hj
        exact hothers k j hj
      · intro k n hn
        exact OnceMap.value_of_acquire hacquire hn
  | labelled label hphase =>
      rw [hphase] at hfits
      exact hs.restore_kept hc hfits
  | addressed hphase hr =>
      rw [hphase] at hfits
      exact hs.restore_kept hc ⟨hfits.left, hfits.right.left, hfits.right.right, hfits.left _ hr⟩
  | @created share cell label host hphase =>
      rw [hphase] at hfits
      rcases hfits with ⟨hown, hkey, hheld, hhost⟩
      have hrow := (hs.restores i c hc).left
      have hcells := hheld.extends_fill s.nodes.length
      refine hs.grown ⟨RowsKept.refl _, hcells, grows_append (fun _ => ⟨rfl, rfl⟩) _ _⟩
        hs.distinct ?_ ?_ ?_ ?_ ?_
      · intro j d hd
        rcases (slot_set_eq_some_iff hc).mp hd with ⟨rfl, rfl⟩ | ⟨hj, hd⟩
        · refine Or.inr ⟨hrow, ?_⟩
          show s.nodes.length < (s.nodes ++ [_]).length
          rw [List.length_append]
          exact Nat.lt_succ_self _
        · exact Or.inl ⟨hd, fun k hk => hk.fill hheld hj _⟩
      · intro n node hnode
        rcases slot_append_eq_some_iff.mp hnode with hold | ⟨rfl, rfl⟩
        · exact Or.inl (slot_lt hold)
        · refine Or.inr ⟨hrow, ?_, cell, hheld.value_fill _, ?_⟩
          · show s.db.OwnRow c.row host.share
            rw [hhost]
            exact hown
          · show (s.guestNodes.fill cell s.nodes.length).HasKey cell host.share
            rw [hhost]
            exact hcells.hasKey hkey
      · intro j d hd
        exact Or.inl ⟨d, hd, rfl⟩
      · intro k n hn
        show n < (s.nodes ++ [_]).length
        rw [List.length_append, List.length_singleton]
        rcases OnceMap.value_of_fill hn with hold | ⟨-, rfl⟩
        · have hlt := hs.values k n hold
          omega
        · exact Nat.lt_succ_self _
      · intro j d hd
        exact Or.inl ⟨d, hd, rfl⟩
  | rejected state hphase => exact hs.restore_ended hc trivial
  | @wrote state hphase =>
      have hkept : (s.moveRestore i c (RestorePhase.stored state)).Coherent :=
        hs.restore_kept hc trivial
      exact hkept.wrote c.row state
  | dead hphase => exact hs.restore_ended hc trivial
  | failed hrunning hfound => exact hs.restore_ended hc trivial

/-- A step that leaves the rows, the cells and the nodes as they are. -/
theorem Client.Coherent.of_same (hs : s.Coherent) (hdb : t.db = s.db)
    (hcells : t.guestNodes.cells = s.guestNodes.cells) (hnodes : t.nodes = s.nodes)
    (hrestores : forall (j : Nat) (c : RestoreCall), t.restores[j]? = some c ->
      s.restores[j]? = some c ∨ (c.row < s.db.shares.nextId ∧ c.phase = RestorePhase.found))
    (hleaves : forall (j : Nat) (c : LeaveCall), t.leaves[j]? = some c ->
      (exists d, s.leaves[j]? = some d ∧ c.row = d.row) ∨ c.row < s.db.shares.nextId)
    (hcalls : forall (j : Nat) (c : NodeCall), t.calls[j]? = some c ->
      (exists d, s.calls[j]? = some d ∧ c.node = d.node) ∨ c.node < s.nodes.length) :
    t.Coherent := by
  have hrows : RowsKept s.db t.db := by
    rw [hdb]
    exact RowsKept.refl _
  refine hs.grown (Client.Grown.of_rows hrows (OnceMap.extends_of_eq hcells) hnodes)
    (hdb ▸ hs.distinct) ?_ ?_ hcalls ?_ ?_
  · intro j c hc
    rcases hrestores j c hc with hold | ⟨hrow, hphase⟩
    · refine Or.inl ⟨hold, ?_⟩
      intro cell h
      rcases h with ⟨held, hheld, hcolumns⟩
      exact ⟨held, hcells ▸ hheld, hcolumns⟩
    · rw [hphase, hdb]
      exact Or.inr ⟨hrow, trivial⟩
  · intro n node hnode
    rw [hnodes] at hnode
    exact Or.inl (slot_lt hnode)
  · intro cell n hn
    rw [hnodes]
    refine hs.values cell n ?_
    unfold OnceMap.value
    rw [← hcells]
    exact hn
  · intro j c hc
    rw [hdb]
    exact hleaves j c hc

/-- A call of a node moves on. -/
theorem Client.Coherent.call_moved (hs : s.Coherent) {c : NodeCall} (hc : s.calls[i]? = some c)
    (phase : NodePhase) : (s.moveCall i c phase).Coherent := by
  refine hs.of_same rfl rfl rfl (fun _ _ h => Or.inl h) (fun _ c h => Or.inl ⟨c, h, rfl⟩) ?_
  intro j d hd
  rcases (slot_set_eq_some_iff hc).mp hd with ⟨rfl, rfl⟩ | ⟨-, hd⟩
  · exact Or.inl ⟨c, hc, rfl⟩
  · exact Or.inl ⟨d, hd, rfl⟩

/-- A node changes, but for its row and its host. -/
theorem Client.Coherent.node_set (hs : s.Coherent) {n : Nat} {node node' : GuestNode}
    (hnode : s.nodes[n]? = some node) (hsame : node'.row = node.row ∧ node'.host = node.host) :
    (s.setNode n node').Coherent := by
  have hnodes := @grows_set _ (fun node node' : GuestNode =>
    node'.row = node.row ∧ node'.host = node.host) (fun _ => ⟨rfl, rfl⟩) _ _ _ _ hnode hsame
  have hlen : (s.nodes.set n node').length = s.nodes.length := List.length_set
  refine hs.grown ⟨RowsKept.refl _, OnceMap.Extends.refl _, hnodes⟩ hs.distinct ?_ ?_ ?_ ?_ ?_
  · intro j d hd
    exact Or.inl ⟨hd, fun _ h => h⟩
  · intro m other hother
    exact Or.inl (hlen ▸ slot_lt hother)
  · intro j d hd
    exact Or.inl ⟨d, hd, rfl⟩
  · intro cell m hm
    show m < (s.nodes.set n node').length
    rw [hlen]
    exact hs.values cell m hm
  · intro j d hd
    exact Or.inl ⟨d, hd, rfl⟩

theorem NodeEffect.coherent {c : NodeCall} {node : GuestNode} {event : NodeEvent}
    (h : NodeEffect s i c node event t) (hs : s.Coherent) (hc : s.calls[i]? = some c)
    (hnode : s.nodes[c.node]? = some node) : t.Coherent := by
  cases h with
  | passed hphase htask => exact hs.call_moved hc _
  | gated hphase hgate htask => exact (hs.call_moved hc _).node_set hnode ⟨rfl, rfl⟩
  | reconnecting hphase => exact hs.call_moved hc _
  | opening hphase hdead => exact hs.call_moved hc _
  | probeLearned state recentlyUsed hphase => exact hs.call_moved hc _
  | streamLearned state hphase => exact hs.call_moved hc _
  | marked hphase => exact (hs.call_moved hc _).node_set hnode ⟨rfl, rfl⟩
  | @wrote state hphase => exact (hs.call_moved hc (NodePhase.stored state)).wrote node.row state
  | ended answer lastUsed hanswer => exact (hs.call_moved hc _).node_set hnode ⟨rfl, rfl⟩

theorem Client.Coherent.leave_moved (hs : s.Coherent) {c : LeaveCall} (hc : s.leaves[i]? = some c)
    {phase : LeavePhase} (hdb : t.db = s.db)
    (hcells : t.guestNodes.cells = s.guestNodes.cells) (hnodes : t.nodes = s.nodes)
    (hrestores : t.restores = s.restores) (hcalls : t.calls = s.calls)
    (hleaves : t.leaves = s.leaves.set i { c with phase := phase }) : t.Coherent := by
  refine hs.of_same hdb hcells hnodes ?_ ?_ ?_
  · intro j d hd
    exact Or.inl (hrestores ▸ hd)
  · intro j d hd
    rw [hleaves] at hd
    rcases (slot_set_eq_some_iff hc).mp hd with ⟨rfl, rfl⟩ | ⟨-, hd⟩
    · exact Or.inl ⟨c, hc, rfl⟩
    · exact Or.inl ⟨d, hd, rfl⟩
  · intro j d hd
    exact Or.inl ⟨d, hcalls ▸ hd, rfl⟩

theorem LeaveEffect.coherent {c : LeaveCall} (h : LeaveEffect s i c t) (hs : s.Coherent)
    (hc : s.leaves[i]? = some c) : t.Coherent := by
  cases h with
  | removed | closing | closed | failed | goodbye | returned =>
      exact hs.leave_moved hc rfl rfl rfl rfl rfl rfl

theorem ClientEffect.coherent {a : ClientAction} (h : ClientEffect text slug s a t)
    (hs : s.Coherent) : t.Coherent := by
  cases h with
  | unknown => exact hs
  | @device a device hown hstep =>
      have hwrite := deviceStep_db hstep
      have hdistinct : LabelsDistinct device.db := writeStep_distinct hs.distinct hwrite
      refine hs.grown (Client.Grown.of_rows (writeStep_rowsKept hwrite)
        (OnceMap.Extends.refl _) rfl) hdistinct ?_ ?_ ?_ hs.values ?_
      · intro j d hd
        exact Or.inl ⟨hd, fun _ h => h⟩
      · intro n node hnode
        exact Or.inl (slot_lt hnode)
      · intro j d hd
        exact Or.inl ⟨d, hd, rfl⟩
      · intro j d hd
        exact Or.inl ⟨d, hd, rfl⟩
  | @found order key id r hfind =>
      refine hs.of_same rfl rfl rfl ?_ (fun _ c h => Or.inl ⟨c, h, rfl⟩)
        fun _ c h => Or.inl ⟨c, h, rfl⟩
      intro j d hd
      rcases slot_append_eq_some_iff.mp hd with hold | ⟨-, rfl⟩
      · exact Or.inl hold
      · exact Or.inr ⟨SerialTable.lt_nextId_of_lookup (SerialTable.findRow_some hfind).left, rfl⟩
  | restore hc heffect => exact heffect.coherent hs hc
  | called hn =>
      refine hs.of_same rfl rfl rfl (fun _ _ h => Or.inl h) (fun _ c h => Or.inl ⟨c, h, rfl⟩) ?_
      intro j d hd
      rcases slot_append_eq_some_iff.mp hd with hold | ⟨-, rfl⟩
      · exact Or.inl ⟨d, hold, rfl⟩
      · exact Or.inr hn
  | node hc hnode heffect => exact heffect.coherent hs hc hnode
  | @leaveFound order share id r hfind =>
      refine hs.of_same rfl rfl rfl (fun _ _ h => Or.inl h) ?_ fun _ c h => Or.inl ⟨c, h, rfl⟩
      intro j d hd
      rcases slot_append_eq_some_iff.mp hd with hold | ⟨-, rfl⟩
      · exact Or.inl ⟨d, hold, rfl⟩
      · exact Or.inr (SerialTable.lt_nextId_of_lookup (SerialTable.findRow_some hfind).left)
  | leaving hc heffect => exact heffect.coherent hs hc

/-!
## Growth
-/

theorem rowsKept_wrote (s : Client) (row : Int) (state : TerminalState) :
    RowsKept s.db (s.writeTerminalState row state).db :=
  @storeStep_rowsKept Json.compact _ _ (StoreOp.writeTerminalState row state) rfl

theorem RestoreEffect.grown {c : RestoreCall} {event : RestoreEvent}
    (h : RestoreEffect s i c event t) (hs : s.Coherent) (hc : s.restores[i]? = some c) :
    s.Grown t := by
  have hfits := (hs.restores i c hc).right
  cases h with
  | checked | named | served | labelled | addressed =>
      exact Client.Grown.of_rows (RowsKept.refl _) (OnceMap.Extends.refl _) rfl
  | entered hphase hentry => exact Client.Grown.of_rows (RowsKept.refl _) hentry.extends rfl
  | acquired hphase hacquire =>
      exact Client.Grown.of_rows (RowsKept.refl _) (OnceMap.acquire_some hacquire).right.right.left
        rfl
  | created hphase =>
      rw [hphase] at hfits
      exact ⟨RowsKept.refl _, hfits.right.right.left.extends_fill _,
        grows_append (fun _ => ⟨rfl, rfl⟩) _ _⟩
  | rejected | dead | failed =>
      exact Client.Grown.of_rows (RowsKept.refl _) (extends_giveBack _ _) rfl
  | wrote hphase =>
      exact Client.Grown.of_rows (rowsKept_wrote _ _ _) (OnceMap.Extends.refl _) rfl

theorem NodeEffect.grown {c : NodeCall} {node : GuestNode} {event : NodeEvent}
    (h : NodeEffect s i c node event t) (hnode : s.nodes[c.node]? = some node) : s.Grown t := by
  have hset : forall node' : GuestNode, node'.row = node.row ∧ node'.host = node.host ->
      Grows (fun node node' => node'.row = node.row ∧ node'.host = node.host) s.nodes
        (s.nodes.set c.node node') := fun _ hsame => grows_set (fun _ => ⟨rfl, rfl⟩) hnode hsame
  cases h with
  | passed | reconnecting | opening | probeLearned | streamLearned =>
      exact Client.Grown.of_rows (RowsKept.refl _) (OnceMap.Extends.refl _) rfl
  | gated | marked | ended =>
      refine ⟨RowsKept.refl _, OnceMap.Extends.refl _, hset _ ?_⟩
      exact ⟨rfl, rfl⟩
  | wrote hphase =>
      exact Client.Grown.of_rows (rowsKept_wrote _ _ _) (OnceMap.Extends.refl _) rfl

theorem LeaveEffect.grown {c : LeaveCall} (h : LeaveEffect s i c t) : s.Grown t := by
  cases h with
  | removed | closing | closed | failed | goodbye | returned =>
      exact Client.Grown.of_rows (RowsKept.refl _) (OnceMap.extends_of_eq rfl) rfl

theorem ClientEffect.grown {a : ClientAction} (h : ClientEffect text slug s a t)
    (hs : s.Coherent) : s.Grown t := by
  cases h with
  | unknown | found | called | leaveFound =>
      exact Client.Grown.of_rows (RowsKept.refl _) (OnceMap.Extends.refl _) rfl
  | device hown hstep =>
      exact Client.Grown.of_rows (writeStep_rowsKept (deviceStep_db hstep))
        (OnceMap.Extends.refl _) rfl
  | restore hc heffect => exact heffect.grown hs hc
  | node hc hnode heffect => exact heffect.grown hnode
  | leaving hc heffect => exact heffect.grown

/-- A node after a step was there before, with its row and its host, or has just been made by a
restore. -/
theorem ClientEffect.node_after {a : ClientAction} (h : ClientEffect text slug s a t) {n : Nat}
    {node : GuestNode} (hnode : t.nodes[n]? = some node) :
    (exists old, s.nodes[n]? = some old ∧ node.row = old.row ∧ node.host = old.host) ∨
      (n = s.nodes.length ∧ exists (i : Nat) (c : RestoreCall) (share : ShareId)
        (cell : Nat) (label : String) (host : HostColumns), s.restores[i]? = some c ∧
          c.phase = RestorePhase.restoring share cell label host ∧
            node = GuestNode.new label c.row host) := by
  have hset : forall m (old new : GuestNode), s.nodes[m]? = some old ->
      new.row = old.row ∧ new.host = old.host -> (s.nodes.set m new)[n]? = some node ->
        exists old, s.nodes[n]? = some old ∧ node.row = old.row ∧ node.host = old.host := by
    intro m old new hold hsame hn
    rcases (slot_set_eq_some_iff hold).mp hn with ⟨rfl, rfl⟩ | ⟨-, hn⟩
    · exact ⟨old, hold, hsame⟩
    · exact ⟨node, hn, rfl, rfl⟩
  cases h with
  | @restore i event c t hc heffect =>
      cases heffect with
      | created hphase =>
          rcases slot_append_eq_some_iff.mp hnode with hold | ⟨hn, rfl⟩
          · exact Or.inl ⟨node, hold, rfl, rfl⟩
          · exact Or.inr ⟨hn, i, c, _, _, _, _, hc, hphase, rfl⟩
      | checked | named | entered | served | acquired | labelled | addressed | rejected | wrote
      | dead | failed => exact Or.inl ⟨node, hnode, rfl, rfl⟩
  | node hc hnode' heffect =>
      cases heffect with
      | passed | reconnecting | opening | probeLearned | streamLearned | wrote =>
          exact Or.inl ⟨node, hnode, rfl, rfl⟩
      | gated | marked | ended =>
          refine Or.inl (hset _ _ _ hnode' ?_ hnode)
          exact ⟨rfl, rfl⟩
  | leaving hc heffect =>
      cases heffect with
      | removed | closing | closed | failed | goodbye | returned =>
          exact Or.inl ⟨node, hnode, rfl, rfl⟩
  | unknown | device | found | called | leaveFound => exact Or.inl ⟨node, hnode, rfl, rfl⟩

theorem coherent_start {device : Device} (hdevice : LabelsDistinct device.db) :
    (Client.start device).Coherent where
  distinct := @storeStep_distinct Json.compact _ _ StoreOp.reopen hdevice rfl
  restores := by
    intro i c hc
    cases hc
  nodes := by
    intro n node hnode
    cases hnode
  calls := by
    intro i c hc
    cases hc
  values := by
    intro cell n hn
    cases hn
  leaves := by
    intro i c hc
    cases hc

theorem run_coherent {device : Device} {before : List DeviceAction} {acts : List ClientAction}
    (hdevice : Run (deviceStep text slug) Device.start before device)
    (hrun : Run (clientStep text slug) (Client.start device) acts s) : s.Coherent :=
  hrun.invariant (fun _ _ _ hs h => (clientStep_effect h).coherent hs)
    (coherent_start (run_labels hdevice).toLabelsDistinct)

end

end Guest
end WispersAccess
