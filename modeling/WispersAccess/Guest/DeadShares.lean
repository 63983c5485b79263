import WispersAccess.Guest.TerminalStates

/-!
# Dead shares

Once a terminal answer is recorded, in the guest node and in the store, no call
that begins later asks the transport for a stream or restores one: it finds the
mark in one of the two places.  A connection check may still probe.
-/

namespace WispersAccess
namespace Guest

open Foundation

/-!
## The share's one node
-/

/-- The share is joined, and nobody leaves it. -/
structure Client.Kept (s : Client) (row : Int) (share : ShareId) : Prop where
  joined : exists r, s.db.row row = some r ∧ r.shareId = share
  stays : forall c, c ∈ s.leaves -> c.share ≠ share

section
variable {text : JsonText} {slug : Slugify} {s t : Client} {a : ClientAction} {row : Int}
  {share : ShareId}

theorem LeaveEffect.share_mem {i : Nat} {c : LeaveCall} (h : LeaveEffect s i c t)
    (hc : s.leaves[i]? = some c) {d : LeaveCall} (hd : d ∈ s.leaves) :
    exists e, e ∈ t.leaves ∧ e.share = d.share := by
  have hset : forall phase, exists e, e ∈ s.leaves.set i { c with phase := phase } ∧
      e.share = d.share := by
    intro phase
    rcases List.getElem?_of_mem hd with ⟨j, hj⟩
    by_cases hij : j = i
    · rw [hij, hc] at hj
      cases hj
      exact ⟨_, List.mem_of_getElem? (slot_set_self hc _), rfl⟩
    · exact ⟨d, List.mem_of_getElem? ((slot_set_eq_some_iff hc).mpr (Or.inr ⟨hij, hj⟩)), rfl⟩
  cases h with
  | removed | closing | closed | failed | goodbye | returned => exact hset _

theorem ClientEffect.leaves_grow (h : ClientEffect text slug s a t) {d : LeaveCall}
    (hd : d ∈ s.leaves) : exists e, e ∈ t.leaves ∧ e.share = d.share := by
  cases h with
  | unknown | device | found | called => exact ⟨d, hd, rfl⟩
  | leaveFound hfind => exact ⟨d, List.mem_append_left _ hd, rfl⟩
  | restore hc heffect =>
      cases heffect with
      | checked | named | entered | served | acquired | labelled | addressed | created | rejected
      | wrote | dead | failed => exact ⟨d, hd, rfl⟩
  | node hc hnode heffect =>
      cases heffect with
      | passed | gated | reconnecting | opening | probeLearned | streamLearned | marked | wrote
      | ended => exact ⟨d, hd, rfl⟩
  | leaving hc heffect => exact heffect.share_mem hc hd

/-- A share that is kept after a step was kept before. -/
theorem ClientEffect.kept_before (h : ClientEffect text slug s a t) (hs : s.Coherent)
    (hknown : row < s.db.shares.nextId) (hkept : t.Kept row share) : s.Kept row share := by
  constructor
  · rcases hkept.joined with ⟨r', hr', rfl⟩
    rcases (h.grown hs).rows.origin row r' hr' hknown with ⟨r, hr, hshare⟩
    exact ⟨r, hr, hshare.symm⟩
  · intro c hc
    rcases h.leaves_grow hc with ⟨d, hd, hshare⟩
    rw [← hshare]
    exact hkept.stays d hd

/-- The cells of a share are its entry's, as long as nobody leaves it. -/
theorem ClientEffect.whole (h : ClientEffect text slug s a t)
    (hstays : forall c, c ∈ s.leaves -> c.share ≠ share) (hwhole : s.guestNodes.Whole share) :
    t.guestNodes.Whole share := by
  cases h with
  | unknown | device | found | called | leaveFound => exact hwhole
  | restore hc heffect =>
      cases heffect with
      | checked | named | served | labelled | addressed | wrote => exact hwhole
      | entered hphase hentry => exact hentry.whole hwhole
      | acquired hphase hacquire => exact hwhole.acquire hacquire
      | created hphase => exact hwhole.fill _ _
      | rejected | dead | failed =>
          unfold Client.endRestore RestorePhase.giveBack
          split
          · exact hwhole.release _
          · exact hwhole
  | node hc hnode heffect =>
      cases heffect with
      | passed | gated | reconnecting | opening | probeLearned | streamLearned | marked | wrote
      | ended => exact hwhole
  | leaving hc heffect =>
      cases heffect with
      | removed hphase =>
          exact hwhole.remove fun h => hstays _ (List.mem_of_getElem? hc) h.symm
      | closing | closed | failed | goodbye | returned => exact hwhole

/-- A share that is kept has one node at most. -/
theorem Client.Coherent.node_unique (hs : s.Coherent) (hkept : s.Kept row share)
    (hwhole : s.guestNodes.Whole share) {m n : Nat} {node other : GuestNode}
    (hnode : s.nodes[n]? = some node) (hother : s.nodes[m]? = some other)
    (hrow : node.row = row) (hrow' : other.row = row) : m = n := by
  rcases hkept.joined with ⟨r, hr, rfl⟩
  have hfits := hs.nodes n node hnode
  have hfits' := hs.nodes m other hother
  rcases hfits.kept with ⟨cell, hvalue, hkey⟩
  rcases hfits'.kept with ⟨cell', hvalue', hkey'⟩
  rw [← hfits.own r (hrow ▸ hr)] at hkey
  rw [← hfits'.own r (hrow' ▸ hr)] at hkey'
  rw [hwhole.unique hkey hkey', hvalue'] at hvalue
  exact Option.some.inj hvalue

end

/-!
## The mark in the node
-/

/-- A node stays dead, and its row is the same. -/
def StaysDead (node node' : GuestNode) : Prop :=
  node'.row = node.row ∧ (node.dead.isSome = true -> node'.dead.isSome = true)

section
variable {text : JsonText} {slug : Slugify} {s t : Client} {a : ClientAction}

theorem NodeEffect.stays_dead {i : Nat} {c : NodeCall} {node : GuestNode} {event : NodeEvent}
    (h : NodeEffect s i c node event t) (hnode : s.nodes[c.node]? = some node) :
    Grows StaysDead s.nodes t.nodes := by
  have hrefl : forall node, StaysDead node node := fun _ => ⟨rfl, fun hdead => hdead⟩
  cases h with
  | passed | reconnecting | opening | probeLearned | streamLearned | wrote =>
      exact Grows.refl hrefl s.nodes
  | gated | ended => exact grows_set hrefl hnode ⟨rfl, fun hdead => hdead⟩
  | marked => exact grows_set hrefl hnode ⟨rfl, fun _ => rfl⟩

theorem ClientEffect.stays_dead (h : ClientEffect text slug s a t) :
    Grows StaysDead s.nodes t.nodes := by
  have hrefl : forall node, StaysDead node node := fun _ => ⟨rfl, fun hdead => hdead⟩
  cases h with
  | unknown | device | found | called | leaveFound => exact Grows.refl hrefl s.nodes
  | restore hc heffect =>
      cases heffect with
      | created hphase => exact grows_append hrefl s.nodes _
      | checked | named | entered | served | acquired | labelled | addressed | rejected | wrote
      | dead | failed => exact Grows.refl hrefl s.nodes
  | node hc hnode heffect => exact heffect.stays_dead hnode
  | leaving hc heffect =>
      cases heffect with
      | removed | closing | closed | failed | goodbye | returned => exact Grows.refl hrefl s.nodes

/-- A node whose terminal answer is about to be stored is marked. -/
def Client.MarksFirst (s : Client) : Prop :=
  forall c state, c ∈ s.calls -> c.phase = NodePhase.marked state ->
    exists node, s.nodes[c.node]? = some node ∧ node.dead.isSome = true

/-- Only a node that has been marked goes on to store its state. -/
theorem NodeEffect.marked_after {i : Nat} {c : NodeCall} {node : GuestNode} {event : NodeEvent}
    (h : NodeEffect s i c node event t) (hnode : s.nodes[c.node]? = some node) :
    t.restores = s.restores ∧ exists phase, t.calls = s.calls.set i { c with phase := phase } ∧
      forall state, phase = NodePhase.marked state ->
        exists node, t.nodes[c.node]? = some node ∧ node.dead.isSome = true := by
  cases h with
  | @marked state hphase =>
      refine ⟨rfl, NodePhase.marked state, rfl, ?_⟩
      intro _ _
      exact ⟨_, slot_set_self hnode _, rfl⟩
  | passed | gated | reconnecting | opening | probeLearned | streamLearned | wrote | ended =>
      exact ⟨rfl, _, rfl, nofun⟩

theorem ClientEffect.marksFirst (h : ClientEffect text slug s a t) (hs : s.MarksFirst) :
    t.MarksFirst := by
  have hgrows := h.stays_dead
  intro c state hc hphase
  have hold : c ∈ s.calls -> exists node, t.nodes[c.node]? = some node ∧
      node.dead.isSome = true := by
    intro hmem
    rcases hs c state hmem hphase with ⟨node, hnode, hdead⟩
    rcases hgrows _ _ hnode with ⟨node', hnode', -, hkept⟩
    exact ⟨node', hnode', hkept hdead⟩
  cases h with
  | called hn =>
      rcases List.mem_append.mp hc with hmem | hnew
      · exact hold hmem
      · rw [List.mem_singleton.mp hnew] at hphase
        cases hphase
  | restore hd heffect =>
      rcases heffect.recording with ⟨phase, -, hcalls, -⟩
      exact hold (hcalls ▸ hc)
  | node hd hnode heffect =>
      rcases heffect.marked_after hnode with ⟨-, phase, hcalls, hmarks⟩
      rw [hcalls] at hc
      rcases List.mem_or_eq_of_mem_set hc with hmem | rfl
      · exact hold hmem
      · exact hmarks state hphase
  | leaving hd heffect =>
      cases heffect with
      | removed | closing | closed | failed | goodbye | returned => exact hold hc
  | unknown | device | found | leaveFound => exact hold hc

end

/-!
## Calls that begin later
-/

/-- A later restore has not looked yet, or has found the share dead. -/
def RestorePhase.FindsDead : RestorePhase -> Prop
  | found => True
  | returned (some (Lookup.dead _)) => True
  | _ => False

/-- A later call of the node asks for no stream, and is answered with a terminal state, a check
with nothing. -/
def NodeCall.FindsDead (c : NodeCall) : Prop :=
  match c.phase with
  | NodePhase.gated => True
  | NodePhase.ready => True
  | NodePhase.opening => False
  | NodePhase.returned (NodeAnswer.terminal _) => c.task ≠ NodeTask.checkConnection
  | NodePhase.returned NodeAnswer.dropped => True
  | NodePhase.returned NodeAnswer.opened => False
  | NodePhase.returned NodeAnswer.transient => False
  | _ => c.task = NodeTask.checkConnection

/-- The mark is in both places, and the calls that begin later find it. -/
structure Client.Buried (s : Client) (row : Int) (n restores calls : Nat) : Prop where
  stored : exists state, s.db.terminal row = some state
  marked : exists node, s.nodes[n]? = some node ∧ node.row = row ∧ node.dead.isSome = true
  restores : forall (i : Nat) (c : RestoreCall), restores ≤ i -> s.restores[i]? = some c ->
    c.row = row -> c.phase.FindsDead
  calls : forall (i : Nat) (c : NodeCall), calls ≤ i -> s.calls[i]? = some c -> c.node = n ->
    c.FindsDead

section
variable {text : JsonText} {slug : Slugify} {s t : Client} {a : ClientAction} {row : Int}
  {n restores calls : Nat}

theorem RestoreEffect.findsDead {i : Nat} {c : RestoreCall} {event : RestoreEvent}
    (h : RestoreEffect s i c event t) (hstored : exists state, s.db.terminal c.row = some state)
    (hc : c.phase.FindsDead) : exists phase,
      t.restores = s.restores.set i { c with phase := phase } ∧ phase.FindsDead := by
  rcases hstored with ⟨state, hstored⟩
  rcases terminal_eq_some hstored with ⟨r, hr, hterminal⟩
  cases h with
  | checked hphase hr' hnone =>
      rw [hr] at hr'
      cases hr'
      rw [hterminal] at hnone
      cases hnone
  | dead hphase => exact ⟨_, rfl, trivial⟩
  | failed hrunning hfound =>
      rcases c with ⟨id, phase⟩
      cases phase with
      | found =>
          have hgone := hfound rfl
          rw [hr] at hgone
          cases hgone
      | returned result => exact absurd rfl (hrunning result)
      | _ => cases hc
  | named hphase | entered hphase | served hphase | acquired hphase | labelled _ hphase
  | addressed hphase | created hphase | rejected _ hphase | wrote hphase =>
      rw [hphase] at hc
      cases hc

theorem NodeEffect.findsDead {i : Nat} {c : NodeCall} {node : GuestNode} {event : NodeEvent}
    (h : NodeEffect s i c node event t) (hdead : node.dead.isSome = true) (hc : c.FindsDead) :
    exists phase, t.calls = s.calls.set i { c with phase := phase } ∧
      NodeCall.FindsDead { c with phase := phase } := by
  have hcheck : forall state, (c.phase = NodePhase.learned state ∨
      c.phase = NodePhase.marked state) -> c.task = NodeTask.checkConnection := by
    intro state hphase
    unfold NodeCall.FindsDead at hc
    rcases hphase with hphase | hphase
    · rw [hphase] at hc
      exact hc
    · rw [hphase] at hc
      exact hc
  have hprobes : c.phase = NodePhase.probing -> c.task = NodeTask.checkConnection := by
    intro hphase
    unfold NodeCall.FindsDead at hc
    rw [hphase] at hc
    exact hc
  have hstream : c.phase ≠ NodePhase.opening := by
    intro hphase
    unfold NodeCall.FindsDead at hc
    rw [hphase] at hc
    exact hc
  cases h with
  | passed hphase htask => exact ⟨_, rfl, trivial⟩
  | gated hphase hgate htask => exact ⟨_, rfl, htask⟩
  | reconnecting hphase => exact ⟨_, rfl, trivial⟩
  | opening hphase hnone =>
      rw [hnone] at hdead
      cases hdead
  | probeLearned state recentlyUsed hphase => exact ⟨_, rfl, hprobes hphase⟩
  | streamLearned state hphase => exact absurd hphase hstream
  | marked hphase => exact ⟨_, rfl, hcheck _ (Or.inl hphase)⟩
  | wrote hphase => exact ⟨_, rfl, hcheck _ (Or.inr hphase)⟩
  | ended answer lastUsed hanswer =>
      refine ⟨_, rfl, ?_⟩
      cases hanswer with
      | opened htask hphase => exact absurd hphase hstream
      | transient htask hphase => exact absurd hphase hstream
      | terminal htask => exact htask
      | checked hcheck =>
          rcases hcheck with hphase | htask
          · exact hprobes hphase
          · exact htask
      | dropped => trivial

/-- What is stored about a share that stays is not lost. -/
theorem ClientEffect.stored_kept (h : ClientEffect text slug s a t) {r' : ShareRow}
    (hr' : t.db.row row = some r') (hstored : exists state, s.db.terminal row = some state) :
    exists state, t.db.terminal row = some state := by
  rcases hstored with ⟨state, hstored⟩
  rcases h.terminal hr' with hsame | ⟨other, -, hwritten⟩ | ⟨hid, -⟩
  · exact ⟨state, hsame.trans hstored⟩
  · exact ⟨other, hwritten⟩
  · rcases terminal_eq_some hstored with ⟨r, hr, -⟩
    exact absurd hid (SerialTable.ne_nextId_of_lookup hr)

/-- A restore of a dead share still finds it dead after the step. -/
theorem ClientEffect.restore_findsDead (h : ClientEffect text slug s a t)
    (hs : s.Buried row n restores calls) {i : Nat} {c : RestoreCall} (hi : restores ≤ i)
    (hc : t.restores[i]? = some c) (hown : c.row = row) : c.phase.FindsDead := by
  cases h with
  | found hfind =>
      rcases slot_append_eq_some_iff.mp hc with hold | ⟨-, rfl⟩
      · exact hs.restores i c hi hold hown
      · trivial
  | @restore j event d t hd heffect =>
      rcases heffect.recording with ⟨phase, hset, -⟩
      rw [hset] at hc
      rcases (slot_set_eq_some_iff hd).mp hc with ⟨rfl, rfl⟩ | ⟨-, hold⟩
      · have hrow : d.row = row := hown
        rcases heffect.findsDead (hrow ▸ hs.stored) (hs.restores i d hi hd hrow) with
          ⟨phase', hset', hfinds⟩
        rw [hset, slot_set_inj hd] at hset'
        exact hset' ▸ hfinds
      · exact hs.restores i c hi hold hown
  | node hd hnode heffect =>
      rcases heffect.recording with ⟨phase, -, hsame, -⟩
      exact hs.restores i c hi (hsame ▸ hc) hown
  | leaving hd heffect =>
      cases heffect with
      | removed | closing | closed | failed | goodbye | returned =>
          exact hs.restores i c hi hc hown
  | unknown | device | called | leaveFound => exact hs.restores i c hi hc hown

/-- A call of a node that is dead still finds it dead after the step. -/
theorem ClientEffect.call_findsDead (h : ClientEffect text slug s a t)
    (hs : s.Buried row n restores calls) {i : Nat} {c : NodeCall} (hi : calls ≤ i)
    (hc : t.calls[i]? = some c) (hown : c.node = n) : c.FindsDead := by
  rcases hs.marked with ⟨node, hnode, -, hdead⟩
  cases h with
  | called hn =>
      rcases slot_append_eq_some_iff.mp hc with hold | ⟨-, rfl⟩
      · exact hs.calls i c hi hold hown
      · trivial
  | @node j event d other t hd hother heffect =>
      rcases heffect.recording with ⟨phase, hset, -, -⟩
      rw [hset] at hc
      rcases (slot_set_eq_some_iff hd).mp hc with ⟨rfl, rfl⟩ | ⟨-, hold⟩
      · have hown' : d.node = n := hown
        rw [hown', hnode] at hother
        cases hother
        rcases heffect.findsDead hdead (hs.calls i d hi hd hown') with ⟨phase', hset', hfinds⟩
        rw [hset, slot_set_inj hd] at hset'
        exact hset' ▸ hfinds
      · exact hs.calls i c hi hold hown
  | restore hd heffect =>
      rcases heffect.recording with ⟨phase, -, hsame, -⟩
      exact hs.calls i c hi (hsame ▸ hc) hown
  | leaving hd heffect =>
      cases heffect with
      | removed | closing | closed | failed | goodbye | returned =>
          exact hs.calls i c hi hc hown
  | unknown | device | found | leaveFound => exact hs.calls i c hi hc hown

theorem ClientEffect.buried (h : ClientEffect text slug s a t) (hs : s.Buried row n restores calls)
    {r' : ShareRow} (hr' : t.db.row row = some r') : t.Buried row n restores calls := by
  constructor
  · exact h.stored_kept hr' hs.stored
  · rcases hs.marked with ⟨node, hnode, hrow, hdead⟩
    rcases h.stays_dead n node hnode with ⟨node', hnode', hrow', hkept⟩
    exact ⟨node', hnode', hrow'.trans hrow, hkept hdead⟩
  · intro i c hi hc hown
    exact h.restore_findsDead hs hi hc hown
  · intro i c hi hc hown
    exact h.call_findsDead hs hi hc hown

end

/-!
## The gate
-/

/-- A call that may hold the gate. -/
def NodePhase.checking : NodePhase -> Bool
  | gated => false
  | returned _ => false
  | _ => true

/-- A gate is held by a call of its node that has not returned. -/
def Client.Gated (s : Client) : Prop :=
  forall (n : Nat) (node : GuestNode) (g : Nat), s.nodes[n]? = some node ->
    node.probeGate = some g ->
      exists c, s.calls[g]? = some c ∧ c.node = n ∧ c.phase.checking = true

section
variable {text : JsonText} {slug : Slugify} {s t : Client} {a : ClientAction} {i : Nat}

/-- A call moves on and the gates stay as they are. -/
theorem Client.Gated.moved (hs : s.Gated) {c : NodeCall} (hc : s.calls[i]? = some c)
    {phase : NodePhase} (hcalls : t.calls = s.calls.set i { c with phase := phase })
    (hnodes : forall (n : Nat) (node' : GuestNode), t.nodes[n]? = some node' -> exists node,
      s.nodes[n]? = some node ∧ node'.probeGate = node.probeGate)
    (hphase : c.phase.checking = true -> phase.checking = true) : t.Gated := by
  intro n node' g hnode' hgate
  rcases hnodes n node' hnode' with ⟨node, hnode, hsame⟩
  rcases hs n node g hnode (hsame ▸ hgate) with ⟨d, hd, hown, hchecking⟩
  by_cases hg : g = i
  · subst hg
    rw [hc] at hd
    cases hd
    rw [hcalls]
    exact ⟨{ c with phase := phase }, slot_set_self hc _, hown, hphase hchecking⟩
  · exact ⟨d, hcalls ▸ (slot_set_eq_some_iff hc).mpr (Or.inr ⟨hg, hd⟩), hown, hchecking⟩

theorem NodeEffect.keeps_gated {c : NodeCall} {node : GuestNode} {event : NodeEvent}
    (h : NodeEffect s i c node event t) (hs : s.Gated) (hc : s.calls[i]? = some c)
    (hnode : s.nodes[c.node]? = some node) : t.Gated := by
  have hsame : forall (n : Nat) (node' : GuestNode), s.nodes[n]? = some node' ->
      exists node, s.nodes[n]? = some node ∧ node'.probeGate = node.probeGate :=
    fun _ node' hnode' => ⟨node', hnode', rfl⟩
  cases h with
  | passed hphase htask =>
      refine hs.moved hc rfl hsame ?_
      rw [hphase]
      nofun
  | reconnecting | opening | probeLearned | streamLearned | wrote =>
      exact hs.moved hc rfl hsame fun _ => rfl
  | marked hphase =>
      refine hs.moved hc rfl ?_ fun _ => rfl
      intro n node' hnode'
      rcases (slot_set_eq_some_iff hnode).mp hnode' with ⟨rfl, rfl⟩ | ⟨-, hold⟩
      · exact ⟨node, hnode, rfl⟩
      · exact ⟨node', hold, rfl⟩
  | gated hphase hgate htask =>
      intro n node' g hnode' hheld
      rcases (slot_set_eq_some_iff hnode).mp hnode' with ⟨rfl, rfl⟩ | ⟨-, hold⟩
      · cases hheld
        exact ⟨_, slot_set_self hc _, rfl, rfl⟩
      · rcases hs n node' g hold hheld with ⟨d, hd, hown, hchecking⟩
        have hg : g ≠ i := by
          intro heq
          subst heq
          rw [hc] at hd
          cases hd
          rw [hphase] at hchecking
          cases hchecking
        exact ⟨d, (slot_set_eq_some_iff hc).mpr (Or.inr ⟨hg, hd⟩), hown, hchecking⟩
  | ended answer lastUsed hanswer =>
      intro n node' g hnode' hheld
      have hbefore : g ≠ i ∧ exists old, s.nodes[n]? = some old ∧ old.probeGate = some g := by
        rcases (slot_set_eq_some_iff hnode).mp hnode' with ⟨rfl, rfl⟩ | ⟨hn, hold⟩
        · simp only [GuestNode.leaveGate] at hheld
          split at hheld
          · cases hheld
          · rename_i hother
            refine ⟨?_, node, hnode, hheld⟩
            intro heq
            subst heq
            exact hother hheld
        · refine ⟨?_, node', hold, hheld⟩
          intro heq
          subst heq
          rcases hs n node' g hold hheld with ⟨d, hd, hown, -⟩
          rw [hc] at hd
          cases hd
          exact hn hown.symm
      rcases hbefore with ⟨hg, old, hold, hheld'⟩
      rcases hs n old g hold hheld' with ⟨d, hd, hown, hchecking⟩
      exact ⟨d, (slot_set_eq_some_iff hc).mpr (Or.inr ⟨hg, hd⟩), hown, hchecking⟩

theorem ClientEffect.keeps_gated (h : ClientEffect text slug s a t) (hs : s.Gated) : t.Gated := by
  cases h with
  | unknown | device | found | leaveFound => exact hs
  | called hn =>
      intro n node g hnode hheld
      rcases hs n node g hnode hheld with ⟨c, hc, hrest⟩
      exact ⟨c, slot_append_eq_some_iff.mpr (Or.inl hc), hrest⟩
  | restore hc heffect =>
      cases heffect with
      | created hphase =>
          intro n node g hnode hheld
          rcases slot_append_eq_some_iff.mp hnode with hold | ⟨-, rfl⟩
          · exact hs n node g hold hheld
          · cases hheld
      | checked | named | entered | served | acquired | labelled | addressed | rejected | wrote
      | dead | failed => exact hs
  | node hc hnode heffect => exact heffect.keeps_gated hs hc hnode
  | leaving hc heffect =>
      cases heffect with
      | removed | closing | closed | failed | goodbye | returned => exact hs

/-- A call past the gate can return at once, or has to mark its node first. -/
theorem nodeEvent_returns {c : NodeCall} {node : GuestNode} (hdead : node.dead.isSome = true)
    (hchecking : c.phase.checking = true)
    (hlearned : forall state, c.phase ≠ NodePhase.learned state) :
    exists event lastUsed answer, nodeEvent s i c node event =
      some (s.endCall i c { node with lastUsed := lastUsed } (NodePhase.returned answer)) ∧
      (c.phase = NodePhase.ready -> c.task ≠ NodeTask.checkConnection ->
        exists state, answer = NodeAnswer.terminal state) := by
  have hreturns : forall answer, exists answer',
      c.task.returns answer = NodePhase.returned answer' ∧
        (c.task ≠ NodeTask.checkConnection -> answer' = answer) := by
    intro answer
    cases c.task with
    | checkConnection => exact ⟨_, rfl, fun h => absurd rfl h⟩
    | openReverseProxyStream | openForwardProxyStream | refresh => exact ⟨_, rfl, fun _ => rfl⟩
  rcases Option.isSome_iff_exists.mp hdead with ⟨state, hstate⟩
  cases hphase : c.phase with
  | gated =>
      rw [hphase] at hchecking
      cases hchecking
  | returned answer =>
      rw [hphase] at hchecking
      cases hchecking
  | learned state => exact absurd hphase (hlearned state)
  | probing =>
      rcases hreturns NodeAnswer.checked with ⟨answer, heq, -⟩
      refine ⟨NodeEvent.probed (Except.ok ConnectionCheck.alive) false, node.lastUsed, answer, ?_,
        ?_⟩
      · simp only [nodeEvent, hphase, heq]
      · intro hready
        cases hready
  | ready =>
      rcases hreturns (NodeAnswer.terminal state) with ⟨answer, heq, hterminal⟩
      have hread : nodeEvent s i c node NodeEvent.readDead =
          some (s.endCall i c node (NodePhase.returned answer)) := by
        simp only [nodeEvent, hphase, hstate, heq]
      exact ⟨NodeEvent.readDead, node.lastUsed, answer, hread,
        fun _ htask => ⟨state, hterminal htask⟩⟩
  | opening =>
      rcases hreturns NodeAnswer.opened with ⟨answer, heq, -⟩
      refine ⟨NodeEvent.answer (Except.ok ()), true, answer, ?_, ?_⟩
      · simp only [nodeEvent, hphase, heq]
      · intro hready
        cases hready
  | marked told =>
      rcases hreturns (NodeAnswer.terminal told) with ⟨answer, heq, -⟩
      refine ⟨NodeEvent.storeFails, node.lastUsed, answer, ?_, ?_⟩
      · simp only [nodeEvent, hphase, heq]
      · intro hready
        cases hready
  | stored told =>
      rcases hreturns (NodeAnswer.terminal told) with ⟨answer, heq, -⟩
      refine ⟨NodeEvent.readShare, node.lastUsed, answer, ?_, ?_⟩
      · simp only [nodeEvent, hphase, heq]
      · intro hready
        cases hready

theorem clientStep_node {c : NodeCall} {node : GuestNode} {event : NodeEvent}
    (hc : s.calls[i]? = some c) (hnode : s.nodes[c.node]? = some node)
    (h : nodeEvent s i c node event = some t) :
    clientStep text slug s (ClientAction.node i event) = some t := by
  show ((s.calls[i]?).bind fun c => (s.nodes[c.node]?).bind fun node =>
    nodeEvent s i c node event) = some t
  rw [hc, Option.bind_some, hnode, Option.bind_some]
  exact h

/-- The gate of the node is free, and the calls other than that one are where they were. -/
def Freed (s t : Client) (n g : Nat) : Prop :=
  (exists node, t.nodes[n]? = some node ∧ node.probeGate = none ∧ node.dead.isSome = true) ∧
    forall j, j ≠ g -> t.calls[j]? = s.calls[j]?

/-- A holder of the gate that has nothing to mark returns, and gives it back. -/
theorem frees_at_once {c : NodeCall} {node : GuestNode} (hc : s.calls[i]? = some c)
    (hnode : s.nodes[c.node]? = some node) (hgate : node.probeGate = some i)
    (hdead : node.dead.isSome = true) (hchecking : c.phase.checking = true)
    (hlearned : forall state, c.phase ≠ NodePhase.learned state) :
    exists event t, clientStep text slug s (ClientAction.node i event) = some t ∧
      Freed s t c.node i := by
  rcases @nodeEvent_returns s i c node hdead hchecking hlearned with
    ⟨event, lastUsed, answer, hevent, -⟩
  refine ⟨event, _, clientStep_node hc hnode hevent, ?_, ?_⟩
  · exact ⟨_, slot_set_self hnode _, if_pos hgate, hdead⟩
  · intro j hj
    exact List.getElem?_set_ne fun h => hj h.symm

/-- Whoever holds the gate of a dead node can return, and gives it back. -/
theorem Client.Gated.frees (hs : s.Gated) {n : Nat} {node : GuestNode}
    (hnode : s.nodes[n]? = some node) (hdead : node.dead.isSome = true) :
    exists acts t, Run (clientStep text slug) s acts t ∧
      (exists node', t.nodes[n]? = some node' ∧ node'.probeGate = none ∧
        node'.dead.isSome = true) ∧
      forall (j : Nat) (d : NodeCall), s.calls[j]? = some d -> d.phase.checking = false ->
        t.calls[j]? = some d := by
  cases hgate : node.probeGate with
  | none => exact ⟨[], s, Run.nil s, ⟨node, hnode, hgate, hdead⟩, fun _ _ hd _ => hd⟩
  | some g =>
      rcases hs n node g hnode hgate with ⟨c, hc, rfl, hchecking⟩
      have hother : forall (j : Nat) (d : NodeCall), s.calls[j]? = some d ->
          d.phase.checking = false -> j ≠ g := by
        intro j d hd hidle heq
        subst heq
        rw [hc] at hd
        cases hd
        rw [hchecking] at hidle
        cases hidle
      by_cases hlearned : exists state, c.phase = NodePhase.learned state
      · rcases hlearned with ⟨state, hphase⟩
        let marked : Client := (s.moveCall g c (NodePhase.marked state)).setNode c.node
          { node with dead := some state }
        have hmark : clientStep text slug s (ClientAction.node g NodeEvent.markDead) =
            some marked := by
          refine clientStep_node hc hnode ?_
          simp only [nodeEvent, hphase]
          rfl
        have hcall : marked.calls[g]? = some { c with phase := NodePhase.marked state } :=
          slot_set_self hc _
        have hset : marked.nodes[c.node]? = some { node with dead := some state } :=
          slot_set_self hnode _
        have hdone : forall told, NodePhase.marked state ≠ NodePhase.learned told := by
          intro told hlearned
          cases hlearned
        rcases frees_at_once hcall hset hgate rfl rfl hdone with
          ⟨event, t, hstep, hfreed, hcalls⟩
        refine ⟨_, t, Run.cons hmark (Run.single hstep), hfreed, ?_⟩
        intro j d hd hidle
        have hj := hother j d hd hidle
        rw [hcalls j hj]
        exact (List.getElem?_set_ne fun h => hj h.symm).trans hd
      · rcases frees_at_once hc hnode hgate hdead hchecking (not_exists.mp hlearned) with
          ⟨event, t, hstep, hfreed, hcalls⟩
        refine ⟨_, t, Run.single hstep, hfreed, ?_⟩
        intro j d hd hidle
        rw [hcalls j (hother j d hd hidle)]
        exact hd

/-- A stream asked of a dead node, once it is through the gate, is answered with the mark. -/
theorem ready_is_answered {c : NodeCall} {node : GuestNode} (hc : s.calls[i]? = some c)
    (hnode : s.nodes[c.node]? = some node) (hdead : node.dead.isSome = true)
    (hphase : c.phase = NodePhase.ready) (htask : c.task ≠ NodeTask.checkConnection) :
    exists acts t state, Run (clientStep text slug) s acts t ∧
      t.calls[i]? = some { c with phase := NodePhase.returned (NodeAnswer.terminal state) } := by
  have hchecking : c.phase.checking = true := by
    rw [hphase]
    rfl
  have hlearned : forall state, c.phase ≠ NodePhase.learned state := by
    intro state h
    rw [hphase] at h
    cases h
  rcases @nodeEvent_returns s i c node hdead hchecking hlearned with
    ⟨event, lastUsed, answer, hevent, hterminal⟩
  rcases hterminal hphase htask with ⟨state, rfl⟩
  exact ⟨_, _, state, Run.single (clientStep_node hc hnode hevent), slot_set_self hc _⟩

/-- A stream asked of a dead node can be answered with the mark, wherever it stands. -/
theorem Client.Gated.stream_answered (hs : s.Gated) {c : NodeCall} {node : GuestNode}
    (hc : s.calls[i]? = some c) (hnode : s.nodes[c.node]? = some node)
    (hdead : node.dead.isSome = true) (hfinds : c.FindsDead)
    (htask : c.task ≠ NodeTask.checkConnection)
    (hdropped : c.phase ≠ NodePhase.returned NodeAnswer.dropped) :
    exists acts t state, Run (clientStep text slug) s acts t ∧
      t.calls[i]? = some { c with phase := NodePhase.returned (NodeAnswer.terminal state) } := by
  rcases c with ⟨n, task, phase⟩
  cases phase with
  | gated =>
      rcases hs.frees hnode hdead with ⟨acts, u, hrun, ⟨node', hnode', hgate, hdead'⟩, hkept⟩
      have hcall := hkept i _ hc rfl
      have hpass : clientStep text slug u (ClientAction.node i NodeEvent.passGate) =
          some (u.moveCall i ⟨n, task, NodePhase.gated⟩ NodePhase.ready) := by
        refine clientStep_node hcall hnode' ?_
        simp only [nodeEvent, hgate]
      have hready : (u.moveCall i ⟨n, task, NodePhase.gated⟩ NodePhase.ready).calls[i]? =
          some ⟨n, task, NodePhase.ready⟩ := slot_set_self hcall _
      rcases ready_is_answered hready hnode' hdead' rfl htask with ⟨rest, t, state, hrest, hend⟩
      exact ⟨_, t, state, hrun.append (Run.cons hpass hrest), hend⟩
  | ready => exact ready_is_answered hc hnode hdead rfl htask
  | returned answer =>
      cases answer with
      | terminal state => exact ⟨[], s, state, Run.nil s, hc⟩
      | dropped => exact absurd rfl hdropped
      | checked => exact absurd hfinds htask
      | opened | transient => cases hfinds
  | opening => cases hfinds
  | probing | learned | marked | stored => exact absurd hfinds htask

/-- A restore that looks at a dead share finds it dead. -/
theorem restore_answered {c : RestoreCall} (hc : s.restores[i]? = some c)
    (hstored : exists state, s.db.terminal c.row = some state) (hfinds : c.phase.FindsDead) :
    exists acts t state, Run (clientStep text slug) s acts t ∧
      t.restores[i]? =
        some { c with phase := RestorePhase.returned (some (Lookup.dead state)) } := by
  rcases c with ⟨row, phase⟩
  cases phase with
  | found =>
      rcases hstored with ⟨state, hstored⟩
      rcases terminal_eq_some hstored with ⟨r, hr, hterminal⟩
      have hread : s.db.readTerminalState row = some r.terminalState := by
        unfold DB.readTerminalState
        rw [hr]
        rfl
      have hstep : clientStep text slug s
          (ClientAction.restore i RestoreEvent.readTerminalState) =
            some (s.endRestore i ⟨row, RestorePhase.found⟩
              (RestorePhase.returned (some (Lookup.dead state)))) := by
        show ((s.restores[i]?).bind fun c => restoreEvent text s i c _) = _
        rw [hc, Option.bind_some]
        simp only [restoreEvent, hread, hterminal]
      exact ⟨_, _, state, Run.single hstep, slot_set_self hc _⟩
  | returned result =>
      rcases result with _ | _ | state | _
      · cases hfinds
      · cases hfinds
      · exact ⟨[], s, state, Run.nil s, hc⟩
      · cases hfinds
  | _ => cases hfinds

end

/-!
## No dial after the record
-/

/-- The share in that row is dead to every call that began after `s`: no such call restores its
transport or asks it for a stream, and each is or can be answered with a terminal state, but for
the checks, which return nothing. -/
structure DeadSince (text : JsonText) (slug : Slugify) (row : Int) (s t : Client) : Prop where
  restores : forall (i : Nat) (c : RestoreCall), s.restores.length ≤ i ->
    t.restores[i]? = some c -> c.row = row -> c.phase.FindsDead ∧
      exists acts u state, Run (clientStep text slug) t acts u ∧
        u.restores[i]? = some { c with phase := RestorePhase.returned (some (Lookup.dead state)) }
  calls : forall (i : Nat) (c : NodeCall) (node : GuestNode), s.calls.length ≤ i ->
    t.calls[i]? = some c -> t.nodes[c.node]? = some node -> node.row = row -> c.FindsDead ∧
      (c.task ≠ NodeTask.checkConnection ->
        c.phase ≠ NodePhase.returned NodeAnswer.dropped ->
          exists acts u state, Run (clientStep text slug) t acts u ∧
            u.calls[i]? =
              some { c with phase := NodePhase.returned (NodeAnswer.terminal state) })

section
variable {text : JsonText} {slug : Slugify} {s mid t : Client} {share : ShareId}

/-- What every state of a client has, from its start. -/
structure Client.Regular (share : ShareId) (s : Client) : Prop where
  coherent : s.Coherent
  marksFirst : s.MarksFirst
  gated : s.Gated
  whole : (forall c, c ∈ s.leaves -> c.share ≠ share) -> s.guestNodes.Whole share

theorem regular_start {device : Device} (hdevice : LabelsDistinct device.db) :
    (Client.start device).Regular share where
  coherent := coherent_start hdevice
  marksFirst := by
    intro c state hc
    cases hc
  gated := by
    intro n node g hnode
    cases hnode
  whole := fun _ => OnceMap.whole_empty share

theorem ClientEffect.regular {a : ClientAction} (h : ClientEffect text slug s a t)
    (hs : s.Regular share) : t.Regular share where
  coherent := h.coherent hs.coherent
  marksFirst := h.marksFirst hs.marksFirst
  gated := h.keeps_gated hs.gated
  whole := by
    intro hstays
    have hstays' : forall c, c ∈ s.leaves -> c.share ≠ share := by
      intro c hc
      rcases h.leaves_grow hc with ⟨d, hd, hshare⟩
      rw [← hshare]
      exact hstays d hd
    exact h.whole hstays' (hs.whole hstays')

/-- A dead share that is kept is dead to all later calls. -/
theorem Client.Regular.deadSince (hs : t.Regular share) {row : Int} {n : Nat}
    (hkept : t.Kept row share) (hburied : t.Buried row n s.restores.length s.calls.length) :
    DeadSince text slug row s t where
  restores := by
    intro i c hi hc hrow
    have hfinds := hburied.restores i c hi hc hrow
    exact ⟨hfinds, restore_answered hc (hrow ▸ hburied.stored) hfinds⟩
  calls := by
    intro i c node hi hc hnode hrow
    rcases hburied.marked with ⟨dead, hdeadNode, hdeadRow, hdead⟩
    have hown := hs.coherent.node_unique hkept (hs.whole hkept.stays) hdeadNode hnode hdeadRow hrow
    rw [hown, hdeadNode] at hnode
    cases hnode
    have hfinds := hburied.calls i c hi hc hown
    refine ⟨hfinds, ?_⟩
    intro htask hdropped
    exact hs.gated.stream_answered hc (hown ▸ hdeadNode) hdead hfinds htask hdropped

/-- The step that stores a terminal answer leaves the mark in both places. -/
theorem Client.Regular.buried (hs : s.Regular share) {i : Nat} {c : NodeCall} {node : GuestNode}
    (hc : s.calls[i]? = some c) (hnode : s.nodes[c.node]? = some node)
    (hwrite : clientStep text slug s (ClientAction.node i NodeEvent.writeTerminalState) = some mid)
    (hkept : mid.Kept node.row share) :
    mid.Buried node.row c.node mid.restores.length mid.calls.length := by
  have hevent : nodeEvent s i c node NodeEvent.writeTerminalState = some mid := by
    rcases Option.bind_eq_some_iff.mp hwrite with ⟨c', hc', hrest⟩
    rw [hc] at hc'
    cases hc'
    rcases Option.bind_eq_some_iff.mp hrest with ⟨node', hnode', hevent⟩
    rw [hnode] at hnode'
    cases hnode'
    exact hevent
  simp only [nodeEvent] at hevent
  split at hevent
  · rename_i state hphase
    cases hevent
    rcases hs.marksFirst c state (List.mem_of_getElem? hc) hphase with ⟨node', hnode', hdead⟩
    rw [hnode] at hnode'
    cases hnode'
    refine ⟨?_, ⟨node, hnode, rfl, hdead⟩, ?_, ?_⟩
    · rcases hkept.joined with ⟨r', hr', -⟩
      rcases Option.map_eq_some_iff.mp (DB.row_updateShare.symm.trans hr') with ⟨r, hr, -⟩
      exact ⟨state, terminal_writeTerminalState hr state⟩
    · intro j d hj hd
      exact absurd (slot_lt hd) (Nat.not_lt.mpr hj)
    · intro j d hj hd
      exact absurd (slot_lt hd) (Nat.not_lt.mpr hj)
  · cases hevent

/-- From the moment at which a terminal answer is stored, the mark in the node set before, the
share is dead to every call that begins, until it is left. -/
theorem dead_share_is_not_dialled {device : Device} {before : List DeviceAction}
    {front back : List ClientAction} {i : Nat} {c : NodeCall} {node : GuestNode}
    (hdevice : Run (deviceStep text slug) Device.start before device)
    (hfront : Run (clientStep text slug) (Client.start device) front s)
    (hc : s.calls[i]? = some c) (hnode : s.nodes[c.node]? = some node)
    (hwrite : clientStep text slug s (ClientAction.node i NodeEvent.writeTerminalState) = some mid)
    (hback : Run (clientStep text slug) mid back t) (hkept : t.Kept node.row share) :
    DeadSince text slug node.row mid t := by
  have hregular : s.Regular share :=
    hfront.invariant (fun _ _ _ hu h => (clientStep_effect h).regular hu)
      (regular_start (run_labels hdevice).toLabelsDistinct)
  have hmid := (clientStep_effect hwrite).regular hregular
  have hknown : node.row < mid.db.shares.nextId := by
    have hold := (hregular.coherent.nodes _ _ hnode).known
    exact Int.lt_of_lt_of_le hold ((clientStep_effect hwrite).grown hregular.coherent).rows.next
  have hend : t.Regular share ∧ node.row < t.db.shares.nextId ∧ (t.Kept node.row share ->
      t.Buried node.row c.node mid.restores.length mid.calls.length) := by
    refine @Run.invariant _ _ (clientStep text slug)
      (fun u => u.Regular share ∧ node.row < u.db.shares.nextId ∧ (u.Kept node.row share ->
        u.Buried node.row c.node mid.restores.length mid.calls.length)) ?_ _ _ _ hback
      ⟨hmid, hknown, hregular.buried hc hnode hwrite⟩
    intro u a v hkept hstep
    rcases hkept with ⟨hu, hknown, hburied⟩
    have heffect := clientStep_effect hstep
    have hnext := (heffect.grown hu.coherent).rows.next
    refine ⟨heffect.regular hu, Int.lt_of_lt_of_le hknown hnext, ?_⟩
    intro hkept
    rcases hkept.joined with ⟨r', hr', -⟩
    exact heffect.buried (hburied (heffect.kept_before hu.coherent hknown hkept)) hr'
  exact hend.left.deadSince hkept (hend.right.right hkept)

end

/-- The share is used again after its answer was stored. -/
def usedAgain : List ClientAction :=
  [ClientAction.restoreGuestNode SerialTable.QueryOrder.byId firstShare.text,
    ClientAction.call 0 NodeTask.refresh, ClientAction.call 0 NodeTask.checkConnection,
    ClientAction.node 2 NodeEvent.passGate]

theorem dead_share_is_not_dialled_when_revoked :
    exists device s mid t node,
      Run (deviceStep Json.compact Slugify.ascii) Device.start (wholeJoin 0 firstShare familyInfo)
        device ∧
      Run (clientStep Json.compact Slugify.ascii) (Client.start device)
        (firstRestore ++ openedAndRefused 0 NodeTask.refresh TerminalState.revoked ++
          [ClientAction.node 0 NodeEvent.markDead]) s ∧
      clientStep Json.compact Slugify.ascii s
        (ClientAction.node 0 NodeEvent.writeTerminalState) = some mid ∧
      Run (clientStep Json.compact Slugify.ascii) mid usedAgain t ∧ s.nodes[0]? = some node ∧
      DeadSince Json.compact Slugify.ascii node.row mid t := by
  have hend : ((exec (deviceStep Json.compact Slugify.ascii) Device.start
      (wholeJoin 0 firstShare familyInfo)).bind fun device =>
        (exec (clientStep Json.compact Slugify.ascii) (Client.start device)
          (firstRestore ++ openedAndRefused 0 NodeTask.refresh TerminalState.revoked ++
            [ClientAction.node 0 NodeEvent.markDead])).bind fun s =>
          (clientStep Json.compact Slugify.ascii s
            (ClientAction.node 0 NodeEvent.writeTerminalState)).bind fun mid =>
            (exec (clientStep Json.compact Slugify.ascii) mid usedAgain).map fun t =>
              ((s.calls[0]?).map NodeCall.node, (s.nodes[0]?).map GuestNode.row,
                (t.db.row 1).map ShareRow.shareId, t.leaves.isEmpty)) =
      some (some 0, some 1, some firstShare, true) := by
    decide +kernel
  rcases Option.bind_eq_some_iff.mp hend with ⟨device, hdevice, hrest⟩
  rcases Option.bind_eq_some_iff.mp hrest with ⟨s, hs, hrest⟩
  rcases Option.bind_eq_some_iff.mp hrest with ⟨mid, hmid, hrest⟩
  rcases Option.map_eq_some_iff.mp hrest with ⟨t, ht, heq⟩
  simp only [Prod.mk.injEq] at heq
  rcases heq with ⟨hcall, hnode, hrow, hleaves⟩
  rcases Option.map_eq_some_iff.mp hcall with ⟨c, hc, hzero⟩
  rcases Option.map_eq_some_iff.mp hnode with ⟨node, hnode, hone⟩
  rcases Option.map_eq_some_iff.mp hrow with ⟨r, hr, hshare⟩
  have hjoined := run_iff_exec.mpr hdevice
  have hfront := run_iff_exec.mpr hs
  have hback := run_iff_exec.mpr ht
  have hkept : t.Kept node.row firstShare := by
    refine ⟨⟨r, hone ▸ hr, hshare⟩, ?_⟩
    rw [List.isEmpty_iff.mp hleaves]
    nofun
  exact ⟨device, s, mid, t, node, hjoined, hfront, hmid, hback, hnode,
    dead_share_is_not_dialled hjoined hfront hc (hzero ▸ hnode) hmid hback hkept⟩

end Guest
end WispersAccess
