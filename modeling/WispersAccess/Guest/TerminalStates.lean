import WispersAccess.Guest.ClientRuns

/-!
# Terminal states

A terminal answer of the host is written over whatever is stored.  As long as no
two answers about a share differ, the state that is stored for it first stays; two
calls that are told different things leave what the later one writes.
-/

namespace WispersAccess
namespace Guest

open Foundation

/-!
## What a share is told
-/

/-- The terminal state that a restore is to store. -/
def RestorePhase.recording : RestorePhase -> Option TerminalState
  | rejected state => some state
  | _ => none

/-- The terminal state that a call of a node is to record. -/
def NodePhase.recording : NodePhase -> Option TerminalState
  | learned state => some state
  | marked state => some state
  | _ => none

namespace Client

/-- What a share has been told: what is stored for it, and what its calls are about to store. -/
def told (s : Client) (row : Int) : List TerminalState :=
  (s.db.terminal row).toList ++
    (s.restores.filterMap fun c => if c.row = row then c.phase.recording else none) ++
      s.calls.filterMap fun c =>
        if (s.nodes[c.node]?).any fun node => node.row = row then c.phase.recording else none

/-- What a step tells, and to which share. -/
def learns (s : Client) : ClientAction -> Option (Int × TerminalState)
  | ClientAction.restore i (RestoreEvent.answer (Except.error (TransportError.terminal state))) =>
      (s.restores[i]?).map fun c => (c.row, state)
  | ClientAction.node i (NodeEvent.answer (Except.error (TransportError.terminal state))) =>
      ((s.calls[i]?).bind fun c => s.nodes[c.node]?).map fun node => (node.row, state)
  | ClientAction.node i (NodeEvent.probed (Except.error (TransportError.terminal state)) _) =>
      ((s.calls[i]?).bind fun c => s.nodes[c.node]?).map fun node => (node.row, state)
  | _ => none

end Client

/-- A terminal answer about the share agrees with what the share has been told. -/
def TellsTheSame (row : Int) (s : Client) (a : ClientAction) : Prop :=
  forall state, s.learns a = some (row, state) -> forall other, other ∈ s.told row -> other = state

instance (row : Int) (s : Client) (a : ClientAction) : Decidable (TellsTheSame row s a) :=
  match hlearns : s.learns a with
  | none => isTrue fun _ h => absurd (hlearns.symm.trans h) nofun
  | some (id, state) =>
      decidable_of_iff (id = row -> forall other, other ∈ s.told row -> other = state)
        ⟨by
          intro h state' hstate' other hother
          rw [hlearns] at hstate'
          cases hstate'
          exact h rfl other hother,
        by
          intro h heq
          subst heq
          exact h state hlearns⟩

section
variable {s t : Client} {i : Nat}

theorem mem_told {row : Int} {state : TerminalState} :
    state ∈ s.told row <-> s.db.terminal row = some state ∨
      (exists c, c ∈ s.restores ∧ c.row = row ∧ c.phase.recording = some state) ∨
        exists c node, c ∈ s.calls ∧ s.nodes[c.node]? = some node ∧ node.row = row ∧
          c.phase.recording = some state := by
  unfold Client.told
  rw [List.mem_append, List.mem_append, or_assoc]
  refine or_congr ?_ (or_congr ?_ ?_)
  · exact Option.mem_toList
  · rw [List.mem_filterMap]
    refine exists_congr fun c => and_congr_right fun _ => ?_
    split
    · rename_i hrow
      exact ⟨fun h => ⟨hrow, h⟩, fun h => h.right⟩
    · rename_i hrow
      exact ⟨nofun, fun h => absurd h.left hrow⟩
  · rw [List.mem_filterMap]
    refine exists_congr fun c => ?_
    cases hnode : s.nodes[c.node]? with
    | none =>
        constructor
        · rintro ⟨_, hnone⟩
          cases hnone
        · rintro ⟨_, _, hnone, _⟩
          cases hnone
    | some node =>
        rw [Option.any_some]
        by_cases hrow : node.row = row
        · rw [decide_eq_true hrow, if_pos rfl]
          constructor
          · rintro ⟨hc, hphase⟩
            exact ⟨node, hc, rfl, hrow, hphase⟩
          · rintro ⟨_, hc, _, _, hphase⟩
            exact ⟨hc, hphase⟩
        · rw [decide_eq_false hrow, if_neg Bool.false_ne_true]
          constructor
          · rintro ⟨_, hnone⟩
            cases hnone
          · rintro ⟨other, _, hother, hsame, _⟩
            cases hother
            exact absurd hsame hrow

/-!
## What a step tells
-/

theorem RestoreEffect.recording {c : RestoreCall} {event : RestoreEvent}
    (h : RestoreEffect s i c event t) : exists phase,
      t.restores = s.restores.set i { c with phase := phase } ∧ t.calls = s.calls ∧
        forall state, phase.recording = some state ->
          event = RestoreEvent.answer (Except.error (TransportError.terminal state)) := by
  cases h with
  | rejected state hphase =>
      refine ⟨RestorePhase.rejected state, rfl, rfl, ?_⟩
      intro state' hstate
      cases hstate
      rfl
  | checked | named | entered | served | acquired | labelled | addressed | created | wrote | dead
  | failed => exact ⟨_, rfl, rfl, nofun⟩

theorem NodeEffect.recording {c : NodeCall} {node : GuestNode} {event : NodeEvent}
    (h : NodeEffect s i c node event t) : exists phase,
      t.calls = s.calls.set i { c with phase := phase } ∧ t.restores = s.restores ∧
        forall state, phase.recording = some state -> c.phase.recording = some state ∨
          (exists recentlyUsed, event =
            NodeEvent.probed (Except.error (TransportError.terminal state)) recentlyUsed) ∨
          event = NodeEvent.answer (Except.error (TransportError.terminal state)) := by
  cases h with
  | probeLearned state recentlyUsed hphase =>
      refine ⟨NodePhase.learned state, rfl, rfl, ?_⟩
      intro state' hstate
      cases hstate
      exact Or.inr (Or.inl ⟨recentlyUsed, rfl⟩)
  | streamLearned state hphase =>
      refine ⟨NodePhase.learned state, rfl, rfl, ?_⟩
      intro state' hstate
      cases hstate
      exact Or.inr (Or.inr rfl)
  | @marked state hphase =>
      refine ⟨NodePhase.marked state, rfl, rfl, ?_⟩
      intro state' hstate
      rw [hphase]
      exact Or.inl hstate
  | passed | gated | reconnecting | opening | wrote | ended => exact ⟨_, rfl, rfl, nofun⟩

/-- The terminal state of a row after a step: as before, what a call has stored, or that of a new
row. -/
theorem ClientEffect.terminal {text : JsonText} {slug : Slugify} {a : ClientAction}
    (h : ClientEffect text slug s a t) {row : Int} {r' : ShareRow}
    (hr' : t.db.row row = some r') : t.db.terminal row = s.db.terminal row ∨
      (exists state, state ∈ s.told row ∧ t.db.terminal row = some state) ∨
        (row = s.db.shares.nextId ∧ t.db.terminal row = none) := by
  have hsame : t.db = s.db -> t.db.terminal row = s.db.terminal row ∨
      (exists state, state ∈ s.told row ∧ t.db.terminal row = some state) ∨
        (row = s.db.shares.nextId ∧ t.db.terminal row = none) := by
    intro hdb
    rw [hdb]
    exact Or.inl rfl
  have hwrote : forall j state, (j = row -> state ∈ s.told row) ->
      t.db = s.db.writeTerminalState j state.asStr ->
      t.db.terminal row = s.db.terminal row ∨
        (exists state, state ∈ s.told row ∧ t.db.terminal row = some state) ∨
          (row = s.db.shares.nextId ∧ t.db.terminal row = none) := by
    intro j state htold hdb
    by_cases hj : j = row
    · subst hj
      rw [hdb] at hr'
      rcases Option.map_eq_some_iff.mp (DB.row_updateShare.symm.trans hr') with ⟨r, hr, -⟩
      exact Or.inr (Or.inl ⟨state, htold rfl, hdb ▸ terminal_writeTerminalState hr state⟩)
    · refine Or.inl ?_
      unfold DB.terminal
      rw [hdb]
      exact congrArg (Option.bind · _) (DB.row_updateShare_other fun h => hj h.symm)
  cases h with
  | unknown => exact hsame rfl
  | @device a device hown hstep =>
      have hstore := deviceStep_db hstep
      have hop : forall state, deviceOp slug s.device a ≠
          some (StoreOp.writeTerminalState row state) := by
        intro state heq
        exact deviceOp_ne_terminal hown heq
      cases hdevice : deviceOp slug s.device a with
      | none =>
          rw [hdevice] at hstore
          exact hsame (Option.some.inj hstore).symm
      | some op =>
          rw [hdevice] at hstore hop
          have hr'' : device.db.row row = some r' := hr'
          rcases storeStep_terminalState hstore (fun state heq => hop state (by rw [heq])) hr' with
            ⟨hid, hnone⟩ | ⟨r, hr, hterminal⟩
          · refine Or.inr (Or.inr ⟨hid, ?_⟩)
            show (device.db.row row).bind _ = none
            rw [hr'', Option.bind_some, hnone]
            rfl
          · refine Or.inl ?_
            show (device.db.row row).bind _ = (s.device.db.row row).bind _
            rw [hr'', hr, Option.bind_some, Option.bind_some, hterminal]
  | found hfind => exact hsame rfl
  | @restore i event c t hc heffect =>
      cases heffect with
      | @wrote state hphase =>
          refine hwrote c.row state ?_ rfl
          intro hj
          refine mem_told.mpr (Or.inr (Or.inl ⟨c, List.mem_of_getElem? hc, hj, ?_⟩))
          rw [hphase]
          rfl
      | checked | named | entered | served | acquired | labelled | addressed | created | rejected
      | dead | failed => exact hsame rfl
  | called hn => exact hsame rfl
  | @node i event c node t hc hnode heffect =>
      cases heffect with
      | @wrote state hphase =>
          refine hwrote node.row state ?_ rfl
          intro hj
          refine mem_told.mpr
            (Or.inr (Or.inr ⟨c, node, List.mem_of_getElem? hc, hnode, hj, ?_⟩))
          rw [hphase]
          rfl
      | passed | gated | reconnecting | opening | probeLearned | streamLearned | marked | ended =>
          exact hsame rfl
  | leaveFound hfind => exact hsame rfl
  | leaving hc heffect =>
      cases heffect with
      | removed | closing | closed | failed | goodbye | returned => exact hsame rfl

/-- What a restore writes down after a step, it was told before or by the step. -/
theorem ClientEffect.told_restore {text : JsonText} {slug : Slugify} {a : ClientAction}
    (h : ClientEffect text slug s a t) {row : Int} {state : TerminalState} {c : RestoreCall}
    (hc : c ∈ t.restores) (hrow : c.row = row) (hrecording : c.phase.recording = some state) :
    state ∈ s.told row ∨ s.learns a = some (row, state) := by
  have hold : c ∈ s.restores -> state ∈ s.told row := by
    intro hmem
    exact mem_told.mpr (Or.inr (Or.inl ⟨c, hmem, hrow, hrecording⟩))
  cases h with
  | found hfind =>
      rcases List.mem_append.mp hc with hmem | hnew
      · exact Or.inl (hold hmem)
      · rw [List.mem_singleton.mp hnew] at hrecording
        cases hrecording
  | @restore i event d t hd heffect =>
      rcases heffect.recording with ⟨phase, hrestores, -, htells⟩
      rw [hrestores] at hc
      rcases List.mem_or_eq_of_mem_set hc with hmem | rfl
      · exact Or.inl (hold hmem)
      · refine Or.inr ?_
        rw [htells state hrecording]
        show (s.restores[i]?).map _ = _
        rw [hd, ← hrow]
        rfl
  | @node i event d node t hd hnode heffect =>
      rcases heffect.recording with ⟨phase, -, hrestores, -⟩
      rw [hrestores] at hc
      exact Or.inl (hold hc)
  | leaving hd heffect =>
      cases heffect with
      | removed | closing | closed | failed | goodbye | returned => exact Or.inl (hold hc)
  | unknown | device | called | leaveFound => exact Or.inl (hold hc)

/-- What a call of a node writes down after a step, it was told before or by the step. -/
theorem ClientEffect.told_call {text : JsonText} {slug : Slugify} {a : ClientAction}
    (h : ClientEffect text slug s a t) (hs : s.Coherent) {row : Int} {state : TerminalState}
    {c : NodeCall} {node : GuestNode} (hc : c ∈ t.calls) (hnode : t.nodes[c.node]? = some node)
    (hrow : node.row = row) (hrecording : c.phase.recording = some state) :
    state ∈ s.told row ∨ s.learns a = some (row, state) := by
  have hgrown := h.grown hs
  have hold : c ∈ s.calls -> state ∈ s.told row := by
    intro hmem
    rcases List.getElem?_of_mem hmem with ⟨j, hj⟩
    have hbefore := List.getElem?_eq_getElem (hs.calls j c hj)
    rcases hgrown.nodes _ _ hbefore with ⟨node', hnode', hsame, -⟩
    rw [hnode] at hnode'
    cases hnode'
    exact mem_told.mpr (Or.inr (Or.inr ⟨c, _, hmem, hbefore, hsame ▸ hrow, hrecording⟩))
  cases h with
  | called hn =>
      rcases List.mem_append.mp hc with hmem | hnew
      · exact Or.inl (hold hmem)
      · rw [List.mem_singleton.mp hnew] at hrecording
        cases hrecording
  | @node i event d node' t hd hnode' heffect =>
      rcases heffect.recording with ⟨phase, hcalls, -, htells⟩
      rw [hcalls] at hc
      rcases List.mem_or_eq_of_mem_set hc with hmem | rfl
      · exact Or.inl (hold hmem)
      · have hrow' : node'.row = row := by
          rcases hgrown.nodes _ _ hnode' with ⟨later, hlater, hsame, -⟩
          rw [hnode] at hlater
          cases hlater
          exact hsame ▸ hrow
        have hfound : ((s.calls[i]?).bind fun c => s.nodes[c.node]?) = some node' := by
          rw [hd, Option.bind_some, hnode']
        rcases htells state hrecording with hbefore | ⟨recentlyUsed, rfl⟩ | rfl
        · exact Or.inl (mem_told.mpr
            (Or.inr (Or.inr ⟨d, node', List.mem_of_getElem? hd, hnode', hrow', hbefore⟩)))
        · refine Or.inr ?_
          show ((s.calls[i]?).bind fun c => s.nodes[c.node]?).map _ = _
          rw [hfound, ← hrow']
          rfl
        · refine Or.inr ?_
          show ((s.calls[i]?).bind fun c => s.nodes[c.node]?).map _ = _
          rw [hfound, ← hrow']
          rfl
  | @restore i event d t hd heffect =>
      rcases heffect.recording with ⟨phase, -, hcalls, -⟩
      rw [hcalls] at hc
      exact Or.inl (hold hc)
  | leaving hd heffect =>
      cases heffect with
      | removed | closing | closed | failed | goodbye | returned => exact Or.inl (hold hc)
  | unknown | device | found | leaveFound => exact Or.inl (hold hc)

/-- What a share has been told after a step, it was told before or by the step. -/
theorem ClientEffect.told {text : JsonText} {slug : Slugify} {a : ClientAction}
    (h : ClientEffect text slug s a t) (hs : s.Coherent) {row : Int} {state : TerminalState}
    (htold : state ∈ t.told row) : state ∈ s.told row ∨ s.learns a = some (row, state) := by
  rcases mem_told.mp htold with hterminal | ⟨c, hc, hrow, hrecording⟩ |
    ⟨c, node, hc, hnode, hrow, hrecording⟩
  · rcases terminal_eq_some hterminal with ⟨r', hr', -⟩
    rcases h.terminal hr' with hsame | ⟨other, hother, hstored⟩ | ⟨-, hnone⟩
    · exact Or.inl (mem_told.mpr (Or.inl (hsame ▸ hterminal)))
    · rw [hterminal] at hstored
      cases hstored
      exact Or.inl hother
    · rw [hterminal] at hnone
      cases hnone
  · exact h.told_restore hc hrow hrecording
  · exact h.told_call hs hc hnode hrow hrecording

end

/-!
## The first state stays
-/

/-- A share has been told one terminal state at most. -/
def Client.Agreed (s : Client) (row : Int) : Prop :=
  forall state other, state ∈ s.told row -> other ∈ s.told row -> state = other

theorem agreed_start (device : Device) (row : Int) : (Client.start device).Agreed row := by
  have htold : forall state, state ∈ (Client.start device).told row ->
      (Client.start device).db.terminal row = some state := by
    intro state hstate
    rcases mem_told.mp hstate with hterminal | ⟨c, hc, -⟩ | ⟨c, node, hc, -⟩
    · exact hterminal
    · cases hc
    · cases hc
  intro state other hstate hother
  exact Option.some.inj ((htold state hstate).symm.trans (htold other hother))

section
variable {text : JsonText} {slug : Slugify} {s t : Client} {row : Int} {state : TerminalState}

theorem ClientEffect.agreed {a : ClientAction} (h : ClientEffect text slug s a t)
    (hs : s.Coherent) (hsame : TellsTheSame row s a) (hagreed : s.Agreed row) :
    t.Agreed row := by
  intro x y hx hy
  rcases h.told hs hx with hx | hx
  · rcases h.told hs hy with hy | hy
    · exact hagreed x y hx hy
    · exact hsame y hy x hx
  · rcases h.told hs hy with hy | hy
    · exact (hsame x hx y hy).symm
    · rw [hx] at hy
      cases hy
      rfl

/-- What is stored stays as long as its row does, if the share is told nothing else. -/
theorem ClientEffect.terminal_kept {a : ClientAction} (h : ClientEffect text slug s a t)
    (hagreed : s.Agreed row) (hstored : s.db.terminal row = some state) {r' : ShareRow}
    (hr' : t.db.row row = some r') : t.db.terminal row = some state := by
  rcases h.terminal hr' with hsame | ⟨other, hother, hwritten⟩ | ⟨hid, -⟩
  · rw [hsame]
    exact hstored
  · rw [hwritten]
    exact congrArg some (hagreed other state hother (mem_told.mpr (Or.inl hstored)))
  · rcases terminal_eq_some hstored with ⟨r, hr, -⟩
    exact absurd hid (SerialTable.ne_nextId_of_lookup hr)

/-- In every run in which no terminal answer about a share differs from what the share has been
told before, the terminal state that is stored for it stays until its row is deleted. -/
theorem terminal_state_is_final {device : Device} {before : List DeviceAction}
    {front back : List ClientAction} {r : ShareRow}
    (hdevice : Run (deviceStep text slug) Device.start before device)
    (hfront : Run (clientStep text slug) (Client.start device) front s)
    (hback : Run (clientStep text slug) s back t)
    (hmeets : Meets (clientStep text slug) (TellsTheSame row) (Client.start device)
      (front ++ back))
    (hstored : s.db.terminal row = some state) (hr : t.db.row row = some r) :
    t.db.terminal row = some state := by
  rcases (meets_append hfront).mp hmeets with ⟨hmeets, hmeets'⟩
  have hagreed : s.Coherent ∧ s.Agreed row := by
    refine @Run.invariant_of_meets _ _ (clientStep text slug) (TellsTheSame row)
      (fun u => u.Coherent ∧ u.Agreed row) ?_ _ _ _ hfront hmeets
      ⟨coherent_start (run_labels hdevice).toLabelsDistinct, agreed_start device row⟩
    intro u a v h hsame hstep
    rcases h with ⟨hu, hagreed⟩
    have heffect := clientStep_effect hstep
    exact ⟨heffect.coherent hu, heffect.agreed hu hsame hagreed⟩
  have hknown : row < s.db.shares.nextId := by
    rcases terminal_eq_some hstored with ⟨r, hr, -⟩
    exact SerialTable.lt_nextId_of_lookup hr
  -- the row is deleted for good, so that it was there all the time
  have hend : (t.Coherent ∧ t.Agreed row) ∧ row < t.db.shares.nextId ∧
      forall r, t.db.row row = some r -> t.db.terminal row = some state := by
    refine @Run.invariant_of_meets _ _ (clientStep text slug) (TellsTheSame row)
      (fun u => (u.Coherent ∧ u.Agreed row) ∧ row < u.db.shares.nextId ∧
        forall r, u.db.row row = some r -> u.db.terminal row = some state) ?_ _ _ _ hback hmeets'
      ⟨hagreed, hknown, fun _ _ => hstored⟩
    intro u a v h hsame hstep
    rcases h with ⟨⟨hu, hagreed⟩, hknown, hkept⟩
    have heffect := clientStep_effect hstep
    have hrows := (heffect.grown hu).rows
    refine ⟨⟨heffect.coherent hu, heffect.agreed hu hsame hagreed⟩,
      Int.lt_of_lt_of_le hknown hrows.next, ?_⟩
    intro r' hr'
    rcases hrows.origin row r' hr' hknown with ⟨r, hr, -⟩
    exact heffect.terminal_kept hagreed (hkept r hr) hr'
  exact hend.right.right r hr

end

/-- A share is restored for the first time, as the client's first call. -/
def firstRestore : List ClientAction :=
  ClientAction.restoreGuestNode SerialTable.QueryOrder.byId firstShare.text ::
    [RestoreEvent.readTerminalState, RestoreEvent.readShareId, RestoreEvent.takeEntry,
      RestoreEvent.enterCell, RestoreEvent.readNames, RestoreEvent.readHost,
      RestoreEvent.answer (Except.ok ())].map (ClientAction.restore 0)

/-- The i-th call asks the first node for a stream, which is turned away for good. -/
def openedAndRefused (i : Nat) (task : NodeTask) (state : TerminalState) : List ClientAction :=
  ClientAction.call 0 task ::
    [NodeEvent.passGate, NodeEvent.readDead,
      NodeEvent.answer (Except.error (TransportError.terminal state))].map (ClientAction.node i)

def recorded (i : Nat) : List ClientAction :=
  [NodeEvent.markDead, NodeEvent.writeTerminalState, NodeEvent.readShare].map
    (ClientAction.node i)

/-- Two streams are asked for, and both are told that the device is revoked. -/
def revokedTwice : List ClientAction :=
  firstRestore ++ openedAndRefused 0 NodeTask.refresh TerminalState.revoked ++
    openedAndRefused 1 (NodeTask.openReverseProxyStream "photos") TerminalState.revoked ++
      recorded 0

theorem terminal_state_is_final_when_revoked_twice :
    exists device s t,
      Run (deviceStep Json.compact Slugify.ascii) Device.start (wholeJoin 0 firstShare familyInfo)
        device ∧
      Run (clientStep Json.compact Slugify.ascii) (Client.start device) revokedTwice s ∧
      Run (clientStep Json.compact Slugify.ascii) s (recorded 1) t ∧
      t.db.terminal 1 = some TerminalState.revoked := by
  have hend : ((exec (deviceStep Json.compact Slugify.ascii) Device.start
      (wholeJoin 0 firstShare familyInfo)).bind fun device =>
        (exec (clientStep Json.compact Slugify.ascii) (Client.start device) revokedTwice).bind
          fun s => (exec (clientStep Json.compact Slugify.ascii) s (recorded 1)).map fun t =>
            (decide (Meets (clientStep Json.compact Slugify.ascii) (TellsTheSame 1)
              (Client.start device) (revokedTwice ++ recorded 1)),
              s.db.terminal 1, (t.db.row 1).isSome)) =
      some (true, some TerminalState.revoked, true) := by
    decide +kernel
  rcases Option.bind_eq_some_iff.mp hend with ⟨device, hdevice, hrest⟩
  rcases Option.bind_eq_some_iff.mp hrest with ⟨s, hs, hlast⟩
  rcases Option.map_eq_some_iff.mp hlast with ⟨t, ht, heq⟩
  simp only [Prod.mk.injEq] at heq
  rcases heq with ⟨hmeets, hrevoked, hrow⟩
  rcases Option.isSome_iff_exists.mp hrow with ⟨r, hr⟩
  have hjoined := run_iff_exec.mpr hdevice
  have hfront := run_iff_exec.mpr hs
  have hback := run_iff_exec.mpr ht
  exact ⟨device, s, t, hjoined, hfront, hback,
    terminal_state_is_final hjoined hfront hback (of_decide_eq_true hmeets) hrevoked hr⟩

/-!
## Two answers that differ
-/

/-- Two streams are asked for, and the device is found revoked by one and removed by the other. -/
def toldTwice : List ClientAction :=
  firstRestore ++ openedAndRefused 0 NodeTask.refresh TerminalState.revoked ++
    openedAndRefused 1 (NodeTask.openReverseProxyStream "photos") TerminalState.removed ++
      recorded 0

/-- The share is stored as revoked, and then as removed. -/
theorem later_answer_overwrites :
    exists device s t,
      Run (deviceStep Json.compact Slugify.ascii) Device.start (wholeJoin 0 firstShare familyInfo)
        device ∧
      Run (clientStep Json.compact Slugify.ascii) (Client.start device) toldTwice s ∧
      Run (clientStep Json.compact Slugify.ascii) s (recorded 1) t ∧
      s.db.terminal 1 = some TerminalState.revoked ∧ (t.db.row 1).isSome = true ∧
      t.db.terminal 1 = some TerminalState.removed := by
  have hend : ((exec (deviceStep Json.compact Slugify.ascii) Device.start
      (wholeJoin 0 firstShare familyInfo)).bind fun device =>
        (exec (clientStep Json.compact Slugify.ascii) (Client.start device) toldTwice).bind fun s =>
          (exec (clientStep Json.compact Slugify.ascii) s (recorded 1)).map fun t =>
            (s.db.terminal 1, (t.db.row 1).isSome, t.db.terminal 1)) =
      some (some TerminalState.revoked, true, some TerminalState.removed) := by
    decide +kernel
  rcases Option.bind_eq_some_iff.mp hend with ⟨device, hdevice, hrest⟩
  rcases Option.bind_eq_some_iff.mp hrest with ⟨s, hs, hlast⟩
  rcases Option.map_eq_some_iff.mp hlast with ⟨t, ht, heq⟩
  simp only [Prod.mk.injEq] at heq
  rcases heq with ⟨hrevoked, hrow, hremoved⟩
  exact ⟨device, s, t, run_iff_exec.mpr hdevice, run_iff_exec.mpr hs, run_iff_exec.mpr ht,
    hrevoked, hrow, hremoved⟩

end Guest
end WispersAccess
