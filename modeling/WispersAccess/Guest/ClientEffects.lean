import WispersAccess.Guest.GuestNodes

/-!
# What a step of the client does

Everything that a step of a restore, of a guest node or of a leave can do, with
what the call has seen when it does it.
-/

namespace WispersAccess
namespace Guest

open Foundation

section
variable (text : JsonText) (s : Client) (i : Nat)

/-- Everything that a step of a restore can do. -/
inductive RestoreEffect (c : RestoreCall) : RestoreEvent -> Client -> Prop where
  | checked {r : ShareRow} (hphase : c.phase = RestorePhase.found) (hr : s.db.row c.row = some r)
      (hterminal : r.terminalState.bind TerminalState.parse = none) :
      RestoreEffect c RestoreEvent.readTerminalState (s.moveRestore i c RestorePhase.alive)
  | named {r : ShareRow} (hphase : c.phase = RestorePhase.alive) (hr : s.db.row c.row = some r) :
      RestoreEffect c RestoreEvent.readShareId (s.moveRestore i c (RestorePhase.named r.shareId))
  | entered {share : ShareId} {cell : Nat} {m : OnceMap ShareId Nat}
      (hphase : c.phase = RestorePhase.named share)
      (hentry : OnceMap.EntryStep s.guestNodes share m cell) :
      RestoreEffect c RestoreEvent.takeEntry
        { s.moveRestore i c (RestorePhase.waiting share cell) with guestNodes := m }
  | served {share : ShareId} {cell node : Nat} (hphase : c.phase = RestorePhase.waiting share cell)
      (hvalue : s.guestNodes.value cell = some node) :
      RestoreEffect c RestoreEvent.enterCell
        (s.moveRestore i c (RestorePhase.returned (some (Lookup.live node))))
  | acquired {share : ShareId} {cell : Nat} {m : OnceMap ShareId Nat}
      (hphase : c.phase = RestorePhase.waiting share cell)
      (hacquire : s.guestNodes.acquire cell i = some m) :
      RestoreEffect c RestoreEvent.enterCell
        { s.moveRestore i c (RestorePhase.initialising share cell) with guestNodes := m }
  | labelled {share : ShareId} {cell : Nat} (label : String)
      (hphase : c.phase = RestorePhase.initialising share cell) :
      RestoreEffect c RestoreEvent.readNames
        (s.moveRestore i c (RestorePhase.labelled share cell label))
  | addressed {share : ShareId} {cell : Nat} {label : String} {r : ShareRow}
      (hphase : c.phase = RestorePhase.labelled share cell label)
      (hr : s.db.row c.row = some r) :
      RestoreEffect c RestoreEvent.readHost
        (s.moveRestore i c (RestorePhase.restoring share cell label r.hostColumns))
  | created {share : ShareId} {cell : Nat} {label : String} {host : HostColumns}
      (hphase : c.phase = RestorePhase.restoring share cell label host) :
      RestoreEffect c (RestoreEvent.answer (Except.ok ()))
        { s.moveRestore i c (RestorePhase.returned (some (Lookup.live s.nodes.length))) with
          guestNodes := s.guestNodes.fill cell s.nodes.length
          nodes := s.nodes ++ [GuestNode.new label c.row host] }
  | rejected {share : ShareId} {cell : Nat} {label : String} {host : HostColumns}
      (state : TerminalState) (hphase : c.phase = RestorePhase.restoring share cell label host) :
      RestoreEffect c (RestoreEvent.answer (Except.error (TransportError.terminal state)))
        (s.endRestore i c (RestorePhase.rejected state))
  | wrote {state : TerminalState} (hphase : c.phase = RestorePhase.rejected state) :
      RestoreEffect c RestoreEvent.writeTerminalState
        ((s.moveRestore i c (RestorePhase.stored state)).writeTerminalState c.row state)
  /-- The share is found dead in the store, or was turned away by its host. -/
  | dead {event : RestoreEvent} {state : TerminalState} (hphase : c.phase = RestorePhase.found ∨
        c.phase = RestorePhase.stored state) :
      RestoreEffect c event (s.endRestore i c (RestorePhase.returned (some (Lookup.dead state))))
  /-- An error is returned, in no case where the call has yet to look at its row and finds it. -/
  | failed {event : RestoreEvent} (hrunning : forall result, c.phase ≠ RestorePhase.returned result)
      (hfound : c.phase = RestorePhase.found -> s.db.row c.row = none) :
      RestoreEffect c event (s.endRestore i c (RestorePhase.returned none))

/-- What a call returns, by what it has met. -/
inductive NodeAnswered (c : NodeCall) (node : GuestNode) : NodeAnswer -> Prop where
  | opened (htask : c.task ≠ NodeTask.checkConnection) (hphase : c.phase = NodePhase.opening) :
      NodeAnswered c node NodeAnswer.opened
  | transient (htask : c.task ≠ NodeTask.checkConnection) (hphase : c.phase = NodePhase.opening) :
      NodeAnswered c node NodeAnswer.transient
  | terminal {state : TerminalState} (htask : c.task ≠ NodeTask.checkConnection) :
      NodeAnswered c node (NodeAnswer.terminal state)
  | checked (hcheck : c.phase = NodePhase.probing ∨ c.task = NodeTask.checkConnection) :
      NodeAnswered c node NodeAnswer.checked
  | dropped : NodeAnswered c node NodeAnswer.dropped

/-- Everything that a step of a guest node can do. -/
inductive NodeEffect (c : NodeCall) (node : GuestNode) : NodeEvent -> Client -> Prop where
  | passed (hphase : c.phase = NodePhase.gated) (htask : c.task ≠ NodeTask.checkConnection) :
      NodeEffect c node NodeEvent.passGate (s.moveCall i c NodePhase.ready)
  | gated (hphase : c.phase = NodePhase.gated) (hgate : node.probeGate = none)
      (htask : c.task = NodeTask.checkConnection) :
      NodeEffect c node NodeEvent.passGate
        ((s.moveCall i c NodePhase.probing).setNode c.node { node with probeGate := some i })
  /-- A check goes on to reconnect. -/
  | reconnecting {event : NodeEvent} (hphase : c.phase = NodePhase.probing) :
      NodeEffect c node event (s.moveCall i c NodePhase.ready)
  | opening (hphase : c.phase = NodePhase.ready) (hdead : node.dead = none) :
      NodeEffect c node NodeEvent.readDead (s.moveCall i c NodePhase.opening)
  | probeLearned (state : TerminalState) (recentlyUsed : Bool)
      (hphase : c.phase = NodePhase.probing) :
      NodeEffect c node
        (NodeEvent.probed (Except.error (TransportError.terminal state)) recentlyUsed)
        (s.moveCall i c (NodePhase.learned state))
  | streamLearned (state : TerminalState) (hphase : c.phase = NodePhase.opening) :
      NodeEffect c node (NodeEvent.answer (Except.error (TransportError.terminal state)))
        (s.moveCall i c (NodePhase.learned state))
  | marked {state : TerminalState} (hphase : c.phase = NodePhase.learned state) :
      NodeEffect c node NodeEvent.markDead
        ((s.moveCall i c (NodePhase.marked state)).setNode c.node { node with dead := some state })
  | wrote {state : TerminalState} (hphase : c.phase = NodePhase.marked state) :
      NodeEffect c node NodeEvent.writeTerminalState
        ((s.moveCall i c (NodePhase.stored state)).writeTerminalState node.row state)
  | ended {event : NodeEvent} (answer : NodeAnswer) (lastUsed : Bool)
      (hanswer : NodeAnswered c node answer) :
      NodeEffect c node event
        (s.endCall i c { node with lastUsed := lastUsed } (NodePhase.returned answer))

/-- Everything that a step of a leave can do. -/
inductive LeaveEffect (c : LeaveCall) : Client -> Prop where
  | removed (hphase : c.phase = LeavePhase.found) :
      LeaveEffect c
        { s.moveLeave i c (LeavePhase.removed (s.guestNodes.entry c.share)) with
          guestNodes := s.guestNodes.remove c.share }
  | closing {cell : Option Nat} (node : Nat) (hphase : c.phase = LeavePhase.removed cell) :
      LeaveEffect c (s.moveLeave i c (LeavePhase.closing node))
  | closed (hphase : (exists cell, c.phase = LeavePhase.removed cell) ∨
        exists node, c.phase = LeavePhase.closing node) :
      LeaveEffect c (s.moveLeave i c LeavePhase.closed)
  | failed (hphase : c.phase = LeavePhase.closed) :
      LeaveEffect c (s.moveLeave i c (LeavePhase.returned false))
  | goodbye {transport : Transport} (hphase : c.phase = LeavePhase.closed)
      (hread : s.db.readTransportKind c.row = some transport) :
      LeaveEffect c
        { s.moveLeave i c (LeavePhase.goodbye s.device.calls.length) with
          device := s.device.begin s.db c.row (Phase.leaving transport false) }
  | returned {call : Nat} {row : Int} (hphase : c.phase = LeavePhase.goodbye call)
      (hcall : s.device.calls[call]? = some ⟨row, Phase.returned⟩) :
      LeaveEffect c (s.moveLeave i c (LeavePhase.returned true))

end

section
variable {text : JsonText} {slug : Slugify} {s t : Client} {i : Nat}

theorem moveRestore_eq_endRestore {c : RestoreCall} {phase : RestorePhase}
    (hholds : c.phase.holds = none) : s.endRestore i c phase = s.moveRestore i c phase := by
  unfold Client.endRestore RestorePhase.giveBack
  rw [hholds]
  rfl

theorem readTerminalState_eq_some {db : DB} {id : Int} {column : Option String}
    (h : db.readTerminalState id = some column) :
    exists r, db.row id = some r ∧ r.terminalState = column :=
  Option.map_eq_some_iff.mp h

/-- An error after the row is found. -/
theorem RestoreEffect.of_failed {c : RestoreCall} {event : RestoreEvent} {phase : RestorePhase}
    (hphase : c.phase = phase) (hrunning : forall result, phase ≠ RestorePhase.returned result)
    (hfound : phase ≠ RestorePhase.found) :
    RestoreEffect s i c event (s.endRestore i c (RestorePhase.returned none)) := by
  refine RestoreEffect.failed (fun result h => hrunning result (hphase.symm.trans h)) ?_
  intro h
  exact absurd (hphase.symm.trans h) hfound

theorem restoreEvent_effect {c : RestoreCall} {event : RestoreEvent}
    (h : restoreEvent text s i c event = some t) : RestoreEffect s i c event t := by
  cases event with
  | readTerminalState =>
      simp only [restoreEvent] at h
      split at h
      · rename_i hphase
        split at h
        · rename_i hread
          cases h
          exact RestoreEffect.failed (fun _ h => absurd (hphase.symm.trans h) nofun)
            fun _ => Option.map_eq_none_iff.mp hread
        · rename_i column hread
          rcases readTerminalState_eq_some hread with ⟨r, hr, rfl⟩
          split at h
          · cases h
            exact RestoreEffect.dead (Or.inl hphase)
          · rename_i hterminal
            cases h
            exact RestoreEffect.checked hphase hr hterminal
      · cases h
  | readShareId =>
      simp only [restoreEvent] at h
      split at h
      · rename_i hphase
        split at h
        · cases h
          exact RestoreEffect.of_failed hphase nofun nofun
        · rename_i share hread
          rcases Option.map_eq_some_iff.mp hread with ⟨r, hr, rfl⟩
          cases h
          exact RestoreEffect.named hphase hr
      · cases h
  | takeEntry =>
      simp only [restoreEvent] at h
      split at h
      · rename_i share hphase
        cases h
        exact RestoreEffect.entered hphase (OnceMap.entryOrDefault_step _ _)
      · cases h
  | enterCell =>
      simp only [restoreEvent] at h
      split at h
      · rename_i share cell hphase
        split at h
        · rename_i node hvalue
          cases h
          rw [moveRestore_eq_endRestore (by rw [hphase]; rfl)]
          exact RestoreEffect.served hphase hvalue
        · rcases Option.map_eq_some_iff.mp h with ⟨m, hacquire, rfl⟩
          exact RestoreEffect.acquired hphase hacquire
      · cases h
  | readNames =>
      simp only [restoreEvent] at h
      split at h
      · rename_i share cell hphase
        split at h
        · cases h
          exact RestoreEffect.of_failed hphase nofun nofun
        · cases h
          exact RestoreEffect.labelled _ hphase
      · cases h
  | readHost =>
      simp only [restoreEvent] at h
      split at h
      · rename_i share cell label hphase
        split at h
        · cases h
          exact RestoreEffect.of_failed hphase nofun nofun
        · rename_i r hr
          cases h
          exact RestoreEffect.addressed hphase hr
      · cases h
  | answer transport =>
      simp only [restoreEvent] at h
      split at h
      · rename_i share cell label host hphase
        split at h
        · cases h
          exact RestoreEffect.created hphase
        · rename_i state
          cases h
          exact RestoreEffect.rejected state hphase
        · cases h
          exact RestoreEffect.of_failed hphase nofun nofun
      · cases h
  | writeTerminalState =>
      simp only [restoreEvent] at h
      split at h
      · rename_i state hphase
        cases h
        exact RestoreEffect.wrote hphase
      · cases h
  | storeFails =>
      simp only [restoreEvent] at h
      split at h
      · rename_i state hphase
        cases h
        exact RestoreEffect.of_failed hphase nofun nofun
      · cases h
  | readShare =>
      simp only [restoreEvent] at h
      split at h
      · rename_i state hphase
        split at h
        · cases h
          exact RestoreEffect.of_failed hphase nofun nofun
        · cases h
          exact RestoreEffect.dead (Or.inr hphase)
      · cases h
  | drop =>
      simp only [restoreEvent] at h
      split at h
      · rename_i share cell hphase
        cases h
        exact RestoreEffect.of_failed hphase nofun nofun
      · rename_i share cell label host hphase
        cases h
        exact RestoreEffect.of_failed hphase nofun nofun
      · cases h

/-- A call returns what its task returns. -/
theorem NodeTask.returns_answered {c : NodeCall} {node : GuestNode} {answer : NodeAnswer}
    (hanswer : c.task ≠ NodeTask.checkConnection -> NodeAnswered c node answer) :
    exists answer', c.task.returns answer = NodePhase.returned answer' ∧
      NodeAnswered c node answer' := by
  cases htask : c.task with
  | checkConnection => exact ⟨NodeAnswer.checked, rfl, NodeAnswered.checked (Or.inr htask)⟩
  | openReverseProxyStream appId => exact ⟨answer, rfl, hanswer (by rw [htask]; nofun)⟩
  | openForwardProxyStream host port => exact ⟨answer, rfl, hanswer (by rw [htask]; nofun)⟩
  | refresh => exact ⟨answer, rfl, hanswer (by rw [htask]; nofun)⟩

/-- A call that returns has not changed its node, unless it has used it. -/
theorem NodeEffect.of_returns {c : NodeCall} {node : GuestNode} {event : NodeEvent}
    {answer : NodeAnswer} (lastUsed : Bool)
    (hanswer : c.task ≠ NodeTask.checkConnection -> NodeAnswered c node answer) :
    NodeEffect s i c node event
      (s.endCall i c { node with lastUsed := lastUsed } (c.task.returns answer)) := by
  rcases NodeTask.returns_answered hanswer with ⟨answer', hreturns, hanswer'⟩
  rw [hreturns]
  exact NodeEffect.ended answer' lastUsed hanswer'

theorem afterProbe_effect {c : NodeCall} {node : GuestNode} {event : NodeEvent}
    {recentlyUsed : Bool} (hphase : c.phase = NodePhase.probing)
    (h : afterProbe s i c node recentlyUsed = some t) : NodeEffect s i c node event t := by
  unfold afterProbe at h
  split at h
  · split at h
    · cases h
      exact NodeEffect.reconnecting hphase
    · cases h
  · cases h
    exact NodeEffect.of_returns node.lastUsed fun _ => NodeAnswered.checked (Or.inl hphase)

theorem nodeEvent_effect {c : NodeCall} {node : GuestNode} {event : NodeEvent}
    (h : nodeEvent s i c node event = some t) : NodeEffect s i c node event t := by
  cases event with
  | passGate =>
      simp only [nodeEvent] at h
      split at h
      · rename_i hphase hgate
        split at h
        · rename_i htask
          cases h
          exact NodeEffect.gated hphase hgate htask
        · rename_i htask
          cases h
          exact NodeEffect.passed hphase htask
      · cases h
  | probed check recentlyUsed =>
      simp only [nodeEvent] at h
      split at h
      · rename_i hphase
        split at h
        · cases h
          exact NodeEffect.of_returns node.lastUsed fun _ => NodeAnswered.checked (Or.inl hphase)
        · exact afterProbe_effect hphase h
        · exact afterProbe_effect hphase h
        · rename_i state
          cases h
          exact NodeEffect.probeLearned state recentlyUsed hphase
        · exact afterProbe_effect hphase h
      · cases h
  | readDead =>
      simp only [nodeEvent] at h
      split at h
      · rename_i hphase
        split at h
        · cases h
          exact NodeEffect.of_returns node.lastUsed NodeAnswered.terminal
        · rename_i hdead
          cases h
          exact NodeEffect.opening hphase hdead
      · cases h
  | answer stream =>
      simp only [nodeEvent] at h
      split at h
      · rename_i hphase
        split at h
        · cases h
          exact NodeEffect.of_returns true fun htask => NodeAnswered.opened htask hphase
        · rename_i state
          cases h
          exact NodeEffect.streamLearned state hphase
        · cases h
          exact NodeEffect.of_returns node.lastUsed fun htask => NodeAnswered.transient htask hphase
      · cases h
  | markDead =>
      simp only [nodeEvent] at h
      split at h
      · rename_i state hphase
        cases h
        exact NodeEffect.marked hphase
      · cases h
  | writeTerminalState =>
      simp only [nodeEvent] at h
      split at h
      · rename_i state hphase
        cases h
        exact NodeEffect.wrote hphase
      · cases h
  | storeFails =>
      simp only [nodeEvent] at h
      split at h
      · cases h
        exact NodeEffect.of_returns node.lastUsed NodeAnswered.terminal
      · cases h
  | readShare =>
      simp only [nodeEvent] at h
      split at h
      · cases h
        exact NodeEffect.of_returns node.lastUsed NodeAnswered.terminal
      · cases h
  | drop =>
      simp only [nodeEvent] at h
      split at h
      · cases h
        exact NodeEffect.ended NodeAnswer.dropped node.lastUsed NodeAnswered.dropped
      · cases h
        exact NodeEffect.ended NodeAnswer.dropped node.lastUsed NodeAnswered.dropped
      · cases h
        exact NodeEffect.ended NodeAnswer.dropped node.lastUsed NodeAnswered.dropped
      · cases h

theorem leaveEvent_effect {c : LeaveCall} (h : leaveEvent s i c = some t) :
    LeaveEffect s i c t := by
  unfold leaveEvent at h
  split at h
  · rename_i hphase
    cases h
    exact LeaveEffect.removed hphase
  · rename_i cell hphase
    split at h
    · cases h
      exact LeaveEffect.closing _ hphase
    · cases h
      exact LeaveEffect.closed (Or.inl ⟨cell, hphase⟩)
  · rename_i node hphase
    cases h
    exact LeaveEffect.closed (Or.inr ⟨node, hphase⟩)
  · rename_i hphase
    split at h
    · cases h
      exact LeaveEffect.failed hphase
    · rename_i transport hread
      cases h
      exact LeaveEffect.goodbye hphase hread
  · rename_i call hphase
    split at h
    · rename_i row hcall
      cases h
      exact LeaveEffect.returned hphase hcall
    · cases h
  · cases h

/-!
## What a step leaves of the calls
-/

/-- A call moves in its place, and the others stay as they are. -/
theorem RestoreEffect.moves {c : RestoreCall} {event : RestoreEvent}
    (h : RestoreEffect s i c event t) : exists phase,
      t.restores = s.restores.set i { c with phase := phase } ∧ t.calls = s.calls ∧
        t.leaves = s.leaves := by
  cases h with
  | checked | named | entered | served | acquired | labelled | addressed | created | rejected
  | wrote | dead | failed => exact ⟨_, rfl, rfl, rfl⟩

theorem NodeEffect.moves {c : NodeCall} {node : GuestNode} {event : NodeEvent}
    (h : NodeEffect s i c node event t) : exists phase,
      t.calls = s.calls.set i { c with phase := phase } ∧ t.restores = s.restores ∧
        t.leaves = s.leaves := by
  cases h with
  | passed | gated | reconnecting | opening | probeLearned | streamLearned | marked | wrote
  | ended => exact ⟨_, rfl, rfl, rfl⟩

theorem LeaveEffect.moves {c : LeaveCall} (h : LeaveEffect s i c t) : exists phase,
    t.leaves = s.leaves.set i { c with phase := phase } ∧ t.restores = s.restores ∧
      t.calls = s.calls := by
  cases h with
  | removed | closing | closed | failed | goodbye | returned => exact ⟨_, rfl, rfl, rfl⟩

/-- Everything that a step of the client can do. -/
inductive ClientEffect (text : JsonText) (slug : Slugify) (s : Client) :
    ClientAction -> Client -> Prop where
  /-- A call that finds no row returns. -/
  | unknown {a : ClientAction} : ClientEffect text slug s a s
  | device {a : DeviceAction} {device : Device} (hown : a.isOwn = true)
      (hstep : deviceStep text slug s.device a = some device) :
      ClientEffect text slug s (ClientAction.device a) { s with device := device }
  | found {order : SerialTable.QueryOrder ShareRow} {key : String} {id : Int} {r : ShareRow}
      (hfind : s.db.findRow order key = some (id, r)) :
      ClientEffect text slug s (ClientAction.restoreGuestNode order key)
        { s with restores := s.restores ++ [⟨id, RestorePhase.found⟩] }
  | restore {i : Nat} {event : RestoreEvent} {c : RestoreCall} {t : Client}
      (hc : s.restores[i]? = some c) (heffect : RestoreEffect s i c event t) :
      ClientEffect text slug s (ClientAction.restore i event) t
  | called {n : Nat} {task : NodeTask} (hn : n < s.nodes.length) :
      ClientEffect text slug s (ClientAction.call n task)
        { s with calls := s.calls ++ [⟨n, task, NodePhase.gated⟩] }
  | node {i : Nat} {event : NodeEvent} {c : NodeCall} {node : GuestNode} {t : Client}
      (hc : s.calls[i]? = some c) (hnode : s.nodes[c.node]? = some node)
      (heffect : NodeEffect s i c node event t) :
      ClientEffect text slug s (ClientAction.node i event) t
  | leaveFound {order : SerialTable.QueryOrder ShareRow} {share : ShareId} {id : Int}
      {r : ShareRow} (hfind : s.db.findRow order share.text = some (id, r)) :
      ClientEffect text slug s (ClientAction.leave order share)
        { s with leaves := s.leaves ++ [⟨share, id, LeavePhase.found⟩] }
  | leaving {i : Nat} {c : LeaveCall} {t : Client} (hc : s.leaves[i]? = some c)
      (heffect : LeaveEffect s i c t) : ClientEffect text slug s (ClientAction.leaving i) t

theorem clientStep_effect {a : ClientAction} (h : clientStep text slug s a = some t) :
    ClientEffect text slug s a t := by
  cases a with
  | device a =>
      simp only [clientStep] at h
      split at h
      · rename_i hown
        rcases Option.map_eq_some_iff.mp h with ⟨device, hstep, rfl⟩
        exact ClientEffect.device hown hstep
      · cases h
  | restoreGuestNode order key =>
      simp only [clientStep] at h
      split at h
      · cases h
        exact ClientEffect.unknown
      · rename_i found hfind
        cases h
        exact ClientEffect.found hfind
  | restore i event =>
      rcases Option.bind_eq_some_iff.mp h with ⟨c, hc, hevent⟩
      exact ClientEffect.restore hc (restoreEvent_effect hevent)
  | call n task =>
      simp only [clientStep] at h
      split at h
      · rename_i hn
        cases h
        exact ClientEffect.called hn
      · cases h
  | node i event =>
      rcases Option.bind_eq_some_iff.mp h with ⟨c, hc, hrest⟩
      rcases Option.bind_eq_some_iff.mp hrest with ⟨node, hnode, hevent⟩
      exact ClientEffect.node hc hnode (nodeEvent_effect hevent)
  | leave order share =>
      simp only [clientStep] at h
      split at h
      · cases h
        exact ClientEffect.unknown
      · rename_i found hfind
        cases h
        exact ClientEffect.leaveFound hfind
  | leaving i =>
      rcases Option.bind_eq_some_iff.mp h with ⟨c, hc, hevent⟩
      exact ClientEffect.leaving hc (leaveEvent_effect hevent)

end

end Guest
end WispersAccess
