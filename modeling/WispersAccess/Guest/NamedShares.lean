import WispersAccess.Guest.ShareIsolation

/-!
# Shares found by a name

A request may name its share by the label or by the id.  The row that the name
finds decides whose node is restored for the request, and which host is asked for
a stream then, whatever the names come to be later.
-/

namespace WispersAccess
namespace Guest

open Foundation

/-- The key is the label or the id of the share, as one of its rows was stored. -/
def NamedBy (seen : DB -> Prop) (key : String) (share : ShareId) : Prop :=
  exists past row r, seen past ∧ past.row row = some r ∧ DB.matchesKey key r = true ∧
    r.shareId = share

theorem NamedBy.mono {seen seen' : DB -> Prop} {key : String} {share : ShareId}
    (h : NamedBy seen key share) (hseen : forall past, seen past -> seen' past) :
    NamedBy seen' key share := by
  rcases h with ⟨past, row, r, hpast, hrow⟩
  exact ⟨past, row, r, hseen past hpast, hrow⟩

/-- The call asks a node of the share for this. -/
def Client.Asks (s : Client) (call : Nat) (task : NodeTask) (share : ShareId) : Prop :=
  exists d node, s.calls[call]? = some d ∧ d.task = task ∧ s.nodes[d.node]? = some node ∧
    node.host.share = share

section
variable {text : JsonText} {slug : Slugify} {s t : Client} {a : ClientAction} {seen : DB -> Prop}

theorem ClientEffect.asks (h : ClientEffect text slug s a t) (hs : s.Coherent) {k : Nat}
    {task : NodeTask} {share : ShareId} (hasks : s.Asks k task share) : t.Asks k task share := by
  rcases hasks with ⟨d, node, hd, htask, hnode, hshare⟩
  have hkept : forall d', t.calls[k]? = some d' -> d'.node = d.node -> d'.task = d.task ->
      t.Asks k task share := by
    intro d' hd' hsame htask'
    rcases (h.grown hs).nodes _ _ hnode with ⟨node', hnode', -, hhost⟩
    exact ⟨d', node', hd', htask'.trans htask, hsame ▸ hnode', hhost ▸ hshare⟩
  cases h with
  | called hn => exact hkept d (slot_append_eq_some_iff.mpr (Or.inl hd)) rfl rfl
  | @node i event c node' t hc hnode' heffect =>
      rcases heffect.moves with ⟨phase, hcalls, -⟩
      by_cases hi : k = i
      · subst hi
        rw [hc] at hd
        cases hd
        exact hkept { d with phase := phase } (hcalls ▸ slot_set_self hc _) rfl rfl
      · exact hkept d (hcalls ▸ (slot_set_eq_some_iff hc).mpr (Or.inr ⟨hi, hd⟩)) rfl rfl
  | restore hc heffect =>
      rcases heffect.moves with ⟨phase, -, hcalls, -⟩
      exact hkept d (hcalls ▸ hd) rfl rfl
  | leaving hc heffect =>
      cases heffect with
      | removed | closing | closed | failed | goodbye | returned => exact hkept d hd rfl rfl
  | unknown | device | found | leaveFound => exact hkept d hd rfl rfl

/-- No call is forgotten. -/
theorem ClientEffect.calls_le (h : ClientEffect text slug s a t) :
    s.calls.length ≤ t.calls.length := by
  cases h with
  | called =>
      rw [List.length_append]
      exact Nat.le_add_right _ _
  | node hc hnode heffect =>
      rcases heffect.moves with ⟨phase, hcalls, -⟩
      rw [hcalls, List.length_set]
  | restore hc heffect =>
      rcases heffect.moves with ⟨phase, -, hcalls, -⟩
      rw [hcalls]
  | leaving hc heffect =>
      rcases heffect.moves with ⟨phase, -, -, hcalls⟩
      rw [hcalls]
  | unknown | device | found | leaveFound => exact Nat.le_refl _

end

/-- The restore is one of a share that had the name. -/
def Client.RestoresNamed (s : Client) (seen : DB -> Prop) (restore : Nat) (key : String) : Prop :=
  exists id, NamedBy seen key id ∧ s.RestoresFor restore id

/-- The call asks a node of a share that had the name for this. -/
def Client.AsksNamed (s : Client) (seen : DB -> Prop) (call : Nat) (task : NodeTask)
    (key : String) : Prop :=
  exists id, NamedBy seen key id ∧ s.Asks call task id

section
variable {text : JsonText} {slug : Slugify} {s t : Client} {a : ClientAction}
  {seen seen' : DB -> Prop} {key : String} {restore call : Nat} {task : NodeTask}

theorem Client.RestoresNamed.mono (h : s.RestoresNamed seen restore key)
    (hseen : forall past, seen past -> seen' past) : s.RestoresNamed seen' restore key := by
  rcases h with ⟨id, hnamed, hrestores⟩
  exact ⟨id, hnamed.mono hseen, hrestores⟩

theorem Client.AsksNamed.mono (h : s.AsksNamed seen call task key)
    (hseen : forall past, seen past -> seen' past) : s.AsksNamed seen' call task key := by
  rcases h with ⟨id, hnamed, hasks⟩
  exact ⟨id, hnamed.mono hseen, hasks⟩

theorem ClientEffect.restoresNamed (h : ClientEffect text slug s a t) (hs : s.Coherent)
    (hosted : s.Hosted seen) (hrestores : s.RestoresNamed seen restore key) :
    t.RestoresNamed seen restore key := by
  rcases hrestores with ⟨id, hnamed, hrestores⟩
  exact ⟨id, hnamed, h.restoresFor hs hosted hrestores⟩

theorem ClientEffect.asksNamed (h : ClientEffect text slug s a t) (hs : s.Coherent)
    (hasks : s.AsksNamed seen call task key) : t.AsksNamed seen call task key := by
  rcases hasks with ⟨id, hnamed, hasks⟩
  exact ⟨id, hnamed, h.asks hs hasks⟩

/-- A restore of the row that the name finds. -/
theorem restoresNamed_found {order : SerialTable.QueryOrder ShareRow} {row : Int} {r : ShareRow}
    (hseen : seen s.db) (hfind : s.db.findRow order key = some (row, r)) :
    ({ s with restores := s.restores ++ [⟨row, RestorePhase.found⟩] } : Client).RestoresNamed seen
      s.restores.length key := by
  rcases SerialTable.findRow_some hfind with ⟨hr, hmatches⟩
  refine ⟨r.shareId, ⟨s.db, row, r, hseen, hr, hmatches, rfl⟩, _,
    slot_append_eq_some_iff.mpr (Or.inr ⟨rfl, rfl⟩), ?_, nofun, nofun⟩
  intro r' hr'
  have hsame : s.db.row row = some r := hr
  rw [show s.db.row row = some r' from hr'] at hsame
  cases hsame
  rfl

/-- A call of the node that a restore has found. -/
theorem Client.RestoresNamed.called (h : s.RestoresNamed seen restore key) {d : RestoreCall}
    {node : Nat} (hd : s.restores[restore]? = some d)
    (hlive : d.phase = RestorePhase.returned (some (Lookup.live node))) :
    ({ s with calls := s.calls ++ [⟨node, task, NodePhase.gated⟩] } : Client).AsksNamed seen
      s.calls.length task key := by
  rcases h with ⟨id, hnamed, d', hd', -, -, hfound⟩
  rw [hd] at hd'
  cases hd'
  rcases hfound node hlive with ⟨found, hfound, hshare⟩
  exact ⟨id, hnamed, _, found, slot_append_eq_some_iff.mpr (Or.inr ⟨rfl, rfl⟩), rfl, hfound,
    hshare⟩

end

end Guest
end WispersAccess
