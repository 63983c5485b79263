import WispersAccess.Guest.SharePorts

/-!
# Released share ports

A port is closed by whoever finds it in its cell: a release that has taken the
cell out of the map, or the proxy when it goes.  A release looks into its cell
once, so that a port that comes into the cell later is served on; as long as no
release looks too early, every port that is served is within somebody's reach.
-/

namespace WispersAccess
namespace Guest

open Foundation

/-!
## Who closes a port
-/

/-- The cell is in the map, or a release is about to look into it. -/
def SharePorts.InReach (s : SharePorts) (cell : Nat) : Prop :=
  (exists share, s.boundPorts.entry share = some cell) ∨
    exists (r : Nat) (release : ReleaseCall),
      s.releases[r]? = some release ∧ release.phase = ReleasePhase.removed (some cell)

/-- The port is in the cell, or a call is putting it there. -/
def SharePorts.Holds (s : SharePorts) (cell bound : Nat) : Prop :=
  s.boundPorts.value cell = some bound ∨
    exists (i : Nat) (call : SharePortCall),
      s.calls[i]? = some call ∧ call.phase.serves = some (cell, bound)

/-- The port is found by whoever is to close it. -/
def SharePorts.Located (s : SharePorts) (share : ShareId) (bound : Nat) : Prop :=
  exists cell, s.boundPorts.HasKey cell share ∧ s.InReach cell ∧ s.Holds cell bound

structure SharePorts.Tracked (s : SharePorts) : Prop where
  permits : forall (i : Nat) call cell, s.calls[i]? = some call ->
    call.phase.permit = some cell -> s.boundPorts.HeldBy cell i
  calls : forall (i : Nat) call cell, s.calls[i]? = some call -> call.phase.cell = some cell ->
    s.boundPorts.HasKey cell call.share ∧
      (s.InReach cell ∨ (s.boundPorts.value cell).isSome = true)
  releases : forall (r : Nat) release cell, s.releases[r]? = some release ->
    release.phase = ReleasePhase.removed (some cell) -> s.boundPorts.HasKey cell release.share
  served : forall (bound : Nat) served, s.ports[bound]? = some served -> served.serving = true ->
    s.Located served.share bound

/-- Nothing gets out of reach. -/
structure SharePorts.Keeps (s t : SharePorts) : Prop where
  extended : s.boundPorts.Extends t.boundPorts
  inReach : forall cell, s.InReach cell -> t.InReach cell
  holds : forall cell bound, s.Holds cell bound -> t.Holds cell bound

section
variable {s mid t : SharePorts} {i : Nat} {share : ShareId} {phase next : PortPhase}
  {call : SharePortCall}

theorem SharePorts.Keeps.located {bound : Nat} (h : s.Keeps t) (hlocated : s.Located share bound) :
    t.Located share bound := by
  rcases hlocated with ⟨cell, hkey, hreach, hholds⟩
  exact ⟨cell, h.extended.hasKey hkey, h.inReach cell hreach, h.holds cell bound hholds⟩

theorem SharePorts.Keeps.taken {cell : Nat} (h : s.Keeps t)
    (hcall : s.boundPorts.HasKey cell share ∧
      (s.InReach cell ∨ (s.boundPorts.value cell).isSome = true)) :
    t.boundPorts.HasKey cell share ∧
      (t.InReach cell ∨ (t.boundPorts.value cell).isSome = true) := by
  refine ⟨h.extended.hasKey hcall.left, ?_⟩
  rcases hcall.right with hreach | hfilled
  · exact Or.inl (h.inReach cell hreach)
  · rcases Option.isSome_iff_exists.mp hfilled with ⟨bound, hbound⟩
    rw [h.extended.value hbound]
    exact Or.inr rfl

theorem inReach_of_entries (hreleases : t.releases = s.releases)
    (hentry : forall share cell, s.boundPorts.entry share = some cell ->
      t.boundPorts.entry share = some cell) {cell : Nat} (h : s.InReach cell) :
    t.InReach cell := by
  rcases h with ⟨share, hcell⟩ | ⟨r, release, hrelease, hphase⟩
  · exact Or.inl ⟨share, hentry share cell hcell⟩
  · exact Or.inr ⟨r, release, hreleases ▸ hrelease, hphase⟩

theorem SharePortEffect.rest (h : SharePortEffect s i share phase mid next) :
    mid.calls = s.calls ∧ mid.releases = s.releases := by
  cases h <;> exact ⟨rfl, rfl⟩

/-- The calls once one of them went on. -/
theorem SharePortEffect.goes_calls {j : Nat} {other : SharePortCall}
    (h : SharePortEffect s i share phase mid next) (hcall : s.calls[i]? = some call) :
    (mid.goes i call next).calls[j]? = some other <->
      (j = i ∧ other = { call with phase := next }) ∨ (j ≠ i ∧ s.calls[j]? = some other) := by
  rw [← h.rest.left] at hcall ⊢
  exact slot_set_eq_some_iff hcall

theorem SharePortEffect.entry {share' : ShareId} {cell : Nat}
    (h : SharePortEffect s i share phase mid next)
    (hcell : s.boundPorts.entry share' = some cell) :
    mid.boundPorts.entry share' = some cell := by
  cases h with
  | took hentry => exact hentry.entry_kept hcell
  | acquired hacquire =>
      have hsame := (OnceMap.acquire_some hacquire).right.right.right.left
      exact (congrFun hsame share').trans hcell
  | _ => exact hcell

theorem SharePortEffect.extends (h : SharePortEffect s i share phase mid next)
    (hpermit : forall cell, phase.permit = some cell -> s.boundPorts.HeldBy cell i) :
    s.boundPorts.Extends mid.boundPorts := by
  cases h with
  | took hentry => exact hentry.extends
  | acquired hacquire => exact (OnceMap.acquire_some hacquire).right.right.left
  | gaveUp hphase hserves => exact OnceMap.extends_release s.boundPorts _
  | filled => exact (hpermit _ rfl).extends_fill _
  | _ => exact OnceMap.Extends.refl s.boundPorts

/-- Only the call that serves a port puts it into the cell. -/
theorem SharePortEffect.holds {cell bound : Nat} (h : SharePortEffect s i share phase mid next)
    (hpermit : forall cell, phase.permit = some cell -> s.boundPorts.HeldBy cell i)
    (hserves : phase.serves = some (cell, bound)) :
    mid.boundPorts.value cell = some bound := by
  cases h with
  | filled =>
      cases hserves
      exact (hpermit cell rfl).value_fill bound
  | went rows hphase hnext hnone =>
      rw [hnone] at hserves
      cases hserves
  | gaveUp hphase hnone =>
      rw [hnone] at hserves
      cases hserves
  | ended hphase =>
      cases phase <;> cases hserves
      cases hphase
  | _ => cases hserves

theorem SharePortEffect.keeps (h : SharePortEffect s i call.share call.phase mid next)
    (hcall : s.calls[i]? = some call)
    (hpermit : forall cell, call.phase.permit = some cell -> s.boundPorts.HeldBy cell i) :
    s.Keeps (mid.goes i call next) := by
  have hreleases := h.rest.right
  constructor
  · exact h.extends hpermit
  · intro cell hreach
    exact inReach_of_entries hreleases (fun _ _ hcell => h.entry hcell) hreach
  · intro cell bound hholds
    rcases hholds with hvalue | ⟨j, other, hother, hserves⟩
    · exact Or.inl ((h.extends hpermit).value hvalue)
    · by_cases hj : j = i
      · rw [hj, hcall] at hother
        cases hother
        exact Or.inl (h.holds hpermit hserves)
      · exact Or.inr ⟨j, other, (h.goes_calls hcall).mpr (Or.inr ⟨hj, hother⟩), hserves⟩

/-- Who else has a permit keeps it. -/
theorem SharePortEffect.heldBy {cell j : Nat} (h : SharePortEffect s i share phase mid next)
    (hpermit : forall cell, phase.permit = some cell -> s.boundPorts.HeldBy cell i)
    (hheld : s.boundPorts.HeldBy cell j) (hj : j ≠ i) : mid.boundPorts.HeldBy cell j := by
  cases h with
  | took hentry => exact hentry.heldBy hheld
  | acquired hacquire => exact (OnceMap.acquire_some hacquire).right.right.right.right cell j hheld
  | gaveUp hphase hserves => exact hheld.release (hpermit _ hphase) hj
  | filled => exact hheld.fill (hpermit _ rfl) hj _
  | _ => exact hheld

/-- The permit that the call has afterwards. -/
theorem SharePortEffect.permit {cell : Nat} (h : SharePortEffect s i share phase mid next)
    (hpermit : forall cell, phase.permit = some cell -> s.boundPorts.HeldBy cell i)
    (hnext : next.permit = some cell) : mid.boundPorts.HeldBy cell i := by
  cases h with
  | acquired hacquire =>
      cases hnext
      exact (OnceMap.acquire_some hacquire).right.left
  | went rows hphase hsame hserves =>
      rw [hsame] at hnext
      cases hnext
      exact hpermit cell hphase
  | served =>
      cases hnext
      exact hpermit cell rfl
  | _ => cases hnext

theorem cell_of_permit {cell : Nat} (h : phase.permit = some cell) : phase.cell = some cell := by
  cases phase <;> cases h <;> rfl

/-- The cell that the call has afterwards. -/
theorem SharePortEffect.cell {cell : Nat} (h : SharePortEffect s i share phase mid next)
    (hnext : next.cell = some cell) : phase.cell = some cell ∨
      (mid.boundPorts.HasKey cell share ∧ mid.boundPorts.entry share = some cell) := by
  cases h with
  | took hentry =>
      cases hnext
      exact Or.inr ⟨hentry.hasKey, hentry.entry⟩
  | acquired hacquire => exact Or.inl hnext
  | went rows hphase hsame hserves =>
      rw [cell_of_permit hsame] at hnext
      exact Or.inl ((cell_of_permit hphase).trans hnext)
  | served => exact Or.inl hnext
  | _ => cases hnext

/-- A port is one that there was, or the one that the call has begun to serve. -/
theorem SharePortEffect.ports {bound : Nat} {served : ServedPort}
    (h : SharePortEffect s i share phase mid next) (hserved : mid.ports[bound]? = some served) :
    s.ports[bound]? = some served ∨
      exists cell, next = PortPhase.filling cell bound ∧ phase.permit = some cell ∧
        served.share = share := by
  cases h with
  | served =>
      rcases slot_append_eq_some_iff.mp hserved with hold | ⟨rfl, rfl⟩
      · exact Or.inl hold
      · exact Or.inr ⟨_, rfl, rfl, rfl⟩
  | _ => exact Or.inl hserved

theorem tracked_call (htracked : s.Tracked) (hcall : s.calls[i]? = some call)
    (h : SharePortEffect s i call.share call.phase mid next) :
    (mid.goes i call next).Tracked := by
  have hpermit : forall cell, call.phase.permit = some cell -> s.boundPorts.HeldBy cell i := by
    intro cell hcell
    exact htracked.permits i call cell hcall hcell
  have hkeeps := h.keeps hcall hpermit
  have hreleases := h.rest.right
  constructor
  · intro j other cell hother hcell
    rcases (h.goes_calls hcall).mp hother with ⟨rfl, rfl⟩ | ⟨hj, hold⟩
    · exact h.permit hpermit hcell
    · exact h.heldBy hpermit (htracked.permits j other cell hold hcell) hj
  · intro j other cell hother hcell
    rcases (h.goes_calls hcall).mp hother with ⟨rfl, rfl⟩ | ⟨hj, hold⟩
    · rcases h.cell hcell with hbefore | ⟨hkey, hentry⟩
      · exact hkeeps.taken (htracked.calls j call cell hcall hbefore)
      · exact ⟨hkey, Or.inl (Or.inl ⟨call.share, hentry⟩)⟩
    · exact hkeeps.taken (htracked.calls j other cell hold hcell)
  · intro r release cell hrelease hphase
    change mid.releases[r]? = some release at hrelease
    rw [hreleases] at hrelease
    exact hkeeps.extended.hasKey (htracked.releases r release cell hrelease hphase)
  · intro bound served hserved hserving
    rcases h.ports hserved with hold | ⟨cell, hnext, hcell, hshare⟩
    · exact hkeeps.located (htracked.served bound served hold hserving)
    · rcases htracked.calls i call cell hcall (cell_of_permit hcell) with ⟨hkey, hreach⟩
      refine ⟨cell, hshare ▸ hkeeps.extended.hasKey hkey, ?_,
        Or.inr ⟨i, { call with phase := next }, (h.goes_calls hcall).mpr (Or.inl ⟨rfl, rfl⟩), ?_⟩⟩
      · rcases hreach with hreach | hfilled
        · exact hkeeps.inReach cell hreach
        · rw [(hpermit cell hcell).value_eq_none] at hfilled
          cases hfilled
      · show next.serves = _
        rw [hnext]
        rfl

/-!
## Closing
-/

/-- No release looks into a cell that is still empty while a call that has taken the cell has
not returned. -/
def LooksInTime (s : SharePorts) : SharePortAction -> Prop
  | SharePortAction.close r =>
      forall cell, cell ∈ (s.releases[r]?).bind ReleaseCall.taken ->
        (s.boundPorts.value cell).isSome = true ∨
          forall call, call ∈ s.calls -> call.phase.cell ≠ some cell
  | _ => True

instance (s : SharePorts) (a : SharePortAction) : Decidable (LooksInTime s a) :=
  match a with
  | SharePortAction.close _ => Option.decidableForallMem ..
  | SharePortAction.addRow _ => isTrue trivial
  | SharePortAction.deleteRow _ => isTrue trivial
  | SharePortAction.remember _ _ => isTrue trivial
  | SharePortAction.sharePort _ => isTrue trivial
  | SharePortAction.call _ _ => isTrue trivial
  | SharePortAction.release _ => isTrue trivial
  | SharePortAction.remove _ => isTrue trivial
  | SharePortAction.dropProxy => isTrue trivial

def SharePortAction.changesRows : SharePortAction -> Bool
  | addRow _ => true
  | deleteRow _ => true
  | remember _ _ => true
  | _ => false

/-- Everything that a step can do. -/
inductive SharePortsStep (s : SharePorts) : SharePortAction -> SharePorts -> Prop where
  | rows (a : SharePortAction) (rows : ShareId -> Option (Option Nat))
      (ha : a.changesRows = true) :
      SharePortsStep s a { s with rows := rows }
  | called (i : Nat) (call : SharePortCall) (event : PortEvent) (mid : SharePorts)
      (next : PortPhase) (hcall : s.calls[i]? = some call)
      (heffect : SharePortEffect s i call.share call.phase mid next) :
      SharePortsStep s (SharePortAction.call i event) (mid.goes i call next)
  | asked (share : ShareId) : SharePortsStep s (SharePortAction.sharePort share)
      { s with calls := s.calls ++ [{ share := share, phase := PortPhase.started }] }
  | releases (share : ShareId) : SharePortsStep s (SharePortAction.release share)
      { s with releases := s.releases ++ [{ share := share, phase := ReleasePhase.started }] }
  | removes (r : Nat) (share : ShareId)
      (hrelease : s.releases[r]? = some ⟨share, ReleasePhase.started⟩) :
      SharePortsStep s (SharePortAction.remove r)
        { s with
          boundPorts := s.boundPorts.remove share
          releases := s.releases.set r
            { share := share, phase := ReleasePhase.removed (s.boundPorts.entry share) } }
  | closes (r : Nat) (share : ShareId) (cell : Option Nat) (ports : List ServedPort)
      (hrelease : s.releases[r]? = some ⟨share, ReleasePhase.removed cell⟩)
      (hports : forall (bound : Nat) served, ports[bound]? = some served ->
        served.serving = true ->
        s.ports[bound]? = some served ∧ cell.bind s.boundPorts.value ≠ some bound) :
      SharePortsStep s (SharePortAction.close r)
        { s with
          ports := ports
          releases := s.releases.set r { share := share, phase := ReleasePhase.returned } }
  | dropped (hidle : s.idle = true) : SharePortsStep s SharePortAction.dropProxy s.closeAll

theorem closePort_serving {ports : List ServedPort} {closed bound : Nat} {served : ServedPort}
    (h : (ports.modify closed fun served => { served with serving := false })[bound]? = some served)
    (hserving : served.serving = true) : ports[bound]? = some served ∧ closed ≠ bound := by
  rw [List.getElem?_modify] at h
  rcases Option.map_eq_some_iff.mp h with ⟨old, hold, rfl⟩
  by_cases hsame : closed = bound
  · simp [hsame] at hserving
  · exact ⟨by simp [hsame, hold], hsame⟩

theorem sharePortStep_step {a : SharePortAction} (h : sharePortStep s a = some t) :
    SharePortsStep s a t := by
  cases a with
  | addRow share =>
      cases h
      exact SharePortsStep.rows _ _ rfl
  | deleteRow share =>
      cases h
      exact SharePortsStep.rows _ _ rfl
  | remember share port =>
      cases h
      rcases writePort_rows s share port with ⟨rows, hrows⟩
      rw [hrows]
      exact SharePortsStep.rows _ rows rfl
  | sharePort share =>
      simp only [sharePortStep] at h
      split at h
      · cases h
      · cases h
        exact SharePortsStep.asked share
  | call i event =>
      rcases Option.bind_eq_some_iff.mp h with ⟨call, hcall, hevent⟩
      rcases portEvent_effect hevent with ⟨mid, next, heffect, rfl⟩
      exact SharePortsStep.called i call event mid next hcall heffect
  | release share =>
      simp only [sharePortStep] at h
      split at h
      · cases h
      · cases h
        exact SharePortsStep.releases share
  | remove r =>
      simp only [sharePortStep] at h
      split at h
      · rename_i share hrelease
        cases h
        exact SharePortsStep.removes r share hrelease
      · cases h
  | close r =>
      simp only [sharePortStep] at h
      split at h
      · rename_i share cell hrelease
        split at h
        · rename_i bound hbound
          cases h
          refine SharePortsStep.closes r share cell _ hrelease ?_
          intro n served hserved hserving
          rcases closePort_serving hserved hserving with ⟨hold, hother⟩
          refine ⟨hold, ?_⟩
          rw [hbound]
          intro hsame
          exact hother (Option.some.inj hsame)
        · rename_i hnone
          cases h
          refine SharePortsStep.closes r share cell _ hrelease ?_
          intro n served hserved _
          refine ⟨hserved, ?_⟩
          rw [hnone]
          intro hsame
          cases hsame
      · cases h
  | dropProxy =>
      simp only [sharePortStep] at h
      split at h
      · rename_i hguard
        cases h
        exact SharePortsStep.dropped (Bool.and_eq_true_iff.mp hguard).left
      · cases h

/-- A cell that is filled keeps its port while it is out of reach. -/
theorem tracked_remove {r : Nat} (htracked : s.Tracked)
    (hrelease : s.releases[r]? = some ⟨share, ReleasePhase.started⟩) :
    ({ s with
      boundPorts := s.boundPorts.remove share
      releases := s.releases.set r
        { share := share, phase := ReleasePhase.removed (s.boundPorts.entry share) }
    } : SharePorts).Tracked := by
  have hkeeps : s.Keeps { s with
      boundPorts := s.boundPorts.remove share
      releases := s.releases.set r
        { share := share, phase := ReleasePhase.removed (s.boundPorts.entry share) } } := by
    constructor
    · exact OnceMap.Extends.refl s.boundPorts
    · intro cell hreach
      rcases hreach with ⟨other, hentry⟩ | ⟨r', release, hother, hphase⟩
      · by_cases hsame : other = share
        · rw [hsame] at hentry
          refine Or.inr ⟨r, _, slot_set_self hrelease _, ?_⟩
          rw [hentry]
        · refine Or.inl ⟨other, ?_⟩
          show Function.update s.boundPorts.entry share none other = some cell
          rw [Function.update_of_ne hsame]
          exact hentry
      · refine Or.inr ⟨r', release, (slot_set_eq_some_iff hrelease).mpr (Or.inr ⟨?_, hother⟩),
          hphase⟩
        intro heq
        subst heq
        rw [hrelease] at hother
        cases hother
        cases hphase
    · intro cell bound hholds
      exact hholds
  constructor
  · exact htracked.permits
  · intro j other cell hother hcell
    exact hkeeps.taken (htracked.calls j other cell hother hcell)
  · intro r' release cell hother hphase
    rcases (slot_set_eq_some_iff hrelease).mp hother with ⟨rfl, rfl⟩ | ⟨-, hold⟩
    · have hentry : s.boundPorts.entry share = some cell := by
        injection hphase
      exact s.boundPorts.entry_key share cell hentry
    · exact htracked.releases r' release cell hold hphase
  · intro bound served hserved hserving
    exact hkeeps.located (htracked.served bound served hserved hserving)

/-- A release that looks into its cell in time closes the port that is in it. -/
theorem tracked_close {r : Nat} {cell : Option Nat} {ports : List ServedPort}
    (htracked : s.Tracked)
    (hrelease : s.releases[r]? = some ⟨share, ReleasePhase.removed cell⟩)
    (hports : forall (bound : Nat) served, ports[bound]? = some served ->
      served.serving = true ->
      s.ports[bound]? = some served ∧ cell.bind s.boundPorts.value ≠ some bound)
    (htime : LooksInTime s (SharePortAction.close r)) :
    ({ s with
      ports := ports
      releases := s.releases.set r { share := share, phase := ReleasePhase.returned }
    } : SharePorts).Tracked := by
  -- only the cell of this release can get out of reach
  have hreach : forall c, s.InReach c -> cell = some c ∨
      ({ s with
        ports := ports
        releases := s.releases.set r { share := share, phase := ReleasePhase.returned }
      } : SharePorts).InReach c := by
    intro c hc
    rcases hc with ⟨other, hentry⟩ | ⟨r', release, hother, hphase⟩
    · exact Or.inr (Or.inl ⟨other, hentry⟩)
    · by_cases hsame : r' = r
      · rw [hsame, hrelease] at hother
        cases hother
        injection hphase with hcell
        exact Or.inl hcell
      · exact Or.inr (Or.inr ⟨r', release,
          (slot_set_eq_some_iff hrelease).mpr (Or.inr ⟨hsame, hother⟩), hphase⟩)
  have htimely : forall c, cell = some c -> (s.boundPorts.value c).isSome = true ∨
      forall call, call ∈ s.calls -> call.phase.cell ≠ some c := by
    intro c heq
    subst heq
    exact htime c (Option.bind_eq_some_iff.mpr ⟨_, hrelease, rfl⟩)
  constructor
  · exact htracked.permits
  · intro j other c hother hcell
    rcases htracked.calls j other c hother hcell with ⟨hkey, hfound⟩
    refine ⟨hkey, ?_⟩
    rcases hfound with hfound | hfilled
    · rcases hreach c hfound with hsame | hkept
      · rcases htimely c hsame with hfilled | hnobody
        · exact Or.inr hfilled
        · exact absurd hcell (hnobody other (List.mem_of_getElem? hother))
      · exact Or.inl hkept
    · exact Or.inr hfilled
  · intro r' release c hother hphase
    rcases (slot_set_eq_some_iff hrelease).mp hother with ⟨rfl, rfl⟩ | ⟨-, hold⟩
    · cases hphase
    · exact htracked.releases r' release c hold hphase
  · intro bound served hserved hserving
    rcases hports bound served hserved hserving with ⟨hold, hopen⟩
    rcases htracked.served bound served hold hserving with ⟨c, hkey, hfound, hholds⟩
    rcases hreach c hfound with hsame | hkept
    · -- the port would be in the cell, and closed, or on its way into an empty one
      rw [hsame] at hopen
      rcases hholds with hvalue | ⟨j, other, hother, hserves⟩
      · exact absurd hvalue hopen
      · have hpermit : other.phase.permit = some c := by
          cases hphase : other.phase <;> rw [hphase] at hserves <;> cases hserves
          rfl
        rcases htimely c hsame with hfilled | hnobody
        · rw [(htracked.permits j other c hother hpermit).value_eq_none] at hfilled
          cases hfilled
        · exact absurd (cell_of_permit hpermit) (hnobody other (List.mem_of_getElem? hother))
    · exact ⟨c, hkey, hkept, hholds⟩

theorem not_serving_closeAll {bound : Nat} {served : ServedPort}
    (h : s.closeAll.ports[bound]? = some served) (hserving : served.serving = true) :
    s.ports[bound]? = some served ∧ s.boundPort served.share ≠ some bound := by
  change (s.ports.mapIdx _)[bound]? = some served at h
  rw [List.getElem?_mapIdx] at h
  rcases Option.map_eq_some_iff.mp h with ⟨old, hold, rfl⟩
  split at hserving
  · cases hserving
  · rename_i hopen
    rw [if_neg hopen]
    exact ⟨hold, hopen⟩

theorem SharePortsStep.tracked {a : SharePortAction} (h : SharePortsStep s a t)
    (htracked : s.Tracked) (htime : LooksInTime s a) : t.Tracked := by
  cases h with
  | rows a rows ha => exact ⟨htracked.permits, htracked.calls, htracked.releases, htracked.served⟩
  | called i call event mid next hcall heffect => exact tracked_call htracked hcall heffect
  | asked share =>
      have hkeeps : s.Keeps { s with
          calls := s.calls ++ [{ share := share, phase := PortPhase.started }] } := by
        constructor
        · exact OnceMap.Extends.refl s.boundPorts
        · intro cell hreach
          exact hreach
        · intro cell bound hholds
          rcases hholds with hvalue | ⟨i, call, hcall, hserves⟩
          · exact Or.inl hvalue
          · exact Or.inr ⟨i, call, slot_append_eq_some_iff.mpr (Or.inl hcall), hserves⟩
      constructor
      · intro i call cell hcall hcell
        rcases slot_append_eq_some_iff.mp hcall with hold | ⟨-, rfl⟩
        · exact htracked.permits i call cell hold hcell
        · cases hcell
      · intro i call cell hcall hcell
        rcases slot_append_eq_some_iff.mp hcall with hold | ⟨-, rfl⟩
        · exact hkeeps.taken (htracked.calls i call cell hold hcell)
        · cases hcell
      · exact htracked.releases
      · intro bound served hserved hserving
        exact hkeeps.located (htracked.served bound served hserved hserving)
  | releases share =>
      have hkeeps : s.Keeps { s with
          releases := s.releases ++ [{ share := share, phase := ReleasePhase.started }] } := by
        constructor
        · exact OnceMap.Extends.refl s.boundPorts
        · intro cell hreach
          rcases hreach with hentry | ⟨r, release, hrelease, hphase⟩
          · exact Or.inl hentry
          · exact Or.inr ⟨r, release, slot_append_eq_some_iff.mpr (Or.inl hrelease), hphase⟩
        · intro cell bound hholds
          exact hholds
      constructor
      · exact htracked.permits
      · intro i call cell hcall hcell
        exact hkeeps.taken (htracked.calls i call cell hcall hcell)
      · intro r release cell hrelease hphase
        rcases slot_append_eq_some_iff.mp hrelease with hold | ⟨-, rfl⟩
        · exact htracked.releases r release cell hold hphase
        · cases hphase
      · intro bound served hserved hserving
        exact hkeeps.located (htracked.served bound served hserved hserving)
  | removes r share hrelease => exact tracked_remove htracked hrelease
  | closes r share cell ports hrelease hports =>
      exact tracked_close htracked hrelease hports htime
  | dropped hidle =>
      constructor
      · exact htracked.permits
      · exact htracked.calls
      · exact htracked.releases
      · intro bound served hserved hserving
        have hold := (not_serving_closeAll hserved hserving).left
        exact htracked.served bound served hold hserving

end

/-!
## Runs
-/

/-- Every call of `share_port` and every release of the share has returned. -/
def SharePorts.Settled (s : SharePorts) (share : ShareId) : Prop :=
  (forall call, call ∈ s.calls -> call.share = share -> call.phase.isReturned = true) ∧
    forall release, release ∈ s.releases -> release.share = share ->
      release.phase = ReleasePhase.returned

/-- The port is in the share's cell in the map, or in one that a release of the share, still
running, has taken out to look into it; or a call is putting it there. -/
def SharePorts.Accounted (s : SharePorts) (share : ShareId) (bound : Nat) : Prop :=
  exists cell, (s.boundPorts.entry share = some cell ∨
      exists release, release ∈ s.releases ∧ release.share = share ∧
        release.phase = ReleasePhase.removed (some cell)) ∧
    (s.boundPorts.value cell = some bound ∨
      exists call, call ∈ s.calls ∧ call.share = share ∧
        call.phase = PortPhase.filling cell bound)

section
variable {rows : ShareId -> Option (Option Nat)} {acts : List SharePortAction}
  {s t : SharePorts} {share : ShareId} {bound : Nat}

theorem phase_of_serves {phase : PortPhase} {cell : Nat}
    (h : phase.serves = some (cell, bound)) : phase = PortPhase.filling cell bound := by
  cases phase with
  | filling c n =>
      cases h
      rfl
  | _ => cases h

theorem cell_of_returned {phase : PortPhase} (h : phase.isReturned = true) :
    phase.cell = none := by
  cases phase with
  | returned port => rfl
  | _ => cases h

theorem SharePorts.Tracked.accounted (htracked : s.Tracked) {served : ServedPort}
    (hserved : s.ports[bound]? = some served) (hserving : served.serving = true) :
    s.Accounted served.share bound := by
  rcases htracked.served bound served hserved hserving with ⟨cell, hkey, hreach, hholds⟩
  refine ⟨cell, ?_, ?_⟩
  · rcases hreach with ⟨other, hentry⟩ | ⟨r, release, hrelease, hphase⟩
    · rw [hkey.unique (s.boundPorts.entry_key other cell hentry)]
      exact Or.inl hentry
    · refine Or.inr ⟨release, List.mem_of_getElem? hrelease, ?_, hphase⟩
      exact (htracked.releases r release cell hrelease hphase).unique hkey
  · rcases hholds with hvalue | ⟨i, call, hcall, hserves⟩
    · exact Or.inl hvalue
    · have hphase := phase_of_serves hserves
      refine Or.inr ⟨call, List.mem_of_getElem? hcall, ?_, hphase⟩
      have hcell : call.phase.cell = some cell := by
        rw [hphase]
        rfl
      exact (htracked.calls i call cell hcall hcell).left.unique hkey

theorem SharePorts.Accounted.boundPort (h : s.Accounted share bound) (hsettled : s.Settled share) :
    s.boundPort share = some bound := by
  rcases h with ⟨cell, hentry | ⟨release, hrelease, hshare, hphase⟩, hholds⟩
  · rcases hholds with hvalue | ⟨call, hcall, hshare, hphase⟩
    · rw [SharePorts.boundPort, hentry]
      exact hvalue
    · have hreturned := hsettled.left call hcall hshare
      rw [hphase] at hreturned
      cases hreturned
  · have hreturned := hsettled.right release hrelease hshare
    rw [hphase] at hreturned
    cases hreturned

theorem settled_of_idle (h : s.idle = true) (share : ShareId) : s.Settled share := by
  rcases Bool.and_eq_true_iff.mp h with ⟨hcalls, hreleases⟩
  constructor
  · intro call hcall _
    exact List.all_eq_true.mp hcalls call hcall
  · intro release hrelease _
    exact eq_of_beq (List.all_eq_true.mp hreleases release hrelease)

theorem tracked_start (rows : ShareId -> Option (Option Nat)) :
    (SharePorts.start rows).Tracked := by
  constructor
  all_goals nofun

/-- Where nobody of the share is at work, its releases look in time. -/
theorem looksInTime_settled {r : Nat} {cell : Option Nat} (htracked : s.Tracked)
    (hcalls : forall call, call ∈ s.calls -> call.share = share -> call.phase.isReturned = true)
    (hrelease : s.releases[r]? = some ⟨share, ReleasePhase.removed cell⟩) :
    LooksInTime s (SharePortAction.close r) := by
  intro c hfound
  rcases Option.bind_eq_some_iff.mp hfound with ⟨release, hsame, htaken⟩
  rw [hrelease] at hsame
  cases hsame
  have hphase : cell = some c := htaken
  refine Or.inr ?_
  intro call hcall hcell
  rcases List.mem_iff_getElem?.mp hcall with ⟨i, hi⟩
  have hkey := (htracked.calls i call c hi hcell).left
  have hshare := hkey.unique (htracked.releases r _ c hrelease (by rw [hphase]))
  rw [cell_of_returned (hcalls call hcall hshare)] at hcell
  cases hcell

/-- A release that nothing interferes with closes whatever port the share has. -/
theorem release_closes (htracked : s.Tracked) (hsettled : s.Settled share)
    (hrun : Run sharePortStep s [SharePortAction.release share,
      SharePortAction.remove s.releases.length, SharePortAction.close s.releases.length] t)
    {served : ServedPort} (hserved : t.ports[bound]? = some served)
    (hshare : served.share = share) : served.serving = false := by
  rcases hrun with _ | ⟨hasked, _ | ⟨hremoved, _ | ⟨hclosed, ⟨⟩⟩⟩⟩
  have hfirst := sharePortStep_step hasked
  have hsecond := sharePortStep_step hremoved
  have hthird := sharePortStep_step hclosed
  cases hfirst with
  | rows a rows ha => cases ha
  | releases _ =>
      have htracked := (SharePortsStep.releases share).tracked htracked trivial
      have hlast : (s.releases ++ [{ share := share, phase := ReleasePhase.started }])[
          s.releases.length]? = some ⟨share, ReleasePhase.started⟩ :=
        slot_append_eq_some_iff.mpr (Or.inr ⟨rfl, rfl⟩)
      have htracked := hsecond.tracked htracked trivial
      cases hsecond with
      | rows a rows ha => cases ha
      | removes r other hother =>
          have hsame := hlast.symm.trans hother
          cases hsame
          have hlast := slot_set_self hother
            { share := share, phase := ReleasePhase.removed (s.boundPorts.entry share) }
          have htime := looksInTime_settled htracked hsettled.left hlast
          have htracked := hthird.tracked htracked htime
          cases hthird with
          | rows a rows ha => cases ha
          | closes r other cell ports hother' hports =>
              have hsame := hlast.symm.trans hother'
              cases hsame
              by_contra hopen
              have hserving := Bool.of_not_eq_false hopen
              have haccounted := htracked.accounted hserved hserving
              rw [hshare] at haccounted
              have hport := haccounted.boundPort ⟨hsettled.left, ?_⟩
              · rw [SharePorts.boundPort, OnceMap.entry_remove_self] at hport
                cases hport
              · intro release hrelease hofShare
                rcases List.mem_iff_getElem?.mp hrelease with ⟨r, hr⟩
                rcases (slot_set_eq_some_iff hother').mp hr with ⟨-, rfl⟩ | ⟨hr', hr⟩
                · rfl
                · rcases (slot_set_eq_some_iff hother).mp hr with ⟨hn, -⟩ | ⟨-, hr⟩
                  · exact absurd hn hr'
                  · rcases slot_append_eq_some_iff.mp hr with hold | ⟨hn, -⟩
                    · exact hsettled.right release (List.mem_of_getElem? hold) hofShare
                    · exact absurd hn hr'

/-- In every run in which releases look into cells in time: every port that is served is in the
share's cell in the map, or in one that a release still running is about to look into, or on
its way there; where all calls of the share have returned it is the port in the map, so that a
later release closes it, and the proxy closes all ports when it goes. -/
theorem released_ports_close (hrun : Run sharePortStep (SharePorts.start rows) acts s)
    (hmeets : Meets sharePortStep LooksInTime (SharePorts.start rows) acts) :
    (forall (bound : Nat) served, s.ports[bound]? = some served -> served.serving = true ->
      s.Accounted served.share bound) ∧
    (forall share, s.Settled share ->
      (forall (bound : Nat) served, s.ports[bound]? = some served -> served.share = share ->
        served.serving = true -> s.boundPort share = some bound) ∧
      forall t, Run sharePortStep s [SharePortAction.release share,
          SharePortAction.remove s.releases.length,
          SharePortAction.close s.releases.length] t ->
        forall (bound : Nat) served, t.ports[bound]? = some served -> served.share = share ->
          served.serving = false) ∧
    (forall t, sharePortStep s SharePortAction.dropProxy = some t ->
      forall (bound : Nat) served, t.ports[bound]? = some served -> served.serving = false) := by
  have htracked : s.Tracked := by
    refine @Run.invariant_of_meets _ _ sharePortStep LooksInTime SharePorts.Tracked ?_ _ _ _
      hrun hmeets (tracked_start rows)
    intro s a t hs htime hstep
    exact (sharePortStep_step hstep).tracked hs htime
  refine ⟨?_, ?_, ?_⟩
  · intro bound served hserved hserving
    exact htracked.accounted hserved hserving
  · intro share hsettled
    constructor
    · intro bound served hserved heq hserving
      subst heq
      exact (htracked.accounted hserved hserving).boundPort hsettled
    · intro t hback bound served hserved hshare
      exact release_closes htracked hsettled hback hserved hshare
  · intro t hdrop bound served hserved
    cases sharePortStep_step hdrop with
    | rows a rows ha => cases ha
    | dropped hidle =>
        by_contra hopen
        have hserving := Bool.of_not_eq_false hopen
        rcases not_serving_closeAll hserved hserving with ⟨hold, hother⟩
        exact hother ((htracked.accounted hold hserving).boundPort
          (settled_of_idle hidle served.share))

end

/-!
## A share that is left while its port is being bound
-/

/-- A port is released while the call that binds it waits for the remembered port. -/
def releasedWhileBinding : List SharePortAction :=
  [SharePortAction.sharePort firstShare, SharePortAction.call 0 PortEvent.takeCell,
    SharePortAction.call 0 PortEvent.acquire, SharePortAction.call 0 PortEvent.findRow,
    SharePortAction.call 0 (PortEvent.readPort false), SharePortAction.release firstShare,
    SharePortAction.remove 0, SharePortAction.close 0,
    SharePortAction.call 0 (PortEvent.bind PortBinding.again),
    SharePortAction.call 0 PortEvent.serve, SharePortAction.call 0 PortEvent.fill]

def rememberedRows (share : ShareId) : Option (Option Nat) :=
  if share = firstShare then some (some 40000) else none

/-- The release and the call have returned, and the port is served outside the map; the proxy
does not close it when it goes. -/
theorem port_served_after_release :
    exists s t, Run sharePortStep (SharePorts.start rememberedRows) releasedWhileBinding s ∧
      s.Settled firstShare ∧ s.boundPort firstShare = none ∧
      sharePortStep s SharePortAction.dropProxy = some t ∧
      s.ports[0]? = some { share := firstShare, port := 40000, serving := true } ∧
      t.ports[0]? = some { share := firstShare, port := 40000, serving := true } := by
  have hend : ((exec sharePortStep (SharePorts.start rememberedRows) releasedWhileBinding).bind
      fun s => (sharePortStep s SharePortAction.dropProxy).map fun t =>
        (s.idle, s.boundPort firstShare, s.ports[0]?, t.ports[0]?)) =
      some (true, none, some { share := firstShare, port := 40000, serving := true },
        some { share := firstShare, port := 40000, serving := true }) := by
    decide
  rcases Option.bind_eq_some_iff.mp hend with ⟨s, hs, hrest⟩
  rcases Option.map_eq_some_iff.mp hrest with ⟨t, ht, heq⟩
  simp only [Prod.mk.injEq] at heq
  rcases heq with ⟨hidle, hport, hfirst, hsecond⟩
  exact ⟨s, t, run_iff_exec.mpr hs, settled_of_idle hidle firstShare, hport, ht, hfirst, hsecond⟩

/-- A port is bound, and then released. -/
def releasedOnceBound : List SharePortAction :=
  [SharePortAction.sharePort firstShare, SharePortAction.call 0 PortEvent.takeCell,
    SharePortAction.call 0 PortEvent.acquire, SharePortAction.call 0 PortEvent.findRow,
    SharePortAction.call 0 (PortEvent.readPort false),
    SharePortAction.call 0 (PortEvent.bind (PortBinding.fresh 40001)),
    SharePortAction.call 0 PortEvent.serve, SharePortAction.call 0 PortEvent.fill,
    SharePortAction.release firstShare, SharePortAction.remove 0, SharePortAction.close 0]

theorem released_ports_close_once_bound :
    exists s, Run sharePortStep (SharePorts.start rememberedRows) releasedOnceBound s ∧
      s.Settled firstShare ∧
      forall (bound : Nat) served, s.ports[bound]? = some served -> served.share = firstShare ->
        served.serving = true -> s.boundPort firstShare = some bound := by
  have hmeets : Meets sharePortStep LooksInTime (SharePorts.start rememberedRows)
      releasedOnceBound := by
    decide
  have hend : (exec sharePortStep (SharePorts.start rememberedRows) releasedOnceBound).map
      SharePorts.idle = some true := by
    decide
  rcases Option.map_eq_some_iff.mp hend with ⟨s, hs, hidle⟩
  have hrun := run_iff_exec.mpr hs
  have hsettled := settled_of_idle hidle firstShare
  exact ⟨s, hrun, hsettled,
    ((released_ports_close hrun hmeets).right.left firstShare hsettled).left⟩

end Guest
end WispersAccess
