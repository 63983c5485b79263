import WispersAccess.Guest.RefreshRuns

/-!
# A refresh without others beside it

After any run, a refresh that no other one runs beside and that completes leaves
the copy that its stream was served with: that of the config in force when the
host took the stream up.  A reload does not change what is answered on it.
-/

namespace WispersAccess
namespace Guest

open Foundation
open Host (ShareConfig TransportKind shareInfo)

/-- An action that is none of another refresh. -/
def RefreshAction.OnlyOf (i : Nat) : RefreshAction -> Prop
  | start => False
  | call j _ => j = i
  | reload _ => True
  | other _ => True

def RefreshAction.isReload : RefreshAction -> Bool
  | reload _ => true
  | _ => false

/-!
## The hash it asks with
-/

/-- The stored hash is that of a version. -/
def ShareHost.Stored (host : ShareHost) (id : Int) (db : DB) (version : Nat) : Prop :=
  exists config, host.versions[version]? = some config ∧
    db.readShareConfigHash id = some (some config.configHash)

/-- What a phase says of the stored hash where nobody else writes it. -/
def RefreshPhase.Lone (id : Int) (db : DB) (host : ShareHost) : RefreshPhase -> Prop
  | asked known _ => db.readShareConfigHash id = some known
  | answered version none => host.Stored id db version
  | finished version => host.Stored id db version
  | _ => True

section
variable {text : JsonText} {id : Int} {db db' : DB} {host host' : ShareHost}
  {phase phase' : RefreshPhase} {event : RefreshEvent}

theorem RefreshEffect.lone (h : RefreshEffect text id host db phase event db' phase')
    (hrow : exists r, db.row id = some r) (hfits : phase.Fits host)
    (hlone : phase.Lone id db host) : phase'.Lone id db' host := by
  cases h with
  | asked known version hread => exact hread
  | accepted known => exact hlone
  | unchanged version config served hconfig => exact ⟨config, hconfig, hlone⟩
  | confirmed version =>
      rcases hlone with ⟨config, hconfig, hstored⟩
      exact ⟨config, hconfig, (readCopy_writeOutdated text db id false).right.trans hstored⟩
  | stored version info db' hwrite =>
      rcases hfits with ⟨config, hconfig, rfl⟩
      rcases hrow with ⟨r, hr⟩
      exact ⟨config, hconfig, (DB.readCopy_writeShareInfo hr hwrite).right⟩
  | acceptedEarly | told | refused | cleared | marked | failed => trivial

theorem RefreshPhase.Lone.of_same_hash (hlone : phase.Lone id db host)
    (hhost : host.Grown host')
    (hhash : db'.readShareConfigHash id = db.readShareConfigHash id) :
    phase.Lone id db' host' := by
  have hstored : forall version, host.Stored id db version -> host'.Stored id db' version := by
    intro version h
    rcases h with ⟨config, hconfig, hread⟩
    exact ⟨config, hhost.version hconfig, hhash.trans hread⟩
  cases phase with
  | asked known version => exact hhash.trans hlone
  | answered version info =>
      cases info with
      | none => exact hstored version hlone
      | some info => trivial
  | finished version => exact hstored version hlone
  | opened | cleared | refused | failed => trivial

end

/-!
## How it came to be answered
-/

section
variable (text : JsonText) (w : Host.World) (id : Int) (s : Refreshing) (i : Nat)

/-- The host took up the stream of a refresh when the version was its newest. -/
def TakenUp (acts : List RefreshAction) (version : Nat) : Prop :=
  exists before between taken,
    acts = before ++ RefreshAction.call i RefreshEvent.accept :: between ∧
      Run (refreshStep text w id) s before taken ∧ taken.host.newest = version

/-- It answered a refresh that had asked with the stored hash. -/
def Answered (acts : List RefreshAction) (version : Nat) : Prop :=
  exists front served back answering known,
    acts = front ++ RefreshAction.call i (RefreshEvent.answer served) :: back ∧
      Run (refreshStep text w id) s front answering ∧ TakenUp text w id s i front version ∧
      answering.calls[i]? = some (RefreshPhase.asked known (some version)) ∧
      answering.db.readShareConfigHash id = some known

def RefreshPhase.Traced (acts : List RefreshAction) : RefreshPhase -> Prop
  | opened (some version) => TakenUp text w id s i acts version
  | asked _ (some version) => TakenUp text w id s i acts version
  | answered version _ => Answered text w id s i acts version
  | cleared version _ => Answered text w id s i acts version
  | finished version => Answered text w id s i acts version
  | _ => True

end

section
variable {text : JsonText} {w : Host.World} {id : Int} {s t : Refreshing} {i : Nat}
  {acts : List RefreshAction} {phase phase' : RefreshPhase} {event : RefreshEvent}

theorem TakenUp.snoc {version : Nat} (h : TakenUp text w id s i acts version)
    (a : RefreshAction) : TakenUp text w id s i (acts ++ [a]) version := by
  rcases h with ⟨before, between, taken, rfl, hrun, hnewest⟩
  exact ⟨before, between ++ [a], taken, by simp, hrun, hnewest⟩

theorem Answered.snoc {version : Nat} (h : Answered text w id s i acts version)
    (a : RefreshAction) : Answered text w id s i (acts ++ [a]) version := by
  rcases h with ⟨front, served, back, answering, known, rfl, hrest⟩
  exact ⟨front, served, back ++ [a], answering, known, by simp, hrest⟩

theorem RefreshPhase.Traced.snoc (h : phase.Traced text w id s i acts) (a : RefreshAction) :
    phase.Traced text w id s i (acts ++ [a]) := by
  cases phase with
  | opened version =>
      cases version with
      | none => trivial
      | some version => exact TakenUp.snoc h a
  | asked known version =>
      cases version with
      | none => trivial
      | some version => exact TakenUp.snoc h a
  | answered | cleared | finished => exact Answered.snoc h a
  | refused | failed => trivial

theorem RefreshEffect.traced {mid : Refreshing} {db : DB}
    (h : RefreshEffect text id mid.host mid.db phase event db phase')
    (hrun : Run (refreshStep text w id) s acts mid) (hphase : mid.calls[i]? = some phase)
    (hlone : phase.Lone id mid.db mid.host) (htraced : phase.Traced text w id s i acts) :
    phase'.Traced text w id s i (acts ++ [RefreshAction.call i event]) := by
  cases h with
  | asked known version hread =>
      cases version with
      | none => trivial
      | some version => exact TakenUp.snoc htraced _
  | acceptedEarly | accepted => exact ⟨acts, [], mid, rfl, hrun, rfl⟩
  | unchanged | told => exact ⟨acts, _, [], mid, _, rfl, hrun, htraced, hphase, hlone⟩
  | confirmed | cleared | stored => exact Answered.snoc htraced _
  | refused | marked | failed => trivial

/-- What holds of a refresh that runs alone, by induction on its run. -/
theorem lone_run (hfaithful : s.Faithful text id) {rest : List RefreshAction}
    (hrun : Run (refreshStep text w id) s (RefreshAction.start :: rest) t)
    (honly : forall a, a ∈ rest -> a.OnlyOf s.calls.length) :
    exists phase, t.calls[s.calls.length]? = some phase ∧ phase.Lone id t.db t.host ∧
      phase.Traced text w id s s.calls.length (RefreshAction.start :: rest) := by
  induction rest using List.reverseRecOn generalizing t with
  | nil =>
      cases hrun with
      | cons hstep hrest =>
          cases hrest
          cases hstep
          exact ⟨RefreshPhase.opened none, by simp, trivial, trivial⟩
  | append_singleton rest a ih =>
      rw [← List.cons_append] at hrun ⊢
      rcases hrun.split with ⟨mid, hfront, hlast⟩
      rcases ih hfront (fun b hb => honly b (List.mem_append_left _ hb)) with
        ⟨phase, hphase, hlone, htraced⟩
      have hmid := refreshRun_faithful hfaithful hfront
      rcases hmid.row with ⟨r, hr, hcomplete⟩
      have ha := honly a (List.mem_append_right _ (List.mem_singleton_self a))
      cases hlast with
      | cons hstep hnil =>
          cases hnil
          cases a with
          | start => cases ha
          | call j event =>
              cases ha
              rcases refreshStep_call hstep with ⟨old, db, phase', hold, heffect, rfl⟩
              cases hphase.symm.trans hold
              exact ⟨phase', slot_set_self hphase phase',
                heffect.lone ⟨r, hr⟩ (hmid.calls _ _ hphase) hlone,
                heffect.traced hfront hphase hlone htraced⟩
          | reload fresh =>
              cases hstep
              exact ⟨phase, hphase, hlone.of_same_hash (mid.host.grown_reload fresh) rfl,
                htraced.snoc _⟩
          | other op =>
              rcases refreshStep_other hstep with ⟨hop, db, hwrite, rfl⟩
              have hhash :=
                (storeStep_sparesCopy hwrite hop hr (by rw [hcomplete]; nofun)).right.right
              exact ⟨phase, hphase, hlone.of_same_hash (ShareHost.Grown.refl _) hhash,
                htraced.snoc _⟩

/-- A host that does not reload stays as it is. -/
theorem host_eq_of_no_reload (hrun : Run (refreshStep text w id) s acts t)
    (hnone : forall a, a ∈ acts -> a.isReload = false) : t.host = s.host := by
  induction hrun with
  | nil s => rfl
  | @cons s mid t a rest hstep _ ih =>
      have hrest := ih fun b hb => hnone b (List.mem_cons_of_mem _ hb)
      refine hrest.trans ?_
      cases a with
      | start =>
          cases hstep
          rfl
      | call j event =>
          rcases refreshStep_call hstep with ⟨phase, db, phase', -, -, rfl⟩
          rfl
      | reload fresh => cases hnone _ (List.mem_cons_self ..)
      | other op =>
          rcases refreshStep_other hstep with ⟨-, db, -, rfl⟩
          rfl

/-- A 304 is given only to a refresh that asked with the hash of the version it is served
against. -/
theorem known_of_unchanged {served : Answering} {known : Option UInt64} {version other : Nat}
    (hphase : s.calls[i]? = some (RefreshPhase.asked known (some version)))
    (hstep : refreshStep text w id s (RefreshAction.call i (RefreshEvent.answer served)) = some t)
    (hanswered : t.calls[i]? = some (RefreshPhase.answered other none)) :
    exists config, s.host.versions[version]? = some config ∧
      known = some config.configHash := by
  rcases refreshStep_call hstep with ⟨phase, db, phase', hold, heffect, rfl⟩
  cases hphase.symm.trans hold
  have hnew : phase' = RefreshPhase.answered other none :=
    Option.some.inj ((slot_set_self hphase phase').symm.trans hanswered)
  subst hnew
  cases heffect with
  | unchanged version config served hconfig => exact ⟨config, hconfig, rfl⟩

/-- After any run, a refresh that no other one runs beside and that completes leaves the copy of
the config that the host had when it took up the stream.  It was answered 304 only if that copy
was there already, and without a reload in between the host still had that config then. -/
theorem lone_refresh_stores_config_taken_up {s₀ : Refreshing} {before rest : List RefreshAction}
    {version : Nat} (hjoined : s₀.Joined text id)
    (hbefore : Run (refreshStep text w id) s₀ before s)
    (hrun : Run (refreshStep text w id) s (RefreshAction.start :: rest) t)
    (honly : forall a, a ∈ rest -> a.OnlyOf s.calls.length) (hapart : t.host.HashesApart)
    (hdone : t.calls[s.calls.length]? = some (RefreshPhase.finished version)) :
    exists front between served back taken answering,
      RefreshAction.start :: rest =
        front ++ RefreshAction.call s.calls.length RefreshEvent.accept ::
          (between ++ RefreshAction.call s.calls.length (RefreshEvent.answer served) :: back) ∧
      Run (refreshStep text w id) s front taken ∧
      Run (refreshStep text w id) taken
        (RefreshAction.call s.calls.length RefreshEvent.accept :: between) answering ∧
      t.db.readCopy text id =
        some (ShareCopy.ofInfo (shareInfo taken.host.current taken.host.transport)) ∧
      ((exists next other, refreshStep text w id answering
            (RefreshAction.call s.calls.length (RefreshEvent.answer served)) = some next ∧
          next.calls[s.calls.length]? = some (RefreshPhase.answered other none)) ->
        answering.db.readCopy text id =
          some (ShareCopy.ofInfo (shareInfo taken.host.current taken.host.transport))) ∧
      ((forall a, a ∈ between -> a.isReload = false) ->
        answering.host.current = taken.host.current) := by
  have hs := refreshRun_faithful hjoined.faithful hbefore
  rcases lone_run hs hrun honly with ⟨phase, hphase, hlone, htraced⟩
  cases hdone.symm.trans hphase
  rcases htraced with ⟨asked, served, back, answering, known, hacts, hasked,
    ⟨front, between, taken, rfl, htaken, rfl⟩, hwaiting, hknown⟩
  rcases hasked.split with ⟨taken', htaken', hbetween⟩
  cases htaken.unique htaken'
  rw [hacts] at hrun
  rcases hrun.split with ⟨answering', hasked', hback⟩
  cases hasked.unique hasked'
  have hmid := refreshRun_grown hbetween
  have hend := refreshRun_grown hback
  have hconfig := hmid.version taken.host.newest_current
  refine ⟨front, between, served, back, taken, answering, ?_, htaken, hbetween, ?_, ?_, ?_⟩
  · rw [hacts, List.append_assoc]
    rfl
  · rcases hlone with ⟨config, hversion, hstored⟩
    cases (hend.version hconfig).symm.trans hversion
    rw [← hmid.transport, ← hend.transport]
    exact (refreshRun_faithful hs hrun).records hapart (List.mem_of_getElem? hversion) hstored
  · intro h
    rcases h with ⟨next, other, hstep, hanswered⟩
    rcases known_of_unchanged hwaiting hstep hanswered with ⟨config, hversion, rfl⟩
    cases hconfig.symm.trans hversion
    rw [← hmid.transport]
    exact (refreshRun_faithful hs hasked).records (hend.apart hapart)
      (List.mem_of_getElem? hconfig) hknown
  · intro hnone
    have hhost := host_eq_of_no_reload hbetween (by
      intro a ha
      rcases List.mem_cons.mp ha with rfl | ha
      · rfl
      · exact hnone a ha)
    rw [hhost]

end

theorem lone_refresh_stores_reloaded_config :
    exists s t front taken,
      Run (refreshStep Json.compact Host.World.quiet 1) joinedFamily
        [RefreshAction.reload immichConfig] s ∧
      Run (refreshStep Json.compact Host.World.quiet 1) s
        (RefreshAction.start :: askAndAnswer 0 ++ storeAnswer 0) t ∧
      Run (refreshStep Json.compact Host.World.quiet 1) s front taken ∧
      t.db.readCopy Json.compact 1 =
        some (ShareCopy.ofInfo (shareInfo taken.host.current taken.host.transport)) := by
  have hend : (exec (refreshStep Json.compact Host.World.quiet 1)
      { joinedFamily with host := joinedFamily.host.reload immichConfig }
      (RefreshAction.start :: askAndAnswer 0 ++ storeAnswer 0)).map
      (fun t => (t.calls, t.host.versions)) =
        some ([RefreshPhase.finished 1], [joinedConfig, immichConfig]) := by
    simp only [askAndAnswer, storeAnswer, List.cons_append, List.nil_append, exec, refreshStep,
      refreshEvent, fetched_welcome]
    decide +kernel
  rcases Option.map_eq_some_iff.mp hend with ⟨t, ht, heq⟩
  rcases Prod.mk.inj heq with ⟨hcalls, hversions⟩
  have hapart : t.host.HashesApart := by
    unfold ShareHost.HashesApart
    rw [hversions]
    decide +kernel
  have hbefore : Run (refreshStep Json.compact Host.World.quiet 1) joinedFamily
      [RefreshAction.reload immichConfig]
      { joinedFamily with host := joinedFamily.host.reload immichConfig } :=
    Run.single rfl
  have hrun := run_iff_exec.mpr ht
  have hdone : t.calls[joinedFamily.calls.length]? = some (RefreshPhase.finished 1) := by
    rw [hcalls]
    rfl
  rcases lone_refresh_stores_config_taken_up joinedFamily_joined hbefore hrun
    (by simp [joinedFamily, askAndAnswer, storeAnswer, RefreshAction.OnlyOf]) hapart hdone with
    ⟨front, between, served, back, taken, answering, -, htaken, -, hcopy, -⟩
  exact ⟨_, t, front, taken, hbefore, hrun, htaken, hcopy⟩

/-- The host reloads after it has taken up the stream and before it answers. -/
def reloadedBeforeAnswer : List RefreshAction :=
  [RefreshAction.start, RefreshAction.call 0 RefreshEvent.readHash,
    RefreshAction.call 0 RefreshEvent.accept, RefreshAction.reload immichConfig]

/-- A lone refresh is answered 304, and the copy is not the host's share info by then. -/
theorem lone_refresh_keeps_config_before_reload :
    joinedFamily.Joined Json.compact 1 ∧
      exists answering next t,
        Run (refreshStep Json.compact Host.World.quiet 1) joinedFamily reloadedBeforeAnswer
          answering ∧
        refreshStep Json.compact Host.World.quiet 1 answering
          (RefreshAction.call 0 (RefreshEvent.answer welcome)) = some next ∧
        refreshStep Json.compact Host.World.quiet 1 next
          (RefreshAction.call 0 RefreshEvent.clearOutdated) = some t ∧
        next.calls = [RefreshPhase.answered 0 none] ∧
        t.calls = [RefreshPhase.finished 0] ∧ t.host.HashesApart ∧
        answering.db.readCopy Json.compact 1 ≠
          some (ShareCopy.ofInfo
            (shareInfo answering.host.current answering.host.transport)) ∧
        t.db.readCopy Json.compact 1 ≠
          some (ShareCopy.ofInfo
            (shareInfo answering.host.current answering.host.transport)) := by
  have hend : ((exec (refreshStep Json.compact Host.World.quiet 1) joinedFamily
      reloadedBeforeAnswer).bind fun answering =>
        (refreshStep Json.compact Host.World.quiet 1 answering
          (RefreshAction.call 0 (RefreshEvent.answer welcome))).bind fun next =>
            (refreshStep Json.compact Host.World.quiet 1 next
              (RefreshAction.call 0 RefreshEvent.clearOutdated)).map fun t =>
                ((next.calls, t.calls), (answering.host.current, t.host.versions),
                  answering.db.readCopy Json.compact 1, t.db.readCopy Json.compact 1)) =
      some (([RefreshPhase.answered 0 none], [RefreshPhase.finished 0]),
        (immichConfig, [joinedConfig, immichConfig]),
        some (ShareCopy.ofInfo (shareInfo joinedConfig TransportKind.iroh)),
        some (ShareCopy.ofInfo (shareInfo joinedConfig TransportKind.iroh))) := by
    decide +kernel
  rcases Option.bind_eq_some_iff.mp hend with ⟨answering, hanswering, hstep⟩
  rcases Option.bind_eq_some_iff.mp hstep with ⟨next, hnext, hlast⟩
  rcases Option.map_eq_some_iff.mp hlast with ⟨t, ht, heq⟩
  simp only [Prod.mk.injEq] at heq
  rcases heq with ⟨⟨hasked, hcalls⟩, ⟨hcurrent, hversions⟩, hcopy, hafter⟩
  have hrun := run_iff_exec.mpr hanswering
  have htransport := (refreshRun_grown hrun).transport
  have hother : some (ShareCopy.ofInfo (shareInfo joinedConfig TransportKind.iroh)) ≠
      some (ShareCopy.ofInfo (shareInfo immichConfig TransportKind.iroh)) := by
    decide
  refine ⟨joinedFamily_joined, answering, next, t, hrun, hnext, ht, hasked, hcalls, ?_, ?_, ?_⟩
  · unfold ShareHost.HashesApart
    rw [hversions]
    decide +kernel
  · rw [hcopy, hcurrent, htransport]
    exact hother
  · rw [hafter, hcurrent, htransport]
    exact hother

end Guest
end WispersAccess
