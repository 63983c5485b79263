import WispersAccess.Desktop.Profiles

/-!
# Ports of running profiles

Whether a running browser uses the port that is bound for its share is only looked
at when the app starts.  An app that is opened later finds the browser in order if
it was not running with another port when the port was bound, or was restarted
since.
-/

namespace WispersAccess
namespace Desktop

open Foundation
open Guest (ShareId firstShare PortBinding)

/-!
## Who is at work on a profile
-/

def OpenPhase.port : OpenPhase -> Option Nat
  | asked port => some port
  | starting _ port _ => some port
  | _ => none

/-- Somebody has been told that this is the share's port. -/
def Profiles.Uses (s : Profiles) (share : ShareId) (port : Nat) : Prop :=
  (exists (i : Nat) (phase : OpenPhase), s.opens[i]? = some ⟨share, phase⟩ ∧
    phase.port = some port) ∨
    exists browser browsers phase rest,
      s.reclaim = ReclaimPhase.restarting share port browser browsers phase rest

/-- Somebody is starting the profile. -/
def Profiles.Starts (s : Profiles) (share : ShareId) (browser : Browser) (port : Nat)
    (phase : StartPhase) : Prop :=
  (exists i : Nat, s.opens[i]? = some ⟨share, OpenPhase.starting browser port phase⟩) ∨
    exists browsers rest, s.reclaim =
      ReclaimPhase.restarting share port browser browsers (RestartPhase.starting phase) rest

/-- Everybody at work has the port that is bound, nobody starts a profile that is still to be
restarted, and a running browser has the bound port or is still to be restarted. -/
structure Profiles.Sound (s : Profiles) : Prop where
  ports : forall share port, s.Uses share port -> s.boundPort share = some port
  starts : forall share browser port phase, s.Starts share browser port phase ->
    (s.profiles share browser).pending = false ∧
      Written browser port (s.profiles share browser) phase
  files : forall share browser started, (s.profiles share browser).running = some started ->
    started.isSome = true ∧ (s.profiles share browser).portFile = started
  aligned : forall share browser started port,
    (s.profiles share browser).running = some started -> s.boundPort share = some port ->
    started = some port ∨ (s.profiles share browser).pending = true

section
variable {s t : Profiles} {share other : ShareId} {browser : Browser} {port : Nat}
  {phase : StartPhase} {f : ProfileState -> ProfileState} {r : ReclaimPhase} {i : Nat}
  {before after : OpenPhase}

theorem Profiles.Starts.uses (h : s.Starts share browser port phase) : s.Uses share port := by
  rcases h with ⟨i, hi⟩ | ⟨browsers, rest, hreclaim⟩
  · exact Or.inl ⟨i, _, hi, rfl⟩
  · exact Or.inr ⟨browser, browsers, _, rest, hreclaim⟩

theorem uses_setOpen (hi : s.opens[i]? = some ⟨other, before⟩)
    (h : (s.setOpen i other after).Uses share port) :
    s.Uses share port ∨ (share = other ∧ after.port = some port) := by
  rcases h with ⟨j, phase, hj, hport⟩ | hreclaim
  · rcases (slot_set_eq_some_iff hi).mp hj with ⟨-, hsame⟩ | ⟨-, hold⟩
    · cases hsame
      exact Or.inr ⟨rfl, hport⟩
    · exact Or.inl (Or.inl ⟨j, phase, hold, hport⟩)
  · exact Or.inl (Or.inr hreclaim)

theorem starts_setOpen (hi : s.opens[i]? = some ⟨other, before⟩)
    (h : (s.setOpen i other after).Starts share browser port phase) :
    s.Starts share browser port phase ∨
      (share = other ∧ after = OpenPhase.starting browser port phase) := by
  rcases h with ⟨j, hj⟩ | hreclaim
  · rcases (slot_set_eq_some_iff hi).mp hj with ⟨-, hsame⟩ | ⟨-, hold⟩
    · cases hsame
      exact Or.inr ⟨rfl, rfl⟩
    · exact Or.inl (Or.inl ⟨j, hold⟩)
  · exact Or.inl (Or.inr hreclaim)

/-- Where only the tasks change. -/
theorem Profiles.Sound.tasks (hs : s.Sound) (hbound : t.boundPort = s.boundPort)
    (hprofiles : t.profiles = s.profiles)
    (huses : forall share port, t.Uses share port ->
      s.Uses share port ∨ s.boundPort share = some port)
    (hstarts : forall share browser port phase, t.Starts share browser port phase ->
      s.Starts share browser port phase ∨ ((s.profiles share browser).pending = false ∧
        Written browser port (s.profiles share browser) phase)) : t.Sound := by
  constructor
  · intro share port hport
    rw [hbound]
    rcases huses share port hport with hold | hnew
    · exact hs.ports share port hold
    · exact hnew
  · intro share browser port phase hstart
    rw [hprofiles]
    rcases hstarts share browser port phase hstart with hold | hnew
    · exact hs.starts share browser port phase hold
    · exact hnew
  · rw [hprofiles]
    exact hs.files
  · rw [hprofiles, hbound]
    exact hs.aligned

/-- Where not even the tasks change. -/
theorem Profiles.Sound.sameTasks (hs : s.Sound) (hbound : t.boundPort = s.boundPort)
    (hprofiles : t.profiles = s.profiles) (hopens : t.opens = s.opens)
    (hreclaim : t.reclaim = s.reclaim) : t.Sound := by
  refine hs.tasks hbound hprofiles ?_ ?_
  · intro share port huses
    unfold Profiles.Uses at huses
    rw [hopens, hreclaim] at huses
    exact Or.inl huses
  · intro share browser port phase hstart
    unfold Profiles.Starts at hstart
    rw [hopens, hreclaim] at hstart
    exact Or.inl hstart

theorem profile_modifyProfile :
    (s.modifyProfile share browser f).profiles share browser = f (s.profiles share browser) := by
  show Function.update s.profiles share _ share browser = _
  rw [Function.update_self, Function.update_self]

theorem profile_modifyProfile_other {browser' : Browser}
    (h : ¬ (other = share ∧ browser' = browser)) :
    (s.modifyProfile share browser f).profiles other browser' = s.profiles other browser' := by
  show Function.update s.profiles share _ other browser' = _
  by_cases hshare : other = share
  · have hbrowser : browser' ≠ browser := fun hb => h ⟨hshare, hb⟩
    rw [hshare, Function.update_self, Function.update_of_ne hbrowser]
  · rw [Function.update_of_ne hshare]

/-- Where only one profile changes, whoever is at work on it and whatever runs stay right. -/
theorem Profiles.Sound.modify (hs : s.Sound)
    (hstarts : forall port phase, s.Starts share browser port phase ->
      (f (s.profiles share browser)).pending = false ∧
        Written browser port (f (s.profiles share browser)) phase)
    (hfiles : forall started, (f (s.profiles share browser)).running = some started ->
      started.isSome = true ∧ (f (s.profiles share browser)).portFile = started)
    (haligned : forall started port, (f (s.profiles share browser)).running = some started ->
      s.boundPort share = some port ->
      started = some port ∨ (f (s.profiles share browser)).pending = true) :
    (s.modifyProfile share browser f).Sound := by
  constructor
  · exact hs.ports
  · intro other browser' port phase hstart
    by_cases hsame : other = share ∧ browser' = browser
    · rcases hsame with ⟨rfl, rfl⟩
      rw [profile_modifyProfile]
      exact hstarts port phase hstart
    · rw [profile_modifyProfile_other hsame]
      exact hs.starts other browser' port phase hstart
  · intro other browser' started hstarted
    by_cases hsame : other = share ∧ browser' = browser
    · rcases hsame with ⟨rfl, rfl⟩
      rw [profile_modifyProfile] at hstarted ⊢
      exact hfiles started hstarted
    · rw [profile_modifyProfile_other hsame] at hstarted ⊢
      exact hs.files other browser' started hstarted
  · intro other browser' started port hstarted hbound
    by_cases hsame : other = share ∧ browser' = browser
    · rcases hsame with ⟨rfl, rfl⟩
      rw [profile_modifyProfile] at hstarted ⊢
      exact haligned started port hstarted hbound
    · rw [profile_modifyProfile_other hsame] at hstarted ⊢
      exact hs.aligned other browser' started port hstarted hbound

/-!
## Steps
-/

/-- Whoever is at work on a profile finds a running browser started with the bound port. -/
theorem Profiles.Sound.runsWith (hs : s.Sound) (hstart : s.Starts share browser port phase) :
    RunsWith port (s.profiles share browser) := by
  intro started hstarted
  have hbound := hs.ports share port hstart.uses
  have hport : started = some port := by
    rcases hs.aligned share browser started port hstarted hbound with hsame | hpending
    · exact hsame
    · rw [(hs.starts share browser port phase hstart).left] at hpending
      cases hpending
  exact ⟨hport, (hs.files share browser started hstarted).right.trans hport⟩

theorem Profiles.Sound.startStep (hs : s.Sound) (hstart : s.Starts share browser port phase)
    (hclean : QuitsCleanly browser port (s.profiles share browser) phase) :
    (s.modifyProfile share browser fun profile =>
      (Profiles.startStep browser port profile phase).1).Sound := by
  have hbound := hs.ports share port hstart.uses
  have hwritten := (hs.starts share browser port phase hstart).right
  have hruns := startStep_runsWith (hs.runsWith hstart) hwritten hclean
  refine hs.modify ?_ ?_ ?_
  · intro port' phase' hother
    have hsame : port' = port := by
      have hbound' := hs.ports share port' hother.uses
      rw [hbound] at hbound'
      exact (Option.some.inj hbound').symm
    rw [hsame] at hother ⊢
    rcases hs.starts share browser port phase' hother with ⟨hpending, hother⟩
    exact ⟨startStep_pending.trans hpending, hother.startStep phase⟩
  · intro started hstarted
    rcases hruns started hstarted with ⟨rfl, hfile⟩
    exact ⟨rfl, hfile⟩
  · intro started port' hstarted hbound'
    rw [hbound] at hbound'
    cases hbound'
    exact Or.inl (hruns started hstarted).left

/-- Once `restart_if_port_moved` finds that a profile needs no restart, or has it quit, it is
done with it. -/
theorem Profiles.Sound.passed (hs : s.Sound)
    (hdone : forall started port, (s.profiles share browser).running = some started ->
      s.boundPort share = some port -> started = some port) :
    (s.passed share browser).Sound := by
  refine hs.modify ?_ ?_ ?_
  · intro port phase hstart
    exact ⟨rfl, (hs.starts share browser port phase hstart).right⟩
  · intro started hstarted
    exact hs.files share browser started hstarted
  · intro started port hstarted hbound
    exact Or.inl (hdone started port hstarted hbound)

theorem Profiles.Sound.quits (hs : s.Sound) :
    (s.modifyProfile share browser fun profile => { profile with running := none }).Sound := by
  refine hs.modify ?_ ?_ ?_
  · intro port phase hstart
    exact hs.starts share browser port phase hstart
  · nofun
  · nofun

theorem Profiles.Sound.bindTo (hs : s.Sound) (hunbound : s.boundPort share = none) (port : Nat) :
    (s.bindTo share port).Sound := by
  have hnobody : forall other port', s.Uses other port' -> other ≠ share := by
    intro other port' huses heq
    subst heq
    rw [hs.ports other port' huses] at hunbound
    cases hunbound
  have hother : forall other, other ≠ share ->
      (s.bindTo share port).profiles other = s.profiles other := by
    intro other hne
    show Function.update s.profiles share _ other = _
    rw [Function.update_of_ne hne]
  constructor
  · intro other port' huses
    show Function.update s.boundPort share (some port) other = some port'
    rw [Function.update_of_ne (hnobody other port' huses)]
    exact hs.ports other port' huses
  · intro other browser port' phase hstart
    rw [hother other (hnobody other port' hstart.uses)]
    exact hs.starts other browser port' phase hstart
  · intro other browser started hstarted
    by_cases hsame : other = share
    · rw [hsame] at hstarted ⊢
      change (Function.update s.profiles share _ share browser).running = _ at hstarted
      show _ ∧ (Function.update s.profiles share _ share browser).portFile = _
      rw [Function.update_self] at hstarted ⊢
      exact hs.files share browser started hstarted
    · rw [hother other hsame] at hstarted ⊢
      exact hs.files other browser started hstarted
  · intro other browser started port' hstarted hbound
    by_cases hsame : other = share
    · rw [hsame] at hstarted hbound ⊢
      change (Function.update s.profiles share _ share browser).running = _ at hstarted
      change Function.update s.boundPort share (some port) share = _ at hbound
      show _ ∨ (Function.update s.profiles share _ share browser).pending = true
      rw [Function.update_self] at hstarted hbound ⊢
      cases hbound
      have hrunning : (s.profiles share browser).running = some started := hstarted
      show _ ∨ Profiles.runsElsewhere (s.profiles share browser) port = true
      unfold Profiles.runsElsewhere
      rw [hrunning]
      by_cases hport : started = some port
      · exact Or.inl hport
      · exact Or.inr (bne_iff_ne.mpr hport)
    · rw [hother other hsame] at hstarted ⊢
      change Function.update s.boundPort share (some port) other = _ at hbound
      rw [Function.update_of_ne hsame] at hbound
      exact hs.aligned other browser started port' hstarted hbound

/-- What `share_port` answers is bound then, and nobody's task changes. -/
theorem Profiles.Sound.sharePort {binding : PortBinding} {answer : Option Nat} (hs : s.Sound)
    (h : s.sharePort share binding = some (answer, t)) :
    t.Sound ∧ t.opens = s.opens ∧ t.reclaim = s.reclaim ∧
      forall port, answer = some port -> t.boundPort share = some port := by
  unfold Profiles.sharePort at h
  split at h
  · rename_i hbound
    cases h
    refine ⟨hs, rfl, rfl, ?_⟩
    intro port heq
    cases heq
    exact hbound
  · rename_i port hunbound hremembered
    cases h
    refine ⟨hs.bindTo hunbound port, rfl, rfl, ?_⟩
    intro port heq
    cases heq
    exact Function.update_self ..
  · cases h
  · rename_i port hunbound
    cases h
    refine ⟨(hs.bindTo hunbound port).sameTasks rfl rfl rfl rfl, rfl, rfl, ?_⟩
    intro port' hanswer
    cases hanswer
    exact Function.update_self ..
  · cases h
    refine ⟨hs, rfl, rfl, ?_⟩
    intro port heq
    cases heq

theorem nextShare_ne {rest rest' : List ShareId} {browsers : List Browser} {p : RestartPhase} :
    Profiles.nextShare rest ≠ ReclaimPhase.restarting share port browser browsers p rest' := by
  cases rest with
  | nil => nofun
  | cons head tail => nofun

theorem nextBrowser_eq {rest rest' : List ShareId} {bs browsers : List Browser}
    {p : RestartPhase} {port' : Nat}
    (h : Profiles.nextBrowser other port' rest bs =
      ReclaimPhase.restarting share port browser browsers p rest') :
    share = other ∧ port = port' ∧ p = RestartPhase.comparing := by
  cases bs with
  | nil => exact absurd h nextShare_ne
  | cons head tail =>
      cases h
      exact ⟨rfl, rfl, rfl⟩

/-- Where only the reclaim goes on. -/
theorem Profiles.Sound.reclaim (hs : s.Sound)
    (huses : forall share port browser browsers p rest,
      r = ReclaimPhase.restarting share port browser browsers p rest ->
      s.boundPort share = some port)
    (hstarts : forall share port browser browsers phase rest,
      r = ReclaimPhase.restarting share port browser browsers (RestartPhase.starting phase) rest ->
      (s.profiles share browser).pending = false ∧
        Written browser port (s.profiles share browser) phase) :
    ({ s with reclaim := r } : Profiles).Sound := by
  refine hs.tasks rfl rfl ?_ ?_
  · intro share port h
    rcases h with hopen | ⟨browser, browsers, p, rest, hr⟩
    · exact Or.inl (Or.inl hopen)
    · exact Or.inr (huses share port browser browsers p rest hr)
  · intro share browser port phase h
    rcases h with hopen | ⟨browsers, rest, hr⟩
    · exact Or.inl (Or.inl hopen)
    · exact Or.inr (hstarts share port browser browsers phase rest hr)

theorem Profiles.Sound.nextShare (hs : s.Sound) (rest : List ShareId) :
    ({ s with reclaim := Profiles.nextShare rest } : Profiles).Sound := by
  refine hs.reclaim ?_ ?_
  · intro share port browser browsers p rest' hr
    exact absurd hr nextShare_ne
  · intro share port browser browsers phase rest' hr
    exact absurd hr nextShare_ne

theorem Profiles.Sound.nextBrowser (hs : s.Sound) (hbound : s.boundPort share = some port)
    (rest : List ShareId) (browsers : List Browser) :
    ({ s with reclaim := Profiles.nextBrowser share port rest browsers } : Profiles).Sound := by
  refine hs.reclaim ?_ ?_
  · intro share' port' browser browsers p rest' hr
    rcases nextBrowser_eq hr with ⟨rfl, rfl, -⟩
    exact hbound
  · intro share' port' browser browsers phase rest' hr
    rcases nextBrowser_eq hr with ⟨-, -, hp⟩
    cases hp

/-- The reclaim goes on with the browser it is at. -/
theorem Profiles.Sound.restarting (hs : s.Sound) (hbound : s.boundPort share = some port)
    {browsers : List Browser} {p : RestartPhase} {rest : List ShareId}
    (hstarts : forall phase, p = RestartPhase.starting phase ->
      (s.profiles share browser).pending = false ∧
        Written browser port (s.profiles share browser) phase) :
    ({ s with
      reclaim := ReclaimPhase.restarting share port browser browsers p rest
    } : Profiles).Sound := by
  refine hs.reclaim ?_ ?_
  · intro share' port' browser' browsers' p' rest' hr
    cases hr
    exact hbound
  · intro share' port' browser' browsers' phase rest' hr
    cases hr
    exact hstarts phase rfl

/-- Where only one opening goes on. -/
theorem Profiles.Sound.setOpen (hs : s.Sound) (hi : s.opens[i]? = some ⟨share, before⟩)
    (huses : forall port, after.port = some port -> s.boundPort share = some port)
    (hstarts : forall browser port phase, after = OpenPhase.starting browser port phase ->
      (s.profiles share browser).pending = false ∧
        Written browser port (s.profiles share browser) phase) :
    (s.setOpen i share after).Sound := by
  refine hs.tasks rfl rfl ?_ ?_
  · intro other port h
    rcases uses_setOpen hi h with hold | ⟨rfl, hport⟩
    · exact Or.inl hold
    · exact Or.inr (huses port hport)
  · intro other browser port phase h
    rcases starts_setOpen hi h with hold | ⟨rfl, hstart⟩
    · exact Or.inl hold
    · exact Or.inr (hstarts browser port phase hstart)

end

/-- A start of a profile, and where it is. -/
structure ProfileStart where
  share : ShareId
  browser : Browser
  port : Nat
  phase : StartPhase

def Profiles.startOf (s : Profiles) : Starter -> Option ProfileStart
  | Starter.openCall i =>
      match s.opens[i]? with
      | some ⟨share, OpenPhase.starting browser port phase⟩ => some ⟨share, browser, port, phase⟩
      | _ => none
  | Starter.reclaim =>
      match s.reclaim with
      | ReclaimPhase.restarting share port browser _ (RestartPhase.starting phase) _ =>
          some ⟨share, browser, port, phase⟩
      | _ => none

/-- An app is opened in a profile only if that was not running with another port when the
share's port was bound, or `restart_if_port_moved` has been through it since; and a browser
does not quit between a start's look and its new process, unless its files hold the port. -/
def OpensInTurn (s : Profiles) : ProfileAction -> Prop
  | ProfileAction.choose i =>
      forall call, call ∈ s.opens[i]? -> forall browser, browser ∈ Browser.all.find? s.installed ->
        (s.profiles call.share browser).pending = false
  | ProfileAction.start who =>
      forall start, start ∈ s.startOf who ->
        QuitsCleanly start.browser start.port (s.profiles start.share start.browser) start.phase
  | _ => True

instance (browser : Browser) (port : Nat) (profile : ProfileState) (phase : StartPhase) :
    Decidable (QuitsCleanly browser port profile phase) :=
  match phase with
  | StartPhase.spawning true =>
      inferInstanceAs (Decidable (profile.running.isSome = true ∨ HoldsPort browser port profile))
  | StartPhase.spawning false => isTrue trivial
  | StartPhase.looking => isTrue trivial
  | StartPhase.writingPort => isTrue trivial
  | StartPhase.writingPrefs => isTrue trivial

instance (s : Profiles) (a : ProfileAction) : Decidable (OpensInTurn s a) :=
  match a with
  | ProfileAction.choose i =>
      inferInstanceAs (Decidable (forall call, call ∈ s.opens[i]? ->
        forall browser, browser ∈ Browser.all.find? s.installed ->
          (s.profiles call.share browser).pending = false))
  | ProfileAction.start who =>
      inferInstanceAs (Decidable (forall start, start ∈ s.startOf who ->
        QuitsCleanly start.browser start.port (s.profiles start.share start.browser) start.phase))
  | ProfileAction.startApp => isTrue trivial
  | ProfileAction.quitApp => isTrue trivial
  | ProfileAction.browserQuits _ _ => isTrue trivial
  | ProfileAction.setInstalled _ _ => isTrue trivial
  | ProfileAction.openApp _ => isTrue trivial
  | ProfileAction.askPort _ _ => isTrue trivial
  | ProfileAction.listShares _ => isTrue trivial
  | ProfileAction.reclaimPort _ => isTrue trivial
  | ProfileAction.compare => isTrue trivial
  | ProfileAction.check => isTrue trivial
  | ProfileAction.awaitQuit _ => isTrue trivial
  | ProfileAction.startFails _ => isTrue trivial

section
variable {s t : Profiles} {a : ProfileAction}

theorem sound_open {i : Nat} (hs : s.Sound)
    (hcond : OpensInTurn s (ProfileAction.start (Starter.openCall i)))
    (h : profileStep s (ProfileAction.start (Starter.openCall i)) = some t) : t.Sound := by
  unfold profileStep at h
  dsimp only at h
  split at h
  · rename_i share browser port phase hi
    cases h
    have hclean : QuitsCleanly browser port (s.profiles share browser) phase := by
      refine hcond ⟨share, browser, port, phase⟩ ?_
      rw [Option.mem_def, Profiles.startOf, hi]
    have hstart : s.Starts share browser port phase := Or.inl ⟨i, hi⟩
    have hbound := hs.ports share port hstart.uses
    rcases hs.starts share browser port phase hstart with ⟨hpending, hwritten⟩
    have hsound := hs.startStep hstart hclean
    cases hnext : (Profiles.startStep browser port (s.profiles share browser) phase).2 with
    | none =>
        refine hsound.setOpen hi ?_ ?_
        · nofun
        · nofun
    | some next =>
        refine hsound.setOpen hi ?_ ?_
        · intro port' heq
          cases heq
          exact hbound
        · intro browser' port' phase' heq
          cases heq
          rw [profile_modifyProfile]
          exact ⟨startStep_pending.trans hpending, startStep_written hwritten hnext⟩
  · cases h

theorem sound_reclaim (hs : s.Sound) (hcond : OpensInTurn s (ProfileAction.start Starter.reclaim))
    (h : profileStep s (ProfileAction.start Starter.reclaim) = some t) : t.Sound := by
  unfold profileStep at h
  dsimp only at h
  split at h
  · rename_i share port browser browsers phase rest hreclaim
    have hclean : QuitsCleanly browser port (s.profiles share browser) phase := by
      refine hcond ⟨share, browser, port, phase⟩ ?_
      rw [Option.mem_def, Profiles.startOf, hreclaim]
    have hstart : s.Starts share browser port phase := Or.inr ⟨browsers, rest, hreclaim⟩
    have hbound := hs.ports share port hstart.uses
    rcases hs.starts share browser port phase hstart with ⟨hpending, hwritten⟩
    have hsound := hs.startStep hstart hclean
    split at h
    · rename_i next hnext
      cases h
      refine hsound.restarting hbound ?_
      intro phase' heq
      cases heq
      rw [profile_modifyProfile]
      exact ⟨startStep_pending.trans hpending, startStep_written hwritten hnext⟩
    · cases h
      exact (hsound.nextBrowser hbound rest browsers).tasks rfl rfl
        (fun _ _ huses => Or.inl huses) (fun _ _ _ _ hstart => Or.inl hstart)
  · cases h

/-- In `compare`, the port file tells the port of a running browser. -/
theorem sound_compare (hs : s.Sound) (h : profileStep s ProfileAction.compare = some t) :
    t.Sound := by
  unfold profileStep at h
  dsimp only at h
  split at h
  · rename_i share port browser browsers rest hreclaim
    have hbound : s.boundPort share = some port :=
      hs.ports share port (Or.inr ⟨browser, browsers, _, rest, hreclaim⟩)
    split at h
    · rename_i hsame
      cases h
      refine (hs.passed ?_).nextBrowser hbound rest browsers
      intro started port' hstarted hbound'
      rw [hbound] at hbound'
      cases hbound'
      rcases hs.files share browser started hstarted with ⟨hsome, hfile⟩
      rcases Option.isSome_iff_exists.mp hsome with ⟨startedPort, rfl⟩
      rw [hfile] at hsame
      exact congrArg some (of_decide_eq_true hsame)
    · cases h
      exact hs.restarting hbound nofun
  · cases h

theorem not_running {profile : ProfileState} (h : profile.running.isNone = true)
    {started : Option Nat} : profile.running ≠ some started := by
  rw [Option.isNone_iff_eq_none.mp h]
  nofun

theorem sound_check (hs : s.Sound) (h : profileStep s ProfileAction.check = some t) :
    t.Sound := by
  unfold profileStep at h
  dsimp only at h
  split at h
  · rename_i share port browser browsers rest hreclaim
    have hbound : s.boundPort share = some port :=
      hs.ports share port (Or.inr ⟨browser, browsers, _, rest, hreclaim⟩)
    split at h
    · rename_i hnone
      cases h
      refine (hs.passed ?_).nextBrowser hbound rest browsers
      intro started port' hstarted
      exact absurd hstarted (not_running hnone)
    · split at h
      · cases h
        exact hs.restarting hbound nofun
      · cases h
        exact hs.nextShare rest
  · cases h

theorem sound_awaitQuit {timedOut : Bool} (hs : s.Sound)
    (h : profileStep s (ProfileAction.awaitQuit timedOut) = some t) : t.Sound := by
  unfold profileStep at h
  dsimp only at h
  split at h
  · rename_i share port browser browsers rest hreclaim
    have hbound : s.boundPort share = some port :=
      hs.ports share port (Or.inr ⟨browser, browsers, _, rest, hreclaim⟩)
    split at h
    · cases h
      exact hs.nextShare rest
    · split at h
      · rename_i hnone
        cases h
        have hpassed : (s.passed share browser).Sound := by
          refine hs.passed ?_
          intro started port' hstarted
          exact absurd hstarted (not_running hnone)
        refine hpassed.restarting hbound ?_
        intro phase heq
        cases heq
        unfold Profiles.passed
        rw [profile_modifyProfile]
        exact ⟨rfl, trivial⟩
      · cases h
  · cases h

theorem sound_quitApp (hs : s.Sound) (h : profileStep s ProfileAction.quitApp = some t) :
    t.Sound := by
  cases h
  constructor
  · intro share port huses
    rcases huses with ⟨i, phase, hi, -⟩ | ⟨browser, browsers, p, rest, hreclaim⟩
    · cases hi
    · cases hreclaim
  · intro share browser port phase hstart
    rcases hstart with ⟨i, hi⟩ | ⟨browsers, rest, hreclaim⟩
    · cases hi
    · cases hreclaim
  · exact hs.files
  · nofun

theorem sound_openApp {share : ShareId} (hs : s.Sound)
    (h : profileStep s (ProfileAction.openApp share) = some t) : t.Sound := by
  unfold profileStep at h
  dsimp only at h
  split at h
  · cases h
    refine hs.tasks rfl rfl ?_ ?_
    · intro other port huses
      rcases huses with ⟨i, phase, hi, hport⟩ | hreclaim
      · rcases slot_append_eq_some_iff.mp hi with hold | ⟨-, hnew⟩
        · exact Or.inl (Or.inl ⟨i, phase, hold, hport⟩)
        · cases hnew
          cases hport
      · exact Or.inl (Or.inr hreclaim)
    · intro other browser port phase hstart
      rcases hstart with ⟨i, hi⟩ | hreclaim
      · rcases slot_append_eq_some_iff.mp hi with hold | ⟨-, hnew⟩
        · exact Or.inl (Or.inl ⟨i, hold⟩)
        · cases hnew
      · exact Or.inl (Or.inr hreclaim)
  · cases h

theorem sound_askPort {i : Nat} {binding : PortBinding} (hs : s.Sound)
    (h : profileStep s (ProfileAction.askPort i binding) = some t) : t.Sound := by
  unfold profileStep at h
  dsimp only at h
  split at h
  · rename_i share hi
    rcases Option.map_eq_some_iff.mp h with ⟨⟨answer, u⟩, hport, rfl⟩
    rcases hs.sharePort hport with ⟨hsound, hopens, -, hbound⟩
    have hi' : u.opens[i]? = some ⟨share, OpenPhase.asking⟩ := hopens ▸ hi
    cases answer with
    | none => exact hsound.setOpen hi' nofun nofun
    | some port =>
        refine hsound.setOpen hi' ?_ nofun
        intro port' heq
        cases heq
        exact hbound port rfl
  · cases h

/-- The browser that is chosen is not to be restarted any more. -/
theorem sound_choose {i : Nat} (hs : s.Sound) (hcond : OpensInTurn s (ProfileAction.choose i))
    (h : profileStep s (ProfileAction.choose i) = some t) : t.Sound := by
  unfold profileStep at h
  dsimp only at h
  split at h
  · rename_i share port hi
    split at h
    · cases h
      exact hs.setOpen hi nofun nofun
    · rename_i browser hbrowser
      cases h
      have hchosen : (s.setOpen i share
          (OpenPhase.starting browser port StartPhase.looking)).Sound := by
        refine hs.setOpen hi ?_ ?_
        · intro port' heq
          cases heq
          exact hs.ports share port (Or.inl ⟨i, _, hi, rfl⟩)
        · intro browser' port' phase heq
          cases heq
          exact ⟨hcond _ hi browser hbrowser, trivial⟩
      exact hchosen.sameTasks rfl rfl rfl rfl
  · cases h

theorem sound_reclaimPort {binding : PortBinding} (hs : s.Sound)
    (h : profileStep s (ProfileAction.reclaimPort binding) = some t) : t.Sound := by
  unfold profileStep at h
  dsimp only at h
  split at h
  · rename_i share rest hreclaim
    rcases Option.map_eq_some_iff.mp h with ⟨⟨answer, u⟩, hport, rfl⟩
    rcases hs.sharePort hport with ⟨hsound, -, -, hbound⟩
    cases answer with
    | none => exact hsound.nextShare rest
    | some port => exact hsound.nextBrowser (hbound port rfl) rest Browser.all
  · cases h

theorem sound_startFails {who : Starter} (hs : s.Sound)
    (h : profileStep s (ProfileAction.startFails who) = some t) : t.Sound := by
  cases who with
  | openCall i =>
      unfold profileStep at h
      dsimp only at h
      split at h
      · rename_i share browser port phase hi
        cases h
        exact hs.setOpen hi nofun nofun
      · cases h
  | reclaim =>
      unfold profileStep at h
      dsimp only at h
      split at h
      · cases h
        exact hs.nextShare _
      · cases h

theorem profileStep_sound (hs : s.Sound) (hcond : OpensInTurn s a)
    (h : profileStep s a = some t) : t.Sound := by
  cases a with
  | startApp =>
      unfold profileStep at h
      dsimp only at h
      split at h
      · cases h
      · cases h
        have hlisting := hs.reclaim (r := ReclaimPhase.listing) nofun nofun
        exact hlisting.sameTasks rfl rfl rfl rfl
  | quitApp => exact sound_quitApp hs h
  | browserQuits share browser =>
      cases h
      exact hs.quits
  | setInstalled browser installed =>
      cases h
      exact hs.sameTasks rfl rfl rfl rfl
  | openApp share => exact sound_openApp hs h
  | askPort i binding => exact sound_askPort hs h
  | choose i => exact sound_choose hs hcond h
  | listShares shares =>
      unfold profileStep at h
      dsimp only at h
      split at h
      · cases h
        exact hs.nextShare _
      · cases h
  | reclaimPort binding => exact sound_reclaimPort hs h
  | compare => exact sound_compare hs h
  | check => exact sound_check hs h
  | awaitQuit timedOut => exact sound_awaitQuit hs h
  | start who =>
      cases who with
      | openCall i => exact sound_open hs hcond h
      | reclaim => exact sound_reclaim hs hcond h
  | startFails who => exact sound_startFails hs h

/-- The share and the port of a running browser that an opening hands its address to. -/
def Profiles.handsOver (s : Profiles) : ProfileAction -> Option (ShareId × Option Nat)
  | ProfileAction.start (Starter.openCall i) =>
      match s.opens[i]? with
      | some ⟨share, OpenPhase.starting browser _ (StartPhase.spawning _)⟩ =>
          (s.profiles share browser).running.map fun started => (share, started)
      | _ => none
  | _ => none

theorem sound_start (installed : Browser -> Bool) : (Profiles.start installed).Sound := by
  constructor
  · intro share port h
    rcases h with ⟨i, phase, hi, -⟩ | ⟨browser, browsers, p, rest, hreclaim⟩
    · cases hi
    · cases hreclaim
  · intro share browser port phase h
    rcases h with ⟨i, hi⟩ | ⟨browsers, rest, hreclaim⟩
    · cases hi
    · cases hreclaim
  · nofun
  · nofun

/-- In every run in which apps are opened in their turn: whenever an opening hands its address
to a running browser, that was started with the port that is bound for the share. -/
theorem running_profile_has_bound_port {installed : Browser -> Bool} {acts : List ProfileAction}
    (hrun : Run profileStep (Profiles.start installed) acts s)
    (hmeets : Meets profileStep OpensInTurn (Profiles.start installed) acts)
    {share : ShareId} {started : Option Nat} (hhands : s.handsOver a = some (share, started)) :
    started.isSome = true ∧ s.boundPort share = started := by
  have hs : s.Sound := by
    refine @Run.invariant_of_meets _ _ profileStep OpensInTurn Profiles.Sound ?_ _ _ _
      hrun hmeets (sound_start installed)
    intro s a t hs hcond hstep
    exact profileStep_sound hs hcond hstep
  unfold Profiles.handsOver at hhands
  split at hhands
  · split at hhands
    · rename_i i _ share' browser port found hi
      rcases Option.map_eq_some_iff.mp hhands with ⟨started', hrunning, hsame⟩
      cases hsame
      have hstart : s.Starts share browser port (StartPhase.spawning found) := Or.inl ⟨i, hi⟩
      rcases hs.runsWith hstart started hrunning with ⟨rfl, -⟩
      exact ⟨rfl, hs.ports share port hstart.uses⟩
    · cases hhands
  · cases hhands

end

/-!
## A share whose port has moved
-/

/-- The app binds another port for the share when it is started again, and opens an app before
it has restarted the share's profile. -/
def openedBeforeRestart : List ProfileAction :=
  let opens (port : Nat) : List ProfileAction :=
    [ProfileAction.startApp, ProfileAction.openApp firstShare,
      ProfileAction.askPort 0 (PortBinding.fresh port), ProfileAction.choose 0,
      ProfileAction.start (Starter.openCall 0)]
  opens 40000 ++ [ProfileAction.start (Starter.openCall 0),
    ProfileAction.start (Starter.openCall 0), ProfileAction.quitApp] ++ opens 40001

/-- The address goes to a browser that still uses the old port. -/
theorem running_profile_has_old_port :
    exists s t, Run profileStep (Profiles.start fun _ => true) openedBeforeRestart s ∧
      profileStep s (ProfileAction.start (Starter.openCall 0)) = some t ∧
      s.handsOver (ProfileAction.start (Starter.openCall 0)) =
        some (firstShare, some 40000) ∧
      s.boundPort firstShare = some 40001 := by
  have hend : ((exec profileStep (Profiles.start fun _ => true) openedBeforeRestart).bind
      fun s => (profileStep s (ProfileAction.start (Starter.openCall 0))).map fun _ =>
        (s.handsOver (ProfileAction.start (Starter.openCall 0)), s.boundPort firstShare)) =
      some (some (firstShare, some 40000), some 40001) := by
    decide
  rcases Option.bind_eq_some_iff.mp hend with ⟨s, hs, hrest⟩
  rcases Option.map_eq_some_iff.mp hrest with ⟨t, ht, heq⟩
  simp only [Prod.mk.injEq] at heq
  exact ⟨s, t, run_iff_exec.mpr hs, ht, heq.left, heq.right⟩

/-- The profile is restarted first. -/
def openedAfterRestart : List ProfileAction :=
  let opens (port : Nat) : List ProfileAction :=
    [ProfileAction.openApp firstShare, ProfileAction.askPort 0 (PortBinding.fresh port),
      ProfileAction.choose 0, ProfileAction.start (Starter.openCall 0)]
  ProfileAction.startApp :: opens 40000 ++ [ProfileAction.start (Starter.openCall 0),
    ProfileAction.start (Starter.openCall 0), ProfileAction.quitApp, ProfileAction.startApp,
    ProfileAction.listShares (some [firstShare]),
    ProfileAction.reclaimPort (PortBinding.fresh 40001), ProfileAction.compare,
    ProfileAction.check, ProfileAction.browserQuits firstShare Browser.chrome,
    ProfileAction.awaitQuit false, ProfileAction.start Starter.reclaim,
    ProfileAction.start Starter.reclaim, ProfileAction.start Starter.reclaim] ++ opens 40002

theorem running_profile_has_bound_port_after_restart :
    exists s, Run profileStep (Profiles.start fun _ => true) openedAfterRestart s ∧
      s.handsOver (ProfileAction.start (Starter.openCall 0)) =
        some (firstShare, some 40001) ∧
      s.boundPort firstShare = some 40001 := by
  have hmeets : Meets profileStep OpensInTurn (Profiles.start fun _ => true)
      openedAfterRestart := by
    decide
  have hend : (exec profileStep (Profiles.start fun _ => true) openedAfterRestart).map
      (fun s => s.handsOver (ProfileAction.start (Starter.openCall 0))) =
      some (some (firstShare, some 40001)) := by
    decide
  rcases Option.map_eq_some_iff.mp hend with ⟨s, hs, hhands⟩
  have hrun := run_iff_exec.mpr hs
  exact ⟨s, hrun, hhands, (running_profile_has_bound_port hrun hmeets hhands).right⟩

end Desktop
end WispersAccess
