import WispersAccess.Foundation.ActionSystem
import WispersAccess.Foundation.Slots
import WispersAccess.Guest.SharePorts

/-!
# Browser profiles

Apps of a share open in a browser profile of the share's own, which sends its
traffic to the share's port.  A browser is told the port when it starts and keeps
to it as long as it runs, also while the app is not there; a file in the profile
says which port that is.  When the app starts it binds the shares' ports again,
and restarts the profiles that run with another port.
-/

namespace WispersAccess
namespace Desktop

open Foundation
open Guest (ShareId firstShare PortBinding)

/-!
## The system
-/

inductive Browser where
  | chrome
  | edge
  | brave
  | chromium
  | firefox
  deriving DecidableEq, Repr

/-- In the order the first installed one is picked. -/
def Browser.all : List Browser :=
  [chrome, edge, brave, chromium, firefox]

def Browser.isFirefox (browser : Browser) : Bool :=
  browser = firefox

/-- A share's profile in one browser. -/
structure ProfileState where
  portFile : Option Nat
  /-- The port in the preferences, which only Firefox reads. -/
  prefs : Option Nat
  /-- The port that the running browser was started with. -/
  running : Option (Option Nat)
  /-- It was running with another port when the app bound the share's, and
  `restart_if_port_moved` has not been through it since. -/
  pending : Bool
  deriving DecidableEq, Repr

/-- Where a call of `Profile::start` is. -/
inductive StartPhase where
  | looking
  | writingPort
  | writingPrefs
  | spawning (found : Bool)
  deriving DecidableEq, Repr

inductive OpenPhase where
  | asking
  | asked (port : Nat)
  | starting (browser : Browser) (port : Nat) (phase : StartPhase)
  | finished
  deriving DecidableEq, Repr

structure OpenCall where
  share : ShareId
  phase : OpenPhase
  deriving DecidableEq, Repr

inductive RestartPhase where
  | comparing
  | checking
  | quitting
  | starting (phase : StartPhase)
  deriving DecidableEq, Repr

/-- Where `reclaim_share_ports` is; the first of the browsers is the one it is at. -/
inductive ReclaimPhase where
  | listing
  | asking (share : ShareId) (rest : List ShareId)
  | restarting (share : ShareId) (port : Nat) (browser : Browser) (browsers : List Browser)
      (phase : RestartPhase) (rest : List ShareId)
  | finished
  deriving DecidableEq, Repr

structure Profiles where
  up : Bool
  installed : Browser -> Bool
  remembered : ShareId -> Option Nat
  boundPort : ShareId -> Option Nat
  profiles : ShareId -> Browser -> ProfileState
  /-- The shares whose profile was restarted since one of their apps was opened. -/
  restarted : ShareId -> Bool
  opens : List OpenCall
  reclaim : ReclaimPhase

/-- Who starts a profile. -/
inductive Starter where
  | openCall (i : Nat)
  | reclaim
  deriving DecidableEq, Repr

inductive ProfileAction where
  | startApp
  | quitApp
  | browserQuits (share : ShareId) (browser : Browser)
  | setInstalled (browser : Browser) (installed : Bool)
  /-- An app of the share is to be opened. -/
  | openApp (share : ShareId)
  | askPort (i : Nat) (binding : PortBinding)
  /-- `ProfileManager::open`, up to the start of the profile. -/
  | choose (i : Nat)
  /-- The shares with forward-proxy apps, if they can be read. -/
  | listShares (shares : Option (List ShareId))
  | reclaimPort (binding : PortBinding)
  | compare
  | check
  | awaitQuit (timedOut : Bool)
  | start (who : Starter)
  | startFails (who : Starter)
  deriving DecidableEq, Repr

namespace Profiles

def start (installed : Browser -> Bool) : Profiles where
  up := false
  installed := installed
  remembered := fun _ => none
  boundPort := fun _ => none
  profiles := fun _ _ => { portFile := none, prefs := none, running := none, pending := false }
  restarted := fun _ => false
  opens := []
  reclaim := ReclaimPhase.finished

/-- Change one profile. -/
def modifyProfile (s : Profiles) (share : ShareId) (browser : Browser)
    (f : ProfileState -> ProfileState) : Profiles :=
  { s with
    profiles := Function.update s.profiles share
      (Function.update (s.profiles share) browser (f (s.profiles share browser))) }

/-- The browser runs with another port. -/
def runsElsewhere (profile : ProfileState) (port : Nat) : Bool :=
  match profile.running with
  | none => false
  | some started => started != some port

/-- The share's port is bound. -/
def bindTo (s : Profiles) (share : ShareId) (port : Nat) : Profiles :=
  { s with
    boundPort := Function.update s.boundPort share (some port)
    profiles := Function.update s.profiles share fun browser =>
      { s.profiles share browser with
        pending := runsElsewhere (s.profiles share browser) port } }

/-- `share_port`: the share's port, bound on first use. -/
def sharePort (s : Profiles) (share : ShareId) (binding : PortBinding) :
    Option (Option Nat × Profiles) :=
  match s.boundPort share, binding, s.remembered share with
  | some port, _, _ => some (some port, s)
  | none, PortBinding.again, some port => some (some port, s.bindTo share port)
  | none, PortBinding.again, none => none
  | none, PortBinding.fresh port, _ =>
      some (some port, { s.bindTo share port with
        remembered := Function.update s.remembered share (some port) })
  | none, PortBinding.fails, _ => some (none, s)

/-- A new process on the profile, which hands over to the running one if there is one. -/
def spawn (browser : Browser) (port : Nat) (profile : ProfileState) : ProfileState :=
  match profile.running with
  | some _ => profile
  | none =>
      { profile with running := some (if browser.isFirefox then profile.prefs else some port) }

/-- The next step of `Profile::start`, which ends with the new process. -/
def startStep (browser : Browser) (port : Nat) (profile : ProfileState) :
    StartPhase -> ProfileState × Option StartPhase
  | StartPhase.looking =>
      (profile, some (if profile.running.isSome then StartPhase.spawning true
        else StartPhase.writingPort))
  | StartPhase.writingPort =>
      ({ profile with portFile := some port },
        some (if browser.isFirefox then StartPhase.writingPrefs else StartPhase.spawning false))
  | StartPhase.writingPrefs =>
      ({ profile with prefs := some port }, some (StartPhase.spawning false))
  | StartPhase.spawning _ => (spawn browser port profile, none)

def setOpen (s : Profiles) (i : Nat) (share : ShareId) (phase : OpenPhase) : Profiles :=
  { s with opens := s.opens.set i { share := share, phase := phase } }

/-- On to the next share. -/
def nextShare : List ShareId -> ReclaimPhase
  | [] => ReclaimPhase.finished
  | share :: rest => ReclaimPhase.asking share rest

/-- On to the share's next browser. -/
def nextBrowser (share : ShareId) (port : Nat) (rest : List ShareId) : List Browser -> ReclaimPhase
  | [] => nextShare rest
  | browser :: browsers =>
      ReclaimPhase.restarting share port browser browsers RestartPhase.comparing rest

/-- `restart_if_port_moved` is done with the profile. -/
def passed (s : Profiles) (share : ShareId) (browser : Browser) : Profiles :=
  s.modifyProfile share browser fun profile => { profile with pending := false }

end Profiles

open Profiles (nextShare nextBrowser startStep) in
def profileStep (s : Profiles) : ProfileAction -> Option Profiles
  | ProfileAction.startApp =>
      if s.up then none else some { s with up := true, reclaim := ReclaimPhase.listing }
  | ProfileAction.quitApp =>
      some { s with
        up := false
        boundPort := fun _ => none
        profiles := fun share browser => { s.profiles share browser with pending := false }
        restarted := fun _ => false
        opens := []
        reclaim := ReclaimPhase.finished }
  | ProfileAction.browserQuits share browser =>
      some (s.modifyProfile share browser fun profile => { profile with running := none })
  | ProfileAction.setInstalled browser installed =>
      some { s with installed := Function.update s.installed browser installed }
  | ProfileAction.openApp share =>
      if s.up then
        some { s with opens := s.opens ++ [{ share := share, phase := OpenPhase.asking }] }
      else none
  | ProfileAction.askPort i binding =>
      match s.opens[i]? with
      | some ⟨share, OpenPhase.asking⟩ =>
          (s.sharePort share binding).map fun (port, t) =>
            t.setOpen i share ((port.map OpenPhase.asked).getD OpenPhase.finished)
      | _ => none
  | ProfileAction.choose i =>
      match s.opens[i]? with
      | some ⟨share, OpenPhase.asked port⟩ =>
          match Browser.all.find? s.installed with
          | none => some (s.setOpen i share OpenPhase.finished)
          | some browser =>
              some ({ s with restarted := Function.update s.restarted share false }.setOpen i share
                (OpenPhase.starting browser port StartPhase.looking))
      | _ => none
  | ProfileAction.listShares shares =>
      match s.reclaim with
      | ReclaimPhase.listing => some { s with reclaim := nextShare (shares.getD []) }
      | _ => none
  | ProfileAction.reclaimPort binding =>
      match s.reclaim with
      | ReclaimPhase.asking share rest =>
          (s.sharePort share binding).map fun (port, t) =>
            { t with
              reclaim :=
                match port with
                | none => nextShare rest
                | some port => nextBrowser share port rest Browser.all }
      | _ => none
  | ProfileAction.compare =>
      match s.reclaim with
      | ReclaimPhase.restarting share port browser browsers RestartPhase.comparing rest =>
          if (s.profiles share browser).portFile.all fun started => started = port then
            some { s.passed share browser with reclaim := nextBrowser share port rest browsers }
          else
            some { s with
              reclaim :=
                ReclaimPhase.restarting share port browser browsers RestartPhase.checking rest }
      | _ => none
  | ProfileAction.check =>
      match s.reclaim with
      | ReclaimPhase.restarting share port browser browsers RestartPhase.checking rest =>
          if (s.profiles share browser).running.isNone then
            some { s.passed share browser with reclaim := nextBrowser share port rest browsers }
          else if s.installed browser then
            some { s with
              reclaim :=
                ReclaimPhase.restarting share port browser browsers RestartPhase.quitting rest }
          else some { s with reclaim := nextShare rest }
      | _ => none
  | ProfileAction.awaitQuit timedOut =>
      match s.reclaim with
      | ReclaimPhase.restarting share port browser browsers RestartPhase.quitting rest =>
          if timedOut then some { s with reclaim := nextShare rest }
          else if (s.profiles share browser).running.isNone then
            some { s.passed share browser with
              reclaim := ReclaimPhase.restarting share port browser browsers
                (RestartPhase.starting StartPhase.looking) rest }
          else none
      | _ => none
  | ProfileAction.start (Starter.openCall i) =>
      match s.opens[i]? with
      | some ⟨share, OpenPhase.starting browser port phase⟩ =>
          let next := startStep browser port (s.profiles share browser) phase
          some ((s.modifyProfile share browser fun _ => next.1).setOpen i share
            ((next.2.map (OpenPhase.starting browser port)).getD OpenPhase.finished))
      | _ => none
  | ProfileAction.start Starter.reclaim =>
      match s.reclaim with
      | ReclaimPhase.restarting share port browser browsers (RestartPhase.starting phase) rest =>
          let next := startStep browser port (s.profiles share browser) phase
          match next.2 with
          | some phase =>
              some { s.modifyProfile share browser fun _ => next.1 with
                reclaim := ReclaimPhase.restarting share port browser browsers
                  (RestartPhase.starting phase) rest }
          | none =>
              some { s.modifyProfile share browser fun _ => next.1 with
                restarted := Function.update s.restarted share true
                reclaim := nextBrowser share port rest browsers }
      | _ => none
  | ProfileAction.startFails (Starter.openCall i) =>
      match s.opens[i]? with
      | some ⟨share, OpenPhase.starting _ _ _⟩ => some (s.setOpen i share OpenPhase.finished)
      | _ => none
  | ProfileAction.startFails Starter.reclaim =>
      match s.reclaim with
      | ReclaimPhase.restarting _ _ _ _ (RestartPhase.starting _) rest =>
          some { s with reclaim := nextShare rest }
      | _ => none

/-!
## Starting a profile
-/

/-- The profile's files hold the port. -/
def HoldsPort (browser : Browser) (port : Nat) (profile : ProfileState) : Prop :=
  profile.portFile = some port ∧ (browser.isFirefox = true -> profile.prefs = some port)

instance (browser : Browser) (port : Nat) (profile : ProfileState) :
    Decidable (HoldsPort browser port profile) :=
  inferInstanceAs (Decidable (_ ∧ _))

/-- What a start has written by the time it is in the phase. -/
def Written (browser : Browser) (port : Nat) (profile : ProfileState) : StartPhase -> Prop
  | StartPhase.looking => True
  | StartPhase.writingPort => True
  | StartPhase.writingPrefs => profile.portFile = some port
  | StartPhase.spawning found => found = false -> HoldsPort browser port profile

/-- If the browser runs, it was started with the port, and the port file says so. -/
def RunsWith (port : Nat) (profile : ProfileState) : Prop :=
  forall started, profile.running = some started ->
    started = some port ∧ profile.portFile = some port

/-- A browser that quits between a start's look and its new process has left files that hold
the port. -/
def QuitsCleanly (browser : Browser) (port : Nat) (profile : ProfileState) : StartPhase -> Prop
  | StartPhase.spawning true => profile.running.isSome = true ∨ HoldsPort browser port profile
  | _ => True

section
variable {browser : Browser} {port : Nat} {profile : ProfileState} {phase next : StartPhase}

/-- A new process changes nothing but what runs. -/
theorem spawn_running (browser : Browser) (port : Nat) (profile : ProfileState) :
    exists running,
      Profiles.spawn browser port profile = { profile with running := running } := by
  unfold Profiles.spawn
  split
  · exact ⟨profile.running, rfl⟩
  · exact ⟨_, rfl⟩

theorem startStep_pending :
    (Profiles.startStep browser port profile phase).1.pending = profile.pending := by
  cases phase with
  | spawning found =>
      rcases spawn_running browser port profile with ⟨running, hspawn⟩
      show (Profiles.spawn browser port profile).pending = _
      rw [hspawn]
  | _ => rfl

/-- What one start has written stays when another one goes on with the same port. -/
theorem Written.startStep (h : Written browser port profile phase) (other : StartPhase) :
    Written browser port (Profiles.startStep browser port profile other).1 phase := by
  have hholds : HoldsPort browser port profile ->
      HoldsPort browser port (Profiles.startStep browser port profile other).1 := by
    intro hwritten
    rcases hwritten with ⟨hfile, hprefs⟩
    cases other with
    | looking => exact ⟨hfile, hprefs⟩
    | writingPort => exact ⟨rfl, hprefs⟩
    | writingPrefs => exact ⟨hfile, fun _ => rfl⟩
    | spawning found =>
        rcases spawn_running browser port profile with ⟨running, hspawn⟩
        show HoldsPort browser port (Profiles.spawn browser port profile)
        rw [hspawn]
        exact ⟨hfile, hprefs⟩
  cases phase with
  | looking => trivial
  | writingPort => trivial
  | writingPrefs =>
      have hfile : profile.portFile = some port := h
      cases other with
      | looking => exact hfile
      | writingPort => rfl
      | writingPrefs => exact hfile
      | spawning found =>
          rcases spawn_running browser port profile with ⟨running, hspawn⟩
          show (Profiles.spawn browser port profile).portFile = some port
          rw [hspawn]
          exact hfile
  | spawning found =>
      intro hfound
      exact hholds (h hfound)

/-- What the start has written after its step. -/
theorem startStep_written (h : Written browser port profile phase)
    (hnext : (Profiles.startStep browser port profile phase).2 = some next) :
    Written browser port (Profiles.startStep browser port profile phase).1 next := by
  cases phase with
  | looking =>
      cases hnext
      cases hrunning : profile.running.isSome with
      | true =>
          intro hfound
          cases hfound
      | false => trivial
  | writingPort =>
      cases hnext
      cases hfirefox : browser.isFirefox with
      | true => rfl
      | false =>
          intro _
          refine ⟨rfl, ?_⟩
          intro htrue
          rw [hfirefox] at htrue
          cases htrue
  | writingPrefs =>
      cases hnext
      intro _
      exact ⟨h, fun _ => rfl⟩
  | spawning found => cases hnext

/-- A start leaves a browser running with its port, if it runs. -/
theorem startStep_runsWith (hruns : RunsWith port profile)
    (hwritten : Written browser port profile phase)
    (hclean : QuitsCleanly browser port profile phase) :
    RunsWith port (Profiles.startStep browser port profile phase).1 := by
  cases phase with
  | looking => exact hruns
  | writingPort =>
      intro started hstarted
      exact ⟨(hruns started hstarted).left, rfl⟩
  | writingPrefs => exact hruns
  | spawning found =>
      have hholds : profile.running.isSome = true ∨ HoldsPort browser port profile := by
        cases found with
        | true => exact hclean
        | false => exact Or.inr (hwritten rfl)
      show RunsWith port (Profiles.spawn browser port profile)
      unfold Profiles.spawn
      split
      · exact hruns
      · rename_i hnone
        rcases hholds with hsome | ⟨hfile, hprefs⟩
        · rw [hnone] at hsome
          cases hsome
        · intro started hstarted
          cases hstarted
          refine ⟨?_, hfile⟩
          split
          · rename_i hfirefox
            exact hprefs hfirefox
          · rfl

end

end Desktop
end WispersAccess
