import WispersAccess.Host.Template
import WispersAccess.Foundation.Undo

/-!
# Initialising a share

`initialization::up` registers undo steps while it sets a share up, and runs them
when a later step fails.  `ShareDir::create` does many things before the first
undo step for the directory is there.
-/

namespace WispersAccess
namespace Host
namespace Initialization

open Foundation
open Foundation.Script (firstFailing)
open Wire (UrlParser)

/-- What is in a share's directory. -/
structure ShareFiles where
  /-- `share.toml`. -/
  config : Option String
  /-- The `kv` table of `state.db`. -/
  state : Option (String -> Option String)

/-- One share's directory, and the account's connectivity groups. -/
structure Surroundings where
  dir : Option ShareFiles
  groups : List String

/-- What may fail with an error of its own. -/
inductive Operation where
  | sharesDir
  | createDirAll
  | setDirPermissions
  | newTempFile
  | writeAll
  | syncAll
  | persist
  | openDatabase
  | busyTimeout
  | setFilePermissions
  | journalMode
  | foreignKeys
  | migrate
  | set (key : String)
  | remove (key : String)
  | addConnectivityGroup
  | restoreOrInitNode
  | getRegistrationToken
  | register
  deriving DecidableEq, Repr

inductive InitError where
  | invalidName (share : String)
  | alreadyInitialised (share : String)
  | apiKeyRequired
  | alreadyExists (share : String)
  deriving DecidableEq, Repr

def InitError.text : InitError -> String
  | invalidName share =>
      "invalid share name '" ++ share ++ "' (use letters, digits, '-' or '_')"
  | alreadyInitialised share => "Share " ++ share ++ " already exists"
  | apiKeyRequired => "--api-key (or WC_API_KEY) is required for wispers-connect"
  | alreadyExists share => "share " ++ share ++ " already exists"

abbrev InitStep := ScriptStep Operation InitError Surroundings

abbrev InitScript := Script Operation InitError Surroundings

/-- What `up` is called with, and what it gets from outside on the way. -/
structure InitRun where
  displayName : String
  transport : TransportKind
  apiKey : Option String
  backend : Option String
  /-- The id of the group the backend adds. -/
  groupId : String
  irohSecret : String
  rootKey : String
  registration : String

/-!
## The share directory
-/

/-- `ShareDir::exists`: the share is initialised, even if its config cannot be read. -/
def Surroundings.hasConfig (w : Surroundings) : Bool :=
  match w.dir with
  | some files => files.config.isSome
  | none => false

def Surroundings.onFiles (f : ShareFiles -> ShareFiles) (w : Surroundings) : Surroundings :=
  { w with dir := w.dir.map f }

def Surroundings.delete (w : Surroundings) : Surroundings :=
  { w with dir := none }

/-- One statement on the `kv` table. -/
def setValue (key : String) (value : Option String) (files : ShareFiles) : ShareFiles :=
  { files with state := files.state.map fun kv k => if k = key then value else kv k }

def set (key value : String) : InitStep :=
  ScriptStep.act (Operation.set key) (Surroundings.onFiles (setValue key (some value)))

def remove (key : String) : InitStep :=
  ScriptStep.act (Operation.remove key) (Surroundings.onFiles (setValue key none))

/-- An operation that changes nothing here. -/
def touch (op : Operation) : InitStep :=
  ScriptStep.act op id

/-- The directory is not there: `create` has just looked. -/
def ensureDirExists : InitScript := [
  ScriptStep.act Operation.createDirAll
    (fun w => { w with dir := some { config := none, state := none } }),
  touch Operation.setDirPermissions]

/-- The temporary file goes away with its handle, unless it is renamed. -/
def writeAtomically (data : String) : InitScript := [
  touch Operation.newTempFile,
  touch Operation.writeAll,
  touch Operation.syncAll,
  ScriptStep.act Operation.persist
    (Surroundings.onFiles fun files => { files with config := some data })]

def openState : InitScript := [
  ScriptStep.act Operation.openDatabase
    (Surroundings.onFiles fun files => { files with state := some fun _ => none }),
  touch Operation.busyTimeout,
  touch Operation.setFilePermissions,
  touch Operation.journalMode,
  touch Operation.foreignKeys,
  touch Operation.migrate]

/-- `ShareDir::create`. -/
def create (share configText : String) (transport : TransportKind) : InitScript :=
  [ScriptStep.require (InitError.alreadyExists share) fun w => w.dir.isNone] ++
    ensureDirExists ++ writeAtomically configText ++ openState ++
    [set "transport" transport.asStr]

/-!
## The transports
-/

/-- `iroh_transport::init`. -/
def irohInit (share configText : String) (run : InitRun) : InitScript :=
  create share configText TransportKind.iroh ++ [
    ScriptStep.push "share directory" Surroundings.delete,
    set "iroh_secret" run.irohSecret]

def setWispersConnectState (apiKey groupId : String) (backend : Option String) : InitScript := [
  set "api_key" apiKey,
  set "connectivity_group_id" groupId,
  match backend with
  | some backend => set "wc_backend" backend
  | none => remove "wc_backend"]

def addGroup (id : String) (w : Surroundings) : Surroundings :=
  { w with groups := w.groups ++ [id] }

def removeGroup (id : String) (w : Surroundings) : Surroundings :=
  { w with groups := w.groups.filter fun g => g ≠ id }

/-- The library keeps the node's key in the state DB, and its registration once it has one. -/
def registerNode (run : InitRun) : InitScript := [
  ScriptStep.act Operation.restoreOrInitNode
    (Surroundings.onFiles (setValue "root_key" (some run.rootKey))),
  touch Operation.getRegistrationToken,
  ScriptStep.act Operation.register
    (Surroundings.onFiles (setValue "registration" (some run.registration)))]

/-- `wispers_connect_transport::init`. -/
def wispersConnectInit (share configText : String) (run : InitRun) : InitScript :=
  match run.apiKey with
  | none => [ScriptStep.require InitError.apiKeyRequired fun _ => false]
  | some apiKey =>
      [ScriptStep.act Operation.addConnectivityGroup (addGroup run.groupId),
        ScriptStep.push "connectivity group" (removeGroup run.groupId)] ++
      create share configText TransportKind.wispersConnect ++
      [ScriptStep.push "share directory" Surroundings.delete] ++
      setWispersConnectState apiKey run.groupId run.backend ++
      registerNode run

section
variable (quote : String -> String)

def init (share : String) (run : InitRun) : InitScript :=
  let configText := renderTemplate quote run.displayName
  match run.transport with
  | TransportKind.wispersConnect => wispersConnectInit share configText run
  | TransportKind.iroh => irohInit share configText run

/-- The result of `up`, and what it leaves behind. -/
def up (faults : Operation -> Option Fault) (share : String) (run : InitRun) (w : Surroundings) :
    Except (Stop Operation InitError) Unit × Surroundings :=
  if isValidId share then
    match faults Operation.sharesDir with
    | some _ => (Except.error (Stop.failed Operation.sharesDir), w)
    | none =>
        if w.hasConfig then
          (Except.error (Stop.refused (InitError.alreadyInitialised share)), w)
        else Script.attempt faults (init quote share run) w
  else (Except.error (Stop.refused (InitError.invalidName share)), w)

/-!
## What a failed run leaves
-/

/-- Nothing fails. -/
def noFaults : Operation -> Option Fault := fun _ => none

/-- The run has what its transport needs. -/
def InitRun.Complete (run : InitRun) : Prop :=
  run.transport = TransportKind.wispersConnect -> run.apiKey.isSome = true

/-- Neither the directory nor the run's group is there, and the share can be initialised. -/
structure NothingInTheWay (share : String) (run : InitRun) (w : Surroundings) : Prop where
  dir : w.dir = none
  group : run.groupId ∉ w.groups
  retry : isValidId share = true -> forall again : InitRun, again.Complete ->
    (up quote noFaults share again w).1 = Except.ok ()

/-- The failures that no undo step makes up for: from the moment the directory is there until
`create` has returned, and where a group is added whose id does not arrive. -/
def LeavesBehind : Operation × Fault -> Bool
  | (Operation.createDirAll, Fault.after) => true
  | (Operation.addConnectivityGroup, Fault.after) => true
  | (op, _) => op ∈ [Operation.setDirPermissions, Operation.newTempFile, Operation.writeAll,
      Operation.syncAll, Operation.persist, Operation.openDatabase, Operation.busyTimeout,
      Operation.setFilePermissions, Operation.journalMode, Operation.foreignKeys,
      Operation.migrate, Operation.set "transport"]

end

/-!
## Steps on the files
-/

/-- The step works on the files of the directory, if there is one. -/
def OnFiles : InitStep -> Prop
  | ScriptStep.act _ effect =>
      forall w, (effect w).groups = w.groups ∧ (effect w).dir.isSome = w.dir.isSome
  | _ => False

theorem onFiles_touch (op : Operation) : OnFiles (touch op) :=
  fun _ => ⟨rfl, rfl⟩

theorem onFiles_act (op : Operation) (f : ShareFiles -> ShareFiles) :
    OnFiles (ScriptStep.act op (Surroundings.onFiles f)) :=
  fun _ => ⟨rfl, Option.isSome_map⟩

section
variable {faults : Operation -> Option Fault} {script : InitScript} {configText : String}
  {transport : TransportKind} {run : InitRun}

/-- Steps on the files stop at the first failure; the directory, the groups and the undo steps
are what they were. -/
theorem exec_onFiles (faults : Operation -> Option Fault)
    (h : forall step, step ∈ script -> OnFiles step) (job : Job Surroundings) :
    exists w', Script.exec faults script job =
        (Script.outcome faults script, { job with world := w' }) ∧
      w'.groups = job.world.groups ∧ w'.dir.isSome = job.world.dir.isSome := by
  have hunconditional : Script.Unconditional script := by
    intro step hstep e holds heq
    have hfalse := h step hstep
    rw [heq] at hfalse
    exact hfalse
  have hkeeps : (Script.exec faults script job).2.undos = job.undos ∧
      (Script.exec faults script job).2.world.groups = job.world.groups ∧
      (Script.exec faults script job).2.world.dir.isSome = job.world.dir.isSome := by
    refine Script.exec_keeps (P := fun j => j.undos = job.undos ∧
      j.world.groups = job.world.groups ∧ j.world.dir.isSome = job.world.dir.isSome) ?_
      ⟨rfl, rfl, rfl⟩
    intro step hstep
    have honFiles := h step hstep
    cases step with
    | act op effect =>
        intro j hj
        rcases hj with ⟨hundos, hgroups, hdir⟩
        rcases honFiles j.world with ⟨hsameGroups, hsameDir⟩
        exact ⟨hundos, hsameGroups.trans hgroups, hsameDir.trans hdir⟩
    | require e holds => trivial
    | push what undo => exact honFiles.elim
  have hresult : (Script.exec faults script job).1 = Script.outcome faults script :=
    Script.exec_unconditional hunconditional job
  rcases hexec : Script.exec faults script job with ⟨result, job'⟩
  rw [hexec] at hkeeps hresult
  rcases hkeeps with ⟨hundos, hgroups, hdir⟩
  refine ⟨job'.world, ?_, hgroups, hdir⟩
  cases job'
  cases hundos
  cases hresult
  rfl

/-- What `create` does once the directory is there. -/
def fillDir (configText : String) (transport : TransportKind) : InitScript :=
  touch Operation.setDirPermissions :: (writeAtomically configText ++ openState ++
    [set "transport" transport.asStr])

theorem onFiles_fillDir (step : InitStep) (h : step ∈ fillDir configText transport) :
    OnFiles step := by
  simp only [fillDir, writeAtomically, openState, List.cons_append, List.nil_append,
    List.mem_cons, List.not_mem_nil, or_false] at h
  rcases h with rfl | rfl | rfl | rfl | rfl | rfl | rfl | rfl | rfl | rfl | rfl | rfl <;>
    first | exact onFiles_touch _ | exact onFiles_act _ _

theorem onFiles_backend (backend : Option String) :
    OnFiles (match backend with
      | some backend => set "wc_backend" backend
      | none => remove "wc_backend") := by
  cases backend with
  | none => exact onFiles_act _ _
  | some backend => exact onFiles_act _ _

/-- The steps of a transport that come after the last undo step is registered. -/
theorem onFiles_wispersConnect (apiKey : String) (step : InitStep)
    (h : step ∈ setWispersConnectState apiKey run.groupId run.backend ++ registerNode run) :
    OnFiles step := by
  simp only [setWispersConnectState, registerNode, List.cons_append, List.nil_append,
    List.mem_cons, List.not_mem_nil, or_false] at h
  rcases h with rfl | rfl | rfl | rfl | rfl | rfl
  · exact onFiles_act _ _
  · exact onFiles_act _ _
  · exact onFiles_backend run.backend
  · exact onFiles_act _ _
  · exact onFiles_touch _
  · exact onFiles_act _ _

theorem leavesBehind_fillDir {p : Operation × Fault}
    (h : firstFailing faults (fillDir configText transport) = some p) :
    LeavesBehind p = true := by
  have hall : forall fault op, op ∈ Script.ops (fillDir "" TransportKind.iroh) ->
      LeavesBehind (op, fault) = true := by
    intro fault
    cases fault <;> decide
  exact hall p.2 p.1 (Script.mem_ops_of_firstFailing h)

/-- None of the operations leaves anything behind, whether it takes effect or not. -/
theorem not_leavesBehind_of_ops
    (hops : (Script.ops script).all (fun op =>
      !LeavesBehind (op, Fault.before) && !LeavesBehind (op, Fault.after)) = true)
    {p : Operation × Fault} (h : firstFailing faults script = some p) : LeavesBehind p = false := by
  have hop := List.all_eq_true.mp hops p.1 (Script.mem_ops_of_firstFailing h)
  simp only [Bool.and_eq_true, Bool.not_eq_true'] at hop
  rcases p with ⟨op, fault⟩
  cases fault with
  | before => exact hop.left
  | after => exact hop.right

theorem not_leavesBehind_wispersConnect {apiKey : String} {p : Operation × Fault}
    (h : firstFailing faults
      (setWispersConnectState apiKey run.groupId run.backend ++ registerNode run) = some p) :
    LeavesBehind p = false := by
  cases hbackend : run.backend with
  | none =>
      rw [hbackend] at h
      exact not_leavesBehind_of_ops rfl h
  | some backend =>
      rw [hbackend] at h
      exact not_leavesBehind_of_ops rfl h

end

/-!
## One script after the other
-/

section
variable {faults : Operation -> Option Fault} {share configText : String}
  {transport : TransportKind} {run : InitRun} {w : Surroundings} {job : Job Surroundings}

/-- A directory that is there stays as it is. -/
theorem exec_create_taken (h : job.world.dir.isSome = true) :
    Script.exec faults (create share configText transport) job =
      (Except.error (Stop.refused (InitError.alreadyExists share)), job) := by
  have hsome : job.world.dir.isNone = false := by
    rw [← Option.not_isSome, h]
    rfl
  show (if job.world.dir.isNone = true then _ else _) = _
  rw [hsome]
  rfl

/-- Where `create` fails, the directory is left behind or was not there yet. -/
theorem exec_create (faults : Operation -> Option Fault) (share configText : String)
    (transport : TransportKind) (h : job.world.dir = none) :
    exists w', Script.exec faults (create share configText transport) job =
        (Script.outcome faults (create share configText transport), { job with world := w' }) ∧
      w'.groups = job.world.groups ∧
      forall p, firstFailing faults (create share configText transport) = some p ->
        w'.dir.isSome = LeavesBehind p := by
  have hcreate : create share configText transport =
      ScriptStep.require (InitError.alreadyExists share) (fun w => w.dir.isNone) ::
        ScriptStep.act Operation.createDirAll
          (fun w => { w with dir := some { config := none, state := none } }) ::
        fillDir configText transport :=
    rfl
  have hnone : job.world.dir.isNone = true := by
    rw [h]
    rfl
  rw [hcreate]
  simp only [Script.exec, Script.outcome, firstFailing, hnone, if_true]
  cases hfault : faults Operation.createDirAll with
  | some fault =>
      cases fault with
      | before =>
          refine ⟨job.world, rfl, rfl, ?_⟩
          intro p hp
          cases hp
          rw [h]
          rfl
      | after =>
          refine ⟨_, rfl, rfl, ?_⟩
          intro p hp
          cases hp
          rfl
  | none =>
      rcases exec_onFiles faults onFiles_fillDir (job.apply fun w =>
        { w with dir := some { config := none, state := none } }) with ⟨w', hexec, hgroups, hdir⟩
      refine ⟨w', hexec, hgroups, ?_⟩
      intro p hp
      rw [hdir, leavesBehind_fillDir hp]
      rfl

/-- Neither the directory nor the run's group is there. -/
def Clean (run : InitRun) (w : Surroundings) : Prop :=
  w.dir = none ∧ run.groupId ∉ w.groups

theorem clean_iff {p : Operation × Fault} (hgroup : run.groupId ∉ w.groups)
    (hdir : w.dir.isSome = LeavesBehind p) : Clean run w <-> LeavesBehind p = false := by
  rw [← hdir, Option.isSome_eq_false_iff, Option.isNone_iff_eq_none]
  constructor
  · intro h
    exact h.left
  · intro h
    exact ⟨h, hgroup⟩

/-- The group is added, and its removal registered. -/
def groupAdded (run : InitRun) (w : Surroundings) : Job Surroundings :=
  ((Job.start w).apply (addGroup run.groupId)).push "connectivity group" (removeGroup run.groupId)

theorem not_mem_removeGroup (id : String) (w : Surroundings) : id ∉ (removeGroup id w).groups := by
  simp [removeGroup]

/-- What the directory's part of a failed run comes to once it is rolled back. -/
theorem exec_setUp {script : InitScript} (hfiles : forall step, step ∈ script -> OnFiles step)
    (hleft : forall p, firstFailing faults script = some p -> LeavesBehind p = false)
    (job : Job Surroundings) (hdir : job.world.dir = none) {p : Operation × Fault}
    (h : firstFailing faults (create share configText transport ++
      ScriptStep.push "share directory" Surroundings.delete :: script) = some p) :
    exists job' w', Script.exec faults (create share configText transport ++
        ScriptStep.push "share directory" Surroundings.delete :: script) job =
        (Except.error (Stop.failed p.1), job') ∧
      job'.rolledBack = Job.rolledBack { job with world := w' } ∧
      w'.groups = job.world.groups ∧ w'.dir.isSome = LeavesBehind p := by
  rcases exec_create faults share configText transport hdir with
    ⟨w', hexec, hgroups, hcreated⟩
  rw [Script.firstFailing_append] at h
  rw [Script.exec_append, hexec, Script.outcome]
  cases hcreate : firstFailing faults (create share configText transport) with
  | some q =>
      rw [hcreate, Option.some_or] at h
      cases h
      exact ⟨_, w', rfl, rfl, hgroups, hcreated p hcreate⟩
  | none =>
      rw [hcreate, Option.none_or] at h
      rcases exec_onFiles faults hfiles
        (Job.push { job with world := w' } "share directory" Surroundings.delete) with
        ⟨w'', hrest, hsame, -⟩
      have hfirst : firstFailing faults script = some p := h
      rw [Script.outcome, hfirst] at hrest
      refine ⟨_, w''.delete, hrest, Job.rolledBack_push { job with world := w'' } _ _,
        hsame.trans hgroups, ?_⟩
      rw [hleft p hfirst]
      rfl

theorem irohInit_failed (hdir : w.dir = none) (hfresh : run.groupId ∉ w.groups)
    {p : Operation × Fault} (h : firstFailing faults (irohInit share configText run) = some p) :
    exists w', Script.attempt faults (irohInit share configText run) w =
        (Except.error (Stop.failed p.1), w') ∧
      (Clean run w' <-> LeavesBehind p = false) := by
  have hfiles : forall step, step ∈ [set "iroh_secret" run.irohSecret] -> OnFiles step :=
    fun step hstep => List.mem_singleton.mp hstep ▸ onFiles_act _ _
  have hleft : forall q, firstFailing faults [set "iroh_secret" run.irohSecret] = some q ->
      LeavesBehind q = false :=
    fun q hq => not_leavesBehind_of_ops rfl hq
  rcases exec_setUp hfiles hleft (Job.start w) hdir h with
    ⟨job, w', hexec, hback, hgroups, hp⟩
  refine ⟨w', ?_, clean_iff (hgroups ▸ hfresh) hp⟩
  rw [irohInit, Script.attempt_error job hexec, hback]
  rfl

theorem wispersConnectInit_failed (hdir : w.dir = none) (hfresh : run.groupId ∉ w.groups)
    {p : Operation × Fault}
    (h : firstFailing faults (wispersConnectInit share configText run) = some p) :
    exists w', Script.attempt faults (wispersConnectInit share configText run) w =
        (Except.error (Stop.failed p.1), w') ∧
      (Clean run w' <-> LeavesBehind p = false) := by
  unfold wispersConnectInit at h ⊢
  cases hkey : run.apiKey with
  | none =>
      rw [hkey] at h
      cases h
  | some apiKey =>
      rw [hkey] at h
      simp only [List.cons_append, List.nil_append, List.append_assoc] at h ⊢
      cases hadd : faults Operation.addConnectivityGroup with
      | some fault =>
          simp only [firstFailing, hadd] at h
          cases h
          cases fault with
          | before =>
              refine ⟨w, ?_, fun _ => rfl, fun _ => ⟨hdir, hfresh⟩⟩
              apply Script.attempt_error (Job.start w)
              simp only [Script.exec, hadd]
          | after =>
              refine ⟨addGroup run.groupId w, ?_, ?_, ?_⟩
              · apply Script.attempt_error ((Job.start w).apply (addGroup run.groupId))
                simp only [Script.exec, hadd]
              · intro hclean
                exact absurd (by simp [addGroup]) hclean.right
              · intro hfalse
                cases hfalse
      | none =>
          simp only [firstFailing, hadd] at h
          rcases exec_setUp (onFiles_wispersConnect apiKey)
            (fun q hq => not_leavesBehind_wispersConnect hq) (groupAdded run w) hdir h with
            ⟨job, w', hexec, hback, hgroups, hp⟩
          refine ⟨removeGroup run.groupId w', ?_, clean_iff (not_mem_removeGroup _ w') hp⟩
          have hwhole : Script.exec faults (ScriptStep.act Operation.addConnectivityGroup
              (addGroup run.groupId) ::
              ScriptStep.push "connectivity group" (removeGroup run.groupId) ::
              (create share configText TransportKind.wispersConnect ++
                ScriptStep.push "share directory" Surroundings.delete ::
                  (setWispersConnectState apiKey run.groupId run.backend ++ registerNode run)))
              (Job.start w) = (Except.error (Stop.failed p.1), job) := by
            simp only [Script.exec, hadd]
            exact hexec
          rw [Script.attempt_error job hwhole, hback]
          rfl

/-!
## Every failure of a run
-/

variable {quote : String -> String}

theorem init_failed (hdir : w.dir = none) (hfresh : run.groupId ∉ w.groups)
    {p : Operation × Fault} (h : firstFailing faults (init quote share run) = some p) :
    exists w', Script.attempt faults (init quote share run) w =
        (Except.error (Stop.failed p.1), w') ∧
      (Clean run w' <-> LeavesBehind p = false) := by
  unfold init at h ⊢
  cases htransport : run.transport with
  | wispersConnect =>
      rw [htransport] at h
      exact wispersConnectInit_failed hdir hfresh h
  | iroh =>
      rw [htransport] at h
      exact irohInit_failed hdir hfresh h

/-- Without failures a share can be initialised wherever there is no directory. -/
theorem init_noFaults (quote : String -> String) (share : String) (hdir : w.dir = none)
    (hcomplete : run.Complete) :
    exists files groups, Script.attempt noFaults (init quote share run) w =
        (Except.ok (), { dir := some files, groups }) ∧
      files.config = some (renderTemplate quote run.displayName) := by
  rcases w with ⟨dir, groups⟩
  cases hdir
  unfold init
  cases htransport : run.transport with
  | iroh => exact ⟨_, _, rfl, rfl⟩
  | wispersConnect =>
      have hkey := hcomplete htransport
      unfold wispersConnectInit
      cases hapiKey : run.apiKey with
      | none =>
          rw [hapiKey] at hkey
          cases hkey
      | some apiKey => cases run.backend <;> exact ⟨_, _, rfl, rfl⟩

/-- A run without an API key does nothing on Wispers Connect. -/
theorem init_incomplete (h : ¬ run.Complete) : Script.attempt faults (init quote share run) w =
    (Except.error (Stop.refused InitError.apiKeyRequired), w) := by
  unfold InitRun.Complete at h
  push Not at h
  have hkey : run.apiKey = none := by simpa using h.right
  rw [init, h.left]
  show Script.attempt faults (wispersConnectInit share _ run) w = _
  rw [wispersConnectInit, hkey]
  rfl

theorem exec_setUp_taken {script : InitScript} (job : Job Surroundings)
    (h : job.world.dir.isSome = true) :
    Script.exec faults (create share configText transport ++ script) job =
      (Except.error (Stop.refused (InitError.alreadyExists share)), job) := by
  rw [Script.exec_append, exec_create_taken h]

/-- A directory that is there already stays, and the run fails. -/
theorem init_taken (quote : String -> String) (faults : Operation -> Option Fault)
    (share : String) (run : InitRun) (h : w.dir.isSome = true) :
    exists e w', Script.attempt faults (init quote share run) w = (Except.error e, w') ∧
      w'.dir = w.dir := by
  unfold init
  cases run.transport with
  | iroh =>
      exact ⟨_, w, Script.attempt_error (Job.start w) (exec_setUp_taken (Job.start w) h), rfl⟩
  | wispersConnect =>
      show exists e w', Script.attempt faults (wispersConnectInit share _ run) w = _ ∧ _
      unfold wispersConnectInit
      cases run.apiKey with
      | none => exact ⟨_, w, rfl, rfl⟩
      | some apiKey =>
          simp only [List.cons_append, List.nil_append, List.append_assoc]
          cases hadd : faults Operation.addConnectivityGroup with
          | some fault =>
              cases fault with
              | before =>
                  refine ⟨_, w, Script.attempt_error (Job.start w)
                    (e := Stop.failed Operation.addConnectivityGroup) ?_, rfl⟩
                  simp only [Script.exec, hadd]
              | after =>
                  refine ⟨_, addGroup run.groupId w, Script.attempt_error
                    ((Job.start w).apply (addGroup run.groupId))
                    (e := Stop.failed Operation.addConnectivityGroup) ?_, rfl⟩
                  simp only [Script.exec, hadd]
          | none =>
              refine ⟨_, (groupAdded run w).rolledBack, Script.attempt_error (groupAdded run w)
                (e := Stop.refused (InitError.alreadyExists share)) ?_, rfl⟩
              simp only [Script.exec, hadd]
              exact exec_setUp_taken (groupAdded run w) h

/-!
## Runs of `up`
-/

theorem not_hasConfig_of_dir (h : w.dir = none) : w.hasConfig = false := by
  rw [Surroundings.hasConfig, h]

theorem nothingInTheWay_iff : NothingInTheWay quote share run w <-> Clean run w := by
  constructor
  · intro h
    exact ⟨h.dir, h.group⟩
  · intro h
    refine ⟨h.left, h.right, ?_⟩
    intro hvalid again hcomplete
    rcases init_noFaults quote share h.left hcomplete with
      ⟨files, groups, hattempt, -⟩
    unfold up
    rw [if_pos hvalid]
    simp only [noFaults, not_hasConfig_of_dir h.left]
    exact congrArg Prod.fst hattempt

/-- The first operation of `up` that fails. -/
def firstFailure (quote : String -> String) (faults : Operation -> Option Fault) (share : String)
    (run : InitRun) : Option (Operation × Fault) :=
  firstFailing faults (touch Operation.sharesDir :: init quote share run)

/-- A run either stops before it touches anything, or attempts to set the share up. -/
theorem up_cases (quote : String -> String) (faults : Operation -> Option Fault) (share : String)
    (run : InitRun) (hnew : w.hasConfig = false) :
    (exists e, up quote faults share run w = (Except.error e, w) ∧
      (isValidId share = true -> exists fault,
        firstFailure quote faults share run = some (Operation.sharesDir, fault))) ∨
    (isValidId share = true ∧
      up quote faults share run w = Script.attempt faults (init quote share run) w ∧
      firstFailure quote faults share run = firstFailing faults (init quote share run)) := by
  unfold up
  cases hvalid : isValidId share with
  | false => exact Or.inl ⟨_, if_neg (by simp), fun h => by cases h⟩
  | true =>
      have hfirst : firstFailure quote faults share run =
          match faults Operation.sharesDir with
          | some fault => some (Operation.sharesDir, fault)
          | none => firstFailing faults (init quote share run) :=
        rfl
      rw [hfirst, if_pos rfl]
      cases faults Operation.sharesDir with
      | some fault => exact Or.inl ⟨_, rfl, fun _ => ⟨fault, rfl⟩⟩
      | none =>
          refine Or.inr ⟨rfl, ?_, rfl⟩
          simp only [hnew]
          rfl

/-- What a run leaves once it has come to setting the share up. -/
theorem clean_after_attempt_iff (hfresh : run.groupId ∉ w.groups) :
    ((exists e, (Script.attempt faults (init quote share run) w).1 = Except.error e) ->
        Clean run (Script.attempt faults (init quote share run) w).2) <->
      w.dir = none ∧ forall p, firstFailing faults (init quote share run) = some p ->
        LeavesBehind p = false := by
  cases hdir : w.dir with
  | some files =>
      have htaken : w.dir.isSome = true := by
        rw [hdir]
        rfl
      rcases init_taken quote faults share run htaken with ⟨e, w', hattempt, hsame⟩
      rw [hattempt]
      constructor
      · intro h
        have hnone := (h ⟨e, rfl⟩).left
        rw [hsame, hdir] at hnone
        cases hnone
      · intro h
        cases h.left
  | none =>
      cases hfailing : firstFailing faults (init quote share run) with
      | some p =>
          rcases init_failed hdir hfresh hfailing with ⟨w', hattempt, hclean⟩
          rw [hattempt]
          constructor
          · intro h
            refine ⟨rfl, ?_⟩
            intro q hq
            cases hq
            exact hclean.mp (h ⟨_, rfl⟩)
          · intro h _
            exact hclean.mpr (h.right p rfl)
      | none =>
          refine ⟨fun _ => ⟨rfl, fun q hq => by cases hq⟩, ?_⟩
          intro _ herror
          rcases herror with ⟨e, he⟩
          by_cases hcomplete : run.Complete
          · rcases init_noFaults quote share hdir hcomplete with ⟨files, groups, hattempt, -⟩
            rw [Script.attempt_of_firstFailing_none hfailing] at he
            have hok := congrArg Prod.fst hattempt
            have hcontra : (Except.ok () : Except (Stop Operation InitError) Unit) =
                Except.error e := hok.symm.trans he
            cases hcontra
          · rw [init_incomplete hcomplete]
            exact ⟨hdir, hfresh⟩

/-- A failed run for a share that was not initialised leaves nothing in the way if, and only if,
there was no directory before and the failure is not one of those that leave something behind. -/
theorem nothingInTheWay_after_failure_iff (quote : String -> String)
    (faults : Operation -> Option Fault) (share : String) (run : InitRun) (w : Surroundings)
    (hnew : w.hasConfig = false) (hfresh : run.groupId ∉ w.groups) :
    ((exists e, (up quote faults share run w).1 = Except.error e) ->
        NothingInTheWay quote share run (up quote faults share run w).2) <->
      w.dir = none ∧
        (isValidId share = true ->
          forall p, firstFailure quote faults share run = some p -> LeavesBehind p = false) := by
  rw [nothingInTheWay_iff]
  rcases up_cases quote faults share run hnew with ⟨e, hup, hshares⟩ | ⟨hvalid, hup, hfirst⟩
  · rw [hup]
    constructor
    · intro h
      refine ⟨(h ⟨e, rfl⟩).left, ?_⟩
      intro hvalid p hp
      rcases hshares hvalid with ⟨fault, hfault⟩
      rw [hfault] at hp
      cases hp
      cases fault <;> rfl
    · intro h _
      exact ⟨h.left, hfresh⟩
  · rw [hup, hfirst, clean_after_attempt_iff hfresh, hvalid]
    simp

/-!
## The config of an initialised share
-/

theorem up_ok {w' : Surroundings} (h : up quote faults share run w = (Except.ok (), w')) :
    exists files, w'.dir = some files ∧
      files.config = some (renderTemplate quote run.displayName) := by
  have hnew : w.hasConfig = false := by
    unfold up at h
    split at h
    · split at h
      · cases h
      · split at h
        · cases h
        · rename_i hnot
          simpa using hnot
    · cases h
  rcases up_cases quote faults share run hnew with
    ⟨e, hup, -⟩ | ⟨-, hup, -⟩
  · rw [hup] at h
    cases h
  rw [hup] at h
  have hdir : w.dir = none := by
    by_contra hdir
    rcases init_taken quote faults share run (Option.isSome_iff_ne_none.mpr hdir) with
      ⟨e, w'', hattempt, -⟩
    rw [hattempt] at h
    cases h
  have hcomplete : run.Complete := by
    by_contra hincomplete
    rw [init_incomplete hincomplete] at h
    cases h
  rcases init_noFaults quote share hdir hcomplete with
    ⟨files, groups, hattempt, hconfig⟩
  have hsame : (Except.ok (), { dir := some files, groups }) = (Except.ok (), w') :=
    hattempt.symm.trans (Script.attempt_noFaults h)
  cases hsame
  exact ⟨files, rfl, hconfig⟩

/-- The config written by a run that succeeds is read as a share with the run's name and nothing
else if, and only if, the name is not blank. -/
theorem initialised_config_loads_iff {crates : ConfigCrates}
    (htoml : ReadsPrinted crates.toml quote) (urls : UrlParser)
    (faults : Operation -> Option Fault) (share : String) (run : InitRun)
    (w w' : Surroundings) (h : up quote faults share run w = (Except.ok (), w')) :
    (exists files text, w'.dir = some files ∧ files.config = some text ∧
        ShareConfig.parse crates urls text = Except.ok (ShareConfig.named run.displayName)) <->
      trim run.displayName ≠ "" := by
  rcases up_ok h with ⟨files, hdir, hconfig⟩
  have hparse := parse_renderTemplate htoml urls run.displayName
  constructor
  · intro hloads hblank
    rcases hloads with ⟨files', text, hdir', hconfig', hok⟩
    cases hdir.symm.trans hdir'
    have htext := Option.some.inj (hconfig'.symm.trans hconfig)
    rw [htext, hparse, if_pos hblank] at hok
    cases hok
  · intro hname
    exact ⟨files, renderTemplate quote run.displayName, hdir, hconfig,
      hparse.trans (if_neg hname)⟩

end

/-!
## Two runs
-/

/-- Nothing there yet. -/
def untouched : Surroundings where
  dir := none
  groups := []

def irohRun (name : String) : InitRun where
  displayName := name
  transport := TransportKind.iroh
  apiKey := none
  backend := none
  groupId := "cg-1"
  irohSecret := "secret"
  rootKey := "root key"
  registration := "registration"

def wispersConnectRun (name : String) : InitRun :=
  { irohRun name with transport := TransportKind.wispersConnect, apiKey := some "wc_key.secret" }

/-- One operation fails. -/
def failing (op : Operation) (fault : Fault) : Operation -> Option Fault :=
  fun other => if other = op then some fault else none

/-- A registration that fails is rolled back. -/
theorem failed_registration_rolled_back :
    NothingInTheWay plainQuote "photos" (wispersConnectRun "Photos")
      (up plainQuote (failing Operation.register Fault.before) "photos"
        (wispersConnectRun "Photos") untouched).2 := by
  refine (nothingInTheWay_after_failure_iff plainQuote (failing Operation.register Fault.before)
    "photos" (wispersConnectRun "Photos") untouched rfl (by decide)).mpr ⟨rfl, ?_⟩ ⟨_, rfl⟩
  intro _ p hp
  have hfirst : firstFailure plainQuote (failing Operation.register Fault.before) "photos"
      (wispersConnectRun "Photos") = some (Operation.register, Fault.before) := rfl
  cases hfirst.symm.trans hp
  rfl

/-- The migration of a new database fails, and the share cannot be initialised from then on. -/
theorem failed_migration_in_the_way :
    (up plainQuote (failing Operation.migrate Fault.before) "photos" (irohRun "Photos")
        untouched).1 = Except.error (Stop.failed Operation.migrate) ∧
      (up plainQuote noFaults "photos" (irohRun "Photos")
        (up plainQuote (failing Operation.migrate Fault.before) "photos" (irohRun "Photos")
          untouched).2).1 = Except.error (Stop.refused (InitError.alreadyInitialised "photos")) ∧
      ¬ NothingInTheWay plainQuote "photos" (irohRun "Photos")
        (up plainQuote (failing Operation.migrate Fault.before) "photos" (irohRun "Photos")
          untouched).2 := by
  refine ⟨rfl, rfl, ?_⟩
  intro h
  cases h.dir

/-- The crates that read a plain file. -/
def plainCrates : ConfigCrates where
  toml := plainToml
  pemSections := fun _ => Except.ok []
  addRoot := fun _ => Except.ok ()
  base64 := fun _ => ""

theorem readsPrinted_plainCrates : ReadsPrinted plainCrates.toml plainQuote :=
  readsPrinted_plain

theorem photos_loads :
    exists files text, (up plainQuote noFaults "photos" (irohRun "Photos") untouched).2.dir =
        some files ∧ files.config = some text ∧
      ShareConfig.parse plainCrates UrlParser.development text =
        Except.ok (ShareConfig.named "Photos") :=
  (initialised_config_loads_iff readsPrinted_plainCrates UrlParser.development
    noFaults "photos" (irohRun "Photos") untouched _ rfl).mpr (by decide)

/-- A share with a blank name is initialised, and cannot be served. -/
theorem blank_name_initialised :
    (up plainQuote noFaults "photos" (irohRun " ") untouched).1 = Except.ok () ∧
      forall files text, (up plainQuote noFaults "photos" (irohRun " ") untouched).2.dir =
          some files -> files.config = some text ->
        ShareConfig.parse plainCrates UrlParser.development text =
          Except.error ConfigError.emptyName := by
  refine ⟨rfl, ?_⟩
  intro files text hdir hconfig
  have htext : renderTemplate plainQuote " " = text := by
    cases hdir
    exact Option.some.inj hconfig
  rw [← htext, parse_renderTemplate readsPrinted_plainCrates]
  exact if_pos (by decide)

end Initialization
end Host
end WispersAccess
