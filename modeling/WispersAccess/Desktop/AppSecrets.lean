import WispersAccess.Foundation.UncertainWrites
import WispersAccess.Guest.SecretFiles
import WispersAccess.Guest.Storage

/-!
# Where the desktop app keeps its secrets

The app's secrets are in the platform's credential store, or in files where there is
none.  The first run picks and writes its pick to a file, and later runs stick with
it: a credential store that comes or goes between runs would hide every secret
saved before.  Runs may stop anywhere, also in the middle of writing the pick.
-/

namespace WispersAccess
namespace Desktop

open Foundation
open Guest (SaveStop ScopeDir SecretFiles SecretKey ShareId isStaging isUuidText)
open Wire (utf8)

/-!
## Secrets
-/

inductive SecretScope where
  /-- Key material of one share. -/
  | share (id : ShareId)
  /-- The client's own secrets, like the browser pairing secret. -/
  | client
  deriving DecidableEq, Repr

def SecretScope.dirName : SecretScope -> String
  | share id => id.text
  | client => "client"

/-- A secret that no save of another one stages. -/
structure Secret where
  scope : SecretScope
  key : SecretKey
  plain : isStaging key.text = false
  deriving DecidableEq, Repr

/-- The name of the secret's credential. -/
def Secret.account (secret : Secret) : String :=
  secret.scope.dirName ++ "/" ++ secret.key.text

theorem slash_notMem_uuid {s : String} (h : isUuidText s = true) : '/' ∉ s.toList := by
  intro hmem
  have hall := (Bool.and_eq_true_iff.mp h).right
  have hslash := List.all_eq_true.mp hall '/' hmem
  exact absurd hslash (by decide)

theorem slash_notMem_dirName (scope : SecretScope) : '/' ∉ scope.dirName.toList := by
  cases scope with
  | share id => exact slash_notMem_uuid id.minted
  | client => decide

/-- Each scope has a directory of its own. -/
theorem dirName_injective {scope scope' : SecretScope} (h : scope.dirName = scope'.dirName) :
    scope = scope' := by
  have hclient : forall id : ShareId, id.text ≠ "client" := by
    intro id heq
    have hminted := id.minted
    rw [heq] at hminted
    exact absurd hminted (by decide)
  cases scope with
  | share id =>
      cases scope' with
      | share id' =>
          cases id
          cases id'
          cases h
          rfl
      | client => exact absurd h (hclient id)
  | client =>
      cases scope' with
      | share id' => exact absurd h.symm (hclient id')
      | client => rfl

/-- Each secret has a credential of its own. -/
theorem account_injective {secret secret' : Secret} (h : secret.account = secret'.account) :
    secret = secret' := by
  have hsplit : forall s : Secret, splitOnce '/' s.account.toList =
      some (s.scope.dirName.toList, s.key.text.toList) := by
    intro s
    have hname : s.account.toList = s.scope.dirName.toList ++ '/' :: s.key.text.toList := by
      simp [Secret.account]
    rw [hname]
    exact splitOnce_append (slash_notMem_dirName s.scope) _
  have hsame := hsplit secret
  rw [h, hsplit secret'] at hsame
  rcases Prod.mk.inj (Option.some.inj hsame) with ⟨hdir, hkey⟩
  have hscope := dirName_injective (String.toList_inj.mp hdir)
  have htext := String.toList_inj.mp hkey
  rcases secret with ⟨scope, ⟨key, _, _, _⟩, _⟩
  rcases secret' with ⟨scope', ⟨key', _, _, _⟩, _⟩
  cases hscope
  cases htext
  rfl

/-!
## The app's runs
-/

inductive StoreKind where
  | keyring
  | files
  deriving DecidableEq, Repr

/-- How a pick is written down. -/
def StoreKind.choice : StoreKind -> String
  | keyring => "keyring"
  | files => "files"

/-- The pick, the credential store, and the directories of secrets in files. -/
structure AppSecrets where
  choice : Option String
  keyring : String -> Option (List UInt8)
  scopes : String -> ScopeDir
  /-- The app runs, and has opened this store. -/
  running : Option StoreKind

def AppSecrets.installed : AppSecrets where
  choice := none
  keyring := fun _ => none
  scopes := fun _ => none
  running := none

/-- How far the writing of a pick gets. -/
inductive ChoiceWrite where
  | done
  | notBegun
  /-- The file is there, with the pick's first `n` letters. -/
  | cut (n : Nat)
  deriving DecidableEq, Repr

inductive AppAction where
  /-- `PlatformSecretStore::open`, where the credential store opens or does not. -/
  | start (opens : Bool) (write : ChoiceWrite)
  /-- The pick cannot be read. -/
  | startFails
  /-- A save gets so far, and may return once it has happened. -/
  | save (secret : Secret) (value : List UInt8) (stop : SaveStop) (returns : Bool)
  | delete (secret : Secret) (happens returns : Bool)
  /-- The app ends or stops. -/
  | quit
  deriving DecidableEq, Repr

namespace AppSecrets

def load (s : AppSecrets) (kind : StoreKind) (secret : Secret) : Option (List UInt8) :=
  match kind with
  | StoreKind.keyring => s.keyring secret.account
  | StoreKind.files => (s.scopes secret.scope.dirName).load secret.key

def start (s : AppSecrets) (opens : Bool) (write : ChoiceWrite) : AppSecrets :=
  match s.choice with
  | some choice =>
      if trim choice = "files" then { s with running := some StoreKind.files }
      else if trim choice = "keyring" then
        -- a keyring that was picked but is gone fails the start
        if opens then { s with running := some StoreKind.keyring } else s
      else s
  | none =>
      let kind := if opens then StoreKind.keyring else StoreKind.files
      match write with
      | ChoiceWrite.done => { s with choice := some kind.choice, running := some kind }
      | ChoiceWrite.notBegun => s
      | ChoiceWrite.cut n => { s with choice := some (String.ofList (kind.choice.toList.take n)) }

def setKeyring (s : AppSecrets) (secret : Secret) (value : Option (List UInt8)) : AppSecrets :=
  { s with keyring := fun account => if account = secret.account then value else s.keyring account }

def setScope (s : AppSecrets) (secret : Secret) (f : ScopeDir -> ScopeDir) : AppSecrets :=
  { s with scopes := fun name =>
      if name = secret.scope.dirName then f (s.scopes name) else s.scopes name }

def save (s : AppSecrets) (kind : StoreKind) (secret : Secret) (value : List UInt8)
    (stop : SaveStop) : AppSecrets :=
  match kind with
  | StoreKind.keyring => if stop = SaveStop.renamed then s.setKeyring secret (some value) else s
  | StoreKind.files => s.setScope secret fun d => d.save secret.key value stop

def delete (s : AppSecrets) (kind : StoreKind) (secret : Secret) (happens : Bool) : AppSecrets :=
  if happens then
    match kind with
    | StoreKind.keyring => s.setKeyring secret none
    | StoreKind.files => s.setScope secret fun d => d.delete secret.key
  else s

def step (s : AppSecrets) : AppAction -> Option AppSecrets
  | AppAction.start opens write =>
      match s.running with
      | none => some (s.start opens write)
      | some _ => none
  | AppAction.startFails =>
      match s.running with
      | none => some s
      | some _ => none
  | AppAction.save secret value stop _ =>
      s.running.map fun kind => s.save kind secret value stop
  | AppAction.delete secret happens _ =>
      s.running.map fun kind => s.delete kind secret happens
  | AppAction.quit => s.running.map fun _ => { s with running := none }

end AppSecrets

/-- What a call writes; it has returned only if it has happened. -/
def AppAction.write : AppAction -> Option (Write Secret (Option (List UInt8)))
  | save secret value stop returns => some ⟨secret, some value, stop = SaveStop.renamed && returns⟩
  | delete secret happens returns => some ⟨secret, none, happens && returns⟩
  | _ => none

/-- The writes of a run, whichever store they went to. -/
def writes (acts : List AppAction) : List (Write Secret (Option (List UInt8))) :=
  acts.filterMap AppAction.write

/-!
## The stores as maps
-/

section
variable {d : ScopeDir} {key other : SecretKey} {value : List UInt8} {stop : SaveStop}

/-- A key's file after a save of the key. -/
theorem load_save_self (hkey : isStaging key.text = false) :
    (d.save key value stop).load key =
      if stop = SaveStop.renamed then some value else d.load key := by
  have hne : key.text ≠ key.staging := by
    intro heq
    rw [heq, Guest.isStaging_staging] at hkey
    cases hkey
  cases stop with
  | begun => rfl
  | dirCreated => exact Guest.read_createDirAll d key.text
  | staged n =>
      show (d.createDirAll.insert key.staging (value.take n)).lookup key.text = _
      rw [AList.lookup_insert_ne hne]
      exact Guest.read_createDirAll d key.text
  | renamed =>
      show (ScopeDir.rename (d.createDirAll.insert key.staging value) key.staging
        key.text).lookup key.text = _
      unfold ScopeDir.rename
      rw [AList.lookup_insert]
      exact AList.lookup_insert _

/-- A save leaves the files of other keys. -/
theorem load_save_of_ne (hother : isStaging other.text = false) (hne : other.text ≠ key.text) :
    (d.save key value stop).load other = d.load other := by
  have hstaging : other.text ≠ key.staging := by
    intro heq
    rw [heq, Guest.isStaging_staging] at hother
    cases hother
  have hinsert : forall bytes : List UInt8,
      (d.createDirAll.insert key.staging bytes).lookup other.text = d.load other := by
    intro bytes
    rw [AList.lookup_insert_ne hstaging]
    exact Guest.read_createDirAll d other.text
  cases stop with
  | begun => rfl
  | dirCreated => exact Guest.read_createDirAll d other.text
  | staged n => exact hinsert _
  | renamed =>
      show (ScopeDir.rename (d.createDirAll.insert key.staging value) key.staging
        key.text).lookup other.text = _
      unfold ScopeDir.rename
      rw [AList.lookup_insert]
      simp only
      rw [AList.lookup_insert_ne hne, AList.lookup_erase_ne hstaging]
      exact hinsert value

/-- A file after a delete; the directory may go with it. -/
theorem load_delete : (d.delete key).load other =
    if other.text = key.text then none else d.load other := by
  have hread : forall files : SecretFiles, (ScopeDir.removeDir (some files)).load other =
      files.lookup other.text := by
    intro files
    unfold ScopeDir.removeDir
    simp only [Option.bind_some]
    split
    · rename_i hempty
      symm
      apply AList.lookup_eq_none.mpr
      intro hmem
      rw [AList.mem_keys, hempty] at hmem
      cases hmem
    · rfl
  cases d with
  | none => exact (ite_self _).symm
  | some files =>
      show (ScopeDir.removeDir (some (files.erase key.text))).load other = _
      rw [hread]
      split
      · rename_i heq
        rw [heq]
        exact AList.lookup_erase _ _
      · rename_i hne
        exact AList.lookup_erase_ne hne

end

/-!
## What a step does
-/

theorem choice_injective {kind kind' : StoreKind} (h : kind.choice = kind'.choice) :
    kind = kind' := by
  cases kind with
  | keyring =>
      cases kind' with
      | keyring => rfl
      | files => exact absurd h (by decide)
  | files =>
      cases kind' with
      | keyring => exact absurd h (by decide)
      | files => rfl

/-- A pick that was cut off says nothing, or what it would have said. -/
theorem cut_choice {kind kind' : StoreKind} {n : Nat}
    (h : trim (String.ofList (kind.choice.toList.take n)) = kind'.choice) :
    String.ofList (kind.choice.toList.take n) = kind'.choice := by
  have hall : forall m, m < 8 -> trim (String.ofList (kind.choice.toList.take m)) = kind'.choice ->
      String.ofList (kind.choice.toList.take m) = kind'.choice := by
    cases kind with
    | keyring => cases kind' <;> decide
    | files => cases kind' <;> decide
  by_cases hn : n < 8
  · exact hall n hn h
  · have hlong : kind.choice.toList.length ≤ n := by
      cases kind with
      | keyring => exact Nat.le_trans (by decide) (Nat.not_lt.mp hn)
      | files => exact Nat.le_trans (by decide) (Nat.not_lt.mp hn)
    rw [List.take_of_length_le hlong, String.ofList_toList] at h ⊢
    have hplain : trim kind.choice = kind.choice := by
      cases kind with
      | keyring => decide
      | files => decide
    rw [← hplain]
    exact h

namespace AppSecrets

section
variable {s t : AppSecrets} {kind : StoreKind} {secret : Secret}

theorem load_setKeyring (value : Option (List UInt8)) (other : Secret) :
    (s.setKeyring secret value).load StoreKind.keyring other =
      if other = secret then value else s.load StoreKind.keyring other := by
  show (if other.account = secret.account then value else s.keyring other.account) = _
  by_cases h : other = secret
  · rw [if_pos h, if_pos (congrArg Secret.account h)]
  · rw [if_neg h, if_neg fun heq => h (account_injective heq)]
    rfl

theorem load_setScope (f : ScopeDir -> ScopeDir) (other : Secret) :
    (s.setScope secret f).load StoreKind.files other =
      if other.scope = secret.scope then (f (s.scopes other.scope.dirName)).load other.key
      else s.load StoreKind.files other := by
  show (if other.scope.dirName = secret.scope.dirName then f (s.scopes other.scope.dirName)
    else s.scopes other.scope.dirName).load other.key = _
  by_cases h : other.scope = secret.scope
  · rw [if_pos h, if_pos (congrArg SecretScope.dirName h)]
  · rw [if_neg h, if_neg fun heq => h (dirName_injective heq)]
    rfl

/-- In one scope, different secrets have different keys. -/
theorem key_ne {other : Secret} (hscope : other.scope = secret.scope) (hne : other ≠ secret) :
    other.key.text ≠ secret.key.text := by
  intro htext
  apply hne
  rcases other with ⟨scope, ⟨key, _, _, _⟩, _⟩
  rcases secret with ⟨scope', ⟨key', _, _, _⟩, _⟩
  cases hscope
  cases htext
  rfl

/-- A save is a write to the store that is open. -/
theorem done_save (value : List UInt8) (stop : SaveStop) (returns : Bool) :
    Write.Done ⟨secret, some value, stop = SaveStop.renamed && returns⟩ (s.load kind)
      ((s.save kind secret value stop).load kind) := by
  have hreturned : stop ≠ SaveStop.renamed ->
      (decide (stop = SaveStop.renamed) && returns) = false := by
    intro hstop
    simp [hstop]
  cases kind with
  | keyring =>
      unfold save
      simp only
      by_cases hstop : stop = SaveStop.renamed
      · rw [if_pos hstop]
        refine ⟨?_, Or.inl ?_⟩
        · intro other hne
          rw [load_setKeyring, if_neg hne]
        · rw [load_setKeyring, if_pos rfl]
      · rw [if_neg hstop]
        exact ⟨fun other hne => rfl, Or.inr ⟨hreturned hstop, rfl⟩⟩
  | files =>
      unfold save
      refine ⟨?_, ?_⟩
      · intro other hne
        rw [load_setScope]
        split
        · rename_i hscope
          rw [load_save_of_ne other.plain (key_ne hscope hne)]
          rfl
        · rfl
      · rw [load_setScope, if_pos rfl, load_save_self secret.plain]
        by_cases hstop : stop = SaveStop.renamed
        · rw [if_pos hstop]
          exact Or.inl rfl
        · rw [if_neg hstop]
          exact Or.inr ⟨hreturned hstop, rfl⟩

theorem done_delete (happens returns : Bool) :
    Write.Done ⟨secret, none, happens && returns⟩ (s.load kind)
      ((s.delete kind secret happens).load kind) := by
  cases happens with
  | false => exact ⟨fun other hne => rfl, Or.inr ⟨rfl, rfl⟩⟩
  | true =>
      cases kind with
      | keyring =>
          refine ⟨?_, Or.inl (load_setKeyring none secret |>.trans (if_pos rfl))⟩
          intro other hne
          exact (load_setKeyring none other).trans (if_neg hne)
      | files =>
          refine ⟨?_, Or.inl ?_⟩
          · intro other hne
            show (s.setScope secret fun d => d.delete secret.key).load StoreKind.files other = _
            rw [load_setScope]
            split
            · rename_i hscope
              rw [load_delete, if_neg (key_ne hscope hne)]
              rfl
            · rfl
          · show (s.setScope secret fun d => d.delete secret.key).load StoreKind.files secret = _
            rw [load_setScope, if_pos rfl, load_delete, if_pos rfl]

/-- Saves and deletes leave the pick and what runs. -/
theorem save_same (value : List UInt8) (stop : SaveStop) :
    (s.save kind secret value stop).choice = s.choice ∧
      (s.save kind secret value stop).running = s.running := by
  unfold save
  cases kind with
  | keyring =>
      simp only
      split
      · exact ⟨rfl, rfl⟩
      · exact ⟨rfl, rfl⟩
  | files => exact ⟨rfl, rfl⟩

theorem delete_same (happens : Bool) : (s.delete kind secret happens).choice = s.choice ∧
    (s.delete kind secret happens).running = s.running := by
  cases happens with
  | false => exact ⟨rfl, rfl⟩
  | true =>
      cases kind with
      | keyring => exact ⟨rfl, rfl⟩
      | files => exact ⟨rfl, rfl⟩

end

/-- What a start leads to: nothing, a run with the pick there is, a new pick with a run, or a new
pick that is cut off. -/
inductive StartEffect (s : AppSecrets) : ChoiceWrite -> AppSecrets -> Prop where
  | failed {write : ChoiceWrite} : StartEffect s write s
  | stuck {write : ChoiceWrite} (kind : StoreKind) (hchoice : exists choice,
      s.choice = some choice ∧ trim choice = kind.choice) :
      StartEffect s write { s with running := some kind }
  | picked (kind : StoreKind) (hchoice : s.choice = none) :
      StartEffect s ChoiceWrite.done { s with choice := some kind.choice, running := some kind }
  | cut (kind : StoreKind) (n : Nat) (hchoice : s.choice = none) :
      StartEffect s (ChoiceWrite.cut n)
        { s with choice := some (String.ofList (kind.choice.toList.take n)) }

theorem start_effect (s : AppSecrets) (opens : Bool) (write : ChoiceWrite) :
    StartEffect s write (s.start opens write) := by
  unfold start
  split
  · rename_i choice hchoice
    split
    · rename_i hfiles
      exact StartEffect.stuck StoreKind.files ⟨choice, hchoice, hfiles⟩
    · split
      · rename_i hkeyring
        split
        · exact StartEffect.stuck StoreKind.keyring ⟨choice, hchoice, hkeyring⟩
        · exact StartEffect.failed
      · exact StartEffect.failed
  · rename_i hchoice
    simp only
    split
    · exact StartEffect.picked _ hchoice
    · exact StartEffect.failed
    · exact StartEffect.cut _ _ hchoice

end AppSecrets

/-!
## Runs
-/

/-- What holds after the calls so far. -/
structure AppSecrets.Fits (past : List AppAction) (s : AppSecrets) : Prop where
  pick : forall choice kind, s.choice = some choice -> trim choice = StoreKind.choice kind ->
    choice = kind.choice
  running : forall kind, s.running = some kind -> s.choice = some kind.choice
  holds : forall kind, s.choice = some (StoreKind.choice kind) -> forall secret,
    MayHold none (writes past) secret (s.load kind secret)
  /-- Nothing is saved before there is a pick. -/
  fresh : (forall kind, s.choice ≠ some (StoreKind.choice kind)) ->
    writes past = [] ∧ forall kind secret, s.load kind secret = none
  whole : (forall opens n, AppAction.start opens (ChoiceWrite.cut n) ∉ past) ->
    s.choice = none ∨ exists kind, s.choice = some (StoreKind.choice kind)

namespace AppSecrets

section
variable {past : List AppAction} {s t : AppSecrets} {a : AppAction}

theorem fits_installed : Fits [] installed where
  pick := nofun
  running := nofun
  holds := nofun
  fresh := by
    intro _
    refine ⟨rfl, ?_⟩
    intro kind secret
    cases kind with
    | keyring => rfl
    | files => rfl
  whole := fun _ => Or.inl rfl

theorem writes_concat (past : List AppAction) (a : AppAction) :
    writes (past ++ [a]) = writes past ++ a.write.toList := by
  unfold writes
  rw [List.filterMap_append]
  cases h : a.write with
  | none => rw [List.filterMap_cons_none h, List.filterMap_nil, Option.toList_none]
  | some w => rw [List.filterMap_cons_some h, List.filterMap_nil, Option.toList_some]

/-- A start or an end leaves what the stores hold. -/
theorem Fits.of_loads (h : s.Fits past) (hwrite : a.write = none) {choice : Option String}
    {running : Option StoreKind}
    (hpick : forall text kind, choice = some text -> trim text = StoreKind.choice kind ->
      text = kind.choice)
    (hrunning : forall kind, running = some kind -> choice = some (StoreKind.choice kind))
    (hkept : forall kind, s.choice = some (StoreKind.choice kind) -> choice = s.choice)
    (hwhole : (forall opens n, AppAction.start opens (ChoiceWrite.cut n) ∉ past ++ [a]) ->
      choice = none ∨ exists kind, choice = some (StoreKind.choice kind)) :
    Fits (past ++ [a]) { s with choice := choice, running := running } := by
  have hwrites : writes (past ++ [a]) = writes past := by
    rw [writes_concat, hwrite, Option.toList_none, List.append_nil]
  refine ⟨hpick, hrunning, ?_, ?_, hwhole⟩
  · intro kind hkind secret
    rw [hwrites]
    by_cases hpicked : exists kind', s.choice = some (StoreKind.choice kind')
    · rcases hpicked with ⟨kind', hkind'⟩
      have hsame : choice = s.choice := hkept kind' hkind'
      exact h.holds kind (hsame ▸ hkind) secret
    · rcases h.fresh fun kind' hkind' => hpicked ⟨kind', hkind'⟩ with ⟨hnil, hload⟩
      have hnone : s.load kind secret = none := hload kind secret
      rw [hnil]
      show MayHold none [] secret (s.load kind secret)
      rw [hnone]
      exact mayHold_nil
  · intro hnone
    rw [hwrites]
    refine h.fresh ?_
    intro kind hkind
    exact hnone kind ((hkept kind hkind).trans hkind)

/-- A write to the store that is open. -/
theorem Fits.of_write (h : s.Fits past) {kind : StoreKind} (hrunning : s.running = some kind)
    {w : Write Secret (Option (List UInt8))} (hwrite : a.write = some w)
    (hsame : t.choice = s.choice ∧ t.running = s.running)
    (hdone : w.Done (s.load kind) (t.load kind)) : Fits (past ++ [a]) t := by
  have hchoice := h.running kind hrunning
  have hmem : forall opens n, AppAction.start opens (ChoiceWrite.cut n) ∉ past ++ [a] ->
      AppAction.start opens (ChoiceWrite.cut n) ∉ past :=
    fun opens n hnot hpast => hnot (List.mem_append_left _ hpast)
  refine ⟨?_, ?_, ?_, ?_, ?_⟩
  · rw [hsame.left]
    exact h.pick
  · rw [hsame.left, hsame.right]
    exact h.running
  · intro kind' hkind'
    rw [hsame.left, hchoice] at hkind'
    cases choice_injective (Option.some.inj hkind')
    rw [writes_concat, hwrite, Option.toList_some]
    exact hdone.mayHold (h.holds kind hchoice)
  · intro hnone
    rw [hsame.left] at hnone
    exact absurd hchoice (hnone kind)
  · intro hcut
    rw [hsame.left]
    exact h.whole fun opens n => hmem opens n (hcut opens n)

theorem fits_step (h : s.Fits past) (hstep : s.step a = some t) : t.Fits (past ++ [a]) := by
  have hpast : forall a, (forall opens n,
      AppAction.start opens (ChoiceWrite.cut n) ∉ past ++ [a]) ->
        s.choice = none ∨ exists kind, s.choice = some (StoreKind.choice kind) :=
    fun a hcut => h.whole fun opens n hmem => hcut opens n (List.mem_append_left _ hmem)
  cases a with
  | start opens write =>
      simp only [step] at hstep
      split at hstep
      · rename_i hidle
        cases hstep
        have heffect := start_effect s opens write
        generalize s.start opens write = t at heffect
        cases heffect with
        | failed =>
            exact h.of_loads rfl h.pick h.running (fun _ _ => rfl) (hpast _)
        | stuck kind hchoice =>
            rcases hchoice with ⟨choice, hchoice, hkind⟩
            refine h.of_loads rfl h.pick ?_ (fun _ _ => rfl) (hpast _)
            intro kind' hrunning
            cases hrunning
            rw [hchoice, h.pick choice kind hchoice hkind]
        | picked kind hchoice =>
            refine h.of_loads rfl ?_ ?_ ?_ fun _ => Or.inr ⟨kind, rfl⟩
            · intro text kind' htext hkind'
              cases htext
              cases kind with
              | keyring => cases kind' <;> first | rfl | exact absurd hkind' (by decide)
              | files => cases kind' <;> first | rfl | exact absurd hkind' (by decide)
            · intro kind' hrunning
              cases hrunning
              rfl
            · intro kind' hkind'
              rw [hchoice] at hkind'
              cases hkind'
        | cut kind n hchoice =>
            refine h.of_loads rfl ?_ ?_ ?_ ?_
            · intro text kind' htext hkind'
              cases htext
              exact cut_choice hkind'
            · intro kind' hrunning
              rw [hidle] at hrunning
              cases hrunning
            · intro kind' hkind'
              rw [hchoice] at hkind'
              cases hkind'
            · intro hcut
              exact absurd (List.mem_append_right _ List.mem_cons_self) (hcut opens n)
      · cases hstep
  | startFails =>
      simp only [step] at hstep
      split at hstep
      · cases hstep
        exact h.of_loads rfl h.pick h.running (fun _ _ => rfl) (hpast _)
      · cases hstep
  | save secret value stop returns =>
      rcases Option.map_eq_some_iff.mp hstep with ⟨kind, hrunning, rfl⟩
      exact h.of_write hrunning rfl (save_same value stop) (done_save value stop returns)
  | delete secret happens returns =>
      rcases Option.map_eq_some_iff.mp hstep with ⟨kind, hrunning, rfl⟩
      exact h.of_write hrunning rfl (delete_same happens) (done_delete happens returns)
  | quit =>
      rcases Option.map_eq_some_iff.mp hstep with ⟨kind, hrunning, rfl⟩
      exact h.of_loads rfl h.pick nofun (fun _ _ => rfl) (hpast _)

/-- A pick is for good. -/
theorem pick_step {kind : StoreKind} (h : s.choice = some kind.choice)
    (hstep : s.step a = some t) : t.choice = some kind.choice := by
  cases a with
  | start opens write =>
      simp only [step] at hstep
      split at hstep
      · cases hstep
        have heffect := start_effect s opens write
        generalize s.start opens write = t at heffect
        cases heffect with
        | failed | stuck => exact h
        | picked kind' hnone | cut kind' n hnone =>
            rw [hnone] at h
            cases h
      · cases hstep
  | startFails =>
      simp only [step] at hstep
      split at hstep
      · cases hstep
        exact h
      · cases hstep
  | save secret value stop returns =>
      rcases Option.map_eq_some_iff.mp hstep with ⟨kind', -, rfl⟩
      exact (save_same value stop).left.trans h
  | delete secret happens returns =>
      rcases Option.map_eq_some_iff.mp hstep with ⟨kind', -, rfl⟩
      exact (delete_same happens).left.trans h
  | quit =>
      rcases Option.map_eq_some_iff.mp hstep with ⟨kind', -, rfl⟩
      exact h

theorem run_fits {acts : List AppAction} (hrun : Run step installed acts s) : s.Fits acts :=
  Run.invariant_of_past (C := fun _ _ => True) (I := Fits) fits_installed
    (fun _ _ _ _ _ h _ hstep => fits_step h hstep) hrun (meets_of_forall (fun _ _ _ => trivial) _)

/-- After a save that returned, and no call for the secret since, the secret is there. -/
theorem Fits.load_saved {front back : List AppAction} {secret : Secret} {value : List UInt8}
    (h : s.Fits (front ++ AppAction.save secret value SaveStop.renamed true :: back))
    {kind : StoreKind} (hrunning : s.running = some kind)
    (hback : forall b w, b ∈ back -> b.write = some w -> w.key ≠ secret) :
    s.load kind secret = some value := by
  have hholds := h.holds kind (h.running kind hrunning) secret
  have hwrites : writes (front ++ AppAction.save secret value SaveStop.renamed true :: back) =
      writes front ++ ⟨secret, some value, true⟩ :: writes back :=
    List.filterMap_append.trans (congrArg _ (List.filterMap_cons_some rfl))
  rw [hwrites] at hholds
  refine hholds.eq_of_returned rfl ?_
  intro w hw
  rcases List.mem_filterMap.mp hw with ⟨b, hb, hbw⟩
  exact hback b w hb hbw

/-- Whatever comes and goes between the runs of the app, all of them use one store, so that no run
loses sight of a secret: it is what the last call for it that returned made it, or what a call that
failed since did.  Unless a pick was cut off, a run only fails to start for want of the keyring
that was picked. -/
theorem secrets_stay_in_sight {acts : List AppAction} (hrun : Run step installed acts s) :
    (exists kind, forall u, Passes step installed acts u -> forall kind', u.running = some kind' ->
      kind' = kind) ∧
    (forall kind, s.running = some kind -> forall secret,
      MayHold none (writes acts) secret (s.load kind secret)) ∧
    (forall kind front back secret value, s.running = some kind ->
      acts = front ++ AppAction.save secret value SaveStop.renamed true :: back ->
      (forall b w, b ∈ back -> b.write = some w -> w.key ≠ secret) ->
        s.load kind secret = some value) ∧
    ((forall opens n, AppAction.start opens (ChoiceWrite.cut n) ∉ acts) -> forall opens,
      (s.start opens ChoiceWrite.done).running = none ->
        s.choice = some StoreKind.keyring.choice ∧ opens = false) := by
  have hfits := run_fits hrun
  have hpicked : forall u, Passes step installed acts u -> forall kind, u.running = some kind ->
      s.choice = some kind.choice := by
    intro u hu kind hkind
    rcases hu with ⟨front, back, rfl, hfront⟩
    rcases hrun.split with ⟨mid, hmid, hback⟩
    cases hmid.unique hfront
    exact Run.invariant (fun _ _ _ h hstep => pick_step h hstep) hback
      ((run_fits hfront).running kind hkind)
  refine ⟨?_, ?_, ?_, ?_⟩
  · by_cases hpick : exists kind, s.choice = some (StoreKind.choice kind)
    · rcases hpick with ⟨kind, hkind⟩
      refine ⟨kind, ?_⟩
      intro u hu kind' hkind'
      have hsame := hpicked u hu kind' hkind'
      rw [hkind] at hsame
      exact (choice_injective (Option.some.inj hsame)).symm
    · refine ⟨StoreKind.files, ?_⟩
      intro u hu kind' hkind'
      exact absurd ⟨kind', hpicked u hu kind' hkind'⟩ hpick
  · intro kind hrunning
    exact hfits.holds kind (hfits.running kind hrunning)
  · intro kind front back secret value hrunning hacts hback
    rw [hacts] at hfits
    exact hfits.load_saved hrunning hback
  · intro hcut opens hnone
    rcases hfits.whole hcut with hchoice | ⟨kind, hchoice⟩
    · simp [start, hchoice] at hnone
    · cases kind with
      | files =>
          have htrim : trim StoreKind.files.choice = "files" := by decide
          simp [start, hchoice, htrim] at hnone
      | keyring =>
          have htrim : trim StoreKind.keyring.choice = "keyring" := by decide
          refine ⟨hchoice, ?_⟩
          cases opens with
          | false => rfl
          | true => simp [start, hchoice, htrim] at hnone

end

/-- The secret the browser pairs with. -/
def pairingSecret : Secret where
  scope := SecretScope.client
  key := ⟨"browser_pairing_secret", by decide, by decide, by decide⟩
  plain := by decide

/-- The first run finds no credential store, a later one does. -/
def keyringComesLater : List AppAction :=
  [AppAction.start false ChoiceWrite.done,
    AppAction.save pairingSecret (utf8 "2f") SaveStop.renamed true, AppAction.quit,
    AppAction.start true ChoiceWrite.done]

theorem pairing_secret_in_sight : exists s, Run step installed keyringComesLater s ∧
    s.load StoreKind.files pairingSecret = some (utf8 "2f") := by
  have h : (exec step installed keyringComesLater).map (fun s => s.running) =
      some (some StoreKind.files) := by
    decide +kernel
  rcases Option.map_eq_some_iff.mp h with ⟨s, hs, hrunning⟩
  have hrun := run_iff_exec.mpr hs
  refine ⟨s, hrun, ?_⟩
  refine (secrets_stay_in_sight hrun).right.right.left StoreKind.files
    [AppAction.start false ChoiceWrite.done] [AppAction.quit, AppAction.start true ChoiceWrite.done]
    pairingSecret (utf8 "2f") hrunning rfl ?_
  intro b w hb hw
  cases b with
  | save | delete => simp at hb
  | _ => cases hw

end AppSecrets

end Desktop
end WispersAccess
