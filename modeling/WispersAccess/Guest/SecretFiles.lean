import WispersAccess.Foundation.ActionSystem
import WispersAccess.Foundation.Texts
import WispersAccess.Wire.Message
import Mathlib.Data.List.AList

/-!
# Secrets in files

`FileSecretStore` keeps one file per secret in the directory of its scope.  A save
writes a second file beside the target and renames it; a process that stops in
between leaves that file behind.
-/

namespace WispersAccess
namespace Guest

open Foundation
open Wire (utf8)

/-!
## Names
-/

/-- A secret's key, which is a plain file name. -/
structure SecretKey where
  text : String
  nonempty : text ≠ ""
  not_dot : text ≠ "." ∧ text ≠ ".."
  plain : '/' ∉ text.toList ∧ '\\' ∉ text.toList
  deriving DecidableEq, Repr

/-- What a name has before and after its last dot, unless it only starts with one. -/
def stemAndExtension (name : List Char) : List Char × Option (List Char) :=
  match rsplitOnce '.' name with
  | some ([], _) => (name, none)
  | some (stem, extension) => (stem, some extension)
  | none => (name, none)

/-- `Path::with_extension`. -/
def withExtension (name extension : String) : String :=
  String.ofList ((stemAndExtension name.toList).1 ++ '.' :: extension.toList)

/-- The name ends as those of the files that saves write first. -/
def isStaging (name : String) : Bool :=
  (stemAndExtension name.toList).2 = some "staging".toList

def SecretKey.staging (key : SecretKey) : String :=
  withExtension key.text "staging"

theorem stem_ne_nil {name : List Char} (h : name ≠ []) : (stemAndExtension name).1 ≠ [] := by
  unfold stemAndExtension
  split
  · exact h
  · rename_i stem extension hne _
    exact hne
  · exact h

theorem isStaging_staging (key : SecretKey) : isStaging key.staging = true := by
  have hname : key.staging.toList =
      (stemAndExtension key.text.toList).1 ++ '.' :: "staging".toList :=
    String.toList_ofList
  have hstem : (stemAndExtension key.text.toList).1 ≠ [] :=
    stem_ne_nil fun hnil => key.nonempty (String.toList_eq_nil_iff.mp hnil)
  have hdot : '.' ∉ "staging".toList := by decide
  unfold isStaging
  rw [hname]
  cases hcs : (stemAndExtension key.text.toList).1 with
  | nil => exact absurd hcs hstem
  | cons c cs =>
      unfold stemAndExtension
      rw [rsplitOnce_append hdot]
      rfl

/-!
## The store
-/

abbrev SecretFiles := AList fun _ : String => List UInt8

/-- The directory of one scope, if it is there. -/
abbrev ScopeDir := Option SecretFiles

/-- How far a save gets before the process stops. -/
inductive SaveStop where
  | begun
  | dirCreated
  /-- The staging file is open, and has the first `n` bytes of the value. -/
  | staged (n : Nat)
  | renamed
  deriving DecidableEq, Repr

namespace ScopeDir

def read (d : ScopeDir) (name : String) : Option (List UInt8) :=
  d.bind fun files => files.lookup name

def createDirAll (d : ScopeDir) : SecretFiles :=
  d.getD ∅

/-- `remove_dir`, which fails unless the directory is empty. -/
def removeDir (d : ScopeDir) : ScopeDir :=
  d.bind fun files => if files.keys = [] then none else some files

def rename (files : SecretFiles) (name target : String) : SecretFiles :=
  match files.lookup name with
  | some bytes => (files.erase name).insert target bytes
  | none => files

def load (d : ScopeDir) (key : SecretKey) : Option (List UInt8) :=
  d.read key.text

/-- Write beside the target and rename. -/
def save (d : ScopeDir) (key : SecretKey) (value : List UInt8) : SaveStop -> ScopeDir
  | SaveStop.begun => d
  | SaveStop.dirCreated => some d.createDirAll
  | SaveStop.staged n => some (d.createDirAll.insert key.staging (value.take n))
  | SaveStop.renamed =>
      some (rename (d.createDirAll.insert key.staging value) key.staging key.text)

/-- The scope's directory goes with its last secret. -/
def delete (d : ScopeDir) (key : SecretKey) : ScopeDir :=
  removeDir (d.map fun files => files.erase key.text)

end ScopeDir

inductive SecretAction where
  | save (key : SecretKey) (value : List UInt8) (stop : SaveStop)
  | load (key : SecretKey)
  | delete (key : SecretKey)
  deriving DecidableEq, Repr

def secretStep (d : ScopeDir) : SecretAction -> Option ScopeDir
  | SecretAction.save key value stop => some (d.save key value stop)
  | SecretAction.load _ => some d
  | SecretAction.delete key => some (d.delete key)

/-!
## What a call leaves
-/

section
variable {d : ScopeDir} {key : SecretKey} {value bytes : List UInt8} {name : String}
  {stop : SaveStop}

theorem read_createDirAll (d : ScopeDir) (name : String) :
    d.createDirAll.lookup name = d.read name := by
  cases d with
  | none => rfl
  | some files => rfl

theorem read_insert {files : SecretFiles} {target : String}
    (h : (files.insert target value).lookup name = some bytes) :
    files.lookup name = some bytes ∨ (name = target ∧ bytes = value) := by
  by_cases hname : name = target
  · rw [hname, AList.lookup_insert] at h
    exact Or.inr ⟨hname, (Option.some.inj h).symm⟩
  · rw [AList.lookup_insert_ne hname] at h
    exact Or.inl h

/-- A file after a save was there before, is the key's file with the value, or is the staging
file with some of it. -/
theorem read_save (h : (d.save key value stop).read name = some bytes) :
    d.read name = some bytes ∨ (name = key.text ∧ bytes = value) ∨ name = key.staging := by
  cases stop with
  | begun => exact Or.inl h
  | dirCreated =>
      rw [← read_createDirAll]
      exact Or.inl h
  | staged n =>
      rcases read_insert h with hold | ⟨hname, -⟩
      · rw [read_createDirAll] at hold
        exact Or.inl hold
      · exact Or.inr (Or.inr hname)
  | renamed =>
      have hrename : ScopeDir.rename (d.createDirAll.insert key.staging value) key.staging
          key.text =
          ((d.createDirAll.insert key.staging value).erase key.staging).insert key.text value := by
        unfold ScopeDir.rename
        rw [AList.lookup_insert]
      have hread : (((d.createDirAll.insert key.staging value).erase key.staging).insert key.text
          value).lookup name = some bytes := by
        rw [← hrename]
        exact h
      rcases read_insert hread with hold | hnew
      · by_cases hname : name = key.staging
        · exact Or.inr (Or.inr hname)
        · rw [AList.lookup_erase_ne hname, AList.lookup_insert_ne hname, read_createDirAll] at hold
          exact Or.inl hold
      · exact Or.inr (Or.inl hnew)

/-- A file after a delete was there before, and is not the key's. -/
theorem read_delete (h : (d.delete key).read name = some bytes) :
    d.read name = some bytes ∧ name ≠ key.text := by
  cases d with
  | none => cases h
  | some files =>
      have herased : (files.erase key.text).lookup name = some bytes := by
        unfold ScopeDir.delete ScopeDir.removeDir at h
        simp only [Option.map_some, Option.bind_some] at h
        split at h
        · cases h
        · exact h
      by_cases hname : name = key.text
      · rw [hname, AList.lookup_erase] at herased
        cases herased
      · rw [AList.lookup_erase_ne hname] at herased
        exact ⟨herased, hname⟩

end

/-!
## Runs
-/

/-- The keys that have been saved, and not been deleted since. -/
def undeleted (acts : List SecretAction) : List SecretKey :=
  acts.foldl (fun keys a =>
    match a with
    | SecretAction.save key _ _ => key :: keys
    | SecretAction.load _ => keys
    | SecretAction.delete key => keys.filter fun k => k ≠ key) []

/-- A key is deleted only when the file its saves write first has nothing in it. -/
def DeletesAll (d : ScopeDir) : SecretAction -> Prop
  | SecretAction.delete key => d.read key.staging = none ∨ d.read key.staging = some []
  | _ => True

instance (d : ScopeDir) (a : SecretAction) : Decidable (DeletesAll d a) :=
  match a with
  | SecretAction.save _ _ _ => inferInstanceAs (Decidable True)
  | SecretAction.load _ => inferInstanceAs (Decidable True)
  | SecretAction.delete _ => inferInstanceAs (Decidable (_ ∨ _))

section
variable {acts : List SecretAction} {d : ScopeDir} {key other : SecretKey}

theorem undeleted_save (acts : List SecretAction) (key : SecretKey) (value : List UInt8)
    (stop : SaveStop) :
    undeleted (acts ++ [SecretAction.save key value stop]) = key :: undeleted acts :=
  List.foldl_append

theorem undeleted_load (acts : List SecretAction) (key : SecretKey) :
    undeleted (acts ++ [SecretAction.load key]) = undeleted acts :=
  List.foldl_append

theorem undeleted_delete (acts : List SecretAction) (key : SecretKey) :
    undeleted (acts ++ [SecretAction.delete key]) = (undeleted acts).filter fun k => k ≠ key :=
  List.foldl_append

/-- Every file is a key's with a value it was given, or one that saves write first. -/
def OnlyGiven (acts : List SecretAction) (d : ScopeDir) : Prop :=
  forall name bytes, d.read name = some bytes ->
    (exists key stop, SecretAction.save key bytes stop ∈ acts ∧ name = key.text) ∨
      isStaging name = true

/-- Every file with something in it belongs to a key that is not deleted. -/
def OnlyUndeleted (acts : List SecretAction) (d : ScopeDir) : Prop :=
  forall name bytes, d.read name = some bytes -> bytes ≠ [] ->
    exists key, key ∈ undeleted acts ∧ (name = key.text ∨ name = key.staging)

theorem onlyGiven_step {past : List SecretAction} {d' : ScopeDir} {a : SecretAction}
    (h : OnlyGiven past d) (hstep : secretStep d a = some d') : OnlyGiven (past ++ [a]) d' := by
  have hpast : forall name bytes, d.read name = some bytes ->
      (exists key stop, SecretAction.save key bytes stop ∈ past ++ [a] ∧ name = key.text) ∨
        isStaging name = true := by
    intro name bytes hread
    rcases h name bytes hread with ⟨key, stop, hmem, hname⟩ | hstaging
    · exact Or.inl ⟨key, stop, List.mem_append_left _ hmem, hname⟩
    · exact Or.inr hstaging
  intro name bytes hread
  cases a with
  | save key value stop =>
      cases hstep
      rcases read_save hread with hold | ⟨hname, rfl⟩ | hstaging
      · exact hpast name bytes hold
      · exact Or.inl ⟨key, stop, by simp, hname⟩
      · rw [hstaging]
        exact Or.inr (isStaging_staging key)
  | load key =>
      cases hstep
      exact hpast name bytes hread
  | delete key =>
      cases hstep
      exact hpast name bytes (read_delete hread).left

theorem onlyUndeleted_step {past : List SecretAction} {d' : ScopeDir} {a : SecretAction}
    (h : OnlyUndeleted past d) (hdeletes : DeletesAll d a) (hstep : secretStep d a = some d') :
    OnlyUndeleted (past ++ [a]) d' := by
  intro name bytes hread hbytes
  cases a with
  | save key value stop =>
      cases hstep
      rw [undeleted_save]
      rcases read_save hread with hold | ⟨hname, -⟩ | hstaging
      · rcases h name bytes hold hbytes with ⟨other, hother, hname⟩
        exact ⟨other, List.mem_cons_of_mem _ hother, hname⟩
      · exact ⟨key, List.mem_cons_self, Or.inl hname⟩
      · exact ⟨key, List.mem_cons_self, Or.inr hstaging⟩
  | load key =>
      cases hstep
      rw [undeleted_load]
      exact h name bytes hread hbytes
  | delete key =>
      cases hstep
      rw [undeleted_delete]
      rcases read_delete hread with ⟨hold, hne⟩
      rcases h name bytes hold hbytes with ⟨other, hother, hname⟩
      refine ⟨other, List.mem_filter.mpr ⟨hother, ?_⟩, hname⟩
      -- neither of the key's two files is left with anything in it
      rw [decide_eq_true_eq]
      intro hkey
      rw [hkey] at hname
      rcases hname with hname | hname
      · exact hne hname
      · rw [hname] at hold
        rcases hdeletes with hnone | hempty
        · rw [hnone] at hold
          cases hold
        · rw [hempty] at hold
          exact hbytes (Option.some.inj hold).symm

/-- In a run that deletes each key only when there is nothing in its staging file, a load returns
a value that was saved under the key, and once all keys are deleted no file has anything in it. -/
theorem deleted_secrets_gone (acts : List SecretAction) (d : ScopeDir)
    (hrun : Run secretStep none acts d) (hdeletes : Meets secretStep DeletesAll none acts) :
    (forall key value, isStaging key.text = false -> d.load key = some value ->
      exists stop, SecretAction.save key value stop ∈ acts) ∧
    (undeleted acts = [] ->
      forall name bytes, d.read name = some bytes -> bytes = []) := by
  have hgiven : OnlyGiven acts d :=
    Run.invariant_of_past (C := DeletesAll) (I := OnlyGiven)
      (fun name bytes hread => by cases hread)
      (fun past s a t _ h _ hstep => onlyGiven_step h hstep)
      hrun hdeletes
  have hundeleted : OnlyUndeleted acts d :=
    Run.invariant_of_past (I := OnlyUndeleted) (fun name bytes hread => by cases hread)
      (fun past s a t _ h hC hstep => onlyUndeleted_step h hC hstep) hrun hdeletes
  constructor
  · intro key value hkey hload
    rcases hgiven key.text value hload with ⟨other, stop, hmem, hname⟩ | hstaging
    · have hsame : other = key := by
        cases other
        cases key
        cases hname
        rfl
      rw [hsame] at hmem
      exact ⟨stop, hmem⟩
    · rw [hkey] at hstaging
      cases hstaging
  · intro hall name bytes hread
    by_contra hbytes
    rcases hundeleted name bytes hread hbytes with ⟨key, hkey, -⟩
    rw [hall] at hkey
    cases hkey

end

/-!
## A save that stops
-/

def rootKeySecret : SecretKey where
  text := "root_key"
  nonempty := by decide
  not_dot := by decide
  plain := by decide

/-- The process stops once the staging file is written, and the key is deleted. -/
def stoppedSave : List SecretAction := [
  SecretAction.save rootKeySecret (utf8 "one") (SaveStop.staged 3),
  SecretAction.delete rootKeySecret]

/-- The secret outlives its deletion. -/
theorem stopped_save_outlives_delete : exists d, Run secretStep none stoppedSave d ∧
    undeleted stoppedSave = [] ∧ d.read "root_key.staging" = some (utf8 "one") := by
  have hread : (exec secretStep none stoppedSave).map (fun d => d.read "root_key.staging") =
      some (some (utf8 "one")) := by
    decide +kernel
  rcases Option.map_eq_some_iff.mp hread with ⟨d, hexec, hstaging⟩
  exact ⟨d, run_iff_exec.mpr hexec, by decide, hstaging⟩

/-- The next save takes the staging file away, and deletes leave nothing. -/
def secondSave : List SecretAction := [
  SecretAction.save rootKeySecret (utf8 "one") (SaveStop.staged 2),
  SecretAction.save rootKeySecret (utf8 "two") SaveStop.renamed,
  SecretAction.load rootKeySecret,
  SecretAction.delete rootKeySecret]

theorem second_save_deleted : exists d, Run secretStep none secondSave d ∧
    forall name bytes, ScopeDir.read d name = some bytes -> bytes = [] := by
  have hsome : (exec secretStep none secondSave).isSome = true := rfl
  rcases Option.isSome_iff_exists.mp hsome with ⟨d, hexec⟩
  have hrun := run_iff_exec.mpr hexec
  exact ⟨d, hrun, (deleted_secrets_gone secondSave d hrun (by decide +kernel)).right (by decide)⟩

end Guest
end WispersAccess
