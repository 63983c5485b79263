import WispersAccess.Foundation.ActionSystem
import WispersAccess.Guest.Storage
import Mathlib.Data.Finset.Insert
import Mathlib.Data.Finset.Erase

/-!
# Installed certificates

The desktop app installs a share's certificates in the system's store and records
which ones.  When a share is left it takes out those of the share's certificates
that it has recorded and that no other share lists.  What a share lists is what
its host said last.
-/

namespace WispersAccess
namespace Desktop

open Foundation
open Guest (ShareId firstShare secondShare)

/-!
## The system
-/

inductive CertificateKind where
  | ca
  | selfSignedServer
  | caSignedServer
  deriving DecidableEq, Repr

/-- What the app sees of a share. -/
structure ListedShare where
  id : ShareId
  caCertificates : List String
  deriving DecidableEq, Repr

structure Installation where
  share : ShareId
  pem : String
  deriving DecidableEq, Repr

/-- The shares, the system's store, what the app has recorded as installed, and what it has
installed for which share. -/
structure CertificateState (δ : Type _) where
  shares : List ListedShare
  store : Finset δ
  records : Finset String
  installed : List Installation

inductive CertificateAction where
  | join (share : ListedShare)
  /-- The system asks for each certificate, and the user consents so many times. -/
  | install (share : ShareId) (consents : Nat)
  /-- The host has changed the share's certificates. -/
  | refresh (share : ShareId) (caCertificates : List String)
  /-- The share's pane is shown. -/
  | view (share : ShareId) (storeReadable : Bool)
  | leave (share : ShareId) (sharesReadable storeReadable : Bool)
  deriving DecidableEq, Repr

/-- A CA's certificate, or a self-signed server's. -/
def isInstallable : CertificateKind -> Bool
  | CertificateKind.caSignedServer => false
  | _ => true

namespace CertificateState

variable {δ : Type _}

def start (store : Finset δ) : CertificateState δ where
  shares := []
  store := store
  records := ∅
  installed := []

def find (s : CertificateState δ) (id : ShareId) : Option ListedShare :=
  s.shares.find? fun share => share.id = id

section
variable (describe : String -> Option CertificateKind)

/-- The share's certificates that installing can help with. -/
def installable (share : ListedShare) : List String :=
  share.caCertificates.filter fun pem => (describe pem).any isInstallable

end

section
variable [DecidableEq δ] (der : String -> Option δ)

/-- `install_certificates`, which ends where a certificate cannot be read or the user refuses. -/
def installAll (share : ShareId) :
    List String -> Nat -> CertificateState δ -> CertificateState δ
  | [], _, s => s
  | pem :: rest, consents, s =>
      match der pem, consents with
      | some d, consents + 1 =>
          installAll share rest consents
            { s with
              store := insert d s.store
              records := insert pem s.records
              installed := s.installed ++ [{ share := share, pem := pem }] }
      | _, _ => s

/-- `InstalledCertificates::contains`, which forgets a certificate that is gone from the store. -/
def contains (storeReadable : Bool) (s : CertificateState δ) (pem : String) :
    Bool × CertificateState δ :=
  if pem ∈ s.records then
    match der pem, storeReadable with
    | some d, true =>
        if d ∈ s.store then (true, s) else (false, { s with records := s.records.erase pem })
    | _, _ => (true, s)
  else (false, s)

/-- `removed_on_leave`, over the share's certificates. -/
def removedOnLeave (storeReadable : Bool) (share : ShareId) (shares : List ListedShare) :
    List String -> CertificateState δ -> List String × CertificateState δ
  | [], s => ([], s)
  | pem :: rest, s =>
      let checked := contains der storeReadable s pem
      let later := removedOnLeave storeReadable share shares rest checked.2
      let listed := shares.any fun other => other.id ≠ share && pem ∈ other.caCertificates
      (if checked.1 && !listed then pem :: later.1 else later.1, later.2)

/-- Take a certificate out of the store, and forget it. -/
def removePem (s : CertificateState δ) (pem : String) : CertificateState δ :=
  match der pem with
  | none => s
  | some d => { s with store := s.store.erase d, records := s.records.erase pem }

/-- `remove_for_left_share`. -/
def removeForLeftShare (sharesReadable storeReadable : Bool) (left : ListedShare)
    (s : CertificateState δ) : CertificateState δ :=
  if sharesReadable then
    let removed := removedOnLeave der storeReadable left.id s.shares left.caCertificates s
    removed.1.foldl (removePem der) removed.2
  else s

end

end CertificateState

section
variable {δ : Type _} [DecidableEq δ] (der : String -> Option δ)
  (describe : String -> Option CertificateKind)

def certificateStep (s : CertificateState δ) : CertificateAction -> Option (CertificateState δ)
  | CertificateAction.join share =>
      match s.find share.id with
      | none => some { s with shares := s.shares ++ [share] }
      | some _ => none
  | CertificateAction.install id consents =>
      (s.find id).map fun share =>
        CertificateState.installAll der id (CertificateState.installable describe share) consents s
  | CertificateAction.refresh id caCertificates =>
      (s.find id).map fun _ =>
        { s with
          shares := s.shares.map fun share =>
            if share.id = id then { share with caCertificates := caCertificates } else share }
  | CertificateAction.view id storeReadable =>
      (s.find id).map fun share =>
        (CertificateState.removedOnLeave der storeReadable id s.shares share.caCertificates s).2
  | CertificateAction.leave id sharesReadable storeReadable =>
      (s.find id).map fun share =>
        CertificateState.removeForLeftShare der sharesReadable storeReadable share
          { s with shares := s.shares.filter fun other => other.id ≠ id }

end

/-!
## Certificates that are wanted
-/

section
variable {δ : Type _} (der : String -> Option δ) (s : CertificateState δ)

/-- The share lists the certificate, or the app has installed it for the share. -/
def Wants (share : ListedShare) (d : δ) : Prop :=
  (exists pem, pem ∈ share.caCertificates ∧ der pem = some d) ∨
    exists installation, installation ∈ s.installed ∧ installation.share = share.id ∧
      der installation.pem = some d

/-- The app has installed the certificate. -/
def WasInstalled (d : δ) : Prop :=
  exists installation, installation ∈ s.installed ∧ der installation.pem = some d

/-- A certificate that the app has installed, and that no joined share lists or has had
installed, is neither in the store nor recorded. -/
def NoneLeftOver : Prop :=
  forall d, WasInstalled der s d -> (forall share, share ∈ s.shares -> ¬ Wants der s share d) ->
    d ∉ s.store ∧ forall pem, pem ∈ s.records -> der pem ≠ some d

/-- Each recorded certificate is wanted by a joined share. -/
def RecordsWanted : Prop :=
  forall pem, pem ∈ s.records -> forall d, der pem = some d ->
    exists share, share ∈ s.shares ∧ Wants der s share d

/-- What is recorded was installed, and what was installed and is in the store is recorded. -/
structure Recorded : Prop where
  installed : forall pem, pem ∈ s.records ->
    exists installation, installation ∈ s.installed ∧ installation.pem = pem
  parsed : forall pem, pem ∈ s.records -> exists d, der pem = some d
  stored : forall d, d ∈ s.store -> WasInstalled der s d ->
    exists pem, pem ∈ s.records ∧ der pem = some d

end

section
variable {δ : Type _} {der : String -> Option δ} {s : CertificateState δ}

theorem noneLeftOver_iff (hrecorded : Recorded der s) :
    NoneLeftOver der s <-> RecordsWanted der s := by
  constructor
  · intro hnone pem hpem d hd
    rcases hrecorded.installed pem hpem with ⟨installation, hinstalled, rfl⟩
    by_contra hunwanted
    have hgone := hnone d ⟨installation, hinstalled, hd⟩ (by
      intro share hshare hwants
      exact hunwanted ⟨share, hshare, hwants⟩)
    exact hgone.right installation.pem hpem hd
  · intro hwanted d hinstalled hunwanted
    have hrecords : forall pem, pem ∈ s.records -> der pem ≠ some d := by
      intro pem hpem hd
      rcases hwanted pem hpem d hd with ⟨share, hshare, hwants⟩
      exact hunwanted share hshare hwants
    refine ⟨?_, hrecords⟩
    intro hstored
    rcases hrecorded.stored d hstored hinstalled with ⟨pem, hpem, hd⟩
    exact hrecords pem hpem hd

end

/-!
## Forgetting certificates
-/

section
variable {δ : Type _} (der : String -> Option δ)

/-- Some records are gone from the first state, and of what is still in the store none. -/
structure Trimmed (s t : CertificateState δ) : Prop where
  shares : t.shares = s.shares
  installed : t.installed = s.installed
  store : t.store ⊆ s.store
  records : t.records ⊆ s.records
  kept : forall pem d, pem ∈ s.records -> der pem = some d -> d ∈ t.store -> pem ∈ t.records

end

section
variable {δ : Type _} {der : String -> Option δ} {s t u : CertificateState δ} {pem : String}

theorem Trimmed.refl (s : CertificateState δ) : Trimmed der s s where
  shares := rfl
  installed := rfl
  store := Finset.Subset.refl _
  records := Finset.Subset.refl _
  kept := fun _ _ hpem _ _ => hpem

theorem Trimmed.trans (h : Trimmed der s t) (h' : Trimmed der t u) : Trimmed der s u where
  shares := h'.shares.trans h.shares
  installed := h'.installed.trans h.installed
  store := h'.store.trans h.store
  records := h'.records.trans h.records
  kept := by
    intro pem d hpem hd hstored
    exact h'.kept pem d (h.kept pem d hpem hd (h'.store hstored)) hd hstored

theorem Trimmed.wants (h : Trimmed der s t) {share : ListedShare} {d : δ} :
    Wants der t share d <-> Wants der s share d := by
  unfold Wants
  rw [h.installed]

theorem Recorded.trimmed (h : Recorded der s) (htrimmed : Trimmed der s t) : Recorded der t := by
  constructor
  · intro pem hpem
    rw [htrimmed.installed]
    exact h.installed pem (htrimmed.records hpem)
  · intro pem hpem
    exact h.parsed pem (htrimmed.records hpem)
  · intro d hd hinstalled
    unfold WasInstalled at hinstalled
    rw [htrimmed.installed] at hinstalled
    rcases h.stored d (htrimmed.store hd) hinstalled with ⟨pem, hpem, hder⟩
    exact ⟨pem, htrimmed.kept pem d hpem hder hd, hder⟩

theorem wanted_of_trimmed (h : Trimmed der s t) {d : δ} :
    (exists share, share ∈ t.shares ∧ Wants der t share d) <->
      exists share, share ∈ s.shares ∧ Wants der s share d := by
  rw [h.shares]
  simp only [h.wants]

theorem RecordsWanted.trimmed (h : RecordsWanted der s) (htrimmed : Trimmed der s t) :
    RecordsWanted der t := by
  intro pem hpem d hd
  exact (wanted_of_trimmed htrimmed).mpr (h pem (htrimmed.records hpem) d hd)

theorem trimmed_erase {d : δ} (hd : der pem = some d) (hgone : d ∉ s.store) :
    Trimmed der s { s with records := s.records.erase pem } where
  shares := rfl
  installed := rfl
  store := Finset.Subset.refl _
  records := Finset.erase_subset ..
  kept := by
    intro other e hother he hstored
    refine Finset.mem_erase.mpr ⟨?_, hother⟩
    intro heq
    subst heq
    rw [hd] at he
    cases he
    exact hgone hstored

end

section
variable {δ : Type _} [DecidableEq δ] {der : String -> Option δ} {storeReadable : Bool}
  {share : ShareId} {shares : List ListedShare} {s : CertificateState δ} {pem : String}

theorem contains_trimmed : Trimmed der s (CertificateState.contains der storeReadable s pem).2 := by
  unfold CertificateState.contains
  split
  · split
    · rename_i d hd
      split
      · exact Trimmed.refl s
      · rename_i hgone
        exact trimmed_erase hd hgone
    · exact Trimmed.refl s
  · exact Trimmed.refl s

/-- A certificate that is looked up and stays recorded is found. -/
theorem contains_of_kept
    (h : pem ∈ (CertificateState.contains der storeReadable s pem).2.records) :
    (CertificateState.contains der storeReadable s pem).1 = true := by
  unfold CertificateState.contains at h ⊢
  split at h
  · rename_i hrecorded
    rw [if_pos hrecorded]
    split at h
    · split at h
      · rename_i hstored
        rw [if_pos hstored]
      · exact absurd rfl (Finset.mem_erase.mp h).left
    · rfl
  · rename_i hunknown
    exact absurd h hunknown

theorem contains_keeps {other : String} (h : other ∈ s.records) (hother : other ≠ pem) :
    other ∈ (CertificateState.contains der storeReadable s pem).2.records := by
  unfold CertificateState.contains
  split
  · split
    · split
      · exact h
      · exact Finset.mem_erase.mpr ⟨hother, h⟩
    · exact h
  · exact h

theorem removedOnLeave_trimmed (pems : List String) (s : CertificateState δ) :
    Trimmed der s
      (CertificateState.removedOnLeave der storeReadable share shares pems s).2 := by
  induction pems generalizing s with
  | nil => exact Trimmed.refl s
  | cons pem rest ih => exact contains_trimmed.trans (ih _)

theorem removedOnLeave_keeps (pems : List String) (s : CertificateState δ)
    (h : pem ∈ s.records) (hpem : pem ∉ pems) :
    pem ∈ (CertificateState.removedOnLeave der storeReadable share shares pems s).2.records := by
  induction pems generalizing s with
  | nil => exact h
  | cons head rest ih =>
      have hhead := List.ne_of_not_mem_cons hpem
      have hrest := List.not_mem_of_not_mem_cons hpem
      exact ih _ (contains_keeps h hhead) hrest

theorem removedOnLeave_subset (pems : List String) (s : CertificateState δ) :
    (CertificateState.removedOnLeave der storeReadable share shares pems s).1 ⊆ pems := by
  induction pems generalizing s with
  | nil => exact List.Subset.refl _
  | cons head rest ih =>
      intro other hother
      simp only [CertificateState.removedOnLeave] at hother
      split at hother
      · rcases List.mem_cons.mp hother with rfl | hlater
        · exact List.mem_cons_self ..
        · exact List.mem_cons_of_mem _ (ih _ hlater)
      · exact List.mem_cons_of_mem _ (ih _ hother)

/-- A certificate of the share that is still recorded is to be removed, or is listed by another
share. -/
theorem removedOnLeave_covers (pems : List String) (s : CertificateState δ) (hpem : pem ∈ pems)
    (h : pem ∈ (CertificateState.removedOnLeave der storeReadable share shares pems s).2.records) :
    pem ∈ (CertificateState.removedOnLeave der storeReadable share shares pems s).1 ∨
      exists other, other ∈ shares ∧ other.id ≠ share ∧ pem ∈ other.caCertificates := by
  induction pems generalizing s with
  | nil => cases hpem
  | cons head rest ih =>
      have hlater : pem ∈ (CertificateState.removedOnLeave der storeReadable share shares rest
          (CertificateState.contains der storeReadable s head).2).2.records := h
      rcases List.mem_cons.mp hpem with rfl | hrest
      · have hfound := contains_of_kept ((removedOnLeave_trimmed rest _).records hlater)
        by_cases hlisted : (shares.any fun other =>
            other.id ≠ share && pem ∈ other.caCertificates) = true
        · rcases List.any_eq_true.mp hlisted with ⟨other, hother, hboth⟩
          rcases Bool.and_eq_true_iff.mp hboth with ⟨hid, hmem⟩
          exact Or.inr ⟨other, hother, of_decide_eq_true hid, of_decide_eq_true hmem⟩
        · refine Or.inl ?_
          simp only [CertificateState.removedOnLeave, hfound, hlisted]
          exact List.mem_cons_self ..
      · rcases ih _ hrest hlater with hremoved | hother
        · refine Or.inl ?_
          simp only [CertificateState.removedOnLeave]
          split
          · exact List.mem_cons_of_mem _ hremoved
          · exact hremoved
        · exact Or.inr hother

theorem removePem_trimmed : Trimmed der s (CertificateState.removePem der s pem) := by
  unfold CertificateState.removePem
  split
  · exact Trimmed.refl s
  · rename_i d hd
    constructor
    · rfl
    · rfl
    · exact Finset.erase_subset ..
    · exact Finset.erase_subset ..
    · intro other e hother he hstored
      refine Finset.mem_erase.mpr ⟨?_, hother⟩
      intro heq
      subst heq
      rw [hd] at he
      cases he
      exact absurd rfl (Finset.mem_erase.mp hstored).left

theorem foldl_removePem_trimmed (pems : List String) (s : CertificateState δ) :
    Trimmed der s (pems.foldl (CertificateState.removePem der) s) := by
  induction pems generalizing s with
  | nil => exact Trimmed.refl s
  | cons pem rest ih => exact removePem_trimmed.trans (ih _)

theorem foldl_removePem_keeps (pems : List String) (s : CertificateState δ)
    (h : pem ∈ s.records) (hpem : pem ∉ pems) :
    pem ∈ (pems.foldl (CertificateState.removePem der) s).records := by
  induction pems generalizing s with
  | nil => exact h
  | cons head rest ih =>
      have hhead := List.ne_of_not_mem_cons hpem
      have hrest := List.not_mem_of_not_mem_cons hpem
      refine ih _ ?_ hrest
      unfold CertificateState.removePem
      split
      · exact h
      · exact Finset.mem_erase.mpr ⟨hhead, h⟩

theorem foldl_removePem_removes {d : δ} (hd : der pem = some d) (pems : List String)
    (s : CertificateState δ) (hpem : pem ∈ pems) :
    pem ∉ (pems.foldl (CertificateState.removePem der) s).records := by
  induction pems generalizing s with
  | nil => cases hpem
  | cons head rest ih =>
      rcases List.mem_cons.mp hpem with rfl | hrest
      · intro hkept
        have hbefore := (foldl_removePem_trimmed rest _).records hkept
        simp only [CertificateState.removePem, hd] at hbefore
        exact absurd rfl (Finset.mem_erase.mp hbefore).left
      · exact ih _ hrest

end

/-!
## Installing
-/

section
variable {δ : Type _} [DecidableEq δ] {der : String -> Option δ} {s : CertificateState δ}

/-- Installing adds to the store and the records, and remembers what for. -/
structure Extended (der : String -> Option δ) (share : ShareId) (pems : List String)
    (s t : CertificateState δ) : Prop where
  shares : t.shares = s.shares
  installed : forall installation, installation ∈ s.installed -> installation ∈ t.installed
  records : forall pem, pem ∈ t.records -> pem ∈ s.records ∨
    (pem ∈ pems ∧ { share := share, pem := pem } ∈ t.installed)

theorem installAll_extended (share : ShareId) (pems : List String) (consents : Nat)
    (s : CertificateState δ) :
    Extended der share pems s (CertificateState.installAll der share pems consents s) := by
  induction pems generalizing consents s with
  | nil => exact ⟨rfl, fun _ h => h, fun _ h => Or.inl h⟩
  | cons pem rest ih =>
      unfold CertificateState.installAll
      split
      · rename_i d consents hd
        have hrest := ih consents { s with
          store := insert d s.store
          records := insert pem s.records
          installed := s.installed ++ [{ share := share, pem := pem }] }
        constructor
        · exact hrest.shares
        · intro installation hinstalled
          exact hrest.installed installation (List.mem_append_left _ hinstalled)
        · intro other hother
          rcases hrest.records other hother with hbefore | ⟨hmem, hinstalled⟩
          · rcases Finset.mem_insert.mp hbefore with rfl | hold
            · exact Or.inr ⟨List.mem_cons_self ..,
                hrest.installed _ (List.mem_append_right _ (List.mem_singleton.mpr rfl))⟩
            · exact Or.inl hold
          · exact Or.inr ⟨List.mem_cons_of_mem _ hmem, hinstalled⟩
      · exact ⟨rfl, fun _ h => h, fun _ h => Or.inl h⟩

/-- One certificate is installed, for some share. -/
theorem Recorded.insert {share : ShareId} {pem : String} {d : δ} (h : Recorded der s)
    (hd : der pem = some d) :
    Recorded der { s with
      store := Insert.insert d s.store
      records := Insert.insert pem s.records
      installed := s.installed ++ [{ share := share, pem := pem }] } := by
  constructor
  · intro other hother
    rcases Finset.mem_insert.mp hother with rfl | hold
    · exact ⟨_, List.mem_append_right _ (List.mem_singleton.mpr rfl), rfl⟩
    · rcases h.installed other hold with ⟨installation, hinstalled, hpem⟩
      exact ⟨installation, List.mem_append_left _ hinstalled, hpem⟩
  · intro other hother
    rcases Finset.mem_insert.mp hother with rfl | hold
    · exact ⟨d, hd⟩
    · exact h.parsed other hold
  · intro e he hinstalled
    by_cases hsame : e = d
    · exact ⟨pem, Finset.mem_insert_self .., hsame ▸ hd⟩
    · have hstored := Finset.mem_of_mem_insert_of_ne he hsame
      rcases hinstalled with ⟨installation, hmem, hder⟩
      rcases List.mem_append.mp hmem with hold | hnew
      · rcases h.stored e hstored ⟨installation, hold, hder⟩ with ⟨other, hother, hotherDer⟩
        exact ⟨other, Finset.mem_insert_of_mem hother, hotherDer⟩
      · rw [List.mem_singleton.mp hnew, hd] at hder
        exact absurd (Option.some.inj hder).symm hsame

theorem Recorded.installAll (share : ShareId) (pems : List String) (consents : Nat)
    (h : Recorded der s) :
    Recorded der (CertificateState.installAll der share pems consents s) := by
  induction pems generalizing consents s with
  | nil => exact h
  | cons pem rest ih =>
      unfold CertificateState.installAll
      split
      · rename_i d consents hd
        exact ih consents (h.insert hd)
      · exact h

end

/-!
## Leaving
-/

section
variable {δ : Type _} [DecidableEq δ] {der : String -> Option δ} {s t : CertificateState δ}
  {left : ListedShare} {pem : String} {sharesReadable storeReadable : Bool}

theorem removeForLeftShare_trimmed (der : String -> Option δ)
    (sharesReadable storeReadable : Bool) (left : ListedShare) (s : CertificateState δ) :
    Trimmed der s
      (CertificateState.removeForLeftShare der sharesReadable storeReadable left s) := by
  unfold CertificateState.removeForLeftShare
  split
  · exact (removedOnLeave_trimmed left.caCertificates s).trans (foldl_removePem_trimmed _ _)
  · exact Trimmed.refl s

/-- Only the certificates that the share lists are forgotten. -/
theorem removeForLeftShare_keeps (h : pem ∈ s.records)
    (hpem : ¬ (sharesReadable = true ∧ pem ∈ left.caCertificates)) :
    pem ∈
      (CertificateState.removeForLeftShare der sharesReadable storeReadable left s).records := by
  unfold CertificateState.removeForLeftShare
  split
  · rename_i hreadable
    have hunlisted : pem ∉ left.caCertificates := fun hmem => hpem ⟨hreadable, hmem⟩
    refine foldl_removePem_keeps _ _ (removedOnLeave_keeps _ s h hunlisted) ?_
    intro hremoved
    exact hunlisted (removedOnLeave_subset _ s hremoved)
  · exact h

/-- What the share lists is forgotten, unless another share lists it. -/
theorem removeForLeftShare_covers {d : δ} (hd : der pem = some d)
    (hreadable : sharesReadable = true) (hpem : pem ∈ left.caCertificates)
    (h : pem ∈
      (CertificateState.removeForLeftShare der sharesReadable storeReadable left s).records) :
    exists other, other ∈ s.shares ∧ other.id ≠ left.id ∧ pem ∈ other.caCertificates := by
  unfold CertificateState.removeForLeftShare at h
  rw [if_pos hreadable] at h
  have hbefore := (foldl_removePem_trimmed _ _).records h
  rcases removedOnLeave_covers _ s hpem hbefore with hremoved | hother
  · exact absurd h (foldl_removePem_removes hd _ _ hremoved)
  · exact hother

end

/-!
## Steps
-/

section
variable {δ : Type _} (der : String -> Option δ) (s : CertificateState δ)

/-- A share other than this one lists the certificate, or has had it installed. -/
def WantedBesides (id : ShareId) (d : δ) : Prop :=
  exists other, other ∈ s.shares ∧ other.id ≠ id ∧ Wants der s other d

/-- A refresh takes a recorded certificate off a share only if it was installed for that share
or another one wants it; and a share that is left, with the shares readable, lists every
recorded certificate that no other share wants. -/
def KeepsWanted : CertificateAction -> Prop
  | CertificateAction.refresh id caCertificates =>
      forall pem, pem ∈ s.records -> forall d, d ∈ der pem ->
        (exists listed, listed ∈ caCertificates ∧ der listed = some d) ∨
        (exists installation, installation ∈ s.installed ∧ installation.share = id ∧
          der installation.pem = some d) ∨
        WantedBesides der s id d
  | CertificateAction.leave id sharesReadable _ =>
      forall pem, pem ∈ s.records -> forall d, d ∈ der pem ->
        (sharesReadable = true ∧ exists share, share ∈ s.find id ∧ pem ∈ share.caCertificates) ∨
        WantedBesides der s id d
  | _ => True

end

section
variable {δ : Type _} [DecidableEq δ] {der : String -> Option δ} {s : CertificateState δ}

instance (share : ListedShare) (d : δ) : Decidable (Wants der s share d) :=
  inferInstanceAs (Decidable ((exists pem, pem ∈ share.caCertificates ∧ der pem = some d) ∨
    exists installation, installation ∈ s.installed ∧ installation.share = share.id ∧
      der installation.pem = some d))

instance (id : ShareId) (d : δ) : Decidable (WantedBesides der s id d) :=
  inferInstanceAs (Decidable (exists other, other ∈ s.shares ∧ other.id ≠ id ∧
    Wants der s other d))

instance (a : CertificateAction) : Decidable (KeepsWanted der s a) :=
  match a with
  | CertificateAction.join _ => isTrue trivial
  | CertificateAction.install _ _ => isTrue trivial
  | CertificateAction.view _ _ => isTrue trivial
  | CertificateAction.refresh id caCertificates =>
      inferInstanceAs (Decidable (forall pem, pem ∈ s.records -> forall d, d ∈ der pem ->
        (exists listed, listed ∈ caCertificates ∧ der listed = some d) ∨
        (exists installation, installation ∈ s.installed ∧ installation.share = id ∧
          der installation.pem = some d) ∨
        WantedBesides der s id d))
  | CertificateAction.leave id sharesReadable _ =>
      inferInstanceAs (Decidable (forall pem, pem ∈ s.records -> forall d, d ∈ der pem ->
        (sharesReadable = true ∧ exists share, share ∈ s.find id ∧ pem ∈ share.caCertificates) ∨
        WantedBesides der s id d))

end

theorem find_some {δ : Type _} {s : CertificateState δ} {id : ShareId} {share : ListedShare}
    (h : s.find id = some share) : share ∈ s.shares ∧ share.id = id := by
  unfold CertificateState.find at h
  have hid := List.find?_some h
  exact ⟨List.mem_of_find?_eq_some h, of_decide_eq_true hid⟩

section
variable {δ : Type _} {der : String -> Option δ} {s t : CertificateState δ}

theorem wants_of_extended {share : ListedShare} {id : ShareId} {pems : List String} {d : δ}
    (h : Extended der id pems s t) (hwants : Wants der s share d) : Wants der t share d := by
  rcases hwants with hlists | ⟨installation, hinstalled, hrest⟩
  · exact Or.inl hlists
  · exact Or.inr ⟨installation, h.installed installation hinstalled, hrest⟩

/-- After a refresh a certificate is wanted by the share, or by another. -/
theorem wanted_refresh_iff {id : ShareId} {caCertificates : List String} {share : ListedShare}
    {d : δ} (hfind : s.find id = some share) :
    (exists share, share ∈ (s.shares.map fun share =>
        if share.id = id then { share with caCertificates := caCertificates } else share) ∧
        Wants der s share d) <->
      (exists listed, listed ∈ caCertificates ∧ der listed = some d) ∨
        (exists installation, installation ∈ s.installed ∧ installation.share = id ∧
          der installation.pem = some d) ∨
        WantedBesides der s id d := by
  constructor
  · intro hwanted
    rcases hwanted with ⟨after, hafter, hwants⟩
    rcases List.mem_map.mp hafter with ⟨before, hbefore, rfl⟩
    by_cases hid : before.id = id
    · rw [if_pos hid] at hwants
      rcases hwants with hlists | ⟨installation, hinstalled, hshare, hder⟩
      · exact Or.inl hlists
      · exact Or.inr (Or.inl ⟨installation, hinstalled, hshare.trans hid, hder⟩)
    · rw [if_neg hid] at hwants
      exact Or.inr (Or.inr ⟨before, hbefore, hid, hwants⟩)
  · intro h
    rcases find_some hfind with ⟨hshare, hid⟩
    have hrefreshed : { share with caCertificates := caCertificates } ∈
        (s.shares.map fun share =>
          if share.id = id then { share with caCertificates := caCertificates } else share) :=
      List.mem_map.mpr ⟨share, hshare, if_pos hid⟩
    rcases h with hlists | ⟨installation, hinstalled, hof, hder⟩ | ⟨other, hother, hne, hwants⟩
    · exact ⟨_, hrefreshed, Or.inl hlists⟩
    · exact ⟨_, hrefreshed, Or.inr ⟨installation, hinstalled, hof.trans hid.symm, hder⟩⟩
    · exact ⟨other, List.mem_map.mpr ⟨other, hother, if_neg hne⟩, hwants⟩

theorem wanted_filter_iff {id : ShareId} {d : δ} :
    (exists share, share ∈ (s.shares.filter fun other => other.id ≠ id) ∧ Wants der s share d) <->
      WantedBesides der s id d := by
  unfold WantedBesides
  simp only [List.mem_filter, decide_eq_true_eq, and_assoc]

end

section
variable {δ : Type _} [DecidableEq δ] {der : String -> Option δ}
  {describe : String -> Option CertificateKind} {s t : CertificateState δ}
  {a : CertificateAction}

theorem certificateStep_recorded (h : certificateStep der describe s a = some t)
    (hrecorded : Recorded der s) : Recorded der t := by
  cases a with
  | join share =>
      simp only [certificateStep] at h
      split at h
      · cases h
        exact ⟨hrecorded.installed, hrecorded.parsed, hrecorded.stored⟩
      · cases h
  | install id consents =>
      rcases Option.map_eq_some_iff.mp h with ⟨share, -, rfl⟩
      exact hrecorded.installAll id _ consents
  | refresh id caCertificates =>
      rcases Option.map_eq_some_iff.mp h with ⟨share, -, rfl⟩
      exact ⟨hrecorded.installed, hrecorded.parsed, hrecorded.stored⟩
  | view id storeReadable =>
      rcases Option.map_eq_some_iff.mp h with ⟨share, -, rfl⟩
      exact hrecorded.trimmed (removedOnLeave_trimmed _ s)
  | leave id sharesReadable storeReadable =>
      rcases Option.map_eq_some_iff.mp h with ⟨share, -, rfl⟩
      refine Recorded.trimmed ?_ (removeForLeftShare_trimmed ..)
      exact ⟨hrecorded.installed, hrecorded.parsed, hrecorded.stored⟩

/-- A step keeps every recorded certificate wanted just if it meets the condition. -/
theorem certificateStep_wanted (hwanted : RecordsWanted der s)
    (h : certificateStep der describe s a = some t) :
    KeepsWanted der s a <-> RecordsWanted der t := by
  cases a with
  | join share =>
      simp only [certificateStep] at h
      split at h
      · cases h
        refine iff_of_true trivial ?_
        intro pem hpem d hd
        rcases hwanted pem hpem d hd with ⟨other, hother, hwants⟩
        exact ⟨other, List.mem_append_left _ hother, hwants⟩
      · cases h
  | install id consents =>
      rcases Option.map_eq_some_iff.mp h with ⟨share, hfind, rfl⟩
      refine iff_of_true trivial ?_
      have hextended : Extended der id (CertificateState.installable describe share) s _ :=
        installAll_extended id (CertificateState.installable describe share) consents s
      rcases find_some hfind with ⟨hshare, rfl⟩
      intro pem hpem d hd
      rw [hextended.shares]
      rcases hextended.records pem hpem with hold | ⟨-, hinstalled⟩
      · rcases hwanted pem hold d hd with ⟨other, hother, hwants⟩
        exact ⟨other, hother, wants_of_extended hextended hwants⟩
      · exact ⟨share, hshare, Or.inr ⟨_, hinstalled, rfl, hd⟩⟩
  | refresh id caCertificates =>
      rcases Option.map_eq_some_iff.mp h with ⟨share, hfind, rfl⟩
      constructor
      · intro hkeeps pem hpem d hd
        exact (wanted_refresh_iff hfind).mpr (hkeeps pem hpem d hd)
      · intro hafter pem hpem d hd
        exact (wanted_refresh_iff hfind).mp (hafter pem hpem d hd)
  | view id storeReadable =>
      rcases Option.map_eq_some_iff.mp h with ⟨share, -, rfl⟩
      exact iff_of_true trivial (hwanted.trimmed (removedOnLeave_trimmed _ s))
  | leave id sharesReadable storeReadable =>
      rcases Option.map_eq_some_iff.mp h with ⟨share, hfind, rfl⟩
      rcases find_some hfind with ⟨-, hid⟩
      have htrimmed := removeForLeftShare_trimmed der sharesReadable storeReadable share
        { s with shares := s.shares.filter fun other => other.id ≠ id }
      have hbesides := fun d => (wanted_of_trimmed htrimmed (d := d)).trans wanted_filter_iff
      constructor
      · intro hkeeps pem hpem d hd
        rw [hbesides]
        rcases hkeeps pem (htrimmed.records hpem) d hd with
          ⟨hreadable, left, hleft, hlisted⟩ | hother
        · have hsame := hfind.symm.trans hleft
          cases hsame
          rcases removeForLeftShare_covers hd hreadable hlisted hpem with
            ⟨other, hother, -, hlists⟩
          exact wanted_filter_iff.mp ⟨other, hother, Or.inl ⟨pem, hlists, hd⟩⟩
        · exact hother
      · intro hafter pem hpem d hd
        by_cases hlisted : sharesReadable = true ∧ pem ∈ share.caCertificates
        · exact Or.inl ⟨hlisted.left, share, hfind, hlisted.right⟩
        · refine Or.inr ((hbesides d).mp (hafter pem ?_ d hd))
          exact removeForLeftShare_keeps hpem hlisted

/-- The certificates that the app has installed go with their shares, all along a run, just if
every step keeps the recorded certificates wanted. -/
theorem certificates_go_with_shares_iff {store : Finset δ} {acts : List CertificateAction}
    (hrun : Run (certificateStep der describe) (CertificateState.start store) acts s) :
    (forall u, Passes (certificateStep der describe) (CertificateState.start store) acts u ->
      NoneLeftOver der u) <->
    Meets (certificateStep der describe) (KeepsWanted der) (CertificateState.start store) acts := by
  have hstart : Recorded der (CertificateState.start store) := by
    constructor
    · nofun
    · nofun
    · intro d _ h
      rcases h with ⟨installation, hinstalled, -⟩
      cases hinstalled
  refine Run.passes_iff_meets ?_ ?_ hrun hstart ?_
  · intro s a t hrecorded hstep
    exact certificateStep_recorded hstep hrecorded
  · intro s a t hrecorded hnone hstep
    have hafter := certificateStep_recorded hstep hrecorded
    rw [noneLeftOver_iff hafter]
    exact certificateStep_wanted ((noneLeftOver_iff hrecorded).mp hnone) hstep
  · rw [noneLeftOver_iff hstart]
    nofun

end

/-!
## A certificate that the host takes back
-/

/-- Each text is a CA's certificate of its own. -/
def certificateSystem :
    CertificateState String -> CertificateAction -> Option (CertificateState String) :=
  certificateStep some fun _ => some CertificateKind.ca

def nasShare : ListedShare where
  id := firstShare
  caCertificates := ["nas"]

/-- The host takes an installed certificate off the share before the share is left. -/
def takenBackThenLeft : List CertificateAction :=
  [CertificateAction.join nasShare, CertificateAction.install firstShare 1,
    CertificateAction.refresh firstShare [], CertificateAction.leave firstShare true true]

/-- It stays in the store, and recorded. -/
theorem certificate_left_over :
    exists s, Run certificateSystem (CertificateState.start ∅) takenBackThenLeft s ∧
      s.shares = [] ∧ "nas" ∈ s.store ∧ "nas" ∈ s.records ∧ ¬ NoneLeftOver some s := by
  refine ⟨{ shares := [], store := {"nas"}, records := {"nas"}
            installed := [{ share := firstShare, pem := "nas" }] },
    run_iff_exec.mpr rfl, rfl, Finset.mem_singleton_self _, Finset.mem_singleton_self _, ?_⟩
  intro hnone
  have hgone := hnone "nas" ⟨_, List.mem_singleton.mpr rfl, rfl⟩ nofun
  exact hgone.left (Finset.mem_singleton_self _)

/-- Two shares list a certificate that was installed for one of them. -/
def leftByBoth : List CertificateAction :=
  [CertificateAction.join nasShare,
    CertificateAction.join { id := secondShare, caCertificates := ["nas", "printer"] },
    CertificateAction.install firstShare 1, CertificateAction.leave firstShare true true,
    CertificateAction.refresh secondShare ["nas"], CertificateAction.leave secondShare true true]

theorem certificates_go_with_shares_iff_left_by_both :
    exists s, Run certificateSystem (CertificateState.start ∅) leftByBoth s ∧
      forall u, Passes certificateSystem (CertificateState.start ∅) leftByBoth u ->
        NoneLeftOver some u := by
  have hrun : Run certificateSystem (CertificateState.start ∅) leftByBoth
      { shares := [], store := ∅, records := ∅
        installed := [{ share := firstShare, pem := "nas" }] } :=
    run_iff_exec.mpr rfl
  have hmeets : Meets certificateSystem (KeepsWanted some) (CertificateState.start ∅)
      leftByBoth := by
    decide
  exact ⟨_, hrun, (certificates_go_with_shares_iff hrun).mpr hmeets⟩

end Desktop
end WispersAccess
