import WispersAccess.Desktop.Certificates
import WispersAccess.Foundation.Texts
import Mathlib.Logic.Function.Basic

/-!
# Saved certificates

Where the app cannot install a share's certificates it saves them, each in a file
that is named after the certificate's subject.  Certificates that get the same file
overwrite each other.
-/

namespace WispersAccess
namespace Desktop

open Guest (ShareId Share firstShare)
open Foundation

/-!
## Writes to a folder
-/

/-- What the files of a folder hold. -/
abbrev Folder (κ γ : Type _) := κ -> Option γ

section
variable {α κ γ : Type _} [DecidableEq κ] (key : α -> κ) (content : α -> γ)

/-- What a folder holds after writes. -/
def written (xs : List α) (folder : Folder κ γ) : Folder κ γ :=
  xs.foldl (fun folder x => Function.update folder (key x) (some (content x))) folder

variable {key content}

/-- A file holds what was written to it last, or what it held before. -/
theorem written_eq_some_iff {xs : List α} {folder : Folder κ γ} {k : κ} {c : γ} :
    written key content xs folder k = some c <->
      (exists front x back, xs = front ++ x :: back ∧ key x = k ∧ content x = c ∧
        forall y, y ∈ back -> key y ≠ k) ∨
      (folder k = some c ∧ forall y, y ∈ xs -> key y ≠ k) := by
  induction xs generalizing folder with
  | nil =>
      constructor
      · exact fun h => Or.inr ⟨h, nofun⟩
      · intro h
        rcases h with ⟨front, x, back, hnil, -⟩ | ⟨hfolder, -⟩
        · exact absurd hnil.symm (List.append_ne_nil_of_right_ne_nil _ (List.cons_ne_nil _ _))
        · exact hfolder
  | cons x xs ih =>
      show written key content xs (Function.update folder (key x) (some (content x))) k =
        some c <-> _
      rw [ih]
      constructor
      · intro h
        rcases h with ⟨front, y, back, rfl, hy, hcontent, hback⟩ | ⟨hfolder, hxs⟩
        · exact Or.inl ⟨x :: front, y, back, rfl, hy, hcontent, hback⟩
        · by_cases hx : key x = k
          · rw [hx, Function.update_self] at hfolder
            exact Or.inl ⟨[], x, xs, rfl, hx, Option.some.inj hfolder, hxs⟩
          · rw [Function.update_of_ne fun h => hx h.symm] at hfolder
            exact Or.inr ⟨hfolder, List.forall_mem_cons.mpr ⟨hx, hxs⟩⟩
      · intro h
        rcases h with ⟨front, y, back, hlist, hy, hcontent, hback⟩ | ⟨hfolder, hxs⟩
        · cases front with
          | nil =>
              rcases List.cons.inj hlist with ⟨rfl, rfl⟩
              refine Or.inr ⟨?_, hback⟩
              rw [hy, Function.update_self, hcontent]
          | cons z front =>
              rcases List.cons.inj hlist with ⟨rfl, rfl⟩
              exact Or.inl ⟨front, y, back, rfl, hy, hcontent, hback⟩
        · rcases List.forall_mem_cons.mp hxs with ⟨hx, hrest⟩
          refine Or.inr ⟨?_, hrest⟩
          rw [Function.update_of_ne fun h => hx h.symm]
          exact hfolder

/-- A file that is written to holds something that was written to it. -/
theorem exists_written {xs : List α} {x : α} (h : x ∈ xs) (folder : Folder κ γ) :
    exists y, y ∈ xs ∧ key y = key x ∧
      written key content xs folder (key x) = some (content y) := by
  induction xs using List.reverseRecOn with
  | nil => cases h
  | append_singleton xs last ih =>
      have hwritten : written key content (xs ++ [last]) folder =
          Function.update (written key content xs folder) (key last) (some (content last)) := by
        unfold written
        rw [List.foldl_append]
        rfl
      rw [hwritten]
      by_cases hlast : key last = key x
      · refine ⟨last, List.mem_append_right xs List.mem_cons_self, hlast, ?_⟩
        rw [hlast, Function.update_self]
      · have hmem : x ∈ xs := by
          rcases List.mem_append.mp h with hmem | hmem
          · exact hmem
          · rw [List.mem_singleton.mp hmem] at hlast
            exact absurd rfl hlast
        rcases ih hmem with ⟨y, hy, hkey, hcontent⟩
        refine ⟨y, List.mem_append_left [last] hy, hkey, ?_⟩
        rw [Function.update_of_ne fun heq => hlast heq.symm]
        exact hcontent

end

/-!
## Saving
-/

/-- What one of a share's certificates is, for displaying to the user. -/
structure CertificateDescription where
  /-- The subject's common name, or the whole subject if it has none. -/
  subject : String
  kind : CertificateKind
  deriving DecidableEq, Repr

/-- Where files are written. -/
structure FileSystem (κ : Type _) where
  /-- Names of the same file have the same key. -/
  key : String -> κ
  /-- The path of a file in a folder, as it is displayed. -/
  path : String -> String -> String
  /-- Why a file cannot be written, if it cannot. -/
  refusal : Folder κ String -> String -> Option String

section
variable {κ : Type _} [DecidableEq κ] (fs : FileSystem κ) (isAlphanumeric : Char -> Bool)
  (describe : String -> Option CertificateDescription)

/-- `std::fs::write`, which replaces what the file held. -/
def FileSystem.write (folder : Folder κ String) (name content : String) :
    Except String (Folder κ String) :=
  match fs.refusal folder name with
  | some e => Except.error e
  | none => Except.ok (Function.update folder (fs.key name) (some content))

/-- A certificate's subject as a file name. -/
def fileName (subject : String) : String :=
  trim (String.ofList (subject.toList.map fun c =>
    if isAlphanumeric c || " ._()-".toList.contains c then c else '_'))

/-- The share's certificates that installing can help with. -/
def installable (share : Share) : List String :=
  CertificateState.installable (fun pem => (describe pem).map CertificateDescription.kind)
    { id := share.id, caCertificates := share.caCertificates }

/-- The name of the file that a certificate is saved in. -/
def certificateFile (share : Share) (pem : String) : String :=
  let name := ((describe pem).map CertificateDescription.subject).getD share.label
  fileName isAlphanumeric name ++ ".crt"

/-- The file that a certificate is saved in. -/
def certificateKey (share : Share) (pem : String) : κ :=
  fs.key (certificateFile isAlphanumeric describe share pem)

def saveAll (share : Share) (path : String) :
    List String -> Folder κ String -> Except String (Folder κ String)
  | [], folder => Except.ok folder
  | pem :: rest, folder =>
      let name := certificateFile isAlphanumeric describe share pem
      match fs.write folder name pem with
      | Except.error e => Except.error ("could not save " ++ fs.path path name ++ ": " ++ e)
      | Except.ok folder => saveAll share path rest folder

/-- The folder that the user has picked, and the shares whose certificates were saved. -/
structure Saved (κ : Type _) where
  path : String
  folder : Folder κ String
  shares : Finset ShareId

/-- `save_certificates`, for a share that is found or not and a folder, if the user picks one. -/
def saveCertificates (share : Except String Share) (picked : Option (String × Folder κ String))
    (shares : Finset ShareId) : Except String (Option (Saved κ)) := do
  let share <- share
  match picked with
  | none => return none
  | some (path, folder) =>
      let folder <- saveAll fs isAlphanumeric describe share path (installable describe share)
        folder
      return some { path, folder, shares := insert share.id shares }

/-- Each of the share's installable certificates is in a file of the folder. -/
def SavesThemAll (share : Share) (saved : Saved κ) : Prop :=
  forall pem, pem ∈ installable describe share -> exists file, saved.folder file = some pem

/-- Each certificate is the last one of its file somewhere in the list, or the folder has it in a
file that none is saved in. -/
def FilesApart (share : Share) (folder : Folder κ String) : Prop :=
  let file := certificateKey fs isAlphanumeric describe share
  forall pem, pem ∈ installable describe share ->
    (exists front back, installable describe share = front ++ pem :: back ∧
      forall later, later ∈ back -> file later ≠ file pem) ∨
    exists other, folder other = some pem ∧
      forall later, later ∈ installable describe share -> file later ≠ other

end

section
variable {κ : Type _} [DecidableEq κ] {fs : FileSystem κ} {isAlphanumeric : Char -> Bool}
  {describe : String -> Option CertificateDescription} {share : Share} {path : String}
  {folder : Folder κ String} {shares : Finset ShareId} {saved : Saved κ}

theorem saveAll_ok {pems : List String} {after : Folder κ String}
    (h : saveAll fs isAlphanumeric describe share path pems folder = Except.ok after) :
    after = written (certificateKey fs isAlphanumeric describe share) id pems folder := by
  induction pems generalizing folder with
  | nil =>
      cases h
      rfl
  | cons pem rest ih =>
      unfold saveAll FileSystem.write at h
      simp only at h
      cases hrefusal : fs.refusal folder (certificateFile isAlphanumeric describe share pem) with
      | some e =>
          rw [hrefusal] at h
          cases h
      | none =>
          rw [hrefusal] at h
          exact ih h

/-- What has been saved where a folder is returned. -/
theorem saveCertificates_ok
    (h : saveCertificates fs isAlphanumeric describe (Except.ok share) (some (path, folder))
      shares = Except.ok (some saved)) :
    saved.folder =
      written (certificateKey fs isAlphanumeric describe share) id (installable describe share)
        folder := by
  unfold saveCertificates at h
  cases hsave : saveAll fs isAlphanumeric describe share path (installable describe share)
      folder with
  | error e =>
      simp only [bind, Except.bind, hsave] at h
      cases h
  | ok after =>
      simp only [bind, Except.bind, hsave, pure, Except.pure] at h
      cases h
      exact saveAll_ok hsave

/-- A folder that is returned has all the certificates in its files just if no certificate has
taken the file of another. -/
theorem saves_them_all_iff
    (h : saveCertificates fs isAlphanumeric describe (Except.ok share) (some (path, folder))
      shares = Except.ok (some saved)) :
    SavesThemAll describe share saved <->
      FilesApart fs isAlphanumeric describe share folder := by
  unfold SavesThemAll FilesApart
  rw [saveCertificates_ok h]
  simp only
  constructor
  · intro hall pem hpem
    rcases hall pem hpem with ⟨file, hfile⟩
    rcases written_eq_some_iff.mp hfile with ⟨front, last, back, hlist, rfl, rfl, hback⟩ | hbefore
    · exact Or.inl ⟨front, back, hlist, hback⟩
    · exact Or.inr ⟨file, hbefore⟩
  · intro hapart pem hpem
    rcases hapart pem hpem with ⟨front, back, hlist, hback⟩ | ⟨other, hother, hnot⟩
    · refine ⟨certificateKey fs isAlphanumeric describe share pem, ?_⟩
      exact written_eq_some_iff.mpr (Or.inl ⟨front, pem, back, hlist, rfl, rfl, hback⟩)
    · exact ⟨other, written_eq_some_iff.mpr (Or.inr ⟨hother, hnot⟩)⟩

/-- In an empty folder the certificates' files have to be different. -/
theorem saves_them_all_empty_iff
    (h : saveCertificates fs isAlphanumeric describe (Except.ok share) (some (path, fun _ => none))
      shares = Except.ok (some saved)) :
    SavesThemAll describe share saved <->
      forall pem pem', pem ∈ installable describe share -> pem' ∈ installable describe share ->
        certificateKey fs isAlphanumeric describe share pem =
          certificateKey fs isAlphanumeric describe share pem' -> pem = pem' := by
  unfold SavesThemAll
  rw [saveCertificates_ok h]
  constructor
  · intro hall pem pem' hpem hpem' hsame
    rcases hall pem hpem with ⟨file, hfile⟩
    rcases hall pem' hpem' with ⟨file', hfile'⟩
    rcases written_eq_some_iff.mp hfile with ⟨front, last, back, -, hkey, rfl, -⟩ | ⟨hnone, -⟩
    · rcases written_eq_some_iff.mp hfile' with ⟨front, last', back, -, hkey', rfl, -⟩ | ⟨hnone, -⟩
      · have hfiles : file = file' := hkey.symm.trans (hsame.trans hkey')
        rw [hfiles] at hfile
        exact Option.some.inj (hfile.symm.trans hfile')
      · cases hnone
    · cases hnone
  · intro hapart pem hpem
    have hlast : exists last, last ∈ installable describe share ∧
        certificateKey fs isAlphanumeric describe share last =
          certificateKey fs isAlphanumeric describe share pem ∧
        written (certificateKey fs isAlphanumeric describe share) id (installable describe share)
          (fun _ => none) (certificateKey fs isAlphanumeric describe share pem) = some last :=
      exists_written hpem _
    rcases hlast with ⟨last, hmem, hkey, hfile⟩
    refine ⟨_, hfile.trans ?_⟩
    exact congrArg some (hapart last pem hmem hpem hkey)

end

/-!
## A renewed certificate
-/

/-- File names are the same if their characters are, and every write succeeds. -/
def plainFiles : FileSystem String where
  key := id
  path := fun folder name => folder ++ "/" ++ name
  refusal := fun _ _ => none

def sharing (caCertificates : List String) : Share where
  id := firstShare
  name := "home"
  label := "home"
  transport := Guest.Transport.iroh
  apps := []
  caCertificates := caCertificates
  state := Guest.ShareState.live
  joinedAt := 0

/-- Every text is a certificate of the home's CA. -/
def homeCa (_ : String) : Option CertificateDescription :=
  some { subject := "Home CA", kind := CertificateKind.ca }

/-- What is in an empty folder once the certificates are saved. -/
def savedIn (describe : String -> Option CertificateDescription) (share : Share) :
    Saved String where
  path := "/home/u/certificates"
  folder := written (certificateKey plainFiles Char.isAlphanum describe share) id
    (installable describe share) fun _ => none
  shares := insert share.id ∅

/-- The CA's certificate and the one it was renewed with have one subject, and one file. -/
theorem renewed_certificate_overwrites :
    saveCertificates plainFiles Char.isAlphanum homeCa (Except.ok (sharing ["old", "new"]))
        (some ("/home/u/certificates", fun _ => none)) ∅ =
      Except.ok (some (savedIn homeCa (sharing ["old", "new"]))) ∧
      ¬ SavesThemAll homeCa (sharing ["old", "new"]) (savedIn homeCa (sharing ["old", "new"])) := by
  have hsave : saveCertificates plainFiles Char.isAlphanum homeCa
      (Except.ok (sharing ["old", "new"])) (some ("/home/u/certificates", fun _ => none)) ∅ =
        Except.ok (some (savedIn homeCa (sharing ["old", "new"]))) := rfl
  refine ⟨hsave, ?_⟩
  intro hall
  have hsame := (saves_them_all_empty_iff hsave).mp hall "old" "new" (by decide) (by decide) rfl
  exact absurd hsame (by decide)

/-- Every text is a CA's certificate with that text as its subject. -/
def ownSubject (pem : String) : Option CertificateDescription :=
  some { subject := pem, kind := CertificateKind.ca }

theorem saves_them_all_iff_two_subjects :
    SavesThemAll ownSubject (sharing ["Home CA", "Office CA"])
      (savedIn ownSubject (sharing ["Home CA", "Office CA"])) := by
  have hsave : saveCertificates plainFiles Char.isAlphanum ownSubject
      (Except.ok (sharing ["Home CA", "Office CA"]))
      (some ("/home/u/certificates", fun _ => none)) ∅ =
        Except.ok (some (savedIn ownSubject (sharing ["Home CA", "Office CA"]))) := rfl
  refine (saves_them_all_iff hsave).mpr ?_
  intro pem hpem
  rcases List.mem_cons.mp hpem with rfl | hlast
  · refine Or.inl ⟨[], ["Office CA"], rfl, ?_⟩
    intro later hlater
    rw [List.mem_singleton.mp hlater]
    decide +kernel
  · rw [List.mem_singleton.mp hlast]
    exact Or.inl ⟨["Home CA"], [], rfl, nofun⟩

end Desktop
end WispersAccess
