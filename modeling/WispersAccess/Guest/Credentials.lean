import WispersAccess.Guest.Pairing
import WispersAccess.Host.Config

/-!
# Proxy credentials

A forward proxy that serves all shares on one port tells them apart by the
credential that a request carries: the share's id, and a password minted for it.
-/

namespace WispersAccess
namespace Guest

open Foundation
open Wire (ofUtf8 utf8)
open Host (eqIgnoreAsciiCase)

/-- Mints the shares' credentials and matches requests against them. -/
structure CredentialIssuer where
  /-- Each share's password.  The username is the share's id. -/
  passwords : List (ShareId × MintedSecret)
  single : (passwords.map Prod.fst).Nodup

namespace CredentialIssuer

def start : CredentialIssuer where
  passwords := []
  single := List.nodup_nil

/-- The share's password: the one minted before, or `secret`, which is minted now. -/
def mintPassword (issuer : CredentialIssuer) (share : ShareId) (secret : MintedSecret) :
    MintedSecret × CredentialIssuer :=
  match hfind : issuer.passwords.find? fun p => p.1 = share with
  | some p => (p.2, issuer)
  | none =>
      (secret, {
        passwords := issuer.passwords ++ [(share, secret)]
        single := by
          rw [List.map_append, List.nodup_append]
          refine ⟨issuer.single, List.nodup_singleton share, ?_⟩
          intro other hother new hnew
          rcases List.mem_map.mp hother with ⟨p, hp, rfl⟩
          have hdiffers := List.find?_eq_none.mp hfind p hp
          rw [List.mem_singleton.mp hnew]
          simpa using hdiffers })

/-- The share whose credential a `Proxy-Authorization` header carries, if it is one minted
here. -/
def matchPresentedCredentials (base64 : String -> Option (List UInt8)) (issuer : CredentialIssuer)
    (proxyAuthorization : List (List UInt8)) : Option ShareId := do
  let value <- proxyAuthorization.head?.bind headerText
  let (scheme, encoded) <- splitOnce ' ' value.toList
  if !eqIgnoreAsciiCase (String.ofList scheme) "basic" then none
  let decoded <- (base64 (trim (String.ofList encoded))).bind ofUtf8
  let (username, password) <- splitOnce ':' decoded.toList
  let (share, expected) <- issuer.passwords.find? fun p => p.1.text = String.ofList username
  if constantTimeEq (String.ofList password) expected.text then some share else none

end CredentialIssuer

/-!
## Credentials that match
-/

/-- The bytes of an ASCII text are its characters. -/
theorem utf8_of_ascii {s : String} (h : forall c, c ∈ s.toList -> c.toNat < 128) :
    utf8 s = s.toList.map fun c => UInt8.ofNat c.toNat := by
  have hchar : forall c : Char, c.toNat < 128 ->
      String.utf8EncodeChar c = [UInt8.ofNat c.toNat] :=
    forall_ascii (by decide)
  rw [Wire.utf8_eq_flatMap, List.map_eq_flatMap]
  exact List.flatMap_congr fun c hc => hchar c (h c hc)

/-- A text of visible characters is read back off a header. -/
theorem headerText_utf8 {s : String}
    (h : forall c, c ∈ s.toList -> 32 ≤ c.toNat ∧ c.toNat < 127) :
    headerText (utf8 s) = some s := by
  have hchar : forall c : Char, c.toNat < 128 -> 32 ≤ c.toNat ∧ c.toNat < 127 ->
      (32 ≤ UInt8.ofNat c.toNat ∧ UInt8.ofNat c.toNat < 127) ∧
        Char.ofNat (UInt8.ofNat c.toNat).toNat = c :=
    forall_ascii (by decide)
  have hread : forall c, c ∈ s.toList ->
      (32 ≤ UInt8.ofNat c.toNat ∧ UInt8.ofNat c.toNat < 127) ∧
        Char.ofNat (UInt8.ofNat c.toNat).toNat = c := by
    intro c hc
    exact hchar c (Nat.lt_succ_of_lt (h c hc).right) (h c hc)
  rw [utf8_of_ascii fun c hc => Nat.lt_succ_of_lt (h c hc).right]
  unfold headerText
  have hvisible : (s.toList.map fun c => UInt8.ofNat c.toNat).all
      (fun b => b = 9 || (32 ≤ b && b < 127)) = true := by
    rw [List.all_map, List.all_eq_true]
    intro c hc
    rcases (hread c hc).left with ⟨hlow, hhigh⟩
    simp [hlow, hhigh]
  rw [if_pos hvisible, List.map_map]
  have hsame : s.toList.map ((fun b => Char.ofNat b.toNat) ∘ fun c => UInt8.ofNat c.toNat) =
      s.toList := by
    exact (List.map_congr_left fun c hc => (hread c hc).right).trans (List.map_id _)
  rw [hsame, String.ofList_toList]

namespace CredentialIssuer

end CredentialIssuer

end Guest
end WispersAccess
