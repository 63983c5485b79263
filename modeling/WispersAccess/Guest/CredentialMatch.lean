import WispersAccess.Foundation.ByteCodec
import WispersAccess.Guest.Credentials

/-!
# Which credentials are matched

An issuer after any number of mintings, the header values it takes for a share's,
and what becomes of a credential as more are minted.
-/

namespace WispersAccess
namespace Guest

open Foundation
open Wire (ofUtf8 utf8)
open Host (eqIgnoreAsciiCase)

/-- Symbols of padded base64. -/
def isBase64 (c : Char) : Bool :=
  c.isAlphanum || c == '+' || c == '/' || c == '='

/-- A share's Basic credential. -/
structure ProxyCredential where
  username : String
  password : String
  deriving DecidableEq, Repr

namespace ProxyCredential

/-- What the credential says before it is encoded. -/
def text (credential : ProxyCredential) : String :=
  credential.username ++ ":" ++ credential.password

/-- The `Proxy-Authorization` value a webview answers with. -/
def header (base64 : ByteCodec isBase64) (credential : ProxyCredential) : List UInt8 :=
  utf8 ("Basic " ++ String.ofList (base64.encode (utf8 credential.text)))

end ProxyCredential

/-- `credential`: what the share's webview answers challenges with, minted if need be. -/
def credential (order : SerialTable.QueryOrder ShareRow) (db : DB) (issuer : CredentialIssuer)
    (share : ShareId) (secret : MintedSecret) : Option (ProxyCredential × CredentialIssuer) :=
  match db.findRow order share.text with
  | none => none  -- NoSuchShare
  | some _ =>
      let minted := issuer.mintPassword share secret
      some ({ username := share.text, password := minted.1.text }, minted.2)

namespace CredentialIssuer

/-- The issuer after mintings, each with the secret it would mint. -/
def mintAll (issuer : CredentialIssuer) (mints : List (ShareId × MintedSecret)) :
    CredentialIssuer :=
  mints.foldl (fun issuer m => (issuer.mintPassword m.1 m.2).2) issuer

/-- The password minted for a share. -/
def passwordOf (issuer : CredentialIssuer) (share : ShareId) : Option MintedSecret :=
  (issuer.passwords.find? fun p => p.1 = share).map Prod.snd

/-!
## Minting
-/

section
variable {issuer : CredentialIssuer} {share other : ShareId} {secret minted : MintedSecret}

/-- A password that was minted before is not minted again. -/
theorem mintPassword_of_some (h : issuer.passwordOf share = some minted) :
    issuer.mintPassword share secret = (minted, issuer) := by
  rcases Option.map_eq_some_iff.mp h with ⟨p, hfind, rfl⟩
  unfold mintPassword
  split
  · rename_i p' hfind'
    rw [hfind] at hfind'
    cases hfind'
    rfl
  · rename_i hnone
    rw [hfind] at hnone
    cases hnone

theorem mintPassword_of_none (h : issuer.passwordOf share = none) :
    (issuer.mintPassword share secret).1 = secret ∧
      (issuer.mintPassword share secret).2.passwords = issuer.passwords ++ [(share, secret)] := by
  have hfind : (issuer.passwords.find? fun p => p.1 = share) = none := Option.map_eq_none_iff.mp h
  unfold mintPassword
  split
  · rename_i p hsome
    rw [hfind] at hsome
    cases hsome
  · exact ⟨rfl, rfl⟩

/-- What is minted is the share's password from then on. -/
theorem passwordOf_mintPassword_self :
    (issuer.mintPassword share secret).2.passwordOf share =
      some (issuer.mintPassword share secret).1 := by
  cases hminted : issuer.passwordOf share with
  | some minted =>
      rw [mintPassword_of_some hminted]
      exact hminted
  | none =>
      rcases @mintPassword_of_none issuer share secret hminted with ⟨hnew, hpasswords⟩
      have hfind : (issuer.passwords.find? fun p => p.1 = share) = none :=
        Option.map_eq_none_iff.mp hminted
      unfold passwordOf
      rw [hpasswords, hnew, List.find?_append, hfind]
      simp

/-- A minted password stays. -/
theorem passwordOf_mintPassword (h : issuer.passwordOf share = some minted) :
    (issuer.mintPassword other secret).2.passwordOf share = some minted := by
  cases hother : issuer.passwordOf other with
  | some password =>
      rw [mintPassword_of_some hother]
      exact h
  | none =>
      rcases @mintPassword_of_none issuer other secret hother with ⟨-, hpasswords⟩
      rcases Option.map_eq_some_iff.mp h with ⟨p, hfind, rfl⟩
      unfold passwordOf
      rw [hpasswords, List.find?_append, hfind]
      rfl

theorem passwordOf_mintAll (h : issuer.passwordOf share = some minted)
    (mints : List (ShareId × MintedSecret)) :
    (issuer.mintAll mints).passwordOf share = some minted := by
  induction mints generalizing issuer with
  | nil => exact h
  | cons m rest ih => exact ih (passwordOf_mintPassword h)

/-- A share's password is the first one minted for it. -/
theorem passwordOf_mintAll_eq (issuer : CredentialIssuer) (mints : List (ShareId × MintedSecret))
    (share : ShareId) :
    (issuer.mintAll mints).passwordOf share =
      (issuer.passwordOf share).or ((mints.find? fun m => m.1 = share).map Prod.snd) := by
  induction mints generalizing issuer with
  | nil => exact (Option.or_none).symm
  | cons m rest ih =>
      rcases m with ⟨other, secret⟩
      have hnext := ih (issuer.mintPassword other secret).2
      show ((issuer.mintPassword other secret).2.mintAll rest).passwordOf share = _
      rw [hnext]
      by_cases hshare : other = share
      · have hfirst : ((share, secret) :: rest).find? (fun m => m.1 = share) =
            some (share, secret) :=
          List.find?_cons_of_pos (decide_eq_true rfl)
        rw [hshare, passwordOf_mintPassword_self, hfirst, Option.some_or]
        cases hminted : issuer.passwordOf share with
        | some minted => rw [mintPassword_of_some hminted, Option.some_or]
        | none => rw [(mintPassword_of_none hminted).left, Option.none_or, Option.map_some]
      · rw [List.find?_cons_of_neg (by simpa using hshare)]
        congr 1
        cases hminted : issuer.passwordOf other with
        | some minted => rw [mintPassword_of_some hminted]
        | none =>
            rcases @mintPassword_of_none issuer other secret hminted with ⟨-, hpasswords⟩
            unfold passwordOf
            rw [hpasswords, List.find?_append]
            simp [hshare]

end

/-!
## Matching
-/

section
variable {base64 : ByteCodec isBase64} {issuer : CredentialIssuer} {share : ShareId}

/-- The value is the scheme in any case, a space, and a text that decodes to the credential; blanks
around that text are not part of it. -/
def Presents (base64 : ByteCodec isBase64) (credential : ProxyCredential) (value : List UInt8) :
    Prop :=
  exists scheme encoded, headerText value = some (String.ofList (scheme ++ ' ' :: encoded)) ∧
    eqIgnoreAsciiCase (String.ofList scheme) "basic" = true ∧
    base64.decode (trim (String.ofList encoded)).toList = some (utf8 credential.text)

theorem colon_not_mem_share (share : ShareId) : ':' ∉ share.text.toList := by
  intro hmem
  have hminted := share.minted
  unfold isUuidText at hminted
  rw [Bool.and_eq_true, List.all_eq_true] at hminted
  exact absurd (hminted.right _ hmem) (by decide)

/-- The scheme has no space in it. -/
theorem space_not_mem_scheme {scheme : List Char}
    (h : eqIgnoreAsciiCase (String.ofList scheme) "basic" = true) : ' ' ∉ scheme := by
  intro hmem
  unfold eqIgnoreAsciiCase at h
  rw [decide_eq_true_eq, String.toList_ofList] at h
  have hlower : ' '.toLower ∈ scheme.map Char.toLower := List.mem_map_of_mem hmem
  rw [h] at hlower
  exact absurd hlower (by decide)

theorem ShareId.text_injective {share other : ShareId} (h : share.text = other.text) :
    share = other := by
  cases share
  cases other
  cases h
  rfl

/-- The row of a share, by the text of its id. -/
theorem find_text_eq_some_iff {secret : MintedSecret} {name : String} :
    (issuer.passwords.find? fun p => p.1.text = name) = some (share, secret) <->
      share.text = name ∧ issuer.passwordOf share = some secret := by
  have hsame : forall share : ShareId, (issuer.passwords.find? fun p => p.1.text = share.text) =
      issuer.passwords.find? fun p => p.1 = share := by
    intro share
    congr 1
    funext p
    rw [decide_eq_decide]
    constructor
    · exact fun h => ShareId.text_injective h
    · exact fun h => congrArg ShareId.text h
  constructor
  · intro hfind
    have hname : share.text = name := by simpa using List.find?_some hfind
    refine ⟨hname, ?_⟩
    unfold passwordOf
    rw [← hname, hsame] at hfind
    rw [hfind]
    rfl
  · intro h
    rcases h with ⟨rfl, hpassword⟩
    rcases Option.map_eq_some_iff.mp hpassword with ⟨p, hfind, rfl⟩
    have hshare : p.1 = share := by simpa using List.find?_some hfind
    rw [hsame, hfind, ← hshare]

theorem splitOnce_credential (share : ShareId) (secret : MintedSecret) :
    splitOnce ':' (ProxyCredential.text ⟨share.text, secret.text⟩).toList =
      some (share.text.toList, secret.text.toList) := by
  unfold ProxyCredential.text
  rw [String.toList_append, String.toList_append, List.append_assoc]
  exact splitOnce_append (colon_not_mem_share share) _

/-- A header value is matched as the share whose credential it presents. -/
theorem matchPresentedCredentials_iff (value : List UInt8) (rest : List (List UInt8)) :
    issuer.matchPresentedCredentials (fun s => base64.decode s.toList) (value :: rest) =
        some share <->
      exists secret, issuer.passwordOf share = some secret ∧
        Presents base64 ⟨share.text, secret.text⟩ value := by
  constructor
  · intro h
    unfold matchPresentedCredentials at h
    simp only [List.head?_cons, Option.bind_eq_bind, Option.bind_some] at h
    rcases Option.bind_eq_some_iff.mp h with ⟨text, htext, h⟩
    rcases Option.bind_eq_some_iff.mp h with ⟨⟨scheme, encoded⟩, hsplit, h⟩
    dsimp only at h
    split at h
    · cases h
    rename_i hscheme
    rcases Option.bind_eq_some_iff.mp h with ⟨decoded, hdecoded, h⟩
    rcases Option.bind_eq_some_iff.mp h with ⟨⟨username, password⟩, hpair, h⟩
    rcases Option.bind_eq_some_iff.mp h with ⟨⟨share', expected⟩, hfind, h⟩
    rcases Option.bind_eq_some_iff.mp hdecoded with ⟨bytes, hbytes, hutf8⟩
    dsimp only at h hfind hpair
    split at h
    · rename_i hequal
      cases h
      rcases find_text_eq_some_iff.mp hfind with ⟨hname, hpassword⟩
      refine ⟨expected, hpassword, scheme, encoded, ?_, by simpa using hscheme, ?_⟩
      · rw [htext, ← (splitOnce_some hsplit).left, String.ofList_toList]
      · have hcredential : decoded = ProxyCredential.text ⟨share.text, expected.text⟩ := by
          unfold ProxyCredential.text
          apply String.toList_inj.mp
          rw [(splitOnce_some hpair).left, hname, ← constantTimeEq_iff.mp hequal]
          simp
        rw [hbytes, Wire.ofUtf8_eq_some_iff.mp hutf8, hcredential]
    · cases h
  · intro h
    rcases h with ⟨secret, hpassword, scheme, encoded, htext, hscheme, hbytes⟩
    have hsplit : splitOnce ' ' (String.ofList (scheme ++ ' ' :: encoded)).toList =
        some (scheme, encoded) := by
      rw [String.toList_ofList]
      exact splitOnce_append (space_not_mem_scheme hscheme) encoded
    have hfind := find_text_eq_some_iff.mpr ⟨@rfl _ share.text, hpassword⟩
    unfold matchPresentedCredentials
    simp only [List.head?_cons, Option.bind_eq_bind, Option.bind_some, htext, hsplit, hscheme,
      hbytes, Wire.ofUtf8_utf8, splitOnce_credential, String.ofList_toList, hfind,
      constantTimeEq_iff, Bool.not_true, Bool.false_eq_true, if_false, if_true]

theorem plain_of_isBase64 {c : Char} (h : isBase64 c = true) :
    (32 ≤ c.toNat ∧ c.toNat < 127) ∧ isWhiteSpace c = false := by
  have hascii : c.toNat < 128 := by
    unfold isBase64 at h
    simp only [Bool.or_eq_true, beq_iff_eq] at h
    rcases h with ((halnum | rfl) | rfl) | rfl
    · exact ascii_of_isAlphanum halnum
    · decide
    · decide
    · decide
  have hplain : forall c : Char, c.toNat < 128 -> isBase64 c = true ->
      (32 ≤ c.toNat ∧ c.toNat < 127) ∧ isWhiteSpace c = false :=
    forall_ascii (by decide)
  exact hplain c hascii h

/-- A header value with the blanks between the scheme and the encoded credential. -/
def blankedHeader (base64 : ByteCodec isBase64) (credential : ProxyCredential) (blanks : Nat) :
    String :=
  "Basic " ++ String.ofList (List.replicate blanks ' ' ++ base64.encode (utf8 credential.text))

theorem headerText_blankedHeader (base64 : ByteCodec isBase64) (credential : ProxyCredential)
    (blanks : Nat) : headerText (utf8 (blankedHeader base64 credential blanks)) =
      some (String.ofList ("Basic".toList ++
        ' ' :: (List.replicate blanks ' ' ++ base64.encode (utf8 credential.text)))) := by
  have hlist : (blankedHeader base64 credential blanks).toList = "Basic".toList ++
      ' ' :: (List.replicate blanks ' ' ++ base64.encode (utf8 credential.text)) := by
    have hscheme : "Basic ".toList = "Basic".toList ++ [' '] := by decide
    have hrest : (String.ofList (List.replicate blanks ' ' ++
        base64.encode (utf8 credential.text))).toList =
        List.replicate blanks ' ' ++ base64.encode (utf8 credential.text) :=
      String.toList_ofList
    rw [blankedHeader, String.toList_append, hscheme, hrest, List.append_assoc]
    rfl
  have hascii : forall c, c ∈ (blankedHeader base64 credential blanks).toList ->
      32 ≤ c.toNat ∧ c.toNat < 127 := by
    intro c hc
    rw [hlist] at hc
    rcases List.mem_append.mp hc with hscheme | hrest
    · have hall : "Basic".toList.all (fun c => 32 ≤ c.toNat && c.toNat < 127) = true := by
        decide
      simpa using List.all_eq_true.mp hall c hscheme
    · rcases List.mem_cons.mp hrest with rfl | hrest
      · decide
      · rcases List.mem_append.mp hrest with hblank | hencoded
        · rw [List.eq_of_mem_replicate hblank]
          decide
        · exact (plain_of_isBase64 (base64.chars _ c hencoded)).left
  rw [headerText_utf8 hascii, ← hlist, String.ofList_toList]

/-- Blanks in front of the encoded credential are trimmed off. -/
theorem presents_blankedHeader (base64 : ByteCodec isBase64) (credential : ProxyCredential)
    (blanks : Nat) :
    Presents base64 credential (utf8 (blankedHeader base64 credential blanks)) := by
  have htrimmed : trimEnds isWhiteSpace
      (List.replicate blanks ' ' ++ base64.encode (utf8 credential.text)) =
      base64.encode (utf8 credential.text) := by
    induction blanks with
    | zero =>
        refine trimEnds_of_ends ?_ ?_
        · intro c hc
          exact (plain_of_isBase64 (base64.chars _ c (List.mem_of_mem_head? hc))).right
        · intro c hc
          exact (plain_of_isBase64 (base64.chars _ c (List.mem_of_mem_getLast? hc))).right
    | succ blanks ih =>
        rw [List.replicate_succ, List.cons_append, trimEnds_cons_of_pos (by decide), ih]
  refine ⟨"Basic".toList, _, headerText_blankedHeader base64 credential blanks, by decide, ?_⟩
  rw [trim_eq, String.toList_ofList, String.toList_ofList, htrimmed, base64.decode_encode]

/-- A share's own header presents its credential. -/
theorem presents_header (base64 : ByteCodec isBase64) (credential : ProxyCredential) :
    Presents base64 credential (credential.header base64) :=
  presents_blankedHeader base64 credential 0

/-- A share's password, once it is asked for. -/
theorem passwordOf_credential {order : SerialTable.QueryOrder ShareRow} {db : DB}
    {later : CredentialIssuer} {secret : MintedSecret} {c : ProxyCredential}
    (h : credential order db issuer share secret = some (c, later)) :
    exists minted, c = ⟨share.text, minted.text⟩ ∧ later.passwordOf share = some minted := by
  unfold credential at h
  split at h
  · cases h
  · cases h
    exact ⟨_, rfl, passwordOf_mintPassword_self⟩

end

/-- In every state of an issuer, exactly the values that present a share's credential are matched
as the share.  A credential that was handed out is matched as its share, and as no other, however
many are minted after it. -/
theorem credentials_identify_shares (base64 : ByteCodec isBase64)
    (mints : List (ShareId × MintedSecret)) :
    (forall value rest share,
      (start.mintAll mints).matchPresentedCredentials (fun s => base64.decode s.toList)
          (value :: rest) = some share <->
        exists secret, (start.mintAll mints).passwordOf share = some secret ∧
          Presents base64 ⟨share.text, secret.text⟩ value) ∧
    forall order db share secret c issuer,
      credential order db (start.mintAll mints) share secret = some (c, issuer) ->
        forall later rest other,
          (issuer.mintAll later).matchPresentedCredentials (fun s => base64.decode s.toList)
            (c.header base64 :: rest) = some other <-> other = share := by
  constructor
  · intro value rest share
    exact matchPresentedCredentials_iff value rest
  · intro order db share secret c issuer hcredential later rest other
    rcases passwordOf_credential hcredential with ⟨minted, rfl, hpassword⟩
    have hmatched : (issuer.mintAll later).matchPresentedCredentials
        (fun s => base64.decode s.toList)
        (ProxyCredential.header base64 ⟨share.text, minted.text⟩ :: rest) = some share :=
      (matchPresentedCredentials_iff _ rest).mpr
        ⟨minted, passwordOf_mintAll hpassword later, presents_header base64 _⟩
    rw [hmatched]
    constructor
    · intro h
      exact (Option.some.inj h).symm
    · intro h
      rw [h]

end CredentialIssuer

/-!
## Padded base64
-/

def base64Value (c : Char) : Option Nat :=
  if 'A' ≤ c ∧ c ≤ 'Z' then some (c.toNat - 'A'.toNat)
  else if 'a' ≤ c ∧ c ≤ 'z' then some (c.toNat - 'a'.toNat + 26)
  else if '0' ≤ c ∧ c ≤ '9' then some (c.toNat - '0'.toNat + 52)
  else if c = '+' then some 62
  else if c = '/' then some 63
  else none

def base64Symbol (n : Nat) : Char :=
  if n < 26 then Char.ofNat ('A'.toNat + n)
  else if n < 52 then Char.ofNat ('a'.toNat + (n - 26))
  else if n < 62 then Char.ofNat ('0'.toNat + (n - 52))
  else if n = 62 then '+' else '/'

def base64Alphabet : Alphabet where
  width := 6
  width_pos := by decide
  width_le := by decide
  symbol := base64Symbol
  value := base64Value
  value_symbol := by decide

def paddedBase64 : ByteCodec isBase64 :=
  base64Alphabet.paddedCodec isBase64 (by decide) (by decide)

example : String.ofList (paddedBase64.encode (utf8 "a:b")) = "YTpi" := by decide

/-- The value is the scheme in any case, a space, and the base64 of the credential. -/
def PresentsExactly (base64 : ByteCodec isBase64) (credential : ProxyCredential)
    (value : List UInt8) : Prop :=
  exists scheme, eqIgnoreAsciiCase (String.ofList scheme) "basic" = true ∧
    headerText value =
      some (String.ofList (scheme ++ ' ' :: base64.encode (utf8 credential.text)))

/-- The issuer of one password. -/
def oneIssuer : CredentialIssuer :=
  CredentialIssuer.start.mintAll [(firstShare, someSecret)]

def firstShareCredential : ProxyCredential where
  username := firstShare.text
  password := someSecret.text

/-- The header with a second space. -/
def spacedHeader : List UInt8 :=
  utf8 ("Basic  " ++ String.ofList (paddedBase64.encode (utf8 firstShareCredential.text)))

/-- A second space is trimmed off, and the header is matched. -/
theorem spaced_header_matched :
    oneIssuer.matchPresentedCredentials (fun s => paddedBase64.decode s.toList) [spacedHeader] =
        some firstShare ∧
      ¬ exists secret, oneIssuer.passwordOf firstShare = some secret ∧
        PresentsExactly paddedBase64 ⟨firstShare.text, secret.text⟩ spacedHeader := by
  have hblanked : spacedHeader =
      utf8 (CredentialIssuer.blankedHeader paddedBase64 firstShareCredential 1) := by
    have hblank : "Basic  " = "Basic " ++ String.ofList [' '] := by decide
    rw [spacedHeader, CredentialIssuer.blankedHeader, hblank, String.append_assoc,
      ← String.ofList_append]
    rfl
  constructor
  · rw [hblanked]
    exact (CredentialIssuer.matchPresentedCredentials_iff _ []).mpr
      ⟨someSecret, rfl, CredentialIssuer.presents_blankedHeader paddedBase64 firstShareCredential 1⟩
  · intro h
    rcases h with ⟨secret, -, scheme, hscheme, htext⟩
    have hspaced : headerText spacedHeader = some (String.ofList ("Basic".toList ++
        ' ' :: ' ' :: paddedBase64.encode (utf8 firstShareCredential.text))) := by
      rw [hblanked]
      exact CredentialIssuer.headerText_blankedHeader paddedBase64 firstShareCredential 1
    rw [hspaced] at htext
    have hlists := String.ofList_inj.mp (Option.some.inj htext)
    have hsplit := congrArg (splitOnce ' ') hlists
    have hblank : ' ' ∉ "Basic".toList := by decide
    rw [splitOnce_append hblank, splitOnce_append (CredentialIssuer.space_not_mem_scheme hscheme)]
      at hsplit
    have hencoded := (Prod.mk.inj (Option.some.inj hsplit)).right
    have hmem : ' ' ∈ paddedBase64.encode
        (utf8 (ProxyCredential.text ⟨firstShare.text, secret.text⟩)) := by
      rw [← hencoded]
      exact List.mem_cons_self
    exact absurd (paddedBase64.chars _ _ hmem) (by decide)

/-- A database with the first share. -/
def firstShareDb : DB :=
  (DB.empty.newRow firstShare 0).elim DB.empty fun p => p.1.markComplete p.2

/-- The credential of the first share is matched after the second share has got its own. -/
theorem first_credential_matched :
    exists c issuer,
      credential SerialTable.QueryOrder.byIdDescending firstShareDb CredentialIssuer.start
        firstShare someSecret = some (c, issuer) ∧
      ((issuer.mintAll [(secondShare, someSecret)]).matchPresentedCredentials
        (fun s => paddedBase64.decode s.toList) [c.header paddedBase64] = some firstShare) := by
  have hcredential : exists issuer,
      credential SerialTable.QueryOrder.byIdDescending firstShareDb CredentialIssuer.start
        firstShare someSecret = some (firstShareCredential, issuer) := by
    exact ⟨_, rfl⟩
  rcases hcredential with ⟨issuer, hcredential⟩
  exact ⟨firstShareCredential, issuer, hcredential,
    ((CredentialIssuer.credentials_identify_shares paddedBase64 []).right _ _ _ _ _ _ hcredential
      [(secondShare, someSecret)] [] firstShare).mpr rfl⟩

end Guest
end WispersAccess
