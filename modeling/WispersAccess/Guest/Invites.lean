import WispersAccess.Foundation.ByteCodec
import WispersAccess.Guest.Storage

/-!
# Invite codes

An invite travels as a text of fields with underscores between them: a prefix,
the tag of a transport, and what that transport needs to join.  Byte strings are
hexadecimal and URLs base32, so that no field has an underscore in it.
-/

namespace WispersAccess
namespace Guest

open Foundation
open Wire (InviteSecret utf8 ofUtf8)

/-!
## Codes and their fields
-/

/-- The short tag in a version-1 invite code. -/
def Transport.tag : Transport -> String
  | wispersConnect => "wc"
  | iroh => "iroh"
  | tailscale => "ts"

def Transport.fromTag (tag : String) : Option Transport :=
  if tag = "wc" then some wispersConnect
  else if tag = "iroh" then some iroh
  else if tag = "ts" then some tailscale
  else none

/-- An iroh endpoint ID: an Ed25519 public key. -/
structure EndpointId where
  bytes : List UInt8
  length_eq : bytes.length = 32
  deriving Repr

instance : DecidableEq EndpointId := fun a b =>
  decidable_of_iff (a.bytes = b.bytes)
    ⟨by
      intro h
      cases a
      cases b
      cases h
      rfl,
    congrArg EndpointId.bytes⟩

/-- An invite, as carried by an invite code. -/
inductive Invite where
  | wispersConnect (registrationToken activationCode : String) (backend : Option String)
  | iroh (endpointId : EndpointId) (secret : InviteSecret)
  deriving DecidableEq

inductive InviteError where
  | notAnInvite
  /-- A transport this parser does not know. -/
  | unsupportedTransport (tag : String)
  | malformed (what : String)
  deriving DecidableEq, Repr

def isLowerHex (c : Char) : Bool :=
  ('0' ≤ c && c ≤ '9') || ('a' ≤ c && c ≤ 'f')

def isBase32 (c : Char) : Bool :=
  ('A' ≤ c && c ≤ 'Z') || ('2' ≤ c && c ≤ '7')

/-- The codecs of the data-encoding crate that invites use. -/
structure DataEncoding where
  /-- Written in lowercase, read in either case. -/
  hex : ByteCodec isLowerHex
  base32 : ByteCodec isBase32

/-- The uppercase of a character.  Of those outside ASCII only the ones whose uppercase is
ASCII change, since base32 takes no others anyway. -/
def upperChar (c : Char) : List Char :=
  match c.toNat with
  | 0xdf => ['S', 'S']
  | 0x131 => ['I']
  | 0x17f => ['S']
  | 0xfb00 => ['F', 'F']
  | 0xfb01 => ['F', 'I']
  | 0xfb02 => ['F', 'L']
  | 0xfb03 => ['F', 'F', 'I']
  | 0xfb04 => ['F', 'F', 'L']
  | 0xfb05 => ['S', 'T']
  | 0xfb06 => ['S', 'T']
  | _ => [c.toUpper]

section
variable (enc : DataEncoding)

/-- URLs in invite codes are lowercase base32 of their UTF-8 bytes. -/
def encodeUrl (url : String) : List Char :=
  (enc.base32.encode (utf8 url)).map Char.toLower

def decodeUrl (field : List Char) : Option String :=
  (enc.base32.decode (field.flatMap upperChar)).bind ofUtf8

/-- Only an `https://` backend is accepted. -/
def decodeBackend (field : List Char) : Except InviteError String :=
  match decodeUrl enc field with
  | none => Except.error (InviteError.malformed "backend is not a base32 URL")
  | some url =>
      if "https://".toList <+: url.toList then Except.ok url
      else Except.error (InviteError.malformed "backend URL must be https://")

/-- The field at a place; a missing one is empty. -/
def fieldAt (fields : List (List Char)) (i : Nat) : List Char :=
  fields[i]?.getD []

def parseWispersConnect (fields : List (List Char)) : Except InviteError Invite :=
  if fieldAt fields 0 = [] then Except.error (InviteError.malformed "missing registration token")
  else if fieldAt fields 1 = [] then
    Except.error (InviteError.malformed "missing activation code")
  else
    match fields[2]? with
    | none =>
        Except.ok (Invite.wispersConnect (String.ofList (fieldAt fields 0))
          (String.ofList (fieldAt fields 1)) none)
    | some field =>
        match decodeBackend enc field with
        | Except.error e => Except.error e
        | Except.ok backend =>
            Except.ok (Invite.wispersConnect (String.ofList (fieldAt fields 0))
              (String.ofList (fieldAt fields 1)) (some backend))

/-- Bytes of the right number, in hexadecimal. -/
def EndpointId.parse (field : List Char) : Option EndpointId :=
  (enc.hex.decode field).bind fun bytes =>
    if h : bytes.length = 32 then some ⟨bytes, h⟩ else none

def parseSecret (field : List Char) : Option InviteSecret :=
  (enc.hex.decode field).bind fun bytes =>
    if h : bytes.length = 16 then some ⟨bytes, h⟩ else none

def parseIroh (fields : List (List Char)) : Except InviteError Invite :=
  match EndpointId.parse enc (fieldAt fields 0) with
  | none => Except.error (InviteError.malformed "endpoint id must be 64 hex digits")
  | some endpointId =>
      match parseSecret enc (fieldAt fields 1) with
      | none => Except.error (InviteError.malformed "secret must be 32 hex digits")
      | some secret => Except.ok (Invite.iroh endpointId secret)

/-- Version 1 is `wax1_<transport tag>_<field>…`, version 0 `wax_<field>…`, for Wispers Connect. -/
def Invite.parse (code : String) : Except InviteError Invite :=
  let code := (trim code).toList
  match code.dropPrefix? "wax1_".toList with
  | some rest =>
      let fields := rest.splitOn '_'
      let tag := String.ofList (fieldAt fields 0)
      if tag = "" then Except.error InviteError.notAnInvite
      else
        match Transport.fromTag tag with
        | some Transport.wispersConnect => parseWispersConnect enc fields.tail
        | some Transport.iroh => parseIroh enc fields.tail
        -- known, but no invite is defined for it
        | some Transport.tailscale => Except.error (InviteError.unsupportedTransport tag)
        | none => Except.error (InviteError.unsupportedTransport tag)
  | none =>
      match code.dropPrefix? "wax_".toList with
      | some rest => parseWispersConnect enc (rest.splitOn '_')
      | none => Except.error InviteError.notAnInvite

/-- The code string for this invite. -/
def Invite.toCode : Invite -> String
  | wispersConnect registrationToken activationCode backend =>
      let base := "wax1_" ++ Transport.wispersConnect.tag ++ "_" ++ registrationToken ++ "_" ++
        activationCode
      match backend with
      | some backend => base ++ "_" ++ String.ofList (encodeUrl enc backend)
      | none => base
  | iroh endpointId secret =>
      "wax1_" ++ Transport.iroh.tag ++ "_" ++ String.ofList (enc.hex.encode endpointId.bytes) ++
        "_" ++ String.ofList (enc.hex.encode secret.bytes)

end

/-!
## What is written
-/

def Invite.transport : Invite -> Transport
  | wispersConnect _ _ _ => Transport.wispersConnect
  | iroh _ _ => Transport.iroh

/-- The fields of an invite behind its tag. -/
def Invite.fields (enc : DataEncoding) : Invite -> List (List Char)
  | wispersConnect registrationToken activationCode backend =>
      [registrationToken.toList, activationCode.toList] ++ (backend.map (encodeUrl enc)).toList
  | iroh endpointId secret => [enc.hex.encode endpointId.bytes, enc.hex.encode secret.bytes]

/-- A field that a code can carry. -/
def IsField (s : String) : Prop :=
  s ≠ "" ∧ '_' ∉ s.toList

/-- A text that a code may end with. -/
def EndsPlain (cs : List Char) : Prop :=
  forall c, cs.getLast? = some c -> isWhiteSpace c = false

/-- An invite whose code reads back as the invite. -/
def Invite.Printable : Invite -> Prop
  | wispersConnect registrationToken activationCode backend =>
      IsField registrationToken ∧ IsField activationCode ∧
        (backend = none -> EndsPlain activationCode.toList) ∧
        forall url, backend = some url -> "https://".toList <+: url.toList
  | iroh _ _ => True

section
variable {enc : DataEncoding}

theorem toList_toCode (i : Invite) :
    (i.toCode enc).toList =
      "wax1_".toList ++ ['_'].intercalate (i.transport.tag.toList :: i.fields enc) := by
  cases i with
  | wispersConnect registrationToken activationCode backend =>
      cases backend with
      | none => simp [Invite.toCode, Invite.fields, Invite.transport]
      | some url => simp [Invite.toCode, Invite.fields, Invite.transport]
  | iroh endpointId secret => simp [Invite.toCode, Invite.fields, Invite.transport]

/-!
## Reading it back
-/

theorem isLowerHex_spec {c : Char} (h : isLowerHex c = true) :
    c ≠ '_' ∧ isWhiteSpace c = false := by
  have hascii : c.toNat < 128 := by
    unfold isLowerHex at h
    simp only [Bool.or_eq_true, Bool.and_eq_true, decide_eq_true_eq] at h
    rcases h with ⟨-, hle⟩ | ⟨-, hle⟩
    · exact Nat.lt_of_le_of_lt hle (by decide)
    · exact Nat.lt_of_le_of_lt hle (by decide)
  have hall : forall c : Char, c.toNat < 128 -> isLowerHex c = true ->
      c ≠ '_' ∧ isWhiteSpace c = false :=
    forall_ascii (by decide)
  exact hall c hascii h

theorem isBase32_spec {c : Char} (h : isBase32 c = true) :
    c.toLower ≠ '_' ∧ isWhiteSpace c.toLower = false ∧ upperChar c.toLower = [c] := by
  have hascii : c.toNat < 128 := by
    unfold isBase32 at h
    simp only [Bool.or_eq_true, Bool.and_eq_true, decide_eq_true_eq] at h
    rcases h with ⟨-, hle⟩ | ⟨-, hle⟩
    · exact Nat.lt_of_le_of_lt hle (by decide)
    · exact Nat.lt_of_le_of_lt hle (by decide)
  have hall : forall c : Char, c.toNat < 128 -> isBase32 c = true ->
      c.toLower ≠ '_' ∧ isWhiteSpace c.toLower = false ∧ upperChar c.toLower = [c] :=
    forall_ascii (by decide)
  exact hall c hascii h

theorem encodeUrl_spec {url : String} {c : Char} (hc : c ∈ encodeUrl enc url) :
    c ≠ '_' ∧ isWhiteSpace c = false := by
  rcases List.mem_map.mp hc with ⟨d, hd, rfl⟩
  have hspec := isBase32_spec (enc.base32.chars _ d hd)
  exact ⟨hspec.left, hspec.right.left⟩

@[simp] theorem decodeUrl_encodeUrl (url : String) :
    decodeUrl enc (encodeUrl enc url) = some url := by
  have hupper : (encodeUrl enc url).flatMap upperChar = enc.base32.encode (utf8 url) := by
    unfold encodeUrl
    rw [List.flatMap_map]
    have hchars : forall cs : List Char, (forall c, c ∈ cs -> isBase32 c = true) ->
        cs.flatMap (fun c => upperChar c.toLower) = cs := by
      intro cs hcs
      induction cs with
      | nil => rfl
      | cons c cs ih =>
          rw [List.flatMap_cons, (isBase32_spec (hcs c List.mem_cons_self)).right.right,
            ih fun d hd => hcs d (List.mem_cons_of_mem c hd)]
          rfl
    exact hchars _ (enc.base32.chars _)
  unfold decodeUrl
  rw [hupper, enc.base32.decode_encode, Option.bind_some, Wire.ofUtf8_utf8]

theorem decodeBackend_encodeUrl {url : String} (h : "https://".toList <+: url.toList) :
    decodeBackend enc (encodeUrl enc url) = Except.ok url := by
  unfold decodeBackend
  rw [decodeUrl_encodeUrl]
  simp only
  rw [if_pos h]

theorem EndpointId.parse_encode (endpointId : EndpointId) :
    EndpointId.parse enc (enc.hex.encode endpointId.bytes) = some endpointId := by
  unfold EndpointId.parse
  rw [enc.hex.decode_encode, Option.bind_some, dif_pos endpointId.length_eq]

theorem parseSecret_encode (secret : InviteSecret) :
    parseSecret enc (enc.hex.encode secret.bytes) = some secret := by
  unfold parseSecret
  rw [enc.hex.decode_encode, Option.bind_some, dif_pos secret.length_eq]

theorem Transport.fromTag_tag (t : Transport) : Transport.fromTag t.tag = some t := by
  cases t <;> rfl

/-- No field of a code has an underscore. -/
theorem Invite.Printable.separated {i : Invite} (h : i.Printable) {field : List Char}
    (hfield : field ∈ i.transport.tag.toList :: i.fields enc) : '_' ∉ field := by
  rcases List.mem_cons.mp hfield with rfl | hfield
  · cases i.transport <;> decide
  · cases i with
    | wispersConnect registrationToken activationCode backend =>
        rcases h with ⟨htoken, hcode, -, -⟩
        rcases List.mem_append.mp hfield with hfield | hfield
        · rcases List.mem_cons.mp hfield with rfl | hfield
          · exact htoken.right
          · rw [List.mem_singleton.mp hfield]
            exact hcode.right
        · rcases Option.mem_toList.mp hfield with hmap
          rcases Option.map_eq_some_iff.mp hmap with ⟨url, -, rfl⟩
          exact fun hmem => (encodeUrl_spec hmem).left rfl
    | iroh endpointId secret =>
        have hhex : forall bytes, '_' ∉ enc.hex.encode bytes :=
          fun bytes hmem => (isLowerHex_spec (enc.hex.chars bytes _ hmem)).left rfl
        rcases List.mem_cons.mp hfield with rfl | hfield
        · exact hhex _
        · rw [List.mem_singleton.mp hfield]
          exact hhex _

theorem endsPlain_append {front field : List Char} (h : EndsPlain field) :
    EndsPlain (front ++ '_' :: field) := by
  intro c hc
  cases hlast : field.getLast? with
  | none =>
      rw [List.getLast?_eq_none_iff.mp hlast, List.getLast?_append] at hc
      cases hc
      decide
  | some d =>
      rw [List.getLast?_append, List.getLast?_cons, hlast] at hc
      cases hc
      exact h d hlast

/-- Nor does a code end with white space. -/
theorem Invite.Printable.endsPlain {i : Invite} (h : i.Printable) :
    EndsPlain (i.toCode enc).toList := by
  have hplain : forall {cs : List Char}, (forall c, c ∈ cs -> isWhiteSpace c = false) ->
      EndsPlain cs := fun hcs c hc => hcs c (List.mem_of_getLast? hc)
  have hends : forall (s t : String), EndsPlain t.toList -> EndsPlain (s ++ "_" ++ t).toList := by
    intro s t ht
    rw [String.toList_append, String.toList_append, List.append_assoc]
    exact endsPlain_append ht
  cases i with
  | wispersConnect registrationToken activationCode backend =>
      rcases h with ⟨-, -, hcode, -⟩
      cases backend with
      | none => exact hends _ _ (hcode rfl)
      | some url =>
          refine hends _ _ ?_
          rw [String.toList_ofList]
          exact hplain fun c hc => (encodeUrl_spec hc).right
  | iroh endpointId secret =>
      refine hends _ _ ?_
      rw [String.toList_ofList]
      exact hplain fun c hc => (isLowerHex_spec (enc.hex.chars _ c hc)).right

theorem dropPrefix?_append (front rest : List Char) :
    (front ++ rest).dropPrefix? front = some rest :=
  List.dropPrefix?_append_of_beq rest (beq_self_eq_true front)

theorem trim_toCode {i : Invite} (h : i.Printable) : trim (i.toCode enc) = i.toCode enc := by
  refine trim_eq_self_of_ends ?_ h.endsPlain
  intro c hc
  rw [toList_toCode] at hc
  cases hc
  decide

/-- The code of an invite is parsed field by field. -/
theorem Invite.parse_toCode_fields {i : Invite} (h : i.Printable) :
    Invite.parse enc (i.toCode enc) =
      match i.transport with
      | Transport.wispersConnect => parseWispersConnect enc (i.fields enc)
      | Transport.iroh => parseIroh enc (i.fields enc)
      | Transport.tailscale =>
          Except.error (InviteError.unsupportedTransport Transport.tailscale.tag) := by
  have hsplit := List.splitOn_intercalate '_' (fun _ hfield => h.separated hfield)
    (List.cons_ne_nil i.transport.tag.toList (i.fields enc))
  have htag : i.transport.tag ≠ "" := by
    cases i.transport <;> decide
  unfold Invite.parse
  rw [trim_toCode h, toList_toCode]
  simp only [dropPrefix?_append, hsplit, fieldAt, List.getElem?_cons_zero, Option.getD_some,
    String.ofList_toList, if_neg htag, Transport.fromTag_tag, List.tail_cons]
  cases i.transport <;> rfl

theorem Invite.parse_toCode {i : Invite} (h : i.Printable) :
    Invite.parse enc (i.toCode enc) = Except.ok i := by
  rw [Invite.parse_toCode_fields h]
  cases i with
  | iroh endpointId secret =>
      show parseIroh enc [enc.hex.encode endpointId.bytes, enc.hex.encode secret.bytes] = _
      simp [parseIroh, fieldAt, EndpointId.parse_encode, parseSecret_encode]
  | wispersConnect registrationToken activationCode backend =>
      rcases h with ⟨htoken, hcode, -, hbackend⟩
      cases backend with
      | none =>
          show parseWispersConnect enc [registrationToken.toList, activationCode.toList] = _
          simp [parseWispersConnect, fieldAt, htoken.left, hcode.left]
      | some url =>
          show parseWispersConnect enc
            [registrationToken.toList, activationCode.toList, encodeUrl enc url] = _
          simp [parseWispersConnect, fieldAt, htoken.left, hcode.left,
            decodeBackend_encodeUrl (hbackend url rfl)]

/-!
## What is accepted
-/

theorem decodeBackend_ok {field : List Char} {url : String}
    (h : decodeBackend enc field = Except.ok url) : "https://".toList <+: url.toList := by
  unfold decodeBackend at h
  split at h
  · cases h
  · split at h
    · cases h
      assumption
    · cases h

theorem isField_ofList {field : List Char} (hne : field ≠ []) (hsep : '_' ∉ field) :
    IsField (String.ofList field) := by
  refine ⟨?_, by rwa [String.toList_ofList]⟩
  intro hempty
  rw [← String.toList_inj, String.toList_ofList] at hempty
  exact hne hempty

/-- What is accepted of fields without underscores, the last of which may end a code, is an
invite whose code reads back. -/
theorem parseWispersConnect_printable {fields : List (List Char)} {i : Invite}
    (h : parseWispersConnect enc fields = Except.ok i)
    (hsep : forall field, field ∈ fields -> '_' ∉ field)
    (hlast : forall field, fields.getLast? = some field -> EndsPlain field) : i.Printable := by
  have hat : forall {n : Nat}, fieldAt fields n ≠ [] ->
      fields[n]? = some (fieldAt fields n) ∧ IsField (String.ofList (fieldAt fields n)) := by
    intro n hne
    have hsome : fields[n]? = some (fieldAt fields n) := by
      unfold fieldAt at hne ⊢
      cases hfield : fields[n]? with
      | none =>
          rw [hfield] at hne
          exact absurd rfl hne
      | some field => rfl
    exact ⟨hsome, isField_ofList hne (hsep _ (List.mem_of_getElem? hsome))⟩
  unfold parseWispersConnect at h
  split at h
  · cases h
  · rename_i htoken
    split at h
    · cases h
    · rename_i hcode
      rcases hat htoken with ⟨-, htoken⟩
      rcases hat hcode with ⟨hsecond, hcode⟩
      split at h
      · rename_i hthird
        cases h
        refine ⟨htoken, hcode, fun _ => ?_, nofun⟩
        -- the activation code is the last field
        rw [String.toList_ofList]
        apply hlast
        have hlength : fields.length = 2 := by
          have hlt := (List.getElem?_eq_some_iff.mp hsecond).1
          have hle := List.getElem?_eq_none_iff.mp hthird
          omega
        rw [List.getLast?_eq_getElem?, hlength]
        exact hsecond
      · split at h
        · cases h
        · rename_i hbackend
          cases h
          refine ⟨htoken, hcode, nofun, ?_⟩
          intro url hurl
          cases hurl
          exact decodeBackend_ok hbackend

theorem parseIroh_printable {fields : List (List Char)} {i : Invite}
    (h : parseIroh enc fields = Except.ok i) : i.Printable := by
  unfold parseIroh at h
  split at h
  · cases h
  · split at h
    · cases h
    · cases h
      trivial

/-- The last field of a trimmed code ends the code. -/
theorem endsPlain_of_splitOn {code : String} {front rest field : List Char}
    (hcode : (trim code).toList = front ++ rest)
    (hlast : (rest.splitOn '_').getLast? = some field) :
    EndsPlain field := by
  intro c hc
  have hne : field ≠ [] := by
    intro heq
    subst heq
    cases hc
  have hends := @getLast?_intercalate _ '_' _ _ hlast hne
  rw [List.intercalate_splitOn, hc] at hends
  refine @getLast?_trim code c ?_
  rw [hcode, List.getLast?_append, hends, Option.some_or]

theorem Invite.parse_printable {code : String} {i : Invite}
    (h : Invite.parse enc code = Except.ok i) : i.Printable := by
  unfold Invite.parse at h
  simp only at h
  split at h
  · rename_i rest hrest
    rcases List.dropPrefix?_eq_some_iff.mp hrest with ⟨front, hcode, -⟩
    split at h
    · cases h
    · split at h
      · refine parseWispersConnect_printable h ?_ ?_
        · exact fun field hfield => not_mem_of_mem_splitOn (List.mem_of_mem_tail hfield)
        · intro field hfield
          refine endsPlain_of_splitOn hcode ?_
          rcases List.exists_cons_of_ne_nil (List.splitOn_ne_nil '_' rest) with
            ⟨tag, fields, hsplit⟩
          rw [hsplit, List.tail_cons] at hfield
          rw [hsplit, List.getLast?_cons, hfield]
          rfl
      · exact parseIroh_printable h
      · cases h
      · cases h
  · split at h
    · rename_i rest hrest
      rcases List.dropPrefix?_eq_some_iff.mp hrest with ⟨front, hcode, -⟩
      refine parseWispersConnect_printable h (fun _ => not_mem_of_mem_splitOn) ?_
      exact fun field hfield => endsPlain_of_splitOn hcode hfield
    · cases h

/-- An invite that is fit to be written down: what a host makes of a token and a code. -/
def Invite.WellFormed : Invite -> Prop
  | wispersConnect registrationToken activationCode backend =>
      IsField registrationToken ∧ trim registrationToken = registrationToken ∧
        IsField activationCode ∧ trim activationCode = activationCode ∧
          forall url, backend = some url -> "https://".toList <+: url.toList
  | iroh _ _ => True

theorem Invite.WellFormed.printable {i : Invite} (h : i.WellFormed) : i.Printable := by
  cases i with
  | wispersConnect registrationToken activationCode backend =>
      rcases h with ⟨htoken, -, hcode, htrim, hbackend⟩
      refine ⟨htoken, hcode, fun _ c hc => ?_, hbackend⟩
      rw [← htrim] at hc
      exact getLast?_trim hc
  | iroh endpointId secret => trivial

end

/-- Well-formed invites read back from their codes, and so do those that were read from any
code at all. -/
theorem invite_codes_round_trip (enc : DataEncoding) :
    (forall i : Invite, i.WellFormed -> Invite.parse enc (i.toCode enc) = Except.ok i) ∧
      forall (code : String) (i : Invite), Invite.parse enc code = Except.ok i ->
        Invite.parse enc (i.toCode enc) = Except.ok i := by
  constructor
  · intro i hi
    exact Invite.parse_toCode hi.printable
  · intro code i hparse
    exact Invite.parse_toCode (Invite.parse_printable hparse)

/-!
## A code of version 0
-/

def hexAlphabet : Alphabet where
  width := 4
  width_pos := by decide
  width_le := by decide
  symbol := Nat.digitChar
  value := hexDigit
  value_symbol := fun _ hn => hexDigit_digitChar hn

def base32Value (c : Char) : Option Nat :=
  if 'A' ≤ c ∧ c ≤ 'Z' then some (c.toNat - 'A'.toNat)
  else if '2' ≤ c ∧ c ≤ '7' then some (c.toNat - '2'.toNat + 26)
  else none

def base32Symbol (n : Nat) : Char :=
  if n < 26 then Char.ofNat ('A'.toNat + n) else Char.ofNat ('2'.toNat + (n - 26))

def base32Alphabet : Alphabet where
  width := 5
  width_pos := by decide
  width_le := by decide
  symbol := base32Symbol
  value := base32Value
  value_symbol := by decide

/-- Lowercase hexadecimal and unpadded base32. -/
def DataEncoding.standard : DataEncoding where
  hex := hexAlphabet.codec isLowerHex (by decide)
  base32 := base32Alphabet.codec isBase32 (by decide)

/-- An old code with a backend in capitals, and its code today. -/
theorem invite_codes_round_trip_for_backend :
    Invite.parse DataEncoding.standard " wax_ab12cd_1-xyz789_NB2HI4DTHIXS62A_more\n" =
        Except.ok (Invite.wispersConnect "ab12cd" "1-xyz789" (some "https://h")) ∧
      Invite.parse DataEncoding.standard "wax1_wc_ab12cd_1-xyz789_nb2hi4dthixs62a" =
        Except.ok (Invite.wispersConnect "ab12cd" "1-xyz789" (some "https://h")) := by
  have hold : Invite.parse DataEncoding.standard " wax_ab12cd_1-xyz789_NB2HI4DTHIXS62A_more\n" =
      Except.ok (Invite.wispersConnect "ab12cd" "1-xyz789" (some "https://h")) := by
    decide +kernel
  have hcode : Invite.toCode DataEncoding.standard
      (Invite.wispersConnect "ab12cd" "1-xyz789" (some "https://h")) =
        "wax1_wc_ab12cd_1-xyz789_nb2hi4dthixs62a" := by
    decide +kernel
  have hback := (invite_codes_round_trip DataEncoding.standard).right _ _ hold
  rw [hcode] at hback
  exact ⟨hold, hback⟩

end Guest
end WispersAccess
