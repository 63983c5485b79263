import WispersAccess.Foundation.CompactJson
import WispersAccess.Host.Protocol
import WispersAccess.Wire.Openers

/-!
# Openers and readers of streams

A guest opens a data-plane stream and goes on with the bytes of a request; the
host reads the type byte and the preamble off it.  The opener has no limit on
what it writes and the reader has one, so that they agree up to that limit.
-/

namespace WispersAccess
namespace Host

open Foundation
open Wire (FirstByte StreamType ReverseProxyPreamble ForwardProxyPreamble Writer WriteError
  writeStreamType sendMessage writeMessage readMessageFrom maxMessageLen encodeJson decodeJson
  openReverseProxyStream openForwardProxyStream utf8)

/-- Read the type byte of a stream as its bytes come in. -/
def readStreamTypeFrom (chunks : List (List UInt8)) (ended : StreamEnd) :
    Except HandleError (Option FirstByte × List (List UInt8)) :=
  match readExact 1 chunks with
  | some (first, rest) => Except.ok (first.head?.map FirstByte.ofByte, rest)
  | none =>
      match ended with
      | StreamEnd.fin => Except.ok (none, [])
      | StreamEnd.reset => Except.error HandleError.streamType

/-- The pieces make no difference to the type. -/
theorem readStreamTypeFrom_flatten (chunks : List (List UInt8)) (ended : StreamEnd) :
    (readStreamTypeFrom chunks ended).map (fun p => (p.1, p.2.flatten)) =
      readStreamType { bytes := chunks.flatten, ended := ended } := by
  unfold readStreamTypeFrom readStreamType
  cases hread : readExact 1 chunks with
  | none =>
      have hempty : chunks.flatten = [] :=
        List.eq_nil_of_length_eq_zero (Nat.lt_one_iff.mp (readExact_eq_none_iff.mp hread))
      rw [hempty]
      cases ended <;> rfl
  | some p =>
      rcases p with ⟨xs, rest⟩
      rcases readExact_some hread with ⟨hflat, hone⟩
      rcases List.length_eq_one_iff.mp hone with ⟨first, rfl⟩
      rw [hflat]
      rfl

/-!
## Agreement
-/

section
variable {M : Type} (openStream : Writer -> Except WriteError Writer) (t : StreamType)
  (decode : List UInt8 -> Option M) (preamble : M)

/-- Whenever the opener succeeds, the host reads the type and the preamble it wrote, and
leaves what follows, however the bytes come in. -/
def ReadsBack : Prop :=
  forall (breaksAfter : Option Nat) (opened : Writer) (following : List UInt8)
    (chunks : List (List UInt8)) (ended : StreamEnd),
    openStream (Writer.fresh breaksAfter) = Except.ok opened ->
      chunks.flatten = opened.written ++ following ->
        exists afterType afterPreamble,
          readStreamTypeFrom chunks ended =
            Except.ok (some (FirstByte.typed t), afterType) ∧
          readMessageFrom decode afterType = (Except.ok preamble, afterPreamble) ∧
          afterPreamble.flatten = following

end

/-- The type byte is read back, however the bytes come in. -/
theorem readStreamTypeFrom_typed {t : StreamType} {chunks : List (List UInt8)}
    {rest : List UInt8} (hflat : chunks.flatten = t.byte :: rest) (ended : StreamEnd) :
    exists afterType,
      readStreamTypeFrom chunks ended = Except.ok (some (FirstByte.typed t), afterType) ∧
        afterType.flatten = rest := by
  rcases @exists_readExact _ 1 chunks [t.byte] rest hflat rfl with ⟨afterType, hread, hrest⟩
  refine ⟨afterType, ?_, hrest⟩
  unfold readStreamTypeFrom
  rw [hread]
  show Except.ok (some (FirstByte.ofByte t.byte), afterType) = _
  rw [Wire.firstByte_ofByte_byte]

/-- A stream is opened with the type byte and one message. -/
def openWith (t : StreamType) (json : List UInt8) (w : Writer) : Except WriteError Writer := do
  let w <- writeStreamType w t
  sendMessage w json

theorem openWith_ok {t : StreamType} {json : List UInt8} {breaksAfter : Option Nat}
    {opened : Writer} (h : openWith t json (Writer.fresh breaksAfter) = Except.ok opened) :
    opened.written = t.byte :: writeMessage json ∧ json.length < 2 ^ 32 := by
  unfold openWith at h
  cases htyped : writeStreamType (Writer.fresh breaksAfter) t with
  | error e =>
      simp only [htyped, bind, Except.bind] at h
      cases h
  | ok typed =>
      simp only [htyped, bind, Except.bind] at h
      have hbyte : typed.written = [t.byte] := Writer.writeAll_ok htyped
      rcases Wire.sendMessage_ok h with ⟨hwritten, hlength⟩
      rw [hwritten, hbyte]
      exact ⟨rfl, hlength⟩

theorem openWith_unbroken {t : StreamType} {json : List UInt8} (hlength : json.length < 2 ^ 32) :
    openWith t json (Writer.fresh none) =
      Except.ok { written := t.byte :: writeMessage json, breaksAfter := none } := by
  have hsent := @Wire.sendMessage_unbroken [t.byte] json hlength
  exact hsent

/-- A message within the reader's limit is read back. -/
theorem readsBack_of_length_le {M : Type} {t : StreamType} {json : List UInt8}
    {decode : List UInt8 -> Option M} {preamble : M} (hdecode : decode json = some preamble)
    (hlimit : json.length ≤ maxMessageLen) :
    ReadsBack (openWith t json) t decode preamble := by
  intro breaksAfter opened following chunks ended hopen hflat
  rw [(openWith_ok hopen).left, List.cons_append] at hflat
  rcases readStreamTypeFrom_typed hflat ended with ⟨afterType, htype, hrest⟩
  rcases hmessage : readMessageFrom decode afterType with ⟨result, afterPreamble⟩
  rcases Wire.readMessageFrom_flatten decode afterType with ⟨hresult, hunread⟩
  rw [hrest, Wire.readMessage_writeMessage hdecode hlimit, hmessage] at hresult hunread
  have hok : result = Except.ok preamble := hresult
  exact ⟨afterType, afterPreamble, htype, by rw [hmessage, hok], hunread⟩

/-- A message beyond it is written, and refused. -/
theorem refused_of_lt_length {M : Type} (t : StreamType) {json : List UInt8}
    (decode : List UInt8 -> Option M) (hlimit : maxMessageLen < json.length)
    (hlength : json.length < 2 ^ 32) :
    exists opened afterType,
      openWith t json (Writer.fresh none) = Except.ok opened ∧
      readStreamTypeFrom [opened.written] StreamEnd.fin =
        Except.ok (some (FirstByte.typed t), afterType) ∧
      (readMessageFrom decode afterType).1 = Except.error (FrameError.tooLong json.length) := by
  rcases readStreamTypeFrom_typed (List.flatten_singleton ..) StreamEnd.fin with
    ⟨afterType, htype, hrest⟩
  have hrefused := Wire.readMessage_tooLong decode hlimit hlength []
  rw [List.append_nil] at hrefused
  refine ⟨_, afterType, openWith_unbroken hlength, htype, ?_⟩
  rw [(Wire.readMessageFrom_flatten decode afterType).left, hrest, hrefused]

theorem not_readsBack_of_lt_length {M : Type} {t : StreamType} {json : List UInt8}
    {decode : List UInt8 -> Option M} {preamble : M} (hlimit : maxMessageLen < json.length)
    (hlength : json.length < 2 ^ 32) : ¬ ReadsBack (openWith t json) t decode preamble := by
  intro hreads
  rcases refused_of_lt_length t decode hlimit hlength with
    ⟨opened, afterType, hopen, htype, hrefused⟩
  have hflat : [opened.written].flatten = opened.written ++ [] := by
    simp
  rcases hreads none opened [] [opened.written] StreamEnd.fin hopen hflat with
    ⟨afterType', afterPreamble, htype', hmessage, _⟩
  rw [htype] at htype'
  cases htype'
  rw [hmessage] at hrefused
  cases hrefused

/-- Openers and readers agree up to the reader's limit, and where nothing can be written. -/
theorem readsBack_openWith_iff {M : Type} {t : StreamType} {json : List UInt8}
    {decode : List UInt8 -> Option M} {preamble : M} (hdecode : decode json = some preamble) :
    ReadsBack (openWith t json) t decode preamble <->
      json.length ≤ maxMessageLen ∨ 2 ^ 32 ≤ json.length := by
  constructor
  · intro hreads
    by_cases hlimit : json.length ≤ maxMessageLen
    · exact Or.inl hlimit
    · by_cases hlength : json.length < 2 ^ 32
      · exact absurd hreads (not_readsBack_of_lt_length (Nat.not_le.mp hlimit) hlength)
      · exact Or.inr (Nat.not_lt.mp hlength)
  · intro h
    rcases h with hlimit | hlength
    · exact readsBack_of_length_le hdecode hlimit
    · intro breaksAfter opened following chunks ended hopen _
      exact absurd (openWith_ok hopen).right (Nat.not_lt.mpr hlength)

/-!
## The two openers
-/

/-- A preamble is read back if and only if its JSON is within the reader's limit, or so long
that the opener cannot write its length. -/
theorem openers_and_readers_agree_iff (text : JsonText) :
    (forall appId : String,
      ReadsBack (fun w => openReverseProxyStream text w appId) StreamType.reverseProxy
          (decodeJson text ReverseProxyPreamble.ofJson) { appId } <->
        (encodeJson text (ReverseProxyPreamble.toJson { appId })).length ≤ maxMessageLen ∨
          2 ^ 32 ≤ (encodeJson text (ReverseProxyPreamble.toJson { appId })).length) ∧
    forall (host : String) (port : UInt16),
      ReadsBack (fun w => openForwardProxyStream text w host port) StreamType.forwardProxy
          (decodeJson text ForwardProxyPreamble.ofJson) { host, port } <->
        (encodeJson text (ForwardProxyPreamble.toJson { host, port })).length ≤ maxMessageLen ∨
          2 ^ 32 ≤ (encodeJson text (ForwardProxyPreamble.toJson { host, port })).length := by
  constructor
  · intro appId
    exact readsBack_openWith_iff
      (Wire.decodeJson_encodeJson (ReverseProxyPreamble.ofJson_toJson { appId }) text)
  · intro host port
    exact readsBack_openWith_iff
      (Wire.decodeJson_encodeJson (ForwardProxyPreamble.ofJson_toJson { host, port }) text)

/-!
## A preamble the host refuses
-/

theorem length_utf8_ofList {cs : List Char} (h : forall c, c ∈ cs -> c.utf8Size = 1) :
    (utf8 (String.ofList cs)).length = cs.length := by
  have hbytes : utf8 (String.ofList cs) = cs.flatMap String.utf8EncodeChar := by
    simp [utf8, List.utf8Encode]
  have hsizes : cs.map Char.utf8Size = cs.map fun _ => 1 := List.map_congr_left h
  rw [hbytes, List.length_flatMap]
  simp only [String.length_utf8EncodeChar, hsizes, List.map_const', List.sum_replicate_nat,
    Nat.mul_one]

/-- An app id of one letter, over and over. -/
def longAppId (n : Nat) : String :=
  String.ofList (List.replicate n 'a')

theorem length_encodeJson_longAppId (n : Nat) :
    (encodeJson Json.compact (ReverseProxyPreamble.toJson { appId := longAppId n })).length =
      n + 13 := by
  have hescape : (List.replicate n 'a').flatMap Json.escape = List.replicate n 'a' := by
    induction n with
    | zero => rfl
    | succ n ih => rw [List.replicate_succ, List.flatMap_cons, ih]; rfl
  have hprinted : Json.printValue (ReverseProxyPreamble.toJson { appId := longAppId n }) =
      "\x7b\"app_id\":\"".toList ++ List.replicate n 'a' ++ "\"\x7d".toList := by
    simp [longAppId, ReverseProxyPreamble.toJson, Json.printValue, Json.printMembers, Json.quote,
      hescape]
    rfl
  have hbefore : "\x7b\"app_id\":\"".toList.all (fun c => c.utf8Size = 1) = true := by decide
  have hafter : "\"\x7d".toList.all (fun c => c.utf8Size = 1) = true := by decide
  have hascii : forall c,
      c ∈ "\x7b\"app_id\":\"".toList ++ List.replicate n 'a' ++ "\"\x7d".toList ->
        c.utf8Size = 1 := by
    intro c hc
    simp only [List.mem_append, List.mem_replicate] at hc
    rcases hc with (hopen | ⟨_, rfl⟩) | hclose
    · exact of_decide_eq_true (List.all_eq_true.mp hbefore c hopen)
    · rfl
    · exact of_decide_eq_true (List.all_eq_true.mp hafter c hclose)
  show (utf8 (String.ofList (Json.printValue _))).length = n + 13
  rw [hprinted, length_utf8_ofList hascii]
  simp only [List.length_append, List.length_replicate]
  show 11 + n + 2 = n + 13
  omega

/-- The opener writes an app id of 64 KiB, and the host refuses its preamble. -/
theorem long_app_id_is_refused :
    (exists opened afterType, openReverseProxyStream Json.compact (Writer.fresh none)
        (longAppId 65536) = Except.ok opened ∧
      readStreamTypeFrom [opened.written] StreamEnd.fin =
        Except.ok (some (FirstByte.typed StreamType.reverseProxy), afterType) ∧
      (readMessageFrom (decodeJson Json.compact ReverseProxyPreamble.ofJson) afterType).1 =
        Except.error (FrameError.tooLong 65549)) ∧
    ¬ ReadsBack (fun w => openReverseProxyStream Json.compact w (longAppId 65536))
      StreamType.reverseProxy (decodeJson Json.compact ReverseProxyPreamble.ofJson)
      { appId := longAppId 65536 } := by
  have hlength := length_encodeJson_longAppId 65536
  have hlimit : maxMessageLen <
      (encodeJson Json.compact
        (ReverseProxyPreamble.toJson { appId := longAppId 65536 })).length := by
    rw [hlength]
    unfold maxMessageLen
    omega
  have hwritten :
      (encodeJson Json.compact (ReverseProxyPreamble.toJson { appId := longAppId 65536 })).length <
        2 ^ 32 := by
    rw [hlength]
    omega
  constructor
  · rcases refused_of_lt_length StreamType.reverseProxy
      (decodeJson Json.compact ReverseProxyPreamble.ofJson) hlimit hwritten with
      ⟨opened, afterType, hopen, htype, hrefused⟩
    rw [hlength] at hrefused
    exact ⟨opened, afterType, hopen, htype, hrefused⟩
  · exact not_readsBack_of_lt_length hlimit hwritten

end Host
end WispersAccess
