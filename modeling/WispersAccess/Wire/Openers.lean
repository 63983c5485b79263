import WispersAccess.Foundation.Chunks
import WispersAccess.Wire.Documents

/-!
# Opening streams

A guest opens a stream with its type byte and, on the data plane, a preamble as
one framed message.  The host reads them off as the bytes come in.
-/

namespace WispersAccess
namespace Wire

open Foundation

/-!
## Preambles as documents
-/

def ReverseProxyPreamble.toJson (preamble : ReverseProxyPreamble) : Json :=
  Json.obj [("app_id", Json.str preamble.appId)]

def ReverseProxyPreamble.ofJson (j : Json) : Option ReverseProxyPreamble := do
  let fields <- j.readFields
  let appId <- Json.required Json.readText "app_id" fields
  return { appId }

def ForwardProxyPreamble.toJson (preamble : ForwardProxyPreamble) : Json :=
  Json.obj [("host", Json.str preamble.host), ("port", Json.num preamble.port.toNat)]

/-- A number in the range of a port. -/
def readPort : Json -> Option UInt16
  | Json.num n => if 0 ≤ n ∧ n.toNat < UInt16.size then some (UInt16.ofNat n.toNat) else none
  | _ => none

def ForwardProxyPreamble.ofJson (j : Json) : Option ForwardProxyPreamble := do
  let fields <- j.readFields
  let host <- Json.required Json.readText "host" fields
  let port <- Json.required readPort "port" fields
  return { host, port }

@[simp] theorem ReverseProxyPreamble.ofJson_toJson (preamble : ReverseProxyPreamble) :
    ReverseProxyPreamble.ofJson preamble.toJson = some preamble := by
  simp [toJson, ofJson, Json.readFields, Json.required, Json.field, Json.readText]

theorem readPort_num (port : UInt16) : readPort (Json.num port.toNat) = some port := by
  have hport : 0 ≤ (port.toNat : Int) ∧ (port.toNat : Int).toNat < UInt16.size := by
    constructor
    · exact Int.natCast_nonneg _
    · rw [Int.toNat_natCast]
      exact port.toNat_lt_size
  show (if 0 ≤ (port.toNat : Int) ∧ (port.toNat : Int).toNat < UInt16.size then
    some (UInt16.ofNat (port.toNat : Int).toNat) else none) = some port
  rw [if_pos hport, Int.toNat_natCast, UInt16.ofNat_toNat]

@[simp] theorem ForwardProxyPreamble.ofJson_toJson (preamble : ForwardProxyPreamble) :
    ForwardProxyPreamble.ofJson preamble.toJson = some preamble := by
  have hport := readPort_num preamble.port
  unfold toJson ofJson
  generalize Json.num preamble.port.toNat = port at hport ⊢
  simp [Json.readFields, Json.required, Json.field, Json.readText, hport]

/-!
## The guest's side
-/

/-- A stream that a guest writes to, which may break after some bytes. -/
structure Writer where
  written : List UInt8
  breaksAfter : Option Nat
  deriving DecidableEq, Repr

def Writer.fresh (breaksAfter : Option Nat) : Writer where
  written := []
  breaksAfter := breaksAfter

inductive WriteError where
  | io
  /-- The `expect` that a length fits 32 bits. -/
  | tooLong
  deriving DecidableEq, Repr

def Writer.writeAll (w : Writer) (bytes : List UInt8) : Except WriteError Writer :=
  match w.breaksAfter with
  | none => Except.ok { w with written := w.written ++ bytes }
  | some room =>
      if bytes.length ≤ room then
        Except.ok { written := w.written ++ bytes, breaksAfter := some (room - bytes.length) }
      else Except.error WriteError.io

/-- Write the type byte that opens a stream. -/
def writeStreamType (w : Writer) (t : StreamType) : Except WriteError Writer :=
  w.writeAll [t.byte]

/-- Write one message: its length, then its JSON. -/
def sendMessage (w : Writer) (json : List UInt8) : Except WriteError Writer := do
  if 2 ^ 32 ≤ json.length then throw WriteError.tooLong
  let w <- w.writeAll (beBytes 4 json.length)
  w.writeAll json

section
variable (text : JsonText)

def openReverseProxyStream (w : Writer) (appId : String) : Except WriteError Writer := do
  let w <- writeStreamType w StreamType.reverseProxy
  sendMessage w (encodeJson text (ReverseProxyPreamble.toJson { appId }))

def openForwardProxyStream (w : Writer) (host : String) (port : UInt16) :
    Except WriteError Writer := do
  let w <- writeStreamType w StreamType.forwardProxy
  sendMessage w (encodeJson text (ForwardProxyPreamble.toJson { host, port }))

end

/-!
## The host's side
-/

/-- Read one message as its bytes come in; the second part is what stays unread. -/
def readMessageFrom {M : Type} (decode : List UInt8 -> Option M) (chunks : List (List UInt8)) :
    Except FrameError M × List (List UInt8) :=
  match readExact 4 chunks with
  | none => (Except.error FrameError.io, [])
  | some (head, rest) =>
      let length := ofBeBytes head
      if maxMessageLen < length then (Except.error (FrameError.tooLong length), rest)
      else
        match readExact length rest with
        | none => (Except.error FrameError.io, [])
        | some (payload, rest) =>
            match decode payload with
            | none => (Except.error FrameError.decode, rest)
            | some m => (Except.ok m, rest)

/-- The pieces make no difference to the message or to what stays unread. -/
theorem readMessageFrom_flatten {M : Type} (decode : List UInt8 -> Option M)
    (chunks : List (List UInt8)) :
    (readMessageFrom decode chunks).1 = (readMessage decode chunks.flatten).1 ∧
      (readMessageFrom decode chunks).2.flatten = (readMessage decode chunks.flatten).2 := by
  unfold readMessageFrom readMessage readFrame
  cases hhead : readExact 4 chunks with
  | none =>
      rw [if_pos (readExact_eq_none_iff.mp hhead)]
      constructor <;> rfl
  | some p =>
      rcases p with ⟨head, rest⟩
      rcases readExact_some hhead with ⟨hflat, hfour⟩
      have hlong : ¬ chunks.flatten.length < 4 := by
        rw [hflat, List.length_append]
        omega
      have htake : chunks.flatten.take 4 = head := by
        rw [hflat, List.take_left' hfour]
      have hdrop : chunks.flatten.drop 4 = rest.flatten := by
        rw [hflat, List.drop_left' hfour]
      rw [if_neg hlong, htake, hdrop]
      by_cases hlimit : maxMessageLen < ofBeBytes head
      · simp only [if_pos hlimit, and_self]
      · simp only [if_neg hlimit]
        cases hpayload : readExact (ofBeBytes head) rest with
        | none =>
            rw [if_pos (readExact_eq_none_iff.mp hpayload)]
            constructor <;> rfl
        | some q =>
            rcases q with ⟨payload, after⟩
            rcases readExact_some hpayload with ⟨hrest, hlength⟩
            have henough : ¬ rest.flatten.length < ofBeBytes head := by
              rw [hrest, List.length_append]
              omega
            rw [if_neg henough, hrest, List.take_left' hlength, List.drop_left' hlength]
            cases hdecode : decode payload <;> simp only [hdecode, and_self]

/-- A message that is too long is refused after its length. -/
theorem readMessage_tooLong {M : Type} (decode : List UInt8 -> Option M) {json : List UInt8}
    (hlimit : maxMessageLen < json.length) (hlength : json.length < 256 ^ 4)
    (rest : List UInt8) :
    readMessage decode (writeMessage json ++ rest) =
      (Except.error (FrameError.tooLong json.length), json ++ rest) := by
  have hfour : (beBytes 4 json.length).length = 4 := length_beBytes 4 _
  have hwhole : writeMessage json ++ rest = beBytes 4 json.length ++ (json ++ rest) := by
    rw [writeMessage, frame, List.append_assoc]
  have hlong : ¬ (writeMessage json ++ rest).length < 4 := by
    rw [hwhole, List.length_append]
    omega
  have htake : (writeMessage json ++ rest).take 4 = beBytes 4 json.length := by
    rw [hwhole, List.take_left' hfour]
  have hdrop : (writeMessage json ++ rest).drop 4 = json ++ rest := by
    rw [hwhole, List.drop_left' hfour]
  have hread : readFrame maxMessageLen (writeMessage json ++ rest) =
      Except.error (FrameError.tooLong json.length) := by
    unfold readFrame
    rw [if_neg hlong]
    simp only [htake, ofBeBytes_beBytes hlength]
    rw [if_pos hlimit]
  unfold readMessage
  rw [hread]
  simp only [hdrop]

/-!
## What an opener writes
-/

theorem Writer.writeAll_ok {w w' : Writer} {bytes : List UInt8}
    (h : w.writeAll bytes = Except.ok w') : w'.written = w.written ++ bytes := by
  unfold Writer.writeAll at h
  split at h
  · cases h
    rfl
  · split at h
    · cases h
      rfl
    · cases h

theorem Writer.writeAll_unbroken (written bytes : List UInt8) :
    Writer.writeAll { written := written, breaksAfter := none } bytes =
      Except.ok { written := written ++ bytes, breaksAfter := none } :=
  rfl

/-- What a message takes, where it is written at all. -/
theorem sendMessage_ok {w w' : Writer} {json : List UInt8}
    (h : sendMessage w json = Except.ok w') :
    w'.written = w.written ++ writeMessage json ∧ json.length < 2 ^ 32 := by
  unfold sendMessage at h
  split at h
  · cases h
  · rename_i hlength
    cases hhead : w.writeAll (beBytes 4 json.length) with
    | error e =>
        simp only [hhead, bind, Except.bind] at h
        cases h
    | ok headed =>
        simp only [hhead, bind, Except.bind] at h
        constructor
        · rw [Writer.writeAll_ok h, Writer.writeAll_ok hhead, writeMessage, frame,
            List.append_assoc]
        · exact Nat.not_le.mp hlength

/-- On a stream that does not break, only the length can be in the way. -/
theorem sendMessage_unbroken {written json : List UInt8} (hlength : json.length < 2 ^ 32) :
    sendMessage { written := written, breaksAfter := none } json =
      Except.ok { written := written ++ writeMessage json, breaksAfter := none } := by
  unfold sendMessage
  rw [if_neg (Nat.not_le.mpr hlength)]
  simp only [bind, Except.bind, Writer.writeAll_unbroken, writeMessage, frame,
    List.append_assoc]

end Wire
end WispersAccess
