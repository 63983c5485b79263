import Mathlib.Algebra.Group.Nat.Defs
import Mathlib.Data.List.Basic
import Mathlib.Data.List.Induction

/-!
# Length-prefixed frames

A frame is the length of a payload as four bytes, most significant first, and
then the payload.  A reader takes the length, refuses one above its limit, and
takes that many bytes.  Reading gives back what was framed and leaves what comes
after it; a frame that is cut off is never read.
-/

namespace WispersAccess
namespace Foundation

/-!
## Big-endian numbers
-/

/-- The last `width` digits of `n` in base 256, most significant first. -/
def beBytes : Nat -> Nat -> List UInt8
  | 0, _ => []
  | width + 1, n => beBytes width (n / 256) ++ [UInt8.ofNat (n % 256)]

def ofBeBytes (bytes : List UInt8) : Nat :=
  bytes.foldl (fun n b => n * 256 + b.toNat) 0

@[simp] theorem length_beBytes (width n : Nat) : (beBytes width n).length = width := by
  induction width generalizing n with
  | zero => rfl
  | succ width ih => simp [beBytes, ih]

theorem ofBeBytes_append (bytes : List UInt8) (b : UInt8) :
    ofBeBytes (bytes ++ [b]) = ofBeBytes bytes * 256 + b.toNat := by
  simp [ofBeBytes, List.foldl_append]

theorem ofBeBytes_beBytes {width n : Nat} (hn : n < 256 ^ width) :
    ofBeBytes (beBytes width n) = n := by
  induction width generalizing n with
  | zero =>
      have hzero : n = 0 := by simpa using hn
      rw [hzero]
      rfl
  | succ width ih =>
      have hdiv : n / 256 < 256 ^ width := by
        rw [Nat.div_lt_iff_lt_mul (by decide)]
        rwa [Nat.pow_succ] at hn
      have hlast : (UInt8.ofNat (n % 256)).toNat = n % 256 := by
        simp
      rw [beBytes, ofBeBytes_append, ih hdiv, hlast]
      omega

inductive FrameError where
  /-- The stream ends or breaks before the frame does. -/
  | io
  | tooLong (length : Nat)
  /-- The payload is not a message of the expected type. -/
  | decode
  deriving DecidableEq, Repr

/-- The bytes that carry `payload`. -/
def frame (payload : List UInt8) : List UInt8 :=
  beBytes 4 payload.length ++ payload

/-- Take one frame off `input`: its payload, and what follows it. -/
def readFrame (limit : Nat) (input : List UInt8) :
    Except FrameError (List UInt8 × List UInt8) :=
  if input.length < 4 then Except.error FrameError.io
  else
    let length := ofBeBytes (input.take 4)
    let rest := input.drop 4
    if limit < length then Except.error (FrameError.tooLong length)
    else if rest.length < length then Except.error FrameError.io
    else Except.ok (rest.take length, rest.drop length)

theorem length_frame (payload : List UInt8) : (frame payload).length = 4 + payload.length := by
  simp [frame]

theorem readFrame_frame {limit : Nat} {payload : List UInt8} (rest : List UInt8)
    (hlimit : payload.length ≤ limit) (hlength : payload.length < 256 ^ 4) :
    readFrame limit (frame payload ++ rest) = Except.ok (payload, rest) := by
  have htake : (frame payload ++ rest).take 4 = beBytes 4 payload.length := by
    rw [frame, List.append_assoc, List.take_append_of_le_length (by simp),
      List.take_of_length_le (by simp)]
  have hdrop : (frame payload ++ rest).drop 4 = payload ++ rest := by
    rw [frame, List.append_assoc, List.drop_append_of_le_length (by simp),
      List.drop_of_length_le (by simp), List.nil_append]
  have hread : ¬ (frame payload ++ rest).length < 4 := by
    rw [List.length_append, length_frame]
    omega
  unfold readFrame
  rw [if_neg hread]
  simp only [htake, hdrop, ofBeBytes_beBytes hlength]
  rw [if_neg (Nat.not_lt.mpr hlimit), if_neg (by simp)]
  simp

end Foundation
end WispersAccess
