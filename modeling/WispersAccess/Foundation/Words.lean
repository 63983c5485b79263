import WispersAccess.Foundation.ByteCodec
import WispersAccess.Foundation.Texts

/-!
# Machine words

Words of 32 bits as bytes, in either order, and as hexadecimal digits, and parts of
a text at byte offsets.
-/

namespace WispersAccess
namespace Foundation

/-!
## Bytes
-/

/-- The last `width` bytes of `n`, least significant first. -/
def leBytes : Nat -> Nat -> List UInt8
  | 0, _ => []
  | width + 1, n => UInt8.ofNat n :: leBytes width (n / 256)

def leNat : List UInt8 -> Nat
  | [] => 0
  | b :: bs => b.toNat + 256 * leNat bs

@[simp] theorem length_leBytes (width n : Nat) : (leBytes width n).length = width := by
  induction width generalizing n with
  | zero => rfl
  | succ width ih => rw [leBytes, List.length_cons, ih]

theorem leNat_lt (bs : List UInt8) : leNat bs < 256 ^ bs.length := by
  induction bs with
  | nil => decide
  | cons b bs ih =>
      have hb : b.toNat < 256 := b.toNat_lt
      rw [leNat, List.length_cons, Nat.pow_succ]
      omega

theorem leBytes_leNat (bs : List UInt8) : leBytes bs.length (leNat bs) = bs := by
  induction bs with
  | nil => rfl
  | cons b bs ih =>
      have hb : b.toNat < 256 := b.toNat_lt
      have hhead : UInt8.ofNat (b.toNat + 256 * leNat bs) = b := by
        rw [← UInt8.toNat_inj, UInt8.toNat_ofNat']
        omega
      have htail : (b.toNat + 256 * leNat bs) / 256 = leNat bs := by omega
      rw [List.length_cons, leNat, leBytes, hhead, htail, ih]

/-- The order of a machine's bytes. -/
inductive Endian where
  | little
  | big
  deriving DecidableEq, Repr

namespace Endian

/-- Bytes in the machine's order as bytes with the least significant first, and back. -/
def order : Endian -> List UInt8 -> List UInt8
  | little, bs => bs
  | big, bs => bs.reverse

/-- `u32::to_ne_bytes`. -/
def bytes (e : Endian) (word : UInt32) : List UInt8 :=
  e.order (leBytes 4 word.toNat)

/-- `u32::from_ne_bytes`. -/
def word (e : Endian) (bs : List UInt8) : UInt32 :=
  UInt32.ofNat (leNat (e.order bs))

theorem order_order (e : Endian) (bs : List UInt8) : e.order (e.order bs) = bs := by
  cases e with
  | little => rfl
  | big => exact List.reverse_reverse bs

theorem length_order (e : Endian) (bs : List UInt8) : (e.order bs).length = bs.length := by
  cases e with
  | little => rfl
  | big => exact List.length_reverse

/-- Four bytes are the bytes of their word. -/
theorem bytes_word (e : Endian) {bs : List UInt8} (h : bs.length = 4) :
    e.bytes (e.word bs) = bs := by
  have hlength : (e.order bs).length = 4 := by rw [length_order, h]
  have hlt := leNat_lt (e.order bs)
  rw [hlength] at hlt
  have hback := leBytes_leNat (e.order bs)
  rw [hlength] at hback
  unfold bytes word
  rw [UInt32.toNat_ofNat_of_lt' hlt, hback, order_order]

end Endian

/-!
## Hexadecimal words
-/

theorem hexDigit_toUpper (c : Char) : hexDigit c.toUpper = hexDigit c := by
  by_cases hc : c.toNat < 128
  · have hall : forall c : Char, c.toNat < 128 -> hexDigit c.toUpper = hexDigit c :=
      forall_ascii (by decide)
    exact hall c hc
  · unfold Char.toUpper
    split
    · rename_i hlower
      exact absurd (Nat.lt_of_le_of_lt hlower.right (by decide)) hc
    · rfl

theorem hexValue_map_toUpper (cs : List Char) : hexValue (cs.map Char.toUpper) = hexValue cs := by
  unfold hexValue
  rw [List.foldlM_map]
  simp only [hexDigit_toUpper]

/-- A number in capital hexadecimal digits, filled up with zeros. -/
def hexWord (width n : Nat) : List Char :=
  let digits := (Nat.toDigits 16 n).map Char.toUpper
  List.replicate (width - digits.length) '0' ++ digits

theorem hexValue_hexWord (width n : Nat) : hexValue (hexWord width n) = some n := by
  unfold hexWord
  rw [hexValue_replicate_append, hexValue_map_toUpper, hexValue_toDigits]

theorem hexWord_ne_nil (width n : Nat) : hexWord width n ≠ [] := by
  unfold hexWord
  refine List.append_ne_nil_of_right_ne_nil _ ?_
  exact fun h => Nat.toDigits_ne_nil (List.map_eq_nil_iff.mp h)

theorem length_hexWord {width n : Nat} (hwidth : 0 < width) (h : n < 16 ^ width) :
    (hexWord width n).length = width := by
  have hdigits : (Nat.toDigits 16 n).length ≤ width :=
    (Nat.length_toDigits_le_iff (by decide) hwidth).mpr h
  unfold hexWord
  rw [List.length_append, List.length_replicate, List.length_map]
  omega

theorem isSome_hexDigit_of_mem_hexWord {width n : Nat} {c : Char} (h : c ∈ hexWord width n) :
    (hexDigit c).isSome = true :=
  isSome_hexDigit_of_mem (hexValue_hexWord width n) h

theorem utf8Size_of_hexDigit {c : Char} (h : (hexDigit c).isSome = true) : c.utf8Size = 1 := by
  have hascii : c.toNat < 128 := by
    by_cases hc : c.toNat < 128
    · exact hc
    · unfold hexDigit at h
      split at h
      · rename_i hrange
        exact Nat.lt_of_le_of_lt hrange.right (by decide)
      · split at h
        · rename_i hrange
          exact Nat.lt_of_le_of_lt hrange.right (by decide)
        · split at h
          · rename_i hrange
            exact Nat.lt_of_le_of_lt hrange.right (by decide)
          · cases h
  have hall : forall c : Char, c.toNat < 128 -> c.utf8Size = 1 := forall_ascii (by decide)
  exact hall c hascii

/-- `from_str_radix(s, 16)`: a sign is taken, an empty text and an overflow are not. -/
def parseHex (bound : Nat) (cs : List Char) : Option Nat :=
  if stripSign cs = [] then none
  else (hexValue (stripSign cs)).bind fun n => if n < bound then some n else none

def parseHexU16 (cs : List Char) : Option UInt16 :=
  (parseHex (2 ^ 16) cs).map UInt16.ofNat

def parseHexU32 (cs : List Char) : Option UInt32 :=
  (parseHex (2 ^ 32) cs).map UInt32.ofNat

theorem parseHex_hexWord {bound n : Nat} (h : n < bound) (width : Nat) :
    parseHex bound (hexWord width n) = some n := by
  have hvalue := hexValue_hexWord width n
  unfold parseHex
  rw [stripSign_of_hexValue hvalue, if_neg (hexWord_ne_nil width n), hvalue, Option.bind_some,
    if_pos h]

theorem parseHexU16_hexWord (width : Nat) (n : UInt16) :
    parseHexU16 (hexWord width n.toNat) = some n := by
  unfold parseHexU16
  rw [parseHex_hexWord n.toNat_lt, Option.map_some, UInt16.ofNat_toNat]

theorem parseHexU32_hexWord (width : Nat) (n : UInt32) :
    parseHexU32 (hexWord width n.toNat) = some n := by
  unfold parseHexU32
  rw [parseHex_hexWord n.toNat_lt, Option.map_some, UInt32.ofNat_toNat]

/-- `u32::from_str`: a sign is taken, an empty text and an overflow are not. -/
def parseU32 (cs : List Char) : Option UInt32 :=
  if stripSign cs = [] then none
  else
    (decimalValue (stripSign cs)).bind fun n =>
      if n < 2 ^ 32 then some (UInt32.ofNat n) else none

theorem parseU32_toDigits (n : UInt32) : parseU32 (Nat.toDigits 10 n.toNat) = some n := by
  unfold parseU32
  rw [stripSign_toDigits, if_neg Nat.toDigits_ne_nil,
    decimalValue_of_digits fun c hc => isDigit_of_mem_toDigits hc, Nat.ofDigitChars_ten_toDigits,
    Option.bind_some, if_pos n.toNat_lt, UInt32.ofNat_toNat]

/-!
## Byte offsets
-/

/-- `str::len`. -/
def utf8Length : List Char -> Nat
  | [] => 0
  | c :: cs => c.utf8Size + utf8Length cs

/-- What follows the first `n` bytes, if a character ends there. -/
def dropBytes (n : Nat) : List Char -> Option (List Char)
  | [] => if n = 0 then some [] else none
  | c :: cs =>
      if n = 0 then some (c :: cs)
      else if c.utf8Size ≤ n then dropBytes (n - c.utf8Size) cs
      else none

/-- The first `n` bytes, if a character ends there. -/
def takeBytes (n : Nat) : List Char -> Option (List Char)
  | [] => if n = 0 then some [] else none
  | c :: cs =>
      if n = 0 then some []
      else if c.utf8Size ≤ n then (takeBytes (n - c.utf8Size) cs).map fun rest => c :: rest
      else none

/-- `str::get` of a range. -/
def textGet (cs : List Char) (start stop : Nat) : Option (List Char) :=
  (dropBytes start cs).bind (takeBytes (stop - start))

section
variable {cs : List Char}

theorem utf8Length_of_single (h : forall c, c ∈ cs -> c.utf8Size = 1) :
    utf8Length cs = cs.length := by
  induction cs with
  | nil => rfl
  | cons c cs ih =>
      rw [utf8Length, h c List.mem_cons_self, ih fun d hd => h d (List.mem_cons_of_mem _ hd),
        List.length_cons, Nat.add_comm]

theorem dropBytes_of_single (h : forall c, c ∈ cs -> c.utf8Size = 1) {n : Nat}
    (hn : n ≤ cs.length) : dropBytes n cs = some (cs.drop n) := by
  induction cs generalizing n with
  | nil =>
      have hzero : n = 0 := Nat.le_zero.mp hn
      rw [hzero]
      rfl
  | cons c cs ih =>
      cases n with
      | zero => rfl
      | succ n =>
          have hrest := ih (fun d hd => h d (List.mem_cons_of_mem _ hd)) (Nat.le_of_succ_le_succ hn)
          rw [dropBytes, if_neg (Nat.succ_ne_zero n), h c List.mem_cons_self,
            if_pos (Nat.le_add_left 1 n), Nat.add_sub_cancel, hrest, List.drop_succ_cons]

theorem takeBytes_of_single (h : forall c, c ∈ cs -> c.utf8Size = 1) {n : Nat}
    (hn : n ≤ cs.length) : takeBytes n cs = some (cs.take n) := by
  induction cs generalizing n with
  | nil =>
      have hzero : n = 0 := Nat.le_zero.mp hn
      rw [hzero]
      rfl
  | cons c cs ih =>
      cases n with
      | zero => rfl
      | succ n =>
          have hrest := ih (fun d hd => h d (List.mem_cons_of_mem _ hd)) (Nat.le_of_succ_le_succ hn)
          rw [takeBytes, if_neg (Nat.succ_ne_zero n), h c List.mem_cons_self,
            if_pos (Nat.le_add_left 1 n), Nat.add_sub_cancel, hrest, List.take_succ_cons]
          rfl

/-- Where every character is one byte, offsets count characters. -/
theorem textGet_of_single (h : forall c, c ∈ cs -> c.utf8Size = 1) {start stop : Nat}
    (hstart : start ≤ stop) (hstop : stop ≤ cs.length) :
    textGet cs start stop = some ((cs.drop start).take (stop - start)) := by
  unfold textGet
  rw [dropBytes_of_single h (Nat.le_trans hstart hstop), Option.bind_some]
  refine takeBytes_of_single (fun c hc => h c (List.mem_of_mem_drop hc)) ?_
  rw [List.length_drop]
  exact Nat.sub_le_sub_right hstop start

end

/-- What is found at every place of a list is the list. -/
theorem mapM_range_of_getElem? {α : Type _} {f : Nat -> Option α} {xs : List α}
    (h : forall i, i < xs.length -> f i = xs[i]?) : (List.range xs.length).mapM f = some xs := by
  induction xs using List.reverseRecOn with
  | nil => rfl
  | append_singleton xs x ih =>
      have hfront : forall i, i < xs.length -> f i = xs[i]? := by
        intro i hi
        have hlonger : i < (xs ++ [x]).length := by
          rw [List.length_append]
          exact Nat.lt_add_right _ hi
        rw [h i hlonger, List.getElem?_append_left hi]
      have hlast : f xs.length = some x := by
        have hin : xs.length < (xs ++ [x]).length := by simp
        rw [h _ hin]
        simp
      rw [List.length_append, List.length_singleton, List.range_succ, List.mapM_append,
        ih hfront]
      simp [hlast]

end Foundation
end WispersAccess
