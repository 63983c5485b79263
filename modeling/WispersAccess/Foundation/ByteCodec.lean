import Mathlib.Algebra.Group.Nat.Defs
import Mathlib.Data.List.Basic
import Mathlib.Data.List.Induction

/-!
# Bytes as text

Hexadecimal and base32 write bytes as symbols of a few bits each.  The bits of
the bytes are cut into groups, the last one filled up with zeros; a reader puts
the groups together again, takes whole bytes off the front, and refuses anything
but a few zeros behind them.
-/

namespace WispersAccess
namespace Foundation

/-- A way to write bytes as text that reads back what it wrote. -/
structure ByteCodec (alphabet : Char -> Bool) where
  encode : List UInt8 -> List Char
  decode : List Char -> Option (List UInt8)
  chars : forall bytes c, c ∈ encode bytes -> alphabet c = true
  decode_encode : forall bytes, decode (encode bytes) = some bytes

/-!
## Bits
-/

/-- The last `width` bits of `n`, most significant first. -/
def bitsOf : Nat -> Nat -> List Bool
  | 0, _ => []
  | width + 1, n => bitsOf width (n / 2) ++ [decide (n % 2 = 1)]

def ofBits (bits : List Bool) : Nat :=
  bits.foldl (fun n b => n * 2 + b.toNat) 0

@[simp] theorem length_bitsOf (width n : Nat) : (bitsOf width n).length = width := by
  induction width generalizing n with
  | zero => rfl
  | succ width ih => simp [bitsOf, ih]

theorem ofBits_append (bits : List Bool) (b : Bool) :
    ofBits (bits ++ [b]) = ofBits bits * 2 + b.toNat := by
  simp [ofBits, List.foldl_append]

theorem ofBits_bitsOf {width n : Nat} (hn : n < 2 ^ width) : ofBits (bitsOf width n) = n := by
  induction width generalizing n with
  | zero =>
      have hzero : n = 0 := by simpa using hn
      rw [hzero]
      rfl
  | succ width ih =>
      have hhalf : n / 2 < 2 ^ width := by
        rw [Nat.pow_succ] at hn
        omega
      rw [bitsOf, ofBits_append, ih hhalf]
      cases Nat.mod_two_eq_zero_or_one n with
      | inl heven => simp [heven]; omega
      | inr hodd => simp [hodd]; omega

theorem bitsOf_ofBits (bits : List Bool) : bitsOf bits.length (ofBits bits) = bits := by
  induction bits using List.reverseRecOn with
  | nil => rfl
  | append_singleton front b ih =>
      have hb : b.toNat < 2 := b.toNat_lt
      have hhalf : (ofBits front * 2 + b.toNat) / 2 = ofBits front := by omega
      have hlast : decide ((ofBits front * 2 + b.toNat) % 2 = 1) = b := by
        cases b <;> simp
      rw [ofBits_append, List.length_append, List.length_singleton, bitsOf, hhalf, hlast, ih]

theorem ofBits_lt (bits : List Bool) : ofBits bits < 2 ^ bits.length := by
  induction bits using List.reverseRecOn with
  | nil => decide
  | append_singleton front b ih =>
      have hb : b.toNat < 2 := b.toNat_lt
      rw [ofBits_append, List.length_append, List.length_singleton, Nat.pow_succ]
      omega

def byteBits (b : UInt8) : List Bool :=
  bitsOf 8 b.toNat

theorem ofNat_byteBits (b : UInt8) : UInt8.ofNat (ofBits (byteBits b)) = b := by
  have hback : ofBits (byteBits b) = b.toNat := ofBits_bitsOf b.toNat_lt
  rw [hback, UInt8.ofNat_toNat]

/-!
## Groups
-/

/-- The first groups of a list, `width` entries each. -/
def groups {α : Type _} (width : Nat) : Nat -> List α -> List (List α)
  | 0, _ => []
  | count + 1, xs => xs.take width :: groups width count (xs.drop width)

section
variable {α : Type _} {width : Nat}

theorem flatten_groups {count : Nat} {xs : List α} (h : xs.length = count * width) :
    (groups width count xs).flatten = xs := by
  induction count generalizing xs with
  | zero =>
      have hnil : xs = [] := List.eq_nil_of_length_eq_zero (by omega)
      rw [hnil]
      rfl
  | succ count ih =>
      rw [Nat.succ_mul] at h
      rw [groups, List.flatten_cons, ih (by rw [List.length_drop]; omega), List.take_append_drop]

theorem length_of_mem_groups {count : Nat} {xs g : List α} (h : xs.length = count * width)
    (hg : g ∈ groups width count xs) : g.length = width := by
  induction count generalizing xs with
  | zero => cases hg
  | succ count ih =>
      rw [Nat.succ_mul] at h
      rcases List.mem_cons.mp hg with rfl | hrest
      · rw [List.length_take]
        omega
      · exact ih (by rw [List.length_drop]; omega) hrest

@[simp] theorem length_groups (width count : Nat) (xs : List α) :
    (groups width count xs).length = count := by
  induction count generalizing xs with
  | zero => rfl
  | succ count ih => rw [groups, List.length_cons, ih]

theorem getElem?_groups {count i : Nat} (h : i < count) (xs : List α) :
    (groups width count xs)[i]? = some ((xs.drop (i * width)).take width) := by
  induction count generalizing xs i with
  | zero => omega
  | succ count ih =>
      cases i with
      | zero =>
          rw [groups, Nat.zero_mul]
          rfl
      | succ i =>
          rw [groups, List.getElem?_cons_succ, ih (Nat.lt_of_succ_lt_succ h), List.drop_drop,
            Nat.succ_mul, Nat.add_comm width]

/-- What was put together group by group is cut into the same groups. -/
theorem groups_flatMap {β : Type _} {f : β -> List α} (hf : forall x, (f x).length = width)
    (xs : List β) (rest : List α) :
    groups width xs.length (xs.flatMap f ++ rest) = xs.map f := by
  induction xs with
  | nil => rfl
  | cons x xs ih =>
      rw [List.length_cons, groups, List.flatMap_cons, List.append_assoc, List.map_cons,
        List.take_left' (hf x), List.drop_left' (hf x), ih]

end

/-!
## Codecs
-/

/-- Symbols of `width` bits each. -/
structure Alphabet where
  width : Nat
  width_pos : 0 < width
  width_le : width ≤ 8
  symbol : Nat -> Char
  value : Char -> Option Nat
  value_symbol : forall n, n < 2 ^ width -> value (symbol n) = some n

namespace Alphabet
variable (a : Alphabet)

/-- The bits of all bytes, filled up to whole groups. -/
def paddedBits (bytes : List UInt8) : List Bool :=
  let bits := bytes.flatMap byteBits
  bits ++ List.replicate ((a.width - bits.length % a.width) % a.width) false

def encode (bytes : List UInt8) : List Char :=
  let bits := a.paddedBits bytes
  (groups a.width (bits.length / a.width) bits).map fun g => a.symbol (ofBits g)

def decode (cs : List Char) : Option (List UInt8) :=
  (cs.mapM a.value).bind fun values =>
    let bits := values.flatMap (bitsOf a.width)
    let tail := bits.drop (bits.length / 8 * 8)
    if tail.length < a.width ∧ true ∉ tail then
      some ((groups 8 (bits.length / 8) bits).map fun g => UInt8.ofNat (ofBits g))
    else none

variable {a}

theorem length_flatMap_bits (bytes : List UInt8) :
    (bytes.flatMap byteBits).length = bytes.length * 8 := by
  induction bytes with
  | nil => rfl
  | cons b bytes ih =>
      have hb : (byteBits b).length = 8 := length_bitsOf 8 b.toNat
      rw [List.flatMap_cons, List.length_append, ih, hb, List.length_cons, Nat.succ_mul,
        Nat.add_comm]

theorem length_paddedBits (bytes : List UInt8) :
    (a.paddedBits bytes).length = (a.paddedBits bytes).length / a.width * a.width := by
  have hpos := a.width_pos
  have hmod : (a.paddedBits bytes).length % a.width = 0 := by
    unfold paddedBits
    simp only [List.length_append, List.length_replicate]
    generalize (bytes.flatMap byteBits).length = n
    rw [Nat.add_mod, Nat.mod_mod]
    by_cases hn : n % a.width = 0
    · simp [hn]
    · have hlt := Nat.mod_lt n hpos
      rw [Nat.mod_eq_of_lt (by omega : a.width - n % a.width < a.width),
        Nat.add_sub_cancel' (Nat.le_of_lt hlt), Nat.mod_self]
  have hdiv := Nat.div_add_mod' (a.paddedBits bytes).length a.width
  omega

/-- The symbols stand for the bits that were written. -/
theorem mapM_value_encode (bytes : List UInt8) :
    exists values, (a.encode bytes).mapM a.value = some values ∧
      values.flatMap (bitsOf a.width) = a.paddedBits bytes := by
  have hlength := a.length_paddedBits bytes
  refine ⟨(groups a.width ((a.paddedBits bytes).length / a.width) (a.paddedBits bytes)).map ofBits,
    ?_, ?_⟩
  · have hvalues : forall gs : List (List Bool), (forall g, g ∈ gs -> g.length = a.width) ->
        (gs.map fun g => a.symbol (ofBits g)).mapM a.value = some (gs.map ofBits) := by
      intro gs hgs
      induction gs with
      | nil => rfl
      | cons g gs ih =>
          have hlt := ofBits_lt g
          rw [hgs g List.mem_cons_self] at hlt
          rw [List.map_cons, List.mapM_cons, a.value_symbol _ hlt,
            ih fun g' hg' => hgs g' (List.mem_cons_of_mem _ hg')]
          rfl
    exact hvalues _ fun g hg => length_of_mem_groups hlength hg
  · rw [List.flatMap_def, List.map_map]
    have hgroups : forall g, g ∈ groups a.width ((a.paddedBits bytes).length / a.width)
        (a.paddedBits bytes) -> (bitsOf a.width ∘ ofBits) g = g := by
      intro g hg
      have hback := bitsOf_ofBits g
      rwa [length_of_mem_groups hlength hg] at hback
    rw [List.map_congr_left hgroups, List.map_id', flatten_groups hlength]

/-- Whole bytes are taken off the front of bits that a few zeros have been put behind. -/
theorem bytes_of_padded (bytes : List UInt8) {pad : Nat} (hpad : pad < 8) :
    let bits := (bytes.flatMap byteBits) ++ List.replicate pad false
    bits.drop (bits.length / 8 * 8) = List.replicate pad false ∧
      (groups 8 (bits.length / 8) bits).map (fun g => UInt8.ofNat (ofBits g)) = bytes := by
  intro bits
  have hlength := length_flatMap_bits bytes
  have hcount : bits.length / 8 = bytes.length := by
    simp only [bits, List.length_append, List.length_replicate, hlength]
    omega
  have hgroups := groups_flatMap (f := byteBits) (fun b => length_bitsOf 8 b.toNat) bytes
    (List.replicate pad false)
  rw [hcount]
  constructor
  · exact List.drop_left' hlength
  · show (groups 8 bytes.length (bytes.flatMap byteBits ++ List.replicate pad false)).map
      (fun g => UInt8.ofNat (ofBits g)) = bytes
    rw [hgroups, List.map_map]
    exact (List.map_congr_left fun b _ => ofNat_byteBits b).trans (List.map_id' bytes)

theorem decode_encode (bytes : List UInt8) : a.decode (a.encode bytes) = some bytes := by
  rcases a.mapM_value_encode bytes with ⟨values, hvalues, hbits⟩
  have hpad := Nat.mod_lt (a.width - (bytes.flatMap byteBits).length % a.width)
    a.width_pos
  rcases bytes_of_padded bytes (Nat.lt_of_lt_of_le hpad a.width_le) with ⟨htail, hbytes⟩
  have hzeros : forall n, true ∉ List.replicate n false :=
    fun n hmem => absurd (List.eq_of_mem_replicate hmem) nofun
  unfold decode
  rw [hvalues, Option.bind_some, hbits]
  unfold paddedBits
  simp only
  rw [htail, hbytes, if_pos ⟨by rw [List.length_replicate]; exact hpad, hzeros _⟩]

/-- An alphabet whose symbols pass a test is a codec. -/
def codec (a : Alphabet) (alphabet : Char -> Bool)
    (hsymbols : forall n, n < 2 ^ a.width -> alphabet (a.symbol n) = true) :
    ByteCodec alphabet where
  encode := a.encode
  decode := a.decode
  chars := by
    intro bytes c hc
    rcases List.mem_map.mp hc with ⟨g, hg, rfl⟩
    apply hsymbols
    have hlt := ofBits_lt g
    rwa [length_of_mem_groups (a.length_paddedBits bytes) hg] at hlt
  decode_encode := a.decode_encode

/-!
## Padding
-/

/-- How many signs fill up whole blocks of four. -/
def padding (count : Nat) : Nat :=
  (4 - count % 4) % 4

/-- The symbols, filled up with signs. -/
def encodePadded (a : Alphabet) (bytes : List UInt8) : List Char :=
  a.encode bytes ++ List.replicate (padding (a.encode bytes).length) '='

/-- The bytes of symbols that are filled up with as many signs as they need. -/
def decodePadded (a : Alphabet) (cs : List Char) : Option (List UInt8) :=
  let symbols := cs.takeWhile (· ≠ '=')
  if cs = symbols ++ List.replicate (padding symbols.length) '=' then a.decode symbols else none

/-- An alphabet without the sign is a padded codec. -/
def paddedCodec (a : Alphabet) (alphabet : Char -> Bool) (hsign : alphabet '=' = true)
    (hsymbols : forall n, n < 2 ^ a.width -> alphabet (a.symbol n) = true ∧ a.symbol n ≠ '=') :
    ByteCodec alphabet where
  encode := a.encodePadded
  decode := a.decodePadded
  chars := by
    intro bytes c hc
    rcases List.mem_append.mp hc with hsymbol | hpad
    · exact (a.codec alphabet fun n hn => (hsymbols n hn).left).chars bytes c hsymbol
    · rw [List.eq_of_mem_replicate hpad]
      exact hsign
  decode_encode := by
    intro bytes
    have hsymbol : forall c, c ∈ a.encode bytes -> decide (c ≠ '=') = true := by
      intro c hc
      exact (a.codec (fun c => decide (c ≠ '=')) fun n hn =>
        decide_eq_true (hsymbols n hn).right).chars bytes c hc
    have hpad : (List.replicate (padding (a.encode bytes).length) '=').takeWhile
        (· ≠ '=') = [] := by
      cases padding (a.encode bytes).length with
      | zero => rfl
      | succ count => rfl
    have hfront : (a.encodePadded bytes).takeWhile (· ≠ '=') = a.encode bytes := by
      unfold encodePadded
      rw [List.takeWhile_append_of_pos hsymbol, hpad, List.append_nil]
    have hwhole : a.encodePadded bytes =
        a.encode bytes ++ List.replicate (padding (a.encode bytes).length) '=' :=
      rfl
    unfold decodePadded
    dsimp only
    rw [hfront, if_pos hwhole, a.decode_encode]

end Alphabet

end Foundation
end WispersAccess
