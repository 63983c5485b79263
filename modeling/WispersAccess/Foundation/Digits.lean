import Mathlib.Algebra.Group.Nat.Defs
import Mathlib.Data.List.Basic
import Mathlib.Data.List.Induction

/-!
# Digits

Numbers as texts of decimal and hexadecimal digits, and back.
-/

namespace WispersAccess
namespace Foundation

/-- The value of a hexadecimal digit, in either case. -/
def hexDigit (c : Char) : Option Nat :=
  if '0' ≤ c ∧ c ≤ '9' then some (c.toNat - '0'.toNat)
  else if 'a' ≤ c ∧ c ≤ 'f' then some (c.toNat - 'a'.toNat + 10)
  else if 'A' ≤ c ∧ c ≤ 'F' then some (c.toNat - 'A'.toNat + 10)
  else none

def hexValue (cs : List Char) : Option Nat :=
  cs.foldlM (fun value c => (hexDigit c).map fun digit => value * 16 + digit) 0

theorem hexDigit_digitChar {d : Nat} (hd : d < 16) : hexDigit d.digitChar = some d := by
  have hall : forall d : Fin 16, hexDigit (Nat.digitChar d) = some d.val := by decide
  exact hall ⟨d, hd⟩

theorem hexValue_append_single (cs : List Char) (c : Char) :
    hexValue (cs ++ [c]) =
      (hexValue cs).bind fun value => (hexDigit c).map fun digit => value * 16 + digit := by
  unfold hexValue
  rw [List.foldlM_append]
  simp [List.foldlM_cons, List.foldlM_nil]

theorem hexValue_toDigits (n : Nat) : hexValue (Nat.toDigits 16 n) = some n := by
  induction n using Nat.strongRecOn with
  | ind n ih =>
      by_cases hn : n < 16
      · rw [Nat.toDigits_of_lt_base hn]
        have hsingle := hexValue_append_single [] n.digitChar
        rw [List.nil_append, hexDigit_digitChar hn] at hsingle
        rw [hsingle]
        show some (0 * 16 + n) = some n
        rw [Nat.zero_mul, Nat.zero_add]
      · have hdiv : n / 16 < n := Nat.div_lt_self (by omega) (by omega)
        rw [Nat.toDigits_of_base_le (by omega) (by omega), hexValue_append_single, ih _ hdiv,
          hexDigit_digitChar (Nat.mod_lt n (by omega))]
        show some (n / 16 * 16 + n % 16) = some n
        rw [Nat.div_add_mod' n 16]

/-- Leading zeros change no value. -/
theorem hexValue_replicate_append (k : Nat) (cs : List Char) :
    hexValue (List.replicate k '0' ++ cs) = hexValue cs := by
  induction k with
  | zero => rfl
  | succ k ih =>
      rw [List.replicate_succ, List.cons_append]
      exact ih

/-- A text with a hexadecimal value is made of digits. -/
theorem isSome_hexDigit_of_mem {cs : List Char} {n : Nat} (h : hexValue cs = some n) {c : Char}
    (hc : c ∈ cs) : (hexDigit c).isSome = true := by
  induction cs using List.reverseRecOn generalizing n with
  | nil => cases hc
  | append_singleton cs d ih =>
      rw [hexValue_append_single] at h
      rcases Option.bind_eq_some_iff.mp h with ⟨value, hvalue, hlast⟩
      rcases Option.map_eq_some_iff.mp hlast with ⟨digit, hdigit, -⟩
      rcases List.mem_append.mp hc with hfront | hback
      · exact ih hvalue hfront
      · rw [List.mem_singleton.mp hback, hdigit]
        rfl

theorem hexDigit_plus : hexDigit '+' = none := by
  decide

/-!
## Decimal digits
-/

theorem toString_nat_injective {m n : Nat} (h : toString m = toString n) : m = n := by
  rw [Nat.toString_eq_ofList_toDigits, Nat.toString_eq_ofList_toDigits, String.ofList_inj] at h
  rw [← @Nat.ofDigitChars_ten_toDigits m, h, Nat.ofDigitChars_ten_toDigits]

theorem isDigit_of_mem_toDigits {n : Nat} {c : Char} (hc : c ∈ Nat.toDigits 10 n) :
    c.isDigit = true :=
  Nat.isDigit_of_mem_toDigits (by decide) (by decide) hc

/-- The digits at the head of a text, and what follows them. -/
def spanDigits (cs : List Char) : List Char × List Char :=
  (cs.takeWhile Char.isDigit, cs.dropWhile Char.isDigit)

/-- Digits followed by something else are read back whole. -/
theorem spanDigits_append {digits rest : List Char}
    (hdigits : forall c, c ∈ digits -> c.isDigit = true)
    (hrest : forall c, rest.head? = some c -> c.isDigit = false) :
    spanDigits (digits ++ rest) = (digits, rest) := by
  unfold spanDigits
  rw [List.takeWhile_append_of_pos hdigits, List.dropWhile_append_of_pos hdigits]
  cases rest with
  | nil => simp
  | cons c rest => simp [hrest c rfl]

end Foundation
end WispersAccess
