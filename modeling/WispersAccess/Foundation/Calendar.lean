import Mathlib.Data.List.Basic

/-!
# Dates and their texts

Seconds since 1970 as dates of the Gregorian calendar, printed the way RFC 3339
has it and read back.  The calendar repeats every 400 years, and a year starts in
March here, so that a leap day is the last day of its year.
-/

namespace WispersAccess
namespace Foundation

/-!
## Days and dates
-/

structure Date where
  year : Int
  month : Int
  day : Int
  deriving DecidableEq, Repr

namespace Date

/-- The years since the start of a cycle, and the days since the start of such a year. -/
def ofCycle (days : Int) : Int × Int :=
  let centuries := min (days / 36524) 3
  let inCentury := days - centuries * 36524
  let years := min (inCentury % 1461 / 365) 3
  (centuries * 100 + inCentury / 1461 * 4 + years, inCentury % 1461 - years * 365)

def toCycle (year day : Int) : Int :=
  year * 365 + year / 4 - year / 100 + day

theorem ofCycle_bounds {days : Int} (hlow : 0 ≤ days) (hhigh : days < 146097) :
    0 ≤ (ofCycle days).1 ∧ (ofCycle days).1 < 400 ∧ 0 ≤ (ofCycle days).2 ∧
      (ofCycle days).2 < 366 := by
  unfold ofCycle
  dsimp only
  omega

/-- The leap years before a year of a cycle. -/
theorem leap_years {centuries quads years : Int}
    (hquads : 0 ≤ quads ∧ quads ≤ 24) (hyears : 0 ≤ years ∧ years ≤ 3) :
    (centuries * 100 + quads * 4 + years) / 4 = centuries * 25 + quads ∧
      (centuries * 100 + quads * 4 + years) / 100 = centuries := by
  omega

theorem toCycle_ofCycle {days : Int} (hlow : 0 ≤ days) (hhigh : days < 146097) :
    toCycle (ofCycle days).1 (ofCycle days).2 = days := by
  unfold ofCycle toCycle
  dsimp only
  generalize hcenturies : min (days / 36524) 3 = centuries
  have hcentury : 0 ≤ days - centuries * 36524 ∧ days - centuries * 36524 ≤ 36524 := by omega
  generalize hinCentury : days - centuries * 36524 = inCentury at hcentury
  have hquad : 0 ≤ inCentury % 1461 ∧ inCentury % 1461 < 1461 := by omega
  have hparts := @leap_years centuries (inCentury / 1461) (min (inCentury % 1461 / 365) 3)
    (by omega) (by omega)
  rw [hparts.left, hparts.right]
  omega

/-- The date of a day, where day 0 is 1970-01-01. -/
def ofDays (days : Int) : Date :=
  let cycle := (days + 719468) / 146097
  let inCycle := ofCycle ((days + 719468) % 146097)
  let month := (5 * inCycle.2 + 2) / 153
  { year := cycle * 400 + inCycle.1 + if month < 10 then 0 else 1
    month := if month < 10 then month + 3 else month - 9
    day := inCycle.2 - (153 * month + 2) / 5 + 1 }

/-- The day of a date. -/
def toDays (date : Date) : Int :=
  let year := if date.month ≤ 2 then date.year - 1 else date.year
  let month := if date.month ≤ 2 then date.month + 9 else date.month - 3
  year / 400 * 146097 + toCycle (year % 400) ((153 * month + 2) / 5 + date.day - 1) - 719468

theorem ofDays_bounds (days : Int) :
    1 ≤ (ofDays days).month ∧ (ofDays days).month ≤ 12 ∧
      1 ≤ (ofDays days).day ∧ (ofDays days).day ≤ 31 := by
  have hbounds := ofCycle_bounds (Int.emod_nonneg (days + 719468) (by decide))
    (Int.emod_lt_of_pos (days + 719468) (by decide))
  unfold ofDays
  generalize ofCycle ((days + 719468) % 146097) = inCycle at hbounds
  dsimp only
  omega

theorem toDays_ofDays (days : Int) : toDays (ofDays days) = days := by
  have hbounds := ofCycle_bounds (Int.emod_nonneg (days + 719468) (by decide))
    (Int.emod_lt_of_pos (days + 719468) (by decide))
  have hcycle := toCycle_ofCycle (Int.emod_nonneg (days + 719468) (by decide))
    (Int.emod_lt_of_pos (days + 719468) (by decide))
  unfold ofDays toDays
  generalize ofCycle ((days + 719468) % 146097) = inCycle at hbounds hcycle
  rcases inCycle with ⟨year, day⟩
  dsimp only at hbounds hcycle ⊢
  by_cases hmonth : (5 * day + 2) / 153 < 10
  · have hlate : ¬ (5 * day + 2) / 153 + 3 ≤ 2 := by omega
    simp only [if_pos hmonth, if_neg hlate]
    have hyear : ((days + 719468) / 146097 * 400 + year + 0) / 400 = (days + 719468) / 146097 := by
      omega
    have hin : ((days + 719468) / 146097 * 400 + year + 0) % 400 = year := by omega
    have hday : (153 * ((5 * day + 2) / 153 + 3 - 3) + 2) / 5 +
        (day - (153 * ((5 * day + 2) / 153) + 2) / 5 + 1) - 1 = day := by
      rw [Int.add_sub_cancel]
      omega
    rw [hyear, hin, hday, hcycle]
    omega
  · have hearly : (5 * day + 2) / 153 - 9 ≤ 2 := by omega
    simp only [if_neg hmonth, if_pos hearly]
    have hyear : ((days + 719468) / 146097 * 400 + year + 1 - 1) / 400 =
        (days + 719468) / 146097 := by
      omega
    have hin : ((days + 719468) / 146097 * 400 + year + 1 - 1) % 400 = year := by omega
    have hday : (153 * ((5 * day + 2) / 153 - 9 + 9) + 2) / 5 +
        (day - (153 * ((5 * day + 2) / 153) + 2) / 5 + 1) - 1 = day := by
      rw [Int.sub_add_cancel]
      omega
    rw [hyear, hin, hday, hcycle]
    omega

end Date

/-!
## RFC 3339
-/

namespace Rfc3339

/-- Two digits. -/
def two (n : Int) : List Char :=
  [Nat.digitChar (n.toNat / 10), Nat.digitChar (n.toNat % 10)]

def digitValue (c : Char) : Option Int :=
  if c.isDigit then some (c.toNat - '0'.toNat : Nat) else none

def readTwo (c d : Char) : Option Int := do
  let tens <- digitValue c
  let ones <- digitValue d
  return tens * 10 + ones

/-- Four digits, or a sign and at least as many. -/
def printYear (year : Int) : List Char :=
  if 0 ≤ year ∧ year ≤ 9999 then two (year / 100) ++ two (year % 100)
  else
    let digits := Nat.toDigits 10 year.natAbs
    (if year < 0 then '-' else '+') :: (List.replicate (4 - digits.length) '0' ++ digits)

/-- An instant, in whole seconds since 1970. -/
def print (secs : Int) : List Char :=
  let date := Date.ofDays (secs / 86400)
  let time := secs % 86400
  printYear date.year ++ '-' :: (two date.month ++ '-' :: (two date.day ++ 'T' ::
    (two (time / 3600) ++ ':' :: (two (time / 60 % 60) ++ ':' :: (two (time % 60) ++ ['Z'])))))

/-- The instant of a text, in the form that is printed; a day has to be in the calendar. -/
def parse : List Char -> Option Int
  | [c, c', y, y', '-', m, m', '-', d, d', 'T', h, h', ':', n, n', ':', s, s', 'Z'] => do
      let century <- readTwo c c'
      let year <- readTwo y y'
      let month <- readTwo m m'
      let day <- readTwo d d'
      let hours <- readTwo h h'
      let minutes <- readTwo n n'
      let seconds <- readTwo s s'
      let date : Date := { year := century * 100 + year, month, day }
      if Date.ofDays date.toDays = date ∧ hours < 24 ∧ minutes < 60 ∧ seconds < 60 then
        some (date.toDays * 86400 + hours * 3600 + minutes * 60 + seconds)
      else none
  | _ => none

theorem readTwo_two {n : Int} (hlow : 0 ≤ n) (hhigh : n < 100) :
    readTwo (Nat.digitChar (n.toNat / 10)) (Nat.digitChar (n.toNat % 10)) = some n := by
  have hall : forall k : Fin 100,
      readTwo (Nat.digitChar (k.val / 10)) (Nat.digitChar (k.val % 10)) = some (k.val : Int) := by
    decide
  have hread := hall ⟨n.toNat, by omega⟩
  rw [hread, Int.toNat_of_nonneg hlow]

/-- The years that have four digits. -/
def InYears (secs : Int) : Prop :=
  0 ≤ (Date.ofDays (secs / 86400)).year ∧ (Date.ofDays (secs / 86400)).year ≤ 9999

instance (secs : Int) : Decidable (InYears secs) :=
  inferInstanceAs (Decidable (_ ∧ _))

theorem parse_print_of_inYears {secs : Int} (h : InYears secs) :
    parse (print secs) = some secs := by
  have hbounds := Date.ofDays_bounds (secs / 86400)
  have hback := Date.toDays_ofDays (secs / 86400)
  unfold InYears at h
  unfold print printYear
  generalize hdate : Date.ofDays (secs / 86400) = date at h hbounds hback
  rcases date with ⟨year, month, day⟩
  dsimp only at h hbounds ⊢
  have hyear : year / 100 * 100 + year % 100 = year := by omega
  rw [if_pos h]
  simp only [two, List.cons_append, List.nil_append, parse, Option.bind_eq_bind]
  rw [readTwo_two (by omega) (by omega), readTwo_two (by omega) (by omega),
    readTwo_two (by omega) (by omega), readTwo_two (by omega) (by omega),
    readTwo_two (by omega) (by omega), readTwo_two (by omega) (by omega),
    readTwo_two (by omega) (by omega)]
  simp only [Option.bind_some, hyear, hback]
  rw [if_pos ⟨hdate, by omega, by omega, by omega⟩]
  have htime : secs / 86400 * 86400 + secs % 86400 / 3600 * 3600 +
      secs % 86400 / 60 % 60 * 60 + secs % 86400 % 60 = secs := by
    omega
  rw [htime]

/-- A text that starts with a sign is not read. -/
theorem parse_sign {c : Char} (hc : digitValue c = none) (cs : List Char) :
    parse (c :: cs) = none := by
  unfold parse
  split
  · rename_i heq
    cases heq
    unfold readTwo
    rw [hc]
    rfl
  · rfl

theorem parse_print_of_not_inYears {secs : Int} (h : ¬ InYears secs) :
    parse (print secs) = none := by
  unfold InYears at h
  unfold print printYear
  dsimp only
  rw [if_neg h]
  by_cases hsign : (Date.ofDays (secs / 86400)).year < 0
  · rw [if_pos hsign]
    exact parse_sign (by decide) _
  · rw [if_neg hsign]
    exact parse_sign (by decide) _

end Rfc3339

end Foundation
end WispersAccess
