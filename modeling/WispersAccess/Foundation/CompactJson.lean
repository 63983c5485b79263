import WispersAccess.Foundation.Digits
import WispersAccess.Foundation.Json

/-!
# Compact JSON

Documents as texts without white space, and the reader that takes such a text
apart again.
-/

namespace WispersAccess
namespace Foundation
namespace Json

/-!
## Texts
-/

/-- A character inside quotes. -/
def escape (c : Char) : List Char :=
  if c = '"' then ['\\', '"']
  else if c = '\\' then ['\\', '\\']
  else if c = '\x08' then ['\\', 'b']
  else if c = '\t' then ['\\', 't']
  else if c = '\n' then ['\\', 'n']
  else if c = '\x0c' then ['\\', 'f']
  else if c = '\r' then ['\\', 'r']
  else if c.toNat < 32 then
    ['\\', 'u', '0', '0', Nat.digitChar (c.toNat / 16), Nat.digitChar (c.toNat % 16)]
  else [c]

def quote (cs : List Char) : List Char :=
  '"' :: (cs.flatMap escape ++ ['"'])

/-- The character a backslash and a letter stand for. -/
def unescape (c : Char) : Option Char :=
  if c = 'b' then some '\x08'
  else if c = 't' then some '\t'
  else if c = 'n' then some '\n'
  else if c = 'f' then some '\x0c'
  else if c = 'r' then some '\r'
  else if c = '"' ∨ c = '\\' ∨ c = '/' then some c
  else none

/-- A text up to its closing quote, and what follows. -/
def readBody : List Char -> Option (List Char × List Char)
  | [] => none
  | '"' :: rest => some ([], rest)
  | '\\' :: 'u' :: a :: b :: c :: d :: rest =>
      match hexValue [a, b, c, d], readBody rest with
      | some n, some (cs, rest') => some (Char.ofNat n :: cs, rest')
      | _, _ => none
  | '\\' :: c :: rest =>
      match unescape c, readBody rest with
      | some c', some (cs, rest') => some (c' :: cs, rest')
      | _, _ => none
  | c :: rest =>
      match readBody rest with
      | some (cs, rest') => some (c :: cs, rest')
      | none => none

theorem readBody_escape {c : Char} {cs rest rest' : List Char}
    (h : readBody rest = some (cs, rest')) :
    readBody (escape c ++ rest) = some (c :: cs, rest') := by
  unfold escape
  split_ifs with hquote hbackslash hbackspace htab hnewline hfeed hreturn hcontrol
  -- The characters with an escape of their own.
  iterate 7
    subst c
    simp [readBody, unescape, h]
  · have hvalue : hexValue ['0', '0', Nat.digitChar (c.toNat / 16), Nat.digitChar (c.toNat % 16)] =
        some c.toNat := by
      have hall : forall n : Fin 32,
          hexValue ['0', '0', Nat.digitChar (n.val / 16), Nat.digitChar (n.val % 16)] =
            some n.val := by
        decide
      exact hall ⟨c.toNat, hcontrol⟩
    simp [readBody, hvalue, h]
  · simp_all [readBody]

theorem readBody_quoted (cs rest : List Char) :
    readBody (cs.flatMap escape ++ '"' :: rest) = some (cs, rest) := by
  induction cs with
  | nil => rfl
  | cons c cs ih =>
      rw [List.flatMap_cons, List.append_assoc]
      exact readBody_escape ih

/-!
## Documents
-/

def printInt : Int -> List Char
  | Int.ofNat n => Nat.toDigits 10 n
  | Int.negSucc n => '-' :: Nat.toDigits 10 (n + 1)

mutual

def printValue : Json -> List Char
  | null => ['n', 'u', 'l', 'l']
  | bool true => ['t', 'r', 'u', 'e']
  | bool false => ['f', 'a', 'l', 's', 'e']
  | num n => printInt n
  | str s => quote s.toList
  | arr [] => ['[', ']']
  | arr (x :: xs) => '[' :: (printValue x ++ printItems xs)
  | obj [] => ['\x7b', '\x7d']
  | obj ((name, x) :: fields) =>
      '\x7b' :: (quote name.toList ++ ':' :: (printValue x ++ printMembers fields))

/-- The items after the first, and the closing bracket. -/
def printItems : List Json -> List Char
  | [] => [']']
  | x :: xs => ',' :: (printValue x ++ printItems xs)

/-- The fields after the first, and the closing brace. -/
def printMembers : List (String × Json) -> List Char
  | [] => ['\x7d']
  | (name, x) :: fields =>
      ',' :: (quote name.toList ++ ':' :: (printValue x ++ printMembers fields))

end

def readNat (cs : List Char) : Option (Nat × List Char) :=
  if (spanDigits cs).1 = [] then none
  else some (Nat.ofDigitChars 10 (spanDigits cs).1 0, (spanDigits cs).2)

def readInt : List Char -> Option (Json × List Char)
  | '-' :: cs => (readNat cs).map fun p => (num (-p.1), p.2)
  | cs => (readNat cs).map fun p => (num p.1, p.2)

/-- A quoted name and a colon. -/
def readName : List Char -> Option (String × List Char)
  | '"' :: cs =>
      match readBody cs with
      | some (name, ':' :: rest) => some (String.ofList name, rest)
      | _ => none
  | _ => none

mutual

/-- The value a text starts with, and what follows it. -/
def readValue : Nat -> List Char -> Option (Json × List Char)
  | 0, _ => none
  | _ + 1, 'n' :: 'u' :: 'l' :: 'l' :: rest => some (null, rest)
  | _ + 1, 't' :: 'r' :: 'u' :: 'e' :: rest => some (bool true, rest)
  | _ + 1, 'f' :: 'a' :: 'l' :: 's' :: 'e' :: rest => some (bool false, rest)
  | _ + 1, '"' :: cs => (readBody cs).map fun p => (str (String.ofList p.1), p.2)
  | _ + 1, '[' :: ']' :: rest => some (arr [], rest)
  | fuel + 1, '[' :: cs => do
      let (x, rest) <- readValue fuel cs
      let (xs, rest') <- readItems fuel rest
      return (arr (x :: xs), rest')
  | _ + 1, '\x7b' :: '\x7d' :: rest => some (obj [], rest)
  | fuel + 1, '\x7b' :: cs => do
      let (name, rest) <- readName cs
      let (x, rest') <- readValue fuel rest
      let (fields, rest'') <- readMembers fuel rest'
      return (obj ((name, x) :: fields), rest'')
  | _ + 1, cs => readInt cs

def readItems : Nat -> List Char -> Option (List Json × List Char)
  | fuel + 1, ',' :: cs => do
      let (x, rest) <- readValue fuel cs
      let (xs, rest') <- readItems fuel rest
      return (x :: xs, rest')
  | _ + 1, ']' :: rest => some ([], rest)
  | _, _ => none

def readMembers : Nat -> List Char -> Option (List (String × Json) × List Char)
  | fuel + 1, ',' :: cs => do
      let (name, rest) <- readName cs
      let (x, rest') <- readValue fuel rest
      let (fields, rest'') <- readMembers fuel rest'
      return ((name, x) :: fields, rest'')
  | _ + 1, '\x7d' :: rest => some ([], rest)
  | _, _ => none

end

/-!
## The round trip
-/

/-- What follows a value: nothing that could be one more digit of it. -/
def Stops (rest : List Char) : Prop :=
  forall c, rest.head? = some c -> c.isDigit = false

theorem stops_cons {c : Char} (hc : c.isDigit = false) (rest : List Char) : Stops (c :: rest) := by
  intro d hd
  cases hd
  exact hc

theorem stops_printItems (xs : List Json) (rest : List Char) : Stops (printItems xs ++ rest) := by
  cases xs with
  | nil => exact stops_cons (by decide) _
  | cons x xs => exact stops_cons (by decide) _

theorem stops_printMembers (fields : List (String × Json)) (rest : List Char) :
    Stops (printMembers fields ++ rest) := by
  rcases fields with _ | ⟨⟨name, x⟩, fields⟩
  · exact stops_cons (by decide) _
  · exact stops_cons (by decide) _

theorem readNat_toDigits (n : Nat) {rest : List Char} (hrest : Stops rest) :
    readNat (Nat.toDigits 10 n ++ rest) = some (n, rest) := by
  unfold readNat
  rw [spanDigits_append (fun _ hc => isDigit_of_mem_toDigits hc) hrest,
    if_neg Nat.toDigits_ne_nil, Nat.ofDigitChars_ten_toDigits]

/-- The digits of a number start with one. -/
theorem toDigits_head (n : Nat) :
    exists c cs, Nat.toDigits 10 n = c :: cs ∧ c.isDigit = true := by
  cases hdigits : Nat.toDigits 10 n with
  | nil => exact absurd hdigits Nat.toDigits_ne_nil
  | cons c cs =>
      refine ⟨c, cs, rfl, @isDigit_of_mem_toDigits n c ?_⟩
      rw [hdigits]
      exact List.mem_cons_self ..

theorem printInt_head (n : Int) :
    exists c cs, printInt n = c :: cs ∧ (c = '-' ∨ c.isDigit = true) := by
  cases n with
  | ofNat n =>
      rcases toDigits_head n with ⟨c, cs, hdigits, hc⟩
      exact ⟨c, cs, hdigits, Or.inr hc⟩
  | negSucc n => exact ⟨'-', _, rfl, Or.inl rfl⟩

theorem readInt_printInt (n : Int) {rest : List Char} (hrest : Stops rest) :
    readInt (printInt n ++ rest) = some (num n, rest) := by
  cases n with
  | ofNat n =>
      have hread := readNat_toDigits n hrest
      rcases toDigits_head n with ⟨c, cs, hdigits, hc⟩
      have hsign : c ≠ '-' := by
        intro hsame
        subst hsame
        cases hc
      show readInt (Nat.toDigits 10 n ++ rest) = _
      rw [hdigits, List.cons_append] at hread ⊢
      unfold readInt
      split
      · rename_i heq
        cases heq
        exact absurd rfl hsign
      · rw [hread]
        rfl
  | negSucc n =>
      show (readNat (Nat.toDigits 10 (n + 1) ++ rest)).map (fun p => (num (-p.1), p.2)) = _
      rw [readNat_toDigits (n + 1) hrest]
      rfl

/-- A text that starts like a number is read as one. -/
theorem readValue_number {fuel : Nat} {c : Char} {cs : List Char}
    (hc : c = '-' ∨ c.isDigit = true) : readValue (fuel + 1) (c :: cs) = readInt (c :: cs) := by
  have hother : c ≠ 'n' ∧ c ≠ 't' ∧ c ≠ 'f' ∧ c ≠ '"' ∧ c ≠ '[' ∧ c ≠ '\x7b' := by
    refine ⟨?_, ?_, ?_, ?_, ?_, ?_⟩
    all_goals
      intro heq
      subst heq
      revert hc
      decide
  rcases hother with ⟨hn, ht, hf, hquote, harray, hobject⟩
  unfold readValue
  split
  all_goals simp_all

theorem readValue_array {fuel : Nat} {cs : List Char} (h : cs.head? ≠ some ']') :
    readValue (fuel + 1) ('[' :: cs) = (do
      let (x, rest) <- readValue fuel cs
      let (xs, rest') <- readItems fuel rest
      return (arr (x :: xs), rest')) := by
  rw [readValue.eq_def]
  split
  all_goals simp_all

theorem readValue_object {fuel : Nat} {cs : List Char} (h : cs.head? ≠ some '\x7d') :
    readValue (fuel + 1) ('\x7b' :: cs) = (do
      let (name, rest) <- readName cs
      let (x, rest') <- readValue fuel rest
      let (fields, rest'') <- readMembers fuel rest'
      return (obj ((name, x) :: fields), rest'')) := by
  rw [readValue.eq_def]
  split
  all_goals simp_all

theorem readName_quote (name : String) (rest : List Char) :
    readName (quote name.toList ++ ':' :: rest) = some (name, rest) := by
  unfold quote
  rw [List.cons_append, List.append_assoc]
  show (match readBody (name.toList.flatMap escape ++ '"' :: ':' :: rest) with
    | some (name, ':' :: rest) => some (String.ofList name, rest)
    | _ => none) = _
  rw [readBody_quoted]
  simp

/-- No value starts with a closing bracket. -/
theorem printValue_head (j : Json) (rest : List Char) :
    (printValue j ++ rest).head? ≠ some ']' := by
  have hnot : forall c cs, printValue j = c :: cs -> c ≠ ']' ->
      (printValue j ++ rest).head? ≠ some ']' := by
    intro c cs hprint hc
    rw [hprint]
    simpa using hc
  cases j with
  | null => exact hnot _ _ (by rw [printValue]) (by decide)
  | bool b => cases b <;> exact hnot _ _ (by rw [printValue]) (by decide)
  | num n =>
      rcases printInt_head n with ⟨c, cs, hprint, hc⟩
      refine hnot c cs (by rw [printValue, hprint]) ?_
      intro heq
      subst heq
      revert hc
      decide
  | str s => exact hnot _ _ (by rw [printValue, quote]) (by decide)
  | arr items => cases items <;> exact hnot _ _ (by rw [printValue]) (by decide)
  | obj fields =>
      rcases fields with _ | ⟨⟨name, x⟩, fields⟩ <;> exact hnot _ _ (by rw [printValue]) (by decide)

mutual

theorem readValue_printValue : forall (j : Json) (fuel : Nat) (rest : List Char),
    (printValue j).length ≤ fuel -> Stops rest ->
      readValue fuel (printValue j ++ rest) = some (j, rest)
  | j, 0, rest, hfuel, _ => by
      have hhead := printValue_head j [']']
      rw [List.eq_nil_of_length_eq_zero (Nat.le_zero.mp hfuel)] at hhead
      exact absurd rfl hhead
  | null, fuel + 1, rest, _, _ => by
      rw [printValue]
      rfl
  | bool b, fuel + 1, rest, _, _ => by
      cases b
      all_goals
        rw [printValue]
        rfl
  | num n, fuel + 1, rest, _, hrest => by
      rcases printInt_head n with ⟨c, cs, hprint, hc⟩
      rw [printValue, hprint, List.cons_append, readValue_number hc, ← List.cons_append, ← hprint,
        readInt_printInt n hrest]
  | str s, fuel + 1, rest, _, _ => by
      rw [printValue, quote, List.cons_append, List.append_assoc]
      show (readBody _).map _ = _
      rw [List.singleton_append, readBody_quoted]
      simp
  | arr [], fuel + 1, rest, _, _ => by
      rw [printValue]
      rfl
  | arr (x :: xs), fuel + 1, rest, hfuel, _ => by
      rw [printValue] at hfuel ⊢
      simp only [List.length_cons, List.length_append] at hfuel
      rw [List.cons_append, List.append_assoc, readValue_array (printValue_head x _),
        readValue_printValue x fuel _ (by omega) (stops_printItems xs rest)]
      show (do
        let (ys, after) <- readItems fuel (printItems xs ++ rest)
        return (arr (x :: ys), after)) = _
      rw [readItems_printItems xs fuel rest (by omega)]
      rfl
  | obj [], fuel + 1, rest, _, _ => by
      rw [printValue]
      rfl
  | obj ((name, x) :: fields), fuel + 1, rest, hfuel, _ => by
      rw [printValue] at hfuel ⊢
      simp only [List.length_cons, List.length_append] at hfuel
      have hquote : forall cs, (quote name.toList ++ cs).head? ≠ some '\x7d' := by
        intro cs
        simp [quote]
      rw [List.cons_append, List.append_assoc, readValue_object (hquote _), List.cons_append,
        readName_quote, List.append_assoc]
      show (do
        let (y, after) <- readValue fuel (printValue x ++ (printMembers fields ++ rest))
        let (ys, after') <- readMembers fuel after
        return (obj ((name, y) :: ys), after')) = _
      rw [readValue_printValue x fuel _ (by omega) (stops_printMembers fields rest)]
      show (do
        let (ys, after) <- readMembers fuel (printMembers fields ++ rest)
        return (obj ((name, x) :: ys), after)) = _
      rw [readMembers_printMembers fields fuel rest (by omega)]
      rfl

theorem readItems_printItems : forall (xs : List Json) (fuel : Nat) (rest : List Char),
    (printItems xs).length ≤ fuel -> readItems fuel (printItems xs ++ rest) = some (xs, rest)
  | [], 0, _, hfuel => by simp [printItems] at hfuel
  | _ :: _, 0, _, hfuel => by simp [printItems] at hfuel
  | [], fuel + 1, rest, _ => by
      rw [printItems]
      rfl
  | x :: xs, fuel + 1, rest, hfuel => by
      rw [printItems] at hfuel ⊢
      simp only [List.length_cons, List.length_append] at hfuel
      rw [List.cons_append, List.append_assoc]
      show (do
        let (y, after) <- readValue fuel (printValue x ++ (printItems xs ++ rest))
        let (ys, after') <- readItems fuel after
        return (y :: ys, after')) = _
      rw [readValue_printValue x fuel _ (by omega) (stops_printItems xs rest)]
      show (do
        let (ys, after) <- readItems fuel (printItems xs ++ rest)
        return (x :: ys, after)) = _
      rw [readItems_printItems xs fuel rest (by omega)]
      rfl

theorem readMembers_printMembers : forall (fields : List (String × Json)) (fuel : Nat)
    (rest : List Char), (printMembers fields).length ≤ fuel ->
      readMembers fuel (printMembers fields ++ rest) = some (fields, rest)
  | [], 0, _, hfuel => by simp [printMembers] at hfuel
  | (_, _) :: _, 0, _, hfuel => by simp [printMembers] at hfuel
  | [], fuel + 1, rest, _ => by
      rw [printMembers]
      rfl
  | (name, x) :: fields, fuel + 1, rest, hfuel => by
      rw [printMembers] at hfuel ⊢
      simp only [List.length_cons, List.length_append] at hfuel
      rw [List.cons_append, List.append_assoc, List.cons_append, List.append_assoc]
      show (do
        let (name', after) <- readName (quote name.toList ++ ':' :: (printValue x ++
          (printMembers fields ++ rest)))
        let (y, after') <- readValue fuel after
        let (ys, after'') <- readMembers fuel after'
        return ((name', y) :: ys, after'')) = _
      rw [readName_quote]
      show (do
        let (y, after) <- readValue fuel (printValue x ++ (printMembers fields ++ rest))
        let (ys, after') <- readMembers fuel after
        return ((name, y) :: ys, after')) = _
      rw [readValue_printValue x fuel _ (by omega) (stops_printMembers fields rest)]
      show (do
        let (ys, after) <- readMembers fuel (printMembers fields ++ rest)
        return ((name, x) :: ys, after)) = _
      rw [readMembers_printMembers fields fuel rest (by omega)]
      rfl

end

/-- The compact form of JSON. -/
def compact : JsonText where
  print := fun j => String.ofList (printValue j)
  parse := fun s =>
    match readValue s.toList.length s.toList with
    | some (j, []) => some j
    | _ => none
  parse_print := by
    intro j
    have hread := readValue_printValue j (printValue j).length [] (Nat.le_refl _) nofun
    rw [List.append_nil] at hread
    simp only [String.toList_ofList, hread]

example : compact.print (ofTexts ["a\"b", "c"]) = "[\"a\\\"b\",\"c\"]" := by decide

/-!
## A document on a line
-/

theorem visible_of_all {cs : List Char} {d : Char} (hcs : cs.all (fun c => 32 ≤ c.toNat) = true)
    (h : d ∈ cs) : 32 ≤ d.toNat := by
  simpa using List.all_eq_true.mp hcs d h

theorem visible_of_mem_escape {c d : Char} (h : d ∈ escape c) : 32 ≤ d.toNat := by
  unfold escape at h
  split_ifs at h with hquote hbackslash hbackspace htab hnewline hfeed hreturn hcontrol
  -- The characters with an escape of their own.
  iterate 7
    exact visible_of_all rfl h
  · have hall : forall n : Fin 32, ['\\', 'u', '0', '0', Nat.digitChar (n.val / 16),
        Nat.digitChar (n.val % 16)].all (fun c => 32 ≤ c.toNat) = true := by
      decide
    exact visible_of_all (hall ⟨c.toNat, hcontrol⟩) h
  · rw [List.mem_singleton.mp h]
    exact Nat.le_of_not_lt hcontrol

theorem visible_of_mem_quote {cs : List Char} {d : Char} (h : d ∈ quote cs) : 32 ≤ d.toNat := by
  unfold quote at h
  rcases List.mem_cons.mp h with hopen | h
  · rw [hopen]
    decide
  rcases List.mem_append.mp h with hbody | hclose
  · rcases List.mem_flatMap.mp hbody with ⟨c, -, hc⟩
    exact visible_of_mem_escape hc
  · rw [List.mem_singleton.mp hclose]
    decide

theorem visible_of_mem_printInt {n : Int} {d : Char} (h : d ∈ printInt n) : 32 ≤ d.toNat := by
  have hdigit : forall m, d ∈ Nat.toDigits 10 m -> 32 ≤ d.toNat := by
    intro m hd
    have hrange := isDigit_of_mem_toDigits hd
    unfold Char.isDigit at hrange
    simp only [Bool.and_eq_true, decide_eq_true_eq] at hrange
    exact Nat.le_trans (by decide) (UInt32.le_iff_toNat_le.mp hrange.left)
  cases n with
  | ofNat m => exact hdigit m h
  | negSucc m =>
      rcases List.mem_cons.mp h with hsign | h
      · rw [hsign]
        decide
      · exact hdigit (m + 1) h

/-- A field is visible if its value and what follows it are. -/
theorem visible_of_mem_member {name : String} {x : Json} {fields : List (String × Json)} {d : Char}
    (hx : d ∈ printValue x -> 32 ≤ d.toNat) (hfields : d ∈ printMembers fields -> 32 ≤ d.toNat)
    (h : d ∈ quote name.toList ++ ':' :: (printValue x ++ printMembers fields)) :
    32 ≤ d.toNat := by
  rcases List.mem_append.mp h with hname | h
  · exact visible_of_mem_quote hname
  rcases List.mem_cons.mp h with hcolon | h
  · rw [hcolon]
    decide
  rcases List.mem_append.mp h with hvalue | hrest
  · exact hx hvalue
  · exact hfields hrest

mutual

theorem visible_of_mem_printValue : forall (j : Json) (d : Char), d ∈ printValue j -> 32 ≤ d.toNat
  | null, d, h => by
      rw [printValue] at h
      exact visible_of_all rfl h
  | bool b, d, h => by
      cases b
      all_goals
        rw [printValue] at h
        exact visible_of_all rfl h
  | num n, d, h => by
      rw [printValue] at h
      exact visible_of_mem_printInt h
  | str s, d, h => by
      rw [printValue] at h
      exact visible_of_mem_quote h
  | arr [], d, h => by
      rw [printValue] at h
      exact visible_of_all rfl h
  | arr (x :: xs), d, h => by
      rw [printValue] at h
      rcases List.mem_cons.mp h with hopen | h
      · rw [hopen]
        decide
      rcases List.mem_append.mp h with hx | hxs
      · exact visible_of_mem_printValue x d hx
      · exact visible_of_mem_printItems xs d hxs
  | obj [], d, h => by
      rw [printValue] at h
      exact visible_of_all rfl h
  | obj ((name, x) :: fields), d, h => by
      rw [printValue] at h
      rcases List.mem_cons.mp h with hopen | h
      · rw [hopen]
        decide
      · exact visible_of_mem_member (visible_of_mem_printValue x d)
          (visible_of_mem_printMembers fields d) h

theorem visible_of_mem_printItems : forall (xs : List Json) (d : Char),
    d ∈ printItems xs -> 32 ≤ d.toNat
  | [], d, h => by
      rw [printItems] at h
      exact visible_of_all rfl h
  | x :: xs, d, h => by
      rw [printItems] at h
      rcases List.mem_cons.mp h with hcomma | h
      · rw [hcomma]
        decide
      rcases List.mem_append.mp h with hx | hxs
      · exact visible_of_mem_printValue x d hx
      · exact visible_of_mem_printItems xs d hxs

theorem visible_of_mem_printMembers : forall (fields : List (String × Json)) (d : Char),
    d ∈ printMembers fields -> 32 ≤ d.toNat
  | [], d, h => by
      rw [printMembers] at h
      exact visible_of_all rfl h
  | (name, x) :: fields, d, h => by
      rw [printMembers] at h
      rcases List.mem_cons.mp h with hcomma | h
      · rw [hcomma]
        decide
      · exact visible_of_mem_member (visible_of_mem_printValue x d)
          (visible_of_mem_printMembers fields d) h

end

/-- What is printed has no line end in it. -/
theorem newline_not_mem_print (j : Json) : '\n' ∉ (compact.print j).toList := by
  intro h
  have hprinted : (compact.print j).toList = printValue j := String.toList_ofList
  rw [hprinted] at h
  exact absurd (visible_of_mem_printValue j _ h) (by decide)

def isSpace (c : Char) : Bool :=
  c = ' ' || c = '\t' || c = '\n' || c = '\r'

/-- A document with nothing but white space after it. -/
def parseLine (s : String) : Option Json :=
  match readValue s.toList.length s.toList with
  | some (j, rest) => if rest.all isSpace then some j else none
  | none => none

theorem parseLine_print (j : Json) : parseLine (compact.print j ++ "\n") = some j := by
  have hprinted : (compact.print j ++ "\n").toList = printValue j ++ ['\n'] := by
    rw [String.toList_append]
    exact congrArg (· ++ ['\n']) String.toList_ofList
  have hfuel : (printValue j).length ≤ (printValue j ++ ['\n']).length := by simp
  unfold parseLine
  rw [hprinted, readValue_printValue j _ _ hfuel (stops_cons (by decide) [])]
  rfl

end Json
end Foundation
end WispersAccess
