import WispersAccess.Foundation.Texts

/-!
# Terminals

What a terminal shows of a text with colours.  A character becomes a cell in the
colours that are set when it comes, an escape sequence sets a colour of the palette
or takes the colours back, and a newline ends a line.
-/

namespace WispersAccess
namespace Foundation

/-- A character on the screen; a colour is an index of the palette, or the terminal's own. -/
structure Cell where
  glyph : Char
  foreground : Option Nat
  background : Option Nat
  deriving DecidableEq, Repr

structure Terminal where
  /-- What has come of an escape sequence that has not ended. -/
  pending : Option (List Char)
  foreground : Option Nat
  background : Option Nat
  line : List Cell
  lines : List (List Cell)
  deriving DecidableEq, Repr

/-- Red, green and blue of the palette's colours that are the same on every terminal. -/
def paletteColour (index : Nat) : Option (Nat × Nat × Nat) :=
  let level := fun n => if n = 0 then 0 else 55 + 40 * n
  if index < 16 then none
  else if index < 232 then
    let n := index - 16
    some (level (n / 36), level (n / 6 % 6), level (n % 6))
  else if index < 256 then
    let grey := 8 + 10 * (index - 232)
    some (grey, grey, grey)
  else none

namespace Terminal

/-- A terminal that has shown these lines. -/
def shown (lines : List (List Cell)) : Terminal where
  pending := none
  foreground := none
  background := none
  line := []
  lines := lines

/-- The colours that `38;5;n`, `48;5;n` and `0` set. -/
def setColours (t : Terminal) (params : List (List Char)) : Option Terminal :=
  match params with
  | [reset] =>
      if reset = ['0'] then some { t with foreground := none, background := none } else none
  | [target, mode, index] =>
      if mode ≠ ['5'] then none
      else if target = ['3', '8'] then
        (decimalValue index).map fun n => { t with foreground := some n }
      else if target = ['4', '8'] then
        (decimalValue index).map fun n => { t with background := some n }
      else none
  | _ => none

/-- An escape sequence has ended. -/
def escape (t : Terminal) (sequence : List Char) : Option Terminal :=
  match sequence with
  | '[' :: params => t.setColours (params.splitOn ';')
  | _ => none

def step (t : Terminal) (c : Char) : Option Terminal :=
  match t.pending with
  | some sequence =>
      if c = 'm' then { t with pending := none }.escape sequence
      else some { t with pending := some (sequence ++ [c]) }
  | none =>
      if c = '\x1b' then some { t with pending := some [] }
      else if c = '\n' then some { t with line := [], lines := t.lines ++ [t.line] }
      else some { t with line := t.line ++ [⟨c, t.foreground, t.background⟩] }

def feed (t : Terminal) (cs : List Char) : Option Terminal :=
  cs.foldlM step t

/-- The lines of a text that ends its last one. -/
def screen (cs : List Char) : Option (List (List Cell)) :=
  ((shown []).feed cs).bind fun t =>
    if t.pending = none ∧ t.line = [] then some t.lines else none

/-!
## What is shown
-/

variable {t : Terminal}

theorem feed_append (t : Terminal) (xs ys : List Char) :
    t.feed (xs ++ ys) = (t.feed xs).bind fun t => t.feed ys :=
  List.foldlM_append

theorem feed_cons (t : Terminal) (c : Char) (cs : List Char) :
    t.feed (c :: cs) = (t.step c).bind fun t => t.feed cs :=
  List.foldlM_cons

theorem feed_pending {params : List Char} (h : 'm' ∉ params) (sequence : List Char) :
    { t with pending := some sequence }.feed (params ++ ['m']) =
      { t with pending := none }.escape (sequence ++ params) := by
  induction params generalizing sequence with
  | nil =>
      rw [List.nil_append, feed_cons, List.append_nil]
      exact Option.bind_fun_some _
  | cons c params ih =>
      rw [List.mem_cons, not_or] at h
      have hc : ¬ c = 'm' := fun heq => h.left heq.symm
      have hstep : { t with pending := some sequence }.step c =
          some { t with pending := some (sequence ++ [c]) } := if_neg hc
      rw [List.cons_append, feed_cons, hstep, Option.bind_some, ih h.right, List.append_assoc]
      rfl

/-- An escape sequence sets its colours. -/
theorem feed_escape (ht : t.pending = none) {params : List Char} (h : 'm' ∉ params) :
    t.feed ('\x1b' :: (params ++ ['m'])) = t.escape params := by
  have hstep : t.step '\x1b' = some { t with pending := some [] } := by
    unfold step
    rw [ht]
    rfl
  have hidle : { t with pending := none } = t := by
    rw [← ht]
  rw [feed_cons, hstep, Option.bind_some, feed_pending h, hidle, List.nil_append]

/-- Characters are shown in the colours that are set. -/
theorem feed_glyphs (ht : t.pending = none) {glyphs : List Char}
    (h : forall c, c ∈ glyphs -> c ≠ '\x1b' ∧ c ≠ '\n') :
    t.feed glyphs =
      some { t with line := t.line ++ glyphs.map fun c => ⟨c, t.foreground, t.background⟩ } := by
  induction glyphs generalizing t with
  | nil =>
      rw [List.map_nil, List.append_nil]
      rfl
  | cons c glyphs ih =>
      have hc := h c List.mem_cons_self
      have hstep : t.step c =
          some { t with line := t.line ++ [⟨c, t.foreground, t.background⟩] } := by
        unfold step
        rw [ht]
        show (if c = '\x1b' then _ else if c = '\n' then _ else _) = _
        rw [if_neg hc.left, if_neg hc.right]
      have hrest := ih (t := { t with line := t.line ++ [⟨c, t.foreground, t.background⟩] }) ht
        fun d hd => h d (List.mem_cons_of_mem _ hd)
      rw [feed_cons, hstep, Option.bind_some, hrest, List.map_cons, List.append_assoc]
      rfl

theorem feed_newline (ht : t.pending = none) :
    t.feed ['\n'] = some { t with line := [], lines := t.lines ++ [t.line] } := by
  have hstep : t.step '\n' = some { t with line := [], lines := t.lines ++ [t.line] } := by
    unfold step
    rw [ht]
    rfl
  rw [feed_cons, hstep]
  rfl

theorem screen_of_feed {cs : List Char} {lines : List (List Cell)}
    (h : (shown []).feed cs = some (shown lines)) : screen cs = some lines := by
  unfold screen
  rw [h]
  rfl

end Terminal

end Foundation
end WispersAccess
