import Mathlib.Data.List.Basic

/-!
# Lines

What a reader takes up to the end of a line, and the lines of texts that grow.
-/

namespace WispersAccess
namespace Foundation

section
variable {α : Type _} [DecidableEq α] {sep : α}

/-- The input up to its first separator, which is part of the line, and what follows. -/
def readLine (sep : α) : List α -> List α × List α
  | [] => ([], [])
  | x :: xs =>
      if x = sep then ([x], xs)
      else (x :: (readLine sep xs).1, (readLine sep xs).2)

/-- A line ends at its separator. -/
theorem readLine_line {line : List α} (h : sep ∉ line) (rest : List α) :
    readLine sep (line ++ sep :: rest) = (line ++ [sep], rest) := by
  induction line with
  | nil => simp [readLine]
  | cons x line ih =>
      have hx : ¬ x = sep := by
        intro heq
        exact h (heq ▸ List.mem_cons_self)
      have hline : sep ∉ line := fun hmem => h (List.mem_cons_of_mem _ hmem)
      rw [List.cons_append, readLine, if_neg hx, ih hline, List.cons_append]

theorem readLine_of_not_mem {xs : List α} (h : sep ∉ xs) : readLine sep xs = (xs, []) := by
  induction xs with
  | nil => rfl
  | cons x xs ih =>
      have hx : ¬ x = sep := by
        intro heq
        exact h (heq ▸ List.mem_cons_self)
      rw [readLine, if_neg hx, ih fun hmem => h (List.mem_cons_of_mem _ hmem)]

/-- Where there is a separator, a line ends. -/
theorem readLine_of_mem {xs : List α} (h : sep ∈ xs) :
    exists line rest, xs = line ++ sep :: rest ∧ sep ∉ line ∧
      readLine sep xs = (line ++ [sep], rest) := by
  rcases List.eq_append_cons_of_mem h with ⟨line, rest, rfl, hline⟩
  exact ⟨line, rest, rfl, hline, readLine_line hline rest⟩

/-!
## The lines of a text
-/

/-- The lines that have ended, each with its separator, and the one that has not. -/
structure LineSplit (α : Type _) where
  lines : List (List α)
  rest : List α
  deriving DecidableEq, Repr

namespace LineSplit

def add (sep : α) (s : LineSplit α) (x : α) : LineSplit α :=
  if x = sep then { lines := s.lines ++ [s.rest ++ [x]], rest := [] }
  else { s with rest := s.rest ++ [x] }

/-- What more text makes of them. -/
def feed (sep : α) (s : LineSplit α) (xs : List α) : LineSplit α :=
  xs.foldl (add sep) s

/-- The lines once no more text comes: the last one is ended where the text did not. -/
def ended (sep : α) (s : LineSplit α) : List (List α) :=
  if s.rest = [] then s.lines else s.lines ++ [s.rest ++ [sep]]

@[simp] theorem feed_nil (s : LineSplit α) : s.feed sep [] = s :=
  rfl

theorem feed_append (s : LineSplit α) (xs ys : List α) :
    s.feed sep (xs ++ ys) = (s.feed sep xs).feed sep ys :=
  List.foldl_append

theorem feed_of_not_mem (s : LineSplit α) {xs : List α} (h : sep ∉ xs) :
    s.feed sep xs = { s with rest := s.rest ++ xs } := by
  induction xs generalizing s with
  | nil => simp
  | cons x xs ih =>
      have hx : ¬ x = sep := by
        intro heq
        exact h (heq ▸ List.mem_cons_self)
      show (s.add sep x).feed sep xs = _
      rw [ih _ fun hmem => h (List.mem_cons_of_mem _ hmem), add, if_neg hx, List.append_assoc]
      rfl

theorem feed_line (s : LineSplit α) {line : List α} (h : sep ∉ line) :
    s.feed sep (line ++ [sep]) =
      { lines := s.lines ++ [s.rest ++ line ++ [sep]], rest := [] } := by
  rw [feed_append, feed_of_not_mem s h]
  exact if_pos rfl

theorem not_mem_rest_feed {s : LineSplit α} (h : sep ∉ s.rest) (xs : List α) :
    sep ∉ (s.feed sep xs).rest := by
  induction xs generalizing s with
  | nil => exact h
  | cons x xs ih =>
      refine ih ?_
      unfold add
      split
      · simp
      · rename_i hx
        simp only [List.mem_append, List.mem_singleton, not_or]
        exact ⟨h, fun heq => hx heq.symm⟩

theorem lines_feed (s : LineSplit α) (xs : List α) : s.lines <+: (s.feed sep xs).lines := by
  induction xs generalizing s with
  | nil => exact List.prefix_rfl
  | cons x xs ih =>
      have hadd : s.lines <+: (s.add sep x).lines := by
        unfold add
        split
        · exact List.prefix_append _ _
        · exact List.prefix_rfl
      exact hadd.trans (ih _)

omit [DecidableEq α] in
theorem lines_ended (s : LineSplit α) : s.lines <+: s.ended sep := by
  unfold ended
  split
  · exact List.prefix_rfl
  · exact List.prefix_append _ _

end LineSplit

/-- Split a text at its separators. -/
def splitLines (sep : α) (xs : List α) : LineSplit α :=
  LineSplit.feed sep { lines := [], rest := [] } xs

theorem splitLines_append (xs ys : List α) :
    splitLines sep (xs ++ ys) = (splitLines sep xs).feed sep ys :=
  LineSplit.feed_append _ xs ys

theorem not_mem_rest (xs : List α) : sep ∉ (splitLines sep xs).rest :=
  LineSplit.not_mem_rest_feed (by simp) xs

/-!
## Texts that follow each other

Only the last of them grows; where the next one begins, a line begins.
-/

/-- The lines of a text after which another one comes. -/
def endedLines (sep : α) (text : List α) : List (List α) :=
  (splitLines sep text).ended sep

def linesOf (sep : α) : List (List α) -> List (List α)
  | [] => []
  | [text] => (splitLines sep text).lines
  | text :: next :: rest => endedLines sep text ++ linesOf sep (next :: rest)

theorem linesOf_cons (text : List α) {rest : List (List α)} (h : rest ≠ []) :
    linesOf sep (text :: rest) = endedLines sep text ++ linesOf sep rest := by
  cases rest with
  | nil => exact absurd rfl h
  | cons next rest => rfl

theorem linesOf_append (front : List (List α)) (text : List α) (back : List (List α)) :
    linesOf sep (front ++ text :: back) =
      front.flatMap (endedLines sep) ++ linesOf sep (text :: back) := by
  induction front with
  | nil => rfl
  | cons x front ih =>
      rw [List.cons_append, linesOf_cons x (by simp), ih, List.flatMap_cons, List.append_assoc]

/-- The lines that have ended in a text stay the first ones, whatever comes after it. -/
theorem lines_of_first (text : List α) (back : List (List α)) :
    (splitLines sep text).lines <+: linesOf sep (text :: back) := by
  cases back with
  | nil => exact List.prefix_rfl
  | cons next back => exact (LineSplit.lines_ended _).trans (List.prefix_append _ _)

/-- As the last text grows, and others come after it, the lines get more. -/
theorem linesOf_grown (front : List (List α)) (text more : List α) (back : List (List α)) :
    linesOf sep (front ++ [text]) <+: linesOf sep (front ++ (text ++ more) :: back) := by
  rw [linesOf_append, linesOf_append, List.prefix_append_right_inj]
  have hmore : (splitLines sep text).lines <+: (splitLines sep (text ++ more)).lines := by
    rw [splitLines_append]
    exact LineSplit.lines_feed _ _
  exact hmore.trans (lines_of_first _ back)

end

end Foundation
end WispersAccess
