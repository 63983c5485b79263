import WispersAccess.Foundation.ByteCodec
import WispersAccess.Foundation.Json
import WispersAccess.Foundation.Terminal

/-!
# QR codes in the terminal

An invite is shown as a QR code, drawn with colours and half blocks or with
colours alone.  Reading what a terminal shows of it gives the code back, inside a
light border.
-/

namespace WispersAccess
namespace Host

open Foundation

/-!
## Rendering
-/

inductive Color where
  | light
  | dark
  deriving DecidableEq, Repr

/-- A QR code: its modules, row after row. -/
structure QrCode where
  width : Nat
  colors : List Color
  length_colors : colors.length = width * width

/-- The palette's #000000. -/
def black : String := "16"

/-- The palette's #ffffff. -/
def white : String := "231"

/-- The light border around a rendered code, in modules. -/
def quiet : Nat := 4

/-- A code's modules with the quiet zone around them. -/
structure Grid where
  /-- Modules per side, quiet zone included. -/
  size : Nat
  width : Nat
  modules : List Color
  deriving DecidableEq, Repr

/-- What is drawn so far, and the background that is set in this line. -/
structure Pen where
  out : List Char
  bg : String
  deriving DecidableEq, Repr

/-- Draw glyphs on a background, which is set where it is not yet. -/
def Pen.put (pen : Pen) (cellBg : String) (glyphs : List Char) : Pen :=
  if cellBg ≠ pen.bg then
    { out := pen.out ++ ("\x1b[48;5;" ++ cellBg ++ "m").toList ++ glyphs, bg := cellBg }
  else { pen with out := pen.out ++ glyphs }

/-- The background and the glyph for two modules, one above the other. -/
def halfBlock : Bool -> Bool -> String × Char
  | true, true => (black, ' ')
  | false, false => (white, ' ')
  | true, false => (white, '▀')
  | false, true => (white, '▄')

namespace Grid

def new (qr : QrCode) : Grid where
  size := qr.width + 2 * quiet
  width := qr.width
  modules := qr.colors

/-- Whether the module is dark.  No value is a read beyond the list of modules. -/
def dark (grid : Grid) (x y : Nat) : Option Bool :=
  if x < quiet ∨ y < quiet ∨ quiet + grid.width ≤ x ∨ quiet + grid.width ≤ y then some false
  else grid.modules[(y - quiet) * grid.width + (x - quiet)]?.map fun color => color == Color.dark

def putHalfBlock (grid : Grid) (y : Nat) (pen : Pen) (x : Nat) : Option Pen := do
  let top <- grid.dark x y
  let bottom <- grid.dark x (y + 1)
  let cell := halfBlock top bottom
  return pen.put cell.1 [cell.2]

def putCells (grid : Grid) (cells y : Nat) (pen : Pen) (x : Nat) : Option Pen := do
  let dark <- grid.dark x y
  return pen.put (if dark then black else white) (List.replicate cells ' ')

def halfBlockLine (grid : Grid) (y : Nat) (out : List Char) : Option (List Char) := do
  let pen := { out := out ++ ("\x1b[38;5;" ++ black ++ "m").toList, bg := "" }
  let pen <- (List.range grid.size).foldlM (grid.putHalfBlock y) pen
  return pen.out ++ "\x1b[0m\n".toList

def cellsLine (grid : Grid) (cells : Nat) (out : List Char) (y : Nat) : Option (List Char) := do
  let pen <- (List.range grid.size).foldlM (grid.putCells cells y) { out := out, bg := "" }
  return pen.out ++ "\x1b[0m\n".toList

/-- Two rows of modules a line, from the row `y`. -/
def halfBlockLines (grid : Grid) (y : Nat) (out : List Char) : Option (List Char) :=
  if y < grid.size then
    (grid.halfBlockLine y out).bind fun out => grid.halfBlockLines (y + 2) out
  else some out
termination_by grid.size - y

end Grid

/-- The "small" format, with two module rows a line. -/
def renderQrHalfBlocks (qr : QrCode) : Option (List Char) :=
  (Grid.new qr).halfBlockLines 0 []

/-- The "compat" format, with a module as so many spaces. -/
def renderQrCells (qr : QrCode) (cells : Nat) : Option (List Char) :=
  let grid := Grid.new qr
  (List.range grid.size).foldlM (grid.cellsLine cells) []

/-!
## Reading
-/

/-- Whether a colour on the screen is dark; only black and white are told. -/
def shade (colour : Option Nat) : Option Bool :=
  match colour.bind paletteColour with
  | some (0, 0, 0) => some true
  | some (255, 255, 255) => some false
  | _ => none

/-- The upper and the lower half of a cell. -/
def readHalves (cell : Cell) : Option (Bool × Bool) := do
  let background <- shade cell.background
  let foreground <- shade cell.foreground
  if cell.glyph = ' ' then return (background, background)
  else if cell.glyph = '▀' then return (foreground, background)
  else if cell.glyph = '▄' then return (background, foreground)
  else none

def readBlank (cell : Cell) : Option Bool :=
  if cell.glyph = ' ' then shade cell.background else none

/-- The elements of a list in which each stands once and `extra` times more. -/
def unstretch {α : Type _} [DecidableEq α] (extra : Nat) : List α -> Option (List α)
  | [] => some []
  | x :: xs =>
      if xs.take extra = List.replicate extra x then
        (unstretch extra (xs.drop extra)).map fun rest => x :: rest
      else none
termination_by xs => xs.length
decreasing_by
  simp only [List.length_cons, List.length_drop]
  omega

/-- The rows of a picture drawn with half blocks. -/
def readHalfBlocks (out : List Char) : Option (List (List Bool)) := do
  let lines <- Terminal.screen out
  let halves <- lines.mapM fun line => line.mapM readHalves
  return halves.flatMap fun line => [line.map Prod.fst, line.map Prod.snd]

/-- A row drawn with so many blanks a module. -/
def readBlankLine (cells : Nat) (line : List Cell) : Option (List Bool) :=
  (line.mapM readBlank).bind (unstretch (cells - 1))

/-- The rows of a picture drawn with so many blanks a module. -/
def readCells (cells : Nat) (out : List Char) : Option (List (List Bool)) :=
  (Terminal.screen out).bind fun lines => lines.mapM (readBlankLine cells)

/-!
## The picture
-/

/-- A list with so much before it and behind it. -/
def framed {α : Type _} (border : Nat) (fill : α) (xs : List α) : List α :=
  List.replicate border fill ++ xs ++ List.replicate border fill

namespace QrCode

/-- The rows of the code; what is dark is `true`. -/
def rows (qr : QrCode) : List (List Bool) :=
  groups qr.width qr.width (qr.colors.map fun color => color == Color.dark)

def lightRow (qr : QrCode) : List Bool :=
  List.replicate (qr.width + 2 * quiet) false

/-- The code inside its light border. -/
def picture (qr : QrCode) : List (List Bool) :=
  framed quiet qr.lightRow (qr.rows.map (framed quiet false))

/-- A row of the picture; beyond it everything is light. -/
def line (qr : QrCode) (y : Nat) : List Bool :=
  qr.picture[y]?.getD qr.lightRow

def pixel (qr : QrCode) (x y : Nat) : Bool :=
  (qr.line y)[x]?.getD false

end QrCode

section
variable {α : Type _}

@[simp] theorem length_framed (border : Nat) (fill : α) (xs : List α) :
    (framed border fill xs).length = xs.length + 2 * border := by
  unfold framed
  simp only [List.length_append, List.length_replicate]
  omega

theorem getElem?_framed (border : Nat) (fill : α) (xs : List α) (i : Nat) :
    (framed border fill xs)[i]?.getD fill =
      if border ≤ i then xs[i - border]?.getD fill else fill := by
  unfold framed
  rw [List.append_assoc]
  by_cases hi : border ≤ i
  · rw [if_pos hi, List.getElem?_append_right (by rw [List.length_replicate]; exact hi),
      List.length_replicate]
    by_cases hinside : i - border < xs.length
    · rw [List.getElem?_append_left hinside]
    · have hbeyond : xs.length ≤ i - border := Nat.le_of_not_lt hinside
      rw [List.getElem?_append_right hbeyond, List.getElem?_eq_none hbeyond,
        List.getElem?_replicate]
      split
      · rfl
      · rfl
  · have hbefore : i < border := Nat.lt_of_not_le hi
    rw [if_neg hi, List.getElem?_append_left (by rw [List.length_replicate]; exact hbefore),
      List.getElem?_replicate, if_pos hbefore]
    rfl

/-- A list is made up of what stands at its places. -/
theorem map_range_getElem? {xs : List α} {n : Nat} (h : xs.length = n) (fill : α) :
    ((List.range n).map fun i => xs[i]?.getD fill) = xs := by
  apply List.ext_getElem
  · rw [List.length_map, List.length_range, h]
  · intro i hi hxs
    rw [List.getElem_map, List.getElem_range, List.getElem?_eq_getElem hxs]
    rfl

end

/-!
## The grid
-/

namespace QrCode

variable (qr : QrCode)

/-- The rows are the code's modules. -/
theorem flatten_rows :
    qr.rows.flatten = qr.colors.map fun color => color == Color.dark := by
  unfold rows
  exact flatten_groups (by rw [List.length_map, qr.length_colors])

theorem length_of_mem_rows {row : List Bool} (h : row ∈ qr.rows) : row.length = qr.width := by
  unfold rows at h
  exact length_of_mem_groups (by rw [List.length_map, qr.length_colors]) h

@[simp] theorem length_picture : qr.picture.length = qr.width + 2 * quiet := by
  unfold picture rows
  rw [length_framed, List.length_map, length_groups]

theorem length_line (y : Nat) : (qr.line y).length = qr.width + 2 * quiet := by
  have hlight : qr.lightRow.length = qr.width + 2 * quiet := List.length_replicate
  unfold line picture
  rw [getElem?_framed]
  split
  · rw [List.getElem?_map]
    cases hrow : qr.rows[y - quiet]? with
    | none => exact hlight
    | some row =>
        show (framed quiet false row).length = _
        rw [length_framed, qr.length_of_mem_rows (List.mem_of_getElem? hrow)]
  · exact hlight

/-- The pixels of the quiet zone and of what is beyond the picture are light. -/
theorem pixel_eq (x y : Nat) :
    qr.pixel x y =
      if quiet ≤ y ∧ quiet ≤ x then
        ((qr.rows[y - quiet]?.getD [])[x - quiet]?).getD false
      else false := by
  have hlight : qr.lightRow[x]?.getD false = false := by
    unfold lightRow
    rw [List.getElem?_replicate]
    split
    · rfl
    · rfl
  unfold pixel line picture
  rw [getElem?_framed]
  by_cases hy : quiet ≤ y
  · rw [if_pos hy, List.getElem?_map]
    cases qr.rows[y - quiet]? with
    | none =>
        rw [Option.map_none, Option.getD_none, hlight, Option.getD_none]
        split
        · rfl
        · rfl
    | some row =>
        rw [Option.map_some, Option.getD_some, Option.getD_some, getElem?_framed]
        simp only [hy, true_and]
  · rw [if_neg hy, if_neg fun h => hy h.left]
    exact hlight

end QrCode

/-- Places in rows are places in the list of modules. -/
theorem place_lt {width x y : Nat} (hx : x < width) (hy : y < width) :
    y * width + x < width * width :=
  calc
    y * width + x < y * width + width := Nat.add_lt_add_left hx _
    _ = (y + 1) * width := (Nat.succ_mul y width).symm
    _ ≤ width * width := Nat.mul_le_mul_right width hy

/-- What the grid reads is a module of the picture, and no read is beyond the list. -/
theorem dark_new (qr : QrCode) (x y : Nat) : (Grid.new qr).dark x y = some (qr.pixel x y) := by
  have hrows : qr.rows.length = qr.width := length_groups _ _ _
  unfold Grid.dark
  rw [qr.pixel_eq]
  show (if x < quiet ∨ y < quiet ∨ quiet + qr.width ≤ x ∨ quiet + qr.width ≤ y then some false
    else _) = _
  by_cases hinside : quiet ≤ y ∧ quiet ≤ x
  · rw [if_pos hinside]
    by_cases hy : y - quiet < qr.width
    · by_cases hx : x - quiet < qr.width
      · have hplace := place_lt hx hy
        have hcode : ¬ (x < quiet ∨ y < quiet ∨ quiet + qr.width ≤ x ∨ quiet + qr.width ≤ y) := by
          omega
        have hrow : qr.rows[y - quiet]? = some (((qr.colors.map fun color =>
            color == Color.dark).drop ((y - quiet) * qr.width)).take qr.width) :=
          getElem?_groups hy _
        have hlength : (y - quiet) * qr.width + (x - quiet) < qr.colors.length := by
          rw [qr.length_colors]
          exact hplace
        have hcolor := List.getElem?_eq_getElem hlength
        rw [if_neg hcode, hrow, Option.getD_some, List.getElem?_take_of_lt hx, List.getElem?_drop,
          List.getElem?_map, hcolor]
        show (qr.colors[(y - quiet) * qr.width + (x - quiet)]?).map _ = _
        rw [hcolor]
        rfl
      · have hright : quiet + qr.width ≤ x := by omega
        rw [if_pos (Or.inr (Or.inr (Or.inl hright)))]
        cases hrow : qr.rows[y - quiet]? with
        | none => rfl
        | some row =>
            have hlength := qr.length_of_mem_rows (List.mem_of_getElem? hrow)
            rw [Option.getD_some, List.getElem?_eq_none (by omega)]
            rfl
    · have hbelow : quiet + qr.width ≤ y := by omega
      have hrow : qr.rows[y - quiet]? = none := List.getElem?_eq_none (by omega)
      rw [if_pos (Or.inr (Or.inr (Or.inr hbelow))), hrow]
      rfl
  · have houtside : x < quiet ∨ y < quiet ∨ quiet + qr.width ≤ x ∨ quiet + qr.width ≤ y := by
      omega
    rw [if_pos houtside, if_neg hinside]

theorem map_pixel (qr : QrCode) (y : Nat) :
    ((List.range (qr.width + 2 * quiet)).map fun x => qr.pixel x y) = qr.line y :=
  map_range_getElem? (qr.length_line y) false

theorem map_line (qr : QrCode) :
    (List.range (qr.width + 2 * quiet)).map qr.line = qr.picture :=
  map_range_getElem? qr.length_picture qr.lightRow

/-- Below the picture everything is light. -/
theorem line_below (qr : QrCode) : qr.line (qr.width + 2 * quiet) = qr.lightRow := by
  unfold QrCode.line
  rw [List.getElem?_eq_none (Nat.le_of_eq qr.length_picture)]
  rfl

/-!
## Drawing
-/

/-- The background for a dark or a light cell, as the escape sequences name it. -/
def ink (dark : Bool) : String :=
  if dark then black else white

/-- Its index in the palette. -/
def paletteIndex (dark : Bool) : Nat :=
  if dark then 16 else 231

theorem shade_paletteIndex (dark : Bool) : shade (some (paletteIndex dark)) = some dark := by
  cases dark with
  | false => rfl
  | true => rfl

theorem ink_injective {dark dark' : Bool} (h : ink dark = ink dark') : dark = dark' := by
  revert h
  cases dark <;> cases dark' <;> decide

theorem ink_ne_empty (dark : Bool) : ink dark ≠ "" := by
  cases dark <;> decide

/-- A terminal that is fed what is drawn so far knows the pen's background. -/
structure Shows (pen : Pen) (t : Terminal) : Prop where
  fed : (Terminal.shown []).feed pen.out = some t
  idle : t.pending = none
  background : pen.bg = "" ∨
    exists dark, pen.bg = ink dark ∧ t.background = some (paletteIndex dark)

theorem feed_background {t : Terminal} (ht : t.pending = none) (dark : Bool) :
    t.feed ("\x1b[48;5;" ++ ink dark ++ "m").toList =
      some { t with background := some (paletteIndex dark) } := by
  cases dark with
  | false =>
      have hparams : 'm' ∉ "[48;5;231".toList := by decide
      exact Terminal.feed_escape ht hparams
  | true =>
      have hparams : 'm' ∉ "[48;5;16".toList := by decide
      exact Terminal.feed_escape ht hparams

theorem feed_foreground {t : Terminal} (ht : t.pending = none) :
    t.feed ("\x1b[38;5;" ++ black ++ "m").toList = some { t with foreground := some 16 } := by
  have hparams : 'm' ∉ "[38;5;16".toList := by decide
  exact Terminal.feed_escape ht hparams

/-- Every line ends with the colours taken back. -/
theorem feed_reset {t : Terminal} (ht : t.pending = none) :
    t.feed "\x1b[0m\n".toList =
      some { t with
        foreground := none, background := none, line := [], lines := t.lines ++ [t.line] } := by
  have hparams : 'm' ∉ "[0".toList := by decide
  have hreset : t.feed "\x1b[0m".toList =
      some { t with foreground := none, background := none } :=
    Terminal.feed_escape ht hparams
  have htext : "\x1b[0m\n".toList = "\x1b[0m".toList ++ ['\n'] := rfl
  rw [htext, Terminal.feed_append, hreset, Option.bind_some]
  exact Terminal.feed_newline ht

/-- What one `put` shows. -/
theorem Shows.put {pen : Pen} {t : Terminal} (h : Shows pen t) (dark : Bool) {glyphs : List Char}
    (hglyphs : forall c, c ∈ glyphs -> c ≠ '\x1b' ∧ c ≠ '\n') :
    Shows (pen.put (ink dark) glyphs)
      { t with
        background := some (paletteIndex dark)
        line := t.line ++ glyphs.map fun c => ⟨c, t.foreground, some (paletteIndex dark)⟩ } := by
  unfold Pen.put
  by_cases hbg : ink dark = pen.bg
  · rw [if_neg (not_not_intro hbg)]
    have hset : t.background = some (paletteIndex dark) := by
      rcases h.background with hempty | ⟨dark', hdark', hset⟩
      · exact absurd (hbg.trans hempty) (ink_ne_empty dark)
      · rw [ink_injective (hbg.trans hdark')]
        exact hset
    refine ⟨?_, h.idle, Or.inr ⟨dark, hbg.symm, rfl⟩⟩
    rw [Terminal.feed_append, h.fed, Option.bind_some, Terminal.feed_glyphs h.idle hglyphs, hset]
  · rw [if_pos hbg]
    refine ⟨?_, h.idle, Or.inr ⟨dark, rfl, rfl⟩⟩
    rw [Terminal.feed_append, Terminal.feed_append, h.fed, Option.bind_some,
      feed_background h.idle, Option.bind_some]
    have hidle : { t with background := some (paletteIndex dark) }.pending = none := h.idle
    exact Terminal.feed_glyphs hidle hglyphs

theorem Shows.ended {pen : Pen} {t : Terminal} (h : Shows pen t) :
    (Terminal.shown []).feed (pen.out ++ "\x1b[0m\n".toList) =
      some (Terminal.shown (t.lines ++ [t.line])) := by
  rw [Terminal.feed_append, h.fed, Option.bind_some, feed_reset h.idle, h.idle]
  rfl

/-- What a row of `put`s shows: the glyphs of each place on its background. -/
theorem Shows.puts {put : Pen -> Nat -> Option Pen} {dark : Nat -> Bool}
    {glyphs : Nat -> List Char}
    (hput : forall pen x, put pen x = some (pen.put (ink (dark x)) (glyphs x)))
    (hglyphs : forall x c, c ∈ glyphs x -> c ≠ '\x1b' ∧ c ≠ '\n') (xs : List Nat)
    {pen : Pen} {t : Terminal} (h : Shows pen t) :
    exists pen' t', xs.foldlM put pen = some pen' ∧ Shows pen' t' ∧ t'.lines = t.lines ∧
      t'.line = t.line ++ xs.flatMap fun x =>
        (glyphs x).map fun c => ⟨c, t.foreground, some (paletteIndex (dark x))⟩ := by
  induction xs generalizing pen t with
  | nil =>
      refine ⟨pen, t, rfl, h, rfl, ?_⟩
      rw [List.flatMap_nil, List.append_nil]
  | cons x xs ih =>
      rcases ih (h.put (dark x) (hglyphs x)) with ⟨pen', t', hfold, hshows, hlines, hline⟩
      refine ⟨pen', t', ?_, hshows, hlines, ?_⟩
      · rw [List.foldlM_cons, hput]
        exact hfold
      · rw [hline, List.flatMap_cons, List.append_assoc]

/-!
## Lines
-/

/-- The cell for two modules, one above the other. -/
def halfCell (modules : Bool × Bool) : Cell :=
  ⟨(halfBlock modules.1 modules.2).2, some 16, some (paletteIndex (modules.1 && modules.2))⟩

def blankCell (dark : Bool) : Cell :=
  ⟨' ', none, some (paletteIndex dark)⟩

def blankLine (cells : Nat) (row : List Bool) : List Cell :=
  (row.flatMap (List.replicate cells)).map blankCell

theorem readHalves_halfCell (modules : Bool × Bool) :
    readHalves (halfCell modules) = some modules := by
  rcases modules with ⟨top, bottom⟩
  cases top <;> cases bottom <;> rfl

theorem readBlank_blankCell (dark : Bool) : readBlank (blankCell dark) = some dark :=
  shade_paletteIndex dark

namespace QrCode

/-- A row of the picture and the one below it. -/
def rowPair (qr : QrCode) (y : Nat) : List (Bool × Bool) :=
  (List.range (qr.width + 2 * quiet)).map fun x => (qr.pixel x y, qr.pixel x (y + 1))

theorem rowPair_fst (qr : QrCode) (y : Nat) : (qr.rowPair y).map Prod.fst = qr.line y := by
  unfold rowPair
  rw [List.map_map]
  exact map_pixel qr y

theorem rowPair_snd (qr : QrCode) (y : Nat) : (qr.rowPair y).map Prod.snd = qr.line (y + 1) := by
  unfold rowPair
  rw [List.map_map]
  exact map_pixel qr (y + 1)

end QrCode

section
variable (qr : QrCode) {out : List Char} {lines : List (List Cell)}

theorem putHalfBlock_new (y : Nat) (pen : Pen) (x : Nat) :
    (Grid.new qr).putHalfBlock y pen x =
      some (pen.put (ink (qr.pixel x y && qr.pixel x (y + 1)))
        [(halfBlock (qr.pixel x y) (qr.pixel x (y + 1))).2]) := by
  unfold Grid.putHalfBlock
  rw [dark_new, dark_new]
  cases qr.pixel x y <;> cases qr.pixel x (y + 1) <;> rfl

theorem putCells_new (cells y : Nat) (pen : Pen) (x : Nat) :
    (Grid.new qr).putCells cells y pen x =
      some (pen.put (ink (qr.pixel x y)) (List.replicate cells ' ')) := by
  unfold Grid.putCells
  rw [dark_new]
  rfl

theorem halfBlock_glyph (top bottom : Bool) :
    (halfBlock top bottom).2 ≠ '\x1b' ∧ (halfBlock top bottom).2 ≠ '\n' := by
  cases top <;> cases bottom <;> decide

/-- A line of half blocks shows two rows. -/
theorem halfBlockLine_shown (h : (Terminal.shown []).feed out = some (Terminal.shown lines))
    (y : Nat) :
    exists out', (Grid.new qr).halfBlockLine y out = some out' ∧
      (Terminal.shown []).feed out' =
        some (Terminal.shown (lines ++ [(qr.rowPair y).map halfCell])) := by
  have hstart : Shows { out := out ++ ("\x1b[38;5;" ++ black ++ "m").toList, bg := "" }
      { Terminal.shown lines with foreground := some 16 } := by
    refine ⟨?_, rfl, Or.inl rfl⟩
    rw [Terminal.feed_append, h, Option.bind_some]
    exact feed_foreground rfl
  have hglyphs : forall x c, c ∈ [(halfBlock (qr.pixel x y) (qr.pixel x (y + 1))).2] ->
      c ≠ '\x1b' ∧ c ≠ '\n' := by
    intro x c hc
    rw [List.mem_singleton.mp hc]
    exact halfBlock_glyph _ _
  rcases hstart.puts (putHalfBlock_new qr y) hglyphs (List.range (qr.width + 2 * quiet)) with
    ⟨pen, t, hfold, hshows, hlines, hline⟩
  refine ⟨pen.out ++ "\x1b[0m\n".toList, ?_, ?_⟩
  · unfold Grid.halfBlockLine
    show Option.bind ((List.range (qr.width + 2 * quiet)).foldlM
      ((Grid.new qr).putHalfBlock y) _) _ = _
    rw [hfold]
    rfl
  · have hcells : t.line = (qr.rowPair y).map halfCell := by
      rw [hline]
      unfold QrCode.rowPair
      rw [List.map_map, List.map_eq_flatMap]
      rfl
    rw [hshows.ended, hlines, hcells]
    rfl

/-- A line of blanks shows one row. -/
theorem cellsLine_shown (h : (Terminal.shown []).feed out = some (Terminal.shown lines))
    (cells y : Nat) :
    exists out', (Grid.new qr).cellsLine cells out y = some out' ∧
      (Terminal.shown []).feed out' =
        some (Terminal.shown (lines ++ [blankLine cells (qr.line y)])) := by
  have hstart : Shows { out := out, bg := "" } (Terminal.shown lines) := ⟨h, rfl, Or.inl rfl⟩
  have hglyphs : forall (x : Nat) (c : Char), c ∈ List.replicate cells ' ' ->
      c ≠ '\x1b' ∧ c ≠ '\n' := by
    intro x c hc
    rw [List.eq_of_mem_replicate hc]
    decide
  rcases hstart.puts (putCells_new qr cells y) hglyphs (List.range (qr.width + 2 * quiet)) with
    ⟨pen, t, hfold, hshows, hlines, hline⟩
  refine ⟨pen.out ++ "\x1b[0m\n".toList, ?_, ?_⟩
  · unfold Grid.cellsLine
    show Option.bind ((List.range (qr.width + 2 * quiet)).foldlM
      ((Grid.new qr).putCells cells y) _) _ = _
    rw [hfold]
    rfl
  · have hcells : t.line = blankLine cells (qr.line y) := by
      unfold blankLine
      rw [hline, ← map_pixel, List.flatMap_map, List.map_flatMap]
      simp only [List.map_replicate]
      rfl
    rw [hshows.ended, hlines, hcells]
    rfl

/-- The lines of half blocks from a row on. -/
theorem halfBlockLines_shown (y : Nat)
    (h : (Terminal.shown []).feed out = some (Terminal.shown lines)) :
    exists out', (Grid.new qr).halfBlockLines y out = some out' ∧
      (Terminal.shown []).feed out' =
        some (Terminal.shown (lines ++
          (List.range' y ((qr.width + 2 * quiet - y + 1) / 2) 2).map fun y =>
            (qr.rowPair y).map halfCell)) := by
  induction y, out using Grid.halfBlockLines.induct (Grid.new qr) generalizing lines with
  | case1 y out hy ih =>
      rcases halfBlockLine_shown qr h y with ⟨next, hnext, hfed⟩
      rcases ih next hfed with ⟨out', hrest, hlines⟩
      refine ⟨out', ?_, ?_⟩
      · rw [Grid.halfBlockLines, if_pos hy, hnext]
        exact hrest
      · have hsize : y < qr.width + 2 * quiet := hy
        have hcount : (qr.width + 2 * quiet - y + 1) / 2 =
            (qr.width + 2 * quiet - (y + 2) + 1) / 2 + 1 := by
          omega
        rw [hlines, hcount, List.range'_succ, List.map_cons, List.append_assoc]
        rfl
  | case2 y out hy =>
      refine ⟨out, ?_, ?_⟩
      · rw [Grid.halfBlockLines, if_neg hy]
      · have hsize : ¬ y < qr.width + 2 * quiet := hy
        have hcount : (qr.width + 2 * quiet - y + 1) / 2 = 0 := by omega
        rw [hcount, List.range'_zero, List.map_nil, List.append_nil]
        exact h

/-- The lines of blanks for some rows. -/
theorem cellsLines_shown (cells : Nat) (ys : List Nat)
    (h : (Terminal.shown []).feed out = some (Terminal.shown lines)) :
    exists out', ys.foldlM ((Grid.new qr).cellsLine cells) out = some out' ∧
      (Terminal.shown []).feed out' =
        some (Terminal.shown (lines ++ ys.map fun y => blankLine cells (qr.line y))) := by
  induction ys generalizing out lines with
  | nil =>
      refine ⟨out, rfl, ?_⟩
      rw [List.map_nil, List.append_nil]
      exact h
  | cons y ys ih =>
      rcases cellsLine_shown qr h cells y with ⟨next, hnext, hfed⟩
      rcases ih hfed with ⟨out', hrest, hlines⟩
      refine ⟨out', ?_, ?_⟩
      · rw [List.foldlM_cons, hnext]
        exact hrest
      · rw [hlines, List.map_cons, List.append_assoc]
        rfl

end

/-!
## Round trips
-/

theorem unstretch_stretched {α : Type _} [DecidableEq α] (extra : Nat) (xs : List α) :
    unstretch extra (xs.flatMap (List.replicate (extra + 1))) = some xs := by
  induction xs with
  | nil => rw [List.flatMap_nil, unstretch]
  | cons x xs ih =>
      have hlength : (List.replicate extra x).length = extra := List.length_replicate
      rw [List.flatMap_cons, List.replicate_succ, List.cons_append, unstretch,
        List.take_left' hlength, if_pos rfl, List.drop_left' hlength, ih]
      rfl

/-- Rows that are taken two at a time. -/
theorem flatMap_pairs {α : Type _} (f : Nat -> α) (start n : Nat) :
    ((List.range' start n 2).flatMap fun y => [f y, f (y + 1)]) =
      (List.range' start (2 * n)).map f := by
  induction n generalizing start with
  | zero => rfl
  | succ n ih =>
      rw [List.range'_succ, List.flatMap_cons, ih, Nat.mul_succ, List.range'_succ, List.range'_succ]
      rfl

/-- The rows of the picture, with a light one below where their number is odd. -/
theorem map_line_pairs (qr : QrCode) :
    (List.range' 0 (2 * ((qr.width + 2 * quiet + 1) / 2))).map qr.line =
      qr.picture ++ List.replicate (qr.width % 2) qr.lightRow := by
  rw [← List.range_eq_range']
  cases Nat.mod_two_eq_zero_or_one qr.width with
  | inl heven =>
      have hcount : 2 * ((qr.width + 2 * quiet + 1) / 2) = qr.width + 2 * quiet := by omega
      rw [hcount, map_line, heven, List.replicate_zero, List.append_nil]
  | inr hodd =>
      have hcount : 2 * ((qr.width + 2 * quiet + 1) / 2) = qr.width + 2 * quiet + 1 := by omega
      rw [hcount, List.range_succ, List.map_append, map_line, hodd, List.map_singleton, line_below]
      rfl

theorem readHalfBlocks_render (qr : QrCode) :
    exists out, renderQrHalfBlocks qr = some out ∧
      readHalfBlocks out = some (qr.picture ++ List.replicate (qr.width % 2) qr.lightRow) := by
  rcases @halfBlockLines_shown qr [] [] 0 rfl with ⟨out, hrender, hfed⟩
  refine ⟨out, hrender, ?_⟩
  have hread : forall ys : List Nat, (ys.map fun y => (qr.rowPair y).map halfCell).mapM
      (fun line => line.mapM readHalves) = some (ys.map qr.rowPair) := by
    intro ys
    have hrows := Json.mapM_map_some (Json.mapM_map_some readHalves_halfCell) (ys.map qr.rowPair)
    rw [List.map_map] at hrows
    exact hrows
  unfold readHalfBlocks
  rw [Terminal.screen_of_feed hfed, List.nil_append, Nat.sub_zero]
  show Option.bind (List.mapM _ _) _ = _
  rw [hread, Option.bind_some, List.flatMap_map]
  simp only [QrCode.rowPair_fst, QrCode.rowPair_snd]
  show some _ = _
  rw [flatMap_pairs, map_line_pairs]

theorem readBlankLine_blankLine {cells : Nat} (h : 0 < cells) (row : List Bool) :
    readBlankLine cells (blankLine cells row) = some row := by
  have hcells : cells - 1 + 1 = cells := Nat.sub_add_cancel h
  have hread := unstretch_stretched (cells - 1) row
  rw [hcells] at hread
  unfold readBlankLine blankLine
  rw [Json.mapM_map_some readBlank_blankCell, Option.bind_some, hread]

theorem readCells_render (qr : QrCode) {cells : Nat} (h : 0 < cells) :
    exists out, renderQrCells qr cells = some out ∧ readCells cells out = some qr.picture := by
  rcases @cellsLines_shown qr [] [] cells (List.range (qr.width + 2 * quiet)) rfl with
    ⟨out, hrender, hfed⟩
  refine ⟨out, hrender, ?_⟩
  have hrows := Json.mapM_map_some (readBlankLine_blankLine h)
    ((List.range (qr.width + 2 * quiet)).map qr.line)
  rw [List.map_map, map_line] at hrows
  unfold readCells
  rw [Terminal.screen_of_feed hfed, List.nil_append]
  exact hrows

/-- Both renderings are read back as the code inside its light border, and they never look beyond
the list of modules. -/
theorem qr_renderings_faithful (qr : QrCode) :
    (exists out, renderQrHalfBlocks qr = some out ∧
      readHalfBlocks out = some (qr.picture ++ List.replicate (qr.width % 2) qr.lightRow)) ∧
    (forall cells, 0 < cells -> exists out, renderQrCells qr cells = some out ∧
      readCells cells out = some qr.picture) :=
  ⟨readHalfBlocks_render qr, fun _ h => readCells_render qr h⟩

/-- Two modules by two. -/
def checkered : QrCode where
  width := 2
  colors := [Color.dark, Color.light, Color.light, Color.dark]
  length_colors := rfl

example : checkered.rows = [[true, false], [false, true]] := by decide

theorem qr_renderings_faithful_checkered :
    exists out, renderQrCells checkered 2 = some out ∧
      readCells 2 out = some checkered.picture :=
  (qr_renderings_faithful checkered).right 2 (by decide)

end Host
end WispersAccess
